import StreamRelay.Proofs.Host.Directions
import StreamRelay.Proofs.Relay.Upkeep

namespace StreamRelay.Relay
variable {T : Type}
open Run Host

-- Coherent as far as the numbers of connections allow.
def Whole (m : Machine T (Relay T)) : Prop := Based m ∧ (Distinct m → Coherent m)

def Balances (m m' : Machine T (Relay T)) : Prop :=
  Whole m → Whole m' ∧ (Distinct m' → offset m'.prog = offset m.prog)

def Even (m m' : Machine T (Relay T)) : Prop := Ground m m' ∧ Balances m m'

-- After a failure, unless it had a cause that is not documented.
def EvenIf (m m' : Machine T (Relay T)) : Prop :=
  Ground m m' ∧ (Documented m'.host → Balances m m')

theorem Balances.trans {a b c : Machine T (Relay T)} (one : Balances a b) (two : Balances b c)
    (ground : Ground b c) : Balances a c := by
  intro whole
  obtain ⟨middle, first⟩ := one whole
  obtain ⟨last, second⟩ := two middle
  refine ⟨last, fun distinct => (second distinct).trans (first ?_)⟩
  exact (ground.grows middle.1).2.distinct middle.1 distinct

variable [Clock T]

theorem even_course : Course (Even (T := T)) EvenIf where
  refl m := ⟨ground_parts.refl m, fun whole => ⟨whole, fun _ => rfl⟩⟩
  trans one two := ⟨ground_parts.trans one.1 two.1, one.2.trans two.2 two.1⟩
  weaken path := ⟨path.1, fun _ => path.2⟩
  falls {a b c} one two := by
    refine ⟨ground_parts.trans one.1 two.1, fun documented whole => ?_⟩
    have grown := (two.1.grows (one.1.grows whole.1).1).2
    have before : Documented b.host := fun r there => documented r (grown.ages.refusals r there)
    exact (one.2 before).trans (two.2 documented) two.1 whole

omit [Clock T] in
theorem even_of_step {act : Run T (Relay T) α} (ground : Within Ground Ground act)
    (step : ∀ m, Coherent m → Distinct m → Ends act m
      (fun _ m' => Distinct m' → Coherent m' ∧ offset m'.prog = offset m.prog)
      fun _ m' => Documented m'.host → Distinct m' →
        Coherent m' ∧ offset m'.prog = offset m.prog) : Within Even EvenIf act := by
  intro m
  have steps := Ends.given (Coherent m ∧ Distinct m) fun both => step m both.1 both.2
  have level (m' : Machine T (Relay T)) (path : Ground m m') (after : Coherent m ∧ Distinct m →
      Distinct m' → Coherent m' ∧ offset m'.prog = offset m.prog) : Balances m m' := by
    intro whole
    obtain ⟨based, grown⟩ := path.grows whole.1
    have both (distinct : Distinct m') : Coherent m' ∧ offset m'.prog = offset m.prog := by
      have earlier := grown.distinct whole.1 distinct
      exact after ⟨whole.2 earlier, earlier⟩ distinct
    exact ⟨⟨based, fun distinct => (both distinct).1⟩, fun distinct => (both distinct).2⟩
  refine ((ground m).and steps).imp ?_ ?_
  · exact fun _ m' ended => ⟨ended.1, level m' ended.1 ended.2⟩
  · exact fun _ m' ended => ⟨ended.1, fun documented => level m' ended.1 fun both =>
      ended.2 both documented⟩

omit [Clock T] in
theorem even_settled {m : Machine T (Relay T)} {h : Host T} (settled : Settled m.host h) :
    Even m ⟨h, m.prog⟩ := by
  have ground : Ground m ⟨h, m.prog⟩ := ⟨settled.aged, lax_kin.refl m.prog⟩
  refine ⟨ground, fun whole => ⟨⟨(ground.grows whole.1).1, fun distinct => ?_⟩, fun _ => rfl⟩⟩
  exact (whole.2 ((ground.grows whole.1).2.distinct whole.1 distinct)).settled settled

omit [Clock T] in
theorem even_of_settled {act : Run T (Relay T) α} (keeps : Keeps Settled act) :
    Within Even Even act := by
  have even (m m' : Machine T (Relay T)) (path : Hosted Settled m m') : Even m m' := by
    obtain ⟨h, settled, rfl⟩ := path.cases
    exact even_settled settled
  exact keeps.mono (even _ _) (even _ _)

theorem even_acceptOnce : Within (Even (T := T)) EvenIf acceptOnce := by
  refine even_of_step ground_parts.acceptOnce fun m coherent distinct => ?_
  refine (acceptOnce_ends coherent distinct).imp ?_ ?_
  · exact fun _ _ after _ => after
  · exact fun _ _ after documented _ => after documented

theorem even_acceptAll : Within (Even (T := T)) EvenIf acceptAll :=
  acceptAll_within even_course even_acceptOnce

omit [Clock T] in
theorem Rested.offset {m m' : Machine T (Relay T)} (rested : Rested m m') :
    offset m'.prog = offset m.prog := by
  obtain ⟨rest, same⟩ := rested
  rw [same]
  rfl

theorem even_pause (delay : T) : Within Even EvenIf (pause delay) := by
  refine even_of_step (ground_parts.pause delay) fun m coherent distinct => ?_
  refine (pause_coherent coherent distinct delay).imp ?_ ?_
  · exact fun _ _ ended _ => ⟨ended.1, ended.2.offset⟩
  · exact fun _ _ bad documented => absurd documented bad

theorem even_maybeResume : Within (Even (T := T)) EvenIf maybeResume := by
  refine even_of_step ground_parts.maybeResume fun m coherent distinct => ?_
  refine (maybeResume_ends coherent distinct).imp ?_ ?_
  · exact fun _ _ ended _ => ⟨ended.1, ended.2.offset⟩
  · exact fun _ _ bad documented => absurd documented bad

omit [Clock T] in
theorem Coherent.counted {m m' : Machine T (Relay T)} (coherent : Coherent m)
    (distinct : Distinct m) (path : Counted Settled m m') :
    Coherent m' ∧ Distinct m' ∧ m'.prog.table = m.prog.table ∧ offset m'.prog = offset m.prog := by
  obtain ⟨h, r⟩ := m
  obtain ⟨h', r'⟩ := m'
  obtain ⟨settled, f, data, same⟩ := path
  simp only at settled same
  subst same
  refine ⟨(Firm.settled coherent settled).aside ⟨rfl, rfl, rfl⟩,
    distinct.settled coherent.based settled, rfl, ?_⟩
  simp only [offset, count, (data _).1, (data _).2]

theorem endOf_ends {m : Machine T (Relay T)} (coherent : Coherent m) (distinct : Distinct m)
    {conn : Connection} (known : conn ∈ m.prog.table.known) (alive : conn.closed = false) :
    Ends (endOf conn) m (fun _ m' => Coherent m' ∧ offset m'.prog = offset m.prog)
      fun _ m' => ¬Documented m'.host := by
  simp only [endOf, ends_bind, ends_sets]
  apply (teardown_ends coherent distinct conn.sock).normally
  intro _ m' torn
  refine ⟨torn.coherent.aside ⟨rfl, rfl, rfl⟩, ?_⟩
  rcases torn.outcome with ⟨-, gone⟩ | ⟨other, listed, same, living, eq⟩
  · exact absurd ((gone conn known rfl).symm.trans alive) Bool.noConfusion
  · have retired := coherent.roster.offset_retire listed living
    rw [← eq] at retired
    simp only [offset, count] at retired ⊢
    omega

theorem even_serve (entry : Entry) : Within (Even (T := T)) EvenIf (serve entry) := by
  refine even_of_step (ground_parts.serve entry) fun m coherent distinct => ?_
  have stay (m' : Machine T (Relay T)) (even : Even m m') (distinct' : Distinct m') :
      Coherent m' ∧ offset m'.prog = offset m.prog := by
    obtain ⟨whole, level⟩ := even.2 ⟨coherent.based, fun _ => coherent⟩
    exact ⟨whole.2 distinct', level distinct'⟩
  apply ends_serve
  case accepts =>
    intro _
    refine (even_acceptAll m).imp (fun _ m' even => stay m' even) ?_
    intro _ m' even documented
    exact stay m' ⟨even.1, even.2 documented⟩
  case passes => exact fun _ _ _ => ⟨coherent, rfl⟩
  case reads =>
    intro conn _ found gone
    obtain ⟨id, -, looked⟩ := Option.bind_eq_some_iff.mp found
    obtain ⟨known, -⟩ := Table.mem_of_connection? looked
    refine (reading_settled.drain conn m).imp ?_ ?_
    · intro outcome middle drained
      obtain ⟨after, apart, table, balance⟩ := coherent.counted distinct drained
      have still : conn ∈ middle.prog.table.known := table ▸ known
      refine ⟨fun _ _ => ⟨after, balance⟩, fun _ => (endOf_ends after apart still gone).imp ?_ ?_⟩
      · exact fun _ _ ended _ => ⟨ended.1, ended.2.trans balance⟩
      · exact fun _ _ bad documented => absurd documented bad
    · intro _ m' drained _ _
      obtain ⟨after, -, -, balance⟩ := coherent.counted distinct drained
      exact ⟨after, balance⟩

theorem even_rounds : Rounds (T := T) Even EvenIf where
  toCourse := even_course
  log level text := even_of_settled (calm_settled.steady.log level text) |>.mono id even_course.weaken
  stop := even_of_settled (changes_keeps fun h => settled_raise h .service) |>.mono id
    even_course.weaken
  select timeout overview := even_of_settled (select_keeps calm_settled.steady timeout overview)
  poll control timeout := even_of_settled (calm_settled.steady.control control timeout) |>.mono id
    even_course.weaken
  control h r c := by
    have ground : Ground ⟨h, r⟩ ⟨h, { r with control := some c }⟩ :=
      ground_parts.edit h r _ ⟨rfl, rfl, rfl, rfl, rfl⟩
    refine ⟨ground, fun whole => ⟨⟨(ground.grows whole.1).1, fun distinct => ?_⟩, fun _ => rfl⟩⟩
    exact (whole.2 distinct).aside ⟨rfl, rfl, rfl⟩
  maybeResume := even_maybeResume
  serve := even_serve

theorem ample_directed : Ample (T := T) Directed where
  toSteady := calm_directed.steady
  told _ _ := directed_same rfl
  raise h := directed_raise h .service
  shut := directed_shut
  entries _ _ := directed_same rfl
  selector _ := directed_same rfl
  take _ _ _ := directed_same rfl
  hasten _ _ := directed_same rfl
  dequeue _ _ _ _ _ _ _ := directed_same rfl

def SameMark (r r' : Relay T) : Prop := r'.closed = r.closed

omit [Clock T] in
theorem lax_mark : Lax (T := T) SameMark where
  refl _ := rfl
  trans one two := two.trans one
  edit edited := edited.closed
  insert _ _ := rfl

theorem directed_parts : Parts (T := T) (Both Directed SameMark) (Both Directed SameMark) :=
  ample_directed.parts lax_mark

-- A relay that has ended: nothing is open or watched any more.
structure Over (m : Machine T (Relay T)) : Prop where
  coherent : Coherent m
  listener : m.prog.listener.closed = true
  connections : ∀ c ∈ m.prog.table.known, c.closed = true
  sink : m.host.isOpen m.prog.sink.sock = false
  selector : m.host.selectorOpen = false
  entries : m.host.entries = []
  told : m.host.serviceStop = true
  finish : m.prog.stats.finish.isSome = true
  mark : m.prog.closed = true

theorem Firm.release {h : Host T} {r : Relay T} (firm : Firm false ⟨h, r⟩)
    (ended : ∀ c ∈ r.table.known, c.closed = true) (listening : r.listener.closed = true)
    (id : SocketId) : Firm false ⟨(h.shut id).quit, r⟩ := by
  have nobody {c : Connection} {p : Prop} (known : c ∈ r.table.known) (alive : c.closed = false) : p :=
    absurd ((ended c known).symm.trans alive) Bool.noConfusion
  obtain ⟨orderly, ages⟩ := aged_shut h id firm.based.orderly
  have based : Based ⟨h.shut id, r⟩ :=
    ⟨orderly, Nat.lt_of_lt_of_le firm.based.listener ages.grown⟩
  obtain ⟨left, later⟩ := ample_aged.selector (h.shut id) orderly
  have roster : Roster [] ⟨h.shut id, r⟩ :=
    firm.roster.shut fun c known alive => nobody known alive
  refine ⟨⟨left, based.listener⟩, roster.holds based ⟨later, fun _ _ => rfl, rfl⟩, ?_, ?_⟩
  · refine ⟨fun c known alive => ?_, List.nodup_nil, fun _ _ there => ?_, fun on => ?_⟩
    · exact nobody known alive
    · exact absurd there List.not_mem_nil
    · exact absurd on Bool.false_ne_true
  · have before := firm.listening
    simp only [listening, Bool.not_true] at before
    refine isOpen_shut.trans ?_
    simp only [before, listening, Bool.not_true, ite_self]

theorem over_of_ended {h : Host T} {r : Relay T} (firm : Firm false ⟨h, r⟩)
    (ended : ∀ c ∈ r.table.known, c.closed = true) (listening : r.listener.closed = true)
    (told : h.serviceStop = true) (finish : r.stats.finish.isSome = true)
    (mark : r.closed = true) {id : SocketId} (same : r.sink.sock = id) (text : String) :
    Over ⟨(h.shut id).quit.logged .info text, r⟩ := by
  subst same
  have deaf : attentive r = false := by simp [attentive, listening]
  have released := (firm.release ended listening r.sink.sock).settled
    (calm_settled.steady.logged _ .info text)
  have sink : (h.shut r.sink.sock).isOpen r.sink.sock = false := isOpen_shut.trans (if_pos rfl)
  have still := (directed_shut h r.sink.sock).told told
  obtain ⟨trace, stderr, same⟩ := logged_same (h.shut r.sink.sock).quit .info text
  refine ⟨?_, listening, ended, ?_, ?_, ?_, ?_, finish, mark⟩
  · rw [Coherent, deaf]
    exact released
  · rw [same]; exact sink
  · rw [same]; rfl
  · rw [same]; rfl
  · rw [same]; exact still

omit [Clock T] in
theorem Roster.nobody {hand : List SocketId} {m : Machine T (Relay T)} (roster : Roster hand m)
    (ended : ∀ c ∈ m.prog.table.known, c.closed = true) : m.prog.table.live = [] := by
  refine List.eq_nil_iff_forall_not_mem.mpr fun e listed => ?_
  obtain ⟨c, known, -, -, alive⟩ := (roster.live e.1 e.2).mp listed
  exact absurd ((ended c known).symm.trans alive) Bool.noConfusion

theorem close_ends {m : Machine T (Relay T)} (coherent : Coherent m) (distinct : Distinct m)
    (begun : m.prog.closed = false) :
    Ends close m (fun _ m' => Over m' ∧ offset m'.prog = offset m.prog)
      fun _ m' => ¬Documented m'.host := by
  obtain ⟨h, r⟩ := m
  simp only at begun
  have first : Coherent ⟨h.raise .service, { r with closed := true }⟩ :=
    (Firm.settled coherent (settled_raise h .service)).aside ⟨rfl, rfl, rfl⟩
  have apart : Distinct ⟨h.raise .service, { r with closed := true }⟩ :=
    distinct.settled coherent.based (settled_raise h .service)
  simp only [close, ends_bind, ends_gets, begun, Bool.false_eq_true, if_false, ends_sets, Os.stop,
    ends_changes]
  refine ((directed_parts.closeListener _).and (closeListener_ends first apart)).imp ?_
    fun _ _ bad => bad.2
  intro _ middle hung
  obtain ⟨⟨told, -⟩, second, apart, listening, rest⟩ := hung
  refine ((directed_parts.closeAll middle).and (closeAll_ends second apart)).imp ?_
    fun _ _ bad => bad.2
  intro ended last torn
  obtain ⟨⟨told', -⟩, emptied, count⟩ := torn
  obtain ⟨h', r'⟩ := last
  have rest' : r' = { r with
      closed := true, listener := middle.prog.listener, table := r'.table } := by
    have kept := emptied.rest
    rw [rest] at kept
    exact kept
  have hung : r'.listener.closed = true := by rw [rest']; exact listening
  have firm : Firm false ⟨h', r'⟩ := by
    have deaf : attentive r' = false := by simp [attentive, hung]
    exact deaf ▸ emptied.coherent
  simp only [ends_gets, Sink.close, ends_bind, ends_close, ends_closeSelector, ends_asks, summary,
    ends_log]
  constructor
  · apply over_of_ended
    · exact firm.aside ⟨rfl, rfl, rfl⟩
    · exact emptied.ended
    · exact hung
    · exact told'.told (told.told rfl)
    · rfl
    · rw [rest']; rfl
    · rfl
  · have nobody : r'.table.live = [] := firm.roster.nobody emptied.ended
    have table : r.table.live.length = ended := by
      rw [count, rest]
    have counters : r'.stats.counters = r.stats.counters := by rw [rest']
    simp only [offset, Relay.count, nobody, counters, List.length_nil, table]
    omega

theorem even_close : Within (Even (T := T)) EvenIf close := by
  refine even_of_step (ground_parts.finish ground_mark) fun m coherent distinct => ?_
  cases begun : m.prog.closed with
  | true =>
    simp only [close, ends_bind, ends_gets, begun, if_true]
    exact fun _ => ⟨coherent, rfl⟩
  | false =>
    refine (close_ends coherent distinct begun).imp ?_ ?_
    · exact fun _ _ ended _ => ⟨ended.1.coherent, ended.2⟩
    · exact fun _ _ bad documented => absurd documented bad

end StreamRelay.Relay
