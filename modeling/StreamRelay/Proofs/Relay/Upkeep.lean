import StreamRelay.Proofs.Relay.Coherence

namespace StreamRelay.Relay
variable {T : Type}
open Run Host

-- Everything agrees, and the listener is watched or not as it is said.
structure Firm (watching : Bool) (m : Machine T (Relay T)) : Prop where
  based : Based m
  roster : Roster [] m
  watch : Watch watching m
  listening : m.host.isOpen m.prog.listener.sock = !m.prog.listener.closed

def attentive (r : Relay T) : Bool := !r.listener.paused && !r.listener.closed

def Coherent (m : Machine T (Relay T)) : Prop := Firm (attentive m.prog) m

section Moves
variable {h h' : Host T} {r r' : Relay T} {watching : Bool}

theorem Firm.settled (firm : Firm watching ⟨h, r⟩) (path : Settled h h') : Firm watching ⟨h', r⟩ := by
  obtain ⟨orderly, stays⟩ := path firm.based.orderly
  have bounded := firm.based.listener
  refine ⟨⟨orderly, Nat.lt_of_lt_of_le bounded stays.grown⟩,
    firm.roster.holds firm.based stays.holds,
    firm.watch.kept firm.based stays.ages stays.entries, ?_⟩
  exact (stays.isOpen _ bounded).trans firm.listening

theorem Distinct.ages (distinct : Distinct ⟨h, r⟩) (based : Based ⟨h, r⟩) (ages : Ages h h') :
    Distinct ⟨h', r⟩ := by
  intro e there
  have number := ages.number _ based.listener
  simp only at number ⊢
  rw [number]
  exact distinct e there

theorem Distinct.settled (distinct : Distinct ⟨h, r⟩) (based : Based ⟨h, r⟩)
    (path : Settled h h') : Distinct ⟨h', r⟩ :=
  distinct.ages based (path based.orderly).2.ages

theorem Roster.aside {hand : List SocketId} (roster : Roster hand ⟨h, r⟩)
    (table : r'.table = r.table) (sock : r'.listener.sock = r.listener.sock) :
    Roster hand ⟨h, r'⟩ where
  idle := sock ▸ roster.idle
  taken id there := by
    have taken := roster.taken id (by simpa only [socks, table] using there)
    exact ⟨taken.bounded, taken.idle, sock ▸ taken.other⟩
  once := by simpa only [socks, table] using roster.once
  numbers := table ▸ roster.numbers
  live fd id := table ▸ roster.live fd id
  registered := table ▸ roster.registered
  isOpen := table ▸ roster.isOpen
  number := table ▸ roster.number
  accepted := by simpa only [socks, table] using roster.accepted

theorem Watch.aside (watch : Watch watching ⟨h, r⟩) (table : r'.table = r.table)
    (sock : r'.listener.sock = r.listener.sock) : Watch watching ⟨h, r'⟩ where
  watched := table ▸ watch.watched
  keys := watch.keys
  sound := by simpa only [ownEntry, table, sock] using watch.sound
  listed := by simpa only [ownEntry, sock] using watch.listed

structure Aside (r r' : Relay T) : Prop where
  table : r'.table = r.table
  sock : r'.listener.sock = r.listener.sock
  closed : r'.listener.closed = r.listener.closed

theorem Firm.aside (firm : Firm watching ⟨h, r⟩) (aside : Aside r r') : Firm watching ⟨h, r'⟩ where
  based := ⟨firm.based.orderly, aside.sock ▸ firm.based.listener⟩
  roster := firm.roster.aside aside.table aside.sock
  watch := firm.watch.aside aside.table aside.sock
  listening := by
    simp only [aside.sock, aside.closed]
    exact firm.listening

theorem Firm.hangUp (firm : Firm false ⟨h, r⟩) : Firm false
    ⟨h.shut r.listener.sock, setListener (fun l => { l with closed := true }) r⟩ := by
  obtain ⟨orderly, ages⟩ := aged_shut h r.listener.sock firm.based.orderly
  have apart (c : Connection) (known : c ∈ r.table.known) : r.listener.sock ≠ c.sock :=
    (firm.roster.taken c.sock (List.mem_append_left _ (List.mem_map_of_mem known))).other.symm
  refine ⟨⟨orderly, Nat.lt_of_lt_of_le firm.based.listener ages.grown⟩, ?_, ?_, ?_⟩
  · exact (firm.roster.shut fun c known _ => apart c known).aside rfl rfl
  · exact (firm.watch.kept firm.based ages entries_shut).aside rfl rfl
  · exact isOpen_shut.trans (if_pos rfl)

theorem Firm.listen {h : Host T} {r : Relay T} (firm : Firm false ⟨h, r⟩)
    (unwatched : h.watching? (h.number r.listener.sock) = none) :
    Firm true ⟨h.watch r.listener.sock none, r⟩ := by
  obtain ⟨orderly, ages⟩ := aged_entries h (h.watch r.listener.sock none).entries firm.based.orderly
  exact ⟨⟨orderly, firm.based.listener⟩, firm.roster.holds firm.based ⟨ages, fun _ _ => rfl, rfl⟩,
    firm.watch.listen unwatched, firm.listening⟩

theorem roll_retire {r : Relay T} {conn : Connection} :
    roll (setTable (·.retire conn) r) = roll r := by
  simp only [roll, setTable, Table.known_retire, List.map_map]
  refine List.map_congr_left fun c _ => ?_
  simp only [Function.comp_apply]
  split <;> rfl

theorem retire_firm {h h' : Host T} {r : Relay T} (firm : Firm watching ⟨h, r⟩)
    (distinct : Distinct ⟨h, r⟩) {conn : Connection} (known : conn ∈ r.table.known)
    (alive : conn.closed = false) (released : h.Released conn.sock h') :
    Firm watching ⟨h'.shut conn.sock, setTable (·.retire conn) r⟩ ∧
      Distinct ⟨h'.shut conn.sock, setTable (·.retire conn) r⟩ := by
  have bounded := firm.based.listener
  have taken := firm.roster.taken conn.sock (List.mem_append_left _ (List.mem_map_of_mem known))
  obtain ⟨orderly, ages⟩ := aged_shut h' conn.sock released.orderly
  refine ⟨⟨⟨orderly, ?_⟩, ?_, ?_, ?_⟩, ?_⟩
  · exact Nat.lt_of_lt_of_le bounded (Nat.le_trans released.holds.grown ages.grown)
  · exact (firm.roster.holds firm.based released.holds).retire known alive
  · exact firm.watch.retire firm.roster firm.based distinct known alive released
  · refine isOpen_shut.trans ((if_neg taken.other).trans ?_)
    exact (released.holds.isOpen _ bounded).trans firm.listening
  · intro e there
    rw [roll_retire] at there
    have number := released.holds.number _ bounded
    simp only [number_shut] at number ⊢
    exact number.symm ▸ distinct e there

end Moves

variable [Clock T] {m : Machine T (Relay T)} {watching : Bool}

def Rested (m m' : Machine T (Relay T)) : Prop :=
  ∃ rest, m'.prog = setListener (fun l => { l with resumeAt := rest }) m.prog

theorem unwatchListener_ends (firm : Firm watching m) (distinct : Distinct m)
    (listening : m.prog.listener.closed = false) :
    Ends unwatchListener m (fun _ m' => Firm false m' ∧ m'.prog = m.prog)
      fun _ m' => ¬Documented m'.host := by
  have opened : m.host.isOpen m.prog.listener.sock = true := by
    rw [firm.listening, listening]; rfl
  have deaf {h' : Host T} (released : m.host.Released m.prog.listener.sock h') :
      Firm false ⟨h', m.prog⟩ := by
    have bounded := firm.based.listener
    refine ⟨⟨released.orderly, Nat.lt_of_lt_of_le bounded released.holds.grown⟩,
      firm.roster.holds firm.based released.holds, firm.watch.unlisten distinct released, ?_⟩
    exact (released.holds.isOpen _ bounded).trans firm.listening
  apply ends_unwatchListener
  refine (unregister_released firm.based.orderly opened).imp ?_ ?_
  · intro _ m' ended
    obtain ⟨same, released⟩ := ended
    have after := deaf released
    rw [← same] at after
    exact ⟨after, same⟩
  · intro f m' ended
    obtain ⟨same, released, bad⟩ := ended
    have after := deaf released
    rw [← same] at after
    refine ⟨fun _ => ⟨after, same⟩, fun undocumented => ?_⟩
    simp only [Bool.or_eq_false_iff] at undocumented
    exact bad undocumented.1 undocumented.2

omit [Clock T] in
theorem attentive_iff {r : Relay T} :
    attentive r = true ↔ r.listener.paused = false ∧ r.listener.closed = false := by
  simp [attentive]

theorem ends_pause_attentive {delay : T} {done : Machine T (Relay T) → Prop}
    {failed : Failure → Machine T (Relay T) → Prop} (awake : attentive m.prog = true)
    (rests : Ends unwatchListener m (fun _ m' => done (atRest delay m')) failed) :
    Ends (pause delay) m (fun _ => done) failed := by
  obtain ⟨unpaused, listening⟩ := attentive_iff.mp awake
  apply ends_pause
  case still => exact fun still => absurd still (by simp [unpaused, listening])
  case awake => exact fun _ _ => rests

theorem pause_ends (firm : Firm watching m) (distinct : Distinct m)
    (awake : attentive m.prog = true) (delay : T) :
    Ends (pause delay) m (fun _ m' => Coherent m' ∧ Rested m m')
      fun _ m' => ¬Documented m'.host := by
  have listening := (attentive_iff.mp awake).2
  apply ends_pause_attentive awake
  apply (unwatchListener_ends firm distinct listening).normally
  intro _ m' ended
  obtain ⟨after, same⟩ := ended
  have quiet : Settled m'.host (atRest delay m').host :=
    (settled_emit m'.host (.rests _) rfl).trans (calm_settled.steady.logged _ .warning _)
  refine ⟨(after.settled quiet).aside ⟨rfl, rfl, rfl⟩, some (Clock.add m'.host.clock delay), ?_⟩
  simp only [atRest, same]

theorem pause_coherent (coherent : Coherent m) (distinct : Distinct m) (delay : T) :
    Ends (pause delay) m (fun _ m' => Coherent m' ∧ Rested m m')
      fun _ m' => ¬Documented m'.host := by
  cases awake : attentive m.prog with
  | true => exact pause_ends coherent distinct awake delay
  | false =>
    apply ends_pause
    case still => exact fun _ => ⟨coherent, m.prog.listener.resumeAt, rfl⟩
    case awake =>
      intro unpaused listening
      simp [attentive, unpaused, listening] at awake

theorem maybeResume_ends (coherent : Coherent m) (distinct : Distinct m) :
    Ends maybeResume m (fun _ m' => Coherent m' ∧ Rested m m')
      fun _ m' => ¬Documented m'.host := by
  apply ends_maybeResume
  case rests => exact fun _ => ⟨coherent, m.prog.listener.resumeAt, rfl⟩
  case due =>
    intro time resting listening _
    have asleep : attentive m.prog = false := by simp [attentive, Listener.paused, resting]
    have firm : Firm false m := asleep ▸ coherent
    obtain ⟨h, r⟩ := m
    have woken : Firm false ⟨h, setListener (fun l => { l with resumeAt := none }) r⟩ :=
      firm.aside ⟨rfl, rfl, rfl⟩
    have awake : attentive (setListener (fun l => { l with resumeAt := none }) r) = true := by
      simp only at listening
      simp [attentive, setListener, Listener.paused, listening]
    refine (register_ends (m := ⟨h, setListener (fun l => { l with resumeAt := none }) r⟩)
      calm_settled.steady none).imp ?_ ?_
    · intro _ m' reached
      obtain ⟨h', path, -, unwatched, rfl⟩ := reached
      have heard := (woken.settled path).listen unwatched
      rw [← awake] at heard
      exact ⟨heard, none, rfl⟩
    · intro f m' reached
      obtain ⟨h', path, rfl⟩ := reached
      have noted := path.trans (calm_settled.note h' .register r.listener.sock f)
      refine ⟨fun _ => ?_, fun bad => undocumented bad⟩
      have logged (text : String) := noted.trans (calm_settled.steady.logged _ .error text)
      have apart : Distinct ⟨h, setListener (fun l => { l with resumeAt := none }) r⟩ := distinct
      apply (pause_ends (woken.settled (logged _)) (apart.settled woken.based (logged _)) awake
        retryDelay).normally
      intro _ m' ended
      obtain ⟨after, rest, same⟩ := ended
      exact ⟨after, rest, same⟩

theorem enroll_coherent {sock : SocketId} (based : Based m) (roster : Roster [sock] m)
    (watch : Watch (attentive m.prog) m)
    (listening : m.host.isOpen m.prog.listener.sock = !m.prog.listener.closed) (peer : Peer) :
    Ends (enroll sock peer) m
      (fun admitted m' => Coherent m' ∧ m'.prog.stats = m.prog.stats ∧
        offset m'.prog = offset m.prog - if admitted.isSome then 1 else 0)
      fun _ m' => ¬Documented m'.host := by
  have bounded := based.listener
  refine ((ground_parts.enroll sock peer m).and (enroll_ends based.orderly sock peer)).imp ?_
    fun _ _ left => left.2.2
  intro admitted m' both
  obtain ⟨ground, h, path, came⟩ := both
  obtain ⟨after, stays⟩ := path based.orderly
  have kept := roster.holds based stays.holds
  have heard := watch.kept based stays.ages stays.entries
  have still := (stays.isOpen _ bounded).trans listening
  have later := (ground.grows based).1
  cases admitted with
  | none =>
    obtain rfl := came
    have apart : sock ≠ m.prog.listener.sock :=
      (roster.taken sock (List.mem_append_right _ (List.mem_singleton_self _))).other
    have grown := (aged_shut h sock after).2
    have watched := heard.kept ⟨after, Nat.lt_of_lt_of_le bounded stays.grown⟩ grown entries_shut
    refine ⟨⟨later, kept.dismiss, watched, ?_⟩, rfl, by simp⟩
    exact isOpen_shut.trans ((if_neg apart).trans still)
  | some conn =>
    obtain ⟨opened, unwatched, rfl, rfl⟩ := came
    exact ⟨⟨later, kept.adopt heard opened unwatched peer.address,
      heard.adopt unwatched peer.address, still⟩, rfl,
      kept.offset_adopt heard unwatched peer.address⟩

theorem acceptOnce_ends (coherent : Coherent m) (distinct : Distinct m) :
    Ends acceptOnce m (fun _ m' => Coherent m' ∧ offset m'.prog = offset m.prog)
      fun _ m' => Documented m'.host → Coherent m' ∧ offset m'.prog = offset m.prog := by
  obtain ⟨h, r⟩ := m
  have stay {h' : Host T} (path : Settled h h') : Coherent ⟨h', r⟩ := Firm.settled coherent path
  apply ends_acceptOnce
  refine (accept_ends calm_settled.steady).imp ?_ ?_
  · intro found m' reached
    obtain ⟨h', s, rest, path, known, queue, rfl⟩ := reached
    have before := stay path
    obtain ⟨orderly, ages⟩ := ((aged_dequeue known queue).trans (aged_emit _
      (.accept found.1 (h'.number found.1)))) before.based.orderly
    have based : Based ⟨_, r⟩ := ⟨orderly, Nat.lt_of_lt_of_le before.based.listener ages.grown⟩
    have held := before.roster.take before.based.orderly known queue (h'.number found.1)
    have watch := before.watch.kept before.based ages rfl
    have still : (h'.dequeue r.listener.sock rest).isOpen r.listener.sock = !r.listener.closed :=
      isOpen_dequeue.trans before.listening
    refine (enroll_coherent based held watch still ⟨found.2, []⟩).imp ?_ fun _ _ bad documented =>
      absurd documented bad
    intro admitted m' ended
    obtain ⟨firm, stats, balance⟩ := ended
    constructor
    case dismissed =>
      rintro rfl
      exact ⟨firm, by simpa using balance⟩
    case enrolled =>
      rintro conn rfl
      have counted : Coherent
          ⟨m'.host, count (fun c => { c with accepted := c.accepted + 1 }) m'.prog⟩ :=
        Firm.aside firm ⟨rfl, rfl, rfl⟩
      refine ⟨counted.settled (calm_settled.steady.logged _ .info _), ?_⟩
      simp only [Option.isSome_some, if_true, offset, count] at balance ⊢
      omega
  · intro f m' reached
    obtain ⟨h', path, rfl⟩ := reached.cases
    have logged (text : String) := path.trans (calm_settled.steady.logged h' .error text)
    constructor
    case blocked => exact fun _ => ⟨stay path, rfl⟩
    case broken => exact fun _ _ => ⟨stay path, rfl⟩
    case skipped => exact fun _ _ _ _ => ⟨stay (logged _), rfl⟩
    case rests =>
      intro _ _ _ _
      refine (pause_coherent (stay (logged _))
        (distinct.settled coherent.based (logged _)) retryDelay).imp ?_ ?_
      · intro _ m' ended
        obtain ⟨after, rest, same⟩ := ended
        exact ⟨after, by rw [same]; rfl⟩
      · exact fun _ _ bad documented => absurd documented bad
    case foreign => exact fun _ _ _ _ => ⟨stay path, rfl⟩

-- What the end of a connection comes to: nothing at all if it has ended before.
structure TornDown (sock : SocketId) (m m' : Machine T (Relay T)) : Prop where
  coherent : Coherent m'
  distinct : Distinct m'
  outcome : (m' = m ∧ ∀ c ∈ m.prog.table.known, c.sock = sock → c.closed = true) ∨
    ∃ conn ∈ m.prog.table.known, conn.sock = sock ∧ conn.closed = false ∧
      m'.prog = setTable (·.retire conn) m.prog

theorem unwatch_ends {conn : Connection} (based : Based m)
    (opened : m.host.isOpen conn.sock = true) :
    Ends (unwatch conn) m (fun _ m' => m'.prog = m.prog ∧ m.host.Released conn.sock m'.host)
      fun _ m' => ¬Documented m'.host := by
  simp only [unwatch, ends_bind, ends_outcome]
  refine (unregister_released based.orderly opened).imp (fun _ _ freed => freed) ?_
  intro f m' ended
  obtain ⟨same, released, bad⟩ := ended
  split
  · rw [ends_log]
    exact ⟨same, released.settled (calm_settled.steady.logged m'.host .debug _)⟩
  · rename_i undocumented
    simp only [Bool.or_eq_true, not_or, Bool.not_eq_true] at undocumented
    exact bad undocumented.1 undocumented.2

theorem teardown_ends (coherent : Coherent m) (distinct : Distinct m) (sock : SocketId) :
    Ends (teardown sock) m (fun _ => TornDown sock m) fun _ m' => ¬Documented m'.host := by
  have once := (List.nodup_append.mp coherent.roster.once).1
  simp only [teardown, ends_bind, ends_gets]
  cases found : m.prog.table.connection? sock with
  | none =>
    refine ⟨coherent, distinct, .inl ⟨rfl, fun c known same => ?_⟩⟩
    have other := Table.connection?_of_mem once known
    rw [same, found] at other
    exact absurd other (by simp)
  | some conn =>
    obtain ⟨known, rfl⟩ := Table.mem_of_connection? found
    simp only
    cases gone : conn.closed with
    | true =>
      refine ⟨coherent, distinct, .inl ⟨rfl, fun c there same => ?_⟩⟩
      rw [coherent.roster.unique there known same, gone]
    | false =>
      have registered : conn.registered = true := by
        rw [coherent.roster.registered conn known, gone]; rfl
      have opened : m.host.isOpen conn.sock = true := by
        rw [coherent.roster.isOpen conn known, gone]; rfl
      simp only [Bool.false_eq_true, if_false, ends_bind, ends_onlyIf, registered, if_true,
        release, ends_sets, ends_close]
      apply (unwatch_ends coherent.based opened).normally
      intro _ m' ended
      obtain ⟨same, released⟩ := ended
      obtain ⟨firm, apart⟩ := retire_firm coherent distinct known gone released
      rw [same]
      exact ⟨firm, apart, .inr ⟨conn, known, rfl, gone, rfl⟩⟩

theorem closeListener_ends (coherent : Coherent m) (distinct : Distinct m) :
    Ends closeListener m
      (fun _ m' => Coherent m' ∧ Distinct m' ∧ m'.prog.listener.closed = true ∧
        m'.prog = { m.prog with listener := m'.prog.listener })
      fun _ m' => ¬Documented m'.host := by
  simp only [closeListener, ends_bind, ends_gets]
  cases gone : m.prog.listener.closed with
  | true => exact ⟨coherent, distinct, gone, rfl⟩
  | false =>
    simp only [Bool.false_eq_true, if_false, ends_bind, ends_close, ends_sets]
    refine ((unwatchListener_within ground_parts.toCourse ground_parts.unregister m).and
      (unwatchListener_ends coherent distinct gone)).imp ?_ fun _ _ bad => bad.2
    intro _ m' ended
    obtain ⟨ground, firm, same⟩ := ended
    obtain ⟨h, r⟩ := m'
    simp only at same
    subst same
    have apart := (distinct.ages coherent.based (ground.grows coherent.based).2.ages).ages firm.based
      (aged_shut h m.prog.listener.sock firm.based.orderly).2
    have deaf : attentive (setListener (fun l => { l with closed := true }) m.prog) = false :=
      Bool.and_false _
    have hung := firm.hangUp
    rw [← deaf] at hung
    exact ⟨hung, apart, rfl, rfl⟩

omit [Clock T] in
theorem TornDown.alive {sock : SocketId} {m' : Machine T (Relay T)} (torn : TornDown sock m m')
    {c : Connection} (known : c ∈ m'.prog.table.known) (alive : c.closed = false) :
    c ∈ m.prog.table.known ∧ c.sock ≠ sock := by
  rcases torn.outcome with ⟨same, gone⟩ | ⟨conn, -, rfl, -, same⟩
  · rw [same] at known
    refine ⟨known, fun eq => ?_⟩
    exact absurd ((gone c known eq).symm.trans alive) Bool.noConfusion
  · rw [same] at known
    rcases Table.mem_retire known with earlier | ⟨d, -, -, rfl⟩
    · exact earlier
    · exact absurd alive Bool.noConfusion

omit [Clock T] in
theorem TornDown.rest {sock : SocketId} {m' : Machine T (Relay T)} (torn : TornDown sock m m') :
    m'.prog = { m.prog with table := m'.prog.table } := by
  rcases torn.outcome with ⟨same, -⟩ | ⟨conn, -, -, -, same⟩
  · rw [same]
  · rw [same]; rfl

structure AllEnded (m m' : Machine T (Relay T)) : Prop where
  coherent : Coherent m'
  distinct : Distinct m'
  ended : ∀ c ∈ m'.prog.table.known, c.closed = true
  rest : m'.prog = { m.prog with table := m'.prog.table }

theorem teardowns_ends (conns : List Connection) (coherent : Coherent m) (distinct : Distinct m)
    (all : ∀ c ∈ m.prog.table.known, c.closed = false → c.sock ∈ conns.map Connection.sock) :
    Ends (conns.forM fun conn => teardown conn.sock) m (fun _ => AllEnded m)
      fun _ m' => ¬Documented m'.host := by
  induction conns generalizing m with
  | nil =>
    refine ⟨coherent, distinct, fun c known => ?_, rfl⟩
    cases gone : c.closed with
    | true => rfl
    | false => exact absurd (all c known gone) List.not_mem_nil
  | cons conn rest ih =>
    rw [List.forM_eq_forM, List.forM_cons, ends_bind]
    apply (teardown_ends coherent distinct conn.sock).normally
    intro _ middle torn
    refine (ih torn.coherent torn.distinct fun c known alive => ?_).normally ?_
    · obtain ⟨before, differs⟩ := torn.alive known alive
      cases List.mem_cons.mp (all c before alive) with
      | inl same => exact absurd same differs
      | inr later => exact later
    · intro _ last ended
      refine ⟨ended.coherent, ended.distinct, ended.ended, ended.rest.trans ?_⟩
      rw [torn.rest]

omit [Clock T] in
theorem Roster.toList {hand : List SocketId} (roster : Roster hand m) {fd : Int} {id : SocketId}
    (there : (fd, id) ∈ m.prog.table.live) :
    ∃ c ∈ m.prog.table.known, m.prog.table.connection? id = some c ∧ c.sock = id := by
  obtain ⟨c, known, rfl, -, -⟩ := (roster.live fd id).mp there
  exact ⟨c, known, Table.connection?_of_mem (List.nodup_append.mp roster.once).1 known, rfl⟩

omit [Clock T] in
theorem Roster.length_toList {hand : List SocketId} (roster : Roster hand m) :
    m.prog.table.toList.length = m.prog.table.live.length := by
  have every : ∀ e ∈ m.prog.table.live, (m.prog.table.connection? e.2).isSome = true := by
    intro e there
    obtain ⟨c, -, found, -⟩ := roster.toList there
    rw [found]; rfl
  rw [Table.toList, List.length_filterMap_eq_countP]
  exact List.countP_eq_length.mpr every

theorem closeAll_ends (coherent : Coherent m) (distinct : Distinct m) :
    Ends closeAll m (fun ended m' => AllEnded m m' ∧ ended = m.prog.table.live.length)
      fun _ m' => ¬Documented m'.host := by
  simp only [closeAll, ends_bind, ends_gets, ends_pure]
  refine (teardowns_ends m.prog.table.toList coherent distinct fun c known alive => ?_).normally ?_
  · have there := (coherent.roster.live c.fd c.sock).mpr ⟨c, known, rfl, rfl, alive⟩
    obtain ⟨d, -, found, same⟩ := coherent.roster.toList there
    exact List.mem_map.mpr ⟨d, List.mem_filterMap.mpr ⟨_, there, found⟩, same⟩
  · exact fun _ _ ended => ⟨ended, coherent.roster.length_toList⟩

end StreamRelay.Relay
