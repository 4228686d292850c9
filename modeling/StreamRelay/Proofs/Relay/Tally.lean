import Mathlib.Algebra.GroupWithZero.Nat
import StreamRelay.Proofs.Relay.Reachable

namespace StreamRelay

def Refusal.breaks (r : Refusal) : Bool :=
  decide (r.call = .receive) && r.cause.isOs && !r.cause.wouldBlock && !r.cause.interrupted

def Event.silent {T : Type} : Event T → Bool
  | .offered .. | .datagram .. => false
  | _ => true

namespace Host
variable {T : Type} {h h' : Host T}

def brokenReads (h : Host T) : List SocketId := (h.refusals.filter Refusal.breaks).map Refusal.sock

def sentBytes (h : Host T) : Nat := (h.datagrams.map fun datagram => datagram.1.length).sum

def Sending (h : Host T) : Prop := ∀ r ∈ h.refusals, r.call = .sendTo → r.cause.isOs = true

instance (h : Host T) : Decidable h.Sending :=
  inferInstanceAs (Decidable (∀ r ∈ h.refusals, r.call = .sendTo → r.cause.isOs = true))

theorem Sending.before (ages : Ages h h') (sending : h'.Sending) : h.Sending :=
  fun r there => sending r (ages.refusals r there)

structure Quiet (h h' : Host T) : Prop where
  offers : h'.offers = h.offers
  datagrams : h'.datagrams = h.datagrams
  broken : h'.brokenReads = h.brokenReads
  accepted : ∀ id ∈ h.accepted, id ∈ h'.accepted

theorem quiet_same (refusals : h'.refusals = h.refusals) (trace : h'.trace = h.trace) :
    Quiet h h' := by
  refine ⟨?_, ?_, ?_, fun id told => ?_⟩
  · simp only [offers, history, trace]
  · simp only [datagrams, history, trace]
  · simp only [brokenReads, refusals]
  · simpa only [accepted, trace] using told

theorem quiet_alter (h : Host T) (id : SocketId) (f : Sock T → Sock T) : Quiet h (h.alter id f) :=
  quiet_same rfl rfl

theorem Quiet.trans {a b c : Host T} (one : Quiet a b) (two : Quiet b c) : Quiet a c where
  offers := two.offers.trans one.offers
  datagrams := two.datagrams.trans one.datagrams
  broken := two.broken.trans one.broken
  accepted id told := two.accepted id (one.accepted id told)

theorem quiet_emit (h : Host T) {e : Event T} (silent : e.silent = true) : Quiet h (h.emit e) := by
  refine ⟨?_, ?_, rfl, accepted_emit h e⟩
  all_goals cases e <;> first | rfl | exact absurd silent Bool.false_ne_true

theorem quiet_note (h : Host T) (call : Call) (id : SocketId) (cause : Failure)
    (whole : ∀ watched, Refusal.breaks ⟨call, id, watched, cause⟩ = false) :
    Quiet h (h.note call id cause) := by
  refine ⟨rfl, rfl, ?_, fun _ told => told⟩
  simp only [brokenReads, note, List.filter_cons, whole, Bool.false_eq_true, if_false]

theorem brokenReads_note (h : Host T) (call : Call) (id : SocketId) (cause : Failure)
    (broke : ∀ watched, Refusal.breaks ⟨call, id, watched, cause⟩ = true) :
    (h.note call id cause).brokenReads = id :: h.brokenReads := by
  simp only [brokenReads, note, List.filter_cons, broke, if_true, List.map_cons]

theorem quiet_of_hears (hears : Hears h h') : Quiet h h' := by
  obtain ⟨refusals, told, trace, only⟩ := hears
  have silent {β : Type} {pick : Event T → Option β} (none : ∀ flag, pick (.told flag) = none) :
      h'.history pick = h.history pick := by
    refine history_silent trace fun s there => ?_
    obtain ⟨flag, same⟩ := only s there
    rw [same, none]
  refine ⟨silent fun _ => rfl, silent fun _ => rfl, by simp only [brokenReads, refusals], ?_⟩
  intro id before
  rw [accepted, trace, List.filterMap_append]
  exact List.mem_append_right _ before

end Host

namespace Relay
variable {T : Type} [Clock T]
open Run Host

theorem mild_quiet : Mild (T := T) Quiet :=
  mild_of_hears (fun _ => quiet_same rfl rfl) .trans quiet_of_hears

theorem modest_quiet : Modest (T := T) Quiet where
  toLively := mild_quiet.lively fun _ _ => quiet_same rfl rfl
  emit h e kept := quiet_emit h (by cases e <;> first | rfl | exact absurd kept Bool.false_ne_true)
  note h call id cause other := quiet_note h call id cause fun _ => by
    rcases other with rfl | rfl | rfl <;> rfl
  stderr _ _ := quiet_same rfl rfl
  console _ _ := quiet_same rfl rfl
  raise h := quiet_of_hears (hears_raise h .service)
  shut h id := by
    unfold shut
    split
    · exact (quiet_alter h id _).trans (quiet_emit _ rfl)
    · exact quiet_same rfl rfl
  entries _ _ := quiet_same rfl rfl
  selector h := (quiet_emit h rfl).trans (quiet_same rfl rfl)
  hasten _ _ := quiet_same rfl rfl

-- A connection that was admitted once and has ended.
def Gone (r : Relay T) (id : SocketId) : Prop :=
  ∃ c ∈ r.table.known, c.sock = id ∧ c.closed = true

-- Nobody is admitted, nothing but ends is counted, and who is gone stays so.
structure Kept (r r' : Relay T) : Prop where
  counters : ∃ ended, r'.stats.counters = { r.stats.counters with closed := ended }
  socks : socks r' = socks r
  gone : ∀ id, Gone r id → Gone r' id

omit [Clock T] in
theorem soft_kept : Soft (T := T) Kept where
  refl r := ⟨⟨_, rfl⟩, rfl, fun _ gone => gone⟩
  trans one two := by
    obtain ⟨ended, same⟩ := one.counters
    obtain ⟨later, same'⟩ := two.counters
    exact ⟨⟨later, by rw [same', same]⟩, two.socks.trans one.socks,
      fun id gone => two.gone id (one.gone id gone)⟩
  tend {r r'} tended := by
    refine ⟨⟨r'.stats.counters.closed, ?_⟩, ?_, ?_⟩
    · obtain ⟨-, accepted, sent, bytes, unsent, unread, -, -⟩ := tended
      generalize r'.stats.counters = c' at *
      cases c'
      simp_all
    · have numbered := congrArg (List.map Prod.fst) tended.known
      rwa [List.map_map, List.map_map] at numbered
    · intro id gone
      obtain ⟨c, known, rfl, closed⟩ := gone
      exact tended.gone c known closed

theorem resting_quiet : Resting (T := T) (Both Quiet Kept) (Both Quiet Kept) where
  toCourse := modest_quiet.course soft_kept
  log level text := both_of_keeps soft_kept (modest_quiet.log level text)
  rests _ := both_of_keeps soft_kept (changes_keeps fun h => quiet_emit h rfl)
  register id conn := both_of_keeps soft_kept (modest_quiet.register id conn)
  unregister id := both_of_keeps soft_kept (modest_quiet.unregister id)
  rest _ _ _ := ⟨quiet_same rfl rfl, ⟨_, rfl⟩, rfl, fun _ gone => gone⟩

-- How far the counters for data are ahead of what was offered and sent.
def ahead (m : Machine T (Relay T)) : Int × Int × Int :=
  (m.prog.stats.counters.datagrams - m.host.datagrams.length,
    m.prog.stats.counters.bytes - m.host.sentBytes,
    m.prog.stats.counters.datagrams + m.prog.stats.counters.forwardFailures - m.host.offers.length)

-- The counters beside what an observer has seen. Some reads may have broken before all this.
structure Tally (before : List SocketId) (m : Machine T (Relay T)) : Prop where
  accepted : m.prog.stats.counters.accepted = (socks m.prog).length
  told : ∀ id ∈ socks m.prog, id ∈ m.host.accepted
  data : ahead m = (0, 0, 0)
  errors : ∃ broken, m.host.brokenReads = broken ++ before ∧ broken.Nodup ∧
    m.prog.stats.counters.readErrors = broken.length ∧ ∀ id ∈ broken, Gone m.prog id

section Moves
variable {before : List SocketId} {h h' : Host T} {r r' : Relay T}

omit [Clock T] in
theorem Tally.kept (tally : Tally before ⟨h, r⟩) (quiet : Quiet h h') (kept : Kept r r') :
    Tally before ⟨h', r'⟩ := by
  obtain ⟨ended, same⟩ := kept.counters
  obtain ⟨broken, reads, once, counted, gone⟩ := tally.errors
  refine ⟨?_, ?_, ?_, broken, quiet.broken.trans reads, once, ?_, fun id there => ?_⟩
  · simp only [same, kept.socks]
    exact tally.accepted
  · intro id there
    exact quiet.accepted id (tally.told id (kept.socks ▸ there))
  · have level := tally.data
    simp only [ahead, sentBytes, same, quiet.offers, quiet.datagrams] at level ⊢
    exact level
  · simp only [same]
    exact counted
  · exact kept.gone id (gone id there)

omit [Clock T] in
theorem Tally.admit (tally : Tally before ⟨h, r⟩) {c : Connection} (told : c.sock ∈ h.accepted) :
    Tally before ⟨h, count (fun c => { c with accepted := c.accepted + 1 })
      (setTable (·.insert c) r)⟩ := by
  obtain ⟨broken, reads, once, counted, gone⟩ := tally.errors
  refine ⟨?_, ?_, tally.data, broken, reads, once, counted, fun id there => ?_⟩
  · have length := tally.accepted
    simp only [socks, count, setTable, Table.insert, List.map_append, List.length_append,
      List.length_map, List.length_singleton] at length ⊢
    omega
  · intro id there
    simp only [socks, count, setTable, Table.insert, List.map_append, List.mem_append,
      List.map_cons, List.map_nil, List.mem_singleton] at there
    cases there with
    | inl known => exact tally.told id known
    | inr last => exact last ▸ told
  · obtain ⟨d, known, same, closed⟩ := gone id there
    exact ⟨d, List.mem_append_left _ known, same, closed⟩

end Moves

def Tallies (before : List SocketId) (m m' : Machine T (Relay T)) : Prop :=
  Even m m' ∧ (Whole m → Distinct m' → Tally before m → Tally before m')

def TalliesIf (before : List SocketId) (m m' : Machine T (Relay T)) : Prop :=
  EvenIf m m' ∧ (Documented m'.host → Sending m'.host →
    Whole m → Distinct m' → Tally before m → Tally before m')

variable {before : List SocketId}

theorem tallies_course : Course (Tallies (T := T) before) (TalliesIf before) where
  refl m := ⟨even_course.refl m, fun _ _ tally => tally⟩
  trans one two := by
    refine ⟨even_course.trans one.1 two.1, fun whole distinct tally => ?_⟩
    obtain ⟨middle, -⟩ := one.1.2 whole
    have apart := (two.1.1.grows middle.1).2.distinct middle.1 distinct
    exact two.2 middle distinct (one.2 whole apart tally)
  weaken path := ⟨even_course.weaken path.1, fun _ _ => path.2⟩
  falls one two := by
    refine ⟨even_course.falls one.1 two.1, fun documented sending whole distinct tally => ?_⟩
    have grown := (two.1.1.grows (one.1.1.grows whole.1).1).2.ages
    have earlier := fun r there => documented r (grown.refusals r there)
    obtain ⟨middle, -⟩ := one.1.2 earlier whole
    have apart := (two.1.1.grows middle.1).2.distinct middle.1 distinct
    refine two.2 documented sending middle distinct (one.2 earlier ?_ whole apart tally)
    exact Sending.before grown sending

omit [Clock T] in
-- It is enough to look at coherent relays with distinct numbers.
theorem tallies_of_step {act : Run T (Relay T) α} (even : Within Even EvenIf act)
    (step : ∀ m, Coherent m → Distinct m → Tally before m → Ends act m
      (fun _ m' => Distinct m' → Tally before m')
      fun _ m' => Documented m'.host → Sending m'.host → Distinct m' → Tally before m') :
    Within (Tallies before) (TalliesIf before) act := by
  intro m
  have steps := Ends.given (Coherent m ∧ Distinct m ∧ Tally before m) fun all =>
    step m all.1 all.2.1 all.2.2
  have start {m' : Machine T (Relay T)} (path : Ground m m') (whole : Whole m)
      (distinct : Distinct m') : Coherent m ∧ Distinct m := by
    have apart := (path.grows whole.1).2.distinct whole.1 distinct
    exact ⟨whole.2 apart, apart⟩
  refine ((even m).and steps).imp ?_ ?_
  · intro _ m' ended
    refine ⟨ended.1, fun whole distinct tally => ?_⟩
    obtain ⟨coherent, apart⟩ := start ended.1.1 whole distinct
    exact ended.2 ⟨coherent, apart, tally⟩ distinct
  · intro _ m' ended
    refine ⟨ended.1, fun documented sending whole distinct tally => ?_⟩
    obtain ⟨coherent, apart⟩ := start ended.1.1 whole distinct
    exact ended.2 ⟨coherent, apart, tally⟩ documented sending distinct

omit [Clock T] in
theorem tallies_of_both {m m' : Machine T (Relay T)} (even : Even m m')
    (path : Both Quiet Kept m m') : Tallies before m m' :=
  ⟨even, fun _ _ tally => tally.kept path.1 path.2⟩

omit [Clock T] in
theorem tallies_of_kept {act : Run T (Relay T) α} (even : Within Even EvenIf act)
    (kept : Within (Both Quiet Kept) (Both Quiet Kept) act) :
    Within (Tallies before) (TalliesIf before) act := by
  intro m
  refine ((even m).and (kept m)).imp ?_ ?_
  · exact fun _ _ both => tallies_of_both both.1 both.2
  · exact fun _ _ both => ⟨both.1, fun _ _ _ _ tally => tally.kept both.2.1 both.2.2⟩

theorem acceptOnce_tally {m : Machine T (Relay T)} (based : Based m) (tally : Tally before m) :
    Ends acceptOnce m (fun _ => Tally before) fun _ => Tally before := by
  obtain ⟨h, r⟩ := m
  apply ends_acceptOnce
  refine ((ground_parts.accept _ ⟨h, r⟩).and (accept_runs modest_quiet.toLively)).imp ?_ ?_
  · intro found m' reached
    obtain ⟨ground, h', s, rest, path, -, -, rfl⟩ := reached
    have orderly := (ground.grows based).1.orderly
    have begun : Quiet h (h.emit (.begun .accept (some r.listener.sock))) := quiet_emit h rfl
    have taken : Quiet h' (h'.dequeue r.listener.sock rest) := quiet_alter h' _ _
    have told := taken.trans (quiet_emit _ (e := .accept found.1 (h'.number found.1)) rfl)
    have held := tally.kept ((begun.trans path).trans told) (soft_kept.refl r)
    generalize came : (h'.dequeue r.listener.sock rest).emit _ = host at *
    have there : found.1 ∈ host.accepted := by
      rw [← came]
      exact List.mem_cons_self
    have unasked : Soft (T := T) fun _ _ => True := ⟨fun _ => trivial, fun _ _ => trivial, fun _ => trivial⟩
    have quiet := modest_quiet.enroll unasked (fun _ _ => trivial) found.1 ⟨found.2, []⟩ ⟨host, r⟩
    refine (quiet.and (enroll_ends orderly found.1 ⟨found.2, []⟩)).imp ?_ ?_
    · intro admitted m' ended
      obtain ⟨⟨moved, -⟩, h'', -, came⟩ := ended
      constructor
      case dismissed =>
        rintro rfl
        obtain rfl := came
        exact held.kept moved (soft_kept.refl r)
      case enrolled =>
        rintro conn rfl
        obtain ⟨-, -, same, rfl⟩ := came
        have later := held.kept moved (soft_kept.refl r)
        have admitted := later.admit (c := conn) (moved.accepted _ (by rw [same]; exact there))
        exact admitted.kept (modest_quiet.logged _ .info _) (soft_kept.refl _)
    · intro f m' ended
      obtain ⟨⟨moved, -⟩, ⟨-, same⟩, -⟩ := ended
      exact held.kept moved (same ▸ soft_kept.refl r)
  · intro f m' reached
    obtain ⟨h', path, rfl⟩ := reached.2.cases
    have still := tally.kept ((quiet_emit h rfl).trans path) (soft_kept.refl r)
    have logged (text : String) := still.kept (modest_quiet.logged h' .error text) (soft_kept.refl r)
    constructor
    case blocked => exact fun _ => still
    case broken => exact fun _ _ => still
    case skipped => exact fun _ _ _ _ => logged _
    case rests =>
      intro _ _ _ _
      refine (resting_quiet.pause retryDelay _).imp ?_ ?_
      · exact fun _ _ path => (logged _).kept path.1 path.2
      · exact fun _ _ path => (logged _).kept path.1 path.2
    case foreign => exact fun _ _ _ => still

theorem tallies_acceptAll : Within (Tallies (T := T) before) (TalliesIf before) acceptAll := by
  refine acceptAll_within tallies_course (tallies_of_step even_acceptOnce fun m coherent _ tally => ?_)
  refine (acceptOnce_tally coherent.based tally).imp ?_ ?_
  · exact fun _ _ after _ => after
  · exact fun _ _ after _ _ _ => after

theorem forward_counts {m : Machine T (Relay T)} (sink : Sink) (data : Bytes)
    (origin : Option SocketId) :
    Ends (sink.forward data origin) m
      (fun sent m' => m'.host.offers = m.host.offers ++ [(origin, data)] ∧
        m'.host.datagrams = m.host.datagrams ++ (if sent then [(data, sink.dest)] else []) ∧
        m'.host.brokenReads = m.host.brokenReads ∧ m'.prog = m.prog)
      fun _ m' => ¬Sending m'.host := by
  have offered := offers_emit_offered m.host origin data
  have told := quiet_emit (m.host.emit (.offered origin data)) (e := .begun .sendTo (some sink.sock)) rfl
  have remarks {h h' : Host T} (remarked : h.Remarked h') : Quiet h h' :=
    remarked.keeps (modest_quiet.refl h) (modest_quiet.logged h)
  apply ends_forward
  apply (sendTo_runs (m := ⟨_, m.prog⟩) modest_quiet.toLively told data sink.dest).imp
  · intro _ m' reached h' remarked
    obtain ⟨h, s, path, -, rfl⟩ := reached
    have quiet := remarks remarked
    refine ⟨?_, ?_, ?_, rfl⟩
    · rw [quiet.offers]
      exact path.offers.trans offered
    · rw [quiet.datagrams]
      refine (datagrams_emit_datagram h s.fd data sink.dest).trans ?_
      rw [path.datagrams]
      rfl
    · rw [quiet.broken]
      exact path.broken
  · intro f m' reached
    obtain ⟨h, path, rfl⟩ := reached
    have noted := path.trans (quiet_note h .sendTo sink.sock f fun _ => rfl)
    constructor
    · intro _ h' remarked
      have all := noted.trans (remarks remarked)
      exact ⟨all.offers.trans offered, by rw [all.datagrams]; simp [datagrams, history],
        all.broken, rfl⟩
    · intro foreign sending
      have refused : f.isOs = true := sending _ List.mem_cons_self rfl
      exact Bool.false_ne_true (foreign.symm.trans refused)

structure Passed (broke : Bool) (id : SocketId) (m m' : Machine T (Relay T)) : Prop where
  data : ahead m' = ahead m
  broken : m'.host.brokenReads = (if broke then [id] else []) ++ m.host.brokenReads
  readErrors : m'.prog.stats.counters.readErrors =
    m.prog.stats.counters.readErrors + if broke then 1 else 0

omit [Clock T] in
theorem passed_of_quiet {m m' : Machine T (Relay T)} {id : SocketId}
    (path : Hosted Quiet m m') : Passed false id m m' := by
  obtain ⟨quiet, same⟩ := path
  refine ⟨?_, quiet.broken, by simp [same]⟩
  simp only [ahead, sentBytes, quiet.offers, quiet.datagrams, same]

omit [Clock T] in
theorem Passed.trans {a b c : Machine T (Relay T)} {broke : Bool} {id : SocketId}
    (one : Passed false id a b) (two : Passed broke id b c) : Passed broke id a c := by
  refine ⟨two.data.trans one.data, ?_, ?_⟩
  · rw [two.broken, one.broken]; rfl
  · rw [two.readErrors, one.readErrors]; simp

theorem readOnce_passed (conn : Connection) (m : Machine T (Relay T)) :
    Ends (readOnce conn) m
      (fun result => Passed (result = some .failed) conn.sock m)
      fun _ m' => Sending m'.host → Passed false conn.sock m m' := by
  apply ends_readOnce
  refine (receive_runs modest_quiet.toLively (quiet_emit m.host rfl) _).imp ?_ ?_
  · intro data m' reached
    obtain ⟨h, quiet, rfl⟩ : ∃ h, Quiet m.host h ∧ m' = ⟨h, m.prog⟩ := by
      obtain ⟨h, s, path, -, -, ⟨-, -, rfl⟩ | ⟨-, -, -, rfl⟩⟩ := reached
      · exact ⟨_, (path.trans (quiet_alter h _ _)).trans (quiet_emit _ rfl), rfl⟩
      · exact ⟨_, path.trans (quiet_emit h rfl), rfl⟩
    constructor
    case stops =>
      intro _
      exact passed_of_quiet ⟨quiet.trans (modest_quiet.logged h .info _), rfl⟩
    case passes =>
      intro _
      refine (forward_counts m.prog.sink data (some conn.sock)).imp ?_ ?_
      · intro sent m' ended
        obtain ⟨offers, datagrams, broken, same⟩ := ended
        rw [quiet.offers] at offers
        rw [quiet.datagrams] at datagrams
        rw [quiet.broken] at broken
        refine ⟨?_, broken, ?_⟩
        · cases sent <;>
            simp [ahead, sentBytes, offers, datagrams, same, count, Counters.forwarded] <;> omega
        · cases sent <;> simp [count, Counters.forwarded, same]
      · exact fun _ _ bad sending => absurd sending bad
  · intro f m' reached
    obtain ⟨h, path, rfl⟩ := reached
    have whole (right : f.wouldBlock = true ∨ f.interrupted = true ∨ f.isOs = false) :
        Passed false conn.sock m ⟨h.note .receive conn.sock f, m.prog⟩ := by
      refine passed_of_quiet ⟨path.trans (quiet_note h .receive conn.sock f fun _ => ?_), rfl⟩
      rcases right with right | right | right <;> simp [Refusal.breaks, right]
    constructor
    case blocked => exact fun right => whole (.inl right)
    case broken => exact fun _ right => whole (.inr (.inl right))
    case counted =>
      intro waits goes os
      have broke := brokenReads_note h .receive conn.sock f
        fun _ => by simp [Refusal.breaks, waits, goes, os]
      have logged := modest_quiet.logged (h.note .receive conn.sock f) .warning
        ("read from " ++ conn.label ++ " failed: " ++ f.message)
      refine ⟨?_, ?_, rfl⟩
      · have offers := logged.offers.trans path.offers
        have datagrams := logged.datagrams.trans path.datagrams
        simp only [ahead, sentBytes, offers, datagrams, count]
      · rw [logged.broken, broke, path.broken]
        rfl
    case foreign => exact fun _ _ right _ => whole (.inr (.inr right))

theorem drainFor_passed (conn : Connection) (fuel : Nat) (m : Machine T (Relay T)) :
    Ends (drainFor conn fuel) m (fun result => Passed (result = .failed) conn.sock m)
      fun _ m' => Sending m'.host → Passed false conn.sock m m' := by
  induction fuel generalizing m with
  | zero => exact passed_of_quiet ⟨quiet_same rfl rfl, rfl⟩
  | succ fuel ih =>
    simp only [drainFor, ends_bind]
    apply (readOnce_passed conn m).normally
    intro result middle first
    cases result with
    | some result => simpa using first
    | none =>
      simp only [reduceCtorEq, decide_false] at first
      refine (ih middle).imp ?_ ?_
      · exact fun _ _ second => first.trans second
      · exact fun _ _ second sending => first.trans (second sending)

theorem drain_passed (conn : Connection) (m : Machine T (Relay T)) :
    Ends (drain conn) m (fun result => Passed (result = .failed) conn.sock m)
      fun _ m' => Sending m'.host → Passed false conn.sock m m' := by
  simp only [drain, ends_bind, ends_asks]
  exact drainFor_passed conn _ m

omit [Clock T] in
theorem Tally.passed {m middle m' : Machine T (Relay T)} (tally : Tally before m) (based : Based m)
    {broke : Bool} {id : SocketId} (drained : Counted Settled m middle)
    (passed : Passed broke id m middle) (path : Both Quiet Kept middle m')
    (alive : ¬Gone m.prog id) (ended : broke = true → Gone m'.prog id) : Tally before m' := by
  obtain ⟨settled, f, data, same⟩ := drained
  obtain ⟨broken, reads, once, counted, gone⟩ := tally.errors
  obtain ⟨left, counters⟩ := path.2.counters
  have told := (settled based.orderly).2.accepted
  have admitted : socks middle.prog = socks m.prog := by rw [same]; rfl
  have before_gone (id : SocketId) (there : id ∈ broken) : Gone m'.prog id := by
    refine path.2.gone id ?_
    rw [same]
    exact gone id there
  refine ⟨?_, ?_, ?_, (if broke then [id] else []) ++ broken, ?_, ?_, ?_, ?_⟩
  · rw [path.2.socks, admitted, ← tally.accepted, counters, same]
    exact (data _).1
  · intro id there
    rw [path.2.socks, admitted] at there
    exact path.1.accepted id (told ▸ tally.told id there)
  · have level := passed.data.trans tally.data
    simp only [ahead, sentBytes, counters, path.1.offers, path.1.datagrams] at level ⊢
    exact level
  · rw [path.1.broken, passed.broken, reads, List.append_assoc]
  · cases broke with
    | false => exact once
    | true => exact List.nodup_cons.mpr ⟨fun there => alive (gone id there), once⟩
  · rw [counters]
    refine passed.readErrors.trans ?_
    rw [counted]
    cases broke <;> simp
  · intro other there
    cases List.mem_append.mp there with
    | inr earlier => exact before_gone other earlier
    | inl new =>
      cases broke with
      | false => exact absurd new List.not_mem_nil
      | true =>
        rw [List.mem_singleton.mp new]
        exact ended rfl

omit [Clock T] in
theorem Roster.notGone {hand : List SocketId} {m : Machine T (Relay T)} (roster : Roster hand m)
    {c : Connection} (known : c ∈ m.prog.table.known) (alive : c.closed = false) :
    ¬Gone m.prog c.sock := by
  intro gone
  obtain ⟨d, there, same, closed⟩ := gone
  rw [roster.unique there known same, alive] at closed
  exact Bool.false_ne_true closed

theorem teardown_gone {m : Machine T (Relay T)} (coherent : Coherent m) (distinct : Distinct m)
    {conn : Connection} (known : conn ∈ m.prog.table.known) (alive : conn.closed = false) :
    Ends (endOf conn) m
      (fun _ m' => Both Quiet Kept m m' ∧ Gone m'.prog conn.sock) fun _ m' => ¬Documented m'.host := by
  have closing := modest_quiet.closing (soft_kept (T := T))
  have torn := (teardown_ends coherent distinct conn.sock).and (closing.teardown conn.sock m)
  simp only [endOf, ends_bind, ends_sets]
  refine torn.imp ?_ fun _ _ bad => bad.1
  intro _ m' ended
  obtain ⟨torn, path⟩ := ended
  have counted := closing.tend m'.host m'.prog (count (fun c => { c with closed := c.closed + 1 }) m'.prog)
    (tended_aside ⟨rfl, rfl, rfl, rfl, rfl⟩ rfl ⟨_, rfl⟩ rfl fun hung => hung)
  refine ⟨closing.trans path counted, ?_⟩
  rcases torn.outcome with ⟨-, gone⟩ | ⟨other, listed, same, living, eq⟩
  · exact absurd ((gone conn known rfl).symm.trans alive) Bool.noConfusion
  · refine ⟨{ other with registered := false, closed := true }, ?_, same, rfl⟩
    simp only [count, eq, setTable, Table.known_retire]
    exact List.mem_map.mpr ⟨other, listed, if_pos rfl⟩

theorem tallies_serve (entry : Entry) :
    Within (Tallies (T := T) before) (TalliesIf before) (serve entry) := by
  refine tallies_of_step (even_serve entry) fun m coherent distinct tally => ?_
  have whole : Whole m := ⟨coherent.based, fun _ => coherent⟩
  apply ends_serve
  case accepts =>
    intro _
    have accepted : Within (Tallies before) (TalliesIf before) (acceptAll (T := T)) :=
      tallies_acceptAll
    refine (accepted m).imp ?_ ?_
    · exact fun _ m' path apart => path.2 whole apart tally
    · exact fun _ m' path documented sending apart => path.2 documented sending whole apart tally
  case passes => exact fun _ _ _ => tally
  case reads =>
    intro conn _ found gone
    obtain ⟨id, -, looked⟩ := Option.bind_eq_some_iff.mp found
    obtain ⟨known, -⟩ := Table.mem_of_connection? looked
    have alive := coherent.roster.notGone known gone
    have stay (m' : Machine T (Relay T)) : Both Quiet Kept m' m' :=
      ⟨modest_quiet.refl m'.host, soft_kept.refl m'.prog⟩
    refine ((reading_settled.drain conn m).and (drain_passed conn m)).imp ?_ ?_
    · intro outcome middle both
      obtain ⟨drained, passed⟩ := both
      obtain ⟨after, apart, table, -⟩ := coherent.counted distinct drained
      have still : conn ∈ middle.prog.table.known := table ▸ known
      refine ⟨fun open' _ => ?_, fun _ => (teardown_gone after apart still gone).imp ?_ ?_⟩
      · exact tally.passed coherent.based drained passed (stay middle) alive fun never => by
          simp [open'] at never
      · exact fun _ m' ended _ =>
          tally.passed coherent.based drained passed ended.1 alive fun _ => ended.2
      · exact fun _ _ bad documented => absurd documented bad
    · intro _ m' both _ sending _
      exact tally.passed coherent.based both.1 (both.2 sending) (stay m') alive fun never => by
        simp at never

theorem tallies_rounds : Rounds (T := T) (Tallies before) (TalliesIf before) where
  toCourse := tallies_course
  log level text := tallies_of_kept (even_rounds.log level text) (resting_quiet.log level text)
  stop := tallies_of_kept even_rounds.stop (modest_quiet.closing soft_kept).stop
  select timeout overview m := by
    have kept : Within (Both Quiet Kept) (Both Quiet Kept) (Os.select timeout overview) :=
      both_of_keeps soft_kept (modest_quiet.select timeout overview)
    refine ((even_rounds.select timeout overview m).and (kept m)).imp ?_ ?_
    · exact fun _ _ both => tallies_of_both both.1 both.2
    · exact fun _ _ both => tallies_of_both both.1 both.2
  poll control timeout := by
    refine tallies_of_kept (even_rounds.poll control timeout) (both_of_keeps soft_kept ?_)
    exact modest_quiet.attends.control modest_quiet.log control timeout
  control h r c := tallies_of_both (even_rounds.control h r c)
    ⟨quiet_same rfl rfl, ⟨_, rfl⟩, rfl, fun _ gone => gone⟩
  maybeResume := tallies_of_kept even_maybeResume resting_quiet.maybeResume
  serve := tallies_serve

theorem tallies_close : Within (Tallies (T := T) before) (TalliesIf before) close := by
  refine tallies_of_kept even_close ((modest_quiet.closing soft_kept).finish ?_)
  exact fun _ _ => ⟨quiet_same rfl rfl, ⟨_, rfl⟩, rfl, fun _ gone => gone⟩

theorem tallies_act (op : Operation T) (counts : op.Counts) :
    Within (Tallies before) (TalliesIf before) op.act := by
  have quiet {act : Run T (Relay T) Unit} (even : Within Even EvenIf act) (keeps : Keeps Quiet act) :
      Within (Tallies before) (TalliesIf before) act :=
    tallies_of_kept even (both_of_keeps soft_kept keeps)
  refine tallies_rounds.act tallies_acceptAll ?_ tallies_close ?_ ?_ op counts
  · exact fun delay => tallies_of_kept (even_pause delay) (resting_quiet.pause delay)
  · exact fun actions => quiet (even_act (.happen actions) trivial) (mild_quiet.happen actions)
  · exact fun batches => quiet (even_act (.prepare batches) trivial)
      (changes_keeps fun h => mild_quiet.batches h batches)

theorem Begun.tally {m : Machine T (Relay T)} (begun : Begun m) : Tally m.host.brokenReads m := by
  have nobody : socks m.prog = [] := by rw [socks, begun.table]; rfl
  refine ⟨?_, ?_, ?_, [], rfl, List.nodup_nil, ?_, fun _ there => absurd there List.not_mem_nil⟩
  · rw [nobody, begun.counters]; rfl
  · rw [nobody]; exact fun _ there => absurd there List.not_mem_nil
  · simp [ahead, sentBytes, begun.counters, begun.offers, begun.datagrams]
  · rw [begun.counters]; rfl

theorem Reached.tally {start m : Machine T (Relay T)} (reached : Reached Operation.Counts start m)
    (begun : Begun start) (sending : Sending m.host) (distinct : Distinct m) :
    Tally start.host.brokenReads m := by
  have wholly {m : Machine T (Relay T)} (reached : Reached Operation.Counts start m) : Whole m :=
    reached.whole begun.whole
  induction reached with
  | start => exact begun.tally
  | @done m op m' reached _ counts ran ih =>
    have moved : Tallies start.host.brokenReads m m' := (tallies_act op counts m).of_ok ran
    have whole := wholly reached
    have grown := (moved.1.1.grows whole.1).2
    have earlier := ih (Sending.before grown.ages sending) (grown.distinct whole.1 distinct)
    exact moved.2 whole distinct earlier
  | @failed m op f m' reached _ counts ran documented ih =>
    have moved : TalliesIf start.host.brokenReads m m' := (tallies_act op counts m).of_error ran
    have whole := wholly reached
    have grown := (moved.1.1.grows whole.1).2
    have earlier := ih (Sending.before grown.ages sending) (grown.distinct whole.1 distinct)
    exact moved.2 documented sending whole distinct earlier

end Relay
end StreamRelay
