import StreamRelay.Proofs.Relay.Listening
import StreamRelay.Proofs.Relay.Rearming
import StreamRelay.Proofs.Relay.Shutdown

namespace StreamRelay
variable {T : Type}

-- Whether an accept begins with it.
def Event.asks : Event T → Bool
  | .begun .accept _ => true
  | _ => false

namespace Host
variable {h h' : Host T}

def asked (h : Host T) : Nat := h.trace.countP fun s => s.event.asks

def Unasked (h h' : Host T) : Prop := h'.asked = h.asked

theorem Unasked.trans {a b c : Host T} (one : Unasked a b) (two : Unasked b c) : Unasked a c :=
  Eq.trans two one

theorem unasked_emit (h : Host T) {e : Event T} (other : e.asks = false) : Unasked h (h.emit e) := by
  simp [Unasked, asked, emit, other]

theorem unasked_of_adds (adds : Adds h h') : Unasked h h' := by
  obtain ⟨new, trace, calm⟩ := adds
  have none : new.countP (fun s => s.event.asks) = 0 := by
    refine List.countP_eq_zero.mpr fun s there asks => ?_
    have kept := calm s there
    cases known : s.event with
    | begun call id => cases call <;> simp [known, Event.asks, Event.calm] at asks kept
    | _ => simp [known, Event.asks] at asks
  simp [Unasked, asked, trace, List.countP_append, none]

theorem asked_begun (h : Host T) (id : SocketId) :
    (h.emit (.begun .accept (some id))).asked = h.asked + 1 := by
  simp [asked, emit, Event.asks]

end Host

namespace Relay
open Run Host

-- What one accept is answered, and what becomes of whom it brings.
inductive Answer where
  | admitted (conn : Connection)
  | dismissed (sock : SocketId)
  | interrupted
  | skipped (cause : Failure)
  | blocked
  | refused (cause : Failure)

namespace Answer

def goesOn : Answer → Bool
  | blocked | refused _ => false
  | _ => true

def refuses : Answer → Bool
  | refused _ => true
  | _ => false

def admitted? : Answer → Option Connection
  | admitted conn => some conn
  | _ => none

def outcome : Answer → AcceptOutcome
  | admitted _ => .admitted
  | blocked | refused _ => .done
  | _ => .again

end Answer

section Defs
variable [Clock T]

def Prepared (m : Machine T (Relay T)) (sock : SocketId) : Prop :=
  ∃ ready watched, Os.setBlocking sock false m = .ok () ready ∧
    Os.register sock (some sock) ready = .ok () watched

-- The table with one more connection at its end, and the counter beside it.
def takeIn (r : Relay T) (conn : Connection) : Relay T :=
  count (fun c => { c with accepted := c.accepted + 1 })
    { r with table := ⟨r.table.known ++ [conn], r.table.live ++ [(conn.fd, conn.sock)]⟩ }

-- The relay and what is watched are as before.
structure Untouched (m m' : Machine T (Relay T)) : Prop where
  prog : m'.prog = m.prog
  entries : m'.host.entries = m.host.entries

-- What the listener does with each answer.
inductive Answered (m : Machine T (Relay T)) : Answer → Machine T (Relay T) → Prop where
  | admitted : Os.accept m.prog.listener.sock m = .ok (conn.sock, conn.peer) taken →
      Prepared taken conn.sock → m'.prog = takeIn m.prog conn →
      m'.host.entries = m.host.entries ++ [conn.entry] → conn.closed = false →
      Answered m (.admitted conn) m'
  | dismissed : Os.accept m.prog.listener.sock m = .ok (sock, address) taken → ¬Prepared taken sock →
      m'.host.isOpen sock = false → Untouched m m' → Answered m (.dismissed sock) m'
  | interrupted : Os.accept m.prog.listener.sock m = .error f m' → f.wouldBlock = false →
      f.interrupted = true → Untouched m m' → Answered m .interrupted m'
  | skipped : Os.accept m.prog.listener.sock m = .error f failed → f.wouldBlock = false →
      f.interrupted = false → f.isOs = true → concernsOne f = true → Untouched m m' →
      Answered m (.skipped f) m'
  | blocked : Os.accept m.prog.listener.sock m = .error f m' → f.wouldBlock = true →
      Untouched m m' → Answered m .blocked m'
  | refused : Os.accept m.prog.listener.sock m = .error f failed → f.wouldBlock = false →
      f.interrupted = false → f.isOs = true → concernsOne f = false →
      m'.prog = setListener (fun l => { l with resumeAt := rest }) m.prog →
      (m.prog.listener.closed = false → m'.prog.listener.paused = true) →
      (m.prog.listener.paused = true → Untouched m m') → Unlists m.prog.listener.sock m m' →
      Answered m (.refused f) m'

inductive Answers : Machine T (Relay T) → List Answer → Machine T (Relay T) → Prop where
  | nil : Answers m [] m
  | cons : Answered m answer middle → Answers middle answers last → Answers m (answer :: answers) last

end Defs

variable [Clock T] {m : Machine T (Relay T)}

section Enroll

theorem enroll_prepares (sock : SocketId) (peer : Peer) :
    Ends (enroll sock peer) m (fun admitted _ => admitted.isSome = true ↔ Prepared m sock)
      fun _ _ => True := by
  apply ends_enroll
  apply Ends.ran.imp
  · intro _ ready ran
    apply Ends.ran.imp
    · intro _ watched ran' conn _
      simp only [Option.isSome_some, true_iff]
      exact ⟨ready, watched, ran, ran'⟩
    · intro f failed ran'
      have unprepared : ¬Prepared m sock := by
        rintro ⟨ready', watched, first, second⟩
        cases ran.symm.trans first
        cases ran'.symm.trans second
      exact ⟨fun _ _ => by simpa using unprepared, fun _ => trivial⟩
  · intro f failed ran
    have unprepared : ¬Prepared m sock := by
      rintro ⟨ready, watched, first, -⟩
      cases ran.symm.trans first
    exact ⟨fun _ _ => by simpa using unprepared, fun _ => trivial⟩

theorem enroll_adds (sock : SocketId) (peer : Peer) :
    Ends (enroll sock peer) m (fun _ m' => Adds m.host m'.host) fun _ _ => True := by
  have any : Soft fun _ _ : Relay T => True := ⟨fun _ => trivial, fun _ _ => trivial, fun _ => trivial⟩
  exact (modest_adds.enroll any (fun _ _ => trivial) sock peer m).well fun _ _ path => path.1

end Enroll

theorem resting_unasked : Resting (T := T) (Both Unasked fun _ _ => True)
    (Both Unasked fun _ _ => True) where
  toCourse := ⟨fun _ => ⟨rfl, trivial⟩, fun one two => ⟨one.1.trans two.1, trivial⟩, fun path => path,
    fun one two => ⟨one.1.trans two.1, trivial⟩⟩
  log level text m := ⟨unasked_of_adds (modest_adds.logged m.host level text), trivial⟩
  rests _ m := ⟨unasked_emit m.host rfl, trivial⟩
  register id conn := (modest_adds.register id conn).mono (fun path => ⟨unasked_of_adds path.1, trivial⟩)
    fun path => ⟨unasked_of_adds path.1, trivial⟩
  unregister id := (modest_adds.unregister id).mono (fun path => ⟨unasked_of_adds path.1, trivial⟩)
    fun path => ⟨unasked_of_adds path.1, trivial⟩
  rest _ _ _ := ⟨rfl, trivial⟩

structure Step (m : Machine T (Relay T)) (answer : Answer) (m' : Machine T (Relay T)) : Prop where
  answered : Answered m answer m'
  coherent : Coherent m'
  asked : m'.host.asked = m.host.asked + 1
  bounded : ∀ sock, answer = .dismissed sock → sock < m'.host.sockets.length

omit [Clock T] in
theorem place_of_longer {fd : Int} {sock : SocketId} {live : List (Int × SocketId)}
    (longer : (Table.place fd sock live).length = live.length + 1) :
    Table.place fd sock live = live ++ [(fd, sock)] := by
  induction live with
  | nil => rfl
  | cons entry rest ih =>
    by_cases same : entry.1 = fd
    · simp [Table.place, same] at longer
    · simp only [Table.place, if_neg same, List.length_cons, Nat.add_right_cancel_iff] at longer
      simp only [Table.place, if_neg same, ih longer, List.cons_append]

omit [Clock T] in
theorem insert_takeIn {r : Relay T} {conn : Connection}
    (balance : offset (count (fun c => { c with accepted := c.accepted + 1 })
      (setTable (·.insert conn) r)) = offset r) :
    count (fun c => { c with accepted := c.accepted + 1 }) (setTable (·.insert conn) r) =
      takeIn r conn := by
  have longer : (Table.place conn.fd conn.sock r.table.live).length = r.table.live.length + 1 := by
    simp only [offset, count, setTable, Table.insert] at balance
    omega
  simp only [takeIn, setTable, Table.insert, place_of_longer longer]

omit [Clock T] in
theorem taken_asked {h : Host T} {e : Event T} (id : SocketId) (rest : List SocketId)
    (drifts : Drifts (m.host.emit (.begun .accept (some m.prog.listener.sock))) h)
    (other : e.asks = false) : ((h.dequeue id rest).emit e).asked = m.host.asked + 1 := by
  rw [unasked_emit (h.dequeue id rest) other, ← asked_begun m.host m.prog.listener.sock]
  exact unasked_of_adds drifts.2

-- What an accept that brings somebody comes to. The counters tell that nobody has lost a place in the
-- table to the newcomer.
theorem brought_answers {sock : SocketId} {address : Address} {taken : Machine T (Relay T)}
    (ran : Os.accept m.prog.listener.sock m = .ok (sock, address) taken)
    (orderly : taken.host.Orderly) (bounded : sock < taken.host.sockets.length)
    (same : Untouched m taken) :
    Ends (enroll sock ⟨address, []⟩) taken
      (Welcomes fun result m' => ∃ answer, result = answer.outcome ∧
        (offset m'.prog = offset m.prog → Answered m answer m') ∧ Unasked taken.host m'.host ∧
          ∀ sock, answer = .dismissed sock → sock < m'.host.sockets.length)
      fun _ m' => ¬Documented m'.host := by
  apply ((enroll_ends orderly sock ⟨address, []⟩).and ((enroll_prepares sock _).and
    (enroll_adds sock _))).imp
  · rintro admitted m' ⟨⟨h, path, came⟩, prepared, adds⟩
    have stays := (path orderly).2
    have unasked := unasked_of_adds adds
    constructor
    case dismissed =>
      rintro rfl
      obtain rfl := came
      refine ⟨.dismissed sock, rfl, fun _ => .dismissed ran (by simpa using prepared) ?_ ⟨same.prog, ?_⟩,
        unasked, ?_⟩
      · exact isOpen_shut.trans (if_pos rfl)
      · exact entries_shut.trans (stays.entries.trans same.entries)
      · rintro _ ⟨⟩
        simpa using Nat.lt_of_lt_of_le bounded stays.grown
    case enrolled =>
      rintro conn rfl
      obtain ⟨opened, unwatched, shape, rfl⟩ := came
      refine ⟨.admitted conn, rfl, fun balance => ?_, ?_, by simp⟩
      · have watched : ((h.watch sock (some sock)).logged .info ("new client " ++ conn.label)).entries =
            m.host.entries ++ [conn.entry] := by
          rw [(sameWatch_logged _ _ _).1, shape]
          exact congrArg (· ++ _) (stays.entries.trans same.entries)
        rw [same.prog] at balance
        subst shape
        exact .admitted ran (prepared.mp rfl) ((insert_takeIn balance) ▸ same.prog ▸ rfl) watched rfl
      · exact unasked.trans (unasked_of_adds (modest_adds.logged _ .info _))
  · exact fun _ _ left => left.1.2

theorem pause_answers {f : Failure} {failed noted : Machine T (Relay T)}
    (ran : Os.accept m.prog.listener.sock m = .error f failed) (blocked : f.wouldBlock = false)
    (broken : f.interrupted = false) (refused : f.isOs = true) (one : concernsOne f = false)
    (same : Untouched m noted) : Ends (pause retryDelay) noted
      (fun _ m' => Answered m (.refused f) m' ∧ Unasked noted.host m'.host)
      fun _ m' => ¬Documented m'.host := by
  by_cases awake : attentive noted.prog = true
  · apply ((resting_unasked.pause retryDelay noted).and (pause_unlists awake retryDelay)).imp
    · rintro _ m' ⟨⟨unasked, -⟩, ⟨later, rests⟩, keep, entries, spares⟩
      rw [same.prog] at rests awake spares
      refine ⟨.refused ran blocked broken refused one rests ?_ ?_ ?_, unasked⟩
      · exact fun _ => by rw [rests]; rfl
      · intro resting
        simp [attentive, resting] at awake
      · exact ⟨keep, entries.trans (congrArg _ same.entries), spares⟩
    · exact fun _ _ bad => bad.2
  · have still : (noted.prog.listener.paused || noted.prog.listener.closed) = true := by
      simpa [attentive, or_iff_not_imp_left] using awake
    apply ends_pause
    case awake =>
      intro unpaused listening
      simp [unpaused, listening] at still
    intro still
    rw [same.prog] at still
    have rests : noted.prog = setListener (fun l => { l with resumeAt := m.prog.listener.resumeAt })
        m.prog := same.prog
    refine ⟨.refused ran blocked broken refused one rests ?_ (fun _ => same)
      ⟨fun _ => true, ?_, fun _ _ _ => rfl⟩, rfl⟩
    · intro listening
      rw [same.prog]
      simpa [listening] using still
    · exact same.entries.trans (List.filter_eq_self.mpr fun _ _ => rfl).symm

theorem failed_answers {f : Failure} {failed : Machine T (Relay T)}
    (ran : Os.accept m.prog.listener.sock m = .error f failed) (same : Untouched m failed) :
    Refuses
      (fun result m' => ∃ answer, result = answer.outcome ∧ Answered m answer m' ∧
        Unasked failed.host m'.host ∧ ∀ sock, answer ≠ .dismissed sock)
      (fun f' m' => Documented m'.host → f' = f ∧ m' = failed ∧ f.isOs = false) f failed := by
  have logged := modest_adds.logged failed.host .error ("accept failed: " ++ f.message)
  have noted : Untouched m
      ⟨failed.host.logged .error ("accept failed: " ++ f.message), failed.prog⟩ :=
    ⟨same.prog, (sameWatch_logged failed.host .error _).1.trans same.entries⟩
  constructor
  case blocked => exact fun blocked => ⟨.blocked, rfl, .blocked ran blocked same, rfl, by simp⟩
  case broken =>
    intro blocked broken
    exact ⟨.interrupted, rfl, .interrupted ran blocked broken same, rfl, by simp⟩
  case skipped =>
    intro blocked broken refused one
    exact ⟨.skipped f, rfl, .skipped ran blocked broken refused one noted,
      unasked_of_adds logged, by simp⟩
  case rests =>
    intro blocked broken refused one
    apply (pause_answers ran blocked broken refused one noted).imp
    · rintro _ m' ⟨answered, unasked⟩
      exact ⟨.refused f, rfl, answered, (unasked_of_adds logged).trans unasked, by simp⟩
    · exact fun _ _ bad documented => absurd documented bad
  case foreign => exact fun _ _ foreign _ => ⟨rfl, rfl, foreign⟩

-- What one accept comes to, if nobody has lost a place in the table by it.
theorem acceptOnce_answered (coherent : Coherent m) :
    Ends acceptOnce m
      (fun result m' => ∃ answer, result = answer.outcome ∧
        (offset m'.prog = offset m.prog → Answered m answer m') ∧
        m'.host.asked = m.host.asked + 1 ∧
          ∀ sock, answer = .dismissed sock → sock < m'.host.sockets.length)
      fun f m' => Documented m'.host →
        Os.accept m.prog.listener.sock m = .error f m' ∧ f.isOs = false := by
  apply ends_acceptOnce
  apply (Ends.ran.and (accept_runs lively_drifts)).imp
  · rintro found taken ⟨ran, h, s, rest, drifts, known, queue, rfl⟩
    have settled := (settled_emit m.host (.begun .accept (some m.prog.listener.sock)) rfl).trans drifts.1
    have before : Coherent ⟨h, m.prog⟩ := Firm.settled coherent settled
    obtain ⟨orderly, ages⟩ := ((aged_dequeue known queue).trans (aged_emit _
      (.accept found.1 (h.number found.1)))) before.based.orderly
    have held := before.roster.take before.based.orderly known queue (h.number found.1)
    have bounded := (held.taken found.1 (List.mem_append_right _ (List.mem_singleton_self _))).bounded
    have asked := taken_asked m.prog.listener.sock rest drifts
      (e := .accept found.1 (h.number found.1)) rfl
    have entries := (settled coherent.based.orderly).2.entries
    apply (brought_answers ran orderly bounded ⟨rfl, entries⟩).imp
    · intro admitted m' welcomes
      apply welcomes.imp
      rintro result m' ⟨answer, same, answered, unasked, dismissed⟩
      exact ⟨answer, same, answered, Eq.trans unasked asked, dismissed⟩
    · exact fun _ _ bad documented => absurd documented bad
  · rintro f failed ⟨ran, drifts, same⟩
    have settled := (settled_emit m.host (.begun .accept (some m.prog.listener.sock)) rfl).trans drifts.1
    have asked : failed.host.asked = m.host.asked + 1 := by
      rw [← asked_begun m.host m.prog.listener.sock]
      exact unasked_of_adds drifts.2
    have entries := (settled coherent.based.orderly).2.entries
    apply (failed_answers ran ⟨same, entries⟩).imp
    · rintro result m' ⟨answer, outcome, answered, unasked, other⟩
      exact ⟨answer, outcome, fun _ => answered, Eq.trans unasked asked,
        fun sock is => absurd is (other sock)⟩
    · intro f' m' bad documented
      obtain ⟨rfl, rfl, other⟩ := bad documented
      exact ⟨ran, other⟩

theorem acceptOnce_answers (coherent : Coherent m) (distinct : Distinct m) :
    Ends acceptOnce m (fun result m' => ∃ answer, Step m answer m' ∧ result = answer.outcome)
      fun f m' => Documented m'.host →
        Os.accept m.prog.listener.sock m = .error f m' ∧ f.isOs = false := by
  apply ((acceptOnce_answered coherent).and (acceptOnce_ends coherent distinct)).imp
  · rintro result m' ⟨⟨answer, same, answered, asked, bounded⟩, coherent, balance⟩
    exact ⟨answer, ⟨answered balance, coherent, asked, bounded⟩, same⟩
  · exact fun _ _ both => both.1

def Used (m m' : Machine T (Relay T)) (f : Failure) : Prop :=
  m'.host.workload < m.host.workload ∨
    f.wouldBlock = true ∨ f.interrupted = false ∧ concernsOne f = false

theorem awaitConnection_uses (id : SocketId) (timeout : Option T) :
    Ends (Os.awaitConnection id timeout) m (fun _ m' => Lighter m.host m'.host)
      fun f m' => Used m m' f := by
  rw [Os.awaitConnection, ends_bind]
  apply await_uses.imp
  · rintro _ waited ⟨light, -⟩
    rw [ends_bind]
    apply opened_ends.imp
    · rintro s _ ⟨rfl, -, -⟩
      split
      · exact .inr (.inr ⟨rfl, rfl⟩)
      · exact light
    · rintro f _ ⟨rfl, rfl, -⟩
      exact .inr (.inr ⟨rfl, rfl⟩)
  · rintro f failed ⟨-, ⟨rfl, -⟩ | less⟩
    · exact .inr (.inr ⟨rfl, rfl⟩)
    · exact .inl less

theorem accept_uses (id : SocketId) : Ends (Os.accept id) m
    (fun _ m' => m'.host.workload < m.host.workload) fun f m' => Used m m' f := by
  simp only [Os.accept, ends_bind, ends_emits]
  apply (incident_lighter .accept).imp
  · intro _ arrived light
    apply opened_ends.imp
    · rintro s arrived ⟨rfl, -⟩
      have waits : Ends (onlyIf (s.backlog.isEmpty && s.waits) (Os.awaitConnection id s.timeout)) arrived
          (fun _ m' => Lighter m.host m'.host) fun f m' => Used m m' f := by
        rw [ends_onlyIf]
        split
        · apply (awaitConnection_uses id s.timeout).imp
          · exact fun _ _ less => Nat.le_trans less light
          · exact fun _ _ used => used.imp_left fun less => Nat.lt_of_lt_of_le less light
        · exact light
      apply waits.normally
      intro _ ready less
      apply takeAccepted_ends.imp
      · rintro found m' (⟨rfl, rfl⟩ | ⟨s, first, rest, rfl, known, queue, rfl⟩)
        · exact .inr (.inl rfl)
        · refine Nat.lt_of_lt_of_le (workload_alter_lt known ?_) less
          simp only [Sock.weight, queue, List.length_cons]
          omega
      · exact fun _ _ never => never.elim
    · rintro f _ ⟨rfl, rfl, -⟩
      exact .inr (.inr ⟨rfl, rfl⟩)
  · exact fun f failed less => .inl less

theorem acceptOnce_uses : Ends acceptOnce m
    (fun result m' => result ≠ .done → m'.host.workload < m.host.workload) fun _ _ => True := by
  apply ends_acceptOnce
  apply (accept_uses _).imp
  · intro found taken less
    apply (lighter_parts.enroll found.1 _ taken).imp ?_ fun _ _ _ => trivial
    rintro admitted m' ⟨light, -⟩
    constructor
    case dismissed => exact fun _ _ => Nat.lt_of_le_of_lt light less
    case enrolled =>
      intro conn _ _
      exact Nat.lt_of_le_of_lt (Nat.le_trans (steady_lighter.logged _ _ _) light) less
  · intro f failed used
    constructor
    case blocked => exact fun _ other => absurd rfl other
    case broken =>
      intro ready broken _
      exact used.resolve_right (by simp [ready, broken])
    case skipped =>
      intro ready _ _ one _
      have less := used.resolve_right (by simp [ready, one])
      exact Nat.lt_of_le_of_lt (steady_lighter.logged _ _ _) less
    case rests =>
      intro _ _ _ _
      exact ends_any.imp (fun _ _ _ other => absurd rfl other) fun _ _ _ => trivial
    case foreign => exact fun _ _ _ => trivial

def newcomers (answers : List Answer) : List Connection := answers.filterMap Answer.admitted?

omit [Clock T] in
theorem newcomers_cons (answer : Answer) (answers : List Answer) :
    newcomers (answer :: answers) = answer.admitted?.toList ++ newcomers answers := by
  rw [newcomers, List.filterMap_cons]
  cases answer <;> rfl

omit [Clock T] in
theorem length_newcomers (answer : Answer) (answers : List Answer) :
    (newcomers (answer :: answers)).length =
      (if answer.outcome = .admitted then 1 else 0) + (newcomers answers).length := by
  rw [newcomers_cons, List.length_append]
  cases answer <;> rfl

-- What the listener asks for until it leaves off.
structure Intake (m : Machine T (Relay T)) (answers : List Answer) (last : Answer)
    (m' : Machine T (Relay T)) : Prop where
  course : ∃ middle, Answers m answers middle ∧ Answered middle last m'
  onward : ∀ answer ∈ answers, answer.goesOn = true
  stops : last.goesOn = false
  calls : m'.host.asked = m.host.asked + answers.length + 1
  dismissed : ∀ sock, .dismissed sock ∈ answers → m'.host.isOpen sock = false

theorem Intake.one {last : Answer} {m' : Machine T (Relay T)} (step : Step m last m')
    (stops : last.goesOn = false) : Intake m [] last m' :=
  ⟨⟨m, .nil, step.answered⟩, nofun, stops, step.asked, nofun⟩

theorem Intake.cons {answer last : Answer} {answers : List Answer} {middle m' : Machine T (Relay T)}
    (step : Step m answer middle) (goes : answer.goesOn = true) (intake : Intake middle answers last m')
    (ground : Ground middle m') : Intake m (answer :: answers) last m' := by
  obtain ⟨before, course, ends⟩ := intake.course
  refine ⟨⟨before, .cons step.answered course, ends⟩, List.forall_mem_cons.mpr ⟨goes, intake.onward⟩,
    intake.stops, ?_, fun sock there => ?_⟩
  · rw [intake.calls, step.asked, List.length_cons]
    omega
  · cases List.mem_cons.mp there with
    | inr later => exact intake.dismissed sock later
    | inl first =>
      subst first
      have shut : middle.host.isOpen sock = false := by
        cases step.answered
        assumption
      exact (ground.grows step.coherent.based).2.ages.shut sock (step.bounded sock rfl) shut

def Broken (m : Machine T (Relay T)) (f : Failure) (m' : Machine T (Relay T)) : Prop :=
  ∃ answers middle, Answers m answers middle ∧ (∀ answer ∈ answers, answer.goesOn = true) ∧
    Os.accept middle.prog.listener.sock middle = .error f m' ∧ f.isOs = false

theorem Broken.cons {answer : Answer} {middle m' : Machine T (Relay T)} {f : Failure}
    (step : Step m answer middle) (goes : answer.goesOn = true) (broken : Broken middle f m') :
    Broken m f m' := by
  obtain ⟨answers, last, course, onward, fell⟩ := broken
  exact ⟨answer :: answers, last, .cons step.answered course, List.forall_mem_cons.mpr ⟨goes, onward⟩, fell⟩

-- What accepting comes to from a machine on which the numbers are distinct, as they are if they are in
-- the end.
def TakesIn (m : Machine T (Relay T)) (admitted count : Nat) (m' : Machine T (Relay T)) : Prop :=
  Whole m → Distinct m' → ∃ answers last, Intake m answers last m' ∧
    count = admitted + (newcomers answers).length

def Falls (m : Machine T (Relay T)) (f : Failure) (m' : Machine T (Relay T)) : Prop :=
  Whole m → Distinct m' → Documented m'.host → Broken m f m'

theorem Answer.goesOn_of_outcome {answer : Answer} (going : answer.outcome ≠ .done) :
    answer.goesOn = true := by
  cases answer <;> first | rfl | exact absurd rfl going

theorem acceptFor_cons {result : AcceptOutcome} {middle : Machine T (Relay T)} {fuel admitted : Nat}
    (stepped : ∀ m', Ground middle m' → Whole m → Distinct m' →
      ∃ answer, Step m answer middle ∧ answer.outcome = result) (going : result ≠ .done)
    (rest : Ends (acceptFor fuel (admitted + if result = .admitted then 1 else 0)) middle
      (TakesIn middle (admitted + if result = .admitted then 1 else 0)) (Falls middle)) :
    Ends (acceptFor fuel (admitted + if result = .admitted then 1 else 0)) middle
      (TakesIn m admitted) (Falls m) := by
  apply (rest.and (acceptFor_within ground_parts.toCourse ground_parts.acceptOnce fuel _ middle)).imp
  · rintro count m' ⟨rest, later⟩ whole distinct
    obtain ⟨answer, step, rfl⟩ := stepped m' later whole distinct
    obtain ⟨answers, last, intake, total⟩ := rest ⟨step.coherent.based, fun _ => step.coherent⟩ distinct
    refine ⟨answer :: answers, last, intake.cons step (Answer.goesOn_of_outcome going) later, ?_⟩
    rw [total, length_newcomers, Nat.add_assoc]
  · rintro f m' ⟨falls, later⟩ whole distinct documented
    obtain ⟨answer, step, rfl⟩ := stepped m' later whole distinct
    exact (falls ⟨step.coherent.based, fun _ => step.coherent⟩ distinct documented).cons step
      (Answer.goesOn_of_outcome going)

-- By induction on the fuel, which is more than there is to use up.
theorem acceptFor_takes (fuel admitted : Nat) (enough : m.host.workload < fuel) :
    Ends (acceptFor fuel admitted) m (TakesIn m admitted) (Falls m) := by
  induction fuel generalizing admitted m with
  | zero => exact absurd enough (Nat.not_lt_zero _)
  | succ fuel ih =>
    have steps : Ends acceptOnce m
        (fun result m' => Coherent m ∧ Distinct m → ∃ answer, Step m answer m' ∧ result = answer.outcome)
        fun f m' => Coherent m ∧ Distinct m → Documented m'.host →
          Os.accept m.prog.listener.sock m = .error f m' ∧ f.isOs = false :=
      .given _ fun good => acceptOnce_answers good.1 good.2
    rw [acceptFor, ends_bind]
    apply (steps.and (acceptOnce_uses.and (ground_parts.acceptOnce m))).imp
    · rintro result middle ⟨step, uses, ground⟩
      have stepped (m' : Machine T (Relay T)) (later : Ground middle m') (whole : Whole m)
          (distinct : Distinct m') : ∃ answer, Step m answer middle ∧ answer.outcome = result := by
        have grows := ground.grows whole.1
        have apart := grows.2.distinct whole.1 ((later.grows grows.1).2.distinct grows.1 distinct)
        obtain ⟨answer, step, same⟩ := step ⟨whole.2 apart, apart⟩
        exact ⟨answer, step, same.symm⟩
      have next (going : result ≠ .done) (more : Nat) :
          Ends (acceptFor fuel more) middle (TakesIn middle more) (Falls middle) :=
        ih more (Nat.lt_of_lt_of_le (uses going) (Nat.le_of_lt_succ enough))
      cases result with
      | done =>
        intro whole distinct
        obtain ⟨answer, step, same⟩ := stepped middle (ground_parts.refl middle) whole distinct
        refine ⟨[], answer, .one step ?_, rfl⟩
        cases answer <;> first | rfl | exact absurd same nofun
      | again => exact acceptFor_cons stepped nofun (next nofun _)
      | admitted => exact acceptFor_cons stepped nofun (next nofun _)
    · rintro f m' ⟨fell, -, ground⟩ whole distinct documented
      have apart := (ground.grows whole.1).2.distinct whole.1 distinct
      obtain ⟨ran, other⟩ := fell ⟨whole.2 apart, apart⟩ documented
      exact ⟨[], m, .nil, nofun, ran, other⟩

omit [Clock T] in
theorem foldl_takeIn (conns : List Connection) (r : Relay T) : conns.foldl takeIn r =
    count (fun c => { c with accepted := c.accepted + conns.length })
      { r with table := ⟨r.table.known ++ conns, r.table.live ++ conns.map fun c => (c.fd, c.sock)⟩ } := by
  induction conns generalizing r with
  | nil => simp [count]
  | cons conn rest ih =>
    rw [List.foldl_cons, ih]
    simp only [takeIn, count, List.append_assoc, List.singleton_append, List.map_cons]
    have total : r.stats.counters.accepted + 1 + rest.length =
        r.stats.counters.accepted + (conn :: rest).length := by
      rw [List.length_cons]
      omega
    rw [total]

theorem Answers.prog {answers : List Answer} {m' : Machine T (Relay T)} (course : Answers m answers m')
    (onward : ∀ answer ∈ answers, answer.goesOn = true) :
    m'.prog = (newcomers answers).foldl takeIn m.prog := by
  induction course with
  | nil => rfl
  | cons answered _ ih =>
    obtain ⟨goes, others⟩ := List.forall_mem_cons.mp onward
    rw [ih others, newcomers_cons]
    cases answered with
    | admitted _ _ same => simp [Answer.admitted?, same]
    | dismissed _ _ _ same | interrupted _ _ _ same => simp [Answer.admitted?, same.prog]
    | skipped _ _ _ _ _ same => simp [Answer.admitted?, same.prog]
    | blocked | refused => exact absurd goes Bool.false_ne_true

end Relay
end StreamRelay
