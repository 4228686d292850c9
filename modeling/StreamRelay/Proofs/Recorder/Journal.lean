import StreamRelay.Proofs.Host.Workload
import StreamRelay.Proofs.Recorder.Appending

namespace StreamRelay
variable {T : Type}
open Run

namespace Recorder
open Host

-- What is done to the socket and to the file.
inductive Deed where
  | receives
  | takes (data : Bytes)
  | writes (data : Bytes)
  | flushes
  deriving DecidableEq

def Deed.taken? : Deed → Option Bytes
  | takes data => some data
  | _ => none

def Deed.written? : Deed → Option Bytes
  | writes data => some data
  | _ => none

end Recorder

namespace Host
open Recorder

-- What was done to the socket and to the file, oldest first.
def journal (h : Host T) : List Deed := h.history fun
  | .begun .receiveFrom _ => some .receives
  | .received _ data => some (.takes data)
  | .write data => some (.writes data)
  | .flush => some .flushes
  | _ => none

-- So much was done, one after the other. The command stays told to stop, and the same is stopped
-- where the script ends.
structure Did (deeds : List Deed) (h h' : Host T) : Prop where
  journal : h'.journal = h.journal ++ deeds
  told : h.commandStop = true → h'.commandStop = true
  directed : Directed h h'

def Warned (h : Host T) : Prop := h.Stops .command ∨ h.canStop = false

section Did
variable {h h' : Host T} {deeds more : List Deed}

theorem did_nothing (trace : h'.trace = h.trace) (told : h'.commandStop = h.commandStop)
    (orders : h'.orders = h.orders) : Did [] h h' :=
  ⟨by simp only [Host.journal, history, trace, List.append_nil], fun before => told.trans before,
    directed_same orders⟩

theorem Did.trans {a b c : Host T} (one : Did deeds a b) (two : Did more b c) :
    Did (deeds ++ more) a c :=
  ⟨by rw [two.journal, one.journal, List.append_assoc], fun told => two.told (one.told told),
    one.directed.trans two.directed⟩

theorem Did.warned (did : Did deeds h h') : h'.Warned ↔ h.Warned := by
  rw [Warned, Warned, did.directed.stops, did.directed.canStop]

theorem did_emit {e : Event T} (shown : (h.emit e).journal = h.journal ++ deeds) :
    Did deeds h (h.emit e) := ⟨shown, fun told => told, directed_same rfl⟩

theorem did_raise (h : Host T) (flag : Flag) : Did [] h (h.raise flag) := by
  have told : Did [] h (h.emit (.told flag)) := did_emit (history_emit h _ _)
  have raised : Directed h (h.raise flag) := directed_raise h flag
  cases flag
  · exact ⟨told.journal, told.told, raised⟩
  · exact ⟨told.journal, fun _ => rfl, raised⟩

variable [Clock T]

theorem did_apply (h : Host T) (action : Action T) : Did [] h (h.apply action) :=
  apply_of (fun _ => did_nothing rfl rfl rfl) .trans
    (fun ⟨_, _, _, _, _, _, _, _⟩ => did_nothing rfl rfl rfl) did_raise h action

theorem mild_did : Mild (T := T) (Did []) where
  refl _ := did_nothing rfl rfl rfl
  trans := .trans
  faults _ _ := did_nothing rfl rfl rfl
  batches _ _ := did_nothing rfl rfl rfl
  apply := did_apply

theorem lively_did : Lively (T := T) (Did []) := mild_did.lively fun _ _ => did_nothing rfl rfl rfl

omit [Clock T] in
theorem did_logged (h : Host T) (level : Level) (text : String) : Did [] h (h.logged level text) :=
  logged_of (did_nothing rfl rfl rfl) (did_emit (history_emit h _ _))
    fun _ => did_nothing rfl rfl rfl

end Did

section Receiving
variable [Clock T] {m : Machine T Recorder} {id : SocketId}

-- A receive uses up a datagram, or a fault or a batch, or it waited until the command was told to stop.
-- Else its socket is closed.
theorem receiveFrom_spends (warned : m.host.Warned) (limit : Int) : Ends (Os.receiveFrom id limit) m
    (fun _ m' => m'.host.workload < m.host.workload)
    fun f m' => f = .nothingToStop ∨ f = .os .badDescriptor ∧ m'.host.isOpen id = false ∨
      m'.host.commandStop = true ∨ m'.host.workload < m.host.workload := by
  simp only [Os.receiveFrom, ends_bind, ends_emits]
  refine ((incident_lighter .receiveFrom).and (lively_did.incident .receiveFrom _)).imp ?_
    fun _ _ fell => .inr (.inr (.inr fell.1))
  rintro _ begun ⟨light, did, -⟩
  have light : begun.host.workload ≤ m.host.workload := light
  have still : begun.host.Warned := did.warned.mpr warned
  refine opened_ends.imp ?_ fun _ _ fell => .inr (.inl (fell.1 ▸ fell.2))
  rintro s begun ⟨rfl, known, -⟩
  -- What the socket has for the second look, if that was worth a wait.
  have taken {waited : Machine T Recorder} {s : Sock T} {first : Bytes} {rest : List Bytes}
      (lighter : waited.host.workload ≤ m.host.workload) (known : waited.host.sock? id = some s)
      (queue : s.inbox = first :: rest) :
      (waited.host.alter id fun s => { s with inbox := rest }).workload < m.host.workload := by
    refine Nat.lt_of_lt_of_le (workload_alter_lt known ?_) lighter
    simp only [Sock.weight, queue, List.length_cons]
    omega
  rw [ends_onlyIf]
  cases queue : s.inbox with
  | cons first rest =>
    simp only [List.isEmpty_cons, Bool.false_eq_true, if_false]
    refine opened_ends.imp ?_ fun _ _ fell => .inr (.inl (fell.1 ▸ fell.2))
    rintro s' begun ⟨rfl, known', -⟩
    cases Option.some.inj (known.symm.trans known')
    simp only [queue]
    exact taken light known queue
  | nil =>
    simp only [List.isEmpty_nil, if_true, ends_bind, ends_pure]
    refine await_ends.imp ?_ ?_
    · intro _ waited ended
      have spent : waited.host.commandStop = true ∨ waited.host.workload < m.host.workload := by
        rcases ended with less | ⟨possible, rfl⟩
        · exact .inr (Nat.lt_of_lt_of_le less light)
        · have stops := still.resolve_right fun never => by simp [possible] at never
          exact .inl stops.told
      have lighter : waited.host.workload ≤ m.host.workload := by
        rcases ended with less | ⟨-, rfl⟩
        · omega
        · exact Nat.le_trans (Nat.le_of_eq (workload_stop begun.host)) light
      refine opened_ends.imp ?_ fun _ _ fell => .inr (.inl (fell.1 ▸ fell.2))
      rintro s waited ⟨rfl, known, -⟩
      cases queue : s.inbox with
      | nil => exact .inr (.inr spent)
      | cons first rest => exact taken lighter known queue
    · rintro f waited (less | ⟨rfl, -, -⟩)
      · exact .inr (.inr (.inr (Nat.lt_of_lt_of_le less light)))
      · exact .inl rfl

end Receiving
end Host

namespace Recorder
open Host

def Receives [Clock T] (m : Machine T Recorder) (result : Except Failure Bytes)
    (m' : Machine T Recorder) : Prop :=
  match result with
  | .ok data => Os.receiveFrom m.prog.sock m.prog.bufferSize m = .ok data m'
  | .error f => Os.receiveFrom m.prog.sock m.prog.bufferSize m = .error f m'

-- So many more datagrams were appended.
def tally (kept : List Bytes) (r : Recorder) : Recorder :=
  { r with datagrams := r.datagrams + kept.length, bytes := r.bytes + kept.flatten.length }

def deeds : Option Bytes → List Deed
  | none => [.receives]
  | some data => [.receives, .takes data, .writes data, .flushes]

inductive Exit where
  | told
  | late (data : Bytes)
  | shut (f : Failure)
  | failed (f : Failure)
  | unwritten (data : Bytes) (f : Failure)
  | unflushed (data : Bytes) (f : Failure)
  -- Nobody tells it to stop, not even the end of the script, so it would wait for ever.
  | endless
  deriving DecidableEq

namespace Exit

def failure? : Exit → Option Failure
  | failed f | unwritten _ f | unflushed _ f => some f
  | _ => none

def taken? : Exit → Option Bytes
  | late data | unwritten data _ | unflushed data _ => some data
  | _ => none

def written? : Exit → Option Bytes
  | unflushed data _ => some data
  | _ => none

def deeds : Exit → List Deed
  | told | endless => []
  | late data | unwritten data _ => [.receives, .takes data]
  | shut _ | failed _ => [.receives]
  | unflushed data _ => [.receives, .takes data, .writes data]

end Exit

section Turns
variable [Clock T]

inductive Round : Machine T Recorder → Option Bytes → Machine T Recorder → Prop where
  | waited : Receives m (.error f) m' → f.timedOut = true → Round m none m'
  | refused : Receives m (.error f) m' → f.timedOut = false → f.isOs = true →
      m'.host.commandStop = false → m'.host.isOpen m.prog.sock = true →
      Round m none ⟨m'.host.logged .warning ("recvfrom failed: " ++ f.message), m'.prog⟩
  | kept : Receives m (.ok data) taken → taken.host.commandStop = false →
      Os.write data taken = .ok () written → Os.flush written = .ok () flushed →
      Round m (some data) ⟨flushed.host, flushed.prog.tally [data]⟩

inductive Leaves : Machine T Recorder → Exit → Machine T Recorder → Prop where
  | late : Receives m (.ok data) m' → m'.host.commandStop = true → Leaves m (.late data) m'
  | shut : Receives m (.error f) m' → f.timedOut = false → f.isOs = true →
      (m'.host.commandStop = true ∨ m'.host.isOpen m.prog.sock = false) → Leaves m (.shut f) m'
  | failed : Receives m (.error f) m' → f.timedOut = false → f.isOs = false →
      Leaves m (.failed f) m'
  | unwritten : Receives m (.ok data) taken → taken.host.commandStop = false →
      Os.write data taken = .error f m' → Leaves m (.unwritten data f) m'
  | unflushed : Receives m (.ok data) taken → taken.host.commandStop = false →
      Os.write data taken = .ok () written → Os.flush written = .error f m' →
      Leaves m (.unflushed data f) m'

-- The loop from one machine to where it is left, with what came of each turn in between.
inductive Loops : Machine T Recorder → List (Option Bytes) → Exit → Machine T Recorder → Prop where
  | told : m.host.commandStop = true → Loops m [] .told m
  | endless : ¬m.host.Stops .command → Loops m [] .endless m
  | last : m.host.commandStop = false → Leaves m exit m' → Loops m [] exit m'
  | next : m.host.commandStop = false → Round m came m' → Loops m' rounds exit last →
      Loops m (came :: rounds) exit last

variable {m m' last : Machine T Recorder} {came : Option Bytes} {rounds : List (Option Bytes)}
  {exit : Exit}

def receipt : Except Failure Bytes → List Deed
  | .error _ => [.receives]
  | .ok data => [.receives, .takes data]

theorem Receives.did {result : Except Failure Bytes} (receives : Receives m result m') :
    m'.prog = m.prog ∧ Did (receipt result) m.host m'.host := by
  have begun : Did [.receives] m.host (m.host.emit (.begun .receiveFrom (some m.prog.sock))) :=
    did_emit (history_emit m.host _ _)
  have ends : Ends (Os.receiveFrom m.prog.sock m.prog.bufferSize) m
      (fun data m' => m'.prog = m.prog ∧ Did [.receives, .takes data] m.host m'.host)
      fun _ m' => m'.prog = m.prog ∧ Did [.receives] m.host m'.host := by
    apply (receiveFrom_runs lively_did m.prog.bufferSize).imp
    · rintro data _ ⟨h, s, first, rest, path, -, -, rfl, rfl⟩
      have taken : Did [.takes (Bytes.cut m.prog.bufferSize first)] h
          ((h.alter m.prog.sock fun s => { s with inbox := rest }).emit
            (.received m.prog.sock (Bytes.cut m.prog.bufferSize first))) :=
        ⟨history_emit _ _ _, fun told => told, directed_same rfl⟩
      exact ⟨rfl, (begun.trans path).trans taken⟩
    · rintro f m' ⟨path, same⟩
      exact ⟨same, begun.trans path⟩
  cases result with
  | ok data => exact ends.of_ok receives
  | error f => exact ends.of_error receives

theorem write_did (data : Bytes) (m : Machine T Recorder) : Ends (Os.write data) m
    (fun _ m' => m'.prog = m.prog ∧ Did [.writes data] m.host m'.host ∧ Lighter m.host m'.host)
    fun _ m' => m'.prog = m.prog ∧ Did [] m.host m'.host := by
  rw [Os.write, ends_bind]
  apply ((lively_did.incident .write m).and (incident_lighter .write)).imp
  · rintro _ middle ⟨⟨path, same⟩, light⟩
    rw [ends_emits]
    exact ⟨same, path.trans (did_emit (history_emit middle.host _ _)), light⟩
  · exact fun _ _ path => path.1.symm

theorem flush_did (m : Machine T Recorder) : Ends Os.flush m
    (fun _ m' => m'.prog = m.prog ∧ Did [.flushes] m.host m'.host ∧ Lighter m.host m'.host)
    fun _ m' => m'.prog = m.prog ∧ Did [] m.host m'.host := by
  rw [Os.flush, ends_bind]
  apply ((lively_did.incident .flush m).and (incident_lighter .flush)).imp
  · rintro _ middle ⟨⟨path, same⟩, light⟩
    rw [ends_emits]
    exact ⟨same, path.trans (did_emit (history_emit middle.host _ _)), light⟩
  · exact fun _ _ path => path.1.symm

theorem Round.did (turned : Round m came m') :
    m'.prog = m.prog.tally came.toList ∧ Did (deeds came) m.host m'.host := by
  cases turned with
  | waited receives => exact receives.did
  | refused receives =>
    obtain ⟨same, did⟩ := receives.did
    exact ⟨same, did.trans (did_logged _ _ _)⟩
  | kept receives going wrote flushes =>
    obtain ⟨same, took⟩ := receives.did
    obtain ⟨same', wrote, -⟩ := (write_did _ _).of_ok wrote
    obtain ⟨same'', flushed, -⟩ := (flush_did _).of_ok flushes
    refine ⟨?_, (took.trans wrote).trans flushed⟩
    rw [same'', same', same]
    rfl

theorem Leaves.did (left : Leaves m exit m') :
    m'.prog = m.prog ∧ Did exit.deeds m.host m'.host := by
  cases left with
  | late receives | shut receives | failed receives => exact receives.did
  | unwritten receives going wrote =>
    obtain ⟨same, took⟩ := receives.did
    obtain ⟨same', wrote⟩ := (write_did _ _).of_error wrote
    exact ⟨same'.trans same, took.trans wrote⟩
  | unflushed receives going wrote flushes =>
    obtain ⟨same, took⟩ := receives.did
    obtain ⟨same', wrote, -⟩ := (write_did _ _).of_ok wrote
    obtain ⟨same'', flushed⟩ := (flush_did _).of_error flushes
    exact ⟨same''.trans (same'.trans same), (took.trans wrote).trans flushed⟩

omit [Clock T] in
theorem tally_tally (kept later : List Bytes) (r : Recorder) :
    (r.tally kept).tally later = r.tally (kept ++ later) := by
  simp only [tally, List.length_append, List.flatten_append, Nat.add_assoc]

theorem Loops.did (loops : Loops m rounds exit last) :
    last.prog = m.prog.tally (rounds.flatMap Option.toList) ∧
      Did (rounds.flatMap deeds ++ exit.deeds) m.host last.host := by
  induction loops with
  | told | endless => exact ⟨rfl, did_nothing rfl rfl rfl⟩
  | last _ left => exact left.did
  | next _ turned _ ih =>
    obtain ⟨first, did⟩ := turned.did
    obtain ⟨rest, later⟩ := ih
    rw [List.flatMap_cons, List.flatMap_cons, List.append_assoc, rest, first, tally_tally]
    exact ⟨rfl, did.trans later⟩

theorem Round.spends (turned : Round m came m') (warned : m.host.Warned) :
    m'.host.commandStop = true ∨ m'.host.workload < m.host.workload := by
  have spends : Ends (Os.receiveFrom m.prog.sock m.prog.bufferSize) m _ _ :=
    receiveFrom_spends warned m.prog.bufferSize
  cases turned with
  | waited receives late =>
    rcases spends.of_error receives with rfl | ⟨rfl, -⟩ | spent
    · exact absurd late Bool.false_ne_true
    · exact absurd late Bool.false_ne_true
    · exact spent
  | refused receives _ named _ opened =>
    rcases spends.of_error receives with rfl | ⟨-, shut⟩ | told | less
    · exact absurd named Bool.false_ne_true
    · exact absurd (shut.symm.trans opened) Bool.false_ne_true
    · exact .inl ((did_logged _ _ _).told told)
    · exact .inr (Nat.lt_of_le_of_lt (steady_lighter.logged _ _ _) less)
  | kept receives _ wrote flushes =>
    have less := spends.of_ok receives
    have wrote := ((write_did _ _).of_ok wrote).2.2
    have flushed := ((flush_did _).of_ok flushes).2.2
    exact .inr (Nat.lt_of_le_of_lt (Nat.le_trans flushed wrote) less)

theorem turn_turns (m : Machine T Recorder) : Ends turn m
    (fun goesOn m' => if goesOn then ∃ came, Round m came m'
      else ∃ exit, exit.failure? = none ∧ Leaves m exit m')
    fun f m' => ∃ exit, exit.failure? = some f ∧ Leaves m exit m' := by
  rw [turn, ends_bind, ends_gets, ends_bind, ends_outcome]
  apply Ends.ran.imp
  · intro data taken receives
    simp only [Os.isSet, ends_bind, ends_asks, isSet]
    cases told : taken.host.commandStop with
    | true => exact ⟨.late data, rfl, .late receives told⟩
    | false =>
      simp only [Bool.false_eq_true, if_false, append, ends_bind, ends_sets, ends_pure, if_true]
      refine Ends.ran.imp ?_ fun f m' fell => ⟨.unwritten data f, rfl, .unwritten receives told fell⟩
      intro _ written wrote
      refine Ends.ran.imp ?_ fun f m' fell =>
        ⟨.unflushed data f, rfl, .unflushed receives told wrote fell⟩
      intro _ flushed flushes
      have counted : flushed.prog.tally [data] = flushed.prog.count data := by simp [tally, count]
      rw [← counted]
      exact ⟨some data, .kept receives told wrote flushes⟩
  · intro f refused receives
    dsimp only
    cases late : f.timedOut with
    | true => exact ⟨none, .waited receives late⟩
    | false =>
      cases named : f.isOs with
      | false => exact ⟨.failed f, rfl, .failed receives late named⟩
      | true =>
        simp only [Bool.false_eq_true, if_false, if_true, Os.isSet, ends_bind, ends_asks, isSet, id]
        cases told : refused.host.commandStop with
        | true => exact ⟨.shut f, rfl, .shut receives late named (.inl told)⟩
        | false =>
          cases opened : refused.host.isOpen m.prog.sock with
          | false => exact ⟨.shut f, rfl, .shut receives late named (.inr opened)⟩
          | true =>
            simp only [Bool.not_true, Bool.or_self, Bool.false_eq_true, if_false, ends_bind, ends_log,
              ends_pure, if_true]
            exact ⟨none, .refused receives late named told opened⟩

theorem turns_leave (fuel : Nat) (m : Machine T Recorder)
    (enough : m.host.Warned → m.host.commandStop = true ∧ 0 < fuel ∨ m.host.workload + 2 ≤ fuel) :
    ∃ rounds exit last, Loops m rounds exit last ∧
      turns fuel m = exit.failure?.elim (.ok () last) (.error · last) ∧
      (m.host.Warned → exit ≠ .endless) := by
  induction fuel generalizing m with
  | zero =>
    have never (warned : m.host.Warned) : False := by
      have none := enough warned
      omega
    exact ⟨[], .endless, m, .endless fun stops => never (.inl stops), rfl, fun warned =>
      (never warned).elim⟩
  | succ fuel ih =>
    cases stopped : m.host.commandStop with
    | true =>
      refine ⟨[], .told, m, .told stopped, ?_, fun _ => by simp⟩
      simp only [turns, bind, EStateM.bind, Os.isSet, asks, isSet, stopped]
      rfl
    | false =>
      have unfolded : turns (fuel + 1) m =
          (do if ← turn then turns fuel else return ()) m := by
        simp only [turns, bind, EStateM.bind, Os.isSet, asks, isSet, stopped]
        rfl
      have turned := turn_turns m
      rw [unfolded]
      simp only [bind, EStateM.bind]
      cases ran : turn m with
      | error f m' =>
        obtain ⟨exit, failed, left⟩ := turned.of_error ran
        refine ⟨[], exit, m', .last stopped left, by rw [failed]; rfl, fun _ endless => ?_⟩
        simp [endless, Exit.failure?] at failed
      | ok goesOn m' =>
        have turned := turned.of_ok ran
        cases goesOn with
        | false =>
          obtain ⟨exit, failed, left⟩ := turned
          refine ⟨[], exit, m', .last stopped left, by rw [failed]; rfl, fun _ endless => ?_⟩
          subst endless
          cases left
        | true =>
          obtain ⟨came, turned⟩ := turned
          have same := turned.did.2.warned
          have left : m'.host.Warned → m'.host.commandStop = true ∧ 0 < fuel ∨
              m'.host.workload + 2 ≤ fuel := by
            intro warned
            have before := same.mp warned
            have work := (enough before).resolve_left fun told => by simp [stopped] at told
            refine (turned.spends before).imp (fun told => ⟨told, ?_⟩) fun less => ?_
            · omega
            · omega
          obtain ⟨rounds, exit, last, loops, ended, reason⟩ := ih m' left
          exact ⟨came :: rounds, exit, last, .next stopped turned loops, ended, fun warned =>
            reason (same.mpr warned)⟩

omit [Clock T] in
theorem filterMap_deeds {pick : Deed → Option Bytes} {left : Option Bytes}
    (each : ∀ came, (deeds came).filterMap pick = came.toList)
    (ended : exit.deeds.filterMap pick = left.toList) :
    (rounds.flatMap deeds ++ exit.deeds).filterMap pick =
      rounds.flatMap Option.toList ++ left.toList := by
  rw [List.filterMap_append, List.filterMap_flatMap, ended]
  exact congrArg (List.flatMap · rounds ++ _) (funext each)

omit [Clock T] in
theorem taken_deeds (rounds : List (Option Bytes)) (exit : Exit) :
    (rounds.flatMap deeds ++ exit.deeds).filterMap Deed.taken? =
      rounds.flatMap Option.toList ++ exit.taken?.toList :=
  filterMap_deeds (fun came => by cases came <;> rfl) (by cases exit <;> rfl)

omit [Clock T] in
theorem written_deeds (rounds : List (Option Bytes)) (exit : Exit) :
    (rounds.flatMap deeds ++ exit.deeds).filterMap Deed.written? =
      rounds.flatMap Option.toList ++ exit.written?.toList :=
  filterMap_deeds (fun came => by cases came <;> rfl) (by cases exit <;> rfl)

theorem Loops.reason (loops : Loops m rounds exit last) (normal : exit.failure? = none) :
    last.host.commandStop = true ∨ exit = .endless ∨ last.host.isOpen m.prog.sock = false ∧
      ∃ f, exit = .shut f ∧ f.isOs = true ∧ f.timedOut = false := by
  induction loops with
  | told told => exact .inl told
  | endless => exact .inr (.inl rfl)
  | last _ left =>
    cases left with
    | late _ told => exact .inl told
    | shut _ late named reason =>
      exact reason.imp_right fun lost => .inr ⟨lost, _, rfl, named, late⟩
    | failed | unwritten | unflushed => simp [Exit.failure?] at normal
  | next _ turned _ ih =>
    have same : _ = _ := congrArg Recorder.sock turned.did.1
    simpa only [same, tally] using ih normal

theorem run_of_turns {last : Machine T Recorder} {failure : Option Failure}
    (ended : turns (m.host.workload + 2) m = failure.elim (.ok () last) (.error · last)) :
    run m = failure.elim (report last) (.error · last) := by
  cases failure <;> simp only [run, bind, EStateM.bind, asks, ended, Option.elim]

theorem run_ends_as {last : Machine T Recorder} {failure : Option Failure}
    (ended : turns (m.host.workload + 2) m = failure.elim (.ok () last) (.error · last)) :
    run m = failure.elim (.ok () (after run m)) (.error · (after run m)) ∧
      (after run m).prog = last.prog ∧ Did [] last.host (after run m).host ∧
      (after run m).host.sockets = last.host.sockets := by
  rw [after, run_of_turns ended]
  cases failure with
  | some f => exact ⟨rfl, rfl, did_nothing rfl rfl rfl, rfl⟩
  | none =>
    refine ⟨rfl, rfl, did_logged _ _ _, ?_⟩
    obtain ⟨trace, stderr, same⟩ := logged_same last.host .info ("log server done; datagrams=" ++
      toString last.prog.datagrams ++ " bytes=" ++ toString last.prog.bytes)
    exact (congrArg Host.sockets same :)

-- A run, whatever arrives and whatever fails, and whenever it is told to stop: what was done turn by
-- turn, why the loop was left, and what the counters are then.
theorem run_records (m : Machine T Recorder) : ∃ rounds exit last, Loops m rounds exit last ∧
    (after run m).host.journal = m.host.journal ++ (rounds.flatMap deeds ++ exit.deeds) ∧
    (rounds.flatMap deeds ++ exit.deeds).filterMap Deed.taken? =
      rounds.flatMap Option.toList ++ exit.taken?.toList ∧
    (rounds.flatMap deeds ++ exit.deeds).filterMap Deed.written? =
      rounds.flatMap Option.toList ++ exit.written?.toList ∧
    (after run m).prog = m.prog.tally (rounds.flatMap Option.toList) ∧
    run m = exit.failure?.elim (.ok () (after run m)) (.error · (after run m)) ∧
    (exit.failure? = none → m.host.Warned → (after run m).host.commandStop = true ∨
      (after run m).host.isOpen m.prog.sock = false ∧
        ∃ f, exit = .shut f ∧ f.isOs = true ∧ f.timedOut = false) := by
  obtain ⟨rounds, exit, last, loops, ended, reason⟩ :=
    turns_leave (m.host.workload + 2) m fun _ => .inr (Nat.le_refl _)
  obtain ⟨result, prog, closed, sockets⟩ := run_ends_as ended
  obtain ⟨counted, did⟩ := loops.did
  have whole : Did (rounds.flatMap deeds ++ exit.deeds) m.host (after run m).host := by
    simpa only [List.append_nil] using did.trans closed
  refine ⟨rounds, exit, last, loops, whole.journal, taken_deeds rounds exit,
    written_deeds rounds exit, prog.trans counted, result, fun normal warned => ?_⟩
  rcases loops.reason normal with told | endless | ⟨lost, refused⟩
  · exact .inl (closed.told told)
  · exact absurd endless (reason warned)
  · refine .inr ⟨?_, refused⟩
    simpa only [isOpen, sock?, sockets] using lost

end Turns

def faltering : Machine Int Recorder where
  host := {
    clock := 0, server := some 0, ending := .raises .command
    sockets := [{ fd := 3, transport := .datagram, timeout := some 1000,
                  inbox := [[104], [], [105, 106]] }]
    faults := [(.receiveFrom, .incident [] (some (.os .timedOut))), (.flush, .pass),
      (.flush, .incident [] (some (.os .badDescriptor)))] }
  prog := { sock := 0 }

example : (after run faltering).host.journal =
      deeds none ++ deeds (some [104]) ++ Exit.deeds (.unflushed [] (.os .badDescriptor)) ∧
    (after run faltering).prog.datagrams = 1 ∧ endsWell run faltering = false := by
  decide +kernel

end Recorder
end StreamRelay
