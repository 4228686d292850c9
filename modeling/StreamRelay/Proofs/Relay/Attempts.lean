import StreamRelay.Proofs.Host.Calls
import StreamRelay.Relay.Loop

namespace StreamRelay.Relay
variable {T : Type} [Clock T] {m : Machine T (Relay T)}
open Run

-- Accepting again and again keeps to what one accept keeps to, and draining to what one read does.
section Composed
variable {good : {α : Type} → Run T (Relay T) α → Prop}

theorem acceptFor_composed (composes : Compositional good) (once : good (acceptOnce (T := T)))
    (fuel admitted : Nat) : good (acceptFor (T := T) fuel admitted) := by
  induction fuel generalizing admitted with
  | zero => exact composes.pure admitted
  | succ fuel ih =>
    refine composes.bind once fun result => ?_
    cases result with
    | done => exact composes.pure admitted
    | again => exact ih admitted
    | admitted => exact ih (admitted + 1)

theorem drainFor_composed (composes : Compositional good) {conn : Connection}
    (once : good (readOnce (T := T) conn)) (fuel : Nat) : good (drainFor (T := T) conn fuel) := by
  induction fuel with
  | zero => exact composes.pure _
  | succ fuel ih =>
    refine composes.bind once fun result => ?_
    cases result with
    | some outcome => exact composes.pure outcome
    | none => exact ih

end Composed

section Accepting
variable (done : AcceptOutcome → Machine T (Relay T) → Prop)
  (failed : Failure → Machine T (Relay T) → Prop)

structure Welcomes (admitted : Option Connection) (m : Machine T (Relay T)) : Prop where
  dismissed : admitted = none → done .again m
  enrolled : ∀ conn, admitted = some conn →
    done .admitted ⟨m.host.logged .info ("new client " ++ conn.label),
      count (fun c => { c with accepted := c.accepted + 1 }) m.prog⟩

-- Nobody was brought: an error may be no error, concern one client alone, or make the listener rest.
structure Refuses (f : Failure) (m : Machine T (Relay T)) : Prop where
  blocked : f.wouldBlock = true → done .done m
  broken : f.wouldBlock = false → f.interrupted = true → done .again m
  skipped : f.wouldBlock = false → f.interrupted = false → f.isOs = true → concernsOne f = true →
    done .again ⟨m.host.logged .error ("accept failed: " ++ f.message), m.prog⟩
  rests : f.wouldBlock = false → f.interrupted = false → f.isOs = true → concernsOne f = false →
    Ends (pause retryDelay) ⟨m.host.logged .error ("accept failed: " ++ f.message), m.prog⟩
      (fun _ => done .done) failed
  foreign : f.wouldBlock = false → f.interrupted = false → f.isOs = false → failed f m

variable {done failed} {done' : AcceptOutcome → Machine T (Relay T) → Prop}
  {failed' : Failure → Machine T (Relay T) → Prop}

omit [Clock T] in
theorem Welcomes.imp {admitted : Option Connection} (welcomes : Welcomes done admitted m)
    (well : ∀ result m', done result m' → done' result m') : Welcomes done' admitted m where
  dismissed gone := well _ _ (welcomes.dismissed gone)
  enrolled conn here := well _ _ (welcomes.enrolled conn here)

theorem Refuses.imp {f : Failure} (refuses : Refuses done failed f m)
    (well : ∀ result m', done result m' → done' result m')
    (bad : ∀ f m', failed f m' → failed' f m') : Refuses done' failed' f m where
  blocked now := well _ _ (refuses.blocked now)
  broken goes now := well _ _ (refuses.broken goes now)
  skipped goes goes' os one := well _ _ (refuses.skipped goes goes' os one)
  rests goes goes' os all := (refuses.rests goes goes' os all).imp (fun _ => well _) bad
  foreign goes goes' other := bad _ _ (refuses.foreign goes goes' other)

theorem ends_acceptOnce (accepts : Ends (Os.accept m.prog.listener.sock) m
    (fun found m' => Ends (enroll found.1 ⟨found.2, []⟩) m' (Welcomes done) failed)
    (Refuses done failed)) : Ends acceptOnce m done failed := by
  simp only [acceptOnce, ends_bind, ends_gets, ends_outcome]
  apply accepts.imp
  · intro found m' enrolls
    apply enrolls.imp
    · intro admitted m'' welcomes
      cases admitted with
      | none => exact welcomes.dismissed rfl
      | some conn =>
        simp only [ends_bind, ends_sets, ends_log, ends_pure]
        exact welcomes.enrolled conn rfl
    · exact fun _ _ fell => fell
  · intro f m' refuses
    cases blocked : f.wouldBlock with
    | true => exact refuses.blocked blocked
    | false =>
      cases broken : f.interrupted with
      | true => exact refuses.broken blocked broken
      | false =>
        cases os : f.isOs with
        | false => exact refuses.foreign blocked broken os
        | true =>
          simp only [Bool.false_eq_true, if_false, if_true, ends_bind, ends_log]
          cases one : concernsOne f with
          | true => exact refuses.skipped blocked broken os one
          | false =>
            simp only [Bool.false_eq_true, if_false, ends_bind, ends_pure]
            exact refuses.rests blocked broken os one

end Accepting

section Enrolling
variable (sock : SocketId) (done : Option Connection → Machine T (Relay T) → Prop)
  (failed : Failure → Machine T (Relay T) → Prop)

structure Dismisses (caught : Bool) (f : Failure) (m : Machine T (Relay T)) : Prop where
  closed : caught = true → ∀ text, done none ⟨(m.host.logged .error text).shut sock, m.prog⟩
  foreign : caught = false → failed f m

variable {sock done failed}

theorem ends_enroll {peer : Peer} (prepares : Ends (Os.setBlocking sock false) m
    (fun _ ready => Ends (Os.register sock (some sock)) ready
      (fun _ m' => ∀ conn, conn = ⟨sock, peer.address, ready.host.fileno sock, true, false⟩ →
        done (some conn) ⟨m'.host, setTable (·.insert conn) m'.prog⟩)
      fun f => Dismisses sock done failed (f.isOs || f.isValue || f.isKey) f)
    fun f => Dismisses sock done failed f.isOs f) : Ends (enroll sock peer) m done failed := by
  simp only [enroll, ends_bind, ends_outcome]
  apply prepares.imp
  · intro _ ready registers
    simp only [ends_asks]
    apply registers.imp
    · intro _ m' inserted
      simp only [ends_sets, ends_pure]
      exact inserted _ rfl
    · intro f m' dismisses
      cases caught : f.isOs || f.isValue || f.isKey with
      | true =>
        simp only [if_true, ends_bind, ends_log, ends_close, ends_pure]
        exact dismisses.closed caught _
      | false => exact dismisses.foreign caught
  · intro f m' dismisses
    cases caught : f.isOs with
    | true =>
      simp only [if_true, ends_bind, ends_log, ends_close, ends_pure]
      exact dismisses.closed caught _
    | false => exact dismisses.foreign caught

end Enrolling

section Resting
variable {done : Machine T (Relay T) → Prop} {failed : Failure → Machine T (Relay T) → Prop}

theorem ends_unwatchListener (unregisters : Ends (Os.unregister m.prog.listener.sock) m
    (fun _ => done) fun f m' => ((f.isKey || f.isValue) = true → done m') ∧
      ((f.isKey || f.isValue) = false → failed f m')) :
    Ends unwatchListener m (fun _ => done) failed := by
  simp only [unwatchListener, ends_bind, ends_gets, ends_outcome]
  apply unregisters.imp
  · exact fun _ _ reached => reached
  · intro f m' fell
    cases unlisted : f.isKey || f.isValue with
    | true => exact fell.1 unlisted
    | false => exact fell.2 unlisted

def atRest (delay : T) (m : Machine T (Relay T)) : Machine T (Relay T) :=
  ⟨(m.host.emit (.rests (Clock.add m.host.clock delay))).logged .warning
      ("listener paused for " ++ Clock.fixed 2 delay ++ "s"),
    setListener (fun l => { l with resumeAt := some (Clock.add m.host.clock delay) }) m.prog⟩

theorem ends_pause {delay : T}
    (still : (m.prog.listener.paused || m.prog.listener.closed) = true → done m)
    (awake : m.prog.listener.paused = false → m.prog.listener.closed = false →
      Ends unwatchListener m (fun _ m' => done (atRest delay m')) failed) :
    Ends (pause delay) m (fun _ => done) failed := by
  simp only [pause, ends_bind, ends_gets]
  split
  · rename_i holds
    exact still holds
  · rename_i moves
    simp only [Bool.or_eq_true, not_or, Bool.not_eq_true] at moves
    simp only [ends_bind, ends_asks, ends_sets, ends_emits, ends_log]
    exact awake moves.1 moves.2

theorem ends_maybeResume
    (rests : (∀ time, m.prog.listener.resumeAt = some time →
      (m.prog.listener.closed || Clock.before m.host.clock time) = true) → done m)
    (due : ∀ time, m.prog.listener.resumeAt = some time → m.prog.listener.closed = false →
      Clock.before m.host.clock time = false →
        Ends (Os.register m.prog.listener.sock none)
          ⟨m.host, setListener (fun l => { l with resumeAt := none }) m.prog⟩ (fun _ => done)
          fun f m' => ((f.isOs || f.isValue || f.isKey) = true → Ends (pause retryDelay)
              ⟨m'.host.logged .error ("cannot re-register listener: " ++ f.message), m'.prog⟩
              (fun _ => done) failed) ∧
            ((f.isOs || f.isValue || f.isKey) = false → failed f m')) :
    Ends maybeResume m (fun _ => done) failed := by
  simp only [maybeResume, ends_bind, ends_gets, ends_asks]
  cases resting : m.prog.listener.resumeAt with
  | none => exact rests fun time found => by cases resting.symm.trans found
  | some time =>
    simp only
    split
    · rename_i early
      refine rests fun time' found => ?_
      cases resting.symm.trans found
      exact early
    · rename_i late
      simp only [Bool.or_eq_true, not_or, Bool.not_eq_true] at late
      simp only [ends_bind, ends_sets, ends_outcome]
      apply (due time resting late.1 late.2).imp
      · exact fun _ _ reached => reached
      · intro f m' fell
        cases refused : f.isOs || f.isValue || f.isKey with
        | true =>
          simp only [if_true, ends_bind, ends_log]
          exact fell.1 refused
        | false => exact fell.2 refused

end Resting

section Reading
variable (conn : Connection) (done : Option ReadOutcome → Machine T (Relay T) → Prop)
  (failed : Failure → Machine T (Relay T) → Prop)

structure Obtains (data : Bytes) (m : Machine T (Relay T)) : Prop where
  stops : data.isEmpty = true →
    done (some .disconnect)
      ⟨m.host.logged .info ("client " ++ conn.label ++ " disconnected"), m.prog⟩
  passes : data.isEmpty = false →
    Ends (m.prog.sink.forward data (some conn.sock)) m
      (fun sent m' => done none ⟨m'.host, count (·.forwarded sent data.length) m'.prog⟩) failed

structure Misses (f : Failure) (m : Machine T (Relay T)) : Prop where
  blocked : f.wouldBlock = true → done (some .stillOpen) m
  broken : f.wouldBlock = false → f.interrupted = true → done none m
  counted : f.wouldBlock = false → f.interrupted = false → f.isOs = true →
    done (some .failed)
      ⟨m.host.logged .warning ("read from " ++ conn.label ++ " failed: " ++ f.message),
        count (fun c => { c with readErrors := c.readErrors + 1 }) m.prog⟩
  foreign : f.wouldBlock = false → f.interrupted = false → f.isOs = false → failed f m

variable {conn done failed}

theorem ends_readOnce (receives : Ends (Os.receive conn.sock m.prog.config.bufferSize) m
    (Obtains conn done failed) (Misses conn done failed)) : Ends (readOnce conn) m done failed := by
  simp only [readOnce, ends_bind, ends_gets, ends_outcome]
  apply receives.imp
  · intro data m' obtains
    cases stops : data.isEmpty with
    | true =>
      simp only [if_true, ends_bind, ends_log, ends_pure]
      exact obtains.stops stops
    | false =>
      simp only [Bool.false_eq_true, if_false, ends_bind, ends_gets, ends_sets, ends_pure]
      exact obtains.passes stops
  · intro f m' misses
    cases blocked : f.wouldBlock with
    | true => exact misses.blocked blocked
    | false =>
      cases broken : f.interrupted with
      | true => exact misses.broken blocked broken
      | false =>
        cases os : f.isOs with
        | false => exact misses.foreign blocked broken os
        | true =>
          simp only [Bool.false_eq_true, if_false, if_true, ends_bind, ends_log, ends_sets,
            ends_pure]
          exact misses.counted blocked broken os

end Reading

section Serving
variable {done : Machine T (Relay T) → Prop} {failed : Failure → Machine T (Relay T) → Prop}

def endOf (conn : Connection) : Run T (Relay T) Unit := do
  teardown conn.sock
  sets (count fun c => { c with closed := c.closed + 1 })

theorem ends_serve {entry : Entry}
    (accepts : entry.sock = m.prog.listener.sock → Ends acceptAll m (fun _ => done) failed)
    (passes : entry.sock ≠ m.prog.listener.sock →
      (∀ conn, entry.conn.bind m.prog.table.connection? = some conn → conn.closed = true) → done m)
    (reads : ∀ conn, entry.sock ≠ m.prog.listener.sock →
      entry.conn.bind m.prog.table.connection? = some conn → conn.closed = false →
        Ends (drain conn) m (fun outcome m' => (outcome = .stillOpen → done m') ∧
          (outcome ≠ .stillOpen → Ends (endOf conn) m' (fun _ => done) failed)) failed) :
    Ends (serve entry) m (fun _ => done) failed := by
  simp only [serve, ends_bind, ends_gets]
  split
  · rename_i own
    rw [ends_bind]
    exact accepts own
  · rename_i other
    rw [ends_bind, ends_gets]
    cases found : entry.conn.bind m.prog.table.connection? with
    | none => exact passes other fun conn known => by cases found.symm.trans known
    | some conn =>
      cases gone : conn.closed with
      | true =>
        simp only [gone, if_true, ends_pure]
        refine passes other fun other known => ?_
        cases found.symm.trans known
        exact gone
      | false =>
        simp only [gone, Bool.false_eq_true, if_false, ends_bind]
        apply (reads conn other found gone).imp
        · intro outcome m' drained
          cases outcome with
          | stillOpen => exact drained.1 rfl
          | disconnect | failed => exact drained.2 (by rintro ⟨⟩)
        · exact fun _ _ fell => fell

end Serving

section Waiting
variable (done : Machine T (Relay T) → Prop) (failed : Failure → Machine T (Relay T) → Prop)

structure Breaks (f : Failure) (m : Machine T (Relay T)) : Prop where
  broken : f.interrupted = true → done m
  counted : f.interrupted = false → f.isOs = true →
    failed f ⟨m.host.logged .error ("readiness wait failed: " ++ f.message), m.prog⟩
  foreign : f.interrupted = false → f.isOs = false → failed f m

variable {done failed}

theorem ends_awaited {timeout : T} {done : List (Int × Entry) → Machine T (Relay T) → Prop}
    (selects : ∀ shown, Ends (Os.select timeout shown) m done failed) :
    Ends (do Os.select timeout (← overview)) m done failed := by
  simp only [overview, ends_bind, ends_asks, ends_gets, ends_pure]
  exact selects _

theorem ends_waitAndServe (awaits : Ends (do Os.select m.prog.pollTimeout (← overview)) m
    (fun entries m' => Ends (dispatch entries) m' (fun _ => done) failed) (Breaks done failed)) :
    Ends waitAndServe m (fun _ => done) failed := by
  rw [waitAndServe, ends_bind, ends_gets, ends_bind, ends_outcome]
  apply awaits.imp
  · exact fun _ _ served => served
  · intro f m' breaks
    dsimp only
    cases broken : f.interrupted with
    | true => exact breaks.broken broken
    | false =>
      simp only [Bool.false_eq_true, if_false, ends_bind, ends_onlyIf, ends_log, ends_fails]
      split
      · rename_i os
        exact breaks.counted broken os
      · rename_i foreign
        exact breaks.foreign broken (eq_false_of_ne_true foreign)

end Waiting
end StreamRelay.Relay
