import StreamRelay.Proofs.Relay.Ebbing
import StreamRelay.Proofs.Relay.Rearming
import StreamRelay.Proofs.Relay.Resuming

namespace StreamRelay

namespace Host
variable {T : Type}

-- The first thing that an observer sees.
def Begins (e : Event T) (h h' : Host T) : Prop := (h.emit e).trace <:+ h'.trace

theorem Tells.begins {e : Event T} {h h' : Host T} (tells : Tells (h.emit e) h') : Begins e h h' :=
  tells.trace

theorem Begins.tells {e : Event T} {a b c : Host T} (begins : Begins e a b) (tells : Tells b c) :
    Begins e a c := List.IsSuffix.trans begins tells.trace

end Host

namespace Relay
variable {T : Type} [Clock T]
open Run Host

section Begins
variable {m : Machine T (Relay T)}

theorem acceptOnce_begins : Ends acceptOnce m
    (fun _ m' => Begins (.begun .accept (some m.prog.listener.sock)) m.host m'.host)
    fun _ m' => Begins (.begun .accept (some m.prog.listener.sock)) m.host m'.host := by
  apply ends_acceptOnce
  apply (accept_runs calm_tells.steady.lively).imp
  · intro found m' reached
    obtain ⟨h, s, rest, path, -, -, rfl⟩ := reached
    have taken : Tells h ((h.dequeue m.prog.listener.sock rest).emit
        (.accept found.1 (h.number found.1))) := (tells_alter h _ _).trans (tells_emit _ _)
    have begins := path.begins.tells taken
    apply (telling_parts.enroll found.1 ⟨found.2, []⟩ _).imp
    · intro admitted m' enrolled
      have begins := begins.tells enrolled.1
      constructor
      case dismissed => exact fun _ => begins
      case enrolled => exact fun _ _ => begins.tells (calm_tells.steady.logged _ _ _)
    · exact fun _ _ fell => begins.tells fell.1
  · intro f m' path
    have begins := path.1.begins
    have noted := begins.tells
      (calm_tells.steady.logged m'.host .error ("accept failed: " ++ f.message))
    constructor
    case blocked => exact fun _ => begins
    case broken => exact fun _ _ => begins
    case skipped => exact fun _ _ _ _ => noted
    case rests =>
      intro _ _ _ _
      apply (telling_parts.pause retryDelay _).imp
      · exact fun _ _ paused => noted.tells paused.1
      · exact fun _ _ fell => noted.tells fell.1
    case foreign => exact fun _ _ _ => begins

theorem acceptAll_begins : Ends acceptAll m
    (fun _ m' => Begins (.begun .accept (some m.prog.listener.sock)) m.host m'.host)
    fun _ m' => Begins (.begun .accept (some m.prog.listener.sock)) m.host m'.host := by
  have telling (fuel admitted : Nat) := acceptFor_within (telling_parts (T := T)).toCourse
    telling_parts.acceptOnce fuel admitted
  rw [acceptAll, ends_bind, ends_asks, acceptFor, ends_bind]
  apply acceptOnce_begins.normally
  intro result m' begins
  cases result with
  | done => exact begins
  | again =>
    exact (telling _ _ m').imp (fun _ _ later => begins.tells later.1)
      fun _ _ later => begins.tells later.1
  | admitted =>
    exact (telling _ _ m').imp (fun _ _ later => begins.tells later.1)
      fun _ _ later => begins.tells later.1

theorem readOnce_begins (conn : Connection) : Ends (readOnce conn) m
    (fun _ m' => Begins (.begun .receive (some conn.sock)) m.host m'.host)
    fun _ m' => Begins (.begun .receive (some conn.sock)) m.host m'.host := by
  have draws := ample_tells (T := T).reading.draws
  apply ends_readOnce
  apply (receive_begins calm_tells.steady.lively _).imp
  · intro data m' reached
    have begins : Begins (.begun .receive (some conn.sock)) m.host m'.host := by
      obtain ⟨h, s, path, -, -, ⟨-, -, rfl⟩ | ⟨-, -, -, rfl⟩⟩ := reached
      · exact path.begins.tells ((tells_alter h conn.sock _).trans (tells_emit _ _))
      · exact path.begins.tells (tells_emit _ _)
    constructor
    case stops => exact fun _ => begins.tells (calm_tells.steady.logged _ _ _)
    case passes =>
      intro _
      apply (draws.forward _ data (some conn.sock) m').imp
      · exact fun _ _ forwarded => begins.tells forwarded.1
      · exact fun _ _ fell => begins.tells fell.1
  · intro f m' reached
    obtain ⟨h, path, rfl⟩ := reached
    have begins := path.begins.tells (calm_tells.note h .receive conn.sock f)
    constructor
    case blocked => exact fun _ => begins
    case broken => exact fun _ _ => begins
    case counted => exact fun _ _ _ => begins.tells (calm_tells.steady.logged _ _ _)
    case foreign => exact fun _ _ _ => begins

theorem drain_begins (conn : Connection) : Ends (drain conn) m
    (fun _ m' => Begins (.begun .receive (some conn.sock)) m.host m'.host)
    fun _ m' => Begins (.begun .receive (some conn.sock)) m.host m'.host := by
  have telling (fuel : Nat) : Within (Counted (T := T) Tells) (Counted Tells) (drainFor conn fuel) :=
    ample_tells.reading.draws.drainFor conn fuel
  rw [drain, ends_bind, ends_asks, drainFor, ends_bind]
  apply (readOnce_begins conn).normally
  intro result m' begins
  cases result with
  | some result => exact begins
  | none =>
    exact (telling _ m').imp (fun _ _ later => begins.tells later.1)
      fun _ _ later => begins.tells later.1

end Begins

-- Every event of a batch is handled in turn: the listener accepts as many as wait, an open connection is
-- read until nothing is left. Only a connection that has ended is passed over.
inductive Handled : Machine T (Relay T) → List (Int × Entry) → Machine T (Relay T) → Prop where
  | nil : Handled m [] m
  | accepts : event.2.sock = m.prog.listener.sock → acceptAll m = .ok admitted middle →
      Begins (.begun .accept (some event.2.sock)) m.host middle.host → Handled middle rest last →
      Handled m (event :: rest) last
  | reads : event.2.sock ≠ m.prog.listener.sock →
      event.2.conn.bind m.prog.table.connection? = some conn → conn.closed = false →
      drain conn m = .ok result drained → Begins (.begun .receive (some conn.sock)) m.host drained.host →
      serve event.2 m = .ok () middle → Handled middle rest last → Handled m (event :: rest) last
  | passes : event.2.sock ≠ m.prog.listener.sock →
      (∀ conn, event.2.conn.bind m.prog.table.connection? = some conn → conn.closed = true) →
      Handled m rest last → Handled m (event :: rest) last

section Batch
variable {m middle last : Machine T (Relay T)} {event : Int × Entry} {rest : List (Int × Entry)}

theorem Handled.serves (served : serve event.2 m = .ok () middle) (handled : Handled middle rest last) :
    Handled m (event :: rest) last := by
  have whole := served
  by_cases listens : event.2.sock = m.prog.listener.sock
  · simp only [serve, bind, EStateM.bind, gets, listens, if_true] at served
    cases ran : acceptAll m with
    | error f m' => simp [ran] at served
    | ok admitted m' =>
      simp only [ran] at served
      cases served
      refine .accepts listens ran ?_ handled
      rw [listens]
      exact acceptAll_begins.of_ok ran
  · simp only [serve, bind, EStateM.bind, gets, listens, if_false] at served
    cases known : event.2.conn.bind m.prog.table.connection? with
    | none =>
      simp only [known] at served
      cases served
      exact .passes listens (fun _ found => by cases known.symm.trans found) handled
    | some conn =>
      simp only [known] at served
      cases closed : conn.closed with
      | true =>
        simp only [closed, if_true] at served
        cases served
        exact .passes listens (fun c found => by cases known.symm.trans found; exact closed) handled
      | false =>
        simp only [closed, Bool.false_eq_true, if_false] at served
        cases ran : drain conn m with
        | error f m' => simp [EStateM.bind, ran] at served
        | ok result m' =>
          exact .reads listens known closed ran ((drain_begins conn).of_ok ran) whole handled

theorem dispatch_handles (entries : List (Int × Entry)) (m : Machine T (Relay T)) :
    Ends (dispatch entries) m (fun _ m' => Handled m entries m')
      fun f m' => ∃ past event rest middle, entries = past ++ event :: rest ∧ Handled m past middle ∧
        serve event.2 middle = .error f m' := by
  induction entries generalizing m with
  | nil => exact Handled.nil
  | cons event rest ih =>
    show Ends (serve event.2 >>= fun _ => dispatch rest) m _ _
    rw [ends_bind]
    apply Ends.ran.imp
    · intro _ middle served
      apply (ih middle).imp
      · exact fun _ _ handled => handled.serves served
      · rintro f m' ⟨past, failing, left, before, rfl, handled, fell⟩
        exact ⟨event :: past, failing, left, before, rfl, handled.serves served, fell⟩
    · exact fun f m' fell => ⟨[], event, rest, m, rfl, .nil, fell⟩

end Batch

-- Up to where a turn begins to wait: the console was looked at and did not ask for the end, and then
-- the listener.
structure Looks (m resumed : Machine T (Relay T)) : Prop where
  looked : ∃ looked, consoleAsksEnd m = .ok false looked ∧ looked.host.entries = m.host.entries ∧
    (∃ control, looked.prog = { m.prog with control }) ∧ maybeResume looked = .ok () resumed ∧
    Rearmed looked resumed

-- How a turn goes and how it ends.
inductive Turned (m : Machine T (Relay T)) : Except Failure Bool → Machine T (Relay T) → Prop where
  -- The console asks for the end, or cannot be read: nobody waits and nobody is served.
  | asked : consoleAsksEnd m = .ok true looked → Shows Event.quiet m.host m'.host →
      Turned m (.ok false) m'
  | unheard : consoleAsksEnd m = .error f m' → Shows Event.quiet m.host m'.host →
      Turned m (.error f) m'
  | unwatched : consoleAsksEnd m = .ok false looked → maybeResume looked = .error f m' →
      Shows Event.quiet m.host m'.host → Turned m (.error f) m'
  | broken : Looks m resumed → awaited resumed.prog.pollTimeout resumed = .error f m' →
      Begins (.begun .select none) resumed.host m'.host → f.interrupted = true →
      m'.host.entries = resumed.host.entries → m'.prog = resumed.prog → Turned m (.ok true) m'
  | failed : Looks m resumed → awaited resumed.prog.pollTimeout resumed = .error f waited →
      Begins (.begun .select none) resumed.host waited.host → f.interrupted = false →
      Turned m (.error f) m'
  | served : Looks m resumed → awaited resumed.prog.pollTimeout resumed = .ok batch waited →
      Begins (.begun .select none) resumed.host waited.host → Handled waited batch m' →
      Turned m (.ok true) m'
  | fell : Looks m resumed → awaited resumed.prog.pollTimeout resumed = .ok batch waited →
      Begins (.begun .select none) resumed.host waited.host → batch = past ++ event :: rest →
      Handled waited past middle → serve event.2 middle = .error f m' → Turned m (.error f) m'

section Turned
variable {m resumed : Machine T (Relay T)}

theorem consoleAsksEnd_sameWatch (m : Machine T (Relay T)) : Ends consoleAsksEnd m
    (fun _ m' => m'.host.entries = m.host.entries ∧ ∃ control, m'.prog = { m.prog with control })
    fun _ _ => True := by
  rw [consoleAsksEnd, ends_bind, ends_gets]
  cases known : m.prog.control with
  | none => exact ⟨rfl, m.prog.control, rfl⟩
  | some control =>
    rw [ends_bind]
    apply (calm_sameWatch.steady.control control Clock.zero m).well
    intro polled m' path
    rw [ends_bind, ends_sets, ends_pure]
    exact ⟨path.1, some polled.1, by rw [path.2]⟩

theorem awaited_begins (timeout : T) (m : Machine T (Relay T)) : Ends (awaited timeout) m
    (fun _ m' => Begins (.begun .select none) m.host m'.host)
    fun _ m' => Begins (.begun .select none) m.host m'.host ∧
      m'.host.entries = m.host.entries ∧ m'.prog = m.prog := by
  refine ends_awaited fun shown => ((select_begins calm_tells.steady.lively timeout shown).and
    (select_begins calm_sameWatch.steady.lively timeout shown)).imp ?_ ?_
  · rintro found m' ⟨⟨h, fds, path, -, rfl⟩, -⟩
    exact path.begins.tells (tells_emit _ _)
  · rintro f m' ⟨path, same⟩
    exact ⟨path.1.begins, same⟩

theorem waitAndServe_turned (looks : Looks m resumed) : Ends waitAndServe resumed
    (fun _ m' => Turned m (.ok true) m') fun f m' => Turned m (.error f) m' := by
  refine ends_waitAndServe ((Ends.ran.and (awaited_begins _ resumed)).imp ?_ ?_)
  · rintro batch waited ⟨ran, begins⟩
    apply (dispatch_handles batch waited).imp
    · exact fun _ _ handled => .served looks ran begins handled
    · rintro f m' ⟨past, event, rest, middle, split, handled, fell⟩
      exact .fell looks ran begins split handled fell
  · rintro f waited ⟨ran, begins, entries, same⟩
    constructor
    case broken => exact fun broken => .broken looks ran begins broken entries same
    case counted => exact fun broken _ => .failed looks ran begins broken
    case foreign => exact fun broken _ => .failed looks ran begins broken

theorem turn_turned (m : Machine T (Relay T)) : Ends turn m
    (fun goesOn m' => Turned m (.ok goesOn) m') fun f m' => Turned m (.error f) m' := by
  have quiet (e : Event T) (quiet : e.quiet = true) : e.quiet = true := quiet
  rw [turn, ends_bind]
  apply (Ends.ran.and ((minded_consoleAsksEnd quiet m).and (consoleAsksEnd_sameWatch m))).imp
  · rintro asked looked ⟨ran, shown, same, control⟩
    cases asked with
    | true =>
      simp only [if_true, ends_bind, ends_log]
      have logged := Minds.trans shown
        (minds_logged quiet looked.host .info "shutdown requested from console")
      exact .asked ran (logged.trans (minds_raise (fun _ => rfl) _ .service)).shows
    | false =>
      simp only [Bool.false_eq_true, if_false, ends_bind]
      apply (Ends.ran.and (((minded_resting quiet).maybeResume looked).and maybeResume_rearms)).imp
      · rintro _ resumed ⟨ran', -, rearmed⟩
        exact waitAndServe_turned ⟨looked, ran, same, control, ran', rearmed⟩
      · rintro f m' ⟨ran', shown', -⟩
        exact .unwatched ran ran' (Minds.trans shown shown').shows
  · rintro f m' ⟨ran, shown, -⟩
    exact .unheard ran shown.shows

theorem turn_of_looks (looks : Looks m resumed) :
    turn m = (do waitAndServe; return true : Run T (Relay T) Bool) resumed := by
  obtain ⟨looked, ran, -, -, ran', -⟩ := looks
  simp only [turn, bind, EStateM.bind, ran, ran', Bool.false_eq_true, if_false]

theorem turn_waits (looks : Looks m resumed) :
    Begins (.begun .select none) resumed.host (after turn m).host := by
  have ends : Ends waitAndServe resumed
      (fun _ m' => Begins (.begun .select none) resumed.host m'.host)
      fun _ m' => Begins (.begun .select none) resumed.host m'.host := by
    refine ends_waitAndServe ((awaited_begins _ resumed).imp ?_ ?_)
    · intro batch waited begins
      exact (telling_parts.rounds.dispatch batch waited).imp
        (fun _ _ served => begins.tells served.1) fun _ _ served => begins.tells served.1
    · rintro f waited ⟨begins, -⟩
      constructor
      case broken => exact fun _ => begins
      case counted => exact fun _ _ => begins.tells (calm_tells.steady.logged _ _ _)
      case foreign => exact fun _ _ => begins
  have ran := turn_of_looks looks
  unfold after
  rw [ran]
  simp only [bind, EStateM.bind]
  unfold Ends at ends
  cases served : waitAndServe resumed with
  | ok _ m' =>
    rw [served] at ends
    exact ends
  | error f m' =>
    rw [served] at ends
    exact ends

theorem turn_broken {f : Failure} {m' : Machine T (Relay T)} (looks : Looks m resumed)
    (ran : awaited resumed.prog.pollTimeout resumed = .error f m') (broken : f.interrupted = true) :
    turn m = .ok true m' ∧ m'.host.entries = resumed.host.entries ∧ m'.prog = resumed.prog := by
  have waits : waitAndServe resumed = .ok () m' := by
    show (gets pollTimeout >>= fun timeout => outcome (awaited timeout) >>= _) resumed = _
    simp only [bind, EStateM.bind, gets, outcome, ran, broken, if_true]
    rfl
  refine ⟨?_, ((awaited_begins _ resumed).of_error ran).2⟩
  rw [turn_of_looks looks]
  simp only [bind, EStateM.bind, waits]
  rfl

end Turned

section Loop
variable {m left : Machine T (Relay T)} {exit : Exit}

theorem close_quiet (m : Machine T (Relay T)) : Minds Event.quiet m.host (after close m).host :=
  ((minded_closing fun _ quiet => quiet).finish fun _ _ => minds_same rfl rfl).after minded_course m

theorem turn_asked {looked : Machine T (Relay T)} (ran : consoleAsksEnd m = .ok true looked) :
    ∃ m', turn m = .ok false m' ∧ Shows Event.quiet m.host m'.host := by
  have quiet (e : Event T) (quiet : e.quiet = true) : e.quiet = true := quiet
  have shown : Minds Event.quiet m.host looked.host := (minded_consoleAsksEnd quiet m).of_ok ran
  have logged := shown.trans (minds_logged quiet looked.host .info "shutdown requested from console")
  have raised := logged.trans (minds_raise (fun _ => rfl) _ .service)
  refine ⟨⟨_, looked.prog⟩, ?_, raised.shows⟩
  simp only [turn, bind, EStateM.bind, ran, if_true]
  rfl

theorem Loops.asked_ends (loops : Loops m exit left) (reason : exit ≠ .spent)
    (going : m.host.serviceStop = false) {looked : Machine T (Relay T)}
    (ran : consoleAsksEnd m = .ok true looked) :
    exit = .asked ∧ Shows Event.quiet m.host (after close left).host := by
  obtain ⟨m', turned, shown⟩ := turn_asked ran
  cases loops with
  | told told => exact absurd (told.symm.trans going) nofun
  | spent => exact absurd rfl reason
  | asked _ _ ran' =>
    cases turned.symm.trans ran'
    exact ⟨rfl, shown.trans (close_quiet _).shows⟩
  | failed _ ran' => exact absurd (turned.symm.trans ran') nofun
  | next _ ran' => exact absurd (turned.symm.trans ran') nofun

-- How a run ends: by the loop it has made, of which only the last turn may have been told to stop, and
-- then by the end, which neither waits nor serves.
structure Stopped (m : Machine T (Relay T)) (exit : Exit) (turning left : Machine T (Relay T)) :
    Prop where
  loop : ∃ first, announce m = .ok () first ∧ Loops first exit left
  reason : m.host.Heard → exit ≠ .spent
  mute : Shows Event.mute m.host turning.host
  span : Span turning.host left.host
  ended : after run m = after close left
  quiet : Shows Event.quiet left.host (after run m).host

theorem run_stopped (m : Machine T (Relay T)) : ∃ exit turning left, Stopped m exit turning left := by
  obtain ⟨first, exit, left, runs⟩ := run_runs m
  obtain ⟨turning, mute, span⟩ := runs.loops.last_turn
  have begun := (announce_shows m Event.mute fun _ _ => rfl).of_ok runs.announced
  refine ⟨exit, turning, left, ⟨first, runs.announced, runs.loops⟩, runs.reason, begun.trans mute, span,
    runs.last, ?_⟩
  rw [runs.last]
  exact (close_quiet left).shows

-- Who tells a relay to stop, and whenever, has it begin at most one more wait and serve at most one more
-- batch, of which it leaves out nothing, and then it ends; if the console asks for it, not even that. A
-- wait that a signal broke off is made again.
theorem run_stops_promptly (m : Machine T (Relay T)) :
    (∃ exit turning left, Stopped m exit turning left) ∧
    (m.host.serviceStop = true → Shows Event.quiet m.host (after run m).host) ∧
    (∃ new, (after run m).host.trace = new ++ m.host.trace ∧
      ∀ later s earlier, new = later ++ s :: earlier → s.event.stops = true → Ebbing later) ∧
    (∀ (b : Machine T (Relay T)) exit left, Loops b exit left →
      (b.host.serviceStop = true → left = b) ∧
      (exit ≠ .spent → b.host.serviceStop = false → ∀ looked, consoleAsksEnd b = .ok true looked →
        exit = .asked ∧ Shows Event.quiet b.host (after close left).host)) ∧
    (∀ b : Machine T (Relay T), Ends turn b (fun goesOn b' => Turned b (.ok goesOn) b')
      fun f b' => Turned b (.error f) b') ∧
    (∀ (b resumed b' : Machine T (Relay T)) f, Looks b resumed →
      awaited resumed.prog.pollTimeout resumed = .error f b' → f.interrupted = true →
        (turn b = .ok true b' ∧ b'.host.entries = resumed.host.entries ∧ b'.prog = resumed.prog) ∧
        ∀ again, Looks b' again → Begins (.begun .select none) again.host (after turn b').host) := by
  obtain ⟨first, exit, left, runs⟩ := run_runs m
  have closing := close_quiet left
  rw [← runs.last] at closing
  refine ⟨run_stopped m, fun told => ?_, ?_, fun b exit left loops => ?_,
    turn_turned, fun b resumed b' f looks ran broken => ?_⟩
  · have begun := (announce_shows m Event.quiet fun _ _ => rfl).of_ok runs.announced
    exact begun.trans (runs.loops.stays (runs.stop.trans told) ▸ closing.shows)
  · exact runs.loops.ebbs ((announce_shows m Event.mute fun _ _ => rfl).of_ok runs.announced) closing
  · exact ⟨loops.stays, fun reason going looked ran => loops.asked_ends reason going ran⟩
  · exact ⟨turn_broken looks ran broken, fun again looks => turn_waits looks⟩

end Loop

end Relay
end StreamRelay
