import StreamRelay.Proofs.Console.Recognition
import StreamRelay.Proofs.Relay.Shutdown
import StreamRelay.Proofs.Relay.Unaware

namespace StreamRelay.Relay
variable {T : Type} [Clock T]
open Run Control

omit [Clock T] in
structure Unheard (console : Option Control) (r u : Relay T) : Prop where
  console : r.control = console
  rest : u = { r with control := none }

theorem unheard_unaware (console : Option Control) :
    Unaware (T := T) (fun _ => True) (Abreast (Unheard console)) where
  toIndistinct := Abreast.indistinct
  others _ := trivial
  relay abreast := ⟨none, abreast.2.rest⟩
  edit {f} apart m u abreast := by
    obtain ⟨same, kept, rest⟩ := abreast
    refine ⟨same, ?_, ?_⟩
    · have whole := apart m.prog m.prog.control
      exact (congrArg Relay.control whole).trans kept
    · exact (congrArg f rest).trans (apart m.prog none)

def heeds (asked : Bool) : Run T (Relay T) Bool := do
  if asked then
    Os.log .info "shutdown requested from console"
    Os.stop .service
    return false
  else
    maybeResume
    waitAndServe
    return true

theorem turn_eq : turn (T := T) = consoleAsksEnd >>= heeds := rfl

-- What may be left of a run: all of it, or what follows a test of the flag, a look at the console, the
-- wait, one of the entries that are ready, or the loop.
inductive Rest : Run T (Relay T) Unit → Prop where
  | whole : Rest run
  | turns (fuel : Nat) : Rest (ensuring (turns fuel) close)
  | looked (asked : Bool) (fuel : Nat) :
    Rest (ensuring (do if ← heeds asked then turns fuel else return ()) close)
  | waits (fuel : Nat) : Rest (ensuring (do waitAndServe; turns fuel) close)
  | serves (entries : List (Int × Entry)) (fuel : Nat) :
    Rest (ensuring (do dispatch entries; turns fuel) close)
  | closes : Rest close

section Twins
variable {c : Control} {console : Option Control}

theorem heeds_twins (asked : Bool) :
    Twins (Abreast (Unheard (T := T) console)) (heeds asked) (heeds asked) := by
  have unaware := unheard_unaware (T := T) console
  cases asked with
  | true => exact .bind (unaware.log _ _) fun _ => .bind (unaware.raise .service) fun _ => .pure _
  | false =>
    refine .bind unaware.maybeResume fun _ => .bind ?_ fun _ => .pure _
    exact unaware.waitAndServe (Abreast.asks _)

theorem consoleAsksEnd_closed {m : Machine T (Relay T)} (held : m.prog.control = some c)
    (closed : c.closed = true) : consoleAsksEnd m = .ok false m := by
  have unchanged : ({ m.prog with control := some c } : Relay T) = m.prog := by rw [← held]
  simp only [consoleAsksEnd, Bind.bind, EStateM.bind, Run.gets, held, poll_closed closed, Run.sets,
    unchanged]
  rfl

theorem consoleAsksEnd_none {m : Machine T (Relay T)} (held : m.prog.control = none) :
    consoleAsksEnd m = .ok false m := by
  simp only [consoleAsksEnd, Bind.bind, EStateM.bind, Run.gets, held]
  rfl

variable (closed : c.closed = true)
include closed

theorem consoleAsksEnd_twins :
    Twins (Abreast (Unheard (T := T) (some c))) consoleAsksEnd consoleAsksEnd := by
  intro m u unheard
  have bare : u.prog.control = none := by rw [unheard.2.rest]
  unfold Paired Ends
  rw [consoleAsksEnd_closed unheard.2.console closed, consoleAsksEnd_none bare]
  exact ⟨u, rfl, unheard⟩

theorem turns_twins (fuel : Nat) :
    Twins (Abreast (Unheard (T := T) (some c))) (turns fuel) (turns fuel) := by
  induction fuel with
  | zero => exact .pure _
  | succ fuel ih =>
    refine .bind (Abreast.asks _) fun told => ?_
    split
    · exact .pure _
    · refine .bind (.bind (consoleAsksEnd_twins closed) heeds_twins) fun goesOn => ?_
      split
      · exact ih
      · exact .pure _

theorem Rest.twins {left : Run T (Relay T) Unit} (rest : Rest left) :
    Twins (Abreast (Unheard (some c))) left left := by
  have unaware := unheard_unaware (T := T) (some c)
  cases rest with
  | whole =>
    refine .bind unaware.announce fun _ => .ensuring (.bind (Abreast.asks _) fun work => ?_) unaware.close
    exact turns_twins closed _
  | turns fuel => exact .ensuring (turns_twins closed fuel) unaware.close
  | looked asked fuel =>
    refine .ensuring (.bind (heeds_twins asked) fun goesOn => ?_) unaware.close
    split
    · exact turns_twins closed fuel
    · exact .pure _
  | waits fuel =>
    refine .ensuring (.bind (unaware.waitAndServe (Abreast.asks _)) fun _ => ?_) unaware.close
    exact turns_twins closed fuel
  | serves entries fuel =>
    refine .ensuring (.bind (unaware.dispatch (Abreast.asks _) entries) fun _ => ?_) unaware.close
    exact turns_twins closed fuel
  | closes => exact unaware.close

end Twins

-- One look at the console: what was seen, whether it asks for the end, and the console after it. A relay
-- without one has nothing to look at.
inductive Glances (m : Machine T (Relay T)) : List Polling → Bool → Option Control → Prop where
  | nowhere (held : m.prog.control = none) : Glances m [] false none
  | passed (held : m.prog.control = some c) (closed : c.closed = true) :
    Glances m [⟨none, false⟩] false (some c)
  | looked (held : m.prog.control = some c) (closed : c.closed = false)
    (saw : c.look Clock.zero m = .ok arrival m') :
    Glances m [⟨some arrival, (c.observe arrival).requested⟩] (c.observe arrival).requested
      (some (c.observe arrival).control)

-- The loop with all that its looks have heard. Where it fails, the last look may have heard something
-- that nobody heeds any more.
inductive Listens : Machine T (Relay T) → List Polling → Exit → Machine T (Relay T) → Prop where
  | told (told : m.host.serviceStop = true) : Listens m [] .told m
  | asked (going : m.host.serviceStop = false) (glances : Glances m polls true console)
    (ran : turn m = .ok false m') : Listens m polls .asked m'
  | failed (going : m.host.serviceStop = false) (ran : turn m = .error f m') :
    Listens m [] (.failed f) m'
  | spent (never : ¬m.host.StopsService) : Listens m [] .spent m
  | next (going : m.host.serviceStop = false) (glances : Glances m polls false m'.prog.control)
    (ran : turn m = .ok true m') (later : Listens m' past exit last) :
    Listens m (polls ++ past) exit last

section Heard
variable {m m' : Machine T (Relay T)}

theorem glances_of_asks {asked : Bool} {looked : Machine T (Relay T)}
    (ran : consoleAsksEnd m = .ok asked looked) : ∃ polls, Glances m polls asked looked.prog.control := by
  cases held : m.prog.control with
  | none =>
    cases (consoleAsksEnd_none held).symm.trans ran
    rw [held]
    exact ⟨[], .nowhere held⟩
  | some c =>
    cases closed : c.closed with
    | true =>
      cases (consoleAsksEnd_closed held closed).symm.trans ran
      rw [held]
      exact ⟨_, .passed held closed⟩
    | false =>
      cases saw : c.look Clock.zero m with
      | error f m' =>
        simp [consoleAsksEnd, Bind.bind, EStateM.bind, Run.gets, held, Control.poll, closed, saw] at ran
      | ok arrival m' =>
        obtain ⟨m'', polled, -⟩ := poll_open closed saw
        simp only [consoleAsksEnd, Bind.bind, EStateM.bind, Run.gets, held, polled, Run.sets] at ran
        cases ran
        exact ⟨_, .looked held closed saw⟩

theorem heeds_ends (asked : Bool) : Ends (heeds asked) m
    (fun goesOn m' => goesOn = !asked ∧ m'.prog.control = m.prog.control) fun _ _ => True := by
  have unheard : Abreast (Unheard m.prog.control) m ⟨m.host, { m.prog with control := none }⟩ :=
    ⟨rfl, rfl, rfl⟩
  have kept : Ends (heeds asked) m (fun _ m' => m'.prog.control = m.prog.control) fun _ _ => True := by
    apply (heeds_twins asked _ _ unheard).well
    intro _ m' ⟨u', _, _, near⟩
    exact near.console
  have answer : Ends (heeds asked) m (fun goesOn _ => goesOn = !asked) fun _ _ => True := by
    cases asked with
    | true => exact rfl
    | false =>
      simp only [heeds, Bool.false_eq_true, if_false, ends_bind, ends_pure]
      exact ends_any.well fun _ _ _ => ends_any.well fun _ _ _ => rfl
  exact (answer.and kept).well fun _ _ both => both

theorem turn_glances {goesOn : Bool} (ran : turn m = .ok goesOn m') :
    ∃ polls, Glances m polls (!goesOn) m'.prog.control := by
  have ends : Ends turn m (fun goesOn m' => ∃ polls, Glances m polls (!goesOn) m'.prog.control)
      fun _ _ => True := by
    rw [turn_eq, ends_bind]
    apply Ends.ran.well
    intro asked looked ran
    obtain ⟨polls, glances⟩ := glances_of_asks ran
    apply (heeds_ends asked).well
    intro goesOn m' ⟨answer, kept⟩
    rw [answer, kept, Bool.not_not]
    exact ⟨polls, glances⟩
  exact ends.of_ok ran

theorem Loops.listens {exit : Exit} {last : Machine T (Relay T)} (loops : Loops m exit last) :
    ∃ past, Listens m past exit last := by
  induction loops with
  | told told => exact ⟨[], .told told⟩
  | asked going _ ran =>
    obtain ⟨polls, glances⟩ := turn_glances ran
    exact ⟨polls, .asked going glances ran⟩
  | failed going ran => exact ⟨[], .failed going ran⟩
  | spent never => exact ⟨[], .spent never⟩
  | next going ran _ ih =>
    obtain ⟨polls, glances⟩ := turn_glances ran
    obtain ⟨past, later⟩ := ih
    exact ⟨polls ++ past, .next going glances ran later⟩

theorem Glances.polls {polls : List Polling} {asked : Bool} {console : Option Control} {c : Control}
    (glances : Glances m polls asked console) (held : m.prog.control = some c) :
    ∃ poll c', polls = [poll] ∧ console = some c' ∧ Polls T (Relay T) c poll c' ∧
      poll.answer = asked := by
  cases glances with
  | nowhere held' => cases held.symm.trans held'
  | passed held' closed =>
    cases held.symm.trans held'
    have passed : c.poll Clock.zero m = .ok (c, false) m := poll_closed closed
    exact ⟨_, c, rfl, rfl, .passed closed passed, rfl⟩
  | looked held' closed saw =>
    cases held.symm.trans held'
    obtain ⟨m'', ran, -⟩ := poll_open closed saw
    exact ⟨_, _, rfl, rfl, .looked closed saw ran, rfl⟩

theorem Listens.polled {past earlier : List Polling} {exit : Exit} {last : Machine T (Relay T)}
    {first c : Control} (listens : Listens m past exit last) (held : m.prog.control = some c)
    (polled : Polled T (Relay T) first earlier c) :
    ∃ c', Polled T (Relay T) first (earlier ++ past) c' ∧
      (exit = .asked → ∃ poll ∈ past, poll.answer = true) := by
  induction listens generalizing earlier c with
  | told | failed | spent => exact ⟨c, by simpa using polled, nofun⟩
  | asked going glances ran =>
    obtain ⟨poll, c', rfl, -, polls, answer⟩ := glances.polls held
    exact ⟨c', .next polled polls, fun _ => ⟨poll, List.mem_singleton_self _, answer⟩⟩
  | next going glances ran later ih =>
    obtain ⟨poll, c', rfl, held', polls, -⟩ := glances.polls held
    obtain ⟨c'', all, asked⟩ := ih held' (.next polled polls)
    refine ⟨c'', by simpa using all, fun exit => ?_⟩
    obtain ⟨one, there, answer⟩ := asked exit
    exact ⟨one, List.mem_append_right _ there, answer⟩

theorem Glances.without {polls : List Polling} {asked : Bool} {console : Option Control}
    (glances : Glances m polls asked console) (bare : m.prog.control = none) :
    asked = false ∧ console = none := by
  cases glances with
  | nowhere => exact ⟨rfl, rfl⟩
  | passed held | looked held => cases bare.symm.trans held

theorem Listens.without {past : List Polling} {exit : Exit} {last : Machine T (Relay T)}
    (listens : Listens m past exit last) (bare : m.prog.control = none) : exit ≠ .asked := by
  induction listens with
  | told | failed | spent => exact nofun
  | asked going glances ran => exact absurd (glances.without bare).1 nofun
  | next going glances ran later ih => exact ih (glances.without bare).2

-- A whole run: what its looks have heard, why its loop was left, and that it then closed everything.
structure Ran (m : Machine T (Relay T)) (past : List Polling) (exit : Exit) : Prop where
  loop : ∃ first left, announce m = .ok () first ∧ first.prog = m.prog ∧ Listens first past exit left ∧
    (∀ last, close left = .ok () last → run m = exit.leads last) ∧
    ∀ f last, close left = .error f last → run m = .error f last
  reason : m.host.Heard → exit ≠ .spent

theorem run_ran (m : Machine T (Relay T)) : ∃ past exit, Ran m past exit := by
  obtain ⟨first, exit, left, runs⟩ := run_runs m
  obtain ⟨past, listens⟩ := runs.loops.listens
  exact ⟨past, exit, ⟨first, left, runs.announced, runs.prog, listens, runs.ended, runs.failed⟩, runs.reason⟩

end Heard
end StreamRelay.Relay
