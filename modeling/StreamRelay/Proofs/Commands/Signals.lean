import StreamRelay.Commands
import StreamRelay.Proofs.Host.Fittings
import StreamRelay.Proofs.Host.Waiting

namespace StreamRelay.Commands
variable {T P α : Type} [Clock T] [Resumable T P]
open Run Host

omit [Clock T] in
theorem handler_setHandler (h : Host T) (s other : Signal) (flag : Option Flag) :
    (h.setHandler s flag).handler other = if other = s then flag else h.handler other := by
  cases s <;> cases other <;> rfl

def SameHandlers (m m' : Machine T P) : Prop := ∀ s, m'.host.handler s = m.host.handler s

-- What may become of a machine while signals are made to raise flags, or do again what they did.
structure Handling (flags : Option Flag → Prop) (rel : Machine T P → Machine T P → Prop) : Prop
    extends Shared rel where
  handles : ∀ h p s {flag}, flags flag → rel ⟨h, p⟩ ⟨h.setHandler s flag, p⟩
  tells : ∀ h p s handled, rel ⟨h, p⟩ ⟨h.emit (.signal s handled), p⟩

namespace Handling
variable {flags : Option Flag → Prop} {rel : Machine T P → Machine T P → Prop}

theorem setHandler (handling : Handling flags rel) (s : Signal) {flag : Option Flag}
    (allowed : flags flag) : Within rel rel (Os.setHandler s flag) := by
  have course := handling.course
  refine .bind course (handling.incident .signal) fun _ => .bind course (.asks course) fun _ => ?_
  refine .bind course (fun m => handling.handles m.host m.prog s allowed) fun _ => ?_
  exact .bind course (fun m => handling.tells m.host m.prog s _) fun _ => .pure course

theorem install (handling : Handling flags rel) {flag : Flag} (allowed : flags (some flag))
    (s : Signal) : Within rel rel (install flag s) := by
  have course := handling.course
  refine .bind course (.outcome (handling.setHandler s allowed)) fun result => ?_
  split
  · exact .pure course
  · split
    · exact .pure course
    · exact .fails course

theorem of_mild [Idle T P] {rel : Host T → Host T → Prop} (mild : Mild rel)
    (handles : ∀ h s {flag}, flags flag → rel h (h.setHandler s flag))
    (tells : ∀ h s handled, rel h (h.emit (.signal s handled))) :
    Handling flags (Hosted (P := P) rel) where
  toShared := mild.shared
  handles h _ s _ allowed := ⟨handles h s allowed, rfl⟩
  tells h _ s handled := ⟨tells h s handled, rfl⟩

end Handling

theorem sameHandlers_waiting
    (resume : ∀ (h : Host T) (p : P) s, (Resumable.resume h p).1.handler s = h.handler s) :
    Waiting (SameHandlers (T := T) (P := P)) where
  refl _ _ := rfl
  trans one two s := (two s).trans (one s)
  faults _ _ _ s := by cases s <;> rfl
  batches _ _ _ s := by cases s <;> rfl
  apply h _ action s := (fitted_apply h action).bears.handler s
  resume := resume
  stirs _ stirs s := by cases stirs <;> cases s <;> rfl

section Restoring
variable {m : Machine T P} {before later : Machine T P → Machine T P → Prop}

def installs (flag : Flag) : Run T P (List (Signal × Option Flag)) := do
  let first ← install flag .interrupt
  let second ← install flag .terminate
  return [first, second].filterMap id

def restores (handlers : List (Signal × Option Flag)) : Run T P Unit :=
  handlers.forM fun (s, previous) => do let _ ← Os.setHandler s previous

theorem withSignals_eq (flag : Flag) (body : Run T P α) :
    withSignals flag body = installs flag >>= fun handlers => ensuring body (restores handlers) := by
  simp only [withSignals, installs, restores, bind_assoc, pure_bind]

-- The work starts where the signals were installed, and whatever follows only restores them.
theorem withSignals_ends {flag : Flag} (first : Handling (· = some flag) before)
    (last : Handling (fun _ => True) later) {body : Run T P α} (done : α → Machine T P → Prop)
    (works : ∀ handlers m', installs flag m = .ok handlers m' → before m m' →
      Ends body m' done fun _ _ => True) :
    Ends (withSignals flag body) m (fun a m' => ∃ middle, done a middle ∧ later middle m')
      fun _ _ => True := by
  have installing : Within before before (installs flag) :=
    .bind first.course (first.install rfl .interrupt) fun _ =>
      .bind first.course (first.install rfl .terminate) fun _ => .pure first.course
  have restoring (handlers : List (Signal × Option Flag)) :
      Within later later (restores handlers) := by
    apply Within.forM last.course
    intro handler _
    exact .bind last.course (last.setHandler handler.1 trivial) fun _ => .pure last.course
  rw [withSignals_eq, ends_bind]
  apply ((installing m).and Ends.ran).well
  intro handlers ready ended
  rw [ends_ensuring]
  apply (works handlers ready ended.2 ended.1).imp
  · intro a middle worked
    exact (restoring handlers middle).well fun _ m' restored => ⟨middle, worked, restored⟩
  · exact fun _ middle _ => ends_any

variable (waiting : Waiting (SameHandlers (T := T) (P := P)))
include waiting

theorem setHandler_sets (s : Signal) (flag : Option Flag) :
    Ends (Os.setHandler s flag) m
      (fun previous m' => previous = m.host.handler s ∧
        ∀ other, m'.host.handler other = if other = s then flag else m.host.handler other)
      fun _ m' => SameHandlers m m' := by
  simp only [Os.setHandler, ends_bind, ends_asks, ends_changes, ends_emits, ends_pure]
  apply (waiting.incident .signal m).normally
  intro _ m' same
  refine ⟨same s, fun other => ?_⟩
  have set := handler_setHandler m'.host s other flag
  rw [same other] at set
  exact set

structure Installed (flag : Flag) (s : Signal) (m : Machine T P)
    (entry : Option (Signal × Option Flag)) (m' : Machine T P) : Prop where
  previous : ∀ e ∈ entry, e = (s, m.host.handler s)
  skipped : entry = none → m'.host.handler s = m.host.handler s
  others : ∀ other, other ≠ s → m'.host.handler other = m.host.handler other

theorem install_ends (flag : Flag) (s : Signal) :
    Ends (install flag s) m (Installed flag s m) fun _ _ => True := by
  simp only [install, ends_bind, ends_outcome]
  apply (setHandler_sets waiting s (some flag)).imp
  · intro previous m' set
    obtain ⟨rfl, handlers⟩ := set
    refine ⟨fun e there => (Option.some.inj there).symm, by simp, fun other differs => ?_⟩
    exact (handlers other).trans (if_neg differs)
  · intro f m' same
    split
    · exact ⟨by simp, fun _ => same s, fun other _ => same other⟩
    · trivial

-- What each listed signal did before is what is wanted of it, and every other does that already.
theorem restore_ends (wanted : Signal → Option Flag) (entries : List (Signal × Option Flag))
    (kept : ∀ e ∈ entries, e.2 = wanted e.1)
    (listed : ∀ s, s ∈ entries.map Prod.fst ∨ m.host.handler s = wanted s) :
    Ends (entries.forM fun (s, previous) => do let _ ← Os.setHandler s previous : Run T P PUnit) m
      (fun _ m' => ∀ s, m'.host.handler s = wanted s) fun _ _ => True := by
  induction entries generalizing m with
  | nil => exact fun s => (listed s).resolve_left nofun
  | cons e rest ih =>
    simp only [List.forM_eq_forM, List.forM_cons, ends_bind, ends_pure]
    apply (setHandler_sets waiting e.1 e.2).well
    intro _ m' set
    apply ih (fun other there => kept other (List.mem_cons_of_mem _ there))
    intro s
    by_cases here : s = e.1
    · right
      rw [set.2 s, if_pos here, kept e List.mem_cons_self, here]
    · rw [set.2 s, if_neg here]
      apply (listed s).imp_left
      intro there
      exact (List.mem_cons.mp there).resolve_left here

theorem withSignals_restores {flag : Flag} {body : Run T P α}
    (works : ∀ m, Ends body m (fun _ => SameHandlers m) fun _ _ => True) :
    Ends (withSignals flag body) m (fun _ => SameHandlers m) fun _ _ => True := by
  simp only [withSignals, ends_bind, ends_ensuring]
  apply (install_ends waiting flag .interrupt).well
  intro interrupt one first
  apply (install_ends waiting flag .terminate).well
  intro terminate two second
  apply (works two).imp
  · intro a middle same
    have terminated : one.host.handler .terminate = m.host.handler .terminate :=
      first.others _ (by decide)
    have interrupted : two.host.handler .interrupt = one.host.handler .interrupt :=
      second.others _ (by decide)
    apply (restore_ends waiting m.host.handler _ ?_ ?_).imp
    · exact fun _ m' restored s => restored s
    · exact fun _ _ _ => trivial
    · intro e there
      simp only [List.mem_filterMap, List.mem_cons, List.not_mem_nil, or_false, id] at there
      obtain ⟨_, rfl | rfl, here⟩ := there
      · rw [first.previous e here]
      · rw [second.previous e here, terminated]
    · intro s
      cases s with
      | interrupt =>
        cases interrupt with
        | some e => simp [first.previous e rfl]
        | none => exact .inr ((same _).trans (interrupted.trans (first.skipped rfl)))
      | terminate =>
        cases terminate with
        | some e => cases interrupt <;> simp [second.previous e rfl]
        | none => exact .inr ((same _).trans ((second.skipped rfl).trans terminated))
  · exact fun f middle _ => ends_any

end Restoring

end StreamRelay.Commands
