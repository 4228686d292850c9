import StreamRelay.Proofs.Relay.Upkeep

namespace StreamRelay.Relay
variable {T : Type} [Clock T]
open Run Host

def SameWatch (h h' : Host T) : Prop := h'.entries = h.entries

theorem calm_sameWatch : Calm (T := T) SameWatch where
  refl _ := rfl
  trans one two := two.trans one
  emit _ _ _ := rfl
  note _ _ _ _ := rfl
  clock _ _ := rfl
  stderr _ _ := rfl
  console _ _ := rfl
  faults _ _ := rfl
  batches _ _ := rfl
  apply := apply_of (fun _ => rfl) (fun one two => two.trans one)
    (fun ⟨_, _, _, _, _, _, _, _⟩ => rfl) fun _ flag => by cases flag <;> rfl

def Unlists (l : SocketId) (m m' : Machine T (Relay T)) : Prop := ∃ keep,
  m'.host.entries = m.host.entries.filter keep ∧
    ∀ e : Int × Entry, e.2.sock ≠ l → e.1 ≠ m'.host.number l → keep e = true

-- What becomes of the watch on a listener when its rest is looked at: it is as it was, if it does not
-- rest or is to rest on; it is watched again; or that fails, and it rests anew.
inductive Rearmed (m m' : Machine T (Relay T)) : Prop where
  | kept : m' = m → (∀ time, m.prog.listener.resumeAt = some time →
      m.prog.listener.closed = true ∨ Clock.before m.host.clock time = true) → Rearmed m m'
  | watched : m.prog.listener.resumeAt = some time → Clock.before m.host.clock time = false →
      m'.prog = setListener (fun l => { l with resumeAt := none }) m.prog →
      m'.host.entries = m.host.entries ++ [ownEntry m'] → Rearmed m m'
  | refused : m.prog.listener.resumeAt = some time → Clock.before m.host.clock time = false →
      m'.prog = setListener (fun l => { l with resumeAt := some later }) m.prog →
      Unlists m.prog.listener.sock m m' → Rearmed m m'

section Rearmed
variable {m : Machine T (Relay T)}

omit [Clock T] in
theorem sameWatch_logged (h : Host T) (level : Level) (text : String) :
    (h.logged level text).entries = h.entries ∧ ∀ id, (h.logged level text).number id = h.number id := by
  obtain ⟨trace, stderr, same⟩ := logged_same h level text
  rw [same]
  exact ⟨rfl, fun _ => rfl⟩

theorem unwatchListener_unlists : Ends unwatchListener m
    (fun _ m' => m'.prog = m.prog ∧ Unlists m.prog.listener.sock m m')
    fun _ m' => ¬Documented m'.host := by
  apply ends_unwatchListener
  apply (unregister_runs calm_sameWatch.steady.lively rfl).imp
  · intro _ m' reached
    obtain ⟨h, same, ⟨-, rfl⟩ | ⟨-, rfl⟩⟩ := reached
    · refine ⟨rfl, fun e => decide (e.1 ≠ h.number m.prog.listener.sock), ?_, fun e _ other => ?_⟩
      · exact congrArg _ same
      · exact decide_eq_true other
    · refine ⟨rfl, fun e => decide (e.2.sock ≠ m.prog.listener.sock), ?_, fun e other _ => ?_⟩
      · exact congrArg _ same
      · exact decide_eq_true other
  · intro f m' reached
    obtain ⟨h, same, rfl⟩ := reached
    refine ⟨fun _ => ⟨rfl, fun _ => true, ?_, fun _ _ _ => rfl⟩, fun bad => undocumented bad⟩
    exact same.trans (List.filter_eq_self.mpr fun _ _ => rfl).symm

theorem pause_unlists (awake : attentive m.prog = true) (delay : T) : Ends (pause delay) m
    (fun _ m' => (∃ later, m'.prog = setListener (fun l => { l with resumeAt := some later }) m.prog) ∧
      Unlists m.prog.listener.sock m m') fun _ m' => ¬Documented m'.host := by
  apply ends_pause_attentive awake
  apply unwatchListener_unlists.normally
  intro _ m' reached
  obtain ⟨same, keep, entries, spares⟩ := reached
  refine ⟨⟨_, by rw [atRest, same]⟩, keep, ?_, fun e other number => spares e other ?_⟩
  · exact (sameWatch_logged _ _ _).1.trans entries
  · have kept := (sameWatch_logged (m'.host.emit (.rests (Clock.add m'.host.clock delay))) .warning
      ("listener paused for " ++ Clock.fixed 2 delay ++ "s")).2 m.prog.listener.sock
    exact fun named => number (named.trans kept.symm)

theorem maybeResume_rearms : Ends maybeResume m (fun _ m' => Rearmed m m') fun _ _ => True := by
  apply ends_maybeResume
  case rests =>
    exact fun rests => .kept rfl fun time found => by simpa using rests time found
  case due =>
    intro time resting listening due
    apply (register_runs calm_sameWatch.steady.lively none).imp
    · intro _ m' reached
      obtain ⟨h, same, -, -, rfl⟩ := reached
      refine .watched resting due rfl ?_
      exact congrArg (· ++ [_]) same
    · intro f m' reached
      obtain ⟨h, same, rfl⟩ := reached
      refine ⟨fun _ => ?_, fun _ => trivial⟩
      apply (pause_unlists _ retryDelay).well
      · intro _ m' reached
        obtain ⟨⟨later, rests⟩, keep, entries, spares⟩ := reached
        have rests : m'.prog = setListener (fun l => { l with resumeAt := some later }) m.prog := rests
        refine .refused resting due rests ⟨keep, ?_, spares⟩
        exact entries.trans (congrArg _ ((sameWatch_logged _ _ _).1.trans same))
      · simp [attentive, setListener, Listener.paused, listening]

end Rearmed

end StreamRelay.Relay
