import StreamRelay.Proofs.Relay.Arrivals
import StreamRelay.Proofs.Relay.Resuming
import StreamRelay.Proofs.Relay.Shutdown

namespace StreamRelay.Relay
variable {T : Type} [Clock T] {start m b : Machine T (Relay T)}
open Run Host

-- The number of the listener's socket.
def listenerNumber (m : Machine T (Relay T)) : Int := m.host.number m.prog.listener.sock

theorem Begun.steered (begun : Begun m) :
    Steered m.prog.listener.sock (listenerNumber m) m.host.trace .heard m := by
  have coherent := begun.coherent
  have nobody : socks m.prog = [] := by rw [socks, begun.table]; rfl
  have awake := begun.awake
  simp only [attentive, Listener.paused, Bool.and_eq_true, Bool.not_eq_true',
    Option.isSome_eq_false_iff, Option.isNone_iff_eq_none] at awake
  refine ⟨⟨rfl, ⟨coherent.based.orderly, coherent.based.listener, coherent.roster.idle, rfl⟩, ?_, ?_,
    fun e there _ => ?_⟩, awake.1, [], rfl, .start⟩
  · rw [nobody]
    exact List.not_mem_nil
  · intro listening
    rw [coherent.listening, listening]
    rfl
  · rw [begun.entries, List.mem_singleton] at there
    rw [there]
    exact ⟨rfl, rfl⟩

-- A run of the loop leads it to some stage, and the end brings neither an accept nor a rest.
theorem run_paced {l : SocketId} {fd : Int} {base : List (Stamped T)} (going : Going l fd base m)
    (proper : Proper l fd (after run m).host) :
    ∃ stage seen, (after run m).host.trace = seen ++ base ∧ Paced fd stage seen := by
  obtain ⟨first, exit, left, runs⟩ := run_runs m
  rw [runs.last] at proper ⊢
  have begins : Paces l fd base m first := (paces_cycle.announce m).of_ok runs.announced
  obtain ⟨fuel, turned⟩ := runs.turned
  have turning : Paces l fd base first (after (turns fuel) first) :=
    (paces_cycle.turns fuel).after paces_course first
  rw [Exit.after_leads turned] at turning
  have telling := (telling_parts.finish fun h r =>
    ⟨tells_same rfl rfl, ⟨rfl, rfl, rfl, List.prefix_rfl⟩⟩).after telling_parts.toCourse left
  have before := proper.before telling.1
  obtain ⟨stage, steered⟩ := turning.2 before (begins.2 (before.before turning.1.1) going)
  obtain ⟨seen, trace, paced⟩ := steered.paced
  have closing := ((modest_adds.closing soft_sock).finish fun h r => ⟨adds_same rfl, rfl⟩).after
    (modest_adds.course soft_sock) left
  obtain ⟨new, grown, calm⟩ := closing.1
  exact ⟨stage, new ++ seen, by rw [grown, trace, List.append_assoc], paced.calms calm⟩

-- An open listener is watched, or it is known when it is to be watched again.
def Attended (m : Machine T (Relay T)) : Prop := m.prog.listener.closed = false →
  m.prog.listener.resumeAt.isSome = true ∨ ownEntry m ∈ m.host.entries

omit [Clock T] in
theorem Coherent.attended (coherent : Coherent m) : Attended m := by
  intro listening
  cases resting : m.prog.listener.resumeAt with
  | some time => exact .inl rfl
  | none => exact .inr (coherent.watch.listed (by simp [attentive, Listener.paused, resting, listening]))

def Unwatched (m : Machine T (Relay T)) : Prop :=
  ∀ e ∈ m.host.entries, e.2.sock ≠ m.prog.listener.sock

instance (m : Machine T (Relay T)) : Decidable (Unwatched m) :=
  inferInstanceAs (Decidable (∀ e ∈ m.host.entries, e.2.sock ≠ m.prog.listener.sock))

omit [Clock T] in
theorem Coherent.hung (coherent : Coherent m) (closed : m.prog.listener.closed = true)
    (unwatched : Unwatched m) : Hung m.prog.listener.sock (listenerNumber m) m := by
  refine ⟨⟨rfl, ⟨coherent.based.orderly, coherent.based.listener, coherent.roster.idle, rfl⟩, ?_, ?_,
    fun e there own => absurd own (unwatched e there)⟩, closed⟩
  · intro there
    exact (coherent.roster.taken _ (List.mem_append_left _ there)).other rfl
  · exact fun listening => absurd (closed.symm.trans listening) Bool.noConfusion

theorem turns_unwatched (coherent : Coherent m) (closed : m.prog.listener.closed = true)
    (unwatched : Unwatched m) (fuel : Nat) : Unwatched (after (turns fuel) m) := by
  have hung := (hushes_cycle.turns fuel).after hushes_cycle.toCourse m
    (coherent.hung closed unwatched)
  intro e there own
  exact (hung.watched e there (own.trans hung.sock)).2

def Rests (delay : T) (m m' : Machine T (Relay T)) : Prop :=
  ∃ t new, m'.host.trace = new ++ m.host.trace ∧ ⟨t, .rests (Clock.add t delay)⟩ ∈ new ∧
    m'.prog.listener.resumeAt = some (Clock.add t delay)

theorem unwatchListener_tells :
    Ends unwatchListener m (fun _ m' => Hosted Tells m m') fun _ m' => ¬Documented m'.host := by
  have steady := calm_tells (T := T).steady
  apply ends_unwatchListener
  refine (unregister_ends steady).imp ?_ ?_
  · intro _ m' reached
    obtain ⟨h, path, ⟨-, rfl⟩ | ⟨-, rfl⟩⟩ := reached
    · exact ⟨path.trans (tells_same rfl rfl), rfl⟩
    · exact ⟨path.trans (tells_same rfl rfl), rfl⟩
  · intro f m' reached
    obtain ⟨h, path, rfl⟩ := reached
    exact ⟨fun _ => ⟨path.trans (calm_tells.note h _ _ _), rfl⟩, fun bad => undocumented bad⟩

theorem pause_rests (awake : attentive m.prog = true) (delay : T) :
    Ends (pause delay) m (fun _ m' => Rests delay m m') fun _ m' => ¬Documented m'.host := by
  apply ends_pause_attentive awake
  apply unwatchListener_tells.normally
  intro _ m' path
  obtain ⟨earlier, before⟩ := path.1.trace
  obtain ⟨later, after⟩ := (calm_tells.steady.logged
    (m'.host.emit (.rests (Clock.add m'.host.clock delay))) .warning
    ("listener paused for " ++ Clock.fixed 2 delay ++ "s")).trace
  refine ⟨m'.host.clock, later ++ ⟨m'.host.clock, .rests (Clock.add m'.host.clock delay)⟩ :: earlier,
    ?_, by simp, rfl⟩
  rw [atRest, ← after, emit, ← before]
  simp

-- What becomes of a listener whose rest is over.
def Resumed (m m' : Machine T (Relay T)) : Prop :=
  m'.prog.listener.resumeAt = none ∧ ownEntry m' ∈ m'.host.entries ∨ Rests retryDelay m m'

theorem maybeResume_resumes {time : T} (listening : m.prog.listener.closed = false)
    (resting : m.prog.listener.resumeAt = some time) (due : Clock.before m.host.clock time = false) :
    Ends maybeResume m (fun _ m' => Resumed m m') fun _ m' => ¬Documented m'.host := by
  have steady := calm_tells (T := T).steady
  apply ends_maybeResume
  case rests =>
    intro rests
    have still := rests time resting
    simp [listening, due] at still
  case due =>
    intro _ _ _ _
    refine (register_ends steady none).imp ?_ ?_
    · intro _ m' reached
      obtain ⟨h, -, -, -, rfl⟩ := reached
      exact .inl ⟨rfl, List.mem_append_right _ (List.mem_singleton_self _)⟩
    · intro f m' reached
      obtain ⟨h, path, rfl⟩ := reached
      refine ⟨fun _ => ?_, fun bad => undocumented bad⟩
      have told := (path.trans (calm_tells.note h .register m.prog.listener.sock f)).trans
        (steady.logged _ .error ("cannot re-register listener: " ++ f.message))
      have awake : attentive (setListener (fun l => { l with resumeAt := none }) m.prog) = true := by
        simp [attentive, setListener, Listener.paused, listening]
      apply (pause_rests awake retryDelay).normally
      intro _ last rests
      obtain ⟨t, new, trace, there, same⟩ := rests
      obtain ⟨earlier, before⟩ := told.trace
      refine .inr ⟨t, new ++ earlier, ?_, List.mem_append_left _ there, same⟩
      rw [trace, ← before, List.append_assoc]

-- Who was accepted is the beginning of those who have waited and come, in that order.
def InTurn (m m' : Machine T (Relay T)) : Prop :=
  ∃ taken, m'.host.accepted = taken.reverse ++ m.host.accepted ∧
    taken ++ m'.host.backlog m.prog.listener.sock = m.host.backlog m.prog.listener.sock ++
      List.range' m.host.sockets.length (m'.host.sockets.length - m.host.sockets.length)

theorem Begun.inTurn (begun : Begun m) (path : Lined m.prog.listener.sock m b) : InTurn m b :=
  ((path rfl).2 begun.heeded begun.coherent.based.listener).order

-- Of any run of a relay: its pace as far as the clock does not go back and the system is proper, and
-- whoever looks after the listener wherever the relay may come to.
theorem run_keeps_pace [Clock.Ordered T] (created : Created start) :
    (Onward (after run start).host.trace →
      Proper start.prog.listener.sock (listenerNumber start) (after run start).host →
        ∃ seen, (after run start).host.trace = seen ++ start.host.trace ∧
          Limited (listenerNumber start) seen) ∧
    (∀ b, Reached (fun _ => True) start b ∨ Boundary start b → Distinct b → Attended b ∧
      (b.prog.listener.closed = true → Unwatched b → ∀ fuel, Unwatched (after (turns fuel) b))) ∧
    (∀ (b : Machine T (Relay T)) time, b.prog.listener.closed = false →
      b.prog.listener.resumeAt = some time → Clock.before b.host.clock time = false →
        Ends maybeResume b (fun _ b' => Resumed b b') fun _ b' => ¬Documented b'.host) ∧
    (∀ b, Boundary start b ∨ b = after run start → InTurn start b) := by
  have begun := created.begun
  refine ⟨fun onward proper => ?_, fun b comes distinct => ?_, fun b time listening resting due => ?_,
    fun b comes => ?_⟩
  · obtain ⟨stage, seen, trace, paced⟩ := run_paced ⟨_, begun.steered⟩ proper
    rw [trace] at onward
    exact ⟨seen, trace, paced.limited (List.pairwise_append.mp onward).1⟩
  · have whole : Whole b := by
      cases comes with
      | inl reached => exact reached.whole begun.whole
      | inr boundary => exact ((even_rounds.cycle.boundary boundary).2 begun.whole).1
    have coherent := whole.2 distinct
    exact ⟨coherent.attended, turns_unwatched coherent⟩
  · exact maybeResume_resumes listening resting due
  · refine begun.inTurn ?_
    cases comes with
    | inl boundary => exact lined_rounds.cycle.boundary boundary
    | inr last => exact last ▸ (lined_rounds.run lined_close).after lined_course start

-- A host that has no descriptor left for a client, twice, and to which another one comes meanwhile;
-- once it cannot watch the listener again either.
def crowdedHost : Host Int where
  clock := 0
  batches := [
    ⟨[.connect { data := [104], ended := true },
      .fault .accept [.incident [] (some exhausted), .incident [] (some exhausted)],
      .fault .register [.incident [] (some (.value "busy"))]], some [4]⟩,
    ⟨[.connect { ended := true }, .advance 100], none⟩,
    ⟨[], none⟩,
    ⟨[], some [4]⟩,
    ⟨[.advance 100], none⟩,
    ⟨[], some [4]⟩,
    ⟨[.stop], some [5, 6]⟩]
where
  exhausted : Failure := .os (.ofNumber 24 "Too many open files")

@[irreducible] def crowdedRelay : Machine Int (Relay Int) :=
  match create plainConfig none none (⟨crowdedHost, ()⟩ : Machine Int Unit) with
  | .ok relay m => ⟨m.host, relay⟩
  | .error _ _ => busyRelay

theorem created_crowdedRelay : Created crowdedRelay := by
  have good : endsWell (create plainConfig none none) (⟨crowdedHost, ()⟩ : Machine Int Unit) = true := by
    decide +kernel
  have fresh : Fresh crowdedHost :=
  fresh_of_empty rfl rfl rfl rfl rfl
  unfold crowdedRelay
  split
  · rename_i ran
    exact ⟨crowdedHost, plainConfig, none, none, fresh, ran⟩
  · rename_i ran
    unfold endsWell at good
    rw [ran] at good
    exact absurd good Bool.false_ne_true

def rested (h : Host Int) : List (Int × Int) := h.trace.filterMap fun s =>
  match s.event with
  | .rests time => some (s.time, time)
  | _ => none

@[irreducible] def restingRelay : Machine Int (Relay Int) := after (Operation.act .turn) crowdedRelay

def dueRelay : Machine Int (Relay Int) :=
  ⟨{ restingRelay.host with clock := 100 }, restingRelay.prog⟩

@[irreducible] def hungRelay : Machine Int (Relay Int) := after (Operation.act .close) restingRelay

theorem reached_restingRelay : Reached (fun _ => True) crowdedRelay restingRelay := by
  unfold restingRelay
  exact Reached.next .start (by decide +kernel) trivial (by decide +kernel)

theorem reached_hungRelay : Reached (fun _ => True) crowdedRelay hungRelay := by
  unfold hungRelay
  exact reached_restingRelay.next (by decide +kernel) trivial (by decide +kernel)

theorem run_keeps_pace_crowded :
    (∃ seen, (after run crowdedRelay).host.trace = seen ++ crowdedRelay.host.trace ∧
      Limited (listenerNumber crowdedRelay) seen) ∧
    rested (after run crowdedRelay).host = [(1100, 1200), (600, 700), (0, 100)] ∧
    (Attended restingRelay ∧ restingRelay.prog.listener.resumeAt = some 100) ∧
    (hungRelay.prog.listener.resumeAt = some 100 ∧
      ∀ fuel, Unwatched (after (turns fuel) hungRelay)) ∧
    (Ends maybeResume dueRelay (fun _ => Resumed dueRelay) fun _ m => ¬Documented m.host) ∧
    InTurn crowdedRelay (after run crowdedRelay) ∧
    (after run crowdedRelay).host.accepted = [3, 2] := by
  obtain ⟨pace, kept, resumes, inTurn⟩ := run_keeps_pace created_crowdedRelay
  have proper : Proper crowdedRelay.prog.listener.sock (listenerNumber crowdedRelay)
      (after run crowdedRelay).host := ⟨by decide +kernel, by decide +kernel⟩
  have resting := kept restingRelay (.inl reached_restingRelay) (by decide +kernel)
  have hung := (kept hungRelay (.inl reached_hungRelay) (by decide +kernel)).2 (by decide +kernel)
    (by decide +kernel)
  have due := resumes dueRelay 100 (by decide +kernel) (by decide +kernel) (by decide +kernel)
  exact ⟨pace (by decide +kernel) proper, by decide +kernel, ⟨resting.1, by decide +kernel⟩,
    ⟨by decide +kernel, hung⟩, due, inTurn _ (.inr rfl), by decide +kernel⟩

end StreamRelay.Relay
