import StreamRelay.Proofs.Host.Masked
import StreamRelay.Proofs.Relay.Answers
import StreamRelay.Proofs.Relay.Unaware

namespace StreamRelay
variable {T : Type}
open Run

-- An accept that a signal interrupts, and during which nothing else happens.
def interrupts : Call × Fault T → Bool
  | (.accept, .incident [] (some f)) => !f.wouldBlock && f.interrupted
  | _ => false

namespace Host

def uninterrupted (h : Host T) : Host T := { h with faults := h.faults.filter fun e => !interrupts e }

end Host

namespace Relay

abbrev SameButAsked : Machine T (Relay T) → Machine T (Relay T) → Prop :=
  Veiled (fun e => !interrupts e) fun e => !e.asks

namespace SameButAsked
variable [Clock T] {m u : Machine T (Relay T)}

omit [Clock T] in
theorem whole {call : Call} (other : call ≠ .accept) (f : Fault T) : (!interrupts (call, f)) = true := by
  cases call <;> first | rfl | exact absurd rfl other

theorem unaware :
    Unaware (T := T) (fun call => ∀ f : Fault T, (!interrupts (call, f)) = true) SameButAsked where
  toIndistinct := Veiled.indistinct (fun e => !interrupts e) fun e => !e.asks
  others := whole
  relay same := ⟨_, same.1⟩
  edit {f} _ _ _ same := ⟨congrArg f same.1, same.2⟩

def Heard (m : Machine T (Relay T)) : Prop :=
  ∀ f ∈ (Host.popFault .accept m.host.faults).1, (!interrupts (.accept, f)) = true

theorem acceptOnce_paired (same : SameButAsked m u) (heard : Heard m) (heard' : Heard u) :
    Paired SameButAsked acceptOnce acceptOnce m u := by
  refine unaware.acceptOnce_paired same fun sock => unaware.accept_paired ?_
  have begun : SameButAsked ⟨m.host.emit (.begun .accept (some sock)), m.prog⟩
      ⟨u.host.emit (.begun .accept (some sock)), u.prog⟩ := ⟨same.1, same.2.emit _⟩
  exact Veiled.incident_paired begun heard heard'

omit [Clock T] in
theorem popFault_interrupts {call : Call} {faults : List (Call × Fault T)} {f : Fault T}
    (next : (Host.popFault call faults).1 = some f) (dropped : interrupts (call, f) = true) :
    ((Host.popFault call faults).2.filter fun e => !interrupts e) = faults.filter fun e => !interrupts e := by
  induction faults with
  | nil => cases next
  | cons entry rest ih =>
    obtain ⟨other, fault⟩ := entry
    by_cases same : other = call
    · subst same
      simp only [Host.popFault, if_true] at next ⊢
      cases next
      simp [dropped]
    · simp only [Host.popFault, if_neg same] at next ⊢
      simp only [List.filter_cons, ih next]

theorem incident_broken {call : Call} {cause : Failure}
    (next : (Host.popFault call m.host.faults).1 = some (.incident [] (some cause))) :
    Os.incident call m =
      .error cause ⟨{ m.host with faults := (Host.popFault call m.host.faults).2 }, m.prog⟩ := by
  have taken : Os.takeFault call m = .ok (some (.incident [] (some cause)))
      ⟨{ m.host with faults := (Host.popFault call m.host.faults).2 }, m.prog⟩ := by
    rw [← next]
    rfl
  simp only [Os.incident, Bind.bind, EStateM.bind, taken]
  rfl

theorem acceptOnce_interrupted {f : Fault T} (next : (Host.popFault .accept m.host.faults).1 = some f)
    (interrupted : interrupts (.accept, f) = true) :
    ∃ m', acceptOnce m = .ok .again m' ∧ SameButAsked m' m := by
  obtain ⟨cause, rfl, blocked, broken⟩ : ∃ cause, f = .incident [] (some cause) ∧
      cause.wouldBlock = false ∧ cause.interrupted = true := by
    unfold interrupts at interrupted
    split at interrupted
    · rename_i cause same
      cases same
      exact ⟨cause, rfl, by simpa using interrupted⟩
    · cases interrupted
  let begun := m.host.emit (.begun .accept (some m.prog.listener.sock))
  let passed : Machine T (Relay T) :=
    ⟨{ begun with faults := (Host.popFault .accept m.host.faults).2 }, m.prog⟩
  have failed : Os.accept m.prog.listener.sock m = .error cause passed := by
    have met : Os.incident .accept ⟨begun, m.prog⟩ = .error cause passed := incident_broken next
    simp only [Os.accept, Bind.bind, EStateM.bind, Run.emits, Run.changes, begun, met]
  refine ⟨passed, ?_, rfl, m.host.faults, m.host.trace, rfl, ?_, ?_⟩
  · simp only [acceptOnce, Bind.bind, EStateM.bind, Run.gets, Run.outcome, failed, blocked, broken]
    rfl
  · exact (popFault_interrupts next interrupted).symm
  · simp [passed, begun, Host.emit, Event.asks]

omit [Clock T] in
theorem symm (same : SameButAsked m u) : SameButAsked u m := ⟨same.1.symm, same.2.symm⟩

omit [Clock T] in
theorem trans {v : Machine T (Relay T)} (one : SameButAsked m u) (two : SameButAsked u v) :
    SameButAsked m v := ⟨two.1.trans one.1, one.2.trans two.2⟩

omit [Clock T] in
theorem uninterrupted (m : Machine T (Relay T)) : SameButAsked m ⟨m.host.uninterrupted, m.prog⟩ := by
  refine ⟨rfl, m.host.faults.filter fun e => !interrupts e, m.host.trace, rfl, ?_, rfl⟩
  rw [List.filter_filter]
  simp only [Bool.and_self]

theorem heard_or_interrupted (m : Machine T (Relay T)) : Heard m ∨
    ∃ m', acceptOnce m = .ok .again m' ∧ SameButAsked m' m ∧ m'.host.workload < m.host.workload := by
  by_cases heard : Heard m
  · exact .inl heard
  · simp only [Heard, not_forall] at heard
    obtain ⟨f, next, interrupted⟩ := heard
    obtain ⟨m', ran, same⟩ := acceptOnce_interrupted next (by simpa using interrupted)
    exact .inr ⟨m', ran, same, acceptOnce_uses.of_ok ran nofun⟩

theorem acceptFor_again {m' : Machine T (Relay T)} {fuel admitted : Nat}
    (ran : acceptOnce m = .ok .again m') :
    acceptFor (fuel + 1) admitted m = acceptFor fuel admitted m' := by
  simp only [acceptFor, Bind.bind, EStateM.bind, ran]

-- By induction on what both have left to use up: an interruption uses something up on one side alone.
theorem acceptFor_paired (size : Nat) {fuel fuel' admitted : Nat} (same : SameButAsked m u)
    (small : m.host.workload + u.host.workload ≤ size) (enough : m.host.workload < fuel)
    (enough' : u.host.workload < fuel') :
    Paired SameButAsked (acceptFor fuel admitted) (acceptFor fuel' admitted) m u := by
  induction size using Nat.strongRecOn generalizing m u fuel fuel' admitted with
  | ind size ih =>
    obtain ⟨fuel, rfl⟩ : ∃ n, fuel = n + 1 := ⟨fuel - 1, by omega⟩
    obtain ⟨fuel', rfl⟩ : ∃ n, fuel' = n + 1 := ⟨fuel' - 1, by omega⟩
    obtain heard | ⟨next, ran, passed, less⟩ := heard_or_interrupted m
    · obtain heard' | ⟨next, ran, passed, less⟩ := heard_or_interrupted u
      · refine (acceptOnce_paired same heard heard').bind_ran fun result m' u' ran ran' same' => ?_
        have later (going : result ≠ .done) (admitted : Nat) :
            Paired SameButAsked (acceptFor fuel admitted) (acceptFor fuel' admitted) m' u' := by
          have less := acceptOnce_uses.of_ok ran going
          have less' := acceptOnce_uses.of_ok ran' going
          exact ih _ (by omega) same' (Nat.le_refl _) (by omega) (by omega)
        cases result with
        | done => exact Twins.pure admitted m' u' same'
        | again => exact later nofun admitted
        | admitted => exact later nofun (admitted + 1)
      · have rest : Paired SameButAsked (acceptFor (fuel + 1) admitted) (acceptFor fuel' admitted) m next :=
          ih (m.host.workload + next.host.workload) (by omega) (same.trans passed.symm)
            (Nat.le_refl _) enough (by omega)
        unfold Paired at *
        rw [acceptFor_again ran]
        exact rest
    · have rest : Paired SameButAsked (acceptFor fuel admitted) (acceptFor (fuel' + 1) admitted) next u :=
        ih (next.host.workload + u.host.workload) (by omega) (passed.trans same) (Nat.le_refl _)
          (by omega) enough'
      unfold Paired Ends at *
      rw [acceptFor_again ran]
      exact rest

theorem acceptAll_twins : Twins (SameButAsked (T := T)) acceptAll acceptAll :=
  fun _ _ same => acceptFor_paired _ same (Nat.le_refl _) (Nat.lt_succ_self _) (Nat.lt_succ_self _)

end SameButAsked
end Relay
end StreamRelay
