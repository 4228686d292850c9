import StreamRelay.Proofs.Host.Indistinct
import StreamRelay.Proofs.Host.Standing
import StreamRelay.Proofs.Host.Workload

namespace StreamRelay
variable {T P : Type}
open Run

namespace Host

-- One host is the other but for its faults and its trace, and these differ only in what is not kept
-- and not shown.
def Masked (keep : Call × Fault T → Bool) (shown : Event T → Bool) (h g : Host T) : Prop :=
  ∃ faults trace, g = { h with faults, trace } ∧ faults.filter keep = h.faults.filter keep ∧
    (trace.filter fun s => shown s.event) = h.trace.filter fun s => shown s.event

section Masked
variable {keep : Call × Fault T → Bool} {shown : Event T → Bool} {h g : Host T}

theorem Masked.symm (masked : Masked keep shown h g) : Masked keep shown g h := by
  obtain ⟨faults, trace, rfl, kept, seen⟩ := masked
  exact ⟨h.faults, h.trace, rfl, kept.symm, seen.symm⟩

theorem Masked.trans {k : Host T} (one : Masked keep shown h g) (two : Masked keep shown g k) :
    Masked keep shown h k := by
  obtain ⟨faults, trace, rfl, kept, seen⟩ := one
  obtain ⟨faults', trace', rfl, kept', seen'⟩ := two
  exact ⟨faults', trace', rfl, kept'.trans kept, seen'.trans seen⟩

theorem Masked.emit (masked : Masked keep shown h g) (e : Event T) :
    Masked keep shown (h.emit e) (g.emit e) := by
  obtain ⟨faults, trace, rfl, kept, seen⟩ := masked
  refine ⟨faults, ⟨h.clock, e⟩ :: trace, rfl, kept, ?_⟩
  simp only [Host.emit, List.filter_cons, seen]

theorem Masked.along (masked : Masked keep shown h g) {f : Host T → Host T}
    (apart : ∀ (h : Host T) faults trace, f { h with faults, trace } = { f h with faults, trace })
    (faults : (f h).faults = h.faults) (trace : (f h).trace = h.trace) :
    Masked keep shown (f h) (f g) := by
  obtain ⟨others, events, rfl, kept, seen⟩ := masked
  exact ⟨others, events, apart h others events, by rw [faults, kept], by rw [trace, seen]⟩

theorem Masked.alter (masked : Masked keep shown h g) (id : SocketId) (f : Sock T → Sock T) :
    Masked keep shown (h.alter id f) (g.alter id f) :=
  masked.along (f := fun h => h.alter id f) (fun _ _ _ => rfl) rfl rfl

theorem Masked.raise (masked : Masked keep shown h g) (flag : Flag) :
    Masked keep shown (h.raise flag) (g.raise flag) := by
  have told := masked.emit (.told flag)
  cases flag with
  | service => exact told.along (f := fun h => { h with serviceStop := true }) (fun _ _ _ => rfl) rfl rfl
  | command => exact told.along (f := fun h => { h with commandStop := true }) (fun _ _ _ => rfl) rfl rfl

theorem Masked.deliver (masked : Masked keep shown h g) (signal : Signal) :
    Masked keep shown (h.deliver signal) (g.deliver signal) := by
  have same : g.handler signal = h.handler signal := by
    obtain ⟨faults, trace, rfl, -⟩ := masked
    cases signal <;> rfl
  simp only [Host.deliver, same]
  cases h.handler signal with
  | none => exact masked
  | some flag => exact masked.raise flag

theorem Masked.stop (masked : Masked keep shown h g) : Masked keep shown h.stop g.stop := by
  have ending : g.ending = h.ending := by
    obtain ⟨faults, trace, rfl, -⟩ := masked
    rfl
  simp only [Host.stop, ending]
  cases h.ending with
  | raises flag => exact masked.raise flag
  | terminates =>
    have delivered := masked.deliver .terminate
    have worker : (g.deliver .terminate).workerStop = (h.deliver .terminate).workerStop := by
      obtain ⟨faults, trace, same, -⟩ := delivered
      rw [same]
    simp only [worker]
    cases (h.deliver .terminate).workerStop with
    | none => exact delivered
    | some flag => exact delivered.raise flag

theorem Masked.alterClient (masked : Masked keep shown h g) (client : Nat) (f : Sock T → Sock T) :
    Masked keep shown (h.alterClient client f) (g.alterClient client f) := by
  have same : g.client? client = h.client? client := by
    obtain ⟨faults, trace, rfl, -⟩ := masked
    rfl
  simp only [Host.alterClient, same]
  cases h.client? client with
  | none => exact masked
  | some id => exact masked.alter id f

theorem Masked.connect [Clock T] (masked : Masked keep shown h g) (client : Incoming) :
    Masked keep shown (h.apply (.connect client)) (g.apply (.connect client)) := by
  have added : Masked keep shown (h.addClient client).1 (g.addClient client).1 :=
    masked.along (f := fun h => (h.addClient client).1) (fun _ _ _ => rfl) rfl rfl
  have listener : g.listener = h.listener := by
    obtain ⟨faults, trace, rfl, -⟩ := masked
    rfl
  have id : (g.addClient client).2 = (h.addClient client).2 := by
    obtain ⟨faults, trace, rfl, -⟩ := masked
    rfl
  rw [apply_connect, apply_connect, listener, id]
  cases h.listener with
  | none =>
    exact added.along (f := fun a => { a with waiting := a.waiting ++ [(h.addClient client).2] })
      (fun _ _ _ => rfl) rfl rfl
  | some l => exact added.alter l _

theorem apply_early [Clock T] {data : Bytes} (known : h.server = none) :
    h.apply (.datagram data) = { h with early := h.early ++ [data] } := by
  simp only [Host.apply]
  split
  · rename_i id other
    cases known.symm.trans other
  · rfl

theorem apply_datagram [Clock T] {data : Bytes} {id : SocketId} (known : h.server = some id) :
    h.apply (.datagram data) = h.alter id (Sock.takeIn [data]) := by
  simp only [Host.apply]
  split
  · rename_i other same
    cases known.symm.trans same
    rfl
  · rename_i other
    cases known.symm.trans other

theorem Masked.apply [Clock T] (masked : Masked keep shown h g) (action : Action T) :
    Masked keep shown (h.apply action) (g.apply action) := by
  have server : g.server = h.server := by
    obtain ⟨faults, trace, rfl, -⟩ := masked
    rfl
  cases action with
  | stop => exact masked.stop
  | signal s => exact masked.deliver s
  | runWorker => exact masked
  | connect client => exact masked.connect client
  | send client data | finish client | reset client => exact masked.alterClient client _
  | fault call next =>
    obtain ⟨faults, trace, rfl, kept, seen⟩ := masked
    refine ⟨faults ++ next.map (call, ·), trace, rfl, ?_, seen⟩
    simp only [Host.apply, List.filter_append, kept]
  | console data =>
    exact masked.along (f := fun h => h.apply (.console data)) (fun _ _ _ => rfl) rfl rfl
  | consoleEnd => exact masked.along (f := fun h => h.apply .consoleEnd) (fun _ _ _ => rfl) rfl rfl
  | advance d => exact masked.along (f := fun h => h.apply (.advance d)) (fun _ _ _ => rfl) rfl rfl
  | datagram data =>
    cases known : h.server with
    | none =>
      rw [apply_early known, apply_early (server.trans known)]
      exact masked.along (f := fun h => { h with early := h.early ++ [data] }) (fun _ _ _ => rfl) rfl rfl
    | some id =>
      rw [apply_datagram known, apply_datagram (server.trans known)]
      exact masked.alter id _
  | closeServer =>
    simp only [Host.apply, server]
    cases h.server with
    | none => exact masked
    | some id => exact masked.alter id _

theorem popFault_filter {call : Call} {faults : List (Call × Fault T)}
    (kept : ∀ f ∈ (popFault call faults).1, keep (call, f) = true) :
    popFault call (faults.filter keep) =
      ((popFault call faults).1, (popFault call faults).2.filter keep) := by
  induction faults with
  | nil => rfl
  | cons entry rest ih =>
    obtain ⟨other, fault⟩ := entry
    by_cases same : other = call
    · subst same
      have here : keep (other, fault) = true := kept fault (by simp [popFault])
      simp [popFault, here]
    · have later := ih (by simpa [popFault, if_neg same] using kept)
      by_cases here : keep (other, fault) = true
      · simp [here, popFault, same, later]
      · simp [here, popFault, same, later]

theorem popFault_of_filter {call : Call} {faults others : List (Call × Fault T)}
    (kept : ∀ f ∈ (popFault call faults).1, keep (call, f) = true)
    (kept' : ∀ f ∈ (popFault call others).1, keep (call, f) = true)
    (same : others.filter keep = faults.filter keep) :
    (popFault call others).1 = (popFault call faults).1 ∧
      (popFault call others).2.filter keep = (popFault call faults).2.filter keep := by
  have both := popFault_filter kept
  rw [← same, popFault_filter kept'] at both
  exact Prod.mk.inj both

end Masked
end Host

def Veiled (keep : Call × Fault T → Bool) (shown : Event T → Bool) (m u : Machine T P) : Prop :=
  u.prog = m.prog ∧ Host.Masked keep shown m.host u.host

namespace Veiled
variable {keep : Call × Fault T → Bool} {shown : Event T → Bool} {m u : Machine T P}

theorem asks {α : Type} {f : Host T → α}
    (apart : ∀ (h : Host T) faults trace, f { h with faults, trace } = f h) :
    Twins (P := P) (Veiled keep shown) (Run.asks f) (Run.asks f) := by
  refine .asks fun m u veiled => ?_
  obtain ⟨-, faults, trace, same, -⟩ := veiled
  exact (same ▸ apart m.host faults trace).symm

section Calls
variable [Clock T]

theorem applies (action : Action T) : Twins (P := P) (Veiled keep shown)
    (Run.changes (·.apply action)) (Run.changes (·.apply action)) :=
  .changes fun _ _ veiled => ⟨veiled.1, veiled.2.apply action⟩

variable [Resumable T P] [Idle T P]

omit [Clock T] [Resumable T P] [Idle T P] in
theorem stopAll : Twins (P := P) (Veiled keep shown) Os.stopAll Os.stopAll := by
  intro m u veiled
  have possible : u.host.canStop = m.host.canStop := by
    obtain ⟨-, faults, trace, same, -⟩ := veiled
    rw [same]
    rfl
  unfold Paired Ends Os.stopAll
  rw [possible]
  cases m.host.canStop with
  | true => exact ⟨_, rfl, veiled.1, veiled.2.stop⟩
  | false => exact ⟨u, rfl, veiled⟩

theorem perform (action : Action T) :
    Twins (P := P) (Veiled keep shown) (Os.perform action) (Os.perform action) := by
  refine .bind (asks fun h faults trace => ?_) fun stranger => ?_
  · cases action <;> rfl
  · cases stranger with
    | some client => exact .fails _
    | none =>
      cases action with
      | runWorker =>
        intro m u veiled
        unfold Paired Ends Os.runWorker
        simp only [Idle.resume_eq]
        exact ⟨u, rfl, veiled⟩
      | stop => exact stopAll
      | _ => exact applies _

theorem happen (actions : List (Action T)) :
    Twins (P := P) (Veiled keep shown) (Os.happen actions) (Os.happen actions) := .forM perform

-- A call meets the same fault on both hosts, if it is one that is kept on either.
theorem incident_paired {call : Call} (veiled : Veiled keep shown m u)
    (kept : ∀ f ∈ (Host.popFault call m.host.faults).1, keep (call, f) = true)
    (kept' : ∀ f ∈ (Host.popFault call u.host.faults).1, keep (call, f) = true) :
    Paired (Veiled keep shown) (Os.incident call) (Os.incident call) m u := by
  have taken : Paired (Veiled keep shown) (Os.takeFault call) (Os.takeFault call) m u := by
    obtain ⟨prog, faults, trace, same, left, seen⟩ := veiled
    have others : u.host.faults = faults := by rw [same]
    rw [← others] at left
    obtain ⟨found, rest⟩ := Host.popFault_of_filter kept kept' left
    refine ⟨⟨{ u.host with faults := (Host.popFault call u.host.faults).2 }, u.prog⟩, ?_, prog, ?_⟩
    · rw [← found]
      rfl
    · exact ⟨_, trace, by rw [same], rest, seen⟩
  refine taken.bind fun fault => ?_
  split
  · exact .pure _
  · exact .pure _
  · exact .pure _
  · refine .bind (happen _) fun _ => ?_
    split
    · exact .pure _
    · exact .fails _

theorem incident {call : Call} (whole : ∀ f, keep (call, f) = true) :
    Twins (P := P) (Veiled keep shown) (Os.incident call) (Os.incident call) :=
  fun _ _ veiled => incident_paired veiled (fun f _ => whole f) fun f _ => whole f

theorem await : Twins (P := P) (Veiled keep shown) Os.await Os.await := by
  have taken : Twins (P := P) (Veiled keep shown) Os.takeBatch Os.takeBatch := by
    rintro m u ⟨prog, faults, trace, same, left, seen⟩
    unfold Paired Ends Os.takeBatch
    rw [same]
    exact ⟨_, rfl, prog, faults, trace, rfl, left, seen⟩
  refine .bind taken fun batch => ?_
  split
  · exact .bind stopAll fun _ => .pure _
  · exact .bind (happen _) fun _ => .pure _

theorem indistinct (keep : Call × Fault T → Bool) (shown : Event T → Bool) :
    Indistinct (P := P) (fun call => ∀ f, keep (call, f) = true) (Veiled keep shown) where
  view veiled := by
    obtain ⟨-, faults, trace, same, -⟩ := veiled
    exact ⟨faults, trace, same⟩
  along apart faults trace m _ veiled :=
    ⟨veiled.1, veiled.2.along apart (faults m.host) (trace m.host)⟩
  emit e _ _ veiled := ⟨veiled.1, veiled.2.emit e⟩
  incident := incident
  await := await

end Calls
end Veiled
end StreamRelay
