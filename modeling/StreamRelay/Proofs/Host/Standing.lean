import StreamRelay.Proofs.Host.Sockets
import StreamRelay.Proofs.Host.Surroundings

namespace StreamRelay.Host
variable {T : Type}

def accepted (h : Host T) : List SocketId :=
  h.trace.filterMap fun stamped =>
    match stamped.event with
    | .accept id _ => some id
    | _ => none

-- A host without a datagram service, on which every waiting connection waits once.
structure Orderly (h : Host T) : Prop where
  server : h.server = none
  pending_nodup : h.pending.Nodup
  pending_lt : ∀ id ∈ h.pending, id < h.sockets.length

structure Stays (h h' : Host T) : Prop where
  grown : h.sockets.length ≤ h'.sockets.length
  number : ∀ id, id < h.sockets.length → h'.number id = h.number id
  isOpen : ∀ id, id < h.sockets.length → h'.isOpen id = h.isOpen id
  pending : ∀ id ∈ h'.pending, id ∈ h.pending ∨ h.sockets.length ≤ id
  entries : h'.entries = h.entries
  accepted : h'.accepted = h.accepted
  refusals : ∀ r ∈ h.refusals, r ∈ h'.refusals

def Settled (h h' : Host T) : Prop := h.Orderly → h'.Orderly ∧ Stays h h'

theorem Stays.refl (h : Host T) : Stays h h :=
  ⟨Nat.le_refl _, fun _ _ => rfl, fun _ _ => rfl, fun _ waits => .inl waits, rfl, rfl,
    fun _ kept => kept⟩

theorem Stays.trans {a b c : Host T} (one : Stays a b) (two : Stays b c) : Stays a c where
  grown := Nat.le_trans one.grown two.grown
  number id bounded :=
    (two.number id (Nat.lt_of_lt_of_le bounded one.grown)).trans (one.number id bounded)
  isOpen id bounded :=
    (two.isOpen id (Nat.lt_of_lt_of_le bounded one.grown)).trans (one.isOpen id bounded)
  pending id waits := by
    cases two.pending id waits with
    | inl before => exact one.pending id before
    | inr new => exact .inr (Nat.le_trans one.grown new)
  entries := two.entries.trans one.entries
  accepted := two.accepted.trans one.accepted
  refusals r kept := two.refusals r (one.refusals r kept)

theorem Settled.refl (h : Host T) : Settled h h := fun orderly => ⟨orderly, .refl h⟩

theorem Settled.trans {a b c : Host T} (one : Settled a b) (two : Settled b c) : Settled a c := by
  intro orderly
  obtain ⟨middle, first⟩ := one orderly
  obtain ⟨last, second⟩ := two middle
  exact ⟨last, first.trans second⟩

structure Alike (h h' : Host T) : Prop where
  sockets : h'.sockets = h.sockets
  waiting : h'.waiting = h.waiting
  server : h'.server = h.server
  entries : h'.entries = h.entries
  accepted : h'.accepted = h.accepted
  refusals : ∀ r ∈ h.refusals, r ∈ h'.refusals

theorem Alike.settled {h h' : Host T} (alike : Alike h h') : Settled h h' := by
  have pending : h'.pending = h.pending := by
    simp only [Host.pending, alike.sockets, alike.waiting]
  have sock (id : SocketId) : h'.sock? id = h.sock? id := by simp only [sock?, alike.sockets]
  intro orderly
  refine ⟨⟨alike.server.trans orderly.server, ?_, ?_⟩, ?_⟩
  · rw [pending]; exact orderly.pending_nodup
  · rw [pending, alike.sockets]; exact orderly.pending_lt
  · refine ⟨Nat.le_of_eq (by rw [alike.sockets]), ?_, ?_, ?_, alike.entries, alike.accepted, alike.refusals⟩
    · intro id _; simp only [Host.number, sock]
    · intro id _; simp only [Host.isOpen, sock]
    · intro id waits; rw [pending] at waits; exact .inl waits

theorem settled_alter {h : Host T} {id : SocketId} {f : Sock T → Sock T}
    (fd : ∀ s, (f s).fd = s.fd) (opened : ∀ s, (f s).isOpen = s.isOpen)
    (backlog : ∀ s, (f s).backlog = s.backlog) : Settled h (h.alter id f) := by
  have pending : (h.alter id f).pending = h.pending := pending_alter backlog
  intro orderly
  refine ⟨⟨orderly.server, ?_, ?_⟩, ?_⟩
  · rw [pending]; exact orderly.pending_nodup
  · rw [pending, length_alter]; exact orderly.pending_lt
  · refine ⟨Nat.le_of_eq length_alter.symm, ?_, ?_, ?_, rfl, rfl, fun _ kept => kept⟩
    · intro other _; exact number_alter fd
    · intro other _; exact isOpen_alter opened
    · intro other waits; rw [pending] at waits; exact .inl waits

theorem settled_alterClient {h : Host T} {client : Nat} {f : Sock T → Sock T}
    (fd : ∀ s, (f s).fd = s.fd) (opened : ∀ s, (f s).isOpen = s.isOpen)
    (backlog : ∀ s, (f s).backlog = s.backlog) : Settled h (h.alterClient client f) :=
  alterClient_of (.refl h) (fun _ => settled_alter fd opened backlog) client

theorem sock?_append {h : Host T} {s : Sock T} {id : SocketId} (bounded : id < h.sockets.length) :
    (h.sockets ++ [s])[id]? = h.sockets[id]? := List.getElem?_append_left bounded

theorem settled_append {h : Host T} {s : Sock T} {n : Nat} (unused : s.backlog = []) :
    Settled h { h with sockets := h.sockets ++ [s], clients := n } := by
  have pending : Host.pending { h with sockets := h.sockets ++ [s], clients := n } = h.pending := by
    simp [Host.pending, unused]
  intro orderly
  refine ⟨⟨orderly.server, ?_, ?_⟩, ?_⟩
  · rw [pending]; exact orderly.pending_nodup
  · rw [pending]
    intro id waits
    rw [List.length_append, List.length_singleton]
    exact Nat.lt_succ_of_lt (orderly.pending_lt id waits)
  · refine ⟨by simp, ?_, ?_, ?_, rfl, rfl, fun _ kept => kept⟩
    · intro id bounded; simp only [Host.number, sock?, sock?_append bounded]
    · intro id bounded; simp only [Host.isOpen, sock?, sock?_append bounded]
    · intro id waits; rw [pending] at waits; exact .inl waits

-- One more connection waits than before, and nothing else has changed.
structure Enqueued (h h' : Host T) (id : SocketId) : Prop where
  length : h'.sockets.length = h.sockets.length
  number : ∀ other, h'.number other = h.number other
  isOpen : ∀ other, h'.isOpen other = h.isOpen other
  pending : h'.pending.Perm (h.pending ++ [id])
  server : h'.server = h.server
  entries : h'.entries = h.entries
  accepted : h'.accepted = h.accepted
  refusals : h'.refusals = h.refusals

theorem Enqueued.orderly {h h' : Host T} {id : SocketId} (queued : Enqueued h h' id)
    (orderly : h.Orderly) (new : id ∉ h.pending) (bounded : id < h.sockets.length) :
    h'.Orderly where
  server := queued.server.trans orderly.server
  pending_nodup := by
    rw [queued.pending.nodup_iff, List.nodup_append]
    refine ⟨orderly.pending_nodup, List.nodup_singleton id, ?_⟩
    intro a waits b last same
    rw [List.mem_singleton.mp last] at same
    exact new (same ▸ waits)
  pending_lt other waits := by
    rw [queued.length]
    cases List.mem_append.mp (queued.pending.mem_iff.mp waits) with
    | inl before => exact orderly.pending_lt other before
    | inr last => rw [List.mem_singleton.mp last]; exact bounded

-- Since an earlier host on which the connection that waits was not there yet.
theorem Enqueued.stays {h middle h' : Host T} {id : SocketId} (queued : Enqueued middle h' id)
    (stays : Stays h middle) (new : h.sockets.length ≤ id) : Stays h h' where
  grown := Nat.le_trans stays.grown (Nat.le_of_eq queued.length.symm)
  number other bounded := (queued.number other).trans (stays.number other bounded)
  isOpen other bounded := (queued.isOpen other).trans (stays.isOpen other bounded)
  pending other waits := by
    cases List.mem_append.mp (queued.pending.mem_iff.mp waits) with
    | inl before => exact stays.pending other before
    | inr last => rw [List.mem_singleton.mp last]; exact .inr new
  entries := queued.entries.trans stays.entries
  accepted := queued.accepted.trans stays.accepted
  refusals r kept := by rw [queued.refusals]; exact stays.refusals r kept

theorem enqueued_waiting (h : Host T) (id : SocketId) :
    Enqueued h { h with waiting := h.waiting ++ [id] } id := by
  refine ⟨rfl, fun _ => rfl, fun _ => rfl, ?_, rfl, rfl, rfl, rfl⟩
  simp only [pending, List.append_assoc]
  exact List.perm_append_comm.append_left _

theorem enqueued_backlog {h : Host T} {l : SocketId} {s : Sock T} (known : h.sock? l = some s)
    (id : SocketId) :
    Enqueued h (h.alter l fun s => { s with backlog := s.backlog ++ [id] }) id := by
  refine ⟨length_alter, fun _ => number_alter fun _ => rfl, fun _ => isOpen_alter fun _ => rfl, ?_,
    rfl, rfl, rfl, rfl⟩
  have moved := pending_alter_perm (f := fun s => { s with backlog := s.backlog ++ [id] }) known
  refine (List.perm_append_right_iff s.backlog).mp (moved.trans ?_)
  simp only [List.append_assoc]
  exact List.perm_append_comm.append_left _

theorem addClient_appends (h : Host T) (c : Incoming) : ∃ s : Sock T,
    (h.addClient c).1 = { h with sockets := h.sockets ++ [s], clients := h.clients + 1 } ∧
    (h.addClient c).2 = h.sockets.length ∧
    s.backlog = [] ∧ s.unread = s.arrived ∧ s.shut = false := ⟨_, rfl, rfl, rfl, rfl, rfl⟩

theorem apply_connect [Clock T] (h : Host T) (c : Incoming) : h.apply (.connect c) =
    match h.listener with
    | some l => (h.addClient c).1.alter l fun s =>
        { s with backlog := s.backlog ++ [(h.addClient c).2] }
    | none => { (h.addClient c).1 with
        waiting := (h.addClient c).1.waiting ++ [(h.addClient c).2] } := rfl

theorem settled_connect [Clock T] (h : Host T) (c : Incoming) :
    Settled h (h.apply (.connect c)) := by
  obtain ⟨s, built, id, unused, _⟩ := addClient_appends h c
  rw [apply_connect, id]
  intro orderly
  have added := settled_append (n := h.clients + 1) unused orderly
  rw [← built] at added
  obtain ⟨middle, stays⟩ := added
  have bounded : h.sockets.length < (h.addClient c).1.sockets.length := by simp [built]
  have new : h.sockets.length ∉ (h.addClient c).1.pending := by
    intro waits
    have same : (h.addClient c).1.pending = h.pending := by simp [built, pending, unused]
    rw [same] at waits
    exact Nat.lt_irrefl _ (orderly.pending_lt _ waits)
  generalize (h.addClient c).1 = after at middle stays bounded new ⊢
  cases h.listener with
  | none =>
    have queued := enqueued_waiting after h.sockets.length
    exact ⟨queued.orderly middle new bounded, queued.stays stays (Nat.le_refl _)⟩
  | some l =>
    cases known : after.sock? l with
    | none =>
      have gone : after.sockets.length ≤ l := List.getElem?_eq_none_iff.mp known
      simp only [alter, List.modify_eq_self gone]
      exact ⟨middle, stays⟩
    | some listening =>
      have queued := enqueued_backlog known h.sockets.length
      exact ⟨queued.orderly middle new bounded, queued.stays stays (Nat.le_refl _)⟩

theorem settled_emit (h : Host T) (e : Event T) (plain : e.plain = true) :
    Settled h (h.emit e) := by
  refine Alike.settled ⟨rfl, rfl, rfl, rfl, ?_, fun _ kept => kept⟩
  cases e <;> first | rfl | simp [Event.plain] at plain

theorem settled_raise (h : Host T) (flag : Flag) : Settled h (h.raise flag) := by
  cases flag <;> exact Alike.settled ⟨rfl, rfl, rfl, rfl, rfl, fun _ kept => kept⟩

theorem settled_deliver (h : Host T) (signal : Signal) : Settled h (h.deliver signal) :=
  deliver_of .refl settled_raise h signal

theorem settled_stop (h : Host T) : Settled h h.stop := stop_of .refl .trans settled_raise h

theorem settled_apply [Clock T] (h : Host T) (action : Action T) :
    Settled h (h.apply action) := by
  cases action with
  | connect c => exact settled_connect h c
  | send | finish | reset =>
    exact settled_alterClient (fun _ => rfl) (fun _ => rfl) fun _ => rfl
  | console | consoleEnd | advance | fault =>
    exact Alike.settled ⟨rfl, rfl, rfl, rfl, rfl, fun _ kept => kept⟩
  | datagram data =>
    simp only [apply]
    split
    · exact settled_alter (fun _ => rfl) (fun _ => rfl) fun _ => rfl
    · exact Alike.settled ⟨rfl, rfl, rfl, rfl, rfl, fun _ kept => kept⟩
  | closeServer =>
    intro orderly
    simp only [apply, orderly.server, Option.elim]
    exact ⟨orderly, .refl h⟩
  | stop => exact settled_stop h
  | signal s => exact settled_deliver h s
  | runWorker => exact .refl h

theorem calm_settled [Clock T] : Calm (T := T) Settled where
  refl := .refl
  trans := .trans
  emit := settled_emit
  note _ _ _ _ := Alike.settled ⟨rfl, rfl, rfl, rfl, rfl, fun _ kept => List.mem_cons_of_mem _ kept⟩
  clock _ _ := Alike.settled ⟨rfl, rfl, rfl, rfl, rfl, fun _ kept => kept⟩
  stderr _ _ := Alike.settled ⟨rfl, rfl, rfl, rfl, rfl, fun _ kept => kept⟩
  console _ _ := Alike.settled ⟨rfl, rfl, rfl, rfl, rfl, fun _ kept => kept⟩
  faults _ _ := Alike.settled ⟨rfl, rfl, rfl, rfl, rfl, fun _ kept => kept⟩
  batches _ _ := Alike.settled ⟨rfl, rfl, rfl, rfl, rfl, fun _ kept => kept⟩
  apply := settled_apply

end StreamRelay.Host
