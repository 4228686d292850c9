import Mathlib.Data.List.Nodup
import StreamRelay.Host.Action

namespace StreamRelay.Host
variable {T : Type} {h : Host T} {id other : SocketId} {s : Sock T} {f : Sock T → Sock T}

theorem sock?_alter : (h.alter id f).sock? other =
    if id = other then (h.sock? other).map f else h.sock? other := by
  simp only [sock?, alter, List.getElem?_modify]
  split <;> cases h.sockets[other]? <;> rfl

theorem sock?_alter_ne (differs : id ≠ other) : (h.alter id f).sock? other = h.sock? other := by
  rw [sock?_alter, if_neg differs]

theorem sock?_alter_self : (h.alter id f).sock? id = (h.sock? id).map f := by
  rw [sock?_alter, if_pos rfl]

@[simp] theorem length_alter : (h.alter id f).sockets.length = h.sockets.length := by
  simp [alter]

theorem lt_of_sock? (known : h.sock? id = some s) : id < h.sockets.length := by
  simp only [sock?] at known
  exact (List.getElem?_eq_some_iff.mp known).1

theorem exists_sock? (bounded : id < h.sockets.length) : ∃ s, h.sock? id = some s :=
  ⟨h.sockets[id], by simp [sock?, bounded]⟩

theorem number_alter (kept : ∀ s, (f s).fd = s.fd) :
    (h.alter id f).number other = h.number other := by
  simp only [number, sock?_alter]
  split
  · cases h.sock? other <;> simp [kept]
  · rfl

theorem isOpen_alter (kept : ∀ s, (f s).isOpen = s.isOpen) :
    (h.alter id f).isOpen other = h.isOpen other := by
  simp only [isOpen, sock?_alter]
  split
  · cases h.sock? other <;> simp [kept]
  · rfl

theorem isOpen_of_sock? (known : h.sock? id = some s) : h.isOpen id = s.isOpen := by
  simp [isOpen, known]

theorem lt_of_isOpen (opened : h.isOpen id = true) : id < h.sockets.length := by
  cases known : h.sock? id with
  | none => simp [isOpen, known] at opened
  | some s => exact lt_of_sock? known

theorem fileno_of_isOpen (opened : h.isOpen id = true) : h.fileno id = h.number id := by
  simp [fileno, opened]

-- Every connection that waits to be accepted, at a listener or for one.
def pending (h : Host T) : List SocketId := h.waiting ++ h.sockets.flatMap Sock.backlog

theorem flatMap_modify_perm {items : List (Sock T)} {i : Nat} (known : items[i]? = some s) :
    ((items.modify i f).flatMap Sock.backlog ++ s.backlog).Perm
      (items.flatMap Sock.backlog ++ (f s).backlog) := by
  induction items generalizing i with
  | nil => simp at known
  | cons first rest ih =>
    cases i with
    | zero =>
      simp only [List.getElem?_cons_zero, Option.some.injEq] at known
      subst known
      simp only [List.modify_zero_cons, List.flatMap_cons, List.append_assoc]
      refine (List.perm_append_comm_assoc _ _ _).trans ?_
      refine .trans ?_ (List.perm_append_comm_assoc _ _ _)
      exact List.perm_append_comm.append_left _
    | succ i =>
      simp only [List.getElem?_cons_succ] at known
      simpa only [List.modify_succ_cons, List.flatMap_cons, List.append_assoc] using
        (ih known).append_left _

-- What a socket's backlog loses or gains, the waiting connections as a whole lose or gain.
theorem pending_alter_perm (known : h.sock? id = some s) :
    ((h.alter id f).pending ++ s.backlog).Perm (h.pending ++ (f s).backlog) := by
  simpa only [pending, alter, List.append_assoc] using
    (flatMap_modify_perm known).append_left h.waiting

theorem pending_alter (kept : ∀ s, (f s).backlog = s.backlog) :
    (h.alter id f).pending = h.pending := by
  have same : ∀ (items : List (Sock T)) i,
      (items.modify i f).flatMap Sock.backlog = items.flatMap Sock.backlog := by
    intro items
    induction items with
    | nil => simp
    | cons first rest ih => intro i; cases i <;> simp [kept, ih]
  simp [pending, alter, same]

end StreamRelay.Host
