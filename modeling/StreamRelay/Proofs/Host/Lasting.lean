import StreamRelay.Proofs.Host.Standing
import StreamRelay.Proofs.Host.Calls

namespace StreamRelay

namespace Refusal

-- The causes for which a call may fail at all.
def documented (r : Refusal) : Bool :=
  match r.call with
  | .setBlocking => r.cause.isOs
  | .register => r.cause.isOs || r.cause.isValue || r.cause.isKey
  | .unregister => r.cause.isKey || r.cause.isValue
  | _ => true

end Refusal

namespace Host
variable {T : Type} {h h' : Host T}

def Documented (h : Host T) : Prop := ∀ r ∈ h.refusals, r.documented = true

instance (h : Host T) : Decidable h.Documented :=
  inferInstanceAs (Decidable (∀ r ∈ h.refusals, r.documented = true))

-- To stop watching an open socket that is watched has never failed.
def Spared (h : Host T) : Prop := ∀ r ∈ h.refusals, r.call = .unregister → r.watched = false

instance (h : Host T) : Decidable h.Spared :=
  inferInstanceAs (Decidable (∀ r ∈ h.refusals, r.call = .unregister → r.watched = false))

theorem undocumented {call : Call} {id : SocketId} {cause : Failure}
    (bad : Refusal.documented ⟨call, id, h.watches id, cause⟩ = false) :
    ¬Documented (h.note call id cause) := by
  intro documented
  have good := documented _ List.mem_cons_self
  exact Bool.false_ne_true (bad.symm.trans good)

structure Ages (h h' : Host T) : Prop where
  grown : h.sockets.length ≤ h'.sockets.length
  number : ∀ id, id < h.sockets.length → h'.number id = h.number id
  shut : ∀ id, id < h.sockets.length → h.isOpen id = false → h'.isOpen id = false
  pending : ∀ id ∈ h'.pending, id ∈ h.pending ∨ h.sockets.length ≤ id
  accepted : ∀ id ∈ h.accepted, id ∈ h'.accepted
  refusals : ∀ r ∈ h.refusals, r ∈ h'.refusals

def Aged (h h' : Host T) : Prop := h.Orderly → h'.Orderly ∧ Ages h h'

theorem Ages.refl (h : Host T) : Ages h h :=
  ⟨Nat.le_refl _, fun _ _ => rfl, fun _ _ closed => closed, fun _ waits => .inl waits,
    fun _ told => told, fun _ kept => kept⟩

theorem Ages.trans {a b c : Host T} (one : Ages a b) (two : Ages b c) : Ages a c where
  grown := Nat.le_trans one.grown two.grown
  number id bounded :=
    (two.number id (Nat.lt_of_lt_of_le bounded one.grown)).trans (one.number id bounded)
  shut id bounded closed :=
    two.shut id (Nat.lt_of_lt_of_le bounded one.grown) (one.shut id bounded closed)
  pending id waits := by
    cases two.pending id waits with
    | inl before => exact one.pending id before
    | inr new => exact .inr (Nat.le_trans one.grown new)
  accepted id told := two.accepted id (one.accepted id told)
  refusals r kept := two.refusals r (one.refusals r kept)

theorem Aged.refl (h : Host T) : Aged h h := fun orderly => ⟨orderly, .refl h⟩

theorem Aged.trans {a b c : Host T} (one : Aged a b) (two : Aged b c) : Aged a c := by
  intro orderly
  obtain ⟨middle, first⟩ := one orderly
  obtain ⟨last, second⟩ := two middle
  exact ⟨last, first.trans second⟩

theorem Stays.ages (stays : Stays h h') : Ages h h' where
  grown := stays.grown
  number := stays.number
  shut id bounded closed := (stays.isOpen id bounded).trans closed
  pending := stays.pending
  accepted id told := by rw [stays.accepted]; exact told
  refusals := stays.refusals

theorem Settled.aged (settled : Settled h h') : Aged h h' := by
  intro orderly
  obtain ⟨after, stays⟩ := settled orderly
  exact ⟨after, stays.ages⟩

theorem aged_of_same (sockets : h'.sockets = h.sockets) (waiting : h'.waiting = h.waiting)
    (server : h'.server = h.server) (accepted : ∀ id ∈ h.accepted, id ∈ h'.accepted)
    (refusals : h'.refusals = h.refusals) : Aged h h' := by
  have pending : h'.pending = h.pending := by simp only [Host.pending, sockets, waiting]
  have sock (id : SocketId) : h'.sock? id = h.sock? id := by simp only [sock?, sockets]
  intro orderly
  refine ⟨⟨server.trans orderly.server, ?_, ?_⟩, Nat.le_of_eq (by rw [sockets]), ?_, ?_, ?_,
    accepted, ?_⟩
  · rw [pending]; exact orderly.pending_nodup
  · rw [pending, sockets]; exact orderly.pending_lt
  · intro id _; simp only [number, sock]
  · intro id _ closed; simpa only [isOpen, sock] using closed
  · intro id waits; rw [pending] at waits; exact .inl waits
  · rw [refusals]; exact fun _ kept => kept

theorem accepted_emit (h : Host T) (e : Event T) (id : SocketId) (told : id ∈ h.accepted) :
    id ∈ (h.emit e).accepted := by
  simp only [accepted, emit, List.filterMap_cons]
  split
  · exact told
  · exact List.mem_cons_of_mem _ told

theorem aged_emit (h : Host T) (e : Event T) : Aged h (h.emit e) :=
  aged_of_same rfl rfl rfl (accepted_emit h e) rfl

theorem aged_entries (h : Host T) (entries : List (Int × Entry)) :
    Aged h { h with entries := entries } :=
  aged_of_same rfl rfl rfl (fun _ told => told) rfl

section Shut
variable {id other : SocketId}

@[simp] theorem pending_shut : (h.shut id).pending = h.pending := by
  unfold shut
  split
  · refine (?_ : (h.alter id fun s => { s with isOpen := false }).pending = _)
    exact pending_alter fun _ => rfl
  · rfl

@[simp] theorem number_shut : (h.shut id).number other = h.number other := by
  unfold shut
  split
  · exact number_alter fun _ => rfl
  · rfl

@[simp] theorem length_shut : (h.shut id).sockets.length = h.sockets.length := by
  unfold shut
  split
  · exact length_alter
  · rfl

@[simp] theorem entries_shut : (h.shut id).entries = h.entries := by
  unfold shut
  split <;> rfl

@[simp] theorem accepted_shut : (h.shut id).accepted = h.accepted := by
  unfold shut
  split <;> rfl

@[simp] theorem refusals_shut : (h.shut id).refusals = h.refusals := by
  unfold shut
  split <;> rfl

theorem isOpen_shut :
    (h.shut id).isOpen other = if id = other then false else h.isOpen other := by
  unfold shut
  split
  · rename_i opened
    refine (?_ : (h.alter id fun s => { s with isOpen := false }).isOpen other = _)
    simp only [isOpen, sock?_alter]
    split
    · cases h.sock? other <;> rfl
    · rfl
  · rename_i closed
    split
    · rename_i same
      exact same ▸ Bool.eq_false_iff.mpr closed
    · rfl

theorem server_shut : (h.shut id).server = h.server := by
  unfold shut
  split <;> rfl

theorem aged_shut (h : Host T) (id : SocketId) : Aged h (h.shut id) := by
  intro orderly
  refine ⟨⟨server_shut.trans orderly.server, ?_, ?_⟩, ?_⟩
  · rw [pending_shut]; exact orderly.pending_nodup
  · rw [pending_shut, length_shut]; exact orderly.pending_lt
  · refine ⟨by simp, by simp, ?_, ?_, by simp, by simp⟩
    · intro other _ closed
      rw [isOpen_shut, closed, ite_self]
    · intro other waits
      rw [pending_shut] at waits
      exact .inl waits

end Shut

section Dequeue
variable {id first other : SocketId} {rest : List SocketId} {s : Sock T}

@[simp] theorem isOpen_dequeue : (h.dequeue id rest).isOpen other = h.isOpen other :=
  isOpen_alter fun _ => rfl

@[simp] theorem number_dequeue : (h.dequeue id rest).number other = h.number other :=
  number_alter fun _ => rfl

theorem dequeue_perm (known : h.sock? id = some s) (queue : s.backlog = first :: rest) :
    (first :: (h.dequeue id rest).pending).Perm h.pending := by
  have moved := pending_alter_perm (f := fun s => { s with backlog := rest }) known
  rw [queue, ← List.singleton_append, ← List.append_assoc] at moved
  exact List.perm_append_singleton _ _ |>.symm.trans ((List.perm_append_right_iff rest).mp moved)

theorem aged_dequeue (known : h.sock? id = some s) (queue : s.backlog = first :: rest) :
    Aged h (h.dequeue id rest) := by
  have moved := dequeue_perm known queue
  have before (other : SocketId) (waits : other ∈ (h.dequeue id rest).pending) :
      other ∈ h.pending := moved.mem_iff.mp (List.mem_cons_of_mem _ waits)
  intro orderly
  refine ⟨⟨orderly.server, ?_, ?_⟩, ?_⟩
  · exact (List.nodup_cons.mp (moved.nodup_iff.mpr orderly.pending_nodup)).2
  · intro other waits
    exact length_alter (h := h) ▸ orderly.pending_lt other (before other waits)
  · exact ⟨Nat.le_of_eq length_alter.symm, fun _ _ => number_dequeue,
      fun _ _ closed => isOpen_dequeue.trans closed, fun other waits => .inl (before other waits),
      fun _ told => told, fun _ kept => kept⟩

end Dequeue

-- Nothing is opened, closed or accepted.
structure Holds (h h' : Host T) : Prop extends Ages h h' where
  isOpen : ∀ id, id < h.sockets.length → h'.isOpen id = h.isOpen id
  admitted : h'.accepted = h.accepted

theorem Holds.trans {a b c : Host T} (one : Holds a b) (two : Holds b c) : Holds a c where
  toAges := one.toAges.trans two.toAges
  isOpen id bounded :=
    (two.isOpen id (Nat.lt_of_lt_of_le bounded one.grown)).trans (one.isOpen id bounded)
  admitted := two.admitted.trans one.admitted

theorem Stays.holds (stays : Stays h h') : Holds h h' :=
  ⟨stays.ages, stays.isOpen, stays.accepted⟩

theorem settled_take (h : Host T) (id : SocketId) (limit : Nat) :
    Settled h (h.alter id fun s => { s with unread := s.unread.drop limit }) :=
  settled_alter (fun _ => rfl) (fun _ => rfl) fun _ => rfl

theorem settled_hasten [Clock T] (h : Host T) (id : SocketId) :
    Settled h (h.alter id fun s => { s with timeout := some Clock.zero }) :=
  settled_alter (fun _ => rfl) (fun _ => rfl) fun _ => rfl

-- What an attempt to stop watching an open socket comes to: its number is free, or what is watched
-- is as before and it was not watched, unless the system failed where it does not fail.
structure Released (h : Host T) (id : SocketId) (h' : Host T) : Prop where
  orderly : h'.Orderly
  holds : Holds h h'
  entries : h'.entries = h.entries.filter (·.1 ≠ h.number id) ∨
    h'.entries = h.entries ∧ (h'.Spared → h.watching? (h.number id) = none)

theorem Released.settled {id : SocketId} {h'' : Host T} (released : Released h id h')
    (path : Settled h' h'') : Released h id h'' := by
  obtain ⟨orderly, stays⟩ := path released.orderly
  refine ⟨orderly, released.holds.trans stays.holds, ?_⟩
  rw [stays.entries]
  refine released.entries.imp_right fun kept => ⟨kept.1, fun spared => kept.2 fun r there => ?_⟩
  exact spared r (stays.refusals r there)

theorem ne_of_unwatched {fd : Int} {e : Int × Entry} (unwatched : h.watching? fd = none)
    (there : e ∈ h.entries) : e.1 ≠ fd := by
  have absent := List.lookup_eq_none_iff.mp unwatched e there
  exact fun same => by simp [same] at absent

theorem keys_watch {id : SocketId} {conn : Option SocketId} (keys : (h.entries.map Prod.fst).Nodup)
    (unwatched : h.watching? (h.number id) = none) :
    ((h.watch id conn).entries.map Prod.fst).Nodup := by
  simp only [watch, List.map_append]
  refine List.nodup_append.mpr ⟨keys, List.nodup_singleton _, ?_⟩
  intro fd there other last same
  obtain ⟨e, listed, rfl⟩ := List.mem_map.mp there
  exact ne_of_unwatched unwatched listed (same.trans (List.mem_singleton.mp last))

section Entries
variable {id : SocketId} {e : Int × Entry}

theorem Released.survives (released : Released h id h') (there : e ∈ h.entries)
    (differs : e.1 ≠ h.number id) : e ∈ h'.entries := by
  cases released.entries with
  | inl freed =>
    rw [freed]
    exact List.mem_filter.mpr ⟨there, by simpa using differs⟩
  | inr kept =>
    rw [kept.1]
    exact there

theorem Released.sublist (released : Released h id h') : h'.entries.Sublist h.entries := by
  cases released.entries with
  | inl freed =>
    rw [freed]
    exact List.filter_sublist
  | inr kept =>
    rw [kept.1]

theorem Released.frees (released : Released h id h') (spared : h'.Spared) (there : e ∈ h'.entries) :
    e.1 ≠ h.number id := by
  cases released.entries with
  | inl freed =>
    rw [freed] at there
    simpa using (List.mem_filter.mp there).2
  | inr kept =>
    rw [kept.1] at there
    exact ne_of_unwatched (kept.2 spared) there

end Entries

theorem watches_of_isOpen {id : SocketId} (opened : h.isOpen id = true) :
    h.watches id = (h.watching? (h.number id)).isSome := by
  simp [watches, opened]

end Host

open Run

theorem unregister_released {T P : Type} [Clock T] [Resumable T P] [Idle T P] {m : Machine T P}
    {id : SocketId} (orderly : m.host.Orderly) (opened : m.host.isOpen id = true) :
    Ends (Os.unregister id) m
      (fun _ m' => m'.prog = m.prog ∧ m.host.Released id m'.host)
      (fun f m' => m'.prog = m.prog ∧ m.host.Released id m'.host ∧
        (f.isKey = false → f.isValue = false → ¬m'.host.Documented)) := by
  have bounded := Host.lt_of_isOpen opened
  refine (unregister_ends Host.calm_settled.steady).imp ?_ ?_
  · intro _ m' reached
    obtain ⟨h, path, effect⟩ := reached
    obtain ⟨after, stays⟩ := path orderly
    have still := (stays.isOpen id bounded).trans opened
    obtain ⟨-, rfl⟩ | ⟨closed, -⟩ := effect
    · have step := (Host.aged_entries h (h.entries.filter (·.1 ≠ h.number id))) after
      refine ⟨rfl, step.1, stays.holds.trans ⟨step.2, fun _ _ => rfl, rfl⟩, .inl ?_⟩
      rw [← stays.number id bounded, ← stays.entries]
      rfl
    · exact absurd (closed.symm.trans still) Bool.false_ne_true
  · intro f m' reached
    obtain ⟨h, path, rfl⟩ := reached
    obtain ⟨after, stays⟩ := path orderly
    have noted := (Host.calm_settled (T := T)).note h .unregister id f
    obtain ⟨last, noting⟩ := noted after
    have all := stays.trans noting
    refine ⟨rfl, ⟨last, all.holds, .inr ⟨all.entries, fun spared => ?_⟩⟩, ?_⟩
    · have unwatched := spared _ List.mem_cons_self rfl
      rw [Host.watches_of_isOpen ((stays.isOpen id bounded).trans opened)] at unwatched
      rw [stays.number id bounded, Host.watching?, stays.entries] at unwatched
      exact Option.isSome_eq_false_iff.mp unwatched |> Option.isNone_iff_eq_none.mp
    · intro key value
      exact Host.undocumented (by simp [Refusal.documented, key, value])

end StreamRelay
