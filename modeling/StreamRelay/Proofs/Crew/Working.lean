import StreamRelay.Proofs.Crew.Hands
import StreamRelay.Proofs.Host.Lasting
import StreamRelay.Proofs.Host.Workload

namespace StreamRelay
variable {T P : Type}
open Run

namespace Host

def SameThreads (h h' : Host T) : Prop := h'.threads = h.threads

theorem sameThreads_raise (h : Host T) (flag : Flag) : SameThreads h (h.raise flag) := by
  cases flag <;> rfl

theorem sameThreads_apply [Clock T] (h : Host T) (action : Action T) :
    SameThreads h (h.apply action) := by
  have same (h : Host T) : SameThreads h h := rfl
  have chain {a b c : Host T} (one : SameThreads a b) (two : SameThreads b c) : SameThreads a c :=
    Eq.trans two one
  exact apply_of same chain (fun ⟨_, _, _, _, _, _, _, _⟩ => same _) sameThreads_raise h action

theorem calm_sameThreads [Clock T] : Calm (T := T) SameThreads where
  refl _ := rfl
  trans one two := Eq.trans two one
  emit _ _ _ := rfl
  note _ _ _ _ := rfl
  clock _ _ := rfl
  stderr _ _ := rfl
  console _ _ := rfl
  faults _ _ := rfl
  batches _ _ := rfl
  apply := sameThreads_apply

-- With the sockets that a turn is about, and the receipts of data that are new.
structure Goes (own : List SocketId) (new : List (SocketId × Bytes)) (h h' : Host T) : Prop where
  ages : Ages h h'
  accepted : h'.accepted = h.accepted
  takings : h'.takings = h.takings ++ new
  directed : Directed h h'
  threads : h'.threads = h.threads
  others : ∀ id s, id ∉ own → h.sock? id = some s →
    ∃ s', h'.sock? id = some s' ∧ s'.isOpen = s.isOpen ∧ s'.timeout = s.timeout

def Going (own : List SocketId) (new : List (SocketId × Bytes)) (h h' : Host T) : Prop :=
  h.Orderly → h'.Orderly ∧ Goes own new h h'

-- A turn adds nothing to what is still to come, as the surroundings may.
def Working (own : List SocketId) (new : List (SocketId × Bytes)) (h h' : Host T) : Prop :=
  Going own new h h' ∧ Worn h h'

section Going
variable {own own' : List SocketId} {new new' : List (SocketId × Bytes)} {a b c h h' : Host T}

theorem Goes.trans (one : Goes own new a b) (two : Goes own' new' b c) :
    Goes (own ++ own') (new ++ new') a c where
  ages := one.ages.trans two.ages
  accepted := two.accepted.trans one.accepted
  takings := by rw [two.takings, one.takings, List.append_assoc]
  directed := one.directed.trans two.directed
  threads := two.threads.trans one.threads
  others id s other known := by
    rw [List.mem_append, not_or] at other
    obtain ⟨s', middle, opened, timeout⟩ := one.others id s other.1 known
    obtain ⟨s'', last, opened', timeout'⟩ := two.others id s' other.2 middle
    exact ⟨s'', last, opened'.trans opened, timeout'.trans timeout⟩

theorem Goes.isOpen {id : SocketId} (goes : Goes own new h h') (other : id ∉ own)
    (bounded : id < h.sockets.length) : h'.isOpen id = h.isOpen id := by
  have known : h.sock? id = some h.sockets[id] := List.getElem?_eq_getElem bounded
  obtain ⟨s', later, same, -⟩ := goes.others id _ other known
  rw [isOpen_of_sock? later, isOpen_of_sock? known, same]

theorem Going.trans (one : Going own new a b) (two : Going own' new' b c) :
    Going (own ++ own') (new ++ new') a c := by
  intro orderly
  obtain ⟨middle, first⟩ := one orderly
  obtain ⟨last, second⟩ := two middle
  exact ⟨last, first.trans second⟩

theorem Working.trans (one : Working own new a b) (two : Working own' new' b c) :
    Working (own ++ own') (new ++ new') a c :=
  ⟨one.1.trans two.1, one.2.trans two.2⟩

theorem going_of_flows (settled : Settled h h') (flows : Flows h h') (directed : Directed h h')
    (threads : SameThreads h h') : Going [] [] h h' := by
  intro orderly
  obtain ⟨after, stays⟩ := settled orderly
  refine ⟨after, stays.ages, stays.accepted, ?_, directed, threads, ?_⟩
  · rw [takings, takings, flows.receipts, List.append_nil]
  · intro id s _ known
    obtain ⟨s', more, later, longer⟩ := flows.old id s known
    have kept := stays.isOpen id (lt_of_sock? known)
    rw [isOpen_of_sock? later, isOpen_of_sock? known] at kept
    exact ⟨s', later, kept, longer.timeout⟩

theorem calm_going [Clock T] : Calm (T := T) (Going [] []) := by
  have parts := (calm_settled.and calm_flows).and (calm_directed.and (calm_sameThreads (T := T)))
  apply parts.mono
  · exact fun all => going_of_flows all.1.1 all.1.2 all.2.1 all.2.2
  · exact fun one two => one.trans two

theorem steady_working [Clock T] : Steady (T := T) (Working [] []) :=
  calm_going.steady.and steady_worn

theorem working_of_same (sockets : h'.sockets = h.sockets) (waiting : h'.waiting = h.waiting)
    (server : h'.server = h.server) (accepted : h'.accepted = h.accepted)
    (refusals : h'.refusals = h.refusals) (receipts : h'.receipts = h.receipts)
    (threads : h'.threads = h.threads) (worn : Worn h h') : Working [] [] h h' := by
  have aged := aged_of_same sockets waiting server (fun _ told => accepted ▸ told) refusals
  refine ⟨fun orderly => ?_, worn⟩
  obtain ⟨after, ages⟩ := aged orderly
  refine ⟨after, ages, accepted, ?_, worn.toDirected, threads, ?_⟩
  · rw [takings, takings, receipts, List.append_nil]
  · intro id s _ known
    exact ⟨s, by rw [sock?, sockets]; exact known, rfl, rfl⟩

theorem working_emit (h : Host T) (e : Event T) (accepted : (h.emit e).accepted = h.accepted)
    (receipts : (h.emit e).receipts = h.receipts) : Working [] [] h (h.emit e) :=
  working_of_same rfl rfl rfl accepted rfl receipts rfl (worn_emit h e)

theorem takings_emit_received (h : Host T) (id : SocketId) (data : Bytes) :
    (h.emit (.received id data)).takings =
      h.takings ++ if data.isEmpty then [] else [(id, data)] := by
  rw [takings, receipts_emit_received, List.filter_append]
  cases data <;> rfl

theorem working_received (h : Host T) (id : SocketId) (data : Bytes) :
    Working [] (if data.isEmpty then [] else [(id, data)]) h (h.emit (.received id data)) := by
  refine ⟨fun orderly => ?_, worn_emit h _⟩
  obtain ⟨after, ages⟩ := aged_emit h (.received id data) orderly
  refine ⟨after, ages, rfl, takings_emit_received h id data, directed_same rfl, rfl, ?_⟩
  exact fun other s _ known => ⟨s, known, rfl, rfl⟩

theorem working_raise (h : Host T) : Working [] [] h (h.raise .service) := by
  have told := working_emit h (.told .service) rfl rfl
  exact told.trans (working_of_same rfl rfl rfl rfl rfl rfl rfl
    ⟨⟨fun _ => rfl, rfl, rfl, rfl⟩, id, Nat.le_refl _, seen_same rfl⟩)

theorem working_alter {id : SocketId} {f : Sock T → Sock T} (fd : ∀ s, (f s).fd = s.fd)
    (opened : ∀ s, (f s).isOpen = s.isOpen) (backlog : ∀ s, (f s).backlog = s.backlog)
    (lighter : ∀ s, (f s).weight ≤ s.weight) : Working [id] [] h (h.alter id f) := by
  refine ⟨fun orderly => ?_, directed_same rfl, fun told => told, lighter_alter fun s _ => lighter s,
    seen_same rfl⟩
  have settled : Settled h (h.alter id f) := settled_alter fd opened backlog
  obtain ⟨after, stays⟩ := settled orderly
  refine ⟨after, stays.ages, rfl, (List.append_nil _).symm, directed_same rfl, rfl, ?_⟩
  intro other s differs known
  have same : id ≠ other := fun same => differs (same ▸ List.mem_singleton_self id)
  exact ⟨s, by rw [sock?_alter_ne same, known], rfl, rfl⟩

theorem working_shut (h : Host T) (id : SocketId) : Working [id] [] h (h.shut id) := by
  refine ⟨fun orderly => ?_, worn_shut h id⟩
  obtain ⟨after, ages⟩ := aged_shut h id orderly
  have flows := flows_shut h id
  refine ⟨after, ages, accepted_shut, ?_, directed_shut h id, ?_, ?_⟩
  · rw [takings, takings, flows.receipts, List.append_nil]
  · unfold shut
    split <;> rfl
  · intro other s differs known
    have same : id ≠ other := fun same => differs (same ▸ List.mem_singleton_self id)
    have still : (h.shut id).sock? other = some s := by
      unfold shut
      split
      · exact (sock?_alter_ne same).trans known
      · exact known
    exact ⟨s, still, rfl, rfl⟩

-- A socket that is nobody's client and waits for nobody.
structure Aside (h : Host T) (id : SocketId) : Prop where
  accepted : id ∉ h.accepted
  idle : id ∉ h.pending
  bounded : id < h.sockets.length

namespace Aside
variable {id : SocketId}

theorem going (aside : Aside h id) (goes : Goes own new h h') : Aside h' id := by
  obtain ⟨accepted, idle, bounded⟩ := aside
  refine ⟨goes.accepted ▸ accepted, fun waits => ?_, Nat.lt_of_lt_of_le bounded goes.ages.grown⟩
  cases goes.ages.pending id waits with
  | inl before => exact idle before
  | inr new => exact Nat.not_lt.mpr new bounded

theorem accept {listener first : SocketId} {rest : List SocketId} {s : Sock T} {fd : Int}
    (aside : Aside h id) (known : h.sock? listener = some s) (queue : s.backlog = first :: rest) :
    Aside ((h.dequeue listener rest).emit (.accept first fd)) id := by
  obtain ⟨accepted, idle, bounded⟩ := aside
  have moved := dequeue_perm known queue
  refine ⟨fun there => ?_, fun waits => ?_, Nat.lt_of_lt_of_eq bounded length_alter.symm⟩
  · cases List.mem_cons.mp there with
    | inl same => exact idle (moved.mem_iff.mp (same ▸ List.mem_cons_self))
    | inr before => exact accepted before
  · exact idle (moved.mem_iff.mp (List.mem_cons_of_mem _ waits))

end Aside

-- What touches no socket may be said of any.
theorem Working.widen (work : Working [] new h h') : Working own new h h' := by
  refine ⟨fun orderly => ?_, work.2⟩
  obtain ⟨after, goes⟩ := work.1 orderly
  refine ⟨after, goes.ages, goes.accepted, goes.takings, goes.directed, goes.threads, ?_⟩
  exact fun id s _ known => goes.others id s List.not_mem_nil known

end Going
end Host

end StreamRelay
