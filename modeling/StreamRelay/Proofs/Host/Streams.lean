import StreamRelay.Proofs.Host.Standing
import StreamRelay.Proofs.Host.Calls

namespace StreamRelay
variable {T : Type}

namespace Host

def history {β : Type} (h : Host T) (pick : Event T → Option β) : List β :=
  (h.trace.filterMap fun stamped => pick stamped.event).reverse

def receipts (h : Host T) : List (SocketId × Bytes) := h.history fun
  | .received id data => some (id, data)
  | _ => none

def offers (h : Host T) : List (Option SocketId × Bytes) := h.history fun
  | .offered origin data => some (origin, data)
  | _ => none

def datagrams (h : Host T) : List (Bytes × Address) := h.history fun
  | .datagram _ data dest => some (data, dest)
  | _ => none

def received (h : Host T) (id : SocketId) : List Bytes :=
  h.receipts.filterMap fun receipt => if receipt.1 = id then some receipt.2 else none

def offered (h : Host T) (id : SocketId) : List Bytes :=
  h.offers.filterMap fun offer => if offer.1 = some id then some offer.2 else none

theorem history_emit {β : Type} (h : Host T) (e : Event T) (pick : Event T → Option β) :
    (h.emit e).history pick = h.history pick ++ (pick e).toList := by
  simp only [history, emit, List.filterMap_cons]
  cases pick e <;> simp

theorem history_silent {β : Type} {h h' : Host T} {pick : Event T → Option β}
    {new : List (Stamped T)} (grown : h'.trace = new ++ h.trace)
    (silent : ∀ s ∈ new, pick s.event = none) : h'.history pick = h.history pick := by
  have nothing : new.filterMap (fun stamped => pick stamped.event) = [] :=
    List.filterMap_eq_nil_iff.mpr silent
  rw [history, grown, List.filterMap_append, nothing, List.nil_append, history]

theorem receipts_emit_received (h : Host T) (id : SocketId) (data : Bytes) :
    (h.emit (.received id data)).receipts = h.receipts ++ [(id, data)] := history_emit h _ _

theorem offers_emit_offered (h : Host T) (origin : Option SocketId) (data : Bytes) :
    (h.emit (.offered origin data)).offers = h.offers ++ [(origin, data)] := history_emit h _ _

theorem datagrams_emit_datagram (h : Host T) (fd : Int) (data : Bytes) (dest : Address) :
    (h.emit (.datagram fd data dest)).datagrams = h.datagrams ++ [(data, dest)] :=
  history_emit h _ _

theorem received_emit_received (h : Host T) (id other : SocketId) (data : Bytes) :
    (h.emit (.received id data)).received other =
      h.received other ++ if id = other then [data] else [] := by
  simp only [received, receipts_emit_received, List.filterMap_append, List.filterMap_cons,
    List.filterMap_nil]
  split <;> simp_all

-- A socket as it is later: more has arrived on it and nobody has read of it.
structure Longer (s s' : Sock T) (more : Bytes) : Prop where
  arrived : s'.arrived = s.arrived ++ more
  unread : s'.unread = s.unread ++ more
  late : s.ended = true → s'.ended = true ∧ s'.late = s.late ++ more
  timeout : s'.timeout = s.timeout
  transport : s'.transport = s.transport
  shut : s'.shut = s.shut

theorem Longer.refl (s : Sock T) : Longer s s [] :=
  ⟨by simp, by simp, fun ended => ⟨ended, by simp⟩, rfl, rfl, rfl⟩

theorem Longer.trans {a b c : Sock T} {x y : Bytes} (one : Longer a b x) (two : Longer b c y) :
    Longer a c (x ++ y) where
  arrived := by rw [two.arrived, one.arrived, List.append_assoc]
  unread := by rw [two.unread, one.unread, List.append_assoc]
  late ended := by
    obtain ⟨middle, first⟩ := one.late ended
    obtain ⟨last, second⟩ := two.late middle
    exact ⟨last, by rw [second, first, List.append_assoc]⟩
  timeout := two.timeout.trans one.timeout
  transport := two.transport.trans one.transport
  shut := two.shut.trans one.shut

structure Flows (h h' : Host T) : Prop where
  receipts : h'.receipts = h.receipts
  offers : h'.offers = h.offers
  datagrams : h'.datagrams = h.datagrams
  grown : h.sockets.length ≤ h'.sockets.length
  old : ∀ id s, h.sock? id = some s → ∃ s' more, h'.sock? id = some s' ∧ Longer s s' more
  new : ∀ id s, h.sockets.length ≤ id → h'.sock? id = some s →
    s.unread = s.arrived ∧ s.shut = false

theorem Flows.refl (h : Host T) : Flows h h := by
  refine ⟨rfl, rfl, rfl, Nat.le_refl _, fun id s known => ⟨s, [], known, .refl s⟩, ?_⟩
  intro id s new known
  exact absurd (lt_of_sock? known) (Nat.not_lt.mpr new)

theorem Flows.trans {a b c : Host T} (one : Flows a b) (two : Flows b c) : Flows a c where
  receipts := two.receipts.trans one.receipts
  offers := two.offers.trans one.offers
  datagrams := two.datagrams.trans one.datagrams
  grown := Nat.le_trans one.grown two.grown
  old id s known := by
    obtain ⟨s', x, middle, first⟩ := one.old id s known
    obtain ⟨s'', y, last, second⟩ := two.old id s' middle
    exact ⟨s'', x ++ y, last, first.trans second⟩
  new id s new known := by
    cases Nat.lt_or_ge id b.sockets.length with
    | inl bounded =>
      obtain ⟨s', middle⟩ := exists_sock? bounded
      obtain ⟨s'', more, last, grown⟩ := two.old id s' middle
      rw [known] at last
      cases Option.some.inj last
      obtain ⟨read, shut⟩ := one.new id s' new middle
      exact ⟨by rw [grown.unread, grown.arrived, read], by rw [grown.shut, shut]⟩
    | inr newer => exact two.new id s newer known

theorem flows_of_same {h h' : Host T} (sockets : h'.sockets = h.sockets)
    (receipts : h'.receipts = h.receipts) (offers : h'.offers = h.offers)
    (datagrams : h'.datagrams = h.datagrams) : Flows h h' := by
  have sock (id : SocketId) : h'.sock? id = h.sock? id := by simp only [sock?, sockets]
  refine ⟨receipts, offers, datagrams, Nat.le_of_eq (by rw [sockets]), ?_, ?_⟩
  · intro id s known
    exact ⟨s, [], (sock id).trans known, .refl s⟩
  · intro id s new known
    rw [sock] at known
    exact absurd (lt_of_sock? known) (Nat.not_lt.mpr new)

theorem flows_alter {h : Host T} {id : SocketId} {f : Sock T → Sock T} {more : Bytes}
    (longer : ∀ s, Longer s (f s) more) : Flows h (h.alter id f) := by
  refine ⟨rfl, rfl, rfl, Nat.le_of_eq length_alter.symm, ?_, ?_⟩
  · intro other s known
    by_cases same : id = other
    · subst same
      exact ⟨f s, more, by rw [sock?_alter_self, known]; rfl, longer s⟩
    · exact ⟨s, [], by rw [sock?_alter_ne same, known], .refl s⟩
  · intro other s new known
    have bounded := lt_of_sock? known
    rw [length_alter] at bounded
    exact absurd bounded (Nat.not_lt.mpr new)

theorem flows_alterClient {h : Host T} {client : Nat} {f : Sock T → Sock T} {more : Bytes}
    (longer : ∀ s, Longer s (f s) more) : Flows h (h.alterClient client f) :=
  alterClient_of (.refl h) (fun _ => flows_alter longer) client

theorem longer_of_same {s s' : Sock T} (arrived : s'.arrived = s.arrived)
    (unread : s'.unread = s.unread) (ended : s.ended = true → s'.ended = true)
    (late : s'.late = s.late) (timeout : s'.timeout = s.timeout)
    (transport : s'.transport = s.transport) (shut : s'.shut = s.shut) : Longer s s' [] :=
  ⟨by simp [arrived], by simp [unread], fun gone => ⟨ended gone, by simp [late]⟩, timeout,
    transport, shut⟩

theorem flows_append {h : Host T} {s : Sock T} {n : Nat} (unread : s.unread = s.arrived)
    (shut : s.shut = false) : Flows h { h with sockets := h.sockets ++ [s], clients := n } := by
  refine ⟨rfl, rfl, rfl, by simp, ?_, ?_⟩
  · intro id s known
    refine ⟨s, [], ?_, .refl s⟩
    simpa only [sock?, sock?_append (lt_of_sock? known)] using known
  · intro id other new known
    have bounded := lt_of_sock? known
    simp only [List.length_append, List.length_singleton] at bounded
    have last : id = h.sockets.length := Nat.le_antisymm (Nat.le_of_lt_succ bounded) new
    subst last
    simp only [sock?, List.getElem?_concat_length, Option.some.injEq] at known
    subst known
    exact ⟨unread, shut⟩

theorem flows_connect [Clock T] (h : Host T) (c : Incoming) : Flows h (h.apply (.connect c)) := by
  obtain ⟨s, built, id, -, unread, shut⟩ := addClient_appends h c
  have added := flows_append (h := h) (n := h.clients + 1) unread shut
  rw [← built] at added
  rw [apply_connect]
  cases h.listener with
  | none => exact added.trans (flows_of_same rfl rfl rfl rfl)
  | some l =>
    exact added.trans (flows_alter fun s => longer_of_same rfl rfl (fun gone => gone) rfl rfl rfl rfl)

theorem flows_emit (h : Host T) (e : Event T) (plain : e.plain = true) : Flows h (h.emit e) := by
  cases e <;> first | exact flows_of_same rfl rfl rfl rfl | exact absurd plain Bool.false_ne_true

theorem flows_raise (h : Host T) (flag : Flag) : Flows h (h.raise flag) := by
  have told := flows_emit h (.told flag) rfl
  cases flag <;> exact told.trans (flows_of_same rfl rfl rfl rfl)

theorem flows_deliver (h : Host T) (signal : Signal) : Flows h (h.deliver signal) :=
  deliver_of .refl flows_raise h signal

theorem flows_stop (h : Host T) : Flows h h.stop := stop_of .refl .trans flows_raise h

theorem flows_apply [Clock T] (h : Host T) (action : Action T) : Flows h (h.apply action) := by
  cases action with
  | connect c => exact flows_connect h c
  | send client data =>
    exact flows_alterClient fun s =>
      ⟨rfl, rfl, fun ended => ⟨ended, by simp [ended]⟩, rfl, rfl, rfl⟩
  | finish | reset =>
    exact flows_alterClient fun s => longer_of_same rfl rfl (fun gone => by simp [gone]) rfl rfl rfl rfl
  | console | consoleEnd | advance | fault => exact flows_of_same rfl rfl rfl rfl
  | datagram data =>
    simp only [apply]
    split
    · exact flows_alter fun s => longer_of_same rfl rfl (fun gone => gone) rfl rfl rfl rfl
    · exact flows_of_same rfl rfl rfl rfl
  | closeServer =>
    simp only [apply]
    cases h.server with
    | none => exact .refl h
    | some id =>
      exact flows_alter fun s => longer_of_same rfl rfl (fun gone => gone) rfl rfl rfl rfl
  | stop => exact flows_stop h
  | signal s => exact flows_deliver h s
  | runWorker => exact .refl h

-- A socket of a later host is an older one further on, or a new one of which nobody has read.
theorem Flows.origin {h h' : Host T} {id : SocketId} {s' : Sock T} (flows : Flows h h')
    (known : h'.sock? id = some s') :
    (∃ s more, h.sock? id = some s ∧ Longer s s' more) ∨
      h.sockets.length ≤ id ∧ s'.unread = s'.arrived ∧ s'.shut = false := by
  cases Nat.lt_or_ge id h.sockets.length with
  | inl bounded =>
    obtain ⟨s, before⟩ := exists_sock? bounded
    obtain ⟨later, more, after, longer⟩ := flows.old id s before
    rw [known] at after
    cases Option.some.inj after
    exact .inl ⟨s, more, before, longer⟩
  | inr new => exact .inr ⟨new, flows.new id s' new known⟩

theorem Flows.received {h h' : Host T} (flows : Flows h h') (id : SocketId) :
    h'.received id = h.received id := by rw [Host.received, flows.receipts, ← Host.received]

theorem flows_shut (h : Host T) (id : SocketId) : Flows h (h.shut id) := by
  unfold shut
  split
  · have still : Flows h (h.alter id fun s => { s with isOpen := false }) :=
      flows_alter fun _ => longer_of_same rfl rfl (fun gone => gone) rfl rfl rfl rfl
    exact still.trans (flows_of_same rfl rfl rfl rfl)
  · exact .refl h

theorem flows_dequeue (h : Host T) (id : SocketId) (rest : List SocketId) :
    Flows h (h.dequeue id rest) :=
  flows_alter fun _ => longer_of_same rfl rfl (fun gone => gone) rfl rfl rfl rfl

theorem calm_flows [Clock T] : Calm (T := T) Flows where
  refl := .refl
  trans := .trans
  emit := flows_emit
  note _ _ _ _ := flows_of_same rfl rfl rfl rfl
  clock _ _ := flows_of_same rfl rfl rfl rfl
  stderr _ _ := flows_of_same rfl rfl rfl rfl
  console _ _ := flows_of_same rfl rfl rfl rfl
  faults _ _ := flows_of_same rfl rfl rfl rfl
  batches _ _ := flows_of_same rfl rfl rfl rfl
  apply := flows_apply

end Host
end StreamRelay
