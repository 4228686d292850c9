import StreamRelay.Proofs.Host.Lasting
import StreamRelay.Proofs.Host.Streams
import StreamRelay.Proofs.Relay.Attempts
import StreamRelay.Proofs.Sums

namespace StreamRelay
variable {T : Type}
open Run

namespace Wire

def arrive (bytes : Bytes) (s : Sock T) : Sock T :=
  { s with
    arrived := s.arrived ++ bytes, unread := s.unread ++ bytes
    late := if s.ended then s.late ++ bytes else s.late }

def consume (limit : Nat) (s : Sock T) : Sock T := { s with unread := s.unread.drop limit }

end Wire

def Action.onSock (action : Action T) (s : Sock T) : Sock T :=
  match action with
  | .send _ data => Wire.arrive data s
  | .finish _ => { s with ended := true }
  | .reset _ => { s with reset := true }
  | _ => s

def Action.concerns (h : Host T) (id : SocketId) : Action T → Bool
  | .send n _ | .finish n | .reset n => h.client? n = some id
  | _ => false

namespace Fault

def actions : Fault T → List (Action T)
  | incident actions _ => actions
  | _ => []

def failure? : Fault T → Option Failure
  | incident _ failure => failure
  | _ => none

def onSock (fault : Fault T) (s : Sock T) : Sock T := fault.actions.foldl (fun s a => a.onSock s) s

-- Whether only the socket's own client does something, and the system reports errors of its own.
def own (h : Host T) (id : SocketId) (fault : Fault T) : Bool :=
  fault.actions.all (·.concerns h id) && fault.failure?.all Failure.isOs

end Fault

-- What a socket may become while its connection lasts.
structure Sock.Akin (s s' : Sock T) : Prop where
  fd : s'.fd = s.fd
  isOpen : s'.isOpen = s.isOpen
  client : s'.client = s.client

namespace Sock.Akin

theorem refl (s : Sock T) : Akin s s := ⟨rfl, rfl, rfl⟩

theorem trans {a b c : Sock T} (one : Akin a b) (two : Akin b c) : Akin a c :=
  ⟨two.fd.trans one.fd, two.isOpen.trans one.isOpen, two.client.trans one.client⟩

end Sock.Akin

namespace Host
variable {h : Host T} {id other : SocketId} {s s' : Sock T}

def put (h : Host T) (id : SocketId) (s : Sock T) : Host T := { h with sockets := h.sockets.set id s }

theorem alter_eq_put (known : h.sock? id = some s) (f : Sock T → Sock T) :
    h.alter id f = h.put id (f s) := by
  have modified : h.sockets.modify id f = h.sockets.set id (f s) := by
    simp only [sock?] at known
    rw [List.modify_eq_set_getElem?, known]
    rfl
  rw [alter, modified, put]

theorem put_put : (h.put id s).put id s' = h.put id s' := by
  simp [put]

theorem put_self (known : h.sock? id = some s) : h.put id s = h := by
  have same : h.sockets.set id s = h.sockets := by
    obtain ⟨bounded, there⟩ := List.getElem?_eq_some_iff.mp known
    rw [← there, List.set_getElem_self]
  rw [put, same]

theorem sock?_put (known : h.sock? id = some s) : (h.put id s').sock? id = some s' := by
  simp only [sock?, put, List.getElem?_set_self (lt_of_sock? known)]

theorem sock?_put_ne (differs : id ≠ other) : (h.put id s').sock? other = h.sock? other := by
  simp only [sock?, put, List.getElem?_set_ne differs]

theorem clients_put (known : h.sock? id = some s) (same : s'.client = s.client) :
    (h.put id s').sockets.map Sock.client = h.sockets.map Sock.client := by
  calc (h.put id s').sockets.map Sock.client
      = (h.put id s).sockets.map Sock.client := by simp only [put, List.map_set, same]
    _ = h.sockets.map Sock.client := by rw [put_self known]

theorem isOpen_put (known : h.sock? id = some s) (same : s'.isOpen = s.isOpen) :
    (h.put id s').isOpen other = h.isOpen other := by
  by_cases here : id = other
  · subst here
    simp only [isOpen, sock?_put known, known, Option.map_some, same]
  · simp only [isOpen, sock?_put_ne here]

end Host

theorem Action.akin (action : Action T) (s : Sock T) : Sock.Akin s (action.onSock s) := by
  cases action <;> exact ⟨rfl, rfl, rfl⟩

theorem Fault.akin (fault : Fault T) (s : Sock T) : Sock.Akin s (fault.onSock s) := by
  unfold Fault.onSock
  induction fault.actions generalizing s with
  | nil => exact .refl s
  | cons action rest ih => exact (action.akin s).trans (ih _)

namespace Wire

def spent (h : Host T) (rest : List (Call × Fault T)) : Host T := { h with faults := rest }

theorem exists_of_isOpen {h : Host T} {id : SocketId} (opened : h.isOpen id = true) :
    ∃ s, h.sock? id = some s ∧ s.isOpen = true := by
  rw [Host.isOpen] at opened
  cases there : h.sock? id with
  | none => simp [there] at opened
  | some s => exact ⟨s, rfl, by simpa [there] using opened⟩

theorem client?_of_clients {h h' : Host T}
    (same : h'.sockets.map Sock.client = h.sockets.map Sock.client) (client : Nat) :
    h'.client? client = h.client? client := by
  have byClient (items : List (Sock T)) : items.findIdx? (·.client = some client) =
      (items.map Sock.client).findIdx? (· = some client) := by
    rw [List.findIdx?_map]
    rfl
  simp only [Host.client?]
  rw [byClient, byClient, same]

theorem length_le_weigh (faults : List (Call × Fault T)) :
    faults.length ≤ weigh (fun f => f.2.weight) faults := by
  induction faults with
  | nil => exact Nat.le_refl 0
  | cons fault rest ih =>
    obtain ⟨call, fault⟩ := fault
    have heavy : 1 ≤ fault.weight := by cases fault <;> simp [Fault.weight]
    simp only [List.length_cons, weigh]
    omega

def answer [Clock T] (limit : Nat) (s : Sock T) : Except Failure Bytes × Sock T :=
  if s.reset then (.error (.os .resetByPeer), s)
  else if !s.unread.isEmpty then (.ok (s.unread.take limit), consume limit s)
  else if s.ended || s.shut || s.waits then (.ok [], s)
  else (.error (.os .wouldBlock), s)

def read [Clock T] (limit : Nat) (fault : Fault T) (s : Sock T) : Except Failure Bytes × Sock T :=
  match fault.failure? with
  | some cause => (.error cause, fault.onSock s)
  | none => answer limit (fault.onSock s)

theorem read_akin [Clock T] (limit : Nat) (fault : Fault T) (s : Sock T) :
    Sock.Akin s (read limit fault s).2 := by
  have before := fault.akin s
  unfold read answer
  split
  · exact before
  · split
    · exact before
    · split
      · exact before.trans ⟨rfl, rfl, rfl⟩
      · split
        · exact before
        · exact before

theorem isOs_of_read [Clock T] {limit : Nat} {fault : Fault T} {s : Sock T} {h : Host T}
    {id : SocketId} {f : Failure} (own : fault.own h id = true)
    (broken : (read limit fault s).1 = .error f) : f.isOs = true := by
  obtain ⟨-, documented⟩ := Bool.and_eq_true_iff.mp own
  cases planned : fault.failure? with
  | some cause =>
    rw [read, planned] at broken
    cases broken
    simpa [planned] using documented
  | none =>
    rw [read, planned] at broken
    dsimp only [answer] at broken
    split at broken
    · cases broken
      rfl
    · split at broken
      · cases broken
      · split at broken
        · cases broken
        · cases broken
          rfl

-- What became of a host on which only one socket was in use: its script was used up so far, and this
-- was offered on its behalf.
structure Went (id : SocketId) (s : Sock T) (rest : List (Call × Fault T)) (new : List Bytes)
    (h h' : Host T) : Prop where
  sockets : h'.sockets = h.sockets.set id s
  entries : h'.entries = h.entries
  faults : h'.faults = rest
  offers : h'.offers = h.offers ++ new.map fun data => (some id, data)
  serviceStop : h'.serviceStop = h.serviceStop

section Went
variable {id : SocketId} {s s' : Sock T} {rest rest' : List (Call × Fault T)} {new more : List Bytes}
  {h h' h'' : Host T}

theorem Went.refl (known : h.sock? id = some s) : Went id s h.faults [] h h :=
  ⟨congrArg Host.sockets (Host.put_self known).symm, rfl, rfl, (List.append_nil _).symm, rfl⟩

theorem Went.met (h : Host T) (id : SocketId) (s : Sock T) (rest : List (Call × Fault T)) :
    Went id s rest [] h ((spent h rest).put id s) :=
  ⟨rfl, rfl, rfl, (List.append_nil _).symm, rfl⟩

theorem Went.trans (one : Went id s rest new h h') (two : Went id s' rest' more h' h'') :
    Went id s' rest' (new ++ more) h h'' where
  sockets := by rw [two.sockets, one.sockets, List.set_set]
  entries := two.entries.trans one.entries
  faults := two.faults
  offers := by rw [two.offers, one.offers, List.map_append, List.append_assoc]
  serviceStop := two.serviceStop.trans one.serviceStop

theorem Went.emit (went : Went id s rest new h h') {e : Event T}
    (other : ∀ origin data, e ≠ .offered origin data) : Went id s rest new h (h'.emit e) where
  sockets := went.sockets
  entries := went.entries
  faults := went.faults
  offers := by
    rw [Host.offers, Host.history_emit]
    cases e with
    | offered origin data => exact absurd rfl (other origin data)
    | _ => exact (List.append_nil _).trans went.offers
  serviceStop := went.serviceStop

theorem Went.offered (went : Went id s rest new h h') (data : Bytes) :
    Went id s rest (new ++ [data]) h (h'.emit (.offered (some id) data)) where
  sockets := went.sockets
  entries := went.entries
  faults := went.faults
  offers := by
    rw [Host.offers_emit_offered, went.offers, List.map_append, List.append_assoc]
    rfl
  serviceStop := went.serviceStop

theorem Went.note (went : Went id s rest new h h') (call : Call) (sock : SocketId) (cause : Failure) :
    Went id s rest new h (h'.note call sock cause) :=
  ⟨went.sockets, went.entries, went.faults, went.offers, went.serviceStop⟩

theorem Went.logged (went : Went id s rest new h h') (level : Level) (text : String) :
    Went id s rest new h (h'.logged level text) := by
  have logged := went.emit (e := .log level text) nofun
  unfold Host.logged
  split
  · exact logged
  · split
    · exact ⟨went.sockets, went.entries, went.faults, went.offers, went.serviceStop⟩
    · exact went

theorem Went.known (went : Went id s rest new h h') (bounded : id < h.sockets.length) :
    h'.sock? id = some s := by
  rw [Host.sock?, went.sockets, List.getElem?_set_self bounded]

theorem Went.isOpen (went : Went id s' rest new h h') (known : h.sock? id = some s)
    (same : s'.isOpen = s.isOpen) (other : SocketId) : h'.isOpen other = h.isOpen other := by
  have put : h'.isOpen other = (h.put id s').isOpen other := by
    simp only [Host.isOpen, Host.sock?, went.sockets, Host.put]
  rw [put, Host.isOpen_put known same]

theorem Went.clients (went : Went id s' rest new h h') (known : h.sock? id = some s)
    (same : s'.client = s.client) : h'.sockets.map Sock.client = h.sockets.map Sock.client := by
  rw [went.sockets]
  exact Host.clients_put known same

end Went

theorem concerns_of_clients {h h' : Host T}
    (same : h'.sockets.map Sock.client = h.sockets.map Sock.client) (id : SocketId)
    (action : Action T) : action.concerns h' id = action.concerns h id := by
  cases action <;> simp only [Action.concerns, client?_of_clients same]

theorem own_of_clients {h h' : Host T}
    (same : h'.sockets.map Sock.client = h.sockets.map Sock.client) (id : SocketId)
    (fault : Fault T) : fault.own h' id = fault.own h id := by
  simp only [Fault.own, concerns_of_clients same]

section Calls
variable {P : Type} [Clock T] [Resumable T P] {id : SocketId} {s : Sock T}
  {rest : List (Call × Fault T)} {fault : Fault T} {h : Host T} {p : P}

theorem ends_incident {call : Call} {actions : List (Action T)} {failure : Option Failure}
    (next : h.faults = (call, .incident actions failure) :: rest)
    {done : Option Int → Machine T P → Prop} {failed : Failure → Machine T P → Prop} :
    Ends (Os.incident call) ⟨h, p⟩ done failed ↔ Ends (Os.happen actions) ⟨spent h rest, p⟩
        (fun _ m' => failure.elim (done none m') fun f => failed f m') failed := by
  have taken {done : Option (Fault T) → Machine T P → Prop} {failed} :
      Ends (Os.takeFault call) ⟨h, p⟩ done failed ↔
        done (some (.incident actions failure)) ⟨spent h rest, p⟩ := by
    unfold Ends Os.takeFault
    simp [next, Host.popFault, Wire.spent]
  rw [Os.incident, ends_bind, taken]
  simp only [ends_bind]
  cases failure <;> rfl

omit [Clock T] in
theorem popFault_free {call : Call} {faults : List (Call × Fault T)}
    (free : ∀ e ∈ faults, e.1 ≠ call) : Host.popFault call faults = (none, faults) := by
  induction faults with
  | nil => rfl
  | cons entry rest ih =>
    obtain ⟨first, others⟩ := List.forall_mem_cons.mp free
    simp only [Host.popFault, if_neg first, ih others]

theorem ends_undisturbed {call : Call}
    (free : ∀ e ∈ h.faults, e.1 ≠ call)
    {done : Option Int → Machine T P → Prop} {failed : Failure → Machine T P → Prop} :
    Ends (Os.incident call) ⟨h, p⟩ done failed ↔ done none ⟨h, p⟩ := by
  have taken {done : Option (Fault T) → Machine T P → Prop} {failed} :
      Ends (Os.takeFault call) ⟨h, p⟩ done failed ↔ done none ⟨h, p⟩ := by
    unfold Ends Os.takeFault
    simp only [popFault_free free]
  rw [Os.incident, ends_bind, taken]
  rfl

theorem perform_own {action : Action T} (known : h.sock? id = some s)
    (own : action.concerns h id = true) :
    Os.perform action ⟨h, p⟩ = .ok () ⟨h.put id (action.onSock s), p⟩ := by
  rw [← Host.alter_eq_put known action.onSock]
  cases action with
  | send n data | finish n | reset n =>
    have client : h.client? n = some id := of_decide_eq_true own
    simp only [Os.perform, Bind.bind, EStateM.bind, Run.asks, Host.stranger?, client, Option.isSome_some,
      if_true, Run.changes, Host.apply, Host.alterClient, Option.elim]
    rfl
  | _ => cases own

theorem happen_own {actions : List (Action T)} (known : h.sock? id = some s)
    (own : ∀ action ∈ actions, action.concerns h id = true) :
    Os.happen actions ⟨h, p⟩ =
      .ok () ⟨h.put id (actions.foldl (fun s action => action.onSock s) s), p⟩ := by
  induction actions generalizing h s with
  | nil =>
    rw [List.foldl_nil, Host.put_self known]
    rfl
  | cons action rest ih =>
    obtain ⟨first, others⟩ := List.forall_mem_cons.mp own
    have next := perform_own (p := p) known first
    have clients := Host.clients_put known (action.akin s).client
    have later := ih (Host.sock?_put known) fun a there =>
      (concerns_of_clients clients id a).trans (others a there)
    rw [Os.happen, List.forM_eq_forM] at later ⊢
    simp only [List.forM_cons, Bind.bind, EStateM.bind, next]
    rw [later, Host.put_put, List.foldl_cons]

theorem incident_own {call : Call} (next : h.faults = (call, fault) :: rest)
    (known : h.sock? id = some s) (own : fault.own h id = true) :
    Ends (Os.incident call) ⟨h, p⟩
      (fun _ m' => fault.failure? = none ∧ m' = ⟨(spent h rest).put id (fault.onSock s), p⟩)
      fun cause m' => fault.failure? = some cause ∧ m' = ⟨(spent h rest).put id (fault.onSock s), p⟩ := by
  have idle : (spent h rest).put id s = spent h rest := Host.put_self known
  cases fault with
  | incident actions failure =>
    obtain ⟨mine, -⟩ := Bool.and_eq_true_iff.mp own
    have ran : Os.happen actions ⟨spent h rest, p⟩ = .ok () ⟨(spent h rest).put id _, p⟩ :=
      happen_own known (List.all_eq_true.mp mine)
    apply (ends_incident next).mpr
    rw [Ends, ran]
    cases failure with
    | none => exact ⟨rfl, rfl⟩
    | some cause => exact ⟨rfl, rfl⟩
  | pass | count n =>
    have taken : ∀ fault : Fault T, h.faults = (call, fault) :: rest →
        Os.takeFault (P := P) call ⟨h, p⟩ = .ok (some fault) ⟨spent h rest, p⟩ := by
      intro fault next
      simp only [Os.takeFault, next, Host.popFault, if_true]
      rfl
    have ran := taken _ next
    rw [Os.incident, ends_bind, Ends, ran]
    exact ⟨rfl, congrArg (Machine.mk · p) idle.symm⟩

theorem receive_own (limit : Nat) (next : h.faults = (.receive, fault) :: rest)
    (known : h.sock? id = some s) (isOpen : s.isOpen = true) (own : fault.own h id = true) :
    Ends (outcome (Os.receive id limit)) ⟨h, p⟩
      (fun result m' => result = (read limit fault s).1 ∧
        ∃ h', Went id (read limit fault s).2 rest [] h h' ∧ m' = ⟨h', p⟩)
      fun _ _ => False := by
  let begun := h.emit (.begun .receive (some id))
  let arrived := (spent begun rest).put id (fault.onSock s)
  have there : arrived.sock? id = some (fault.onSock s) :=
    Host.sock?_put (h := spent begun rest) (s := s) known
  have opened : (fault.onSock s).isOpen = true := (fault.akin s).isOpen.trans isOpen
  have went : Went id (fault.onSock s) rest [] h arrived :=
    ((Went.refl known).emit (e := .begun .receive (some id)) (by simp)).trans (.met begun id _ rest)
  have mine : fault.own begun id = true := own
  simp only [Os.receive, ends_outcome, ends_noting, ends_bind, ends_emits]
  apply (incident_own (p := p) (h := begun) next known mine).imp
  · rintro _ _ ⟨calm, rfl⟩
    have reads : read limit fault s = answer limit (fault.onSock s) := by rw [read, calm]
    rw [reads]
    apply (ends_opened there opened).mpr
    unfold answer
    split
    · exact ⟨rfl, _, went.note .receive id _, rfl⟩
    · split
      · simp only [ends_bind, Os.alter, ends_changes, ends_emits, ends_pure]
        rw [Host.alter_eq_put there]
        have read := went.trans (.met arrived id (consume limit (fault.onSock s)) rest)
        exact ⟨trivial, _, read.emit (e := .received id _) (by simp), rfl⟩
      · split
        · simp only [ends_bind, ends_emits, ends_pure]
          exact ⟨trivial, _, went.emit (e := .received id []) (by simp), rfl⟩
        · exact ⟨rfl, _, went.note .receive id _, rfl⟩
  · rintro cause _ ⟨broken, rfl⟩
    have reads : read limit fault s = (.error cause, fault.onSock s) := by rw [read, broken]
    rw [reads]
    exact ⟨rfl, _, went.note .receive id cause, rfl⟩

theorem sendTo_own {refusal : Option Failure} (refuses : ∀ f ∈ refusal, f.isOs = true)
    (next : h.faults = (.sendTo, .incident [] refusal) :: rest) (known : h.sock? id = some s)
    (sink : SocketId) (bytes : Bytes) (dest : Address) :
    Ends (Os.sendTo sink bytes dest) ⟨h, p⟩
      (fun _ m' => (refusal.isNone && h.isOpen sink) = true ∧
        ∃ h', Went id s rest [] h h' ∧ m' = ⟨h', p⟩)
      fun f m' => (refusal.isNone && h.isOpen sink) = false ∧ f.isOs = true ∧
        ∃ h', Went id s rest [] h h' ∧ m' = ⟨h', p⟩ := by
  let begun := h.emit (.begun .sendTo (some sink))
  have mine : (Fault.incident [] refusal : Fault T).own begun id = true := by
    cases refusal with
    | none => rfl
    | some f => simpa [Fault.own, Fault.actions, Fault.failure?] using refuses f rfl
  have went : Went id s rest [] h ((spent begun rest).put id s) :=
    ((Went.refl known).emit (e := .begun .sendTo (some sink)) (by simp)).trans (.met begun id s rest)
  simp only [Os.sendTo, ends_noting, ends_bind, ends_emits]
  apply (incident_own (p := p) (h := begun) next known mine).imp
  · rintro _ _ ⟨calm, rfl⟩
    have calm : refusal = none := calm
    have same : ((spent begun rest).put id s).isOpen sink = h.isOpen sink :=
      Host.isOpen_put (h := spent begun rest) known rfl
    apply opened_ends.imp
    · rintro sock _ ⟨rfl, there, isOpen⟩
      have clear : h.isOpen sink = true := by
        have there : ((spent begun rest).put id s).sock? sink = some sock := there
        rw [← same, Host.isOpen, there]
        exact isOpen
      exact ⟨by simp [calm, clear], _, went.emit (e := .datagram _ _ _) (by simp), rfl⟩
    · rintro f _ ⟨rfl, rfl, shut⟩
      have lost : h.isOpen sink = false := same.symm.trans shut
      exact ⟨by simp [calm, lost], rfl, _, went.note .sendTo sink _, rfl⟩
  · rintro cause _ ⟨broken, rfl⟩
    have broken : refusal = some cause := broken
    exact ⟨by simp [broken], refuses cause broken, _, went.note .sendTo sink cause, rfl⟩

theorem forward_own {refusal : Option Failure} (refuses : ∀ f ∈ refusal, f.isOs = true)
    (next : h.faults = (.sendTo, .incident [] refusal) :: rest) (known : h.sock? id = some s)
    (sink : Sink) (bytes : Bytes) :
    Ends (sink.forward bytes (some id)) ⟨h, p⟩
      (fun sent m' => sent = (refusal.isNone && h.isOpen sink.sock) ∧
        ∃ h', Went id s rest [bytes] h h' ∧ m' = ⟨h', p⟩)
      fun _ _ => False := by
  have offered := (Went.refl known).offered bytes
  apply ends_forward
  apply (sendTo_own refuses (h := h.emit (.offered (some id) bytes)) next known sink.sock bytes
    sink.dest).imp
  · intro _ m' reached h' remarked
    obtain ⟨sent, _, went, rfl⟩ := reached
    have went := offered.trans went
    exact ⟨sent.symm, h', remarked.keeps went went.logged, rfl⟩
  · intro f m' reached
    obtain ⟨lost, other, _, went, rfl⟩ := reached
    have went := offered.trans went
    constructor
    · exact fun _ h' remarked => ⟨lost.symm, h', remarked.keeps went went.logged, rfl⟩
    · exact fun foreign => Bool.false_ne_true (foreign.symm.trans other)

end Calls

-- A payload, and the system's reason not to send its datagram if it has one.
abbrev Payload := Bytes × Option Failure

def Payload.sent (clear : Bool) (payload : Payload) : Bool := payload.2.isNone && clear

def tally (clear : Bool) (outcome : Option Relay.ReadOutcome) (payloads : List Payload) : Counters where
  datagrams := (payloads.filter (Payload.sent clear)).length
  bytes := ((payloads.filter (Payload.sent clear)).flatMap (·.1)).length
  forwardFailures := (payloads.filter fun payload => !payload.sent clear).length
  readErrors := if outcome = some .failed then 1 else 0

theorem add_tally_nil (c : Counters) (clear : Bool) (outcome : Option Relay.ReadOutcome)
    (good : outcome ≠ some .failed) : c + tally clear outcome [] = c := by
  apply Counters.ext_fields <;> simp [tally, good]

theorem tally_append (clear : Bool) {calm : Option Relay.ReadOutcome} (good : calm ≠ some .failed)
    (outcome : Option Relay.ReadOutcome) (one two : List Payload) :
    tally clear calm one + tally clear outcome two = tally clear outcome (one ++ two) := by
  apply Counters.ext_fields <;> simp [tally, good]

theorem add_tally_failed (c : Counters) (clear : Bool) :
    c + tally clear (some .failed) [] = { c with readErrors := c.readErrors + 1 } := by
  apply Counters.ext_fields <;> simp [tally]

theorem add_tally_payload (c : Counters) (clear : Bool) (payload : Payload) :
    c + tally clear none [payload] = c.forwarded (payload.sent clear) payload.1.length := by
  cases sent : payload.sent clear <;> apply Counters.ext_fields <;> simp [tally, Counters.forwarded, sent]

def once [Clock T] (limit : Nat) (fault : Fault T) (refusal : Option Failure) (s : Sock T) :
    Option Relay.ReadOutcome × List Payload :=
  match (read limit fault s).1 with
  | .error f =>
    (if f.wouldBlock then some .stillOpen else if f.interrupted then none else some .failed, [])
  | .ok data => if data.isEmpty then (some .disconnect, []) else (none, [(data, refusal)])

def demands (fault : Fault T) (payloads : List Payload) : List (Call × Fault T) :=
  (.receive, fault) :: payloads.map fun payload => (.sendTo, .incident [] payload.2)

structure Passage (T : Type) where
  outcome : Relay.ReadOutcome
  payloads : List Payload
  script : List (Call × Fault T)
  last : Sock T

def Passage.after (passage : Passage T) (fault : Fault T) (payloads : List Payload) : Passage T :=
  { passage with
    payloads := payloads ++ passage.payloads
    script := demands fault payloads ++ passage.script }

-- One read after the other, for as long as the fuel lasts: each meets the next fault that is planned
-- for it, and each payload is refused or not by its place.
def follow [Clock T] (limit : Nat) : Nat → List (Fault T) → (Nat → Option Failure) → Sock T → Passage T
  | 0, _, _, s => ⟨.stillOpen, [], [], s⟩
  | fuel + 1, plan, refusals, s =>
    let fault := plan.headD .pass
    let next := (read limit fault s).2
    match once limit fault (refusals 0) s with
    | (some outcome, payloads) => ⟨outcome, payloads, demands fault payloads, next⟩
    | (none, payloads) =>
      (follow limit fuel plan.tail (fun k => refusals (k + payloads.length)) next).after fault payloads

section Follow
variable [Clock T] {limit fuel : Nat} {plan : List (Fault T)} {refusals : Nat → Option Failure}
  {s : Sock T} {payloads : List Payload} {outcome : Relay.ReadOutcome}

theorem follow_stops (here : once limit (plan.headD .pass) (refusals 0) s = (some outcome, payloads)) :
    follow limit (fuel + 1) plan refusals s = ⟨outcome, payloads, demands (plan.headD .pass) payloads,
      (read limit (plan.headD .pass) s).2⟩ := by
  simp only [follow, here]

theorem follow_goes (here : once limit (plan.headD .pass) (refusals 0) s = (none, payloads)) :
    follow limit (fuel + 1) plan refusals s =
      (follow limit fuel plan.tail (fun k => refusals (k + payloads.length))
        (read limit (plan.headD .pass) s).2).after (plan.headD .pass) payloads := by
  simp only [follow, here]

theorem follow_akin : s.Akin (follow limit fuel plan refusals s).last := by
  induction fuel generalizing plan refusals s with
  | zero => exact .refl s
  | succ fuel ih =>
    have first := read_akin limit (plan.headD .pass) s
    rcases here : once limit (plan.headD .pass) (refusals 0) s with ⟨_ | outcome, payloads⟩
    · rw [follow_goes here]
      exact first.trans ih
    · rw [follow_stops here]
      exact first

omit [Clock T] in
theorem calls_demands (fault : Fault T) (payloads : List Payload) :
    ∀ e ∈ demands fault payloads, e.1 = .receive ∨ e.1 = .sendTo := by
  intro e there
  rcases List.mem_cons.mp there with rfl | sent
  · exact .inl rfl
  · obtain ⟨payload, -, rfl⟩ := List.mem_map.mp sent
    exact .inr rfl

theorem follow_calls : ∀ e ∈ (follow limit fuel plan refusals s).script,
    e.1 = .receive ∨ e.1 = .sendTo := by
  induction fuel generalizing plan refusals s with
  | zero => exact nofun
  | succ fuel ih =>
    rcases here : once limit (plan.headD .pass) (refusals 0) s with ⟨_ | outcome, payloads⟩
    · rw [follow_goes here]
      intro e there
      rcases List.mem_append.mp there with now | later
      · exact calls_demands _ payloads e now
      · exact ih e later
    · rw [follow_stops here]
      exact calls_demands _ payloads

-- What is still to be used up: what is planned, and what nobody has read.
def left (plan : List (Fault T)) (s : Sock T) : Nat := Fault.weights plan + s.unread.length

omit [Clock T] in
theorem unread_onSock (fault : Fault T) (s : Sock T) :
    (fault.onSock s).unread.length < s.unread.length + fault.weight := by
  have each (action : Action T) (s : Sock T) :
      (action.onSock s).unread.length ≤ s.unread.length + action.weight := by
    cases action <;> simp [Action.onSock, Action.weight, arrive]
  have all (actions : List (Action T)) (s : Sock T) :
      (actions.foldl (fun s a => a.onSock s) s).unread.length ≤
        s.unread.length + Action.weights actions := by
    induction actions generalizing s with
    | nil => simp [Action.weights]
    | cons action rest ih =>
      have first := each action s
      have later := ih (action.onSock s)
      simp only [List.foldl_cons, Action.weights]
      omega
  cases fault with
  | incident actions failure =>
    have all := all actions s
    simp only [Fault.onSock, Fault.actions, Fault.weight]
    omega
  | pass | count => simp [Fault.onSock, Fault.actions, Fault.weight]

theorem unread_answer (limit : Nat) (s : Sock T) :
    (answer limit s).2.unread.length ≤ s.unread.length := by
  unfold answer
  split
  · exact Nat.le_refl _
  · split
    · simp [consume]
    · split
      · exact Nat.le_refl _
      · exact Nat.le_refl _

theorem unread_read (limit : Nat) (fault : Fault T) (s : Sock T) :
    (read limit fault s).2.unread.length ≤ (fault.onSock s).unread.length := by
  unfold read
  split
  · exact Nat.le_refl _
  · exact unread_answer limit _

theorem unread_once (onward : (once limit .pass (refusals 0) s).1 = none) :
    (read limit .pass s).2.unread.length < s.unread.length := by
  have reads : read limit .pass s = answer limit s := rfl
  rw [once, reads] at onward
  rw [reads]
  unfold answer at onward ⊢
  by_cases reset : s.reset = true
  · rw [if_pos reset] at onward
    cases onward
  · rw [if_neg reset] at onward ⊢
    by_cases unread : s.unread = []
    · simp only [unread, List.isEmpty_nil, Bool.not_true, Bool.false_eq_true, if_false] at onward
      split at onward
      · rename_i f ends
        split at ends
        · cases ends
        · cases ends
          cases onward
      · rename_i data ends
        split at ends
        · cases ends
          cases onward
        · cases ends
    · have some : (!s.unread.isEmpty) = true := by simpa using unread
      rw [if_pos some] at onward ⊢
      dsimp only at onward
      split at onward
      · exact absurd onward nofun
      · rename_i taken
        have length := List.length_pos_of_ne_nil unread
        have limited : limit ≠ 0 := by
          rintro rfl
          exact taken (by simp)
        simp only [consume, List.length_drop]
        omega

theorem left_lt (onward : (once limit (plan.headD .pass) (refusals 0) s).1 = none) :
    left plan.tail (read limit (plan.headD .pass) s).2 < left plan s := by
  cases plan with
  | nil =>
    have less := unread_once onward
    simpa [left, Fault.weights] using less
  | cons fault rest =>
    have arrived := unread_onSock fault s
    have read := unread_read limit fault s
    simp only [left, Fault.weights, List.tail_cons, List.headD_cons]
    omega

theorem follow_enough {more : Nat} (enough : left plan s < fuel)
    (long : (follow limit fuel plan refusals s).script.length ≤ more) :
    follow limit more plan refusals s = follow limit fuel plan refusals s := by
  induction fuel generalizing plan refusals s more with
  | zero => exact absurd enough (Nat.not_lt_zero _)
  | succ fuel ih =>
    rcases here : once limit (plan.headD .pass) (refusals 0) s with ⟨_ | outcome, payloads⟩
    · rw [follow_goes here] at long ⊢
      have less := left_lt (congrArg Prod.fst here)
      cases more with
      | zero => simp [Passage.after, demands] at long
      | succ more =>
        rw [follow_goes here]
        refine congrArg (Passage.after · _ payloads) (ih (by omega) ?_)
        simp only [Passage.after, demands, List.length_append, List.length_cons] at long
        omega
    · rw [follow_stops here] at long ⊢
      cases more with
      | zero => simp [demands] at long
      | succ more => exact follow_stops here

end Follow

section Relay
variable [Clock T] {conn : Connection} {s : Sock T} {rest : List (Call × Fault T)} {fault : Fault T}
  {refusal : Option Failure} {h : Host T} {r : Relay T}

omit [Clock T] in
theorem count_tally {f : Counters → Counters} {clear : Bool} {outcome : Option Relay.ReadOutcome}
    {payloads : List Payload} (same : ∀ c, c + tally clear outcome payloads = f c) (r : Relay T) :
    Relay.count f r = Relay.count (· + tally clear outcome payloads) r :=
  congrArg (Relay.count · r) (funext fun c => (same c).symm)

omit [Clock T] in
theorem count_idle (clear : Bool) {outcome : Option Relay.ReadOutcome} (good : outcome ≠ some .failed)
    (r : Relay T) : r = Relay.count (· + tally clear outcome []) r :=
  count_tally (f := id) (fun c => add_tally_nil c clear outcome good) r

omit [Clock T] in
theorem own_headD {plan : List (Fault T)} (own : ∀ fault ∈ plan, fault.own h conn.sock = true) :
    (plan.headD .pass).own h conn.sock = true := by
  cases plan with
  | nil => rfl
  | cons fault later => exact own fault List.mem_cons_self

theorem readOnce_own (refuses : ∀ f ∈ refusal, f.isOs = true)
    (next : h.faults = demands fault (once r.config.bufferSize fault refusal s).2 ++ rest)
    (known : h.sock? conn.sock = some s) (isOpen : s.isOpen = true)
    (own : fault.own h conn.sock = true) :
    Ends (Relay.readOnce conn) ⟨h, r⟩
      (fun result m' =>
        let here := once r.config.bufferSize fault refusal s
        result = here.1 ∧
        ∃ h', Went conn.sock (read r.config.bufferSize fault s).2 rest (here.2.map Prod.fst) h h' ∧
          m' = ⟨h', Relay.count (· + tally (h.isOpen r.sink.sock) here.1 here.2) r⟩)
      fun _ _ => False := by
  have receives := receive_own (p := r) r.config.bufferSize next known isOpen own
  rw [ends_outcome] at receives
  apply Relay.ends_readOnce
  apply receives.imp
  · rintro data _ ⟨same, h', went, rfl⟩
    have step : once r.config.bufferSize fault refusal s =
        if data.isEmpty then (some .disconnect, []) else (none, [(data, refusal)]) := by
      rw [once, ← same]
    rw [step] at went ⊢
    constructor
    case stops =>
      intro nothing
      rw [if_pos nothing] at went ⊢
      exact ⟨rfl, _, went.logged .info _, congrArg (Machine.mk _) (count_idle _ (by simp) r)⟩
    case passes =>
      intro something
      have something : ¬data.isEmpty = true := Bool.eq_false_iff.mp something
      rw [if_neg something] at went ⊢
      have akin := read_akin r.config.bufferSize fault s
      have there := went.known (Host.lt_of_sock? known)
      apply (forward_own (p := r) refuses went.faults there r.sink data).normally
      rintro sent _ ⟨rfl, h'', gone, rfl⟩
      rw [went.isOpen known akin.isOpen]
      refine ⟨rfl, h'', went.trans gone, congrArg (Machine.mk h'') ?_⟩
      exact count_tally (fun c => add_tally_payload c _ (data, refusal)) r
  · rintro f _ ⟨same, h', went, rfl⟩
    have step : once r.config.bufferSize fault refusal s =
        (if f.wouldBlock then some .stillOpen else if f.interrupted then none else some .failed, []) := by
      rw [once, ← same]
    rw [step] at went ⊢
    constructor
    case blocked =>
      intro blocked
      rw [if_pos blocked]
      exact ⟨rfl, h', went, congrArg (Machine.mk h') (count_idle _ (by simp) r)⟩
    case broken =>
      intro goes broken
      rw [if_neg (Bool.eq_false_iff.mp goes), if_pos broken]
      exact ⟨rfl, h', went, congrArg (Machine.mk h') (count_idle _ (by simp) r)⟩
    case counted =>
      intro goes on _
      rw [if_neg (Bool.eq_false_iff.mp goes), if_neg (Bool.eq_false_iff.mp on)]
      refine ⟨rfl, _, went.logged .warning _, congrArg (Machine.mk _) ?_⟩
      exact count_tally (fun c => add_tally_failed c _) r
    case foreign =>
      exact fun _ _ foreign => absurd (foreign.symm.trans (isOs_of_read own same.symm)) Bool.false_ne_true

-- It reads until nothing is left: by induction on the fuel, in step with the passage.
theorem drainFor_own (fuel : Nat) {plan : List (Fault T)} {refusals : Nat → Option Failure}
    (own : ∀ fault ∈ plan, fault.own h conn.sock = true)
    (refuses : ∀ k, ∀ f ∈ refusals k, f.isOs = true)
    (next : h.faults = (follow r.config.bufferSize fuel plan refusals s).script ++ rest)
    (known : h.sock? conn.sock = some s) (isOpen : s.isOpen = true) :
    Ends (Relay.drainFor conn fuel) ⟨h, r⟩
      (fun result m' =>
        let passage := follow r.config.bufferSize fuel plan refusals s
        result = passage.outcome ∧
        ∃ h', Went conn.sock passage.last rest (passage.payloads.map Prod.fst) h h' ∧
          m' = ⟨h', Relay.count
            (· + tally (h.isOpen r.sink.sock) (some passage.outcome) passage.payloads) r⟩)
      fun _ _ => False := by
  induction fuel generalizing plan refusals s h r with
  | zero =>
    have idle : some Relay.ReadOutcome.stillOpen ≠ some .failed := by simp
    have went := Went.refl known
    rw [next] at went
    exact ⟨rfl, h, went, congrArg (Machine.mk h) (count_idle _ idle r)⟩
  | succ fuel ih =>
    have first := own_headD own
    have akin := read_akin r.config.bufferSize (plan.headD .pass) s
    rw [Relay.drainFor, ends_bind]
    rcases here : once r.config.bufferSize (plan.headD .pass) (refusals 0) s with ⟨_ | outcome, payloads⟩
    · rw [follow_goes here] at next ⊢
      have demanded : h.faults = demands (plan.headD .pass)
          (once r.config.bufferSize (plan.headD .pass) (refusals 0) s).2 ++
          ((follow r.config.bufferSize fuel plan.tail (fun k => refusals (k + payloads.length))
            (read r.config.bufferSize (plan.headD .pass) s).2).script ++ rest) := by
        rw [here, ← List.append_assoc]
        exact next
      have reads := readOnce_own (refuses 0) demanded known isOpen first
      rw [here] at reads
      apply reads.normally
      rintro result _ ⟨rfl, h', went, rfl⟩
      have clients := went.clients known akin.client
      let counted := Relay.count (· + tally (h.isOpen r.sink.sock) none payloads) r
      have still (fault : Fault T) (there : fault ∈ plan.tail) : fault.own h' conn.sock = true :=
        (own_of_clients clients _ fault).trans (own fault (List.mem_of_mem_tail there))
      have later := ih (r := counted) still (fun k => refuses (k + payloads.length)) went.faults
        (went.known (Host.lt_of_sock? known)) (akin.isOpen.trans isOpen)
      apply later.normally
      rintro result _ ⟨rfl, h'', gone, rfl⟩
      have clear : h'.isOpen r.sink.sock = h.isOpen r.sink.sock := went.isOpen known akin.isOpen _
      refine ⟨rfl, h'', ?_, congrArg (Machine.mk h'') ?_⟩
      · rw [Passage.after, List.map_append]
        exact went.trans gone
      · change Relay.count (· + tally (h'.isOpen r.sink.sock) _ _) counted = _
        rw [clear]
        exact congrArg (Relay.count · r) (funext fun c => (add_assoc c _ _).trans
          (congrArg (c + ·) (tally_append _ (by simp) _ payloads _)))
    · rw [follow_stops here] at next ⊢
      have demanded : h.faults = demands (plan.headD .pass)
          (once r.config.bufferSize (plan.headD .pass) (refusals 0) s).2 ++ rest := by
        rw [here]
        exact next
      have reads := readOnce_own (refuses 0) demanded known isOpen first
      rw [here] at reads
      apply reads.normally
      rintro result _ ⟨rfl, h', went, rfl⟩
      exact ⟨rfl, h', went, rfl⟩

end Relay
end Wire
end StreamRelay
