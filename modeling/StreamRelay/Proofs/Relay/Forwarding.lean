import StreamRelay.Proofs.Host.Streams
import StreamRelay.Proofs.Relay.Parts

namespace StreamRelay.Relay
variable {T : Type} [Clock T]
open Run Host

def filled (receipt : SocketId × Bytes) : Bool := !receipt.2.isEmpty

def payload (receipt : SocketId × Bytes) : Option SocketId × Bytes := (some receipt.1, receipt.2)

structure Streams (m : Machine T (Relay T)) : Prop where
  read : ∀ id s, m.host.sock? id = some s → (m.host.received id).flatten ++ s.unread = s.arrived
  shut : ∀ id s, m.host.sock? id = some s → s.shut = false
  born : ∀ receipt ∈ m.host.receipts, receipt.1 < m.host.sockets.length
  -- Calls on the sockets of connections never wait.
  instant : ∀ c ∈ m.prog.table.known, ∃ s, m.host.sock? c.sock = some s ∧ s.timeout = some Clock.zero
  served : ∀ receipt ∈ m.host.receipts, receipt.2.length ≤ m.prog.config.bufferSize ∧
    ∃ c ∈ m.prog.table.known, c.sock = receipt.1
  handed : m.host.offers = (m.host.receipts.filter filled).map payload
  -- A receive that returned nothing had come to the end of the stream.
  dry : ∀ id s, m.host.sock? id = some s → [] ∈ m.host.received id →
    s.ended = true ∧ s.unread <:+ s.late
  sent : (m.host.datagrams.map Prod.fst).Sublist (m.host.offers.map Prod.snd)
  dest : ∀ datagram ∈ m.host.datagrams, datagram.2 = m.prog.sink.dest

theorem Streams.received_new {m : Machine T (Relay T)} (streams : Streams m) {id : SocketId}
    (new : m.host.sockets.length ≤ id) : m.host.received id = [] := by
  refine List.filterMap_eq_nil_iff.mpr fun receipt told => if_neg fun same => ?_
  have bounded := streams.born receipt told
  rw [same] at bounded
  exact Nat.lt_irrefl _ (Nat.lt_of_lt_of_le bounded new)

theorem Streams.flows {m m' : Machine T (Relay T)} (streams : Streams m)
    (path : Hosted Flows m m') : Streams m' := by
  obtain ⟨h', flows, rfl⟩ := path.cases
  constructor
  case read =>
    intro id s' known
    rw [flows.received id]
    rcases flows.origin known with ⟨s, more, before, longer⟩ | ⟨new, unread, -⟩
    · rw [longer.arrived, longer.unread, ← List.append_assoc, streams.read id s before]
    · rw [streams.received_new new, unread]; rfl
  case shut =>
    intro id s' known
    rcases flows.origin known with ⟨s, more, before, longer⟩ | ⟨-, -, shut⟩
    · exact longer.shut.trans (streams.shut id s before)
    · exact shut
  case born =>
    intro receipt told
    rw [flows.receipts] at told
    exact Nat.lt_of_lt_of_le (streams.born receipt told) flows.grown
  case instant =>
    intro c known
    obtain ⟨s, before, instant⟩ := streams.instant c known
    obtain ⟨s', more, after, longer⟩ := flows.old c.sock s before
    exact ⟨s', after, longer.timeout.trans instant⟩
  case served =>
    intro receipt told
    rw [flows.receipts] at told
    exact streams.served receipt told
  case handed => rw [flows.receipts, flows.offers]; exact streams.handed
  case dry =>
    intro id s' known last
    rw [flows.received id] at last
    rcases flows.origin known with ⟨s, more, before, longer⟩ | ⟨new, -, -⟩
    · obtain ⟨ended, suffix⟩ := streams.dry id s before last
      obtain ⟨still, late⟩ := longer.late ended
      refine ⟨still, ?_⟩
      rw [longer.unread, late]
      obtain ⟨first, rest⟩ := suffix
      exact ⟨first, by rw [← rest, List.append_assoc]⟩
    · rw [streams.received_new new] at last
      exact absurd last List.not_mem_nil
  case sent => rw [flows.datagrams, flows.offers]; exact streams.sent
  case dest => rw [flows.datagrams]; exact streams.dest

theorem Streams.edited {h : Host T} {r r' : Relay T} (streams : Streams ⟨h, r⟩)
    (edited : Edited r r') : Streams ⟨h, r'⟩ := by
  have kept (c : Connection) (known : c ∈ r.table.known) :
      ∃ c' ∈ r'.table.known, c'.sock = c.sock := by
    have listed := List.mem_map_of_mem (f := fun c => (c.sock, c.fd)) known
    rw [← edited.known] at listed
    obtain ⟨c', known', same⟩ := List.mem_map.mp listed
    exact ⟨c', known', congrArg Prod.fst same⟩
  refine ⟨streams.read, streams.shut, streams.born, ?_, ?_, streams.handed, streams.dry,
    streams.sent, ?_⟩
  · intro c' known'
    have listed := List.mem_map_of_mem (f := fun c => (c.sock, c.fd)) known'
    rw [edited.known] at listed
    obtain ⟨c, known, same⟩ := List.mem_map.mp listed
    have sock : c.sock = c'.sock := congrArg Prod.fst same
    exact sock ▸ streams.instant c known
  · intro receipt told
    obtain ⟨short, c, known, same⟩ := streams.served receipt told
    obtain ⟨c', known', same'⟩ := kept c known
    exact ⟨edited.config ▸ short, c', known', same'.trans same⟩
  · intro datagram told
    exact edited.sink ▸ streams.dest datagram told

-- What one read takes out of a stream.
def take (h : Host T) (id : SocketId) (data : Bytes) (limit : Nat) : Host T :=
  (h.alter id fun s => { s with unread := s.unread.drop limit }).emit (.received id data)

def pass (h : Host T) (id : SocketId) (data : Bytes) (limit : Nat) : Host T :=
  (take h id data limit).emit (.offered (some id) data)

section Pass
variable {h : Host T} {id other : SocketId} {s' : Sock T} {data : Bytes} {limit : Nat}

omit [Clock T] in
theorem receipts_pass : (pass h id data limit).receipts = h.receipts ++ [(id, data)] :=
  receipts_emit_received (h.alter id _) id data

omit [Clock T] in
theorem offers_pass : (pass h id data limit).offers = h.offers ++ [(some id, data)] :=
  offers_emit_offered (take h id data limit) (some id) data

omit [Clock T] in
theorem received_pass :
    (pass h id data limit).received other = h.received other ++ if id = other then [data] else [] :=
  received_emit_received (h.alter id _) id other data

omit [Clock T] in
theorem origin_pass (known : (pass h id data limit).sock? other = some s') :
    (id = other ∧ ∃ s, h.sock? id = some s ∧ s' = { s with unread := s.unread.drop limit }) ∨
      (id ≠ other ∧ h.sock? other = some s') := by
  have altered := sock?_alter.symm.trans known
  by_cases same : id = other
  · subst same
    rw [if_pos rfl] at altered
    obtain ⟨s, before, eq⟩ := Option.map_eq_some_iff.mp altered
    exact .inl ⟨rfl, s, before, eq.symm⟩
  · rw [if_neg same] at altered
    exact .inr ⟨same, altered⟩

end Pass

omit [Clock T] in
theorem take_ne_nil (r : Relay T) {unread : Bytes} (left : unread ≠ []) :
    unread.take r.config.bufferSize ≠ [] := by
  intro nothing
  cases List.take_eq_nil_iff.mp nothing with
  | inl zero => exact Nat.ne_of_gt r.config.bufferSize_pos zero
  | inr gone => exact left gone

section Next
variable {h : Host T} {r : Relay T} {id : SocketId} {s : Sock T}

theorem Streams.born_next (streams : Streams ⟨h, r⟩) (known : h.sock? id = some s) (data : Bytes) :
    ∀ receipt ∈ h.receipts ++ [(id, data)], receipt.1 < h.sockets.length := by
  intro receipt told
  cases List.mem_append.mp told with
  | inl before => exact streams.born receipt before
  | inr last =>
    rw [List.mem_singleton.mp last]
    exact lt_of_sock? known

theorem Streams.served_next (streams : Streams ⟨h, r⟩) {data : Bytes}
    (short : data.length ≤ r.config.bufferSize) (enrolled : ∃ c ∈ r.table.known, c.sock = id) :
    ∀ receipt ∈ h.receipts ++ [(id, data)], receipt.2.length ≤ r.config.bufferSize ∧
      ∃ c ∈ r.table.known, c.sock = receipt.1 := by
  intro receipt told
  cases List.mem_append.mp told with
  | inl before => exact streams.served receipt before
  | inr last =>
    rw [List.mem_singleton.mp last]
    exact ⟨short, enrolled⟩

theorem Streams.pass (streams : Streams ⟨h, r⟩) (known : h.sock? id = some s)
    (unread : s.unread ≠ []) (enrolled : ∃ c ∈ r.table.known, c.sock = id) :
    Streams ⟨pass h id (s.unread.take r.config.bufferSize) r.config.bufferSize, r⟩ := by
  have something := take_ne_nil r unread
  have length : (Relay.pass h id (s.unread.take r.config.bufferSize)
      r.config.bufferSize).sockets.length = h.sockets.length := length_alter
  constructor
  case read =>
    intro other s' after
    rw [received_pass]
    rcases origin_pass after with ⟨rfl, s, before, rfl⟩ | ⟨differs, before⟩
    · cases Option.some.inj (known.symm.trans before)
      have all := streams.read id s known
      simpa [List.append_assoc, List.take_append_drop] using all
    · rw [if_neg differs, List.append_nil]
      exact streams.read other s' before
  case shut =>
    intro other s' after
    rcases origin_pass after with ⟨-, s, before, rfl⟩ | ⟨-, before⟩
    · exact streams.shut id s before
    · exact streams.shut other s' before
  case born =>
    rw [receipts_pass, length]
    exact streams.born_next known _
  case instant =>
    intro c listed
    obtain ⟨old, before, instant⟩ := streams.instant c listed
    obtain ⟨new, after⟩ := exists_sock? (length.symm ▸ lt_of_sock? before)
    refine ⟨new, after, ?_⟩
    rcases origin_pass after with ⟨same, s, there, rfl⟩ | ⟨-, there⟩
    · rw [same] at there
      cases Option.some.inj (before.symm.trans there)
      exact instant
    · cases Option.some.inj (before.symm.trans there)
      exact instant
  case served =>
    rw [receipts_pass]
    exact streams.served_next (List.length_take_le _ _) enrolled
  case handed =>
    have full : filled (id, s.unread.take r.config.bufferSize) = true := by
      simpa [filled] using something
    rw [receipts_pass, offers_pass, List.filter_append, List.map_append, ← streams.handed]
    simp [full, payload]
  case dry =>
    intro other s' after last
    rw [received_pass] at last
    rcases origin_pass after with ⟨rfl, s, before, rfl⟩ | ⟨differs, before⟩
    · cases Option.some.inj (known.symm.trans before)
      rw [if_pos rfl] at last
      cases List.mem_append.mp last with
      | inl earlier =>
        obtain ⟨ended, suffix⟩ := streams.dry id s known earlier
        exact ⟨ended, (List.drop_suffix _ _).trans suffix⟩
      | inr new => exact absurd (List.mem_singleton.mp new).symm something
    · rw [if_neg differs, List.append_nil] at last
      exact streams.dry other s' before last
  case sent =>
    rw [offers_pass, List.map_append]
    exact streams.sent.trans (List.sublist_append_left _ _)
  case dest => exact streams.dest

theorem Streams.finished (streams : Streams ⟨h, r⟩) (known : h.sock? id = some s)
    (unread : s.unread = []) (ended : s.ended = true) (enrolled : ∃ c ∈ r.table.known, c.sock = id) :
    Streams ⟨h.emit (.received id []), r⟩ := by
  constructor
  case read =>
    intro other s' after
    rw [received_emit_received, List.flatten_append]
    have before := streams.read other s' after
    split <;> simpa using before
  case shut => exact streams.shut
  case born =>
    rw [receipts_emit_received]
    exact streams.born_next known []
  case instant => exact streams.instant
  case served =>
    rw [receipts_emit_received]
    exact streams.served_next (Nat.zero_le _) enrolled
  case handed =>
    rw [receipts_emit_received, List.filter_append]
    refine streams.handed.trans ?_
    simp [filled]
  case dry =>
    intro other s' after last
    by_cases same : id = other
    · subst same
      cases Option.some.inj (known.symm.trans after)
      exact ⟨ended, by rw [unread]; exact List.nil_suffix⟩
    · rw [received_emit_received, if_neg same, List.append_nil] at last
      exact streams.dry other s' after last
  case sent => exact streams.sent
  case dest => exact streams.dest

end Next

def Unsent (h : Host T) (data : Bytes) : Prop :=
  (h.datagrams.map Prod.fst ++ [data]).Sublist (h.offers.map Prod.snd)

theorem Streams.unsent {h : Host T} {r : Relay T} (streams : Streams ⟨h, r⟩) (id : SocketId)
    (data : Bytes) (limit : Nat) : Unsent (Relay.pass h id data limit) data := by
  have before := streams.sent
  rw [Unsent, offers_pass, List.map_append]
  exact before.append (.refl _)

omit [Clock T] in
theorem Unsent.flows {h h' : Host T} {data : Bytes} (unsent : Unsent h data)
    (flows : Flows h h') : Unsent h' data := by
  rw [Unsent, flows.datagrams, flows.offers]
  exact unsent

theorem Streams.datagram {h : Host T} {r : Relay T} (streams : Streams ⟨h, r⟩) {data : Bytes}
    (unsent : Unsent h data) (fd : Int) : Streams ⟨h.emit (.datagram fd data r.sink.dest), r⟩ := by
  refine ⟨streams.read, streams.shut, streams.born, streams.instant, streams.served,
    streams.handed, streams.dry, ?_, ?_⟩
  · rw [datagrams_emit_datagram, List.map_append]
    exact unsent
  · intro datagram told
    rw [datagrams_emit_datagram] at told
    cases List.mem_append.mp told with
    | inl before => exact streams.dest datagram before
    | inr last => rw [List.mem_singleton.mp last]

def hasten (h : Host T) (id : SocketId) : Host T :=
  h.alter id fun s => { s with timeout := some Clock.zero }

theorem Streams.hasten {h : Host T} {r : Relay T} (streams : Streams ⟨h, r⟩) (id : SocketId) :
    Streams ⟨hasten h id, r⟩ := by
  have origin {other : SocketId} {s' : Sock T} (known : (Relay.hasten h id).sock? other = some s') :
      ∃ s t, h.sock? other = some s ∧ s' = { s with timeout := t } ∧
        (t = s.timeout ∨ t = some Clock.zero) := by
    have altered := sock?_alter.symm.trans known
    split at altered
    · obtain ⟨s, before, eq⟩ := Option.map_eq_some_iff.mp altered
      exact ⟨s, _, before, eq.symm, .inr rfl⟩
    · exact ⟨s', _, altered, rfl, .inl rfl⟩
  have same : (Relay.hasten h id).sockets.length = h.sockets.length := length_alter
  refine ⟨?_, ?_, ?_, ?_, streams.served, streams.handed, ?_, streams.sent, streams.dest⟩
  · intro other s' known
    obtain ⟨s, t, before, rfl, -⟩ := origin known
    exact streams.read other s before
  · intro other s' known
    obtain ⟨s, t, before, rfl, -⟩ := origin known
    exact streams.shut other s before
  · intro receipt told
    have bounded := streams.born receipt told
    rw [same]
    exact bounded
  · intro c listed
    obtain ⟨old, before, instant⟩ := streams.instant c listed
    have there : c.sock < (Relay.hasten h id).sockets.length := by
      rw [same]
      exact lt_of_sock? before
    obtain ⟨s', after⟩ := exists_sock? there
    refine ⟨s', after, ?_⟩
    obtain ⟨s, t, there, rfl, kept | new⟩ := origin after
    · cases Option.some.inj (before.symm.trans there)
      exact kept.trans instant
    · exact new
  · intro other s' known last
    obtain ⟨s, t, before, rfl, -⟩ := origin known
    exact streams.dry other s before last

theorem Streams.insert {h : Host T} {r : Relay T} (streams : Streams ⟨h, r⟩) {c : Connection}
    {s : Sock T} (known : h.sock? c.sock = some s) (instant : s.timeout = some Clock.zero) :
    Streams ⟨h, setTable (·.insert c) r⟩ := by
  refine ⟨streams.read, streams.shut, streams.born, ?_, ?_, streams.handed, streams.dry,
    streams.sent, streams.dest⟩
  · intro other listed
    cases List.mem_append.mp listed with
    | inl before => exact streams.instant other before
    | inr last =>
      rw [List.mem_singleton.mp last]
      exact ⟨s, known, instant⟩
  · intro receipt told
    obtain ⟨short, other, listed, same⟩ := streams.served receipt told
    exact ⟨short, other, List.mem_append_left _ listed, same⟩

section Drain
variable {m : Machine T (Relay T)}

theorem forward_streams {sink : Sink} {origin : Option SocketId} {data : Bytes}
    (same : sink = m.prog.sink) (streams : Streams ⟨m.host.emit (.offered origin data), m.prog⟩)
    (unsent : Unsent (m.host.emit (.offered origin data)) data) :
    Ends (sink.forward data origin) m (fun _ m' => Streams m' ∧ m'.prog = m.prog)
      fun _ => Streams := by
  subst same
  have remarks {h h' : Host T} (remarked : h.Remarked h') : Flows h h' :=
    remarked.keeps (calm_flows.steady.refl h) (calm_flows.steady.logged h)
  apply ends_forward
  apply (sendTo_ends calm_flows.steady _ _).imp
  · intro _ m' reached h' remarked
    obtain ⟨h, s, path, -, rfl⟩ := reached
    have still : Streams ⟨h, m.prog⟩ := streams.flows ⟨path, rfl⟩
    have sent := still.datagram (unsent.flows path) s.fd
    exact ⟨sent.flows ⟨remarks remarked, rfl⟩, rfl⟩
  · intro f m' reached
    obtain ⟨h, path, rfl⟩ := reached
    have noted := path.trans (calm_flows.note h .sendTo m.prog.sink.sock f)
    have lost : Streams ⟨h.note .sendTo m.prog.sink.sock f, m.prog⟩ := streams.flows ⟨noted, rfl⟩
    exact ⟨fun _ h' remarked => ⟨lost.flows ⟨remarks remarked, rfl⟩, rfl⟩, fun _ => lost⟩

-- Where streams and connections are after a read: a disconnect is told by an empty receive.
structure After (m : Machine T (Relay T)) (id : SocketId) (disconnected : Prop)
    (m' : Machine T (Relay T)) : Prop where
  streams : Streams m'
  table : m'.prog.table = m.prog.table
  ended : disconnected → [] ∈ m'.host.received id

variable [Clock.Lawful T]

theorem Streams.ended_of_gone {h : Host T} {r : Relay T} {id : SocketId} {s : Sock T}
    (streams : Streams ⟨h, r⟩) (known : h.sock? id = some s)
    (enrolled : ∃ c ∈ r.table.known, c.sock = id) (gone : (s.ended || s.shut || s.waits) = true) :
    s.ended = true := by
  obtain ⟨c, listed, rfl⟩ := enrolled
  obtain ⟨s', there, instant⟩ := streams.instant c listed
  cases Option.some.inj (known.symm.trans there)
  have shut := streams.shut _ _ known
  simpa [shut, Sock.waits, instant, Clock.isZero_zero] using gone

theorem readOnce_streams {conn : Connection} (streams : Streams m)
    (enrolled : ∃ c ∈ m.prog.table.known, c.sock = conn.sock) :
    Ends (readOnce conn) m (fun result => After m conn.sock (result = some .disconnect))
      fun _ => Streams := by
  apply ends_readOnce
  refine (receive_ends calm_flows.steady _).imp ?_ ?_
  · intro data m' reached
    obtain ⟨h, s, path, known, -, taken | nothing⟩ := reached
    · obtain ⟨unread, rfl, rfl⟩ := taken
      have before : Streams ⟨h, m.prog⟩ := streams.flows ⟨path, rfl⟩
      have passed := before.pass known unread enrolled
      have something := List.isEmpty_eq_false_iff.mpr (take_ne_nil m.prog unread)
      constructor
      case stops => exact fun nothing => absurd (something.symm.trans nothing) Bool.false_ne_true
      case passes =>
        intro _
        have forwarded := forward_streams (m := ⟨Relay.take h conn.sock _ _, m.prog⟩) rfl passed
          (before.unsent _ _ _)
        apply forwarded.normally
        intro sent m' reached
        obtain ⟨after, same⟩ := reached
        have table : m'.prog.table = m.prog.table := congrArg Relay.table same
        exact ⟨after.edited ⟨rfl, rfl, rfl, rfl, rfl⟩, table, nofun⟩
    · obtain ⟨unread, gone, rfl, rfl⟩ := nothing
      have before : Streams ⟨h, m.prog⟩ := streams.flows ⟨path, rfl⟩
      have ended := before.ended_of_gone known enrolled gone
      have finished := before.finished known unread ended enrolled
      constructor
      case stops =>
        intro _
        have logged := calm_flows.steady.logged (h.emit (.received conn.sock [])) .info
          ("client " ++ conn.label ++ " disconnected")
        refine ⟨finished.flows ⟨logged, rfl⟩, rfl, fun _ => ?_⟩
        rw [logged.received, received_emit_received, if_pos rfl]
        exact List.mem_append_right _ (List.mem_singleton_self _)
      case passes => exact nofun
  · intro f m' reached
    obtain ⟨h, path, rfl⟩ := reached
    have failed : Streams ⟨h.note .receive conn.sock f, m.prog⟩ :=
      streams.flows ⟨path.trans (calm_flows.note h _ _ _), rfl⟩
    constructor
    case blocked => exact fun _ => ⟨failed, rfl, nofun⟩
    case broken => exact fun _ _ => ⟨failed, rfl, nofun⟩
    case counted =>
      intro _ _ _
      have logged := calm_flows.steady.logged (h.note .receive conn.sock f) .warning
        ("read from " ++ conn.label ++ " failed: " ++ f.message)
      have noted : Streams ⟨(h.note .receive conn.sock f).logged .warning _, m.prog⟩ :=
        failed.flows ⟨logged, rfl⟩
      exact ⟨noted.edited ⟨rfl, rfl, rfl, rfl, rfl⟩, rfl, nofun⟩
    case foreign => exact fun _ _ _ => failed

theorem drain_streams {conn : Connection} (streams : Streams m)
    (enrolled : ∃ c ∈ m.prog.table.known, c.sock = conn.sock) :
    Ends (drain conn) m (fun result => After m conn.sock (result = .disconnect))
      fun _ => Streams := by
  have repeated (fuel : Nat) : ∀ m : Machine T (Relay T), Streams m →
      (∃ c ∈ m.prog.table.known, c.sock = conn.sock) →
      Ends (drainFor conn fuel) m (fun result => After m conn.sock (result = .disconnect))
        fun _ => Streams := by
    induction fuel with
    | zero => exact fun m streams _ => ⟨streams, rfl, fun ended => by cases ended⟩
    | succ fuel ih =>
      intro m streams enrolled
      simp only [drainFor, ends_bind]
      apply (readOnce_streams streams enrolled).normally
      intro result middle first
      cases result with
      | some result => exact ⟨first.streams, first.table, fun same => first.ended (congrArg some same)⟩
      | none =>
        apply (ih middle first.streams (first.table ▸ enrolled)).normally
        intro result last rest
        exact ⟨rest.streams, rest.table.trans first.table, rest.ended⟩
  simp only [drain, ends_bind, ends_asks]
  exact repeated _ m streams enrolled

end Drain

omit [Clock T] in
theorem flows_watch (h : Host T) (id : SocketId) (conn : Option SocketId) :
    Flows h (h.watch id conn) := flows_of_same rfl rfl rfl rfl

theorem enroll_streams {m : Machine T (Relay T)} (streams : Streams m) (sock : SocketId)
    (peer : Peer) : Ends (enroll sock peer) m (fun _ => Streams) fun _ => Streams := by
  have refused {m' : Machine T (Relay T)} (kept : Streams m') (text : String) :
      Streams ⟨(m'.host.logged .error text).shut sock, m'.prog⟩ :=
    kept.flows ⟨(calm_flows.steady.logged _ _ _).trans (flows_shut _ _), rfl⟩
  apply ends_enroll
  refine (setBlocking_ends calm_flows.steady false).imp ?_ ?_
  · intro _ m' reached
    obtain ⟨h, s, path, known, opened, rfl⟩ := reached
    have still : Streams ⟨h, m.prog⟩ := streams.flows ⟨path, rfl⟩
    have hastened := still.hasten sock
    have instantly : (Relay.hasten h sock).sock? sock =
        some { s with timeout := some Clock.zero } := by
      simp [Relay.hasten, sock?_alter_self, known]
    refine (register_ends (m := ⟨Relay.hasten h sock, m.prog⟩) calm_flows.steady _).imp ?_ ?_
    · rintro _ m' reached conn rfl
      obtain ⟨h', path, -, -, rfl⟩ := reached
      obtain ⟨s', more, after, longer⟩ := path.old sock _ instantly
      have watched : Streams ⟨h'.watch sock (some sock), m.prog⟩ :=
        hastened.flows ⟨path.trans (flows_watch _ _ _), rfl⟩
      exact watched.insert after longer.timeout
    · intro f m' reached
      obtain ⟨h', path, rfl⟩ := reached
      have failed : Streams ⟨h'.note .register sock f, m.prog⟩ :=
        hastened.flows ⟨path.trans (calm_flows.note _ _ _ _), rfl⟩
      exact ⟨fun _ => refused failed, fun _ => failed⟩
  · intro f m' reached
    obtain ⟨h, path, rfl⟩ := reached
    have failed : Streams ⟨h.note .setBlocking sock f, m.prog⟩ :=
      streams.flows ⟨path.trans (calm_flows.note _ _ _ _), rfl⟩
    exact ⟨fun _ => refused failed, fun _ => failed⟩

def Streaming (m m' : Machine T (Relay T)) : Prop := Streams m → Streams m'

theorem streaming_of_flows {act : Run T (Relay T) α} (keeps : Keeps Flows act) :
    Within Streaming Streaming act :=
  keeps.mono (fun path streams => streams.flows path) fun path streams => streams.flows path

theorem streaming_parts [Clock.Lawful T] : Parts (T := T) Streaming Streaming where
  refl _ streams := streams
  trans one two streams := two (one streams)
  weaken path := path
  falls one two streams := two (one streams)
  log level text := streaming_of_flows (calm_flows.steady.log level text)
  rests time := streaming_of_flows (calm_flows.steady.emits rfl)
  stop := streaming_of_flows (changes_keeps fun h => flows_raise h .service)
  close id := streaming_of_flows (changes_keeps fun h => flows_shut h id)
  closeSelector := by
    refine streaming_of_flows (.bind calm_flows.course (calm_flows.steady.emits rfl) fun _ => ?_)
    exact changes_keeps fun h => flows_of_same rfl rfl rfl rfl
  register id conn := by
    intro m
    refine (register_ends calm_flows.steady conn).imp ?_ ?_
    · intro _ m' reached streams
      obtain ⟨h, path, -, -, rfl⟩ := reached
      exact streams.flows ⟨path.trans (flows_watch h id conn), rfl⟩
    · intro f m' reached streams
      obtain ⟨h, path, rfl⟩ := reached
      exact streams.flows ⟨path.trans (calm_flows.note h _ _ _), rfl⟩
  unregister id := by
    intro m
    refine (unregister_ends calm_flows.steady).imp ?_ ?_
    · intro _ m' reached streams
      obtain ⟨h, path, ⟨-, rfl⟩ | ⟨-, rfl⟩⟩ := reached
      all_goals exact streams.flows ⟨path.trans (flows_of_same rfl rfl rfl rfl), rfl⟩
    · intro f m' reached streams
      obtain ⟨h, path, rfl⟩ := reached
      exact streams.flows ⟨path.trans (calm_flows.note h _ _ _), rfl⟩
  accept id := by
    intro m
    refine (accept_ends calm_flows.steady).imp ?_ fun _ _ path streams => streams.flows path
    intro found m' reached streams
    obtain ⟨h, s, rest, path, -, -, rfl⟩ := reached
    refine streams.flows ⟨(path.trans (flows_dequeue h id rest)).trans ?_, rfl⟩
    exact flows_of_same rfl rfl rfl rfl
  select timeout overview := streaming_of_flows (select_keeps calm_flows.steady timeout overview)
  poll control timeout := streaming_of_flows (calm_flows.steady.control control timeout)
  enroll sock peer m := .given _ fun streams => enroll_streams streams sock peer
  drain conn m known := by
    refine .given _ fun streams => (drain_streams streams ⟨conn, known, rfl⟩).imp ?_ ?_
    · exact fun _ _ after => after.streams
    · exact fun _ _ fell => fell
  edit h r r' edited streams := streams.edited edited

theorem streaming_mark (h : Host T) (r : Relay T) :
    Streaming ⟨h, r⟩ ⟨h, { r with closed := true }⟩ := by
  intro streams
  exact ⟨streams.read, streams.shut, streams.born, streams.instant, streams.served, streams.handed,
    streams.dry, streams.sent, streams.dest⟩

end StreamRelay.Relay
