import StreamRelay.Proofs.Relay.Reachable

namespace StreamRelay.Relay
variable {T : Type}
open Run Host

-- Nothing of a stream is left but what came although it had ended.
def Exhausted (h : Host T) (id : SocketId) : Prop :=
  ∃ s rest, h.sock? id = some s ∧ s.arrived = (h.offered id).flatten ++ rest ∧ rest <:+ s.late

-- What may be said of all that was offered and sent, given the relay as it was at its start.
structure Faithful (start : Relay T) (m : Machine T (Relay T)) : Prop where
  payloads : ∀ c ∈ m.prog.table.known,
    m.host.offered c.sock = (m.host.received c.sock).filter fun data => !data.isEmpty
  stream : ∀ c ∈ m.prog.table.known, ∃ s, m.host.sock? c.sock = some s ∧
    (m.host.offered c.sock).flatten ++ s.unread = s.arrived
  ended : ∀ c ∈ m.prog.table.known, [] ∈ m.host.received c.sock → Exhausted m.host c.sock
  origin : ∀ offer ∈ m.host.offers, ∃ c ∈ m.prog.table.known, offer.1 = some c.sock
  size : ∀ offer ∈ m.host.offers, 1 ≤ offer.2.length ∧ offer.2.length ≤ start.config.bufferSize
  sent : (m.host.datagrams.map Prod.fst).Sublist (m.host.offers.map Prod.snd)
  dest : ∀ datagram ∈ m.host.datagrams, datagram.2 = start.sink.dest

theorem offered_of_receipts (receipts : List (SocketId × Bytes)) (id : SocketId) :
    ((receipts.filter filled).map payload).filterMap
        (fun offer => if offer.1 = some id then some offer.2 else none) =
      (receipts.filterMap fun receipt => if receipt.1 = id then some receipt.2 else none).filter
        fun data => !data.isEmpty := by
  induction receipts with
  | nil => rfl
  | cons receipt rest ih =>
    obtain ⟨other, data⟩ := receipt
    by_cases same : other = id
    · subst same
      cases data with
      | nil => simpa [filled] using ih
      | cons b more => simpa [filled, payload] using ih
    · cases data with
      | nil => simpa [filled, same] using ih
      | cons b more => simpa [filled, payload, same] using ih

variable [Clock T] {m : Machine T (Relay T)}

theorem Streams.offered (streams : Streams m) (id : SocketId) :
    m.host.offered id = (m.host.received id).filter fun data => !data.isEmpty := by
  rw [Host.offered, streams.handed]
  exact offered_of_receipts m.host.receipts id

theorem Streams.flatten_offered (streams : Streams m) (id : SocketId) :
    (m.host.offered id).flatten = (m.host.received id).flatten := by
  rw [streams.offered id]
  exact List.flatten_filter_not_isEmpty

theorem Streams.exhausted (streams : Streams m) {id : SocketId} {s : Sock T}
    (known : m.host.sock? id = some s) (last : [] ∈ m.host.received id) :
    Exhausted m.host id := by
  refine ⟨s, s.unread, known, ?_, (streams.dry id s known last).2⟩
  rw [streams.flatten_offered id]
  exact (streams.read id s known).symm

theorem Streams.faithful (streams : Streams m) {start : Relay T} (kin : Kin start m.prog) :
    Faithful start m := by
  have handed {offer : Option SocketId × Bytes} (there : offer ∈ m.host.offers) :
      ∃ receipt ∈ m.host.receipts, filled receipt = true ∧ payload receipt = offer := by
    rw [streams.handed] at there
    obtain ⟨receipt, listed, eq⟩ := List.mem_map.mp there
    obtain ⟨told, full⟩ := List.mem_filter.mp listed
    exact ⟨receipt, told, full, eq⟩
  refine ⟨fun c _ => streams.offered c.sock, ?_, ?_, ?_, ?_, streams.sent, ?_⟩
  · intro c listed
    obtain ⟨s, known, -⟩ := streams.instant c listed
    exact ⟨s, known, by rw [streams.flatten_offered, streams.read c.sock s known]⟩
  · intro c listed last
    obtain ⟨s, known, -⟩ := streams.instant c listed
    exact streams.exhausted known last
  · intro offer there
    obtain ⟨receipt, told, -, rfl⟩ := handed there
    obtain ⟨-, c, listed, same⟩ := streams.served receipt told
    exact ⟨c, listed, by rw [same]; rfl⟩
  · intro offer there
    obtain ⟨receipt, told, full, rfl⟩ := handed there
    obtain ⟨short, -⟩ := streams.served receipt told
    rw [kin.config] at short
    refine ⟨?_, short⟩
    cases data : receipt.2 with
    | nil => simp [filled, data] at full
    | cons b rest => simp [payload, data]
  · intro datagram told
    rw [streams.dest datagram told, kin.sink]

-- However a run ends, from whatever a relay had come to; a read that ends in a disconnect has seen
-- the end of the stream.
theorem run_faithful [Clock.Lawful T] {allowed : Operation T → Prop}
    {start m : Machine T (Relay T)} (created : Created start) (reached : Reached allowed start m) :
    start.prog.config.bufferSize ≤ 65507 ∧
    Ends run m (fun _ => Faithful start.prog) (fun _ => Faithful start.prog) ∧
    ∀ conn ∈ m.prog.table.known, Ends (drain conn) m
      (fun outcome m' => outcome = .disconnect →
        [] ∈ m'.host.received conn.sock ∧ Exhausted m'.host conn.sock)
      fun _ _ => True := by
  have streams := reached.streams created.begun.streams
  have kin := reached.ground.2
  refine ⟨start.prog.config.bufferSize_le, ?_, ?_⟩
  · have run := (streaming_parts.run streaming_mark m).and (ground_parts.run ground_mark m)
    refine run.imp ?_ ?_
    · exact fun _ _ ended => (ended.1 streams).faithful (lax_kin.trans kin ended.2.2)
    · exact fun _ _ ended => (ended.1 streams).faithful (lax_kin.trans kin ended.2.2)
  · intro conn known
    apply (drain_streams streams ⟨conn, known, rfl⟩).well
    intro outcome m' after same
    have last := after.ended same
    obtain ⟨s, there, -⟩ := after.streams.instant conn (after.table ▸ known)
    exact ⟨last, after.streams.exhausted there last⟩

theorem run_faithful_two_bytes :
    Ends run busyRelay (fun _ => Faithful busyRelay.prog) (fun _ => Faithful busyRelay.prog) ∧
      (after run busyRelay).host.offered 2 = [[104], [105]] := by
  have reached : Reached (fun _ => True) busyRelay busyRelay := .start
  have faithful := run_faithful created_busyRelay reached
  exact ⟨faithful.2.1, by decide +kernel⟩

end StreamRelay.Relay
