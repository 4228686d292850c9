import Mathlib.Algebra.BigOperators.Group.List.Lemmas
import Mathlib.Algebra.GroupWithZero.Nat
import StreamRelay.Proofs.Relay.Fidelity
import StreamRelay.Proofs.Relay.Shutdown
import StreamRelay.Proofs.Relay.Tally

namespace StreamRelay.Relay
variable {T : Type}
open Run Host

-- The counters beside the connections that were ever admitted and what an observer has seen. Some
-- reads may have broken before all this.
structure Exact (before : List SocketId) (m : Machine T (Relay T)) : Prop where
  table : m.prog.stats.counters.accepted = m.prog.stats.counters.closed + m.prog.table.size
  accepted : m.prog.stats.counters.accepted = m.prog.table.known.length
  closed : m.prog.stats.counters.closed = m.prog.table.known.countP Connection.closed
  once : (m.prog.table.known.map Connection.sock).Nodup
  admitted : ∀ c ∈ m.prog.table.known, c.sock ∈ m.host.accepted
  -- A socket that was accepted and not admitted is closed, and nothing was read from it.
  refused : ∀ id ∈ m.host.accepted, id ∉ m.prog.table.known.map Connection.sock →
    m.host.isOpen id = false ∧ m.host.received id = []
  handed : m.prog.stats.counters.datagrams + m.prog.stats.counters.forwardFailures =
    (m.prog.table.known.map fun c =>
      ((m.host.received c.sock).filter fun data => !data.isEmpty).length).sum
  datagrams : m.prog.stats.counters.datagrams = m.host.datagrams.length
  bytes : m.prog.stats.counters.bytes = m.host.sentBytes
  errors : ∃ broken, m.host.brokenReads = broken ++ before ∧ broken.Nodup ∧
    m.prog.stats.counters.readErrors = broken.length ∧ ∀ id ∈ broken, Gone m.prog id

-- Nothing came from the system that it does not give, and numbers are not mixed up.
structure Regular (m : Machine T (Relay T)) : Prop where
  documented : Documented m.host
  sending : Sending m.host
  distinct : Distinct m

theorem sum_ones (ids : List SocketId) (owner : SocketId) :
    (ids.map fun id => if id = owner then 1 else 0).sum = ids.count owner := by
  induction ids with
  | nil => rfl
  | cons id rest ih => simp [List.count_cons, ih, Nat.add_comm]

theorem sum_shares {β : Type} (items : List (Option SocketId × β)) {ids : List SocketId}
    (once : ids.Nodup) (owned : ∀ item ∈ items, ∃ id ∈ ids, item.1 = some id) :
    (ids.map fun id => (items.filterMap fun item =>
      if item.1 = some id then some item.2 else none).length).sum = items.length := by
  induction items with
  | nil => simp
  | cons item rest ih =>
    obtain ⟨owner, listed, same⟩ := owned item List.mem_cons_self
    have share (id : SocketId) : ((item :: rest).filterMap fun item =>
        if item.1 = some id then some item.2 else none).length =
        (if id = owner then 1 else 0) + (rest.filterMap fun item =>
          if item.1 = some id then some item.2 else none).length := by
      by_cases own : id = owner
      · subst own
        simp [same, Nat.add_comm]
      · simp [same, own, Ne.symm own]
    simp only [share, List.sum_map_add, sum_ones, List.count_eq_one_of_mem once listed,
      List.length_cons]
    rw [ih fun item there => owned item (List.mem_cons_of_mem _ there), Nat.add_comm]

theorem Roster.length_live {hand : List SocketId} {m : Machine T (Relay T)} (roster : Roster hand m) :
    m.prog.table.known.length = m.prog.table.known.countP Connection.closed + m.prog.table.live.length := by
  have alive : m.prog.table.live.Perm
      ((m.prog.table.known.filter fun c => !c.closed).map fun c => (c.fd, c.sock)) := by
    refine (List.perm_ext_iff_of_nodup roster.numbers.of_map ?_).mpr fun e => ?_
    · have once := (List.nodup_append.mp roster.once).1.of_map
      refine (once.filter _).map_on fun c there d there' same => ?_
      have one := (List.mem_filter.mp there).1
      have two := (List.mem_filter.mp there').1
      exact roster.unique one two (congrArg Prod.snd same)
    · rw [roster.live e.1 e.2, List.mem_map]
      constructor
      · intro found
        obtain ⟨c, known, sock, number, living⟩ := found
        exact ⟨c, List.mem_filter.mpr ⟨known, by rw [living]; rfl⟩, by rw [sock, number]⟩
      · intro found
        obtain ⟨c, there, rfl⟩ := found
        obtain ⟨known, living⟩ := List.mem_filter.mp there
        exact ⟨c, known, rfl, rfl, by simpa using living⟩
  rw [alive.length_eq, List.length_map, ← List.countP_eq_length_filter,
    List.length_eq_countP_add_countP Connection.closed]
  simp

variable [Clock T] {before : List SocketId} {m : Machine T (Relay T)}

theorem Tally.exact (tally : Tally before m) (coherent : Coherent m) (streams : Streams m)
    (balance : offset m.prog = 0) : Exact before m := by
  have length := coherent.roster.length_live
  have admissions := tally.accepted
  have data := tally.data
  simp only [offset, socks, List.length_map, ahead, Prod.mk.injEq] at balance admissions data
  have once : (m.prog.table.known.map Connection.sock).Nodup := (List.nodup_append.mp coherent.roster.once).1
  refine ⟨?_, admissions, ?_, once, ?_, ?_, ?_, ?_, ?_, tally.errors⟩
  · simp only [Table.size]
    omega
  · omega
  · exact fun c known => tally.told c.sock (List.mem_map_of_mem known)
  · intro id told stranger
    constructor
    · cases opened : m.host.isOpen id with
      | false => rfl
      | true =>
        have enrolled := (coherent.roster.accepted id told).2 opened
        rw [List.append_nil] at enrolled
        exact absurd enrolled stranger
    · refine List.filterMap_eq_nil_iff.mpr fun receipt there => if_neg fun same => stranger ?_
      obtain ⟨-, c, known, owner⟩ := streams.served receipt there
      exact same ▸ owner ▸ List.mem_map_of_mem known
  · have owned := (streams.faithful (lax_kin.refl m.prog)).origin
    have shares := sum_shares m.host.offers once fun offer there => by
      obtain ⟨c, known, same⟩ := owned offer there
      exact ⟨c.sock, List.mem_map_of_mem known, same⟩
    rw [List.map_map] at shares
    have each (c : Connection) : (m.host.received c.sock).filter (fun data => !data.isEmpty) =
        m.host.offered c.sock := (streams.offered c.sock).symm
    simp only [each]
    have total := shares.symm
    simp only [Function.comp_def] at total
    simp only [Host.offered] at total ⊢
    omega
  · omega
  · omega

variable {start b : Machine T (Relay T)}

theorem Reached.exact (reached : Reached Operation.Counts start m) (created : Created start)
    (path : TalliesIf start.host.brokenReads m b) (streams : Streams b) (regular : Regular b) :
    Exact start.host.brokenReads b := by
  have begun := created.begun
  have even := reached.even fun _ counts => counts
  obtain ⟨whole, balance⟩ := even.2 begun.whole
  have grown := (path.1.1.grows whole.1).2
  have apart := grown.distinct whole.1 regular.distinct
  obtain ⟨later, level⟩ := path.1.2 regular.documented whole
  have tally := reached.tally begun (Sending.before grown.ages regular.sending) apart
  have counted := path.2 regular.documented regular.sending whole regular.distinct tally
  refine counted.exact (later.2 regular.distinct) streams ?_
  exact (level regular.distinct).trans ((balance apart).trans begun.offset)

-- Of a run from whatever a relay has come to: where its loop looks whether it was told to stop, and
-- after its end; what counts as sent is what was offered with success.
theorem run_counts [Clock.Lawful T] (created : Created start) (reached : Reached Operation.Counts start m)
    (working : m.prog.closed = false) :
    (∀ b, Boundary m b → Regular b → Exact start.host.brokenReads b) ∧
    (Regular (after run m) → Exact start.host.brokenReads (after run m) ∧
      (∀ c ∈ (after run m).prog.table.known, c.closed = true) ∧
      (after run m).prog.stats.counters.closed = (after run m).prog.stats.counters.accepted) ∧
    ∀ (sink : Sink) (data : Bytes) (origin : Option SocketId) (b : Machine T (Relay T)),
      Ends (sink.forward data origin) b
        (fun sent b' => b'.host.offers = b.host.offers ++ [(origin, data)] ∧
          b'.host.datagrams = b.host.datagrams ++ if sent then [(data, sink.dest)] else [])
        fun _ b' => ¬Sending b'.host := by
  have streams := reached.streams created.begun.streams
  refine ⟨fun b boundary regular => ?_, fun regular => ?_, fun sink data origin b => ?_⟩
  · have path : TalliesIf start.host.brokenReads m b :=
      tallies_course.weaken (tallies_rounds.cycle.boundary boundary)
    exact reached.exact created path (streaming_parts.rounds.cycle.boundary boundary streams) regular
  · have path : TalliesIf start.host.brokenReads m (after run m) :=
      (tallies_rounds.run tallies_close).after tallies_course m
    have later := (streaming_parts.run streaming_mark).after streaming_parts.toCourse m streams
    have exact := reached.exact created path later regular
    obtain ⟨first, exit, left, runs⟩ := run_runs m
    obtain ⟨-, -, finished, -⟩ := runs.closes (reached.whole created.begun.whole) working
      regular.documented regular.distinct
    refine ⟨exact, finished.connections, ?_⟩
    have nobody := finished.coherent.roster.nobody finished.connections
    simpa [Table.size, nobody] using exact.table.symm
  · apply (forward_counts sink data origin).normally
    exact fun _ _ ended => ⟨ended.1, ended.2.1⟩

@[irreducible] def losing : Machine Int (Relay Int) :=
  after (Operation.act (.happen [
    .fault .sendTo [.incident [] (some (.os .resetByPeer))],
    .fault .receive [.pass, .pass, .incident [] (some (.os .resetByPeer))]])) busyRelay

theorem reached_losing : Reached Operation.Counts busyRelay losing := by
  unfold losing
  exact Reached.next .start (by decide +kernel) trivial (by decide +kernel)

theorem run_counts_losing : (∀ b, Boundary losing b → Regular b → Exact [] b) ∧
    Exact [] (after run losing) ∧
      (after run losing).prog.stats.counters = ⟨1, 1, 1, 1, 1, 1⟩ := by
  have nothing : busyRelay.host.brokenReads = [] := by decide +kernel
  have counts := run_counts created_busyRelay reached_losing (by decide +kernel)
  rw [nothing] at counts
  have regular : Regular (after run losing) :=
    ⟨by decide +kernel, by decide +kernel, by decide +kernel⟩
  exact ⟨counts.1, (counts.2.1 regular).1, by decide +kernel⟩

end StreamRelay.Relay
