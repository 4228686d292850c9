import StreamRelay.Proofs.Crew.Turns

namespace StreamRelay.Crew
variable {T : Type}
open Run Host Counters

-- The clients whose readers have not taken them off the books.
def unsigned (hands : List Hand) : List SocketId :=
  (hands.filter fun hand => !hand.phase.signed).map Hand.sock

-- What the hands have received, each receipt with its socket.
def takings (hands : List Hand) : List (SocketId × Bytes) :=
  hands.flatMap fun hand => hand.taken.map (hand.sock, ·)

def total (hands : List Hand) : Counters := (hands.map Hand.tally).sum

-- Whom a host has handed over once it does not hand over again.
structure Strict (h : Host T) : Prop where
  orderly : h.Orderly
  once : h.accepted.Nodup
  taken : ∀ id ∈ h.accepted, id ∉ h.pending ∧ id < h.sockets.length

structure Ledger (s : Stage T) : Prop where
  strict : Strict s.machine.host
  roster : s.machine.host.accepted.reverse = s.hands.map Hand.sock ++ s.duty.inHand
  clients : s.machine.prog.clients = unsigned s.hands ++ s.duty.listed
  counters : s.machine.prog.stats.counters =
    total s.hands + { accepted := s.duty.listed.length }
  takings : s.machine.host.takings.Perm (takings s.hands)
  reason : ∀ why ∈ s.duty.why?, why.Holds s.machine.host

section Middle
variable {before after : List Hand} {hand hand' : Hand}

theorem mem_middle {other : Hand} :
    other ∈ before ++ hand :: after ↔ other = hand ∨ other ∈ before ++ after :=
  List.perm_middle.mem_iff.trans List.mem_cons

theorem unsigned_append (hands more : List Hand) :
    unsigned (hands ++ more) = unsigned hands ++ unsigned more := by
  rw [unsigned, List.filter_append, List.map_append, unsigned, unsigned]

theorem unsigned_cons : unsigned (hand :: after) =
    (if hand.phase.signed then [] else [hand.sock]) ++ unsigned after := by
  cases signed : hand.phase.signed with
  | true => simp [unsigned, signed]
  | false => simp [unsigned, signed]

theorem total_append (hands more : List Hand) : total (hands ++ more) = total hands + total more := by
  rw [total, List.map_append, List.sum_append, total, total]

theorem total_cons : total (hand :: after) = hand.tally + total after := by
  rw [total, List.map_cons, List.sum_cons, total]

theorem total_middle {part : Counters} (gained : hand'.tally = hand.tally + part) :
    total (before ++ hand' :: after) = total (before ++ hand :: after) + part := by
  simp only [total_append, total_cons, gained]
  calc
    total before + (hand.tally + part + total after)
      = total before + (hand.tally + total after + part) := by rw [add_right_comm hand.tally]
    _ = total before + (hand.tally + total after) + part := (add_assoc _ _ _).symm

theorem takings_append (hands more : List Hand) :
    takings (hands ++ more) = takings hands ++ takings more := List.flatMap_append

theorem takings_cons : takings (hand :: after) = hand.taken.map (hand.sock, ·) ++ takings after :=
  List.flatMap_cons

theorem takings_middle {got : List Bytes} (sock : hand'.sock = hand.sock)
    (more : hand'.taken = hand.taken ++ got) :
    (takings (before ++ hand :: after) ++ got.map (hand.sock, ·)).Perm
      (takings (before ++ hand' :: after)) := by
  simp only [takings_append, takings_cons, sock, more, List.map_append, List.append_assoc]
  exact ((List.perm_append_comm.append_left _).append_left _)

theorem socks_middle (sock : hand'.sock = hand.sock) :
    (before ++ hand' :: after).map Hand.sock = (before ++ hand :: after).map Hand.sock := by
  simp [sock]

theorem unsigned_sublist (hands : List Hand) : (unsigned hands).Sublist (hands.map Hand.sock) :=
  List.filter_sublist.map Hand.sock

theorem Duty.listed_sublist (duty : Duty) : duty.listed.Sublist duty.inHand := by
  cases duty <;> first | exact .refl _ | exact List.nil_sublist _

theorem Duty.free_of_idle {duty : Duty} (free : duty.idle = true) :
    duty.inHand = [] ∧ duty.listed = [] ∧ duty.hires = [] ∧ duty.why? = none := by
  cases duty <;> first | exact ⟨rfl, rfl, rfl, rfl⟩ | exact Bool.noConfusion free

-- A hand that signs off takes its own client off the books and nobody else's.
theorem unsigned_signed {duty : Duty}
    (once : ((before ++ hand :: after).map Hand.sock ++ duty.inHand).Nodup)
    (unsigned : hand.phase.signed = false) (signed : hand'.phase.signed = true) :
    (Crew.unsigned (before ++ hand :: after) ++ duty.listed).filter (· ≠ hand.sock) =
      Crew.unsigned (before ++ hand' :: after) ++ duty.listed := by
  simp only [List.map_append, List.map_cons, List.append_assoc, List.cons_append] at once
  have apart := List.nodup_middle.mp once
  have others := (List.nodup_cons.mp apart).1
  have stays {ids : List SocketId} (inside : ∀ id ∈ ids, id ∈
      before.map Hand.sock ++ (after.map Hand.sock ++ duty.inHand)) :
      ids.filter (· ≠ hand.sock) = ids := by
    apply List.filter_eq_self.mpr
    intro id there
    apply decide_eq_true
    exact fun same => others (same ▸ inside id there)
  have first := stays fun id there =>
    List.mem_append_left _ ((unsigned_sublist before).subset there)
  have second := stays fun id there =>
    List.mem_append_right _ (List.mem_append_left _ ((unsigned_sublist after).subset there))
  have third := stays fun id there =>
    List.mem_append_right _ (List.mem_append_right _ (duty.listed_sublist.subset there))
  simp only [unsigned_append, unsigned_cons, unsigned, signed, Bool.false_eq_true, if_false, if_true,
    List.filter_append, first, second, third, List.nil_append]
  simp

end Middle

theorem Why.Holds.later {h h' : Host T} {own : List SocketId} {new : List (SocketId × Bytes)}
    {why : Why} (holds : why.Holds h) (goes : Goes own new h h') : why.Holds h' := by
  cases why with
  | told => exact goes.directed.told holds
  | broken f => exact holds
  | unready sock f =>
    obtain ⟨watched, noted⟩ := holds
    exact ⟨watched, goes.ages.refusals _ noted⟩

theorem Strict.going {h h' : Host T} {own : List SocketId} {new : List (SocketId × Bytes)}
    (strict : Strict h) (path : Going own new h h') : Strict h' := by
  obtain ⟨orderly, goes⟩ := path strict.orderly
  refine ⟨orderly, ?_, ?_⟩
  · rw [goes.accepted]
    exact strict.once
  · intro id there
    rw [goes.accepted] at there
    obtain ⟨idle, bounded⟩ := strict.taken id there
    refine ⟨fun waits => ?_, Nat.lt_of_lt_of_le bounded goes.ages.grown⟩
    cases goes.ages.pending id waits with
    | inl before => exact idle before
    | inr new => exact Nat.not_lt.mpr new bounded

theorem Strict.accept {h : Host T} {id first : SocketId} {rest : List SocketId} {s : Sock T}
    {fd : Int} (strict : Strict h) (known : h.sock? id = some s) (queue : s.backlog = first :: rest) :
    Strict ((h.dequeue id rest).emit (.accept first fd)) := by
  have moved := dequeue_perm known queue
  have waited : first ∈ h.pending := moved.mem_iff.mp List.mem_cons_self
  have nodup := List.nodup_cons.mp (moved.nodup_iff.mpr strict.orderly.pending_nodup)
  refine ⟨(aged_emit _ _ (aged_dequeue known queue strict.orderly).1).1, ?_, ?_⟩
  · refine List.nodup_cons.mpr ⟨fun before => ?_, strict.once⟩
    exact (strict.taken first before).1 waited
  · intro other there
    have bound : (h.dequeue id rest).sockets.length = h.sockets.length := length_alter
    cases List.mem_cons.mp there with
    | inl same =>
      subst same
      exact ⟨nodup.1, bound ▸ strict.orderly.pending_lt _ waited⟩
    | inr before =>
      obtain ⟨idle, bounded⟩ := strict.taken other before
      exact ⟨fun waits => idle (moved.mem_iff.mp (List.mem_cons_of_mem _ waits)), bound ▸ bounded⟩

namespace Ledger
variable {m m' : Machine T (Crew T)} {h h' : Host T} {p p' : Crew T} {duty duty' : Duty}
  {hands : List Hand}

theorem moves {own : List SocketId} (ledger : Ledger ⟨⟨h, p⟩, duty, hands⟩)
    (path : Going own [] h h') (clients : p'.clients = p.clients)
    (counters : p'.stats.counters = p.stats.counters) (inHand : duty'.inHand = duty.inHand)
    (listed : duty'.listed = duty.listed) (reason : ∀ why ∈ duty'.why?, why.Holds h') :
    Ledger ⟨⟨h', p'⟩, duty', hands⟩ := by
  obtain ⟨strict, roster, books, sums, takings, -⟩ := ledger
  simp only at roster books sums takings
  obtain ⟨-, goes⟩ := path strict.orderly
  refine ⟨strict.going path, ?_, ?_, ?_, ?_, reason⟩
  · simp only [goes.accepted, inHand, roster]
  · simp only [clients, listed, books]
  · simp only [counters, listed, sums]
  · simp only [goes.takings, List.append_nil, takings]

theorem accepted {s : Stage T} {sock : SocketId} (ledger : Ledger s)
    (there : sock ∈ s.hands.map Hand.sock ++ s.duty.inHand) : sock ∈ s.machine.host.accepted := by
  rw [← ledger.roster] at there
  exact List.mem_reverse.mp there

theorem client {s : Stage T} {hand : Hand} (ledger : Ledger s) (there : hand ∈ s.hands) :
    hand.sock ∈ s.machine.host.accepted :=
  ledger.accepted (List.mem_append_left _ (List.mem_map_of_mem there))

theorem later {own : List SocketId} {new : List (SocketId × Bytes)}
    (ledger : Ledger ⟨⟨h, p⟩, duty, hands⟩) (path : Going own new h h') :
    ∀ why ∈ duty.why?, why.Holds h' := by
  intro why there
  exact (ledger.reason why there).later (path ledger.strict.orderly).2

theorem hand_turns {before after : List Hand} {hand hand' : Hand}
    (ledger : Ledger ⟨m, duty, before ++ hand :: after⟩) (advances : Advances hand hand' m m') :
    Ledger ⟨m', duty, before ++ hand' :: after⟩ := by
  obtain ⟨strict, roster, books, sums, received, reason⟩ := ledger
  obtain ⟨got, taken, work⟩ := advances.host
  obtain ⟨part, gained, counted⟩ := advances.counters
  obtain ⟨-, goes⟩ := work.1 strict.orderly
  simp only at roster books sums received
  refine ⟨strict.going work.1, ?_, ?_, ?_, ?_, ?_⟩
  · simp only [goes.accepted, socks_middle advances.sock, roster]
  · cases advances.clients with
    | inl kept =>
      simp only [kept.2, books, unsigned_append, unsigned_cons, kept.1, advances.sock]
    | inr gone =>
      obtain ⟨before, after, clients⟩ := gone
      have once := List.nodup_reverse.mpr strict.once
      rw [roster] at once
      simp only [clients, books, unsigned_signed once before after]
  · simp only [counted, sums, total_middle gained]
    exact add_right_comm _ _ _
  · simp only [goes.takings]
    exact (received.append_right _).trans (takings_middle advances.sock taken)
  · exact fun why there => (reason why there).later goes

theorem accepts {middle : Host T} {s : Sock T} {first : SocketId} {rest : List SocketId}
    {peer : Address} {fd : Int} (ledger : Ledger ⟨⟨h, p⟩, .accepting, hands⟩)
    (work : Working [] [] h middle) (known : middle.sock? p.sock = some s)
    (queue : s.backlog = first :: rest) :
    Ledger ⟨⟨(middle.dequeue p.sock rest).emit (.accept first fd), p⟩, .preparing first peer, hands⟩ := by
  obtain ⟨strict, roster, books, sums, received, reason⟩ := ledger
  obtain ⟨-, goes⟩ := work.1 strict.orderly
  simp only [Duty.inHand, Duty.listed, List.append_nil] at roster books sums received
  have accepted : Host.accepted ((middle.dequeue p.sock rest).emit (.accept first fd)) =
      first :: h.accepted := congrArg (first :: ·) goes.accepted
  have takings : Host.takings ((middle.dequeue p.sock rest).emit (.accept first fd)) = h.takings :=
    goes.takings.trans (List.append_nil _)
  refine ⟨(strict.going work.1).accept known queue, ?_, ?_, sums, ?_, nofun⟩
  · simp only [accepted, List.reverse_cons, roster, Duty.inHand]
  · simp only [books, Duty.listed, List.append_nil]
  · simp only [takings, received]

theorem hires {sock : SocketId} {peer : Address} {r : Reader} {threads : Nat}
    (ledger : Ledger ⟨⟨h, p⟩, .hiring sock peer, hands⟩) (own : r.sock = sock) :
    Ledger ⟨⟨{ h with threads }, p.hire r⟩, .starting r, hands⟩ := by
  subst own
  obtain ⟨strict, roster, books, sums, received, reason⟩ := ledger
  have orderly := strict.orderly
  exact ⟨⟨⟨orderly.server, orderly.pending_nodup, orderly.pending_lt⟩, strict.once, strict.taken⟩,
    roster, books, sums, received, nofun⟩

theorem lists {sock : SocketId} {peer : Address} (ledger : Ledger ⟨⟨h, p⟩, .listing sock peer, hands⟩) :
    Ledger ⟨⟨h, p.track sock⟩, .hiring sock peer, hands⟩ := by
  obtain ⟨strict, roster, books, sums, received, reason⟩ := ledger
  simp only [Duty.inHand, Duty.listed, List.append_nil, List.length_nil] at roster books sums received
  have once := List.nodup_reverse.mpr strict.once
  rw [roster] at once
  have absent : (unsigned hands).contains sock = false := by
    rw [List.contains_eq_mem]
    apply decide_eq_false
    intro there
    have met := (unsigned_sublist hands).subset there
    exact (List.nodup_append.mp once).2.2 sock met sock (List.mem_singleton_self sock) rfl
  refine ⟨strict, roster, ?_, ?_, received, nofun⟩
  · simp only [track, count, absent, Bool.false_eq_true, if_false, books, Duty.listed]
  · simp only [track, count, sums, Duty.listed, List.length_singleton]
    apply ext_fields <;> simp

theorem starts {r : Reader} (ledger : Ledger ⟨⟨h, p⟩, .starting r, hands⟩) :
    Ledger ⟨⟨h.emit (.threadStart r.thread), p.setAlive r.thread true⟩, .reporting r.peer,
      hands ++ [.of r]⟩ := by
  obtain ⟨strict, roster, books, sums, received, reason⟩ := ledger
  simp only [Duty.inHand, Duty.listed, List.length_singleton] at roster books sums received
  have path := (working_emit h (.threadStart r.thread) rfl rfl).1
  refine ⟨strict.going path, ?_, ?_, ?_, ?_, nofun⟩
  · simp only [List.map_append, List.map_cons, List.map_nil, Duty.inHand, List.append_nil]
    exact roster
  · have own : unsigned [Hand.of r] = [r.sock] := rfl
    simp only [unsigned_append, own, Duty.listed, List.append_nil]
    exact books
  · have own : total [Hand.of r] = ({ accepted := 1 } : Counters) := rfl
    simp only [total_append, own, Duty.listed, List.length_nil]
    exact sums.trans (add_zero _).symm
  · have own : Crew.takings [Hand.of r] = [] := rfl
    simp only [takings_append, own, List.append_nil]
    exact received

theorem loop_turns (ledger : Ledger ⟨m, duty, hands⟩) (loops : Loops duty m duty' m') :
    Ledger ⟨m', duty', hands ++ duty.hires⟩ := by
  cases loops with
  | @idles duty duty' h h' p free free' _ work =>
    obtain ⟨inHand, listed, hires, -⟩ := Duty.free_of_idle free
    obtain ⟨inHand', listed', -, why'⟩ := Duty.free_of_idle free'
    rw [hires, List.append_nil]
    have reason : ∀ why ∈ duty'.why?, why.Holds h' := by
      rw [why']
      exact nofun
    exact ledger.moves work.1 rfl rfl (inHand'.trans inHand.symm) (listed'.trans listed.symm) reason
  | @leaves duty why h h' p free holds alone work =>
    obtain ⟨inHand, listed, hires, -⟩ := Duty.free_of_idle free
    rw [hires, List.append_nil]
    have reason {other : Why} (same : some why = some other) : other.Holds h' :=
      Option.some.inj same ▸ holds
    exact ledger.moves work.1 rfl rfl (alone.trans inHand.symm) listed.symm fun _ => reason
  | @accepts h middle p s first rest peer fd work known queue =>
    simp only [Duty.hires, List.append_nil]
    exact ledger.accepts work known queue
  | prepares work =>
    simp only [Duty.hires, List.append_nil]
    exact ledger.moves work.1 rfl rfl rfl rfl nofun
  | @refuses sock peer f h h' p work holds =>
    simp only [Duty.hires, List.append_nil]
    have reason {other : Why} (same : some (Why.unready sock f) = some other) : other.Holds h' :=
      Option.some.inj same ▸ holds
    exact ledger.moves work.1 rfl rfl rfl rfl fun _ => reason
  | lists =>
    simp only [Duty.hires, List.append_nil]
    exact ledger.lists
  | hires =>
    simp only [Duty.hires, List.append_nil]
    exact ledger.hires rfl
  | starts => exact ledger.starts
  | closes work same _ =>
    simp only [Duty.hires, List.append_nil]
    have reason := ledger.later work.1
    cases same with
    | inl same => exact ledger.moves work.1 (by rw [same]) (by rw [same]) rfl rfl reason
    | inr marked => exact ledger.moves work.1 (by rw [marked]) (by rw [marked]) rfl rfl reason
  | ends work =>
    simp only [Duty.hires, List.append_nil]
    have reason := ledger.later work.1
    exact ledger.moves work.1 rfl rfl rfl rfl reason
  | rests =>
    simp only [Duty.hires, List.append_nil]
    exact ledger

variable [Clock T]

-- What one thread does in a turn, and what happens outside, leaves the books in order.
theorem turn {a b : Stage T} (ledger : Ledger a) (turn : Turn a b) : Ledger b := by
  cases turn with
  | @loop m m' duty duty' hands ran =>
    exact ledger.loop_turns ((turn_loops duty m.host m.prog).of_ok ran)
  | @hand m m' duty before after hand hand' ran =>
    exact ledger.hand_turns ((turn_advances hand m.host m.prog).of_ok ran)

theorem step {a b : Stage T} (ledger : Ledger a) (step : Step a b) : Ledger b := by
  cases step with
  | turn taken => exact ledger.turn taken
  | @outside m duty hands action =>
    have path := calm_going.apply m.host action
    exact ledger.moves path rfl rfl rfl rfl (ledger.later path)
  | @told m duty hands =>
    have path := (working_raise m.host).1
    exact ledger.moves path rfl rfl rfl rfl (ledger.later path)

theorem reached {start s : Stage T} (ledger : Ledger start) (path : Reached start s) : Ledger s := by
  induction path with
  | refl => exact ledger
  | tail _ step ih => exact ih.step step

end Ledger

section Ages
variable {m m' : Machine T (Crew T)} {duty duty' : Duty}

theorem Loops.ages (loops : Loops duty m duty' m') (orderly : m.host.Orderly) :
    Ages m.host m'.host := by
  cases loops with
  | idles _ _ _ work | leaves _ _ _ work | prepares work | refuses work _ =>
    exact (work.1 orderly).2.ages
  | closes work _ _ | ends work => exact (work.1 orderly).2.ages
  | @accepts h middle p s first rest peer fd work known queue =>
    obtain ⟨after, goes⟩ := work.1 orderly
    obtain ⟨last, ages⟩ := aged_dequeue known queue after
    exact (goes.ages.trans ages).trans (aged_emit _ (.accept first fd) last).2
  | hires =>
    exact ⟨Nat.le_refl _, fun _ _ => rfl, fun _ _ closed => closed, fun _ waits => .inl waits,
      fun _ told => told, fun _ kept => kept⟩
  | starts => exact (aged_emit _ _ orderly).2
  | lists | rests => exact .refl _

variable [Clock T]

theorem turn_ages {a b : Stage T} (ledger : Ledger a) (turn : Turn a b) :
    Ages a.machine.host b.machine.host := by
  have orderly := ledger.strict.orderly
  cases turn with
  | @loop m m' duty duty' hands ran => exact ((turn_loops duty m.host m.prog).of_ok ran).ages orderly
  | @hand m m' duty before after hand hand' ran =>
    obtain ⟨got, -, work⟩ := ((turn_advances hand m.host m.prog).of_ok ran).host
    exact (work.1 orderly).2.ages

theorem step_ages {a b : Stage T} (ledger : Ledger a) (step : Step a b) :
    Ages a.machine.host b.machine.host := by
  have orderly := ledger.strict.orderly
  cases step with
  | turn taken => exact turn_ages ledger taken
  | @outside m duty hands action => exact (calm_going.apply m.host action orderly).2.ages
  | @told m duty hands => exact ((working_raise m.host).1 orderly).2.ages

end Ages
end StreamRelay.Crew
