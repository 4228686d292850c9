import StreamRelay.Proofs.Crew.Ledger

namespace StreamRelay.Crew
variable {T : Type}
open Run Host

-- The entry that a hand has in the list of readers while it works.
def Hand.reader (hand : Hand) : Reader where
  thread := hand.thread
  sock := hand.sock
  peer := hand.peer
  alive := !hand.phase.finished

-- The reader that is in the list and does not work yet.
def Duty.newcomers : Duty → List Reader
  | starting r => [r]
  | _ => []

structure Staff (s : Stage T) : Prop where
  threads : (s.hands.map Hand.thread ++ s.duty.newcomers.map Reader.thread).Nodup
  bounded : ∀ t ∈ s.hands.map Hand.thread ++ s.duty.newcomers.map Reader.thread,
    t < s.machine.host.threads
  known : ∀ r ∈ s.machine.prog.readers, r ∈ s.hands.map Hand.reader ++ s.duty.newcomers
  kept : ∀ hand ∈ s.hands, hand.phase.finished = false → hand.reader ∈ s.machine.prog.readers
  newcomer : ∀ r ∈ s.duty.newcomers, r.alive = false ∧ r ∈ s.machine.prog.readers

namespace Staff
variable {m m' : Machine T (Crew T)} {h h' : Host T} {p p' : Crew T} {duty duty' : Duty}
  {hands : List Hand} {before after : List Hand} {hand hand' : Hand}

theorem same (staff : Staff ⟨⟨h, p⟩, duty, hands⟩) (threads : h'.threads = h.threads)
    (readers : p'.readers = p.readers) (newcomers : duty'.newcomers = duty.newcomers) :
    Staff ⟨⟨h', p'⟩, duty', hands⟩ := by
  obtain ⟨nodup, bounded, known, kept, newcomer⟩ := staff
  constructor
  · simpa only [newcomers] using nodup
  · simpa only [newcomers, threads] using bounded
  · simpa only [newcomers, readers] using known
  · simpa only [readers] using kept
  · simpa only [newcomers, readers] using newcomer

theorem setAlive_other {r : Reader} {t : Nat} (alive : Bool) (differs : r.thread ≠ t)
    (there : r ∈ p.readers) : r ∈ (p.setAlive t alive).readers :=
  List.mem_map.mpr ⟨r, there, if_neg differs⟩

theorem mem_setAlive {r : Reader} {t : Nat} {alive : Bool} (there : r ∈ (p.setAlive t alive).readers) :
    r ∈ p.readers ∧ r.thread ≠ t ∨ ∃ old ∈ p.readers, old.thread = t ∧ r = { old with alive } := by
  obtain ⟨old, inside, rfl⟩ := List.mem_map.mp there
  split
  · rename_i same
    exact .inr ⟨old, inside, same, rfl⟩
  · rename_i differs
    exact .inl ⟨inside, differs⟩

theorem apart (staff : Staff ⟨m, duty, before ++ hand :: after⟩) :
    (∀ other ∈ before ++ after, other.thread ≠ hand.thread) ∧
      ∀ r ∈ duty.newcomers, r.thread ≠ hand.thread := by
  have nodup := staff.threads
  simp only [List.map_append, List.map_cons, List.append_assoc, List.cons_append] at nodup
  have others := (List.nodup_cons.mp (List.nodup_middle.mp nodup)).1
  rw [← List.append_assoc, ← List.map_append] at others
  constructor
  · intro other there same
    exact others (List.mem_append_left _ (same ▸ List.mem_map_of_mem there))
  · intro r there same
    exact others (List.mem_append_right _ (same ▸ List.mem_map_of_mem there))

theorem threads_middle (before after : List Hand) (thread : hand'.thread = hand.thread) :
    (before ++ hand' :: after).map Hand.thread = (before ++ hand :: after).map Hand.thread := by
  simp [thread]

-- A hand that goes on keeps its entry.
theorem hand_goes_on (staff : Staff ⟨⟨h, p⟩, duty, before ++ hand :: after⟩)
    (entry : hand'.reader = hand.reader) (finished : hand'.phase.finished = hand.phase.finished)
    (threads : h'.threads = h.threads) (readers : p'.readers = p.readers) :
    Staff ⟨⟨h', p'⟩, duty, before ++ hand' :: after⟩ := by
  obtain ⟨nodup, bounded, known, kept, newcomer⟩ := staff
  have same := threads_middle before after (congrArg Reader.thread entry)
  constructor
  · simpa only [same] using nodup
  · simpa only [same, threads] using bounded
  · simpa only [readers, List.map_append, List.map_cons, entry] using known
  · intro other there unfinished
    rw [readers]
    rcases mem_middle.mp there with rfl | others
    · rw [entry]
      exact kept hand (mem_middle.mpr (.inl rfl)) (finished.symm.trans unfinished)
    · exact kept other (mem_middle.mpr (.inr others)) unfinished
  · simpa only [readers] using newcomer

theorem hand_ends (staff : Staff ⟨⟨h, p⟩, duty, before ++ hand :: after⟩)
    (entry : hand'.reader = { hand.reader with alive := false })
    (finished : hand'.phase.finished = true) (threads : h'.threads = h.threads)
    (readers : p'.readers = (p.setAlive hand.thread false).readers) :
    Staff ⟨⟨h', p'⟩, duty, before ++ hand' :: after⟩ := by
  obtain ⟨others, newcomers⟩ := staff.apart
  obtain ⟨nodup, bounded, known, kept, newcomer⟩ := staff
  have same := threads_middle before after (congrArg Reader.thread entry)
  constructor
  · simpa only [same] using nodup
  · simpa only [same, threads] using bounded
  · intro r there
    rw [readers] at there
    rcases mem_setAlive there with ⟨untouched, differs⟩ | ⟨old, listed, thread, rfl⟩
    · rcases List.mem_append.mp (known r untouched) with working | new
      · obtain ⟨other, inside, rfl⟩ := List.mem_map.mp working
        rcases mem_middle.mp inside with rfl | inside
        · exact absurd rfl differs
        · exact List.mem_append_left _ (List.mem_map_of_mem (mem_middle.mpr (.inr inside)))
      · exact List.mem_append_right _ new
    · rcases List.mem_append.mp (known old listed) with working | new
      · obtain ⟨other, inside, rfl⟩ := List.mem_map.mp working
        rcases mem_middle.mp inside with rfl | inside
        · rw [← entry]
          exact List.mem_append_left _ (List.mem_map_of_mem (mem_middle.mpr (.inl rfl)))
        · exact absurd thread (others other inside)
      · exact absurd thread (newcomers old new)
  · intro other there unfinished
    rcases mem_middle.mp there with rfl | there
    · exact absurd (finished.symm.trans unfinished) Bool.noConfusion
    · rw [readers]
      exact setAlive_other false (others other there)
        (kept other (mem_middle.mpr (.inr there)) unfinished)
  · intro r there
    obtain ⟨idle, inside⟩ := newcomer r there
    rw [readers]
    exact ⟨idle, setAlive_other false (newcomers r there) inside⟩

theorem hand_turns (staff : Staff ⟨m, duty, before ++ hand :: after⟩)
    (advances : Advances hand hand' m m') (threads : m'.host.threads = m.host.threads) :
    Staff ⟨m', duty, before ++ hand' :: after⟩ := by
  rcases advances.readers with ⟨finished, readers⟩ | ⟨finished, readers⟩
  · apply staff.hand_goes_on _ finished threads readers
    simp only [Hand.reader, advances.thread, advances.sock, advances.peer, finished]
  · apply staff.hand_ends _ finished threads readers
    simp only [Hand.reader, advances.thread, advances.sock, advances.peer, finished, Bool.not_true]

theorem hires {sock : SocketId} {peer : Address} (staff : Staff ⟨⟨h, p⟩, .hiring sock peer, hands⟩) :
    Staff ⟨⟨{ h with threads := h.threads + 1 }, p.hire { thread := h.threads, sock, peer }⟩,
      .starting { thread := h.threads, sock, peer }, hands⟩ := by
  obtain ⟨nodup, bounded, known, kept, newcomer⟩ := staff
  simp only [Duty.newcomers, List.map_nil, List.append_nil] at nodup bounded known
  constructor
  · simp only [Duty.newcomers, List.map_cons, List.map_nil]
    refine List.nodup_append.mpr ⟨nodup, List.nodup_singleton _, ?_⟩
    intro t there other new same
    have less := bounded t there
    rw [same, List.mem_singleton.mp new] at less
    exact Nat.lt_irrefl _ less
  · intro t there
    cases List.mem_append.mp there with
    | inl before => exact Nat.lt_succ_of_lt (bounded t before)
    | inr new => exact Nat.lt_succ_of_le (Nat.le_of_eq (List.mem_singleton.mp new))
  · intro r there
    cases List.mem_append.mp there with
    | inl before => exact List.mem_append_left _ (known r (List.mem_filter.mp before).1)
    | inr new => exact List.mem_append_right _ new
  · intro hand there unfinished
    apply List.mem_append_left
    exact List.mem_filter.mpr ⟨kept hand there unfinished, by simp [Hand.reader, unfinished]⟩
  · intro r new
    rw [List.mem_singleton.mp new]
    exact ⟨rfl, List.mem_append_right _ (List.mem_singleton_self _)⟩

theorem starts {r : Reader} (staff : Staff ⟨⟨h, p⟩, .starting r, hands⟩) :
    Staff ⟨⟨h.emit (.threadStart r.thread), p.setAlive r.thread true⟩, .reporting r.peer,
      hands ++ [.of r]⟩ := by
  obtain ⟨nodup, bounded, known, kept, newcomer⟩ := staff
  simp only [Duty.newcomers, List.map_cons, List.map_nil] at nodup bounded known newcomer
  obtain ⟨-, inside⟩ := newcomer r (List.mem_singleton_self r)
  have others (hand : Hand) (there : hand ∈ hands) : hand.thread ≠ r.thread := by
    apply (List.nodup_append.mp nodup).2.2
    · exact List.mem_map_of_mem there
    · exact List.mem_singleton_self _
  have entry : (Hand.of r).reader = { r with alive := true } := rfl
  have all : (hands ++ [Hand.of r]).map Hand.thread = hands.map Hand.thread ++ [r.thread] := by
    rw [List.map_append]
    rfl
  constructor
  · simpa only [Duty.newcomers, List.map_nil, List.append_nil, all] using nodup
  · simp only [Duty.newcomers, List.map_nil, List.append_nil, all]
    exact bounded
  · intro other there
    simp only [Duty.newcomers, List.append_nil, List.map_append, List.map_cons, List.map_nil, entry]
    cases mem_setAlive there with
    | inl untouched =>
      cases List.mem_append.mp (known other untouched.1) with
      | inl working => exact List.mem_append_left _ working
      | inr new => exact absurd (congrArg Reader.thread (List.mem_singleton.mp new)) untouched.2
    | inr altered =>
      obtain ⟨old, before, thread, rfl⟩ := altered
      cases List.mem_append.mp (known old before) with
      | inl working =>
        obtain ⟨hand, present, rfl⟩ := List.mem_map.mp working
        exact absurd thread (others hand present)
      | inr new =>
        rw [List.mem_singleton.mp new]
        exact List.mem_append_right _ (List.mem_singleton_self _)
  · intro hand there unfinished
    cases List.mem_append.mp there with
    | inl before => exact setAlive_other true (others hand before) (kept hand before unfinished)
    | inr new =>
      rw [List.mem_singleton.mp new, entry]
      exact List.mem_map.mpr ⟨r, inside, if_pos rfl⟩
  · exact nofun

theorem newcomers_of_idle {duty : Duty} (free : duty.idle = true) : duty.newcomers = [] := by
  cases duty <;> first | rfl | exact Bool.noConfusion free

theorem loop_turns (staff : Staff ⟨m, duty, hands⟩) (orderly : m.host.Orderly)
    (loops : Loops duty m duty' m') : Staff ⟨m', duty', hands ++ duty.hires⟩ := by
  cases loops with
  | idles free free' _ work =>
    rw [(Duty.free_of_idle free).2.2.1, List.append_nil]
    have none := (newcomers_of_idle free').trans (newcomers_of_idle free).symm
    exact staff.same (work.1 orderly).2.threads rfl none
  | leaves free holds alone work =>
    rw [(Duty.free_of_idle free).2.2.1, List.append_nil]
    exact staff.same (work.1 orderly).2.threads rfl (newcomers_of_idle free).symm
  | accepts work known queue =>
    simp only [Duty.hires, List.append_nil]
    exact staff.same (work.1 orderly).2.threads rfl rfl
  | prepares work | refuses work _ =>
    simp only [Duty.hires, List.append_nil]
    exact staff.same (work.1 orderly).2.threads rfl rfl
  | lists =>
    simp only [Duty.hires, List.append_nil]
    exact staff.same rfl rfl rfl
  | hires =>
    simp only [Duty.hires, List.append_nil]
    exact staff.hires
  | starts => exact staff.starts
  | closes work same _ =>
    simp only [Duty.hires, List.append_nil]
    cases same with
    | inl same => exact staff.same (work.1 orderly).2.threads (by rw [same]) rfl
    | inr marked => exact staff.same (work.1 orderly).2.threads (by rw [marked]) rfl
  | ends work =>
    simp only [Duty.hires, List.append_nil]
    exact staff.same (work.1 orderly).2.threads rfl rfl
  | rests =>
    simp only [Duty.hires, List.append_nil]
    exact staff

theorem turn [Clock T] {a b : Stage T} (staff : Staff a) (orderly : a.machine.host.Orderly)
    (turn : Turn a b) : Staff b := by
  cases turn with
  | @loop m m' duty duty' hands ran =>
    exact staff.loop_turns orderly ((turn_loops duty m.host m.prog).of_ok ran)
  | @hand m m' duty before after hand hand' ran =>
    have advances := (turn_advances hand m.host m.prog).of_ok ran
    obtain ⟨got, -, work⟩ := advances.host
    exact staff.hand_turns advances (work.1 orderly).2.threads

end Staff

section Listening
variable [Clock T] {m m' : Machine T (Crew T)} {h h' : Host T} {p p' : Crew T} {duty duty' : Duty}
  {hands hands' : List Hand}

-- The listener is nobody's client, and can be reached while the loop goes on.
structure Listening (s : Stage T) : Prop where
  apart : s.machine.prog.sock ∉ s.machine.host.accepted
  idle : s.machine.prog.sock ∉ s.machine.host.pending
  bounded : s.machine.prog.sock < s.machine.host.sockets.length
  hears : s.duty.why? = none → ∃ l, s.machine.host.sock? s.machine.prog.sock = some l ∧
    l.isOpen = true ∧ l.waits = true
  unclosed : s.duty.why? = none → s.machine.prog.closed = false

namespace Listening

theorem aside {s : Stage T} (listening : Listening s) :
    Aside s.machine.host s.machine.prog.sock :=
  ⟨listening.apart, listening.idle, listening.bounded⟩

theorem going {own : List SocketId} {new : List (SocketId × Bytes)}
    (listening : Listening ⟨⟨h, p⟩, duty, hands⟩) (orderly : h.Orderly) (path : Going own new h h')
    (sock : p'.sock = p.sock)
    (still : duty'.why? = none → duty.why? = none ∧ p.sock ∉ own ∧ p'.closed = p.closed) :
    Listening ⟨⟨h', p'⟩, duty', hands'⟩ := by
  obtain ⟨-, goes⟩ := path orderly
  obtain ⟨apart, idle, bounded⟩ := listening.aside.going goes
  obtain ⟨-, -, -, hears, unclosed⟩ := listening
  refine ⟨sock ▸ apart, sock ▸ idle, sock ▸ bounded, fun goesOn => ?_, fun goesOn => ?_⟩
  · obtain ⟨before, other, -⟩ := still goesOn
    obtain ⟨l, known, opened, waits⟩ := hears before
    obtain ⟨l', later, opened', timeout⟩ := goes.others p.sock l other known
    refine ⟨l', sock ▸ later, opened'.trans opened, ?_⟩
    rw [Sock.waits, timeout]
    exact waits
  · obtain ⟨before, -, closed⟩ := still goesOn
    exact closed.trans (unclosed before)

theorem hand_turns {before after : List Hand} {hand hand' : Hand}
    (listening : Listening ⟨m, duty, before ++ hand :: after⟩)
    (ledger : Ledger ⟨m, duty, before ++ hand :: after⟩) (advances : Advances hand hand' m m') :
    Listening ⟨m', duty, before ++ hand' :: after⟩ := by
  obtain ⟨got, -, work⟩ := advances.host
  have client := ledger.client (mem_middle.mpr (.inl rfl))
  apply listening.going ledger.strict.orderly work.1 advances.listener
  intro goesOn
  refine ⟨goesOn, fun mine => listening.apart ?_, advances.closed⟩
  exact List.mem_singleton.mp mine ▸ client

theorem accepts {id first : SocketId} {rest : List SocketId} {s : Sock T} {fd : Int}
    {peer : Address} (listening : Listening ⟨⟨h, p⟩, .accepting, hands⟩)
    (known : h.sock? id = some s) (queue : s.backlog = first :: rest) :
    Listening ⟨⟨(h.dequeue id rest).emit (.accept first fd), p⟩, .preparing first peer, hands⟩ := by
  have taken : Aside ((h.dequeue id rest).emit (.accept first fd)) p.sock :=
    listening.aside.accept known queue
  obtain ⟨apart, idle, bounded⟩ := taken
  refine ⟨apart, idle, bounded, fun _ => ?_, fun _ => listening.unclosed rfl⟩
  obtain ⟨l, found, opened, waits⟩ := listening.hears rfl
  refine ⟨if id = p.sock then { l with backlog := rest } else l, ?_, ?_, ?_⟩
  · refine (sock?_alter (h := h)).trans ?_
    simp only at found
    split <;> simp [found]
  · split <;> exact opened
  · split <;> exact waits

theorem loop_turns (listening : Listening ⟨m, duty, hands⟩) (ledger : Ledger ⟨m, duty, hands⟩)
    (loops : Loops duty m duty' m') : Listening ⟨m', duty', hands ++ duty.hires⟩ := by
  have orderly := ledger.strict.orderly
  cases loops with
  | idles free free' _ work =>
    have before := (Duty.free_of_idle free).2.2.2
    exact listening.going orderly work.1 rfl fun _ => ⟨before, List.not_mem_nil, rfl⟩
  | leaves free holds alone work => exact listening.going orderly work.1 rfl (by rintro ⟨⟩)
  | @accepts h middle p s first rest peer fd work known queue =>
    have later : Listening ⟨⟨middle, p⟩, .accepting, hands⟩ :=
      listening.going orderly work.1 rfl fun _ => ⟨rfl, List.not_mem_nil, rfl⟩
    simp only [Duty.hires, List.append_nil]
    exact later.accepts known queue
  | @prepares sock peer h h' p work =>
    have client : sock ∈ h.accepted :=
      ledger.accepted (List.mem_append_right _ (List.mem_singleton_self sock))
    apply listening.going orderly work.1 rfl
    intro _
    refine ⟨rfl, fun mine => listening.apart ?_, rfl⟩
    exact List.mem_singleton.mp mine ▸ client
  | refuses work _ => exact listening.going orderly work.1 rfl (by rintro ⟨⟩)
  | lists | hires | rests =>
    obtain ⟨apart, idle, bounded, hears, unclosed⟩ := listening
    exact ⟨apart, idle, bounded, hears, unclosed⟩
  | @starts r h p =>
    have path := (working_emit h (.threadStart r.thread) rfl rfl).1
    exact listening.going orderly path rfl fun _ => ⟨rfl, List.not_mem_nil, rfl⟩
  | closes work same _ =>
    cases same with
    | inl same => exact listening.going orderly work.1 (by rw [same]) (by rintro ⟨⟩)
    | inr marked => exact listening.going orderly work.1 (by rw [marked]) (by rintro ⟨⟩)
  | ends work => exact listening.going orderly work.1 rfl (by rintro ⟨⟩)

end Listening

-- What a crew that serves keeps in order from one turn to the next.
structure InOrder (s : Stage T) : Prop where
  ledger : Ledger s
  staff : Staff s
  listening : Listening s

theorem InOrder.turn {a b : Stage T} (inOrder : InOrder a) (turn : Turn a b) : InOrder b := by
  obtain ⟨ledger, staff, listening⟩ := inOrder
  refine ⟨ledger.turn turn, staff.turn ledger.strict.orderly turn, ?_⟩
  cases turn with
  | @loop m m' duty duty' hands ran =>
    exact listening.loop_turns ledger ((turn_loops duty m.host m.prog).of_ok ran)
  | @hand m m' duty before after hand hand' ran =>
    exact listening.hand_turns ledger ((turn_advances hand m.host m.prog).of_ok ran)

end Listening
end StreamRelay.Crew
