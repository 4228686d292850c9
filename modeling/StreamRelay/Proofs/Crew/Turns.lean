import StreamRelay.Proofs.Crew.Working

namespace StreamRelay.Crew
variable {T : Type} [Clock T]
open Run Host Counters

instance : Idle T (Crew T) := ⟨fun _ _ => rfl⟩

section Calls
variable {h h' : Host T} {p : Crew T} {id : SocketId}

theorem receive_works (limit : Nat) : Ends (Os.receive id limit) (⟨h, p⟩ : Machine T (Crew T))
    (fun data m' => ∃ h', Working [id] (if data.isEmpty then [] else [(id, data)]) h h' ∧
      (data.isEmpty = false → h'.workload < h.workload) ∧ m' = ⟨h', p⟩)
    (fun f m' => ∃ h', Working [] [] h h' ∧
      (∃ watched, ⟨.receive, id, watched, f⟩ ∈ h'.refusals) ∧ m' = ⟨h', p⟩) := by
  apply (receive_ends steady_working limit).imp
  · intro data m' reached
    obtain ⟨middle, s, path, known, -, taken | idle⟩ := reached
    · obtain ⟨-, rfl, rfl⟩ := taken
      have altered : Working [id] [] middle
          (middle.alter id fun s => { s with unread := s.unread.drop limit }) := by
        apply working_alter
        · exact fun _ => rfl
        · exact fun _ => rfl
        · exact fun _ => rfl
        · intro s
          simp only [Sock.weight, List.length_drop]
          omega
      refine ⟨_, path.trans (altered.trans (working_received _ id _)), fun some => ?_, rfl⟩
      have less : (middle.alter id fun s => { s with unread := s.unread.drop limit }).workload <
          middle.workload := by
        apply workload_alter_lt known
        have long : (s.unread.take limit).length ≠ 0 := by
          intro none
          rw [List.length_eq_zero_iff.mp none] at some
          exact Bool.noConfusion some
        simp only [Sock.weight, List.length_drop, List.length_take] at long ⊢
        omega
      exact Nat.lt_of_lt_of_le less path.2.light
    · obtain ⟨-, -, rfl, rfl⟩ := idle
      exact ⟨_, (path.trans (working_received middle id [])).widen,
        fun some => Bool.noConfusion some, rfl⟩
  · intro f m' reached
    obtain ⟨middle, path, rfl⟩ := reached
    exact ⟨_, steady_working.trans path (steady_working.note _ _ _ _), ⟨_, List.mem_cons_self⟩, rfl⟩

theorem forward_works (sink : Sink) (data : Bytes) (origin : Option SocketId) :
    Ends (sink.forward data origin) (⟨h, p⟩ : Machine T (Crew T))
      (fun _ m' => ∃ h', Working [] [] h h' ∧ m' = ⟨h', p⟩)
      (fun f m' => ∃ h', Working [] [] h h' ∧ f.isOs = false ∧
        (∃ watched, ⟨.sendTo, sink.sock, watched, f⟩ ∈ h'.refusals) ∧ m' = ⟨h', p⟩) := by
  have offered : Working [] [] h (h.emit (.offered origin data)) := working_emit h _ rfl rfl
  have remarks {h h' : Host T} (remarked : h.Remarked h') : Working [] [] h h' :=
    remarked.keeps (steady_working.refl h) (steady_working.logged h)
  apply ends_forward
  apply (sendTo_ends steady_working data sink.dest).imp
  · intro _ m' reached h' remarked
    obtain ⟨middle, s, path, -, rfl⟩ := reached
    have sent : Working [] [] middle (middle.emit (.datagram s.fd data sink.dest)) :=
      working_emit middle _ rfl rfl
    exact ⟨h', offered.trans (path.trans (sent.trans (remarks remarked))), rfl⟩
  · intro f m' reached
    obtain ⟨middle, path, rfl⟩ := reached
    have lost := offered.trans (path.trans (steady_working.note middle .sendTo sink.sock f))
    refine ⟨fun _ h' remarked => ⟨h', lost.trans (remarks remarked), rfl⟩, fun foreign => ?_⟩
    exact ⟨_, lost, foreign, ⟨_, List.mem_cons_self⟩, rfl⟩

theorem setTimeout_works (timeout : Option T) :
    Ends (Os.setTimeout id timeout) (⟨h, p⟩ : Machine T (Crew T))
      (fun _ m' => ∃ h', Working [id] [] h h' ∧ m' = ⟨h', p⟩)
      (fun f m' => ∃ h', Working [] [] h h' ∧
        (∃ watched, ⟨.setTimeout, id, watched, f⟩ ∈ h'.refusals) ∧ m' = ⟨h', p⟩) := by
  apply (setTimeout_ends steady_working timeout).imp
  · intro _ m' reached
    obtain ⟨middle, s, path, -, -, rfl⟩ := reached
    have altered : Working [id] [] middle (middle.alter id fun s => { s with timeout }) := by
      apply working_alter
      all_goals first | exact fun _ => rfl | exact fun _ => Nat.le_refl _
    exact ⟨_, path.trans altered, rfl⟩
  · intro f m' reached
    obtain ⟨middle, path, rfl⟩ := reached
    exact ⟨_, steady_working.trans path (steady_working.note _ _ _ _), ⟨_, List.mem_cons_self⟩, rfl⟩

theorem wake_works : Ends (wake id) (⟨h, p⟩ : Machine T (Crew T))
    (fun _ m' => ∃ h', Working [id] [] h h' ∧ m' = ⟨h', p⟩)
    (fun _ m' => ∃ h', Working [id] [] h h' ∧ m' = ⟨h', p⟩) := by
  have told : Working [] [] h { h with shutdowns := h.shutdowns ++ [h.number id] } :=
    working_of_same rfl rfl rfl rfl rfl rfl rfl (worn_same rfl rfl rfl (seen_same rfl))
  have shuts : Ends (Os.shutdown id) (⟨h, p⟩ : Machine T (Crew T))
      (fun _ m' => ∃ h', Working [id] [] h h' ∧ m' = ⟨h', p⟩)
      (fun _ m' => ∃ h', Working [id] [] h h' ∧ m' = ⟨h', p⟩) := by
    simp only [Os.shutdown, ends_bind, ends_changes]
    apply (steady_working.incident .shutdown _).imp
    · intro _ m' reached
      obtain ⟨middle, path, rfl⟩ := reached.cases
      have arrived := steady_working.trans told path
      apply opened_ends.imp
      · intro s m' found
        obtain ⟨rfl, -, -⟩ := found
        have altered : Working [id] [] middle (middle.alter id fun s => { s with shut := true }) := by
          apply working_alter
          all_goals first | exact fun _ => rfl | exact fun _ => Nat.le_refl _
        exact ⟨_, arrived.trans altered, rfl⟩
      · intro f m' found
        obtain ⟨rfl, -⟩ := found
        exact ⟨_, arrived.widen, rfl⟩
    · intro f m' reached
      obtain ⟨middle, path, rfl⟩ := reached.cases
      exact ⟨_, (steady_working.trans told path).widen, rfl⟩
  simp only [wake, ends_bind, ends_outcome]
  apply shuts.imp
  · exact fun _ _ reached => reached
  · intro f m' reached
    split
    · exact reached
    · exact reached

end Calls

-- What a turn of a hand does, phase by phase.
inductive Phase.Moves (thread : Nat) (sock : SocketId) :
    Phase → Machine T (Crew T) → Phase → Machine T (Crew T) → Prop where
  | ended {h h' p} (work : Working [sock] [] h h') :
      Phase.Moves thread sock .reading ⟨h, p⟩ (.closing .ended) ⟨h', p⟩
  | gets {data h h' p} (work : Working [sock] [(sock, data)] h h') (less : h'.workload < h.workload) :
      Phase.Moves thread sock .reading ⟨h, p⟩ (.holding data) ⟨h', p⟩
  | fails {f h h' p} (work : Working [] [] h h') :
      Phase.Moves thread sock .reading ⟨h, p⟩ (.failing f) ⟨h', p⟩
  | dies {f h h' p} (work : Working [] [] h h') (foreign : f.isOs = false)
      (noted : ∃ watched, ⟨.receive, sock, watched, f⟩ ∈ h'.refusals) :
      Phase.Moves thread sock .reading ⟨h, p⟩ (.dying f none) ⟨h', p⟩
  | passes {data sent h h' p} (work : Working [] [] h h') :
      Phase.Moves thread sock (.holding data) ⟨h, p⟩ (.counting data sent) ⟨h', p⟩
  | drops {data f h h' p} (work : Working [] [] h h') (foreign : f.isOs = false)
      (noted : ∃ watched, ⟨.sendTo, p.sink.sock, watched, f⟩ ∈ h'.refusals) :
      Phase.Moves thread sock (.holding data) ⟨h, p⟩ (.dying f (some data)) ⟨h', p⟩
  | counts {data sent h p} :
      Phase.Moves thread sock (.counting data sent) ⟨h, p⟩ .reading ⟨h, p.record sent data.length⟩
  | overlooks {f h p} (told : h.serviceStop = true) :
      Phase.Moves thread sock (.failing f) ⟨h, p⟩ (.closing (.broke false)) ⟨h, p⟩
  | reports {f text h p} : Phase.Moves thread sock (.failing f) ⟨h, p⟩ .noting ⟨h.logged .warning text, p⟩
  | notes {h p} : Phase.Moves thread sock .noting ⟨h, p⟩ (.closing (.broke true)) ⟨h, p.recordReadError⟩
  | closes {exit text h p} :
      Phase.Moves thread sock (.closing exit) ⟨h, p⟩ (.signing exit) ⟨(h.shut sock).logged .info text, p⟩
  | signs {exit h p} :
      Phase.Moves thread sock (.signing exit) ⟨h, p⟩ (.leaving exit) ⟨h, p.untrack sock⟩
  | leaves {exit h p} :
      Phase.Moves thread sock (.leaving exit) ⟨h, p⟩ (.away exit) ⟨h, p.setAlive thread false⟩
  | falls {f lost h p} : Phase.Moves thread sock (.dying f lost) ⟨h, p⟩ (.fading lost)
      ⟨(h.shut sock).emit (.threadDied thread f), p⟩
  | fades {lost h p} :
      Phase.Moves thread sock (.fading lost) ⟨h, p⟩ (.dead lost) ⟨h, p.setAlive thread false⟩
  | rests {phase m} (finished : phase.finished = true) : Phase.Moves thread sock phase m phase m

theorem turn_moves (hand : Hand) (h : Host T) (p : Crew T) :
    Ends hand.turn ⟨h, p⟩ (fun hand' m' => ∃ phase, hand' = hand.moved phase ∧
      Phase.Moves hand.thread hand.sock hand.phase ⟨h, p⟩ phase m') fun _ _ => False := by
  obtain ⟨thread, sock, peer, phase, counted⟩ := hand
  simp only [Hand.turn, ends_bind, ends_pure]
  cases phase with
  | reading =>
    simp only [Hand.next, ends_bind, ends_gets, ends_outcome]
    apply (receive_works p.bufferSize).imp
    · intro data m' reached
      obtain ⟨h', work, less, rfl⟩ := reached
      cases data with
      | nil => exact ⟨_, rfl, .ended work⟩
      | cons byte rest => exact ⟨_, rfl, .gets work (less rfl)⟩
    · intro f m' reached
      obtain ⟨h', work, noted, rfl⟩ := reached
      split
      · exact ⟨_, rfl, .fails work⟩
      · rename_i foreign
        exact ⟨_, rfl, .dies work (eq_false_of_ne_true foreign) noted⟩
  | holding data =>
    simp only [Hand.next, ends_bind, ends_gets, ends_outcome]
    apply (forward_works p.sink data (some sock)).imp
    · intro sent m' reached
      obtain ⟨h', work, rfl⟩ := reached
      exact ⟨_, rfl, .passes work⟩
    · intro f m' reached
      obtain ⟨h', work, foreign, noted, rfl⟩ := reached
      exact ⟨_, rfl, .drops work foreign noted⟩
  | counting => exact ⟨_, rfl, .counts⟩
  | failing f =>
    simp only [Hand.next, ends_bind, Os.isSet, ends_asks]
    split
    · rename_i told
      exact ⟨_, rfl, .overlooks told⟩
    · exact ⟨_, rfl, .reports⟩
  | noting => exact ⟨_, rfl, .notes⟩
  | closing => exact ⟨_, rfl, .closes⟩
  | signing => exact ⟨_, rfl, .signs⟩
  | leaving => exact ⟨_, rfl, .leaves⟩
  | dying => exact ⟨_, rfl, .falls⟩
  | fading => exact ⟨_, rfl, .fades⟩
  | away | dead => exact ⟨_, rfl, .rests rfl⟩

structure Advances (hand hand' : Hand) (m m' : Machine T (Crew T)) : Prop where
  thread : hand'.thread = hand.thread
  sock : hand'.sock = hand.sock
  peer : hand'.peer = hand.peer
  host : ∃ got : List Bytes, hand'.taken = hand.taken ++ got ∧
    Working [hand.sock] (got.map (hand.sock, ·)) m.host m'.host
  counters : ∃ part, hand'.tally = hand.tally + part ∧
    m'.prog.stats.counters = m.prog.stats.counters + part
  clients : hand'.phase.signed = hand.phase.signed ∧ m'.prog.clients = m.prog.clients ∨
    hand.phase.signed = false ∧ hand'.phase.signed = true ∧
      m'.prog.clients = m.prog.clients.filter (· ≠ hand.sock)
  readers : hand'.phase.finished = hand.phase.finished ∧ m'.prog.readers = m.prog.readers ∨
    hand'.phase.finished = true ∧ m'.prog.readers = (m.prog.setAlive hand.thread false).readers
  listener : m'.prog.sock = m.prog.sock
  closed : m'.prog.closed = m.prog.closed
  -- A read error is left out only if the end was asked for by then.
  late : hand'.phase.exit? = some (.broke false) → hand.phase.exit? = some (.broke false) ∨
    (∃ f, hand.phase = .failing f) ∧ m.host.serviceStop = true

section Hands
variable {hand : Hand} {phase : Phase} {h h' : Host T} {p : Crew T}

theorem taken_moved {got : List Bytes} (held : (hand.phase.counts.map Prod.fst) ++ phase.held.toList =
    hand.phase.held.toList ++ got) : (hand.moved phase).taken = hand.taken ++ got := by
  simp only [Hand.taken, Hand.moved, List.map_append, List.append_assoc, held]

omit [Clock T] in
theorem passed_append (counted more : List (Bytes × Bool)) :
    passed (counted ++ more) = passed counted + passed more := by
  rw [passed, List.map_append, List.sum_append, passed, passed]

omit [Clock T] in
theorem tally_moved {part : Counters}
    (gained : phase.tally + passed hand.phase.counts = hand.phase.tally + part) :
    (hand.moved phase).tally = hand.tally + part := by
  simp only [Hand.tally, Hand.moved, passed_append]
  calc
    phase.tally + (passed hand.counted + passed hand.phase.counts)
      = phase.tally + passed hand.phase.counts + passed hand.counted := by
        rw [add_comm (passed hand.counted), add_assoc]
    _ = hand.phase.tally + part + passed hand.counted := by rw [gained]
    _ = hand.phase.tally + passed hand.counted + part := add_right_comm _ _ _

omit [Clock T] in
theorem advances_quietly (got : List Bytes) (counts : hand.phase.counts = [])
    (held : phase.held.toList = hand.phase.held.toList ++ got)
    (tally : phase.tally = hand.phase.tally) (signed : phase.signed = hand.phase.signed)
    (finished : phase.finished = hand.phase.finished)
    (late : phase.exit? = some (.broke false) → hand.phase.exit? = some (.broke false) ∨
      (∃ f, hand.phase = .failing f) ∧ h.serviceStop = true)
    (work : Working [hand.sock] (got.map (hand.sock, ·)) h h') :
    Advances hand (hand.moved phase) ⟨h, p⟩ ⟨h', p⟩ where
  thread := rfl
  sock := rfl
  peer := rfl
  host := ⟨got, taken_moved (by rw [counts, held]; rfl), work⟩
  counters := by
    refine ⟨0, tally_moved ?_, (add_zero _).symm⟩
    rw [counts, tally]
    rfl
  clients := .inl ⟨signed, rfl⟩
  readers := .inl ⟨finished, rfl⟩
  listener := rfl
  closed := rfl
  late := late

omit [Clock T] in
theorem working_self (own : List SocketId) (h : Host T) : Working own [] h h :=
  Working.widen (working_of_same rfl rfl rfl rfl rfl rfl rfl (.refl h))

omit [Clock T] in
theorem advances_counting {f : Counters → Counters} {part : Counters}
    (held : (hand.phase.counts.map Prod.fst) ++ phase.held.toList = hand.phase.held.toList)
    (gained : phase.tally + passed hand.phase.counts = hand.phase.tally + part)
    (adds : f p.stats.counters = p.stats.counters + part) (signed : phase.signed = hand.phase.signed)
    (finished : phase.finished = hand.phase.finished) (live : phase.exit? ≠ some (.broke false)) :
    Advances hand (hand.moved phase) ⟨h, p⟩ ⟨h, p.count f⟩ where
  thread := rfl
  sock := rfl
  peer := rfl
  host := ⟨[], taken_moved (held.trans (List.append_nil _).symm), working_self _ h⟩
  counters := ⟨part, tally_moved gained, adds⟩
  clients := .inl ⟨signed, rfl⟩
  readers := .inl ⟨finished, rfl⟩
  listener := rfl
  closed := rfl
  late gone := absurd gone live

omit [Clock T] in
theorem advances_finished (counts : hand.phase.counts = []) (held : phase.held = hand.phase.held)
    (tally : phase.tally = hand.phase.tally) (signed : phase.signed = hand.phase.signed)
    (finished : phase.finished = true) (exit : phase.exit? = hand.phase.exit?) :
    Advances hand (hand.moved phase) ⟨h, p⟩ ⟨h, p.setAlive hand.thread false⟩ where
  thread := rfl
  sock := rfl
  peer := rfl
  host := by
    refine ⟨[], taken_moved ?_, working_self _ h⟩
    rw [counts, held, List.append_nil]
    rfl
  counters := by
    refine ⟨0, tally_moved ?_, (add_zero _).symm⟩
    rw [counts, tally]
    rfl
  clients := .inl ⟨signed, rfl⟩
  readers := .inr ⟨finished, rfl⟩
  listener := rfl
  closed := rfl
  late gone := .inl (exit ▸ gone)

theorem Phase.Moves.advances {m m' : Machine T (Crew T)}
    (moves : Phase.Moves hand.thread hand.sock hand.phase m phase m') :
    Advances hand (hand.moved phase) m m' := by
  obtain ⟨thread, sock, peer, now, counted⟩ := hand
  cases moves with
  | ended work => exact advances_quietly [] rfl rfl rfl rfl rfl (by rintro ⟨⟩) work
  | @gets data h h' p work less => exact advances_quietly [data] rfl rfl rfl rfl rfl (by rintro ⟨⟩) work
  | fails work | dies work | passes work | drops work =>
    exact advances_quietly [] rfl rfl rfl rfl rfl (by rintro ⟨⟩) work.widen
  | @counts data sent h p =>
    have gained : Phase.reading.tally + passed [(data, sent)] =
        (Phase.counting data sent).tally + ({} : Counters).forwarded sent data.length := by
      simp only [passed, List.map_cons, List.map_nil, List.sum_cons, List.sum_nil, add_zero]
      rfl
    exact advances_counting rfl gained (forwarded_eq_add _ _ _) rfl rfl (by rintro ⟨⟩)
  | @overlooks f h p told =>
    exact advances_quietly [] rfl rfl rfl rfl rfl (fun _ => .inr ⟨⟨f, rfl⟩, told⟩) (working_self _ h)
  | @reports f text h p =>
    exact advances_quietly [] rfl rfl rfl rfl rfl (by rintro ⟨⟩)
      (steady_working.logged h .warning text).widen
  | notes =>
    have gained : (Phase.closing (.broke true)).tally + passed [] =
        Phase.noting.tally + ({ readErrors := 1 } : Counters) := rfl
    exact advances_counting rfl gained (by apply ext_fields <;> simp) rfl rfl (by rintro ⟨⟩)
  | @closes exit text h p =>
    have work := (working_shut h sock).trans (steady_working.logged (h.shut sock) .info text)
    exact advances_quietly [] rfl rfl rfl rfl rfl (fun late => .inl late) work
  | @signs exit h p =>
    refine ⟨rfl, rfl, rfl, ⟨[], taken_moved rfl, working_self _ h⟩,
      ⟨{ closed := 1 }, tally_moved ?_, ?_⟩, .inr ⟨rfl, rfl, rfl⟩, .inl ⟨rfl, rfl⟩, rfl,
      rfl, fun late => .inl late⟩
    · apply ext_fields <;> simp [Phase.tally, Phase.signed, Phase.counts, passed, Phase.exit?]
    · apply ext_fields <;> simp [untrack, count]
  | leaves | fades => exact advances_finished rfl rfl rfl rfl rfl rfl
  | @falls f lost h p =>
    have died := steady_working.emit (h.shut sock) (.threadDied thread f) rfl
    have held : (Phase.fading lost).held.toList = (Phase.dying f lost).held.toList ++ [] :=
      (List.append_nil _).symm
    exact advances_quietly [] rfl held rfl rfl rfl (by rintro ⟨⟩) ((working_shut h sock).trans died)
  | rests finished =>
    have counts : now.counts = [] := by
      cases now <;> first | rfl | exact absurd finished Bool.false_ne_true
    exact advances_quietly [] counts (List.append_nil _).symm rfl rfl rfl (fun late => .inl late)
      (working_self _ m.host)

theorem turn_advances (hand : Hand) (h : Host T) (p : Crew T) :
    Ends hand.turn ⟨h, p⟩ (fun hand' m' => Advances hand hand' ⟨h, p⟩ m') fun _ _ => False := by
  apply (turn_moves hand h p).normally
  rintro _ _ ⟨phase, rfl, moves⟩
  exact moves.advances

end Hands

-- What is true when the loop is left for a reason.
def Why.Holds (h : Host T) : Why → Prop
  | told => h.serviceStop = true
  | broken f => f.isOs = false
  | unready sock f => ∃ watched, ⟨.setTimeout, sock, watched, f⟩ ∈ h.refusals

-- What a turn of the loop may come to.
inductive Loops : Duty → Machine T (Crew T) → Duty → Machine T (Crew T) → Prop where
  | idles {duty duty' h h' p} (free : duty.idle = true) (free' : duty'.idle = true)
      (nearer : h.serviceStop = true → duty'.weight p < duty.weight p)
      (work : Working [] [] h h') : Loops duty ⟨h, p⟩ duty' ⟨h', p⟩
  | leaves {duty why h h' p} (free : duty.idle = true) (holds : why.Holds h')
      (alone : why.inHand = []) (work : Working [] [] h h') :
      Loops duty ⟨h, p⟩ (.closing why [.marking]) ⟨h', p⟩
  | accepts {h middle p s first rest peer fd} (work : Working [] [] h middle)
      (known : middle.sock? p.sock = some s) (queue : s.backlog = first :: rest) :
      Loops .accepting ⟨h, p⟩ (.preparing first peer)
        ⟨(middle.dequeue p.sock rest).emit (.accept first fd), p⟩
  | prepares {sock peer h h' p} (work : Working [sock] [] h h') :
      Loops (.preparing sock peer) ⟨h, p⟩ (.listing sock peer) ⟨h', p⟩
  | refuses {sock peer f h h' p} (work : Working [] [] h h')
      (holds : (Why.unready sock f).Holds h') :
      Loops (.preparing sock peer) ⟨h, p⟩ (.closing (.unready sock f) [.marking]) ⟨h', p⟩
  | lists {sock peer h p} :
      Loops (.listing sock peer) ⟨h, p⟩ (.hiring sock peer) ⟨h, p.track sock⟩
  | hires {sock peer h p} :
      Loops (.hiring sock peer) ⟨h, p⟩ (.starting { thread := h.threads, sock, peer })
        ⟨{ h with threads := h.threads + 1 }, p.hire { thread := h.threads, sock, peer }⟩
  | starts {r h p} :
      Loops (.starting r) ⟨h, p⟩ (.reporting r.peer)
        ⟨h.emit (.threadStart r.thread), p.setAlive r.thread true⟩
  | closes {why left left' own h h' p p'} (work : Working own [] h h')
      (same : p' = p ∨ p' = { p with closed := true })
      (fewer : weigh (Chore.weight p) left' < weigh (Chore.weight p) left) :
      Loops (.closing why left) ⟨h, p⟩ (.closing why left') ⟨h', p'⟩
  | ends {why left cut own h h' p} (work : Working own [] h h') :
      Loops (.closing why left) ⟨h, p⟩ (.gone why cut) ⟨h', p⟩
  | rests {why cut m} : Loops (.gone why cut) m (.gone why cut) m

omit [Clock T] in
theorem weigh_map {α : Type} {f : α → Chore} {p : Crew T} (one : ∀ item, (f item).weight p = 1)
    (items : List α) : weigh (Chore.weight p) (items.map f) = items.length := by
  induction items with
  | nil => rfl
  | cons first rest ih => rw [List.map_cons, weigh, one, ih, List.length_cons, Nat.add_comm]

theorem chore_closes (chore : Chore) (h : Host T) (p : Crew T) :
    Ends chore.turn ⟨h, p⟩
      (fun more m' => ∃ own h' p', Working own [] h h' ∧ (p' = p ∨ p' = { p with closed := true }) ∧
        weigh (Chore.weight p) more < chore.weight p ∧ m' = ⟨h', p'⟩)
      (fun _ m' => ∃ own h', Working own [] h h' ∧ m' = ⟨h', p⟩) := by
  cases chore with
  | marking =>
    simp only [Chore.turn, ends_bind, ends_gets]
    split
    · exact ⟨[], h, p, steady_working.refl h, .inl rfl, by simp only [weigh, Chore.weight]; omega, rfl⟩
    · exact ⟨[], h, _, steady_working.refl h, .inr rfl, by simp only [weigh, Chore.weight]; omega, rfl⟩
  | telling => exact ⟨[], _, p, working_raise h, .inl rfl, Nat.one_pos, rfl⟩
  | shutting => exact ⟨[p.sock], _, p, working_shut h p.sock, .inl rfl, Nat.one_pos, rfl⟩
  | surveying | calling =>
    refine ⟨[], h, p, steady_working.refl h, .inl rfl, ?_, rfl⟩
    rw [weigh_map fun _ => rfl]
    exact Nat.lt_add_of_pos_left Nat.one_pos
  | waking sock =>
    simp only [Chore.turn, ends_bind]
    apply wake_works.imp
    · intro _ m' reached
      obtain ⟨h', work, rfl⟩ := reached
      exact ⟨[sock], h', p, work, .inl rfl, Nat.one_pos, rfl⟩
    · intro f m' reached
      obtain ⟨h', work, rfl⟩ := reached
      exact ⟨[sock], h', work, rfl⟩
  | joining r => exact ⟨[], _, p, steady_working.emit h _ rfl, .inl rfl, Nat.one_pos, rfl⟩
  | releasing => exact ⟨[p.sink.sock], _, p, working_shut h p.sink.sock, .inl rfl, Nat.one_pos, rfl⟩
  | summing => exact ⟨[], _, p, steady_working.logged h _ _, .inl rfl, Nat.one_pos, rfl⟩

theorem turn_loops (duty : Duty) (h : Host T) (p : Crew T) :
    Ends duty.turn ⟨h, p⟩ (fun duty' m' => Loops duty ⟨h, p⟩ duty' m') fun _ _ => False := by
  cases duty with
  | announcing =>
    simp only [Duty.turn, ends_bind, ends_gets]
    have logged (text : String → String) :=
      logAny_ends (m := (⟨h, p⟩ : Machine T (Crew T))) (steady_working.refl h)
        (steady_working.logged h) .info p.sink.dest.logged? text
    apply (logged _).imp
    · intro _ m' reached
      obtain ⟨h', work, rfl⟩ := reached.cases
      exact .idles rfl rfl (fun _ => by simp only [Duty.weight]; omega) work
    · exact fun _ _ never => never
  | looking =>
    simp only [Duty.turn, ends_bind, Os.isSet, ends_asks]
    split
    · rename_i told
      exact .leaves rfl told rfl (steady_working.refl h)
    · rename_i going
      exact .idles rfl rfl (fun told => absurd told going) (steady_working.refl h)
  | accepting =>
    simp only [Duty.turn, ends_bind, ends_gets, ends_outcome]
    apply (accept_ends steady_working).imp
    · intro found m' reached
      obtain ⟨middle, s, rest, work, known, queue, rfl⟩ := reached
      exact .accepts work known queue
    · intro f m' reached
      obtain ⟨h', work, rfl⟩ := reached.cases
      have nearer : Duty.looking.weight p < Duty.accepting.weight p := by
        simp only [Duty.weight]
        omega
      split
      · exact .idles rfl rfl (fun _ => nearer) work
      · split
        · simp only [ends_bind, ends_log, ends_pure]
          exact .idles rfl rfl (fun _ => nearer) (steady_working.trans work (steady_working.logged _ _ _))
        · rename_i foreign
          exact .leaves rfl (Bool.eq_false_iff.mpr foreign) rfl work
  | preparing sock peer =>
    simp only [Duty.turn, ends_bind, ends_outcome]
    apply (setTimeout_works none).imp
    · intro _ m' reached
      obtain ⟨h', work, rfl⟩ := reached
      exact .prepares work
    · intro f m' reached
      obtain ⟨h', work, noted, rfl⟩ := reached
      exact .refuses work noted
  | listing sock peer => exact .lists
  | hiring sock peer => exact .hires
  | starting r => exact .starts
  | reporting peer =>
    exact .idles rfl rfl (fun _ => by simp only [Duty.weight]; omega) (steady_working.logged h _ _)
  | closing why left =>
    cases left with
    | nil => exact .ends (steady_working.refl h)
    | cons chore rest =>
      simp only [Duty.turn, ends_bind, ends_outcome]
      apply (chore_closes chore h p).imp
      · intro more m' reached
        obtain ⟨own, h', p', work, same, fewer, rfl⟩ := reached
        exact .closes work same (by rw [weigh_append, weigh]; omega)
      · intro f m' reached
        obtain ⟨own, h', work, rfl⟩ := reached
        exact .ends work
  | gone why cut => exact .rests

end StreamRelay.Crew
