import StreamRelay.Proofs.Crew.Spending

namespace StreamRelay.Crew
variable {T : Type} [Clock T]
open Run Host

-- The turns of one hand, with nothing between them.
def Works : Machine T (Crew T) × Hand → Machine T (Crew T) × Hand → Prop :=
  Relation.ReflTransGen fun a b => a.2.turn a.1 = .ok b.2 b.1

theorem Works.trans {a b c : Machine T (Crew T) × Hand} (one : Works a b) (two : Works b c) :
    Works a c := Relation.ReflTransGen.trans one two

def Turns : Stage T → Stage T → Prop := Relation.ReflTransGen Turn

-- A reader's hand at some point of its life.
def Hand.doing (r : Reader) (phase : Phase) (counted : List (Bytes × Bool)) : Hand :=
  { Hand.of r with phase, counted }

-- What a hand does alone it does among others.
theorem Works.among {m m' : Machine T (Crew T)} {hand hand' : Hand} {before after : List Hand}
    {duty : Duty} (works : Works (m, hand) (m', hand')) :
    Turns ⟨m, duty, before ++ hand :: after⟩ ⟨m', duty, before ++ hand' :: after⟩ := by
  generalize here : (m, hand) = a at works
  generalize there : (m', hand') = b at works
  induction works generalizing m' hand' with
  | refl =>
    cases here.trans there.symm
    exact .refl
  | @tail middle last path ran ih =>
    cases there
    exact (ih rfl).tail (.hand ran)

section Reading
variable {r : Reader} {counted : List (Bytes × Bool)} {h : Host T} {p : Crew T}
  {m m' : Machine T (Crew T)}

theorem works_of_turn {phase phase' : Phase} (counts : phase.counts = [])
    (ran : (Hand.doing r phase counted).next m = .ok phase' m') :
    Works (m, .doing r phase counted) (m', .doing r phase' counted) := by
  apply Relation.ReflTransGen.single
  have moved : (Hand.doing r phase counted).moved phase' = .doing r phase' counted := by
    simp only [Hand.moved, Hand.doing, counts, List.append_nil]
  simp only [Hand.turn, bind, EStateM.bind, ran, moved]
  rfl

theorem works_counting {data : Bytes} {sent : Bool} :
    Works (⟨h, p⟩, .doing r (.counting data sent) counted)
      (⟨h, p.record sent data.length⟩, .doing r .reading (counted ++ [(data, sent)])) :=
  .single rfl

theorem noteReadError_works {f : Failure} :
    Ends (noteReadError r.peer f) (⟨h, p⟩ : Machine T (Crew T))
      (fun _ m' => ∃ exit, Works (⟨h, p⟩, .doing r (.failing f) counted)
        (m', .doing r (.closing exit) counted))
      fun _ _ => False := by
  simp only [noteReadError, Os.isSet, ends_bind, ends_asks]
  split
  · rename_i told
    refine ⟨.broke false, works_of_turn rfl ?_⟩
    simp only [Hand.next, Hand.doing, bind, EStateM.bind, Os.isSet, asks, told, if_true]
    rfl
  · rename_i going
    simp only [ends_bind, ends_log, ends_sets]
    have second {h : Host T} : Works (⟨h, p⟩, .doing r .noting counted)
        (⟨h, p.recordReadError⟩, .doing r (.closing (.broke true)) counted) := works_of_turn rfl rfl
    refine ⟨.broke true, Works.trans (works_of_turn rfl ?_) second⟩
    simp only [Hand.next, Hand.doing, bind, EStateM.bind, Os.isSet, asks, going]
    rfl

theorem works_received {data : Bytes}
    (ran : Os.receive r.sock p.bufferSize (⟨h, p⟩ : Machine T (Crew T)) = .ok data m') :
    Works (⟨h, p⟩, .doing r .reading counted)
      (m', .doing r (if data.isEmpty then .closing .ended else .holding data) counted) := by
  apply works_of_turn rfl
  simp only [Hand.next, Hand.doing, Hand.of, bind, EStateM.bind, gets, outcome, ran]
  cases data <;> rfl

theorem works_unread {f : Failure}
    (ran : Os.receive r.sock p.bufferSize (⟨h, p⟩ : Machine T (Crew T)) = .error f m') :
    Works (⟨h, p⟩, .doing r .reading counted)
      (m', .doing r (if f.isOs then .failing f else .dying f none) counted) := by
  apply works_of_turn rfl
  simp only [Hand.next, Hand.doing, Hand.of, bind, EStateM.bind, gets, outcome, ran]
  rfl

theorem works_forwarded {data : Bytes} {sent : Bool}
    (ran : p.sink.forward data (some r.sock) (⟨h, p⟩ : Machine T (Crew T)) = .ok sent m') :
    Works (⟨h, p⟩, .doing r (.holding data) counted)
      (m', .doing r (.counting data sent) counted) := by
  apply works_of_turn rfl
  simp only [Hand.next, Hand.doing, Hand.of, bind, EStateM.bind, gets, outcome, ran]
  rfl

theorem works_unforwarded {data : Bytes} {f : Failure}
    (ran : p.sink.forward data (some r.sock) (⟨h, p⟩ : Machine T (Crew T)) = .error f m') :
    Works (⟨h, p⟩, .doing r (.holding data) counted)
      (m', .doing r (.dying f (some data)) counted) := by
  apply works_of_turn rfl
  simp only [Hand.next, Hand.doing, Hand.of, bind, EStateM.bind, gets, outcome, ran]
  rfl

theorem readOnce_works : Ends (readOnce r.sock r.peer) (⟨h, p⟩ : Machine T (Crew T))
    (fun goesOn m' => if goesOn then
      ∃ counted', Works (⟨h, p⟩, .doing r .reading counted) (m', .doing r .reading counted') ∧
        m'.host.workload < h.workload
      else ∃ exit, Works (⟨h, p⟩, .doing r .reading counted) (m', .doing r (.closing exit) counted))
    (fun f m' => ∃ lost, Works (⟨h, p⟩, .doing r .reading counted)
      (m', .doing r (.dying f lost) counted)) := by
  simp only [readOnce, ends_bind, ends_gets, ends_outcome]
  apply ((receive_works p.bufferSize).and Ends.ran).imp
  · intro data m' both
    obtain ⟨⟨middle, work, less, rfl⟩, ran⟩ := both
    have first : Works (_, .doing r .reading counted) _ := works_received ran
    cases data with
    | nil => exact ⟨.ended, first⟩
    | cons byte rest =>
      simp only [List.isEmpty_cons, Bool.false_eq_true, if_false, ends_bind, ends_gets] at first ⊢
      apply ((forward_works p.sink (byte :: rest) (some r.sock)).and Ends.ran).imp
      · intro sent m' both
        obtain ⟨⟨last, light, rfl⟩, passed⟩ := both
        simp only [ends_sets, ends_pure]
        exact ⟨_, (first.trans (works_forwarded passed)).trans works_counting,
          Nat.lt_of_le_of_lt light.2.light (less rfl)⟩
      · intro f m' both
        exact ⟨some (byte :: rest), first.trans (works_unforwarded both.2)⟩
  · intro f m' both
    obtain ⟨⟨middle, work, -, rfl⟩, ran⟩ := both
    have first : Works (_, .doing r .reading counted) _ := works_unread ran
    split
    · rename_i refused
      rw [if_pos refused] at first
      rw [ends_bind]
      apply noteReadError_works.imp
      · intro _ m' noted
        obtain ⟨exit, second⟩ := noted
        exact ⟨exit, first.trans second⟩
      · exact fun _ _ never => never.elim
    · rename_i foreign
      rw [if_neg foreign] at first
      exact ⟨none, first⟩

-- Each read that goes on makes the host lighter, so the fuel is not used up.
theorem readFor_works (counted : List (Bytes × Bool)) (fuel : Nat) (enough : h.workload < fuel) :
    Ends (readFor r.sock r.peer fuel) (⟨h, p⟩ : Machine T (Crew T))
      (fun _ m' => ∃ exit counted', Works (⟨h, p⟩, .doing r .reading counted)
        (m', .doing r (.closing exit) counted'))
      (fun f m' => ∃ lost counted', Works (⟨h, p⟩, .doing r .reading counted)
        (m', .doing r (.dying f lost) counted')) := by
  induction fuel generalizing h p counted with
  | zero => exact absurd enough (Nat.not_lt_zero _)
  | succ fuel ih =>
    simp only [readFor, ends_bind]
    apply readOnce_works.imp
    · intro goesOn m' reached
      cases goesOn with
      | true =>
        obtain ⟨counted', first, less⟩ := reached
        have left : m'.host.workload < fuel := by omega
        apply (ih counted' left).imp
        · intro _ last rest
          obtain ⟨exit, counted'', second⟩ := rest
          exact ⟨exit, counted'', first.trans second⟩
        · intro f last rest
          obtain ⟨lost, counted'', second⟩ := rest
          exact ⟨lost, counted'', first.trans second⟩
      | false =>
        obtain ⟨exit, first⟩ := reached
        exact ⟨exit, counted, first⟩
    · intro f m' reached
      obtain ⟨lost, first⟩ := reached
      exact ⟨lost, counted, first⟩

-- A reader signs off unless its thread dies, and closes its socket in any case.
theorem attend_works : Ends (attend r.sock r.peer) (⟨h, p⟩ : Machine T (Crew T))
    (fun _ m' => ∃ exit counted', Works (⟨h, p⟩, .of r)
      (m', .doing r (.leaving exit) counted'))
    (fun f m' => ∃ lost counted' last, Works (⟨h, p⟩, .of r)
      (last, .doing r (.dying f lost) counted') ∧ m' = ⟨last.host.shut r.sock, last.prog⟩) := by
  simp only [attend, ends_bind, ends_ensuring, ends_asks]
  apply (readFor_works [] (h.workload + 1) (Nat.lt_succ_self _)).imp
  · intro _ m' reached
    obtain ⟨exit, counted', path⟩ := reached
    simp only [ends_close, ends_log, ends_sets]
    have closing : Works (m', .doing r (.closing exit) counted')
        (⟨(m'.host.shut r.sock).logged .info ("client " ++ r.peer.text ++ " disconnected"), m'.prog⟩,
          .doing r (.signing exit) counted') := works_of_turn rfl rfl
    have signing {h : Host T} : Works (⟨h, m'.prog⟩, .doing r (.signing exit) counted')
        (⟨h, m'.prog.untrack r.sock⟩, .doing r (.leaving exit) counted') := works_of_turn rfl rfl
    exact ⟨exit, counted', (path.trans closing).trans signing⟩
  · intro f m' reached
    obtain ⟨lost, counted', path⟩ := reached
    rw [ends_close]
    exact ⟨lost, counted', m', path, rfl⟩

theorem finish_works : Ends (finish r) (⟨h, p⟩ : Machine T (Crew T))
    (fun _ m' => ∃ phase counted, phase.finished = true ∧
      Works (⟨h, p⟩, .of r) (m', .doing r phase counted)) fun _ _ => False := by
  simp only [finish, Os.runThread, ends_bind, ends_outcome]
  apply attend_works.imp
  · intro _ m' reached
    obtain ⟨exit, counted', path⟩ := reached
    have leaving : Works (m', .doing r (.leaving exit) counted')
        (⟨m'.host, m'.prog.setAlive r.thread false⟩, .doing r (.away exit) counted') :=
      works_of_turn rfl rfl
    exact ⟨.away exit, counted', rfl, path.trans leaving⟩
  · intro f m' reached
    obtain ⟨lost, counted', last, path, rfl⟩ := reached
    have dying : Works (last, .doing r (.dying f lost) counted')
        (⟨(last.host.shut r.sock).emit (.threadDied r.thread f), last.prog⟩,
          .doing r (.fading lost) counted') := works_of_turn rfl rfl
    have fading {h : Host T} : Works (⟨h, last.prog⟩, .doing r (.fading lost) counted')
        (⟨h, last.prog.setAlive r.thread false⟩, .doing r (.dead lost) counted') :=
      works_of_turn rfl rfl
    exact ⟨.dead lost, counted', rfl, (path.trans dying).trans fading⟩

end Reading

theorem Turns.trans {a b c : Stage T} (one : Turns a b) (two : Turns b c) : Turns a c :=
  Relation.ReflTransGen.trans one two

theorem Turns.loop {s : Stage T} {m m' : Machine T (Crew T)} {duty duty' : Duty} {hands : List Hand}
    (path : Turns s ⟨m, duty, hands⟩) (ran : duty.turn m = .ok duty' m')
    (alone : duty.hires = []) : Turns s ⟨m', duty', hands⟩ := by
  have turn : Turn ⟨m, duty, hands⟩ ⟨m', duty', hands ++ duty.hires⟩ := .loop ran
  rw [alone, List.append_nil] at turn
  exact path.tail turn

theorem Turns.reached {a b : Stage T} (path : Turns a b) : Reached a b :=
  Relation.ReflTransGen.mono (fun _ _ taken => Step.turn taken) _ _ path

theorem Turns.inOrder {a b : Stage T} (turns : Turns a b) (inOrder : InOrder a) : InOrder b := by
  induction turns with
  | refl => exact inOrder
  | tail _ turn ih => exact ih.turn turn

theorem Turns.eases {a b : Stage T} (turns : Turns a b) (inOrder : InOrder a) :
    Eases a.machine.host b.machine.host := by
  induction turns with
  | refl => exact ⟨.refl _, Nat.le_refl _, fun _ there => there⟩
  | @tail middle last path turn ih =>
    exact ih.trans (turn_eases (Turns.inOrder path inOrder).ledger turn)

-- Between two clients a hand is at its end or has not begun.
def Parked (hands : List Hand) : Prop :=
  ∀ hand ∈ hands, hand.phase.finished = true ∨ ∃ r, hand = .of r

theorem parked_nil : Parked [] := fun _ there => absurd there List.not_mem_nil

section Accepting
variable {h : Host T} {p : Crew T} {hands : List Hand}

-- A reader that is started runs to its end at once or waits for its join.
theorem start_turns {r : Reader} (parked : Parked hands) :
    Ends (start r) (⟨h, p⟩ : Machine T (Crew T))
      (fun _ m' => ∃ hands', Parked hands' ∧
        Turns ⟨⟨h, p⟩, .starting r, hands⟩ ⟨m', .reporting r.peer, hands'⟩)
      fun _ _ => False := by
  have first : Turns ⟨⟨h, p⟩, .starting r, hands⟩
      ⟨⟨h.emit (.threadStart r.thread), p.setAlive r.thread true⟩, .reporting r.peer,
        hands ++ [.of r]⟩ := .single (.loop rfl)
  simp only [start, ends_bind, ends_emits, ends_sets, ends_asks]
  split
  · apply finish_works.imp
    · intro _ m' reached
      obtain ⟨phase, counted, finished, works⟩ := reached
      refine ⟨hands ++ [.doing r phase counted], fun hand there => ?_, first.trans works.among⟩
      cases List.mem_append.mp there with
      | inl before => exact parked hand before
      | inr new =>
        rw [List.mem_singleton.mp new]
        exact .inl finished
    · exact fun _ _ never => never
  · refine ⟨hands ++ [.of r], fun hand there => ?_, first⟩
    cases List.mem_append.mp there with
    | inl before => exact parked hand before
    | inr new => exact .inr ⟨r, List.mem_singleton.mp new⟩

theorem admit_turns {sock : SocketId} {peer : Address} (parked : Parked hands) :
    Ends (do
      sets (track sock)
      let reader : Reader := { thread := ← Os.newThread, sock, peer }
      sets (hire reader)
      start reader
      Os.log .info ("new client " ++ peer.text)) (⟨h, p⟩ : Machine T (Crew T))
      (fun _ m' => ∃ hands', Parked hands' ∧
        Turns ⟨⟨h, p⟩, .listing sock peer, hands⟩ ⟨m', .looking, hands'⟩)
      fun _ _ => False := by
  let reader : Reader := { thread := h.threads, sock, peer }
  have thread {m : Machine T (Crew T)} {done : Nat → Machine T (Crew T) → Prop} {failed} :
      Ends Os.newThread m done failed ↔ done m.host.threads
        ⟨{ m.host with threads := m.host.threads + 1 }, m.prog⟩ := Iff.rfl
  simp only [ends_bind, ends_sets, thread]
  have listed : Turns ⟨⟨h, p⟩, .listing sock peer, hands⟩
      ⟨⟨h, p.track sock⟩, .hiring sock peer, hands⟩ := Turns.loop .refl rfl rfl
  have hired : Turns ⟨⟨h, p⟩, .listing sock peer, hands⟩
      ⟨⟨{ h with threads := h.threads + 1 }, (p.track sock).hire reader⟩, .starting reader, hands⟩ :=
    listed.loop rfl rfl
  apply (start_turns parked).imp
  · intro _ m' reached
    obtain ⟨hands', still, started⟩ := reached
    rw [ends_log]
    exact ⟨hands', still, (hired.trans started).loop rfl rfl⟩
  · exact fun _ _ never => never.elim

theorem prepare_turns {sock : SocketId} {peer : Address}
    (inOrder : InOrder ⟨⟨h, p⟩, .preparing sock peer, hands⟩) (parked : Parked hands) :
    Ends (do
      Os.setTimeout sock none
      sets (track sock)
      let reader : Reader := { thread := ← Os.newThread, sock, peer }
      sets (hire reader)
      start reader
      Os.log .info ("new client " ++ peer.text)) (⟨h, p⟩ : Machine T (Crew T))
      (fun _ m' => ∃ hands', Parked hands' ∧ Eases h m'.host ∧
        Turns ⟨⟨h, p⟩, .preparing sock peer, hands⟩ ⟨m', .looking, hands'⟩)
      (fun f m' => m'.prog = p ∧ Turns ⟨⟨h, p⟩, .preparing sock peer, hands⟩
        ⟨m', .closing (.unready sock f) [.marking], hands⟩) := by
  rw [ends_bind]
  apply ((setTimeout_works none).and Ends.ran).imp
  · intro _ m' both
    obtain ⟨⟨last, light, rfl⟩, set⟩ := both
    have prepared : Turns ⟨⟨h, p⟩, .preparing sock peer, hands⟩
        ⟨⟨last, p⟩, .listing sock peer, hands⟩ := by
      apply Turns.loop .refl _ rfl
      simp only [Duty.turn, bind, EStateM.bind, outcome, set]
      rfl
    apply (admit_turns parked).imp
    · intro _ m' reached
      obtain ⟨hands', still, admitted⟩ := reached
      have all := prepared.trans admitted
      exact ⟨hands', still, all.eases inOrder, all⟩
    · exact fun _ _ never => never.elim
  · intro f m' both
    obtain ⟨⟨last, light, noted, rfl⟩, refused⟩ := both
    refine ⟨rfl, Turns.loop .refl ?_ rfl⟩
    simp only [Duty.turn, bind, EStateM.bind, outcome, refused]
    rfl

theorem acceptOne_turns (inOrder : InOrder ⟨⟨h, p⟩, .accepting, hands⟩) (parked : Parked hands)
    (stops : h.StopsService) : Ends acceptOne (⟨h, p⟩ : Machine T (Crew T))
      (fun _ m' => ∃ hands', Parked hands' ∧ Spent h m'.host ∧
        Turns ⟨⟨h, p⟩, .accepting, hands⟩ ⟨m', .looking, hands'⟩)
      (fun f m' => ∃ why, why.failure = some f ∧ m'.prog = p ∧
        Turns ⟨⟨h, p⟩, .accepting, hands⟩ ⟨m', .closing why [.marking], hands⟩) := by
  have orderly := inOrder.ledger.strict.orderly
  obtain ⟨l, known, opened, waits⟩ := inOrder.listening.hears rfl
  rw [acceptOne, ends_bind, ends_gets, ends_bind, ends_outcome]
  have accepts := accept_spends (p := p) stops orderly known opened waits
  apply (accepts.and ((accept_ends steady_working).and Ends.ran)).imp
  · intro found m' both
    obtain ⟨sock, peer⟩ := found
    obtain ⟨spent, ⟨middle, s, rest, work, there, queue, rfl⟩, ran⟩ := both
    generalize Host.emit _ (.accept (sock, peer).1 _) = handed at ran spent
    have accepted : Turns ⟨⟨h, p⟩, .accepting, hands⟩
        ⟨⟨handed, p⟩, .preparing sock peer, hands⟩ := by
      apply Turns.loop .refl _ rfl
      simp only [Duty.turn, bind, EStateM.bind, gets, outcome, ran]
      rfl
    apply (prepare_turns (accepted.inOrder inOrder) parked).imp
    · intro _ m' reached
      obtain ⟨hands', still, eases, rest⟩ := reached
      exact ⟨hands', still, spent.lasts eases.directed eases.lighter, accepted.trans rest⟩
    · intro f m' reached
      exact ⟨.unready sock f, rfl, reached.1, accepted.trans reached.2⟩
  · intro f m' both
    obtain ⟨spent, reached, ran⟩ := both
    obtain ⟨middle, work, rfl⟩ := reached.cases
    dsimp only
    split
    · rename_i late
      refine ⟨hands, parked, spent, Turns.loop .refl ?_ rfl⟩
      simp only [Duty.turn, bind, EStateM.bind, gets, outcome, ran, late, if_true]
      rfl
    · rename_i early
      split
      · rename_i refused
        rw [ends_log]
        refine ⟨hands, parked, ?_, Turns.loop .refl ?_ rfl⟩
        · have eases := Working.eases (steady_working.logged middle .error
            ("accept failed: " ++ f.message)) (work.1 orderly).1
          exact spent.lasts eases.directed eases.lighter
        · simp only [Duty.turn, bind, EStateM.bind, gets, outcome, ran, early, refused, if_true]
          rfl
      · rename_i foreign
        refine ⟨.broken f, rfl, rfl, Turns.loop .refl ?_ rfl⟩
        simp only [Duty.turn, bind, EStateM.bind, gets, outcome, ran, early, foreign]
        rfl

-- The loop is left only where it looks at the stop flag, or by a failure.
theorem accepts_turns (fuel : Nat)
    (enough : h.serviceStop = true ∧ 0 < fuel ∨ h.workload + 2 ≤ fuel)
    (inOrder : InOrder ⟨⟨h, p⟩, .looking, hands⟩) (parked : Parked hands) (stops : h.StopsService) :
    Ends (accepts fuel) (⟨h, p⟩ : Machine T (Crew T))
      (fun _ m' => ∃ hands', Parked hands' ∧ m'.prog.closed = false ∧
        Turns ⟨⟨h, p⟩, .looking, hands⟩ ⟨m', .closing .told [.marking], hands'⟩)
      (fun f m' => ∃ why hands', why.failure = some f ∧ Parked hands' ∧ m'.prog.closed = false ∧
        Turns ⟨⟨h, p⟩, .looking, hands⟩ ⟨m', .closing why [.marking], hands'⟩) := by
  induction fuel generalizing h p hands with
  | zero => omega
  | succ fuel ih =>
    have unclosed : p.closed = false := inOrder.listening.unclosed rfl
    simp only [accepts, ends_bind, Os.isSet, ends_asks]
    split
    · rename_i told
      refine ⟨hands, parked, unclosed, Turns.loop .refl ?_ rfl⟩
      simp only [Duty.turn, bind, EStateM.bind, Os.isSet, asks, told, if_true]
      rfl
    · rename_i going
      have looked : Turns ⟨⟨h, p⟩, .looking, hands⟩ ⟨⟨h, p⟩, .accepting, hands⟩ := by
        apply Turns.loop .refl _ rfl
        simp only [Duty.turn, bind, EStateM.bind, Os.isSet, asks, going]
        rfl
      rw [ends_bind]
      apply (acceptOne_turns (looked.inOrder inOrder) parked stops).imp
      · intro _ m' reached
        obtain ⟨h', p'⟩ := m'
        obtain ⟨hands', still, spent, accepted⟩ := reached
        have all := looked.trans accepted
        have ready := (all.eases inOrder).directed.stopsService.mpr stops
        have room : h.workload + 2 ≤ fuel + 1 := by
          cases enough with
          | inl told => exact absurd told.1 going
          | inr room => exact room
        have left : h'.serviceStop = true ∧ 0 < fuel ∨ h'.workload + 2 ≤ fuel := by
          cases spent with
          | inl told => exact .inl ⟨told, by omega⟩
          | inr less =>
            simp only at less
            exact .inr (by omega)
        apply (ih left (all.inOrder inOrder) still ready).imp
        · intro _ m' reached
          obtain ⟨hands'', last, open', rest⟩ := reached
          exact ⟨hands'', last, open', all.trans rest⟩
        · intro f m' reached
          obtain ⟨why, hands'', failed, last, open', rest⟩ := reached
          exact ⟨why, hands'', failed, last, open', all.trans rest⟩
      · intro f m' reached
        obtain ⟨why, failed, same, left⟩ := reached
        exact ⟨why, hands, failed, parked, by rw [same, unclosed], looked.trans left⟩

end Accepting

section Closing
variable {h : Host T} {p : Crew T} {why : Why} {hands : List Hand} {rest : List Chore}

theorem Turns.chore {s : Stage T} {m m' : Machine T (Crew T)} {chore : Chore} (more : List Chore)
    (path : Turns s ⟨m, .closing why (chore :: rest), hands⟩) (ran : chore.turn m = .ok more m') :
    Turns s ⟨m', .closing why (more ++ rest), hands⟩ := by
  apply path.loop _ rfl
  simp only [Duty.turn, bind, EStateM.bind, outcome, ran]
  rfl

theorem wakes_turns (socks : List SocketId) :
    Ends (socks.forM wake) (⟨h, p⟩ : Machine T (Crew T))
      (fun _ m' => m'.prog = p ∧ Turns ⟨⟨h, p⟩, .closing why (socks.map .waking ++ rest), hands⟩
        ⟨m', .closing why rest, hands⟩)
      (fun f m' => Turns ⟨⟨h, p⟩, .closing why (socks.map .waking ++ rest), hands⟩
        ⟨m', .gone why (some f), hands⟩) := by
  induction socks generalizing h with
  | nil => exact ⟨rfl, .refl⟩
  | cons sock socks ih =>
    rw [List.forM_eq_forM, List.forM_cons, ends_bind]
    apply (wake_works.and Ends.ran).imp
    · intro _ m' both
      obtain ⟨⟨h', work, rfl⟩, ran⟩ := both
      have first : Turns ⟨⟨h, p⟩, .closing why ((sock :: socks).map .waking ++ rest), hands⟩
          ⟨⟨h', p⟩, .closing why (socks.map .waking ++ rest), hands⟩ := by
        apply Turns.chore [] .refl
        simp only [Chore.turn, bind, EStateM.bind, ran]
        rfl
      apply ih.imp
      · exact fun _ _ others => ⟨others.1, first.trans others.2⟩
      · exact fun _ _ others => first.trans others
    · intro f m' both
      obtain ⟨-, ran⟩ := both
      apply Turns.loop .refl _ rfl
      simp only [List.map_cons, List.cons_append, Duty.turn, Chore.turn, bind, EStateM.bind,
        outcome, ran]
      rfl

def Hand.place (hand : Hand) : Nat × SocketId × Address := (hand.thread, hand.sock, hand.peer)

theorem join_turns {r : Reader}
    (inOrder : InOrder ⟨⟨h, p⟩, .closing why (.joining r :: rest), hands⟩) (parked : Parked hands)
    (same : ∀ hand ∈ hands, hand.thread = r.thread → hand.sock = r.sock ∧ hand.peer = r.peer) :
    Ends (join r (some (Clock.millis Defaults.joinMillis))) (⟨h, p⟩ : Machine T (Crew T))
      (fun _ m' => ∃ hands', Parked hands' ∧ hands'.map Hand.place = hands.map Hand.place ∧
        (∀ hand ∈ hands', hand.phase.finished = false → hand ∈ hands ∧ hand.thread ≠ r.thread) ∧
        Turns ⟨⟨h, p⟩, .closing why (.joining r :: rest), hands⟩ ⟨m', .closing why rest, hands'⟩)
      fun _ _ => False := by
  have waits : Turns ⟨⟨h, p⟩, .closing why (.joining r :: rest), hands⟩
      ⟨⟨h.emit (.threadJoin r.thread (some (Clock.millis Defaults.joinMillis))), p⟩,
        .closing why rest, hands⟩ := Turns.chore [] .refl rfl
  simp only [join, ends_bind, ends_emits, ends_gets, ends_onlyIf]
  split
  · rename_i working
    obtain ⟨entry, listed, found⟩ := List.any_eq_true.mp working
    simp only [Bool.and_eq_true, decide_eq_true_eq] at found
    have known := inOrder.staff.known entry listed
    simp only [Duty.newcomers, List.append_nil] at known
    obtain ⟨hand, there, rfl⟩ := List.mem_map.mp known
    have waiting : hand = .of r := by
      obtain ⟨sock, peer⟩ := same hand there found.1
      cases parked hand there with
      | inl finished => simp [Hand.reader, finished] at found
      | inr idle =>
        obtain ⟨own, rfl⟩ := idle
        simp only [Hand.of, Hand.reader] at found sock peer ⊢
        rw [found.1, sock, peer]
    subst waiting
    obtain ⟨before, after, rfl⟩ := List.append_of_mem there
    have apart := inOrder.staff.apart.1
    apply finish_works.imp
    · intro _ m' reached
      obtain ⟨phase, counted, finished, works⟩ := reached
      refine ⟨before ++ .doing r phase counted :: after, fun hand there => ?_, ?_,
        fun hand there unfinished => ?_, waits.trans works.among⟩
      · rcases mem_middle.mp there with rfl | others
        · exact .inl finished
        · exact parked hand (mem_middle.mpr (.inr others))
      · simp [Hand.place, Hand.doing, Hand.of]
      · rcases mem_middle.mp there with rfl | others
        · exact absurd (finished.symm.trans unfinished) Bool.noConfusion
        · exact ⟨mem_middle.mpr (.inr others), apart hand others⟩
    · exact fun _ _ never => never
  · rename_i idle
    refine ⟨hands, parked, rfl, fun hand there unfinished => ⟨there, fun mine => idle ?_⟩, waits⟩
    have listed := inOrder.staff.kept hand there unfinished
    apply List.any_eq_true.mpr
    exact ⟨hand.reader, listed, by simp [Hand.reader, mine, unfinished]⟩

theorem joins_turns (readers : List Reader)
    (inOrder : InOrder ⟨⟨h, p⟩, .closing why (readers.map .joining ++ rest), hands⟩)
    (parked : Parked hands)
    (same : ∀ r ∈ readers, ∀ hand ∈ hands, hand.thread = r.thread →
      hand.sock = r.sock ∧ hand.peer = r.peer) :
    Ends (readers.forM (join · (some (Clock.millis Defaults.joinMillis))))
      (⟨h, p⟩ : Machine T (Crew T))
      (fun _ m' => ∃ hands', (∀ hand ∈ hands', hand.phase.finished = false →
          hand ∈ hands ∧ ∀ r ∈ readers, hand.thread ≠ r.thread) ∧
        Turns ⟨⟨h, p⟩, .closing why (readers.map .joining ++ rest), hands⟩
          ⟨m', .closing why rest, hands'⟩)
      fun _ _ => False := by
  induction readers generalizing h p hands with
  | nil => exact ⟨hands, fun hand there _ => ⟨there, nofun⟩, .refl⟩
  | cons r readers ih =>
    rw [List.forM_eq_forM, List.forM_cons, ends_bind]
    apply (join_turns inOrder parked (same r List.mem_cons_self)).imp
    · intro _ m' reached
      obtain ⟨hands', still, places, left, first⟩ := reached
      have later : ∀ other ∈ readers, ∀ hand ∈ hands', hand.thread = other.thread →
          hand.sock = other.sock ∧ hand.peer = other.peer := by
        intro other there hand working mine
        have placed : hand.place ∈ hands.map Hand.place := places ▸ List.mem_map_of_mem working
        obtain ⟨before, known, place⟩ := List.mem_map.mp placed
        simp only [Hand.place, Prod.mk.injEq] at place
        obtain ⟨thread, sock, peer⟩ := place
        rw [← sock, ← peer]
        exact same other (List.mem_cons_of_mem _ there) before known (thread.trans mine)
      apply (ih (first.inOrder inOrder) still later).imp
      · intro _ m' reached
        obtain ⟨hands'', unfinished, others⟩ := reached
        refine ⟨hands'', fun hand there idle => ?_, first.trans others⟩
        obtain ⟨before, apart⟩ := unfinished hand there idle
        obtain ⟨known, mine⟩ := left hand before idle
        refine ⟨known, fun other there => ?_⟩
        cases List.mem_cons.mp there with
        | inl same => exact same ▸ mine
        | inr there => exact apart other there
      · exact fun _ _ never => never
    · exact fun _ _ never => never.elim

-- A way on which every reader is at its end before the sink is closed.
def Waited (a s : Stage T) : Prop :=
  ∃ m why hands, Turns a ⟨m, .closing why [.releasing, .summing], hands⟩ ∧
    (∀ hand ∈ hands, hand.phase.finished = true) ∧
    Turns ⟨m, .closing why [.releasing, .summing], hands⟩ s

theorem Waited.turns {a s : Stage T} (waited : Waited a s) : Turns a s := by
  obtain ⟨m, why, hands, before, -, after⟩ := waited
  exact before.trans after

theorem Turns.waited {a b s : Stage T} (path : Turns a b) (waited : Waited b s) : Waited a s := by
  obtain ⟨m, why, hands, before, finished, after⟩ := waited
  exact ⟨m, why, hands, path.trans before, finished, after⟩

-- When a crew is closed every reader comes to its end, unless a waking fails.
theorem close_turns (unclosed : p.closed = false)
    (inOrder : InOrder ⟨⟨h, p⟩, .closing why [.marking], hands⟩) (parked : Parked hands) :
    Ends (close (some (Clock.millis Defaults.joinMillis))) (⟨h, p⟩ : Machine T (Crew T))
      (fun _ m' => ∃ hands', (∀ hand ∈ hands', hand.phase.finished = true) ∧
        Waited ⟨⟨h, p⟩, .closing why [.marking], hands⟩ ⟨m', .gone why none, hands'⟩)
      (fun f m' => Turns ⟨⟨h, p⟩, .closing why [.marking], hands⟩ ⟨m', .gone why (some f), hands⟩) := by
  have marked : Turns ⟨⟨h, p⟩, .closing why [.marking], hands⟩ ⟨⟨h, { p with closed := true }⟩,
      .closing why [.telling, .shutting, .surveying, .calling, .releasing, .summing], hands⟩ := by
    apply Turns.chore [.telling, .shutting, .surveying, .calling, .releasing, .summing] .refl
    simp only [Chore.turn, bind, EStateM.bind, gets, unclosed]
    rfl
  have told := marked.chore [] rfl
  have shut := told.chore [] rfl
  have surveyed := shut.chore (p.clients.map .waking) rfl
  simp only [close, ends_bind, ends_gets, unclosed, Bool.false_eq_true, if_false, ends_sets, stop,
    Os.stop, ends_changes, ends_close]
  apply (wakes_turns p.clients).imp
  · intro _ m' reached
    obtain ⟨h', p'⟩ := m'
    obtain ⟨same, woken⟩ := reached
    simp only at same
    subst same
    have called := (surveyed.trans woken).chore (p.readers.map .joining) rfl
    have later := called.inOrder inOrder
    have places : ∀ r ∈ p.readers, ∀ hand ∈ hands, hand.thread = r.thread →
        hand.sock = r.sock ∧ hand.peer = r.peer := by
      intro r listed hand there mine
      have nodup := later.staff.threads
      have known := later.staff.known r listed
      simp only [Duty.newcomers, List.map_nil, List.append_nil] at nodup known
      obtain ⟨other, present, rfl⟩ := List.mem_map.mp known
      have one := List.inj_on_of_nodup_map nodup there present mine
      rw [one]
      exact ⟨rfl, rfl⟩
    apply (joins_turns p.readers later parked places).imp
    · intro _ m' reached
      obtain ⟨hands', unfinished, joined⟩ := reached
      have finished : ∀ hand ∈ hands', hand.phase.finished = true := by
        intro hand there
        cases idle : hand.phase.finished with
        | true => rfl
        | false =>
          obtain ⟨before, apart⟩ := unfinished hand there idle
          exact absurd rfl (apart hand.reader (later.staff.kept hand before idle))
      have released : Turns ⟨m', .closing why [.releasing, .summing], hands'⟩
          ⟨⟨m'.host.shut m'.prog.sink.sock, m'.prog⟩, .closing why [.summing], hands'⟩ :=
        Turns.chore [] .refl rfl
      have summed := released.chore [] rfl
      simp only [Sink.close, ends_close, ends_asks, ends_log]
      exact ⟨hands', finished, m', why, hands', called.trans joined, finished, summed.loop rfl rfl⟩
    · exact fun _ _ never => never.elim
  · exact fun f m' failed => surveyed.trans failed

end Closing

-- To serve is to take turns, one thread after the other.
theorem serve_waits {h : Host T} {p : Crew T} (inOrder : InOrder ⟨⟨h, p⟩, .announcing, []⟩)
    (stops : h.StopsService) : Ends serve (⟨h, p⟩ : Machine T (Crew T))
      (fun _ m' => ∃ hands, (∀ hand ∈ hands, hand.phase.finished = true) ∧
        Waited ⟨⟨h, p⟩, .announcing, []⟩ ⟨m', .gone .told none, hands⟩)
      (fun f m' => ∃ why cut hands, cut.or why.failure = some f ∧
        Turns ⟨⟨h, p⟩, .announcing, []⟩ ⟨m', .gone why cut, hands⟩ ∧
        (cut = none → Waited ⟨⟨h, p⟩, .announcing, []⟩ ⟨m', .gone why cut, hands⟩)) := by
  simp only [serve, ends_bind, ends_gets, ends_ensuring, ends_asks]
  have logged (text : String → String) :=
    logAny_ends (m := (⟨h, p⟩ : Machine T (Crew T))) (steady_working.refl h)
      (steady_working.logged h) .info p.sink.dest.logged? text
  apply ((logged _).and Ends.ran).imp
  · intro _ m' both
    obtain ⟨reached, ran⟩ := both
    obtain ⟨middle, work, rfl⟩ := reached.cases
    have announced : Turns ⟨⟨h, p⟩, .announcing, []⟩ ⟨⟨middle, p⟩, .looking, []⟩ := by
      apply Turns.loop .refl _ rfl
      simp only [id] at ran
      simp only [Duty.turn, bind, EStateM.bind, gets, id, ran]
      rfl
    have room : middle.serviceStop = true ∧ 0 < middle.workload + 2 ∨
        middle.workload + 2 ≤ middle.workload + 2 := .inr (Nat.le_refl _)
    have ready := (announced.eases inOrder).directed.stopsService.mpr stops
    apply (accepts_turns _ room (announced.inOrder inOrder) parked_nil ready).imp
    · intro _ m' reached
      obtain ⟨h', p'⟩ := m'
      obtain ⟨hands, parked, unclosed, served⟩ := reached
      have all := announced.trans served
      apply (close_turns unclosed (all.inOrder inOrder) parked).imp
      · intro _ m' reached
        obtain ⟨hands', finished, closed⟩ := reached
        exact ⟨hands', finished, all.waited closed⟩
      · exact fun f m' closed => ⟨.told, some f, hands, rfl, all.trans closed, by simp⟩
    · intro f m' reached
      obtain ⟨h', p'⟩ := m'
      obtain ⟨why, hands, failed, parked, unclosed, served⟩ := reached
      have all := announced.trans served
      apply (close_turns unclosed (all.inOrder inOrder) parked).imp
      · intro _ m' reached
        obtain ⟨hands', -, closed⟩ := reached
        exact ⟨why, none, hands', failed, all.trans closed.turns, fun _ => all.waited closed⟩
      · exact fun g m' closed => ⟨why, some g, hands, rfl, all.trans closed, by simp⟩
  · exact fun _ _ never => never.1.elim

theorem serve_turns {h : Host T} {p : Crew T} (inOrder : InOrder ⟨⟨h, p⟩, .announcing, []⟩)
    (stops : h.StopsService) : Ends serve (⟨h, p⟩ : Machine T (Crew T))
      (fun _ m' => ∃ hands, (∀ hand ∈ hands, hand.phase.finished = true) ∧
        Turns ⟨⟨h, p⟩, .announcing, []⟩ ⟨m', .gone .told none, hands⟩)
      (fun f m' => ∃ why cut hands, cut.or why.failure = some f ∧
        Turns ⟨⟨h, p⟩, .announcing, []⟩ ⟨m', .gone why cut, hands⟩) := by
  apply (serve_waits inOrder stops).imp
  · intro _ m' served
    obtain ⟨hands, finished, waited⟩ := served
    exact ⟨hands, finished, waited.turns⟩
  · intro f m' failed
    obtain ⟨why, cut, hands, cause, path, -⟩ := failed
    exact ⟨why, cut, hands, cause, path⟩

end StreamRelay.Crew
