import StreamRelay.Proofs.Crew.Staff

namespace StreamRelay.Crew
variable {T : Type} [Clock T]
open Run Host

-- A turn adds nothing to what is to come, the service stays told to stop, and what was refused stays
-- on record.
structure Eases (h h' : Host T) : Prop where
  directed : Directed h h'
  lighter : Lighter h h'
  refusals : ∀ r ∈ h.refusals, r ∈ h'.refusals

omit [Clock T] in
theorem Eases.trans {a b c : Host T} (one : Eases a b) (two : Eases b c) : Eases a c where
  directed := one.directed.trans two.directed
  lighter := Nat.le_trans two.lighter one.lighter
  refusals r there := two.refusals r (one.refusals r there)

omit [Clock T] in
theorem Working.eases {own : List SocketId} {new : List (SocketId × Bytes)} {h h' : Host T}
    (work : Working own new h h') (orderly : h.Orderly) : Eases h h' :=
  ⟨work.2.toDirected, work.2.light, (work.1 orderly).2.ages.refusals⟩

theorem turn_eases {a b : Stage T} (ledger : Ledger a) (turn : Turn a b) :
    Eases a.machine.host b.machine.host := by
  have orderly := ledger.strict.orderly
  cases turn with
  | @loop m m' duty duty' hands ran =>
    have loops := (turn_loops duty m.host m.prog).of_ok ran
    cases loops with
    | idles _ _ _ work | leaves _ _ _ work => exact Working.eases work orderly
    | prepares work | refuses work _ => exact Working.eases work orderly
    | closes work _ _ => exact Working.eases work orderly
    | ends work => exact Working.eases work orderly
    | accepts work known queue =>
      apply (Working.eases work orderly).trans
      exact ⟨directed_same rfl, lighter_dequeue known queue, fun _ there => there⟩
    | lists | hires | starts | rests =>
      exact ⟨directed_same rfl, Nat.le_refl _, fun _ there => there⟩
  | @hand m m' duty before after hand hand' ran =>
    have advances := (turn_advances hand m.host m.prog).of_ok ran
    obtain ⟨got, -, work⟩ := advances.host
    exact Working.eases work orderly

section Accept
variable {h : Host T} {p : Crew T} {id : SocketId} {l : Sock T}

omit [Clock T] in
theorem takeAccepted_spent {start : Host T} (spent : Spent start h) :
    Ends (Os.takeAccepted id) (⟨h, p⟩ : Machine T (Crew T)) (fun _ m' => Spent start m'.host)
      fun _ _ => False := by
  apply takeAccepted_ends.normally
  intro found m' taken
  obtain ⟨rfl, rfl⟩ | ⟨s, first, rest, rfl, known, queue, rfl⟩ := taken
  · exact spent
  · exact spent.lasts (directed_same rfl) (lighter_dequeue known queue)

omit [Clock T] in
theorem takeAccepted_spends {first : SocketId} {rest : List SocketId} (known : h.sock? id = some l)
    (queue : l.backlog = first :: rest) :
    Ends (Os.takeAccepted id) (⟨h, p⟩ : Machine T (Crew T))
      (fun found m' => found = some first ∧ m'.host.workload < h.workload) fun _ _ => False := by
  have fewer : (h.dequeue id rest).workload < h.workload := by
    apply workload_alter_lt known
    simp only [Sock.weight, queue, List.length_cons]
    omega
  simp only [Ends, Os.takeAccepted, known, queue, Option.map_some]
  exact ⟨trivial, fewer⟩

-- To wait for a client spends something, whether one comes or not.
theorem awaitConnection_spends (stops : h.StopsService) (timeout : Option T) :
    Ends (Os.awaitConnection id timeout) (⟨h, p⟩ : Machine T (Crew T))
      (fun _ m' => Spent h m'.host) fun _ m' => Spent h m'.host := by
  simp only [Os.awaitConnection, ends_bind]
  apply (await_lighter.and (steady_working.await ⟨h, p⟩)).imp
  · intro _ m' both
    obtain ⟨waited, reached⟩ := both
    obtain ⟨last, further, rfl⟩ := reached.cases
    have spent : Spent h last := waited.2 stops
    apply opened_ends.imp
    · intro again m' found
      obtain ⟨rfl, -, -⟩ := found
      split
      · simp only [Os.advance, ends_bind, ends_changes, ends_fails]
        exact spent.lasts (directed_same rfl) (Nat.le_refl _)
      · exact spent
    · intro f m' found
      obtain ⟨rfl, -⟩ := found
      exact spent
  · exact fun f m' both => .inr (both.1.2 stops)

theorem accept_spends (stops : h.StopsService) (orderly : h.Orderly)
    (known : h.sock? id = some l) (opened : l.isOpen = true) (waits : l.waits = true) :
    Ends (Os.accept id) (⟨h, p⟩ : Machine T (Crew T))
      (fun _ m' => Spent h m'.host) fun _ m' => Spent h m'.host := by
  have begun := steady_working.emit h (.begun .accept (some id)) rfl
  simp only [Os.accept, ends_bind, ends_emits]
  apply ((incident_lighter .accept).and (steady_working.incident .accept _)).imp
  · intro _ m' both
    obtain ⟨light, reached⟩ := both
    obtain ⟨middle, path, rfl⟩ := reached.cases
    have before : Lighter h middle := light
    obtain ⟨after, goes⟩ := (steady_working.trans begun path).1 orderly
    obtain ⟨s, there, still, timeout⟩ := goes.others id l List.not_mem_nil known
    have ready := goes.directed.stopsService.mpr stops
    have patient : s.waits = true := by rw [Sock.waits, timeout]; exact waits
    rw [ends_opened there (still.trans opened), ends_onlyIf, patient, Bool.and_true]
    split
    · apply (awaitConnection_spends ready s.timeout).imp
      · intro _ m' waited
        have spent : Spent h m'.host := .later before waited
        apply (takeAccepted_spent spent).imp
        · intro found m' still
          cases found <;> exact still
        · exact fun _ _ never => never.elim
      · exact fun f m' waited => .later before waited
    · rename_i waiting
      cases queue : s.backlog with
      | nil => simp [queue] at waiting
      | cons first rest =>
        apply (takeAccepted_spends there queue).imp
        · intro found m' reached
          obtain ⟨rfl, fewer⟩ := reached
          simp only [ends_bind, Os.number, ends_asks, ends_emits, ends_pure]
          exact .inr (Nat.lt_of_lt_of_le fewer light)
        · exact fun _ _ never => never.elim
  · exact fun f m' both => .inr both.1

end Accept
end StreamRelay.Crew
