import StreamRelay.Proofs.Host.Calls
import StreamRelay.Proofs.Host.Directions

namespace StreamRelay.Host
variable {T P : Type} {h h' : Host T} {n : Nat}
open Run

def Heavier (n : Nat) (h h' : Host T) : Prop := h'.workload ≤ h.workload + n

def Lighter (h h' : Host T) : Prop := h'.workload ≤ h.workload

def Spent (h h' : Host T) : Prop := h'.serviceStop = true ∨ h'.workload < h.workload

theorem Spent.later {a b c : Host T} (light : Lighter a b) (spent : Spent b c) : Spent a c :=
  spent.imp_right fun less => Nat.lt_of_lt_of_le less light

theorem Spent.lasts {a b c : Host T} (spent : Spent a b) (directed : Directed b c)
    (light : Lighter b c) : Spent a c := by
  cases spent with
  | inl told => exact .inl (directed.told told)
  | inr less => exact .inr (Nat.lt_of_le_of_lt light less)

theorem heavier_of_eq (same : h'.workload = h.workload) : Heavier n h h' :=
  Nat.le_trans (Nat.le_of_eq same) (Nat.le_add_right _ _)

theorem weigh_append {α : Type} (weight : α → Nat) (items more : List α) :
    weigh weight (items ++ more) = weigh weight items + weigh weight more := by
  induction items with
  | nil => simp [weigh]
  | cons first rest ih =>
    simp only [List.cons_append, weigh, ih]
    omega

theorem weigh_modify_le {items : List (Sock T)} {f : Sock T → Sock T} {i : Nat}
    (grown : ∀ s, items[i]? = some s → (f s).weight ≤ s.weight + n) :
    weigh Sock.weight (items.modify i f) ≤ weigh Sock.weight items + n := by
  induction items generalizing i with
  | nil => simp
  | cons first rest ih =>
    cases i with
    | zero =>
      have here := grown first rfl
      simp only [List.modify_zero_cons, weigh]
      omega
    | succ i =>
      have there := ih (i := i) fun s found => grown s (by simpa using found)
      simp only [List.modify_succ_cons, weigh]
      omega

theorem heavier_alter {f : Sock T → Sock T} {id : SocketId}
    (grown : ∀ s, h.sock? id = some s → (f s).weight ≤ s.weight + n) :
    Heavier n h (h.alter id f) := by
  have sockets : weigh Sock.weight (h.sockets.modify id f) ≤ weigh Sock.weight h.sockets + n :=
    weigh_modify_le grown
  simp only [Heavier, workload, alter]
  omega

theorem heavier_alterClient {f : Sock T → Sock T} (grown : ∀ s, (f s).weight ≤ s.weight + n)
    (client : Nat) : Heavier n h (h.alterClient client f) :=
  alterClient_of (heavier_of_eq rfl) (fun _ => heavier_alter fun s _ => grown s) client

theorem weigh_modify_lt {items : List (Sock T)} {f : Sock T → Sock T} {i : Nat} {s : Sock T}
    (known : items[i]? = some s) (less : (f s).weight < s.weight) :
    weigh Sock.weight (items.modify i f) < weigh Sock.weight items := by
  induction items generalizing i with
  | nil => simp at known
  | cons first rest ih =>
    cases i with
    | zero =>
      cases known
      simp only [List.modify_zero_cons, weigh]
      omega
    | succ i =>
      have there := ih (i := i) (by simpa using known)
      simp only [List.modify_succ_cons, weigh]
      omega

theorem workload_alter_lt {f : Sock T → Sock T} {id : SocketId} {s : Sock T}
    (known : h.sock? id = some s) (less : (f s).weight < s.weight) :
    (h.alter id f).workload < h.workload := by
  have sockets := weigh_modify_lt known less
  simp only [workload, alter]
  omega

def Balanced (h h' : Host T) : Prop := h'.workload = h.workload

theorem Balanced.refl (h : Host T) : Balanced h h := rfl

theorem Balanced.trans {a b c : Host T} (one : Balanced a b) (two : Balanced b c) : Balanced a c :=
  Eq.trans two one

theorem balanced_raise (h : Host T) (flag : Flag) : Balanced h (h.raise flag) := by
  cases flag <;> rfl

theorem workload_deliver (h : Host T) (signal : Signal) :
    (h.deliver signal).workload = h.workload := deliver_of Balanced.refl balanced_raise h signal

theorem workload_stop (h : Host T) : h.stop.workload = h.workload :=
  stop_of Balanced.refl .trans balanced_raise h

theorem workload_addClient (h : Host T) (c : Incoming) :
    (h.addClient c).1.workload = h.workload + c.data.length := by
  simp only [addClient, workload, weigh_append, weigh, Sock.weight, List.length_nil]
  omega

variable [Clock T]

theorem heavier_apply (h : Host T) (action : Action T) :
    Heavier action.weight h (h.apply action) := by
  cases action with
  | connect c =>
    have added := workload_addClient h c
    rw [apply_connect]
    cases h.listener with
    | none =>
      simp only [Heavier, workload, Action.weight, List.length_append, List.length_singleton]
        at added ⊢
      omega
    | some l =>
      have queued : Heavier 1 (h.addClient c).1 ((h.addClient c).1.alter l fun s =>
          { s with backlog := s.backlog ++ [(h.addClient c).2] }) := by
        refine heavier_alter fun s _ => ?_
        simp only [Sock.weight, List.length_append, List.length_singleton]
        omega
      simp only [Heavier, Action.weight] at queued ⊢
      omega
  | send client data =>
    refine heavier_alterClient (fun s => ?_) client
    simp only [Sock.weight, Action.weight, List.length_append]
    omega
  | finish | reset =>
    refine heavier_alterClient (fun s => ?_) _
    simp only [Sock.weight]
    omega
  | console data =>
    simp only [Heavier, apply, workload, Action.weight, List.length_append]
    omega
  | consoleEnd | advance | runWorker => exact heavier_of_eq rfl
  | fault call next =>
    have weights : weigh (fun f => f.2.weight) (next.map (call, ·)) = Fault.weights next := by
      induction next with
      | nil => rfl
      | cons first rest ih => simpa [weigh, Fault.weights] using ih
    simp only [Heavier, apply, workload, Action.weight, weigh_append, weights]
    omega
  | datagram data =>
    simp only [apply]
    split
    · refine heavier_alter fun s _ => ?_
      simp only [Sock.takeIn, Sock.weight, Action.weight, List.length_append, List.length_singleton]
      omega
    · simp only [Heavier, workload, Action.weight, List.length_append, List.length_singleton]
      omega
  | closeServer =>
    simp only [apply]
    cases h.server with
    | none => exact heavier_of_eq rfl
    | some id =>
      refine heavier_alter fun s _ => ?_
      simp only [Sock.weight]
      omega
  | stop => exact heavier_of_eq (workload_stop h)
  | signal s => exact heavier_of_eq (workload_deliver h s)

-- A program whose worker adds nothing to what is still to come when it gets in.
class Frugal (T P : Type) [Resumable T P] : Prop where
  lighter : ∀ (h : Host T) (p : P), Lighter h (Resumable.resume h p).1

instance [Resumable T P] [Idle T P] : Frugal T P where
  lighter h p := by
    rw [Idle.resume_eq h p]
    exact Nat.le_refl _

section Script
variable [Resumable T P] {m : Machine T P}

omit [Clock T] [Resumable T P] in
theorem stopAll_workload : Ends Os.stopAll m
    (fun _ m' => m'.host.workload = m.host.workload) fun _ m' =>
      m'.host.workload = m.host.workload := by
  cases possible : m.host.canStop with
  | true => simpa [Ends, Os.stopAll, possible] using workload_stop m.host
  | false => simp [Ends, Os.stopAll, possible]

omit [Clock T] in
theorem popFault_weight (call : Call) (faults : List (Call × Fault T)) :
    weigh (fun f => f.2.weight) (popFault call faults).2 +
        (popFault call faults).1.elim 0 Fault.weight =
      weigh (fun f => f.2.weight) faults := by
  induction faults with
  | nil => rfl
  | cons fault rest ih =>
    obtain ⟨other, f⟩ := fault
    by_cases same : other = call
    · simp [popFault, same, weigh, Nat.add_comm]
    · simp only [popFault, if_neg same, weigh]
      omega

variable [Frugal T P]

theorem perform_heavier (action : Action T) : Ends (Os.perform action) m
    (fun _ m' => Heavier action.weight m.host m'.host) fun _ m' =>
      Heavier action.weight m.host m'.host := by
  unfold Os.perform
  rw [ends_bind, ends_asks]
  cases m.host.stranger? action with
  | some client => exact heavier_of_eq rfl
  | none =>
    cases action with
    | runWorker => exact Nat.le_add_right_of_le (Frugal.lighter m.host m.prog)
    | stop => exact stopAll_workload.imp (fun _ _ => heavier_of_eq) fun _ _ => heavier_of_eq
    | _ => exact heavier_apply m.host _

theorem happen_heavier (actions : List (Action T)) : Ends (Os.happen actions) m
    (fun _ m' => Heavier (Action.weights actions) m.host m'.host) fun _ m' =>
      Heavier (Action.weights actions) m.host m'.host := by
  unfold Os.happen
  induction actions generalizing m with
  | nil => exact heavier_of_eq rfl
  | cons action rest ih =>
    rw [List.forM_eq_forM, List.forM_cons, ends_bind]
    refine (perform_heavier action).imp ?_ ?_
    · intro _ middle first
      refine (ih (m := middle)).imp ?_ ?_
      all_goals
        intro _ last second
        simp only [Heavier, Action.weights] at first second ⊢
        omega
    · intro _ last first
      simp only [Heavier, Action.weights] at first ⊢
      omega

theorem incident_lighter (call : Call) : Ends (Os.incident call) m
    (fun _ m' => Lighter m.host m'.host) fun _ m' => m'.host.workload < m.host.workload := by
  have popped := popFault_weight call m.host.faults
  have taken (done : Option (Fault T) → Machine T P → Prop) (failed : Failure → Machine T P → Prop) :
      Ends (Os.takeFault call) m done failed ↔ done (popFault call m.host.faults).1
        ⟨{ m.host with faults := (popFault call m.host.faults).2 }, m.prog⟩ := Iff.rfl
  simp only [Os.incident, ends_bind, taken]
  cases found : (popFault call m.host.faults).1 with
  | none =>
    simp only [found, Option.elim, ends_pure, Lighter, workload] at popped ⊢
    omega
  | some fault =>
    cases fault with
    | pass | count =>
      simp only [found, Option.elim, ends_pure, Lighter, workload] at popped ⊢
      omega
    | incident actions failure =>
      have spent {m' : Machine T P} (happened : Heavier (Action.weights actions)
          { m.host with faults := (popFault call m.host.faults).2 } m'.host) :
          m'.host.workload < m.host.workload := by
        simp only [found, Option.elim, Fault.weight, Heavier, workload] at popped happened ⊢
        omega
      simp only [ends_bind]
      refine (happen_heavier actions).imp ?_ fun _ _ => spent
      intro _ m' happened
      cases failure with
      | none => exact Nat.le_of_lt (spent happened)
      | some f => exact spent happened

-- A wait uses up a batch, or is at the end of the script; then everything is told to stop, if anything
-- can be.
theorem await_ends : Ends Os.await m
    (fun _ m' => m'.host.workload < m.host.workload ∨
      m.host.canStop = true ∧ m' = ⟨m.host.stop, m.prog⟩)
    fun f m' => m'.host.workload < m.host.workload ∨
      f = .nothingToStop ∧ m.host.canStop = false ∧ m' = m := by
  have taken (done : Option (Batch T) → Machine T P → Prop) (failed : Failure → Machine T P → Prop) :
      Ends Os.takeBatch m done failed ↔ done m.host.batches.head?
        ⟨{ m.host with batches := m.host.batches.tail }, m.prog⟩ := Iff.rfl
  simp only [Os.await, ends_bind, taken]
  cases left : m.host.batches with
  | nil =>
    have same : { m.host with batches := ([] : List (Batch T)) } = m.host := by rw [← left]
    simp only [List.head?_nil, List.tail_nil, same, ends_bind, ends_pure]
    cases possible : m.host.canStop with
    | true =>
      simp only [Ends, Os.stopAll, possible, if_true]
      exact .inr ⟨trivial, trivial⟩
    | false =>
      simp only [Ends, Os.stopAll, possible, Bool.false_eq_true, if_false]
      exact .inr ⟨trivial, trivial, trivial⟩
  | cons batch rest =>
    simp only [List.head?_cons, List.tail_cons, ends_bind, ends_pure]
    have spent {m' : Machine T P} (happened : Heavier (Action.weights batch.actions)
        { m.host with batches := rest } m'.host) : m'.host.workload < m.host.workload := by
      simp only [Heavier, workload, left, weigh, Batch.weight] at happened ⊢
      omega
    exact (happen_heavier batch.actions).imp (fun _ _ happened => .inl (spent happened))
      fun _ _ happened => .inl (spent happened)

theorem await_uses : Ends Os.await m
    (fun _ m' => Lighter m.host m'.host ∧ (m.host.Heard → Spent m.host m'.host))
    fun f m' => Lighter m.host m'.host ∧ (f = .nothingToStop ∧ m.host.canStop = false ∨
      m'.host.workload < m.host.workload) := by
  apply await_ends.imp
  · rintro _ m' (less | ⟨possible, rfl⟩)
    · exact ⟨Nat.le_of_lt less, fun _ => .inr less⟩
    · refine ⟨Nat.le_of_eq (workload_stop m.host), fun heard => .inl ?_⟩
      exact (heard.resolve_right fun never => by simp [possible] at never).told
  · rintro f m' (less | ⟨rfl, never, rfl⟩)
    · exact ⟨Nat.le_of_lt less, .inr less⟩
    · exact ⟨Nat.le_refl _, .inl ⟨rfl, never⟩⟩

theorem await_lighter : Ends Os.await m
    (fun _ m' => Lighter m.host m'.host ∧ (m.host.StopsService → Spent m.host m'.host))
    fun _ m' => Lighter m.host m'.host ∧ (m.host.StopsService →
      m'.host.workload < m.host.workload) := by
  apply await_uses.imp
  · exact fun _ _ waited => ⟨waited.1, fun stops => waited.2 (.inl stops)⟩
  · intro f _ waited
    refine ⟨waited.1, fun stops => waited.2.resolve_left fun never => ?_⟩
    exact Bool.false_ne_true (never.2.symm.trans stops.canStop)

end Script

theorem steady_lighter : Steady (T := T) Lighter where
  refl _ := Nat.le_refl _
  trans one two := Nat.le_trans two one
  emit _ _ _ := Nat.le_refl _
  note _ _ _ _ := Nat.le_refl _
  clock _ _ := Nat.le_refl _
  stderr _ _ := Nat.le_refl _
  console h n := by
    simp only [Lighter, workload, List.length_drop]
    omega
  incident call m := by
    refine ((incident_lighter call).and (calm_directed.mild.incident call m)).imp ?_ ?_
    · exact fun _ _ ended => ⟨ended.1, ended.2.2⟩
    · exact fun _ _ ended => ⟨Nat.le_of_lt ended.1, ended.2.2⟩
  await m := by
    refine (await_lighter.and (calm_directed.mild.await m)).imp ?_ ?_
    · exact fun _ _ ended => ⟨ended.1.1, ended.2.2⟩
    · exact fun _ _ ended => ⟨ended.1.1, ended.2.2⟩

section Effects
variable {id : SocketId}

omit [Clock T] in
theorem lighter_alter {f : Sock T → Sock T}
    (fewer : ∀ s, h.sock? id = some s → (f s).weight ≤ s.weight) : Lighter h (h.alter id f) :=
  heavier_alter (n := 0) fewer

omit [Clock T] in
theorem lighter_shut : Lighter h (h.shut id) := by
  unfold shut
  split
  · exact lighter_alter (h := h) fun _ _ => Nat.le_refl _
  · exact Nat.le_refl _

omit [Clock T] in
theorem lighter_dequeue {s : Sock T} {first : SocketId} {rest : List SocketId}
    (known : h.sock? id = some s) (queue : s.backlog = first :: rest) :
    Lighter h (h.dequeue id rest) := by
  refine lighter_alter fun other found => ?_
  cases Option.some.inj (found.symm.trans known)
  simp only [Sock.weight, queue, List.length_cons]
  omega

end Effects

-- Nothing is added to what can still come, who was told to stop stays told, and nothing seen is lost.
structure Worn (h h' : Host T) : Prop extends Directed h h' where
  command : StaysTold .command h h'
  light : Lighter h h'
  seen : Seen h h'

omit [Clock T] in
theorem Worn.refl (h : Host T) : Worn h h := ⟨.refl h, id, Nat.le_refl _, seen_same rfl⟩

omit [Clock T] in
theorem Worn.trans {a b c : Host T} (one : Worn a b) (two : Worn b c) : Worn a c where
  toDirected := one.toDirected.trans two.toDirected
  command told := two.command (one.command told)
  light := Nat.le_trans two.light one.light
  seen := one.seen.trans two.seen

omit [Clock T] in
theorem worn_same (orders : h'.orders = h.orders) (command : h'.commandStop = h.commandStop)
    (workload : h'.workload = h.workload) (seen : Seen h h') : Worn h h' :=
  ⟨directed_same orders, fun told => command.trans told, Nat.le_of_eq workload, seen⟩

omit [Clock T] in
theorem worn_emit (h : Host T) (e : Event T) : Worn h (h.emit e) :=
  worn_same rfl rfl rfl (seen_emit h e)

omit [Clock T] in
theorem worn_shut (h : Host T) (id : SocketId) : Worn h (h.shut id) := by
  have command : StaysTold .command h (h.shut id) := by
    unfold shut
    split <;> exact fun told => told
  have seen : Seen h (h.shut id) := by
    unfold shut
    split
    · exact seen_emit _ _
    · exact seen_same rfl
  exact ⟨directed_shut h id, command, lighter_shut, seen⟩

omit [Clock T] in
theorem Worn.staysTold (worn : Worn h h') (flag : Flag) : StaysTold flag h h' := by
  cases flag
  · exact worn.told
  · exact worn.command

theorem steady_worn : Steady (T := T) Worn :=
  (((calm_directed.and (calm_staysTold .command)).and calm_seen).steady.and steady_lighter).mono
    (fun all => ⟨all.1.1.1, all.1.1.2, all.2, all.1.2⟩) .trans

theorem select_spends [Resumable T P] [Idle T P] {m : Machine T P} (heard : m.host.Heard)
    (timeout : T) (overview : Overview) : Ends (Os.select timeout overview) m
      (fun _ m' => Spent m.host m'.host)
      fun f m' => f = .nothingToStop ∨ m'.host.workload < m.host.workload := by
  simp only [Os.select, ends_bind, ends_emits]
  have told : Heard (m.host.emit (.begun .select none)) := heard
  refine ((incident_lighter .select).and (calm_directed.mild.incident .select _)).imp ?_
    fun _ _ fell => .inr fell.1
  intro _ before first
  obtain ⟨light, directed, -⟩ := first
  have ready := directed.heard.mpr told
  refine await_uses.imp ?_ ?_
  · intro prescribed after second
    have spent : Spent m.host after.host := .later light (second.2 ready)
    simp only [ends_asks, ends_onlyIf, Os.advance, ends_changes, ends_pure]
    split
    · exact spent
    · exact spent
  · exact fun _ _ second => second.2.imp And.left fun less => Nat.lt_of_lt_of_le less light

end StreamRelay.Host
