import StreamRelay.Proofs.Host.Directions

namespace StreamRelay
variable {T P α : Type}
open Run

def Event.step? : Event T → Option Call
  | .lookup _ => some .lookup
  | .begun .socket _ => some .socket
  | .reuseAddress _ => some .setOption
  | .bind .. => some .bind
  | .listen .. => some .listen
  | .setBlocking .. => some .setBlocking
  | .setTimeout .. => some .setTimeout
  | _ => none

def SetupStep.call : SetupStep → Call
  | lookup _ => .lookup
  | udpSocket | tcpSocket => .socket
  | reuseAddress => .setOption
  | bind => .bind
  | listen => .listen
  | selector => .selector
  | registration => .register

mutual
-- No call is answered with the failure of a whole setup, which only the program speaks of.
def Action.honest : Action T → Bool
  | .fault _ next => Fault.honests next
  | _ => true

def Action.honests : List (Action T) → Bool
  | [] => true
  | a :: rest => a.honest && Action.honests rest

def Fault.honest : Fault T → Bool
  | .incident actions failure => Action.honests actions && failure.all (!·.isSetup)
  | _ => true

def Fault.honests : List (Fault T) → Bool
  | [] => true
  | f :: rest => f.honest && Fault.honests rest
end

theorem Fault.honests_iff {faults : List (Fault T)} :
    Fault.honests faults = true ↔ ∀ fault ∈ faults, fault.honest = true := by
  induction faults with
  | nil => simp [Fault.honests]
  | cons fault rest ih => simp [Fault.honests, ih]

namespace Host

def Honest (h : Host T) : Prop := ∀ fault ∈ h.faults, fault.2.honest = true

instance (h : Host T) : Decidable h.Honest :=
  inferInstanceAs (Decidable (∀ fault ∈ h.faults, fault.2.honest = true))

-- The last call of a setup that was begun.
def lastStep (h : Host T) : Option Call := h.trace.findSome? fun stamped => stamped.event.step?

-- Of the program's own sockets from one number on, no others are open than those in a list.
structure Owns (start : SocketId) (held : List SocketId) (h : Host T) : Prop where
  grown : start ≤ h.sockets.length
  held : ∀ id s, h.sock? id = some s → start ≤ id → s.client = none → s.isOpen = true → id ∈ held

variable {h h' : Host T} {start id : SocketId} {held : List SocketId}

theorem owns_start (h : Host T) : Owns h.sockets.length [] h := by
  constructor
  · exact Nat.le_refl _
  · intro id s known bounded _ _
    exact absurd (lt_of_sock? known) (Nat.not_lt.mpr bounded)

theorem Owns.mono {fewer : List SocketId} (owns : Owns start fewer h)
    (kept : ∀ id ∈ fewer, id ∈ held) : Owns start held h :=
  ⟨owns.grown, fun id s known bounded own isOpen => kept id (owns.held id s known bounded own isOpen)⟩

theorem Owns.same (owns : Owns start held h) (sockets : h'.sockets = h.sockets) :
    Owns start held h' := by
  constructor
  · rw [sockets]
    exact owns.grown
  · intro id s known
    rw [sock?, sockets] at known
    exact owns.held id s known

theorem Owns.alter (owns : Owns start held h) {f : Sock T → Sock T}
    (client : ∀ s, (f s).client = s.client)
    (opened : ∀ s, (f s).isOpen = true → s.isOpen = true) : Owns start held (h.alter id f) := by
  constructor
  · rw [length_alter]
    exact owns.grown
  · intro other s known bounded own isOpen
    rw [sock?_alter] at known
    split at known
    · obtain ⟨before, there, rfl⟩ := Option.map_eq_some_iff.mp known
      exact owns.held other before there bounded ((client before).symm.trans own)
        (opened before isOpen)
    · exact owns.held other s known bounded own isOpen

theorem Owns.append (owns : Owns start held h) {s : Sock T} {n : Nat} (held' : List SocketId)
    (kept : ∀ id ∈ held, id ∈ held') (new : s.client = none → h.sockets.length ∈ held') :
    Owns start held' { h with sockets := h.sockets ++ [s], clients := n } := by
  constructor
  · rw [List.length_append]
    exact Nat.le_trans owns.grown (Nat.le_add_right _ _)
  · intro id other known bounded own isOpen
    simp only [sock?] at known
    by_cases old : id < h.sockets.length
    · rw [List.getElem?_append_left old] at known
      exact kept id (owns.held id other known bounded own isOpen)
    · have bound := (List.getElem?_eq_some_iff.mp known).1
      rw [List.length_append, List.length_singleton] at bound
      cases Nat.le_antisymm (Nat.lt_succ_iff.mp bound) (Nat.not_lt.mp old)
      simp only [List.getElem?_concat_length, Option.some.injEq] at known
      exact new (known ▸ own)

theorem Owns.shut {id : SocketId} (owns : Owns start (held ++ [id]) h) :
    Owns start held (h.shut id) := by
  constructor
  · rw [length_shut]
    exact owns.grown
  · intro other s known bounded own isOpen
    have stillOpen := isOpen_of_sock? known
    rw [isOpen_shut, isOpen] at stillOpen
    split at stillOpen
    · exact absurd stillOpen Bool.false_ne_true
    · rename_i differs
      have before : h.sock? other = some s := by
        unfold Host.shut at known
        split at known
        · exact (sock?_alter_ne differs).symm.trans known
        · exact known
      cases List.mem_append.mp (owns.held other s before bounded own isOpen) with
      | inl there => exact there
      | inr last => exact absurd (List.mem_singleton.mp last).symm differs

structure Abides (h h' : Host T) : Prop where
  owns : ∀ start held, Owns start held h → Owns start held h'
  lastStep : h'.lastStep = h.lastStep

theorem Abides.refl (h : Host T) : Abides h h := ⟨fun _ _ owns => owns, rfl⟩

theorem Abides.trans {a b c : Host T} (one : Abides a b) (two : Abides b c) : Abides a c :=
  ⟨fun start held owns => two.owns start held (one.owns start held owns),
    two.lastStep.trans one.lastStep⟩

theorem abides_same (sockets : h'.sockets = h.sockets) (trace : h'.trace = h.trace) :
    Abides h h' :=
  ⟨fun _ _ owns => owns.same sockets, by rw [Host.lastStep, trace]; rfl⟩

theorem abides_alter (h : Host T) (id : SocketId) {f : Sock T → Sock T}
    (client : ∀ s, (f s).client = s.client)
    (opened : ∀ s, (f s).isOpen = true → s.isOpen = true) : Abides h (h.alter id f) :=
  ⟨fun _ _ owns => owns.alter client opened, rfl⟩

theorem abides_raise (h : Host T) (flag : Flag) : Abides h (h.raise flag) := by
  cases flag <;> exact ⟨fun _ _ owns => owns.same rfl, rfl⟩

theorem abides_deliver (h : Host T) (signal : Signal) : Abides h (h.deliver signal) :=
  deliver_of .refl abides_raise h signal

theorem abides_stop (h : Host T) : Abides h h.stop := stop_of .refl .trans abides_raise h

theorem abides_extend (h : Host T) (client : Nat) {f : Sock T → Sock T}
    (kept : ∀ s, (f s).client = s.client) (opened : ∀ s, (f s).isOpen = true → s.isOpen = true) :
    Abides h (h.alterClient client f) :=
  alterClient_of (.refl h) (fun id => abides_alter h id kept opened) client

theorem abides_connect [Clock T] (h : Host T) (c : Incoming) :
    Abides h (h.apply (.connect c)) := by
  have added : Abides h (h.addClient c).1 :=
    ⟨fun _ held owns => owns.append held (fun _ there => there) nofun, rfl⟩
  rw [apply_connect]
  apply added.trans
  cases h.listener with
  | none => exact abides_same rfl rfl
  | some l => exact abides_alter _ l (fun _ => rfl) fun _ opened => opened

theorem abides_apply [Clock T] (h : Host T) (action : Action T) : Abides h (h.apply action) := by
  cases action with
  | connect c => exact abides_connect h c
  | send | finish | reset =>
    exact abides_extend h _ (fun _ => rfl) fun _ opened => opened
  | console | consoleEnd | advance | fault | runWorker => exact abides_same rfl rfl
  | datagram data =>
    simp only [apply]
    split
    · exact abides_alter h _ (fun _ => rfl) fun _ opened => opened
    · exact abides_same rfl rfl
  | closeServer =>
    simp only [apply]
    cases h.server with
    | none => exact .refl h
    | some id =>
      exact abides_alter h id (f := fun s => { s with isOpen := false }) (fun _ => rfl)
        fun _ opened => absurd opened Bool.false_ne_true
  | stop => exact abides_stop h
  | signal s => exact abides_deliver h s

theorem mild_abides [Clock T] : Mild (T := T) Abides where
  refl := .refl
  trans := .trans
  faults _ _ := abides_same rfl rfl
  batches _ _ := abides_same rfl rfl
  apply := abides_apply

def SameFaults (h h' : Host T) : Prop := h'.faults = h.faults

theorem sameFaults_raise (h : Host T) (flag : Flag) : SameFaults h (h.raise flag) := by
  cases flag <;> rfl

theorem sameFaults_alterClient (h : Host T) (client : Nat) (f : Sock T → Sock T) :
    SameFaults h (h.alterClient client f) :=
  alterClient_of (Eq.refl h.faults) (fun _ => Eq.refl h.faults) client

theorem faults_apply [Clock T] (h : Host T) (action : Action T) :
    (h.apply action).faults = h.faults ++
      match action with
      | .fault call next => next.map (call, ·)
      | _ => [] := by
  have same (h : Host T) : SameFaults h h := rfl
  have chain {a b c : Host T} (one : SameFaults a b) (two : SameFaults b c) : SameFaults a c :=
    Eq.trans two one
  cases action with
  | fault call next => rfl
  | connect c =>
    rw [apply_connect, List.append_nil]
    cases h.listener <;> rfl
  | send | finish | reset =>
    rw [List.append_nil]
    exact sameFaults_alterClient h _ _
  | console | consoleEnd | advance | runWorker => exact (List.append_nil _).symm
  | datagram data =>
    rw [List.append_nil, apply]
    split <;> rfl
  | closeServer =>
    rw [List.append_nil, apply]
    cases h.server <;> rfl
  | stop =>
    rw [List.append_nil]
    have kept : SameFaults h h.stop := stop_of same chain sameFaults_raise h
    exact kept
  | signal s =>
    rw [List.append_nil]
    have kept : SameFaults h (h.deliver s) := deliver_of same sameFaults_raise h s
    exact kept

theorem Honest.apply [Clock T] (honest : h.Honest) {a : Action T} (good : a.honest = true) :
    (h.apply a).Honest := by
  intro fault there
  rw [faults_apply] at there
  cases List.mem_append.mp there with
  | inl before => exact honest fault before
  | inr new =>
    cases a with
    | fault call next =>
      obtain ⟨own, member, rfl⟩ := List.mem_map.mp new
      exact Fault.honests_iff.mp good own member
    | _ => exact absurd new List.not_mem_nil

theorem mem_popFault (call : Call) (faults : List (Call × Fault T)) :
    (∀ fault, (popFault call faults).1 = some fault → (call, fault) ∈ faults) ∧
      ∀ entry ∈ (popFault call faults).2, entry ∈ faults := by
  induction faults with
  | nil => simp [popFault]
  | cons entry rest ih =>
    obtain ⟨c, f⟩ := entry
    simp only [popFault]
    split
    · rename_i same
      constructor
      · intro fault found
        rw [← same, ← Option.some.inj found]
        exact List.mem_cons_self
      · intro entry there
        exact List.mem_cons_of_mem _ there
    · constructor
      · intro fault found
        exact List.mem_cons_of_mem _ (ih.1 fault found)
      · intro entry there
        cases List.mem_cons.mp there with
        | inl first => exact first ▸ List.mem_cons_self
        | inr later => exact List.mem_cons_of_mem _ (ih.2 entry later)

end Host

section Honesty
variable [Clock T] [Resumable T P] [Idle T P] {m : Machine T P}

theorem perform_honest (honest : m.host.Honest) {action : Action T} (good : action.honest = true) :
    Ends (Os.perform action) m (fun _ m' => m'.host.Honest)
      fun f m' => m'.host.Honest ∧ f.isSetup = false := by
  unfold Os.perform
  rw [ends_bind, ends_asks]
  cases m.host.stranger? action with
  | some client => exact ⟨honest, rfl⟩
  | none =>
    cases action with
    | runWorker =>
      unfold Ends Os.runWorker
      simp only [Idle.resume_eq]
      exact honest
    | stop =>
      have stopped : m.host.stop.Honest := honest.apply (a := .stop) rfl
      cases possible : m.host.canStop with
      | true => simpa [Ends, Os.stopAll, possible] using stopped
      | false => simpa [Ends, Os.stopAll, possible] using ⟨honest, rfl⟩
    | _ => exact honest.apply good

theorem happen_honest (actions : List (Action T)) (honest : m.host.Honest)
    (good : Action.honests actions = true) :
    Ends (Os.happen actions) m (fun _ m' => m'.host.Honest)
      fun f m' => m'.host.Honest ∧ f.isSetup = false := by
  unfold Os.happen
  induction actions generalizing m with
  | nil => exact honest
  | cons action rest ih =>
    rw [Action.honests, Bool.and_eq_true] at good
    rw [List.forM_eq_forM, List.forM_cons, ends_bind]
    apply (perform_honest honest good.1).normally
    intro _ middle still
    exact ih still good.2

theorem incident_honest (honest : m.host.Honest) (call : Call) :
    Ends (Os.incident call) m (fun _ m' => m'.host.Honest)
      fun f m' => m'.host.Honest ∧ f.isSetup = false := by
  obtain ⟨found, left⟩ := Host.mem_popFault call m.host.faults
  have rest : Host.Honest { m.host with faults := (Host.popFault call m.host.faults).2 } :=
    fun entry there => honest entry (left entry there)
  have taken {done : Option (Fault T) → Machine T P → Prop} {failed} :
      Ends (Os.takeFault call) m done failed ↔
        done (Host.popFault call m.host.faults).1
          ⟨{ m.host with faults := (Host.popFault call m.host.faults).2 }, m.prog⟩ := Iff.rfl
  rw [Os.incident, ends_bind, taken]
  cases popped : (Host.popFault call m.host.faults).1 with
  | none => exact rest
  | some fault =>
    have good := honest _ (found fault popped)
    cases fault with
    | pass | count n => exact rest
    | incident actions failure =>
      simp only [Fault.honest, Bool.and_eq_true] at good
      simp only [ends_bind]
      apply (happen_honest (m := ⟨_, m.prog⟩) actions rest good.1).normally
      intro _ m' still
      cases failure with
      | none => exact still
      | some f => exact ⟨still, by simpa using good.2⟩

end Honesty

-- Where a setup stands: what it holds, and which call it began last.
structure Standing (start : SocketId) (held : List SocketId) (last : Option Call) (h : Host T) :
    Prop where
  honest : h.Honest
  owns : h.Owns start held
  last : h.lastStep = last

variable {start id : SocketId} {held : List SocketId} {last : Option Call} {call : Call}
  {h h' : Host T}

theorem Standing.abides (standing : Standing start held last h) (honest : h'.Honest)
    (abides : Host.Abides h h') : Standing start held last h' where
  honest := honest
  owns := abides.owns start held standing.owns
  last := abides.lastStep.trans standing.last

theorem Standing.same (standing : Standing start held last h) (faults : h'.faults = h.faults)
    (sockets : h'.sockets = h.sockets) (trace : h'.trace = h.trace) :
    Standing start held last h' := by
  apply standing.abides _ (Host.abides_same sockets trace)
  rw [Host.Honest, faults]
  exact standing.honest

theorem Standing.alter (standing : Standing start held last h) {f : Sock T → Sock T}
    (client : ∀ s, (f s).client = s.client) (opened : ∀ s, (f s).isOpen = true → s.isOpen = true) :
    Standing start held last (h.alter id f) :=
  standing.abides standing.honest (Host.abides_alter h id client opened)

theorem Standing.begin (standing : Standing start held last h) {e : Event T}
    (shown : e.step? = some call) : Standing start held (some call) (h.emit e) where
  honest := standing.honest
  owns := standing.owns.same rfl
  last := by simp [Host.lastStep, Host.emit, shown]

theorem Standing.shut (standing : Standing start (held ++ [id]) last h) :
    Standing start held last (h.shut id) where
  honest := by
    unfold Host.shut
    split <;> exact standing.honest
  owns := standing.owns.shut
  last := by
    unfold Host.shut
    split <;> exact standing.last

-- A call of a setup, from wherever the setup stands: it is the last one begun, opens nothing, and
-- fails with a cause of its own.
def Attempts (call : Call) (act : Run T P α) : Prop :=
  ∀ start held last m, Standing start held last m.host →
    Ends act m (fun _ m' => Standing start held (some call) m'.host)
      fun f m' => Standing start held (some call) m'.host ∧ f.isSetup = false

section Calls
variable [Clock T] [Resumable T P] [Idle T P] {m : Machine T P}

theorem incident_stands (standing : Standing start held last m.host) (call : Call) :
    Ends (Os.incident call) m (fun _ m' => Standing start held last m'.host)
      fun f m' => Standing start held last m'.host ∧ f.isSetup = false := by
  apply ((incident_honest standing.honest call).and (Host.mild_abides.incident call m)).imp
  · intro _ m' both
    exact standing.abides both.1 both.2.1
  · intro f m' both
    exact ⟨standing.abides both.1.1 both.2.1, both.1.2⟩

omit [Clock T] [Resumable T P] [Idle T P] in
theorem opened_stands (standing : Standing start held last m.host) :
    Ends (Os.opened id) m (fun _ m' => Standing start held last m'.host)
      fun f m' => Standing start held last m'.host ∧ f.isSetup = false := by
  apply opened_ends.imp
  · intro s m' found
    rw [found.1]
    exact standing
  · intro f m' refused
    rw [refused.1, refused.2.1]
    exact ⟨standing, rfl⟩

-- A call on a socket begins, meets what the script has for it, and looks whether the socket is open.
-- What it does then opens nothing.
theorem attempts_of {call : Call} {e : Event T} {effect : Sock T → Run T P α}
    (shown : e.step? = some call) (standing : Standing start held last m.host)
    (does : ∀ s m', Standing start held (some call) m'.host →
      Ends (effect s) m' (fun _ m'' => Standing start held (some call) m''.host) fun _ _ => False) :
    Ends (do emits e; let _ ← Os.incident call; let s ← Os.opened id; effect s) m
      (fun _ m' => Standing start held (some call) m'.host)
      fun f m' => Standing start held (some call) m'.host ∧ f.isSetup = false := by
  simp only [ends_bind, ends_emits]
  apply (incident_stands (standing.begin shown) call).normally
  intro _ met still
  apply (opened_stands still).normally
  intro s ready last
  exact (does s ready last).imp (fun _ _ stands => stands) fun _ _ never => never.elim

omit [Clock T] [Resumable T P] [Idle T P] in
theorem Attempts.noting {act : Run T P α} (attempts : Attempts call act) (noted : Call) :
    Attempts call (Run.noting noted id act) := by
  intro start held last m standing
  rw [ends_noting]
  apply (attempts start held last m standing).imp
  · exact fun _ _ stands => stands
  · intro f m' fell
    exact ⟨fell.1.abides fell.1.honest (Host.abides_same rfl rfl), fell.2⟩

theorem reuseAddress_attempts : Attempts (P := P) .setOption (Os.reuseAddress (T := T) id) := by
  intro start held last m standing
  apply attempts_of rfl standing
  exact fun _ _ stands => stands

theorem bind_attempts (address : Address) :
    Attempts (P := P) .bind (Os.bind (T := T) id address) := by
  intro start held last m standing
  apply attempts_of rfl standing
  intro s m' stands
  simp only [Os.alter, ends_bind, ends_changes, ends_onlyIf]
  have named (name : Address) :
      Standing start held _ (m'.host.alter id fun s => { s with name }) :=
    stands.alter (fun _ => rfl) fun _ opened => opened
  split
  · have filled (name : Address) : Standing start held _
        ((m'.host.alter id fun s => { s with name }).alter id
          (Sock.takeIn m'.host.early)) :=
      (named name).alter (fun _ => rfl) fun _ opened => opened
    exact (filled _).same rfl rfl rfl
  · exact named _

theorem listen_attempts (backlog : Given Int) :
    Attempts (P := P) .listen (Os.listen (T := T) id backlog) := by
  intro start held last m standing
  apply attempts_of rfl standing
  intro s m' stands
  have filled : Standing start held _
      (m'.host.alter id fun s => { s with backlog := s.backlog ++ m'.host.waiting }) :=
    stands.alter (fun _ => rfl) fun _ opened => opened
  exact filled.same rfl rfl rfl

theorem setBlocking_attempts (blocking : Bool) :
    Attempts (P := P) .setBlocking (Os.setBlocking (T := T) id blocking) := by
  apply Attempts.noting
  intro start held last m standing
  apply attempts_of rfl standing
  exact fun _ _ stands => stands.alter (fun _ => rfl) fun _ opened => opened

theorem setTimeout_attempts (timeout : Option T) :
    Attempts (P := P) .setTimeout (Os.setTimeout id timeout) := by
  apply Attempts.noting
  intro start held last m standing
  apply attempts_of rfl standing
  exact fun _ _ stands => stands.alter (fun _ => rfl) fun _ opened => opened

theorem lookup_attempts (address : Address) :
    Attempts (P := P) .lookup (Os.lookup (T := T) address) := by
  intro start held last m standing
  simp only [Os.lookup, ends_bind, ends_emits]
  apply (incident_stands (standing.begin rfl) .lookup).normally
  intro _ m' stands
  cases address.host with
  | nothing => exact ⟨stands, rfl⟩
  | value host => exact stands

theorem socket_stands (transport : Transport) (standing : Standing start held last m.host) :
    Ends (Os.socket transport) m
      (fun id m' => start ≤ id ∧ Standing start (held ++ [id]) (some .socket) m'.host)
      fun f m' => Standing start held (some .socket) m'.host ∧ f.isSetup = false := by
  simp only [Os.socket, ends_bind, ends_emits]
  apply (incident_stands (standing.begin rfl) .socket).normally
  intro _ m' stands
  have added := stands.owns.append (n := m'.host.clients) (s := { fd := m'.host.freeNumber, transport })
    (held ++ [m'.host.sockets.length]) (fun _ there => List.mem_append_left _ there)
    fun _ => List.mem_append_right _ List.mem_cons_self
  exact ⟨stands.owns.grown, stands.honest, added.same rfl, stands.last⟩

end Calls
end StreamRelay
