import StreamRelay.Proofs.Relay.Forwarding
import StreamRelay.Proofs.Relay.Upkeep

namespace StreamRelay.Relay
variable {T : Type}
open Run Host

-- Nothing was read, offered, sent, accepted or watched so far.
structure Fresh (h : Host T) : Prop where
  orderly : h.Orderly
  receipts : h.receipts = []
  offers : h.offers = []
  datagrams : h.datagrams = []
  accepted : h.accepted = []
  entries : h.entries = []
  untouched : ∀ id s, h.sock? id = some s → s.unread = s.arrived ∧ s.shut = false

theorem fresh_of_empty {h : Host T} (server : h.server = none) (sockets : h.sockets = [])
    (waiting : h.waiting = []) (entries : h.entries = []) (trace : h.trace = []) : Fresh h := by
  have none : h.pending = [] := by simp only [pending, sockets, waiting, List.flatMap_nil, List.append_nil]
  have nothing {β : Type} (pick : Event T → Option β) : h.history pick = [] := by
    simp only [history, trace, List.filterMap_nil, List.reverse_nil]
  constructor
  case orderly => exact ⟨server, none ▸ List.nodup_nil, fun id waits => absurd (none ▸ waits) List.not_mem_nil⟩
  case receipts | offers | datagrams => exact nothing _
  case accepted => simp only [accepted, trace, List.filterMap_nil]
  case entries => exact entries
  case untouched =>
    intro id s known
    simp [sock?, sockets] at known

-- What the steps of a creation leave of a fresh host.
structure Dawn (h h' : Host T) : Prop where
  fresh : Fresh h'
  stays : Stays h h'
  transport : ∀ id s, h.sock? id = some s →
    ∃ s', h'.sock? id = some s' ∧ s'.transport = s.transport

def Dawns (h h' : Host T) : Prop := Fresh h → Dawn h h'

theorem Dawns.refl (h : Host T) : Dawns h h :=
  fun fresh => ⟨fresh, .refl h, fun _ s known => ⟨s, known, rfl⟩⟩

theorem Dawns.trans {a b c : Host T} (one : Dawns a b) (two : Dawns b c) : Dawns a c := by
  intro fresh
  have first := one fresh
  have second := two first.fresh
  refine ⟨second.fresh, first.stays.trans second.stays, fun id s known => ?_⟩
  obtain ⟨s', middle, same⟩ := first.transport id s known
  obtain ⟨s'', last, same'⟩ := second.transport id s' middle
  exact ⟨s'', last, same'.trans same⟩

theorem dawns_of_flows {h h' : Host T} (settled : Settled h h') (flows : Flows h h') :
    Dawns h h' := by
  intro fresh
  obtain ⟨orderly, stays⟩ := settled fresh.orderly
  refine ⟨⟨orderly, ?_, ?_, ?_, ?_, ?_, ?_⟩, stays, ?_⟩
  · rw [flows.receipts, fresh.receipts]
  · rw [flows.offers, fresh.offers]
  · rw [flows.datagrams, fresh.datagrams]
  · rw [stays.accepted, fresh.accepted]
  · rw [stays.entries, fresh.entries]
  · intro id s' known
    rcases flows.origin known with ⟨s, more, before, longer⟩ | ⟨-, untouched⟩
    · obtain ⟨unread, shut⟩ := fresh.untouched id s before
      exact ⟨by rw [longer.unread, longer.arrived, unread], longer.shut.trans shut⟩
    · exact untouched
  · intro id s known
    obtain ⟨s', more, after, longer⟩ := flows.old id s known
    exact ⟨s', after, longer.transport⟩

theorem calm_dawns [Clock T] : Calm (T := T) Dawns where
  refl := .refl
  trans := .trans
  emit h e plain := dawns_of_flows (settled_emit h e plain) (flows_emit h e plain)
  note h call id cause := dawns_of_flows (calm_settled.note h call id cause) (calm_flows.note h call id cause)
  clock h t := dawns_of_flows (calm_settled.clock h t) (calm_flows.clock h t)
  stderr h text := dawns_of_flows (calm_settled.stderr h text) (calm_flows.stderr h text)
  console h rest := dawns_of_flows (calm_settled.console h rest) (calm_flows.console h rest)
  faults h rest := dawns_of_flows (calm_settled.faults h rest) (calm_flows.faults h rest)
  batches h rest := dawns_of_flows (calm_settled.batches h rest) (calm_flows.batches h rest)
  apply h action := dawns_of_flows (settled_apply h action) (flows_apply h action)

theorem dawns_timeout (h : Host T) (id : SocketId) (timeout : Option T) :
    Dawns h (h.alter id fun s => { s with timeout }) := by
  intro fresh
  have settled : Settled h (h.alter id fun s => { s with timeout }) :=
    settled_alter (fun _ => rfl) (fun _ => rfl) fun _ => rfl
  obtain ⟨orderly, stays⟩ := settled fresh.orderly
  refine ⟨⟨orderly, fresh.receipts, fresh.offers, fresh.datagrams, fresh.accepted, fresh.entries,
    ?_⟩, stays, ?_⟩
  · intro other s' known
    rw [sock?_alter] at known
    split at known
    · obtain ⟨s, before, rfl⟩ := Option.map_eq_some_iff.mp known
      exact fresh.untouched other s before
    · exact fresh.untouched other s' known
  · intro other s known
    by_cases same : id = other
    · subst same
      exact ⟨{ s with timeout }, by rw [sock?_alter_self, known]; rfl, rfl⟩
    · exact ⟨s, by rw [sock?_alter_ne same, known], rfl⟩

theorem dawns_append (h : Host T) (s : Sock T) (unused : s.backlog = [])
    (unread : s.unread = s.arrived) (shut : s.shut = false) :
    Dawns h { h with sockets := h.sockets ++ [s] } :=
  dawns_of_flows (settled_append (n := h.clients) unused) (flows_append (n := h.clients) unread shut)

theorem dawns_name (h : Host T) (id : SocketId) (name : Address) :
    Dawns h (h.alter id fun s => { s with name }) := by
  refine dawns_of_flows (settled_alter (fun _ => rfl) (fun _ => rfl) fun _ => rfl) ?_
  exact flows_alter fun _ => longer_of_same rfl rfl (fun gone => gone) rfl rfl rfl rfl

def heed (h : Host T) (id : SocketId) : Host T :=
  { h.alter id (fun s => { s with backlog := s.backlog ++ h.waiting }) with
    listener := some id, waiting := [] }

theorem dawns_heed {h : Host T} {id : SocketId} {s : Sock T} (known : h.sock? id = some s) :
    Dawns h (heed h id) := by
  have moved : (heed h id).pending.Perm h.pending := by
    have all := pending_alter_perm (f := fun s => { s with backlog := s.backlog ++ h.waiting }) known
    have split : (h.alter id fun s => { s with backlog := s.backlog ++ h.waiting }).pending =
        h.waiting ++ (heed h id).pending := rfl
    rw [split] at all
    have swapped := all.trans (List.perm_append_comm.append_left h.pending)
    rw [← List.append_assoc h.pending] at swapped
    have others := (List.perm_append_right_iff s.backlog).mp swapped
    exact (List.perm_append_left_iff h.waiting).mp (others.trans List.perm_append_comm)
  have settled : Settled h (heed h id) := by
    intro orderly
    have length : (heed h id).sockets.length = h.sockets.length := length_alter
    refine ⟨⟨orderly.server, moved.nodup_iff.mpr orderly.pending_nodup, fun other waits => ?_⟩, ?_⟩
    · rw [length]
      exact orderly.pending_lt other (moved.mem_iff.mp waits)
    · refine ⟨Nat.le_of_eq length.symm, ?_, ?_, ?_, rfl, rfl, fun _ kept => kept⟩
      · intro other _
        exact number_alter fun _ => rfl
      · intro other _
        exact isOpen_alter fun _ => rfl
      · exact fun other waits => .inl (moved.mem_iff.mp waits)
  refine dawns_of_flows settled ?_
  have longer : Flows h (h.alter id fun s => { s with backlog := s.backlog ++ h.waiting }) :=
    flows_alter fun _ => longer_of_same rfl rfl (fun gone => gone) rfl rfl rfl rfl
  exact longer.trans (flows_of_same rfl rfl rfl rfl)

def Heeds (h h' : Host T) : Prop := h'.listener = h.listener

theorem Heeds.refl (h : Host T) : Heeds h h := rfl

theorem heeds_raise (h : Host T) (flag : Flag) : Heeds h (h.raise flag) := by cases flag <;> rfl

theorem Heeds.trans {a b c : Host T} (one : Heeds a b) (two : Heeds b c) : Heeds a c :=
  Eq.trans two one

theorem heeds_apply [Clock T] (h : Host T) (action : Action T) : Heeds h (h.apply action) :=
  apply_of Heeds.refl .trans (fun ⟨_, _, _, _, _, _, _, _⟩ => rfl) heeds_raise h action

theorem calm_heeds [Clock T] : Calm (T := T) Heeds where
  refl := .refl
  trans := .trans
  emit _ _ _ := rfl
  note _ _ _ _ := rfl
  clock _ _ := rfl
  stderr _ _ := rfl
  console _ _ := rfl
  faults _ _ := rfl
  batches _ _ := rfl
  apply := heeds_apply

section Steps
variable {P : Type} [Clock T] [Resumable T P] {m : Machine T P} {id : SocketId}

omit [Clock T] [Resumable T P] in
theorem setupStep_ends {act : Run T P α} {caught : Failure → Bool} {undo : Run T P Unit}
    {wrap : Failure → Failure} {done : α → Machine T P → Prop}
    (ends : Ends act m done fun _ _ => True) :
    Ends (setupStep act caught undo wrap) m done fun _ _ => True := by
  simp only [setupStep, ends_bind, ends_outcome]
  refine ends.imp (fun _ _ reached => reached) fun f m' _ => ?_
  split
  · rw [ends_bind]
    exact ends_any
  · trivial

omit [Clock T] [Resumable T P] in
theorem guarded_ends {act : Run T P Unit} {step : SetupStep} {done : Unit → Machine T P → Prop}
    (ends : Ends act m done fun _ _ => True) :
    Ends (Endpoint.guarded id step act) m done fun _ _ => True := by
  simp only [Endpoint.guarded, ends_bind, ends_outcome]
  refine ends.imp (fun _ _ reached => reached) fun f m' _ => ?_
  split
  · rw [ends_bind]
    exact ends_any
  · trivial

variable [Idle T P]

theorem socket_ends {transport : Transport} : Ends (Os.socket transport) m
    (fun id m' => ∃ h fd, Dawns m.host h ∧ id = h.sockets.length ∧ Hosted Dawns
      ⟨{ h with sockets := h.sockets ++ [{ fd, transport }] }, m.prog⟩ m')
    fun _ _ => True := by
  simp only [Os.socket, ends_bind, ends_emits, Os.number]
  have told := calm_dawns.emit m.host (.begun .socket none) rfl
  apply (calm_dawns.mild.incident .socket _).well
  intro _ m' reached
  obtain ⟨h, p⟩ := m'
  obtain ⟨path, same⟩ := reached
  simp only at path same
  subst same
  exact ⟨h, h.freeNumber, told.trans path, rfl, calm_dawns.emit _ _ rfl, rfl⟩

theorem setBlocking_dawns (blocking : Bool) :
    Ends (Os.setBlocking id blocking) m (fun _ => Hosted Dawns m) fun _ _ => True := by
  apply (setBlocking_ends calm_dawns.steady blocking).well
  intro _ m' reached
  obtain ⟨h, s, path, -, -, rfl⟩ := reached
  exact ⟨path.trans (dawns_timeout h id _), rfl⟩

structure Spare (h : Host T) (id : SocketId) : Prop where
  isOpen : h.isOpen id = true
  idle : id ∉ h.pending

omit [Clock T] in
theorem Spare.later {h h' : Host T} (spare : Spare h id) (stays : Stays h h') : Spare h' id := by
  have bounded := lt_of_isOpen spare.isOpen
  refine ⟨(stays.isOpen id bounded).trans spare.isOpen, fun waits => ?_⟩
  cases stays.pending id waits with
  | inl before => exact spare.idle before
  | inr new => exact Nat.not_lt.mpr new bounded

omit [Clock T] in
theorem spare_append {h : Host T} (orderly : h.Orderly) (fd : Int) (transport : Transport) :
    Spare { h with sockets := h.sockets ++ [{ fd, transport }] } h.sockets.length := by
  have known : Host.sock? { h with sockets := h.sockets ++ [{ fd, transport }] }
      h.sockets.length = some { fd, transport } := by simp [sock?]
  refine ⟨isOpen_of_sock? known, fun waits => ?_⟩
  have all : Host.pending { h with sockets := h.sockets ++ [{ fd, transport }] } = h.pending := by
    simp [Host.pending]
  rw [all] at waits
  exact Nat.lt_irrefl _ (orderly.pending_lt _ waits)

theorem lookup_dawns (address : Address) : Keeps (P := P) Dawns (Os.lookup (T := T) address) := by
  refine .bind calm_dawns.course (calm_dawns.steady.emits rfl) fun _ => ?_
  refine .bind calm_dawns.course (calm_dawns.mild.incident .lookup) fun _ => ?_
  split
  · exact .fails calm_dawns.course
  · exact .asks calm_dawns.course

theorem resolve_dawns (address : Address) :
    Ends (Sink.resolve address) m
      (fun sink m' => Hosted Dawns m m' ∧ (Fresh m.host → Spare m'.host sink.sock))
      fun _ _ => True := by
  simp only [Sink.resolve, Sink.lookupFirst, ends_bind, ends_outcome]
  apply (lookup_dawns address m).imp
  · intro found middle looked
    cases found with
    | nil => trivial
    | cons dest rest =>
      simp only [ends_pure]
      apply socket_ends.imp
      · intro sock made reached
        obtain ⟨h, fd, path, rfl, after⟩ := reached
        have grown := path.trans (dawns_append h { fd, transport := .datagram } rfl rfl rfl)
        apply (setBlocking_dawns false).well
        intro _ last set
        have still := after.1.trans set.1
        refine ⟨⟨looked.1.trans (grown.trans still), set.2.trans (after.2.trans looked.2)⟩, ?_⟩
        intro fresh
        have ready := (looked.1.trans path fresh).fresh
        have opened := dawns_append h { fd, transport := .datagram } rfl rfl rfl ready
        exact (spare_append ready.orderly fd .datagram).later (still opened.fresh).stays
      · intro f m' _
        split <;> trivial
  · intro f m' _
    split <;> trivial

theorem orResolve_dawns (given : Option Sink) (address : Address) :
    Ends (Sink.orResolve given address) m (fun _ => Hosted Dawns m) fun _ _ => True := by
  cases given with
  | some sink => exact calm_dawns.course.refl m
  | none => exact (resolve_dawns address).well fun _ _ resolved => resolved.1

structure Opened (h : Host T) (id : SocketId) : Prop where
  fresh : Fresh h
  isOpen : h.isOpen id = true
  idle : id ∉ h.pending
  stream : ∃ s, h.sock? id = some s ∧ s.transport = .stream

omit [Clock T] in
theorem Opened.later {h h' : Host T} (opened : Opened h id) (dawns : Dawns h h') :
    Opened h' id := by
  have dawn := dawns opened.fresh
  obtain ⟨isOpen, idle⟩ := Spare.later ⟨opened.isOpen, opened.idle⟩ dawn.stays
  obtain ⟨s, known, stream⟩ := opened.stream
  obtain ⟨s', known', same⟩ := dawn.transport id s known
  exact ⟨dawn.fresh, isOpen, idle, s', known', same.trans stream⟩

omit [Clock T] in
theorem opened_append {h : Host T} (fresh : Fresh h) (fd : Int) :
    Opened { h with sockets := h.sockets ++ [{ fd, transport := .stream }] } h.sockets.length := by
  have dawn := dawns_append h { fd, transport := .stream } rfl rfl rfl fresh
  obtain ⟨isOpen, idle⟩ := spare_append fresh.orderly fd .stream
  exact ⟨dawn.fresh, isOpen, idle, { fd, transport := .stream }, by simp [sock?], rfl⟩

theorem reuseAddress_dawns : Keeps (P := P) Dawns (Os.reuseAddress (T := T) id) := by
  refine .bind calm_dawns.course (.asks calm_dawns.course) fun _ => ?_
  refine .bind calm_dawns.course (calm_dawns.steady.emits rfl) fun _ => ?_
  refine .bind calm_dawns.course (calm_dawns.mild.incident .setOption) fun _ => ?_
  exact .bind calm_dawns.course (opened_keeps calm_dawns.steady.lively) fun _ => .pure calm_dawns.course

theorem bind_opened (opened : Opened m.host id) (address : Address) :
    Ends (Os.bind id address) m (fun _ m' => Hosted Dawns m m' ∧ Opened m'.host id)
      fun _ _ => True := by
  simp only [Os.bind, ends_bind, Os.number, ends_asks, ends_emits]
  have told := calm_dawns.emit m.host (.bind (m.host.number id) address) rfl
  apply (calm_dawns.mild.incident .bind _).well
  intro _ m' reached
  obtain ⟨h, path, rfl⟩ := reached.cases
  have arrived := told.trans path
  have before := opened.later arrived
  apply opened_ends.well
  intro s m' found
  obtain ⟨rfl, known, -⟩ := found
  obtain ⟨other, known', stream⟩ := before.stream
  cases Option.some.inj (known.symm.trans known')
  simp only [stream, Os.alter, ends_changes, ends_onlyIf, reduceCtorEq, decide_false,
    Bool.false_eq_true, if_false]
  exact ⟨⟨arrived.trans (dawns_name h id _), rfl⟩, before.later (dawns_name h id _)⟩

theorem listen_opened (opened : Opened m.host id) (backlog : Given Int) :
    Ends (Os.listen id backlog) m
      (fun _ m' => Hosted Dawns m m' ∧ Opened m'.host id ∧ m'.host.listener = some id)
      fun _ _ => True := by
  simp only [Os.listen, ends_bind, Os.number, ends_asks, ends_emits]
  have told := calm_dawns.emit m.host (.listen (m.host.number id) backlog) rfl
  apply (calm_dawns.mild.incident .listen _).well
  intro _ m' reached
  obtain ⟨path, same⟩ := reached
  have heeded := told.trans path
  apply opened_ends.well
  intro s m'' found
  obtain ⟨rfl, known, -⟩ := found
  exact ⟨⟨heeded.trans (dawns_heed known), same⟩,
    (opened.later heeded).later (dawns_heed known), rfl⟩

theorem heeds_setBlocking (blocking : Bool) :
    Keeps (P := P) Heeds (Os.setBlocking (T := T) id blocking) := by
  intro m
  refine (setBlocking_ends calm_heeds.steady blocking).imp ?_ ?_
  · intro _ m' reached
    obtain ⟨h, s, path, -, -, rfl⟩ := reached
    exact ⟨path, rfl⟩
  · intro f m' reached
    obtain ⟨h, path, rfl⟩ := reached
    exact ⟨path, rfl⟩

theorem listening_opened (fresh : Fresh m.host) (address : Address) (backlog : Given Int)
    (blocking : Bool) :
    Ends (Endpoint.listening address backlog blocking) m
      (fun id m' => Hosted Dawns m m' ∧ Opened m'.host id ∧ m'.host.listener = some id)
      fun _ _ => True := by
  simp only [Endpoint.listening, Endpoint.newSocket, ends_bind, ends_outcome]
  refine socket_ends.imp ?_ ?_
  · intro id made reached
    obtain ⟨h, fd, path, rfl, after⟩ := reached
    have first := (opened_append (path fresh).fresh fd).later after.1
    have grown : Hosted Dawns m made := by
      refine ⟨path.trans ((dawns_append h _ ?_ ?_ ?_).trans after.1), after.2⟩
      all_goals rfl
    simp only [ends_pure]
    apply guarded_ends
    apply (reuseAddress_dawns made).well
    intro _ bound shared
    have second := first.later shared.1
    apply guarded_ends
    apply (bind_opened second address).well
    intro _ named third
    apply guarded_ends
    rw [ends_bind]
    apply (listen_opened third.2 backlog).well
    intro _ heeded fourth
    apply ((setBlocking_dawns blocking).and (heeds_setBlocking blocking heeded)).well
    intro _ last both
    obtain ⟨set, kept⟩ := both
    have course := calm_dawns.course (T := T) (P := P)
    refine ⟨?_, fourth.2.1.later set.1, Eq.trans kept.1 fourth.2.2⟩
    exact course.trans (course.trans (course.trans (course.trans grown shared) third.1) fourth.1) set
  · intro f m' _
    split <;> trivial

theorem listening_new (fresh : Fresh m.host) (address : Address) (backlog : Given Int)
    (blocking : Bool) :
    Ends (Endpoint.listening address backlog blocking) m
      (fun id _ => m.host.sockets.length ≤ id) fun _ _ => True := by
  simp only [Endpoint.listening, Endpoint.newSocket, ends_bind, ends_outcome]
  apply socket_ends.imp
  · intro id made reached
    obtain ⟨h, fd, path, rfl, -⟩ := reached
    simp only [ends_pure]
    apply guarded_ends
    apply ends_any.well
    intro _ shared _
    apply guarded_ends
    apply ends_any.well
    intro _ named _
    apply guarded_ends
    apply ends_any.well
    intro _ heeded _
    exact (path fresh).stays.grown
  · intro f m' _
    split <;> trivial

end Steps

variable [Clock T]

-- What is true of a relay from its creation on.
structure Begun (m : Machine T (Relay T)) : Prop where
  streams : Streams m
  coherent : Coherent m
  offset : offset m.prog = 0
  closed : m.prog.closed = false
  counters : m.prog.stats.counters = {}
  table : m.prog.table = {}
  offers : m.host.offers = []
  datagrams : m.host.datagrams = []
  accepted : m.host.accepted = []
  -- The listener alone is watched, and clients come to wait at it.
  entries : m.host.entries = [ownEntry m]
  awake : attentive m.prog = true
  heeded : m.host.listener = some m.prog.listener.sock

theorem begun_watch {h : Host T} {r : Relay T} {id : SocketId} (opened : Opened h id)
    (unwatched : h.watching? (h.number id) = none) (sock : r.listener.sock = id)
    (table : r.table = {}) (awake : r.listener.resumeAt = none)
    (listening : r.listener.closed = false) (closed : r.closed = false)
    (counters : r.stats.counters = {}) (heeded : h.listener = some id) :
    Begun ⟨h.watch id none, r⟩ := by
  subst sock
  have bounded := lt_of_isOpen opened.isOpen
  have attentive : attentive r = true := by simp [Relay.attentive, Listener.paused, awake, listening]
  obtain ⟨orderly, receipts, offers, datagrams, accepted, entries, untouched⟩ := opened.fresh
  have firm : Firm false ⟨h, r⟩ := by
    refine ⟨⟨orderly, bounded⟩, ?_, ?_, ?_⟩
    · refine ⟨opened.idle, ?_, ?_, ?_, ?_, ?_, ?_, ?_, ?_⟩
      all_goals simp [socks, table, accepted]
    · refine ⟨?_, ?_, ?_, ?_⟩
      all_goals simp [table, entries]
    · simpa [listening] using opened.isOpen
  have heard := firm.listen unwatched
  rw [← attentive] at heard
  refine ⟨?_, heard, by simp [Relay.offset, table, counters], closed, counters, table, offers,
    datagrams, accepted, ?_, attentive, heeded⟩
  swap
  · simp only [Host.watch, entries, List.nil_append]
    rfl
  have nothing (id : SocketId) : h.received id = [] := by simp [received, receipts]
  have streams : Streams ⟨h, r⟩ := by
    refine ⟨?_, ?_, ?_, ?_, ?_, ?_, ?_, ?_, ?_⟩
    · intro id s known
      simp [nothing, (untouched id s known).1]
    · exact fun id s known => (untouched id s known).2
    all_goals simp [receipts, offers, datagrams, table, nothing]
  have watched : Hosted Flows ⟨h, r⟩ ⟨h.watch r.listener.sock none, r⟩ := ⟨flows_watch h _ _, rfl⟩
  exact streams.flows watched

theorem create_ends {P : Type} [Resumable T P] [Idle T P] {m : Machine T P}
    (fresh : Fresh m.host) (config : Config) (control : Option Control) (sink : Option Sink) :
    Ends (create config control sink) m (fun relay m' => Begun ⟨m'.host, relay⟩)
      fun _ _ => True := by
  simp only [create, ends_bind]
  apply (orResolve_dawns sink config.udp).well
  intro sink resolved first
  apply setupStep_ends
  have selector : Keeps (P := P) Dawns (Os.newSelector (T := T)) := by
    refine .bind calm_dawns.course (calm_dawns.mild.incident .selector) fun _ => ?_
    exact changes_keeps fun h => dawns_of_flows (Alike.settled
      ⟨rfl, rfl, rfl, rfl, rfl, fun _ kept => kept⟩) (flows_of_same rfl rfl rfl rfl)
  apply (selector resolved).well
  intro _ prepared second
  apply setupStep_ends
  have ready := ((first.1.trans second.1) fresh).fresh
  apply (listening_opened ready config.listen config.backlog false).well
  intro sock heeded opened
  simp only [ends_asks, Os.name, ends_bind, ends_pure]
  apply opened_ends.well
  intro s named found
  obtain ⟨rfl, -, -⟩ := found
  apply setupStep_ends
  apply ((register_ends calm_dawns.steady none).and (register_ends calm_heeds.steady none)).well
  intro _ watched reached
  obtain ⟨⟨h, path, -, unwatched, rfl⟩, other, kept, -, -, same⟩ := reached
  have last := opened.2.1.later path
  have heeded : h.listener = some sock := by
    have listener : h.listener = other.listener := congrArg (fun m => m.host.listener) same
    rw [listener, kept, opened.2.2]
  cases config.pollMillis with
  | nothing => trivial
  | value n =>
    simp only
    split
    · apply begun_watch last unwatched
      case heeded => exact heeded
      all_goals rfl
    · trivial

def Created (m : Machine T (Relay T)) : Prop :=
  ∃ h config control sink, Fresh h ∧
    create config control sink (⟨h, ()⟩ : Machine T Unit) = .ok m.prog ⟨m.host, ()⟩

theorem Created.begun {m : Machine T (Relay T)} (created : Created m) : Begun m := by
  obtain ⟨h, config, control, sink, fresh, ran⟩ := created
  exact (create_ends (m := ⟨h, ()⟩) fresh config control sink).of_ok ran

-- A small relay, and a host to which a client comes that sends two bytes and ends.
def plainConfig : Config where
  listen := ⟨"127.0.0.1", (0 : Int)⟩
  udp := ⟨"127.0.0.1", (9 : Int)⟩
  bufferSize := 1
  pollMillis := (500 : Int)
  backlog := (8 : Int)
  bufferSize_pos := by decide
  bufferSize_le := by decide

def busyHost : Host Int where
  clock := 0
  batches := [⟨[.connect { data := [104, 105], ended := true }], some [4]⟩, ⟨[.stop], some [5]⟩]

@[irreducible] def busyRelay : Machine Int (Relay Int) :=
  match create plainConfig none none (⟨busyHost, ()⟩ : Machine Int Unit) with
  | .ok relay m => ⟨m.host, relay⟩
  | .error _ m => ⟨m.host, {
      config := plainConfig, pollTimeout := 0, sink := ⟨0, plainConfig.udp⟩
      listener := ⟨0, plainConfig.listen, false, none⟩, stats := Stats.starting 0 }⟩

theorem fresh_busyHost : Fresh busyHost :=
  fresh_of_empty rfl rfl rfl rfl rfl

theorem created_busyRelay : Created busyRelay := by
  have good : endsWell (create plainConfig none none) (⟨busyHost, ()⟩ : Machine Int Unit) = true := by
    decide +kernel
  unfold busyRelay
  split
  · rename_i ran
    exact ⟨busyHost, plainConfig, none, none, fresh_busyHost, ran⟩
  · rename_i ran
    unfold endsWell at good
    rw [ran] at good
    exact absurd good Bool.false_ne_true

end StreamRelay.Relay
