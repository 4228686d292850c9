import StreamRelay.Proofs.Host.Directions
import StreamRelay.Proofs.Relay.Coherence
import StreamRelay.Proofs.Relay.Pace

namespace StreamRelay

-- Which descriptors a wait has reported.
def Event.reported {T : Type} : Event T → List Int
  | .ready _ fds _ => fds
  | _ => []

namespace Host
variable {T : Type} {h h' : Host T}

-- Whatever is new to an observer is neither a call to accept nor the beginning of a rest.
def Adds (h h' : Host T) : Prop :=
  ∃ new, h'.trace = new ++ h.trace ∧ ∀ s ∈ new, s.event.calm = true

theorem adds_same (trace : h'.trace = h.trace) : Adds h h' := shows_same trace

theorem Adds.trans {a b c : Host T} (one : Adds a b) (two : Adds b c) : Adds a c :=
  Shows.trans one two

theorem adds_emit (h : Host T) {e : Event T} (calm : e.calm = true) : Adds h (h.emit e) :=
  shows_emit h calm

theorem adds_alter (h : Host T) (id : SocketId) (f : Sock T → Sock T) : Adds h (h.alter id f) :=
  adds_same rfl

theorem adds_of_hears (hears : Hears h h') : Adds h h' := shows_of_hears (fun _ => rfl) hears

structure Tells (h h' : Host T) : Prop where
  trace : h.trace <:+ h'.trace
  refusals : ∀ r ∈ h.refusals, r ∈ h'.refusals

theorem tells_of_adds (adds : Adds h h') (refusals : h'.refusals = h.refusals) : Tells h h' := by
  obtain ⟨new, trace, -⟩ := adds
  exact ⟨⟨new, trace.symm⟩, fun r there => refusals ▸ there⟩

theorem tells_same (trace : h'.trace = h.trace) (refusals : h'.refusals = h.refusals) :
    Tells h h' := tells_of_adds (adds_same trace) refusals

theorem tells_emit (h : Host T) (e : Event T) : Tells h (h.emit e) :=
  ⟨⟨[⟨h.clock, e⟩], rfl⟩, fun _ there => there⟩

theorem Tells.trans {a b c : Host T} (one : Tells a b) (two : Tells b c) : Tells a c :=
  ⟨one.trace.trans two.trace, fun r there => two.refusals r (one.refusals r there)⟩

theorem tells_alter (h : Host T) (id : SocketId) (f : Sock T → Sock T) : Tells h (h.alter id f) :=
  tells_same rfl rfl

theorem tells_shut (h : Host T) (id : SocketId) : Tells h (h.shut id) := by
  unfold shut
  split
  · exact (tells_alter h id _).trans (tells_emit _ _)
  · exact tells_same rfl rfl

def SparedOf (h : Host T) (id : SocketId) : Prop :=
  ∀ r ∈ h.refusals, r.call = .unregister → r.sock = id → r.watched = false

instance (h : Host T) (id : SocketId) : Decidable (h.SparedOf id) :=
  inferInstanceAs (Decidable (∀ r ∈ h.refusals, r.call = .unregister → r.sock = id → r.watched = false))

end Host

namespace Relay
variable {T : Type} [Clock T]
open Run Host

theorem mild_adds : Mild (T := T) Adds :=
  mild_of_hears (fun _ => adds_same rfl) .trans adds_of_hears

omit [Clock T] in
theorem calm_of_upkeep {e : Event T} (kept : upkeep e = true) : e.calm = true := by
  cases e with
  | begun call sock => cases call <;> first | rfl | exact absurd kept Bool.false_ne_true
  | _ => first | rfl | exact absurd kept Bool.false_ne_true

theorem modest_adds : Modest (T := T) Adds where
  toLively := mild_adds.lively fun _ _ => adds_same rfl
  emit h e kept := adds_emit h (calm_of_upkeep kept)
  note _ _ _ _ _ := adds_same rfl
  stderr _ _ := adds_same rfl
  console _ _ := adds_same rfl
  raise h := adds_of_hears (hears_raise h .service)
  shut h id := by
    unfold shut
    split
    · exact (adds_alter h id _).trans (adds_emit _ rfl)
    · exact adds_same rfl
  entries _ _ := adds_same rfl
  selector h := (adds_emit h rfl).trans (adds_same rfl)
  hasten _ _ := adds_same rfl

theorem draws_adds : Draws (T := T) Adds where
  toLively := modest_adds.toLively
  begun h call id other := adds_emit h (by rcases other with rfl | rfl <;> rfl)
  noted _ _ _ _ _ := adds_same rfl
  logged := modest_adds.logged
  take _ _ _ := adds_same rfl
  received h _ _ := adds_emit h rfl
  offered h _ _ := adds_emit h rfl
  datagram h _ _ _ := adds_emit h rfl

theorem calm_tells : Calm (T := T) Tells where
  refl _ := tells_same rfl rfl
  trans := .trans
  emit h e _ := tells_emit h e
  note _ _ _ _ := ⟨List.suffix_rfl, fun _ there => List.mem_cons_of_mem _ there⟩
  clock _ _ := tells_same rfl rfl
  stderr _ _ := tells_same rfl rfl
  console _ _ := tells_same rfl rfl
  faults _ _ := tells_same rfl rfl
  batches _ _ := tells_same rfl rfl
  apply h action := tells_of_adds (adds_of_hears (hears_apply h action)) (hears_apply h action).refusals

theorem ample_tells : Ample (T := T) Tells where
  toSteady := calm_tells.steady
  told := tells_emit
  raise h := tells_of_adds (adds_of_hears (hears_raise h .service)) (hears_raise h .service).refusals
  shut := tells_shut
  entries _ _ := tells_same rfl rfl
  selector h := (tells_emit h _).trans (tells_same rfl rfl)
  take _ _ _ := tells_same rfl rfl
  hasten _ _ := tells_same rfl rfl
  dequeue _ _ _ _ _ _ _ := tells_same rfl rfl

def Drifts (h h' : Host T) : Prop := Settled h h' ∧ Adds h h'

omit [Clock T] in
theorem drifts_of {act : Run T P α} (settled : Keeps Settled act) (adds : Keeps Adds act) :
    Keeps Drifts act := by
  intro m
  refine ((settled m).and (adds m)).imp ?_ ?_
  · exact fun _ _ both => ⟨⟨both.1.1, both.2.1⟩, both.1.2⟩
  · exact fun _ _ both => ⟨⟨both.1.1, both.2.1⟩, both.1.2⟩

theorem lively_drifts : Lively (T := T) Drifts where
  refl h := ⟨.refl h, adds_same rfl⟩
  trans one two := ⟨one.1.trans two.1, one.2.trans two.2⟩
  clock h _ := ⟨calm_settled.clock h _, adds_same rfl⟩
  incident call := drifts_of (calm_settled.mild.incident call) (mild_adds.incident call)
  await := drifts_of calm_settled.mild.await mild_adds.await

theorem drifts_note (h : Host T) (call : Call) (id : SocketId) (cause : Failure) :
    Drifts h (h.note call id cause) := ⟨calm_settled.note h call id cause, adds_same rfl⟩

theorem drifts_log {P : Type} (level : Level) (text : String) :
    Keeps (T := T) (P := P) Drifts (Os.log level text) :=
  drifts_of (calm_settled.steady.log level text) (modest_adds.log level text)

-- A socket under its number, for which nobody waits that it could accept.
structure Placed (l : SocketId) (fd : Int) (h : Host T) : Prop where
  orderly : h.Orderly
  bounded : l < h.sockets.length
  idle : l ∉ h.pending
  number : h.number l = fd

-- The listener's socket is nobody else's, and open until it is closed. If anything is watched for it,
-- it is under its number, and only while it is awake.
structure Reserved (l : SocketId) (fd : Int) (awake : Prop) (m : Machine T (Relay T)) : Prop where
  sock : m.prog.listener.sock = l
  placed : Placed l fd m.host
  apart : l ∉ socks m.prog
  isOpen : m.prog.listener.closed = false → m.host.isOpen l = true
  watched : ∀ e ∈ m.host.entries, e.2.sock = l → e.1 = fd ∧ awake

-- A listener at some stage, to which what was seen since the beginning has led.
structure Steered (l : SocketId) (fd : Int) (base : List (Stamped T)) (stage : Stage T)
    (m : Machine T (Relay T)) : Prop extends Reserved l fd (stage.rest? = none) m where
  rest : m.prog.listener.resumeAt = stage.rest?
  paced : ∃ seen, m.host.trace = seen ++ base ∧ Paced fd stage seen

def Going (l : SocketId) (fd : Int) (base : List (Stamped T)) (m : Machine T (Relay T)) : Prop :=
  ∃ stage, Steered l fd base stage m

-- What has to be true of the system: to stop watching the listener has not failed, and each wait
-- has reported it once at most.
structure Proper (l : SocketId) (fd : Int) (h : Host T) : Prop where
  spared : h.SparedOf l
  once : ∀ s ∈ h.trace, s.event.reported.count fd ≤ 1

section Steering
variable {l id : SocketId} {fd : Int} {base : List (Stamped T)} {stage stage' : Stage T}
  {h h' : Host T} {r r' : Relay T} {m : Machine T (Relay T)}

omit [Clock T] in
theorem Placed.aged (placed : Placed l fd h) (aged : Aged h h') : Placed l fd h' := by
  obtain ⟨orderly, ages⟩ := aged placed.orderly
  refine ⟨orderly, Nat.lt_of_lt_of_le placed.bounded ages.grown, fun waits => ?_,
    (ages.number l placed.bounded).trans placed.number⟩
  cases ages.pending l waits with
  | inl before => exact placed.idle before
  | inr new => exact Nat.not_lt.mpr new placed.bounded

omit [Clock T] in
theorem Proper.before (tells : Tells h h') (proper : Proper l fd h') : Proper l fd h :=
  ⟨fun r there => proper.spared r (tells.refusals r there),
    fun s there => proper.once s (tells.trace.subset there)⟩

section Reserved
variable {awake : Prop}

omit [Clock T] in
theorem Reserved.moves (kept : Reserved l fd awake ⟨h, r⟩) (aged : Aged h h')
    (opened : h.isOpen l = true → h'.isOpen l = true)
    (entries : ∀ e ∈ h'.entries, e.2.sock = l → e ∈ h.entries) : Reserved l fd awake ⟨h', r⟩ where
  sock := kept.sock
  placed := kept.placed.aged aged
  apart := kept.apart
  isOpen listening := opened (kept.isOpen listening)
  watched e there own := kept.watched e (entries e there own) own

omit [Clock T] in
theorem Reserved.settled (kept : Reserved l fd awake ⟨h, r⟩) (path : Settled h h') :
    Reserved l fd awake ⟨h', r⟩ := by
  obtain ⟨-, stays⟩ := path kept.placed.orderly
  refine kept.moves path.aged ?_ ?_
  · exact fun opened => (stays.isOpen l kept.placed.bounded).trans opened
  · exact fun e there _ => stays.entries ▸ there

omit [Clock T] in
theorem Reserved.fewer (kept : Reserved l fd awake ⟨h, r⟩) {entries : List (Int × Entry)}
    (fewer : ∀ e ∈ entries, e ∈ h.entries) : Reserved l fd awake ⟨{ h with entries := entries }, r⟩ :=
  kept.moves (aged_entries h entries) (fun opened => opened) fun e there _ => fewer e there

omit [Clock T] in
theorem Reserved.reported (kept : Reserved l fd awake ⟨h, r⟩) {fds : List Int} {e : Int × Entry}
    (there : e ∈ Os.entriesOf h fds) (own : e.2.sock = l) : e.1 = fd ∧ awake := by
  obtain ⟨number, -, held⟩ := List.mem_filterMap.mp there
  obtain ⟨entry, looked, rfl⟩ := Option.map_eq_some_iff.mp held
  obtain ⟨before, after, split, -⟩ := List.lookup_eq_some_iff.mp looked
  refine kept.watched _ ?_ own
  rw [split]
  exact List.mem_append_right _ List.mem_cons_self

omit [Clock T] in
theorem Reserved.edit (kept : Reserved l fd awake ⟨h, r⟩) (sock : r'.listener.sock = r.listener.sock)
    (hung : r.listener.closed = true → r'.listener.closed = true) (apart : l ∉ socks r') :
    Reserved l fd awake ⟨h, r'⟩ := by
  refine ⟨sock.trans kept.sock, kept.placed, apart, fun listening => kept.isOpen ?_, kept.watched⟩
  cases closed : r.listener.closed with
  | false => rfl
  | true => exact absurd ((hung closed).symm.trans listening) Bool.noConfusion

end Reserved

-- What concerns somebody else: the listener's socket, its rest and its end stay as they are.
structure Passes (l : SocketId) (fd : Int) (m m' : Machine T (Relay T)) : Prop where
  kept : ∀ awake, Reserved l fd awake m → Reserved l fd awake m'
  adds : Adds m.host m'.host
  rest : m'.prog.listener.resumeAt = m.prog.listener.resumeAt
  hung : m.prog.listener.closed = true → m'.prog.listener.closed = true

theorem Steered.passes {m m' : Machine T (Relay T)} (steered : Steered l fd base stage m)
    (path : Passes l fd m m') : Steered l fd base stage m' := by
  obtain ⟨seen, trace, paced⟩ := steered.paced
  obtain ⟨new, grown, calm⟩ := path.adds
  refine ⟨path.kept _ steered.toReserved, path.rest.trans steered.rest, new ++ seen, ?_,
    paced.calms calm⟩
  rw [List.append_assoc, grown, trace]

omit [Clock T] in
theorem passes_of_moves (adds : Adds h h')
    (moves : ∀ awake, Reserved l fd awake ⟨h, r⟩ → Reserved l fd awake ⟨h', r⟩) :
    Passes l fd ⟨h, r⟩ ⟨h', r⟩ := ⟨moves, adds, rfl, fun hung => hung⟩

omit [Clock T] in
theorem passes_drifts (path : Drifts h h') : Passes l fd ⟨h, r⟩ ⟨h', r⟩ :=
  passes_of_moves path.2 fun _ kept => kept.settled path.1

omit [Clock T] in
theorem passes_edit (sock : r'.listener.sock = r.listener.sock)
    (rest : r'.listener.resumeAt = r.listener.resumeAt)
    (hung : r.listener.closed = true → r'.listener.closed = true)
    (apart : l ∉ socks r → l ∉ socks r') : Passes l fd ⟨h, r⟩ ⟨h, r'⟩ :=
  ⟨fun _ kept => kept.edit sock hung (apart kept.apart), adds_same rfl, rest, hung⟩

theorem Steered.drifts (steered : Steered l fd base stage ⟨h, r⟩) (path : Drifts h h') :
    Steered l fd base stage ⟨h', r⟩ := steered.passes (passes_drifts path)

theorem Steered.turns (steered : Steered l fd base stage ⟨h, r⟩) {e : Event T}
    (next : ∀ seen, Paced fd stage seen → Paced fd stage' (⟨h.clock, e⟩ :: seen))
    (watched : ∀ e ∈ h.entries, e.2.sock = l → stage'.rest? = none) :
    Steered l fd base stage'
      ⟨h.emit e, setListener (fun l => { l with resumeAt := stage'.rest? }) r⟩ := by
  obtain ⟨seen, trace, paced⟩ := steered.paced
  refine ⟨⟨steered.sock, steered.placed.aged (aged_emit h e), steered.apart, steered.isOpen, ?_⟩, rfl,
    ⟨h.clock, e⟩ :: seen, congrArg _ trace, next seen paced⟩
  exact fun entry there own => ⟨(steered.watched entry there own).1, watched entry there own⟩

theorem Steered.tells (steered : Steered l fd base stage ⟨h, r⟩) {e : Event T}
    (next : ∀ seen, Paced fd stage seen → Paced fd stage' (⟨h.clock, e⟩ :: seen))
    (same : stage'.rest? = stage.rest?) : Steered l fd base stage' ⟨h.emit e, r⟩ := by
  have turned := steered.turns next fun e there own => same.trans (steered.watched e there own).2
  rw [same, ← steered.rest] at turned
  exact turned

end Steering

section Frames
variable {l id : SocketId} {fd : Int}

omit [Clock T] in
theorem Passes.trans {a b c : Machine T (Relay T)} (one : Passes l fd a b) (two : Passes l fd b c) :
    Passes l fd a c :=
  ⟨fun awake kept => two.kept awake (one.kept awake kept), one.adds.trans two.adds,
    two.rest.trans one.rest, fun hung => two.hung (one.hung hung)⟩

theorem passes_course : Course (Passes (T := T) l fd) (Passes l fd) where
  refl _ := passes_drifts (lively_drifts.refl _)
  trans := .trans
  weaken path := path
  falls := .trans

omit [Clock T] in
theorem passes_of_drifts {act : Run T (Relay T) α} (keeps : Keeps Drifts act) :
    Within (Passes l fd) (Passes l fd) act := by
  have passes {m m' : Machine T (Relay T)} (path : Hosted Drifts m m') : Passes l fd m m' := by
    obtain ⟨h, drifts, rfl⟩ := path.cases
    exact passes_drifts drifts
  exact keeps.mono passes passes

theorem passes_log (level : Level) (text : String) :
    Within (Passes (T := T) l fd) (Passes l fd) (Os.log level text) :=
  passes_of_drifts (drifts_log level text)

theorem passes_unregister (id : SocketId) :
    Within (Passes (T := T) l fd) (Passes l fd) (Os.unregister id) := by
  intro m
  have told : Drifts m.host (m.host.emit (.unregister (m.host.fileno id))) :=
    ⟨settled_emit _ _ rfl, adds_emit _ rfl⟩
  refine (unregister_runs lively_drifts told).imp ?_ ?_
  · intro _ m' reached
    obtain ⟨h, path, ⟨-, rfl⟩ | ⟨-, rfl⟩⟩ := reached
    all_goals
      refine (passes_drifts path).trans (passes_of_moves (adds_same rfl) fun _ kept => ?_)
      exact kept.fewer fun e there => (List.mem_filter.mp there).1
  · intro f m' reached
    obtain ⟨h, path, rfl⟩ := reached
    exact passes_drifts (lively_drifts.trans path (drifts_note h _ _ _))

theorem passes_close (differs : id ≠ l) :
    Within (Passes (T := T) l fd) (Passes l fd) (Os.close id) := by
  intro m
  refine passes_of_moves (modest_adds.shut m.host id) fun _ kept => ?_
  refine kept.moves (aged_shut m.host id) (fun opened => ?_) ?_
  · exact isOpen_shut.trans ((if_neg differs).trans opened)
  · exact fun e there _ => entries_shut (h := m.host) ▸ there

theorem passes_register (differs : id ≠ l) (conn : Option SocketId) :
    Within (Passes (T := T) l fd) (Passes l fd) (Os.register id conn) := by
  intro m
  have told : Drifts m.host (m.host.emit (.register (m.host.fileno id))) :=
    ⟨settled_emit _ _ rfl, adds_emit _ rfl⟩
  refine (register_runs lively_drifts conn).imp ?_ ?_
  · intro _ m' reached
    obtain ⟨h, path, -, -, rfl⟩ := reached
    refine (passes_drifts (lively_drifts.trans told path)).trans ?_
    refine passes_of_moves (adds_same rfl) fun _ kept => ?_
    refine kept.moves (aged_entries h _) (fun opened => opened) fun e there own => ?_
    cases List.mem_append.mp there with
    | inl before => exact before
    | inr last =>
      rw [List.mem_singleton.mp last] at own
      exact absurd own differs
  · intro f m' reached
    obtain ⟨h, path, rfl⟩ := reached
    exact passes_drifts (lively_drifts.trans (lively_drifts.trans told path) (drifts_note h _ _ _))

theorem drifts_setBlocking (id : SocketId) :
    Keeps (T := T) (P := Relay T) Drifts (Os.setBlocking id false) := by
  intro m
  have told : Drifts m.host (m.host.emit (.setBlocking (m.host.number id) false)) :=
    ⟨settled_emit _ _ rfl, adds_emit _ rfl⟩
  refine (setBlocking_runs lively_drifts false told).imp ?_ ?_
  · intro _ m' reached
    obtain ⟨h, s, path, -, -, rfl⟩ := reached
    exact ⟨lively_drifts.trans path ⟨settled_hasten h id, adds_same rfl⟩, rfl⟩
  · intro f m' reached
    obtain ⟨h, path, rfl⟩ := reached
    exact ⟨lively_drifts.trans path (drifts_note h _ _ _), rfl⟩

theorem passes_enroll (differs : id ≠ l) (peer : Peer) :
    Within (Passes (T := T) l fd) (Passes l fd) (enroll id peer) := by
  apply enroll_within passes_course
  · exact passes_log
  · exact passes_of_drifts (drifts_setBlocking id)
  · exact passes_register differs _
  · exact passes_close differs
  · intro h r c same
    refine passes_edit rfl rfl (fun hung => hung) fun apart there => ?_
    simp only [socks, setTable, Table.insert, List.map_append, List.map_cons, List.map_nil,
      List.mem_append, List.mem_singleton] at there
    cases there with
    | inl before => exact apart before
    | inr last => exact differs (same.symm.trans last.symm)

theorem releasing_passes : Releasing (Passes (T := T) l fd) (Passes l fd) where
  toCourse := passes_course
  log := passes_log
  unregister := passes_unregister
  tend h r r' tended := by
    have numbered := congrArg (List.map Prod.fst) tended.known
    rw [List.map_map, List.map_map] at numbered
    have same : socks r' = socks r := numbered
    exact passes_edit tended.listener tended.rest tended.hung fun apart => same ▸ apart

theorem passes_drain (conn : Connection) :
    Within (Passes (T := T) l fd) (Passes l fd) (drain conn) := by
  intro m
  have passes {m' : Machine T (Relay T)} (settled : Counted Settled m m')
      (adds : Counted Adds m m') : Passes l fd m m' := by
    obtain ⟨path, f, -, same⟩ := settled
    obtain ⟨h', r'⟩ := m'
    simp only at same path
    subst same
    have drifted : Passes l fd m ⟨h', m.prog⟩ := passes_drifts ⟨path, adds.1⟩
    exact drifted.trans (passes_edit rfl rfl (fun hung => hung) fun apart => apart)
  refine ((reading_settled.drain conn m).and (draws_adds.drain conn m)).imp ?_ ?_
  · exact fun _ _ both => passes both.1 both.2
  · exact fun _ _ both => passes both.1 both.2

theorem serve_passes {m : Machine T (Relay T)} {entry : Entry} (other : entry.sock ≠ l)
    (sock : m.prog.listener.sock = l) (apart : l ∉ socks m.prog) :
    Ends (serve entry) m (fun _ => Passes l fd m) fun _ => Passes l fd m := by
  have course : Course (Passes (T := T) l fd) (Passes l fd) := passes_course
  apply ends_serve
  case accepts => exact fun own => absurd (own.trans sock) other
  case passes => exact fun _ _ => course.refl m
  case reads =>
    intro conn _ found _
    obtain ⟨id, -, looked⟩ := Option.bind_eq_some_iff.mp found
    have known : conn ∈ m.prog.table.known := List.mem_of_find?_eq_some looked
    have differs : conn.sock ≠ l := fun same => apart (same ▸ List.mem_map_of_mem known)
    have ending : Within (Passes (T := T) l fd) (Passes l fd) (endOf conn) :=
      .bind course (releasing_passes.teardown (passes_close differs)) fun _ =>
        releasing_passes.countsEnds (· + 1)
    apply (passes_drain conn m).imp
    · intro outcome middle drained
      refine ⟨fun _ => drained, fun _ => (ending middle).imp ?_ ?_⟩
      · exact fun _ _ ended => course.trans drained ended
      · exact fun _ _ fell => course.trans drained fell
    · exact fun _ _ fell => fell

theorem dispatch_passes {m : Machine T (Relay T)} {awake : Prop} {entries : List (Int × Entry)}
    (others : ∀ e ∈ entries, e.2.sock ≠ l) (kept : Reserved l fd awake m) :
    Ends (dispatch entries) m (fun _ => Passes l fd m) fun _ => Passes l fd m := by
  induction entries generalizing m with
  | nil => exact passes_course.refl m
  | cons entry rest ih =>
    obtain ⟨other, others⟩ := List.forall_mem_cons.mp others
    rw [dispatch, List.forM_eq_forM, List.forM_cons]
    refine .follow passes_course ((serve_passes other kept.sock kept.apart).normally ?_)
    exact fun _ middle path => ⟨path, ih others (path.kept awake kept)⟩

theorem waitAndServe_passes {m : Machine T (Relay T)} (kept : Reserved l fd False m) :
    Ends waitAndServe m (fun _ => Passes l fd m) fun _ => Passes l fd m := by
  have told : Drifts m.host (m.host.emit (.begun .select none)) :=
    ⟨settled_emit _ _ rfl, adds_emit _ rfl⟩
  refine ends_waitAndServe (ends_awaited fun _ => (select_runs lively_drifts told _ _).imp ?_ ?_)
  · intro found m' reached
    obtain ⟨h, fds, path, rfl, rfl⟩ := reached
    have waited (timeout : T) (listed : List Int) (shown : Overview) :
        Passes l fd m ⟨h.emit (.ready timeout listed shown), m.prog⟩ :=
      passes_drifts (lively_drifts.trans path ⟨settled_emit h _ rfl, adds_emit h rfl⟩)
    have others (e : Int × Entry) (there : e ∈ Os.entriesOf h fds) : e.2.sock ≠ l := fun own =>
      ((kept.settled path.1).reported there own).2
    refine (dispatch_passes others ((waited _ _ _).kept False kept)).imp ?_ ?_
    · exact fun _ _ served => (waited _ _ _).trans served
    · exact fun _ _ served => (waited _ _ _).trans served
  · intro f m' reached
    obtain ⟨h, path, rfl⟩ := reached.cases
    have broken : Passes l fd m ⟨h, m.prog⟩ := passes_drifts path
    constructor
    case broken => exact fun _ => broken
    case counted => exact fun _ _ => broken.trans (passes_log .error _ _)
    case foreign => exact fun _ _ => broken

end Frames

end Relay
end StreamRelay
