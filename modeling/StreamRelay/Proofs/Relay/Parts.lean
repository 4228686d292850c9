import StreamRelay.Proofs.Relay.Attempts

namespace StreamRelay
variable {T : Type}

instance : Idle T (Relay T) := ⟨fun _ _ => rfl⟩

open Run

theorem Attends.control {P : Type} [Clock T] [Resumable T P] [Idle T P]
    {rel : Host T → Host T → Prop} (attends : Attends rel)
    (log : ∀ level text, Keeps (P := P) rel (Os.log level text)) (c : Control) (timeout : T) :
    Keeps (P := P) rel (c.poll timeout) := by
  have course := attends.toLively.course (P := P)
  have looked : Keeps (P := P) rel (c.look timeout) := by
    refine .bind course (.outcome (poll_keeps attends c.fd timeout)) fun result => ?_
    split
    · split
      · exact .pure course
      · exact .fails course
    · exact .pure course
    · refine .bind course (.outcome (read_keeps attends c.fd _)) fun result => ?_
      split
      · exact .pure course
      · split
        · exact .pure course
        · split
          · exact .pure course
          · exact .fails course
  unfold Control.poll
  split
  · exact .pure course
  · refine .bind course looked fun arrival => ?_
    refine .bind course (.forM course ?_) fun _ => .pure course
    exact fun record _ => log record.1 record.2

theorem Steady.control {P : Type} [Clock T] [Resumable T P] [Idle T P]
    {rel : Host T → Host T → Prop} (steady : Steady rel) (c : Control) (timeout : T) :
    Keeps (P := P) rel (c.poll timeout) := steady.attends.control steady.log c timeout

namespace Relay
variable [Clock T]

-- An edit of a relay's state that leaves its sink, its listening socket and who is known.
structure Edited (r r' : Relay T) : Prop where
  closed : r'.closed = r.closed
  config : r'.config = r.config
  sink : r'.sink = r.sink
  listener : r'.listener.sock = r.listener.sock
  known : r'.table.known.map (fun c => (c.sock, c.fd)) = r.table.known.map fun c => (c.sock, c.fd)

omit [Clock T] in
theorem edited_alter {r : Relay T} {sock : SocketId} {f : Connection → Connection}
    (kept : ∀ c, (f c).sock = c.sock ∧ (f c).fd = c.fd) :
    Edited r (setTable (·.alter sock f) r) := by
  refine ⟨rfl, rfl, rfl, rfl, ?_⟩
  simp only [setTable, Table.alter, List.map_map]
  refine List.map_congr_left fun c _ => ?_
  simp only [Function.comp_apply]
  split
  · rw [(kept c).1, (kept c).2]
  · rfl

-- Of those, an edit that also leaves all counters but that of ends, and the listener's rest, and
-- brings back nobody who is gone.
structure Tended (r r' : Relay T) : Prop extends Edited r r' where
  accepted : r'.stats.counters.accepted = r.stats.counters.accepted
  sent : r'.stats.counters.datagrams = r.stats.counters.datagrams
  bytes : r'.stats.counters.bytes = r.stats.counters.bytes
  unsent : r'.stats.counters.forwardFailures = r.stats.counters.forwardFailures
  unread : r'.stats.counters.readErrors = r.stats.counters.readErrors
  gone : ∀ c ∈ r.table.known, c.closed = true →
    ∃ c' ∈ r'.table.known, c'.sock = c.sock ∧ c'.closed = true
  rest : r'.listener.resumeAt = r.listener.resumeAt
  hung : r.listener.closed = true → r'.listener.closed = true

omit [Clock T] in
theorem tended_aside {r r' : Relay T} (edited : Edited r r') (table : r'.table = r.table)
    (counters : ∃ ended, r'.stats.counters = { r.stats.counters with closed := ended })
    (rest : r'.listener.resumeAt = r.listener.resumeAt)
    (hung : r.listener.closed = true → r'.listener.closed = true) : Tended r r' := by
  obtain ⟨ended, same⟩ := counters
  refine ⟨edited, ?_, ?_, ?_, ?_, ?_, fun c known closed => ⟨c, table ▸ known, rfl, closed⟩, rest,
    hung⟩
  all_goals rw [same]

omit [Clock T] in
theorem tended_alter {r : Relay T} {sock : SocketId} {f : Connection → Connection}
    (kept : ∀ c, (f c).sock = c.sock ∧ (f c).fd = c.fd)
    (closed : ∀ c, c.closed = true → (f c).closed = true) :
    Tended r (setTable (·.alter sock f) r) := by
  refine ⟨edited_alter kept, rfl, rfl, rfl, rfl, rfl, fun c known gone => ?_, rfl, fun hung => hung⟩
  refine ⟨if c.sock = sock then f c else c, List.mem_map_of_mem known, ?_⟩
  split
  · exact ⟨(kept c).1, closed c gone⟩
  · exact ⟨rfl, gone⟩

theorem unwatchListener_within {done failed : Machine T (Relay T) → Machine T (Relay T) → Prop}
    (course : Course done failed) (unregister : ∀ id, Within done done (Os.unregister id)) :
    Within done failed unwatchListener := by
  refine .bind course (.gets course) fun sock => ?_
  refine .bind course (.outcome (unregister sock)) fun result => ?_
  cases result with
  | ok => exact .pure course
  | error f =>
    simp only
    split
    · exact .pure course
    · exact .fails course

structure Releasing (done failed : Machine T (Relay T) → Machine T (Relay T) → Prop) : Prop
    extends Course done failed where
  log : ∀ level text, Within done failed (Os.log level text)
  unregister : ∀ id, Within done done (Os.unregister id)
  tend : ∀ h r r', Tended r r' → done ⟨h, r⟩ ⟨h, r'⟩

namespace Releasing
variable {done failed : Machine T (Relay T) → Machine T (Relay T) → Prop}

theorem sets (releasing : Releasing done failed) {f : Relay T → Relay T}
    (tend : ∀ r, Tended r (f r)) : Within done failed (Run.sets f) :=
  fun m => releasing.tend m.host m.prog _ (tend m.prog)

theorem countsEnds (releasing : Releasing done failed) (f : Int → Int) :
    Within done failed (Run.sets (count fun c => { c with closed := f c.closed })) :=
  releasing.sets fun _ => tended_aside ⟨rfl, rfl, rfl, rfl, rfl⟩ rfl ⟨_, rfl⟩ rfl fun hung => hung

theorem unwatch (releasing : Releasing done failed) (conn : Connection) :
    Within done failed (Relay.unwatch conn) := by
  refine .bind releasing.toCourse (.outcome (releasing.unregister conn.sock)) fun result => ?_
  cases result with
  | ok => exact .pure releasing.toCourse
  | error f =>
    simp only
    split
    · exact releasing.log _ _
    · exact .fails releasing.toCourse

theorem release (releasing : Releasing done failed) (conn : Connection) :
    Within done failed (Relay.release conn) :=
  .bind releasing.toCourse (releasing.unwatch conn) fun _ => releasing.sets fun _ =>
    tended_alter (fun _ => ⟨rfl, rfl⟩) fun _ gone => gone

theorem teardown (releasing : Releasing done failed) {sock : SocketId}
    (close : Within done failed (Os.close sock)) : Within done failed (Relay.teardown sock) := by
  have course := releasing.toCourse
  refine .bind course (.gets course) fun found => ?_
  cases found with
  | none => exact .pure course
  | some conn =>
    simp only
    split
    · exact .pure course
    · refine .bind course (.onlyIf course (releasing.release conn)) fun _ => ?_
      refine .bind course (releasing.sets fun _ => ?_) fun _ => ?_
      · exact ⟨⟨rfl, rfl, rfl, rfl, rfl⟩, rfl, rfl, rfl, rfl, rfl,
          fun c known gone => ⟨c, known, rfl, gone⟩, rfl, fun hung => hung⟩
      · refine .bind course close fun _ => ?_
        exact releasing.sets fun _ => tended_alter (fun _ => ⟨rfl, rfl⟩) fun _ _ => rfl

end Releasing

structure Closing (done failed : Machine T (Relay T) → Machine T (Relay T) → Prop) : Prop
    extends Releasing done failed where
  stop : Within done failed (Os.stop .service)
  close : ∀ id, Within done failed (Os.close id)
  closeSelector : Within done failed Os.closeSelector

namespace Closing
variable {done failed : Machine T (Relay T) → Machine T (Relay T) → Prop}

theorem teardown (closing : Closing done failed) (sock : SocketId) :
    Within done failed (Relay.teardown sock) := closing.toReleasing.teardown (closing.close sock)

theorem closeAll (closing : Closing done failed) : Within done failed Relay.closeAll := by
  refine .bind closing.toCourse (.gets closing.toCourse) fun live => ?_
  refine .bind closing.toCourse (.forM closing.toCourse fun conn _ => closing.teardown conn.sock) ?_
  exact fun _ => .pure closing.toCourse

theorem closeListener (closing : Closing done failed) :
    Within done failed Relay.closeListener := by
  refine .bind closing.toCourse (.gets closing.toCourse) fun listener => ?_
  split
  · exact .pure closing.toCourse
  · refine .bind closing.toCourse
      (unwatchListener_within closing.toCourse closing.unregister) fun _ => ?_
    refine .bind closing.toCourse (closing.close _) fun _ => ?_
    exact closing.sets fun _ => tended_aside ⟨rfl, rfl, rfl, rfl, rfl⟩ rfl ⟨_, rfl⟩ rfl fun _ => rfl

theorem finish (closing : Closing done failed)
    (mark : ∀ h (r : Relay T), done ⟨h, r⟩ ⟨h, { r with closed := true }⟩) :
    Within done failed Relay.close := by
  refine .bind closing.toCourse (.gets closing.toCourse) fun closed => ?_
  split
  · exact .pure closing.toCourse
  · refine .bind closing.toCourse (fun m => mark m.host m.prog) fun _ => ?_
    refine .bind closing.toCourse closing.stop fun _ => ?_
    refine .bind closing.toCourse closing.closeListener fun _ => ?_
    refine .bind closing.toCourse closing.closeAll fun _ => ?_
    refine .bind closing.toCourse (closing.countsEnds (· + _)) fun _ => ?_
    refine .bind closing.toCourse (.gets closing.toCourse) fun sink => ?_
    refine .bind closing.toCourse (closing.close sink.sock) fun _ => ?_
    refine .bind closing.toCourse closing.closeSelector fun _ => ?_
    refine .bind closing.toCourse (.asks closing.toCourse) fun _ => ?_
    refine .bind closing.toCourse (closing.sets fun _ => ?_) fun _ => ?_
    · exact tended_aside ⟨rfl, rfl, rfl, rfl, rfl⟩ rfl ⟨_, rfl⟩ rfl fun hung => hung
    · refine .bind closing.toCourse ?_ fun _ => closing.log _ _
      exact .bind closing.toCourse (.asks closing.toCourse) fun _ => .gets closing.toCourse

end Closing

structure Resting (done failed : Machine T (Relay T) → Machine T (Relay T) → Prop) : Prop
    extends Course done failed where
  log : ∀ level text, Within done failed (Os.log level text)
  rests : ∀ time, Within done failed (emits (.rests time))
  register : ∀ id conn, Within done done (Os.register id conn)
  unregister : ∀ id, Within done done (Os.unregister id)
  rest : ∀ h r resumeAt, done ⟨h, r⟩ ⟨h, setListener (fun l => { l with resumeAt }) r⟩

namespace Resting
variable {done failed : Machine T (Relay T) → Machine T (Relay T) → Prop}

theorem pause (resting : Resting done failed) (delay : T) :
    Within done failed (Relay.pause delay) := by
  refine .bind resting.toCourse (.gets resting.toCourse) fun listener => ?_
  split
  · exact .pure resting.toCourse
  · refine .bind resting.toCourse
      (unwatchListener_within resting.toCourse resting.unregister) fun _ => ?_
    refine .bind resting.toCourse (.asks resting.toCourse) fun _ => ?_
    refine .bind resting.toCourse (fun m => resting.rest m.host m.prog _) fun _ => ?_
    exact .bind resting.toCourse (resting.rests _) fun _ => resting.log _ _

theorem maybeResume (resting : Resting done failed) : Within done failed Relay.maybeResume := by
  refine .bind resting.toCourse (.gets resting.toCourse) fun listener => ?_
  refine .bind resting.toCourse (.asks resting.toCourse) fun now => ?_
  split
  · exact .pure resting.toCourse
  · split
    · exact .pure resting.toCourse
    · refine .bind resting.toCourse (fun m => resting.rest m.host m.prog none) fun _ => ?_
      refine .bind resting.toCourse (.outcome (resting.register _ _)) fun result => ?_
      cases result with
      | ok => exact .pure resting.toCourse
      | error f =>
        simp only
        split
        · exact .bind resting.toCourse (resting.log _ _) fun _ => resting.pause _
        · exact .fails resting.toCourse

end Resting

-- All that a relay does.
structure Pieces (done failed : Machine T (Relay T) → Machine T (Relay T) → Prop) : Prop
    extends Closing done failed where
  rests : ∀ time, Within done failed (emits (.rests time))
  rest : ∀ h r resumeAt, done ⟨h, r⟩ ⟨h, setListener (fun l => { l with resumeAt }) r⟩
  admits : ∀ h r, done ⟨h, r⟩ ⟨h, count (fun c => { c with accepted := c.accepted + 1 }) r⟩
  register : ∀ id conn, Within done done (Os.register id conn)
  accept : ∀ id, Within done done (Os.accept id)
  select : ∀ timeout overview, Within done done (Os.select timeout overview)
  poll : ∀ (control : Control) timeout, Within done failed (control.poll timeout)
  enroll : ∀ sock peer, Within done failed (enroll sock peer)
  drain : ∀ conn m, conn ∈ m.prog.table.known →
    Ends (drain conn) m (fun _ => done m) fun _ => failed m

namespace Pieces
variable {done failed : Machine T (Relay T) → Machine T (Relay T) → Prop}

theorem resting (pieces : Pieces done failed) : Resting done failed where
  toCourse := pieces.toCourse
  log := pieces.log
  rests := pieces.rests
  register := pieces.register
  unregister := pieces.unregister
  rest := pieces.rest

theorem pause (pieces : Pieces done failed) (delay : T) :
    Within done failed (Relay.pause delay) := pieces.resting.pause delay

theorem maybeResume (pieces : Pieces done failed) : Within done failed Relay.maybeResume :=
  pieces.resting.maybeResume

end Pieces

theorem enroll_within {done failed : Machine T (Relay T) → Machine T (Relay T) → Prop}
    (course : Course done failed) {sock : SocketId}
    (log : ∀ level text, Within done failed (Os.log level text))
    (setBlocking : Within done done (Os.setBlocking sock false))
    (register : Within done done (Os.register sock (some sock)))
    (close : Within done failed (Os.close sock))
    (insert : ∀ h r (c : Connection), c.sock = sock → done ⟨h, r⟩ ⟨h, setTable (·.insert c) r⟩)
    (peer : Peer) : Within done failed (enroll sock peer) := by
  have refused {m m' : Machine T (Relay T)} (path : done m m') (text : String) :
      done m ⟨(m'.host.logged .error text).shut sock, m'.prog⟩ :=
    course.trans (course.trans path (log .error text m')) (close _)
  intro m
  apply ends_enroll
  apply (setBlocking m).imp
  · intro _ ready path
    apply (register ready).imp
    · rintro _ m' later conn rfl
      exact course.trans (course.trans path later) (insert m'.host m'.prog _ rfl)
    · intro f m' later
      have path := course.trans path later
      exact ⟨fun _ => refused path, fun _ => course.weaken path⟩
  · exact fun f m' path => ⟨fun _ => refused path, fun _ => course.weaken path⟩

theorem acceptOnce_within {done failed : Machine T (Relay T) → Machine T (Relay T) → Prop}
    (course : Course done failed) (log : ∀ level text, Within done failed (Os.log level text))
    (accept : ∀ m, Ends (Os.accept m.prog.listener.sock) m (fun _ => done m) fun _ => done m)
    (pause : ∀ delay, Within done failed (pause delay))
    (enroll : ∀ sock peer, Within done failed (enroll sock peer))
    (admits : ∀ h r, done ⟨h, r⟩ ⟨h, count (fun c => { c with accepted := c.accepted + 1 }) r⟩) :
    Within done failed acceptOnce := by
  intro m
  apply ends_acceptOnce
  apply (accept m).imp
  · intro found m' path
    apply (enroll found.1 ⟨found.2, []⟩ m').imp
    · intro admitted m'' later
      have arrived := course.trans path later
      constructor
      case dismissed => exact fun _ => arrived
      case enrolled =>
        intro conn _
        have counted := course.trans arrived (admits m''.host m''.prog)
        exact course.trans counted (log .info _ _)
    · exact fun _ _ fell => course.fall path fell
  · intro f m' path
    have noted := course.trans path (log .error ("accept failed: " ++ f.message) m')
    constructor
    case blocked => exact fun _ => path
    case broken => exact fun _ _ => path
    case skipped => exact fun _ _ _ _ => noted
    case rests =>
      intro _ _ _ _
      apply (pause retryDelay _).imp
      · exact fun _ _ rested => course.trans noted rested
      · exact fun _ _ fell => course.fall noted fell
    case foreign => exact fun _ _ _ => course.weaken path

theorem serve_within {done failed : Machine T (Relay T) → Machine T (Relay T) → Prop}
    (closing : Closing done failed) (acceptAll : Within done failed acceptAll)
    (drain : ∀ conn m, conn ∈ m.prog.table.known →
      Ends (drain conn) m (fun _ => done m) fun _ => failed m) (entry : Entry) :
    Within done failed (serve entry) := by
  have course := closing.toCourse
  intro m
  apply ends_serve
  case accepts => exact fun _ => acceptAll m
  case passes => exact fun _ _ => closing.refl m
  case reads =>
    intro conn _ found _
    obtain ⟨id, -, looked⟩ := Option.bind_eq_some_iff.mp found
    apply (drain conn m (List.mem_of_find?_eq_some looked)).imp
    · intro outcome middle drained
      refine ⟨fun _ => drained, fun _ => ?_⟩
      have ending : Within done failed (endOf conn) :=
        .bind course (closing.teardown conn.sock) fun _ => closing.countsEnds (· + 1)
      apply (ending middle).imp
      · exact fun _ _ ended => course.trans drained ended
      · exact fun _ _ fell => course.fall drained fell
    · exact fun _ _ fell => fell

theorem acceptFor_within {done failed : Machine T (Relay T) → Machine T (Relay T) → Prop}
    (course : Course done failed) (once : Within done failed acceptOnce) (fuel admitted : Nat) :
    Within done failed (acceptFor fuel admitted) :=
  acceptFor_composed (Within.composes course) once fuel admitted

theorem acceptAll_within {done failed : Machine T (Relay T) → Machine T (Relay T) → Prop}
    (course : Course done failed) (once : Within done failed acceptOnce) :
    Within done failed acceptAll :=
  .bind course (.asks course) fun _ => acceptFor_within course once _ 0

namespace Pieces
variable {done failed : Machine T (Relay T) → Machine T (Relay T) → Prop}

theorem acceptOnce (pieces : Pieces done failed) : Within done failed Relay.acceptOnce :=
  acceptOnce_within pieces.toCourse pieces.log (fun m => pieces.accept _ m) pieces.pause pieces.enroll
    pieces.admits

theorem acceptAll (pieces : Pieces done failed) : Within done failed Relay.acceptAll :=
  acceptAll_within pieces.toCourse pieces.acceptOnce

theorem serve (pieces : Pieces done failed) (entry : Entry) :
    Within done failed (Relay.serve entry) :=
  serve_within pieces.toClosing pieces.acceptAll pieces.drain entry

end Pieces

structure Parts (done failed : Machine T (Relay T) → Machine T (Relay T) → Prop) : Prop
    extends Course done failed where
  log : ∀ level text, Within done failed (Os.log level text)
  rests : ∀ time, Within done failed (emits (.rests time))
  stop : Within done failed (Os.stop .service)
  close : ∀ id, Within done failed (Os.close id)
  closeSelector : Within done failed Os.closeSelector
  register : ∀ id conn, Within done done (Os.register id conn)
  unregister : ∀ id, Within done done (Os.unregister id)
  accept : ∀ id, Within done done (Os.accept id)
  select : ∀ timeout overview, Within done done (Os.select timeout overview)
  poll : ∀ (control : Control) timeout, Within done failed (control.poll timeout)
  enroll : ∀ sock peer, Within done failed (enroll sock peer)
  drain : ∀ conn m, conn ∈ m.prog.table.known →
    Ends (drain conn) m (fun _ => done m) fun _ => failed m
  edit : ∀ h r r', Edited r r' → done ⟨h, r⟩ ⟨h, r'⟩

namespace Parts
variable {done failed : Machine T (Relay T) → Machine T (Relay T) → Prop}

theorem pieces (parts : Parts done failed) : Pieces done failed where
  toCourse := parts.toCourse
  log := parts.log
  stop := parts.stop
  close := parts.close
  closeSelector := parts.closeSelector
  unregister := parts.unregister
  tend h r r' tended := parts.edit h r r' tended.toEdited
  rests := parts.rests
  rest h r _ := parts.edit h r _ ⟨rfl, rfl, rfl, rfl, rfl⟩
  admits h r := parts.edit h r _ ⟨rfl, rfl, rfl, rfl, rfl⟩
  register := parts.register
  accept := parts.accept
  select := parts.select
  poll := parts.poll
  enroll := parts.enroll
  drain := parts.drain

theorem teardown (parts : Parts done failed) (sock : SocketId) :
    Within done failed (Relay.teardown sock) := parts.pieces.teardown sock

theorem closeAll (parts : Parts done failed) : Within done failed Relay.closeAll :=
  parts.pieces.closeAll

theorem pause (parts : Parts done failed) (delay : T) :
    Within done failed (Relay.pause delay) := parts.pieces.pause delay

theorem maybeResume (parts : Parts done failed) : Within done failed Relay.maybeResume :=
  parts.pieces.maybeResume

theorem acceptOnce (parts : Parts done failed) : Within done failed Relay.acceptOnce :=
  parts.pieces.acceptOnce

theorem acceptAll (parts : Parts done failed) : Within done failed Relay.acceptAll :=
  parts.pieces.acceptAll

theorem serve (parts : Parts done failed) (entry : Entry) :
    Within done failed (Relay.serve entry) := parts.pieces.serve entry

theorem closeListener (parts : Parts done failed) : Within done failed Relay.closeListener :=
  parts.pieces.closeListener

theorem finish (parts : Parts done failed)
    (mark : ∀ h (r : Relay T), done ⟨h, r⟩ ⟨h, { r with closed := true }⟩) :
    Within done failed Relay.close := parts.pieces.finish mark

end Parts

-- The loop is made of less: a wait, and serving what is ready after it, is taken as a whole.
structure Cycle (done failed : Machine T (Relay T) → Machine T (Relay T) → Prop) : Prop
    extends Course done failed where
  log : ∀ level text, Within done failed (Os.log level text)
  stop : Within done failed (Os.stop .service)
  poll : ∀ (control : Control) timeout, Within done failed (control.poll timeout)
  control : ∀ h r (c : Control), done ⟨h, r⟩ ⟨h, { r with control := some c }⟩
  maybeResume : Within done failed maybeResume
  waitAndServe : Within done failed waitAndServe

namespace Cycle
variable {done failed : Machine T (Relay T) → Machine T (Relay T) → Prop}

theorem consoleAsksEnd (cycle : Cycle done failed) : Within done failed Relay.consoleAsksEnd := by
  refine .bind cycle.toCourse (.gets cycle.toCourse) fun control => ?_
  cases control with
  | none => exact .pure cycle.toCourse
  | some control =>
    refine .bind cycle.toCourse (cycle.poll control _) fun _ => ?_
    exact .bind cycle.toCourse (fun m => cycle.control m.host m.prog _) fun _ =>
      .pure cycle.toCourse

theorem turn (cycle : Cycle done failed) : Within done failed Relay.turn := by
  refine .bind cycle.toCourse cycle.consoleAsksEnd fun asked => ?_
  split
  · refine .bind cycle.toCourse (cycle.log _ _) fun _ => ?_
    exact .bind cycle.toCourse cycle.stop fun _ => .pure cycle.toCourse
  · refine .bind cycle.toCourse cycle.maybeResume fun _ => ?_
    exact .bind cycle.toCourse cycle.waitAndServe fun _ => .pure cycle.toCourse

theorem turns (cycle : Cycle done failed) (fuel : Nat) : Within done failed (Relay.turns fuel) := by
  induction fuel with
  | zero => exact .pure cycle.toCourse
  | succ fuel ih =>
    refine .bind cycle.toCourse (.asks cycle.toCourse) fun told => ?_
    split
    · exact .pure cycle.toCourse
    · refine .bind cycle.toCourse cycle.turn fun goesOn => ?_
      split
      · exact ih
      · exact .pure cycle.toCourse

theorem announce (cycle : Cycle done failed) : Within done failed Relay.announce := by
  refine .bind cycle.toCourse (.gets cycle.toCourse) fun relay => ?_
  cases relay.sink.dest.logged? with
  | none => exact .pure cycle.toCourse
  | some dest => exact cycle.log _ _

theorem run (cycle : Cycle done failed) (close : Within done failed Relay.close) :
    Within done failed Relay.run := by
  refine .bind cycle.toCourse cycle.announce fun _ => .ensuring cycle.toCourse ?_ close
  exact .bind cycle.toCourse (.asks cycle.toCourse) fun work => cycle.turns _

end Cycle

inductive Boundary (m : Machine T (Relay T)) : Machine T (Relay T) → Prop where
  | first : Relay.announce m = .ok () b → Boundary m b
  | next : Boundary m b → b.host.serviceStop = false → Relay.turn b = .ok true b' → Boundary m b'

theorem Cycle.boundary {done failed : Machine T (Relay T) → Machine T (Relay T) → Prop}
    (cycle : Cycle done failed) {m b : Machine T (Relay T)} (boundary : Boundary m b) :
    done m b := by
  induction boundary with
  | first announced => exact (cycle.announce m).of_ok announced
  | next _ _ turned ih => exact cycle.trans ih ((cycle.turn _).of_ok turned)

structure Rounds (done failed : Machine T (Relay T) → Machine T (Relay T) → Prop) : Prop
    extends Course done failed where
  log : ∀ level text, Within done failed (Os.log level text)
  stop : Within done failed (Os.stop .service)
  select : ∀ timeout overview, Within done done (Os.select timeout overview)
  poll : ∀ (control : Control) timeout, Within done failed (control.poll timeout)
  control : ∀ h r (c : Control), done ⟨h, r⟩ ⟨h, { r with control := some c }⟩
  maybeResume : Within done failed maybeResume
  serve : ∀ entry, Within done failed (serve entry)

theorem Pieces.rounds {done failed : Machine T (Relay T) → Machine T (Relay T) → Prop}
    (pieces : Pieces done failed) : Rounds done failed where
  toCourse := pieces.toCourse
  log := pieces.log
  stop := pieces.stop
  select := pieces.select
  poll := pieces.poll
  control h r _ := pieces.tend h r _
    (tended_aside ⟨rfl, rfl, rfl, rfl, rfl⟩ rfl ⟨_, rfl⟩ rfl fun hung => hung)
  maybeResume := pieces.maybeResume
  serve := pieces.serve

theorem Parts.rounds {done failed : Machine T (Relay T) → Machine T (Relay T) → Prop}
    (parts : Parts done failed) : Rounds done failed := parts.pieces.rounds

namespace Rounds
variable {done failed : Machine T (Relay T) → Machine T (Relay T) → Prop}

theorem dispatch (rounds : Rounds done failed) (entries : List (Int × Entry)) :
    Within done failed (Relay.dispatch entries) :=
  .forM rounds.toCourse fun entry _ => rounds.serve entry.2

theorem awaited (rounds : Rounds done failed) (timeout : T) :
    Within done done (do Os.select timeout (← Relay.overview)) := by
  have course : Course done done := ⟨rounds.refl, rounds.trans, fun path => path, rounds.trans⟩
  refine .bind course ?_ fun overview => rounds.select timeout overview
  exact .bind course (.asks course) fun _ => .bind course (.gets course) fun _ => .pure course

theorem waitAndServe (rounds : Rounds done failed) : Within done failed Relay.waitAndServe := by
  have course := rounds.toCourse
  intro m
  refine ends_waitAndServe ((rounds.awaited m.prog.pollTimeout m).imp ?_ ?_)
  · intro entries m' waited
    apply (rounds.dispatch entries m').imp
    · exact fun _ _ => course.trans waited
    · exact fun _ _ => course.fall waited
  · intro f m' waited
    constructor
    case broken => exact fun _ => waited
    case counted => exact fun _ _ => course.weaken (course.trans waited (rounds.log _ _ m'))
    case foreign => exact fun _ _ => course.weaken waited

theorem cycle (rounds : Rounds done failed) : Cycle done failed where
  toCourse := rounds.toCourse
  log := rounds.log
  stop := rounds.stop
  poll := rounds.poll
  control := rounds.control
  maybeResume := rounds.maybeResume
  waitAndServe := rounds.waitAndServe

theorem consoleAsksEnd (rounds : Rounds done failed) : Within done failed Relay.consoleAsksEnd :=
  rounds.cycle.consoleAsksEnd

theorem turn (rounds : Rounds done failed) : Within done failed Relay.turn := rounds.cycle.turn

theorem turns (rounds : Rounds done failed) (fuel : Nat) : Within done failed (Relay.turns fuel) :=
  rounds.cycle.turns fuel

theorem announce (rounds : Rounds done failed) : Within done failed Relay.announce :=
  rounds.cycle.announce

theorem run (rounds : Rounds done failed) (close : Within done failed Relay.close) :
    Within done failed Relay.run := rounds.cycle.run close

end Rounds

theorem Parts.run {done failed : Machine T (Relay T) → Machine T (Relay T) → Prop}
    (parts : Parts done failed)
    (mark : ∀ h (r : Relay T), done ⟨h, r⟩ ⟨h, { r with closed := true }⟩) :
    Within done failed Relay.run := parts.rounds.run (parts.finish mark)

end Relay
end StreamRelay
