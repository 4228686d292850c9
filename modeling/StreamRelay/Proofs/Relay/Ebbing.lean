import StreamRelay.Proofs.Relay.Shutdown

namespace StreamRelay
variable {T : Type}

namespace Event

def selects : Event T → Bool
  | .begun .select _ => true
  | _ => false

def reports : Event T → Bool
  | .ready .. => true
  | _ => false

def serves : Event T → Bool
  | .begun .accept _ | .begun .receive _ | .begun .sendTo _ => true
  | .accept .. | .received .. | .offered .. | .datagram .. => true
  | _ => false

def stops : Event T → Bool
  | .told .service => true
  | _ => false

def mute (e : Event T) : Bool := !e.stops

def apart (e : Event T) : Bool := !e.selects && !e.reports

def quiet (e : Event T) : Bool := e.apart && !e.serves

theorem apart_of_quiet {e : Event T} (quiet : e.quiet = true) : e.apart = true :=
  (Bool.and_eq_true_iff.mp quiet).1

end Event

namespace Host

-- What is new to an observer is of one kind; and the service was told to stop, if that is among it.
structure Minds (kind : Event T → Bool) (h h' : Host T) : Prop where
  stays : h.serviceStop = true → h'.serviceStop = true
  trace : ∃ new, h'.trace = new ++ h.trace ∧ (∀ s ∈ new, kind s.event = true) ∧
    ((∃ s ∈ new, s.event.stops = true) → h'.serviceStop = true)

section Minds
variable {kind : Event T → Bool} {h h' : Host T}

theorem minds_same (trace : h'.trace = h.trace) (told : h'.serviceStop = h.serviceStop) :
    Minds kind h h' :=
  ⟨fun before => told.trans before, [], trace, fun _ there => absurd there List.not_mem_nil,
    fun ⟨_, there, _⟩ => absurd there List.not_mem_nil⟩

theorem Minds.trans {a b c : Host T} (one : Minds kind a b) (two : Minds kind b c) :
    Minds kind a c := by
  obtain ⟨first, grown, all, heard⟩ := one.trace
  obtain ⟨second, grown', all', heard'⟩ := two.trace
  refine ⟨fun told => two.stays (one.stays told), second ++ first,
    by rw [grown', grown, List.append_assoc], fun s there => ?_, fun ⟨s, there, told⟩ => ?_⟩
  · cases List.mem_append.mp there with
    | inl later => exact all' s later
    | inr earlier => exact all s earlier
  · cases List.mem_append.mp there with
    | inl later => exact heard' ⟨s, later, told⟩
    | inr earlier => exact two.stays (heard ⟨s, earlier, told⟩)

theorem Minds.mono {wider : Event T → Bool} (minds : Minds kind h h')
    (widen : ∀ e, kind e = true → wider e = true) : Minds wider h h' := by
  obtain ⟨new, trace, all, heard⟩ := minds.trace
  exact ⟨minds.stays, new, trace, fun s there => widen _ (all s there), heard⟩

theorem Minds.shows (minds : Minds kind h h') : Shows kind h h' := by
  obtain ⟨new, trace, all, -⟩ := minds.trace
  exact ⟨new, trace, all⟩

theorem minds_emit (h : Host T) {e : Event T} (shown : kind e = true) (mute : e.stops = false) :
    Minds kind h (h.emit e) := by
  refine ⟨fun told => told, [⟨h.clock, e⟩], rfl, fun s there => ?_, fun ⟨s, there, told⟩ => ?_⟩
  · rw [List.mem_singleton.mp there]
    exact shown
  · rw [List.mem_singleton.mp there, mute] at told
    exact absurd told Bool.false_ne_true

theorem minds_raise (told : ∀ flag, kind (.told flag) = true) (h : Host T) (flag : Flag) :
    Minds kind h (h.raise flag) := by
  cases flag with
  | command => exact (minds_emit h (told .command) rfl).trans (minds_same rfl rfl)
  | service =>
    refine ⟨fun _ => rfl, [⟨h.clock, .told .service⟩], rfl, fun s there => ?_, fun _ => rfl⟩
    rw [List.mem_singleton.mp there]
    exact told .service

end Minds
end Host

open Run Host

section Calls
variable [Clock T] {P : Type} [Resumable T P] [Idle T P] {kind : Event T → Bool}

omit [Resumable T P] [Idle T P] in
theorem mild_minds (told : ∀ flag, kind (.told flag) = true) : Mild (Minds kind) where
  refl _ := minds_same rfl rfl
  trans := .trans
  faults _ _ := minds_same rfl rfl
  batches _ _ := minds_same rfl rfl
  apply := apply_of (fun _ => minds_same rfl rfl) .trans
    (fun ⟨_, _, _, _, _, _, _, _⟩ => minds_same rfl rfl) (minds_raise told)

variable (wide : ∀ e : Event T, e.quiet = true → kind e = true)
include wide

omit [Resumable T P] [Idle T P] in
theorem lively_minds : Lively (Minds kind) :=
  (mild_minds fun _ => wide _ rfl).lively fun _ _ => minds_same rfl rfl

omit [Clock T] in
theorem minds_logged (h : Host T) (level : Level) (text : String) :
    Minds kind h (h.logged level text) :=
  logged_of (minds_same rfl rfl) (minds_emit h (wide _ rfl) rfl) fun _ => minds_same rfl rfl

omit [Clock T] [Resumable T P] [Idle T P] in
theorem minds_log (level : Level) (text : String) : Keeps (P := P) (Minds kind) (Os.log level text) :=
  changes_keeps fun h => minds_logged wide h level text

omit [Clock T] [Resumable T P] [Idle T P] in
theorem minds_close (id : SocketId) : Keeps (P := P) (Minds kind) (Os.close id) := by
  refine changes_keeps fun h => ?_
  split
  · have shut : Minds kind h (h.alter id fun s => { s with isOpen := false }) := minds_same rfl rfl
    exact shut.trans (minds_emit _ (wide _ rfl) rfl)
  · exact minds_same rfl rfl

theorem minds_register (id : SocketId) (conn : Option SocketId) :
    Keeps (P := P) (Minds kind) (Os.register id conn) := by
  intro m
  have told : Minds kind m.host (m.host.emit (.register (m.host.fileno id))) :=
    minds_emit _ (wide _ rfl) rfl
  apply (register_runs (lively_minds wide) conn).imp
  · intro _ m' reached
    obtain ⟨h, path, -, -, rfl⟩ := reached
    exact ⟨(told.trans path).trans (minds_same rfl rfl), rfl⟩
  · intro f m' reached
    obtain ⟨h, path, rfl⟩ := reached
    exact ⟨(told.trans path).trans (minds_same rfl rfl), rfl⟩

theorem minds_unregister (id : SocketId) :
    Keeps (P := P) (Minds kind) (Os.unregister id) := by
  intro m
  apply (unregister_runs (lively_minds wide) (minds_emit m.host (wide _ rfl) rfl)).imp
  · intro _ m' reached
    obtain ⟨h, path, ⟨-, rfl⟩ | ⟨-, rfl⟩⟩ := reached
    all_goals exact ⟨path.trans (minds_same rfl rfl), rfl⟩
  · intro f m' reached
    obtain ⟨h, path, rfl⟩ := reached
    exact ⟨path.trans (minds_same rfl rfl), rfl⟩

theorem minds_setBlocking (id : SocketId) :
    Keeps (P := P) (Minds kind) (Os.setBlocking id false) := by
  intro m
  apply (setBlocking_runs (lively_minds wide) false (minds_emit m.host (wide _ rfl) rfl)).imp
  · intro _ m' reached
    obtain ⟨h, s, path, -, -, rfl⟩ := reached
    exact ⟨path.trans (minds_same rfl rfl), rfl⟩
  · intro f m' reached
    obtain ⟨h, path, rfl⟩ := reached
    exact ⟨path.trans (minds_same rfl rfl), rfl⟩

omit [Resumable T P] [Idle T P] in
theorem attends_minds : Attends (Minds kind) where
  toLively := lively_minds wide
  polled h _ _ _ := minds_emit h (wide _ rfl) rfl
  heard h _ _ _ := minds_emit h (wide _ rfl) rfl
  console _ _ := minds_same rfl rfl

end Calls

namespace Relay
variable [Clock T] {kind : Event T → Bool}

def Minded (kind : Event T → Bool) (m m' : Machine T (Relay T)) : Prop :=
  Minds kind m.host m'.host

omit [Clock T] in
theorem minded_course : Course (Minded (T := T) kind) (Minded kind) where
  refl _ := minds_same rfl rfl
  trans := .trans
  weaken path := path
  falls := .trans

omit [Clock T] in
theorem minded {act : Run T (Relay T) α} (keeps : Keeps (Minds kind) act) :
    Within (Minded kind) (Minded kind) act := keeps.mono And.left And.left

section Parts
variable (wide : ∀ e : Event T, e.quiet = true → kind e = true)
include wide

theorem minded_closing : Closing (Minded kind) (Minded kind) where
  toCourse := minded_course
  log level text := minded (minds_log wide level text)
  stop := minded (changes_keeps fun h => minds_raise (fun _ => wide _ rfl) h .service)
  close id := minded (minds_close wide id)
  closeSelector := fun m =>
    .trans (b := m.host.emit .selectorClosed) (minds_emit m.host (wide _ rfl) rfl)
      (minds_same rfl rfl)
  unregister id := minded (minds_unregister wide id)
  tend _ _ _ _ := minds_same rfl rfl

theorem minded_resting : Resting (Minded kind) (Minded kind) where
  toCourse := minded_course
  log := (minded_closing wide).log
  rests _ := minded (changes_keeps fun h => minds_emit h (wide _ rfl) rfl)
  register id conn := minded (minds_register wide id conn)
  unregister := (minded_closing wide).unregister
  rest _ _ _ := minds_same rfl rfl

theorem minded_consoleAsksEnd : Within (Minded kind) (Minded kind) consoleAsksEnd := by
  refine .bind minded_course (.gets minded_course) fun control => ?_
  cases control with
  | none => exact .pure minded_course
  | some control =>
    refine .bind minded_course (minded ((attends_minds wide).control (minds_log wide) control _))
      fun _ => ?_
    exact .bind minded_course (fun _ => minds_same rfl rfl) fun _ => .pure minded_course

end Parts

theorem minds_accept (id : SocketId) :
    Keeps (T := T) (P := Relay T) (Minds Event.apart) (Os.accept id) := by
  intro m
  have begun : Minds Event.apart m.host (m.host.emit (.begun .accept (some id))) :=
    minds_emit _ rfl rfl
  apply (accept_runs (lively_minds fun _ => Event.apart_of_quiet)).imp
  · intro found m' reached
    obtain ⟨h, s, rest, path, -, -, rfl⟩ := reached
    have taken : Minds Event.apart h (h.dequeue id rest) := minds_same rfl rfl
    exact ⟨((begun.trans path).trans taken).trans (minds_emit _ rfl rfl), rfl⟩
  · intro f m' path
    exact ⟨begun.trans path.1, path.2⟩

theorem draws_minds : Draws (T := T) (Minds Event.apart) where
  toLively := lively_minds fun _ => Event.apart_of_quiet
  begun h call id other := by rcases other with rfl | rfl <;> exact minds_emit h rfl rfl
  noted _ _ _ _ _ := minds_same rfl rfl
  logged := minds_logged fun _ => Event.apart_of_quiet
  take _ _ _ := minds_same rfl rfl
  received h _ _ := minds_emit h rfl rfl
  offered h _ _ := minds_emit h rfl rfl
  datagram h _ _ _ := minds_emit h rfl rfl

theorem minded_serve (entry : Entry) :
    Within (Minded (T := T) Event.apart) (Minded Event.apart) (serve entry) := by
  have wide (e : Event T) (quiet : e.quiet = true) : e.apart = true := Event.apart_of_quiet quiet
  have closing := minded_closing wide
  have resting := minded_resting wide
  have enroll (sock : SocketId) (peer : Peer) :
      Within (Minded (T := T) Event.apart) (Minded Event.apart) (enroll sock peer) := by
    apply enroll_within minded_course closing.log
    · exact minded (minds_setBlocking wide sock)
    · exact minded (minds_register wide sock _)
    · exact closing.close sock
    · exact fun _ _ _ _ => minds_same rfl rfl
  have once : Within (Minded (T := T) Event.apart) (Minded Event.apart) acceptOnce := by
    apply acceptOnce_within minded_course closing.log
    · exact fun m => minded (minds_accept _) m
    · exact resting.pause
    · exact enroll
    · exact fun _ _ => minds_same rfl rfl
  apply serve_within closing (acceptAll_within minded_course once)
  exact fun conn m _ => (draws_minds.drain conn m).imp (fun _ _ path => path.1) fun _ _ path => path.1

theorem minded_dispatch (entries : List (Int × Entry)) :
    Within (Minded (T := T) Event.apart) (Minded Event.apart) (dispatch entries) :=
  .forM minded_course fun entry _ => minded_serve entry.2

-- What of a turn was done, as far as it came: looking after the console and the listener, then
-- waiting, then serving.
inductive Span (h h' : Host T) : Prop where
  | looks : Minds Event.quiet h h' → Span h h'
  | waits : Minds Event.quiet h a → Minds Event.quiet (a.emit (.begun .select none)) h' → Span h h'
  | serves : Minds Event.quiet h a → Minds Event.quiet (a.emit (.begun .select none)) b →
      Minds Event.apart (b.emit (.ready timeout fds shown)) h' → Span h h'

theorem waitAndServe_spans {m : Machine T (Relay T)} {start : Host T}
    (looked : Minds Event.quiet start m.host) :
    Ends waitAndServe m (fun _ m' => Span start m'.host) fun _ m' => Span start m'.host := by
  have quiet (e : Event T) (quiet : e.quiet = true) : e.quiet = true := quiet
  refine ends_waitAndServe (ends_awaited fun _ => (select_begins (lively_minds quiet) _ _).imp ?_ ?_)
  · intro found m' reached
    obtain ⟨h, fds, path, rfl, rfl⟩ := reached
    apply (minded_dispatch _ _).imp
    · exact fun _ _ served => .serves looked path served
    · exact fun _ _ served => .serves looked path served
  · intro f m' reached
    obtain ⟨path, -⟩ := reached
    constructor
    case broken => exact fun _ => .waits looked path
    case counted => exact fun _ _ => .waits looked (path.trans (minds_logged quiet _ _ _))
    case foreign => exact fun _ _ => .waits looked path

theorem turn_spans (m : Machine T (Relay T)) :
    Ends turn m (fun _ m' => Span m.host m'.host) fun _ m' => Span m.host m'.host := by
  have quiet (e : Event T) (quiet : e.quiet = true) : e.quiet = true := quiet
  rw [turn, ends_bind]
  apply (minded_consoleAsksEnd quiet m).imp
  · intro asked looked first
    split
    · rw [ends_bind, ends_log, ends_bind]
      have told (text : String) := Minds.trans first (minds_logged quiet looked.host .info text)
      exact .looks ((told _).trans (minds_raise (fun _ => rfl) _ .service))
    · rw [ends_bind]
      apply ((minded_resting quiet).maybeResume looked).imp
      · intro _ resumed second
        rw [ends_bind]
        exact (waitAndServe_spans (Minds.trans first second)).normally fun _ _ span => span
      · exact fun _ _ second => .looks (Minds.trans first second)
  · exact fun _ _ first => .looks first

omit [Clock T] in
theorem Span.minds {h h' : Host T} (span : Span h h') : Minds (fun _ => true) h h' := by
  have any {kind : Event T → Bool} {h h' : Host T} (minds : Minds kind h h') :
      Minds (fun _ => true) h h' := minds.mono fun _ _ => rfl
  cases span with
  | looks looked => exact any looked
  | waits looked waited => exact ((any looked).trans (minds_emit _ rfl rfl)).trans (any waited)
  | serves looked waited served =>
    have reported := ((any looked).trans (minds_emit _ rfl rfl)).trans (any waited)
    exact (reported.trans (minds_emit _ rfl rfl)).trans (any served)

-- What is seen, newest first, of work that ebbs away: one more wait at most, one more batch at most,
-- and nothing is served before either of them.
structure Ebbing (seen : List (Stamped T)) : Prop where
  waits : (seen.countP fun s => s.event.selects) ≤ 1
  batches : (seen.countP fun s => s.event.reports) ≤ 1
  order : seen.Pairwise fun newer older => newer.event.apart = false → older.event.serves = false

section Ebbing
variable {seen new later earlier : List (Stamped T)} {s : Stamped T}

omit [Clock T] in
theorem Ebbing.until (ebbing : Ebbing (later ++ earlier)) : Ebbing later := by
  have part := List.sublist_append_left later earlier
  exact ⟨Nat.le_trans part.countP_le ebbing.waits, Nat.le_trans part.countP_le ebbing.batches,
    ebbing.order.sublist part⟩

omit [Clock T] in
theorem countP_eq_zero_of_apart (apart : ∀ s ∈ new, s.event.apart = true) :
    (new.countP fun s => s.event.selects) = 0 ∧ (new.countP fun s => s.event.reports) = 0 := by
  constructor
  · refine List.countP_eq_zero.mpr fun s there => ?_
    have := apart s there
    simp_all [Event.apart]
  · refine List.countP_eq_zero.mpr fun s there => ?_
    have := apart s there
    simp_all [Event.apart]

omit [Clock T] in
theorem Ebbing.apart (ebbing : Ebbing seen) (apart : ∀ s ∈ new, s.event.apart = true) :
    Ebbing (new ++ seen) := by
  obtain ⟨waits, batches⟩ := countP_eq_zero_of_apart apart
  refine ⟨?_, ?_, List.pairwise_append.mpr ⟨?_, ebbing.order, ?_⟩⟩
  · rw [List.countP_append, waits, Nat.zero_add]
    exact ebbing.waits
  · rw [List.countP_append, batches, Nat.zero_add]
    exact ebbing.batches
  · refine List.Pairwise.imp_of_mem (fun there _ _ broken => ?_) (List.pairwise_of_forall fun _ _ => trivial)
    exact absurd ((apart _ there).symm.trans broken) Bool.noConfusion
  · intro s there _ _ broken
    exact absurd ((apart _ there).symm.trans broken) Bool.noConfusion

omit [Clock T] in
theorem Ebbing.cons (ebbing : Ebbing seen)
    (waits : s.event.selects = true → ∀ e ∈ seen, e.event.selects = false)
    (reports : s.event.reports = true → ∀ e ∈ seen, e.event.reports = false)
    (unserved : ∀ e ∈ seen, e.event.serves = false) : Ebbing (s :: seen) := by
  refine ⟨?_, ?_, List.pairwise_cons.mpr ⟨fun e there _ => unserved e there, ebbing.order⟩⟩
  · rw [List.countP_cons]
    split
    · rename_i begins
      have none : (seen.countP fun s => s.event.selects) = 0 :=
        List.countP_eq_zero.mpr fun e there => by simp [waits begins e there]
      omega
    · exact ebbing.waits
  · rw [List.countP_cons]
    split
    · rename_i begins
      have none : (seen.countP fun s => s.event.reports) = 0 :=
        List.countP_eq_zero.mpr fun e there => by simp [reports begins e there]
      omega
    · exact ebbing.batches

omit [Clock T] in
theorem ebbing_of_quiet (quiet : ∀ s ∈ new, s.event.quiet = true) : Ebbing new := by
  have nothing : Ebbing ([] : List (Stamped T)) := ⟨Nat.zero_le _, Nat.zero_le _, .nil⟩
  simpa using nothing.apart fun s there => Event.apart_of_quiet (quiet s there)

def Ebbs (h h' : Host T) : Prop := ∃ new, h'.trace = new ++ h.trace ∧ Ebbing new

omit [Clock T] in
theorem Ebbs.apart {a b c : Host T} (ebbs : Ebbs a b) (minds : Minds Event.apart b c) : Ebbs a c := by
  obtain ⟨new, grown, ebbing⟩ := ebbs
  obtain ⟨more, ended, apart, -⟩ := minds.trace
  exact ⟨more ++ new, by rw [ended, grown, List.append_assoc], ebbing.apart apart⟩

omit [Clock T] in
theorem Ebbs.quiet {a b c : Host T} (ebbs : Ebbs a b) (minds : Minds Event.quiet b c) : Ebbs a c :=
  ebbs.apart (minds.mono fun _ => Event.apart_of_quiet)

omit [Clock T] in
theorem ebbs_looked {h h' : Host T} (looked : Minds Event.quiet h h') : Ebbs h h' := by
  obtain ⟨new, grown, quiet, -⟩ := looked.trace
  exact ⟨new, grown, ebbing_of_quiet quiet⟩

omit [Clock T] in
theorem waited_trace {a b h : Host T} (looked : Minds Event.quiet h a)
    (waited : Minds Event.quiet (a.emit (.begun .select none)) b) :
    ∃ new, b.trace = new ++ h.trace ∧ Ebbing new ∧
      ∀ s ∈ new, s.event.reports = false ∧ s.event.serves = false := by
  have idle {e : Event T} (quiet : e.quiet = true) :
      e.selects = false ∧ e.reports = false ∧ e.serves = false := by
    simpa [Event.quiet, Event.apart, and_assoc] using quiet
  obtain ⟨first, begun, quiet, -⟩ := looked.trace
  obtain ⟨second, grown, still, -⟩ := waited.trace
  have starts : Ebbing (⟨a.clock, .begun .select none⟩ :: first) := by
    apply (ebbing_of_quiet quiet).cons
    · exact fun _ e there => (idle (quiet e there)).1
    · exact fun reports => absurd reports Bool.false_ne_true
    · exact fun e there => (idle (quiet e there)).2.2
  refine ⟨second ++ ⟨a.clock, .begun .select none⟩ :: first, ?_,
    starts.apart fun s there => Event.apart_of_quiet (still s there), fun s there => ?_⟩
  · rw [grown, emit, begun]
    simp
  · rcases List.mem_append.mp there with later | here
    · exact (idle (still s later)).2
    · rcases List.mem_cons.mp here with rfl | earlier
      · exact ⟨rfl, rfl⟩
      · exact (idle (quiet s earlier)).2

omit [Clock T] in
theorem Span.ebbs {h h' : Host T} (span : Span h h') : Ebbs h h' := by
  cases span with
  | looks looked => exact ebbs_looked looked
  | waits looked waited =>
    obtain ⟨new, grown, ebbing, -⟩ := waited_trace looked waited
    exact ⟨new, grown, ebbing⟩
  | serves looked waited served =>
    rename_i b timeout fds shown
    obtain ⟨new, grown, ebbing, idle⟩ := waited_trace looked waited
    refine Ebbs.apart ⟨⟨b.clock, .ready timeout fds shown⟩ :: new, congrArg _ grown, ?_⟩ served
    apply ebbing.cons
    · exact fun selects => absurd selects Bool.false_ne_true
    · exact fun _ e there => (idle e there).1
    · exact fun e there => (idle e there).2

end Ebbing

section Loop
variable {m last : Machine T (Relay T)} {exit : Exit}

theorem Loops.stays (loops : Loops m exit last) (told : m.host.serviceStop = true) : last = m := by
  cases loops with
  | told | spent => rfl
  | asked going | failed going | next going => exact absurd (told.symm.trans going) Bool.noConfusion

-- Of a loop, whatever was seen before its last turn tells nobody to stop.
theorem Loops.last_turn (loops : Loops m exit last) : ∃ b : Machine T (Relay T),
    Shows Event.mute m.host b.host ∧ Span b.host last.host := by
  induction loops with
  | told | spent => exact ⟨_, shows_same rfl, .looks (minds_same rfl rfl)⟩
  | asked _ _ ran => exact ⟨_, shows_same rfl, (turn_spans _).of_ok ran⟩
  | failed _ ran => exact ⟨_, shows_same rfl, (turn_spans _).of_error ran⟩
  | @next m middle exit last _ ran rest ih =>
    have span := (turn_spans m).of_ok ran
    cases told : middle.host.serviceStop with
    | true =>
      rw [rest.stays told]
      exact ⟨m, shows_same rfl, span⟩
    | false =>
      obtain ⟨b, mute, span'⟩ := ih
      obtain ⟨new, grown, -, heard⟩ := span.minds.trace
      refine ⟨b, .trans ⟨new, grown, fun s there => ?_⟩ mute, span'⟩
      cases stops : s.event.stops with
      | false => simp [Event.mute, stops]
      | true => exact absurd ((heard ⟨s, there, stops⟩).symm.trans told) Bool.noConfusion

omit [Clock T] in
theorem announce_shows (m : Machine T (Relay T)) (kind : Event T → Bool)
    (logs : ∀ level text, kind (.log level text) = true) :
    Ends announce m (fun _ m' => Shows kind m.host m'.host) fun _ _ => False := by
  rw [announce, ends_bind, ends_gets]
  refine (logAny_ends (shows_same rfl) (fun level text => ?_) .info _ _).imp (fun _ _ path => path.1)
    fun _ _ never => never
  exact logged_of (shows_same rfl) (shows_emit m.host (logs level text)) fun _ => shows_same rfl

omit [Clock T] in
theorem prefix_of_split {seen older later earlier : List (Stamped T)} {s : Stamped T}
    (split : seen ++ older = later ++ s :: earlier) (new : s ∉ older) : ∃ rest, seen = later ++ rest := by
  rcases List.append_eq_append_iff.mp split with ⟨more, -, tail⟩ | ⟨more, head, -⟩
  · exact absurd (tail ▸ List.mem_append_right _ List.mem_cons_self) new
  · exact ⟨more, head⟩

-- Of a whole run, what is seen after the service was told to stop is seen of work that ebbs away.
theorem Loops.ebbs {first : Machine T (Relay T)} {start : Host T} (loops : Loops first exit last)
    (begun : Shows Event.mute start first.host) {ended : Host T}
    (closing : Minds Event.quiet last.host ended) :
    ∃ new, ended.trace = new ++ start.trace ∧
      ∀ later s earlier, new = later ++ s :: earlier → s.event.stops = true → Ebbing later := by
  obtain ⟨b, mute, span⟩ := loops.last_turn
  obtain ⟨older, grown, silent⟩ := begun.trans mute
  obtain ⟨new, ended, ebbing⟩ := span.ebbs.quiet closing
  refine ⟨new ++ older, by rw [ended, grown, List.append_assoc], fun later s earlier split stops => ?_⟩
  obtain ⟨rest, same⟩ := prefix_of_split split fun there => by
    simpa [Event.mute, stops] using silent s there
  subst same
  exact ebbing.until

end Loop

end Relay
end StreamRelay
