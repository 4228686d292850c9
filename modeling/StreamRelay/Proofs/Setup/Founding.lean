import StreamRelay.Endpoint
import StreamRelay.Proofs.Host.Directions

namespace StreamRelay
variable {T P α : Type} [Clock T]
open Run

def Event.founds : Event T → Bool
  | .begun .. | .socket .. | .setBlocking .. | .setTimeout .. | .reuseAddress _ | .bind .. | .listen ..
  | .lookup _ | .register _ | .selectorClosed => true
  | _ => false

structure Founding (rel fell : Host T → Host T → Prop) : Prop extends Lively rel where
  emit : ∀ h (e : Event T), e.founds = true → rel h (h.emit e)
  sockets : ∀ h sockets, rel h { h with sockets }
  serves : ∀ h server early, rel h { h with server, early }
  heeds : ∀ h listener waiting, rel h { h with listener, waiting }
  weaken : ∀ {h h'}, rel h h' → fell h h'
  falls : ∀ {a b c}, fell a b → fell b c → fell a c
  note : ∀ h call id cause, call ≠ .register → fell h (h.note call id cause)
  -- Something is closed only where something has failed.
  shut : ∀ h id, fell h (h.shut id)

-- A setup that goes well, or fails.
def Founds (rel fell : Host T → Host T → Prop) (act : Run T P α) : Prop :=
  Within (Hosted rel) (Hosted fell) act

namespace Founding
variable {rel fell : Host T → Host T → Prop} {id : SocketId}

theorem course (founding : Founding rel fell) : Course (Hosted (P := P) rel) (Hosted fell) where
  refl m := ⟨founding.refl m.host, rfl⟩
  trans one two := ⟨founding.trans one.1 two.1, two.2.trans one.2⟩
  weaken path := ⟨founding.weaken path.1, path.2⟩
  falls one two := ⟨founding.falls one.1 two.1, two.2.trans one.2⟩

theorem keeps (founding : Founding rel fell) {act : Run T P α} (keeps : Keeps rel act) :
    Founds rel fell act := keeps.mono id founding.course.weaken

theorem changes (founding : Founding rel fell) {f : Host T → Host T} (step : ∀ h, rel h (f h)) :
    Founds (P := P) rel fell (Run.changes f) := founding.keeps (changes_keeps step)

theorem emits (founding : Founding rel fell) {e : Event T} (shown : e.founds = true) :
    Founds (P := P) rel fell (Run.emits e) := founding.changes fun h => founding.emit h e shown

theorem falling (founding : Founding rel fell) :
    Course (Hosted (P := P) fell) (Hosted fell) where
  refl := founding.course.stay
  trans := founding.course.falls
  weaken path := path
  falls := founding.course.falls

theorem close (founding : Founding rel fell) (id : SocketId) :
    Keeps (P := P) fell (Os.close id) := changes_keeps fun h => founding.shut h id

theorem passes (founding : Founding rel fell) (named : Bool) (f g : Failure) (m : Machine T P) :
    Ends (if named then fails f else fails g : Run T P α) m (fun _ _ => False)
      fun _ => Hosted fell m := by
  split <;> exact founding.course.stay m

variable [Resumable T P] [Idle T P]

theorem met (founding : Founding rel fell) (call : Call) :
    Founds (P := P) rel fell (Os.incident call) :=
  founding.keeps (founding.incident call)

theorem socket (founding : Founding rel fell) (transport : Transport) :
    Founds (P := P) rel fell (Os.socket transport) := by
  have course := founding.course (P := P)
  refine .bind course (founding.emits rfl) fun _ => .bind course (founding.met .socket) fun _ => ?_
  refine .bind course (fun m => ⟨founding.sockets m.host _, rfl⟩) fun id => ?_
  refine .bind course (.asks course) fun fd => .bind course (founding.emits rfl) fun _ => .pure course

theorem setBlocking (founding : Founding rel fell) (blocking : Bool) :
    Founds (P := P) rel fell (Os.setBlocking id blocking) := by
  intro m
  apply (setBlocking_runs founding.toLively blocking (founding.emit m.host _ rfl)).imp
  · intro _ m' reached
    obtain ⟨h, s, path, -, -, rfl⟩ := reached
    exact ⟨founding.trans path (founding.sockets h _), rfl⟩
  · intro f m' reached
    obtain ⟨h, path, rfl⟩ := reached
    exact ⟨founding.falls (founding.weaken path) (founding.note h _ id f (by decide)), rfl⟩

theorem call (founding : Founding rel fell) (call : Call) {e : Event T} (shown : e.founds = true)
    {effect : Sock T → Run T P Unit} (does : ∀ s, Founds rel fell (effect s)) :
    Founds rel fell
      (do Run.emits e; let _ ← Os.incident call; let s ← Os.opened id; effect s) := by
  have course := founding.course (P := P)
  refine .bind course (founding.emits shown) fun _ => .bind course (founding.met call) fun _ => ?_
  exact .bind course (founding.keeps (opened_keeps founding.toLively)) does

theorem setTimeout (founding : Founding rel fell) (timeout : Option T) :
    Founds (P := P) rel fell (Os.setTimeout id timeout) := by
  have course := founding.course (P := P)
  have called : Founds (P := P) rel fell (do
      Run.emits (.setTimeout (← Os.number id) timeout)
      let _ ← Os.incident .setTimeout
      let _ ← Os.opened id
      Os.alter id fun s => { s with timeout }) :=
    .bind course (.asks course) fun fd => founding.call .setTimeout rfl fun s =>
      founding.changes fun h => founding.sockets h _
  intro m
  rw [Os.setTimeout, ends_noting]
  apply (called m).imp
  · exact fun _ _ path => path
  · intro f m' path
    exact ⟨founding.falls path.1 (founding.note _ _ id f (by decide)), path.2⟩

omit [Resumable T P] [Idle T P] in
theorem guarded (founding : Founding rel fell) {step : SetupStep} {act : Run T P Unit}
    (founds : Founds rel fell act) : Founds rel fell (Endpoint.guarded id step act) := by
  refine .caught founding.course founds (fun _ => .pure founding.course) fun f m => ?_
  dsimp only
  split
  · rw [ends_bind]
    exact founding.close id m
  · exact founding.course.stay m

theorem newSocket (founding : Founding rel fell) (transport : Transport) (step : SetupStep) :
    Founds (P := P) rel fell (Endpoint.newSocket transport step) :=
  .caught founding.course (founding.socket transport) (fun _ => .pure founding.course)
    fun _ => founding.passes _ _ _

theorem bind (founding : Founding rel fell) (address : Address) :
    Founds (P := P) rel fell (Os.bind id address) := by
  have course := founding.course (P := P)
  refine .bind course (.asks course) fun fd => founding.call .bind rfl fun s => ?_
  refine .bind course (founding.changes fun h => founding.sockets h _) fun _ => .onlyIf course ?_
  exact founding.changes fun h => founding.trans (founding.sockets h _) (founding.serves _ _ _)

theorem listening (founding : Founding rel fell) (address : Address) (backlog : Given Int)
    (blocking : Bool) :
    Founds (P := P) rel fell (Endpoint.listening address backlog blocking) := by
  have course := founding.course (P := P)
  have heeded (id : SocketId) : Founds (P := P) rel fell (Os.listen id backlog) :=
    .bind course (.asks course) fun fd => founding.call .listen rfl fun s => founding.changes fun h =>
      founding.trans (founding.sockets h _) (founding.heeds _ _ _)
  have shared (id : SocketId) : Founds (P := P) rel fell (Os.reuseAddress id) :=
    .bind course (.asks course) fun fd => founding.call .setOption rfl fun s => .pure course
  refine .bind course (founding.newSocket _ _) fun id => ?_
  refine .bind course (founding.guarded (shared id)) fun _ => ?_
  refine .bind course (founding.guarded (founding.bind address)) fun _ => ?_
  refine .bind course (founding.guarded ?_) fun _ => .pure course
  exact .bind course (heeded id) fun _ => founding.setBlocking (P := P) blocking

theorem receiving (founding : Founding rel fell) (address : Address) (timeout : T) :
    Founds (P := P) rel fell (Endpoint.receiving address timeout) := by
  have course := founding.course (P := P)
  refine .bind course (founding.newSocket _ _) fun id => ?_
  refine .bind course (founding.guarded (founding.bind address)) fun _ => ?_
  exact .bind course (.onlyIf course (founding.setTimeout (P := P) _)) fun _ => .pure course

theorem resolve (founding : Founding rel fell) (address : Address) :
    Founds (P := P) rel fell (Sink.resolve address) := by
  have course := founding.course (P := P)
  have looked : Founds (P := P) rel fell (Os.lookup address) := by
    refine .bind course (founding.emits rfl) fun _ => .bind course (founding.met .lookup) fun _ => ?_
    split
    · exact .fails course
    · exact .asks course
  have first : Founds (P := P) rel fell (Sink.lookupFirst address) := by
    refine .caught course looked (fun found => ?_) fun _ => founding.passes _ _ _
    cases found with
    | nil => exact .fails course
    | cons => exact .pure course
  refine .bind course first fun dest => .caught course (founding.socket .datagram)
    (fun sock => ?_) fun _ => founding.passes _ _ _
  exact .bind course (founding.setBlocking (P := P) false) fun _ => .pure course

end Founding

theorem founding_shows {kind wider : Event T → Bool} (founds : ∀ e, e.founds = true → kind e = true)
    (told : ∀ flag, kind (.told flag) = true) (widen : ∀ e, kind e = true → wider e = true)
    (closed : ∀ id fd, wider (.closed id fd) = true) :
    Founding (Host.Shows kind) (Host.Shows wider) where
  toLively := (Host.mild_shows told).lively fun _ _ => Host.shows_same rfl
  emit h e shown := Host.shows_emit h (founds e shown)
  sockets _ _ := Host.shows_same rfl
  serves _ _ _ := Host.shows_same rfl
  heeds _ _ _ := Host.shows_same rfl
  weaken shows := shows.mono widen
  falls := .trans
  note _ _ _ _ _ := Host.shows_same rfl
  shut h id := by
    unfold Host.shut
    split
    · exact .trans (Host.shows_same rfl) (Host.shows_emit _ (closed _ _))
    · exact Host.shows_same rfl

end StreamRelay
