import StreamRelay.Proofs.Commands.Forwarding
import StreamRelay.Proofs.Commands.Jobs
import StreamRelay.Proofs.Recorder.Places

namespace StreamRelay
variable {T : Type}
open Run Host

def Event.closes : Event T → Bool
  | .closed .. | .fileClosed => true
  | _ => false

def Event.writes : Event T → Bool
  | .write _ | .flush => true
  | _ => false

namespace Recorder
variable [Clock T] {rel : Host T → Host T → Prop}

theorem Recording.turning (recording : Recording rel)
    (enters : ∀ h, rel h { h with workerStop := some .command })
    (dies : ∀ h thread f, rel h (h.emit (.threadDied thread f))) : Job.Turning Recorder rel where
  refl := recording.refl
  trans := recording.trans
  enters := enters
  dies := dies
  turn place _ m := (recording.turn place m).well fun _ _ path => path

end Recorder

namespace Event

def still (e : Event T) : Bool := !e.admits && !e.closes && !e.writes

def early (e : Event T) : Bool := !e.admits && !e.closes

def late (e : Event T) : Bool := !e.admits && !e.writes

theorem early_of_still (e : Event T) (still : e.still = true) : e.early = true :=
  (Bool.and_eq_true_iff.mp still).1

theorem late_of_still (e : Event T) (still : e.still = true) : e.late = true := by
  simp only [Event.still, Bool.and_eq_true] at still
  simp only [late, still, Bool.and_self]

theorem not_admits_of_late (e : Event T) (late : e.late = true) : e.admits = false :=
  (Bool.not_eq_true' _).mp (Bool.and_eq_true_iff.mp late).1

theorem not_admits_of_early (e : Event T) (early : e.early = true) : e.admits = false :=
  (Bool.not_eq_true' _).mp (Bool.and_eq_true_iff.mp early).1

theorem still_of_waits (e : Event T) (waits : e.waits = true) : e.still = true := by
  cases e <;> first | rfl | exact absurd waits Bool.false_ne_true

theorem still_of_founds (e : Event T) (founds : e.founds = true) : e.still = true := by
  cases e <;> first | rfl | exact absurd founds Bool.false_ne_true

theorem early_of_records (e : Event T) (records : e.records = true) : e.early = true := by
  cases e <;> first | rfl | exact absurd records Bool.false_ne_true

end Event

namespace Commands

-- The program's own sockets and its selector are as they were, and an observer saw nothing else.
structure Keeping (kind : Event T → Bool) (h h' : Host T) : Prop where
  owned : Owned h h'
  selector : h'.selectorOpen = h.selectorOpen
  shows : Shows kind h h'

def Steers (h h' : Host T) : Prop := ∀ s, h'.handler s = h.handler s

theorem Steers.trans {a b c : Host T} (one : Steers a b) (two : Steers b c) : Steers a c :=
  fun s => (two s).trans (one s)

section Keeping
variable {kind : Event T → Bool} {h h' : Host T}

theorem keeping_same (sockets : h'.sockets = h.sockets) (selector : h'.selectorOpen = h.selectorOpen)
    (trace : h'.trace = h.trace) : Keeping kind h h' :=
  ⟨owned_same sockets, selector, shows_same trace⟩

theorem keeping_emit (h : Host T) {e : Event T} (shown : kind e = true) :
    Keeping kind h (h.emit e) := ⟨owned_same rfl, rfl, shows_emit h shown⟩

theorem Keeping.trans {a b c : Host T} (one : Keeping kind a b) (two : Keeping kind b c) :
    Keeping kind a c where
  owned start held owns := two.owned start held (one.owned start held owns)
  selector := two.selector.trans one.selector
  shows := one.shows.trans two.shows

theorem Keeping.mono {wider : Event T → Bool} (keeping : Keeping kind h h')
    (widen : ∀ e, kind e = true → wider e = true) : Keeping wider h h' :=
  ⟨keeping.owned, keeping.selector, keeping.shows.mono widen⟩

theorem keeping_raise (told : ∀ flag, kind (.told flag) = true) (h : Host T) (flag : Flag) :
    Keeping kind h (h.raise flag) :=
  ⟨(abides_raise h flag).owns, (fitted_raise h flag).selector,
    shows_of_hears told (hears_raise h flag)⟩

variable [Clock T]

theorem mild_keeping (told : ∀ flag, kind (.told flag) = true) : Mild (Keeping kind) where
  refl _ := keeping_same rfl rfl rfl
  trans := .trans
  faults _ _ := keeping_same rfl rfl rfl
  batches _ _ := keeping_same rfl rfl rfl
  apply h action := ⟨calm_owned.apply h action, (fitted_apply h action).selector,
    shows_of_hears told (hears_apply h action)⟩

theorem around_keeping : Around (T := T) (Keeping Event.still) where
  toMild := mild_keeping fun _ => rfl
  stirs stirs := by
    cases stirs with
    | passes | reads | writes => exact keeping_same rfl rfl rfl
    | tells e waits => exact keeping_emit _ (e.still_of_waits waits)
  raises := keeping_raise fun _ => rfl
  replans replans := by
    cases replans
    exact keeping_same rfl rfl rfl

theorem recording_keeping : Recorder.Recording (T := T) (Keeping Event.early) where
  toLively := (mild_keeping fun _ => rfl).lively fun _ _ => keeping_same rfl rfl rfl
  emit h e records := keeping_emit h (e.early_of_records records)
  stderr _ _ := keeping_same rfl rfl rfl
  takes _ _ := ⟨fun _ _ owns => owns.alter (fun _ => rfl) fun _ still => still, rfl, shows_same rfl⟩

theorem turning_keeping : Job.Turning Recorder (Keeping (T := T) Event.early) :=
  recording_keeping.turning (fun _ => keeping_same rfl rfl rfl) fun h _ _ => keeping_emit h rfl

theorem mild_steers : Mild (T := T) Steers where
  refl _ _ := rfl
  trans := .trans
  faults _ _ s := by cases s <;> rfl
  batches _ _ s := by cases s <;> rfl
  apply h action := (fitted_apply h action).bears.handler

theorem around_steers : Around (T := T) Steers where
  toMild := mild_steers
  stirs stirs s := by cases stirs <;> cases s <;> rfl
  raises h flag := (fitted_raise h flag).bears.handler
  replans replans s := by
    cases replans
    cases s <;> rfl

theorem recording_steers : Recorder.Recording (T := T) Steers where
  toLively := mild_steers.lively fun _ _ s => by cases s <;> rfl
  emit _ _ _ s := by cases s <;> rfl
  stderr _ _ s := by cases s <;> rfl
  takes _ _ s := by cases s <;> rfl

theorem turning_steers : Job.Turning Recorder (Steers (T := T)) :=
  recording_steers.turning (fun _ s => by cases s <;> rfl) fun _ _ _ s => by cases s <;> rfl

end Keeping

section LogServer
variable [Clock T]

-- What a command that records leaves to an observer: no worker was started, or one took its turns and
-- had ended before anything was closed, and nothing was written later.
inductive Recorded (m : Machine T Unit) : Int → Host T → Prop where
  | refused {h} (shows : Shows Event.late m.host h) : Recorded m 1 h
  | recorded {sock thread cut made ended h} (before : Shows Event.still m.host made)
      (worked : Job.Worked (Keeping Event.still) (⟨{ sock }, thread, none⟩ : Job T Recorder) cut made ended)
      (early : Shows Event.early m.host ended) (late : Shows Event.late ended h) : Recorded m 0 h

theorem keeping_of_worked {job : Job T Recorder} {cut : Option Failure} {h h' : Host T}
    (worked : Job.Worked (Keeping Event.still) job cut h h') : Keeping Event.early h h' := by
  obtain ⟨begun, ended, first, path, -, rfl⟩ := worked
  exact (first.mono Event.early_of_still).trans
    (turning_keeping.path (fun kept => kept.mono Event.early_of_still) path)

theorem work_ends (stdin : Stdin) (sock : SocketId) (thread : Nat) (h : Host T) :
    Ends (withSignals .command do
        attend stdin
        Os.stop .command
        Job.join) ⟨h, (⟨{ sock }, thread, none⟩ : Job T Recorder)⟩
      (fun _ m' => Steers h m'.host ∧ ∃ cut,
        Job.Worked (Keeping Event.still) (⟨{ sock }, thread, none⟩ : Job T Recorder) cut h m'.host)
      fun _ _ => True := by
  have waiting : Waiting (SameHandlers (T := T) (P := Job T Recorder)) :=
    sameHandlers_waiting fun h job =>
      turning_steers.path around_steers.replans (Job.resume_path id h job)
  have works (m : Machine T (Job T Recorder)) : Ends (do
      attend stdin
      Os.stop .command
      Job.join) m (fun _ => SameHandlers m) fun _ _ => True := by
    apply (Job.whole_ends around_steers stdin rfl).well
    intro _ m' reached
    obtain ⟨⟨begun, first, path⟩, -⟩ := reached
    exact Steers.trans first (turning_steers.path id path)
  have handles (h : Host T) (s : Signal) (flag : Option Flag) :
      Keeping Event.still h (h.setHandler s flag) := by
    cases s <;> exact keeping_same rfl rfl rfl
  have idle : (⟨{ sock }, thread, none⟩ : Job T Recorder).place = none := rfl
  apply ((withSignals_restores waiting works).and
    (Job.inside_worked around_keeping handles idle stdin rfl)).well
  exact fun _ _ both => both

theorem openFile_ends (path : Given String) (m : Machine T Unit) :
    Ends (Os.openFile path) m
      (fun _ m' => Keeping Event.still m.host m'.host ∧ Steers m.host m'.host)
      fun _ m' => Keeping Event.still m.host m'.host ∧ Fitted m.host m'.host := by
  have begun : Keeping Event.still m.host (m.host.emit (.openFile path)) := keeping_emit _ rfl
  rw [Os.openFile, ends_bind, ends_emits, ends_bind]
  apply ((around_keeping.incident .openFile _).and (calm_fitted.mild.incident .openFile _)).imp
  · intro _ m' ended
    obtain ⟨⟨kept, -⟩, fitted, -⟩ := ended
    rw [ends_changes]
    refine ⟨(begun.trans kept).trans (keeping_same rfl rfl rfl), fun s => ?_⟩
    have same := fitted.bears.handler s
    cases s <;> exact same
  · intro f m' ended
    obtain ⟨⟨kept, -⟩, fitted, -⟩ := ended
    refine ⟨begun.trans kept, ?_⟩
    have shown : Fitted m.host (m.host.emit (.openFile path)) := ⟨rfl, rfl⟩
    exact shown.trans fitted

theorem receiving_ends {m : Machine T Unit} (honest : m.host.Honest) (address : Address) (timeout : T) :
    Ends (Endpoint.receiving address timeout) m
      (fun sock m' => Fitted m.host m'.host ∧ Shows Event.still m.host m'.host ∧
        m'.host.Owns m.host.sockets.length [sock])
      fun f m' => Fitted m.host m'.host ∧ Shows Event.late m.host m'.host ∧
        (f.isSetup = true → m'.host.Owns m.host.sockets.length []) := by
  have shows := founding_shows (T := T) Event.still_of_founds (fun _ => rfl) Event.late_of_still
    fun _ _ => rfl
  apply (((founding_fitted.receiving address timeout m).and (shows.receiving address timeout m)).and
    (Setup.receiving_falls (Setup.standing_start m honest) address timeout)).imp
  · intro sock m' ended
    obtain ⟨⟨fitted, shows⟩, last, standing⟩ := ended
    exact ⟨fitted.1, shows.1, standing.owns⟩
  · intro f m' ended
    obtain ⟨⟨fitted, shows⟩, fallen⟩ := ended
    exact ⟨fitted.1, shows.1, Relay.Fallen.owns fallen⟩

omit [Clock T] in
theorem newThread_keeps {P : Type} (m : Machine T P) (stdout : String) :
    Ends Os.newThread ⟨{ m.host with stdout }, m.prog⟩
      (fun _ m' => Keeping Event.still m.host m'.host ∧ Steers m.host m'.host) fun _ _ => False :=
  ⟨keeping_same rfl rfl rfl, fun s => by cases s <;> rfl⟩

omit [Clock T] in
theorem released_of_fitted {start h : Host T} (starting : Starting start) (fitted : Fitted start h)
    (shows : Shows Event.late start h) (owns : h.Owns start.sockets.length []) : Released start h := by
  have nobody := (shows.accepted Event.not_admits_of_late).trans starting.fresh.accepted
  exact ⟨fitted.bears.handler, owns, fun id told => absurd (nobody ▸ told) List.not_mem_nil,
    fitted.selector.trans starting.selector, fitted.bears.file.trans starting.file⟩

omit [Clock T] in
theorem shows_shut (h : Host T) (id : SocketId) : Shows Event.late h (h.shut id) := by
  unfold shut
  split
  · exact .trans (shows_same rfl) (shows_emit _ rfl)
  · exact shows_same rfl

omit [Clock T] in
theorem released_of_worked {start after h : Host T} {sock : SocketId} {stdout : String}
    (starting : Starting start)
    (first : Shows Event.early start after)
    (late : Shows Event.late after ((h.shut sock).emit .fileClosed)) (steers : Steers start h)
    (owns : h.Owns start.sockets.length [sock]) (selector : h.selectorOpen = false) :
    Released start { (h.shut sock).emit .fileClosed with fileOpen := false, stdout } := by
  have closed : (h.shut sock).Owns start.sockets.length [] := owns.shut
  have fitted := fitted_shut h sock
  have nobody : ((h.shut sock).emit .fileClosed).accepted = [] := by
    rw [late.accepted Event.not_admits_of_late, first.accepted Event.not_admits_of_early,
      starting.fresh.accepted]
  constructor
  case handlers =>
    intro s
    have same := steers.trans fitted.bears.handler s
    cases s <;> exact same
  case owns => exact closed.same rfl
  case accepted => exact fun id told => absurd (nobody ▸ told) List.not_mem_nil
  case selector =>
    have same := fitted.selector.trans selector
    exact same
  case file => rfl

theorem logServer_releases {m : Machine T Unit} (starting : Starting m.host) (stdin : Stdin)
    (address : Address) (file : Given String) :
    Ends (logServer stdin address file) m
      (fun status m' => Released m.host m'.host ∧ Recorded m status m'.host) fun _ _ => True := by
  rw [logServer, ends_bind, ends_outcome]
  apply (receiving_ends starting.honest address _).imp
  · intro sock bound made
    obtain ⟨fitted, shows, owns⟩ := made
    rw [ends_bind, ends_outcome]
    apply (openFile_ends file bound).imp
    · intro _ opened kept
      obtain ⟨kept, steers⟩ := kept
      simp only [Os.print, ends_bind, ends_changes]
      apply (newThread_keeps opened _).imp
      · intro thread numbered made
        obtain ⟨prepared, waits⟩ := made
        simp only [ends_hosting, ends_ensuring, ends_close, Os.closeFile, ends_emits, ends_changes,
          ends_bind, ends_pure]
        apply (work_ends stdin sock thread numbered.host).imp
        · intro _ m' worked
          obtain ⟨handlers, cut, worked⟩ := worked
          have ready := kept.trans prepared
          have whole := (ready.mono Event.early_of_still).trans (keeping_of_worked worked)
          have late : Shows Event.late m'.host ((m'.host.shut sock).emit .fileClosed) :=
            (shows_shut m'.host sock).trans (shows_emit _ rfl)
          have first := (shows.mono Event.early_of_still).trans whole.shows
          have steered : Steers m.host m'.host :=
            Steers.trans fitted.bears.handler ((steers.trans waits).trans handlers)
          have selector := whole.selector.trans (fitted.selector.trans starting.selector)
          exact ⟨released_of_worked starting first late steered (whole.owned _ _ owns) selector,
            .recorded (shows.trans ready.shows) worked first late⟩
        · exact fun _ _ _ => trivial
      · exact fun _ _ never => never.elim
    · intro f fallen kept
      obtain ⟨kept, still⟩ := kept
      dsimp only
      split
      · rw [ends_bind, ends_close, ends_failed]
        have late := ((shows.trans kept.shows).mono Event.late_of_still).trans
          (shows_shut fallen.host sock)
        have closed : (fallen.host.shut sock).Owns m.host.sockets.length [] :=
          Owns.shut (kept.owned _ _ owns)
        have same := (fitted.trans still).trans (fitted_shut fallen.host sock)
        exact ⟨released_of_fitted starting ⟨same.selector, same.bears⟩ late (closed.same rfl),
          .refused late⟩
      · trivial
  · intro f fallen refused
    obtain ⟨fitted, late, owns⟩ := refused
    dsimp only
    split
    · rename_i named
      rw [ends_failed]
      exact ⟨released_of_fitted starting ⟨fitted.selector, fitted.bears⟩ late ((owns named).same rfl),
        .refused late⟩
    · trivial

-- Whatever is refused, whatever the operator types, and whenever a signal comes. What is asked of the
-- system is that watching ends where it was asked to end, and that no accepted socket gets the number
-- of the listener.
theorem commands_release (m : Machine T Unit) (starting : Starting m.host) (stdin : Stdin)
    (s : Settings) (address : Address) (file : Given String) :
    Ends (forward stdin s) m
      (fun status m' => m'.host.Tamed → m'.host.Apart →
        Released m.host m'.host ∧ (m.host.Answers → Reported stdin s m status m'.host))
      (fun _ _ => True) ∧
    Ends (logServer stdin address file) m
      (fun status m' => Released m.host m'.host ∧ Recorded m status m'.host) fun _ _ => True :=
  ⟨forward_releases starting stdin s, logServer_releases starting stdin address file⟩

end LogServer

-- Status 0, the system has done what is asked of it, and whatever else is looked for.
def endsFairly (act : Run Int Unit Int) (m : Machine Int Unit) (seen : Host Int → Bool) : Bool :=
  match act m with
  | .ok status m' => status = 0 && m'.host.Tamed && m'.host.Apart && seen m'.host
  | .error _ _ => false

theorem exists_of_endsFairly {act : Run Int Unit Int} {m : Machine Int Unit}
    (seen : Host Int → Bool) {done : Int → Machine Int Unit → Prop}
    (ends : Ends act m done fun _ _ => True) (fair : endsFairly act m seen = true) :
    ∃ m', act m = .ok 0 m' ∧ m'.host.Tamed ∧ m'.host.Apart ∧ seen m'.host = true ∧ done 0 m' := by
  unfold Ends at ends
  unfold endsFairly at fair
  cases ran : act m with
  | ok status m' =>
    simp only [ran, Bool.and_eq_true, decide_eq_true_eq] at ends fair
    obtain ⟨⟨⟨rfl, tamed⟩, apart⟩, saw⟩ := fair
    exact ⟨m', rfl, tamed, apart, saw, ends⟩
  | error f m' =>
    rw [ran] at fair
    exact absurd fair Bool.false_ne_true

-- Only one of the two signals can be handled. A client comes, then that signal.
@[irreducible] def halfDeaf : Machine Int Unit where
  host := {
    clock := 0, onInterrupt := some .service
    batches := [⟨[.connect { data := [104, 105] }], some [4]⟩, ⟨[.signal .interrupt], some []⟩]
    faults := [(.signal, .pass),
      (.signal, .incident [] (some (.value "signal only works in main thread")))] }
  prog := ()

-- Two datagrams come, and then a line on the console. The first is received before a look at the
-- console and written after it, the second is written only when the end was asked for.
@[irreducible] def session : Machine Int Unit where
  host := {
    clock := 0, ending := .terminates, onInterrupt := some .service
    faults := [(.signal, .pass),
      (.signal, .incident [] (some (.value "signal only works in main thread")))]
    plan := [[0, 0], [], [0, 0, 0], [0, 0], [0]]
    batches := [⟨[.datagram [104, 105]], none⟩, ⟨[], none⟩, ⟨[.datagram [33]], none⟩,
      ⟨[.console [113, 117, 105, 116, 10]], none⟩] }
  prog := ()

theorem starting_halfDeaf : Starting halfDeaf.host := by
  unfold halfDeaf
  exact ⟨Relay.fresh_of_empty rfl rfl rfl rfl rfl, by decide, rfl, rfl, rfl⟩

theorem starting_session : Starting session.host := by
  unfold session
  exact ⟨Relay.fresh_of_empty rfl rfl rfl rfl rfl, by decide, rfl, rfl, rfl⟩

def looksAndWrites (h : Host Int) : List (Bool ⊕ Bytes) := h.history fun
  | .poll _ _ readable => some (.inl readable)
  | .write data => some (.inr data)
  | _ => none

theorem commands_release_sessions :
    (Starting halfDeaf.host ∧ ∃ m', forward .missing plainSettings halfDeaf = .ok 0 m' ∧
      Released halfDeaf.host m'.host ∧ Reported .missing plainSettings halfDeaf 0 m'.host) ∧
    Starting session.host ∧
      ∃ m', logServer (.descriptor 0) ⟨"0.0.0.0", (9000 : Int)⟩ (.value "out.log") session = .ok 0 m' ∧
        looksAndWrites m'.host = [.inl false, .inr [104, 105], .inl false, .inl true, .inr [33]] ∧
        Released session.host m'.host ∧ Recorded session 0 m'.host := by
  have relays := (commands_release halfDeaf starting_halfDeaf .missing plainSettings
    ⟨"0.0.0.0", (9000 : Int)⟩ (.value "out.log")).1
  have records := (commands_release session starting_session (.descriptor 0) plainSettings
    ⟨"0.0.0.0", (9000 : Int)⟩ (.value "out.log")).2
  obtain ⟨relayed, ended, tamed, apart, -, gives⟩ :=
    exists_of_endsFairly (fun _ => true) relays (by decide +kernel)
  obtain ⟨recorded, ended', -, -, saw, given'⟩ := exists_of_endsFairly
    (fun h => looksAndWrites h = [.inl false, .inr [104, 105], .inl false, .inl true, .inr [33]])
    records (by decide +kernel)
  have given := gives tamed apart
  have answers : halfDeaf.host.Answers := by decide +kernel
  exact ⟨⟨starting_halfDeaf, relayed, ended, given.1, given.2 answers⟩,
    starting_session, recorded, ended', of_decide_eq_true saw, given'⟩

end Commands
end StreamRelay
