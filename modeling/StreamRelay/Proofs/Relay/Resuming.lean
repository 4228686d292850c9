import StreamRelay.Proofs.Relay.Listening

namespace StreamRelay.Relay
variable {T : Type} [Clock T] {l : SocketId} {fd : Int} {base : List (Stamped T)} {stage : Stage T}
  {m : Machine T (Relay T)}
open Run Host

theorem telling_parts : Parts (T := T) (Both Tells Kin) (Both Tells Kin) :=
  ample_tells.parts lax_kin

-- It has kept the pace up to here, if the host is proper here.
def Guided (l : SocketId) (fd : Int) (base : List (Stamped T)) (m : Machine T (Relay T)) : Prop :=
  Proper l fd m.host → Going l fd base m

-- A host that is proper in the end was so before; only from there on an operation has to be followed.
theorem properly {act : Run T (Relay T) α} (telling : Within (Both Tells Kin) (Both Tells Kin) act)
    (step : Proper l fd m.host → Ends act m (fun _ => Guided l fd base) fun _ => Guided l fd base) :
    Ends act m (fun _ => Guided l fd base) fun _ => Guided l fd base := by
  refine ((telling m).and (.given _ step)).imp ?_ ?_
  · exact fun _ _ both proper => both.2 (proper.before both.1.1) proper
  · exact fun _ _ both proper => both.2 (proper.before both.1.1) proper

structure Deaf (l : SocketId) (fd : Int) (base : List (Stamped T)) (stage : Stage T)
    (m : Machine T (Relay T)) : Prop extends Steered l fd base stage m where
  nobody : ∀ e ∈ m.host.entries, e.2.sock ≠ l

theorem unregister_deaf (steered : Steered l fd base stage m)
    (listening : m.prog.listener.closed = false) :
    Ends (Os.unregister l) m (fun _ m' => Deaf l fd base stage m')
      fun _ m' => Proper l fd m'.host → Deaf l fd base stage m' := by
  have told : Drifts m.host (m.host.emit (.unregister (m.host.fileno l))) :=
    ⟨settled_emit _ _ rfl, adds_emit _ rfl⟩
  have frame : Within (Passes (T := T) l fd) (Passes l fd) (Os.unregister l) := passes_unregister l
  refine ((frame m).and (unregister_runs lively_drifts told)).imp ?_ ?_
  · intro _ m' both
    obtain ⟨passes, h, path, effect⟩ := both
    refine ⟨steered.passes passes, fun e there own => ?_⟩
    have later := steered.drifts path
    obtain ⟨-, rfl⟩ | ⟨-, rfl⟩ := effect
    · obtain ⟨before, differs⟩ := List.mem_filter.mp there
      rw [later.placed.number, (later.watched e before own).1] at differs
      simp at differs
    · obtain ⟨-, differs⟩ := List.mem_filter.mp there
      simp [own] at differs
  · intro f m' both proper
    obtain ⟨passes, h, path, rfl⟩ := both
    refine ⟨steered.passes passes, fun e there own => ?_⟩
    have later := steered.drifts path
    have unwatched := proper.spared _ List.mem_cons_self rfl rfl
    rw [watches_of_isOpen (later.isOpen listening), later.placed.number] at unwatched
    have absent := Option.isNone_iff_eq_none.mp (Option.isSome_eq_false_iff.mp unwatched)
    exact ne_of_unwatched absent there (later.watched e there own).1

theorem unwatchListener_deaf (steered : Steered l fd base stage m)
    (listening : m.prog.listener.closed = false) :
    Ends unwatchListener m (fun _ m' => Proper l fd m'.host → Deaf l fd base stage m')
      fun _ m' => Proper l fd m'.host → Deaf l fd base stage m' := by
  apply ends_unwatchListener
  rw [steered.sock]
  apply (unregister_deaf steered listening).imp
  · exact fun _ _ deaf _ => deaf
  · exact fun _ _ deaf => ⟨fun _ => deaf, fun _ => deaf⟩

theorem Deaf.rests (deaf : Deaf l fd base stage m) (awake : stage.rest? = none) (text : String) :
    Steered l fd base (.resting (Clock.add m.host.clock retryDelay))
      ⟨(m.host.emit (.rests (Clock.add m.host.clock retryDelay))).logged .warning text,
        setListener (fun l => { l with resumeAt := some (Clock.add m.host.clock retryDelay) })
          m.prog⟩ := by
  have rested : Steered l fd base (.resting (Clock.add m.host.clock retryDelay)) _ :=
    deaf.toSteered.turns (fun _ paced => .rest paced awake) fun e there own =>
      absurd own (deaf.nobody e there)
  exact rested.drifts (drifts_log .warning text ⟨_, m.prog⟩).1

theorem pause_going (steered : Steered l fd base stage m) (awake : stage.rest? = none) :
    Ends (pause retryDelay) m (fun _ => Guided l fd base) fun _ => Guided l fd base := by
  apply ends_pause
  case still => exact fun _ _ => ⟨stage, steered⟩
  case awake =>
    intro _ listening
    refine (unwatchListener_deaf steered listening).imp ?_ ?_
    · intro _ m' deaf proper
      have earlier := (proper.before (calm_tells.steady.logged _ .warning _)).before (tells_emit _ _)
      exact ⟨_, (deaf earlier).rests awake _⟩
    · exact fun _ _ deaf proper => ⟨stage, (deaf proper).toSteered⟩

theorem accept_heard (steered : Steered l fd base .heard m) :
    Ends (Os.accept l) m (fun found m' => found.1 ≠ l ∧ Steered l fd base .heard m')
      fun _ m' => Steered l fd base .heard m' := by
  have begun : Steered l fd base .heard ⟨m.host.emit (.begun .accept (some l)), m.prog⟩ :=
    steered.tells (fun _ paced => .accept paced) rfl
  refine (accept_runs lively_drifts).imp ?_ ?_
  · intro found m' reached
    obtain ⟨h, s, rest, path, known, queue, rfl⟩ := reached
    have later := begun.drifts path
    have waited : found.1 ∈ h.pending :=
      (dequeue_perm known queue).mem_iff.mp List.mem_cons_self
    refine ⟨fun same => later.placed.idle (same ▸ waited), ?_⟩
    have taken := (adds_alter h l fun s => { s with backlog := rest }).trans
      (adds_emit _ (rfl : Event.calm (.accept found.1 (h.number found.1)) = true))
    refine later.passes (passes_of_moves taken fun _ kept => ?_)
    refine kept.moves ((aged_dequeue known queue).trans (aged_emit _ _)) ?_ fun _ there _ => there
    exact fun opened => isOpen_dequeue.trans opened
  · intro f m' reached
    obtain ⟨h', path, rfl⟩ := reached.cases
    exact begun.drifts path

theorem acceptOnce_heard (steered : Steered l fd base .heard m) :
    Ends acceptOnce m
      (fun result m' => Proper l fd m'.host →
        Going l fd base m' ∧ (result ≠ .done → Steered l fd base .heard m'))
      fun _ => Guided l fd base := by
  have goes {m' : Machine T (Relay T)} (heard : Steered l fd base .heard m') : Going l fd base m' :=
    ⟨_, heard⟩
  apply ends_acceptOnce
  rw [steered.sock]
  refine (accept_heard steered).imp ?_ ?_
  · intro found m' accepted
    obtain ⟨apart, heard⟩ := accepted
    have frame : Within (Passes (T := T) l fd) (Passes l fd) (enroll found.1 ⟨found.2, []⟩) :=
      passes_enroll apart _
    refine (frame m').imp ?_ fun _ _ path _ => goes (heard.passes path)
    intro admitted last path
    have later := heard.passes path
    constructor
    case dismissed => exact fun _ _ => ⟨goes later, fun _ => later⟩
    case enrolled =>
      intro conn _ _
      have counted : Steered l fd base .heard
          ⟨last.host, count (fun c => { c with accepted := c.accepted + 1 }) last.prog⟩ :=
        later.passes (passes_edit rfl rfl (fun hung => hung) fun apart => apart)
      have told := counted.drifts (drifts_log .info ("new client " ++ conn.label) last).1
      exact ⟨goes told, fun _ => told⟩
  · intro f m' heard
    have told := heard.drifts (drifts_log .error ("accept failed: " ++ f.message) m').1
    constructor
    case blocked => exact fun _ _ => ⟨goes heard, fun _ => heard⟩
    case broken => exact fun _ _ _ => ⟨goes heard, fun _ => heard⟩
    case skipped => exact fun _ _ _ _ _ => ⟨goes told, fun _ => told⟩
    case rests =>
      intro _ _ _ _
      refine (pause_going told rfl).imp ?_ fun _ _ guided => guided
      exact fun _ last going proper => ⟨going proper, fun more => absurd rfl more⟩
    case foreign => exact fun _ _ _ _ => goes heard

theorem acceptFor_going (fuel admitted : Nat) (steered : Steered l fd base .heard m) :
    Ends (acceptFor fuel admitted) m (fun _ => Guided l fd base) fun _ => Guided l fd base := by
  induction fuel generalizing admitted m with
  | zero => exact fun _ => ⟨_, steered⟩
  | succ fuel ih =>
    have telling (admitted : Nat) : Within (Both Tells Kin) (Both Tells Kin)
        (acceptFor (T := T) fuel admitted) :=
      acceptFor_within telling_parts.toCourse telling_parts.acceptOnce fuel admitted
    rw [acceptFor, ends_bind]
    refine (acceptOnce_heard steered).normally fun result middle once => ?_
    cases result with
    | done => exact fun proper => (once proper).1
    | again => exact properly (telling _) fun proper => ih _ ((once proper).2 (by simp))
    | admitted => exact properly (telling _) fun proper => ih _ ((once proper).2 (by simp))

theorem acceptAll_going (steered : Steered l fd base .heard m) :
    Ends acceptAll m (fun _ => Guided l fd base) fun _ => Guided l fd base := by
  simp only [acceptAll, ends_bind, ends_asks]
  exact acceptFor_going _ _ steered

-- Among what is ready it is served once at most, and only if it may accept. The induction is on what
-- is left to be served.
theorem dispatch_going {entries : List (Int × Entry)} (steered : Steered l fd base stage m)
    (once : entries.countP (fun e => e.2.sock = l) ≤ 1)
    (heard : (∃ e ∈ entries, e.2.sock = l) → stage = .heard) :
    Ends (dispatch entries) m (fun _ => Guided l fd base) fun _ => Guided l fd base := by
  induction entries generalizing m stage with
  | nil => exact fun _ => ⟨stage, steered⟩
  | cons entry rest ih =>
    have telling : Within (Both Tells Kin) (Both Tells Kin) (dispatch (T := T) rest) :=
      telling_parts.rounds.dispatch rest
    have split : dispatch (T := T) (entry :: rest) = (do serve entry.2; dispatch rest) := by
      rw [dispatch, List.forM_eq_forM, List.forM_cons]
      rfl
    rw [split, ends_bind]
    by_cases own : entry.2.sock = l
    · have may : stage = .heard := heard ⟨entry, List.mem_cons_self, own⟩
      subst may
      have nobody : ∀ e ∈ rest, e.2.sock ≠ l := by
        intro e there same
        have some : 0 < rest.countP fun e => e.2.sock = l :=
          List.countP_pos_iff.mpr ⟨e, there, decide_eq_true same⟩
        rw [List.countP_cons_of_pos (by simpa using own)] at once
        omega
      simp only [serve, ends_bind, ends_gets, steered.sock, if_pos own, ends_pure]
      refine (acceptAll_going steered).normally fun _ middle going => ?_
      refine properly telling fun proper => ?_
      obtain ⟨stage, later⟩ := going proper
      have goes {m' : Machine T (Relay T)} (path : Passes l fd middle m') : Going l fd base m' :=
        ⟨stage, later.passes path⟩
      exact (dispatch_passes nobody later.toReserved).imp (fun _ _ path _ => goes path)
        fun _ _ path _ => goes path
    · have served : Ends (serve entry.2) m (fun _ => Passes l fd m) fun _ => Passes l fd m :=
        serve_passes own steered.sock steered.apart
      refine served.imp ?_ fun _ _ path _ => ⟨stage, steered.passes path⟩
      intro _ middle path
      refine ih (steered.passes path) ?_ fun some => heard ?_
      · rwa [List.countP_cons_of_neg (by simpa using own)] at once
      · obtain ⟨e, there, same⟩ := some
        exact ⟨e, List.mem_cons_of_mem _ there, same⟩

theorem register_recalled {h : Host T} {r : Relay T} {time : T}
    (steered : Steered l fd base (.resting time) ⟨h, r⟩) (listening : r.listener.closed = false)
    (come : Clock.before h.clock time = false) :
    Ends (Os.register l none) ⟨h, setListener (fun l => { l with resumeAt := none }) r⟩
      (fun _ m' => Steered l fd base .recalled m') fun _ m' => Steered l fd base .recalled m' := by
  have number : h.fileno l = fd :=
    (fileno_of_isOpen (steered.isOpen listening)).trans steered.placed.number
  have recalled : Steered l fd base .recalled
      ⟨h.emit (.register (h.fileno l)), setListener (fun l => { l with resumeAt := none }) r⟩ := by
    rw [number]
    exact steered.turns (fun _ paced => .renew paced come) fun _ _ _ => rfl
  refine (register_runs lively_drifts none).imp ?_ ?_
  · intro _ m' reached
    obtain ⟨h', path, -, -, rfl⟩ := reached
    have later := recalled.drifts path
    refine ⟨⟨later.sock, later.placed.aged (aged_entries h' _), later.apart, later.isOpen,
      fun e there own => ?_⟩, later.rest, later.paced⟩
    cases List.mem_append.mp there with
    | inl before => exact later.watched e before own
    | inr last =>
      rw [List.mem_singleton.mp last]
      exact ⟨later.placed.number, rfl⟩
  · intro f m' reached
    obtain ⟨h', path, rfl⟩ := reached
    exact (recalled.drifts path).drifts (drifts_note h' .register l f)

theorem maybeResume_going (steered : Steered l fd base stage m) :
    Ends maybeResume m (fun _ => Guided l fd base) fun _ => Guided l fd base := by
  apply ends_maybeResume
  case rests => exact fun _ _ => ⟨stage, steered⟩
  case due =>
    intro time resting listening due
    have rested : stage = .resting time := by
      have same := steered.rest.symm.trans resting
      cases stage with
      | resting u => rw [Option.some.inj same]
      | recalled | heard => exact absurd same (by simp [Stage.rest?])
    subst rested
    rw [steered.sock]
    refine (register_recalled steered listening due).imp ?_ ?_
    · exact fun _ _ later _ => ⟨_, later⟩
    · intro f m' later
      exact ⟨fun _ => pause_going (later.drifts (drifts_log .error _ m').1) rfl,
        fun _ _ => ⟨_, later⟩⟩

theorem Steered.hears {h : Host T} {r : Relay T} {fds : List Int}
    (steered : Steered l fd base stage ⟨h, r⟩) (awake : stage.rest? = none) (listed : fd ∈ fds)
    (timeout : T) (shown : Overview) :
    Steered l fd base .heard ⟨h.emit (.ready timeout fds shown), r⟩ := by
  cases stage with
  | resting time => exact absurd awake (by simp [Stage.rest?])
  | recalled => exact steered.tells (fun _ paced => .report paced listed) rfl
  | heard => exact steered.tells (fun _ paced => .calm paced rfl) rfl

theorem waitAndServe_going (steered : Steered l fd base stage m) :
    Ends waitAndServe m (fun _ => Guided l fd base) fun _ => Guided l fd base := by
  have told : Drifts m.host (m.host.emit (.begun .select none)) :=
    ⟨settled_emit _ _ rfl, adds_emit _ rfl⟩
  refine ends_waitAndServe (ends_awaited fun _ => (select_runs lively_drifts told _ _).imp ?_ ?_)
  · intro found m' reached
    obtain ⟨h, fds, path, rfl, rfl⟩ := reached
    have later := steered.drifts path
    refine properly (telling_parts.rounds.dispatch _) fun proper => ?_
    have own (e : Int × Entry) (there : e ∈ Os.entriesOf h fds) (same : e.2.sock = l) :
        e.1 = fd ∧ stage.rest? = none := later.toReserved.reported there same
    have once : (Os.entriesOf h fds).countP (fun e => e.2.sock = l) ≤ 1 := by
      have listed := proper.once _ List.mem_cons_self
      rw [Event.reported, List.count, List.countP_map] at listed
      refine Nat.le_trans (List.countP_mono_left fun e there same => ?_) listed
      simpa using (own e there (by simpa using same)).1
    by_cases ready : ∃ e ∈ Os.entriesOf h fds, e.2.sock = l
    · obtain ⟨e, there, same⟩ := ready
      obtain ⟨number, awake⟩ := own e there same
      have listed : fd ∈ (Os.entriesOf h fds).map Prod.fst := number ▸ List.mem_map_of_mem there
      exact dispatch_going (later.hears awake listed _ _) once fun _ => rfl
    · refine dispatch_going (later.tells (fun _ paced => .calm paced rfl) rfl) once fun some => ?_
      exact absurd some ready
  · intro f m' reached
    obtain ⟨h', path, rfl⟩ := reached.cases
    have later := steered.drifts path
    constructor
    case broken => exact fun _ _ => ⟨stage, later⟩
    case counted => exact fun _ _ _ => ⟨stage, later.drifts (drifts_log .error _ ⟨h', m.prog⟩).1⟩
    case foreign => exact fun _ _ _ => ⟨stage, later⟩

def Paces (l : SocketId) (fd : Int) (base : List (Stamped T)) (m m' : Machine T (Relay T)) : Prop :=
  Both Tells Kin m m' ∧ (Proper l fd m'.host → Going l fd base m → Going l fd base m')

theorem paces_course : Course (Paces (T := T) l fd base) (Paces l fd base) where
  refl m := ⟨telling_parts.refl m, fun _ going => going⟩
  trans one two := ⟨telling_parts.trans one.1 two.1, fun proper going =>
    two.2 proper (one.2 (proper.before two.1.1) going)⟩
  weaken path := path
  falls one two := ⟨telling_parts.trans one.1 two.1, fun proper going =>
    two.2 proper (one.2 (proper.before two.1.1) going)⟩

theorem paces_of_going {act : Run T (Relay T) α}
    (telling : Within (Both Tells Kin) (Both Tells Kin) act)
    (step : ∀ stage m, Steered l fd base stage m →
      Ends act m (fun _ => Guided l fd base) fun _ => Guided l fd base) :
    Within (Paces l fd base) (Paces l fd base) act := by
  intro m
  have steps := Ends.given (Going l fd base m) fun going => going.elim fun stage => step stage m
  refine ((telling m).and steps).imp ?_ ?_
  · exact fun _ _ both => ⟨both.1, fun proper going => both.2 going proper⟩
  · exact fun _ _ both => ⟨both.1, fun proper going => both.2 going proper⟩

theorem paces_of_drifts {act : Run T (Relay T) α}
    (telling : Within (Both Tells Kin) (Both Tells Kin) act) (keeps : Keeps Drifts act) :
    Within (Paces l fd base) (Paces l fd base) act := by
  refine paces_of_going telling fun stage m steered => ?_
  have goes {m' : Machine T (Relay T)} (path : Passes l fd m m') : Going l fd base m' :=
    ⟨stage, steered.passes path⟩
  have frame : Within (Passes l fd) (Passes l fd) act := passes_of_drifts keeps
  exact (frame m).imp (fun _ _ path _ => goes path) fun _ _ path _ => goes path

theorem drifts_poll (control : Control) (timeout : T) :
    Keeps (P := Relay T) Drifts (control.poll timeout) :=
  drifts_of (calm_settled.steady.control control timeout)
    (modest_adds.attends.control modest_adds.log control timeout)

theorem paces_cycle : Cycle (Paces (T := T) l fd base) (Paces l fd base) where
  toCourse := paces_course
  log level text := paces_of_drifts (telling_parts.log level text) (drifts_log level text)
  stop := paces_of_drifts telling_parts.stop
    (changes_keeps fun h => ⟨settled_raise h .service, modest_adds.raise h⟩)
  poll control timeout :=
    paces_of_drifts (telling_parts.poll control timeout) (drifts_poll control timeout)
  control h r c := by
    refine ⟨telling_parts.rounds.control h r c, fun _ going => ?_⟩
    obtain ⟨stage, steered⟩ := going
    exact ⟨stage, steered.passes (passes_edit rfl rfl (fun hung => hung) fun apart => apart)⟩
  maybeResume := paces_of_going telling_parts.maybeResume fun _ _ => maybeResume_going
  waitAndServe := paces_of_going telling_parts.rounds.waitAndServe fun _ _ => waitAndServe_going

-- A closed listener, for which nothing is watched any more.
structure Hung (l : SocketId) (fd : Int) (m : Machine T (Relay T)) : Prop extends Reserved l fd False m where
  closed : m.prog.listener.closed = true

omit [Clock T] in
theorem Hung.passes {m' : Machine T (Relay T)} (hung : Hung l fd m) (path : Passes l fd m m') :
    Hung l fd m' := ⟨path.kept False hung.toReserved, path.hung hung.closed⟩

theorem maybeResume_closed (closed : m.prog.listener.closed = true) : maybeResume m = .ok () m := by
  apply eq_ok_of_ends
  apply ends_maybeResume
  case rests => exact fun _ => rfl
  case due => exact fun _ _ listening => absurd (closed.symm.trans listening) Bool.true_eq_false.mp

def Hushes (l : SocketId) (fd : Int) (m m' : Machine T (Relay T)) : Prop := Hung l fd m → Hung l fd m'

omit [Clock T] in
theorem hushes_of_passes {act : Run T (Relay T) α} (frame : Within (Passes l fd) (Passes l fd) act) :
    Within (Hushes l fd) (Hushes l fd) act :=
  frame.mono (fun path hung => hung.passes path) fun path hung => hung.passes path

theorem hushes_cycle : Cycle (Hushes (T := T) l fd) (Hushes l fd) where
  toCourse := ⟨fun _ hung => hung, fun one two hung => two (one hung), fun path => path,
    fun one two hung => two (one hung)⟩
  log level text := hushes_of_passes (passes_log level text)
  stop := hushes_of_passes (passes_of_drifts
    (changes_keeps fun h => ⟨settled_raise h .service, modest_adds.raise h⟩))
  poll control timeout := hushes_of_passes (passes_of_drifts (drifts_poll control timeout))
  control h r c hung := hung.passes (passes_edit rfl rfl (fun hung => hung) fun apart => apart)
  maybeResume := by
    intro m
    refine .given _ fun hung => ?_
    have nothing := maybeResume_closed hung.closed
    rw [Ends, nothing]
    exact hung
  waitAndServe := by
    intro m
    refine .given _ fun hung => ?_
    refine (waitAndServe_passes hung.toReserved).imp ?_ ?_
    · exact fun _ _ path => hung.passes path
    · exact fun _ _ path => hung.passes path

end StreamRelay.Relay
