import StreamRelay.Proofs.Relay.Shutdown

namespace StreamRelay

namespace Host
variable {T : Type} {h h' : Host T}

-- To stop watching has only ever failed for what was not watched.
def Tamed (h : Host T) : Prop :=
  ∀ r ∈ h.refusals, r.call = .unregister → (r.cause.isKey || r.cause.isValue) = true

instance (h : Host T) : Decidable h.Tamed :=
  inferInstanceAs (Decidable (∀ r ∈ h.refusals, r.call = .unregister →
    (r.cause.isKey || r.cause.isValue) = true))

-- What was refused meanwhile was so for a documented cause, but where watching was to stop.
structure Mannered (h h' : Host T) : Prop where
  kept : ∀ r ∈ h.refusals, r ∈ h'.refusals
  new : ∀ r ∈ h'.refusals, r ∈ h.refusals ∨ r.documented = true ∨ r.call = .unregister

theorem mannered_same (refusals : h'.refusals = h.refusals) : Mannered h h' :=
  ⟨fun _ there => refusals ▸ there, fun _ there => .inl (refusals ▸ there)⟩

theorem Mannered.trans {a b c : Host T} (one : Mannered a b) (two : Mannered b c) :
    Mannered a c where
  kept r there := two.kept r (one.kept r there)
  new r there := (two.new r there).elim (one.new r) .inr

theorem mannered_note (h : Host T) {call : Call} (id : SocketId) {cause : Failure}
    (fair : Refusal.documented ⟨call, id, h.watches id, cause⟩ = true ∨ call = .unregister) :
    Mannered h (h.note call id cause) where
  kept _ there := List.mem_cons_of_mem _ there
  new r there := by
    cases List.mem_cons.mp there with
    | inl new => exact .inr (new ▸ fair)
    | inr before => exact .inl before

theorem Mannered.documented (mannered : Mannered h h') (documented : Documented h)
    (tamed : h'.Tamed) : Documented h' := by
  intro r there
  obtain before | good | call := mannered.new r there
  · exact documented r before
  · exact good
  · have answer := tamed r there call
    simpa only [Refusal.documented, call] using answer

theorem lively_mannered [Clock T] : Lively (T := T) Mannered :=
  (mild_of_hears (fun _ => mannered_same rfl) .trans fun hears =>
    mannered_same hears.refusals).lively fun _ _ => mannered_same rfl

theorem mannered_logged (h : Host T) (level : Level) (text : String) :
    Mannered h (h.logged level text) := by
  obtain ⟨trace, stderr, same⟩ := logged_same h level text
  exact same ▸ mannered_same rfl

end Host

namespace Relay
variable {T α β : Type}
open Run Host

def Mannerly (m m' : Machine T (Relay T)) : Prop := Mannered m.host m'.host

-- A failure that is a refusal of the system leaves nothing undocumented on record.
def Civil (act : Run T (Relay T) α) : Prop :=
  ∀ m, Ends act m (fun _ => Mannerly m) fun f m' => f.isOs = true → Mannerly m m'

theorem Civil.bind {act : Run T (Relay T) α} {next : α → Run T (Relay T) β} (first : Civil act)
    (rest : ∀ a, Civil (next a)) : Civil (act >>= next) := by
  intro m
  rw [ends_bind]
  apply (first m).normally
  intro a middle path
  exact (rest a middle).imp (fun _ _ path' => path.trans path') fun _ _ path' refused =>
    path.trans (path' refused)

theorem civil_of_within {act : Run T (Relay T) α} (within : Within Mannerly Mannerly act) :
    Civil act := fun m => (within m).imp (fun _ _ path => path) fun _ _ path _ => path

theorem civil_of_keeps {act : Run T (Relay T) α} (keeps : Keeps Mannered act) : Civil act :=
  civil_of_within (keeps.mono And.left And.left)

theorem Civil.pure {a : α} : Civil (Pure.pure a : Run T (Relay T) α) := fun _ => mannered_same rfl

theorem Civil.gets {f : Relay T → α} : Civil (Run.gets f) := fun _ => mannered_same rfl

theorem Civil.asks {f : Host T → α} : Civil (Run.asks f) := fun _ => mannered_same rfl

theorem Civil.sets {f : Relay T → Relay T} : Civil (Run.sets f) := fun _ => mannered_same rfl

theorem Civil.composes : Compositional (T := T) Civil := ⟨fun _ => .pure, .bind⟩

theorem mannerly_course : Course (Mannerly (T := T)) Mannerly where
  refl _ := mannered_same rfl
  trans := .trans
  weaken path := path
  falls := .trans

theorem mannerly_keeps {act : Run T (Relay T) α} (keeps : Keeps Mannered act) :
    Within Mannerly Mannerly act := keeps.mono And.left And.left

variable [Clock T]

omit [Clock T] in
theorem mannered_log (level : Level) (text : String) :
    Keeps (T := T) (P := Relay T) Mannered (Os.log level text) :=
  changes_keeps fun h => mannered_logged h level text

theorem mannered_unregister (id : SocketId) :
    Keeps (T := T) (P := Relay T) Mannered (Os.unregister id) := by
  intro m
  apply (unregister_runs lively_mannered (mannered_same rfl)).imp
  · intro _ m' reached
    obtain ⟨h, path, ⟨-, rfl⟩ | ⟨-, rfl⟩⟩ := reached
    · exact ⟨path.trans (mannered_same rfl), rfl⟩
    · exact ⟨path.trans (mannered_same rfl), rfl⟩
  · intro f m' reached
    obtain ⟨h, path, rfl⟩ := reached
    exact ⟨path.trans (mannered_note h id (.inr rfl)), rfl⟩

theorem mannerly_closing : Closing (T := T) Mannerly Mannerly where
  toCourse := mannerly_course
  log level text := mannerly_keeps (mannered_log level text)
  unregister id := mannerly_keeps (mannered_unregister id)
  tend _ _ _ _ := mannered_same rfl
  stop m := (hears_raise m.host .service).refusals |> mannered_same
  close _ _ := mannered_same refusals_shut
  closeSelector _ := mannered_same rfl

theorem mannerly_pause (delay : T) : Within Mannerly Mannerly (pause delay) := by
  have course := mannerly_course (T := T)
  refine .bind course (.gets course) fun listener => ?_
  split
  · exact .pure course
  · refine .bind course (unwatchListener_within course mannerly_closing.unregister) fun _ => ?_
    refine .bind course (.asks course) fun now => .bind course (fun _ => mannered_same rfl) fun _ => ?_
    refine .bind course (fun _ => mannered_same rfl) fun _ => ?_
    exact mannerly_closing.log _ _

theorem register_civil {sock : SocketId} {conn : Option SocketId} {m : Machine T (Relay T)} :
    Ends (Os.register sock conn) m (fun _ => Mannerly m) fun f m' =>
      (f.isOs || f.isValue || f.isKey) = true → Mannerly m m' := by
  have told : Mannered m.host (m.host.emit (.register (m.host.fileno sock))) := mannered_same rfl
  apply (register_runs lively_mannered conn).imp
  · intro _ m' reached
    obtain ⟨h, path, -, -, rfl⟩ := reached
    exact (told.trans path).trans (mannered_same rfl)
  · intro f m' reached fair
    obtain ⟨h, path, rfl⟩ := reached
    exact (told.trans path).trans (mannered_note h sock (.inl fair))

theorem maybeResume_civil : Civil (T := T) maybeResume := by
  intro m
  apply ends_maybeResume
  case rests => exact fun _ => mannered_same rfl
  case due =>
    intro time _ _ _
    apply register_civil.imp
    · exact fun _ _ path => path
    · intro f m' path
      refine ⟨fun fair => ?_, fun unfair refused => path (by simp [refused])⟩
      have noted := (path fair).trans
        (mannered_logged m'.host .error ("cannot re-register listener: " ++ f.message))
      exact (mannerly_pause _ _).imp (fun _ _ paused => noted.trans paused)
        fun _ _ paused _ => noted.trans paused

theorem enroll_civil (sock : SocketId) (peer : Peer) : Civil (T := T) (enroll sock peer) := by
  have refused {m m' : Machine T (Relay T)} (path : Mannerly m m') (text : String) :
      Mannerly m ⟨(m'.host.logged .error text).shut sock, m'.prog⟩ :=
    (path.trans (mannered_logged _ _ _)).trans (mannered_same refusals_shut)
  intro m
  apply ends_enroll
  apply (setBlocking_runs lively_mannered false (mannered_same rfl)).imp
  · intro _ m' reached
    obtain ⟨h, s, path, -, -, rfl⟩ := reached
    have hastened := path.trans (mannered_same (rfl : (h.alter sock fun s =>
      { s with timeout := some Clock.zero }).refusals = h.refusals))
    simp only [Bool.false_eq_true, if_false]
    generalize (h.alter sock fun s => { s with timeout := some Clock.zero }) = middle at *
    apply register_civil.imp
    · exact fun _ watched path' conn _ => hastened.trans path'
    · intro f watched path'
      refine ⟨fun fair => refused (hastened.trans (path' fair)), fun _ os => ?_⟩
      exact hastened.trans (path' (by simp [os]))
  · intro f m' reached
    obtain ⟨h, path, rfl⟩ := reached
    have noted (os : f.isOs = true) : Mannerly m ⟨h.note .setBlocking sock f, m.prog⟩ :=
      path.trans (mannered_note h sock (.inl os))
    exact ⟨fun os => refused (noted os), fun _ => noted⟩

theorem mannered_accept (id : SocketId) : Keeps (T := T) (P := Relay T) Mannered (Os.accept id) := by
  intro m
  have told : Mannered m.host (m.host.emit (.begun .accept (some id))) := mannered_same rfl
  apply (accept_runs lively_mannered).imp
  · intro found m' reached
    obtain ⟨h, s, rest, path, -, -, rfl⟩ := reached
    exact ⟨(told.trans path).trans (mannered_same rfl), rfl⟩
  · exact fun _ m' reached => ⟨told.trans reached.1, reached.2⟩

theorem acceptOnce_civil : Civil (T := T) acceptOnce := by
  intro m
  apply ends_acceptOnce
  apply (mannered_accept m.prog.listener.sock m).imp
  · intro found m' reached
    have path : Mannerly m m' := reached.1
    apply (enroll_civil found.1 ⟨found.2, []⟩ m').imp
    · intro admitted m'' enrolled
      have before := path.trans enrolled
      constructor
      case dismissed => exact fun _ => before
      case enrolled => exact fun _ _ => before.trans (mannered_logged _ .info _)
    · exact fun _ _ fell os => path.trans (fell os)
  · intro f m' reached
    have path : Mannerly m m' := reached.1
    have noted := path.trans (mannered_logged m'.host .error ("accept failed: " ++ f.message))
    constructor
    case blocked => exact fun _ => path
    case broken => exact fun _ _ => path
    case skipped => exact fun _ _ _ _ => noted
    case rests =>
      intro _ _ _ _
      exact (mannerly_pause _ _).imp (fun _ _ paused => noted.trans paused)
        fun _ _ paused _ => noted.trans paused
    case foreign => exact fun _ _ _ _ => path

theorem acceptFor_civil (fuel admitted : Nat) : Civil (T := T) (acceptFor fuel admitted) :=
  acceptFor_composed Civil.composes acceptOnce_civil fuel admitted

theorem draws_mannered : Draws (T := T) Mannered where
  toLively := lively_mannered
  begun _ _ _ _ := mannered_same rfl
  noted h call id cause which := mannered_note h id (.inl (by cases which <;> simp [*, Refusal.documented]))
  logged := mannered_logged
  take _ _ _ := mannered_same rfl
  received _ _ _ := mannered_same rfl
  offered _ _ _ := mannered_same rfl
  datagram _ _ _ _ := mannered_same rfl

theorem serve_civil (entry : Entry) : Civil (T := T) (serve entry) := by
  have drained (conn : Connection) : Civil (T := T) (drain conn) :=
    civil_of_within ((draws_mannered.drain conn).mono And.left And.left)
  refine .bind .gets fun sock => ?_
  split
  · exact .bind (.bind .asks fun _ => acceptFor_civil _ _) fun _ => .pure
  · refine .bind .gets fun found => ?_
    split
    · exact .pure
    · split
      · exact .pure
      · refine .bind (drained _) fun outcome => ?_
        split
        · exact .pure
        · exact .bind (civil_of_within (mannerly_closing.teardown _)) fun _ => .sets

theorem turn_civil : Civil (T := T) turn := by
  have attends : Attends (T := T) Mannered :=
    ⟨lively_mannered, fun _ _ _ _ => mannered_same rfl, fun _ _ _ _ => mannered_same rfl,
      fun _ _ => mannered_same rfl⟩
  have asked : Civil (T := T) consoleAsksEnd := by
    refine .bind .gets fun control => ?_
    split
    · exact .pure
    · refine .bind (civil_of_keeps (attends.control mannered_log _ _)) fun _ => ?_
      exact .bind .sets fun _ => .pure
  have selected (timeout : T) : Keeps (T := T) (P := Relay T) Mannered
      (do Os.select timeout (← overview)) := by
    have course := lively_mannered.course (T := T) (P := Relay T)
    refine .bind course ?_ fun all => fun m => ?_
    · exact .bind course (.asks course) fun _ => .bind course (.gets course) fun _ => .pure course
    · apply (select_runs lively_mannered (mannered_same rfl) timeout all).normally
      intro found m' reached
      obtain ⟨h, fds, path, -, rfl⟩ := reached
      exact ⟨path.trans (mannered_same rfl), rfl⟩
  have waited : Civil (T := T) waitAndServe := by
    refine .bind .gets fun timeout => .bind (civil_of_within (.outcome (mannerly_keeps
      (selected timeout)))) fun result => ?_
    split
    · exact Civil.composes.forM fun entry _ => serve_civil entry.2
    · split
      · exact .pure
      · refine .bind ?_ fun _ => civil_of_within (.fails mannerly_course)
        exact civil_of_within (.onlyIf mannerly_course (mannerly_closing.log _ _))
  refine .bind asked fun requested => ?_
  split
  · refine .bind (civil_of_within (mannerly_closing.log _ _)) fun _ => ?_
    exact .bind (civil_of_within mannerly_closing.stop) fun _ => .pure
  · exact .bind maybeResume_civil fun _ => .bind waited fun _ => .pure

theorem turns_civil (fuel : Nat) : Civil (T := T) (turns fuel) := by
  induction fuel with
  | zero => exact .pure
  | succ fuel ih =>
    refine .bind .asks fun told => ?_
    split
    · exact .pure
    · refine .bind turn_civil fun goesOn => ?_
      split
      · exact ih
      · exact .pure

-- A run that fails, if at all, only where the end of some watching was refused in an odd way.
def Sure (act : Run T (Relay T) α) : Prop :=
  ∀ m, Ends act m (fun _ _ => True) fun _ m' => ¬m'.host.Tamed

omit [Clock T] in
theorem Sure.bind {act : Run T (Relay T) α} {next : α → Run T (Relay T) β} (first : Sure act)
    (rest : ∀ a, Sure (next a)) : Sure (act >>= next) := by
  intro m
  rw [ends_bind]
  exact (first m).normally fun a middle _ => rest a middle

theorem unregister_sure {id : SocketId} {next : Except Failure Unit → Run T (Relay T) α}
    (done : Sure (next (.ok ())))
    (missed : ∀ f, (f.isKey || f.isValue) = true → Sure (next (.error f)))
    (odd : ∀ f, (f.isKey || f.isValue) = false → next (.error f) = fails f) :
    Sure (outcome (Os.unregister id) >>= next) := by
  intro m
  rw [ends_bind, ends_outcome]
  apply (unregister_runs lively_mannered (mannered_same rfl)).imp
  · exact fun _ m' _ => done m'
  · intro f m' reached
    cases fair : f.isKey || f.isValue with
    | true => exact missed f fair m'
    | false =>
      obtain ⟨h, -, rfl⟩ := reached
      rw [odd f fair, ends_fails]
      intro tamed
      have answer := tamed _ List.mem_cons_self rfl
      exact Bool.false_ne_true (fair.symm.trans answer)

theorem unwatchListener_sure : Sure (T := T) unwatchListener := by
  refine .bind (fun _ => trivial) fun sock => unregister_sure (fun _ => trivial) ?_ ?_
  · intro f fair
    simp only [fair, if_true]
    exact fun _ => trivial
  · intro f odd
    simp only [odd, Bool.false_eq_true, if_false]

theorem unwatch_sure (conn : Connection) : Sure (T := T) (unwatch conn) := by
  refine unregister_sure (fun _ => trivial) ?_ ?_
  · intro f fair
    simp only [fair, if_true]
    exact fun _ => trivial
  · intro f odd
    simp only [odd, Bool.false_eq_true, if_false]

theorem teardown_sure (sock : SocketId) : Sure (T := T) (teardown sock) := by
  have released (conn : Connection) : Sure (T := T) (onlyIf conn.registered (release conn)) := by
    cases conn.registered with
    | false => exact fun _ => trivial
    | true => exact .bind (unwatch_sure conn) fun _ _ => trivial
  refine .bind (fun _ => trivial) fun found => ?_
  split
  · exact fun _ => trivial
  · split
    · exact fun _ => trivial
    · refine .bind (released _) fun _ => .bind (fun _ => trivial) fun _ => ?_
      exact .bind (fun _ => trivial) fun _ _ => trivial

theorem close_sure : Sure (T := T) close := by
  have composes : Compositional (T := T) Sure := ⟨fun _ _ => trivial, .bind⟩
  have emptied (conns : List Connection) :
      Sure (T := T) (conns.forM fun conn => teardown conn.sock) :=
    composes.forM fun conn _ => teardown_sure conn.sock
  have hung : Sure (T := T) closeListener := by
    refine .bind (fun _ => trivial) fun listener => ?_
    split
    · exact fun _ => trivial
    · refine .bind unwatchListener_sure fun _ => .bind (fun _ => trivial) fun _ => ?_
      exact fun _ => trivial
  refine .bind (fun _ => trivial) fun closed => ?_
  split
  · exact fun _ => trivial
  · refine .bind (fun _ => trivial) fun _ => .bind (fun _ => trivial) fun _ => .bind hung fun _ => ?_
    refine .bind (.bind (fun _ => trivial) fun live => .bind (emptied live) fun _ _ => trivial) ?_
    exact fun ended _ => trivial

-- A run that is done, or that the system has refused something, leaves all else as documented.
theorem run_mannerly (m : Machine T (Relay T)) :
    Ends run m (fun _ => Mannerly m) fun f m' => f.isOs = true → m'.host.Tamed → Mannerly m m' := by
  obtain ⟨trace, stderr, announced⟩ := announce_eq m
  have begins : Ends announce m (fun _ => Mannerly m) fun _ _ => False := by
    simp only [Ends, announced]
    exact mannered_same rfl
  have closes (middle : Machine T (Relay T)) : Ends close middle (fun _ => Mannerly middle)
      fun _ m' => ¬m'.host.Tamed :=
    ((mannerly_closing.finish (fun _ _ => mannered_same rfl) middle).and (close_sure middle)).imp
      (fun _ _ ended => ended.1) fun _ _ fell => fell.2
  rw [run, ends_bind]
  apply begins.imp
  · intro _ first path
    rw [ends_ensuring, ends_bind, ends_asks]
    apply (turns_civil _ first).imp
    · intro _ left turned
      exact (closes left).imp (fun _ _ ended => (path.trans turned).trans ended)
        fun _ _ wild _ tamed => absurd tamed wild
    · intro f left turned
      exact (closes left).imp (fun _ _ ended refused _ => (path.trans (turned refused)).trans ended)
        fun _ _ wild _ tamed => absurd tamed wild
  · exact fun _ _ never => never.elim

end Relay
end StreamRelay
