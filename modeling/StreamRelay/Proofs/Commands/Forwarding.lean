import StreamRelay.Proofs.Commands.Statuses
import StreamRelay.Proofs.Relay.Releasing

namespace StreamRelay
variable {T : Type}
open Run

def Event.admits : Event T → Bool
  | .accept .. => true
  | _ => false

namespace Host

theorem Shows.accepted {kind : Event T → Bool} {h h' : Host T} (shows : Shows kind h h')
    (silent : ∀ e, kind e = true → e.admits = false) : h'.accepted = h.accepted := by
  obtain ⟨new, trace, all⟩ := shows
  have nobody : new.filterMap (fun stamped =>
      match stamped.event with
      | .accept id _ => some id
      | _ => none) = [] := by
    refine List.filterMap_eq_nil_iff.mpr fun stamped there => ?_
    have quiet := silent _ (all stamped there)
    cases kept : stamped.event with
    | accept id fd =>
      rw [kept] at quiet
      exact absurd quiet.symm Bool.false_ne_true
    | _ => rfl
  rw [Host.accepted, trace, List.filterMap_append]
  exact congrArg (· ++ h.accepted) nobody

-- Whoever the end of the script reaches, it is not a command that waits for a worker.
def Answers (h : Host T) : Prop :=
  h.ending ≠ .raises .command ∧ h.onTerminate ≠ some .command ∧ h.workerStop ≠ some .command

instance (h : Host T) : Decidable h.Answers :=
  inferInstanceAs (Decidable (_ ∧ _))

theorem Answers.heard {h : Host T} (answers : h.Answers) : h.Heard := by
  obtain ⟨raised, signalled, worked⟩ := answers
  cases ending : h.ending with
  | raises flag =>
    cases flag with
    | service => exact .inl (.inl ending)
    | command => exact absurd ending raised
  | terminates =>
    cases handler : h.onTerminate with
    | some flag =>
      cases flag with
      | service => exact .inl (.inr ⟨ending, .inl handler⟩)
      | command => exact absurd handler signalled
    | none =>
      cases stop : h.workerStop with
      | some flag =>
        cases flag with
        | service => exact .inl (.inr ⟨ending, .inr stop⟩)
        | command => exact absurd stop worked
      | none => exact .inr (by simp [canStop, ending, handler, stop])

theorem Bears.answers {h h' : Host T} (bears : Bears h h') (answers : h.Answers) : h'.Answers := by
  obtain ⟨raised, signalled, worked⟩ := answers
  have terminate : h'.onTerminate = h.onTerminate := bears.handler .terminate
  exact ⟨bears.ending ▸ raised, terminate ▸ signalled, bears.workerStop ▸ worked⟩

theorem Owns.closed {h : Host T} {start : SocketId} {held : List SocketId} (owns : h.Owns start held)
    (shut : ∀ id ∈ held, h.isOpen id = false) : h.Owns start [] := by
  refine ⟨owns.grown, fun id s known bounded own opened => ?_⟩
  have closed := shut id (owns.held id s known bounded own opened)
  rw [isOpen_of_sock? known, opened] at closed
  exact absurd closed.symm Bool.false_ne_true

end Host

namespace Commands
open Host

-- A process that has opened nothing yet, and to which nothing was refused.
structure Starting (h : Host T) : Prop where
  fresh : Relay.Fresh h
  honest : h.Honest
  refusals : h.refusals = []
  selector : h.selectorOpen = false
  file : h.fileOpen = false

-- Signals do what they did before, and whatever was opened since then is closed.
structure Released (start h : Host T) : Prop where
  handlers : ∀ s, h.handler s = start.handler s
  owns : h.Owns start.sockets.length []
  accepted : ∀ id ∈ h.accepted, h.isOpen id = false
  selector : h.selectorOpen = false
  file : h.fileOpen = false

-- What the host is left with while a command prints, or has to do with signals.
structure Handed (h h' : Host T) : Prop extends Relay.Follows h h' where
  owned : Owned h h'
  selector : h'.selectorOpen = h.selectorOpen
  file : h'.fileOpen = h.fileOpen

def holdings (h : Host T) :=
  (h.sockets, h.waiting, h.server, h.entries, h.accepted, h.refusals, h.listener, h.selectorOpen,
    h.fileOpen)

theorem handed_same {h h' : Host T} (same : holdings h' = holdings h) : Handed h h' := by
  simp only [holdings, Prod.mk.injEq] at same
  obtain ⟨sockets, waiting, server, entries, accepted, refusals, listener, selector, file⟩ := same
  have alike : Alike h h' := ⟨sockets, waiting, server, entries, accepted, fun _ there => refusals ▸ there⟩
  exact ⟨⟨alike.settled, listener, refusals⟩, owned_same sockets, selector, file⟩

theorem Handed.trans {a b c : Host T} (one : Handed a b) (two : Handed b c) : Handed a c where
  settled := one.settled.trans two.settled
  heeds := one.heeds.trans two.heeds
  refusals := Eq.trans two.refusals one.refusals
  owned start held owns := two.owned start held (one.owned start held owns)
  selector := two.selector.trans one.selector
  file := two.file.trans one.file

def SameStderr (h h' : Host T) : Prop := h'.stderr = h.stderr

section Handing
variable [Clock T]

theorem mild_handed : Mild (T := T) Handed where
  refl _ := handed_same rfl
  trans := .trans
  faults _ _ := handed_same rfl
  batches _ _ := handed_same rfl
  apply h action := ⟨⟨settled_apply h action, Relay.heeds_apply h action, (hears_apply h action).refusals⟩,
    calm_owned.apply h action, (fitted_apply h action).selector, (fitted_apply h action).bears.file⟩

theorem mild_sameStderr : Mild (T := T) SameStderr where
  refl _ := rfl
  trans one two := Eq.trans two one
  faults _ _ := rfl
  batches _ _ := rfl
  apply h action := by
    have same (h : Host T) : SameStderr h h := rfl
    have chain {a b c : Host T} (one : SameStderr a b) (two : SameStderr b c) : SameStderr a c :=
      Eq.trans two one
    have raise (h : Host T) (flag : Flag) : SameStderr h (h.raise flag) := by cases flag <;> rfl
    exact apply_of same chain (fun ⟨_, _, _, _, _, _, _, _⟩ => same _) raise h action

variable {P : Type}

def Installing (h h' : Host T) : Prop := Handed h h' ∧ (h.Answers → h'.Answers)

def Restoring (h h' : Host T) : Prop := Handed h h' ∧ SameStderr h h'

theorem handling_installing [Resumable T P] [Idle T P] :
    Handling (· = some .service) (Hosted (T := T) (P := P) Installing) := by
  have same {h h' : Host T} (kept : holdings h' = holdings h) (bears : Bears h h') :
      Installing h h' := ⟨handed_same kept, bears.answers⟩
  refine .of_mild ⟨fun h => same rfl rfl, ?_, fun h rest => same rfl rfl, fun h rest => same rfl rfl, ?_⟩
    ?_ fun h s handled => same rfl rfl
  · exact fun one two => ⟨one.1.trans two.1, fun answers => two.2 (one.2 answers)⟩
  · exact fun h action => ⟨mild_handed.apply h action, (fitted_apply h action).bears.answers⟩
  · intro h s flag service
    cases s with
    | interrupt => exact ⟨handed_same rfl, fun answers => answers⟩
    | terminate =>
      refine ⟨handed_same rfl, fun answers => ⟨answers.1, ?_, answers.2.2⟩⟩
      rw [service]
      nofun

theorem handling_restoring [Resumable T P] [Idle T P] :
    Handling (fun _ => True) (Hosted (T := T) (P := P) Restoring) := by
  refine .of_mild ⟨fun h => ⟨mild_handed.refl h, rfl⟩, ?_, fun h rest => ⟨mild_handed.faults h rest, rfl⟩,
    fun h rest => ⟨mild_handed.batches h rest, rfl⟩, ?_⟩ ?_ fun h s handled => ⟨handed_same rfl, rfl⟩
  · exact fun one two => ⟨one.1.trans two.1, mild_sameStderr.trans one.2 two.2⟩
  · exact fun h action => ⟨mild_handed.apply h action, mild_sameStderr.apply h action⟩
  · intro h s flag _
    cases s <;> exact ⟨handed_same rfl, rfl⟩

-- How a command that relays came to its end: it was refused what it needs, or its loop was left.
inductive Outcome where
  | refused (f : Failure)
  | left (exit : Relay.Exit)

def Outcome.line : Outcome → Option String
  | refused f => some f.message
  | left (.failed f) => some ("event loop failed: " ++ f.message)
  | left _ => none

inductive Comes (stdin : Stdin) (s : Settings) (m : Machine T Unit) : Outcome → Prop where
  | refused {config control f fallen} (valid : s.check = .ok config)
      (given : Control.ofStdin stdin = .ok control)
      (ran : Relay.create config control none m = .error f fallen) (named : f.isSetup = true) :
      Comes stdin s m (.refused f)
  | left {config control relay made ready handlers start exit last} (valid : s.check = .ok config)
      (given : Control.ofStdin stdin = .ok control)
      (ran : Relay.create config control none m = .ok relay made)
      (shown : announce relay.listener.address s made = .ok () ready)
      (installed : installs .service ⟨ready.host, relay⟩ = .ok handlers start)
      (loops : Relay.Loops (after Relay.announce start) exit last) (reason : exit ≠ .spent) :
      Comes stdin s m (.left exit)

theorem Comes.unique {stdin : Stdin} {s : Settings} {m : Machine T Unit} {one two : Outcome}
    (comes : Comes stdin s m one) (comes' : Comes stdin s m two) : one = two := by
  cases comes with
  | refused valid given ran =>
    cases comes' with
    | refused valid' given' ran' =>
      cases valid.symm.trans valid'
      cases given.symm.trans given'
      cases ran.symm.trans ran'
      rfl
    | left valid' given' ran' =>
      cases valid.symm.trans valid'
      cases given.symm.trans given'
      exact absurd (ran.symm.trans ran') nofun
  | left valid given ran shown installed loops reason =>
    cases comes' with
    | refused valid' given' ran' =>
      cases valid.symm.trans valid'
      cases given.symm.trans given'
      exact absurd (ran.symm.trans ran') nofun
    | left valid' given' ran' shown' installed' loops' reason' =>
      cases valid.symm.trans valid'
      cases given.symm.trans given'
      cases ran.symm.trans ran'
      cases shown.symm.trans shown'
      cases installed.symm.trans installed'
      rw [loops.unique reason loops' reason']

-- The status says what the command came to, and an error has a line on standard error.
def Reported (stdin : Stdin) (s : Settings) (m : Machine T Unit) (status : Int) (h : Host T) : Prop :=
  ∃ outcome, Comes stdin s m outcome ∧ (∀ other, Comes stdin s m other → other = outcome) ∧
    (status = 0 ↔ outcome = .left .told ∨ outcome = .left .asked) ∧
    (status = 1 ↔ outcome.line.isSome = true) ∧
    ∀ line ∈ outcome.line, ∃ before, h.stderr = before ++ ("error: " ++ line) ++ "\n"

end Handing

section Forward
variable [Clock T]

omit [Clock T] in
theorem not_admits_of_founds (e : Event T) (shown : e.founds = true) : (!e.admits) = true := by
  cases e with
  | accept => exact absurd shown Bool.false_ne_true
  | _ => rfl

theorem create_releases {m : Machine T Unit} (starting : Starting m.host) (config : Config)
    (control : Option Control) :
    Ends (Relay.create config control none) m
      (fun relay m' => Relay.Ready ⟨m'.host, relay⟩ ∧ Bears m.host m'.host ∧
        m'.host.Owns m.host.sockets.length [relay.sink.sock, relay.listener.sock])
      fun f m' => f.isSetup = true → Released m.host m'.host := by
  have documented : Documented m.host := by
    intro r there
    rw [starting.refusals] at there
    exact absurd there List.not_mem_nil
  have nothing : ∀ own ∈ (none : Option Sink), m.host.isOpen own.sock = true := by
    intro own never
    cases never
  have shows := preparing_shows not_admits_of_founds (fun _ => rfl) (fun _ kept => kept)
    (fun _ _ => rfl) |>.create config control none m
  apply (((Relay.create_ready starting.fresh documented config control none).and
    (Relay.create_makes starting.fresh starting.honest starting.selector nothing config control)).and
    ((preparing_bears.create config control none m).and shows)).imp
  · intro relay m' ended
    obtain ⟨⟨ready, -, -, equipped⟩, bears, -⟩ := ended
    exact ⟨ready, bears.1, equipped.owns⟩
  · intro f m' ended whole
    obtain ⟨⟨-, unmade⟩, bears, shows⟩ := ended
    have accepted := shows.1.accepted fun e quiet => Bool.not_eq_true' _ ▸ quiet
    have nobody : m'.host.accepted = [] := accepted.trans starting.fresh.accepted
    have released (owns : m'.host.Owns m.host.sockets.length [])
        (selector : m'.host.selectorOpen = false) : Released m.host m'.host :=
      ⟨bears.1.handler, owns, fun id told => absurd (nobody ▸ told) List.not_mem_nil, selector,
        bears.1.file.trans starting.file⟩
    cases unmade with
    | unresolved _ ran =>
      have fell := (Setup.resolve_falls (Setup.standing_start m starting.honest) config.udp).of_error ran
      have fitted := (founding_fitted.resolve config.udp m).of_error ran
      exact released (Relay.Fallen.owns fell whole) (fitted.1.selector.trans starting.selector)
    | undone _ undone => exact released undone.owns undone.selector
    | unguarded own => exact absurd (own.symm.trans whole) Bool.false_ne_true
    | unmeasured own => exact absurd (own.symm.trans whole) Bool.false_ne_true

def looping : Run T (Relay T) Int := do
  match ← outcome Relay.run with
  | .ok _ => return 0
  | .error f => if f.isOs then failed ("event loop failed: " ++ f.message) else fails f

-- A run of the relay, and the status and the line that follow from it.
inductive Looped (start : Machine T (Relay T)) (ended : Machine T (Relay T)) : Int → Host T → Prop where
  | done (ran : Relay.run start = .ok () ended) : Looped start ended 0 ended.host
  | failed {f : Failure} (ran : Relay.run start = .error f ended) (refused : f.isOs = true) :
      Looped start ended 1 { ended.host with
        stderr := ended.host.stderr ++ ("error: " ++ ("event loop failed: " ++ f.message)) ++ "\n" }

theorem Looped.handed {start ended : Machine T (Relay T)} {status : Int} {h : Host T}
    (looped : Looped start ended status h) : Handed ended.host h := by
  cases looped with
  | done => exact mild_handed.refl _
  | failed => exact handed_same rfl

theorem looping_ends {start : Machine T (Relay T)} (ready : Relay.Ready start) :
    Ends looping start
      (fun status m' => ∃ ended, Looped start ended status m'.host ∧ Bears start.host ended.host ∧
        Owned start.host ended.host ∧ ∀ h, Relay.Follows ended.host h → h.Tamed → h.Apart →
          ∃ exit, Relay.Leaves exit start ended)
      fun _ _ => True := by
  rw [looping, ends_bind, ends_outcome]
  apply (((Relay.run_releases ready).and Ends.ran).and
    ((Relay.ample_run Relay.ample_bears start).and (Relay.ample_run Relay.ample_owned start))).imp
  · intro _ ended reached
    obtain ⟨⟨leaves, ran⟩, bears, owned⟩ := reached
    exact ⟨ended, .done ran, bears.1, owned.1, leaves⟩
  · intro f ended reached
    obtain ⟨⟨leaves, ran⟩, bears, owned⟩ := reached
    dsimp only
    split
    · rename_i refused
      rw [ends_failed]
      exact ⟨ended, .failed ran refused, bears.1, owned.1, leaves refused⟩
    · trivial

theorem looping_handlers (m : Machine T (Relay T)) :
    Ends looping m (fun _ => SameHandlers m) fun _ _ => True := by
  rw [looping, ends_bind, ends_outcome]
  apply (Relay.ample_run Relay.ample_bears m).imp
  · exact fun _ ended bears => bears.1.handler
  · intro f ended bears
    dsimp only
    split
    · rw [ends_failed]
      intro signal
      have same := bears.1.handler signal
      cases signal <;> exact same
    · trivial

theorem released_of_leaves {origin : Host T} {start ended : Machine T (Relay T)} {exit : Relay.Exit}
    {h : Host T} (leaves : Relay.Leaves exit start ended) (handed : Handed ended.host h)
    (owns : ended.host.Owns origin.sockets.length [start.prog.sink.sock, start.prog.listener.sock])
    (handlers : ∀ s, h.handler s = origin.handler s) (file : ended.host.fileOpen = false) :
    Released origin h := by
  have shut := leaves.shut
  have closed : ended.host.Owns origin.sockets.length [] := by
    apply owns.closed
    intro id there
    rcases List.mem_pair.mp there with rfl | rfl
    · exact shut.sink
    · exact shut.listener
  refine ⟨handlers, handed.owned _ _ closed, fun id told => ?_, handed.selector.trans shut.selector,
    handed.file.trans file⟩
  have stays := (handed.settled leaves.ended.coherent.based.orderly).2
  rw [stays.accepted] at told
  have bounded := (leaves.ended.coherent.roster.accepted id told).1
  exact (stays.isOpen id bounded).trans (shut.accepted id told)

theorem reported_of_leaves {stdin : Stdin} {s : Settings} {m : Machine T Unit}
    {start ended : Machine T (Relay T)} {exit : Relay.Exit} {status : Int} {h h' : Host T}
    (leaves : Relay.Leaves exit start ended) (looped : Looped start ended status h)
    (comes : Comes stdin s m (.left exit)) (reason : exit ≠ .spent) (same : SameStderr h h') :
    Reported stdin s m status h' := by
  refine ⟨_, comes, fun other comes' => comes'.unique comes, ?_⟩
  have ran := leaves.ran
  cases looped with
  | done done =>
    rw [done] at ran
    cases exit with
    | told | asked => exact ⟨by simp, by simp [Outcome.line], fun line never => by cases never⟩
    | failed f => cases ran
    | spent => exact absurd rfl reason
  | failed fell refused =>
    rw [fell] at ran
    cases exit with
    | failed f =>
      cases ran
      refine ⟨by simp, by simp [Outcome.line], fun line named => ?_⟩
      cases named
      exact ⟨_, same⟩
    | told | asked | spent => cases ran

theorem serving_ends {first : Machine T (Relay T)} (ready : Relay.Ready first) :
    Ends (withSignals .service looping) first
      (fun status m' => SameHandlers first m' ∧ ∃ handlers start ended middle,
        installs .service first = .ok handlers start ∧ Hosted Installing first start ∧
        Looped start ended status middle ∧ Bears start.host ended.host ∧
        Owned start.host ended.host ∧ Restoring middle m'.host ∧
        ∀ h, Relay.Follows ended.host h → h.Tamed → h.Apart →
          ∃ exit, Relay.Leaves exit start ended)
      fun _ _ => True := by
  have waiting : Waiting (SameHandlers (T := T) (P := Relay T)) :=
    sameHandlers_waiting fun _ _ _ => rfl
  apply ((withSignals_restores waiting looping_handlers).and
    (withSignals_ends handling_installing handling_restoring
      (fun status m' => ∃ handlers start ended, installs .service first = .ok handlers start ∧
        Hosted Installing first start ∧ Looped start ended status m'.host ∧
        Bears start.host ended.host ∧ Owned start.host ended.host ∧
        ∀ h, Relay.Follows ended.host h → h.Tamed → h.Apart →
          ∃ exit, Relay.Leaves exit start ended) ?_)).well
  · intro status m' reached
    obtain ⟨same, middle, ⟨handlers, start, ended, installed, path, looped, bears, owned, leaves⟩,
      restored⟩ := reached
    exact ⟨same, handlers, start, ended, middle.host, installed, path, looped, bears, owned,
      restored.1, leaves⟩
  · intro handlers start installed path
    obtain ⟨h, moved, rfl⟩ := path.cases
    apply (looping_ends (ready.later moved.1.toFollows)).well
    intro status m' reached
    obtain ⟨ended, looped, bears, owned, leaves⟩ := reached
    exact ⟨handlers, _, ended, installed, path, looped, bears, owned, leaves⟩

omit [Clock T] in
theorem console_ends {P : Type} (stdin : Stdin) (m : Machine T P) :
    Ends (console stdin) m (fun control m' => Control.ofStdin stdin = .ok control ∧ m' = m)
      fun _ _ => True := by
  cases verdict : Control.ofStdin stdin with
  | ok control => simp [Ends, console, verdict]
  | error f => simp [Ends, console, verdict]

omit [Clock T] in
theorem announce_same {P : Type} [Resumable T P] (address : Address) (s : Settings) (m : Machine T P) :
    ∃ stdout, announce address s m = .ok () ⟨{ m.host with stdout }, m.prog⟩ := ⟨_, rfl⟩

-- Whatever is refused, and whatever happens meanwhile.
theorem forward_releases {m : Machine T Unit} (starting : Starting m.host) (stdin : Stdin)
    (s : Settings) :
    Ends (forward stdin s) m
      (fun status m' => m'.host.Tamed → m'.host.Apart →
        Released m.host m'.host ∧ (m.host.Answers → Reported stdin s m status m'.host))
      fun _ _ => True := by
  rw [forward, ends_bind]
  apply (checked_ends s).well
  intro config _ valid
  obtain ⟨valid, rfl⟩ := valid
  rw [ends_bind]
  apply (console_ends stdin _).well
  intro control _ given
  obtain ⟨given, rfl⟩ := given
  rw [ends_bind, ends_outcome]
  apply ((create_releases starting config control).and Ends.ran).imp
  · intro relay made created
    obtain ⟨⟨ready, bears, owns⟩, ran⟩ := created
    obtain ⟨stdout, shown⟩ := announce_same relay.listener.address s made
    have announced : Handed made.host { made.host with stdout } := handed_same rfl
    rw [ends_bind, Ends, shown]
    dsimp only
    rw [ends_hosting]
    apply (serving_ends (ready.later announced.toFollows)).well
    intro status m' served tamed apart
    obtain ⟨same, handlers, start, ended, middle, installed, path, looped, kept, owned, restored,
      leaving⟩ := served
    obtain ⟨h, moved, rfl⟩ := path.cases
    have handed := looped.handed.trans restored.1
    obtain ⟨exit, leaves⟩ := leaving m'.host handed.toFollows tamed apart
    constructor
    · apply released_of_leaves leaves handed
      · exact owned _ _ (moved.1.owned _ _ (announced.owned _ _ owns))
      · exact fun signal => (same signal).trans (bears.handler signal)
      · rw [kept.file, moved.1.file, announced.file, bears.file, starting.file]
    · intro answers
      have heard := (moved.2 (bears.answers answers)).heard
      have reason := leaves.reason heard
      obtain ⟨left, loops⟩ := leaves.loops
      exact reported_of_leaves leaves looped
        (.left valid given ran shown installed loops reason) reason restored.2
  · intro f fallen refused
    dsimp only
    split
    · rename_i named
      rw [ends_failed]
      intro _ _
      obtain ⟨handlers, owns, accepted, selector, file⟩ := refused.1 named
      refine ⟨⟨handlers, owns.same rfl, accepted, selector, file⟩, fun _ => ?_⟩
      refine ⟨_, .refused valid given refused.2 named, fun other comes =>
        comes.unique (.refused valid given refused.2 named), ?_⟩
      exact ⟨by simp, by simp [Outcome.line], fun line same => by cases same; exact ⟨_, rfl⟩⟩
    · trivial

end Forward

end Commands
end StreamRelay
