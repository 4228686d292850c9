import StreamRelay.Proofs.Console.Recognition
import StreamRelay.Proofs.Host.Waiting
import StreamRelay.Proofs.Host.Workload

namespace StreamRelay.Foreground
variable {T P : Type} [Clock T] [Resumable T P]
open Run Control

-- There is no console, or its channel is closed.
def Lost (console : Option Control) : Prop := ∀ c ∈ console, c.closed = true

inductive Exit where
  | ended
  | told
  | asked
  | failed (f : Failure)
  | waiting

def Exit.leads (exit : Exit) (m : Machine T P) : EStateM.Result Failure (Machine T P) Unit :=
  match exit with
  | failed f => .error f m
  | _ => .ok () m

-- So many rounds, what they heard of the console, and how that ended.
inductive Rounds (alive : Run T P Bool) (interval : T) :
    Option Control → Machine T P → Nat → List Polling → Exit → Machine T P → Prop where
  | waiting : Rounds alive interval console m 0 [] .waiting m
  | ended (test : alive m = .ok false m') : Rounds alive interval console m 0 [] .ended m'
  | told (test : alive m = .ok true m') (told : m'.host.commandStop = true) :
    Rounds alive interval console m 0 [] .told m'
  | untested (test : alive m = .error f m') : Rounds alive interval console m 0 [] (.failed f) m'
  | failed (test : alive m = .ok true tested) (going : tested.host.commandStop = false)
    (failed : turn interval console tested = .error f m') :
    Rounds alive interval console m 0 [] (.failed f) m'
  | asked (test : alive m = .ok true tested) (going : tested.host.commandStop = false)
    (closed : c.closed = false) (saw : c.look interval tested = .ok arrival seen)
    (polled : c.poll interval tested = .ok (c', true) m') :
    Rounds alive interval (some c) m 0 [⟨some arrival, true⟩] .asked m'
  | waited (test : alive m = .ok true tested) (going : tested.host.commandStop = false)
    (lost : Lost console) (waited : Os.waitFor .command interval tested = .ok () m')
    (later : Rounds alive interval console m' n past exit last) :
    Rounds alive interval console m (n + 1) past exit last
  | polled (test : alive m = .ok true tested) (going : tested.host.commandStop = false)
    (closed : c.closed = false) (saw : c.look interval tested = .ok arrival seen)
    (polled : c.poll interval tested = .ok (c', false) m')
    (later : Rounds alive interval (some c') m' n past exit last) :
    Rounds alive interval (some c) m (n + 1) (⟨some arrival, false⟩ :: past) exit last

section Turns
variable {alive : Run T P Bool} {interval : T} {console : Option Control} {m : Machine T P}

theorem turn_lost (lost : Lost console) : turn (P := P) interval console = (do
    Os.waitFor .command interval
    return (console, false)) := by
  cases console with
  | none => rfl
  | some c => simp only [turn, lost c rfl, if_true]

theorem turn_open {c : Control} (closed : c.closed = false) : turn (P := P) interval (some c) = (do
    let (c, requested) ← c.poll interval
    return (some c, requested)) := by
  simp only [turn, closed, Bool.false_eq_true, if_false]

theorem turns_closed {c : Control} (closed : c.closed = true) (fuel : Nat) :
    turns alive interval fuel (some c) = turns alive interval fuel none := by
  induction fuel with
  | zero => rfl
  | succ fuel ih =>
    have lost : Lost (some c) := fun _ same => Option.some.inj same ▸ closed
    have bare : Lost none := nofun
    simp only [turns, turn_lost lost, turn_lost bare, bind_assoc, pure_bind, Bool.false_eq_true,
      if_false, ih]

theorem turns_tested {tested : Machine T P} (test : alive m = .ok true tested) (fuel : Nat) :
    turns alive interval (fuel + 1) console m = (if tested.host.commandStop then return ()
      else do
        let (console, requested) ← turn interval console
        if requested then return ()
        else turns alive interval fuel console) tested := by
  simp only [turns, Bind.bind, EStateM.bind, test, Bool.not_true, Bool.false_eq_true, if_false,
    Os.isSet, Run.asks, Host.isSet]

theorem turn_cases {tested m' : Machine T P} {console' : Option Control} {requested : Bool}
    (turned : turn interval console tested = .ok (console', requested) m') :
    (Lost console ∧ Os.waitFor .command interval tested = .ok () m' ∧ console' = console ∧
      requested = false) ∨
    ∃ c c' arrival seen, console = some c ∧ console' = some c' ∧ c.closed = false ∧
      c.look interval tested = .ok arrival seen ∧ c.poll interval tested = .ok (c', requested) m' := by
  by_cases lost : Lost console
  · rw [turn_lost lost] at turned
    simp only [Bind.bind, EStateM.bind] at turned
    cases waited : Os.waitFor .command interval tested with
    | error f seen =>
      rw [waited] at turned
      cases turned
    | ok _ seen =>
      rw [waited] at turned
      cases turned
      exact .inl ⟨lost, rfl, rfl, rfl⟩
  · obtain ⟨c, rfl, closed⟩ : ∃ c, console = some c ∧ c.closed = false := by
      cases console with
      | none => exact absurd (nofun : Lost none) lost
      | some c =>
        refine ⟨c, rfl, Bool.eq_false_iff.mpr fun closed => lost ?_⟩
        exact fun _ same => Option.some.inj same ▸ closed
    rw [turn_open closed] at turned
    simp only [Bind.bind, EStateM.bind] at turned
    cases saw : c.look interval tested with
    | error f seen => simp [Control.poll, closed, Bind.bind, EStateM.bind, saw] at turned
    | ok arrival seen =>
      obtain ⟨m'', polled, -⟩ := poll_open closed saw
      rw [polled] at turned
      cases turned
      exact .inr ⟨c, _, arrival, seen, rfl, rfl, closed, saw, polled⟩

theorem turns_attend (alive : Run T P Bool) (interval : T) (console : Option Control)
    (m : Machine T P) (fuel : Nat) : ∃ n past exit last,
    Rounds alive interval console m n past exit last ∧
      turns alive interval fuel console m = exit.leads last ∧ (exit = .waiting → n = fuel) := by
  induction fuel generalizing console m with
  | zero => exact ⟨0, [], .waiting, m, .waiting, rfl, fun _ => rfl⟩
  | succ fuel ih =>
    cases test : alive m with
    | error f m' =>
      refine ⟨0, [], .failed f, m', .untested test, ?_, nofun⟩
      simp only [turns, Bind.bind, EStateM.bind, test]
      rfl
    | ok living tested =>
    cases living with
    | false =>
      refine ⟨0, [], .ended, tested, .ended test, ?_, nofun⟩
      simp only [turns, Bind.bind, EStateM.bind, test]
      rfl
    | true =>
    rw [turns_tested test]
    cases going : tested.host.commandStop with
    | true => exact ⟨0, [], .told, tested, .told test going, rfl, nofun⟩
    | false =>
    simp only [Bool.false_eq_true, if_false, Bind.bind, EStateM.bind]
    cases turned : turn interval console tested with
    | error f m' => exact ⟨0, [], .failed f, m', .failed test going turned, rfl, nofun⟩
    | ok found m' =>
    obtain ⟨console', requested⟩ := found
    obtain ⟨n, past, exit, last, later, ran, left⟩ := ih console' m'
    obtain ⟨lost, waited, rfl, rfl⟩ | ⟨c, c', arrival, seen, rfl, rfl, closed, saw, polled⟩ :=
      turn_cases turned
    · refine ⟨n + 1, past, exit, last, .waited test going lost waited later, ran, ?_⟩
      exact fun still => congrArg (· + 1) (left still)
    · cases requested with
      | true => exact ⟨0, _, .asked, m', .asked test going closed saw polled, rfl, nofun⟩
      | false =>
        refine ⟨n + 1, _, exit, last, .polled test going closed saw polled later, ran, ?_⟩
        exact fun still => congrArg (· + 1) (left still)

-- All that was heard in the rounds was polled of one channel.
theorem Rounds.heard {n : Nat} {past earlier : List Polling} {exit : Exit} {last : Machine T P}
    {first c : Control} (attends : Rounds alive interval console m n past exit last)
    (held : console = some c) (polled : Polled T P first earlier c) :
    ∃ c', Polled T P first (earlier ++ past) c' ∧
      (exit = .asked → ∃ poll ∈ past, poll.answer = true) := by
  induction attends generalizing earlier c with
  | waiting | ended | told | untested | failed => exact ⟨c, by simpa using polled, nofun⟩
  | asked test going closed saw ran =>
    cases held
    exact ⟨_, .next polled (.looked closed saw ran), fun _ => ⟨_, List.mem_singleton_self _, rfl⟩⟩
  | waited test going lost waited later ih => exact ih held polled
  | polled test going closed saw ran later ih =>
    cases held
    obtain ⟨c'', all, asked⟩ := ih rfl (.next polled (.looked closed saw ran))
    refine ⟨c'', by simpa using all, fun exit => ?_⟩
    obtain ⟨one, there, answer⟩ := asked exit
    exact ⟨one, List.mem_cons_of_mem _ there, answer⟩

theorem Rounds.without {n : Nat} {past : List Polling} {exit : Exit} {last : Machine T P}
    (attends : Rounds alive interval console m n past exit last) (bare : console = none) :
    exit ≠ .asked := by
  induction attends with
  | waiting | ended | told | untested | failed => exact nofun
  | asked | polled => cases bare
  | waited test going lost waited later ih => exact ih bare

end Turns

-- The end of the script tells the command to stop, or finds nobody at all that it could tell.
def Minded (h : Host T) : Prop := h.Stops .command ∨ h.canStop = false

-- The same now and once the worker was at work, whom the end of the script then reaches as well.
def Heeded (flag : Flag) (h : Host T) : Prop :=
  Minded h ∧ Minded { h with workerStop := some flag }

-- Who is told at the end of the script is the same but for the worker, and the command stays told.
structure Leads (flag : Flag) (h h' : Host T) : Prop where
  ending : h'.ending = h.ending
  onTerminate : h'.onTerminate = h.onTerminate
  workerStop : h'.workerStop = h.workerStop ∨ h'.workerStop = some flag
  command : h.commandStop = true → h'.commandStop = true

structure Wears (flag : Flag) (h h' : Host T) : Prop extends Leads flag h h' where
  light : Host.Lighter h h'

def Spends (dead : P → Prop) (m m' : Machine T P) : Prop :=
  dead m'.prog ∨ m'.host.commandStop = true ∨ m'.host.workload < m.host.workload

section Spending
open Host
variable {flag : Flag} {dead : P → Prop} {m before m' : Machine T P} {interval : T}

omit [Clock T] in
theorem Leads.trans {a b c : Host T} (one : Leads flag a b) (two : Leads flag b c) :
    Leads flag a c where
  ending := two.ending.trans one.ending
  onTerminate := two.onTerminate.trans one.onTerminate
  workerStop := by
    cases two.workerStop with
    | inl same => exact one.workerStop.imp same.trans same.trans
    | inr reached => exact .inr reached
  command told := two.command (one.command told)

omit [Clock T] in
theorem Wears.trans {a b c : Host T} (one : Wears flag a b) (two : Wears flag b c) :
    Wears flag a c := ⟨one.toLeads.trans two.toLeads, Nat.le_trans two.light one.light⟩

omit [Clock T] in
theorem leads_of_directed {h h' : Host T} (directed : Directed h h')
    (command : StaysTold .command h h') : Leads flag h h' :=
  ⟨directed.ending, directed.onTerminate, .inl directed.workerStop, command⟩

omit [Clock T] in
theorem wears_of_worn {h h' : Host T} (worn : Worn h h') : Wears flag h h' :=
  ⟨leads_of_directed worn.toDirected worn.command, worn.light⟩

omit [Clock T] in
theorem Wears.refl (h : Host T) : Wears flag h h := wears_of_worn (.refl h)

theorem mild_leads : Mild (T := T) (Leads flag) where
  refl h := (Wears.refl h).toLeads
  trans := .trans
  faults _ _ := leads_of_directed (directed_same rfl) (staysTold_same rfl rfl)
  batches _ _ := leads_of_directed (directed_same rfl) (staysTold_same rfl rfl)
  apply h action :=
    leads_of_directed (directed_apply h action) ((calm_staysTold .command).apply h action)

omit [Clock T] [Resumable T P] in
theorem Spends.later (spends : Spends dead m before) (worn : Along dead (Wears flag) before m') :
    Spends dead m m' := by
  obtain gone | told | less := spends
  · exact .inl (worn.2 gone)
  · exact .inr (.inl (worn.1.command told))
  · exact .inr (.inr (Nat.lt_of_le_of_lt worn.1.light less))

omit [Clock T] [Resumable T P] in
theorem Spends.sooner (worn : Wears flag m.host before.host) (spends : Spends dead before m') :
    Spends dead m m' :=
  spends.imp_right (.imp_right fun less => Nat.lt_of_lt_of_le less worn.light)

omit [Clock T] in
theorem Heeded.later {h h' : Host T} (heeded : Heeded flag h) (leads : Leads flag h h') :
    Heeded flag h' := by
  obtain ⟨ending, onTerminate, workerStop, -⟩ := leads
  simp only [Heeded, Minded, Stops, Host.canStop, ending, onTerminate] at heeded ⊢
  cases workerStop with
  | inl same =>
    rw [same]
    exact heeded
  | inr reached =>
    rw [reached]
    exact ⟨heeded.2, heeded.2⟩

variable (mortal : Mortal dead (Wears (T := T) flag))
include mortal

omit [Clock T] in
theorem frugal_of_mortal : Frugal T P := ⟨fun h p => (mortal.moves h p).light⟩

theorem leads_shared : Shared (Along dead (Leads (T := T) flag)) :=
  mild_leads.along ⟨fun h p => (mortal.moves h p).toLeads, mortal.stays⟩

theorem wears_patient : Patient (Along dead (Wears (T := T) flag)) where
  refl m := ⟨.refl m.host, id⟩
  trans one two := ⟨one.1.trans two.1, fun gone => two.2 (one.2 gone)⟩
  incident call m := by
    have := frugal_of_mortal mortal
    apply (((leads_shared mortal).incident call m).and (incident_lighter call)).imp
    · exact fun _ _ both => ⟨⟨both.1.1, both.2⟩, both.1.2⟩
    · exact fun _ _ both => ⟨⟨both.1.1, Nat.le_of_lt both.2⟩, both.1.2⟩
  await m := by
    have := frugal_of_mortal mortal
    apply (((leads_shared mortal).await m).and await_uses).imp
    · exact fun _ _ both => ⟨⟨both.1.1, both.2.1⟩, both.1.2⟩
    · exact fun _ _ both => ⟨⟨both.1.1, both.2.1⟩, both.1.2⟩
  stirs p stirs := by
    refine ⟨?_, id⟩
    cases stirs with
    | reads n => exact wears_of_worn (steady_worn.console _ n)
    | passes d => exact wears_of_worn (steady_worn.clock _ d)
    | writes text => exact wears_of_worn (steady_worn.stderr _ text)
    | tells e => exact wears_of_worn (worn_emit _ e)

theorem await_spends (minded : Minded m.host) : Ends Os.await m (fun _ m' => Spends dead m m')
    fun f m' => Spends dead m m' ∨ f = .nothingToStop := by
  have := frugal_of_mortal mortal
  apply await_ends.imp
  · intro _ m' waited
    obtain less | ⟨possible, rfl⟩ := waited
    · exact .inr (.inr less)
    · have stops := minded.resolve_right fun never => by simp [possible] at never
      exact .inr (.inl stops.told)
  · intro f m' waited
    obtain less | ⟨nobody, -⟩ := waited
    · exact .inl (.inr (.inr less))
    · exact .inr nobody

theorem waitFor_spends (minded : Minded m.host) :
    Ends (Os.waitFor .command interval) m (fun _ m' => Spends dead m m') fun _ _ => True := by
  simp only [Os.waitFor, Os.isSet, ends_bind, ends_asks]
  cases told : m.host.isSet .command with
  | true => exact .inr (.inl told)
  | false =>
    have begun : Minded (m.host.emit (.wait interval)) := minded
    simp only [Bool.false_eq_true, if_false, ends_bind, ends_emits, ends_asks, ends_onlyIf]
    apply (await_spends mortal (m := ⟨m.host.emit (.wait interval), m.prog⟩) begun).well
    intro _ m' spends
    split
    · exact spends
    · exact spends

theorem awaitConsole_spends (minded : Minded m.host) : Ends (Os.awaitConsole interval) m
    (fun _ m' => Spends dead m m') fun f m' => Spends dead m m' ∨ f = .nothingToStop := by
  simp only [Os.awaitConsole, Os.readable, ends_bind, ends_asks, ends_onlyIf]
  apply (await_spends mortal minded).normally
  intro _ m' spends
  split
  · exact spends
  · exact spends

theorem poll_spends (heeded : Heeded flag m.host) (fd : Int)
    (positive : Clock.before Clock.zero interval = true) : Ends (Os.poll fd interval) m
      (fun there m' => Spends dead m m' ∨ there = true)
      fun f m' => Spends dead m m' ∨ f = .nothingToStop := by
  have patient := wears_patient (T := T) mortal
  simp only [Os.poll, Os.readable, ends_bind, ends_asks, ends_onlyIf, ends_emits, ends_pure]
  have := frugal_of_mortal mortal
  apply ((patient.incident .poll m).and (incident_lighter .poll)).imp
  · intro _ before both
    have worn := both.1.1
    split
    · apply (awaitConsole_spends mortal (heeded.later worn.toLeads).1).imp
      · exact fun _ _ spends => .inl (spends.sooner worn)
      · exact fun _ _ fell => fell.imp_left fun spends => spends.sooner worn
    · rename_i there
      exact .inr (by simpa [imp_iff_not_or, positive] using there)
  · exact fun _ _ both => .inl (.inr (.inr both.2))

theorem read_spends (fd : Int) : Ends (Os.read fd Defaults.consoleReadSize) m
    (fun data m' => Spends dead m m' ∨ data = []) fun _ m' => Spends dead m m' := by
  simp only [Os.read, ends_bind, ends_asks, ends_changes, ends_emits, ends_pure]
  have := frugal_of_mortal mortal
  apply (incident_lighter .read).imp
  · intro _ before light
    cases text : before.host.console with
    | nil => exact .inr rfl
    | cons b rest =>
      refine .inl (.inr (.inr (Nat.lt_of_lt_of_le ?_ light)))
      simp only [Host.emit, workload, text, List.length_drop, List.length_cons,
        Defaults.consoleReadSize]
      omega
  · exact fun _ _ less => .inr (.inr less)

theorem look_spends (heeded : Heeded flag m.host) (c : Control)
    (positive : Clock.before Clock.zero interval = true) : Ends (c.look interval) m
      (fun arrival m' => Spends dead m m' ∨ arrival = .chunk []) fun _ _ => True := by
  have patient := wears_patient (T := T) mortal
  simp only [Control.look, ends_bind, ends_outcome]
  apply ((patient.poll c.fd interval m).and (poll_spends mortal heeded c.fd positive)).imp
  · intro there before both
    obtain ⟨worn, spends⟩ := both
    cases there with
    | false => exact .inl (spends.resolve_right Bool.false_ne_true)
    | true =>
      simp only [ends_bind, ends_outcome]
      apply (read_spends mortal c.fd).imp
      · exact fun data m' used =>
          used.imp (fun spends => spends.sooner worn.1) (congrArg Arrival.chunk)
      · intro f m' spends
        have used := spends.sooner worn.1
        split
        · exact .inl used
        · split
          · exact .inl used
          · trivial
  · intro f m' both
    split
    · rename_i known
      refine .inl (both.2.resolve_right ?_)
      rintro rfl
      cases known
    · trivial

-- A poll that uses nothing up has read the end of the stream, and then the channel is closed.
theorem control_spends (heeded : Heeded flag m.host) (c : Control)
    (positive : Clock.before Clock.zero interval = true) : Ends (c.poll interval) m
      (fun polled m' => Spends dead m m' ∨ polled.1.closed = true) fun _ _ => True := by
  have patient := wears_patient (T := T) mortal
  unfold Control.poll
  split
  · rename_i closed
    exact .inr closed
  · rw [ends_bind]
    apply (look_spends mortal heeded c positive).well
    intro arrival seen looked
    have logged := Within.forM patient.course fun record (_ : record ∈ (c.observe arrival).records) =>
      patient.log record.1 record.2
    rw [ends_bind]
    apply (logged seen).well
    intro _ m' worn
    cases looked with
    | inl spends => exact .inl (spends.later worn)
    | inr ended =>
      subst ended
      exact .inr (by simp [observe])

end Spending

section Bounded
open Host
variable {alive : Run T P Bool} {flag : Flag} {dead : P → Prop} {interval : T}
  {console : Option Control} {m m' tested last : Machine T P} {n : Nat} {past : List Polling}
  {exit : Exit}

-- The test of the worker, which may take turns before it is looked at, finds a dead one dead.
def Probes (flag : Flag) (dead : P → Prop) (alive : Run T P Bool) : Prop :=
  ∀ m : Machine T P, Ends alive m
    (fun living m' => Along dead (Wears flag) m m' ∧ (dead m.prog → living = false)) fun _ _ => True

variable (probes : Probes flag dead alive)
include probes

theorem Rounds.none_left (attends : Rounds alive interval console m n past exit last)
    (done : dead m.prog ∨ m.host.commandStop = true) : n = 0 := by
  have goes {tested : Machine T P} (test : alive m = .ok true tested)
      (going : tested.host.commandStop = false) : False := by
    have found := (probes m).of_ok test
    cases done with
    | inl gone => cases found.2 gone
    | inr told => exact Bool.false_ne_true (going.symm.trans (found.1.1.command told))
  cases attends with
  | waiting | ended | told | untested | failed | asked => rfl
  | waited test going => exact (goes test going).elim
  | polled test going => exact (goes test going).elim

-- A round that used something up is counted against it.
theorem Rounds.counted (spare : Nat) (later : Rounds alive interval console m' n past exit last)
    (spends : Spends dead tested m') (few : n ≤ m'.host.workload + spare + 1) :
    n + 1 ≤ tested.host.workload + spare + 1 := by
  obtain gone | told | less := spends
  · have none := later.none_left probes (.inl gone)
    omega
  · have none := later.none_left probes (.inr told)
    omega
  · omega

variable (mortal : Mortal dead (Wears (T := T) flag))
include mortal

theorem Rounds.lost_few (attends : Rounds alive interval console m n past exit last)
    (lost : Lost console) (heeded : dead m.prog ∨ Heeded flag m.host) :
    n ≤ m.host.workload + 1 := by
  induction attends with
  | waiting | ended | told | untested | failed | asked => exact Nat.zero_le _
  | waited test going _ waited later ih =>
    obtain ⟨before, found⟩ := (probes _).of_ok test
    have hears := (heeded.resolve_left fun gone => by cases found gone).later before.1.toLeads
    have spends := (waitFor_spends mortal hears.1).of_ok waited
    have worn := ((wears_patient mortal).waitFor .command interval _).of_ok waited
    have few := ih lost (.inr (hears.later worn.1.toLeads))
    exact Nat.le_trans (later.counted probes 0 spends few) (Nat.add_le_add_right before.1.light _)
  | polled test going closed => exact absurd (lost _ rfl) (Bool.eq_false_iff.mp closed)

-- However long a wait may be, not many rounds come after what can still happen is used up.
theorem Rounds.few (attends : Rounds alive interval console m n past exit last)
    (heeded : dead m.prog ∨ Heeded flag m.host) (positive : Clock.before Clock.zero interval = true) :
    n ≤ m.host.workload + 2 := by
  induction attends with
  | waiting | ended | told | untested | failed | asked => exact Nat.zero_le _
  | waited test going lost waited later =>
    have all := Rounds.waited test going lost waited later
    exact Nat.le_succ_of_le (all.lost_few probes mortal lost heeded)
  | polled test going closed saw polled later ih =>
    obtain ⟨before, found⟩ := (probes _).of_ok test
    have hears := (heeded.resolve_left fun gone => by cases found gone).later before.1.toLeads
    have worn := ((wears_patient mortal).control _ interval _).of_ok polled
    have still := hears.later worn.1.toLeads
    refine Nat.le_trans ?_ (Nat.add_le_add_right before.1.light _)
    cases (control_spends mortal hears _ positive).of_ok polled with
    | inl spends => exact later.counted probes 1 spends (ih (.inr still))
    | inr closed =>
      have gone : Lost (some _) := fun _ same => Option.some.inj same ▸ closed
      have few := later.lost_few probes mortal gone (.inr still)
      have light := worn.1.light
      simp only [Lighter] at light
      omega

end Bounded

-- A whole wait: what its rounds heard, and why it was left or that it was not.
structure Attended (alive : Run T P Bool) (checks : Nat) (stdin : Stdin) (interval : T)
    (m : Machine T P) (past : List Polling) (exit : Exit) : Prop where
  rounds : ∃ control n last, ofStdin stdin = .ok control ∧
    Rounds alive interval control m n past exit last ∧
    waitForQuit alive checks stdin interval m = exit.leads last ∧
    (exit = .waiting → n = m.host.workload + checks + 3)

section Whole
variable {alive : Run T P Bool} {checks : Nat} {stdin : Stdin} {interval : T} {m : Machine T P}

theorem waitForQuit_attended {control : Option Control} (had : ofStdin stdin = .ok control) :
    ∃ past exit, Attended alive checks stdin interval m past exit := by
  obtain ⟨n, past, exit, last, rounds, ran, left⟩ :=
    turns_attend alive interval control m (m.host.workload + checks + 3)
  refine ⟨past, exit, ⟨control, n, last, had, rounds, ?_, left⟩⟩
  rw [← ran]
  simp only [waitForQuit, had, Bind.bind, EStateM.bind, asks]

theorem Attended.left {past : List Polling} {exit : Exit} {flag : Flag} {dead : P → Prop}
    (attended : Attended alive checks stdin interval m past exit)
    (mortal : Mortal dead (Wears (T := T) flag)) (probes : Probes flag dead alive)
    (heeded : dead m.prog ∨ Heeded flag m.host)
    (positive : Clock.before Clock.zero interval = true) : exit ≠ .waiting := by
  obtain ⟨control, n, last, -, rounds, -, waiting⟩ := attended
  intro still
  have few := rounds.few probes mortal heeded positive
  have all := waiting still
  omega

end Whole
end StreamRelay.Foreground
