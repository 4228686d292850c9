import StreamRelay.Proofs.Host.Workload
import StreamRelay.Proofs.Relay.Reachable

namespace StreamRelay.Relay
variable {T : Type} [Clock T]
open Run Host

theorem ample_lighter : Ample (T := T) Lighter where
  toSteady := steady_lighter
  told _ _ := Nat.le_refl _
  raise h := Nat.le_of_eq (balanced_raise h .service)
  shut _ _ := lighter_shut
  entries _ _ := Nat.le_refl _
  selector _ := Nat.le_refl _
  take _ _ _ := lighter_alter fun s _ => by simp only [Sock.weight, List.length_drop]; omega
  hasten _ _ := lighter_alter fun _ _ => Nat.le_refl _
  dequeue _ _ _ _ _ known queue := lighter_dequeue known queue

theorem lighter_parts : Parts (T := T) (Both Lighter SameMark) (Both Lighter SameMark) :=
  ample_lighter.parts lax_mark

theorem turn_spends {m : Machine T (Relay T)} (heard : m.host.Heard) :
    Ends turn m (fun goesOn m' => goesOn = true → Spent m.host m'.host) fun _ _ => True := by
  have light := lighter_parts (T := T).rounds
  have directed := directed_parts (T := T).rounds
  simp only [turn, ends_bind]
  apply ((light.consoleAsksEnd m).and (directed.consoleAsksEnd m)).well
  intro asked looked first
  split
  · exact fun never => absurd never Bool.false_ne_true
  · rw [ends_bind]
    apply ((light.maybeResume looked).and (directed.maybeResume looked)).well
    intro _ resumed second
    have before : Lighter m.host resumed.host := steady_lighter.trans first.1.1 second.1.1
    have ready : resumed.host.Heard := (first.2.1.trans second.2.1).heard.mpr heard
    rw [ends_bind]
    refine ends_waitAndServe (ends_awaited fun _ => (select_spends ready _ _).imp ?_ ?_)
    · intro entries waited spent
      apply ((light.dispatch entries waited).and (directed.dispatch entries waited)).well
      intro _ served last _
      exact .later before (spent.lasts last.2.1 last.1.1)
    · intro f waited less
      constructor
      case broken =>
        intro broken _
        have used := less.resolve_left fun ended => by
          simp [ended, Failure.interrupted, Failure.hasKind] at broken
        exact .later before (.inr used)
      case counted => exact fun _ _ => trivial
      case foreign => exact fun _ _ => trivial

inductive Exit where
  | told
  | asked
  | failed (f : Failure)
  -- Nobody tells it to stop, not even the end of the script, so it would wait for ever.
  | spent

def Exit.leads (exit : Exit) (m : Machine T (Relay T)) :
    EStateM.Result Failure (Machine T (Relay T)) Unit :=
  match exit with
  | failed f => .error f m
  | _ => .ok () m

inductive Loops : Machine T (Relay T) → Exit → Machine T (Relay T) → Prop where
  | told : m.host.serviceStop = true → Loops m .told m
  | asked : m.host.serviceStop = false → consoleAsksEnd m = .ok true looked →
      turn m = .ok false m' → Loops m .asked m'
  | failed : m.host.serviceStop = false → turn m = .error f m' → Loops m (.failed f) m'
  | spent : ¬m.host.StopsService → Loops m .spent m
  | next : m.host.serviceStop = false → turn m = .ok true m' → Loops m' exit last →
      Loops m exit last

theorem Loops.unique {m last last' : Machine T (Relay T)} {exit exit' : Exit}
    (loops : Loops m exit last) (reason : exit ≠ .spent) (loops' : Loops m exit' last')
    (reason' : exit' ≠ .spent) : exit = exit' := by
  induction loops with
  | told told =>
    cases loops' with
    | told => rfl
    | asked going | failed going | next going => exact absurd (told.symm.trans going) nofun
    | spent => exact absurd rfl reason'
  | asked going _ ran =>
    cases loops' with
    | told told => exact absurd (told.symm.trans going) nofun
    | asked => rfl
    | failed _ ran' => exact absurd (ran.symm.trans ran') nofun
    | next _ ran' => exact absurd (ran.symm.trans ran') nofun
    | spent => exact absurd rfl reason'
  | failed going ran =>
    cases loops' with
    | told told => exact absurd (told.symm.trans going) nofun
    | asked _ _ ran' => exact absurd (ran.symm.trans ran') nofun
    | failed _ ran' =>
      cases ran.symm.trans ran'
      rfl
    | next _ ran' => exact absurd (ran.symm.trans ran') nofun
    | spent => exact absurd rfl reason'
  | spent => exact absurd rfl reason
  | next going ran _ ih =>
    cases loops' with
    | told told => exact absurd (told.symm.trans going) nofun
    | asked _ _ ran' => exact absurd (ran.symm.trans ran') nofun
    | failed _ ran' => exact absurd (ran.symm.trans ran') nofun
    | next _ ran' rest =>
      cases ran.symm.trans ran'
      exact ih reason rest
    | spent => exact absurd rfl reason'

theorem asked_of_turn {m m' : Machine T (Relay T)} (ran : turn m = .ok false m') :
    ∃ looked, consoleAsksEnd m = .ok true looked := by
  have ends : Ends turn m (fun goesOn _ => goesOn = false → ∃ looked,
      consoleAsksEnd m = .ok true looked) fun _ _ => True := by
    rw [turn, ends_bind]
    apply Ends.ran.well
    intro asked looked ran
    cases asked with
    | true => exact ends_any.well fun _ _ _ _ => ⟨looked, ran⟩
    | false =>
      simp only [Bool.false_eq_true, if_false, ends_bind, ends_pure]
      refine ends_any.well fun _ _ _ => ?_
      exact ends_any.well fun _ _ _ never => absurd never.symm Bool.false_ne_true
  exact ends.of_ok ran rfl

theorem turns_told {m : Machine T (Relay T)} {fuel : Nat} (told : m.host.serviceStop = true) :
    turns (fuel + 1) m = .ok () m := by
  simp only [turns, bind, EStateM.bind, Os.isSet, asks, Host.isSet, told]
  rfl

-- The fuel of a run is enough for the loop to be left, and where somebody hears of the end of the
-- script it is left for a reason.
theorem turns_leave (fuel : Nat) (m : Machine T (Relay T))
    (enough : m.host.Heard → m.host.serviceStop = true ∧ 0 < fuel ∨ m.host.workload + 2 ≤ fuel) :
    ∃ exit last, Loops m exit last ∧ turns fuel m = exit.leads last ∧
      (m.host.Heard → exit ≠ .spent) := by
  induction fuel generalizing m with
  | zero =>
    have never (heard : m.host.Heard) : False := by
      have none := enough heard
      omega
    exact ⟨.spent, m, .spent fun stops => never (.inl stops), rfl, fun heard => (never heard).elim⟩
  | succ fuel ih =>
    cases stopped : m.host.serviceStop with
    | true => exact ⟨.told, m, .told stopped, turns_told stopped, fun _ => nofun⟩
    | false =>
      have unfolded : turns (fuel + 1) m =
          (do if ← turn then turns fuel else return ()) m := by
        simp only [turns, bind, EStateM.bind, Os.isSet, asks, Host.isSet, stopped]
        rfl
      rw [unfolded]
      simp only [bind, EStateM.bind]
      cases ran : turn m with
      | error f m' => exact ⟨.failed f, m', .failed stopped ran, rfl, fun _ => nofun⟩
      | ok goesOn m' =>
        cases goesOn with
        | false =>
          obtain ⟨looked, asked⟩ := asked_of_turn ran
          exact ⟨.asked, m', .asked stopped asked ran, rfl, fun _ => nofun⟩
        | true =>
          have path := (directed_parts.rounds.turn m).of_ok ran
          have left : m'.host.Heard → m'.host.serviceStop = true ∧ 0 < fuel ∨
              m'.host.workload + 2 ≤ fuel := by
            intro heard
            have before := path.1.heard.mp heard
            have work := (enough before).resolve_left fun told => by simp [stopped] at told
            refine ((turn_spends before).of_ok ran rfl).imp (fun told => ⟨told, ?_⟩) fun less => ?_
            · omega
            · omega
          obtain ⟨exit, last, loops, ended, reason⟩ := ih m' left
          exact ⟨exit, last, .next stopped ran loops, ended, fun heard =>
            reason (path.1.heard.mpr heard)⟩

omit [Clock T] in
theorem announce_eq (m : Machine T (Relay T)) : ∃ trace stderr,
    announce m = .ok () ⟨{ m.host with trace, stderr }, m.prog⟩ := by
  cases named : m.prog.sink.dest.logged? with
  | none =>
    refine ⟨m.host.trace, m.host.stderr, ?_⟩
    simp only [announce, bind, EStateM.bind, gets, id, named]
    rfl
  | some dest =>
    obtain ⟨trace, stderr, same⟩ := logged_same m.host .info
      ("forwarding tcp " ++ m.prog.listener.address.text ++ " -> udp " ++ dest)
    refine ⟨trace, stderr, ?_⟩
    simp only [announce, bind, EStateM.bind, gets, id, named]
    rw [← same]
    rfl

section Exit
variable {act : Run T (Relay T) Unit} {m middle ended : Machine T (Relay T)} {exit : Exit}

omit [Clock T] in
theorem Exit.after_leads (left : act m = exit.leads middle) : after act m = middle := by
  unfold after
  rw [left]
  cases exit <;> rfl

omit [Clock T] in
theorem Exit.after_ensuring (last : Run T (Relay T) Unit) (left : act m = exit.leads middle) :
    after (ensuring act last) m = after last middle := by
  rw [Run.after_ensuring, Exit.after_leads left]

omit [Clock T] in
theorem Exit.ensuring_leads {last : Run T (Relay T) Unit} (left : act m = exit.leads middle)
    (good : last middle = .ok () ended) : ensuring act last m = exit.leads ended := by
  unfold ensuring
  rw [left]
  cases exit
  all_goals simp only [leads, good]

end Exit

-- A run announces itself, its loop is left in some way, and it ends from there; that does not change
-- how the loop was left unless the end fails.
structure Runs (m first : Machine T (Relay T)) (exit : Exit) (left : Machine T (Relay T)) : Prop where
  announced : announce m = .ok () first
  prog : first.prog = m.prog
  stop : first.host.serviceStop = m.host.serviceStop
  loops : Loops first exit left
  turned : ∃ fuel, turns fuel first = exit.leads left
  reason : m.host.Heard → exit ≠ .spent
  last : after run m = after close left
  ended : ∀ last, close left = .ok () last → run m = exit.leads last
  failed : ∀ f last, close left = .error f last → run m = .error f last

theorem run_runs (m : Machine T (Relay T)) : ∃ first exit left, Runs m first exit left := by
  obtain ⟨trace, stderr, announced⟩ := announce_eq m
  generalize begins : (⟨{ m.host with trace, stderr }, m.prog⟩ : Machine T (Relay T)) = first
    at announced
  have heard : m.host.Heard → first.host.Heard := begins ▸ fun before => before
  obtain ⟨exit, left, loops, turned, reason⟩ :=
    turns_leave (first.host.workload + 2) first fun _ => .inr (Nat.le_refl _)
  have spread : run m = ensuring (do turns ((← asks Host.workload) + 2)) close first := by
    simp only [run, bind, EStateM.bind, announced]
  have looped : (do turns ((← asks Host.workload) + 2) : Run T (Relay T) Unit) first =
      exit.leads left := turned
  refine ⟨first, exit, left, announced, begins ▸ rfl, begins ▸ rfl, loops, ⟨_, turned⟩,
    fun before => reason (heard before), ?_, ?_, ?_⟩
  · rw [after, spread]
    exact Exit.after_ensuring close looped
  · intro last closed
    exact spread.trans (Exit.ensuring_leads looped closed)
  · intro f last closed
    rw [spread, ensuring, looped]
    cases exit <;> simp only [Exit.leads, closed]

theorem Runs.announces {m first left : Machine T (Relay T)} {exit : Exit}
    (runs : Runs m first exit left) : Loops (after announce m) exit left := by
  rw [after, runs.announced]
  exact runs.loops

-- The end of a relay that works, as far as nothing happened that is not documented.
theorem close_whole {m : Machine T (Relay T)} (whole : Whole m) (working : m.prog.closed = false)
    (documented : Documented (after close m).host) (distinct : Distinct (after close m)) :
    close m = .ok () (after close m) ∧ Over (after close m) ∧
      offset (after close m).prog = offset m.prog := by
  have path := (ground_parts.finish ground_mark).after ground_parts.toCourse m
  have before := (path.grows whole.1).2.distinct whole.1 distinct
  have ends := (close_ends (whole.2 before) before working).and Ends.ran
  unfold Ends at ends
  cases ran : close m with
  | ok _ last =>
    have same : after close m = last := by rw [after, ran]
    rw [ran] at ends
    rw [same]
    exact ⟨rfl, ends.1⟩
  | error f last =>
    have same : after close m = last := by rw [after, ran]
    rw [ran] at ends
    exact absurd (same ▸ documented) ends.1

-- Everything that a relay had is closed, and it counts as many ends as admissions.
structure ShutDown (start : Relay T) (m : Machine T (Relay T)) : Prop where
  listener : m.host.isOpen start.listener.sock = false
  accepted : ∀ id ∈ m.host.accepted, m.host.isOpen id = false
  sink : m.host.isOpen start.sink.sock = false
  selector : m.host.selectorOpen = false
  entries : m.host.entries = []
  table : m.prog.table.live = []
  told : m.host.serviceStop = true
  finish : m.prog.stats.finish.isSome = true
  counters : m.prog.stats.counters.closed = m.prog.stats.counters.accepted

omit [Clock T] in
theorem Over.shutDown {m : Machine T (Relay T)} {start : Relay T} (finished : Over m)
    (kin : Kin start m.prog) (balance : offset m.prog = 0) : ShutDown start m := by
  have nobody := finished.coherent.roster.nobody finished.connections
  refine ⟨?_, fun id told => ?_, ?_, finished.selector, finished.entries, nobody, finished.told,
    finished.finish, ?_⟩
  · rw [← kin.listener]
    simpa [finished.listener] using finished.coherent.listening
  · cases opened : m.host.isOpen id with
    | false => rfl
    | true =>
      have enrolled := (finished.coherent.roster.accepted id told).2 opened
      rw [List.append_nil] at enrolled
      obtain ⟨c, known, rfl⟩ := List.mem_map.mp enrolled
      have shut := finished.coherent.roster.isOpen c known
      simp [opened, finished.connections c known] at shut
  · rw [← kin.sink]
    exact finished.sink
  · simp only [offset, nobody, List.length_nil] at balance
    omega

-- Nothing is left for a later end or a later run to do.
structure Done (m : Machine T (Relay T)) : Prop where
  close : ∀ later : Host T, close ⟨later, m.prog⟩ = .ok () ⟨later, m.prog⟩
  run : ∀ later : Host T, later.serviceStop = true →
    run ⟨later, m.prog⟩ = announce ⟨later, m.prog⟩ ∧
      ∃ trace stderr, announce ⟨later, m.prog⟩ = .ok () ⟨{ later with trace, stderr }, m.prog⟩

theorem close_closed {m : Machine T (Relay T)} (gone : m.prog.closed = true) :
    close m = .ok () m := by
  simp only [close, bind, EStateM.bind, gets, gone, if_true]
  rfl

theorem run_told {m : Machine T (Relay T)} (gone : m.prog.closed = true)
    (told : m.host.serviceStop = true) : run m = announce m := by
  obtain ⟨trace, stderr, announced⟩ := announce_eq m
  have again : turns ((({ m.host with trace, stderr } : Host T).workload + 1) + 1)
      ⟨{ m.host with trace, stderr }, m.prog⟩ = .ok () ⟨{ m.host with trace, stderr }, m.prog⟩ :=
    turns_told told
  have ended : close ⟨{ m.host with trace, stderr }, m.prog⟩ =
      .ok () ⟨{ m.host with trace, stderr }, m.prog⟩ := close_closed gone
  simp only [run, bind, EStateM.bind, announced, ensuring, asks]
  rw [again]
  simp only [ended]

theorem done_of_closed {m : Machine T (Relay T)} (gone : m.prog.closed = true) : Done m :=
  ⟨fun _ => close_closed gone, fun _ told => ⟨run_told gone told, announce_eq _⟩⟩

variable {start m : Machine T (Relay T)}

theorem Runs.closes {first left : Machine T (Relay T)} {exit : Exit} (runs : Runs m first exit left)
    (whole : Whole m) (working : m.prog.closed = false) (documented : Documented (after run m).host)
    (distinct : Distinct (after run m)) :
    close left = .ok () (after run m) ∧ run m = exit.leads (after run m) ∧ Over (after run m) ∧
      offset (after run m).prog = offset m.prog := by
  have ready : Whole first := (((even_rounds.announce m).of_ok runs.announced).2 whole).1
  have still : first.prog.closed = false := runs.prog ▸ working
  obtain ⟨fuel, turned⟩ := runs.turned
  have turning := (even_rounds.turns fuel).after even_course first
  have marking := (directed_parts.rounds.turns fuel).after directed_parts.toCourse first
  rw [Exit.after_leads turned] at turning marking
  have closing := (ground_parts.finish ground_mark).after ground_parts.toCourse left
  have grows := (closing.grows (turning.1.grows ready.1).1).2
  rw [runs.last] at documented distinct ⊢
  have before : Documented left.host := fun r there => documented r (grows.ages.refusals r there)
  have apart := grows.distinct (turning.1.grows ready.1).1 distinct
  obtain ⟨after, balance⟩ := turning.2 before ready
  obtain ⟨good, finished, same⟩ := close_whole after (marking.2.trans still) documented distinct
  refine ⟨good, runs.ended _ good, finished, ?_⟩
  rw [same, balance apart, runs.prog]

theorem run_shuts_down (created : Created start) (reached : Reached Operation.Counts start m)
    (working : m.prog.closed = false) (documented : Documented (after run m).host)
    (distinct : Distinct (after run m)) :
    ShutDown start.prog (after run m) ∧ Done (after run m) ∧
      ∃ exit left, Loops (after announce m) exit left ∧ close left = .ok () (after run m) ∧
        run m = exit.leads (after run m) := by
  have begun := created.begun
  obtain ⟨whole, balance⟩ := (reached.even fun _ counts => counts).2 begun.whole
  have grown := ((ground_parts.run ground_mark).after ground_parts.toCourse m).grows whole.1
  have kin := lax_kin.trans reached.ground.2 grown.2.toKin
  have balanced := balance (grown.2.distinct whole.1 distinct)
  obtain ⟨first, exit, left, runs⟩ := run_runs m
  obtain ⟨good, ran, finished, same⟩ := runs.closes whole working documented distinct
  rw [balanced, begun.offset] at same
  exact ⟨finished.shutDown kin same, done_of_closed finished.mark, exit, left, runs.announces, good, ran⟩

-- The first read is to fail in a way that nobody expects, and so is all unwatching.
@[irreducible] def stumbling : Machine Int (Relay Int) :=
  after (Operation.act (.happen [
    .fault .receive [.incident [] (some (.wrongType "broken"))],
    .fault .unregister [.incident [] (some (.key "lost")), .incident [] (some (.value "lost"))]]))
    busyRelay

theorem reached_stumbling : Reached Operation.Counts busyRelay stumbling := by
  unfold stumbling
  exact Reached.next .start (by decide +kernel) trivial (by decide +kernel)

theorem run_shuts_down_stumbling : ShutDown busyRelay.prog (after run stumbling) ∧
    endsWell run stumbling = false ∧ (after run stumbling).host.accepted = [2] ∧
      (after run stumbling).host.refusals.map (·.call) = [.unregister, .unregister, .receive] := by
  have shut := run_shuts_down created_busyRelay reached_stumbling (by decide +kernel)
    (by decide +kernel) (by decide +kernel)
  exact ⟨shut.1, by decide +kernel, by decide +kernel, by decide +kernel⟩

end StreamRelay.Relay
