import StreamRelay.Proofs.Wire.Script

namespace StreamRelay.Wire
variable {T : Type}
open Run

-- What is to have been offered and counted when the stream is over.
structure Goal where
  client : Nat
  sock : SocketId
  sink : Sink
  finish : Finish
  told : Bool
  offers : List (Option SocketId × Bytes)
  counters : Counters

def offersOf (sock : SocketId) (readings : List Reading) : List (Option SocketId × Bytes) :=
  (payloads readings).map fun payload => (some sock, payload.1)

structure Due (goal : Goal) (readings : List Reading) (h : Host T) (c : Counters) : Prop where
  poised : Poised goal.client goal.sock goal.sink goal.told
    (script goal.client readings goal.finish) h
  offers : h.offers ++ offersOf goal.sock readings = goal.offers
  counters : c + amount (payloads readings) goal.finish = goal.counters

structure Drained (goal : Goal) (h : Host T) (c : Counters) : Prop where
  faults : h.faults = []
  offers : h.offers = goal.offers
  counters : { c with closed := c.closed + 1 } = goal.counters

variable {goal : Goal} {readings : List Reading} {h h' : Host T} {c : Counters}

section Went
variable {s s' : Sock T} {new : List Payload}

theorem offersOf_eq (sock : SocketId) (readings : List Reading) :
    offersOf sock readings = ((brought readings).map Prod.fst).map fun data => (some sock, data) := by
  simp only [offersOf, payloads_eq, List.map_map]
  rfl

theorem Due.onward {rest : List Reading} {calm : Option Relay.ReadOutcome}
    (due : Due goal readings h c) (known : h.sock? goal.sock = some s) (isOpen : s.isOpen = true)
    (akin : s.Akin s') (silent : Silent s') (good : calm ≠ some .failed)
    (parts : new ++ brought rest = brought readings)
    (went : Went goal.sock s' (script goal.client rest goal.finish) (new.map Prod.fst) h h') :
    Due goal rest h' (c + tally true calm new) where
  poised := due.poised.went known isOpen akin silent went
  offers := by
    rw [← due.offers, went.offers, List.append_assoc, offersOf_eq, offersOf_eq, ← parts,
      List.map_append, List.map_append]
  counters := by
    calc c + tally true calm new + amount (payloads rest) goal.finish
        = c + (tally true calm new + tally true (some goal.finish.outcome) (brought rest) +
            { closed := 1 }) := by rw [amount_eq, add_assoc, add_assoc]
      _ = c + amount (payloads readings) goal.finish := by rw [tally_append true good, parts, amount_eq]
      _ = goal.counters := due.counters

theorem Due.drained (due : Due goal readings h c)
    (went : Went goal.sock s' [] ((brought readings).map Prod.fst) h h') :
    Drained goal h' (c + tally true (some goal.finish.outcome) (brought readings)) where
  faults := went.faults
  offers := by rw [← due.offers, went.offers, offersOf_eq]
  counters := by
    calc _ = c + tally true (some goal.finish.outcome) (brought readings) + { closed := 1 } :=
          (Counters.add_closed _).symm
      _ = c + amount (payloads readings) goal.finish := by rw [amount_eq, add_assoc]
      _ = goal.counters := due.counters

end Went

theorem length_script (client : Nat) (readings : List Reading) (finish : Finish) :
    readings.length + 1 ≤ (script client readings finish : List (Call × Fault T)).length := by
  induction readings with
  | nil => exact Nat.le_refl 1
  | cons reading rest ih =>
    have one : 1 ≤ (reading.faults client : List (Call × Fault T)).length := by
      cases reading <;> simp [Reading.faults]
    simp only [script, List.flatMap_cons, List.length_append, List.length_cons] at ih ⊢
    omega

theorem Due.workload (due : Due goal readings h c) : readings.length + 1 ≤ h.workload := by
  have heavy := length_le_weigh h.faults
  have long := length_script (T := T) goal.client readings goal.finish
  rw [← due.poised.faults] at long
  unfold Host.workload
  omega

section Relay
variable {r : Relay T} {conn : Connection}

structure Known (goal : Goal) (conn : Connection) (r : Relay T) : Prop where
  other : goal.sock ≠ r.listener.sock
  known : r.table.connection? goal.sock = some conn
  alive : conn.closed = false

theorem Known.sock (known : Known goal conn r) : conn.sock = goal.sock := by
  simpa using List.find?_some known.known

structure Attending (goal : Goal) (conn : Connection) (readings : List Reading)
    (m : Machine T (Relay T)) : Prop where
  due : Due goal readings m.host m.prog.stats.counters
  valid : ∀ reading ∈ readings, reading.Valid m.prog.config.bufferSize
  ends : goal.finish.Valid
  sink : m.prog.sink = goal.sink
  known : Known goal conn m.prog

theorem Attending.step (attending : Attending goal conn readings ⟨h, r⟩) {rest : List Reading}
    (fewer : ∀ reading ∈ rest, reading ∈ readings) (f : Counters → Counters)
    (due : Due goal rest h' (f r.stats.counters)) :
    Attending goal conn rest ⟨h', Relay.count f r⟩ where
  due := due
  valid reading there := attending.valid reading (fewer reading there)
  ends := attending.ends
  sink := attending.sink
  known := ⟨attending.known.other, attending.known.known, attending.known.alive⟩

theorem connection?_alter {t : Table} {sock : SocketId} {f : Connection → Connection}
    (kept : ∀ c, (f c).sock = c.sock) :
    (t.alter sock f).connection? sock = (t.connection? sock).map f := by
  have same : (fun c : Connection => decide ((if c.sock = sock then f c else c).sock = sock)) =
      fun c => decide (c.sock = sock) := by
    funext c
    split <;> simp [kept]
  simp only [Table.connection?, Table.alter, List.find?_map]
  rw [Function.comp_def, same]
  cases found : t.known.find? (·.sock = sock) with
  | none => rfl
  | some c =>
    have own : c.sock = sock := by simpa using List.find?_some found
    simp [own]

structure Gone (goal : Goal) (m : Machine T (Relay T)) : Prop where
  offers : m.host.offers = goal.offers
  counters : m.prog.stats.counters = goal.counters
  closed : m.host.isOpen goal.sock = false
  untracked : m.prog.table.contains goal.sock = false
  other : goal.sock ≠ m.prog.listener.sock
  known : ∃ c, m.prog.table.connection? goal.sock = some c ∧ c.closed = true

theorem gone_of_erased {r' : Relay T} {t : Table} {before : Connection}
    (other : goal.sock ≠ r'.listener.sock) (counters : r'.stats.counters = goal.counters)
    (found : t.connection? goal.sock = some before)
    (table : r'.table = (t.erase before.fd).alter goal.sock fun c => { c with closed := true })
    (offers : h.offers = goal.offers) : Gone goal ⟨h.shut goal.sock, r'⟩ := by
  have known : r'.table.connection? goal.sock = some { before with closed := true } := by
    rw [table, connection?_alter (f := fun c => { c with closed := true }) fun _ => rfl]
    exact congrArg _ found
  have erased : r'.table.live.lookup before.fd = none := by
    rw [table, List.lookup_eq_none_iff]
    intro entry there
    have differs : entry.1 ≠ before.fd := of_decide_eq_true (List.mem_filter.mp there).2
    simpa using differs.symm
  refine ⟨?_, counters, ?_, ?_, other, _, known, rfl⟩
  · exact (Host.flows_shut h goal.sock).offers.trans offers
  · simp [Host.isOpen_shut]
  · simp [Table.contains, known, erased]

variable [Clock T]

-- A drain comes to the next place where nothing is there yet, or to the end.
theorem relay_drains (fuel : Nat) (enough : readings.length < fuel)
    (attending : Attending goal conn readings ⟨h, r⟩) :
    Ends (Relay.drainFor conn fuel) ⟨h, r⟩
      (fun result m' =>
        (result = .stillOpen ∧ ∃ rest, blocks rest < blocks readings ∧ Attending goal conn rest m') ∨
        (result ≠ .stillOpen ∧ Known goal conn m'.prog ∧
          Drained goal m'.host m'.prog.stats.counters))
      fun _ _ => False := by
  have due := attending.due
  have same := attending.known.sock
  have clear : h.isOpen r.sink.sock = true := attending.sink ▸ due.poised.sends
  obtain ⟨s, there, isOpen, unread, intact⟩ := due.poised.silent
  let passage := follow r.config.bufferSize fuel (plan goal.client readings goal.finish)
    (refusals readings) s
  have akin : s.Akin passage.last := follow_akin
  have own := due.poised.own attending.valid attending.ends
  rw [← same] at there own
  have drains (rest : List (Call × Fault T)) (next : h.faults = passage.script ++ rest) :=
    drainFor_own (r := r) fuel own (refuses_of_valid attending.valid) next there isOpen
  obtain ⟨rest, suffix, fewer, silent, waits, parts, faults⟩ | ⟨finishes, whole, faults⟩ :=
    follow_scripted goal.client fuel enough ⟨unread, intact⟩ attending.valid attending.ends
  · apply (drains _ (due.poised.faults.trans faults.symm)).normally
    intro result m' reached
    obtain ⟨rfl, h', went, rfl⟩ := reached
    rw [same] at went there
    refine .inl ⟨waits, rest, fewer, ?_⟩
    rw [clear]
    refine attending.step (fun reading member => suffix.subset member) _ ?_
    exact due.onward there isOpen akin silent (by simp [waits]) parts went
  · have faults := due.poised.faults.trans (faults.symm.trans (List.append_nil _).symm)
    apply (drains [] faults).normally
    intro result m' reached
    obtain ⟨rfl, h', went, rfl⟩ := reached
    rw [same, whole] at went
    rw [finishes, whole, clear]
    refine .inr ⟨?_, ⟨attending.known.other, attending.known.known, attending.known.alive⟩, due.drained went⟩
    cases goal.finish <;> simp [Finish.outcome]

theorem unwatch_undisturbed (nothing : h.faults = []) :
    Ends (Relay.unwatch conn) ⟨h, r⟩ (fun _ m' => m'.host.offers = h.offers ∧ m'.prog = r)
      fun _ _ => False := by
  simp only [Relay.unwatch, Os.unregister, ends_bind, ends_outcome, ends_noting, ends_asks, ends_emits,
    Os.number]
  have begun : ∀ e ∈ (h.emit (.unregister (h.fileno conn.sock))).faults, e.1 ≠ .unregister := by
    simp [Host.emit, nothing]
  apply (ends_undisturbed begun).mpr
  split
  · simp only [ends_bind, ends_asks]
    split
    · simp only [ends_fails, Failure.isKey, Bool.true_or, if_true, ends_log]
      exact ⟨Eq.trans (Host.calm_flows.steady.logged _ _ _).offers rfl, trivial⟩
    · exact ⟨rfl, rfl⟩
  · simp only [ends_bind, ends_asks]
    split
    · exact ⟨rfl, rfl⟩
    · simp only [ends_fails, Failure.isKey, Failure.isValue, Bool.or_true, if_true, ends_log]
      exact ⟨Eq.trans (Host.calm_flows.steady.logged _ _ _).offers rfl, trivial⟩

theorem teardown_gone (known : Known goal conn r) (drained : Drained goal h r.stats.counters) :
    Ends (Relay.endOf conn) ⟨h, r⟩ (fun _ m' => Gone goal m') fun _ _ => False := by
  have found := known.known
  have sock := known.sock
  simp only [Relay.endOf, Relay.teardown, ends_bind, ends_gets]
  rw [sock, found]
  simp only [known.alive, Bool.false_eq_true, if_false, ends_bind, ends_onlyIf]
  split
  · simp only [Relay.release, ends_bind]
    apply (unwatch_undisturbed drained.faults).normally
    intro _ m' reached
    obtain ⟨h', p'⟩ := m'
    obtain ⟨offers, same⟩ := reached
    simp only at offers same
    subst same
    simp only [ends_sets, ends_close, sock]
    have noted : (p'.table.alter goal.sock fun c => { c with registered := false }).connection?
        goal.sock = (p'.table.connection? goal.sock).map fun c => { c with registered := false } :=
      connection?_alter fun _ => rfl
    rw [found] at noted
    exact gone_of_erased known.other drained.counters noted rfl (offers.trans drained.offers)
  · simp only [ends_sets, ends_close]
    exact gone_of_erased known.other drained.counters found rfl drained.offers

theorem relay_serves (attending : Attending goal conn readings ⟨h, r⟩) :
    Ends (Relay.serve ⟨goal.sock, some goal.sock⟩) ⟨h, r⟩
      (fun _ m' => Gone goal m' ∨
        ∃ rest, blocks rest < blocks readings ∧ Attending goal conn rest m')
      fun _ _ => False := by
  have known := attending.known
  have sock := known.sock
  have enough := Nat.lt_succ_of_lt (Nat.lt_of_succ_le attending.due.workload)
  apply Relay.ends_serve
  case accepts => exact fun own => absurd own known.other
  case passes =>
    exact fun _ gone => absurd (known.alive.symm.trans (gone conn known.known)) Bool.false_ne_true
  case reads =>
    intro c _ looked _
    cases known.known.symm.trans looked
    simp only [Relay.drain, ends_bind, ends_asks]
    apply (relay_drains _ enough attending).normally
    intro result m' reached
    obtain ⟨h', p'⟩ := m'
    obtain ⟨rfl, rest, fewer, next⟩ | ⟨gone, still, drained⟩ := reached
    · exact ⟨fun _ => .inr ⟨rest, fewer, next⟩, fun other => absurd rfl other⟩
    · refine ⟨fun open' => absurd open' gone, fun _ => ?_⟩
      exact (teardown_gone still drained).normally fun _ _ gone => .inl gone

theorem relay_passes (gone : Gone goal ⟨h, r⟩) :
    Ends (Relay.serve ⟨goal.sock, some goal.sock⟩) ⟨h, r⟩ (fun _ m' => Gone goal m')
      fun _ _ => False := by
  obtain ⟨c, found, closed⟩ := gone.known
  apply Relay.ends_serve
  case accepts => exact fun own => absurd own gone.other
  case passes => exact fun _ _ => gone
  case reads =>
    intro d _ looked alive
    cases found.symm.trans looked
    exact absurd (closed.symm.trans alive) Bool.true_eq_false.mp

-- One event for each drain is enough, and more do no harm.
theorem relay_dispatches (fd : Int) (events : Nat) (enough : blocks readings < events)
    (attending : Attending goal conn readings ⟨h, r⟩) :
    Ends (Relay.dispatch (List.replicate events (fd, ⟨goal.sock, some goal.sock⟩))) ⟨h, r⟩
      (fun _ m' => Gone goal m') fun _ _ => False := by
  have passes (left : Nat) (m : Machine T (Relay T)) (gone : Gone goal m) :
      Ends (Relay.dispatch (List.replicate left (fd, ⟨goal.sock, some goal.sock⟩))) m
        (fun _ m' => Gone goal m') fun _ _ => False := by
    induction left generalizing m with
    | zero => exact gone
    | succ left ih =>
      rw [Relay.dispatch, List.replicate_succ, List.forM_eq_forM, List.forM_cons, ends_bind]
      apply (relay_passes gone).normally
      exact fun _ m' still => ih m' still
  induction events generalizing readings h r with
  | zero => exact absurd enough (Nat.not_lt_zero _)
  | succ left ih =>
    rw [Relay.dispatch, List.replicate_succ, List.forM_eq_forM, List.forM_cons, ends_bind]
    apply (relay_serves attending).normally
    intro _ m' reached
    obtain gone | ⟨rest, fewer, next⟩ := reached
    · exact passes left m' gone
    · exact ih (Nat.lt_of_lt_of_le fewer (Nat.le_of_lt_succ enough)) next

end Relay

end StreamRelay.Wire
