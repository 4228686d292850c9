import StreamRelay.Crew.Serve
import StreamRelay.Proofs.Relay.Creation
import StreamRelay.Proofs.Wire.Draining

namespace StreamRelay.Wire
variable {T : Type}
open Run

-- The readings without the pauses between them.
def solid (readings : List Reading) : List Reading := readings.filter (·.payload?.isSome)

theorem payloads_solid (readings : List Reading) : payloads (solid readings) = payloads readings := by
  induction readings with
  | nil => rfl
  | cons reading rest ih =>
    cases reading with
    | data => exact congrArg (_ :: ·) ih
    | pause => exact ih

structure Waiting (goal : Goal) (readings : List Reading) (m : Machine T (Crew T)) : Prop where
  due : Due goal readings m.host m.prog.stats.counters
  solid : ∀ reading ∈ readings, reading.payload?.isSome = true
  valid : ∀ reading ∈ readings, reading.Valid m.prog.bufferSize
  ends : goal.finish.Valid
  sink : m.prog.sink = goal.sink
  told : goal.told = false

variable [Clock T] {goal : Goal} {readings : List Reading} {h : Host T} {c : Crew T}

-- A thread reads once, where no pause comes between.
theorem crew_readOnce {id : SocketId} {s : Sock T} {fault : Fault T} {refusal : Option Failure}
    {rest : List (Call × Fault T)} (peer : Address) (refuses : ∀ f ∈ refusal, f.isOs = true)
    (next : h.faults = demands fault (once c.bufferSize fault refusal s).2 ++ rest)
    (known : h.sock? id = some s) (isOpen : s.isOpen = true) (own : fault.own h id = true)
    (told : h.serviceStop = false)
    (patient : ∀ f, (read c.bufferSize fault s).1 = .error f →
      f.wouldBlock = false ∧ f.interrupted = false) :
    Ends (Crew.readOnce id peer) ⟨h, c⟩
      (fun goesOn m' =>
        let here := once c.bufferSize fault refusal s
        goesOn = here.1.isNone ∧
        ∃ h', Went id (read c.bufferSize fault s).2 rest (here.2.map Prod.fst) h h' ∧
          m' = ⟨h', c.count (· + tally (h.isOpen c.sink.sock) here.1 here.2)⟩)
      fun _ _ => False := by
  have counts {f : Counters → Counters} {outcome : Option Relay.ReadOutcome} {payloads : List Payload}
      (same : ∀ n, n + tally (h.isOpen c.sink.sock) outcome payloads = f n) :
      c.count f = c.count (· + tally (h.isOpen c.sink.sock) outcome payloads) :=
    congrArg (Crew.count · c) (funext fun n => (same n).symm)
  simp only [Crew.readOnce, ends_bind, ends_gets]
  apply (receive_own (p := c) c.bufferSize next known isOpen own).normally
  intro result m' reached
  obtain ⟨rfl, h', went, rfl⟩ := reached
  cases met : (read c.bufferSize fault s).1 with
  | ok data =>
    have step : once c.bufferSize fault refusal s =
        if data.isEmpty then (some .disconnect, []) else (none, [(data, refusal)]) := by rw [once, met]
    rw [step] at went ⊢
    by_cases nothing : data.isEmpty = true
    · simp only [if_pos nothing] at went ⊢
      refine ⟨rfl, h', went, congrArg (Machine.mk h') ?_⟩
      exact counts (f := fun n => n) fun n => add_tally_nil n _ (some .disconnect) (by simp)
    · simp only [if_neg nothing] at went ⊢
      simp only [ends_bind, ends_gets, ends_sets, ends_pure]
      have akin := read_akin c.bufferSize fault s
      have there := went.known (Host.lt_of_sock? known)
      apply (forward_own (p := c) refuses went.faults there c.sink data).normally
      intro sent m' reached
      obtain ⟨rfl, h'', gone, rfl⟩ := reached
      rw [went.isOpen known akin.isOpen]
      refine ⟨rfl, h'', went.trans gone, congrArg (Machine.mk h'') ?_⟩
      exact counts fun n => add_tally_payload n _ (data, refusal)
  | error f =>
    obtain ⟨goes, on⟩ := patient f met
    have step : once c.bufferSize fault refusal s = (some .failed, []) := by simp [once, met, goes, on]
    have heard : h'.serviceStop = false := went.serviceStop.trans told
    rw [step] at went ⊢
    simp only [isOs_of_read own met, if_true, Crew.noteReadError, Os.isSet, ends_bind, ends_asks,
      Host.isSet, heard, Bool.false_eq_true, if_false, ends_log, ends_sets, ends_pure]
    refine ⟨rfl, _, went.logged .warning _, congrArg (Machine.mk _) ?_⟩
    exact counts fun n => add_tally_failed n _

theorem crew_reads {reading : Reading} (peer : Address)
    (waiting : Waiting goal (reading :: readings) ⟨h, c⟩) :
    Ends (Crew.readOnce goal.sock peer) ⟨h, c⟩
      (fun goesOn m' => goesOn = true ∧ Waiting goal readings m') fun _ _ => False := by
  have due := waiting.due
  have valid := waiting.valid reading List.mem_cons_self
  have solid := waiting.solid reading List.mem_cons_self
  have clear : h.isOpen c.sink.sock = true := waiting.sink ▸ due.poised.sends
  obtain ⟨s, there, isOpen, unread, intact⟩ := due.poised.silent
  obtain ⟨reads, silent⟩ := read_reading goal.client ⟨unread, intact⟩ valid
  cases reading with
  | pause reason => exact absurd solid Bool.false_ne_true
  | data bytes refusal =>
    have here : once c.bufferSize (Reading.fault goal.client (.data bytes refusal)) refusal s = _ :=
      once_reading goal.client ⟨unread, intact⟩ valid fun payload there =>
        congrArg Prod.snd (List.mem_singleton.mp there)
    have own := due.poised.own waiting.valid waiting.ends _ List.mem_cons_self
    have next : h.faults = demands (Reading.fault goal.client (.data bytes refusal))
        (once c.bufferSize (Reading.fault goal.client (.data bytes refusal)) refusal s).2 ++
          script goal.client readings goal.finish := by
      rw [here]
      exact due.poised.faults
    apply (crew_readOnce peer valid.2.2 next there isOpen own (due.poised.told.trans waiting.told)
      fun f broken => absurd (reads.symm.trans broken) nofun).normally
    intro goesOn m' reached
    obtain ⟨rfl, h', went, rfl⟩ := reached
    rw [here] at went ⊢
    rw [clear]
    have onward : Due goal readings h' (c.stats.counters + tally true none _) :=
      due.onward there isOpen (read_akin _ _ s) silent (by simp) rfl went
    refine ⟨rfl, onward, ?_, ?_, waiting.ends, waiting.sink, waiting.told⟩
    · exact fun later member => waiting.solid later (List.mem_cons_of_mem _ member)
    · exact fun later member => waiting.valid later (List.mem_cons_of_mem _ member)

theorem crew_reads_end (peer : Address) (waiting : Waiting goal [] ⟨h, c⟩) :
    Ends (Crew.readOnce goal.sock peer) ⟨h, c⟩
      (fun goesOn m' => goesOn = false ∧ Drained goal m'.host m'.prog.stats.counters)
      fun _ _ => False := by
  have due := waiting.due
  have ends := waiting.ends
  have clear : h.isOpen c.sink.sock = true := waiting.sink ▸ due.poised.sends
  obtain ⟨s, there, isOpen, unread, intact⟩ := due.poised.silent
  have here : once c.bufferSize (goal.finish.fault goal.client).2 none s = _ :=
    once_finish goal.client ⟨unread, intact⟩ ends
  have own := due.poised.own waiting.valid ends _ List.mem_cons_self
  have next : h.faults = demands (goal.finish.fault goal.client).2
      (once c.bufferSize (goal.finish.fault goal.client).2 none s).2 ++ [] := by
    rw [here, due.poised.faults]
    cases goal.finish <;> rfl
  have patient (f : Failure) (broken : (read c.bufferSize (goal.finish.fault goal.client).2 s).1 =
      .error f) : f.wouldBlock = false ∧ f.interrupted = false := by
    rw [read_finish goal.client ⟨unread, intact⟩] at broken
    generalize goal.finish = finish at broken ends
    cases finish with
    | ended => cases broken
    | broken cause =>
      cases broken
      exact ends.2
  apply (crew_readOnce peer (by simp) next there isOpen own (due.poised.told.trans waiting.told)
    patient).normally
  intro goesOn m' reached
  obtain ⟨rfl, h', went, rfl⟩ := reached
  rw [here] at went ⊢
  rw [clear]
  exact ⟨rfl, due.drained went⟩

theorem crew_reads_on (peer : Address) (fuel : Nat) (enough : readings.length < fuel)
    (waiting : Waiting goal readings ⟨h, c⟩) :
    Ends (Crew.readFor goal.sock peer fuel) ⟨h, c⟩
      (fun _ m' => Drained goal m'.host m'.prog.stats.counters) fun _ _ => False := by
  induction fuel generalizing readings h c with
  | zero => exact absurd enough (Nat.not_lt_zero _)
  | succ fuel ih =>
    rw [Crew.readFor, ends_bind]
    cases readings with
    | nil =>
      apply (crew_reads_end peer waiting).normally
      intro goesOn m' reached
      obtain ⟨rfl, drained⟩ := reached
      exact drained
    | cons reading rest =>
      apply (crew_reads peer waiting).normally
      intro goesOn m' reached
      obtain ⟨rfl, next⟩ := reached
      exact ih (Nat.lt_of_succ_lt_succ enough) next

theorem crew_attends (peer : Address) (waiting : Waiting goal readings ⟨h, c⟩) :
    Ends (Crew.attend goal.sock peer) ⟨h, c⟩
      (fun _ m' => m'.host.offers = goal.offers ∧ m'.prog.stats.counters = goal.counters ∧
        m'.host.isOpen goal.sock = false ∧ goal.sock ∉ m'.prog.clients)
      fun _ _ => False := by
  have enough := Nat.lt_succ_of_lt (Nat.lt_of_succ_le waiting.due.workload)
  simp only [Crew.attend, ends_bind, ends_ensuring, ends_asks]
  apply (crew_reads_on peer _ enough waiting).imp
  · intro _ m' drained
    simp only [ends_close, ends_log, ends_sets]
    have logged := Host.calm_flows.steady.logged (m'.host.shut goal.sock) .info
      ("client " ++ peer.text ++ " disconnected")
    obtain ⟨trace, stderr, same⟩ := (m'.host.shut goal.sock).logged_same .info
      ("client " ++ peer.text ++ " disconnected")
    refine ⟨?_, drained.counters, ?_, ?_⟩
    · rw [logged.offers, (Host.flows_shut m'.host goal.sock).offers, drained.offers]
    · rw [same]
      exact Host.isOpen_shut.trans (if_pos rfl)
    · simp [Crew.untrack, Crew.count]
  · exact fun _ _ never => never.elim

-- What became of a client: its payloads were offered, all is counted, and its socket is closed.
structure Served (sock : SocketId) (readings : List Reading) (finish : Finish) (h h' : Host T)
    (c c' : Counters) : Prop where
  offers : h'.offers = h.offers ++ (payloads readings).map fun payload => (some sock, payload.1)
  counters : c' = c + amount (payloads readings) finish
  closed : h'.isOpen sock = false

-- However the readings are cut up by pauses, one event for each drain makes the relay do for its
-- client what a thread does that meets the readings alone.
theorem readers_agree {readings : List Reading} {finish : Finish} {relay : Machine T (Relay T)}
    {crew : Machine T (Crew T)} {client client' : Nat} {sock sock' : SocketId} {told : Bool}
    (valid : ∀ reading ∈ readings,
      reading.Valid relay.prog.config.bufferSize ∧ reading.Valid crew.prog.bufferSize)
    (ends : finish.Valid)
    (there : Poised client sock relay.prog.sink told (script client readings finish) relay.host)
    (other : sock ≠ relay.prog.listener.sock)
    (known : ∃ conn, relay.prog.table.connection? sock = some conn ∧ conn.closed = false)
    (there' : Poised client' sock' crew.prog.sink false
      (script client' (solid readings) finish) crew.host)
    (events : Nat) (enough : blocks readings < events) (fd : Int) (peer : Address) :
    Ends (Relay.dispatch (List.replicate events (fd, ⟨sock, some sock⟩))) relay
      (fun _ m => Served sock readings finish relay.host m.host
          relay.prog.stats.counters m.prog.stats.counters ∧
        m.prog.table.contains sock = false)
      (fun _ _ => False) ∧
    Ends (Crew.attend sock' peer) crew
      (fun _ m => Served sock' readings finish crew.host m.host
          crew.prog.stats.counters m.prog.stats.counters ∧
        sock' ∉ m.prog.clients)
      fun _ _ => False := by
  constructor
  · obtain ⟨conn, found, alive⟩ := known
    have attending : Attending ⟨client, sock, relay.prog.sink, finish, told,
        relay.host.offers ++ offersOf sock readings,
        relay.prog.stats.counters + amount (payloads readings) finish⟩ conn readings relay :=
      ⟨⟨there, rfl, rfl⟩, fun reading member => (valid reading member).1, ends, rfl, other, found, alive⟩
    apply (relay_dispatches fd events enough attending).normally
    intro _ m gone
    exact ⟨⟨gone.offers, gone.counters, gone.closed⟩, gone.untracked⟩
  · have waiting : Waiting ⟨client', sock', crew.prog.sink, finish, false,
        crew.host.offers ++ offersOf sock' (solid readings),
        crew.prog.stats.counters + amount (payloads (solid readings)) finish⟩
        (solid readings) crew := by
      refine ⟨⟨there', rfl, rfl⟩, ?_, ?_, ends, rfl, rfl⟩
      · exact fun reading member => (List.mem_filter.mp member).2
      · exact fun reading member => (valid reading (List.mem_filter.mp member).1).2
    apply (crew_attends peer waiting).normally
    intro _ m reached
    obtain ⟨offers, counters, closed, untracked⟩ := reached
    rw [offersOf, payloads_solid] at offers
    rw [payloads_solid] at counters
    exact ⟨⟨offers, counters, closed⟩, untracked⟩

-- One byte goes out, a signal comes in between, then nothing is there for a while; the second byte
-- is refused, and in the end the client is gone.
def chequered : List Reading :=
  [.data [104] none, .pause (.os (.ofNumber 4 "Interrupted system call")), .pause (.os .wouldBlock),
    .data [105] (some (.os (.ofNumber 111 "Connection refused")))]

def scriptedHost (readings : List Reading) (finish : Finish) : Host Int where
  clock := 0
  sockets := [{ fd := 3, transport := .datagram }, { fd := 4, transport := .stream },
    { fd := 5, transport := .stream, client := some 0 }]
  faults := script 0 readings finish

theorem poised_scriptedHost (readings : List Reading) (finish : Finish) :
    Poised 0 2 ⟨0, Relay.plainConfig.udp⟩ false (script 0 readings finish)
      (scriptedHost readings finish) :=
  ⟨rfl, rfl, ⟨_, rfl, rfl, rfl, rfl⟩, rfl, rfl⟩

def scriptedRelay (readings : List Reading) (finish : Finish) : Machine Int (Relay Int) :=
  ⟨scriptedHost readings finish, {
    config := Relay.plainConfig, pollTimeout := 500, sink := ⟨0, Relay.plainConfig.udp⟩
    listener := ⟨1, Relay.plainConfig.listen, false, none⟩, stats := Stats.starting 0
    table := ⟨[⟨2, ⟨"10.0.0.1", (5000 : Int)⟩, 5, true, false⟩], [(5, 2)]⟩ }⟩

def scriptedCrew (readings : List Reading) (finish : Finish) : Machine Int (Crew Int) :=
  ⟨scriptedHost readings finish, {
    bufferSize := 1, sock := 1, address := Relay.plainConfig.listen
    sink := ⟨0, Relay.plainConfig.udp⟩, stats := Stats.starting 0, clients := [2] }⟩

theorem readers_agree_chequered :
    Ends (Relay.dispatch (List.replicate 2 (5, ⟨2, some 2⟩)))
      (scriptedRelay chequered (.broken (.os .resetByPeer)))
      (fun _ m => Served 2 chequered (.broken (.os .resetByPeer))
          (scriptedHost chequered (.broken (.os .resetByPeer))) m.host {} m.prog.stats.counters ∧
        m.prog.table.contains 2 = false)
      (fun _ _ => False) ∧
    Ends (Crew.attend 2 ⟨"10.0.0.1", (5000 : Int)⟩)
      (scriptedCrew (solid chequered) (.broken (.os .resetByPeer)))
      (fun _ m => Served 2 chequered (.broken (.os .resetByPeer))
          (scriptedHost (solid chequered) (.broken (.os .resetByPeer))) m.host {}
          m.prog.stats.counters ∧
        2 ∉ m.prog.clients)
      fun _ _ => False := by
  have valid : ∀ reading ∈ chequered, reading.Valid 1 := by
    simp [chequered, Reading.Valid, Failure.isOs, Failure.wouldBlock, Failure.interrupted, Failure.hasKind,
      OsError.wouldBlock, OsError.ofNumber, OsKind.ofNumber]
  have ends : (Finish.broken (.os .resetByPeer)).Valid := ⟨rfl, rfl, rfl⟩
  exact readers_agree (fun reading there => ⟨valid reading there, valid reading there⟩) ends
    (poised_scriptedHost _ _) (by decide) ⟨_, rfl, rfl⟩ (poised_scriptedHost _ _) 2 (by decide) 5 _

end StreamRelay.Wire
