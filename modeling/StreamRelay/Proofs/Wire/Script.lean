import StreamRelay.Proofs.Wire.Passage

namespace StreamRelay.Wire
variable {T : Type}

-- What a read comes to while the stream goes on.
inductive Reading where
  -- These bytes arrive, and the system sends their datagram unless it has a reason not to.
  | data (bytes : Bytes) (refusal : Option Failure)
  -- Nothing is there yet, or a signal broke the call off.
  | pause (reason : Failure)
  deriving DecidableEq, Repr

inductive Finish where
  | ended
  | broken (cause : Failure)
  deriving DecidableEq, Repr

namespace Reading

def Valid (limit : Nat) : Reading → Prop
  | data bytes refusal => bytes ≠ [] ∧ bytes.length ≤ limit ∧ ∀ f ∈ refusal, f.isOs = true
  | pause reason => reason.wouldBlock = true ∨ reason.interrupted = true

def payload? : Reading → Option (Bytes × Bool)
  | data bytes refusal => some (bytes, refusal.isNone)
  | pause _ => none

-- Whether a reader that waits for readiness leaves off here.
def blocks : Reading → Bool
  | data .. => false
  | pause reason => reason.wouldBlock

def faults (client : Nat) : Reading → List (Call × Fault T)
  | data bytes refusal =>
    [(.receive, .incident [.send client bytes] none), (.sendTo, .incident [] refusal)]
  | pause reason => [(.receive, .incident [] (some reason))]

def fault (client : Nat) : Reading → Fault T
  | data bytes _ => .incident [.send client bytes] none
  | pause reason => .incident [] (some reason)

def brings : Reading → List Payload
  | data bytes refusal => [(bytes, refusal)]
  | pause _ => []

theorem faults_eq (client : Nat) (reading : Reading) :
    (reading.faults client : List (Call × Fault T)) = demands (reading.fault client) reading.brings := by
  cases reading <;> rfl

end Reading

namespace Finish

def Valid : Finish → Prop
  | ended => True
  | broken cause => cause.isOs = true ∧ cause.wouldBlock = false ∧ cause.interrupted = false

def fails : Finish → Bool
  | ended => false
  | broken _ => true

def fault (client : Nat) : Finish → Call × Fault T
  | ended => (.receive, .incident [.finish client] none)
  | broken cause => (.receive, .incident [] (some cause))

def outcome : Finish → Relay.ReadOutcome
  | ended => .disconnect
  | broken _ => .failed

end Finish

def script (client : Nat) (readings : List Reading) (finish : Finish) : List (Call × Fault T) :=
  readings.flatMap (Reading.faults client) ++ [finish.fault client]

def payloads (readings : List Reading) : List (Bytes × Bool) := readings.filterMap Reading.payload?

def amount (payloads : List (Bytes × Bool)) (finish : Finish) : Counters where
  accepted := 0
  closed := 1
  datagrams := (payloads.filter (·.2)).length
  bytes := ((payloads.filter (·.2)).flatMap (·.1)).length
  forwardFailures := (payloads.filter (!·.2)).length
  readErrors := if finish.fails then 1 else 0

-- The script in parts: what the reads meet, and what becomes of each payload.
def plan (client : Nat) (readings : List Reading) (finish : Finish) : List (Fault T) :=
  readings.map (Reading.fault client) ++ [(finish.fault client).2]

def brought (readings : List Reading) : List Payload := readings.flatMap Reading.brings

def refusals (readings : List Reading) (k : Nat) : Option Failure := (brought readings)[k]?.bind Prod.snd

def blocks (readings : List Reading) : Nat := readings.countP Reading.blocks

theorem payloads_eq (readings : List Reading) :
    payloads readings = (brought readings).map fun payload => (payload.1, payload.2.isNone) := by
  induction readings with
  | nil => rfl
  | cons reading rest ih =>
    cases reading with
    | data => exact congrArg (_ :: ·) ih
    | pause => exact ih

theorem amount_eq (readings : List Reading) (finish : Finish) : amount (payloads readings) finish =
    tally true (some finish.outcome) (brought readings) + { closed := 1 } := by
  rw [payloads_eq]
  have sends : (Prod.snd ∘ fun payload : Payload => (payload.1, payload.2.isNone)) = Payload.sent true := by
    funext payload
    simp [Payload.sent]
  have fails : ((fun payload : Bytes × Bool => !payload.2) ∘
      fun payload : Payload => (payload.1, payload.2.isNone)) = fun payload => !payload.sent true := by
    funext payload
    simp [Payload.sent]
  apply Counters.ext_fields <;>
    cases finish <;> simp [amount, tally, Finish.fails, Finish.outcome, List.filter_map,
      List.flatMap_map, sends, fails]

-- Nothing came that was not read.
structure Silent (s : Sock T) : Prop where
  unread : s.unread = []
  intact : s.reset = false

section Follow
variable [Clock T] {limit : Nat} (client : Nat) {refusal : Option Failure} {s : Sock T}

theorem read_reading {reading : Reading} (silent : Silent s) (valid : reading.Valid limit) :
    (read limit (reading.fault client) s).1 = (match reading with
      | .data bytes _ => .ok bytes
      | .pause reason => .error reason) ∧
    Silent (read limit (reading.fault client) s).2 := by
  obtain ⟨unread, intact⟩ := silent
  cases reading with
  | data bytes refused =>
    obtain ⟨some, fits, -⟩ := valid
    have reads : read limit (Reading.fault client (.data bytes refused)) s =
        (.ok bytes, consume limit (arrive bytes s)) := by
      have full : (arrive bytes s).unread = bytes := by simp [arrive, unread]
      have whole : (arrive bytes s).reset = false := intact
      change answer limit (arrive bytes s) = _
      rw [answer, whole, full, List.take_of_length_le fits]
      simp [some]
    rw [reads]
    exact ⟨rfl, by simp [consume, arrive, unread, fits], intact⟩
  | pause reason => exact ⟨rfl, unread, intact⟩

theorem once_reading {reading : Reading} (silent : Silent s) (valid : reading.Valid limit)
    (same : ∀ payload ∈ reading.brings, payload.2 = refusal) :
    once limit (reading.fault client) refusal s =
      (if reading.blocks then some .stillOpen else none, reading.brings) := by
  have reads := (read_reading client silent valid).1
  cases reading with
  | data bytes refused =>
    have refused : refused = refusal := same _ List.mem_cons_self
    have some : bytes.isEmpty = false := by simpa using valid.1
    rw [once, reads]
    simp [some, Reading.blocks, Reading.brings, refused]
  | pause reason =>
    rw [once, reads]
    cases blocked : reason.wouldBlock with
    | true => simp [blocked, Reading.blocks, Reading.brings]
    | false =>
      have broken : reason.interrupted = true := valid.resolve_left (by simp [blocked])
      simp [blocked, broken, Reading.blocks, Reading.brings]

theorem read_finish {finish : Finish} (silent : Silent s) :
    (read limit (finish.fault client).2 s).1 = match finish with
      | .ended => .ok []
      | .broken cause => .error cause := by
  cases finish with
  | ended =>
    change (answer limit { s with ended := true }).1 = _
    simp [answer, silent.unread, silent.intact]
  | broken cause => rfl

theorem once_finish {finish : Finish} (silent : Silent s) (valid : finish.Valid) :
    once limit (finish.fault client).2 refusal s = (some finish.outcome, []) := by
  rw [once, read_finish client silent]
  cases finish with
  | ended => rfl
  | broken cause => simp [valid.2.1, valid.2.2, Finish.outcome]

-- How far it is followed: to the next place where nothing is there yet, or to the end.
theorem follow_scripted {finish : Finish} {readings : List Reading} (fuel : Nat)
    (enough : readings.length < fuel) (silent : Silent s)
    (valid : ∀ reading ∈ readings, reading.Valid limit) (ends : finish.Valid) :
    let passage : Passage T := follow limit fuel (plan client readings finish) (refusals readings) s
    (∃ rest, rest <:+ readings ∧ blocks rest < blocks readings ∧ Silent passage.last ∧
      passage.outcome = .stillOpen ∧ passage.payloads ++ brought rest = brought readings ∧
      passage.script ++ script client rest finish = script client readings finish) ∨
    (passage.outcome = finish.outcome ∧ passage.payloads = brought readings ∧
      passage.script = script client readings finish) := by
  induction fuel generalizing readings s with
  | zero => exact absurd enough (Nat.not_lt_zero _)
  | succ fuel ih =>
    cases readings with
    | nil =>
      have here : once limit ((plan client [] finish).headD .pass) (refusals [] 0) s = _ :=
        once_finish client silent ends
      rw [follow_stops here]
      refine .inr ⟨rfl, rfl, ?_⟩
      cases finish <;> rfl
    | cons reading later =>
      have first := valid reading List.mem_cons_self
      have next := (read_reading client silent first).2
      have here : once limit ((plan client (reading :: later) finish).headD .pass)
          (refusals (reading :: later) 0) s =
          (if reading.blocks then some .stillOpen else none, reading.brings) := by
        refine once_reading client silent first fun payload there => ?_
        cases reading with
        | data bytes refused =>
          cases List.mem_singleton.mp there
          rfl
        | pause reason => cases there
      have scripts : (script client (reading :: later) finish : List (Call × Fault T)) =
          demands (reading.fault client) reading.brings ++ script client later finish := by
        simp only [script, List.flatMap_cons, Reading.faults_eq, List.append_assoc]
      cases stops : reading.blocks with
      | true =>
        rw [stops, if_pos rfl] at here
        rw [follow_stops here]
        refine .inl ⟨later, List.suffix_cons _ _, ?_, next, rfl, rfl, scripts.symm⟩
        simp [blocks, stops]
      | false =>
        rw [stops, if_neg Bool.false_ne_true] at here
        rw [follow_goes here]
        have shifted : (fun k => refusals (reading :: later) (k + reading.brings.length)) =
            refusals later := by
          cases reading <;> rfl
        have same : blocks (reading :: later) = blocks later := by simp [blocks, stops]
        have after := ih (Nat.lt_of_succ_lt_succ enough) next
          fun reading there => valid reading (List.mem_cons_of_mem _ there)
        rw [shifted, same, scripts]
        obtain ⟨rest, suffix, fewer, silent, outcome, payloads, script⟩ | ⟨outcome, payloads, script⟩ := after
        · refine .inl ⟨rest, suffix.trans (List.suffix_cons _ _), fewer, silent, outcome, ?_, ?_⟩
          · exact (List.append_assoc ..).trans (congrArg (reading.brings ++ ·) payloads)
          · exact (List.append_assoc ..).trans (congrArg (demands _ _ ++ ·) script)
        · exact .inr ⟨outcome, congrArg (reading.brings ++ ·) payloads, congrArg (demands _ _ ++ ·) script⟩

end Follow

-- Where a host stands that does what a script says and nothing besides: the client has nothing
-- unread, and the sink can send.
structure Poised (client : Nat) (sock : SocketId) (sink : Sink) (told : Bool)
    (script : List (Call × Fault T)) (h : Host T) : Prop where
  faults : h.faults = script
  known : h.client? client = some sock
  silent : ∃ s, h.sock? sock = some s ∧ s.isOpen = true ∧ s.unread = [] ∧ s.reset = false
  sends : h.isOpen sink.sock = true
  told : h.serviceStop = told

section Poised
variable {client : Nat} {sock : SocketId} {sink : Sink} {told : Bool}
  {before rest : List (Call × Fault T)} {new : List Bytes} {s s' : Sock T} {h h' : Host T}

theorem Poised.went (poised : Poised client sock sink told before h) (known : h.sock? sock = some s)
    (isOpen : s.isOpen = true) (akin : s.Akin s') (silent : Silent s')
    (went : Went sock s' rest new h h') : Poised client sock sink told rest h' where
  faults := went.faults
  known := (client?_of_clients (went.clients known akin.client) client).trans poised.known
  silent := ⟨s', went.known (Host.lt_of_sock? known), akin.isOpen.trans isOpen, silent.unread, silent.intact⟩
  sends := (went.isOpen known akin.isOpen _).trans poised.sends
  told := went.serviceStop.trans poised.told

theorem Poised.own (poised : Poised client sock sink told before h) {limit : Nat}
    {readings : List Reading} {finish : Finish} (valid : ∀ reading ∈ readings, reading.Valid limit)
    (ends : finish.Valid) : ∀ fault ∈ plan client readings finish, fault.own h sock = true := by
  have isOs {f : Failure} (kind : f.wouldBlock = true ∨ f.interrupted = true) : f.isOs = true := by
    cases f with
    | os => rfl
    | _ => simp [Failure.wouldBlock, Failure.interrupted, Failure.hasKind] at kind
  intro fault there
  obtain first | last := List.mem_append.mp there
  · obtain ⟨reading, member, rfl⟩ := List.mem_map.mp first
    have valid := valid reading member
    cases reading with
    | data => simp [Fault.own, Reading.fault, Fault.actions, Fault.failure?, Action.concerns, poised.known]
    | pause => simp [Fault.own, Reading.fault, Fault.actions, Fault.failure?, isOs valid]
  · cases List.mem_singleton.mp last
    cases finish with
    | ended => simp [Fault.own, Finish.fault, Fault.actions, Fault.failure?, Action.concerns, poised.known]
    | broken => simp [Fault.own, Finish.fault, Fault.actions, Fault.failure?, ends.1]

end Poised

theorem refuses_of_valid {limit : Nat} {readings : List Reading}
    (valid : ∀ reading ∈ readings, reading.Valid limit) (k : Nat) :
    ∀ f ∈ refusals readings k, f.isOs = true := by
  intro f refused
  obtain ⟨payload, there, reason⟩ := Option.bind_eq_some_iff.mp refused
  obtain ⟨reading, member, brings⟩ := List.mem_flatMap.mp (List.mem_of_getElem? there)
  have valid := valid reading member
  cases reading with
  | data =>
    cases List.mem_singleton.mp brings
    exact valid.2.2 f reason
  | pause => cases brings

end StreamRelay.Wire
