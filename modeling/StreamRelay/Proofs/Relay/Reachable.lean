import StreamRelay.Proofs.Relay.Creation
import StreamRelay.Proofs.Relay.Service

namespace StreamRelay.Relay
variable {T : Type}
open Run Host

inductive Operation (T : Type) where
  | happen (actions : List (Action T))
  | prepare (batches : List (Batch T))
  -- A socket of its own is taken into the table, accepted by nobody.
  | adopt (client : Incoming)
  | teardown (sock : SocketId)
  | closeAll
  | acceptAll
  | pause (delay : T)
  | maybeResume
  | dispatch (entries : List (Int × Entry))
  | console
  | wait
  | turn
  | close

variable [Clock T]

def adopt (client : Incoming) : Run T (Relay T) (Option Connection) := do
  let (host, sock) ← asks (·.addClient client)
  changes fun _ => host
  enroll sock (host.peer sock)

def awaited (timeout : T) : Run T (Relay T) (List (Int × Entry)) := do
  Os.select timeout (← overview)

namespace Operation

def act : Operation T → Run T (Relay T) Unit
  | happen actions => Os.happen actions
  | prepare batches => changes fun h => { h with batches }
  | adopt client => do let _ ← Relay.adopt client
  | teardown sock => Relay.teardown sock
  | closeAll => do let _ ← Relay.closeAll
  | acceptAll => do let _ ← Relay.acceptAll
  | pause delay => Relay.pause delay
  | maybeResume => Relay.maybeResume
  | dispatch entries => Relay.dispatch entries
  | console => do let _ ← consoleAsksEnd
  | wait => do let _ ← awaited (← gets pollTimeout)
  | turn => do let _ ← Relay.turn
  | close => Relay.close

def Counts : Operation T → Prop
  | adopt _ | teardown _ | closeAll => False
  | _ => True

end Operation

-- A relay that was not ended goes on by one operation after the other. A failure counts if its cause
-- is one that the system may have.
inductive Reached (allowed : Operation T → Prop) (start : Machine T (Relay T)) :
    Machine T (Relay T) → Prop where
  | start : Reached allowed start start
  | done : Reached allowed start m → m.prog.closed = false → allowed op → op.act m = .ok () m' →
      Reached allowed start m'
  | failed : Reached allowed start m → m.prog.closed = false → allowed op →
      op.act m = .error f m' → Documented m'.host → Reached allowed start m'

section Adopt

omit [Clock T] in
theorem settled_addClient (h : Host T) (client : Incoming) :
    Settled h (h.addClient client).1 := by
  obtain ⟨s, built, -, unused, -⟩ := addClient_appends h client
  rw [built]
  exact settled_append unused

omit [Clock T] in
theorem flows_addClient (h : Host T) (client : Incoming) : Flows h (h.addClient client).1 := by
  obtain ⟨s, built, -, -, unread, shut⟩ := addClient_appends h client
  rw [built]
  exact flows_append unread shut

omit [Clock T] in
theorem Roster.extend {m : Machine T (Relay T)} (roster : Roster [] m) {id : SocketId}
    (taken : Taken m id) (new : id ∉ socks m.prog) : Roster [id] m := by
  have once := roster.once
  rw [List.append_nil] at once
  refine ⟨roster.idle, ?_, ?_, roster.numbers, roster.live, roster.registered, roster.isOpen,
    roster.number, ?_⟩
  · intro other there
    cases List.mem_append.mp there with
    | inl enrolled => exact roster.taken other (List.mem_append_left _ enrolled)
    | inr last => exact List.mem_singleton.mp last ▸ taken
  · refine List.nodup_append.mpr ⟨once, List.nodup_singleton id, ?_⟩
    intro a enrolled b last same
    rw [List.mem_singleton.mp last] at same
    exact new (same ▸ enrolled)
  · intro other told
    obtain ⟨bounded, kept⟩ := roster.accepted other told
    refine ⟨bounded, fun opened => ?_⟩
    have enrolled := kept opened
    rw [List.append_nil] at enrolled
    exact List.mem_append_left _ enrolled

omit [Clock T] in
theorem Roster.newcomer {h : Host T} {r : Relay T} (roster : Roster [] ⟨h, r⟩)
    (based : Based ⟨h, r⟩) (client : Incoming) :
    Roster [(h.addClient client).2] ⟨(h.addClient client).1, r⟩ := by
  have stays := (settled_addClient h client based.orderly).2
  have kept := roster.holds based stays.holds
  obtain ⟨s, built, id, unused, -⟩ := addClient_appends h client
  have pending : (h.addClient client).1.pending = h.pending := by simp [built, pending, unused]
  rw [id]
  refine kept.extend ⟨by simp [built], fun waits => ?_, fun same => ?_⟩ fun there => ?_
  · rw [pending] at waits
    exact Nat.lt_irrefl _ (based.orderly.pending_lt _ waits)
  · exact Nat.ne_of_gt based.listener same
  · exact Nat.lt_irrefl _ (roster.taken _ (List.mem_append_left _ there)).bounded

theorem ends_adopt {m : Machine T (Relay T)} {client : Incoming}
    {done : Option Connection → Machine T (Relay T) → Prop}
    {failed : Failure → Machine T (Relay T) → Prop} : Ends (adopt client) m done failed ↔
      Ends (enroll (m.host.addClient client).2
        ((m.host.addClient client).1.peer (m.host.addClient client).2))
        ⟨(m.host.addClient client).1, m.prog⟩ done failed := Iff.rfl

theorem ground_adopt (client : Incoming) : Within Ground Ground (adopt (T := T) client) := by
  intro m
  rw [ends_adopt]
  have added : Ground m ⟨(m.host.addClient client).1, m.prog⟩ :=
    ⟨(settled_addClient m.host client).aged, lax_kin.refl m.prog⟩
  refine (ground_parts.enroll _ _ _).imp ?_ ?_
  · exact fun _ _ path => ground_parts.trans added path
  · exact fun _ _ path => ground_parts.trans added path

theorem streaming_adopt (client : Incoming) :
    Within Streaming Streaming (adopt (T := T) client) := by
  intro m
  rw [ends_adopt]
  refine .given _ fun streams => ?_
  have added : Streams ⟨(m.host.addClient client).1, m.prog⟩ :=
    streams.flows ⟨flows_addClient m.host client, rfl⟩
  exact enroll_streams added _ _

theorem adopt_coherent {m : Machine T (Relay T)} (coherent : Coherent m) (client : Incoming) :
    Ends (adopt client) m (fun _ => Coherent) fun _ m' => ¬Documented m'.host := by
  obtain ⟨h, r⟩ := m
  have settled := settled_addClient h client
  have added := Firm.settled coherent settled
  rw [ends_adopt]
  have newcomer := coherent.roster.newcomer coherent.based client
  apply (enroll_coherent added.based newcomer added.watch added.listening _).normally
  exact fun _ _ ended => ended.1

end Adopt

theorem Parts.act {done failed : Machine T (Relay T) → Machine T (Relay T) → Prop}
    (parts : Parts done failed)
    (mark : ∀ h (r : Relay T), done ⟨h, r⟩ ⟨h, { r with closed := true }⟩)
    (happen : ∀ actions, Within done failed (Os.happen actions))
    (prepare : ∀ batches, Within done failed (changes fun h => { h with batches }))
    (adopt : ∀ client, Within done failed (Relay.adopt client)) (op : Operation T) :
    Within done failed op.act := by
  have course := parts.toCourse
  cases op with
  | happen actions => exact happen actions
  | prepare batches => exact prepare batches
  | adopt client => exact .bind course (adopt client) fun _ => .pure course
  | teardown sock => exact parts.teardown sock
  | closeAll => exact .bind course parts.closeAll fun _ => .pure course
  | acceptAll => exact .bind course parts.acceptAll fun _ => .pure course
  | pause delay => exact parts.pause delay
  | maybeResume => exact parts.maybeResume
  | dispatch entries => exact parts.rounds.dispatch entries
  | console => exact .bind course parts.rounds.consoleAsksEnd fun _ => .pure course
  | wait =>
    refine .bind course (.gets course) fun timeout => ?_
    refine .bind course ?_ fun _ => .pure course
    exact (parts.rounds.awaited timeout).mono id course.weaken
  | turn => exact .bind course parts.rounds.turn fun _ => .pure course
  | close => exact parts.finish mark

theorem ground_act (op : Operation T) : Within Ground Ground op.act := by
  apply ground_parts.act ground_mark
  · exact fun actions =>
      Ample.keeps lax_kin ((calm_settled.mono Settled.aged Aged.trans).happen actions)
  · exact fun batches =>
      Ample.keeps lax_kin (changes_keeps fun h => (calm_settled.batches h batches).aged)
  · exact ground_adopt

theorem streaming_act [Clock.Lawful T] (op : Operation T) :
    Within Streaming Streaming op.act := by
  apply streaming_parts.act streaming_mark
  · exact fun actions => streaming_of_flows (calm_flows.happen actions)
  · exact fun batches => streaming_of_flows (changes_keeps fun h => calm_flows.batches h batches)
  · exact streaming_adopt

theorem Rounds.act {done failed : Machine T (Relay T) → Machine T (Relay T) → Prop}
    (rounds : Rounds done failed) (acceptAll : Within done failed acceptAll)
    (pause : ∀ delay, Within done failed (pause delay)) (close : Within done failed close)
    (happen : ∀ actions, Within done failed (Os.happen actions))
    (prepare : ∀ batches, Within done failed (changes fun h => { h with batches }))
    (op : Operation T) (counts : op.Counts) : Within done failed op.act := by
  have course := rounds.toCourse
  cases op with
  | happen actions => exact happen actions
  | prepare batches => exact prepare batches
  | adopt | teardown | closeAll => exact counts.elim
  | acceptAll => exact .bind course acceptAll fun _ => .pure course
  | pause delay => exact pause delay
  | maybeResume => exact rounds.maybeResume
  | dispatch entries => exact rounds.dispatch entries
  | console => exact .bind course rounds.consoleAsksEnd fun _ => .pure course
  | wait =>
    refine .bind course (.gets course) fun timeout => ?_
    refine .bind course ?_ fun _ => .pure course
    exact (rounds.awaited timeout).mono id course.weaken
  | turn => exact .bind course rounds.turn fun _ => .pure course
  | close => exact close

theorem even_act (op : Operation T) (counts : op.Counts) : Within Even EvenIf op.act := by
  have settled {act : Run T (Relay T) Unit} (keeps : Keeps Settled act) : Within Even EvenIf act :=
    (even_of_settled keeps).mono id even_course.weaken
  refine even_rounds.act even_acceptAll even_pause even_close ?_ ?_ op counts
  · exact fun actions => settled (calm_settled.happen actions)
  · exact fun batches => settled (changes_keeps fun h => calm_settled.batches h batches)

omit [Clock T] in
theorem whole_of_coherent {act : Run T (Relay T) α} (ground : Within Ground Ground act)
    (step : ∀ m, Coherent m → Distinct m →
      Ends act m (fun _ => Coherent) fun _ m' => ¬Documented m'.host)
    {m : Machine T (Relay T)} (whole : Whole m) :
    Ends act m (fun _ => Whole) fun _ m' => Documented m'.host → Whole m' := by
  have steps := Ends.given (Coherent m ∧ Distinct m) fun both => step m both.1 both.2
  have before {m' : Machine T (Relay T)} (path : Ground m m') (distinct : Distinct m') :
      Coherent m ∧ Distinct m := by
    have earlier := (path.grows whole.1).2.distinct whole.1 distinct
    exact ⟨whole.2 earlier, earlier⟩
  refine ((ground m).and steps).imp ?_ ?_
  · intro _ m' ended
    obtain ⟨path, coherent⟩ := ended
    exact ⟨(path.grows whole.1).1, fun distinct => coherent (before path distinct)⟩
  · intro _ m' ended documented
    obtain ⟨path, bad⟩ := ended
    exact ⟨(path.grows whole.1).1, fun distinct => absurd documented (bad (before path distinct))⟩

theorem whole_act (op : Operation T) {m : Machine T (Relay T)} (whole : Whole m) :
    Ends op.act m (fun _ => Whole) fun _ m' => Documented m'.host → Whole m' := by
  have counted (counts : op.Counts) :
      Ends op.act m (fun _ => Whole) fun _ m' => Documented m'.host → Whole m' := by
    refine (even_act op counts m).imp ?_ ?_
    · exact fun _ _ even => (even.2 whole).1
    · exact fun _ _ even documented => (even.2 documented whole).1
  cases op with
  | adopt client =>
    simp only [Operation.act, ends_bind]
    exact whole_of_coherent (ground_adopt client) (fun m coherent _ =>
      adopt_coherent coherent client) whole
  | teardown sock =>
    refine whole_of_coherent (ground_parts.teardown sock) (fun m coherent distinct => ?_) whole
    exact (teardown_ends coherent distinct sock).normally fun _ _ torn => torn.coherent
  | closeAll =>
    simp only [Operation.act, ends_bind]
    refine whole_of_coherent ground_parts.closeAll (fun m coherent distinct => ?_) whole
    exact (closeAll_ends coherent distinct).normally fun _ _ ended => ended.1.coherent
  | _ => exact counted trivial

namespace Reached
variable {allowed : Operation T → Prop} {start m : Machine T (Relay T)}

theorem ground (reached : Reached allowed start m) : Ground start m := by
  induction reached with
  | start => exact ground_parts.refl start
  | done _ _ _ ran ih => exact ground_parts.trans ih ((ground_act _ _).of_ok ran)
  | failed _ _ _ ran _ ih => exact ground_parts.trans ih ((ground_act _ _).of_error ran)

theorem streams [Clock.Lawful T] (reached : Reached allowed start m) (streams : Streams start) :
    Streams m := by
  induction reached with
  | start => exact streams
  | done _ _ _ ran ih => exact (streaming_act _ _).of_ok ran ih
  | failed _ _ _ ran _ ih => exact (streaming_act _ _).of_error ran ih

theorem whole (reached : Reached allowed start m) (whole : Whole start) : Whole m := by
  induction reached with
  | start => exact whole
  | done _ _ _ ran ih => exact (whole_act _ ih).of_ok ran
  | failed _ _ _ ran documented ih => exact (whole_act _ ih).of_error ran documented

theorem even (reached : Reached allowed start m) (counts : ∀ op, allowed op → op.Counts) :
    Even start m := by
  induction reached with
  | start => exact even_course.refl start
  | done _ _ permitted ran ih =>
    exact even_course.trans ih ((even_act _ (counts _ permitted) _).of_ok ran)
  | failed _ _ permitted ran documented ih =>
    obtain ⟨ground, even⟩ := (even_act _ (counts _ permitted) _).of_error ran
    exact even_course.trans ih ⟨ground, even documented⟩

theorem next {op : Operation T} (reached : Reached allowed start m)
    (working : m.prog.closed = false) (permitted : allowed op) (good : endsWell op.act m = true) :
    Reached allowed start (after op.act m) :=
  .done reached working permitted (eq_ok_of_endsWell good)

end Reached

theorem Begun.whole {m : Machine T (Relay T)} (begun : Begun m) : Whole m :=
  ⟨begun.coherent.based, fun _ => begun.coherent⟩

end StreamRelay.Relay
