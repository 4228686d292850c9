import StreamRelay.Proofs.Relay.Parts

namespace StreamRelay.Relay
variable {T : Type}
open Run Host

-- Nothing of the relay is different but its counters, and of those only what is counted for data.
def Counted (rel : Host T → Host T → Prop) (m m' : Machine T (Relay T)) : Prop :=
  rel m.host m'.host ∧ ∃ f : Counters → Counters,
    (∀ c, (f c).accepted = c.accepted ∧ (f c).closed = c.closed) ∧ m'.prog = count f m.prog

section Counted
variable {rel : Host T → Host T → Prop}

theorem Counted.trans {a b c : Machine T (Relay T)} (one : Counted rel a b)
    (trans : ∀ a b c, rel a b → rel b c → rel a c) (two : Counted rel b c) :
    Counted rel a c := by
  obtain ⟨first, f, data, eq⟩ := one
  obtain ⟨second, g, data', eq'⟩ := two
  refine ⟨trans _ _ _ first second, g ∘ f, fun c => ?_, by rw [eq', eq]; rfl⟩
  exact ⟨(data' (f c)).1.trans (data c).1, (data' (f c)).2.trans (data c).2⟩

theorem counted_of_hosted {m m' : Machine T (Relay T)} (path : Hosted rel m m') :
    Counted rel m m' := ⟨path.1, id, fun _ => ⟨rfl, rfl⟩, path.2⟩

end Counted

variable [Clock T]

structure Draws (rel : Host T → Host T → Prop) : Prop extends Lively rel where
  begun : ∀ h call id, call = .receive ∨ call = .sendTo → rel h (h.emit (.begun call (some id)))
  noted : ∀ h call id cause, call = .receive ∨ call = .sendTo → rel h (h.note call id cause)
  logged : ∀ h level text, rel h (h.logged level text)
  take : ∀ h id limit, rel h (h.alter id fun s => { s with unread := s.unread.drop limit })
  received : ∀ h id data, rel h (h.emit (.received id data))
  offered : ∀ h origin data, rel h (h.emit (.offered origin data))
  datagram : ∀ h fd data dest, rel h (h.emit (.datagram fd data dest))

namespace Draws
variable {rel : Host T → Host T → Prop}

theorem course (draws : Draws rel) : Course (Counted rel) (Counted rel) where
  refl _ := counted_of_hosted ⟨draws.refl _, rfl⟩
  trans one two := one.trans (fun _ _ _ => draws.trans) two
  weaken path := path
  falls one two := one.trans (fun _ _ _ => draws.trans) two

omit [Clock T] in
theorem quiet {act : Run T (Relay T) α} (keeps : Keeps rel act) :
    Within (Counted rel) (Counted rel) act := keeps.mono counted_of_hosted counted_of_hosted

theorem counts (draws : Draws rel) {f : Counters → Counters}
    (data : ∀ c, (f c).accepted = c.accepted ∧ (f c).closed = c.closed) :
    Within (Counted rel) (Counted rel) (Run.sets (count f)) :=
  fun m => ⟨draws.refl m.host, f, data, rfl⟩

theorem log {P : Type} (draws : Draws rel) (level : Level) (text : String) :
    Keeps (P := P) rel (Os.log level text) := changes_keeps fun h => draws.logged h level text

theorem receive (draws : Draws rel) (id : SocketId) (limit : Nat) :
    Keeps (P := Relay T) rel (Os.receive id limit) := by
  intro m
  have told := draws.begun m.host .receive id (.inl rfl)
  refine (receive_runs draws.toLively told limit).imp ?_ ?_
  · intro data m' reached
    obtain ⟨h, s, path, -, -, ⟨-, -, rfl⟩ | ⟨-, -, -, rfl⟩⟩ := reached
    · have taken := draws.trans path (draws.take h id limit)
      exact ⟨draws.trans taken (draws.received _ id data), rfl⟩
    · exact ⟨draws.trans path (draws.received h id []), rfl⟩
  · intro f m' reached
    obtain ⟨h, path, rfl⟩ := reached
    exact ⟨draws.trans path (draws.noted h .receive _ _ (.inl rfl)), rfl⟩

theorem forward (draws : Draws rel) (sink : Sink) (data : Bytes) (origin : Option SocketId) :
    Keeps (P := Relay T) rel (sink.forward data origin) := by
  apply forward_keeps draws.toLively
  · exact fun h => draws.offered h origin data
  · exact fun h => draws.begun h .sendTo sink.sock (.inr rfl)
  · exact fun h fd => draws.datagram h fd data sink.dest
  · exact fun h cause => draws.noted h .sendTo sink.sock cause (.inr rfl)
  · exact draws.logged

theorem readOnce (draws : Draws rel) (conn : Connection) :
    Within (Counted rel) (Counted rel) (Relay.readOnce conn) := by
  have course := draws.course
  refine .bind course (.gets course) fun limit => ?_
  refine .bind course (.outcome (quiet (draws.receive conn.sock limit))) fun result => ?_
  split
  · split
    · exact .pure course
    · split
      · exact .pure course
      · split
        · refine .bind course (quiet (draws.log _ _)) fun _ => ?_
          exact .bind course (draws.counts fun _ => ⟨rfl, rfl⟩) fun _ => .pure course
        · exact .fails course
  · split
    · exact .bind course (quiet (draws.log _ _)) fun _ => .pure course
    · refine .bind course (.gets course) fun sink => ?_
      refine .bind course (quiet (draws.forward sink _ _)) fun sent => ?_
      refine .bind course (draws.counts fun c => ?_) fun _ => .pure course
      cases sent <;> exact ⟨rfl, rfl⟩

end Draws

theorem drainFor_within {done failed : Machine T (Relay T) → Machine T (Relay T) → Prop}
    (course : Course done failed) {conn : Connection}
    (once : Within done failed (Relay.readOnce conn)) (fuel : Nat) :
    Within done failed (drainFor conn fuel) :=
  drainFor_composed (Within.composes course) once fuel

theorem drain_within {done failed : Machine T (Relay T) → Machine T (Relay T) → Prop}
    (course : Course done failed) {conn : Connection}
    (once : Within done failed (Relay.readOnce conn)) :
    Within done failed (Relay.drain conn) :=
  .bind course (.asks course) fun _ => drainFor_within course once _

theorem Draws.drainFor {rel : Host T → Host T → Prop} (draws : Draws rel) (conn : Connection)
    (fuel : Nat) : Within (Counted rel) (Counted rel) (Relay.drainFor conn fuel) :=
  drainFor_within draws.course (draws.readOnce conn) fuel

theorem Draws.drain {rel : Host T → Host T → Prop} (draws : Draws rel) (conn : Connection) :
    Within (Counted rel) (Counted rel) (Relay.drain conn) :=
  drain_within draws.course (draws.readOnce conn)

structure Reading (rel : Host T → Host T → Prop) : Prop extends Steady rel where
  take : ∀ h id limit, rel h (h.alter id fun s => { s with unread := s.unread.drop limit })
  received : ∀ h id data, rel h (h.emit (.received id data))
  offered : ∀ h origin data, rel h (h.emit (.offered origin data))
  datagram : ∀ h fd data dest, rel h (h.emit (.datagram fd data dest))

namespace Reading
variable {rel : Host T → Host T → Prop}

theorem draws (reading : Reading rel) : Draws rel where
  toLively := reading.toSteady.lively
  begun h _ _ _ := reading.emit h _ rfl
  noted h _ _ _ _ := reading.note h _ _ _
  logged := reading.toSteady.logged
  take := reading.take
  received := reading.received
  offered := reading.offered
  datagram := reading.datagram

theorem drain (reading : Reading rel) (conn : Connection) :
    Within (Counted rel) (Counted rel) (Relay.drain conn) := reading.draws.drain conn

end Reading

def upkeep : Event T → Bool
  | .told _ | .closed .. | .setBlocking .. | .register _ | .unregister _ | .begun .select _
  | .ready .. | .selectorClosed | .poll .. | .read .. | .log .. => true
  | _ => false

-- It says nothing of what looking after them changes; of data and of the listener's rest it may.
structure Modest (rel : Host T → Host T → Prop) : Prop extends Lively rel where
  emit : ∀ h e, upkeep e = true → rel h (h.emit e)
  note : ∀ h call id cause, call = .setBlocking ∨ call = .register ∨ call = .unregister →
    rel h (h.note call id cause)
  stderr : ∀ h text, rel h { h with stderr := text }
  console : ∀ h n, rel h { h with console := h.console.drop n }
  raise : ∀ h, rel h (h.raise .service)
  shut : ∀ h id, rel h (h.shut id)
  entries : ∀ h entries, rel h { h with entries := entries }
  selector : ∀ h, rel h h.quit
  hasten : ∀ h id, rel h (h.alter id fun s => { s with timeout := some Clock.zero })

structure Soft (same : Relay T → Relay T → Prop) : Prop where
  refl : ∀ r, same r r
  trans : ∀ {a b c}, same a b → same b c → same a c
  tend : ∀ {r r'}, Tended r r' → same r r'

def Both (rel : Host T → Host T → Prop) (same : Relay T → Relay T → Prop)
    (m m' : Machine T (Relay T)) : Prop := rel m.host m'.host ∧ same m.prog m'.prog

omit [Clock T] in
theorem both_of_keeps {rel : Host T → Host T → Prop} {same : Relay T → Relay T → Prop}
    (soft : Soft same) {act : Run T (Relay T) α} (keeps : Keeps rel act) :
    Within (Both rel same) (Both rel same) act := by
  refine keeps.mono ?_ ?_
  all_goals
    intro m m' path
    exact ⟨path.1, path.2 ▸ soft.refl m.prog⟩

namespace Modest
variable {rel : Host T → Host T → Prop} {same : Relay T → Relay T → Prop}

section Calls
variable {P : Type}

theorem logged (modest : Modest rel) (h : Host T) (level : Level) (text : String) :
    rel h (h.logged level text) :=
  logged_of (modest.refl h) (modest.emit h _ rfl) (modest.stderr h)

theorem log (modest : Modest rel) (level : Level) (text : String) :
    Keeps (P := P) rel (Os.log level text) := changes_keeps fun h => modest.logged h level text

theorem close (modest : Modest rel) (id : SocketId) : Keeps (P := P) rel (Os.close id) :=
  changes_keeps fun h => modest.shut h id

theorem closeSelector (modest : Modest rel) : Keeps (P := P) rel Os.closeSelector :=
  fun m => ⟨modest.selector m.host, rfl⟩

theorem attends (modest : Modest rel) : Attends rel where
  toLively := modest.toLively
  polled h _ _ _ := modest.emit h _ rfl
  heard h _ _ _ := modest.emit h _ rfl
  console := modest.console

variable [Resumable T P] [Idle T P]

theorem setBlocking (modest : Modest rel) (id : SocketId) :
    Keeps (P := P) rel (Os.setBlocking id false) := by
  intro m
  refine (setBlocking_runs modest.toLively false (modest.emit m.host _ rfl)).imp ?_ ?_
  · intro _ m' reached
    obtain ⟨h, s, path, -, -, rfl⟩ := reached
    exact ⟨modest.trans path (modest.hasten h id), rfl⟩
  · intro f m' reached
    obtain ⟨h, path, rfl⟩ := reached
    exact ⟨modest.trans path (modest.note h _ _ _ (.inl rfl)), rfl⟩

theorem register (modest : Modest rel) (id : SocketId) (conn : Option SocketId) :
    Keeps (P := P) rel (Os.register id conn) := by
  intro m
  have told := modest.emit m.host (.register (m.host.fileno id)) rfl
  refine (register_runs modest.toLively conn).imp ?_ ?_
  · intro _ m' reached
    obtain ⟨h, path, -, -, rfl⟩ := reached
    exact ⟨modest.trans (modest.trans told path) (modest.entries h _), rfl⟩
  · intro f m' reached
    obtain ⟨h, path, rfl⟩ := reached
    exact ⟨modest.trans (modest.trans told path) (modest.note h _ _ _ (.inr (.inl rfl))), rfl⟩

theorem unregister (modest : Modest rel) (id : SocketId) :
    Keeps (P := P) rel (Os.unregister id) := by
  intro m
  refine (unregister_runs modest.toLively (modest.emit m.host _ rfl)).imp ?_ ?_
  · intro _ m' reached
    obtain ⟨h, path, ⟨-, rfl⟩ | ⟨-, rfl⟩⟩ := reached
    all_goals exact ⟨modest.trans path (modest.entries h _), rfl⟩
  · intro f m' reached
    obtain ⟨h, path, rfl⟩ := reached
    exact ⟨modest.trans path (modest.note h _ _ _ (.inr (.inr rfl))), rfl⟩

theorem select (modest : Modest rel) (timeout : T) (overview : Overview) :
    Keeps (P := P) rel (Os.select timeout overview) := by
  intro m
  apply (select_runs modest.toLively (modest.emit m.host _ rfl) timeout overview).normally
  intro found m' reached
  obtain ⟨h, fds, path, -, rfl⟩ := reached
  exact ⟨modest.trans path (modest.emit h _ rfl), rfl⟩

end Calls

theorem course (modest : Modest rel) (soft : Soft same) :
    Course (Both rel same) (Both rel same) where
  refl m := ⟨modest.refl m.host, soft.refl m.prog⟩
  trans one two := ⟨modest.trans one.1 two.1, soft.trans one.2 two.2⟩
  weaken path := path
  falls one two := ⟨modest.trans one.1 two.1, soft.trans one.2 two.2⟩

theorem enroll (modest : Modest rel) (soft : Soft same)
    (insert : ∀ r c, same r (setTable (·.insert c) r)) (sock : SocketId) (peer : Peer) :
    Within (Both rel same) (Both rel same) (Relay.enroll sock peer) := by
  apply enroll_within (modest.course soft)
  · exact fun level text => both_of_keeps soft (modest.log level text)
  · exact both_of_keeps soft (modest.setBlocking sock)
  · exact both_of_keeps soft (modest.register sock _)
  · exact both_of_keeps soft (modest.close sock)
  · exact fun h r c _ => ⟨modest.refl h, insert r c⟩

theorem closing (modest : Modest rel) (soft : Soft same) :
    Closing (Both rel same) (Both rel same) where
  toCourse := modest.course soft
  log level text := both_of_keeps soft (modest.log level text)
  stop := both_of_keeps soft (changes_keeps modest.raise)
  close id := both_of_keeps soft (modest.close id)
  closeSelector := both_of_keeps soft modest.closeSelector
  unregister id := both_of_keeps soft (modest.unregister id)
  tend h _ _ tended := ⟨modest.refl h, soft.tend tended⟩

end Modest

structure Ample (rel : Host T → Host T → Prop) : Prop extends Steady rel where
  told : ∀ h e, rel h (h.emit e)
  raise : ∀ h, rel h (h.raise .service)
  shut : ∀ h id, rel h (h.shut id)
  entries : ∀ h entries, rel h { h with entries := entries }
  selector : ∀ h, rel h h.quit
  take : ∀ h id limit, rel h (h.alter id fun s => { s with unread := s.unread.drop limit })
  hasten : ∀ h id, rel h (h.alter id fun s => { s with timeout := some Clock.zero })
  dequeue : ∀ h id s first rest, h.sock? id = some s → s.backlog = first :: rest →
    rel h (h.dequeue id rest)

-- A relation between relays that says nothing of what edits and admissions change.
structure Lax (same : Relay T → Relay T → Prop) : Prop where
  refl : ∀ r, same r r
  trans : ∀ {a b c}, same a b → same b c → same a c
  edit : ∀ {r r'}, Edited r r' → same r r'
  insert : ∀ r c, same r (setTable (·.insert c) r)

omit [Clock T] in
theorem Lax.soft {same : Relay T → Relay T → Prop} (lax : Lax same) : Soft same where
  refl := lax.refl
  trans := lax.trans
  tend tended := lax.edit tended.toEdited

namespace Ample
variable {rel : Host T → Host T → Prop} {same : Relay T → Relay T → Prop}

theorem reading (ample : Ample rel) : Reading rel where
  toSteady := ample.toSteady
  take := ample.take
  received h _ _ := ample.told h _
  offered h _ _ := ample.told h _
  datagram h _ _ _ := ample.told h _

theorem modest (ample : Ample rel) : Modest rel where
  toLively := ample.toSteady.lively
  emit h e _ := ample.told h e
  note h call id cause _ := ample.note h call id cause
  stderr := ample.stderr
  console := ample.console
  raise := ample.raise
  shut := ample.shut
  entries := ample.entries
  selector := ample.selector
  hasten := ample.hasten

omit [Clock T] in
theorem keeps (lax : Lax same) {act : Run T (Relay T) α} (keeps : Keeps rel act) :
    Within (Both rel same) (Both rel same) act := both_of_keeps lax.soft keeps

section Calls
variable {P : Type} [Resumable T P] [Idle T P]

theorem register (ample : Ample rel) (id : SocketId) (conn : Option SocketId) :
    Keeps (P := P) rel (Os.register id conn) := ample.modest.register id conn

theorem unregister (ample : Ample rel) (id : SocketId) :
    Keeps (P := P) rel (Os.unregister id) := ample.modest.unregister id

theorem accept (ample : Ample rel) (id : SocketId) : Keeps (P := P) rel (Os.accept id) := by
  intro m
  apply (accept_ends ample.toSteady).normally
  intro found m' reached
  obtain ⟨h, s, rest, path, known, queue, rfl⟩ := reached
  have taken := ample.trans path (ample.dequeue h id s found.1 rest known queue)
  exact ⟨ample.trans taken (ample.told _ _), rfl⟩

end Calls

theorem enroll (ample : Ample rel) (lax : Lax same) (sock : SocketId) (peer : Peer) :
    Within (Both rel same) (Both rel same) (Relay.enroll sock peer) :=
  ample.modest.enroll lax.soft lax.insert sock peer

theorem parts (ample : Ample rel) (lax : Lax same) : Parts (Both rel same) (Both rel same) where
  toCourse := ample.modest.course lax.soft
  log level text := keeps lax (ample.log level text)
  rests time := keeps lax (changes_keeps fun h => ample.told h _)
  stop := keeps lax (changes_keeps ample.raise)
  close id := keeps lax (ample.modest.close id)
  closeSelector := keeps lax ample.modest.closeSelector
  register id conn := keeps lax (ample.register id conn)
  unregister id := keeps lax (ample.unregister id)
  accept id := keeps lax (ample.accept id)
  select timeout overview := keeps lax (select_keeps ample.toSteady timeout overview)
  poll control timeout := keeps lax (ample.control control timeout)
  enroll := ample.enroll lax
  drain conn m _ := by
    have counted (m' : Machine T (Relay T)) (path : Counted rel m m') : Both rel same m m' := by
      obtain ⟨kept, f, -, eq⟩ := path
      exact ⟨kept, eq ▸ lax.edit ⟨rfl, rfl, rfl, rfl, rfl⟩⟩
    exact (ample.reading.drain conn m).imp (fun _ => counted) fun _ => counted
  edit h r r' edited := ⟨ample.refl h, lax.edit edited⟩

end Ample
end StreamRelay.Relay
