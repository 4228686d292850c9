import StreamRelay.Proofs.Host.Sockets
import StreamRelay.Proofs.Host.Surroundings
import StreamRelay.Sink

namespace StreamRelay
variable {T P : Type} {rel : Host T → Host T → Prop}
open Run

namespace Host

def watch (h : Host T) (id : SocketId) (conn : Option SocketId) : Host T :=
  { h with entries := h.entries ++ [(h.number id, ⟨id, conn⟩)] }

def unwatch (h : Host T) (fd : Int) : Host T :=
  { h with entries := h.entries.filter (·.1 ≠ fd) }

def forget (h : Host T) (id : SocketId) : Host T :=
  { h with entries := h.entries.filter (·.2.sock ≠ id) }

def dequeue (h : Host T) (id : SocketId) (rest : List SocketId) : Host T :=
  h.alter id fun s => { s with backlog := rest }

def shut (h : Host T) (id : SocketId) : Host T :=
  if h.isOpen id then
    (h.alter id fun s => { s with isOpen := false }).emit (.closed id (h.number id))
  else h

-- The selector is closed and nothing is watched any more.
def quit (h : Host T) : Host T :=
  { h.emit .selectorClosed with selectorOpen := false, entries := [] }

-- A record goes to the observer, or to standard error, or nowhere.
def logged (h : Host T) (level : Level) (text : String) : Host T :=
  match h.logLevel with
  | none => h.emit (.log level text)
  | some least =>
    if least.rank ≤ level.rank then
      { h with stderr := h.stderr ++ h.stamp ++ " [" ++ level.name ++ "] " ++ text ++ "\n" }
    else h

theorem logged_same (h : Host T) (level : Level) (text : String) :
    ∃ trace stderr, h.logged level text = { h with trace, stderr } := by
  unfold logged
  split
  · exact ⟨_, _, rfl⟩
  · split
    · exact ⟨_, _, rfl⟩
    · exact ⟨_, _, rfl⟩

-- What may be left of a datagram in the log: one record, where its destination has a name.
inductive Remarked (h : Host T) : Host T → Prop where
  | silent : Remarked h h
  | record (level : Level) (text : String) : Remarked h (h.logged level text)

theorem Remarked.keeps {holds : Host T → Prop} {h h' : Host T} (remarked : h.Remarked h')
    (silent : holds h) (logged : ∀ level text, holds (h.logged level text)) : holds h' := by
  cases remarked with
  | silent => exact silent
  | record level text => exact logged level text

end Host

theorem ends_log {m : Machine T P} {level : Level} {text : String}
    {done : Unit → Machine T P → Prop} {failed : Failure → Machine T P → Prop} :
    Ends (Os.log level text) m done failed ↔ done () ⟨m.host.logged level text, m.prog⟩ := Iff.rfl

theorem ends_close {m : Machine T P} {id : SocketId} {done : Unit → Machine T P → Prop}
    {failed : Failure → Machine T P → Prop} :
    Ends (Os.close id) m done failed ↔ done () ⟨m.host.shut id, m.prog⟩ := Iff.rfl

theorem ends_closeSelector {m : Machine T P} {done : Unit → Machine T P → Prop}
    {failed : Failure → Machine T P → Prop} :
    Ends Os.closeSelector m done failed ↔ done () ⟨m.host.quit, m.prog⟩ := Iff.rfl

variable [Clock T]

theorem Lively.advance (lively : Lively rel) (d : T) : Keeps (P := P) rel (Os.advance d) :=
  changes_keeps fun h => lively.clock h d

omit [Clock T] in
theorem logged_of {h : Host T} {level : Level} {text : String} (refl : rel h h)
    (told : rel h (h.emit (.log level text))) (written : ∀ text, rel h { h with stderr := text }) :
    rel h (h.logged level text) := by
  unfold Host.logged
  split
  · exact told
  · split
    · exact written _
    · exact refl

omit [Clock T] in
theorem logAny_ends {m : Machine T P} (refl : rel m.host m.host)
    (logged : ∀ level text, rel m.host (m.host.logged level text)) (level : Level)
    (whom : Option String) (text : String → String) :
    Ends (whom.forM fun dest => Os.log level (text dest)) m (fun _ => Hosted rel m)
      fun _ _ => False := by
  cases whom with
  | none => exact ⟨refl, rfl⟩
  | some dest => exact ⟨logged level (text dest), rfl⟩

namespace Steady

theorem emits (steady : Steady rel) {e : Event T} (plain : e.plain = true) :
    Keeps (P := P) rel (Run.emits e) := fun m => ⟨steady.emit m.host e plain, rfl⟩

theorem logged (steady : Steady rel) (h : Host T) (level : Level) (text : String) :
    rel h (h.logged level text) :=
  logged_of (steady.refl h) (steady.emit h _ rfl) (steady.stderr h)

theorem log (steady : Steady rel) (level : Level) (text : String) :
    Keeps (P := P) rel (Os.log level text) := changes_keeps fun h => steady.logged h level text

end Steady

section Calls
variable [Resumable T P] {m : Machine T P} {id : SocketId}

omit [Clock T] [Resumable T P] in
theorem opened_ends : Ends (Os.opened id) m
    (fun s m' => m' = m ∧ m.host.sock? id = some s ∧ s.isOpen = true)
    (fun f m' => m' = m ∧ f = .os .badDescriptor ∧ m.host.isOpen id = false) := by
  unfold Ends Os.opened
  cases known : m.host.sock? id with
  | none => simp [Host.isOpen, known]
  | some s => cases opened : s.isOpen <;> simp [Host.isOpen, known, opened]

omit [Clock T] [Resumable T P] in
theorem ends_opened {h : Host T} {p : P} {s : Sock T} (there : h.sock? id = some s)
    (opened : s.isOpen = true) {done : Sock T → Machine T P → Prop}
    {failed : Failure → Machine T P → Prop} :
    Ends (Os.opened id) ⟨h, p⟩ done failed ↔ done s ⟨h, p⟩ := by
  unfold Ends Os.opened
  simp [there, opened]

omit [Resumable T P] in
theorem opened_keeps (lively : Lively rel) : Keeps (P := P) rel (Os.opened id) := by
  intro m
  exact opened_ends.imp (fun _ _ found => found.1 ▸ lively.course.refl m)
    fun _ _ found => found.1 ▸ lively.course.refl m

variable [Idle T P]

theorem setBlocking_runs (lively : Lively rel) (blocking : Bool)
    (told : rel m.host (m.host.emit (.setBlocking (m.host.number id) blocking))) :
    Ends (Os.setBlocking id blocking) m
      (fun _ m' => ∃ h s, rel m.host h ∧ h.sock? id = some s ∧ s.isOpen = true ∧ m' = ⟨h.alter id
        fun s => { s with timeout := if blocking then none else some Clock.zero }, m.prog⟩)
      (fun f m' => ∃ h, rel m.host h ∧ m' = ⟨h.note .setBlocking id f, m.prog⟩) := by
  simp only [Os.setBlocking, ends_noting, ends_bind, Os.number, ends_asks, ends_emits]
  refine (lively.incident .setBlocking _).imp ?_ ?_
  · rintro _ ⟨h, p⟩ ⟨path, rfl⟩
    refine opened_ends.imp ?_ ?_
    · rintro s _ ⟨rfl, known, opened⟩
      exact ⟨h, s, lively.trans told path, known, opened, rfl⟩
    · rintro f _ ⟨rfl, -⟩
      exact ⟨h, lively.trans told path, rfl⟩
  · rintro f ⟨h, p⟩ ⟨path, rfl⟩
    exact ⟨h, lively.trans told path, rfl⟩

theorem setBlocking_ends (steady : Steady rel) (blocking : Bool) :
    Ends (Os.setBlocking id blocking) m
      (fun _ m' => ∃ h s, rel m.host h ∧ h.sock? id = some s ∧ s.isOpen = true ∧ m' = ⟨h.alter id
        fun s => { s with timeout := if blocking then none else some Clock.zero }, m.prog⟩)
      (fun f m' => ∃ h, rel m.host h ∧ m' = ⟨h.note .setBlocking id f, m.prog⟩) :=
  setBlocking_runs steady.lively blocking (steady.emit m.host _ rfl)

theorem setTimeout_ends (steady : Steady rel) (timeout : Option T) :
    Ends (Os.setTimeout id timeout) m
      (fun _ m' => ∃ h s, rel m.host h ∧ h.sock? id = some s ∧ s.isOpen = true ∧
        m' = ⟨h.alter id fun s => { s with timeout }, m.prog⟩)
      (fun f m' => ∃ h, rel m.host h ∧ m' = ⟨h.note .setTimeout id f, m.prog⟩) := by
  have told := steady.emit m.host (.setTimeout (m.host.number id) timeout) rfl
  simp only [Os.setTimeout, ends_noting, ends_bind, Os.number, ends_asks, ends_emits]
  apply (steady.incident .setTimeout _).imp
  · intro _ m' reached
    obtain ⟨h, path, rfl⟩ := reached.cases
    apply opened_ends.imp
    · intro s m' found
      obtain ⟨rfl, known, opened⟩ := found
      exact ⟨h, s, steady.trans told path, known, opened, rfl⟩
    · intro f m' found
      obtain ⟨rfl, -⟩ := found
      exact ⟨h, steady.trans told path, rfl⟩
  · intro f m' reached
    obtain ⟨h, path, rfl⟩ := reached.cases
    exact ⟨h, steady.trans told path, rfl⟩

theorem register_runs (lively : Lively rel) (conn : Option SocketId) :
    Ends (Os.register id conn) m
      (fun _ m' => ∃ h, rel (m.host.emit (.register (m.host.fileno id))) h ∧ h.isOpen id = true ∧
        h.watching? (h.number id) = none ∧ m' = ⟨h.watch id conn, m.prog⟩)
      (fun f m' => ∃ h, rel (m.host.emit (.register (m.host.fileno id))) h ∧
        m' = ⟨h.note .register id f, m.prog⟩) := by
  simp only [Os.register, ends_noting, ends_bind, ends_asks, ends_emits]
  refine (lively.incident .register _).imp ?_ ?_
  · rintro _ ⟨h, p⟩ ⟨arrived, rfl⟩
    cases opened : h.isOpen id with
    | false =>
      simp only [Bool.not_false, if_true, ends_fails]
      exact ⟨h, arrived, rfl⟩
    | true =>
      simp only [Host.fileno_of_isOpen opened, Bool.not_true, Bool.false_eq_true, if_false,
        ends_bind, ends_asks]
      cases held : h.watching? (h.number id) with
      | some entry => exact ⟨h, arrived, rfl⟩
      | none => exact ⟨h, arrived, opened, held, rfl⟩
  · rintro f ⟨h, p⟩ ⟨path, rfl⟩
    exact ⟨h, path, rfl⟩

theorem register_ends (steady : Steady rel) (conn : Option SocketId) :
    Ends (Os.register id conn) m
      (fun _ m' => ∃ h, rel m.host h ∧ h.isOpen id = true ∧ h.watching? (h.number id) = none ∧
        m' = ⟨h.watch id conn, m.prog⟩)
      (fun f m' => ∃ h, rel m.host h ∧ m' = ⟨h.note .register id f, m.prog⟩) := by
  have told := steady.emit m.host (.register (m.host.fileno id)) rfl
  refine (register_runs steady.lively conn).imp ?_ ?_
  · rintro _ m' ⟨h, path, reached⟩
    exact ⟨h, steady.trans told path, reached⟩
  · rintro f m' ⟨h, path, reached⟩
    exact ⟨h, steady.trans told path, reached⟩

theorem unregister_runs (lively : Lively rel)
    (told : rel m.host (m.host.emit (.unregister (m.host.fileno id)))) :
    Ends (Os.unregister id) m
      (fun _ m' => ∃ h, rel m.host h ∧
        (h.isOpen id = true ∧ m' = ⟨h.unwatch (h.number id), m.prog⟩ ∨
          h.isOpen id = false ∧ m' = ⟨h.forget id, m.prog⟩))
      (fun f m' => ∃ h, rel m.host h ∧ m' = ⟨h.note .unregister id f, m.prog⟩) := by
  simp only [Os.unregister, ends_noting, ends_bind, ends_asks, ends_emits, Os.number]
  refine (lively.incident .unregister _).imp ?_ ?_
  · rintro _ ⟨h, p⟩ ⟨path, rfl⟩
    have arrived := lively.trans told path
    cases opened : h.isOpen id with
    | true =>
      simp only [if_true, ends_bind, ends_asks]
      split
      · exact ⟨h, arrived, rfl⟩
      · exact ⟨h, arrived, .inl ⟨opened, rfl⟩⟩
    | false =>
      simp only [Bool.false_eq_true, if_false, ends_bind, ends_asks]
      split
      · exact ⟨h, arrived, .inr ⟨opened, rfl⟩⟩
      · exact ⟨h, arrived, rfl⟩
  · rintro f ⟨h, p⟩ ⟨path, rfl⟩
    exact ⟨h, lively.trans told path, rfl⟩

theorem unregister_ends (steady : Steady rel) :
    Ends (Os.unregister id) m
      (fun _ m' => ∃ h, rel m.host h ∧
        (h.isOpen id = true ∧ m' = ⟨h.unwatch (h.number id), m.prog⟩ ∨
          h.isOpen id = false ∧ m' = ⟨h.forget id, m.prog⟩))
      (fun f m' => ∃ h, rel m.host h ∧ m' = ⟨h.note .unregister id f, m.prog⟩) :=
  unregister_runs steady.lively (steady.emit m.host _ rfl)

theorem awaitConnection_keeps (lively : Lively rel) (timeout : Option T) :
    Keeps (P := P) rel (Os.awaitConnection id timeout) := by
  unfold Os.awaitConnection
  refine .bind lively.course lively.await fun _ => ?_
  refine .bind lively.course (opened_keeps lively) fun s => ?_
  split
  · exact .bind lively.course (lively.advance _) fun _ => .fails lively.course
  · exact .pure lively.course

omit [Clock T] [Resumable T P] [Idle T P] in
theorem takeAccepted_ends : Ends (Os.takeAccepted id) m
    (fun found m' => found = none ∧ m' = m ∨ ∃ s first rest, found = some first ∧
      m.host.sock? id = some s ∧ s.backlog = first :: rest ∧ m' = ⟨m.host.dequeue id rest, m.prog⟩)
    (fun _ _ => False) := by
  unfold Ends Os.takeAccepted
  cases known : m.host.sock? id with
  | none => simp
  | some s =>
    cases queue : s.backlog with
    | nil => simp [queue]
    | cons first rest =>
      simp only [Option.map_some, queue]
      exact .inr ⟨s, first, rest, rfl, rfl, queue, rfl⟩

theorem accept_runs (lively : Lively rel) :
    Ends (Os.accept id) m
      (fun found m' => ∃ h s rest, rel (m.host.emit (.begun .accept (some id))) h ∧
        h.sock? id = some s ∧ s.backlog = found.1 :: rest ∧
        m' = ⟨(h.dequeue id rest).emit (.accept found.1 (h.number found.1)), m.prog⟩)
      (fun _ m' => Hosted rel ⟨m.host.emit (.begun .accept (some id)), m.prog⟩ m') := by
  simp only [Os.accept, ends_bind, ends_emits]
  refine (lively.incident .accept _).imp ?_ ?_
  · rintro _ ⟨h, p⟩ ⟨arrived, rfl⟩
    refine opened_ends.imp ?_ ?_
    · rintro s _ ⟨rfl, -, -⟩
      have patient : Keeps (P := P) rel (Os.awaitConnection id s.timeout) :=
        awaitConnection_keeps lively s.timeout
      have waited := Within.onlyIf (b := s.backlog.isEmpty && s.waits) lively.course patient
        ⟨h, m.prog⟩
      refine waited.imp ?_ ?_
      · rintro _ ⟨h, p⟩ ⟨path, rfl⟩
        have arrived := lively.trans arrived path
        refine takeAccepted_ends.imp ?_ fun _ _ never => never.elim
        rintro found _ (⟨rfl, rfl⟩ | ⟨s, first, rest, rfl, known, queue, rfl⟩)
        · exact ⟨arrived, rfl⟩
        · simp only [ends_bind, Os.number, ends_asks, ends_emits, ends_pure]
          have number : (h.dequeue id rest).number first = h.number first :=
            Host.number_alter fun _ => rfl
          exact ⟨h, s, rest, arrived, known, queue, by rw [number]⟩
      · rintro f ⟨h, p⟩ ⟨path, rfl⟩
        exact ⟨lively.trans arrived path, rfl⟩
    · rintro f _ ⟨rfl, -⟩
      exact ⟨arrived, rfl⟩
  · rintro f ⟨h, p⟩ ⟨path, rfl⟩
    exact ⟨path, rfl⟩

theorem accept_ends (steady : Steady rel) :
    Ends (Os.accept id) m
      (fun found m' => ∃ h s rest, rel m.host h ∧ h.sock? id = some s ∧
        s.backlog = found.1 :: rest ∧
        m' = ⟨(h.dequeue id rest).emit (.accept found.1 (h.number found.1)), m.prog⟩)
      (fun _ m' => Hosted rel m m') := by
  have told := steady.emit m.host (.begun .accept (some id)) rfl
  refine (accept_runs steady.lively).imp ?_ ?_
  · rintro found m' ⟨h, s, rest, path, reached⟩
    exact ⟨h, s, rest, steady.trans told path, reached⟩
  · rintro f m' ⟨path, same⟩
    exact ⟨steady.trans told path, same⟩

-- The bytes that a receive returns are the first ones nobody has read; none if there are none and
-- the stream has ended, was shut down, or is one that calls wait on.
def Host.Gives (h : Host T) (id : SocketId) (s : Sock T) (limit : Nat) (data : Bytes) (p : P)
    (m' : Machine T P) : Prop :=
  s.unread ≠ [] ∧ data = s.unread.take limit ∧
      m' = ⟨(h.alter id fun s => { s with unread := s.unread.drop limit }).emit
        (.received id data), p⟩ ∨
    s.unread = [] ∧ (s.ended || s.shut || s.waits) = true ∧ data = [] ∧
      m' = ⟨h.emit (.received id []), p⟩

theorem receive_begins (lively : Lively rel) (limit : Nat) :
    Ends (Os.receive id limit) m
      (fun data m' => ∃ h s, rel (m.host.emit (.begun .receive (some id))) h ∧
        h.sock? id = some s ∧ s.isOpen = true ∧
        h.Gives id s limit data m.prog m')
      (fun f m' => ∃ h, rel (m.host.emit (.begun .receive (some id))) h ∧
        m' = ⟨h.note .receive id f, m.prog⟩) := by
  simp only [Os.receive, ends_noting, ends_bind, ends_emits]
  refine (lively.incident .receive _).imp ?_ ?_
  · rintro _ ⟨h, p⟩ ⟨arrived, rfl⟩
    refine opened_ends.imp ?_ ?_
    · rintro s _ ⟨rfl, known, opened⟩
      split
      · exact ⟨h, arrived, rfl⟩
      · split
        · rename_i unread
          simp only [Os.alter, ends_bind, ends_changes, ends_emits, ends_pure]
          exact ⟨h, s, arrived, known, opened, .inl ⟨by simpa using unread, rfl, rfl⟩⟩
        · rename_i unread
          split
          · rename_i gone
            simp only [ends_bind, ends_emits, ends_pure]
            exact ⟨h, s, arrived, known, opened, .inr ⟨by simpa using unread, gone, rfl, rfl⟩⟩
          · exact ⟨h, arrived, rfl⟩
    · rintro f _ ⟨rfl, -⟩
      exact ⟨h, arrived, rfl⟩
  · rintro f ⟨h, p⟩ ⟨path, rfl⟩
    exact ⟨h, path, rfl⟩

theorem receive_runs (lively : Lively rel)
    (told : rel m.host (m.host.emit (.begun .receive (some id)))) (limit : Nat) :
    Ends (Os.receive id limit) m
      (fun data m' => ∃ h s, rel m.host h ∧ h.sock? id = some s ∧ s.isOpen = true ∧
        h.Gives id s limit data m.prog m')
      (fun f m' => ∃ h, rel m.host h ∧ m' = ⟨h.note .receive id f, m.prog⟩) := by
  refine (receive_begins lively limit).imp ?_ ?_
  · rintro data m' ⟨h, s, path, reached⟩
    exact ⟨h, s, lively.trans told path, reached⟩
  · rintro f m' ⟨h, path, reached⟩
    exact ⟨h, lively.trans told path, reached⟩

theorem receive_ends (steady : Steady rel) (limit : Nat) :
    Ends (Os.receive id limit) m
      (fun data m' => ∃ h s, rel m.host h ∧ h.sock? id = some s ∧ s.isOpen = true ∧
        h.Gives id s limit data m.prog m')
      (fun f m' => ∃ h, rel m.host h ∧ m' = ⟨h.note .receive id f, m.prog⟩) :=
  receive_runs steady.lively (steady.emit m.host _ rfl) limit

theorem receiveFrom_runs (lively : Lively rel) (limit : Int) :
    Ends (Os.receiveFrom id limit) m
      (fun data m' => ∃ h s first rest, rel (m.host.emit (.begun .receiveFrom (some id))) h ∧
        h.sock? id = some s ∧ s.inbox = first :: rest ∧ data = Bytes.cut limit first ∧
        m' = ⟨(h.alter id fun s => { s with inbox := rest }).emit (.received id data), m.prog⟩)
      (fun _ m' => Hosted rel ⟨m.host.emit (.begun .receiveFrom (some id)), m.prog⟩ m') := by
  simp only [Os.receiveFrom, ends_bind, ends_emits]
  refine (lively.incident .receiveFrom _).imp ?_ ?_
  · rintro _ ⟨h, p⟩ ⟨begun, rfl⟩
    refine opened_ends.imp ?_ ?_
    · rintro s _ ⟨rfl, -, -⟩
      have waits : Keeps (P := P) rel (do let _ ← Os.await : Run T P Unit) :=
        .bind lively.course lively.await fun _ => .pure lively.course
      refine (Within.onlyIf (b := s.inbox.isEmpty) lively.course waits ⟨h, m.prog⟩).imp ?_ ?_
      · rintro _ ⟨h, p⟩ ⟨path, rfl⟩
        have arrived := lively.trans begun path
        refine opened_ends.imp ?_ ?_
        · rintro s _ ⟨rfl, known, -⟩
          cases queue : s.inbox with
          | nil => exact ⟨lively.trans arrived (lively.clock h _), rfl⟩
          | cons first rest => exact ⟨h, s, first, rest, arrived, known, queue, rfl, rfl⟩
        · rintro f _ ⟨rfl, -⟩
          exact ⟨arrived, rfl⟩
      · rintro f ⟨h, p⟩ ⟨path, rfl⟩
        exact ⟨lively.trans begun path, rfl⟩
    · rintro f _ ⟨rfl, -⟩
      exact ⟨begun, rfl⟩
  · rintro f ⟨h, p⟩ ⟨path, rfl⟩
    exact ⟨path, rfl⟩

theorem sendTo_runs (lively : Lively rel)
    (told : rel m.host (m.host.emit (.begun .sendTo (some id)))) (data : Bytes) (dest : Address) :
    Ends (Os.sendTo id data dest) m
      (fun _ m' => ∃ h s, rel m.host h ∧ h.sock? id = some s ∧
        m' = ⟨h.emit (.datagram s.fd data dest), m.prog⟩)
      (fun f m' => ∃ h, rel m.host h ∧ m' = ⟨h.note .sendTo id f, m.prog⟩) := by
  simp only [Os.sendTo, ends_noting, ends_bind, ends_emits]
  refine (lively.incident .sendTo _).imp ?_ ?_
  · rintro _ ⟨h, p⟩ ⟨path, rfl⟩
    have arrived := lively.trans told path
    refine opened_ends.imp ?_ ?_
    · rintro s _ ⟨rfl, known, -⟩
      exact ⟨h, s, arrived, known, rfl⟩
    · rintro f _ ⟨rfl, -⟩
      exact ⟨h, arrived, rfl⟩
  · rintro f ⟨h, p⟩ ⟨path, rfl⟩
    exact ⟨h, lively.trans told path, rfl⟩

theorem sendTo_ends (steady : Steady rel) (data : Bytes) (dest : Address) :
    Ends (Os.sendTo id data dest) m
      (fun _ m' => ∃ h s, rel m.host h ∧ h.sock? id = some s ∧
        m' = ⟨h.emit (.datagram s.fd data dest), m.prog⟩)
      (fun f m' => ∃ h, rel m.host h ∧ m' = ⟨h.note .sendTo id f, m.prog⟩) :=
  sendTo_runs steady.lively (steady.emit m.host _ rfl) data dest

omit [Idle T P] in
-- To forward a payload comes to what sending it comes to; only a refusal of the system is no failure.
theorem ends_forward {m : Machine T P} {sink : Sink} {data : Bytes} {origin : Option SocketId}
    {done : Bool → Machine T P → Prop} {failed : Failure → Machine T P → Prop}
    (sends : Ends (Os.sendTo sink.sock data sink.dest)
      ⟨m.host.emit (.offered origin data), m.prog⟩
      (fun _ m' => ∀ h', m'.host.Remarked h' → done true ⟨h', m'.prog⟩)
      fun f m' => (f.isOs = true → ∀ h', m'.host.Remarked h' → done false ⟨h', m'.prog⟩) ∧
        (f.isOs = false → failed f m')) : Ends (sink.forward data origin) m done failed := by
  have remarks (level : Level) (text : String → String) (m : Machine T P) :
      Ends (sink.dest.logged?.forM fun dest => Os.log level (text dest)) m
        (fun _ => Hosted Host.Remarked m) fun _ _ => False :=
    logAny_ends .silent .record level _ text
  simp only [Sink.forward, ends_bind, ends_emits, ends_outcome]
  apply sends.imp
  · intro _ m' sent
    refine (remarks .debug _ m').imp ?_ fun _ _ never => never.elim
    intro _ _ path
    obtain ⟨h', remarked, rfl⟩ := path.cases
    exact sent h' remarked
  · intro f m' fell
    split
    · rename_i refused
      rw [ends_bind]
      refine (remarks .warning _ m').imp ?_ fun _ _ never => never.elim
      intro _ _ path
      obtain ⟨h', remarked, rfl⟩ := path.cases
      exact fell.1 refused h' remarked
    · rename_i foreign
      exact fell.2 (eq_false_of_ne_true foreign)

theorem forward_keeps (lively : Lively rel) (sink : Sink) (data : Bytes)
    (origin : Option SocketId) (offered : ∀ h, rel h (h.emit (.offered origin data)))
    (begun : ∀ h, rel h (h.emit (.begun .sendTo (some sink.sock))))
    (datagram : ∀ h fd, rel h (h.emit (.datagram fd data sink.dest)))
    (noted : ∀ h cause, rel h (h.note .sendTo sink.sock cause))
    (logged : ∀ h level text, rel h (h.logged level text)) :
    Keeps (P := P) rel (sink.forward data origin) := by
  intro m
  apply ends_forward
  apply (sendTo_runs lively (begun _) data sink.dest).imp
  · intro _ m' reached h' remarked
    obtain ⟨h, s, path, -, rfl⟩ := reached
    have sent := lively.trans (lively.trans (offered m.host) path) (datagram h s.fd)
    exact ⟨remarked.keeps sent fun level text => lively.trans sent (logged _ level text), rfl⟩
  · intro f m' reached
    obtain ⟨h, path, rfl⟩ := reached
    have lost := lively.trans (lively.trans (offered m.host) path) (noted h f)
    refine ⟨fun _ h' remarked => ?_, fun _ => ⟨lost, rfl⟩⟩
    exact ⟨remarked.keeps lost fun level text => lively.trans lost (logged _ level text), rfl⟩

theorem select_begins (lively : Lively rel) (timeout : T) (overview : Overview) :
    Ends (Os.select timeout overview) m
      (fun found m' => ∃ h fds, rel (m.host.emit (.begun .select none)) h ∧
        found = Os.entriesOf h fds ∧
        m' = ⟨h.emit (.ready timeout (found.map Prod.fst) overview), m.prog⟩)
      (fun _ m' => Hosted rel ⟨m.host.emit (.begun .select none), m.prog⟩ m') := by
  simp only [Os.select, ends_bind, ends_emits, ends_asks]
  refine (lively.incident .select _).normally ?_
  rintro _ ⟨h, p⟩ ⟨begun, rfl⟩
  refine (lively.await ⟨h, m.prog⟩).imp ?_ ?_
  · rintro prescribed ⟨h, p⟩ ⟨path, rfl⟩
    have arrived := lively.trans begun path
    simp only [ends_onlyIf, Os.advance, ends_changes, ends_pure]
    split
    · exact ⟨_, _, lively.trans arrived (lively.clock h timeout), rfl, rfl⟩
    · exact ⟨_, _, arrived, rfl, rfl⟩
  · rintro f ⟨h, p⟩ ⟨path, rfl⟩
    exact ⟨lively.trans begun path, rfl⟩

theorem select_runs (lively : Lively rel) (told : rel m.host (m.host.emit (.begun .select none)))
    (timeout : T) (overview : Overview) :
    Ends (Os.select timeout overview) m
      (fun found m' => ∃ h fds, rel m.host h ∧ found = Os.entriesOf h fds ∧
        m' = ⟨h.emit (.ready timeout (found.map Prod.fst) overview), m.prog⟩)
      (fun _ m' => Hosted rel m m') := by
  refine (select_begins lively timeout overview).imp ?_ ?_
  · rintro found m' ⟨h, fds, path, reached⟩
    exact ⟨h, fds, lively.trans told path, reached⟩
  · rintro f m' ⟨path, same⟩
    exact ⟨lively.trans told path, same⟩

theorem select_keeps (steady : Steady rel) (timeout : T) (overview : Overview) :
    Keeps (P := P) rel (Os.select timeout overview) := by
  intro m
  have runs := select_runs steady.lively (steady.emit m.host _ rfl) timeout overview
  apply runs.normally
  rintro found m' ⟨h, fds, path, -, rfl⟩
  exact ⟨steady.trans path (steady.emit h _ rfl), rfl⟩

-- Looking at the console leaves events of two kinds, and takes from what is to be read.
structure Attends (rel : Host T → Host T → Prop) : Prop extends Lively rel where
  polled : ∀ h fd timeout readable, rel h (h.emit (.poll fd timeout readable))
  heard : ∀ h fd limit data, rel h (h.emit (.read fd limit data))
  console : ∀ h n, rel h { h with console := h.console.drop n }

theorem Steady.attends (steady : Steady rel) : Attends rel where
  toLively := steady.lively
  polled h _ _ _ := steady.emit h _ rfl
  heard h _ _ _ := steady.emit h _ rfl
  console := steady.console

theorem poll_keeps (attends : Attends rel) (fd : Int) (timeout : T) :
    Keeps (P := P) rel (Os.poll fd timeout) := by
  have course := attends.toLively.course (P := P)
  have awaited : Keeps (P := P) rel (Os.awaitConsole timeout) := by
    unfold Os.awaitConsole
    refine .bind course attends.await fun _ => .bind course (.asks course) ?_
    exact fun _ => .onlyIf course (attends.toLively.advance timeout)
  unfold Os.poll
  refine .bind course (attends.incident .poll) fun _ => ?_
  refine .bind course (.asks course) fun _ => ?_
  refine .bind course (.onlyIf course awaited) fun _ => ?_
  refine .bind course (.asks course) fun _ => ?_
  exact .bind course (changes_keeps fun h => attends.polled h _ _ _) fun _ => .pure course

theorem read_keeps (attends : Attends rel) (fd : Int) (limit : Nat) :
    Keeps (P := P) rel (Os.read fd limit) := by
  have course := attends.toLively.course (P := P)
  unfold Os.read
  refine .bind course (attends.incident .read) fun _ => ?_
  refine .bind course (.asks course) fun _ => ?_
  refine .bind course (changes_keeps fun h => attends.console h limit) fun _ => ?_
  exact .bind course (changes_keeps fun h => attends.heard h _ _ _) fun _ => .pure course

end Calls
end StreamRelay
