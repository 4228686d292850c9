import StreamRelay.Proofs.Host.Calls
import StreamRelay.Proofs.Twins
import StreamRelay.Sink

namespace StreamRelay
variable {T P α : Type} [Clock T]
open Run

-- Of the given calls the script has the same for both machines.
structure Indistinct [Resumable T P] (calls : Call → Prop)
    (rel : Machine T P → Machine T P → Prop) : Prop where
  view : ∀ {m u}, rel m u → ∃ faults trace, u.host = { m.host with faults, trace }
  along : ∀ {f : Host T → Host T},
    (∀ (h : Host T) faults trace, f { h with faults, trace } = { f h with faults, trace }) →
    (∀ h, (f h).faults = h.faults) → (∀ h, (f h).trace = h.trace) →
    ∀ m u, rel m u → rel ⟨f m.host, m.prog⟩ ⟨f u.host, u.prog⟩
  emit : ∀ e m u, rel m u → rel ⟨m.host.emit e, m.prog⟩ ⟨u.host.emit e, u.prog⟩
  incident : ∀ {call}, calls call → Twins rel (Os.incident call) (Os.incident call)
  await : Twins rel Os.await Os.await

namespace Indistinct
variable [Resumable T P] {calls : Call → Prop} {rel : Machine T P → Machine T P → Prop}

section Plain
variable (indistinct : Indistinct calls rel)
include indistinct

theorem emits (e : Event T) : Twins rel (Run.emits e) (Run.emits e) := .changes (indistinct.emit e)

theorem asks {f : Host T → α} (apart : ∀ (h : Host T) faults trace, f { h with faults, trace } = f h) :
    Twins rel (Run.asks f) (Run.asks f) := by
  refine .asks fun m u related => ?_
  obtain ⟨faults, trace, same⟩ := indistinct.view related
  exact ((congrArg f same).trans (apart m.host faults trace)).symm

theorem changes {f : Host T → Host T}
    (apart : ∀ (h : Host T) faults trace, f { h with faults, trace } = { f h with faults, trace })
    (faults : ∀ h, (f h).faults = h.faults) (trace : ∀ h, (f h).trace = h.trace) :
    Twins rel (Run.changes f) (Run.changes f) := .changes (indistinct.along apart faults trace)

theorem log (level : Level) (text : String) : Twins rel (Os.log level text) (Os.log level text) := by
  refine .changes fun m u related => ?_
  change rel ⟨m.host.logged level text, m.prog⟩ ⟨u.host.logged level text, u.prog⟩
  have emitted := indistinct.emit (.log level text) m u related
  have written := indistinct.along (f := fun h =>
      { h with stderr := h.stderr ++ h.stamp ++ " [" ++ level.name ++ "] " ++ text ++ "\n" })
    (fun _ _ _ => rfl) (fun _ => rfl) (fun _ => rfl) m u related
  obtain ⟨host, prog⟩ := u
  obtain ⟨faults, trace, same⟩ := indistinct.view related
  subst same
  unfold Host.logged
  dsimp only at *
  split
  · exact emitted
  · split
    · exact written
    · exact related

theorem alter (id : SocketId) (f : Sock T → Sock T) : Twins rel (Os.alter id f) (Os.alter id f) :=
  indistinct.changes (fun _ _ _ => rfl) (fun _ => rfl) fun _ => rfl

theorem opened (id : SocketId) : Twins rel (Os.opened id) (Os.opened id) := by
  intro m u related
  have same : u.host.sock? id = m.host.sock? id := by
    obtain ⟨faults, trace, same⟩ := indistinct.view related
    rw [same]
    rfl
  apply opened_ends.imp
  · rintro s _ ⟨rfl, known, isOpen⟩
    exact ⟨u, by rw [Os.opened, same, known]; exact if_pos isOpen, related⟩
  · rintro f _ ⟨rfl, rfl, shut⟩
    refine ⟨u, ?_, related⟩
    cases known : u.host.sock? id with
    | none => rw [Os.opened, known]
    | some s =>
      have shut : s.isOpen = false := by simpa [Host.isOpen, ← same, known] using shut
      rw [Os.opened, known]
      exact if_neg (by simp [shut])

theorem close (id : SocketId) : Twins rel (Os.close id) (Os.close id) := by
  refine .changes fun m u related => ?_
  have same : u.host.isOpen id = m.host.isOpen id ∧ u.host.number id = m.host.number id := by
    obtain ⟨faults, trace, same⟩ := indistinct.view related
    rw [same]
    exact ⟨rfl, rfl⟩
  rw [same.1, same.2]
  split
  · have shut := indistinct.along (f := fun h => h.alter id fun s => { s with isOpen := false })
      (fun _ _ _ => rfl) (fun _ => rfl) (fun _ => rfl) m u related
    exact indistinct.emit _ _ _ shut
  · exact related

theorem noting {call : Call} {id : SocketId} {act : Run T P α} (twins : Twins rel act act) :
    Twins rel (Run.noting call id act) (Run.noting call id act) :=
  twins.noting fun m u cause related => indistinct.along (f := fun h => h.note call id cause)
    (fun _ _ _ => rfl) (fun _ => rfl) (fun _ => rfl) m u related

theorem raise (flag : Flag) : Twins rel (Os.stop flag) (Os.stop flag) := by
  refine .changes fun m u related => ?_
  have told := indistinct.emit (.told flag) m u related
  cases flag with
  | service =>
    exact indistinct.along (f := fun h => { h with serviceStop := true }) (fun _ _ _ => rfl) (fun _ => rfl)
      (fun _ => rfl) _ _ told
  | command =>
    exact indistinct.along (f := fun h => { h with commandStop := true }) (fun _ _ _ => rfl) (fun _ => rfl)
      (fun _ => rfl) _ _ told

theorem closeSelector : Twins rel (Os.closeSelector (T := T) (P := P)) Os.closeSelector :=
  .bind (indistinct.emits _) fun _ => indistinct.changes (fun _ _ _ => rfl) (fun _ => rfl) fun _ => rfl

end Plain

section Calls
variable (indistinct : Indistinct calls rel)
include indistinct

theorem setBlocking (same : calls .setBlocking) (id : SocketId) (blocking : Bool) :
    Twins rel (Os.setBlocking id blocking) (Os.setBlocking id blocking) := by
  refine indistinct.noting (.bind (indistinct.asks fun _ _ _ => rfl) fun _ => ?_)
  refine .bind (indistinct.emits _) fun _ => ?_
  exact .bind (indistinct.incident same) fun _ => .bind (indistinct.opened id) fun _ => indistinct.alter id _

theorem register (same : calls .register) (id : SocketId) (conn : Option SocketId) :
    Twins rel (Os.register id conn) (Os.register id conn) := by
  refine indistinct.noting (.bind (indistinct.asks fun _ _ _ => rfl) fun _ => ?_)
  refine .bind (indistinct.emits _) fun _ => ?_
  refine .bind (indistinct.incident same) fun _ => .bind (indistinct.asks fun _ _ _ => rfl) fun fd => ?_
  refine .bind (indistinct.asks fun _ _ _ => rfl) fun isOpen => ?_
  split
  · exact .fails _
  · refine .bind (indistinct.asks fun _ _ _ => rfl) fun held => ?_
    split
    · exact .fails _
    · exact indistinct.changes (fun _ _ _ => rfl) (fun _ => rfl) fun _ => rfl

theorem unregister (same : calls .unregister) (id : SocketId) :
    Twins rel (Os.unregister id) (Os.unregister id) := by
  refine indistinct.noting (.bind (indistinct.asks fun _ _ _ => rfl) fun _ => ?_)
  refine .bind (indistinct.emits _) fun _ => ?_
  refine .bind (indistinct.incident same) fun _ => .bind (indistinct.asks fun _ _ _ => rfl) fun fd => ?_
  refine .bind (indistinct.asks fun _ _ _ => rfl) fun isOpen => ?_
  split
  · refine .bind (indistinct.asks fun _ _ _ => rfl) fun held => ?_
    split
    · exact .fails _
    · exact indistinct.changes (fun _ _ _ => rfl) (fun _ => rfl) fun _ => rfl
  · refine .bind (indistinct.asks fun _ _ _ => rfl) fun held => ?_
    split
    · exact indistinct.changes (fun _ _ _ => rfl) (fun _ => rfl) fun _ => rfl
    · exact .fails _

theorem takeAccepted (id : SocketId) : Twins rel (Os.takeAccepted id) (Os.takeAccepted id) := by
  intro m u related
  have known : u.host.sock? id = m.host.sock? id := by
    obtain ⟨faults, trace, same⟩ := indistinct.view related
    rw [same]
    rfl
  unfold Paired Ends Os.takeAccepted
  rw [known]
  cases (m.host.sock? id).map Sock.backlog with
  | none => exact ⟨u, rfl, related⟩
  | some queue =>
    cases queue with
    | nil => exact ⟨u, rfl, related⟩
    | cons first rest =>
      have taken := indistinct.along (f := fun h => h.alter id fun s => { s with backlog := rest })
        (fun _ _ _ => rfl) (fun _ => rfl) (fun _ => rfl) m u related
      exact ⟨_, rfl, taken⟩

theorem awaitConnection (id : SocketId) (timeout : Option T) :
    Twins rel (Os.awaitConnection id timeout) (Os.awaitConnection id timeout) := by
  refine .bind indistinct.await fun _ => .bind (indistinct.opened id) fun s => ?_
  split
  · exact .bind (indistinct.changes (fun _ _ _ => rfl) (fun _ => rfl) fun _ => rfl) fun _ => .fails _
  · exact .pure _

theorem accept_paired {m u : Machine T P} {id : SocketId}
    (begun : Paired rel (Os.incident .accept) (Os.incident .accept)
      ⟨m.host.emit (.begun .accept (some id)), m.prog⟩
      ⟨u.host.emit (.begun .accept (some id)), u.prog⟩) :
    Paired rel (Os.accept id) (Os.accept id) m u := by
  refine .emits (begun.bind fun _ => .bind (indistinct.opened id) fun s => ?_)
  refine .bind (.onlyIf (indistinct.awaitConnection id _)) fun _ => ?_
  refine .bind (indistinct.takeAccepted id) fun found => ?_
  cases found with
  | none => exact .fails _
  | some conn =>
    refine .bind (indistinct.asks fun _ _ _ => rfl) fun fd => .bind (indistinct.emits _) fun _ => ?_
    exact .bind (indistinct.asks fun _ _ _ => rfl) fun _ => .pure _

theorem accept (same : calls .accept) (id : SocketId) : Twins rel (Os.accept id) (Os.accept id) :=
  fun m u related => indistinct.accept_paired (indistinct.incident same _ _ (indistinct.emit _ m u related))

theorem receive (same : calls .receive) (id : SocketId) (limit : Nat) :
    Twins rel (Os.receive id limit) (Os.receive id limit) := by
  refine indistinct.noting (.bind (indistinct.emits _) fun _ => .bind (indistinct.incident same) fun _ => ?_)
  refine .bind (indistinct.opened id) fun s => ?_
  split
  · exact .fails _
  · split
    · exact .bind (indistinct.alter id _) fun _ => .bind (indistinct.emits _) fun _ => .pure _
    · split
      · exact .bind (indistinct.emits _) fun _ => .pure _
      · exact .fails _

theorem sendTo (same : calls .sendTo) (id : SocketId) (data : Bytes) (dest : Address) :
    Twins rel (Os.sendTo id data dest) (Os.sendTo id data dest) := by
  refine indistinct.noting (.bind (indistinct.emits _) fun _ => .bind (indistinct.incident same) fun _ => ?_)
  exact .bind (indistinct.opened id) fun s => indistinct.emits _

theorem logAny (level : Level) (whom : Option String) (text : String → String) :
    Twins rel (whom.forM fun dest => Os.log level (text dest) : Run T P PUnit)
      (whom.forM fun dest => Os.log level (text dest)) := by
  cases whom with
  | none => exact .pure _
  | some dest => exact indistinct.log level _

theorem forward (same : calls .sendTo) (sink : Sink) (data : Bytes) (origin : Option SocketId) :
    Twins rel (sink.forward data origin) (sink.forward data origin) := by
  refine .bind (indistinct.emits _) fun _ => .bind (.outcome (indistinct.sendTo same _ data _)) fun sent => ?_
  cases sent with
  | ok _ => exact .bind (indistinct.logAny _ _ _) fun _ => .pure _
  | error f =>
    dsimp only
    split
    · exact .bind (indistinct.logAny _ _ _) fun _ => .pure _
    · exact .fails _

theorem select (same : calls .select) (timeout : T) (overview : Overview) :
    Twins rel (Os.select timeout overview) (Os.select timeout overview) := by
  refine .bind (indistinct.emits _) fun _ => .bind (indistinct.incident same) fun _ => ?_
  refine .bind indistinct.await fun prescribed => .bind (indistinct.asks fun _ _ _ => rfl) fun found => ?_
  refine .bind (.onlyIf (indistinct.changes (fun _ _ _ => rfl) (fun _ => rfl) fun _ => rfl)) fun _ => ?_
  exact .bind (indistinct.emits _) fun _ => .pure _

end Calls
end Indistinct

def Abreast (near : P → P → Prop) (m u : Machine T P) : Prop := u.host = m.host ∧ near m.prog u.prog

namespace Abreast
variable {near : P → P → Prop}

omit [Clock T] in
theorem changes (f : Host T → Host T) : Twins (Abreast near) (Run.changes f) (Run.changes f) :=
  .changes fun _ _ abreast => ⟨congrArg f abreast.1, abreast.2⟩

omit [Clock T] in
theorem asks (f : Host T → α) : Twins (Abreast near) (Run.asks f) (Run.asks f) :=
  .asks fun _ _ abreast => congrArg f abreast.1.symm

omit [Clock T] in
theorem hosted {act : Run T P α} (apart : ∀ (m : Machine T P) p, Ends act m
      (fun a m' => m'.prog = m.prog ∧ act ⟨m.host, p⟩ = .ok a ⟨m'.host, p⟩)
      fun f m' => m'.prog = m.prog ∧ act ⟨m.host, p⟩ = .error f ⟨m'.host, p⟩) :
    Twins (Abreast near) act act := by
  intro m ⟨h, p⟩ ⟨same, related⟩
  obtain rfl : h = m.host := same
  apply (apart m p).imp
  · intro a m' ⟨kept, ran⟩
    exact ⟨_, ran, rfl, kept ▸ related⟩
  · intro f m' ⟨kept, ran⟩
    exact ⟨_, ran, rfl, kept ▸ related⟩

variable [Resumable T P] [Idle T P]

omit [Clock T] [Resumable T P] [Idle T P] in
theorem stopAll : Twins (P := P) (T := T) (Abreast near) Os.stopAll Os.stopAll := by
  apply hosted
  intro m p
  unfold Ends Os.stopAll
  cases m.host.canStop with
  | true => exact ⟨rfl, rfl⟩
  | false => exact ⟨rfl, rfl⟩

theorem perform (action : Action T) :
    Twins (P := P) (Abreast near) (Os.perform action) (Os.perform action) := by
  refine .bind (asks _) fun stranger => ?_
  cases stranger with
  | some client => exact .fails _
  | none =>
    cases action with
    | runWorker =>
      apply hosted
      intro m p
      unfold Ends Os.runWorker
      simp only [Idle.resume_eq]
      exact ⟨trivial, trivial⟩
    | stop => exact stopAll
    | _ => exact changes _

theorem happen (actions : List (Action T)) :
    Twins (P := P) (Abreast near) (Os.happen actions) (Os.happen actions) := .forM perform

theorem incident (call : Call) :
    Twins (P := P) (T := T) (Abreast near) (Os.incident call) (Os.incident call) := by
  refine .bind (hosted fun _ _ => ⟨rfl, rfl⟩) fun fault => ?_
  split
  · exact .pure _
  · exact .pure _
  · exact .pure _
  · refine .bind (happen _) fun _ => ?_
    split
    · exact .pure _
    · exact .fails _

theorem await : Twins (P := P) (T := T) (Abreast near) Os.await Os.await := by
  refine .bind (hosted fun _ _ => ⟨rfl, rfl⟩) fun batch => ?_
  split
  · exact .bind stopAll fun _ => .pure _
  · exact .bind (happen _) fun _ => .pure _

theorem indistinct : Indistinct (T := T) (fun _ => True) (Abreast near) where
  view abreast := ⟨_, _, abreast.1⟩
  along {f} _ _ _ _ _ abreast := ⟨congrArg f abreast.1, abreast.2⟩
  emit e _ _ abreast := ⟨congrArg (·.emit e) abreast.1, abreast.2⟩
  incident _ := incident _
  await := await

end Abreast
end StreamRelay
