import StreamRelay.Proofs.Host.Indistinct
import StreamRelay.Proofs.Relay.Parts

namespace StreamRelay.Relay
variable {T : Type} [Clock T]
open Run

-- The relays are the same but for the console, and stay so. Every call but perhaps an accept meets the
-- same on either side.
structure Unaware (calls : Call → Prop) (rel : Machine T (Relay T) → Machine T (Relay T) → Prop) : Prop
    extends Indistinct calls rel where
  others : ∀ {call}, call ≠ .accept → calls call
  relay : ∀ {m u}, rel m u → ∃ control, u.prog = { m.prog with control }
  edit : ∀ {f : Relay T → Relay T}, (∀ r control, f { r with control } = { f r with control }) →
    ∀ m u, rel m u → rel ⟨m.host, f m.prog⟩ ⟨u.host, f u.prog⟩

namespace Unaware
variable {calls : Call → Prop} {rel : Machine T (Relay T) → Machine T (Relay T) → Prop}

section Parts
variable (unaware : Unaware calls rel)
include unaware

theorem read {α : Type} {f : Relay T → α} (apart : ∀ r control, f { r with control } = f r)
    {m u : Machine T (Relay T)} (related : rel m u) : f u.prog = f m.prog := by
  obtain ⟨control, same⟩ := unaware.relay related
  exact (congrArg f same).trans (apart m.prog control)

theorem gets {α : Type} {f : Relay T → α} (apart : ∀ r control, f { r with control } = f r) :
    Twins rel (Run.gets f) (Run.gets f) := .gets fun _ _ related => (unaware.read apart related).symm

theorem sets {f : Relay T → Relay T} (apart : ∀ r control, f { r with control } = { f r with control }) :
    Twins rel (Run.sets f) (Run.sets f) := .sets (unaware.edit apart)

theorem whole {α : Type} {next : Relay T → Run T (Relay T) α}
    (apart : ∀ r control, next { r with control } = next r) (rest : ∀ r, Twins rel (next r) (next r)) :
    Twins rel (Run.gets id >>= next) (Run.gets id >>= next) := by
  intro m u related
  have begun : (Run.gets id >>= next) u = next m.prog u := congrArg (· u) (unaware.read apart related)
  unfold Paired
  rw [ends_bind, ends_gets, begun]
  exact rest m.prog m u related

theorem counts (f : Counters → Counters) : Twins rel (Run.sets (count f)) (Run.sets (count f)) :=
  unaware.sets fun _ _ => rfl

theorem edits (f : Table → Table) : Twins rel (Run.sets (setTable f)) (Run.sets (setTable f)) :=
  unaware.sets fun _ _ => rfl

theorem enroll (sock : SocketId) (peer : Peer) :
    Twins rel (Relay.enroll sock peer) (Relay.enroll sock peer) := by
  refine .bind (.outcome (unaware.setBlocking (unaware.others (by decide)) sock false)) fun ready => ?_
  cases ready with
  | error f =>
    dsimp only
    split
    · exact .bind (unaware.log _ _) fun _ => .bind (unaware.close _) fun _ => .pure _
    · exact .fails _
  | ok _ =>
    refine .bind (unaware.asks fun _ _ _ => rfl) fun fd => ?_
    refine .bind (.outcome (unaware.register (unaware.others (by decide)) sock _)) fun watched => ?_
    cases watched with
    | error f =>
      dsimp only
      split
      · exact .bind (unaware.log _ _) fun _ => .bind (unaware.close _) fun _ => .pure _
      · exact .fails _
    | ok _ => exact .bind (unaware.edits _) fun _ => .pure _

theorem unwatchListener : Twins rel Relay.unwatchListener Relay.unwatchListener := by
  refine .bind (unaware.gets fun _ _ => rfl) fun sock => ?_
  refine .bind (.outcome (unaware.unregister (unaware.others (by decide)) sock)) fun unwatched => ?_
  cases unwatched with
  | ok _ => exact .pure _
  | error f =>
    dsimp only
    split
    · exact .pure _
    · exact .fails _

theorem pause (delay : T) : Twins rel (Relay.pause delay) (Relay.pause delay) := by
  refine .bind (unaware.gets fun _ _ => rfl) fun listener => ?_
  split
  · exact .pure _
  · refine .bind unaware.unwatchListener fun _ => .bind (unaware.asks fun _ _ _ => rfl) fun now => ?_
    exact .bind (unaware.sets fun _ _ => rfl) fun _ => .bind (unaware.emits _) fun _ => unaware.log _ _

theorem maybeResume : Twins rel Relay.maybeResume Relay.maybeResume := by
  refine .bind (unaware.gets fun _ _ => rfl) fun listener => ?_
  refine .bind (unaware.asks fun _ _ _ => rfl) fun now => ?_
  split
  · exact .pure _
  · split
    · exact .pure _
    · refine .bind (unaware.sets fun _ _ => rfl) fun _ => ?_
      refine .bind (.outcome (unaware.register (unaware.others (by decide)) _ _)) fun watched => ?_
      cases watched with
      | ok _ => exact .pure _
      | error f =>
        dsimp only
        split
        · exact .bind (unaware.log _ _) fun _ => unaware.pause _
        · exact .fails _

theorem acceptOnce_paired {m u : Machine T (Relay T)} (related : rel m u)
    (accepts : ∀ sock, Paired rel (Os.accept sock) (Os.accept sock) m u) :
    Paired rel Relay.acceptOnce Relay.acceptOnce m u := by
  have same := unaware.read (f := fun r => r.listener.sock) (fun _ _ => rfl) related
  refine .gets same ((accepts _).outcome.bind fun accepted => ?_)
  cases accepted with
  | error f =>
    dsimp only
    split
    · exact .pure _
    · split
      · exact .pure _
      · split
        · refine .bind (unaware.log _ _) fun _ => ?_
          split
          · exact .pure _
          · exact .bind (unaware.pause _) fun _ => .pure _
        · exact .fails _
  | ok found =>
    refine .bind (unaware.enroll found.1 _) fun admitted => ?_
    cases admitted with
    | none => exact .pure _
    | some conn => exact .bind (unaware.counts _) fun _ => .bind (unaware.log _ _) fun _ => .pure _

theorem closeListener : Twins rel Relay.closeListener Relay.closeListener := by
  refine .bind (unaware.gets fun _ _ => rfl) fun listener => ?_
  split
  · exact .pure _
  · refine .bind unaware.unwatchListener fun _ => .bind (unaware.close _) fun _ => ?_
    exact unaware.sets fun _ _ => rfl

theorem unwatch (conn : Connection) : Twins rel (Relay.unwatch conn) (Relay.unwatch conn) := by
  refine .bind (.outcome (unaware.unregister (unaware.others (by decide)) _)) fun unwatched => ?_
  cases unwatched with
  | ok _ => exact .pure _
  | error f =>
    dsimp only
    split
    · exact unaware.log _ _
    · exact .fails _

theorem teardown (sock : SocketId) : Twins rel (Relay.teardown sock) (Relay.teardown sock) := by
  refine .bind (unaware.gets fun _ _ => rfl) fun known => ?_
  cases known with
  | none => exact .pure _
  | some conn =>
    dsimp only
    split
    · exact .pure _
    · refine .bind (.onlyIf (.bind (unaware.unwatch conn) fun _ => unaware.edits _)) fun _ => ?_
      exact .bind (unaware.edits _) fun _ => .bind (unaware.close sock) fun _ => unaware.edits _

theorem closeAll : Twins rel Relay.closeAll Relay.closeAll := by
  refine .bind (unaware.gets fun _ _ => rfl) fun live => ?_
  exact .bind (.forM fun conn => unaware.teardown conn.sock) fun _ => .pure _

theorem close : Twins rel Relay.close Relay.close := by
  refine .bind (unaware.gets fun _ _ => rfl) fun closed => ?_
  split
  · exact .pure _
  · refine .bind (unaware.sets fun _ _ => rfl) fun _ => .bind (unaware.raise .service) fun _ => ?_
    refine .bind unaware.closeListener fun _ => .bind unaware.closeAll fun ended => ?_
    refine .bind (unaware.counts _) fun _ => .bind (unaware.gets fun _ _ => rfl) fun sink => ?_
    refine .bind (unaware.toIndistinct.close sink.sock) fun _ => .bind unaware.closeSelector fun _ => ?_
    refine .bind (unaware.asks fun _ _ _ => rfl) fun now => .bind (unaware.sets fun _ _ => rfl) fun _ => ?_
    refine .bind ?_ fun summary => unaware.log _ _
    exact .bind (unaware.asks fun _ _ _ => rfl) fun now => unaware.gets fun _ _ => rfl

theorem overview : Twins rel Relay.overview Relay.overview :=
  .bind (unaware.asks fun _ _ _ => rfl) fun _ => unaware.whole (fun _ _ => rfl) fun _ => .pure _

theorem announce : Twins rel Relay.announce Relay.announce :=
  unaware.whole (fun _ _ => rfl) fun _ => unaware.logAny _ _ _

end Parts

section Serving
variable (unaware : Unaware (fun _ => True) rel)
  (burdened : Twins rel (Run.asks Host.workload) (Run.asks Host.workload))
include unaware

theorem acceptOnce : Twins rel Relay.acceptOnce Relay.acceptOnce := fun m u related =>
  unaware.acceptOnce_paired related fun sock => unaware.accept trivial sock m u related

theorem acceptFor (fuel admitted : Nat) :
    Twins rel (Relay.acceptFor fuel admitted) (Relay.acceptFor fuel admitted) :=
  acceptFor_composed Twins.composes unaware.acceptOnce fuel admitted

theorem readOnce (conn : Connection) : Twins rel (Relay.readOnce conn) (Relay.readOnce conn) := by
  refine .bind (unaware.gets fun _ _ => rfl) fun limit => ?_
  refine .bind (.outcome (unaware.receive trivial _ limit)) fun received => ?_
  cases received with
  | error f =>
    dsimp only
    split
    · exact .pure _
    · split
      · exact .pure _
      · split
        · exact .bind (unaware.log _ _) fun _ => .bind (unaware.counts _) fun _ => .pure _
        · exact .fails _
  | ok data =>
    dsimp only
    split
    · exact .bind (unaware.log _ _) fun _ => .pure _
    · refine .bind (unaware.gets fun _ _ => rfl) fun sink => ?_
      refine .bind (unaware.forward trivial sink data _) fun sent => ?_
      exact .bind (unaware.counts _) fun _ => .pure _

theorem drainFor (conn : Connection) (fuel : Nat) :
    Twins rel (Relay.drainFor conn fuel) (Relay.drainFor conn fuel) :=
  drainFor_composed Twins.composes (unaware.readOnce conn) fuel

include burdened

theorem serve (entry : Entry) : Twins rel (Relay.serve entry) (Relay.serve entry) := by
  refine .bind (unaware.gets fun _ _ => rfl) fun listening => ?_
  split
  · refine .bind ?_ fun _ => .pure _
    exact .bind burdened fun work => unaware.acceptFor _ 0
  · refine .bind (unaware.gets fun _ _ => rfl) fun known => ?_
    cases known with
    | none => exact .pure _
    | some conn =>
      dsimp only
      split
      · exact .pure _
      · refine .bind (.bind burdened fun work => unaware.drainFor conn _) fun outcome => ?_
        split
        · exact .pure _
        · exact .bind (unaware.teardown _) fun _ => unaware.counts _

theorem dispatch (entries : List (Int × Entry)) :
    Twins rel (Relay.dispatch entries) (Relay.dispatch entries) :=
  .forM fun entry => unaware.serve burdened entry.2

theorem waitAndServe : Twins rel Relay.waitAndServe Relay.waitAndServe := by
  refine .bind (unaware.gets fun _ _ => rfl) fun timeout => .bind (.outcome ?_) fun waited => ?_
  · exact .bind unaware.overview fun overview => unaware.select trivial timeout overview
  · cases waited with
    | ok entries => exact unaware.dispatch burdened entries
    | error f =>
      dsimp only
      split
      · exact .pure _
      · exact .bind (.onlyIf (unaware.log _ _)) fun _ => .fails _

end Serving
end Unaware
end StreamRelay.Relay
