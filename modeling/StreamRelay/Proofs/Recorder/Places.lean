import StreamRelay.Proofs.Job.Turns
import StreamRelay.Proofs.Recorder.Journal

namespace StreamRelay
variable {T : Type}
open Run Host

def Event.records : Event T → Bool
  | .begun .. | .received .. | .write _ | .flush | .log .. => true
  | _ => false

namespace Recorder
variable [Clock T] {rel : Host T → Host T → Prop} {m : Machine T Recorder}

-- What a recorder does to the host.
structure Recording (rel : Host T → Host T → Prop) : Prop extends Lively rel where
  emit : ∀ h (e : Event T), e.records = true → rel h (h.emit e)
  stderr : ∀ h text, rel h { h with stderr := text }
  takes : ∀ {h id s first rest}, h.sock? id = some s → s.inbox = first :: rest →
    rel h (h.alter id fun s => { s with inbox := rest })

theorem Recording.logged (recording : Recording rel) (h : Host T) (level : Level) (text : String) :
    rel h (h.logged level text) :=
  logged_of (recording.refl h) (recording.emit h _ rfl) (recording.stderr h)

theorem Recording.turn (recording : Recording rel) (place : Place) (m : Machine T Recorder) :
    Ends place.turn m (fun _ m' => rel m.host m'.host) fun _ _ => False := by
  have refl := recording.refl m.host
  cases place with
  | looking | refused | testing =>
    simp only [Place.turn, Os.isSet, ends_bind, ends_asks]
    split <;> exact refl
  | receiving =>
    simp only [Place.turn, ends_bind, ends_gets, ends_outcome, id]
    have begun := recording.emit m.host (.begun .receiveFrom (some m.prog.sock)) rfl
    apply (receiveFrom_runs recording.toLively m.prog.bufferSize).imp
    · intro data m' reached
      obtain ⟨h, s, first, rest, path, known, queue, -, rfl⟩ := reached
      have taken := recording.trans (recording.takes known queue) (recording.emit _ (.received m.prog.sock data) rfl)
      exact recording.trans begun (recording.trans path taken)
    · exact fun _ _ path => recording.trans begun path.1
  | probing f =>
    simp only [Place.turn, ends_bind, ends_gets, ends_asks, id]
    split
    · exact recording.logged _ _ _
    · exact refl
  | writing data =>
    simp only [Place.turn, Os.write, ends_bind, ends_outcome]
    apply (recording.incident .write m).imp
    · exact fun _ m' path => recording.trans path.1 (recording.emit _ _ rfl)
    · exact fun _ _ path => path.1
  | flushing data =>
    simp only [Place.turn, Os.flush, ends_bind, ends_outcome]
    apply (recording.incident .flush m).imp
    · exact fun _ m' path => recording.trans path.1 (recording.emit _ _ rfl)
    · exact fun _ _ path => path.1
  | summing => exact recording.logged _ _ _
  | gone => exact refl

theorem recording_worn : Recording (T := T) Worn where
  toLively := steady_worn.lively
  emit h e _ := worn_emit h e
  stderr := steady_worn.stderr
  takes {h id s first rest} known queue := by
    refine ⟨directed_same rfl, fun told => told, lighter_alter fun s' there => ?_, seen_same rfl⟩
    cases Option.some.inj (there.symm.trans known)
    simp only [Sock.weight, queue, List.length_cons]
    omega

-- Once the end was asked for, a turn comes nearer to it.
theorem turn_nearer (place : Place) (living : ∀ cut, place ≠ .gone cut)
    (told : m.host.commandStop = true) :
    Ends place.turn m (fun next _ => next.weight < place.weight) fun _ _ => False := by
  cases place with
  | looking | refused | testing =>
    simp only [Place.turn, Os.isSet, ends_bind, ends_asks, isSet, told, if_true]
    exact Nat.lt_add_one 1
  | receiving =>
    simp only [Place.turn, ends_bind, ends_gets, ends_outcome]
    apply ends_any.imp
    · intro data m' _
      exact show (2 : Nat) < 4 by decide
    · intro f m' _
      simp only [ends_pure]
      split
      · exact show (2 : Nat) < 4 by decide
      · split
        · exact show (2 : Nat) < 4 by decide
        · exact show (0 : Nat) < 4 by decide
  | probing f =>
    simp only [Place.turn, ends_bind, ends_gets, ends_asks]
    split
    · exact Nat.lt_add_one 2
    · exact show (1 : Nat) < 3 by decide
  | writing data =>
    simp only [Place.turn, ends_bind, ends_outcome]
    apply ends_any.imp
    · exact fun _ _ _ => Nat.lt_add_one 3
    · exact fun _ _ _ => show (0 : Nat) < 4 by decide
  | flushing data =>
    simp only [Place.turn, ends_bind, ends_outcome]
    apply ends_any.imp
    · exact fun _ _ _ => Nat.lt_add_one 2
    · exact fun _ _ _ => show (0 : Nat) < 3 by decide
  | summing => exact Nat.one_pos
  | gone cut => exact absurd rfl (living cut)

instance : Diligent T Recorder where
  begins := rfl
  worn place _ m := recording_worn.turn place m
  rests place _ m ended := by
    cases place with
    | gone cut => exact rfl
    | _ => cases ended
  spends place _ m living told := by
    have alive : ∀ cut, place ≠ .gone cut := by
      rintro cut rfl
      cases living
    apply ((recording_worn.turn place m).and (turn_nearer place alive told)).imp
    · intro next m' both
      obtain ⟨worn, nearer⟩ := both
      have light := worn.light
      simp only [Work.left, Lighter] at light ⊢
      omega
    · exact fun _ _ never => never.1
  same h h' work place same := by simp only [Work.left, same]

section Turns

def Turns : Place × Machine T Recorder → Place × Machine T Recorder → Prop :=
  Relation.ReflTransGen fun a b => a.1.turn a.2 = .ok b.1 b.2

variable {m' last : Machine T Recorder} {came : Option Bytes} {rounds : List (Option Bytes)}
  {exit : Exit} {data : Bytes} {f : Failure}

theorem Turns.first {place next : Place} {reached : Place × Machine T Recorder}
    (turned : place.turn m = .ok next m') (rest : Turns (next, m') reached) :
    Turns (place, m) reached := rest.head turned

theorem Receives.turn (receives : Receives m (.ok data) m') :
    Place.receiving.turn m = .ok (.testing data) m' := by
  have ran : Os.receiveFrom m.prog.sock m.prog.bufferSize m = .ok data m' := receives
  simp only [Place.turn, bind, EStateM.bind, gets, outcome, id, ran]
  rfl

theorem Receives.refused (receives : Receives m (.error f) m') : Place.receiving.turn m =
    .ok (if f.timedOut then .looking else if f.isOs then .refused f else .gone (some f)) m' := by
  have ran : Os.receiveFrom m.prog.sock m.prog.bufferSize m = .error f m' := receives
  simp only [Place.turn, bind, EStateM.bind, gets, outcome, id, ran]
  rfl

theorem Receives.named (receives : Receives m (.error f) m') (late : f.timedOut = false)
    (named : f.isOs = true) : Place.receiving.turn m = .ok (.refused f) m' := by
  have turned := receives.refused
  rwa [late, named] at turned

theorem Place.looking_turn (going : m.host.commandStop = false) :
    Place.looking.turn m = .ok .receiving m := by
  simp only [Place.turn, bind, EStateM.bind, Os.isSet, asks, Host.isSet, going]
  rfl

theorem Place.refused_turn (going : m.host.commandStop = false) :
    (Place.refused f).turn m = .ok (.probing f) m := by
  simp only [Place.turn, bind, EStateM.bind, Os.isSet, asks, Host.isSet, going]
  rfl

theorem Place.testing_turn (going : m.host.commandStop = false) :
    (Place.testing data).turn m = .ok (.writing data) m := by
  simp only [Place.turn, bind, EStateM.bind, Os.isSet, asks, Host.isSet, going]
  rfl

theorem Place.looking_told (told : m.host.commandStop = true) :
    Place.looking.turn m = .ok .summing m := by
  simp only [Place.turn, bind, EStateM.bind, Os.isSet, asks, Host.isSet, told]
  rfl

theorem Place.refused_told (told : m.host.commandStop = true) :
    (Place.refused f).turn m = .ok .summing m := by
  simp only [Place.turn, bind, EStateM.bind, Os.isSet, asks, Host.isSet, told]
  rfl

theorem Place.testing_told (told : m.host.commandStop = true) :
    (Place.testing data).turn m = .ok .summing m := by
  simp only [Place.turn, bind, EStateM.bind, Os.isSet, asks, Host.isSet, told]
  rfl

theorem Place.probing_turn (closed : m.host.isOpen m.prog.sock = false) :
    (Place.probing f).turn m = .ok .summing m := by
  simp only [Place.turn, bind, EStateM.bind, gets, asks, id, closed]
  rfl

theorem Place.writing_turn (wrote : Os.write data m = .ok () m') :
    (Place.writing data).turn m = .ok (.flushing data) m' := by
  simp only [Place.turn, bind, EStateM.bind, outcome, wrote]
  rfl

theorem Round.turns (turned : Round m came m') : Turns (.receiving, m) (.looking, m') := by
  cases turned with
  | waited receives late =>
    have waited := receives.refused
    rw [late] at waited
    exact .first waited .refl
  | @refused f h receives late named going opened =>
    rw [← receives.did.1] at opened
    have probed : (Place.probing f).turn h =
        .ok .looking ⟨h.host.logged .warning ("recvfrom failed: " ++ f.message), h.prog⟩ := by
      simp only [Place.turn, bind, EStateM.bind, gets, asks, id, opened]
      rfl
    exact .first (receives.named late named) (.first (Place.refused_turn going) (.first probed .refl))
  | @kept data taken written flushed receives going wrote flushes =>
    have counted : (Place.flushing data).turn written =
        .ok .looking ⟨flushed.host, flushed.prog.tally [data]⟩ := by
      simp only [Place.turn, bind, EStateM.bind, outcome, flushes, tally, List.length_singleton,
        List.flatten_singleton]
      rfl
    exact .first receives.turn (.first (Place.testing_turn going) (.first (Place.writing_turn wrote)
      (.first counted .refl)))

def Exit.place (exit : Exit) : Place := exit.failure?.elim .summing fun f => .gone (some f)

theorem Leaves.turns (left : Leaves m exit m') : Turns (.receiving, m) (exit.place, m') := by
  cases left with
  | @late data _ receives told =>
    exact .first receives.turn (.first (Place.testing_told told) .refl)
  | shut receives late named reason =>
    refine .first (receives.named late named) ?_
    cases told : m'.host.commandStop with
    | true => exact .first (Place.refused_told told) .refl
    | false =>
      have closed := reason.resolve_left (told ▸ Bool.false_ne_true)
      rw [← receives.did.1] at closed
      exact .first (Place.refused_turn told) (.first (Place.probing_turn closed) .refl)
  | @failed f _ receives late named =>
    have failed := receives.refused
    rw [late, named] at failed
    exact .first failed .refl
  | @unwritten data taken f _ receives going wrote =>
    have cut : (Place.writing data).turn taken = .ok (.gone (some f)) m' := by
      simp only [Place.turn, bind, EStateM.bind, outcome, wrote]
      rfl
    exact .first receives.turn (.first (Place.testing_turn going) (.first cut .refl))
  | @unflushed data taken written f _ receives going wrote flushes =>
    have cut : (Place.flushing data).turn written = .ok (.gone (some f)) m' := by
      simp only [Place.turn, bind, EStateM.bind, outcome, flushes]
      rfl
    exact .first receives.turn (.first (Place.testing_turn going) (.first (Place.writing_turn wrote)
      (.first cut .refl)))

theorem Loops.turns (loops : Loops m rounds exit last) (ends : exit ≠ .endless) :
    Turns (.looking, m) (exit.place, last) := by
  induction loops with
  | told told => exact .first (Place.looking_told told) .refl
  | endless => exact absurd rfl ends
  | last going left => exact .first (Place.looking_turn going) left.turns
  | next going turned _ ih => exact .first (Place.looking_turn going) (turned.turns.trans (ih ends))

-- Without anything in between, the turns are those of the run, and come to the same.
theorem run_turns (warned : m.host.Warned) : ∃ cut,
    run m = cut.elim (.ok () (after run m)) (.error · (after run m)) ∧
      Turns (.looking, m) (.gone cut, after run m) := by
  obtain ⟨rounds, exit, last, loops, ended, reason⟩ :=
    turns_leave (m.host.workload + 2) m fun _ => .inr (Nat.le_refl _)
  have path := loops.turns (reason warned)
  refine ⟨exit.failure?, (run_ends_as ended).1, ?_⟩
  unfold Exit.place at path
  rw [after, run_of_turns ended]
  cases failed : exit.failure? with
  | some f =>
    rw [failed] at path
    exact path
  | none =>
    rw [failed] at path
    exact path.tail rfl

end Turns

end Recorder
end StreamRelay
