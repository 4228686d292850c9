import Mathlib.Logic.Relation
import StreamRelay.Crew.Threads
import StreamRelay.Proofs.Host.Streams
import StreamRelay.Proofs.Sums

namespace StreamRelay
variable {T : Type}

-- The receives that returned data, oldest first.
def Host.takings (h : Host T) : List (SocketId × Bytes) := h.receipts.filter fun r => !r.2.isEmpty

namespace Crew
open Run

namespace Phase

-- What was read and is in no counter yet.
def held : Phase → Option Bytes
  | holding data | counting data _ => some data
  | dying _ lost | fading lost | dead lost => lost
  | _ => none

def exit? : Phase → Option Exit
  | closing exit | signing exit | leaving exit | away exit => some exit
  | _ => none

-- Whether the reader has taken its client off the books.
def signed : Phase → Bool
  | leaving _ | away _ => true
  | _ => false

-- A reader's own share of the counters, its acceptance included, but for what it has passed on.
def tally (phase : Phase) : Counters where
  accepted := 1
  closed := if phase.signed then 1 else 0
  readErrors := if phase.exit? = some (.broke true) then 1 else 0

end Phase

def passed (counted : List (Bytes × Bool)) : Counters :=
  (counted.map fun entry => ({} : Counters).forwarded entry.2 entry.1.length).sum

namespace Hand

def taken (hand : Hand) : List Bytes := hand.counted.map Prod.fst ++ hand.phase.held.toList

def tally (hand : Hand) : Counters := hand.phase.tally + passed hand.counted

end Hand

def Why.inHand : Why → List SocketId
  | unready sock _ => [sock]
  | _ => []

namespace Duty

-- The client that was accepted and has no reader.
def inHand : Duty → List SocketId
  | preparing sock _ | listing sock _ | hiring sock _ => [sock]
  | starting r => [r.sock]
  | closing why _ | gone why _ => why.inHand
  | _ => []

-- The client that is on the books and has no reader.
def listed : Duty → List SocketId
  | hiring sock _ => [sock]
  | starting r => [r.sock]
  | _ => []

-- Whether the loop goes on and is about nobody in particular.
def idle : Duty → Bool
  | announcing | looking | accepting | reporting _ => true
  | _ => false

def why? : Duty → Option Why
  | closing why _ | gone why _ => some why
  | _ => none

end Duty

variable [Clock T]

structure Stage (T : Type) where
  machine : Machine T (Crew T)
  duty : Duty := .announcing
  hands : List Hand := []

-- One of the threads takes a turn.
inductive Turn : Stage T → Stage T → Prop where
  | loop {m m' : Machine T (Crew T)} {duty duty' : Duty} {hands : List Hand}
      (ran : duty.turn m = .ok duty' m') : Turn ⟨m, duty, hands⟩ ⟨m', duty', hands ++ duty.hires⟩
  | hand {m m' : Machine T (Crew T)} {duty : Duty} {before after : List Hand} {hand hand' : Hand}
      (ran : hand.turn m = .ok hand' m') :
      Turn ⟨m, duty, before ++ hand :: after⟩ ⟨m', duty, before ++ hand' :: after⟩

namespace Stage

def next? (s : Stage T) : Option Nat → Option (Stage T)
  | none =>
    match s.duty.turn s.machine with
    | .ok duty m => some ⟨m, duty, s.hands ++ s.duty.hires⟩
    | .error _ _ => none
  | some i =>
    match s.hands[i]? with
    | none => none
    | some hand =>
      match hand.turn s.machine with
      | .ok hand m => some ⟨m, s.duty, s.hands.set i hand⟩
      | .error _ _ => none

theorem next?_exact {a b : Stage T} : (∃ who, a.next? who = some b) ↔ Turn a b := by
  obtain ⟨m, duty, hands⟩ := a
  constructor
  · rintro ⟨who, found⟩
    cases who with
    | none =>
      simp only [next?] at found
      split at found
      · rename_i ran
        cases found
        exact .loop ran
      · cases found
    | some i =>
      simp only [next?] at found
      split at found
      · cases found
      · rename_i hand there
        obtain ⟨bounded, rfl⟩ := List.getElem?_eq_some_iff.mp there
        split at found
        · rename_i hand' m' ran
          obtain ⟨before, after, whole, -, replaced⟩ := List.exists_of_set bounded
          cases found
          rw [replaced]
          generalize hands[i] = hand at whole ran
          subst whole
          exact .hand ran
        · cases found
  · intro turn
    cases turn with
    | loop ran => exact ⟨none, by simp only [next?, ran]⟩
    | @hand m m' duty before after hand hand' ran =>
      exact ⟨some before.length, by simp [next?, ran]⟩

-- Takes turns in a given order, each at a stage that is fit for it.
def play (fit : Stage T → Bool) : List (Option Nat) → Stage T → Option (Stage T)
  | [], s => some s
  | who :: rest, s => if fit s then (s.next? who).bind (play fit rest) else none

theorem play_path {fit : Stage T → Bool} {order : List (Option Nat)} {a b : Stage T}
    (played : play fit order a = some b) :
    Relation.ReflTransGen (fun a b => fit a = true ∧ Turn a b) a b := by
  induction order generalizing a with
  | nil =>
    cases played
    exact .refl
  | cons who rest ih =>
    simp only [play] at played
    split at played
    · rename_i good
      obtain ⟨middle, taken, later⟩ := Option.bind_eq_some_iff.mp played
      exact (ih later).head ⟨good, next?_exact.mp ⟨who, taken⟩⟩
    · cases played

end Stage

-- So does a thread, or something happens outside, or somebody calls for the end.
inductive Step : Stage T → Stage T → Prop where
  | turn {a b : Stage T} (taken : Turn a b) : Step a b
  | outside {m : Machine T (Crew T)} {duty : Duty} {hands : List Hand} (action : Action T) :
      Step ⟨m, duty, hands⟩ ⟨⟨m.host.apply action, m.prog⟩, duty, hands⟩
  | told {m : Machine T (Crew T)} {duty : Duty} {hands : List Hand} :
      Step ⟨m, duty, hands⟩ ⟨⟨m.host.raise .service, m.prog⟩, duty, hands⟩

def Reached : Stage T → Stage T → Prop := Relation.ReflTransGen Step

theorem play_reached {fit : Stage T → Bool} {order : List (Option Nat)} {a b : Stage T}
    (played : Stage.play fit order a = some b) : Reached a b :=
  Relation.ReflTransGen.mono (fun _ _ both => Step.turn both.2) _ _ (Stage.play_path played)

end Crew
end StreamRelay
