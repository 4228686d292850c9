import StreamRelay.Proofs.Relay.Service

namespace StreamRelay

-- No socket that was accepted got the number of the listener, which is open all the while.
def Host.Apart {T : Type} (h : Host T) : Prop :=
  ∀ own ∈ h.listener, ∀ id ∈ h.accepted, h.number id ≠ h.number own

instance {T : Type} (h : Host T) : Decidable h.Apart :=
  inferInstanceAs (Decidable (∀ own ∈ h.listener, ∀ id ∈ h.accepted, h.number id ≠ h.number own))

namespace Relay
variable {T : Type}
open Run Host

structure Accepted (h : Host T) (e : SocketId × Int) : Prop where
  told : e.1 ∈ h.accepted
  bounded : e.1 < h.sockets.length
  number : e.2 = h.number e.1

def Enlisted (m : Machine T (Relay T)) : Prop := ∀ e ∈ roll m.prog, Accepted m.host e

theorem Enlisted.distinct {m : Machine T (Relay T)} (enlisted : Enlisted m)
    (listener : m.host.listener = some m.prog.listener.sock) (apart : m.host.Apart) :
    Distinct m := by
  intro e there
  have accepted := enlisted e there
  rw [accepted.number]
  exact apart _ listener e.1 accepted.told

def SameRoll (r r' : Relay T) : Prop := roll r' = roll r

theorem soft_roll : Soft (T := T) SameRoll where
  refl _ := rfl
  trans one two := Eq.trans two one
  tend tended := tended.known

def Enlists (m m' : Machine T (Relay T)) : Prop :=
  Aged m.host m'.host ∧ (m.host.Orderly → Enlisted m → Enlisted m')

theorem Enlisted.aged {h h' : Host T} {r r' : Relay T} (enlisted : Enlisted ⟨h, r⟩)
    (ages : Ages h h') (same : SameRoll r r') : Enlisted ⟨h', r'⟩ := by
  intro e there
  have before := enlisted e (same ▸ there)
  refine ⟨ages.accepted _ before.told, Nat.lt_of_lt_of_le before.bounded ages.grown, ?_⟩
  exact before.number.trans (ages.number _ before.bounded).symm

theorem enlists_of_both {m m' : Machine T (Relay T)} (path : Both Aged SameRoll m m') :
    Enlists m m' := ⟨path.1, fun orderly enlisted => enlisted.aged (path.1 orderly).2 path.2⟩

theorem enlists_course : Course (Enlists (T := T)) Enlists where
  refl _ := ⟨.refl _, fun _ enlisted => enlisted⟩
  trans one two := ⟨one.1.trans two.1, fun orderly enlisted =>
    two.2 (one.1 orderly).1 (one.2 orderly enlisted)⟩
  weaken path := path
  falls one two := ⟨one.1.trans two.1, fun orderly enlisted =>
    two.2 (one.1 orderly).1 (one.2 orderly enlisted)⟩

variable [Clock T]

theorem closing_roll : Closing (T := T) (Both Aged SameRoll) (Both Aged SameRoll) :=
  ample_aged.modest.closing soft_roll

theorem resting_roll : Resting (T := T) (Both Aged SameRoll) (Both Aged SameRoll) where
  toCourse := closing_roll.toCourse
  log := closing_roll.log
  rests time := both_of_keeps soft_roll (changes_keeps fun h => aged_emit h (.rests time))
  register id conn := both_of_keeps soft_roll (ample_aged.register id conn)
  unregister := closing_roll.unregister
  rest h _ _ := ⟨.refl h, rfl⟩

omit [Clock T] in
theorem enlists_within {act : Run T (Relay T) α}
    (within : Within (Both Aged SameRoll) (Both Aged SameRoll) act) :
    Within Enlists Enlists act := within.mono enlists_of_both enlists_of_both

theorem enroll_enlists {m : Machine T (Relay T)} (orderly : m.host.Orderly)
    {sock : SocketId} (told : sock ∈ m.host.accepted) (bounded : sock < m.host.sockets.length)
    (peer : Peer) (enlisted : Enlisted m) :
    Ends (enroll sock peer) m (fun _ => Enlisted) fun _ => Enlisted := by
  apply (enroll_ends orderly sock peer).imp
  · intro admitted m' reached
    obtain ⟨h, settled, came⟩ := reached
    obtain ⟨after, ages⟩ := settled.aged orderly
    cases admitted with
    | none =>
      obtain rfl := came
      exact enlisted.aged (ages.trans (aged_shut h sock after).2) rfl
    | some conn =>
      obtain ⟨-, -, rfl, rfl⟩ := came
      have before : Enlisted ⟨h.watch sock (some sock), m.prog⟩ :=
        enlisted.aged (ages.trans (aged_entries h _ after).2) rfl
      intro e there
      simp only [roll, setTable, Table.insert, List.map_append, List.map_cons, List.map_nil,
        List.mem_append, List.mem_singleton] at there
      cases there with
      | inl known => exact before e known
      | inr new =>
        subst new
        exact ⟨ages.accepted sock told, Nat.lt_of_lt_of_le bounded ages.grown, rfl⟩
  · intro f m' reached
    obtain ⟨⟨settled, same⟩, -⟩ := reached
    exact enlisted.aged (settled.aged orderly).2 (congrArg roll same)

theorem acceptOnce_enlists {m : Machine T (Relay T)} (orderly : m.host.Orderly)
    (enlisted : Enlisted m) : Ends acceptOnce m (fun _ => Enlisted) fun _ => Enlisted := by
  obtain ⟨h, r⟩ := m
  have later {m m' : Machine T (Relay T)} (orderly : m.host.Orderly) (enlisted : Enlisted m)
      (path : Both Aged SameRoll m m') : Enlisted m' := enlisted.aged (path.1 orderly).2 path.2
  apply ends_acceptOnce
  apply (accept_ends ample_aged.toSteady).imp
  · intro found m' reached
    obtain ⟨h', s, rest, path, known, queue, rfl⟩ := reached
    have before := (path orderly).1
    have waits : found.1 ∈ h'.pending :=
      (dequeue_perm known queue).mem_iff.mp List.mem_cons_self
    have bounded := before.pending_lt _ waits
    have aged := path.trans ((aged_dequeue known queue).trans (aged_emit _
      (.accept found.1 (h'.number found.1))))
    obtain ⟨after, ages⟩ := aged orderly
    have held := enlisted.aged ages (rfl : SameRoll r r)
    have length : (h'.dequeue r.listener.sock rest).sockets.length = h'.sockets.length :=
      length_alter
    generalize came : (h'.dequeue r.listener.sock rest).emit _ = host at *
    have told : found.1 ∈ host.accepted := came ▸ List.mem_cons_self
    have inside : found.1 < host.sockets.length := by
      rw [← came]
      exact length.symm ▸ bounded
    apply ((ground_parts.enroll found.1 ⟨found.2, []⟩ ⟨host, r⟩).and
      (enroll_enlists (m := ⟨host, r⟩) after told inside ⟨found.2, []⟩ held)).imp
    · intro admitted m' ended
      have ready := (ended.1.1 after).1
      constructor
      case dismissed => exact fun _ => ended.2
      case enrolled =>
        intro conn _
        exact ended.2.aged (ample_aged.logged m'.host .info _ ready).2 rfl
    · exact fun _ _ ended => ended.2
  · intro f m' reached
    obtain ⟨path, same⟩ := reached
    have ready := (path orderly).1
    have still : Enlisted m' := enlisted.aged (path orderly).2 (congrArg roll same)
    have logged (text : String) := ample_aged.logged m'.host .error text ready
    have noted (text : String) : Enlisted ⟨m'.host.logged .error text, m'.prog⟩ :=
      still.aged (logged text).2 rfl
    constructor
    case blocked => exact fun _ => still
    case broken => exact fun _ _ => still
    case skipped => exact fun _ _ _ _ => noted _
    case rests =>
      intro _ _ _ _
      apply (resting_roll.pause retryDelay _).imp
      · exact fun _ _ path => later (logged _).1 (noted _) path
      · exact fun _ _ path => later (logged _).1 (noted _) path
    case foreign => exact fun _ _ _ => still

theorem enlists_rounds : Rounds (T := T) Enlists Enlists := by
  have keeps {α : Type} {act : Run T (Relay T) α} (keeps : Keeps Aged act) :
      Within Enlists Enlists act := enlists_within (both_of_keeps soft_roll keeps)
  have accepts : Within (Enlists (T := T)) Enlists acceptOnce := by
    intro m
    apply ((ground_parts.acceptOnce m).and (Ends.given (m.host.Orderly ∧ Enlisted m) fun both =>
      acceptOnce_enlists both.1 both.2)).imp
    · exact fun _ _ ended => ⟨ended.1.1, fun orderly enlisted => ended.2 ⟨orderly, enlisted⟩⟩
    · exact fun _ _ ended => ⟨ended.1.1, fun orderly enlisted => ended.2 ⟨orderly, enlisted⟩⟩
  refine ⟨enlists_course, fun level text => keeps (ample_aged.log level text),
    enlists_within closing_roll.stop,
    fun timeout overview => keeps (select_keeps ample_aged.toSteady timeout overview),
    fun control timeout => keeps (ample_aged.control control timeout),
    fun h r c => enlists_of_both ⟨.refl h, rfl⟩, enlists_within resting_roll.maybeResume, ?_⟩
  apply serve_within
  · refine ⟨⟨enlists_course, fun level text => keeps (ample_aged.log level text),
      fun id => keeps (ample_aged.unregister id), fun h r r' tended => ?_⟩, ?_, ?_, ?_⟩
    · exact enlists_of_both ⟨.refl h, soft_roll.tend tended⟩
    · exact enlists_within closing_roll.stop
    · exact fun id => enlists_within (closing_roll.close id)
    · exact enlists_within closing_roll.closeSelector
  · exact acceptAll_within enlists_course accepts
  · intro conn m known
    have same {m' : Machine T (Relay T)} (path : Counted Aged m m') : Enlists m m' := by
      obtain ⟨aged, f, -, rest⟩ := path
      have roll : SameRoll m.prog m'.prog := by rw [rest]; rfl
      exact enlists_of_both ⟨aged, roll⟩
    exact (ample_aged.reading.drain conn m).imp (fun _ _ => same) fun _ _ => same

theorem enlists_close : Within (Enlists (T := T)) Enlists close :=
  enlists_within (closing_roll.finish fun h _ => ⟨.refl h, rfl⟩)

end Relay
end StreamRelay
