import StreamRelay.Relay.Accepting

namespace StreamRelay
variable {T : Type} [Clock T]

-- A clock whose readings are in an order, and whose delays never lead back.
class Clock.Ordered (T : Type) [Clock T] : Prop where
  self : ∀ t : T, Clock.before t t = false
  trans : ∀ {a b c : T}, Clock.before a b = false → Clock.before b c = false →
    Clock.before a c = false
  delayed : ∀ (t : T) {n : Int}, 0 ≤ n → Clock.before (Clock.add t (Clock.millis n)) t = false

instance : Clock.Ordered Int where
  self t := decide_eq_false (Int.lt_irrefl t)
  trans {a b c} one two := by
    have first := of_decide_eq_false one
    have second := of_decide_eq_false two
    exact decide_eq_false (by omega)
  delayed t n positive := decide_eq_false (by
    show ¬t + n < t
    omega)

def Event.calm : Event T → Bool
  | .begun .accept _ | .rests _ => false
  | _ => true

def Event.resting : Event T → Bool
  | .rests _ => true
  | _ => false

-- A listener rests, or is watched again and was not reported since, or may accept.
inductive Stage (T : Type) where
  | resting (resumeAt : T)
  | recalled
  | heard

namespace Stage

def rest? : Stage T → Option T
  | resting time => some time
  | recalled | heard => none

end Stage

namespace Relay

-- What is seen of a listener that keeps the pace, newest first, and where that leaves it.
inductive Paced (fd : Int) : Stage T → List (Stamped T) → Prop where
  | start : Paced fd .heard []
  | calm : Paced fd stage seen → s.event.calm = true → Paced fd stage (s :: seen)
  | rest : Paced fd stage seen → stage.rest? = none →
      Paced fd (.resting (Clock.add t retryDelay)) (⟨t, .rests (Clock.add t retryDelay)⟩ :: seen)
  | renew : Paced fd (.resting u) seen → Clock.before t u = false →
      Paced fd .recalled (⟨t, .register fd⟩ :: seen)
  | report : Paced fd .recalled seen → fd ∈ fds →
      Paced fd .heard (⟨t, .ready timeout fds shown⟩ :: seen)
  | accept : Paced fd .heard seen → Paced fd .heard (⟨t, .begun .accept sock⟩ :: seen)

theorem Paced.calms {fd : Int} {stage : Stage T} {seen new : List (Stamped T)}
    (paced : Paced fd stage seen) (calm : ∀ s ∈ new, s.event.calm = true) :
    Paced fd stage (new ++ seen) := by
  induction new with
  | nil => exact paced
  | cons s rest ih =>
    obtain ⟨first, others⟩ := List.forall_mem_cons.mp calm
    exact .calm (ih others) first

-- Since then the listener was watched again, at that time or later, and did not rest any more.
def Recalled (fd : Int) (resumeAt : T) (since : List (Stamped T)) : Prop :=
  ∃ later t earlier, since = later ++ ⟨t, .register fd⟩ :: earlier ∧
    Clock.before t resumeAt = false ∧ ∀ s ∈ later, s.event.resting = false

-- After that a wait reported it, and it did not rest any more.
def Reported (fd : Int) (resumeAt : T) (since : List (Stamped T)) : Prop :=
  ∃ later t timeout fds shown earlier,
    since = later ++ ⟨t, .ready timeout fds shown⟩ :: earlier ∧ fd ∈ fds ∧
      Recalled fd resumeAt earlier ∧ ∀ s ∈ later, s.event.resting = false

-- What has happened since a rest began, as far as the listener has come.
def Since (fd : Int) (resumeAt : T) : Stage T → List (Stamped T) → Prop
  | .resting time, _ => Clock.before time resumeAt = false
  | .recalled, since => Recalled fd resumeAt since
  | .heard, since => Reported fd resumeAt since

-- The clock never went back, as far as the stamps show.
def Onward (seen : List (Stamped T)) : Prop :=
  seen.Pairwise fun newer older => Clock.before newer.time older.time = false

instance (seen : List (Stamped T)) : Decidable (Onward seen) :=
  inferInstanceAs (Decidable (seen.Pairwise fun newer older => Clock.before newer.time older.time = false))

section Traces
variable {fd : Int} {seen since before later between : List (Stamped T)} {stage : Stage T}
  {s : Stamped T} {u t : T}

theorem Recalled.cons (recalled : Recalled fd u since) (awake : s.event.resting = false) :
    Recalled fd u (s :: since) := by
  obtain ⟨later, t, earlier, rfl, due, none⟩ := recalled
  exact ⟨s :: later, t, earlier, rfl, due, List.forall_mem_cons.mpr ⟨awake, none⟩⟩

theorem Reported.cons (reported : Reported fd u since) (awake : s.event.resting = false) :
    Reported fd u (s :: since) := by
  obtain ⟨later, t, timeout, fds, shown, earlier, rfl, listed, recalled, none⟩ := reported
  exact ⟨s :: later, t, timeout, fds, shown, earlier, rfl, listed, recalled,
    List.forall_mem_cons.mpr ⟨awake, none⟩⟩

theorem Since.cons (owed : Since fd u stage since) (awake : s.event.resting = false) :
    Since fd u stage (s :: since) := by
  cases stage with
  | resting time => exact owed
  | recalled => exact Recalled.cons owed awake
  | heard => exact Reported.cons owed awake

omit [Clock T] in
theorem resting_of_calm {e : Event T} (calm : e.calm = true) : e.resting = false := by
  cases e <;> first | rfl | exact absurd calm Bool.false_ne_true

theorem Since.recalled (owed : Since fd u stage since) (awake : stage.rest? = none) :
    ∃ s ∈ since, s.event = .register fd ∧ Clock.before s.time u = false := by
  have found {since : List (Stamped T)} (recalled : Recalled fd u since) :
      ∃ s ∈ since, s.event = .register fd ∧ Clock.before s.time u = false := by
    obtain ⟨later, t, earlier, rfl, due, -⟩ := recalled
    exact ⟨⟨t, .register fd⟩, List.mem_append_right _ List.mem_cons_self, rfl, due⟩
  cases stage with
  | resting time => exact absurd awake (by simp [Stage.rest?])
  | recalled => exact found owed
  | heard =>
    obtain ⟨later, t, timeout, fds, shown, earlier, rfl, -, recalled, -⟩ := owed
    obtain ⟨s, there, facts⟩ := found recalled
    exact ⟨s, List.mem_append_right _ (List.mem_cons_of_mem _ there), facts⟩

variable [Clock.Ordered T]

-- By induction on what was seen since: each event leaves right what has happened since the rest.
theorem Paced.owes (paced : Paced fd stage (since ++ ⟨t, .rests u⟩ :: before))
    (onward : Onward (since ++ ⟨t, .rests u⟩ :: before)) :
    u = Clock.add t retryDelay ∧ Since fd u stage since := by
  induction since generalizing stage with
  | nil =>
    cases paced with
    | calm _ calm => exact absurd calm Bool.false_ne_true
    | rest _ _ => exact ⟨rfl, Clock.Ordered.self _⟩
  | cons s since ih =>
    cases paced with
    | calm paced calm =>
      obtain ⟨delay, owed⟩ := ih paced onward.of_cons
      exact ⟨delay, owed.cons (resting_of_calm calm)⟩
    | @rest _ _ now paced awake =>
      obtain ⟨delay, owed⟩ := ih paced onward.of_cons
      obtain ⟨s, there, -, due⟩ := owed.recalled awake
      have later : Clock.before (Clock.add now (retryDelay : T)) now = false :=
        Clock.Ordered.delayed now (by decide)
      have newer := List.rel_of_pairwise_cons onward (List.mem_append_left _ there)
      exact ⟨delay, Clock.Ordered.trans (Clock.Ordered.trans later newer) due⟩
    | renew paced due =>
      obtain ⟨delay, owed⟩ := ih paced onward.of_cons
      exact ⟨delay, [], _, since, rfl, Clock.Ordered.trans due owed,
        fun _ there => absurd there List.not_mem_nil⟩
    | report paced listed =>
      obtain ⟨delay, owed⟩ := ih paced onward.of_cons
      exact ⟨delay, [], _, _, _, _, since, rfl, listed, owed,
        fun _ there => absurd there List.not_mem_nil⟩
    | accept paced =>
      obtain ⟨delay, owed⟩ := ih paced onward.of_cons
      exact ⟨delay, owed.cons rfl⟩

omit [Clock.Ordered T] in
theorem Paced.earlier (paced : Paced fd stage (later ++ before)) :
    ∃ stage, Paced fd stage before := by
  induction later generalizing stage with
  | nil => exact ⟨stage, paced⟩
  | cons s later ih =>
    cases paced with
    | calm paced _ | rest paced _ | renew paced _ | report paced _ | accept paced => exact ih paced

omit [Clock.Ordered T] in
theorem Paced.before_accept {sock : Option SocketId}
    (paced : Paced fd stage (later ++ ⟨t, .begun .accept sock⟩ :: before)) :
    Paced fd .heard before := by
  obtain ⟨stage, paced⟩ := paced.earlier
  cases paced with
  | calm _ calm => exact absurd calm Bool.false_ne_true
  | accept paced => exact paced

omit [Clock.Ordered T] in
theorem Paced.before_rest (paced : Paced fd stage (later ++ ⟨t, .rests u⟩ :: before)) :
    ∃ stage, Paced fd stage before ∧ stage.rest? = none := by
  obtain ⟨stage, paced⟩ := paced.earlier
  cases paced with
  | calm _ calm => exact absurd calm Bool.false_ne_true
  | rest paced awake => exact ⟨_, paced, awake⟩

-- What the pace comes to for any two events of all that is seen.
structure Limited (fd : Int) (seen : List (Stamped T)) : Prop where
  delay : ∀ t u, ⟨t, .rests u⟩ ∈ seen → u = Clock.add t retryDelay
  accepts : ∀ later t sock between t' u before,
    seen = later ++ ⟨t, .begun .accept sock⟩ :: between ++ ⟨t', .rests u⟩ :: before →
      Reported fd u between
  rests : ∀ later t u between t' u' before,
    seen = later ++ ⟨t, .rests u⟩ :: between ++ ⟨t', .rests u'⟩ :: before →
      Clock.before t u' = false
  failures : ∀ later t u between t' u' before,
    seen = later ++ ⟨t, .rests u⟩ :: between ++ ⟨t', .rests u'⟩ :: before →
      ∀ now sock, ⟨now, .begun .accept sock⟩ ∈ between →
        Clock.before t (Clock.add t' retryDelay) = false ∧
          ∃ waited timeout fds shown, ⟨waited, .ready timeout fds shown⟩ ∈ between ∧ fd ∈ fds

theorem Paced.limited (paced : Paced fd stage seen) (onward : Onward seen) : Limited fd seen := by
  have onwards {later before : List (Stamped T)} {s : Stamped T}
      (split : seen = later ++ s :: before) : Onward before :=
    (List.pairwise_append.mp (split ▸ onward)).2.1.of_cons
  have accepts (later : List (Stamped T)) (t : T) (sock : Option SocketId)
      (between : List (Stamped T)) (t' u : T) (before : List (Stamped T))
      (split : seen = later ++ ⟨t, .begun .accept sock⟩ :: between ++ ⟨t', .rests u⟩ :: before) :
      u = Clock.add t' retryDelay ∧ Reported fd u between := by
    rw [List.append_assoc, List.cons_append] at split
    exact (split ▸ paced).before_accept.owes (onwards split)
  have rests (later : List (Stamped T)) (t u : T) (between : List (Stamped T)) (t' u' : T)
      (before : List (Stamped T))
      (split : seen = later ++ ⟨t, .rests u⟩ :: between ++ ⟨t', .rests u'⟩ :: before) :
      Clock.before t u' = false := by
    rw [List.append_assoc, List.cons_append] at split
    obtain ⟨stage, earlier, awake⟩ := (split ▸ paced).before_rest
    obtain ⟨s, there, -, due⟩ := (earlier.owes (onwards split)).2.recalled awake
    have newer : Clock.before t s.time = false := by
      have ordered := (List.pairwise_append.mp (split ▸ onward)).2.1
      exact List.rel_of_pairwise_cons ordered (List.mem_append_left _ there)
    exact Clock.Ordered.trans newer due
  refine ⟨fun t u there => ?_, fun later t sock between t' u before split => ?_, rests, ?_⟩
  · obtain ⟨since, before, split⟩ := List.append_of_mem there
    subst split
    exact (paced.owes onward).1
  · exact (accepts later t sock between t' u before split).2
  · intro later t u between t' u' before split now sock there
    obtain ⟨new, old, parts⟩ := List.append_of_mem there
    have cut : seen = (later ++ ⟨t, .rests u⟩ :: new) ++ ⟨now, .begun .accept sock⟩ :: old ++
        ⟨t', .rests u'⟩ :: before := by
      rw [split, parts]
      simp only [List.append_assoc, List.cons_append]
    obtain ⟨delay, last, waited, timeout, fds, shown, first, rfl, listed, -⟩ :=
      accepts _ now sock old t' u' before cut
    refine ⟨delay ▸ rests later t u between t' u' before split, waited, timeout, fds, shown, ?_,
      listed⟩
    rw [parts]
    simp

end Traces

end Relay
end StreamRelay
