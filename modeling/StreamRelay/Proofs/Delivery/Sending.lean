import StreamRelay.Delivery
import StreamRelay.Proofs.Host.Lasting

namespace StreamRelay.Delivery
variable {T P : Type}
open Run Host

-- One send: the bytes that it offered, and the count or the failure that it came to.
structure Sending where
  offered : Bytes
  result : Except Failure Int

-- The bytes that it accepted, by its own account.
def Sending.accepted (s : Sending) : Bytes :=
  match s.result with
  | .ok count => s.offered.take count.toNat
  | .error _ => []

def accepted (sendings : List Sending) : Bytes := sendings.flatMap Sending.accepted

-- What is made of a message by its sends, of which these are all, in order.
structure Conveyed (data : Bytes) (sendings : List Sending) (result : Except Failure Unit) :
    Prop where
  offers : ∀ past s later, sendings = past ++ s :: later →
    accepted past ++ s.offered = data ∧ s.offered ≠ []
  begins : ∀ past later, sendings = past ++ later → accepted past <+: data
  whole : result = .ok () ↔ accepted sendings = data
  stalls : ∀ past s later count, sendings = past ++ s :: later → s.result = .ok count → count ≤ 0 →
    later = [] ∧ ∃ f, result = .error f ∧ f = .stalled (accepted past).length data.length ∧
      f.message = "send made no progress after " ++ toString (accepted past).length ++ "/" ++
        toString data.length ++ " bytes"
  refuses : ∀ past s later f, sendings = past ++ s :: later → s.result = .error f →
    later = [] ∧ result = .error f
  fails : ∀ f, result = .error f → ∃ past s, sendings = past ++ [s] ∧
    (s.result = .error f ∨ ∃ count ≤ 0, s.result = .ok count)
  bounded : sendings.length ≤ data.length

section Calls
variable [Clock T] [Resumable T P]

-- Sends on one socket, each from the machine that the one before it left.
inductive Sends (sock : SocketId) : Machine T P → List Sending → Machine T P → Prop where
  | none : Sends sock m [] m
  | next : outcome (Os.send sock offered) m = .ok result middle → Sends sock middle later last →
      Sends sock m (⟨offered, result⟩ :: later) last

-- A delivery from a socket of its own. A connection that is refused was none, and there is no socket.
inductive Delivered (address : Address) (payload : Bytes) (timeout : Option T) (m : Machine T P) :
    Except Failure Unit → Machine T P → Prop where
  | refused : Os.incident .connect ⟨m.host.emit (.connect address timeout), m.prog⟩ = .error f m' →
      Delivered address payload timeout m (.error f) m'
  | connected : Os.connect address timeout m = .ok sock opened → Sends sock opened sendings sent →
      Conveyed payload sendings result → outcome (Os.close sock) sent = .ok (.ok ()) m' →
      m'.host.isOpen sock = false → Delivered address payload timeout m result m'

end Calls

inductive Progress : Bytes → Bytes → List Sending → Except Failure Unit → Prop where
  | whole : Progress done [] [] (.ok ())
  | refused : rest ≠ [] → Progress done rest [⟨rest, .error f⟩] (.error f)
  | stalled : rest ≠ [] → count ≤ 0 → Progress done rest [⟨rest, .ok count⟩]
      (.error (.stalled done.length (done ++ rest).length))
  | next : rest ≠ [] → 0 < count →
      Progress (done ++ rest.take count.toNat) (rest.drop count.toNat) later result →
      Progress done rest (⟨rest, .ok count⟩ :: later) result

section Progress
variable {data done rest : Bytes} {sendings past later : List Sending} {s : Sending}
  {result : Except Failure Unit} {f : Failure} {count : Int}

theorem take_drop (n : Nat) : done ++ rest.take n ++ rest.drop n = done ++ rest := by
  rw [List.append_assoc, List.take_append_drop]

theorem Progress.offers (progress : Progress done rest sendings result)
    (cut : sendings = past ++ s :: later) :
    done ++ accepted past ++ s.offered = done ++ rest ∧ s.offered ≠ [] := by
  induction progress generalizing past with
  | whole => simp at cut
  | refused left | stalled left =>
    cases past with
    | nil =>
      cases cut
      exact ⟨by simp [accepted], left⟩
    | cons first past => simp at cut
  | next left _ _ ih =>
    cases past with
    | nil =>
      cases cut
      exact ⟨by simp [accepted], left⟩
    | cons first past =>
      cases cut
      have offered := ih rfl
      rw [take_drop, List.append_assoc] at offered
      simpa [accepted, Sending.accepted] using offered

theorem Progress.left (progress : Progress done rest sendings result) :
    ∃ left, accepted sendings ++ left = rest ∧ (result = .ok () ↔ left = []) := by
  induction progress with
  | whole => exact ⟨[], rfl, by simp⟩
  | refused more =>
    refine ⟨_, rfl, ?_⟩
    simp [more]
  | @stalled rest count _ more none =>
    have nothing : count.toNat = 0 := Int.toNat_of_nonpos none
    refine ⟨rest, by simp [accepted, Sending.accepted, nothing], ?_⟩
    simp [more]
  | @next rest count _ _ _ more some _ ih =>
    obtain ⟨left, all, well⟩ := ih
    refine ⟨left, ?_, well⟩
    have apart := List.take_append_drop count.toNat rest
    rw [← all, ← List.append_assoc] at apart
    exact apart

theorem Progress.begins (progress : Progress done rest sendings result)
    (cut : sendings = past ++ later) : done ++ accepted past <+: done ++ rest := by
  cases later with
  | nil =>
    obtain ⟨left, all, -⟩ := progress.left
    rw [List.append_nil] at cut
    exact ⟨left, by rw [← cut, List.append_assoc, all]⟩
  | cons s later => exact ⟨s.offered, (progress.offers cut).1⟩

theorem Progress.stalls (progress : Progress done rest sendings result)
    (cut : sendings = past ++ s :: later) (counted : s.result = .ok count) (none : count ≤ 0) :
    later = [] ∧
      result = .error (.stalled (done ++ accepted past).length (done ++ rest).length) := by
  induction progress generalizing past with
  | whole => simp at cut
  | refused more =>
    cases past with
    | nil =>
      cases cut
      cases counted
    | cons first past => simp at cut
  | stalled more none =>
    cases past with
    | nil =>
      cases cut
      exact ⟨rfl, by simp [accepted]⟩
    | cons first past => simp at cut
  | next more some _ ih =>
    cases past with
    | nil =>
      cases cut
      cases counted
      exact absurd some (Int.not_lt.mpr none)
    | cons first past =>
      cases cut
      have ended := ih rfl
      rw [take_drop, List.append_assoc] at ended
      exact ended

theorem Progress.refuses (progress : Progress done rest sendings result)
    (cut : sendings = past ++ s :: later) (failed : s.result = .error f) :
    later = [] ∧ result = .error f := by
  induction progress generalizing past with
  | whole => simp at cut
  | refused more =>
    cases past with
    | nil =>
      cases cut
      cases failed
      exact ⟨rfl, rfl⟩
    | cons first past => simp at cut
  | stalled more none =>
    cases past with
    | nil =>
      cases cut
      cases failed
    | cons first past => simp at cut
  | next more some _ ih =>
    cases past with
    | nil =>
      cases cut
      cases failed
    | cons first past =>
      cases cut
      exact ih rfl

theorem Progress.fails (progress : Progress done rest sendings result) (failed : result = .error f) :
    ∃ past s, sendings = past ++ [s] ∧
      (s.result = .error f ∨ ∃ count ≤ 0, s.result = .ok count) := by
  induction progress with
  | whole => cases failed
  | refused more =>
    cases failed
    exact ⟨[], _, rfl, .inl rfl⟩
  | stalled more none => exact ⟨[], _, rfl, .inr ⟨_, none, rfl⟩⟩
  | next more some _ ih =>
    obtain ⟨past, s, last, why⟩ := ih failed
    exact ⟨_ :: past, s, congrArg _ last, why⟩

-- Each send but the last one took something off.
theorem Progress.bounded (progress : Progress done rest sendings result) :
    sendings.length ≤ rest.length := by
  induction progress with
  | whole => exact Nat.le_refl 0
  | refused more | stalled more => exact List.length_pos_iff.mpr more
  | next more some _ ih =>
    have left := List.length_pos_iff.mpr more
    rw [List.length_drop] at ih
    rw [List.length_cons]
    omega

theorem Progress.conveyed (progress : Progress [] data sendings result) :
    Conveyed data sendings result where
  offers past s later := progress.offers
  begins past later := progress.begins
  whole := by
    obtain ⟨left, all, well⟩ := progress.left
    rw [well, ← all]
    simp
  stalls past s later count cut counted none := by
    have ended := progress.stalls cut counted none
    exact ⟨ended.1, _, ended.2, rfl, rfl⟩
  refuses past s later f := progress.refuses
  fails f := progress.fails
  bounded := progress.bounded

end Progress

section Runs
variable [Clock T] [Resumable T P] {sock : SocketId} {m : Machine T P}

-- By induction on the bound: what is left gets shorter with each send, and the count is that of the
-- accepted bytes for as long as something is left.
theorem sendRest_progress {done rest : Bytes} {sent : Int} {fuel : Nat}
    (enough : rest.length ≤ fuel) (counted : rest ≠ [] → sent = done.length) :
    Ends (sendRest sock (done ++ rest).length fuel sent rest) m
      (fun _ m' => ∃ sendings, Sends sock m sendings m' ∧ Progress done rest sendings (.ok ()))
      fun f m' => ∃ sendings, Sends sock m sendings m' ∧ Progress done rest sendings (.error f) := by
  induction fuel generalizing m done rest sent with
  | zero =>
    have none : rest = [] := List.eq_nil_of_length_eq_zero (Nat.le_zero.mp enough)
    subst none
    exact ⟨[], .none, .whole⟩
  | succ fuel ih =>
    rw [sendRest]
    by_cases none : rest = []
    · subst none
      exact ⟨[], .none, .whole⟩
    · rw [if_neg (by simpa using none), ends_bind]
      apply Ends.ran.imp
      · intro count middle ran
        have offered : outcome (Os.send sock rest) m = .ok (.ok count) middle := by
          simp only [outcome, ran]
        split
        · rename_i stuck
          rw [ends_fails, counted none]
          exact ⟨_, .next offered .none, .stalled none stuck⟩
        · rename_i some
          have some : 0 < count := Int.not_le.mp some
          have shorter : (rest.drop count.toNat).length ≤ fuel := by
            rw [List.length_drop]
            omega
          have counted' (left : rest.drop count.toNat ≠ []) :
              sent + count = (done ++ rest.take count.toNat).length := by
            have longer := List.length_pos_iff.mpr left
            rw [List.length_drop] at longer
            rw [counted none, List.length_append, List.length_take]
            omega
          have later := ih (m := middle) shorter counted'
          rw [take_drop] at later
          apply later.imp
          · intro _ m' reached
            obtain ⟨sendings, sends, progress⟩ := reached
            exact ⟨_, .next offered sends, .next none some progress⟩
          · intro f m' reached
            obtain ⟨sendings, sends, progress⟩ := reached
            exact ⟨_, .next offered sends, .next none some progress⟩
      · intro f m' ran
        have offered : outcome (Os.send sock rest) m = .ok (.error f) m' := by
          simp only [outcome, ran]
        exact ⟨_, .next offered .none, .refused none⟩

theorem sendAll_conveys (data : Bytes) : Ends (sendAll sock data) m
    (fun _ m' => ∃ sendings, Sends sock m sendings m' ∧ Conveyed data sendings (.ok ()))
    fun f m' => ∃ sendings, Sends sock m sendings m' ∧ Conveyed data sendings (.error f) := by
  have begun : data ≠ [] → (0 : Int) = ([] : Bytes).length := fun _ => rfl
  apply (sendRest_progress (Nat.le_refl data.length) begun).imp
  · intro _ m' reached
    obtain ⟨sendings, sends, progress⟩ := reached
    exact ⟨sendings, sends, progress.conveyed⟩
  · intro f m' reached
    obtain ⟨sendings, sends, progress⟩ := reached
    exact ⟨sendings, sends, progress.conveyed⟩

theorem connect_ends (address : Address) (timeout : Option T) : Ends (Os.connect address timeout) m
    (fun sock opened => Os.connect address timeout m = .ok sock opened)
    fun f m' => Os.incident .connect ⟨m.host.emit (.connect address timeout), m.prog⟩ = .error f m' := by
  have early : Ends (Os.connect address timeout) m (fun _ _ => True) fun f m' =>
      Os.incident .connect ⟨m.host.emit (.connect address timeout), m.prog⟩ = .error f m' := by
    rw [Os.connect, ends_bind, ends_emits, ends_bind]
    apply Ends.ran.imp
    · exact fun _ _ _ => trivial
    · exact fun f m' ran => ran
  apply (Ends.ran.and early).imp
  · exact fun sock opened both => both.1
  · exact fun f m' both => both.2

theorem deliverBy_delivers (address : Address) (payload : Bytes) (timeout : Option T) :
    Ends (deliverBy Mode.tcp.name address payload timeout) m
      (fun _ m' => Delivered address payload timeout m (.ok ()) m')
      fun f m' => Delivered address payload timeout m (.error f) m' := by
  have known : Mode.ofName? Mode.tcp.name = some .tcp := by decide
  simp only [deliverBy, known, deliver]
  rw [ends_bind]
  apply (connect_ends address timeout).imp
  · intro sock opened connected
    rw [ends_ensuring]
    apply (sendAll_conveys payload).imp
    · intro _ sent reached
      obtain ⟨sendings, sends, conveyed⟩ := reached
      rw [ends_close]
      refine .connected connected sends conveyed rfl ?_
      rw [isOpen_shut, if_pos rfl]
    · intro f sent reached
      obtain ⟨sendings, sends, conveyed⟩ := reached
      rw [ends_close]
      refine .connected connected sends conveyed rfl ?_
      rw [isOpen_shut, if_pos rfl]
  · exact fun f m' refused => .refused refused

-- Whatever each send comes to, and whatever else happens meanwhile.
theorem messages_conveyed (m : Machine T P) (data : Bytes) :
    (∀ sock, Ends (sendAll sock data) m
      (fun _ m' => ∃ sendings, Sends sock m sendings m' ∧ Conveyed data sendings (.ok ()))
      fun f m' => ∃ sendings, Sends sock m sendings m' ∧ Conveyed data sendings (.error f)) ∧
    ∀ address timeout, Ends (deliverBy Mode.tcp.name address data timeout) m
      (fun _ m' => Delivered address data timeout m (.ok ()) m')
      fun f m' => Delivered address data timeout m (.error f) m' :=
  ⟨fun _ => sendAll_conveys data, fun address timeout => deliverBy_delivers address data timeout⟩

end Runs
end StreamRelay.Delivery
