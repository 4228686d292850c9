import StreamRelay.Proofs.Relay.Interruptions
import StreamRelay.Proofs.Relay.Reachable

namespace StreamRelay.Relay
variable {T : Type} [Clock T] {start m m' : Machine T (Relay T)}
open Run Host

structure AcceptedAll (m : Machine T (Relay T)) (count : Nat) (m' : Machine T (Relay T))
    (answers : List Answer) (last : Answer) : Prop where
  intake : Intake m answers last m'
  total : count = (newcomers answers).length
  known : m'.prog.table.known = m.prog.table.known ++ newcomers answers
  live : m'.prog.table.live = m.prog.table.live ++ (newcomers answers).map fun c => (c.fd, c.sock)
  counters : m'.prog.stats.counters =
    { m.prog.stats.counters with accepted := m.prog.stats.counters.accepted + count }
  paused : m'.prog.listener.paused = (m.prog.listener.paused || last.refuses)

theorem Answered.stopped {last : Answer} (answered : Answered m last m') (stops : last.goesOn = false)
    (listening : m.prog.listener.closed = false) :
    m'.prog = setListener (fun l => { l with resumeAt := m'.prog.listener.resumeAt }) m.prog ∧
      m'.prog.listener.paused = (m.prog.listener.paused || last.refuses) := by
  cases answered with
  | admitted | dismissed | interrupted | skipped => cases stops
  | blocked _ _ same =>
    rw [same.prog]
    exact ⟨rfl, (Bool.or_false _).symm⟩
  | refused _ _ _ _ _ rests paused =>
    refine ⟨?_, ?_⟩
    · rw [rests]
      rfl
    · rw [paused listening]
      exact (Bool.or_true _).symm

theorem Intake.acceptedAll {answers : List Answer} {last : Answer} (intake : Intake m answers last m')
    (listening : m.prog.listener.closed = false) :
    AcceptedAll m (newcomers answers).length m' answers last := by
  obtain ⟨middle, course, ends⟩ := intake.course
  have taken := course.prog intake.onward
  rw [foldl_takeIn] at taken
  have listener : middle.prog.listener = m.prog.listener := by rw [taken]; rfl
  obtain ⟨same, paused⟩ := ends.stopped intake.stops (by rw [listener]; exact listening)
  rw [listener] at paused
  refine ⟨intake, rfl, ?_, ?_, ?_, paused⟩
  · rw [same, taken]
    rfl
  · rw [same, taken]
    rfl
  · rw [same, taken]
    rfl

-- The last clause: if the interruptions are taken out, all of this stays as it is, and only the calls
-- become fewer.
theorem reached_accepts_all {allowed : Operation T → Prop} (created : Created start)
    (reached : Reached allowed start m) (listening : m.prog.listener.closed = false)
    (distinct : Distinct (after acceptAll m)) :
    Ends acceptAll m (fun count m' => ∃ answers last, AcceptedAll m count m' answers last)
      (fun f m' => Documented m'.host → Broken m f m') ∧
    Paired SameButAsked acceptAll acceptAll m ⟨m.host.uninterrupted, m.prog⟩ := by
  have whole := reached.whole created.begun.whole
  constructor
  · have taken : Ends acceptAll m (TakesIn m 0) (Falls m) := acceptFor_takes _ 0 (Nat.lt_succ_self _)
    apply (Ends.ran.and taken).imp
    · rintro count m' ⟨ran, takes⟩
      rw [after, ran] at distinct
      obtain ⟨answers, last, intake, total⟩ := takes whole distinct
      have total : count = (newcomers answers).length := by omega
      exact ⟨answers, last, total ▸ intake.acceptedAll listening⟩
    · rintro f m' ⟨ran, falls⟩ documented
      rw [after, ran] at distinct
      exact falls whole distinct documented
  · exact SameButAsked.acceptAll_twins m _ (SameButAsked.uninterrupted m)

-- Three clients wait, and no accept is like the one before it.
@[irreducible] def besieged : Machine Int (Relay Int) :=
  after (Operation.act (.happen [.connect {}, .connect {}, .connect {},
    .fault .accept [.incident [] (some (.os (.ofNumber 4 "Interrupted system call"))), .pass,
      .incident [] (some (.os (.ofNumber 103 "Software caused connection abort"))), .pass,
      .incident [] (some (.os (.ofNumber 24 "Too many open files")))],
    .fault .register [.pass, .incident [] (some (.os (.ofNumber 12 "Cannot allocate memory")))]]))
    busyRelay

theorem reached_besieged : Reached (fun _ => True) busyRelay besieged := by
  unfold besieged
  exact Reached.next .start (by decide +kernel) trivial (by decide +kernel)

theorem reached_accepts_all_besieged :
    Ends acceptAll besieged
      (fun count m' => ∃ answers last, AcceptedAll besieged count m' answers last)
      (fun f m' => Documented m'.host → Broken besieged f m') ∧
    (after acceptAll besieged).prog.table.live = [(5, 2)] ∧
    (after acceptAll besieged).prog.listener.paused = true ∧
    (after acceptAll besieged).host.asked = besieged.host.asked + 5 ∧
    (after acceptAll ⟨besieged.host.uninterrupted, besieged.prog⟩).host.asked =
      besieged.host.asked + 4 := by
  have accepts := reached_accepts_all created_busyRelay reached_besieged (by decide +kernel)
    (by decide +kernel)
  exact ⟨accepts.1, by decide +kernel, by decide +kernel, by decide +kernel, by decide +kernel⟩

end StreamRelay.Relay
