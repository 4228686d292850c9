import StreamRelay.Proofs.Relay.Enlisting
import StreamRelay.Proofs.Relay.Making
import StreamRelay.Proofs.Relay.Manners

namespace StreamRelay
open Run Host

section Making
variable {T P : Type} [Clock T]

structure Preparing (rel fell : Host T → Host T → Prop) : Prop extends Founding rel fell where
  selector : ∀ h selectorOpen entries, rel h { h with selectorOpen, entries }
  refused : ∀ h id cause, fell h (h.note .register id cause)

namespace Preparing
variable [Resumable T P] [Idle T P] {rel fell : Host T → Host T → Prop}

omit [Resumable T P] [Idle T P] in
theorem setupStep (preparing : Preparing rel fell) {act : Run T P α} {caught : Failure → Bool}
    {undo : Run T P Unit} {wrap : Failure → Failure} (step : Founds rel fell act)
    (undone : Keeps fell undo) : Founds rel fell (Relay.setupStep act caught undo wrap) := by
  have course := preparing.course (P := P)
  refine .caught course step (fun _ => .pure course) fun f m => ?_
  dsimp only
  split
  · rw [ends_bind]
    exact undone m
  · exact course.stay m

theorem register (preparing : Preparing rel fell) (id : SocketId) (conn : Option SocketId) :
    Founds (P := P) rel fell (Os.register id conn) := by
  intro m
  have begun := preparing.emit m.host (.register (m.host.fileno id)) rfl
  apply (register_runs preparing.toLively conn).imp
  · intro _ m' reached
    obtain ⟨h, path, -, -, rfl⟩ := reached
    exact ⟨preparing.trans begun (preparing.trans path (preparing.selector h h.selectorOpen _)), rfl⟩
  · intro f m' reached
    obtain ⟨h, path, rfl⟩ := reached
    exact ⟨preparing.falls (preparing.weaken (preparing.trans begun path))
      (preparing.refused h id f), rfl⟩

theorem create (preparing : Preparing rel fell) (config : Config) (control : Option Control)
    (given : Option Sink) : Founds (P := P) rel fell (Relay.create config control given) := by
  have course := preparing.course (P := P)
  have falling := preparing.falling (P := P)
  have unselects : Founds (P := P) rel fell Os.closeSelector :=
    .bind course (preparing.emits rfl) fun _ => preparing.changes fun h => preparing.selector h _ _
  have unselected : Keeps (P := P) fell Os.closeSelector := unselects.mono course.weaken fun path => path
  have selects : Founds (P := P) rel fell Os.newSelector :=
    .bind course (preparing.met .selector) fun _ => preparing.changes fun h =>
      preparing.selector h true h.entries
  have provides : Founds (P := P) rel fell (Sink.orResolve given config.udp) := by
    cases given with
    | none => exact preparing.resolve config.udp
    | some own => exact .pure course
  refine .bind course provides fun sink => ?_
  refine .bind course (preparing.setupStep selects (preparing.close _)) fun _ => ?_
  refine .bind course (preparing.setupStep (preparing.listening _ _ _)
    (.bind falling unselected fun _ => preparing.close _)) fun sock => ?_
  refine .bind course (.asks course) fun time => ?_
  have named : Founds (P := P) rel fell (Os.name sock) :=
    .bind course (preparing.keeps (opened_keeps preparing.toLively)) fun _ => .pure course
  refine .bind course named fun address => ?_
  refine .bind course (preparing.setupStep (preparing.register sock none)
    (.bind falling (preparing.close _) fun _ =>
      .bind falling unselected fun _ => preparing.close _)) fun _ => ?_
  split
  · exact .fails course
  · split
    · exact .pure course
    · exact .fails course

end Preparing

theorem preparing_bears : Preparing (T := T) Bears Bears where
  toLively := calm_bears.steady.lively
  emit _ _ _ := rfl
  sockets _ _ := rfl
  serves _ _ _ := rfl
  heeds _ _ _ := rfl
  weaken path := path
  falls := .trans
  note _ _ _ _ _ := rfl
  shut h id := (fitted_shut h id).bears
  selector _ _ _ := rfl
  refused _ _ _ := rfl

def SameRefusals (h h' : Host T) : Prop := h'.refusals = h.refusals

theorem preparing_sameRefusals : Preparing (T := T) SameRefusals fun _ _ => True where
  toLively := by
    have mild : Mild (T := T) SameRefusals :=
      mild_of_hears (fun _ => rfl) (fun one two => Eq.trans two one) Hears.refusals
    exact mild.lively fun _ _ => rfl
  emit _ _ _ := rfl
  sockets _ _ := rfl
  serves _ _ _ := rfl
  heeds _ _ _ := rfl
  weaken _ := trivial
  falls _ _ := trivial
  note _ _ _ _ _ := trivial
  shut _ _ := trivial
  selector _ _ _ := rfl
  refused _ _ _ := trivial

theorem preparing_shows {kind wider : Event T → Bool} (founds : ∀ e, e.founds = true → kind e = true)
    (told : ∀ flag, kind (.told flag) = true) (widen : ∀ e, kind e = true → wider e = true)
    (closed : ∀ id fd, wider (.closed id fd) = true) : Preparing (Shows kind) (Shows wider) where
  toFounding := founding_shows founds told widen closed
  selector _ _ _ := shows_same rfl
  refused _ _ _ := shows_same rfl

end Making

namespace Relay
variable {T : Type}

-- A relay that has not begun to run, on a host on which it alone may have worked.
structure Ready (m : Machine T (Relay T)) : Prop where
  whole : Whole m
  enlisted : Enlisted m
  balance : offset m.prog = 0
  working : m.prog.closed = false
  heeded : m.host.listener = some m.prog.listener.sock
  documented : Documented m.host

section Start
variable {P : Type} [Clock T] [Resumable T P] [Idle T P] {m : Machine T P}

theorem create_ready (fresh : Fresh m.host) (documented : Documented m.host) (config : Config)
    (control : Option Control) (given : Option Sink) :
    Ends (create config control given) m (fun relay m' => Ready ⟨m'.host, relay⟩)
      fun _ _ => True := by
  apply ((create_ends fresh config control given).and
    (preparing_sameRefusals.create config control given m)).imp
  · intro relay m' ended
    obtain ⟨begun, same, -⟩ := ended
    have nobody : roll relay = [] := congrArg (fun t => t.known.map fun c => (c.sock, c.fd)) begun.table
    refine ⟨begun.whole, fun e there => ?_, begun.offset, begun.closed, begun.heeded, ?_⟩
    · simp only [nobody, List.not_mem_nil] at there
    · exact fun r there => documented r (same ▸ there)
  · exact fun _ _ _ => trivial

end Start

section Run
variable [Clock T]

theorem ample_heeds : Ample (T := T) Heeds where
  toSteady := calm_heeds.steady
  told _ _ := rfl
  raise h := heeds_raise h .service
  shut h id := by
    unfold shut
    split <;> rfl
  entries _ _ := rfl
  selector _ := rfl
  take _ _ _ := rfl
  hasten _ _ := rfl
  dequeue _ _ _ _ _ _ _ := rfl

theorem ample_bears : Ample (T := T) Bears where
  toSteady := calm_bears.steady
  told _ _ := rfl
  raise h := (fitted_raise h .service).bears
  shut h id := (fitted_shut h id).bears
  entries _ _ := rfl
  selector _ := rfl
  take _ _ _ := rfl
  hasten _ _ := rfl
  dequeue _ _ _ _ _ _ _ := rfl

theorem ample_owned : Ample (T := T) Owned where
  toSteady := calm_owned.steady
  told _ _ := owned_same rfl
  raise h := (abides_raise h .service).owns
  shut _ _ _ _ owns := (owns.mono fun _ there => List.mem_append_left _ there).shut
  entries _ _ := owned_same rfl
  selector _ := owned_same rfl
  take _ _ _ _ _ owns := owns.alter (fun _ => rfl) fun _ still => still
  hasten _ _ _ _ owns := owns.alter (fun _ => rfl) fun _ still => still
  dequeue _ _ _ _ _ _ _ _ _ owns := owns.alter (fun _ => rfl) fun _ still => still

theorem ample_run {rel : Host T → Host T → Prop} (ample : Ample rel) :
    Within (Both rel Kin) (Both rel Kin) run :=
  (ample.parts lax_kin).run fun h _ => ⟨ample.refl h, rfl, rfl, rfl, List.prefix_rfl⟩

structure Leaves (exit : Exit) (m m' : Machine T (Relay T)) : Prop where
  ended : Over m'
  shut : ShutDown m.prog m'
  loops : ∃ left, Loops (after announce m) exit left
  reason : m.host.Heard → exit ≠ .spent
  ran : run m = exit.leads m'

-- A host on which later nothing was accepted or refused, and on which clients wait where they did.
structure Follows (h h' : Host T) : Prop where
  settled : Settled h h'
  heeds : Heeds h h'
  refusals : SameRefusals h h'

variable {m : Machine T (Relay T)}

omit [Clock T] in
theorem Ready.later (ready : Ready m) {h : Host T} (follows : Follows m.host h) :
    Ready ⟨h, m.prog⟩ where
  whole := ((even_settled follows.settled).2 ready.whole).1
  enlisted := by
    have ages := (follows.settled.aged ready.whole.1.orderly).2
    exact ready.enlisted.aged ages (rfl : SameRoll m.prog m.prog)
  balance := ready.balance
  working := ready.working
  heeded := Eq.trans follows.heeds ready.heeded
  documented r there := ready.documented r (follows.refusals ▸ there)

theorem Ready.distinct (ready : Ready m) {h : Host T} (follows : Follows (after run m).host h)
    (apart : h.Apart) : Distinct (after run m) := by
  have ground := (ground_parts.run ground_mark).after ground_parts.toCourse m
  have enlists := (enlists_rounds.run enlists_close).after enlists_course m
  have heeds := (ample_run ample_heeds).after (ample_heeds.parts lax_kin).toCourse m
  have based := (ground.grows ready.whole.1).1
  have enlisted := enlists.2 ready.whole.1.orderly ready.enlisted
  have ages := (follows.settled.aged based.orderly).2
  have later : Enlisted ⟨h, (after run m).prog⟩ :=
    enlisted.aged ages (rfl : SameRoll (after run m).prog (after run m).prog)
  have heeded : h.listener = some (after run m).prog.listener.sock := by
    rw [follows.heeds, heeds.1, ready.heeded, ground.2.listener]
  have goes : Grows (after run m) ⟨h, (after run m).prog⟩ := ⟨lax_kin.refl _, ages⟩
  exact goes.distinct based (later.distinct heeded apart)

theorem Ready.leaves (ready : Ready m) (documented : Documented (after run m).host)
    (distinct : Distinct (after run m)) : ∃ exit, Leaves exit m (after run m) := by
  have ground := (ground_parts.run ground_mark).after ground_parts.toCourse m
  obtain ⟨first, exit, left, runs⟩ := run_runs m
  obtain ⟨-, ran, finished, same⟩ := runs.closes ready.whole ready.working documented distinct
  exact ⟨exit, finished, finished.shutDown ground.2 (same.trans ready.balance), ⟨left, runs.announces⟩,
    runs.reason, ran⟩

-- As far as the system stops watching when it is asked to, and gives no number twice.
theorem run_releases (ready : Ready m) :
    Ends run m
      (fun _ m' => ∀ h, Follows m'.host h → h.Tamed → h.Apart → ∃ exit, Leaves exit m m')
      fun f m' => f.isOs = true →
        ∀ h, Follows m'.host h → h.Tamed → h.Apart → ∃ exit, Leaves exit m m' := by
  have releases {m' : Machine T (Relay T)} (last : after run m = m')
      (mannerly : m'.host.Tamed → Mannerly m m') (h : Host T) (follows : Follows m'.host h)
      (tamed : h.Tamed) (apart : h.Apart) : ∃ exit, Leaves exit m m' := by
    have tamed' : m'.host.Tamed := fun r there => tamed r (follows.refusals ▸ there)
    have documented := (mannerly tamed').documented ready.documented tamed'
    rw [← last] at documented follows ⊢
    exact ready.leaves documented (ready.distinct follows apart)
  apply ((run_mannerly m).and Ends.ran).imp
  · intro _ m' ended
    exact releases (by rw [after, ended.2]) fun _ => ended.1
  · intro f m' ended refused
    exact releases (by rw [after, ended.2]) (ended.1 refused)

end Run

end Relay
end StreamRelay
