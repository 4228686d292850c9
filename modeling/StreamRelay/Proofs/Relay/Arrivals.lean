import StreamRelay.Proofs.Relay.Reachable

namespace StreamRelay

namespace Host
variable {T : Type} {h h' : Host T} {l : SocketId}

def backlog (h : Host T) (id : SocketId) : List SocketId := ((h.sock? id).map Sock.backlog).getD []

-- Clients that come wait at the listener, and whom it accepts has waited longest.
structure Serves (l : SocketId) (h h' : Host T) : Prop where
  listener : h'.listener = some l
  grown : h.sockets.length ≤ h'.sockets.length
  order : ∃ taken, h'.accepted = taken.reverse ++ h.accepted ∧
    taken ++ h'.backlog l = h.backlog l ++
      List.range' h.sockets.length (h'.sockets.length - h.sockets.length)

def Serving (l : SocketId) (h h' : Host T) : Prop :=
  h.listener = some l → l < h.sockets.length → Serves l h h'

theorem Serves.trans {a b c : Host T} (one : Serves l a b) (two : Serves l b c) : Serves l a c := by
  obtain ⟨first, accepted, order⟩ := one.order
  obtain ⟨second, accepted', order'⟩ := two.order
  refine ⟨two.listener, Nat.le_trans one.grown two.grown, first ++ second, ?_, ?_⟩
  · rw [accepted', accepted, List.reverse_append, List.append_assoc]
  · have split : c.sockets.length - a.sockets.length =
        (b.sockets.length - a.sockets.length) + (c.sockets.length - b.sockets.length) := by
      have early := one.grown
      have late := two.grown
      omega
    have joined : List.range' a.sockets.length (b.sockets.length - a.sockets.length) ++
        List.range' (a.sockets.length + (b.sockets.length - a.sockets.length))
          (c.sockets.length - b.sockets.length) = _ := List.range'_append_1
    rw [Nat.add_sub_cancel' one.grown] at joined
    rw [split, ← joined, List.append_assoc, order', ← List.append_assoc, order, List.append_assoc]

structure Idles (h h' : Host T) : Prop where
  listener : h'.listener = h.listener
  length : h'.sockets.length = h.sockets.length
  accepted : h'.accepted = h.accepted
  backlog : ∀ id, h'.backlog id = h.backlog id

theorem Idles.serving (idles : Idles h h') : Serving l h h' := by
  intro heeded _
  refine ⟨idles.listener.trans heeded, Nat.le_of_eq idles.length.symm, [], ?_, ?_⟩
  · exact idles.accepted
  · rw [idles.length, Nat.sub_self, idles.backlog]
    simp

theorem Serving.refl (h : Host T) : Serving l h h := Idles.serving ⟨rfl, rfl, rfl, fun _ => rfl⟩

theorem Serving.trans {a b c : Host T} (one : Serving l a b) (two : Serving l b c) :
    Serving l a c := by
  intro heeded bounded
  have first := one heeded bounded
  exact first.trans (two first.listener (Nat.lt_of_lt_of_le bounded first.grown))

theorem serving_same (sockets : h'.sockets = h.sockets) (listener : h'.listener = h.listener)
    (accepted : h'.accepted = h.accepted) : Serving l h h' :=
  Idles.serving ⟨listener, by rw [sockets], accepted, fun id => by simp only [backlog, sock?, sockets]⟩

theorem serving_alter (h : Host T) (id : SocketId) {f : Sock T → Sock T}
    (kept : ∀ s, (f s).backlog = s.backlog) : Serving l h (h.alter id f) := by
  refine Idles.serving ⟨rfl, length_alter, rfl, fun other => ?_⟩
  simp only [backlog, sock?_alter]
  split
  · cases h.sock? other <;> simp [kept]
  · rfl

theorem serving_alterClient (h : Host T) (client : Nat) {f : Sock T → Sock T}
    (kept : ∀ s, (f s).backlog = s.backlog) : Serving l h (h.alterClient client f) :=
  alterClient_of (.refl h) (fun id => serving_alter h id kept) client

theorem serving_emit (h : Host T) (e : Event T) (plain : e.plain = true) :
    Serving l h (h.emit e) := by
  refine serving_same rfl rfl ?_
  cases e <;> first | rfl | simp [Event.plain] at plain

theorem serving_raise (h : Host T) (flag : Flag) : Serving l h (h.raise flag) := by
  cases flag <;> exact serving_same rfl rfl rfl

theorem serving_shut (h : Host T) (id : SocketId) : Serving l h (h.shut id) := by
  unfold shut
  split
  · refine (serving_alter h id (f := fun s => { s with isOpen := false }) fun _ => rfl).trans ?_
    exact serving_same rfl rfl rfl
  · exact .refl h

theorem serving_connect [Clock T] (h : Host T) (c : Incoming) :
    Serving l h (h.apply (.connect c)) := by
  intro heeded bounded
  obtain ⟨s, built, id, -, -⟩ := addClient_appends h c
  rw [apply_connect, heeded, built, id]
  obtain ⟨listening, known⟩ := exists_sock? bounded
  have still : Host.sock? { h with sockets := h.sockets ++ [s], clients := h.clients + 1 } l =
      some listening := (sock?_append bounded).trans known
  refine ⟨heeded, by simp [length_alter], [], rfl, ?_⟩
  simp [backlog, sock?_alter_self, still, known, List.range'_one]

theorem serving_apply [Clock T] (h : Host T) (action : Action T) :
    Serving l h (h.apply action) := by
  cases action with
  | connect c => exact serving_connect h c
  | send | finish | reset => exact serving_alterClient h _ fun _ => rfl
  | console | consoleEnd | advance | fault | runWorker => exact serving_same rfl rfl rfl
  | datagram data =>
    simp only [apply]
    split
    · exact serving_alter h _ fun _ => rfl
    · exact serving_same rfl rfl rfl
  | closeServer =>
    simp only [apply]
    cases h.server with
    | none => exact .refl h
    | some id => exact serving_alter h id fun _ => rfl
  | stop => exact stop_of .refl .trans serving_raise h
  | signal s => exact deliver_of .refl serving_raise h s

theorem serves_accept {s : Sock T} {first : SocketId} {rest : List SocketId} (fd : Int)
    (known : h.sock? l = some s) (queue : s.backlog = first :: rest) (heeded : h.listener = some l) :
    Serves l h ((h.dequeue l rest).emit (.accept first fd)) := by
  refine ⟨heeded, Nat.le_of_eq length_alter.symm, [first], rfl, ?_⟩
  have found : ((h.dequeue l rest).emit (.accept first fd)).sock? l =
      some { s with backlog := rest } := sock?_alter_self.trans (congrArg _ known)
  have length : ((h.dequeue l rest).emit (.accept first fd)).sockets.length = h.sockets.length :=
    length_alter
  simp [backlog, found, length, known, queue]

end Host

namespace Relay
variable {T : Type} [Clock T] {l : SocketId}
open Run Host

theorem calm_serving : Calm (T := T) (Serving l) where
  refl := .refl
  trans := .trans
  emit := serving_emit
  note _ _ _ _ := serving_same rfl rfl rfl
  clock _ _ := serving_same rfl rfl rfl
  stderr _ _ := serving_same rfl rfl rfl
  console _ _ := serving_same rfl rfl rfl
  faults _ _ := serving_same rfl rfl rfl
  batches _ _ := serving_same rfl rfl rfl
  apply := serving_apply

theorem reading_serving : Reading (T := T) (Serving l) where
  toSteady := calm_serving.steady
  take h id _ := serving_alter h id fun _ => rfl
  received _ _ _ := serving_same rfl rfl rfl
  offered _ _ _ := serving_same rfl rfl rfl
  datagram _ _ _ _ := serving_same rfl rfl rfl

theorem modest_serving : Modest (T := T) (Serving l) where
  toLively := calm_serving.steady.lively
  emit h e kept := serving_same rfl rfl (by
    cases e <;> first | rfl | exact absurd kept Bool.false_ne_true)
  note _ _ _ _ _ := serving_same rfl rfl rfl
  stderr _ _ := serving_same rfl rfl rfl
  console _ _ := serving_same rfl rfl rfl
  raise h := serving_raise h .service
  shut := serving_shut
  entries _ _ := serving_same rfl rfl rfl
  selector _ := serving_same rfl rfl rfl
  hasten h id := serving_alter h id fun _ => rfl

def SameSock (r r' : Relay T) : Prop := r'.listener.sock = r.listener.sock

omit [Clock T] in
theorem soft_sock : Soft (T := T) SameSock where
  refl _ := rfl
  trans one two := two.trans one
  tend tended := tended.listener

-- What the relay that listens there makes of those who come.
def Lined (l : SocketId) (m m' : Machine T (Relay T)) : Prop :=
  m.prog.listener.sock = l → m'.prog.listener.sock = l ∧ Serving l m.host m'.host

omit [Clock T] in
theorem lined_course : Course (Lined (T := T) l) (Lined l) where
  refl m sock := ⟨sock, .refl m.host⟩
  trans one two sock := by
    obtain ⟨middle, first⟩ := one sock
    obtain ⟨last, second⟩ := two middle
    exact ⟨last, first.trans second⟩
  weaken path := path
  falls one two sock := by
    obtain ⟨middle, first⟩ := one sock
    obtain ⟨last, second⟩ := two middle
    exact ⟨last, first.trans second⟩

omit [Clock T] in
theorem lined_of {act : Run T (Relay T) α}
    (step : Within (Both (Serving l) SameSock) (Both (Serving l) SameSock) act) :
    Within (Lined l) (Lined l) act :=
  step.mono (fun path sock => ⟨path.2.trans sock, path.1⟩) fun path sock => ⟨path.2.trans sock, path.1⟩

theorem resting_serving : Resting (T := T) (Both (Serving l) SameSock) (Both (Serving l) SameSock) where
  toCourse := modest_serving.course soft_sock
  log level text := both_of_keeps soft_sock (modest_serving.log level text)
  rests _ := both_of_keeps soft_sock (changes_keeps fun h => serving_emit h _ rfl)
  register id conn := both_of_keeps soft_sock (modest_serving.register id conn)
  unregister id := both_of_keeps soft_sock (modest_serving.unregister id)
  rest h _ _ := ⟨.refl h, rfl⟩

theorem lined_log (level : Level) (text : String) :
    Within (Lined (T := T) l) (Lined l) (Os.log level text) :=
  lined_of (resting_serving.log level text)

theorem accept_lined (m : Machine T (Relay T)) :
    Ends (Os.accept m.prog.listener.sock) m (fun _ m' => Lined l m m') fun _ m' => Lined l m m' := by
  have told (id : SocketId) : Serving l m.host (m.host.emit (.begun .accept (some id))) :=
    serving_emit _ _ rfl
  have lively : Lively (T := T) (Serving l) := calm_serving.steady.lively
  refine (accept_runs lively).imp ?_ ?_
  · intro found m' reached sock
    obtain ⟨h, s, rest, path, known, queue, rfl⟩ := reached
    rw [sock] at known path ⊢
    refine ⟨rfl, ((told l).trans path).trans fun heeded _ => ?_⟩
    exact serves_accept _ known queue heeded
  · intro f m' reached sock
    exact ⟨reached.2 ▸ sock, (told _).trans reached.1⟩

theorem lined_acceptOnce : Within (Lined (T := T) l) (Lined l) acceptOnce := by
  apply acceptOnce_within lined_course lined_log accept_lined
  case pause => exact fun delay => lined_of (resting_serving.pause delay)
  case enroll =>
    exact fun sock peer => lined_of (modest_serving.enroll soft_sock (fun _ _ => rfl) sock peer)
  case admits => exact fun h _ sock => ⟨sock, .refl h⟩

theorem lined_closing : Closing (Lined (T := T) l) (Lined l) where
  toCourse := lined_course
  log := lined_log
  unregister id := lined_of (resting_serving.unregister id)
  tend h _ _ tended sock := ⟨tended.listener.trans sock, .refl h⟩
  stop := lined_of (modest_serving.closing soft_sock).stop
  close id := lined_of ((modest_serving.closing soft_sock).close id)
  closeSelector := lined_of (modest_serving.closing soft_sock).closeSelector

theorem lined_rounds : Rounds (T := T) (Lined l) (Lined l) where
  toCourse := lined_course
  log := lined_log
  stop := lined_closing.stop
  select timeout overview := lined_of (both_of_keeps soft_sock (modest_serving.select timeout overview))
  poll control timeout := lined_of (both_of_keeps soft_sock (calm_serving.steady.control control timeout))
  control h _ _ sock := ⟨sock, .refl h⟩
  maybeResume := lined_of resting_serving.maybeResume
  serve := by
    refine serve_within lined_closing (acceptAll_within lined_course lined_acceptOnce) ?_
    intro conn m _
    have lined {m' : Machine T (Relay T)} (path : Counted (Serving l) m m') : Lined l m m' := by
      obtain ⟨serving, f, -, same⟩ := path
      exact fun sock => ⟨same ▸ sock, serving⟩
    exact (reading_serving.drain conn m).imp (fun _ _ => lined) fun _ _ => lined

theorem lined_close : Within (Lined (T := T) l) (Lined l) close :=
  lined_closing.finish fun h _ sock => ⟨sock, .refl h⟩

end Relay
end StreamRelay
