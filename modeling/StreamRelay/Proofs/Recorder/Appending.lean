import StreamRelay.Proofs.Host.Streams
import StreamRelay.Recorder

namespace StreamRelay
variable {T : Type}
open Run

instance : Idle T Recorder := ⟨fun _ _ => rfl⟩

namespace Host

-- The datagrams that wait at a socket, oldest first.
def inbox (h : Host T) (id : SocketId) : List Bytes := ((h.sock? id).map Sock.inbox).getD []

-- All that have come to it.
def arrivals (h : Host T) (id : SocketId) : List Bytes := ((h.sock? id).map Sock.came).getD []

-- What was written, oldest first.
def writes (h : Host T) : List Bytes := h.history fun
  | .write data => some data
  | _ => none

def Waits (new : List Bytes) (s s' : Sock T) : Prop :=
  s'.came = s.came ++ new ∧ s'.inbox = s.inbox ++ new

-- Datagrams may have come since, and nobody has taken one or written anything.
structure Brings (id : SocketId) (h h' : Host T) : Prop where
  waits : ∃ new, h'.arrivals id = h.arrivals id ++ new ∧ h'.inbox id = h.inbox id ++ new
  writes : h'.writes = h.writes
  told : h.commandStop = true → h'.commandStop = true

section Brings
variable {h h' : Host T} {id other : SocketId} {f : Sock T → Sock T}

theorem inbox_of_sock? {s : Sock T} (known : h.sock? id = some s) : h.inbox id = s.inbox := by
  simp [inbox, known]

theorem Waits.none (s : Sock T) : Waits [] s s := ⟨(List.append_nil _).symm, (List.append_nil _).symm⟩

theorem Brings.refl (h : Host T) : Brings id h h :=
  ⟨⟨[], (List.append_nil _).symm, (List.append_nil _).symm⟩, rfl, fun told => told⟩

theorem Brings.trans {a b c : Host T} (one : Brings id a b) (two : Brings id b c) :
    Brings id a c := by
  obtain ⟨new, came, inbox⟩ := one.waits
  obtain ⟨later, came', inbox'⟩ := two.waits
  refine ⟨⟨new ++ later, ?_, ?_⟩, two.writes.trans one.writes, fun told => two.told (one.told told)⟩
  · rw [came', came, List.append_assoc]
  · rw [inbox', inbox, List.append_assoc]

theorem brings_of_same (sockets : h'.sockets = h.sockets) (trace : h'.trace = h.trace)
    (told : h'.commandStop = h.commandStop) : Brings id h h' := by
  refine ⟨⟨[], ?_, ?_⟩, by simp only [writes, history, trace], fun before => told.trans before⟩
  · simp only [arrivals, sock?, sockets, List.append_nil]
  · simp only [inbox, sock?, sockets, List.append_nil]

theorem brings_alter {new : List Bytes} (grown : ∀ s, Waits new s (f s)) :
    Brings id h (h.alter other f) := by
  refine ⟨?_, rfl, fun told => told⟩
  simp only [arrivals, inbox, sock?_alter]
  split
  · cases h.sock? id with
    | none => exact ⟨[], rfl, rfl⟩
    | some s => exact ⟨new, grown s⟩
  · exact ⟨[], (List.append_nil _).symm, (List.append_nil _).symm⟩

theorem brings_alterClient {client : Nat} (grown : ∀ s, Waits [] s (f s)) :
    Brings id h (h.alterClient client f) :=
  alterClient_of (.refl h) (fun _ => brings_alter grown) client

theorem brings_append {s : Sock T} {n : Nat} (fresh : s.came = s.inbox) :
    Brings id h { h with sockets := h.sockets ++ [s], clients := n } := by
  refine ⟨?_, rfl, fun told => told⟩
  simp only [arrivals, inbox, sock?]
  cases Nat.lt_or_ge id h.sockets.length with
  | inl bounded =>
    rw [List.getElem?_append_left bounded]
    exact ⟨[], (List.append_nil _).symm, (List.append_nil _).symm⟩
  | inr beyond =>
    have missing : h.sockets[id]? = none := List.getElem?_eq_none_iff.mpr beyond
    rw [List.getElem?_append_right beyond, missing]
    cases id - h.sockets.length with
    | zero => exact ⟨s.inbox, fresh, rfl⟩
    | succ => exact ⟨[], rfl, rfl⟩

theorem brings_emit {e : Event T} (silent : (h.emit e).writes = h.writes) :
    Brings id h (h.emit e) := ⟨(Brings.refl h).waits, silent, fun told => told⟩

theorem writes_emit_write (data : Bytes) : (h.emit (.write data)).writes = h.writes ++ [data] :=
  history_emit h _ _

theorem brings_raise (h : Host T) (flag : Flag) : Brings id h (h.raise flag) := by
  have told : Brings id h (h.emit (.told flag)) := brings_emit rfl
  cases flag
  · exact told.trans (brings_of_same rfl rfl rfl)
  · exact told.trans ⟨(Brings.refl _).waits, rfl, fun _ => rfl⟩

theorem brings_deliver (h : Host T) (signal : Signal) : Brings id h (h.deliver signal) :=
  deliver_of .refl brings_raise h signal

theorem brings_stop (h : Host T) : Brings id h h.stop := stop_of .refl .trans brings_raise h

theorem brings_connect [Clock T] (h : Host T) (c : Incoming) :
    Brings id h (h.apply (.connect c)) := by
  have added : Brings id h (h.addClient c).1 := brings_append rfl
  rw [apply_connect]
  cases h.listener with
  | none => exact added.trans (brings_of_same rfl rfl rfl)
  | some l => exact added.trans (brings_alter .none)

theorem brings_apply [Clock T] (h : Host T) (action : Action T) : Brings id h (h.apply action) := by
  cases action with
  | connect c => exact brings_connect h c
  | send | finish | reset => exact brings_alterClient .none
  | console | consoleEnd | advance | fault => exact brings_of_same rfl rfl rfl
  | datagram data =>
    simp only [apply]
    split
    · exact brings_alter fun s => ⟨rfl, rfl⟩
    · exact brings_of_same rfl rfl rfl
  | closeServer =>
    simp only [apply]
    cases h.server with
    | none => exact .refl h
    | some other => exact brings_alter .none
  | stop => exact brings_stop h
  | signal s => exact brings_deliver h s
  | runWorker => exact .refl h

theorem mild_brings [Clock T] (id : SocketId) : Mild (T := T) (Brings id) where
  refl := .refl
  trans := .trans
  faults _ _ := brings_of_same rfl rfl rfl
  batches _ _ := brings_of_same rfl rfl rfl
  apply := brings_apply

theorem lively_brings [Clock T] (id : SocketId) : Lively (T := T) (Brings id) :=
  (mild_brings id).lively fun _ _ => brings_of_same rfl rfl rfl

theorem brings_logged (id : SocketId) (h : Host T) (level : Level) (text : String) :
    Brings id h (h.logged level text) :=
  logged_of (.refl h) (brings_emit rfl) fun _ => brings_of_same rfl rfl rfl

end Brings

-- Since then so many datagrams were appended, as far as the buffer goes, and so many taken besides:
-- with what still waits these are what waited before and what has come.
structure Appended (sock : SocketId) (size : Int) (kept lost : List Bytes) (h h' : Host T) :
    Prop where
  taken : ∃ new, h'.arrivals sock = h.arrivals sock ++ new ∧
    h.inbox sock ++ new = kept ++ lost ++ h'.inbox sock
  writes : h'.writes = h.writes ++ kept.map (Bytes.cut size)

section Appended
variable {sock : SocketId} {size : Int} {kept later lost : List Bytes} {a b c : Host T}

theorem Brings.appended (brings : Brings sock a b) : Appended sock size [] [] a b := by
  obtain ⟨new, came, inbox⟩ := brings.waits
  exact ⟨⟨new, came, inbox.symm⟩, by rw [brings.writes, List.map_nil, List.append_nil]⟩

theorem Appended.trans (one : Appended sock size kept [] a b)
    (two : Appended sock size later lost b c) : Appended sock size (kept ++ later) lost a c := by
  obtain ⟨new, came, taken⟩ := one.taken
  obtain ⟨more, came', taken'⟩ := two.taken
  refine ⟨⟨new ++ more, ?_, ?_⟩, by rw [two.writes, one.writes, List.map_append, List.append_assoc]⟩
  · rw [came', came, List.append_assoc]
  · calc
      a.inbox sock ++ (new ++ more)
        = kept ++ (b.inbox sock ++ more) := by
          rw [← List.append_assoc, taken, List.append_nil, List.append_assoc]
      _ = kept ++ later ++ lost ++ c.inbox sock := by rw [taken']; simp only [List.append_assoc]

theorem Appended.brings (one : Appended sock size kept lost a b) (two : Brings sock b c) :
    Appended sock size kept lost a c := by
  obtain ⟨new, came, taken⟩ := one.taken
  obtain ⟨more, came', inbox⟩ := two.waits
  refine ⟨⟨new ++ more, ?_, ?_⟩, two.writes.trans one.writes⟩
  · rw [came', came, List.append_assoc]
  · rw [inbox, ← List.append_assoc, taken, List.append_assoc]

theorem appended_taken {s : Sock T} {first : Bytes} {rest : List Bytes} (size : Int)
    (data : Bytes) (known : b.sock? sock = some s) (queue : s.inbox = first :: rest) :
    Appended sock size [] [first] b
      ((b.alter sock fun s => { s with inbox := rest }).emit (.received sock data)) := by
  have after : ((b.alter sock fun s => { s with inbox := rest }).emit
      (.received sock data)).sock? sock = some { s with inbox := rest } :=
    sock?_alter_self.trans (congrArg _ known)
  refine ⟨⟨[], ?_, ?_⟩, by simp [writes, history, emit, alter]⟩
  · simp only [arrivals, after, known, Option.map_some, Option.getD_some, List.append_nil]
  · rw [inbox_of_sock? known, inbox_of_sock? after, queue, List.append_nil]
    rfl

end Appended
end Host

namespace Recorder
open Host
variable [Clock T] {m : Machine T Recorder}

structure Kept (kept lost : List Bytes) (m m' : Machine T Recorder) : Prop where
  sock : m'.prog.sock = m.prog.sock
  size : m'.prog.bufferSize = m.prog.bufferSize
  appended : Appended m.prog.sock m.prog.bufferSize kept lost m.host m'.host

omit [Clock T] in
theorem kept_of_brings {m' : Machine T Recorder} (path : Hosted (Brings m.prog.sock) m m') :
    Kept [] [] m m' := by
  obtain ⟨brings, same⟩ := path
  exact ⟨by rw [same], by rw [same], brings.appended⟩

omit [Clock T] in
theorem Kept.trans {kept later lost : List Bytes} {a b c : Machine T Recorder}
    (one : Kept kept [] a b) (two : Kept later lost b c) : Kept (kept ++ later) lost a c := by
  have after := two.appended
  rw [one.sock, one.size] at after
  exact ⟨two.sock.trans one.sock, two.size.trans one.size, one.appended.trans after⟩

theorem append_ends {h : Host T} {r : Recorder} {first : Bytes}
    (taken : Kept [] [first] m ⟨h, r⟩) :
    Ends (append (Bytes.cut m.prog.bufferSize first)) ⟨h, r⟩ (fun _ m' => Kept [first] [] m m')
      fun _ m' => Kept [] [first] m m' ∨ Kept [first] [] m m' := by
  have lively := lively_brings (T := T) m.prog.sock
  simp only [append, Os.write, Os.flush, ends_bind, ends_emits, ends_sets]
  refine (lively.incident .write _).imp ?_ ?_
  · rintro _ ⟨h', p⟩ ⟨path, rfl⟩
    have written : Kept [first] [] m
        ⟨h'.emit (.write (Bytes.cut m.prog.bufferSize first)), p⟩ := by
      have before := taken.appended.brings path
      refine ⟨taken.sock, taken.size, ⟨before.taken, ?_⟩⟩
      rw [writes_emit_write, before.writes]
      simp
    refine (lively.incident .flush _).imp ?_ ?_
    · rintro _ ⟨h'', p⟩ ⟨flushed, rfl⟩
      have told : Brings m.prog.sock h'' (h''.emit .flush) := brings_emit rfl
      exact ⟨taken.sock, taken.size, written.appended.brings (flushed.trans told)⟩
    · rintro f ⟨h'', p⟩ ⟨flushed, rfl⟩
      exact .inr ⟨taken.sock, taken.size, written.appended.brings flushed⟩
  · rintro f ⟨h', p⟩ ⟨path, rfl⟩
    exact .inl ⟨taken.sock, taken.size, taken.appended.brings path⟩

theorem turn_ends : Ends turn m
    (fun goesOn m' => ∃ kept lost, Kept kept lost m m' ∧ (lost = [] ∨
      goesOn = false ∧ m'.host.commandStop = true ∧ ∃ last, lost = [last]))
    fun _ m' => ∃ kept lost, Kept kept lost m m' ∧ (lost = [] ∨ ∃ last, lost = [last]) := by
  have lively := lively_brings (T := T) m.prog.sock
  have told : Brings m.prog.sock m.host (m.host.emit (.begun .receiveFrom (some m.prog.sock))) :=
    brings_emit rfl
  simp only [turn, ends_bind, ends_gets, ends_outcome, id]
  refine (receiveFrom_runs lively m.prog.bufferSize).imp ?_ ?_
  · rintro data m' ⟨h, s, first, rest, path, known, queue, rfl, rfl⟩
    have taken := (told.trans path).appended.trans (appended_taken m.prog.bufferSize
      (Bytes.cut m.prog.bufferSize first) known queue)
    generalize (h.alter m.prog.sock fun s => { s with inbox := rest }).emit
      (.received m.prog.sock (Bytes.cut m.prog.bufferSize first)) = after at taken
    have taken : Kept [] [first] m ⟨after, m.prog⟩ := ⟨rfl, rfl, taken⟩
    simp only [Os.isSet, ends_asks]
    split
    · rename_i stopped
      exact ⟨[], [first], taken, .inr ⟨rfl, stopped, first, rfl⟩⟩
    · rw [ends_bind]
      refine (append_ends taken).imp ?_ ?_
      · exact fun _ m' kept => ⟨[first], [], kept, .inl rfl⟩
      · rintro _ m' (kept | kept)
        · exact ⟨[], [first], kept, .inr ⟨first, rfl⟩⟩
        · exact ⟨[first], [], kept, .inl rfl⟩
  · rintro f m' ⟨path, same⟩
    have brings := told.trans path
    have kept := kept_of_brings ⟨brings, same⟩
    split
    · exact ⟨[], [], kept, .inl rfl⟩
    · split
      · simp only [Os.isSet, ends_bind, ends_asks]
        split
        · exact ⟨[], [], kept, .inl rfl⟩
        · rw [ends_bind, ends_log]
          refine ⟨[], [], kept_of_brings ⟨brings.trans (brings_logged _ _ _ _), same⟩, .inl rfl⟩
      · exact ⟨[], [], kept, .inl rfl⟩

-- What a run comes to: all that was taken is appended, but for a last datagram that came to be
-- taken after the end was asked for, or that could not be written.
def Recorded (m : Machine T Recorder) (good : Bool) (m' : Machine T Recorder) : Prop :=
  ∃ kept lost, Kept kept lost m m' ∧
    (lost = [] ∨ (good = true → m'.host.commandStop = true) ∧ ∃ last, lost = [last])

theorem turns_ends (fuel : Nat) (m : Machine T Recorder) :
    Ends (turns fuel) m (fun _ => Recorded m true) fun _ => Recorded m false := by
  induction fuel generalizing m with
  | zero => exact ⟨[], [], kept_of_brings ⟨.refl m.host, rfl⟩, .inl rfl⟩
  | succ fuel ih =>
    simp only [turns, Os.isSet, ends_bind, ends_asks]
    split
    · exact ⟨[], [], kept_of_brings ⟨.refl m.host, rfl⟩, .inl rfl⟩
    · rw [ends_bind]
      refine turn_ends.imp ?_ ?_
      · rintro goesOn middle ⟨kept, lost, first, rfl | ⟨rfl, stopped, last⟩⟩
        · cases goesOn with
          | false => exact ⟨kept, [], first, .inl rfl⟩
          | true =>
            refine (ih middle).imp ?_ ?_
            · rintro _ m' ⟨later, lost, second, ended⟩
              exact ⟨kept ++ later, lost, first.trans second, ended⟩
            · rintro _ m' ⟨later, lost, second, ended⟩
              exact ⟨kept ++ later, lost, first.trans second, ended⟩
        · exact ⟨kept, lost, first, .inr ⟨fun _ => stopped, last⟩⟩
      · rintro _ m' ⟨kept, lost, first, rfl | last⟩
        · exact ⟨kept, [], first, .inl rfl⟩
        · exact ⟨kept, lost, first, .inr ⟨fun good => absurd good Bool.false_ne_true, last⟩⟩

theorem run_ends (m : Machine T Recorder) :
    Ends run m (fun _ => Recorded m true) fun _ => Recorded m false := by
  simp only [run, ends_bind, ends_asks]
  apply (turns_ends _ m).normally
  rintro _ m' ⟨kept, lost, first, ended⟩
  have logged := brings_logged m.prog.sock m'.host .info
  refine ⟨kept, lost, ⟨first.sock, first.size, first.appended.brings (logged _)⟩, ?_⟩
  exact ended.imp_right fun last => ⟨fun good => (logged _).told (last.1 good), last.2⟩

theorem run_recorded (m : Machine T Recorder) : Recorded m (endsWell run m) (after run m) := by
  have ends := run_ends m
  unfold Ends at ends
  unfold after endsWell
  cases ran : run m with
  | ok _ m' => simpa only [ran] using ends
  | error f m' => simpa only [ran] using ends

omit [Clock T] in
theorem length_flatten_take_le (pieces : List Bytes) (n : Nat) :
    (pieces.map (·.take n)).flatten.length ≤ pieces.flatten.length := by
  induction pieces with
  | nil => exact Nat.le_refl _
  | cons piece rest ih =>
    simp only [List.map_cons, List.flatten_cons, List.length_append, List.length_take]
    omega

omit [Clock T] in
theorem flatten_take_eq_iff {pieces : List Bytes} {n : Nat} :
    (pieces.map (·.take n)).flatten = pieces.flatten ↔ ∀ piece ∈ pieces, piece.length ≤ n := by
  constructor
  · intro whole
    induction pieces with
    | nil => exact fun _ there => absurd there List.not_mem_nil
    | cons piece rest ih =>
      simp only [List.map_cons, List.flatten_cons] at whole
      have lengths := congrArg List.length whole
      simp only [List.length_append, List.length_take] at lengths
      have others := length_flatten_take_le rest n
      have fits : piece.length ≤ n := by omega
      rw [List.take_of_length_le fits, List.append_cancel_left_eq] at whole
      exact List.forall_mem_cons.mpr ⟨fits, ih whole⟩
  · intro fits
    have same : pieces.map (·.take n) = pieces := by
      refine (List.map_congr_left fun piece there => ?_).trans (List.map_id pieces)
      exact List.take_of_length_le (fits piece there)
    rw [same]

-- A log server as it is built: the bytes appended are those of the datagrams taken exactly if none of
-- these is longer than its buffer. Taken were, but for what still waits, those that waited at first and
-- those that have come.
theorem run_appends (h : Host T) (sock : SocketId) :
    ∃ kept lost, (∃ new, (after run ⟨h, { sock }⟩).host.arrivals sock = h.arrivals sock ++ new ∧
        h.inbox sock ++ new = kept ++ lost ++ (after run ⟨h, { sock }⟩).host.inbox sock) ∧
      (after run ⟨h, { sock }⟩).host.writes =
        h.writes ++ kept.map (·.take Defaults.bufferSize) ∧
      (lost = [] ∨ (endsWell run ⟨h, { sock }⟩ = true →
        (after run ⟨h, { sock }⟩).host.commandStop = true) ∧ ∃ last, lost = [last]) ∧
      ((kept.map (·.take Defaults.bufferSize)).flatten = kept.flatten ↔
        ∀ data ∈ kept, data.length ≤ Defaults.bufferSize) := by
  obtain ⟨kept, lost, ran, ended⟩ := run_recorded (T := T) ⟨h, { sock }⟩
  exact ⟨kept, lost, ran.appended.taken, ran.appended.writes, ended, flatten_take_eq_iff⟩

def delivered (data : Bytes) : Machine Int Recorder :=
  ⟨{ clock := 0, server := some 0, ending := .raises .command
     sockets := [{ fd := 3, transport := .datagram, timeout := some 1000, inbox := [data] }] },
    { sock := 0 }⟩

-- One byte too many for the buffer, and far less than a datagram may have.
theorem run_cuts : ¬∀ data : Bytes, 0 < data.length → data.length ≤ Defaults.maxDatagram →
    (after run (delivered data)).host.writes = [data] := by
  intro whole
  have long : (List.replicate (Defaults.bufferSize + 1) (97 : UInt8)).length =
      Defaults.bufferSize + 1 := List.length_replicate
  generalize List.replicate (Defaults.bufferSize + 1) (97 : UInt8) = data at long
  obtain ⟨kept, lost, ran, -⟩ := run_recorded (delivered data)
  have written : _ = [] ++ kept.map (Bytes.cut Defaults.bufferSize) := ran.appended.writes
  rw [whole data (long ▸ by decide) (long ▸ by decide), List.nil_append] at written
  have there : data ∈ kept.map (Bytes.cut Defaults.bufferSize) :=
    written ▸ List.mem_singleton_self data
  obtain ⟨piece, -, cut⟩ := List.mem_map.mp there
  have short : data.length ≤ Defaults.bufferSize := cut ▸ List.length_take_le _ _
  omega

end Recorder
end StreamRelay
