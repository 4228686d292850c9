import StreamRelay.Proofs.Host.Lasting
import StreamRelay.Proofs.Relay.Frames

namespace StreamRelay.Relay
variable {T : Type}
open Run Host

structure Based (m : Machine T (Relay T)) : Prop where
  orderly : m.host.Orderly
  listener : m.prog.listener.sock < m.host.sockets.length

def roll (r : Relay T) : List (SocketId × Int) := r.table.known.map fun c => (c.sock, c.fd)

structure Kin (r r' : Relay T) : Prop where
  config : r'.config = r.config
  sink : r'.sink = r.sink
  listener : r'.listener.sock = r.listener.sock
  roll : roll r <+: roll r'

structure Grows (m m' : Machine T (Relay T)) : Prop extends Kin m.prog m'.prog where
  ages : Ages m.host m'.host

def Ground : Machine T (Relay T) → Machine T (Relay T) → Prop := Both Aged Kin

theorem Ground.grows {m m' : Machine T (Relay T)} (ground : Ground m m') (based : Based m) :
    Based m' ∧ Grows m m' := by
  obtain ⟨aged, kin⟩ := ground
  obtain ⟨orderly, ages⟩ := aged based.orderly
  refine ⟨⟨orderly, ?_⟩, kin, ages⟩
  rw [kin.listener]
  exact Nat.lt_of_lt_of_le based.listener ages.grown

theorem lax_kin : Lax (T := T) Kin where
  refl _ := ⟨rfl, rfl, rfl, List.prefix_rfl⟩
  trans one two := ⟨two.config.trans one.config, two.sink.trans one.sink,
    two.listener.trans one.listener, one.roll.trans two.roll⟩
  edit {r r'} edited := by
    have same : roll r' = roll r := edited.known
    exact ⟨edited.config, edited.sink, edited.listener, same ▸ List.prefix_rfl⟩
  insert r c := ⟨rfl, rfl, rfl, by simp [roll, setTable, Table.insert]⟩

theorem settled_told {h : Host T} {e : Event T} (accepted : (h.emit e).accepted = h.accepted) :
    Settled h (h.emit e) :=
  Alike.settled ⟨rfl, rfl, rfl, rfl, accepted, fun _ kept => kept⟩

variable [Clock T]

theorem reading_settled : Reading (T := T) Settled where
  toSteady := calm_settled.steady
  take := settled_take
  received _ _ _ := settled_told rfl
  offered _ _ _ := settled_told rfl
  datagram _ _ _ _ := settled_told rfl

-- What becomes of an accepted socket: it is watched and known, or it is closed again. Only a cause
-- that the system does not give for such calls leaves it as it is.
def Enrolled (m : Machine T (Relay T)) (sock : SocketId) (peer : Peer)
    (admitted : Option Connection) (m' : Machine T (Relay T)) : Prop :=
  ∃ h, Settled m.host h ∧
    match admitted with
    | none => m' = ⟨h.shut sock, m.prog⟩
    | some conn => h.isOpen sock = true ∧ h.watching? (h.number sock) = none ∧
        conn = ⟨sock, peer.address, h.number sock, true, false⟩ ∧
        m' = ⟨h.watch sock (some sock), setTable (·.insert conn) m.prog⟩

theorem enroll_ends {m : Machine T (Relay T)} (orderly : m.host.Orderly) (sock : SocketId)
    (peer : Peer) :
    Ends (enroll sock peer) m (Enrolled m sock peer) fun _ m' =>
      Hosted Settled m m' ∧ ¬Documented m'.host := by
  have steady := calm_settled (T := T).steady
  have refused {h : Host T} (path : Settled m.host h) (text : String) :
      Enrolled m sock peer none ⟨(h.logged .error text).shut sock, m.prog⟩ :=
    ⟨h.logged .error text, path.trans (steady.logged h .error text), rfl⟩
  apply ends_enroll
  refine (setBlocking_ends steady false).imp ?_ ?_
  · intro _ m' reached
    obtain ⟨h, s, path, known, opened, rfl⟩ := reached
    have hastened := path.trans (settled_hasten h sock)
    have isOpen := ((settled_hasten h sock) (path orderly).1).2.isOpen sock (lt_of_sock? known)
    rw [isOpen_of_sock? known, opened] at isOpen
    simp only [Bool.false_eq_true, if_false, fileno_of_isOpen isOpen]
    generalize (h.alter sock fun s => { s with timeout := some Clock.zero }) = middle at *
    refine (register_ends (m := ⟨middle, m.prog⟩) steady _).imp ?_ ?_
    · rintro _ m' reached conn rfl
      obtain ⟨h', after, still, unwatched, rfl⟩ := reached
      have number := ((after (hastened orderly).1).2.number sock (lt_of_isOpen isOpen)).symm
      exact ⟨h', hastened.trans after, still, unwatched, by rw [number], rfl⟩
    · intro f m' reached
      obtain ⟨h', after, rfl⟩ := reached
      have noted := (hastened.trans after).trans (calm_settled.note h' .register sock f)
      exact ⟨fun _ => refused noted, fun bad => ⟨⟨noted, rfl⟩, undocumented bad⟩⟩
  · intro f m' reached
    obtain ⟨h, path, rfl⟩ := reached
    have noted := path.trans (calm_settled.note h .setBlocking sock f)
    exact ⟨fun _ => refused noted, fun bad => ⟨⟨noted, rfl⟩, undocumented bad⟩⟩

theorem ample_aged : Ample (T := T) Aged where
  toSteady := (calm_settled.mono Settled.aged Aged.trans).steady
  told := aged_emit
  raise h := (settled_raise h .service).aged
  shut := aged_shut
  entries := aged_entries
  selector h := aged_of_same rfl rfl rfl (accepted_emit h .selectorClosed) rfl
  take h id limit := (settled_take h id limit).aged
  hasten h id := (settled_hasten h id).aged
  dequeue _ _ _ _ _ := aged_dequeue

theorem ground_parts : Parts (T := T) Ground Ground := ample_aged.parts lax_kin

omit [Clock T] in
theorem ground_mark (h : Host T) (r : Relay T) : Ground ⟨h, r⟩ ⟨h, { r with closed := true }⟩ :=
  ⟨.refl h, rfl, rfl, rfl, List.prefix_rfl⟩

end StreamRelay.Relay
