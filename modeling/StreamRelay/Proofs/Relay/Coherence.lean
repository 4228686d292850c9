import Mathlib.Data.List.Nodup
import StreamRelay.Proofs.Relay.Ground

namespace StreamRelay

def Connection.entry (c : Connection) : Int × Entry := (c.fd, ⟨c.sock, some c.sock⟩)

namespace Table
variable {t : Table} {c d : Connection} {fd : Int} {id : SocketId}

def retire (t : Table) (c : Connection) : Table :=
  ((t.alter c.sock fun d => { d with registered := false }).erase c.fd).alter c.sock
    fun d => { d with closed := true }

theorem mem_of_connection? (found : t.connection? id = some c) : c ∈ t.known ∧ c.sock = id :=
  ⟨List.mem_of_find?_eq_some found, by simpa using List.find?_some found⟩

theorem connection?_of_mem (once : (t.known.map Connection.sock).Nodup) (known : c ∈ t.known) :
    t.connection? c.sock = some c := by
  cases found : t.connection? c.sock with
  | none =>
    have other := List.find?_eq_none.mp found c known
    exact absurd other (by simp)
  | some d =>
    obtain ⟨there, same⟩ := mem_of_connection? found
    rw [List.inj_on_of_nodup_map once there known same]

theorem place_of_new {live : List (Int × SocketId)} (new : fd ∉ live.map Prod.fst) :
    place fd id live = live ++ [(fd, id)] := by
  induction live with
  | nil => rfl
  | cons entry rest ih =>
    simp only [List.map_cons, List.mem_cons, not_or] at new
    rw [place, if_neg (Ne.symm new.1), ih new.2]
    rfl

theorem length_erase {live : List (Int × SocketId)} (numbers : (live.map Prod.fst).Nodup)
    (there : (fd, id) ∈ live) : (live.filter (·.1 ≠ fd)).length + 1 = live.length := by
  induction live with
  | nil => exact absurd there List.not_mem_nil
  | cons entry rest ih =>
    obtain ⟨new, others⟩ := List.nodup_cons.mp numbers
    cases List.mem_cons.mp there with
    | inl same =>
      subst same
      have all : rest.filter (·.1 ≠ fd) = rest := by
        refine List.filter_eq_self.mpr fun e listed => ?_
        have differs : e.1 ≠ fd := fun number => new (List.mem_map.mpr ⟨e, listed, number⟩)
        simpa using differs
      rw [List.filter_cons_of_neg (by simp), all, List.length_cons]
    | inr later =>
      have differs : entry.1 ≠ fd := by
        intro number
        exact new (List.mem_map.mpr ⟨(fd, id), later, number.symm⟩)
      rw [List.filter_cons_of_pos (by simpa using differs), List.length_cons, List.length_cons,
        ih others later]

@[simp] theorem live_retire : (t.retire c).live = t.live.filter (·.1 ≠ c.fd) := rfl

theorem known_retire : (t.retire c).known = t.known.map fun d =>
    if d.sock = c.sock then { d with registered := false, closed := true } else d := by
  simp only [retire, alter, erase, List.map_map]
  refine List.map_congr_left fun d _ => ?_
  by_cases same : d.sock = c.sock <;> simp [same]

theorem mem_retire (there : d ∈ (t.retire c).known) :
    (d ∈ t.known ∧ d.sock ≠ c.sock) ∨ ∃ before ∈ t.known, before.sock = c.sock ∧
      d = { before with registered := false, closed := true } := by
  rw [known_retire] at there
  obtain ⟨before, known, eq⟩ := List.mem_map.mp there
  by_cases same : before.sock = c.sock
  · rw [if_pos same] at eq
    exact .inr ⟨before, known, same, eq.symm⟩
  · rw [if_neg same] at eq
    exact .inl (eq ▸ ⟨known, same⟩)

theorem mem_retire_of_ne (known : d ∈ t.known) (differs : d.sock ≠ c.sock) :
    d ∈ (t.retire c).known := by
  rw [known_retire]
  exact List.mem_map.mpr ⟨d, known, if_neg differs⟩

theorem socks_retire : (t.retire c).known.map Connection.sock = t.known.map Connection.sock := by
  rw [known_retire, List.map_map]
  refine List.map_congr_left fun d _ => ?_
  simp only [Function.comp_apply]
  split <;> rfl

end Table

namespace Relay
variable {T : Type}
open Run Host

def socks (r : Relay T) : List SocketId := r.table.known.map Connection.sock

-- What is watched for the listener.
def ownEntry (m : Machine T (Relay T)) : Int × Entry :=
  (m.host.number m.prog.listener.sock, ⟨m.prog.listener.sock, none⟩)

-- A socket that exists, waits for nobody and is not the listener's.
structure Taken (m : Machine T (Relay T)) (id : SocketId) : Prop where
  bounded : id < m.host.sockets.length
  idle : id ∉ m.host.pending
  other : id ≠ m.prog.listener.sock

-- The table beside the sockets. In hand are those that were accepted and are not in the table yet.
structure Roster (hand : List SocketId) (m : Machine T (Relay T)) : Prop where
  idle : m.prog.listener.sock ∉ m.host.pending
  taken : ∀ id ∈ socks m.prog ++ hand, Taken m id
  once : (socks m.prog ++ hand).Nodup
  numbers : (m.prog.table.live.map Prod.fst).Nodup
  live : ∀ fd id, (fd, id) ∈ m.prog.table.live ↔
    ∃ c ∈ m.prog.table.known, c.sock = id ∧ c.fd = fd ∧ c.closed = false
  registered : ∀ c ∈ m.prog.table.known, c.registered = !c.closed
  isOpen : ∀ c ∈ m.prog.table.known, m.host.isOpen c.sock = !c.closed
  number : ∀ c ∈ m.prog.table.known, m.host.number c.sock = c.fd
  accepted : ∀ id ∈ m.host.accepted, id < m.host.sockets.length ∧
    (m.host.isOpen id = true → id ∈ socks m.prog ++ hand)

-- How many of the connections that were counted as accepted are neither counted as closed nor in
-- the table.
def offset (r : Relay T) : Int :=
  r.stats.counters.accepted - r.stats.counters.closed - r.table.live.length

-- What is watched beside the table. Entries too many are there only if the system failed to free
-- a number.
structure Watch (watching : Bool) (m : Machine T (Relay T)) : Prop where
  watched : ∀ c ∈ m.prog.table.known, c.closed = false → c.entry ∈ m.host.entries
  keys : (m.host.entries.map Prod.fst).Nodup
  sound : m.host.Spared → ∀ e ∈ m.host.entries,
    (∃ c ∈ m.prog.table.known, c.closed = false ∧ e = c.entry) ∨ watching = true ∧ e = ownEntry m
  listed : watching = true → ownEntry m ∈ m.host.entries

-- The numbers of connections are never the listener's: as long as connections are admitted its
-- socket is open, and open sockets have different numbers.
def Distinct (m : Machine T (Relay T)) : Prop :=
  ∀ e ∈ roll m.prog, e.2 ≠ m.host.number m.prog.listener.sock

instance (m : Machine T (Relay T)) : Decidable (Distinct m) :=
  inferInstanceAs (Decidable (∀ e ∈ roll m.prog, e.2 ≠ m.host.number m.prog.listener.sock))

theorem Grows.distinct {m m' : Machine T (Relay T)} (grows : Grows m m') (based : Based m)
    (distinct : Distinct m') : Distinct m := by
  intro e there
  have later := distinct e (grows.roll.subset there)
  rwa [grows.listener, grows.ages.number _ based.listener] at later

theorem Distinct.fd {m : Machine T (Relay T)} (distinct : Distinct m) {c : Connection}
    (known : c ∈ m.prog.table.known) : c.fd ≠ m.host.number m.prog.listener.sock :=
  distinct _ (List.mem_map_of_mem known)

theorem Spared.before {h h' : Host T} (ages : Ages h h') (spared : h'.Spared) : h.Spared :=
  fun r there => spared r (ages.refusals r there)

theorem Taken.ages {h h' : Host T} {r : Relay T} {id : SocketId} (taken : Taken ⟨h, r⟩ id)
    (ages : Ages h h') : Taken ⟨h', r⟩ id := by
  refine ⟨Nat.lt_of_lt_of_le taken.bounded ages.grown, fun waits => ?_, taken.other⟩
  cases ages.pending id waits with
  | inl before => exact taken.idle before
  | inr new => exact Nat.not_lt.mpr new taken.bounded

section Moves
variable {h h' : Host T} {r : Relay T} {hand : List SocketId} {watching : Bool} {id : SocketId}

theorem Roster.idle_after (roster : Roster hand ⟨h, r⟩) (based : Based ⟨h, r⟩)
    (ages : Ages h h') : r.listener.sock ∉ h'.pending := by
  intro waits
  cases ages.pending _ waits with
  | inl before => exact roster.idle before
  | inr new => exact Nat.not_lt.mpr new based.listener

theorem Roster.bounded (roster : Roster hand ⟨h, r⟩) {c : Connection}
    (known : c ∈ r.table.known) : c.sock < h.sockets.length :=
  (roster.taken _ (List.mem_append_left _ (List.mem_map_of_mem known))).bounded

theorem Roster.unique (roster : Roster hand ⟨h, r⟩) {c d : Connection}
    (one : c ∈ r.table.known) (two : d ∈ r.table.known) (same : c.sock = d.sock) : c = d :=
  List.inj_on_of_nodup_map (List.nodup_append.mp roster.once).1 one two same

theorem Roster.alone (roster : Roster hand ⟨h, r⟩) {c d : Connection}
    (one : c ∈ r.table.known) (two : d ∈ r.table.known) (alive : c.closed = false)
    (alive' : d.closed = false) (same : c.fd = d.fd) : c = d := by
  have first := (roster.live c.fd c.sock).mpr ⟨c, one, rfl, rfl, alive⟩
  have second := (roster.live d.fd d.sock).mpr ⟨d, two, rfl, rfl, alive'⟩
  have entry := List.inj_on_of_nodup_map roster.numbers first second same
  exact roster.unique one two (congrArg Prod.snd entry)

theorem Roster.holds (roster : Roster hand ⟨h, r⟩) (based : Based ⟨h, r⟩)
    (holds : Holds h h') : Roster hand ⟨h', r⟩ where
  idle := roster.idle_after based holds.toAges
  taken id there := (roster.taken id there).ages holds.toAges
  once := roster.once
  numbers := roster.numbers
  live := roster.live
  registered := roster.registered
  isOpen c known := (holds.isOpen c.sock (roster.bounded known)).trans (roster.isOpen c known)
  number c known := (holds.number c.sock (roster.bounded known)).trans (roster.number c known)
  accepted id told := by
    obtain ⟨bounded, kept⟩ := roster.accepted id (holds.admitted ▸ told)
    refine ⟨Nat.lt_of_lt_of_le bounded holds.grown, fun opened => kept ?_⟩
    exact (holds.isOpen id bounded).symm.trans opened

theorem ownEntry_after (based : Based ⟨h, r⟩) (ages : Ages h h') :
    ownEntry ⟨h', r⟩ = ownEntry ⟨h, r⟩ := by
  simp only [ownEntry, ages.number _ based.listener]

theorem Watch.kept (watch : Watch watching ⟨h, r⟩) (based : Based ⟨h, r⟩) (ages : Ages h h')
    (entries : h'.entries = h.entries) : Watch watching ⟨h', r⟩ where
  watched c known alive := entries ▸ watch.watched c known alive
  keys := entries ▸ watch.keys
  sound spared e there := by
    rw [ownEntry_after based ages]
    exact watch.sound (Spared.before ages spared) e (entries ▸ there)
  listed on := by
    rw [ownEntry_after based ages]
    exact entries ▸ watch.listed on

theorem Roster.take (roster : Roster [] ⟨h, r⟩) (orderly : h.Orderly) {l first : SocketId}
    {rest : List SocketId} {s : Sock T} (known : h.sock? l = some s)
    (queue : s.backlog = first :: rest) (fd : Int) :
    Roster [first] ⟨(h.dequeue l rest).emit (.accept first fd), r⟩ := by
  have moved := dequeue_perm known queue
  have waited : first ∈ h.pending := moved.mem_iff.mp List.mem_cons_self
  have gone : first ∉ (h.dequeue l rest).pending :=
    (List.nodup_cons.mp (moved.nodup_iff.mpr orderly.pending_nodup)).1
  have before (id : SocketId) (waits : id ∈ (h.dequeue l rest).pending) : id ∈ h.pending :=
    moved.mem_iff.mp (List.mem_cons_of_mem _ waits)
  have length : (h.dequeue l rest).sockets.length = h.sockets.length := length_alter
  refine ⟨fun waits => roster.idle (before _ waits), ?_, ?_, roster.numbers, roster.live,
    roster.registered, ?_, ?_, ?_⟩
  · intro id there
    cases List.mem_append.mp there with
    | inl enrolled =>
      have taken := roster.taken id (List.mem_append_left _ enrolled)
      exact ⟨length.symm ▸ taken.bounded, fun waits => taken.idle (before _ waits), taken.other⟩
    | inr last =>
      rw [List.mem_singleton.mp last]
      refine ⟨length.symm ▸ orderly.pending_lt _ waited, gone, fun same => ?_⟩
      exact roster.idle (same ▸ waited)
  · refine List.nodup_append.mpr ⟨(List.nodup_append.mp roster.once).1, List.nodup_singleton _, ?_⟩
    intro id enrolled other last same
    rw [List.mem_singleton.mp last] at same
    exact (roster.taken id (List.mem_append_left _ enrolled)).idle (same ▸ waited)
  · exact fun c there => isOpen_dequeue.trans (roster.isOpen c there)
  · exact fun c there => number_dequeue.trans (roster.number c there)
  · intro id told
    cases List.mem_cons.mp told with
    | inl same =>
      subst same
      exact ⟨length.symm ▸ orderly.pending_lt _ waited,
        fun _ => List.mem_append_right _ (List.mem_singleton_self _)⟩
    | inr earlier =>
      obtain ⟨bounded, kept⟩ := roster.accepted id earlier
      refine ⟨length.symm ▸ bounded, fun opened => ?_⟩
      have enrolled := kept (isOpen_dequeue.symm.trans opened)
      rw [List.append_nil] at enrolled
      exact List.mem_append_left _ enrolled

theorem Roster.dismiss (roster : Roster [id] ⟨h, r⟩) : Roster [] ⟨h.shut id, r⟩ := by
  have apart (c : Connection) (known : c ∈ r.table.known) : id ≠ c.sock := by
    intro same
    have distinct := (List.nodup_append.mp roster.once).2.2 c.sock (List.mem_map_of_mem known)
    exact distinct id (List.mem_singleton_self id) same.symm
  refine ⟨by simpa using roster.idle, ?_, ?_, roster.numbers, roster.live, roster.registered,
    ?_, ?_, ?_⟩
  · intro other there
    rw [List.append_nil] at there
    have taken := roster.taken other (List.mem_append_left _ there)
    exact ⟨by simpa using taken.bounded, by simpa using taken.idle, taken.other⟩
  · rw [List.append_nil]
    exact (List.nodup_append.mp roster.once).1
  · intro c known
    refine isOpen_shut.trans ?_
    rw [if_neg (apart c known)]
    exact roster.isOpen c known
  · exact fun c known => number_shut.trans (roster.number c known)
  · intro other told
    simp only [accepted_shut] at told
    obtain ⟨bounded, kept⟩ := roster.accepted other told
    refine ⟨by simpa using bounded, fun opened => ?_⟩
    rw [isOpen_shut] at opened
    split at opened
    · exact absurd opened Bool.false_ne_true
    · rename_i differs
      cases List.mem_append.mp (kept opened) with
      | inl enrolled => exact List.mem_append_left _ enrolled
      | inr last => exact absurd (List.mem_singleton.mp last).symm differs

theorem Roster.shut (roster : Roster [] ⟨h, r⟩)
    (other : ∀ c ∈ r.table.known, c.closed = false → id ≠ c.sock) : Roster [] ⟨h.shut id, r⟩ := by
  refine ⟨by simpa using roster.idle, ?_, roster.once, roster.numbers, roster.live,
    roster.registered, ?_, ?_, ?_⟩
  · intro id there
    have taken := roster.taken id there
    exact ⟨by simpa using taken.bounded, by simpa using taken.idle, taken.other⟩
  · intro c known
    refine isOpen_shut.trans ?_
    cases gone : c.closed with
    | true =>
      have closed := roster.isOpen c known
      rw [gone] at closed
      simp only [closed, Bool.not_true, ite_self]
    | false =>
      rw [if_neg (other c known gone), ← gone]
      exact roster.isOpen c known
  · exact fun c known => number_shut.trans (roster.number c known)
  · intro id told
    simp only [accepted_shut] at told
    obtain ⟨bounded, kept⟩ := roster.accepted id told
    refine ⟨by simpa using bounded, fun opened => kept ?_⟩
    rw [isOpen_shut] at opened
    split at opened
    · exact absurd opened Bool.false_ne_true
    · exact opened

def newcomer (h : Host T) (id : SocketId) (peer : Address) : Connection :=
  ⟨id, peer, h.number id, true, false⟩

theorem Watch.unheard (watch : Watch watching ⟨h, r⟩)
    (unwatched : h.watching? (h.number id) = none) {c : Connection} (known : c ∈ r.table.known)
    (alive : c.closed = false) : c.fd ≠ h.number id := by
  exact ne_of_unwatched unwatched (watch.watched c known alive)

theorem Roster.free (roster : Roster hand ⟨h, r⟩) (watch : Watch watching ⟨h, r⟩)
    (unwatched : h.watching? (h.number id) = none) :
    Table.place (h.number id) id r.table.live = r.table.live ++ [(h.number id, id)] := by
  refine Table.place_of_new fun there => ?_
  obtain ⟨⟨fd, other⟩, listed, same⟩ := List.mem_map.mp there
  obtain ⟨c, known, -, number, alive⟩ := (roster.live fd other).mp listed
  exact watch.unheard unwatched known alive (number.trans same)

theorem Roster.adopt (roster : Roster [id] ⟨h, r⟩) (watch : Watch watching ⟨h, r⟩)
    (opened : h.isOpen id = true) (unwatched : h.watching? (h.number id) = none)
    (peer : Address) :
    Roster [] ⟨h.watch id (some id), setTable (·.insert (newcomer h id peer)) r⟩ := by
  have placed := roster.free watch unwatched
  constructor
  case idle => exact roster.idle
  case taken =>
    intro other there
    have taken := roster.taken other (by simpa [socks, setTable, Table.insert, newcomer] using there)
    exact ⟨taken.bounded, taken.idle, taken.other⟩
  case once => simpa [socks, setTable, Table.insert, newcomer] using roster.once
  case numbers =>
    simp only [setTable, Table.insert, newcomer, placed, List.map_append]
    refine List.nodup_append.mpr ⟨roster.numbers, List.nodup_singleton _, ?_⟩
    intro fd there other last same
    obtain ⟨⟨number, sock⟩, listed, rfl⟩ := List.mem_map.mp there
    obtain ⟨c, known, -, rfl, alive⟩ := (roster.live number sock).mp listed
    exact watch.unheard unwatched known alive (same.trans (List.mem_singleton.mp last))
  case live =>
    intro fd other
    have before := roster.live fd other
    simp only [setTable, Table.insert, newcomer, placed, List.mem_append, List.mem_singleton,
      Prod.mk.injEq] at before ⊢
    constructor
    · intro there
      rcases there with there | ⟨number, sock⟩
      · obtain ⟨c, known, facts⟩ := before.mp there
        exact ⟨c, .inl known, facts⟩
      · exact ⟨_, .inr rfl, sock.symm, number.symm, rfl⟩
    · intro there
      obtain ⟨c, known | new, sock, number, alive⟩ := there
      · exact .inl (before.mpr ⟨c, known, sock, number, alive⟩)
      · subst new
        exact .inr ⟨number.symm, sock.symm⟩
  case registered =>
    intro c there
    cases List.mem_append.mp there with
    | inl known => exact roster.registered c known
    | inr last => rw [List.mem_singleton.mp last]; rfl
  case isOpen =>
    intro c there
    cases List.mem_append.mp there with
    | inl known => exact roster.isOpen c known
    | inr last => rw [List.mem_singleton.mp last]; exact opened
  case number =>
    intro c there
    cases List.mem_append.mp there with
    | inl known => exact roster.number c known
    | inr last => rw [List.mem_singleton.mp last]; rfl
  case accepted =>
    intro other told
    obtain ⟨bounded, kept⟩ := roster.accepted other told
    refine ⟨bounded, fun open' => ?_⟩
    simpa [socks, setTable, Table.insert, newcomer] using kept open'

theorem Roster.offset_adopt (roster : Roster hand ⟨h, r⟩) (watch : Watch watching ⟨h, r⟩)
    (unwatched : h.watching? (h.number id) = none) (peer : Address) :
    offset (setTable (·.insert (newcomer h id peer)) r) = offset r - 1 := by
  simp only [offset, setTable, Table.insert, newcomer, roster.free watch unwatched,
    List.length_append, List.length_singleton]
  omega

theorem Watch.adopt (watch : Watch watching ⟨h, r⟩)
    (unwatched : h.watching? (h.number id) = none) (peer : Address) :
    Watch watching ⟨h.watch id (some id), setTable (·.insert (newcomer h id peer)) r⟩ := by
  refine ⟨?_, keys_watch watch.keys unwatched, ?_, ?_⟩
  · intro c there alive
    cases List.mem_append.mp there with
    | inl known => exact List.mem_append_left _ (watch.watched c known alive)
    | inr last =>
      rw [List.mem_singleton.mp last]
      exact List.mem_append_right _ (List.mem_singleton_self _)
  · intro spared e there
    cases List.mem_append.mp there with
    | inl before =>
      obtain ⟨c, known, facts⟩ | own := watch.sound spared e before
      · exact .inl ⟨c, List.mem_append_left _ known, facts⟩
      · exact .inr own
    | inr last =>
      exact .inl ⟨_, List.mem_append_right _ (List.mem_singleton_self _), rfl,
        List.mem_singleton.mp last⟩
  · exact fun on => List.mem_append_left _ (watch.listed on)

-- A connection that is alive ends: it leaves the table and its socket is closed.
theorem Roster.retire (roster : Roster [] ⟨h, r⟩) {conn : Connection}
    (known : conn ∈ r.table.known) (alive : conn.closed = false) :
    Roster [] ⟨h.shut conn.sock, setTable (·.retire conn) r⟩ := by
  have socks_same : socks (setTable (·.retire conn) r) = socks r := Table.socks_retire
  have apart (c : Connection) (there : c ∈ r.table.known) (differs : c.sock ≠ conn.sock)
      (living : c.closed = false) : c.fd ≠ conn.fd := by
    intro same
    exact differs (congrArg Connection.sock (roster.alone there known living alive same))
  constructor
  case idle => simpa [setTable] using roster.idle
  case taken =>
    intro id there
    rw [socks_same] at there
    have taken := roster.taken id there
    exact ⟨by simpa using taken.bounded, by simpa using taken.idle, taken.other⟩
  case once =>
    rw [socks_same]
    exact roster.once
  case numbers => exact roster.numbers.sublist (List.filter_sublist.map _)
  case live =>
    intro fd id
    have before := roster.live fd id
    simp only [setTable, Table.live_retire, List.mem_filter, decide_eq_true_eq] at before ⊢
    constructor
    · intro there
      obtain ⟨c, listed, sock, number, living⟩ := before.mp there.1
      refine ⟨c, Table.mem_retire_of_ne listed fun same => ?_, sock, number, living⟩
      have ended := roster.unique listed known same
      exact there.2 (number.symm.trans (congrArg Connection.fd ended))
    · intro there
      obtain ⟨c, listed, sock, number, living⟩ := there
      rcases Table.mem_retire listed with ⟨earlier, differs⟩ | ⟨d, -, -, rfl⟩
      · exact ⟨before.mpr ⟨c, earlier, sock, number, living⟩,
          number ▸ apart c earlier differs living⟩
      · exact absurd living (Bool.false_ne_true ·.symm)
  case registered =>
    intro c there
    rcases Table.mem_retire there with ⟨earlier, -⟩ | ⟨d, -, -, rfl⟩
    · exact roster.registered c earlier
    · rfl
  case isOpen =>
    intro c there
    refine isOpen_shut.trans ?_
    rcases Table.mem_retire there with ⟨earlier, differs⟩ | ⟨d, -, same, rfl⟩
    · rw [if_neg (Ne.symm differs)]
      exact roster.isOpen c earlier
    · rw [if_pos same.symm]
      rfl
  case number =>
    intro c there
    refine number_shut.trans ?_
    rcases Table.mem_retire there with ⟨earlier, -⟩ | ⟨d, earlier, -, rfl⟩
    · exact roster.number c earlier
    · exact roster.number d earlier
  case accepted =>
    intro id told
    simp only [accepted_shut] at told
    obtain ⟨bounded, kept⟩ := roster.accepted id told
    refine ⟨by simpa using bounded, fun opened => ?_⟩
    rw [isOpen_shut] at opened
    rw [socks_same]
    split at opened
    · exact absurd opened Bool.false_ne_true
    · exact kept opened

theorem Roster.offset_retire (roster : Roster hand ⟨h, r⟩) {conn : Connection}
    (known : conn ∈ r.table.known) (alive : conn.closed = false) :
    offset (setTable (·.retire conn) r) = offset r + 1 := by
  have length := Table.length_erase roster.numbers
    ((roster.live conn.fd conn.sock).mpr ⟨conn, known, rfl, rfl, alive⟩)
  simp only [offset, setTable, Table.live_retire] at length ⊢
  omega

theorem Watch.retire (watch : Watch watching ⟨h, r⟩) (roster : Roster [] ⟨h, r⟩)
    (based : Based ⟨h, r⟩) (distinct : Distinct ⟨h, r⟩) {conn : Connection}
    (known : conn ∈ r.table.known) (alive : conn.closed = false)
    (released : h.Released conn.sock h') :
    Watch watching ⟨h'.shut conn.sock, setTable (·.retire conn) r⟩ := by
  have own : ownEntry ⟨h'.shut conn.sock, setTable (·.retire conn) r⟩ = ownEntry ⟨h, r⟩ := by
    simp only [ownEntry, number_shut, ← released.holds.number _ based.listener]
    rfl
  have back (spared : (h'.shut conn.sock).Spared) : h'.Spared := by
    simpa only [Spared, refusals_shut] using spared
  have number : h.number conn.sock = conn.fd := roster.number conn known
  have survives (e : Int × Entry) (there : e ∈ h.entries) (differs : e.1 ≠ conn.fd) :
      e ∈ h'.entries := released.survives there (number ▸ differs)
  constructor
  case watched =>
    intro c there living
    rw [entries_shut]
    rcases Table.mem_retire there with ⟨earlier, differs⟩ | ⟨d, -, -, rfl⟩
    · refine survives _ (watch.watched c earlier living) fun same => differs ?_
      exact congrArg Connection.sock (roster.alone earlier known living alive same)
    · exact absurd living (Bool.false_ne_true ·.symm)
  case keys =>
    rw [entries_shut]
    exact watch.keys.sublist (released.sublist.map _)
  case sound =>
    intro spared e there
    rw [entries_shut] at there
    rw [own]
    have earlier := Spared.before released.holds.toAges (back spared)
    rcases watch.sound earlier e (released.sublist.subset there) with ⟨c, listed, living, rfl⟩ | other
    · refine .inl ⟨c, Table.mem_retire_of_ne listed fun same => ?_, living, rfl⟩
      have freed : c.entry.1 = conn.fd := congrArg Connection.fd (roster.unique listed known same)
      exact released.frees (back spared) there (freed.trans number.symm)
    · exact .inr other
  case listed =>
    intro on
    rw [entries_shut, own]
    exact survives _ (watch.listed on) (distinct.fd known).symm

theorem Watch.unlisten (watch : Watch watching ⟨h, r⟩)
    (distinct : Distinct ⟨h, r⟩) (released : h.Released r.listener.sock h') :
    Watch false ⟨h', r⟩ := by
  constructor
  case watched =>
    intro c known alive
    exact released.survives (watch.watched c known alive) (distinct.fd known)
  case keys => exact watch.keys.sublist (released.sublist.map _)
  case sound =>
    intro spared e there
    have earlier := Spared.before released.holds.toAges spared
    rcases watch.sound earlier e (released.sublist.subset there) with found | ⟨-, own⟩
    · exact .inl found
    · exact absurd (congrArg Prod.fst own) (released.frees spared there)
  case listed => exact fun on => absurd on Bool.false_ne_true

theorem Watch.listen (watch : Watch false ⟨h, r⟩)
    (unwatched : h.watching? (h.number r.listener.sock) = none) :
    Watch true ⟨h.watch r.listener.sock none, r⟩ := by
  refine ⟨?_, keys_watch watch.keys unwatched, ?_, ?_⟩
  · exact fun c known alive => List.mem_append_left _ (watch.watched c known alive)
  · intro spared e there
    cases List.mem_append.mp there with
    | inl before =>
      rcases watch.sound spared e before with found | ⟨off, -⟩
      · exact .inl found
      · exact absurd off Bool.false_ne_true
    | inr last => exact .inr ⟨rfl, List.mem_singleton.mp last⟩
  · exact fun _ => List.mem_append_right _ (List.mem_singleton_self _)

end Moves

end Relay
end StreamRelay
