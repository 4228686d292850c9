import StreamRelay.Proofs.Relay.Reachable

namespace StreamRelay
variable {T : Type}

-- What is to be watched for the connections in a table.
def Table.entries (t : Table) : List (Int × Entry) := t.live.map fun e => (e.1, ⟨e.2, some e.2⟩)

theorem lookup_of_nodup {β : Type} {items : List (Int × β)} {k : Int} {v : β}
    (once : (items.map Prod.fst).Nodup) (there : (k, v) ∈ items) : items.lookup k = some v := by
  induction items with
  | nil => exact absurd there List.not_mem_nil
  | cons item rest ih =>
    obtain ⟨key, value⟩ := item
    obtain ⟨new, others⟩ := List.nodup_cons.mp once
    cases List.mem_cons.mp there with
    | inl same =>
      cases same
      exact List.lookup_cons_self
    | inr later =>
      have differs : k ≠ key := by
        intro same
        exact new (List.mem_map.mpr ⟨(k, v), later, same⟩)
      rw [List.lookup_cons, beq_false_of_ne differs]
      exact ih others later

namespace Relay
open Run Host

structure Entered (m : Machine T (Relay T)) (fd : Int) (id : SocketId) (c : Connection) : Prop where
  known : c ∈ m.prog.table.known
  sock : c.sock = id
  number : c.fd = fd
  registered : c.registered = true
  closed : c.closed = false
  isOpen : m.host.isOpen id = true
  fileno : m.host.fileno id = fd
  watched : m.host.watching? fd = some ⟨id, some id⟩

-- Table, flags, sockets and selector in step. What is watched is exact as long as the system has not
-- failed to free the number of an open socket.
structure InStep (m : Machine T (Relay T)) : Prop where
  numbers : (m.prog.table.live.map Prod.fst).Nodup
  table : ∀ e ∈ m.prog.table.live, ∃ c, m.prog.table.get? e.1 = some c ∧ Entered m e.1 e.2 c
  entries : m.host.Spared → m.host.entries.Perm
    (m.prog.table.entries ++ if attentive m.prog then [ownEntry m] else [])
  listener : m.host.Spared → (ownEntry m ∈ m.host.entries ↔
    m.prog.listener.paused = false ∧ m.prog.listener.closed = false)
  accepted : ∀ id ∈ m.host.accepted,
    m.host.isOpen id = false ∨ ∃! e, e ∈ m.prog.table.live ∧ e.2 = id

section Coherent
variable {m : Machine T (Relay T)} {c : Connection}

theorem Coherent.entered (coherent : Coherent m) (known : c ∈ m.prog.table.known)
    (alive : c.closed = false) : Entered m c.fd c.sock c := by
  have isOpen := coherent.roster.isOpen c known
  rw [alive] at isOpen
  refine ⟨known, rfl, rfl, ?_, alive, isOpen, ?_, ?_⟩
  · rw [coherent.roster.registered c known, alive]; rfl
  · rw [fileno_of_isOpen isOpen, coherent.roster.number c known]
  · exact lookup_of_nodup coherent.watch.keys (coherent.watch.watched c known alive)

theorem Coherent.connection? (coherent : Coherent m) (known : c ∈ m.prog.table.known) :
    m.prog.table.connection? c.sock = some c :=
  Table.connection?_of_mem (List.nodup_append.mp coherent.roster.once).1 known

theorem Coherent.mem_entries (coherent : Coherent m) {e : Int × Entry} :
    e ∈ m.prog.table.entries ↔ ∃ c ∈ m.prog.table.known, c.closed = false ∧ e = c.entry := by
  constructor
  · intro there
    obtain ⟨⟨fd, id⟩, listed, rfl⟩ := List.mem_map.mp there
    obtain ⟨c, known, rfl, rfl, alive⟩ := (coherent.roster.live fd id).mp listed
    exact ⟨c, known, alive, rfl⟩
  · intro there
    obtain ⟨c, known, alive, rfl⟩ := there
    have listed := (coherent.roster.live c.fd c.sock).mpr ⟨c, known, rfl, rfl, alive⟩
    exact List.mem_map.mpr ⟨_, listed, rfl⟩

theorem Coherent.ownEntry_iff (coherent : Coherent m) (distinct : Distinct m)
    (spared : m.host.Spared) : ownEntry m ∈ m.host.entries ↔ attentive m.prog = true := by
  constructor
  · intro there
    rcases coherent.watch.sound spared _ there with ⟨c, known, -, same⟩ | ⟨on, -⟩
    · exact absurd (congrArg Prod.fst same).symm (distinct.fd known)
    · exact on
  · exact coherent.watch.listed

theorem Coherent.inStep (coherent : Coherent m) (distinct : Distinct m) : InStep m := by
  have own := coherent.ownEntry_iff distinct
  refine ⟨coherent.roster.numbers, ?_, fun spared => ?_, fun spared => ?_, ?_⟩
  · intro e listed
    obtain ⟨c, known, sock, number, alive⟩ := (coherent.roster.live e.1 e.2).mp listed
    refine ⟨c, ?_, sock ▸ number ▸ coherent.entered known alive⟩
    rw [Table.get?, lookup_of_nodup coherent.roster.numbers listed, ← sock]
    exact coherent.connection? known
  · have once : m.prog.table.entries.Nodup := by
      refine List.Nodup.of_map Prod.fst ?_
      simpa [Table.entries, Function.comp_def] using coherent.roster.numbers
    have all : (m.prog.table.entries ++ if attentive m.prog then [ownEntry m] else []).Nodup := by
      refine List.nodup_append.mpr ⟨once, by split <;> simp, ?_⟩
      intro e there other last same
      obtain ⟨c, known, -, rfl⟩ := coherent.mem_entries.mp there
      split at last
      · rw [List.mem_singleton.mp last] at same
        exact distinct.fd known (congrArg Prod.fst same)
      · exact absurd last List.not_mem_nil
    refine (List.perm_ext_iff_of_nodup (.of_map _ coherent.watch.keys) all).mpr fun e => ?_
    rw [List.mem_append, coherent.mem_entries]
    constructor
    · intro there
      rcases coherent.watch.sound spared e there with found | ⟨on, same⟩
      · exact .inl found
      · exact .inr (by rw [if_pos on, same]; exact List.mem_singleton_self _)
    · intro there
      rcases there with ⟨c, known, alive, rfl⟩ | last
      · exact coherent.watch.watched c known alive
      · split at last
        · rename_i on
          rw [List.mem_singleton.mp last]
          exact (own spared).mpr on
        · exact absurd last List.not_mem_nil
  · rw [own spared]
    simp [attentive]
  · intro id told
    cases opened : m.host.isOpen id with
    | false => exact .inl rfl
    | true =>
      have enrolled := (coherent.roster.accepted id told).2 opened
      rw [List.append_nil] at enrolled
      obtain ⟨c, known, rfl⟩ := List.mem_map.mp enrolled
      have alive := coherent.roster.isOpen c known
      rw [opened] at alive
      have living : c.closed = false := by simpa using alive
      refine .inr ⟨(c.fd, c.sock), ⟨?_, rfl⟩, ?_⟩
      · exact (coherent.roster.live c.fd c.sock).mpr ⟨c, known, rfl, rfl, living⟩
      · intro e there
        obtain ⟨listed, same⟩ := there
        obtain ⟨d, other, sock, number, -⟩ := (coherent.roster.live e.1 e.2).mp listed
        cases coherent.roster.unique other known (sock.trans same)
        exact Prod.ext number.symm sock.symm

end Coherent

variable [Clock T] {allowed : Operation T → Prop} {start m : Machine T (Relay T)}

theorem reached_inStep (created : Created start) (reached : Reached allowed start m)
    (distinct : Distinct m) : InStep m :=
  ((reached.whole created.begun.whole).2 distinct).inStep distinct

@[irreducible] def joined : Machine Int (Relay Int) :=
  after (Operation.act .acceptAll) <|
    after (Operation.act (.happen [.connect { data := [104], ended := true }])) busyRelay

theorem reached_joined : Reached (fun _ => True) busyRelay joined := by
  unfold joined
  refine Reached.next (.next .start ?_ trivial ?_) ?_ trivial ?_
  all_goals decide +kernel

theorem reached_inStep_joined : InStep joined ∧ joined.prog.table.live = [(5, 2)] :=
  ⟨reached_inStep created_busyRelay reached_joined (by decide +kernel), by decide +kernel⟩

-- The machines on which a connection is read from while it is drained.
inductive Reads (conn : Connection) (m : Machine T (Relay T)) : Machine T (Relay T) → Prop where
  | first : Reads conn m m
  | next : Reads conn m last → readOnce conn last = .ok none next → Reads conn m next

theorem Reads.counted {conn : Connection} {last : Machine T (Relay T)}
    (reads : Reads conn m last) : Counted Settled m last := by
  induction reads with
  | first => exact reading_settled.draws.course.refl m
  | next _ ran ih =>
    exact reading_settled.draws.course.trans ih ((reading_settled.draws.readOnce conn _).of_ok ran)

theorem Coherent.reads (coherent : Coherent m) (distinct : Distinct m) {conn : Connection}
    (known : conn ∈ m.prog.table.known) (alive : conn.closed = false)
    {last : Machine T (Relay T)} (reads : Reads conn m last) :
    Entered last conn.fd conn.sock conn := by
  obtain ⟨after, -, table, -⟩ := coherent.counted distinct reads.counted
  exact after.entered (table ▸ known) alive

-- An event of a connection that has ended does nothing at all.
theorem Coherent.serve_closed (coherent : Coherent m) {conn : Connection}
    (known : conn ∈ m.prog.table.known) (gone : conn.closed = true) :
    serve conn.entry.2 m = .ok () m := by
  have other : conn.entry.2.sock ≠ m.prog.listener.sock :=
    (coherent.roster.taken conn.sock (List.mem_append_left _ (List.mem_map_of_mem known))).other
  have found : conn.entry.2.conn.bind m.prog.table.connection? = some conn :=
    coherent.connection? known
  apply eq_ok_of_ends
  apply ends_serve
  case accepts => exact fun own => absurd own other
  case passes => exact fun _ _ => rfl
  case reads =>
    intro d _ looked alive
    cases found.symm.trans looked
    exact absurd (gone.symm.trans alive) Bool.true_eq_false.mp

theorem Coherent.teardown_closed (coherent : Coherent m) {conn : Connection}
    (known : conn ∈ m.prog.table.known) (gone : conn.closed = true) :
    teardown conn.sock m = .ok () m := by
  have found := coherent.connection? known
  apply eq_ok_of_ends
  simp only [teardown, ends_bind, ends_gets, found, gone, if_true, ends_pure]

omit [Clock T] in
theorem entry_of_batch (coherent : Coherent m) {now : Machine T (Relay T)} (grows : Grows m now)
    (spared : m.host.Spared) {e : Int × Entry} (there : e ∈ m.host.entries) :
    e = ownEntry m ∨ ∃ conn ∈ now.prog.table.known, e = conn.entry := by
  rcases coherent.watch.sound spared e there with ⟨c, known, -, rfl⟩ | ⟨-, same⟩
  · have listed : (c.sock, c.fd) ∈ roll m.prog := List.mem_map_of_mem known
    obtain ⟨d, later, same⟩ := List.mem_map.mp (grows.roll.subset listed)
    have sock : d.sock = c.sock := congrArg Prod.fst same
    have number : d.fd = c.fd := congrArg Prod.snd same
    exact .inr ⟨d, later, by rw [Connection.entry, Connection.entry, sock, number]⟩
  · exact .inl same

-- While a batch is served, at any place of it.
structure Unmixed (now : Machine T (Relay T)) (conn : Connection) : Prop where
  reads : conn.closed = false → ∀ last, Reads conn now last → Entered last conn.fd conn.sock conn
  gone : conn.closed = true → serve conn.entry.2 now = .ok () now
  reused : ∀ other ∈ now.prog.table.known, other.closed = false → other.fd = conn.fd →
    other.sock ≠ conn.sock → serve conn.entry.2 now = .ok () now
  again : conn.closed = true → teardown conn.sock now = .ok () now

theorem Coherent.unmixed (coherent : Coherent m) (distinct : Distinct m) {conn : Connection}
    (known : conn ∈ m.prog.table.known) : Unmixed m conn := by
  refine ⟨fun alive _ => coherent.reads distinct known alive, coherent.serve_closed known,
    fun other there living number differs => ?_, coherent.teardown_closed known⟩
  apply coherent.serve_closed known
  cases gone : conn.closed with
  | true => rfl
  | false =>
    have same := coherent.roster.alone there known living gone number
    exact absurd (congrArg Connection.sock same) differs

@[irreducible] def reusing : Machine Int (Relay Int) :=
  after (Operation.act (.happen [.connect { fd := some 5 }])) joined

theorem reached_reusing : Reached (fun _ => True) busyRelay reusing := by
  unfold reusing
  exact reached_joined.next (by decide +kernel) trivial (by decide +kernel)

end Relay
end StreamRelay
