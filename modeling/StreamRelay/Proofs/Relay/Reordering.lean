import StreamRelay.Proofs.Relay.Reachable
import StreamRelay.Proofs.Wire.Passage

namespace StreamRelay
variable {T : Type}

theorem Table.retire_comm (t : Table) (c d : Connection) :
    (t.retire c).retire d = (t.retire d).retire c := by
  have known : ((t.retire c).retire d).known = ((t.retire d).retire c).known := by
    simp only [known_retire, List.map_map]
    refine List.map_congr_left fun e _ => ?_
    by_cases one : e.sock = c.sock
    · by_cases two : e.sock = d.sock
      · simp only [Function.comp_apply, if_pos one, if_pos two]
      · simp only [Function.comp_apply, if_pos one, if_neg two]
    · simp only [Function.comp_apply, if_neg one]
      split <;> rfl
  have live : ((t.retire c).retire d).live = ((t.retire d).retire c).live := by
    simp only [live_retire, List.filter_filter, Bool.and_comm]
  calc (t.retire c).retire d
      = ⟨((t.retire c).retire d).known, ((t.retire c).retire d).live⟩ := rfl
    _ = (t.retire d).retire c := by rw [known, live]

theorem Table.connection?_retire_ne {t : Table} {c : Connection} {id : SocketId} (differs : c.sock ≠ id) :
    (t.retire c).connection? id = t.connection? id := by
  rw [connection?, known_retire, connection?]
  induction t.known with
  | nil => rfl
  | cons e rest ih =>
    rw [List.map_cons, List.find?_cons, List.find?_cons, ih]
    by_cases ended : e.sock = c.sock
    · have other : e.sock ≠ id := fun same => differs (ended.symm.trans same)
      simp [ended, differs]
    · rw [if_neg ended]

theorem Host.offered_of_offers {h h' : Host T} {id : SocketId} {new : List Bytes}
    (offers : h'.offers = h.offers ++ new.map fun data => (some id, data)) (other : SocketId) :
    h'.offered other = h.offered other ++ if other = id then new else [] := by
  rw [Host.offered, offers, List.filterMap_append, List.filterMap_map]
  by_cases same : other = id
  · subst same
    simp [Host.offered]
  · have differs : ¬id = other := fun is => same is.symm
    simp [Host.offered, same, differs]

namespace Wire

def Passage.ends (passage : Passage T) : Bool := passage.outcome ≠ .stillOpen

def Passage.cost (clear : Bool) (passage : Passage T) : Counters :=
  { tally clear (some passage.outcome) passage.payloads with closed := if passage.ends then 1 else 0 }

end Wire

namespace Relay
open Run Host Wire

-- What the surroundings have for each connection: what happens at its reads, and which of its payloads
-- the system refuses to send, by their place. Beside that, what one read brings at most, and whether
-- the sink can send at all.
structure Setting (T : Type) where
  limit : Nat
  clear : Bool
  reads : SocketId → List (Fault T)
  refusals : SocketId → Nat → Option Failure

def Setting.passage [Clock T] (setting : Setting T) (id : SocketId) (s : Sock T) : Passage T :=
  follow setting.limit (left (setting.reads id) s + 1) (setting.reads id) (setting.refusals id) s

-- What serving works on: the relay, what is watched, the sockets, and what each of them had offered.
@[ext] structure View (T : Type) where
  relay : Relay T
  entries : List (Int × Entry)
  sockets : List (Sock T)
  offered : SocketId → List Bytes

def view (m : Machine T (Relay T)) : View T :=
  ⟨m.prog, m.host.entries, m.host.sockets, m.host.offered⟩

namespace View

def passed (clear : Bool) (conn : Connection) (passage : Passage T) (v : View T) : View T where
  relay := { v.relay with
    table := if passage.ends then v.relay.table.retire conn else v.relay.table
    stats := { v.relay.stats with counters := v.relay.stats.counters + passage.cost clear } }
  entries := if passage.ends then v.entries.filter (·.1 ≠ conn.fd) else v.entries
  sockets := v.sockets.set conn.sock
    (if passage.ends then { passage.last with isOpen := false } else passage.last)
  offered id := v.offered id ++ if id = conn.sock then passage.payloads.map Prod.fst else []

theorem passed_comm {clear : Bool} {c d : Connection} {p q : Passage T} {v : View T}
    (differs : c.sock ≠ d.sock) :
    passed clear d q (passed clear c p v) = passed clear c p (passed clear d q v) := by
  have offered : (passed clear d q (passed clear c p v)).offered =
      (passed clear c p (passed clear d q v)).offered := by
    funext id
    by_cases one : id = c.sock
    · have other : id ≠ d.sock := one ▸ differs
      simp only [passed, if_neg other, List.append_nil]
    · simp only [passed, if_neg one, List.append_nil]
  have entries : (passed clear d q (passed clear c p v)).entries =
      (passed clear c p (passed clear d q v)).entries := by
    simp only [passed]
    split
    · split
      · simp only [List.filter_filter, Bool.and_comm]
      · rfl
    · rfl
  have relay : (passed clear d q (passed clear c p v)).relay =
      (passed clear c p (passed clear d q v)).relay := by
    simp only [passed, add_right_comm _ (p.cost clear)]
    split
    · split
      · rw [Table.retire_comm]
      · rfl
    · rfl
  exact View.ext relay entries (List.set_comm _ _ differs) offered

theorem relay_stays {clear : Bool} {c : Connection} {p : Passage T} {v : View T} (stays : p.ends = false) :
    (passed clear c p v).relay = count (· + tally clear (some p.outcome) p.payloads) v.relay := by
  simp only [passed, Passage.cost, stays]
  rfl

theorem relay_ends {clear : Bool} {c : Connection} {p : Passage T} {v : View T} (ends : p.ends = true) :
    (passed clear c p v).relay = count (fun c => { c with closed := c.closed + 1 })
      (setTable (·.retire c) (count (· + tally clear (some p.outcome) p.payloads) v.relay)) := by
  have closed (n : Counters) : n + p.cost clear =
      { n + tally clear (some p.outcome) p.payloads with
        closed := (n + tally clear (some p.outcome) p.payloads).closed + 1 } := by
    apply Counters.ext_fields <;> simp [Passage.cost, ends, tally]
  simp only [passed, ends, if_true, count, setTable, closed]

variable [Clock T] {setting : Setting T} {v : View T} {c d : Connection}

def serve (setting : Setting T) (v : View T) (conn : Connection) : View T :=
  match v.sockets[conn.sock]? with
  | none => v
  | some s => v.passed setting.clear conn (setting.passage conn.sock s)

def script (setting : Setting T) (v : View T) (conn : Connection) : List (Call × Fault T) :=
  match v.sockets[conn.sock]? with
  | none => []
  | some s => (setting.passage conn.sock s).script

theorem serve_eq {s : Sock T} (known : v.sockets[c.sock]? = some s) :
    v.serve setting c = v.passed setting.clear c (setting.passage c.sock s) := by
  rw [serve, known]

theorem sock?_serve {id : SocketId} (differs : c.sock ≠ id) :
    (v.serve setting c).sockets[id]? = v.sockets[id]? := by
  unfold serve
  split
  · rfl
  · exact List.getElem?_set_ne differs

theorem script_serve (differs : c.sock ≠ d.sock) :
    (v.serve setting c).script setting d = v.script setting d := by
  rw [script, sock?_serve differs, script]

theorem serve_comm (differs : c.sock ≠ d.sock) :
    (v.serve setting c).serve setting d = (v.serve setting d).serve setting c := by
  cases one : v.sockets[c.sock]? with
  | none =>
    have first : v.serve setting c = v := by rw [serve, one]
    have second : (v.serve setting d).serve setting c = v.serve setting d := by
      rw [serve, sock?_serve differs.symm, one]
    rw [first, second]
  | some s =>
    cases two : v.sockets[d.sock]? with
    | none =>
      have first : v.serve setting d = v := by rw [serve, two]
      have second : (v.serve setting c).serve setting d = v.serve setting c := by
        rw [serve, sock?_serve differs, two]
      rw [first, second]
    | some s' =>
      rw [serve_eq ((sock?_serve differs).trans two), serve_eq ((sock?_serve differs.symm).trans one),
        serve_eq one, serve_eq two]
      exact passed_comm differs

theorem foldl_serve_perm {batch other : List Connection} (perm : batch.Perm other)
    (apart : ∀ c ∈ batch, ∀ d ∈ batch, c ≠ d → c.sock ≠ d.sock) (v : View T) :
    batch.foldl (serve setting) v = other.foldl (serve setting) v := by
  refine perm.foldl_eq' (fun c first d second v => ?_) v
  by_cases same : c = d
  · rw [same]
  · exact serve_comm (apart c first d second same)

end View

-- A connection that can be read: it is alive, its socket is open, and it is watched for it; what its
-- client does concerns nobody else.
structure Readable (setting : Setting T) (m : Machine T (Relay T)) (conn : Connection) : Prop where
  known : m.prog.table.connection? conn.sock = some conn
  alive : conn.closed = false
  registered : conn.registered = true
  other : conn.sock ≠ m.prog.listener.sock
  apart : conn.sock ≠ m.prog.sink.sock
  sock : ∃ s, m.host.sock? conn.sock = some s ∧ s.isOpen = true ∧ s.fd = conn.fd
  watched : conn.fd ∈ m.host.entries.map Prod.fst
  own : ∀ fault ∈ setting.reads conn.sock, fault.own m.host conn.sock = true

section Serving
variable [Clock T] {setting : Setting T} {m : Machine T (Relay T)} {conn : Connection} {h : Host T}
  {r : Relay T}

theorem unwatch_watched (opened : h.isOpen conn.sock = true) (number : h.number conn.sock = conn.fd)
    (watched : conn.fd ∈ h.entries.map Prod.fst) (free : ∀ e ∈ h.faults, e.1 ≠ .unregister) :
    Ends (unwatch conn) ⟨h, r⟩
      (fun _ m' => m' = ⟨(h.emit (.unregister (h.fileno conn.sock))).unwatch conn.fd, r⟩)
      fun _ _ => False := by
  generalize begun : h.emit (.unregister (h.fileno conn.sock)) = h'
  have opened : h'.isOpen conn.sock = true := begun ▸ opened
  have number : h'.number conn.sock = conn.fd := begun ▸ number
  have free : ∀ e ∈ h'.faults, e.1 ≠ .unregister := begun ▸ free
  have found : (h'.watching? conn.fd).isNone = false := by
    have watched : conn.fd ∈ h'.entries.map Prod.fst := begun ▸ watched
    obtain ⟨e, there, same⟩ := List.mem_map.mp watched
    cases found : h'.watching? conn.fd with
    | some _ => rfl
    | none => exact absurd same (ne_of_unwatched found there)
  simp only [unwatch, Os.unregister, ends_bind, ends_outcome, ends_noting, ends_asks, ends_emits, begun]
  apply (ends_undisturbed free).mpr
  simp only [Os.number, ends_bind, ends_asks, number, opened, found, if_true, Bool.false_eq_true, if_false,
    ends_changes, ends_pure]
  rfl

theorem teardown_undisturbed {s : Sock T} (known : r.table.connection? conn.sock = some conn)
    (alive : conn.closed = false) (registered : conn.registered = true)
    (sock : h.sock? conn.sock = some s) (isOpen : s.isOpen = true) (fd : s.fd = conn.fd)
    (watched : conn.fd ∈ h.entries.map Prod.fst) (free : ∀ e ∈ h.faults, e.1 ≠ .unregister) :
    Ends (teardown conn.sock) ⟨h, r⟩
      (fun _ m' => m'.prog = setTable (·.retire conn) r ∧
        m'.host.sockets = h.sockets.set conn.sock { s with isOpen := false } ∧
        m'.host.entries = h.entries.filter (·.1 ≠ conn.fd) ∧ m'.host.faults = h.faults ∧
        m'.host.offers = h.offers)
      fun _ _ => False := by
  have number : h.number conn.sock = conn.fd := by simp [Host.number, sock, fd]
  have opened : h.isOpen conn.sock = true := by simp [Host.isOpen, sock, isOpen]
  simp only [teardown, ends_bind, ends_gets, known, alive, Bool.false_eq_true, if_false, registered,
    ends_onlyIf, if_true, release]
  apply (unwatch_watched opened number watched free).normally
  rintro _ _ rfl
  simp only [ends_sets, ends_close]
  let unwatched := (h.emit (.unregister (h.fileno conn.sock))).unwatch conn.fd
  have shut : unwatched.shut conn.sock =
      (unwatched.put conn.sock { s with isOpen := false }).emit
        (.closed conn.sock (unwatched.number conn.sock)) := by
    rw [← Host.alter_eq_put (h := unwatched) sock fun s => { s with isOpen := false }]
    exact if_pos opened
  have silent : unwatched.offers = h.offers := by
    change (h.emit (.unregister (h.fileno conn.sock))).offers = h.offers
    rw [Host.offers, Host.history_emit]
    exact List.append_nil _
  have offers := (Host.flows_shut unwatched conn.sock).offers.trans silent
  have sockets := congrArg Host.sockets shut
  have entries := congrArg Host.entries shut
  have faults := congrArg Host.faults shut
  exact ⟨rfl, sockets, entries, faults, offers⟩

structure Setting.Fits (setting : Setting T) (m : Machine T (Relay T)) : Prop where
  limit : setting.limit = m.prog.config.bufferSize
  clear : setting.clear = m.host.isOpen m.prog.sink.sock
  refuses : ∀ id k, ∀ f ∈ setting.refusals id k, f.isOs = true

theorem drain_own {s : Sock T} {rest : List (Call × Fault T)} (fits : setting.Fits ⟨h, r⟩)
    (own : ∀ fault ∈ setting.reads conn.sock, fault.own h conn.sock = true)
    (known : h.sock? conn.sock = some s) (isOpen : s.isOpen = true)
    (next : h.faults = (setting.passage conn.sock s).script ++ rest) :
    Ends (drain conn) ⟨h, r⟩
      (fun result m' =>
        let passage := setting.passage conn.sock s
        result = passage.outcome ∧
        ∃ h', Went conn.sock passage.last rest (passage.payloads.map Prod.fst) h h' ∧
          m' = ⟨h', count (· + tally setting.clear (some passage.outcome) passage.payloads) r⟩)
      fun _ _ => False := by
  have enough : follow setting.limit (h.workload + 1) (setting.reads conn.sock)
      (setting.refusals conn.sock) s = setting.passage conn.sock s := by
    refine follow_enough (Nat.lt_succ_self _) ?_
    have heavy := length_le_weigh h.faults
    rw [next, List.length_append, ← next] at heavy
    unfold Setting.passage at heavy
    unfold Host.workload
    omega
  rw [drain, ends_bind, ends_asks, ← enough, fits.limit, fits.clear]
  refine drainFor_own _ own (fits.refuses conn.sock) ?_ known isOpen
  rw [← fits.limit, enough]
  exact next

theorem view_serve {s : Sock T} (known : m.host.sock? conn.sock = some s) : (view m).serve setting conn =
    (view m).passed setting.clear conn (setting.passage conn.sock s) := View.serve_eq known

theorem finish_passed {h' : Host T} {s : Sock T} {passage : Passage T} {rest : List (Call × Fault T)}
    (ready : Readable setting ⟨h, r⟩ conn) (known : h.sock? conn.sock = some s) (isOpen : s.isOpen = true)
    (fd : s.fd = conn.fd) (akin : s.Akin passage.last)
    (went : Went conn.sock passage.last rest (passage.payloads.map Prod.fst) h h')
    (free : ∀ e ∈ rest, e.1 ≠ .unregister) (gone : passage.ends = true) :
    Ends (endOf conn)
      ⟨h', count (· + tally setting.clear (some passage.outcome) passage.payloads) r⟩
      (fun _ m' => view m' = (view ⟨h, r⟩).passed setting.clear conn passage ∧ m'.host.faults = rest)
      fun _ _ => False := by
  have there := went.known (Host.lt_of_sock? known)
  have watched : conn.fd ∈ h'.entries.map Prod.fst := went.entries ▸ ready.watched
  have left : ∀ e ∈ h'.faults, e.1 ≠ .unregister := went.faults ▸ free
  rw [endOf, ends_bind]
  apply (teardown_undisturbed (r := count _ r) ready.known ready.alive ready.registered there
    (akin.isOpen.trans isOpen) (akin.fd.trans fd) watched left).normally
  rintro _ ⟨h'', r''⟩ ⟨prog, sockets, entries, faults, offers⟩
  simp only at prog sockets entries faults offers
  subst prog
  refine ⟨View.ext ?_ ?_ ?_ (funext fun id => ?_), faults.trans went.faults⟩
  · rw [View.relay_ends gone]
    rfl
  · simp only [View.passed, gone, if_true]
    exact entries.trans (by rw [went.entries]; rfl)
  · simp only [View.passed, gone, if_true]
    exact sockets.trans (by rw [went.sockets, List.set_set]; rfl)
  · have same : h''.offered id = h'.offered id := by rw [Host.offered, offers, Host.offered]
    exact same.trans (Host.offered_of_offers went.offers id)

theorem serve_readable {rest : List (Call × Fault T)} (fits : setting.Fits m)
    (ready : Readable setting m conn) (next : m.host.faults = (view m).script setting conn ++ rest)
    (free : ∀ e ∈ rest, e.1 ≠ .unregister) :
    Ends (serve conn.entry.2) m
      (fun _ m' => view m' = (view m).serve setting conn ∧ m'.host.faults = rest)
      fun _ _ => False := by
  obtain ⟨h, r⟩ := m
  obtain ⟨s, known, isOpen, fd⟩ := ready.sock
  have script : (view ⟨h, r⟩).script setting conn = (setting.passage conn.sock s).script := by
    have there : (view ⟨h, r⟩).sockets[conn.sock]? = some s := known
    rw [View.script, there]
  have served : (view ⟨h, r⟩).serve setting conn =
      (view ⟨h, r⟩).passed setting.clear conn (setting.passage conn.sock s) := view_serve known
  have akin : s.Akin (setting.passage conn.sock s).last := follow_akin
  rw [script] at next
  rw [served]
  have other : conn.sock ≠ r.listener.sock := ready.other
  have listed : r.table.connection? conn.sock = some conn := ready.known
  apply ends_serve
  case accepts => exact fun own => absurd own other
  case passes =>
    exact fun _ gone => absurd (ready.alive.symm.trans (gone conn listed)) Bool.false_ne_true
  intro c _ looked _
  cases listed.symm.trans looked
  apply (drain_own fits ready.own known isOpen next).normally
  rintro result _ ⟨rfl, h', went, rfl⟩
  generalize setting.passage conn.sock s = passage at *
  constructor
  case left =>
    intro stops
    have stays : passage.ends = false := by simp [Passage.ends, stops]
    refine ⟨View.ext ?_ ?_ ?_ (funext (Host.offered_of_offers went.offers)), went.faults⟩
    · rw [View.relay_stays stays, stops]
      rfl
    · simp only [View.passed, stays, Bool.false_eq_true, if_false]
      exact went.entries
    · simp only [View.passed, stays, Bool.false_eq_true, if_false]
      exact went.sockets
  case right =>
    intro ends
    exact finish_passed ready known isOpen fd akin went free (by simpa [Passage.ends] using ends)

theorem socket_after {m' : Machine T (Relay T)} (served : view m' = (view m).serve setting conn)
    {id : SocketId} (differs : conn.sock ≠ id) : m'.host.sock? id = m.host.sock? id := by
  have sockets : m'.host.sockets = _ := congrArg View.sockets served
  rw [Host.sock?, sockets, View.sock?_serve differs]
  rfl

theorem Readable.clients {m' : Machine T (Relay T)} (ready : Readable setting m conn)
    (served : view m' = (view m).serve setting conn) :
    m'.host.sockets.map Sock.client = m.host.sockets.map Sock.client := by
  obtain ⟨s, known, -, -⟩ := ready.sock
  have akin : s.Akin (setting.passage conn.sock s).last := follow_akin
  have sockets : m'.host.sockets = _ := congrArg View.sockets served
  rw [view_serve known] at sockets
  rw [sockets]
  refine Host.clients_put (h := m.host) known ?_
  split
  · exact akin.client
  · exact akin.client

theorem Setting.Fits.after {m' : Machine T (Relay T)} (fits : setting.Fits m)
    (ready : Readable setting m conn) (served : view m' = (view m).serve setting conn) :
    setting.Fits m' := by
  obtain ⟨s, known, -, -⟩ := ready.sock
  have prog : m'.prog = _ := congrArg View.relay served
  rw [view_serve known] at prog
  have sink : m'.prog.sink = m.prog.sink := by rw [prog]; rfl
  refine ⟨?_, ?_, fits.refuses⟩
  · rw [prog]
    exact fits.limit
  · rw [sink, Host.isOpen, socket_after served ready.apart]
    exact fits.clear

theorem Readable.after {m' : Machine T (Relay T)} {d : Connection} (ready : Readable setting m conn)
    (served : view m' = (view m).serve setting conn) (later : Readable setting m d)
    (differs : conn.sock ≠ d.sock) (numbers : conn.fd ≠ d.fd) : Readable setting m' d := by
  have socket := socket_after served differs
  have clients := ready.clients served
  obtain ⟨s, known, -, -⟩ := ready.sock
  have prog : m'.prog = _ := congrArg View.relay served
  have entries : m'.host.entries = _ := congrArg View.entries served
  rw [view_serve known] at prog entries
  refine ⟨?_, later.alive, later.registered, ?_, ?_, ?_, ?_, fun fault there => ?_⟩
  · rw [prog]
    dsimp only [View.passed]
    split
    · exact (Table.connection?_retire_ne differs).trans later.known
    · exact later.known
  · rw [prog]
    exact later.other
  · rw [prog]
    exact later.apart
  · rw [socket]
    exact later.sock
  · rw [entries]
    dsimp only [View.passed]
    split
    · obtain ⟨e, there, same⟩ := List.mem_map.mp later.watched
      refine List.mem_map.mpr ⟨e, List.mem_filter.mpr ⟨there, ?_⟩, same⟩
      simpa [same] using numbers.symm
    · exact later.watched
  · rw [own_of_clients clients]
    exact later.own fault there

theorem View.script_free (setting : Setting T) (v : View T) (conn : Connection) :
    ∀ e ∈ v.script setting conn, e.1 ≠ .unregister := by
  intro e there same
  unfold View.script at there
  split at there
  · exact absurd there List.not_mem_nil
  · rcases follow_calls e there with reads | sends
    · exact absurd (same.symm.trans reads) nofun
    · exact absurd (same.symm.trans sends) nofun

-- One ready connection after the other is served, by induction on the batch.
theorem dispatch_readable {rest : List (Call × Fault T)} (batch : List Connection) (fits : setting.Fits m)
    (ready : ∀ c ∈ batch, Readable setting m c)
    (apart : batch.Pairwise fun c d => c.sock ≠ d.sock ∧ c.fd ≠ d.fd)
    (next : m.host.faults = batch.flatMap ((view m).script setting) ++ rest)
    (free : ∀ e ∈ rest, e.1 ≠ .unregister) :
    Ends (dispatch (batch.map Connection.entry)) m
      (fun _ m' => view m' = batch.foldl (View.serve setting) (view m)) fun _ _ => False := by
  induction batch generalizing m with
  | nil => exact rfl
  | cons c batch ih =>
    obtain ⟨first, others⟩ := List.forall_mem_cons.mp ready
    obtain ⟨differ, apart⟩ := List.pairwise_cons.mp apart
    rw [dispatch, List.map_cons, List.forM_eq_forM, List.forM_cons, ends_bind]
    rw [List.flatMap_cons, List.append_assoc] at next
    have later : ∀ e ∈ batch.flatMap ((view m).script setting) ++ rest, e.1 ≠ .unregister := by
      intro e there
      rcases List.mem_append.mp there with scripted | left
      · obtain ⟨d, -, there⟩ := List.mem_flatMap.mp scripted
        exact View.script_free setting (view m) d e there
      · exact free e left
    apply (serve_readable fits first next later).normally
    rintro _ m' ⟨served, faults⟩
    have scripts : batch.flatMap ((view m).script setting) = batch.flatMap ((view m').script setting) := by
      refine List.flatMap_congr fun d there => ?_
      rw [served, View.script_serve (differ d there).1]
    rw [scripts] at faults
    rw [List.foldl_cons, ← served]
    exact ih (fits.after first served) (fun d there => first.after served (others d there)
      (differ d there).1 (differ d there).2) apart faults

end Serving

variable [Clock T] {start m : Machine T (Relay T)}

def under (m : Machine T (Relay T)) (faults : List (Call × Fault T)) : Machine T (Relay T) :=
  ⟨{ m.host with faults }, m.prog⟩

def settingOf (m : Machine T (Relay T)) (reads : SocketId → List (Fault T))
    (refusals : SocketId → Nat → Option Failure) : Setting T :=
  ⟨m.prog.config.bufferSize, m.host.isOpen m.prog.sink.sock, reads, refusals⟩

-- Connections that are alive, each of them once, that have nothing to do with each other: at the reads
-- of each only its own client does something, whether a payload is sent depends on the connection and
-- on the payload's place alone, and what the sink sends from is not a connection's socket.
structure Independent (m : Machine T (Relay T)) (reads : SocketId → List (Fault T))
    (refusals : SocketId → Nat → Option Failure) (batch : List Connection) : Prop where
  live : ∀ c ∈ batch, c ∈ m.prog.table.known ∧ c.closed = false
  once : batch.Nodup
  own : ∀ c ∈ batch, ∀ fault ∈ reads c.sock, fault.own m.host c.sock = true
  refuses : ∀ id k, ∀ f ∈ refusals id k, f.isOs = true
  apart : ∀ c ∈ batch, c.sock ≠ m.prog.sink.sock

def scriptFor (m : Machine T (Relay T)) (reads : SocketId → List (Fault T))
    (refusals : SocketId → Nat → Option Failure) (order : List Connection) : List (Call × Fault T) :=
  order.flatMap ((view m).script (settingOf m reads refusals))

section Independent
variable {reads : SocketId → List (Fault T)} {refusals : SocketId → Nat → Option Failure}
  {batch other : List Connection} {rest : List (Call × Fault T)}

omit [Clock T] in
theorem Independent.readable (clients : Independent m reads refusals batch) (coherent : Coherent m)
    (faults : List (Call × Fault T)) :
    ∀ c ∈ batch, Readable (settingOf m reads refusals) (under m faults) c := by
  intro c there
  obtain ⟨known, alive⟩ := clients.live c there
  have once := (List.nodup_append.mp coherent.roster.once).1
  have opened : m.host.isOpen c.sock = true := by
    rw [coherent.roster.isOpen c known, alive]
    rfl
  obtain ⟨s, sock, isOpen⟩ := exists_of_isOpen opened
  have fd : s.fd = c.fd := by
    have number := coherent.roster.number c known
    simpa [Host.number, sock] using number
  have registered := coherent.roster.registered c known
  rw [alive] at registered
  have taken := coherent.roster.taken c.sock (List.mem_append_left _ (List.mem_map_of_mem known))
  exact ⟨Table.connection?_of_mem once known, alive, registered, taken.other, clients.apart c there,
    ⟨s, sock, isOpen, fd⟩, List.mem_map_of_mem (coherent.watch.watched c known alive), clients.own c there⟩

omit [Clock T] in
theorem Independent.pairwise (clients : Independent m reads refusals batch) (coherent : Coherent m) :
    batch.Pairwise fun c d => c.sock ≠ d.sock ∧ c.fd ≠ d.fd := by
  refine clients.once.imp_of_mem fun {c d} first second differs => ?_
  obtain ⟨known, alive⟩ := clients.live c first
  obtain ⟨known', alive'⟩ := clients.live d second
  exact ⟨fun same => differs (coherent.roster.unique known known' same),
    fun same => differs (coherent.roster.alone known known' alive alive' same)⟩

omit [Clock T] in
theorem Independent.perm (clients : Independent m reads refusals batch) (perm : batch.Perm other) :
    Independent m reads refusals other where
  live c there := clients.live c (perm.mem_iff.mpr there)
  once := perm.nodup_iff.mp clients.once
  own c there := clients.own c (perm.mem_iff.mpr there)
  refuses := clients.refuses
  apart c there := clients.apart c (perm.mem_iff.mpr there)

theorem Independent.dispatch (clients : Independent m reads refusals batch) (coherent : Coherent m)
    (free : ∀ e ∈ rest, e.1 ≠ .unregister) :
    Ends (dispatch (batch.map Connection.entry)) (under m (scriptFor m reads refusals batch ++ rest))
      (fun _ m' => view m' = batch.foldl (View.serve (settingOf m reads refusals)) (view m))
      fun _ _ => False :=
  dispatch_readable batch ⟨rfl, rfl, clients.refuses⟩
    (clients.readable coherent _) (clients.pairwise coherent) rfl free

-- In whatever order they are served, the table, what is watched, the sockets that are closed, the
-- counters and what was offered on behalf of each of them come to be the same.
theorem dispatch_perm {allowed : Operation T → Prop} (created : Created start)
    (reached : Reached allowed start m) (distinct : Distinct m)
    (clients : Independent m reads refusals batch) (perm : batch.Perm other)
    (free : ∀ e ∈ rest, e.1 ≠ .unregister) :
    ∃ one two,
      dispatch (batch.map Connection.entry) (under m (scriptFor m reads refusals batch ++ rest)) =
        .ok () one ∧
      dispatch (other.map Connection.entry) (under m (scriptFor m reads refusals other ++ rest)) =
        .ok () two ∧
      one.prog.table = two.prog.table ∧ one.host.entries = two.host.entries ∧
      (∀ id, one.host.isOpen id = two.host.isOpen id) ∧
      one.prog.stats.counters = two.prog.stats.counters ∧
      ∀ id, one.host.offered id = two.host.offered id := by
  have coherent := (reached.whole created.begun.whole).2 distinct
  obtain ⟨_, one, ran, seen⟩ := (clients.dispatch coherent free).exists_ok
  obtain ⟨_, two, ran', seen'⟩ := ((clients.perm perm).dispatch coherent free).exists_ok
  have apart : ∀ c ∈ batch, ∀ d ∈ batch, c ≠ d → c.sock ≠ d.sock := by
    intro c first d second differs same
    exact differs (coherent.roster.unique (clients.live c first).1 (clients.live d second).1 same)
  have same : view one = view two := by
    rw [seen, seen']
    exact View.foldl_serve_perm perm apart (view m)
  have relay : one.prog = two.prog := congrArg View.relay same
  have sockets : one.host.sockets = two.host.sockets := congrArg View.sockets same
  refine ⟨one, two, ran, ran', congrArg Relay.table relay, congrArg View.entries same, fun id => ?_,
    congrArg (fun r => r.stats.counters) relay, congrFun (congrArg View.offered same)⟩
  rw [Host.isOpen, Host.sock?, sockets, Host.isOpen, Host.sock?]

end Independent

@[irreducible] def paired : Machine Int (Relay Int) :=
  after (Operation.act .acceptAll) (after (Operation.act
    (.happen [.connect { data := [104, 105] }, .connect { data := [106], ended := true }])) busyRelay)

theorem reached_paired : Reached (fun _ => True) busyRelay paired := by
  unfold paired
  refine Reached.next (Reached.next .start (by decide +kernel) trivial (by decide +kernel))
    (by decide +kernel) trivial (by decide +kernel)

-- While the first is read, a signal breaks the call off and more arrives; the datagram of the second
-- is refused.
def hectic (id : SocketId) : List (Fault Int) :=
  if id = 2 then [.incident [] (some (.os (.ofNumber 4 "Interrupted system call"))),
    .incident [.send 0 [107]] none] else []

def choked (id : SocketId) (place : Nat) : Option Failure :=
  if id = 3 ∧ place = 0 then some (.os (.ofNumber 105 "No buffer space available")) else none

def earlier : Connection := ⟨2, ⟨"10.0.0.1", (5000 : Int)⟩, 5, true, false⟩

def later : Connection := ⟨3, ⟨"10.0.0.2", (5001 : Int)⟩, 6, true, false⟩

theorem independent_paired : Independent paired hectic choked [earlier, later] where
  live := by decide +kernel
  once := by decide
  own := by decide +kernel
  refuses id place f refused := by
    unfold choked at refused
    split at refused
    · cases refused
      rfl
    · cases refused
  apart := by decide +kernel

theorem dispatch_perm_paired :
    let script (order : List Connection) := scriptFor paired hectic choked order ++ []
    let last := after (dispatch [later.entry, earlier.entry]) (under paired (script [later, earlier]))
    (∃ one two,
      dispatch [earlier.entry, later.entry] (under paired (script [earlier, later])) = .ok () one ∧
      dispatch [later.entry, earlier.entry] (under paired (script [later, earlier])) = .ok () two ∧
      one.prog.table = two.prog.table ∧ one.host.entries = two.host.entries ∧
      (∀ id, one.host.isOpen id = two.host.isOpen id) ∧
      one.prog.stats.counters = two.prog.stats.counters ∧
      ∀ id, one.host.offered id = two.host.offered id) ∧
    last.prog.table.live = [(5, 2)] ∧ last.host.offered 2 = [[104], [105], [107]] ∧
    last.prog.stats.counters.forwardFailures = 1 := by
  intro script last
  refine ⟨dispatch_perm created_busyRelay reached_paired (by decide +kernel) independent_paired
    (List.Perm.swap later earlier []) nofun, ?_⟩
  exact ⟨by decide +kernel, by decide +kernel, by decide +kernel⟩

end Relay
end StreamRelay
