import StreamRelay.Proofs.Host.Lasting

namespace StreamRelay.Host
variable {T : Type}

-- The service stays told to stop, and the same is stopped where the script ends.
structure Directed (h h' : Host T) : Prop where
  told : h.serviceStop = true → h'.serviceStop = true
  ending : h'.ending = h.ending
  onTerminate : h'.onTerminate = h.onTerminate
  workerStop : h'.workerStop = h.workerStop

-- The end of the script tells the service to stop, and nobody has to be asked whether it can.
def StopsService (h : Host T) : Prop :=
  h.ending = .raises .service ∨ h.ending = .terminates ∧
    (h.onTerminate = some .service ∨ h.workerStop = some .service)

def Stops (flag : Flag) (h : Host T) : Prop :=
  h.ending = .raises flag ∨ h.ending = .terminates ∧
    (h.onTerminate = some flag ∨ h.workerStop = some flag)

-- The end of the script tells the service to stop, or finds nobody at all that it could tell.
def Heard (h : Host T) : Prop := h.StopsService ∨ h.canStop = false

-- Whether the service was told to stop, and whom the end of the script reaches.
def orders (h : Host T) : Bool × Ending × Option Flag × Option Flag :=
  (h.serviceStop, h.ending, h.onTerminate, h.workerStop)

theorem directed_same {h h' : Host T} (same : h'.orders = h.orders) : Directed h h' := by
  simp only [orders, Prod.mk.injEq] at same
  obtain ⟨told, ending, onTerminate, workerStop⟩ := same
  exact ⟨fun before => told.trans before, ending, onTerminate, workerStop⟩

theorem Directed.refl (h : Host T) : Directed h h := directed_same rfl

theorem Directed.trans {a b c : Host T} (one : Directed a b) (two : Directed b c) :
    Directed a c where
  told before := two.told (one.told before)
  ending := two.ending.trans one.ending
  onTerminate := two.onTerminate.trans one.onTerminate
  workerStop := two.workerStop.trans one.workerStop

theorem Directed.stopsService {h h' : Host T} (directed : Directed h h') :
    h'.StopsService ↔ h.StopsService := by
  simp only [StopsService, directed.ending, directed.onTerminate, directed.workerStop]

theorem Directed.stops {h h' : Host T} (directed : Directed h h') (flag : Flag) :
    h'.Stops flag ↔ h.Stops flag := by
  simp only [Stops, directed.ending, directed.onTerminate, directed.workerStop]

theorem Directed.canStop {h h' : Host T} (directed : Directed h h') : h'.canStop = h.canStop := by
  simp only [Host.canStop, directed.ending, directed.onTerminate, directed.workerStop]

theorem Directed.heard {h h' : Host T} (directed : Directed h h') : h'.Heard ↔ h.Heard := by
  rw [Heard, Heard, directed.stopsService, directed.canStop]

theorem directed_raise (h : Host T) (flag : Flag) : Directed h (h.raise flag) := by
  cases flag
  · exact ⟨fun _ => rfl, rfl, rfl, rfl⟩
  · exact directed_same rfl

theorem isSet_raise_self (h : Host T) (flag : Flag) : (h.raise flag).isSet flag = true := by
  cases flag <;> rfl

theorem isSet_raise {h : Host T} {flag : Flag} (told : h.isSet flag = true) (other : Flag) :
    (h.raise other).isSet flag = true := by
  cases flag <;> cases other <;> first | rfl | exact told

def StaysTold (flag : Flag) (h h' : Host T) : Prop := h.isSet flag = true → h'.isSet flag = true

theorem staysTold_same {flag : Flag} {h h' : Host T} (service : h'.serviceStop = h.serviceStop)
    (command : h'.commandStop = h.commandStop) : StaysTold flag h h' := by
  cases flag
  · exact fun told => service.trans told
  · exact fun told => command.trans told

theorem directed_deliver (h : Host T) (signal : Signal) : Directed h (h.deliver signal) :=
  deliver_of .refl directed_raise h signal

theorem directed_apply [Clock T] (h : Host T) (action : Action T) :
    Directed h (h.apply action) :=
  apply_of .refl .trans (fun ⟨_, _, _, _, _, _, _, _⟩ => directed_same rfl) directed_raise h action

theorem calm_directed [Clock T] : Calm (T := T) Directed where
  refl := .refl
  trans := .trans
  emit _ _ _ := directed_same rfl
  note _ _ _ _ := directed_same rfl
  clock _ _ := directed_same rfl
  stderr _ _ := directed_same rfl
  console _ _ := directed_same rfl
  faults _ _ := directed_same rfl
  batches _ _ := directed_same rfl
  apply := directed_apply

theorem calm_staysTold [Clock T] (flag : Flag) : Calm (T := T) (StaysTold flag) where
  refl _ told := told
  trans one two told := two (one told)
  emit _ _ _ := staysTold_same rfl rfl
  note _ _ _ _ := staysTold_same rfl rfl
  clock _ _ := staysTold_same rfl rfl
  stderr _ _ := staysTold_same rfl rfl
  console _ _ := staysTold_same rfl rfl
  faults _ _ := staysTold_same rfl rfl
  batches _ _ := staysTold_same rfl rfl
  apply := apply_of (fun _ told => told) (fun one two told => two (one told))
    (fun ⟨_, _, _, _, _, _, _, _⟩ => staysTold_same rfl rfl) fun _ other told => isSet_raise told other

-- Only that somebody was told to stop is new to an observer, and no call has failed.
structure Hears (h h' : Host T) : Prop where
  refusals : h'.refusals = h.refusals
  trace : ∃ told, h'.trace = told ++ h.trace ∧ ∀ s ∈ told, ∃ flag, s.event = .told flag

theorem hears_same {h h' : Host T} (refusals : h'.refusals = h.refusals)
    (trace : h'.trace = h.trace) : Hears h h' :=
  ⟨refusals, [], trace, fun _ there => absurd there List.not_mem_nil⟩

theorem Hears.trans {a b c : Host T} (one : Hears a b) (two : Hears b c) : Hears a c := by
  obtain ⟨kept, first, grown, told⟩ := one
  obtain ⟨kept', second, grown', told'⟩ := two
  refine ⟨kept'.trans kept, second ++ first, by rw [grown', grown, List.append_assoc], ?_⟩
  intro s there
  cases List.mem_append.mp there with
  | inl later => exact told' s later
  | inr earlier => exact told s earlier

theorem hears_raise (h : Host T) (flag : Flag) : Hears h (h.raise flag) := by
  refine ⟨by cases flag <;> rfl, [⟨h.clock, .told flag⟩], by cases flag <;> rfl, ?_⟩
  exact fun s there => ⟨flag, by rw [List.mem_singleton.mp there]⟩

theorem hears_apply [Clock T] (h : Host T) (action : Action T) : Hears h (h.apply action) :=
  apply_of (fun _ => hears_same rfl rfl) .trans (fun ⟨_, _, _, _, _, _, _, _⟩ => hears_same rfl rfl)
    hears_raise h action

def Shows (kind : Event T → Bool) (h h' : Host T) : Prop :=
  ∃ new, h'.trace = new ++ h.trace ∧ ∀ s ∈ new, kind s.event = true

-- Nothing that was seen is lost.
def Seen (h h' : Host T) : Prop := h.trace <:+ h'.trace

theorem seen_same {h h' : Host T} (trace : h'.trace = h.trace) : Seen h h' :=
  ⟨[], trace.symm⟩

theorem seen_emit (h : Host T) (e : Event T) : Seen h (h.emit e) := List.suffix_cons _ _

theorem Seen.trans {a b c : Host T} (one : Seen a b) (two : Seen b c) : Seen a c :=
  List.IsSuffix.trans one two

theorem seen_raise (h : Host T) (flag : Flag) : Seen h (h.raise flag) := by
  cases flag <;> exact seen_emit h _

theorem calm_seen [Clock T] : Calm (T := T) Seen where
  refl _ := seen_same rfl
  trans := .trans
  emit h e _ := seen_emit h e
  note _ _ _ _ := seen_same rfl
  clock _ _ := seen_same rfl
  stderr _ _ := seen_same rfl
  console _ _ := seen_same rfl
  faults _ _ := seen_same rfl
  batches _ _ := seen_same rfl
  apply := apply_of (fun _ => seen_same rfl) .trans
    (fun ⟨_, _, _, _, _, _, _, _⟩ => seen_same rfl) seen_raise

section Shows
variable {kind : Event T → Bool} {h h' : Host T}

theorem shows_same (trace : h'.trace = h.trace) : Shows kind h h' :=
  ⟨[], trace, fun _ there => absurd there List.not_mem_nil⟩

theorem Shows.trans {a b c : Host T} (one : Shows kind a b) (two : Shows kind b c) :
    Shows kind a c := by
  obtain ⟨first, grown, all⟩ := one
  obtain ⟨second, grown', all'⟩ := two
  refine ⟨second ++ first, by rw [grown', grown, List.append_assoc], fun s there => ?_⟩
  cases List.mem_append.mp there with
  | inl later => exact all' s later
  | inr earlier => exact all s earlier

theorem shows_emit (h : Host T) {e : Event T} (shown : kind e = true) : Shows kind h (h.emit e) := by
  refine ⟨[⟨h.clock, e⟩], rfl, fun s there => ?_⟩
  rw [List.mem_singleton.mp there]
  exact shown

theorem Shows.mono {wider : Event T → Bool} (shows : Shows kind h h')
    (widen : ∀ e, kind e = true → wider e = true) : Shows wider h h' := by
  obtain ⟨new, trace, all⟩ := shows
  exact ⟨new, trace, fun s there => widen _ (all s there)⟩

theorem shows_of_hears (told : ∀ flag, kind (.told flag) = true) (hears : Hears h h') :
    Shows kind h h' := by
  obtain ⟨new, trace, only⟩ := hears.trace
  refine ⟨new, trace, fun s there => ?_⟩
  obtain ⟨flag, same⟩ := only s there
  rw [same]
  exact told flag

end Shows

-- The surroundings keep to every relation that this allows.
theorem mild_of_hears [Clock T] {rel : Host T → Host T → Prop} (refl : ∀ h, rel h h)
    (trans : ∀ {a b c}, rel a b → rel b c → rel a c)
    (hears : ∀ {h h'}, Hears h h' → rel h h') : Mild rel where
  refl := refl
  trans := trans
  faults _ _ := hears (hears_same rfl rfl)
  batches _ _ := hears (hears_same rfl rfl)
  apply h action := hears (hears_apply h action)

theorem mild_shows [Clock T] {kind : Event T → Bool} (told : ∀ flag, kind (.told flag) = true) :
    Mild (Shows kind) := mild_of_hears (fun _ => shows_same rfl) .trans (shows_of_hears told)

theorem directed_shut (h : Host T) (id : SocketId) : Directed h (h.shut id) := by
  unfold shut
  split <;> exact directed_same rfl

theorem Stops.canStop {flag : Flag} {h : Host T} (stops : h.Stops flag) : h.canStop = true := by
  obtain ending | ⟨ending, handled | worker⟩ := stops
  all_goals simp [Host.canStop, *]

theorem StopsService.canStop {h : Host T} (stops : h.StopsService) : h.canStop = true :=
  Stops.canStop stops

theorem Stops.told {flag : Flag} {h : Host T} (stops : h.Stops flag) :
    h.stop.isSet flag = true := by
  obtain ending | ⟨ending, handled | worker⟩ := stops
  · rw [stop, ending]
    exact isSet_raise_self h flag
  · have raised : (h.deliver .terminate).isSet flag = true := by
      simp only [deliver, handler, handled, Option.elim]
      exact isSet_raise_self h flag
    simp only [stop, ending]
    cases (h.deliver .terminate).workerStop with
    | none => exact raised
    | some other => exact isSet_raise raised other
  · have kept := (directed_deliver h .terminate).workerStop.trans worker
    simp only [stop, ending, kept]
    exact isSet_raise_self _ flag

theorem StopsService.told {h : Host T} (stops : h.StopsService) : h.stop.serviceStop = true :=
  Stops.told stops

end StreamRelay.Host
