import StreamRelay.Proofs.Host.Directions
import StreamRelay.Proofs.Setup.Founding

namespace StreamRelay.Host
variable {T : Type}

def bearings (h : Host T) : Bool × Option Flag × Option Flag × Ending × Option Flag :=
  (h.fileOpen, h.onInterrupt, h.onTerminate, h.ending, h.workerStop)

def Bears (h h' : Host T) : Prop := h'.bearings = h.bearings

namespace Bears
variable {h h' : Host T}

theorem trans {a b c : Host T} (one : Bears a b) (two : Bears b c) : Bears a c := Eq.trans two one

theorem file (bears : Bears h h') : h'.fileOpen = h.fileOpen := congrArg Prod.fst bears

theorem handler (bears : Bears h h') (s : Signal) : h'.handler s = h.handler s := by
  cases s with
  | interrupt => exact congrArg (fun all => all.2.1) bears
  | terminate => exact congrArg (fun all => all.2.2.1) bears

theorem ending (bears : Bears h h') : h'.ending = h.ending :=
  congrArg (fun all => all.2.2.2.1) bears

theorem workerStop (bears : Bears h h') : h'.workerStop = h.workerStop :=
  congrArg (fun all => all.2.2.2.2) bears

end Bears

structure Fitted (h h' : Host T) : Prop where
  selector : h'.selectorOpen = h.selectorOpen
  bears : Bears h h'

theorem fitted_same {h h' : Host T} (selector : h'.selectorOpen = h.selectorOpen)
    (bearings : h'.bearings = h.bearings) : Fitted h h' := ⟨selector, bearings⟩

theorem Fitted.refl (h : Host T) : Fitted h h := ⟨rfl, rfl⟩

theorem Fitted.trans {a b c : Host T} (one : Fitted a b) (two : Fitted b c) : Fitted a c :=
  ⟨two.selector.trans one.selector, one.bears.trans two.bears⟩

theorem fitted_raise (h : Host T) (flag : Flag) : Fitted h (h.raise flag) := by
  cases flag <;> exact fitted_same rfl rfl

variable [Clock T]

theorem fitted_apply (h : Host T) (action : Action T) : Fitted h (h.apply action) :=
  apply_of .refl .trans (fun ⟨_, _, _, _, _, _, _, _⟩ => fitted_same rfl rfl) fitted_raise h action

theorem calm_fitted : Calm (T := T) Fitted where
  refl := .refl
  trans := .trans
  emit _ _ _ := ⟨rfl, rfl⟩
  note _ _ _ _ := ⟨rfl, rfl⟩
  clock _ _ := ⟨rfl, rfl⟩
  stderr _ _ := ⟨rfl, rfl⟩
  console _ _ := ⟨rfl, rfl⟩
  faults _ _ := ⟨rfl, rfl⟩
  batches _ _ := ⟨rfl, rfl⟩
  apply := fitted_apply

theorem calm_bears : Calm (T := T) Bears := calm_fitted.mono Fitted.bears Bears.trans

omit [Clock T] in
theorem fitted_shut (h : Host T) (id : SocketId) : Fitted h (h.shut id) := by
  unfold shut
  split <;> exact ⟨rfl, rfl⟩

theorem founding_fitted : Founding (T := T) Fitted Fitted where
  toLively := calm_fitted.steady.lively
  emit _ _ _ := ⟨rfl, rfl⟩
  sockets _ _ := ⟨rfl, rfl⟩
  serves _ _ _ := ⟨rfl, rfl⟩
  heeds _ _ _ := ⟨rfl, rfl⟩
  weaken path := path
  falls := .trans
  note _ _ _ _ _ := ⟨rfl, rfl⟩
  shut := fitted_shut

end StreamRelay.Host
