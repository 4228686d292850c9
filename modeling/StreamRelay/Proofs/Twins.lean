import StreamRelay.Proofs.Course

namespace StreamRelay.Run
variable {T P α β : Type} {rel : Machine T P → Machine T P → Prop} {m u : Machine T P}

def Paired (rel : Machine T P → Machine T P → Prop) (act act' : Run T P α) (m u : Machine T P) : Prop :=
  Ends act m (fun a m' => ∃ u', act' u = .ok a u' ∧ rel m' u')
    fun f m' => ∃ u', act' u = .error f u' ∧ rel m' u'

def Twins (rel : Machine T P → Machine T P → Prop) (act act' : Run T P α) : Prop :=
  ∀ m u, rel m u → Paired rel act act' m u

section Paired
variable {act act' : Run T P α} {next next' : α → Run T P β}

theorem Paired.bind_ran (first : Paired rel act act' m u)
    (rest : ∀ a m' u', act m = .ok a m' → act' u = .ok a u' → rel m' u' →
      Paired rel (next a) (next' a) m' u') : Paired rel (act >>= next) (act' >>= next') m u := by
  unfold Paired
  rw [ends_bind]
  apply (Ends.ran.and first).imp
  · rintro a m' ⟨ran, u', ran', related⟩
    have same : (act' >>= next') u = next' a u' := by simp only [Bind.bind, EStateM.bind, ran']
    rw [same]
    exact rest a m' u' ran ran' related
  · rintro f m' ⟨-, u', ran, related⟩
    exact ⟨u', by simp only [Bind.bind, EStateM.bind, ran], related⟩

theorem Paired.bind (first : Paired rel act act' m u) (rest : ∀ a, Twins rel (next a) (next' a)) :
    Paired rel (act >>= next) (act' >>= next') m u :=
  first.bind_ran fun a m' u' _ _ related => rest a m' u' related

theorem Paired.emits {e : Event T} {act act' : Run T P α}
    (rest : Paired rel act act' ⟨m.host.emit e, m.prog⟩ ⟨u.host.emit e, u.prog⟩) :
    Paired rel (do Run.emits e; act) (do Run.emits e; act') m u := rest

theorem Paired.gets {f : P → α} (same : f u.prog = f m.prog)
    (rest : Paired rel (next (f m.prog)) (next' (f m.prog)) m u) :
    Paired rel (Run.gets f >>= next) (Run.gets f >>= next') m u := by
  unfold Paired
  have begun : (Run.gets f >>= next') u = next' (f m.prog) u := congrArg (next' · u) same
  rw [ends_bind, ends_gets, begun]
  exact rest

theorem Paired.outcome (paired : Paired rel act act' m u) :
    Paired rel (Run.outcome act) (Run.outcome act') m u := by
  unfold Paired
  rw [ends_outcome]
  apply Ends.imp paired
  · rintro a m' ⟨u', ran, related⟩
    exact ⟨u', by simp only [Run.outcome, ran], related⟩
  · rintro f m' ⟨u', ran, related⟩
    exact ⟨u', by simp only [Run.outcome, ran], related⟩

end Paired

namespace Twins
variable {act act' : Run T P α} {next next' : α → Run T P β}

theorem pure (a : α) : Twins rel (Pure.pure a) (Pure.pure a) := fun _ u related => ⟨u, rfl, related⟩

theorem fails (f : Failure) : Twins (α := α) rel (Run.fails f) (Run.fails f) :=
  fun _ u related => ⟨u, rfl, related⟩

theorem bind (first : Twins rel act act') (rest : ∀ a, Twins rel (next a) (next' a)) :
    Twins rel (act >>= next) (act' >>= next') := fun m u related => (first m u related).bind rest

theorem asks {f : Host T → α} (same : ∀ m u, rel m u → f m.host = f u.host) :
    Twins rel (Run.asks f) (Run.asks f) :=
  fun m u related => ⟨u, by rw [Run.asks, same m u related], related⟩

theorem gets {f : P → α} (same : ∀ m u, rel m u → f m.prog = f u.prog) :
    Twins rel (Run.gets f) (Run.gets f) :=
  fun m u related => ⟨u, by rw [Run.gets, same m u related], related⟩

theorem changes {f g : Host T → Host T}
    (step : ∀ m u, rel m u → rel ⟨f m.host, m.prog⟩ ⟨g u.host, u.prog⟩) :
    Twins rel (Run.changes f) (Run.changes g) := fun m u related => ⟨_, rfl, step m u related⟩

theorem sets {f g : P → P} (step : ∀ m u, rel m u → rel ⟨m.host, f m.prog⟩ ⟨u.host, g u.prog⟩) :
    Twins rel (Run.sets f) (Run.sets g) := fun m u related => ⟨_, rfl, step m u related⟩

theorem outcome (twins : Twins rel act act') : Twins rel (Run.outcome act) (Run.outcome act') :=
  fun m u related => (twins m u related).outcome

theorem onlyIf {b : Bool} {act act' : Run T P Unit} (twins : Twins rel act act') :
    Twins rel (Run.onlyIf b act) (Run.onlyIf b act') := by
  cases b
  · exact pure ()
  · exact twins

theorem ensuring {last last' : Run T P Unit} (twins : Twins rel act act') (ending : Twins rel last last') :
    Twins rel (Run.ensuring act last) (Run.ensuring act' last') := by
  intro m u related
  unfold Paired
  rw [ends_ensuring]
  apply (twins m u related).imp
  · intro a m' ⟨u', ran, related'⟩
    apply (ending m' u' related').imp
    · intro _ m'' ⟨u'', ended, related''⟩
      exact ⟨u'', by simp only [Run.ensuring, ran, ended], related''⟩
    · intro f m'' ⟨u'', ended, related''⟩
      exact ⟨u'', by simp only [Run.ensuring, ran, ended], related''⟩
  · intro f m' ⟨u', ran, related'⟩
    apply (ending m' u' related').imp
    · intro _ m'' ⟨u'', ended, related''⟩
      exact ⟨u'', by simp only [Run.ensuring, ran, ended], related''⟩
    · intro g m'' ⟨u'', ended, related''⟩
      exact ⟨u'', by simp only [Run.ensuring, ran, ended], related''⟩

theorem noting {call : Call} {id : SocketId} (twins : Twins rel act act')
    (note : ∀ m u cause, rel m u →
      rel ⟨m.host.note call id cause, m.prog⟩ ⟨u.host.note call id cause, u.prog⟩) :
    Twins rel (Run.noting call id act) (Run.noting call id act') := by
  intro m u related
  unfold Paired
  rw [ends_noting]
  apply Ends.imp (twins m u related)
  · rintro a m' ⟨u', ran, related⟩
    exact ⟨u', by simp only [Run.noting, ran], related⟩
  · rintro f m' ⟨u', ran, related⟩
    exact ⟨⟨u'.host.note call id f, u'.prog⟩, by simp only [Run.noting, ran], note m' u' f related⟩

theorem composes : Compositional fun act : Run T P _ => Twins rel act act := ⟨pure, bind⟩

theorem forM {items : List α} {visit : α → Run T P PUnit} (step : ∀ a, Twins rel (visit a) (visit a)) :
    Twins rel (items.forM visit) (items.forM visit) := composes.forM fun a _ => step a

end Twins
end StreamRelay.Run
