namespace RiscvEmulators.Transition
variable {ε δ σ τ α β α' β' : Type}

/-- An outcome next to the one that a specification gives: related values, or the failure that the fault stands for, in a
  state whose image is the specification's. -/
def Agrees (held : σ → Prop) (image : σ → τ) (raise : δ → ε) (rel : α → β → Prop) :
    EStateM.Result ε σ α → EStateM.Result δ τ β → Prop
  | .ok result after, .ok value final => rel result value ∧ held after ∧ image after = final
  | .error failure after, .error fault final => failure = raise fault ∧ held after ∧ image after = final
  | _, _ => False

def Simulates (held : σ → Prop) (image : σ → τ) (raise : δ → ε) (rel : α → β → Prop) (program : EStateM ε σ α)
    (spec : EStateM δ τ β) : Prop :=
  ∀ state, held state → Agrees held image raise rel (program state) (spec (image state))

namespace Simulates
variable {he : σ → Prop} {i : σ → τ} {ra : δ → ε} {rel : α → β → Prop} {re : α' → β' → Prop}
  {p : EStateM ε σ α} {spec : EStateM δ τ β}

theorem pure {r : α} {v : β} (hr : rel r v) : Simulates he i ra rel (Pure.pure r) (Pure.pure v) :=
  fun _ hh => ⟨hr, hh, rfl⟩

theorem throw {f : ε} {fa : δ} (hs : f = ra fa) : Simulates he i ra rel (MonadExcept.throw f) (MonadExcept.throw fa) :=
  fun _ hh => ⟨hs, hh, rfl⟩

theorem bind {nx : α → EStateM ε σ α'} {s : β → EStateM δ τ β'} (hf : Simulates he i ra rel p spec)
    (hs : ∀ r v, rel r v → Simulates he i ra re (nx r) (s v)) : Simulates he i ra re (p >>= nx) (spec >>= s) := by
  intro st hh
  have ran := hf st hh
  show Agrees he i ra re (EStateM.bind p nx st) (EStateM.bind spec s (i st))
  unfold EStateM.bind
  cases ho : p st <;> cases hw : spec (i st) <;> rw [ho, hw] at ran
  case ok.ok r a v f =>
    obtain ⟨hr, hk, rfl⟩ := ran
    exact hs r v hr a hk
  case ok.error => exact ran.elim
  case error.ok => exact ran.elim
  case error.error => exact ran

theorem after_pure {γ : Type} {v : γ} {s : γ → EStateM δ τ β} (h : Simulates he i ra rel p (s v)) :
    Simulates he i ra rel p (Pure.pure v >>= s) :=
  h

theorem map {w : α' → β → Prop} (c : α → α') (hs : Simulates he i ra rel p spec) (hr : ∀ r v, rel r v → w (c r) v) :
    Simulates he i ra w (p >>= fun r => Pure.pure (c r)) spec := by
  have hb : Simulates he i ra w (p >>= fun r => Pure.pure (c r))
      (spec >>= Pure.pure) := hs.bind fun r v hf => pure (hr _ _ hf)
  rwa [bind_pure] at hb

theorem ite {t s : Prop} [Decidable t] [Decidable s] (hs : t ↔ s)
    {o : EStateM ε σ α} {sp : EStateM δ τ β} (hy : t → Simulates he i ra rel p spec)
    (no : ¬t → Simulates he i ra rel o sp) : Simulates he i ra rel (if t then p else o) (if s then spec else sp) := by
  by_cases hh : t
  · rw [if_pos hh, if_pos (hs.mp hh)]
    exact hy hh
  · rw [if_neg hh, if_neg fun hf => hh (hs.mpr hf)]
    exact no hh

end Simulates
end RiscvEmulators.Transition
