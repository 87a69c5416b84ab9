namespace RiscvEmulators.Transition
variable {σ τ ρ : Type}

inductive Turn (σ ρ : Type) where
  | next (state : σ)
  | done (result : ρ)

def iterate (turn : σ → Turn σ ρ) : Nat → σ → Option ρ
  | 0, _ => none
  | fuel + 1, state =>
    match turn state with
    | .next later => iterate turn fuel later
    | .done result => some result

def visited (turn : σ → Turn σ ρ) : Nat → σ → List σ
  | 0, _ => []
  | fuel + 1, state =>
    state :: match turn state with
      | .next later => visited turn fuel later
      | .done _ => []

def guarded (guard : σ → Bool) (refuse : σ → ρ) (turn : σ → Turn σ ρ) (state : σ) : Turn σ ρ :=
  if guard state then turn state else .done (refuse state)

variable {t : σ → Turn σ ρ} {f : Nat}

theorem iterate_returns (I : σ → Prop) (r : σ → Nat) (hk : ∀ s l, I s → t s = .next l → I l)
    (hf : ∀ s l, I s → t s = .next l → r l < r s) {s : σ} (hh : I s) (he : r s < f) :
    ∃ result, iterate t f s = some result := by
  induction f generalizing s with
  | zero => omega
  | succ f ih =>
    rw [iterate]
    cases ht : t s with
    | done result => exact ⟨result, rfl⟩
    | next l =>
      have hl := hf s l hh ht
      exact ih (hk s l hh ht) (by omega)

theorem visited_invariant {I : σ → Prop} (hk : ∀ s l, I s → t s = .next l → I l) {s : σ}
    (hh : I s) : ∀ seen ∈ visited t f s, I seen := by
  induction f generalizing s with
  | zero => simp [visited]
  | succ f ih =>
    rw [visited, List.forall_mem_cons]
    refine ⟨hh, ?_⟩
    cases ht : t s with
    | done r => simp
    | next l => exact ih (hk s l hh ht)

theorem iterate_counted (state : Nat → σ) (out : Nat → ρ) (stop : Nat → Prop) [DecidablePred stop] {n : Nat}
    (ht : ∀ i < n, t (state i) = if stop (i + 1) then .done (out (i + 1)) else .next (state (i + 1)))
    (hn : stop n) {i : Nat} (hf : i < n) : ∃ m ≤ n, stop m ∧ iterate t (n - i) (state i) = some (out m) := by
  induction hd : n - i generalizing i with
  | zero => omega
  | succ d ih =>
    rw [iterate, ht i hf]
    by_cases hs : stop (i + 1)
    · rw [if_pos hs]
      exact ⟨i + 1, hf, hs, rfl⟩
    · rw [if_neg hs]
      have hl : i + 1 ≠ n := fun h => hs (h ▸ hn)
      exact ih (by omega) (by omega)

/-- A guarded loop returns a result that no refusal produces exactly when the unguarded
  loop returns it and every state on the way passes the guard. -/
theorem iterate_guarded {g : σ → Bool} {re : σ → ρ} {r : ρ} (ha : ∀ s, re s ≠ r) (f : Nat) (s : σ) :
    iterate (guarded g re t) f s = some r ↔ iterate t f s = some r ∧ ∀ seen ∈ visited t f s, g seen := by
  induction f generalizing s with
  | zero => simp [iterate]
  | succ f ih =>
    rw [iterate, iterate, visited, guarded, List.forall_mem_cons]
    cases hp : g s with
    | false => simp [ha s]
    | true =>
      cases t s with
      | next l => simpa using ih l
      | done ret => simp

theorem iterate_lockstep {fst : σ → Turn σ ρ} {snd : τ → Turn τ ρ} (rel : σ → τ → Prop) (s : ρ → ρ → Prop)
    (hm : ∀ le r, rel le r → (∃ l l', fst le = .next l ∧ snd r = .next l' ∧ rel l l') ∨
      ∃ re result', fst le = .done re ∧ snd r = .done result' ∧ s re result')
    {le : σ} {r : τ} (hs : rel le r) {re : ρ} (hr : iterate fst f le = some re) :
    ∃ result', iterate snd f r = some result' ∧ s re result' := by
  induction f generalizing le r with
  | zero => cases hr
  | succ f ih =>
    rw [iterate] at hr ⊢
    obtain ⟨l, l', hgo, hg, hf⟩ | ⟨e, e', hen, he, ha⟩ :=
      hm le r hs
    · rw [hgo] at hr
      rw [hg]
      exact ih hf hr
    · rw [hen] at hr
      rw [he]
      cases hr
      exact ⟨e', rfl, ha⟩

end RiscvEmulators.Transition
