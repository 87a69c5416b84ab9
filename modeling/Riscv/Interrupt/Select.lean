import Mathlib.Order.Lattice

namespace RiscvEmulators.Interrupt
variable {α : Type} [LinearOrder α]

structure Foremost (waiting : Nat → Prop) (key : Nat → α) (i : Nat) : Prop where
  waits : waiting i
  first : ∀ j, waiting j → key i < key j ∨ key i = key j ∧ i ≤ j

/-- The result of a search for the foremost number, where 0 stands for none. -/
def Selects (waiting : Nat → Prop) (key : Nat → α) (i : Nat) : Prop :=
  i ≠ 0 ∧ Foremost waiting key i ∨ i = 0 ∧ ∀ j, ¬waiting j

variable {w : Nat → Prop} {key : Nat → α} {n best : Nat}

theorem Selects.ne_zero_iff (hs : Selects w key best) : best ≠ 0 ↔ ∃ i, w i := by
  rcases hs with ⟨nonzero, hf⟩ | ⟨hz, hn⟩
  · exact iff_of_true nonzero ⟨best, hf.waits⟩
  · apply iff_of_false (not_not_intro hz)
    rintro ⟨i, hw⟩
    exact hn i hw

theorem Selects.foremost (hs : Selects w key best) (hf : best ≠ 0) : Foremost w key best := by
  rcases hs with ⟨-, foremost⟩ | ⟨hz, -⟩
  · exact foremost
  · exact absurd hz hf

theorem Selects.congr {w' : Nat → Prop} {k' : Nat → α} (same : ∀ i, w i ↔ w' i)
    (hk : ∀ i, w i → key i = k' i) (hs : Selects w key best) : Selects w' k' best := by
  rcases hs with ⟨nonzero, hf⟩ | ⟨hz, hn⟩
  · refine .inl ⟨nonzero, (same best).mp hf.waits, fun j hw => ?_⟩
    have hw := (same j).mpr hw
    rw [← hk best hf.waits, ← hk j hw]
    exact hf.first j hw
  · exact .inr ⟨hz, fun j hw => hn j ((same j).mpr hw)⟩

/-! A search that goes through the numbers in order and has passed those below `n`. -/

theorem selects_start : Selects (fun i => i < 0 ∧ w i) key 0 :=
  .inr ⟨rfl, fun i h => Nat.not_lt_zero i h.1⟩

theorem Selects.skip (hs : Selects (fun i => i < n ∧ w i) key best) (hi : ¬w n) :
    Selects (fun i => i < n + 1 ∧ w i) key best := by
  refine hs.congr (fun i => ?_) fun _ _ => rfl
  refine and_congr_left fun hw => ⟨Nat.lt_succ_of_lt, fun hb => ?_⟩
  have ho : i ≠ n := fun same => hi (same ▸ hw)
  omega

theorem Selects.next (hs : Selects (fun i => i < n ∧ w i) key best) (hw : w n) (nonzero : n ≠ 0) :
    Selects (fun i => i < n + 1 ∧ w i) key (if best = 0 ∨ key n < key best then n else best) := by
  split
  · rename_i ht
    refine .inl ⟨nonzero, ⟨Nat.lt_succ_self n, hw⟩, fun j ho => ?_⟩
    by_cases same : j = n
    · exact .inr ⟨by rw [same], Nat.le_of_eq same.symm⟩
    · have hp : j < n ∧ w j := ⟨by omega, ho.2⟩
      have found : best ≠ 0 := hs.ne_zero_iff.mpr ⟨j, hp⟩
      have hl := ht.resolve_left found
      rcases (hs.foremost found).first j hp with hm | ⟨he, -⟩
      · exact .inl (lt_trans hl hm)
      · exact .inl (he ▸ hl)
  · rename_i hk
    obtain ⟨found, hn⟩ := not_or.mp hk
    have hf := hs.foremost found
    refine .inl ⟨found, ⟨Nat.lt_succ_of_lt hf.waits.1, hf.waits.2⟩, fun j ho => ?_⟩
    by_cases same : j = n
    · rcases lt_or_eq_of_le (not_lt.mp hn) with hl | he
      · exact .inl (same ▸ hl)
      · exact .inr ⟨same ▸ he, by rw [same]; exact Nat.le_of_lt hf.waits.1⟩
    · exact hf.first j ⟨by omega, ho.2⟩

theorem Selects.finish (hs : Selects (fun i => i < n ∧ w i) key best) (ha : ∀ i, w i → i < n) : Selects w key best :=
  hs.congr (fun i => and_iff_right_of_imp (ha i)) fun _ _ => rfl

theorem Selects.limit (hs : Selects w key best) (b : α) :
    Selects (fun i => w i ∧ key i < b) key (if best ≠ 0 ∧ key best < b then best else 0) := by
  split
  · rename_i ht
    have hf := hs.foremost ht.1
    exact .inl ⟨ht.1, ⟨hf.waits, ht.2⟩, fun j hw => hf.first j hw.1⟩
  · rename_i hr
    refine .inr ⟨rfl, fun j hw => hr ?_⟩
    have nonzero := hs.ne_zero_iff.mpr ⟨j, hw.1⟩
    refine ⟨nonzero, ?_⟩
    rcases (hs.foremost nonzero).first j hw.1 with hl | ⟨same, -⟩
    · exact lt_trans hl hw.2
    · rw [same]
      exact hw.2

end RiscvEmulators.Interrupt
