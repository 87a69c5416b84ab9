import Mathlib.Algebra.Group.Nat.Defs

namespace RiscvEmulators.Word
open BitVec
variable {w : Nat}
variable {k : Nat} (x : BitVec w) {y : BitVec w}

theorem toNat_unit (hb : k < w) : ((1 : BitVec w) <<< k).toNat = 2 ^ k := by
  have ho : (1 : BitVec w).toNat = 1 := toNat_one (by omega)
  rw [toNat_shiftLeft, ho, Nat.one_shiftLeft, Nat.mod_eq_of_lt (Nat.pow_lt_pow_right (by decide) hb)]

theorem toNat_low_mask (hb : k < w) : (((1 : BitVec w) <<< k) - 1).toNat = 2 ^ k - 1 := by
  have one : (1 : BitVec w).toNat = 1 := toNat_one (by omega)
  have ho : (1 : BitVec w) ≤ (1 : BitVec w) <<< k := by
    rw [le_def, one, toNat_unit hb]
    exact Nat.two_pow_pos k
  rw [toNat_sub_of_le ho, toNat_unit hb, one]

theorem toNat_and_not_low_mask (hb : k < w) :
    (x &&& ~~~(((1 : BitVec w) <<< k) - 1)).toNat = x.toNat / 2 ^ k * 2 ^ k := by
  apply Nat.eq_of_testBit_eq
  intro i
  rw [toNat_and, Nat.testBit_and, testBit_toNat (~~~_), getLsbD_not, ← testBit_toNat,
    toNat_low_mask hb, Nat.testBit_mul_two_pow, Nat.testBit_div_two_pow]
  by_cases hl : i < k
  · simp [hl, Nat.not_le.mpr hl]
  · have hh : k ≤ i := by omega
    rw [Nat.sub_add_cancel hh]
    by_cases hw : i < w
    · simp [hh, hw]
    · rw [testBit_toNat, getLsbD_of_ge x i (by omega)]
      simp

theorem toNat_and_low_mask (h : k < w) : (x &&& (((1 : BitVec w) <<< k) - 1)).toNat = x.toNat % 2 ^ k := by
  rw [toNat_and, toNat_low_mask h, Nat.and_two_pow_sub_one_eq_mod]

theorem toNat_splice (y : BitVec w) (h : k < w) :
    ((x &&& ~~~(((1 : BitVec w) <<< k) - 1)) ||| (y &&& (((1 : BitVec w) <<< k) - 1))).toNat =
      x.toNat / 2 ^ k * 2 ^ k + y.toNat % 2 ^ k := by
  rw [toNat_or, toNat_and_not_low_mask x h, toNat_and_low_mask y h, ← Nat.shiftLeft_eq,
    Nat.shiftLeft_add_eq_or_of_lt (Nat.mod_lt _ (Nat.two_pow_pos k))]

/-- Number of consecutive one bits at the bottom of a number of at most `width` bits. -/
def trailingOnes : Nat → Nat → Nat
  | 0, _ => 0
  | width + 1, n => if n % 2 = 1 then trailingOnes width (n / 2) + 1 else 0

theorem and_half {x y : Nat} : x &&& y = 2 * (x / 2 &&& y / 2) + (x % 2 &&& y % 2) := by
  have hh : (x &&& y) / 2 = x / 2 &&& y / 2 := Nat.and_div_two
  have hl : (x &&& y) % 2 ^ 1 = x % 2 ^ 1 &&& y % 2 ^ 1 := Nat.and_mod_two_pow
  simp only [Nat.pow_one] at hl
  omega

theorem or_half (x y : Nat) : x ||| y = 2 * (x / 2 ||| y / 2) + (x % 2 ||| y % 2) := by
  have hh : (x ||| y) / 2 = x / 2 ||| y / 2 := Nat.or_div_two
  have hl : (x ||| y) % 2 ^ 1 = x % 2 ^ 1 ||| y % 2 ^ 1 := Nat.or_mod_two_pow
  simp only [Nat.pow_one] at hl
  omega

theorem trailingOnes_and_or (wi x : Nat) (hs : x < 2 ^ wi) :
    x &&& (x + 1) = x / 2 ^ (trailingOnes wi x + 1) * 2 ^ (trailingOnes wi x + 1) ∧
      (x ||| (x + 1)) + 1 = (x &&& (x + 1)) + 2 ^ (trailingOnes wi x + 1) := by
  induction wi generalizing x with
  | zero =>
    have zero : x = 0 := by omega
    subst zero
    decide
  | succ wi ih =>
    rw [and_half, or_half x (x + 1), trailingOnes]
    split
    · rename_i ho
      have hn : (x + 1) / 2 = x / 2 + 1 := by omega
      have he : (x + 1) % 2 = 0 := by omega
      obtain ⟨hl, hh⟩ := ih (x / 2) (by rw [Nat.pow_succ] at hs; omega)
      rw [hn, he, Nat.pow_succ 2 (trailingOnes wi (x / 2) + 1), Nat.mul_comm _ 2, ← Nat.div_div_eq_div_mul,
        Nat.mul_left_comm, ← hl]
      refine ⟨?_, ?_⟩
      · simp
      · simp only [Nat.and_zero, Nat.or_zero]
        omega
    · have hc : x % 2 = 0 := by omega
      have hn : (x + 1) / 2 = x / 2 := by omega
      have ho : (x + 1) % 2 = 1 := by omega
      rw [hn, hc, ho]
      simp [Nat.mul_comm 2]

theorem two_pow_sub_one_mod {n : Nat} (le : k ≤ n) : (2 ^ n - 1) % 2 ^ k = 2 ^ k - 1 := by
  have hf : 2 ^ n = 2 ^ k * 2 ^ (n - k) := by rw [← Nat.pow_add, Nat.add_sub_cancel' le]
  have hl := Nat.two_pow_pos k
  have hh := Nat.two_pow_pos (n - k)
  have hs : 2 ^ n - 1 = 2 ^ k * (2 ^ (n - k) - 1) + (2 ^ k - 1) := by
    rw [Nat.mul_sub]
    have hr := Nat.le_mul_of_pos_right (2 ^ k) hh
    omega
  rw [hs, Nat.mul_add_mod]
  exact Nat.mod_eq_of_lt (by omega)

theorem two_pow_trailingOnes_le (wi x : Nat) : 2 ^ trailingOnes wi x ≤ x + 1 := by
  induction wi generalizing x with
  | zero =>
    rw [trailingOnes]
    omega
  | succ wi ih =>
    rw [trailingOnes]
    split
    · have h := ih (x / 2)
      omega
    · omega

theorem le_trailingOnes {wi c x : Nat} (hf : c ≤ wi) (hon : x ||| (2 ^ c - 1) = x) : c ≤ trailingOnes wi x := by
  induction wi generalizing c x with
  | zero => omega
  | succ wi ih =>
    cases c with
    | zero => omega
    | succ c =>
      have hm : 2 ^ (c + 1) - 1 = 2 * (2 ^ c - 1) + 1 := by
        have := Nat.two_pow_pos c
        omega
      have hs := or_half x (2 ^ (c + 1) - 1)
      rw [hon, hm, show (2 * (2 ^ c - 1) + 1) / 2 = 2 ^ c - 1 by omega, show (2 * (2 ^ c - 1) + 1) % 2 = 1 by omega] at hs
      have ho : x % 2 = 1 := by
        rcases Nat.mod_two_eq_zero_or_one x with he | ho
        · rw [he] at hs
          simp only [Nat.zero_or] at hs
          omega
        · exact ho
      rw [ho] at hs
      have hu : x / 2 ||| (2 ^ c - 1) = x / 2 := by
        simp only [Nat.or_self] at hs
        omega
      rw [trailingOnes, if_pos ho]
      have := ih (by omega) hu
      omega

theorem toNat_and_neg_unit (h : k < w) : (x &&& -((1 : BitVec w) <<< k)).toNat = x.toNat / 2 ^ k * 2 ^ k := by
  rw [not_eq_comm.mp (not_neg ((1 : BitVec w) <<< k))]
  exact toNat_and_not_low_mask x h

theorem add_unit_and_neg_unit (h : k < w) :
    (x + (1 : BitVec w) <<< k) &&& -((1 : BitVec w) <<< k) = (x &&& -((1 : BitVec w) <<< k)) + (1 : BitVec w) <<< k := by
  apply eq_of_toNat_eq
  rw [toNat_and_neg_unit _ h, toNat_add, toNat_add, toNat_and_neg_unit _ h, toNat_unit h]
  obtain ⟨d, rfl⟩ : ∃ d, w = k + d := ⟨w - k, by omega⟩
  rw [Nat.pow_add, Nat.mul_comm (2 ^ k) (2 ^ d), Nat.mod_mul_left_div_self, Nat.add_div_right _ (Nat.two_pow_pos k),
    ← Nat.succ_mul, Nat.mul_mod_mul_right]

theorem carry_one (hp : 0 < w) (j : Nat) : BitVec.carry (j + 1) x 1 false = decide (∀ i ≤ j, x.getLsbD i) := by
  induction j with
  | zero =>
    rw [carry_succ]
    simp [hp]
  | succ j ih =>
    rw [carry_succ, ih]
    have hhi : (1 : BitVec w).getLsbD (j + 1) = false := by simp
    rw [hhi, Bool.atLeastTwo_false_mid]
    rw [Bool.eq_iff_iff, Bool.and_eq_true, decide_eq_true_eq, decide_eq_true_eq]
    constructor
    · rintro ⟨ht, hb⟩ i hbo
      by_cases hh : i = j + 1
      · rw [hh, ht]
      · exact hb i (by omega)
    · intro ha
      exact ⟨ha (j + 1) (Nat.le_refl _), fun i hbo => ha i (by omega)⟩

theorem getLsbD_trailing {j : Nat} (hb : j < w) : (x &&& ~~~(x + 1)).getLsbD j = decide (∀ i ≤ j, x.getLsbD i) := by
  rw [getLsbD_and, getLsbD_not, getLsbD_add hb, Bool.eq_iff_iff, decide_eq_true_eq]
  cases j with
  | zero => simp [hb]
  | succ j =>
    rw [carry_one x (by omega)]
    have hs : (∀ i ≤ j + 1, x.getLsbD i) ↔ x.getLsbD (j + 1) ∧ ∀ i ≤ j, x.getLsbD i := by
      refine ⟨fun ha => ⟨ha (j + 1) (Nat.le_refl _), fun i le => ha i (by omega)⟩, fun hbo i le => ?_⟩
      by_cases hh : i = j + 1
      · rw [hh, hbo.1]
      · exact hbo.2 i (by omega)
    rw [hs]
    by_cases hbe : ∀ i ≤ j, x.getLsbD i
    · cases x.getLsbD (j + 1) <;> simp [hb]
    · cases x.getLsbD (j + 1) <;> simp [hbe]

variable {x : BitVec w}

theorem trailing_downward {i j : Nat} (hbe : i ≤ j) (hb : j < w)
    (hs : (x &&& ~~~(x + 1)).getLsbD j) : (x &&& ~~~(x + 1)).getLsbD i := by
  rw [getLsbD_trailing x hb, decide_eq_true_eq] at hs
  rw [getLsbD_trailing x (by omega), decide_eq_true_eq]
  exact fun k le => hs k (by omega)

def Aligned (k : Nat) (x : BitVec w) : Prop := 2 ^ k ∣ x.toNat

theorem Aligned.mono {j : Nat} (h : Aligned k x) (le : j ≤ k) : Aligned j x :=
  Nat.dvd_trans (Nat.pow_dvd_pow 2 le) h

theorem Aligned.add (hl : Aligned k x) (hr : Aligned k y) (hb : k ≤ w) : Aligned k (x + y) := by
  unfold Aligned at hl hr ⊢
  exact (Nat.dvd_mod_iff (Nat.pow_dvd_pow 2 hb)).mpr (Nat.dvd_add hl hr)

theorem Aligned.sub (hl : Aligned k x) (hr : Aligned k y) (hb : k ≤ w) : Aligned k (x - y) := by
  unfold Aligned at hl hr ⊢
  have hw : 2 ^ k ∣ 2 ^ w := Nat.pow_dvd_pow 2 hb
  exact (Nat.dvd_mod_iff hw).mpr (Nat.dvd_add (Nat.dvd_sub hw hr) hl)

theorem aligned_shiftLeft {j : Nat} (le : k ≤ j) (h : k ≤ w) : Aligned k (x <<< j) := by
  unfold Aligned
  rw [toNat_shiftLeft, Nat.shiftLeft_eq]
  exact (Nat.dvd_mod_iff (Nat.pow_dvd_pow 2 h)).mpr (Nat.dvd_mul_left_of_dvd (Nat.pow_dvd_pow 2 le) _)

theorem Aligned.and (h : Aligned k x) (y : BitVec w) : Aligned k (x &&& y) := by
  unfold Aligned at h ⊢
  rw [Nat.dvd_iff_mod_eq_zero] at h ⊢
  rw [toNat_and, Nat.and_mod_two_pow, h, Nat.zero_and]

theorem Aligned.eq_of_near (hl : Aligned k x) (hr : Aligned k y) (hb : k ≤ w)
    (hn : (x - y).toNat < 2 ^ k) : x = y := by
  have hz : (x - y).toNat = 0 := Nat.eq_zero_of_dvd_of_lt (hl.sub hr hb) hn
  have hs : x - y = 0 := eq_of_toNat_eq hz
  calc x = x - y + y := (BitVec.sub_add_cancel x y).symm
    _ = y := by rw [hs]; simp

end RiscvEmulators.Word
