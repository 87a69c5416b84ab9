import Mathlib.Algebra.Group.Nat.Defs

namespace RiscvEmulators.Word
open BitVec

/-- One halving step of a trailing-zero count: a word whose low `k` bits are
  clear is shifted down by `k`. -/
def ctzStep (k : Nat) (acc : Nat × BitVec 64) : Nat × BitVec 64 :=
  if acc.2 <<< (64 - k) = 0 then (acc.1 + k, acc.2 >>> k) else acc

def ctz (val : BitVec 64) : Nat :=
  if val = 0 then 0
  else (ctzStep 1 (ctzStep 2 (ctzStep 4 (ctzStep 8 (ctzStep 16 (ctzStep 32 (0, val))))))).1

variable (x : BitVec 64) {val : BitVec 64}

theorem shiftLeft_eq_zero_iff {k : Nat} (hb : k ≤ 64) : x <<< (64 - k) = 0 ↔ x.toNat % 2 ^ k = 0 := by
  have hw : 2 ^ 64 = 2 ^ k * 2 ^ (64 - k) := by rw [← Nat.pow_add, Nat.add_sub_cancel' hb]
  have hs := Nat.two_pow_pos (64 - k)
  rw [← toNat_inj, toNat_shiftLeft, Nat.shiftLeft_eq, hw, Nat.mul_mod_mul_right]
  change x.toNat % 2 ^ k * 2 ^ (64 - k) = 0 ↔ _
  rw [Nat.mul_eq_zero]
  omega

/-- A scan that has passed `acc.1` clear bits and knows of a set bit among the next `k`. -/
structure Scanned (val : BitVec 64) (k : Nat) (acc : Nat × BitVec 64) : Prop where
  shifted : acc.2 = val >>> acc.1
  clear : val.toNat % 2 ^ acc.1 = 0
  window : acc.2.toNat % 2 ^ k ≠ 0

theorem ctzStep_scanned {k : Nat} {acc : Nat × BitVec 64} (hsc : Scanned val (2 * k) acc) (hb : k ≤ 64)
    : Scanned val k (ctzStep k acc) := by
  obtain ⟨hs, hc, hw⟩ := hsc
  unfold ctzStep
  split
  · rename_i hl
    rw [shiftLeft_eq_zero_iff _ hb] at hl
    refine ⟨by simp [hs, shiftRight_add], ?_, ?_⟩
    · rw [hs, toNat_ushiftRight, Nat.shiftRight_eq_div_pow] at hl
      rw [Nat.pow_add, Nat.mod_mul, hc, hl]
      simp
    · rw [toNat_ushiftRight, Nat.shiftRight_eq_div_pow]
      intro hh
      apply hw
      rw [Nat.two_mul, Nat.pow_add, Nat.mod_mul, hl, hh]
      simp
  · rename_i hl
    rw [shiftLeft_eq_zero_iff _ hb] at hl
    exact ⟨hs, hc, hl⟩

theorem scanned_ctz (hn : val ≠ 0) : ∃ l, Scanned val 1 (ctz val, l) := by
  have hw : Scanned val (2 * 32) (0, val) := by
    refine ⟨by simp, Nat.mod_one _, ?_⟩
    rw [Nat.mod_eq_of_lt val.isLt]
    intro hz
    exact hn (eq_of_toNat_eq hz)
  have hs2 := ctzStep_scanned hw (by decide)
  have hst := ctzStep_scanned (k := 16) hs2 (by decide)
  have hs5 := ctzStep_scanned (k := 8) hst (by decide)
  have hs4 := ctzStep_scanned (k := 4) hs5 (by decide)
  have hs3 := ctzStep_scanned (k := 2) hs4 (by decide)
  have hs := ctzStep_scanned (k := 1) hs3 (by decide)
  rw [ctz, if_neg hn]
  generalize ctzStep 1 _ = l at hs
  exact ⟨l.2, hs⟩

theorem getLsbD_ctz (hn : val ≠ 0) : val.getLsbD (ctz val) := by
  obtain ⟨last, hs⟩ := scanned_ctz hn
  have hb := hs.window
  rw [hs.shifted, toNat_ushiftRight, Nat.pow_one, ← Nat.and_one_is_mod] at hb
  simpa [BitVec.getLsbD, Nat.testBit] using hb

theorem ctz_clear (hn : val ≠ 0) : val.toNat % 2 ^ ctz val = 0 := by
  obtain ⟨last, hs⟩ := scanned_ctz hn
  exact hs.clear

theorem ctz_lt (val : BitVec 64) : ctz val < 64 := by
  by_cases h : val = 0
  · simp [ctz, h]
  · exact lt_of_getLsbD (getLsbD_ctz h)

def smearStep (k : Nat) (x : BitVec 64) : BitVec 64 := x ||| (x >>> k)

def smear (x : BitVec 64) : BitVec 64 :=
  smearStep 32 (smearStep 16 (smearStep 8 (smearStep 4 (smearStep 2 (smearStep 1 x)))))

/-- The set bits of `x` copied to all of the `n` places that end at them. -/
def Smeared (x : BitVec 64) (n : Nat) (y : BitVec 64) : Prop := ∀ i, y.getLsbD i = true ↔ ∃ j < n, x.getLsbD (i + j)

theorem smearStep_smeared {x y : BitVec 64} {n : Nat} (hs : Smeared x n y) : Smeared x (2 * n) (smearStep n y) := by
  intro i
  rw [smearStep, getLsbD_or, getLsbD_ushiftRight, Bool.or_eq_true, hs i, hs (n + i)]
  constructor
  · rintro (⟨j, hb, bit⟩ | ⟨j, hb, bit⟩)
    · exact ⟨j, by omega, bit⟩
    · exact ⟨n + j, by omega, by rwa [show i + (n + j) = n + i + j by omega]⟩
  · rintro ⟨j, hb, bit⟩
    by_cases hl : j < n
    · exact .inl ⟨j, hl, bit⟩
    · exact .inr ⟨j - n, by omega, by rwa [show n + i + (j - n) = i + j by omega]⟩

theorem smear_smeared : Smeared x 64 (smear x) := by
  have hst : Smeared x 1 x := by
    intro i
    constructor
    · intro hb
      exact ⟨0, by omega, hb⟩
    · rintro ⟨j, hbo, hb⟩
      rwa [show j = 0 by omega] at hb
  have hs2 := smearStep_smeared hst
  have hs3 := smearStep_smeared hs2
  have hs4 := smearStep_smeared hs3
  have hs5 := smearStep_smeared hs4
  have hs := smearStep_smeared hs5
  exact smearStep_smeared hs

theorem smear_mask : ∃ k, (smear x).toNat = 2 ^ k - 1 ∧ x.toNat < 2 ^ k ∧ ∀ j, x.toNat < 2 ^ j → k ≤ j := by
  by_cases hz : x = 0
  · exact ⟨0, by subst hz; decide, by subst hz; decide, fun _ _ => Nat.zero_le _⟩
  · have hp : x.toNat ≠ 0 := fun he => hz (eq_of_toNat_eq he)
    have ht : x.toNat.testBit x.toNat.log2 := Nat.testBit_log2 hp
    have hs : x.toNat < 2 ^ (x.toNat.log2 + 1) := Nat.lt_log2_self
    refine ⟨x.toNat.log2 + 1, ?_, hs, fun j hj => (Nat.log2_lt hp).mpr hj⟩
    apply Nat.eq_of_testBit_eq
    intro i
    rw [Nat.testBit_two_pow_sub_one, testBit_toNat, Bool.eq_iff_iff, smear_smeared x i, decide_eq_true_iff]
    constructor
    · rintro ⟨j, -, bit⟩
      rw [← testBit_toNat] at bit
      have hr := Nat.ge_two_pow_of_testBit bit
      have hb : 2 ^ (i + j) < 2 ^ (x.toNat.log2 + 1) := Nat.lt_of_le_of_lt hr hs
      have ho := (Nat.pow_lt_pow_iff_right (by decide)).mp hb
      omega
    · intro hl
      have hbo : x.toNat.log2 < 64 := (Nat.log2_lt hp).mpr x.isLt
      refine ⟨x.toNat.log2 - i, by omega, ?_⟩
      rwa [← testBit_toNat, show i + (x.toNat.log2 - i) = x.toNat.log2 by omega]

end RiscvEmulators.Word
