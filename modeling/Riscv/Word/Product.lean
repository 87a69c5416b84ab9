import Mathlib.Algebra.Polynomial.OfFn
import Mathlib.Algebra.Field.ZMod

namespace RiscvEmulators.Word
open BitVec Finset
variable {w : Nat} {a b : BitVec w} {f : Nat → BitVec w}

def gf2 (b : Bool) : ZMod 2 := if b then 1 else 0

theorem gf2_xor (x y : Bool) : gf2 (x ^^ y) = gf2 x + gf2 y := by
  cases x <;> cases y <;> decide

theorem gf2_and (x y : Bool) : gf2 (x && y) = gf2 x * gf2 y := by
  cases x <;> cases y <;> decide

/-- The bits of a word as the coefficients of a polynomial over the field of two elements. -/
noncomputable def poly (a : BitVec w) : Polynomial (ZMod 2) := Polynomial.ofFn w fun i => gf2 (a.getLsbD i)

theorem coeff_poly (a : BitVec w) (n : Nat) : (poly a).coeff n = gf2 (a.getLsbD n) := by
  rcases Nat.lt_or_ge n w with h | h
  · exact Polynomial.ofFn_coeff_eq_val_of_lt _ h
  · rw [getLsbD_of_ge _ _ h]
    exact Polynomial.ofFn_coeff_eq_zero_of_ge _ h

/-- The words `f k` of the bits `k < n` that are set in `b`, added without carries. -/
def xorSum (f : Nat → BitVec w) (b : BitVec w) : Nat → BitVec w
  | 0 => 0
  | n + 1 => if b.getLsbD n then xorSum f b n ^^^ f n else xorSum f b n

theorem gf2_xorSum (f : Nat → BitVec w) (b : BitVec w) (n p : Nat) :
    gf2 ((xorSum f b n).getLsbD p) = ∑ k ∈ range n, gf2 (b.getLsbD k && (f k).getLsbD p) := by
  induction n with
  | zero => simp [xorSum, gf2]
  | succ n ih =>
    rw [sum_range_succ, ← ih, xorSum]
    cases b.getLsbD n with
    | false => simp [gf2]
    | true => simp [gf2_xor]

theorem xorSum_of_clear {m n : Nat} (hm : m ≤ n) (hc : ∀ k, m ≤ k → b.getLsbD k → f k = 0) :
    xorSum f b n = xorSum f b m := by
  induction n, hm using Nat.le_induction with
  | base => rfl
  | succ n hm ih =>
    rw [xorSum, ih]
    split
    · rename_i hb
      rw [hc n hm hb]
      exact xor_zero
    · rfl

/-- Copies of `a` that are shifted to the set bits of `b` add up to the product. -/
theorem gf2_xorSum_product {p n : Nat} (hf : ∀ k < w, (f k).getLsbD p = (decide (k ≤ n) && a.getLsbD (n - k))) :
    gf2 ((xorSum f b w).getLsbD p) = (poly a * poly b).coeff n := by
  rw [gf2_xorSum, mul_comm, Polynomial.coeff_mul, Nat.sum_antidiagonal_eq_sum_range_succ_mk]
  apply sum_congr_of_eq_on_inter
  · intro k hk hn
    rw [mem_range] at hk hn
    rw [hf k hk, decide_eq_false (by omega), Bool.false_and, Bool.and_false]
    rfl
  · intro k _ hk
    rw [mem_range, Nat.not_lt] at hk
    rw [coeff_poly, getLsbD_of_ge _ _ hk]
    exact zero_mul _
  · intro k hk hn
    rw [mem_range] at hk hn
    rw [coeff_poly, coeff_poly, ← gf2_and, hf k hk, decide_eq_true (by omega), Bool.true_and]

end RiscvEmulators.Word
