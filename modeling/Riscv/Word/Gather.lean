import Riscv.Word.Align

namespace RiscvEmulators.Word
open BitVec
variable {n m w : Nat}

theorem signExtend_twice (h : n ≤ w) (x : BitVec n) (m : Nat) : (x.signExtend w).signExtend m = x.signExtend m := by
  rw [BitVec.signExtend, toInt_signExtend_of_le h, BitVec.signExtend]

/-- A word whose bits are bits of another; `places` says which, from the lowest. -/
def gather (w : Nat) (places : List (Option Nat)) (x : BitVec n) : BitVec w :=
  (BitVec.ofBoolListLE (places.map fun place => place.elim false x.getLsbD)).setWidth w

theorem getLsbD_gather (w : Nat) (p : List (Option Nat)) (x : BitVec n) (i : Nat) :
    (gather w p x).getLsbD i = (decide (i < w) && (p.getD i none).elim false x.getLsbD) := by
  rw [gather, getLsbD_setWidth, getLsbD_ofBoolListLE, List.getD_eq_getElem?_getD,
    List.getD_eq_getElem?_getD,
    List.getElem?_map]
  cases p[i]? <;> rfl

variable {pl : List (Option Nat)}

theorem getD_beyond {i : Nat} (h : pl.length ≤ i) : pl.getD i none = none := by
  rw [List.getD_eq_getElem?_getD, List.getElem?_eq_none h]
  rfl

theorem gather_setWidth (pl : List (Option Nat)) (x : BitVec n) (hf : m ≤ w ∨ pl.length ≤ w) :
    (gather w pl x).setWidth m = gather m pl x := by
  apply eq_of_getLsbD_eq
  intro i hb
  rw [getLsbD_setWidth, getLsbD_gather, getLsbD_gather]
  by_cases hi : i < w
  · simp [hi]
  · rw [getD_beyond (by omega)]
    simp

theorem gather_signExtend (hs : pl.length < w) (x : BitVec n) (m : Nat) :
    (gather w pl x).signExtend m = gather m pl x := by
  have ht : (gather w pl x).msb = false := by
    rw [msb_eq_getLsbD_last, getLsbD_gather, getD_beyond (by omega)]
    simp
  apply eq_of_getLsbD_eq
  intro i hb
  rw [getLsbD_signExtend, getLsbD_gather, getLsbD_gather, ht]
  by_cases hi : i < w
  · simp [hi]
  · rw [getD_beyond (by omega)]
    simp

theorem gather_congr {x : BitVec n} {y : BitVec m} (w : Nat)
    (h : ∀ p ∈ pl, p.elim false x.getLsbD = p.elim false y.getLsbD) : gather w pl x = gather w pl y := by
  unfold gather
  rw [List.map_congr_left h]

theorem gather_low {x : BitVec n} (hl : ∀ p ∈ pl, ∀ j ∈ p, j < m) (w : Nat) :
    gather w pl (x.setWidth m) = gather w pl x := by
  apply gather_congr
  intro p hm
  cases p with
  | none => rfl
  | some j => simp [hl _ hm j rfl]

theorem gather_shifted (k : Nat) (pl : List (Option Nat)) (x : BitVec n) :
    gather (w + k) (List.replicate k none ++ pl) x = gather w pl x ++ 0#k := by
  apply eq_of_getLsbD_eq
  intro i hb
  rw [getLsbD_gather, getLsbD_append, getLsbD_gather, List.getD_eq_getElem?_getD]
  by_cases hu : i < k
  · rw [List.getElem?_append_left (by simpa using hu)]
    simp [hu]
  · rw [List.getElem?_append_right (by simp; omega)]
    simp [hu, hb, show i - k < w by omega]

theorem gather_eq_zero (hfi : pl.length ≤ w) (x : BitVec n) :
    gather w pl x = 0 ↔ ∀ j, some j ∈ pl → x.getLsbD j = false := by
  constructor
  · intro hz j hm
    obtain ⟨i, hb, hf⟩ := List.getElem_of_mem hm
    have bit : (gather w pl x).getLsbD i = false := by rw [hz]; simp
    rw [getLsbD_gather] at bit
    simpa [hf, hb, Nat.lt_of_lt_of_le hb hfi] using bit
  · intro hc
    apply eq_of_getLsbD_eq
    intro i hb
    rw [getLsbD_gather, List.getD_eq_getElem?_getD]
    cases hf : pl[i]? with
    | none => simp
    | some p =>
      cases p with
      | none => simp
      | some j => simp [hc j (List.mem_of_getElem? hf)]

theorem gather_sshiftRight {k : Nat} (hi : k < w) (pl : List (Option Nat)) (x : BitVec n) :
    (gather w pl x).sshiftRight k = (gather (w - k) (pl.drop k) x).signExtend w := by
  have ht : (gather w pl x).msb = (gather (w - k) (pl.drop k) x).msb := by
    rw [msb_eq_getLsbD_last, msb_eq_getLsbD_last, getLsbD_gather, getLsbD_gather]
    have hs : k + (w - k - 1) = w - 1 := by omega
    simp [hs, show w - 1 < w by omega, show w - k - 1 < w - k by omega]
  apply eq_of_getLsbD_eq
  intro i hb
  rw [getLsbD_sshiftRight, getLsbD_signExtend, getLsbD_gather, getLsbD_gather, ht]
  by_cases hl : i < w - k
  · simp [hl, hb, show k + i < w by omega]
  · simp [hl, hb, show ¬ k + i < w by omega]

inductive Moves (w : Nat) where
  | whole
  | left (moves : Moves w) (amount : Nat)
  | right (moves : Moves w) (amount : Nat)
  | mask (moves : Moves w) (bits : BitVec w)
  | or (first second : Moves w)

namespace Moves

def eval (x : BitVec w) : Moves w → BitVec w
  | whole => x
  | left moves amount => moves.eval x <<< amount
  | right moves amount => moves.eval x >>> amount
  | mask moves bits => moves.eval x &&& bits
  | or first second => first.eval x ||| second.eval x

/-- The places that bit `i` of the result is the disjunction of. -/
def sources (i : Nat) : Moves w → List Nat
  | whole => if i < w then [i] else []
  | left moves amount => if i < w ∧ amount ≤ i then moves.sources (i - amount) else []
  | right moves amount => moves.sources (amount + i)
  | mask moves bits => if bits.getLsbD i then moves.sources i else []
  | or first second => first.sources i ++ second.sources i

theorem getLsbD_eval (x : BitVec w) (mo : Moves w) (i : Nat) :
    (mo.eval x).getLsbD i = (mo.sources i).any x.getLsbD := by
  induction mo generalizing i with
  | whole =>
    by_cases hb : i < w
    · simp [eval, sources, hb]
    · simp [eval, sources, getLsbD_of_ge x i (by omega)]
  | left mo a ih =>
    rw [eval, sources, getLsbD_shiftLeft, ih]
    by_cases hb : i < w <;> by_cases hbe : a ≤ i <;> simp [hb, hbe]
  | right mo a ih => rw [eval, sources, getLsbD_ushiftRight, ih]
  | mask mo bs ih =>
    rw [eval, sources, getLsbD_and, ih]
    cases bs.getLsbD i <;> simp
  | or fst snd hih hi => rw [eval, sources, getLsbD_or, hih, hi, List.any_append]

theorem eval_eq_gather {mo : Moves w} {pl : List (Option Nat)}
    (hc : ∀ i < w, mo.sources i = (pl.getD i none).toList) (x : BitVec w) : mo.eval x = gather w pl x := by
  apply eq_of_getLsbD_eq
  intro i hb
  rw [getLsbD_eval, hc i hb, getLsbD_gather]
  cases pl.getD i none <;> simp [hb]

end Moves

section
variable {p : Nat}

theorem getLsbD_foldl_or {α : Type} {step : BitVec w → α → BitVec w} {bit : α → Bool} {as : List α}
    (h : ∀ r, ∀ a ∈ as, (step r a).getLsbD p = (r.getLsbD p || bit a)) : (as.foldl step 0).getLsbD p = as.any bit := by
  have hr (r : BitVec w) : (as.foldl step r).getLsbD p = (r.getLsbD p || as.any bit) := by
    induction as generalizing r with
    | nil => simp
    | cons a as ih =>
      rw [List.foldl_cons, ih fun r a hm => h r a (.tail _ hm), h r a (.head _), List.any_cons, Bool.or_assoc]
  rw [hr]
  simp

/-- Bit `q` of the lane of `x` that the lowest lane of `y` names; past the end of `x` there are zeros. -/
def laneBit (size : Nat) (x : BitVec w) (y q : Nat) : Bool := decide (q < size) && x.getLsbD (size * (y % 2 ^ size) + q)

/-- Bit `p` of the word whose lanes are the lanes of `x` that the lanes of `y` name. -/
def crossed (size : Nat) (x : BitVec w) (y p : Nat) : Bool := laneBit size x (y >>> (size * (p / size))) (p % size)

theorem any_lanes {size n : Nat} (hs : 0 < size) (hn : p < size * n) (x : BitVec w) (y : Nat) :
    ((List.range n).any fun k => decide (size * k ≤ p) && laneBit size x (y >>> (size * k)) (p - size * k)) =
      crossed size x y p := by
  have hd := Nat.div_add_mod p size
  rw [Bool.eq_iff_iff, List.any_eq_true]
  constructor
  · rintro ⟨k, -, hb⟩
    simp only [laneBit, Bool.and_eq_true, decide_eq_true_eq] at hb
    obtain ⟨hl, hu, hb⟩ := hb
    have hq : p / size = k := by
      rw [Nat.div_eq_iff hs, Nat.mul_comm]
      omega
    rw [hq] at hd
    have hr : p % size = p - size * k := by omega
    simp [crossed, laneBit, hq, hr, hu, hb]
  · intro hb
    refine ⟨p / size, List.mem_range.mpr ((Nat.div_lt_iff_lt_mul hs).mpr (by rwa [Nat.mul_comm])), ?_⟩
    rw [show p - size * (p / size) = p % size by omega, decide_eq_true (by omega)]
    exact hb

theorem any_range_double (f : Nat → Bool) (n : Nat) :
    (List.range (2 * n)).any f = ((List.range n).any (fun j => f (2 * j)) || (List.range n).any fun j => f (2 * j + 1)) := by
  induction n with
  | zero => rfl
  | succ n ih =>
    rw [Nat.mul_succ, List.range_succ, List.range_succ, List.range_succ]
    simp only [List.any_append, ih]
    ac_rfl

theorem getLsbD_or_shift {r z : BitVec 64} (hp : p < 64) (i : Nat) :
    (r ||| z <<< i).getLsbD p = (r.getLsbD p || (decide (i ≤ p) && z.getLsbD (p - i))) := by
  rw [getLsbD_or, getLsbD_shiftLeft]
  by_cases h : i ≤ p
  · simp [h, hp, Nat.not_lt.mpr h]
  · simp [h]

theorem shifted_and_mask (x : BitVec 64) (i : Nat) {n : Nat} (hn : n < 64) :
    (x >>> i) &&& ((1 : BitVec 64) <<< n - 1) = BitVec.ofNat 64 (x.toNat >>> i % 2 ^ n) := by
  apply eq_of_toNat_eq
  rw [toNat_and, toNat_low_mask hn, Nat.and_two_pow_sub_one_eq_mod]
  exact (Nat.mod_eq_of_lt (Nat.lt_of_le_of_lt (Nat.mod_le _ _) (x >>> i).isLt)).symm

theorem getLsbD_lane (x : BitVec 64) (i : Nat) {n : Nat} (hn : n < 64) (q : Nat) :
    ((x >>> i) &&& ((1 : BitVec 64) <<< n - 1)).getLsbD q = (decide (q < n) && x.getLsbD (i + q)) := by
  rw [shifted_and_mask x i hn, getLsbD_ofNat, Nat.testBit_mod_two_pow, Nat.testBit_shiftRight, testBit_toNat]
  by_cases h : q < n
  · simp [show q < 64 by omega]
  · simp [h]

theorem lane_congr {n m a b : Nat} {x : BitVec n} {y : BitVec m} (h : ∀ i < a + b, x.getLsbD i = y.getLsbD i) :
    x.toNat >>> a % 2 ^ b = y.toNat >>> a % 2 ^ b := by
  apply Nat.eq_of_testBit_eq
  intro j
  rw [Nat.testBit_mod_two_pow, Nat.testBit_mod_two_pow, Nat.testBit_shiftRight, Nat.testBit_shiftRight, testBit_toNat,
    testBit_toNat]
  by_cases hj : j < b
  · rw [h (a + j) (by omega)]
  · simp [hj]

end
end RiscvEmulators.Word
