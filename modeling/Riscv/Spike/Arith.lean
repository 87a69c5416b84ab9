import Riscv.Word.Gather
import Mathlib.Algebra.Order.Ring.Int
import Mathlib.Tactic.Ring

namespace RiscvEmulators.Spike.Arith
open BitVec Word

section
variable (a b : BitVec 64)

def low (x : BitVec 64) : BitVec 64 := (x.setWidth 32).setWidth 64

def mulhuFirst : BitVec 64 := (a >>> 32) * low b + (low a * low b) >>> 32
def mulhuSecond : BitVec 64 := low a * (b >>> 32) + low (mulhuFirst a b)
def mulhuThird : BitVec 64 := (a >>> 32) * (b >>> 32) + low (mulhuFirst a b >>> 32) + mulhuSecond a b >>> 32
def mulhu : BitVec 64 := low (mulhuThird a b >>> 32) <<< 32 ||| low (mulhuThird a b)
def magnitude (x : BitVec 64) : BitVec 64 := if x.msb then -x else x

def negateHigh (negate : Bool) (res product : BitVec 64) : BitVec 64 :=
  if negate then ~~~res + (if product = 0 then 1 else 0) else res

def mulh : BitVec 64 := negateHigh (a.msb != b.msb) (mulhu (magnitude a) (magnitude b)) (a * b)
def mulhsu : BitVec 64 := negateHigh a.msb (mulhu (magnitude a) b) (a * b)

theorem toNat_low (x : BitVec 64) : (low x).toNat = x.toNat % 2 ^ 32 := by
  simp only [low, toNat_setWidth]
  omega

theorem toNat_high (x : BitVec 64) : (x >>> 32).toNat = x.toNat / 2 ^ 32 := by
  rw [toNat_ushiftRight, Nat.shiftRight_eq_div_pow]

theorem half_mul_le {x y : Nat} (hx : x < 2 ^ 32) (hy : y < 2 ^ 32) : x * y ≤ (2 ^ 32 - 1) * (2 ^ 32 - 1) :=
  Nat.mul_le_mul (Nat.le_sub_one_of_lt hx) (Nat.le_sub_one_of_lt hy)

def SumsFit : Prop :=
  let a0 := a.toNat % 2 ^ 32
  let a1 := a.toNat / 2 ^ 32
  let b0 := b.toNat % 2 ^ 32
  let b1 := b.toNat / 2 ^ 32
  (mulhuFirst a b).toNat = a1 * b0 + a0 * b0 / 2 ^ 32 ∧
  (mulhuSecond a b).toNat = a0 * b1 + (mulhuFirst a b).toNat % 2 ^ 32 ∧
  (mulhuThird a b).toNat = a1 * b1 + (mulhuFirst a b).toNat / 2 ^ 32 + (mulhuSecond a b).toNat / 2 ^ 32

theorem sumsFit : SumsFit a b := by
  have h0 : a.toNat % 2 ^ 32 < 2 ^ 32 := Nat.mod_lt _ (by decide)
  have h1 : a.toNat / 2 ^ 32 < 2 ^ 32 := by omega
  have k0 : b.toNat % 2 ^ 32 < 2 ^ 32 := Nat.mod_lt _ (by decide)
  have k1 : b.toNat / 2 ^ 32 < 2 ^ 32 := by omega
  have p00 := half_mul_le h0 k0
  have p01 := half_mul_le h0 k1
  have p10 := half_mul_le h1 k0
  have p11 := half_mul_le h1 k1
  have hf : (mulhuFirst a b).toNat = a.toNat / 2 ^ 32 * (b.toNat % 2 ^ 32) +
      a.toNat % 2 ^ 32 * (b.toNat % 2 ^ 32) / 2 ^ 32 := by
    rw [mulhuFirst, toNat_add, toNat_mul, toNat_high, toNat_high, toNat_mul, toNat_low, toNat_low]
    omega
  have hs : (mulhuSecond a b).toNat = a.toNat % 2 ^ 32 * (b.toNat / 2 ^ 32) + (mulhuFirst a b).toNat % 2 ^ 32 := by
    rw [mulhuSecond, toNat_add, toNat_mul, toNat_low, toNat_low, toNat_high]
    omega
  refine ⟨hf, hs, ?_⟩
  rw [mulhuThird, toNat_add, toNat_add, toNat_mul, toNat_high, toNat_high, toNat_high, toNat_low, toNat_high]
  omega

theorem toNat_mulhu : (mulhu a b).toNat = a.toNat * b.toNat / 2 ^ 64 := by
  obtain ⟨hf, hs, ht⟩ := sumsFit a b
  have hp : a.toNat * b.toNat = (a.toNat / 2 ^ 32 * (b.toNat / 2 ^ 32)) * 2 ^ 64 +
      (a.toNat / 2 ^ 32 * (b.toNat % 2 ^ 32) + a.toNat % 2 ^ 32 * (b.toNat / 2 ^ 32)) * 2 ^ 32 +
      a.toNat % 2 ^ 32 * (b.toNat % 2 ^ 32) := by
    conv_lhs => rw [← Nat.div_add_mod a.toNat (2 ^ 32), ← Nat.div_add_mod b.toNat (2 ^ 32)]
    ring
  have hm : (mulhu a b).toNat = (mulhuThird a b).toNat := by
    have hl : (low (mulhuThird a b >>> 32) <<< 32).toNat = (mulhuThird a b).toNat / 2 ^ 32 * 2 ^ 32 := by
      rw [toNat_shiftLeft, toNat_low, toNat_high]
      omega
    rw [mulhu, toNat_or, hl, toNat_low, ← Nat.shiftLeft_eq, ← Nat.shiftLeft_add_eq_or_of_lt (Nat.mod_lt _ (by decide))]
    omega
  omega

variable {a b}

theorem toNat_magnitude : (magnitude a).toNat = a.toInt.natAbs := by
  unfold magnitude
  rw [msb_eq_decide, toInt_eq_toNat_cond]
  split
  · simp_all
    omega
  · rw [if_pos (by simp_all; omega)]
    rfl

/-- The negated product rounds down: its high half is one less, unless the low half is 0. -/
theorem toInt_negateHigh {res low : BitVec 64} {p : Nat} (hr : res.toNat = p / 2 ^ 64) (hl : low = 0 ↔ p % 2 ^ 64 = 0)
    (hp : p ≤ 2 ^ 127) {negate : Bool} (hn : negate = false → p < 2 ^ 127) :
    (negateHigh negate res low).toInt = (if negate then -(p : Int) else p) / 2 ^ 64 := by
  unfold negateHigh
  cases negate with
  | false =>
    have hp := hn rfl
    simp only [Bool.false_eq_true, if_false, toInt_eq_toNat_cond]
    omega
  | true =>
    simp only [if_true, toInt_eq_toNat_cond, toNat_add, toNat_not]
    have h1 : (1 : BitVec 64).toNat = 1 := rfl
    have h0 : (0 : BitVec 64).toNat = 0 := rfl
    by_cases hz : p % 2 ^ 64 = 0
    · rw [if_pos (hl.mpr hz)]
      split <;> omega
    · rw [if_neg fun h => hz (hl.mp h)]
      split <;> omega

theorem signed_mul (x y : Int) :
    (if decide (x < 0) != decide (y < 0) then -((x.natAbs * y.natAbs : Nat) : Int) else (x.natAbs * y.natAbs : Nat)) =
      x * y := by
  rcases lt_or_ge x 0 with h | h <;> rcases lt_or_ge y 0 with k | k <;>
    simp [h, k, k.not_gt, abs_of_neg, abs_of_nonneg]

theorem natAbs_le (x : BitVec 64) : x.toInt.natAbs ≤ 2 ^ 63 := by
  have hl := x.le_two_mul_toInt
  have hu := x.two_mul_toInt_lt
  omega

theorem mul_eq_zero_iff {x y : BitVec 64} : x * y = 0 ↔ x.toNat * y.toNat % 2 ^ 64 = 0 := by
  rw [← toNat_inj]
  rfl

theorem magnitude_cases (x : BitVec 64) : magnitude x = x ∨ magnitude x = -x := by
  unfold magnitude
  split
  · exact .inr rfl
  · exact .inl rfl

end

/-- The results are the upper halves of the exact products, rounded down. -/
theorem wide_products_exact (a b : BitVec 64) : (mulhu a b).toNat = a.toNat * b.toNat / 2 ^ 64 ∧ SumsFit a b ∧
    (mulh a b).toInt = a.toInt * b.toInt / 2 ^ 64 ∧ (mulhsu a b).toInt = a.toInt * b.toNat / 2 ^ 64 := by
  have ha := natAbs_le a
  have hb := natAbs_le b
  refine ⟨toNat_mulhu a b, sumsFit a b, ?_, ?_⟩
  · have hz : a * b = 0 ↔ a.toInt.natAbs * b.toInt.natAbs % 2 ^ 64 = 0 := by
      rw [← toNat_magnitude, ← toNat_magnitude, ← mul_eq_zero_iff]
      rcases magnitude_cases a with h | h <;> rcases magnitude_cases b with k | k <;> rw [h, k] <;> simp
    have hp : a.toInt.natAbs * b.toInt.natAbs ≤ 2 ^ 63 * 2 ^ 63 := Nat.mul_le_mul ha hb
    have hr : (mulhu (magnitude a) (magnitude b)).toNat = a.toInt.natAbs * b.toInt.natAbs / 2 ^ 64 := by
      rw [toNat_mulhu, toNat_magnitude, toNat_magnitude]
    rw [mulh, toInt_negateHigh hr hz (by omega) fun _ => by omega, msb_eq_toInt, msb_eq_toInt]
    rw [signed_mul]
  · have hz : a * b = 0 ↔ a.toInt.natAbs * b.toNat % 2 ^ 64 = 0 := by
      rw [← toNat_magnitude, ← mul_eq_zero_iff]
      rcases magnitude_cases a with h | h <;> simp [h]
    have hp : a.toInt.natAbs * b.toNat ≤ 2 ^ 63 * 2 ^ 64 := Nat.mul_le_mul ha (Nat.le_of_lt b.isLt)
    have hr : (mulhu (magnitude a) b).toNat = a.toInt.natAbs * b.toNat / 2 ^ 64 := by
      rw [toNat_mulhu, toNat_magnitude]
    have hlt (h : a.msb = false) : a.toInt.natAbs * b.toNat < 2 ^ 127 := by
      rw [msb_eq_toInt, decide_eq_false_iff_not] at h
      have hu := a.two_mul_toInt_lt
      have hs : a.toInt.natAbs * b.toNat ≤ (2 ^ 63 - 1) * 2 ^ 64 := Nat.mul_le_mul (by omega) (Nat.le_of_lt b.isLt)
      omega
    have hm := signed_mul a.toInt b.toNat
    rw [Int.natAbs_natCast, show decide ((b.toNat : Int) < 0) = false by simp, Bool.bne_false] at hm
    rw [mulhsu, toInt_negateHigh hr hz (by omega) hlt, msb_eq_toInt, hm]

section
variable {n : Nat} (x y z : BitVec (n + 1))

/-- `(ux >> sh) + (((UT)0x1 << sh) - 1)`, the bound on the side of `x`. -/
def bound : BitVec (n + 1) := (x >>> n) + (((1 : BitVec (n + 1)) <<< n) - 1)

def satAdd : BitVec (n + 1) × Bool :=
  let res := x + y
  if ((bound x ^^^ y) ||| ~~~(y ^^^ res)).msb then (res, false) else (bound x, true)

def satAdd3 : BitVec (n + 1) × Bool :=
  let (a, b) := if ((y ^^^ z) &&& (x ^^^ z)).msb then (z, y) else (y, z)
  let (res, sat1) := satAdd x a
  let (res, sat2) := satAdd res b
  (res, sat1 || sat2)

def satSub : BitVec (n + 1) × Bool :=
  let res := x - y
  if ((bound x ^^^ y) &&& (bound x ^^^ res)).msb then (bound x, true) else (res, false)

def satAddu : BitVec (n + 1) × Bool :=
  let res := x + y
  (res ||| (if res < x then BitVec.allOnes (n + 1) else 0), decide (res < x))

def satSubu : BitVec (n + 1) × Bool :=
  let res := x - y
  (res &&& (if res ≤ x then BitVec.allOnes (n + 1) else 0), !decide (res ≤ x))

/-- The value of a result and its flag: `exact` clamped to `lo` to `hi`, and whether it is outside. -/
def Clamps (lo hi exact val : Int) (sat : Bool) : Prop :=
  val = max lo (min hi exact) ∧ (sat = true ↔ exact < lo ∨ hi < exact)

variable {x y z}

theorem toInt_bound : (bound x).toInt = if x.msb then -2 ^ n else 2 ^ n - 1 := by
  have hc : ((2 ^ n : Nat) : Int) = 2 ^ n := by simp
  rw [toInt_eq_toNat_cond, bound, toNat_add, Word.toNat_low_mask (Nat.lt_succ_self n), toNat_ushiftRight,
    Nat.shiftRight_eq_div_pow, msb_eq_decide, Nat.add_sub_cancel]
  by_cases h : 2 ^ n ≤ x.toNat
  · have hq : x.toNat / 2 ^ n = 1 := Nat.div_eq_of_lt_le (by omega) (by omega)
    rw [Nat.mod_eq_of_lt (by omega)]
    simp only [h, decide_true, if_true]
    omega
  · rw [Nat.div_eq_of_lt (by omega), Nat.mod_eq_of_lt (by omega)]
    simp only [h, decide_false, Bool.false_eq_true, if_false]
    omega

theorem toInt_range (x : BitVec (n + 1)) : -2 ^ n ≤ x.toInt ∧ x.toInt < 2 ^ n := ⟨x.le_toInt, x.toInt_lt⟩

theorem msb_bound : (bound x).msb = x.msb := by
  have hx := toInt_range x
  rw [msb_eq_toInt, toInt_bound]
  cases x.msb
  · simp
    omega
  · simp

theorem saturated_clamps {ov : Bool} {exact : Int} {r : BitVec (n + 1)} (ho : ov ↔ 2 ^ n ≤ exact ∨ exact < -2 ^ n)
    (hr : ¬ov → r.toInt = exact) (hs : ov → (x.toInt < 0 ↔ exact < 0)) :
    Clamps (-2 ^ n) (2 ^ n - 1) exact (if ov then (bound x, true) else (r, false)).1.toInt
      (if ov then (bound x, true) else (r, false)).2 := by
  have hx := toInt_range x
  unfold Clamps
  by_cases h : ov
  · have hs := hs h
    have hb := ho.mp h
    rw [if_pos h, toInt_bound, msb_eq_toInt]
    simp only [decide_eq_true_eq, true_iff]
    split <;> omega
  · rw [if_neg h, hr h]
    rw [ho] at h
    simp only [Bool.false_eq_true, false_iff]
    omega

theorem satAdd_clamps (x y : BitVec (n + 1)) :
    Clamps (-2 ^ n) (2 ^ n - 1) (x.toInt + y.toInt) (satAdd x y).1.toInt (satAdd x y).2 := by
  have hy := toInt_range y
  have he : satAdd x y = if x.saddOverflow y then (bound x, true) else (x + y, false) := by
    simp only [satAdd, saddOverflow_eq, msb_or, msb_xor, msb_not, msb_bound]
    cases x.msb <;> cases y.msb <;> cases (x + y).msb <;> rfl
  have ho : x.saddOverflow y ↔ 2 ^ n ≤ x.toInt + y.toInt ∨ x.toInt + y.toInt < -2 ^ n := by
    simp [saddOverflow]
  rw [he]
  apply saturated_clamps ho toInt_add_of_not_saddOverflow
  rw [ho]
  omega

theorem satSub_clamps (x y : BitVec (n + 1)) :
    Clamps (-2 ^ n) (2 ^ n - 1) (x.toInt - y.toInt) (satSub x y).1.toInt (satSub x y).2 := by
  have hy := toInt_range y
  have he : satSub x y = if x.ssubOverflow y then (bound x, true) else (x - y, false) := by
    simp only [satSub, ssubOverflow_eq, msb_and, msb_xor, msb_bound]
    cases x.msb <;> cases y.msb <;> cases (x - y).msb <;> rfl
  have ho : x.ssubOverflow y ↔ 2 ^ n ≤ x.toInt - y.toInt ∨ x.toInt - y.toInt < -2 ^ n := by
    simp [ssubOverflow]
  rw [he]
  apply saturated_clamps ho toInt_sub_of_not_ssubOverflow
  rw [ho]
  omega

theorem satAdd3_clamps (x y z : BitVec (n + 1)) :
    Clamps (-2 ^ n) (2 ^ n - 1) (x.toInt + y.toInt + z.toInt) (satAdd3 x y z).1.toInt (satAdd3 x y z).2 := by
  -- the first sum is one of different signs, unless all three signs are the same
  have two {a b : BitVec (n + 1)} (h : a.toInt + b.toInt = y.toInt + z.toInt)
      (hs : (x.toInt < 0 ↔ a.toInt < 0) → (x.toInt < 0 ↔ b.toInt < 0)) :
      Clamps (-2 ^ n) (2 ^ n - 1) (x.toInt + y.toInt + z.toInt) (satAdd (satAdd x a).1 b).1.toInt
        ((satAdd x a).2 || (satAdd (satAdd x a).1 b).2) := by
    have hx := toInt_range x
    have ha := toInt_range a
    obtain ⟨v1, f1⟩ := satAdd_clamps x a
    obtain ⟨v2, f2⟩ := satAdd_clamps (satAdd x a).1 b
    refine ⟨by omega, ?_⟩
    rw [Bool.or_eq_true, f1, f2]
    omega
  have hm : ((y ^^^ z) &&& (x ^^^ z)).msb ↔ ¬(y.toInt < 0 ↔ z.toInt < 0) ∧ ¬(x.toInt < 0 ↔ z.toInt < 0) := by
    rw [msb_and, msb_xor, msb_xor, Bool.and_eq_true]
    simp only [msb_eq_toInt, bne_iff_ne, ne_eq, decide_eq_decide]
  unfold satAdd3
  by_cases h : ((y ^^^ z) &&& (x ^^^ z)).msb
  · rw [if_pos h]
    rw [hm] at h
    exact two (Int.add_comm _ _) (by omega)
  · rw [if_neg h]
    rw [hm] at h
    exact two rfl (by omega)

theorem satAddu_clamps (x y : BitVec (n + 1)) :
    Clamps 0 (2 ^ (n + 1) - 1) (x.toNat + y.toNat) (satAddu x y).1.toNat (satAddu x y).2 := by
  have hc : ((2 ^ (n + 1) : Nat) : Int) = 2 ^ (n + 1) := by simp
  have ha : (x + y).toNat = if 2 ^ (n + 1) ≤ x.toNat + y.toNat then x.toNat + y.toNat - 2 ^ (n + 1)
      else x.toNat + y.toNat := by
    rw [toNat_add]
    split
    · rw [Nat.mod_eq_sub_mod ‹_›, Nat.mod_eq_of_lt (by omega)]
    · exact Nat.mod_eq_of_lt (by omega)
  unfold Clamps satAddu
  by_cases h : x + y < x
  · simp only [h, if_true, or_allOnes, toNat_allOnes, decide_true, true_iff]
    rw [lt_def] at h
    split at ha <;> omega
  · simp only [h, if_false, ofNat_eq_ofNat, BitVec.or_zero, decide_false, Bool.false_eq_true, false_iff]
    rw [lt_def] at h
    split at ha <;> omega

theorem satSubu_clamps (x y : BitVec (n + 1)) :
    Clamps 0 (2 ^ (n + 1) - 1) (x.toNat - y.toNat) (satSubu x y).1.toNat (satSubu x y).2 := by
  have hc : ((2 ^ (n + 1) : Nat) : Int) = 2 ^ (n + 1) := by simp
  have hs : (x - y).toNat = if y.toNat ≤ x.toNat then x.toNat - y.toNat else x.toNat + 2 ^ (n + 1) - y.toNat := by
    split
    · exact toNat_sub_of_le (le_def.mpr ‹_›)
    · rw [toNat_sub, Nat.mod_eq_of_lt (by omega)]
      omega
  unfold Clamps satSubu
  by_cases h : x - y ≤ x
  · simp only [h, if_true, and_allOnes, decide_true, Bool.not_true, Bool.false_eq_true, false_iff]
    rw [le_def] at h
    split at hs <;> omega
  · simp only [h, if_false, ofNat_eq_ofNat, BitVec.and_zero, toNat_zero, decide_false, Bool.not_false, true_iff]
    rw [le_def] at h
    split at hs <;> omega

end

/-- Every operation clamps the exact result to the range of its type, and tells whether it had to. -/
theorem saturating_exact (n : Nat) (x y z : BitVec (n + 1)) :
    Clamps (-2 ^ n) (2 ^ n - 1) (x.toInt + y.toInt) (satAdd x y).1.toInt (satAdd x y).2 ∧
    Clamps (-2 ^ n) (2 ^ n - 1) (x.toInt + y.toInt + z.toInt) (satAdd3 x y z).1.toInt (satAdd3 x y z).2 ∧
    Clamps (-2 ^ n) (2 ^ n - 1) (x.toInt - y.toInt) (satSub x y).1.toInt (satSub x y).2 ∧
    Clamps 0 (2 ^ (n + 1) - 1) (x.toNat + y.toNat) (satAddu x y).1.toNat (satAddu x y).2 ∧
    Clamps 0 (2 ^ (n + 1) - 1) (x.toNat - y.toNat) (satSubu x y).1.toNat (satSubu x y).2 :=
  ⟨satAdd_clamps x y, satAdd3_clamps x y z, satSub_clamps x y, satAddu_clamps x y, satSubu_clamps x y⟩

def xperm (rs1 rs2 : BitVec 64) (szLog2 len : Nat) : BitVec 64 :=
  let sz := 1 <<< szLog2
  let mask := (1 : BitVec 64) <<< sz - 1
  (List.range (len / sz)).foldl (fun r k =>
    let pos := ((rs2 >>> (sz * k)) &&& mask) <<< szLog2
    if pos.toNat < len then r ||| ((rs1 >>> pos.toNat) &&& mask) <<< (sz * k) else r) 0

theorem getLsbD_xperm {w n p s sz : Nat} (rs1 rs2 : BitVec w) (hz : 1 <<< s = sz) (hw : w = sz * n) (hm : w ≤ 64)
    (hs : s < 4) (hp : p < w) :
    (xperm (rs1.signExtend 64) (rs2.signExtend 64) s w).getLsbD p = crossed sz rs1 rs2.toNat p := by
  have hpos := Nat.two_pow_pos s
  have h8 : 2 ^ s ≤ 2 ^ 3 := Nat.pow_le_pow_right (by decide) (by omega)
  have hsz := Nat.one_shiftLeft s
  have hd : w / sz = n := by rw [hw, Nat.mul_div_cancel_left _ (by omega)]
  have hend {e : Nat} (h : e < n) : sz * e + sz ≤ w := by
    rw [hw]
    exact Nat.mul_le_mul_left sz h
  have hlow {x : BitVec w} {i : Nat} (hi : i < w) : (x.signExtend 64).getLsbD i = x.getLsbD i := by
    rw [getLsbD_signExtend]
    simp [hi, show i < 64 by omega]
  rw [xperm, hz]
  dsimp only
  rw [hd, ← any_lanes (n := n) (by omega) (by omega)]
  apply getLsbD_foldl_or
  intro r k hk
  have hk := hend (List.mem_range.mp hk)
  have he : (rs2.signExtend 64).toNat >>> (sz * k) % 2 ^ sz = rs2.toNat >>> (sz * k) % 2 ^ sz :=
    lane_congr fun i hi => hlow (by omega)
  have hb : 2 ^ sz ≤ 2 ^ 8 := Nat.pow_le_pow_right (by decide) (by omega)
  have hpo : ((((rs2.signExtend 64) >>> (sz * k)) &&& ((1 : BitVec 64) <<< sz - 1)) <<< s).toNat =
      sz * (rs2.toNat >>> (sz * k) % 2 ^ sz) := by
    have hlt : sz * (rs2.toNat >>> (sz * k) % 2 ^ sz) ≤ 8 * 256 := Nat.mul_le_mul (by omega) (by omega)
    rw [shifted_and_mask _ _ (by omega), he, toNat_shiftLeft, toNat_ofNat, Nat.shiftLeft_eq, ← hsz, hz, Nat.mod_mul_mod,
      Nat.mul_comm]
    exact Nat.mod_eq_of_lt (by omega)
  rw [hpo, laneBit]
  generalize rs2.toNat >>> (sz * k) % 2 ^ sz = e
  split <;> rename_i h
  · rw [getLsbD_or_shift (by omega), getLsbD_lane _ _ (by omega)]
    have hen : sz * e + sz ≤ w := hend (by rw [hw] at h; exact Nat.lt_of_mul_lt_mul_left h)
    by_cases hq : p - sz * k < sz
    · rw [hlow (by omega)]
    · simp [hq]
  · rw [getLsbD_of_ge rs1 _ (by omega), Bool.and_false, Bool.and_false, Bool.or_false]

end RiscvEmulators.Spike.Arith
