import Riscv.Transition.Loop
import Riscv.Word.Product

namespace RiscvEmulators.Rvvm
open BitVec Word Transition
section
variable {w : Nat} {a b : BitVec w}

/-- `do { if (b & 1) ret ^= a; b >>= 1; } while ((a <<= 1));` -/
def clmulTurn : BitVec w × BitVec w × BitVec w → Transition.Turn (BitVec w × BitVec w × BitVec w) (Option (BitVec w))
  | (a, b, ret) =>
    let ret := if b &&& 1 ≠ 0 then ret ^^^ a else ret
    if a <<< 1 = 0 then .done (some ret) else .next (a <<< 1, b >>> 1, ret)

/-- `if (b & 1) ret ^= (a >> i);`, where a shift by the width or more has no meaning. -/
def addShifted (a b : BitVec w) (i : BitVec 32) (ret : BitVec w) : Option (BitVec w) :=
  if b &&& 1 ≠ 0 then if i.toNat < w then some (ret ^^^ (a >>> i.toNat)) else none else some ret

/-- A round of `bit_clmulr`, and of `bit_clmulh`, which moves `b` by `lead` before it looks at it. -/
def clmulShiftTurn (lead : Nat) (a : BitVec w) :
    BitVec w × BitVec 32 × BitVec w → Transition.Turn (BitVec w × BitVec 32 × BitVec w) (Option (BitVec w))
  | (b, i, ret) =>
    match addShifted a (b >>> lead) i ret with
    | none => .done none
    | some ret => if b >>> 1 = 0 then .done (some ret) else .next (b >>> 1, i - 1, ret)

def bitClmulShift (lead : Nat) (a b : BitVec w) : Option (BitVec w) :=
  (iterate (clmulShiftTurn lead a) w (b, BitVec.ofNat 32 (w - 1), 0)).join

def bitClmul (a b : BitVec w) : Option (BitVec w) := (iterate clmulTurn w (a, b, 0)).join
def bitClmulh : BitVec w → BitVec w → Option (BitVec w) := bitClmulShift 1
def bitClmulr : BitVec w → BitVec w → Option (BitVec w) := bitClmulShift 0

theorem odd_iff (hw : 0 < w) (i : Nat) : b >>> i &&& 1 ≠ 0 ↔ b.getLsbD i := by
  have h := and_one_eq_setWidth_ofBool_getLsbD (x := b >>> i)
  rw [getLsbD_ushiftRight, Nat.add_zero] at h
  rw [ofNat_eq_ofNat, ofNat_eq_ofNat, h, ne_eq, ← toNat_inj]
  cases b.getLsbD i <;> simp [Nat.one_mod_two_pow hw]

theorem addShifted_eq (hw : w ≤ 64) {i : Nat} (hi : i < w) (k : Nat) (ret : BitVec w) :
    addShifted a (b >>> k) (BitVec.ofNat 32 (w - 1) - BitVec.ofNat 32 i) ret =
      some (if b.getLsbD k then ret ^^^ (a >>> (w - 1 - i)) else ret) := by
  have h : (BitVec.ofNat 32 (w - 1) - BitVec.ofNat 32 i).toNat = w - 1 - i := by
    simp only [toNat_sub, toNat_ofNat]
    omega
  have hl : w - 1 - i < w := by omega
  simp only [addShifted, h, if_pos hl, odd_iff (Nat.zero_lt_of_lt hi), apply_ite some]

theorem bitClmul_eq (hw : 0 < w) : bitClmul a b = some (xorSum (fun k => a <<< k) b w) := by
  let f (k : Nat) := a <<< k
  obtain ⟨m, hm, hs, hr⟩ := iterate_counted (t := clmulTurn) (fun i => (f i, b >>> i, xorSum f b i))
    (fun i => some (xorSum f b i)) (f · = 0) (n := w)
    (fun i _ => by simp only [clmulTurn, odd_iff hw, xorSum, f, shiftLeft_add, shiftRight_add]) (by simp [f]) hw
  have hc (k : Nat) (hk : m ≤ k) (_ : b.getLsbD k) : f k = 0 := by
    have h : f k = f m <<< (k - m) := by
      rw [← shiftLeft_add, Nat.add_sub_cancel' hk]
    simp [h, hs]
  rw [bitClmul, xorSum_of_clear hm hc]
  simpa [xorSum, f] using congrArg Option.join hr

theorem bitClmulShift_eq {l : Nat} (hl : l = 0 ∨ l = 1) (hw : 0 < w) (hb : w ≤ 64) :
    bitClmulShift l a b = some (xorSum (fun k => a >>> (w - 1 + l - k)) b w) := by
  let f (k : Nat) := a >>> (w - 1 + l - k)
  have h0 : xorSum f b l = 0 := by
    rcases hl with rfl | rfl
    · rfl
    · simp [xorSum, f, Nat.sub_add_cancel hw, ushiftRight_eq_zero (Nat.le_refl w)]
  obtain ⟨m, hm, hs, hr⟩ := iterate_counted (t := clmulShiftTurn l a)
    (fun i => (b >>> i, BitVec.ofNat 32 (w - 1) - BitVec.ofNat 32 i, xorSum f b (i + l)))
    (fun i => some (xorSum f b (i + l))) (b >>> · = 0) (n := w)
    (fun i hi => by
      have hi' : w - 1 - i = w - 1 + l - (i + l) := by omega
      rw [clmulShiftTurn, ← shiftRight_add, addShifted_eq hb hi, hi', ← shiftRight_add, BitVec.sub_sub,
        Nat.add_right_comm i 1 l, BitVec.ofNat_add]
      rfl)
    (ushiftRight_eq_zero (Nat.le_refl w)) hw
  have hc (k : Nat) (hk : m ≤ k) (hb : b.getLsbD k) : f k = 0 := by
    have hz : (b >>> m).getLsbD (k - m) := by
      rwa [getLsbD_ushiftRight, Nat.add_sub_cancel' hk]
    simp [hs] at hz
  rw [bitClmulShift, xorSum_of_clear hm hc, ← xorSum_of_clear (Nat.le_add_right m l) hc]
  simpa [h0] using congrArg Option.join hr

theorem gf2_shifted (l p : Nat) : gf2 ((xorSum (fun k => a >>> (w - 1 + l - k)) b w).getLsbD p) =
    (poly a * poly b).coeff (w - 1 + l + p) := by
  apply gf2_xorSum_product
  intro k hk
  rw [getLsbD_ushiftRight, decide_eq_true (by omega), Bool.true_and]
  congr 1
  omega

/-- The three results are parts of one product of polynomials. -/
def Products (a b : BitVec w) (low high reversed : Option (BitVec w)) : Prop :=
  ∃ l h r, low = some l ∧ high = some h ∧ reversed = some r ∧ ∀ p < w,
    gf2 (l.getLsbD p) = (poly a * poly b).coeff p ∧ gf2 (h.getLsbD p) = (poly a * poly b).coeff (w + p) ∧
      gf2 (r.getLsbD p) = (poly a * poly b).coeff (w - 1 + p)

theorem bitClmul_products (hw : 0 < w) (hb : w ≤ 64) (a b : BitVec w) :
    Products a b (bitClmul a b) (bitClmulh a b) (bitClmulr a b) := by
  refine ⟨_, _, _, bitClmul_eq hw, bitClmulShift_eq (.inr rfl) hw hb, bitClmulShift_eq (.inl rfl) hw hb, ?_⟩
  intro p hp
  refine ⟨gf2_xorSum_product fun k hk => ?_, ?_, gf2_shifted 0 p⟩
  · rw [getLsbD_shiftLeft, decide_eq_true hp, Bool.true_and, ← decide_not]
    simp only [Nat.not_lt]
  · rw [gf2_shifted, Nat.sub_add_cancel hw]

end

def bitClmul32 : BitVec 32 → BitVec 32 → Option (BitVec 32) := bitClmul
def bitClmul64 : BitVec 64 → BitVec 64 → Option (BitVec 64) := bitClmul
def bitClmulh32 : BitVec 32 → BitVec 32 → Option (BitVec 32) := bitClmulh
def bitClmulh64 : BitVec 64 → BitVec 64 → Option (BitVec 64) := bitClmulh
def bitClmulr32 : BitVec 32 → BitVec 32 → Option (BitVec 32) := bitClmulr
def bitClmulr64 : BitVec 64 → BitVec 64 → Option (BitVec 64) := bitClmulr

theorem carryless_products :
    (∀ a b, Products a b (bitClmul32 a b) (bitClmulh32 a b) (bitClmulr32 a b)) ∧
      ∀ a b, Products a b (bitClmul64 a b) (bitClmulh64 a b) (bitClmulr64 a b) :=
  ⟨bitClmul_products (by decide) (by decide), bitClmul_products (by decide) (by decide)⟩

end RiscvEmulators.Rvvm
