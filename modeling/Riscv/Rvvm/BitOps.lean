import Riscv.Rvvm.Isa.Hart
import Riscv.Rvvm.Jit.Machine
import Riscv.Rvvm.Mmu.Fill
import Riscv.Spike.Arith
import Mathlib.Tactic.Linarith

namespace RiscvEmulators.Rvvm.BitOps
open BitVec Word Spike.Arith Jit Isa

section

def evalMax (x y : W64) : W64 := if y < x then x else y

/-- The number of cells of `hashmap_resize`, of bytes that `pci_assign_mmio_addr` reserves and of bytes that the bitmap of
  `rvjit_init_memtracking` covers. -/
def hashmapCells (builtin : Bool) (size : W64) : W64 := bitNextPow2 builtin (evalMax size 16)
def pciBarWindow (builtin : Bool) (size : W64) : W64 := bitNextPow2 builtin (evalMax size 0x1000)
def trackedBytes (builtin : Bool) (size : W64) : Nat := (bitNextPow2 builtin (Heap.pageUnits size)).toNat * 2 ^ 17

def LeastPower (n r : Nat) : Prop := n ≤ r ∧ ∃ k, r = 2 ^ k ∧ ∀ j, n ≤ 2 ^ j → k ≤ j

variable {b : Bool} {val : W64}

theorem bitNextPow2_least (hz : val ≠ 0) (hs : val.toNat ≤ 2 ^ 63) (h : b = false ∨ val &&& (val - 1) = 0) :
    LeastPower val.toNat (bitNextPow2 b val).toNat := by
  obtain ⟨k, hm, hb, hl⟩ := bitNextPow2_mask h
  have hk : k ≤ 63 := hl hz 63 hs
  have hp : 2 ^ k ≤ 2 ^ 63 := Nat.pow_le_pow_right (by decide) hk
  have h0 := Nat.two_pow_pos k
  have hr : (bitNextPow2 b val).toNat = 2 ^ k := by
    rw [← BitVec.sub_add_cancel (bitNextPow2 b val) 1, toNat_add, hm]
    simp
    omega
  rw [hr]
  exact ⟨hb, k, rfl, hl hz⟩

theorem le_bitNextPow2_iff (hz : val ≠ 0) (hs : val.toNat ≤ 2 ^ 63) :
    val.toNat ≤ (bitNextPow2 b val).toNat ↔ b = false ∨ ∃ k, val.toNat = 2 ^ k := by
  rw [← (and_pred_eq_zero_iff hz).2]
  constructor
  · intro h
    by_contra hn
    have hn : b ∧ val &&& (val - 1) ≠ 0 := by simpa using hn
    have hp : val.toNat ≠ 0 := fun e => hz (eq_of_toNat_eq e)
    have hb : val.toNat.log2 < 64 := (Nat.log2_lt hp).mpr val.isLt
    have hr : (bitNextPow2 b val).toNat = 2 ^ val.toNat.log2 := by
      rw [bitNextPow2, if_neg hn.2, if_pos hn.1]
      exact toNat_twoPow_of_lt hb
    rw [hr] at h
    exact hn.2 ((and_pred_eq_zero_iff hz).2.mpr ⟨_, Nat.le_antisymm h (Nat.log2_self_le hp)⟩)
  · intro h
    exact (bitNextPow2_least hz hs h).1

theorem le_nextPow2_max_iff (hz : val ≠ 0) (hs : val.toNat ≤ 2 ^ 63) {least : W64} (hp : least &&& (least - 1) = 0) :
    val.toNat ≤ (bitNextPow2 b (evalMax val least)).toNat ↔
      b = false ∨ val.toNat ≤ least.toNat ∨ ∃ k, val.toNat = 2 ^ k := by
  have hl := le_bitNextPow2_iff (b := b) hz hs
  unfold evalMax
  split <;> rename_i below
  · rw [hl]
    simp [Nat.not_le.mpr below]
  · rw [bitNextPow2, if_pos hp]
    simp [Nat.le_of_not_lt below]

/-- The build with the bit scan rounds down: its sizes suffice for powers of two only. -/
theorem next_pow2_least_iff (builtin : Bool) (val : W64) (positive : 0 < val.toNat) (fits : val.toNat ≤ 2 ^ 63) :
    (LeastPower val.toNat (bitNextPow2 builtin val).toNat ↔ builtin = false ∨ ∃ k, val.toNat = 2 ^ k) ∧
    (val.toNat ≤ (hashmapCells builtin val).toNat ↔ builtin = false ∨ val.toNat ≤ 16 ∨ ∃ k, val.toNat = 2 ^ k) ∧
    (val.toNat ≤ (pciBarWindow builtin val).toNat ↔ builtin = false ∨ val.toNat ≤ 0x1000 ∨ ∃ k, val.toNat = 2 ^ k) ∧
    (val.toNat ≤ trackedBytes builtin val ↔ builtin = false ∨ ∃ k, (val.toNat + 0x1FFFF) / 2 ^ 17 = 2 ^ k) := by
  have nonzero : val ≠ 0 := by
    intro h
    rw [h] at positive
    exact absurd positive (by decide)
  have rounds := le_bitNextPow2_iff (b := builtin) nonzero fits
  refine ⟨⟨fun h => rounds.mp h.1, fun h => bitNextPow2_least nonzero fits ?_⟩,
    le_nextPow2_max_iff nonzero fits (by decide), le_nextPow2_max_iff nonzero fits (by decide), ?_⟩
  · rwa [(and_pred_eq_zero_iff nonzero).2]
  · have units : (Heap.pageUnits val).toNat = (val.toNat + 0x1FFFF) / 2 ^ 17 := by
      rw [Heap.pageUnits, toNat_ushiftRight, toNat_add, Nat.shiftRight_eq_div_pow]
      simp
      omega
    have used : Heap.pageUnits val ≠ 0 := by
      intro h
      rw [h] at units
      simp at units
      omega
    rw [← units, ← le_bitNextPow2_iff used (by omega), trackedBytes]
    omega

theorem next_pow2_least_iff_four : LeastPower 4 (bitNextPow2 true 4).toNat :=
  (next_pow2_least_iff true 4 (by decide) (by decide)).1.mpr (.inr ⟨2, rfl⟩)

theorem next_pow2_rounds_down : bitNextPow2 true 3 = 2 ∧ ¬LeastPower 3 (bitNextPow2 true 3).toNat ∧
    hashmapCells true 24 = 16 ∧ pciBarWindow true 0x1800 = 0x1000 ∧ trackedBytes true 0x60000 = 0x40000 := by
  have two : bitNextPow2 true 3 = 2 := by decide +kernel
  refine ⟨two, fun least => ?_, by decide +kernel, by decide +kernel, by decide +kernel⟩
  rw [two] at least
  exact absurd least.1 (by decide)

end

section

def highWord (aHi bHi : W64) (halve : W64 → W64) (a b : W64) : W64 :=
  let loLo := low a * low b
  let hiLo := aHi * low b
  let loHi := low a * bHi
  let hiHi := aHi * bHi
  let cross := halve loLo + low hiLo + loHi
  halve hiLo + cross >>> 32 + hiHi

variable (a b : W64)

def mulhUint64 : W64 := highWord (a.sshiftRight 32) (b.sshiftRight 32) (·.sshiftRight 32) a b
def mulhuUint64 : W64 := highWord (a >>> 32) (b >>> 32) (· >>> 32) a b
def mulhsuUint64 : W64 := highWord (a.sshiftRight 32) (b >>> 32) (·.sshiftRight 32) a b

def lowInt (x : W64) : Int := x.toNat % 2 ^ 32

theorem low_ofInt (v : Int) : low (BitVec.ofInt 64 v) = BitVec.ofInt 64 (v % 2 ^ 32) := by
  apply eq_of_toNat_eq
  rw [toNat_low, toNat_ofInt, toNat_ofInt]
  omega

theorem ushiftRight_ofInt (v : Int) : BitVec.ofInt 64 v >>> 32 = BitVec.ofInt 64 (v % 2 ^ 64 / 2 ^ 32) := by
  apply eq_of_toNat_eq
  rw [toNat_high, toNat_ofInt, toNat_ofInt]
  omega

theorem sshiftRight_ofInt (v : Int) :
    (BitVec.ofInt 64 v).sshiftRight 32 = BitVec.ofInt 64 (v.bmod (2 ^ 64) / 2 ^ 32) := by
  apply eq_of_toInt_eq
  rw [toInt_sshiftRight, toInt_ofInt, toInt_ofInt, Int.shiftRight_eq_div_pow]
  simp only [Int.bmod_def]
  omega

theorem ofInt_eq_iff (v v' : Int) : BitVec.ofInt 64 v = BitVec.ofInt 64 v' ↔ v % 2 ^ 64 = v' % 2 ^ 64 := by
  rw [← toNat_inj, toNat_ofInt, toNat_ofInt]
  omega

theorem exact_high (ah al bh bl : Int) : (ah * 2 ^ 32 + al) * (bh * 2 ^ 32 + bl) / 2 ^ 64 =
    ah * bl / 2 ^ 32 + (al * bl / 2 ^ 32 + ah * bl % 2 ^ 32 + al * bh) / 2 ^ 32 + ah * bh := by
  have hp : (ah * 2 ^ 32 + al) * (bh * 2 ^ 32 + bl) =
      ah * bh * 2 ^ 64 + (ah * bl + al * bh) * 2 ^ 32 + al * bl := by ring
  omega

/-- The word is exact when the upper half of the middle sum survives. `g v` is the number that a word with the value `v`
  is read as when it is halved. -/
theorem highWord_exact_iff {aHi bHi : W64} (halve : W64 → W64) {ah bh : Int} {g : Int → Int}
    (ha : aHi = BitVec.ofInt 64 ah) (hb : bHi = BitVec.ofInt 64 bh)
    (hh : ∀ v, halve (BitVec.ofInt 64 v) = BitVec.ofInt 64 (g v / 2 ^ 32)) (hg : g (ah * lowInt b) = ah * lowInt b) :
    highWord aHi bHi halve a b = BitVec.ofInt 64 ((ah * 2 ^ 32 + lowInt a) * (bh * 2 ^ 32 + lowInt b) / 2 ^ 64) ↔
      ((g (lowInt a * lowInt b) / 2 ^ 32 + ah * lowInt b % 2 ^ 32 + lowInt a * bh) % 2 ^ 64 / 2 ^ 32 -
        (lowInt a * lowInt b / 2 ^ 32 + ah * lowInt b % 2 ^ 32 + lowInt a * bh) / 2 ^ 32) % 2 ^ 64 = 0 := by
  have hl (x : W64) : low x = BitVec.ofInt 64 (lowInt x) := by
    apply eq_of_toNat_eq
    rw [toNat_low, toNat_ofInt, lowInt]
    omega
  rw [highWord, exact_high, ha, hb, hl, hl, ← ofInt_mul, ← ofInt_mul, ← ofInt_mul, ← ofInt_mul, hh, hh, low_ofInt,
    ← ofInt_add, ← ofInt_add, ushiftRight_ofInt, ← ofInt_add, ← ofInt_add, ofInt_eq_iff]
  omega

theorem high_ofNat : a >>> 32 = BitVec.ofInt 64 (a.toNat / 2 ^ 32) := by
  apply eq_of_toNat_eq
  rw [toNat_high, toNat_ofInt]
  omega

theorem high_ofInt : a.sshiftRight 32 = BitVec.ofInt 64 (a.toInt / 2 ^ 32) := by
  have h := a.le_two_mul_toInt
  have k := a.two_mul_toInt_lt
  conv_lhs => rw [← BitVec.ofInt_toInt (x := a)]
  rw [sshiftRight_ofInt, Int.bmod_eq_of_le_mul_two (by omega) (by omega)]

theorem half_mul {x y : Int} (hx : 0 ≤ x) (hx' : x < 2 ^ 32) (hy : 0 ≤ y) (hy' : y < 2 ^ 32) :
    0 ≤ x * y ∧ x * y ≤ (2 ^ 32 - 1) * (2 ^ 32 - 1) := by
  constructor <;> nlinarith

theorem signed_half_mul {x y : Int} (hx : -2 ^ 31 ≤ x) (hx' : x < 2 ^ 31) (hy : 0 ≤ y) (hy' : y < 2 ^ 32) :
    -2 ^ 63 ≤ x * y ∧ x * y < 2 ^ 63 := by
  constructor <;> nlinarith

theorem lowInt_bounds : 0 ≤ lowInt a ∧ lowInt a < 2 ^ 32 := by
  unfold lowInt
  omega

theorem toInt_high :
    a.toInt / 2 ^ 32 * 2 ^ 32 + lowInt a = a.toInt ∧ -2 ^ 31 ≤ a.toInt / 2 ^ 32 ∧ a.toInt / 2 ^ 32 < 2 ^ 31 := by
  rw [toInt_eq_toNat_cond, lowInt]
  split <;> omega

theorem toNat_halves :
    (a.toNat : Int) / 2 ^ 32 * 2 ^ 32 + lowInt a = a.toNat ∧ 0 ≤ (a.toNat : Int) / 2 ^ 32 ∧ (a.toNat : Int) / 2 ^ 32 < 2 ^ 32 := by
  rw [lowInt]
  omega

theorem wide_fallbacks_exact_iff (a b : W64) :
    mulhuUint64 a b = BitVec.ofInt 64 (a.toNat * b.toNat / 2 ^ 64) ∧
    (mulhUint64 a b = BitVec.ofInt 64 (a.toInt * b.toInt / 2 ^ 64) ↔ lowInt a * lowInt b < 2 ^ 63 ∧
      0 ≤ lowInt a * lowInt b / 2 ^ 32 + a.toInt / 2 ^ 32 * lowInt b % 2 ^ 32 + lowInt a * (b.toInt / 2 ^ 32)) ∧
    (mulhsuUint64 a b = BitVec.ofInt 64 (a.toInt * b.toNat / 2 ^ 64) ↔ lowInt a * lowInt b < 2 ^ 63) := by
  obtain ⟨ha0, ha1⟩ := lowInt_bounds a
  obtain ⟨hb0, hb1⟩ := lowInt_bounds b
  obtain ⟨hai, hai0, hai1⟩ := toInt_high a
  obtain ⟨hbi, hbi0, hbi1⟩ := toInt_high b
  obtain ⟨han, han0, han1⟩ := toNat_halves a
  obtain ⟨hbn, hbn0, hbn1⟩ := toNat_halves b
  have hll := half_mul ha0 ha1 hb0 hb1
  have hul := half_mul han0 han1 hb0 hb1
  have hlu := half_mul ha0 ha1 hbn0 hbn1
  have hsl := signed_half_mul hai0 hai1 hb0 hb1
  have hls := signed_half_mul hbi0 hbi1 ha0 ha1
  rw [Int.mul_comm] at hls
  have ht : ((a.toInt / 2 ^ 32 * lowInt b).bmod (2 ^ 64)) = a.toInt / 2 ^ 32 * lowInt b :=
    Int.bmod_eq_of_le_mul_two (by omega) (by omega)
  have hs : (lowInt a * lowInt b).bmod (2 ^ 64) =
      if lowInt a * lowInt b < 2 ^ 63 then lowInt a * lowInt b else lowInt a * lowInt b - 2 ^ 64 := by
    rw [Int.bmod_def]
    split <;> split <;> omega
  refine ⟨?_, ?_, ?_⟩
  · have h := highWord_exact_iff a b (· >>> 32) (high_ofNat a) (high_ofNat b) ushiftRight_ofInt
      (Int.emod_eq_of_lt (by omega) (by omega))
    rw [han, hbn] at h
    exact h.mpr (by omega)
  · have h := highWord_exact_iff a b (·.sshiftRight 32) (high_ofInt a) (high_ofInt b) sshiftRight_ofInt ht
    rw [hai, hbi, hs] at h
    rw [mulhUint64, h]
    split <;> omega
  · have h := highWord_exact_iff a b (·.sshiftRight 32) (high_ofInt a) (high_ofNat b) sshiftRight_ofInt ht
    rw [hai, hbn, hs] at h
    rw [mulhsuUint64, h]
    split <;> omega

theorem wide_fallbacks_wrong : mulhUint64 1 (-1) = 0xFFFFFFFF ∧ mulhUint64 0xFFFFFFFF 0xFFFFFFFF = 0xFFFFFFFF ∧
    mulhsuUint64 0xFFFFFFFF 0xFFFFFFFF = 0xFFFFFFFF ∧
    BitVec.ofInt 64 (BitVec.toInt (1 : W64) * BitVec.toInt (-1 : W64) / 2 ^ 64) = -1 ∧
    BitVec.ofInt 64 (BitVec.toInt (0xFFFFFFFF : W64) * (BitVec.toNat (0xFFFFFFFF : W64) : Int) / 2 ^ 64) = 0 := by
  decide +kernel

end

section

def riscvBitXperm4 (val lut : W64) : W64 :=
  (List.range 16).foldl (fun ret k =>
    ret ||| bitCut val (((lut >>> (4 * k)) &&& 0x0F) <<< 2).toNat 4 <<< (4 * k)) 0

/-- The loop advances by four bits here too. -/
def riscvBitXperm8 (val lut : W64) : W64 :=
  (List.range 16).foldl (fun ret k =>
    let idx := (lut >>> (4 * k)).setWidth 32
    if idx &&& 0xF8 = 0 then ret ||| bitCut val ((idx &&& 0x07) <<< 3).toNat 8 <<< (4 * k) else ret) 0

variable {p : Nat} (val lut : W64)

theorem getLsbD_riscvBitXperm4 (hp : p < 64) : (riscvBitXperm4 val lut).getLsbD p = crossed 4 val lut.toNat p := by
  rw [← any_lanes (n := 16) (by decide) (by omega)]
  apply getLsbD_foldl_or
  intro r k _
  have hl : (((lut >>> (4 * k)) &&& 0x0F) <<< 2).toNat = 4 * (lut.toNat >>> (4 * k) % 2 ^ 4) := by
    rw [show (0x0F : W64) = (1 : W64) <<< 4 - 1 by decide, shifted_and_mask _ _ (by decide), toNat_shiftLeft,
      toNat_ofNat]
    omega
  rw [hl, getLsbD_or_shift hp, bitCut_getLsbD (by omega), laneBit]

theorem byte_index : ∀ c : BitVec 8, (c.setWidth 32 &&& 0xF8 = 0 ↔ c.toNat < 8) ∧
    (c.toNat < 8 → ((c.setWidth 32 &&& 0x07) <<< 3).toNat = 8 * c.toNat) := by
  decide

theorem getLsbD_riscvBitXperm8 (hp : p < 64) : (riscvBitXperm8 val lut).getLsbD p =
    (crossed 8 val lut.toNat p || (decide (4 ≤ p) && crossed 8 val (lut.toNat >>> 4) (p - 4))) := by
  have hf : (riscvBitXperm8 val lut).getLsbD p = (List.range 16).any fun k =>
      decide (4 * k ≤ p) && laneBit 8 val (lut.toNat >>> (4 * k)) (p - 4 * k) := by
    apply getLsbD_foldl_or
    intro r k _
    obtain ⟨hz, hv⟩ := byte_index ((lut >>> (4 * k)).setWidth 8)
    have hm (m : BitVec 8) : (lut >>> (4 * k)).setWidth 32 &&& m.setWidth 32 =
        ((lut >>> (4 * k)).setWidth 8).setWidth 32 &&& m.setWidth 32 := by
      apply eq_of_getLsbD_eq
      intro i hi
      by_cases h : i < 8
      · simp [h]
      · simp [getLsbD_of_ge m i (by omega)]
    have h8 := hm 0xF8
    have h7 := hm 0x07
    change _ &&& 0xF8 = _ &&& 0xF8 at h8
    change _ &&& 0x07 = _ &&& 0x07 at h7
    have hc : ((lut >>> (4 * k)).setWidth 8).toNat = lut.toNat >>> (4 * k) % 2 ^ 8 := by
      rw [toNat_setWidth, toNat_ushiftRight]
    dsimp only
    rw [h8, h7]
    split <;> rename_i h <;> rw [hz] at h
    · rw [hv (hc ▸ h), hc, getLsbD_or_shift hp, bitCut_getLsbD (by omega), laneBit]
    · rw [laneBit, getLsbD_of_ge val _ (by omega), Bool.and_false, Bool.and_false, Bool.or_false]
  rw [hf, any_range_double _ 8]
  congr 1
  · rw [← any_lanes (by decide) (show p < 8 * 8 by omega)]
    simp only [← Nat.mul_assoc]
  · by_cases h : 4 ≤ p
    · rw [decide_eq_true h, ← any_lanes (by decide) (show p - 4 < 8 * 8 by omega)]
      congr
      funext j
      rw [show 4 * (2 * j + 1) = 4 + 8 * j by omega, Nat.shiftRight_add, Nat.sub_sub,
        show decide (4 + 8 * j ≤ p) = decide (8 * j ≤ p - 4) from decide_eq_decide.mpr (by omega)]
    · rw [decide_eq_false h, Bool.false_and, List.any_eq_false]
      intro j _
      rw [decide_eq_false (by omega)]
      exact Bool.false_ne_true

section
variable (x : Xlen) (rs1 rs2 r : x.Word)

/-- The instructions: RVVM widens the registers with zeros, Spike holds them extended by their sign. -/
def xperm4 : x.Word := (riscvBitXperm4 (rs1.setWidth 64) (rs2.setWidth 64)).setWidth x.bits
def xperm8 : x.Word := (riscvBitXperm8 (rs1.setWidth 64) (rs2.setWidth 64)).setWidth x.bits
def spikeXperm (szLog2 : Nat) : x.Word := (xperm (rs1.signExtend 64) (rs2.signExtend 64) szLog2 x.bits).setWidth x.bits
def Crossbar (size : Nat) : Prop := ∀ p < x.bits, r.getLsbD p = crossed size rs1 rs2.toNat p

end

/-- `xperm8` is right when the bytes that the odd nibbles of `rs2` name add nothing. -/
theorem crossbars_agree_iff (x : Xlen) (rs1 rs2 : x.Word) :
    Crossbar x rs1 rs2 (xperm4 x rs1 rs2) 4 ∧ Crossbar x rs1 rs2 (spikeXperm x rs1 rs2 2) 4 ∧
    Crossbar x rs1 rs2 (spikeXperm x rs1 rs2 3) 8 ∧
    (Crossbar x rs1 rs2 (xperm8 x rs1 rs2) 8 ↔
      ∀ p < x.bits, 4 ≤ p → crossed 8 rs1 (rs2.toNat >>> 4) (p - 4) → crossed 8 rs1 rs2.toNat p) := by
  have hx : x.bits ≤ 64 ∧ x.bits = 4 * (x.bits / 4) ∧ x.bits = 8 * (x.bits / 8) := by cases x <;> decide
  obtain ⟨hm, h4, h8⟩ := hx
  have hr : (rs2.setWidth 64).toNat = rs2.toNat := toNat_setWidth_of_le hm
  have hc (size y p : Nat) : crossed size (rs1.setWidth 64) y p = crossed size rs1 y p := by
    rw [crossed, laneBit, crossed, laneBit]
    generalize size * _ + _ = i
    by_cases h : i < 64
    · simp [h]
    · simp [getLsbD_of_ge rs1 i (by omega)]
  have hb {p : Nat} (hp : p < x.bits) : (xperm8 x rs1 rs2).getLsbD p =
      (crossed 8 rs1 rs2.toNat p || (decide (4 ≤ p) && crossed 8 rs1 (rs2.toNat >>> 4) (p - 4))) := by
    rw [xperm8, getLsbD_setWidth, getLsbD_riscvBitXperm8 _ _ (by omega), hr, hc, hc, decide_eq_true hp, Bool.true_and]
  refine ⟨fun p hp => ?_, fun p hp => ?_, fun p hp => ?_, fun h p hp hl ho => ?_, fun h p hp => ?_⟩
  · rw [xperm4, getLsbD_setWidth, getLsbD_riscvBitXperm4 _ _ (by omega), hr, hc, decide_eq_true hp, Bool.true_and]
  · rw [spikeXperm, getLsbD_setWidth, getLsbD_xperm rs1 rs2 (show 1 <<< 2 = 4 from rfl) h4 hm (by decide) hp,
      decide_eq_true hp, Bool.true_and]
  · rw [spikeXperm, getLsbD_setWidth, getLsbD_xperm rs1 rs2 (show 1 <<< 3 = 8 from rfl) h8 hm (by decide) hp,
      decide_eq_true hp, Bool.true_and]
  · rw [← h p hp, hb hp, ho, decide_eq_true hl, Bool.and_true, Bool.or_true]
  · rw [hb hp]
    cases ho : decide (4 ≤ p) && crossed 8 rs1 (rs2.toNat >>> 4) (p - 4) with
    | false => rw [Bool.or_false]
    | true =>
      obtain ⟨hl, ho⟩ := Bool.and_eq_true_iff.mp ho
      rw [h p hp (of_decide_eq_true hl) ho, Bool.true_or]

theorem xperm8_spreads : xperm8 .rv64 1 0 = 0x1111111111111111 ∧ spikeXperm .rv64 1 0 3 = 0x0101010101010101 ∧
    ¬Crossbar .rv64 1 0 (xperm8 .rv64 1 0) 8 := by
  refine ⟨by decide +kernel, by decide +kernel, fun h => ?_⟩
  exact absurd (h 4 (by decide)) (by decide +kernel)

end
end RiscvEmulators.Rvvm.BitOps
