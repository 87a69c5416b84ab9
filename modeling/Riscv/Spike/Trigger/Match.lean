import Riscv.Spike.Trigger.Model
import Riscv.Word.Align

namespace RiscvEmulators.Spike.Trigger
open Word BitVec

def cto (val : W64) : Nat := trailingOnes 64 val.toNat

/-- `~((1 << n) - 1)`. The arithmetic is that of `int`: a shift by 32 or more and the overflow of `INT_MIN - 1` have no
  meaning. -/
def napotMask (n : Nat) : Option W64 :=
  if n < 31 then some ((~~~(((1 : BitVec 32) <<< n) - 1)).signExtend 64) else none

def simpleMatch (xlen : Nat) (match_ : Match) (tdata2 value : W64) : Option Bool :=
  let value := value &&& BitVec.allOnes 64 >>> (64 - xlen)
  let half := (1 : W64) <<< (xlen / 2) - 1
  match match_ with
  | .equal => some (value == tdata2)
  | .napot => (napotMask (cto tdata2 + 1)).map fun mask => value &&& mask == tdata2 &&& mask
  | .ge => some (decide (tdata2 ≤ value))
  | .lt => some (decide (value < tdata2))
  | .maskLow => some ((value &&& half) &&& (tdata2 >>> (xlen / 2)) == tdata2 &&& half)
  | .maskHigh => some ((value >>> (xlen / 2)) &&& (tdata2 >>> (xlen / 2)) == tdata2 &&& half)

/-- The address is in the naturally aligned range that `tdata2` encodes. -/
def InRange (xlen : Nat) (tdata2 value : W64) : Prop :=
  ∀ i < xlen, cto tdata2 < i → value.getLsbD i = tdata2.getLsbD i

instance (xlen : Nat) (tdata2 value : W64) : Decidable (InRange xlen tdata2 value) :=
  inferInstanceAs (Decidable (∀ i < xlen, _))

variable {n i : Nat}

theorem getLsbD_napotMask (hn : n < 31) (hi : i < 64) :
    ((~~~(((1 : BitVec 32) <<< n) - 1)).signExtend 64).getLsbD i = decide (n ≤ i) := by
  have hb (j : Nat) (hj : j < 32) : (~~~(((1 : BitVec 32) <<< n) - 1)).getLsbD j = decide (n ≤ j) := by
    rw [getLsbD_not, ← testBit_toNat, toNat_low_mask (by omega), Nat.testBit_two_pow_sub_one]
    simp only [hj, decide_true, Bool.true_and, ← decide_not, Nat.not_lt]
  rw [getLsbD_signExtend, decide_eq_true hi]
  split
  · exact hb i ‹_›
  · rw [msb_eq_getLsbD_last, hb 31 (by decide)]
    have hl : n ≤ i := by omega
    have hm : n ≤ 31 := by omega
    simp [hl, hm]

theorem and_napotMask_eq_iff (hn : n < 31) (x y : W64) :
    x &&& (~~~(((1 : BitVec 32) <<< n) - 1)).signExtend 64 = y &&& (~~~(((1 : BitVec 32) <<< n) - 1)).signExtend 64 ↔
      ∀ i < 64, n ≤ i → x.getLsbD i = y.getLsbD i := by
  constructor
  · intro h i hi hl
    have hb := congrArg (BitVec.getLsbD · i) h
    simpa only [getLsbD_and, getLsbD_napotMask hn hi, decide_eq_true hl, Bool.and_true] using hb
  · intro h
    apply eq_of_getLsbD_eq
    intro i hi
    rw [getLsbD_and, getLsbD_and, getLsbD_napotMask hn hi]
    by_cases hl : n ≤ i
    · rw [h i hi hl]
    · simp [hl]

theorem agrees_iff_inRange (isa : Isa) {tdata2 : W64} (hc : cto tdata2 < 30) (value : W64) :
    (∀ i < 64, cto tdata2 + 1 ≤ i → (value &&& BitVec.allOnes 64 >>> (64 - isa.xlen)).getLsbD i = tdata2.getLsbD i) ↔
      InRange isa.xlen tdata2 value ∧ tdata2 >>> isa.xlen = 0 := by
  have hx : 32 ≤ isa.xlen ∧ isa.xlen ≤ 64 := by
    unfold Isa.xlen
    cases isa.rv64 <;> decide
  have hv (i : Nat) : (value &&& BitVec.allOnes 64 >>> (64 - isa.xlen)).getLsbD i =
      (value.getLsbD i && decide (i < isa.xlen)) := by
    rw [getLsbD_and, getLsbD_ushiftRight, getLsbD_allOnes]
    congr 2
    apply propext
    omega
  simp only [hv]
  constructor
  · intro h
    constructor
    · intro i hi hl
      simpa [hi] using h i (by omega) hl
    · apply eq_of_getLsbD_eq
      intro i hi
      by_cases hb : isa.xlen + i < 64
      · simpa [show ¬isa.xlen + i < isa.xlen by omega] using (h _ hb (by omega)).symm
      · simp [getLsbD_of_ge tdata2 _ (Nat.not_lt.mp hb)]
  · rintro ⟨hr, hz⟩ i hi hl
    by_cases hb : i < isa.xlen
    · simpa [hb] using hr i hb hl
    · have hh := congrArg (BitVec.getLsbD · (i - isa.xlen)) hz
      rw [getLsbD_ushiftRight, Nat.add_sub_cancel' (by omega)] at hh
      simpa [hb] using hh.symm

/-- A match is right exactly if the mask fits in an `int`, unless the address is in the range and `tdata2` has bits above
  XLEN, which no write through `put_csr` leaves there. -/
theorem simpleMatch_napot_iff (isa : Isa) (tdata2 value : W64) :
    simpleMatch isa.xlen .napot tdata2 value = some (decide (InRange isa.xlen tdata2 value)) ↔
      cto tdata2 < 30 ∧ (InRange isa.xlen tdata2 value → tdata2 >>> isa.xlen = 0) := by
  by_cases small : cto tdata2 < 30
  · have shift : cto tdata2 + 1 < 31 := by omega
    have agrees := (and_napotMask_eq_iff shift _ tdata2).trans (agrees_iff_inRange isa small value)
    simp only [simpleMatch, napotMask, if_pos shift, Option.map_some, Option.some.injEq, Bool.beq_eq_decide_eq,
      decide_eq_decide, agrees, small, true_and]
    exact and_iff_left_iff_imp
  · have shift : ¬cto tdata2 + 1 < 31 := by omega
    simp [simpleMatch, napotMask, if_neg shift, small]

theorem napot_range_missed : InRange 64 0x7fffffff 0 ∧ simpleMatch 64 .napot 0x7fffffff 0 = none := by
  decide +kernel

end RiscvEmulators.Spike.Trigger
