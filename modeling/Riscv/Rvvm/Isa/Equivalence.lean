import Mathlib.Tactic.IntervalCases
import Riscv.Word.Gather
import Riscv.Rvvm.Isa.Hart

namespace RiscvEmulators.Rvvm.Isa
open Word BitVec Moves

/-! The compressed encodings of the specification. An immediate is a list of instruction bits, from its lowest bit. -/

abbrev addi4spnBits : List (Option Nat) :=
  [none, none, some 6, some 5, some 11, some 12, some 7, some 8, some 9, some 10]

abbrev lwBits : List (Option Nat) := [none, none, some 6, some 10, some 11, some 12, some 5]
abbrev ldBits : List (Option Nat) := [none, none, none, some 10, some 11, some 12, some 5, some 6]
abbrev lwspBits : List (Option Nat) := [none, none, some 4, some 5, some 6, some 12, some 2, some 3]
abbrev ldspBits : List (Option Nat) := [none, none, none, some 5, some 6, some 12, some 2, some 3, some 4]
abbrev swspBits : List (Option Nat) := [none, none, some 9, some 10, some 11, some 12, some 7, some 8]
abbrev sdspBits : List (Option Nat) := [none, none, none, some 10, some 11, some 12, some 7, some 8, some 9]

abbrev jumpBits : List (Option Nat) :=
  [none, some 3, some 4, some 5, some 11, some 2, some 7, some 6, some 9, some 10, some 8, some 12]

abbrev branchBits : List (Option Nat) := [none, some 3, some 4, some 10, some 11, some 2, some 5, some 6, some 12]

abbrev addi16spBits : List (Option Nat) :=
  [none, none, none, none, some 6, some 2, some 5, some 3, some 4, some 12]

abbrev aluBits : List (Option Nat) := [some 2, some 3, some 4, some 5, some 6, some 12]
def unsigned (places : List (Option Nat)) (c : BitVec 16) : BitVec 12 := gather 12 places c

def signed (places : List (Option Nat)) (c : BitVec 16) (w : Nat) : BitVec w :=
  (gather places.length places c).signExtend w

def popular (c : BitVec 16) (pos : Nat) : RegId := 1#2 ++ c.extractLsb' pos 3

def expandC0 (x : Xlen) (c : BitVec 16) : Option Instruction :=
  let rd := popular c 2
  let rs1 := popular c 7
  match (c.extractLsb' 13 3).toNat with
  | 0 => if unsigned addi4spnBits c = 0 then none else some (.addi rd 2 (unsigned addi4spnBits c))
  | 1 => some (.fld rd rs1 (unsigned ldBits c))
  | 2 => some (.lw rd rs1 (unsigned lwBits c))
  | 3 => some (if x = .rv64 then .ld rd rs1 (unsigned ldBits c) else .flw rd rs1 (unsigned lwBits c))
  | 5 => some (.fsd rd rs1 (unsigned ldBits c))
  | 6 => some (.sw rd rs1 (unsigned lwBits c))
  | 7 => some (if x = .rv64 then .sd rd rs1 (unsigned ldBits c) else .fsw rd rs1 (unsigned lwBits c))
  | _ => none

def shiftAmount (x : Xlen) (c : BitVec 16) : Option (BitVec 6) :=
  let shamt := gather 6 aluBits c
  if shamt = 0 ∨ (x = .rv32 ∧ 32 ≤ shamt.toNat) then none else some shamt

def expandAlu (x : Xlen) (c : BitVec 16) : Option Instruction :=
  let rd := popular c 7
  let rs2 := popular c 2
  match (c.extractLsb' 10 2).toNat with
  | 0 => (shiftAmount x c).map (.srli rd rd)
  | 1 => (shiftAmount x c).map (.srai rd rd)
  | 2 => some (.andi rd rd (signed aluBits c 12))
  | 3 =>
    match (c.extractLsb' 12 1).toNat, (c.extractLsb' 5 2).toNat with
    | 0, 0 => some (.sub rd rd rs2)
    | 0, 1 => some (.xor rd rd rs2)
    | 0, 2 => some (.or rd rd rs2)
    | 0, 3 => some (.and rd rd rs2)
    | 1, 0 => if x = .rv64 then some (.subw rd rd rs2) else none
    | 1, 1 => if x = .rv64 then some (.addw rd rd rs2) else none
    | _, _ => none
  | _ => none

def expandC1 (x : Xlen) (c : BitVec 16) : Option Instruction :=
  let rd := c.extractLsb' 7 5
  match (c.extractLsb' 13 3).toNat with
  | 0 =>
    if rd = 0 then if signed aluBits c 12 = 0 then some (.addi 0 0 0) else none
    else if signed aluBits c 12 = 0 then none
    else some (.addi rd rd (signed aluBits c 12))
  | 1 =>
    if x = .rv64 then if rd = 0 then none else some (.addiw rd rd (signed aluBits c 12))
    else some (.jal 1 (signed jumpBits c 21))
  | 2 => if rd = 0 then none else some (.addi rd 0 (signed aluBits c 12))
  | 3 =>
    if gather 6 aluBits c = 0 ∨ rd = 0 then none
    else if rd = 2 then some (.addi 2 2 (signed addi16spBits c 12))
    else some (.lui rd (signed aluBits c 20))
  | 4 => expandAlu x c
  | 5 => some (.jal 0 (signed jumpBits c 21))
  | 6 => some (.beq (popular c 7) 0 (signed branchBits c 13))
  | 7 => some (.bne (popular c 7) 0 (signed branchBits c 13))
  | _ => none

def expandC2 (x : Xlen) (c : BitVec 16) : Option Instruction :=
  let rd := c.extractLsb' 7 5
  let rs2 := c.extractLsb' 2 5
  match (c.extractLsb' 13 3).toNat with
  | 0 => if rd = 0 then none else (shiftAmount x c).map (.slli rd rd)
  | 1 => some (.fld rd 2 (unsigned ldspBits c))
  | 2 => if rd = 0 then none else some (.lw rd 2 (unsigned lwspBits c))
  | 3 =>
    if x = .rv64 then if rd = 0 then none else some (.ld rd 2 (unsigned ldspBits c))
    else some (.flw rd 2 (unsigned lwspBits c))
  | 4 =>
    match (c.extractLsb' 12 1).toNat with
    | 0 =>
      if rs2 = 0 then if rd = 0 then none else some (.jalr 0 rd 0)
      else if rd = 0 then none else some (.add rd 0 rs2)
    | 1 =>
      if rs2 = 0 then if rd = 0 then some .ebreak else some (.jalr 1 rd 0)
      else if rd = 0 then none else some (.add rd rd rs2)
    | _ => none
  | 5 => some (.fsd rs2 2 (unsigned sdspBits c))
  | 6 => some (.sw rs2 2 (unsigned swspBits c))
  | 7 => some (if x = .rv64 then .sd rs2 2 (unsigned sdspBits c) else .fsw rs2 2 (unsigned swspBits c))
  | _ => none

/-- The instruction that an encoding stands for; none for those that are reserved, hints or not compressed. -/
def expand (x : Xlen) (c : BitVec 16) : Option Instruction :=
  match (c.extractLsb' 0 2).toNat with
  | 0 => expandC0 x c
  | 1 => expandC1 x c
  | 2 => expandC2 x c
  | _ => none

section
variable (insn : BitVec 32)

theorem low_field {pos len : Nat} (hi : pos + len ≤ 16) :
    (insn.setWidth 16).extractLsb' pos len = insn.extractLsb' pos len := by
  apply eq_of_getLsbD_eq
  intro i hb
  simp [show pos + i < 16 by omega]

theorem popular_eq_regPrime {pos : Nat} (hi : pos + 3 ≤ 16) : popular (insn.setWidth 16) pos = regPrime insn pos := by
  have ht : ∀ f : BitVec 3, (1#2 ++ f : BitVec 5) = f.setWidth 5 + 8 := by decide
  rw [popular, low_field insn hi]
  exact ht _

def part (direction : Moves 32 → Nat → Moves 32) (amount : Nat) (bits : BitVec 32) : Moves 32 :=
  .mask (direction .whole amount) bits

def Low (places : List (Option Nat)) : Prop := ∀ place ∈ places, ∀ j ∈ place, j < 16
instance (places : List (Option Nat)) : Decidable (Low places) := by unfold Low; infer_instance

theorem unsigned_of_moves (m : Moves 32) {p : List (Option Nat)}
    (hc : ∀ i < 32, m.sources i = (p.getD i none).toList) (hl : Low p) :
    m.eval insn = gather 32 p (insn.setWidth 16) := by
  rw [eval_eq_gather hc, gather_low hl]

theorem decodeCAddi4spnImm_eq : decodeCAddi4spnImm insn = gather 32 addi4spnBits (insn.setWidth 16) :=
  unsigned_of_moves insn (.or (.or (.or (part .right 1 0x03C0) (part .right 2 0x0008)) (part .right 4 0x0004))
      (part .right 7 0x0030)) (by decide) (by decide)

theorem decodeCLwOff_eq : decodeCLwOff insn = gather 32 lwBits (insn.setWidth 16) :=
  unsigned_of_moves insn (.or (.or (part .left 1 0x40) (part .right 4 0x04)) (part .right 7 0x38)) (by decide) (by decide)

theorem decodeCLdOff_eq : decodeCLdOff insn = gather 32 ldBits (insn.setWidth 16) :=
  unsigned_of_moves insn (.or (part .left 1 0xC0) (part .right 7 0x38)) (by decide) (by decide)

theorem decodeCLwspOff_eq : decodeCLwspOff insn = gather 32 lwspBits (insn.setWidth 16) :=
  unsigned_of_moves insn (.or (.or (part .right 2 0x1C) (part .right 7 0x20)) (part .left 4 0xC0)) (by decide) (by decide)

theorem decodeCLdspOff_eq : decodeCLdspOff insn = gather 32 ldspBits (insn.setWidth 16) :=
  unsigned_of_moves insn (.or (.or (part .right 2 0x18) (part .right 7 0x20)) (part .left 4 0x1C0)) (by decide) (by decide)

theorem decodeCSwspOff_eq : decodeCSwspOff insn = gather 32 swspBits (insn.setWidth 16) :=
  unsigned_of_moves insn (.or (part .right 1 0xC0) (part .right 7 0x3C)) (by decide) (by decide)

theorem decodeCSdspOff_eq : decodeCSdspOff insn = gather 32 sdspBits (insn.setWidth 16) :=
  unsigned_of_moves insn (.or (part .right 1 0x1C0) (part .right 7 0x38)) (by decide) (by decide)

theorem signed_of_unsigned {imm : BitVec 32} {p : List (Option Nat)} {c : BitVec 16} {w : Nat}
    (ha : imm = gather 32 p c) (hn : w ≤ 32) (hl : p.length = w) : (imm.setWidth w).signExtend 32 = signed p c 32 := by
  subst hl
  rw [ha, gather_setWidth _ _ (.inl hn), signed]

theorem decodeCJalImm_eq : decodeCJalImm insn = signed jumpBits (insn.setWidth 16) 32 :=
  signed_of_unsigned (unsigned_of_moves insn
    (.or (.or (.or (.or (.or (part .right 1 0x0B40) (part .right 2 0x000E)) (part .right 7 0x0010))
      (part .left 1 0x0080)) (part .left 2 0x0400)) (part .left 3 0x0020))
    (by decide) (by decide)) (by decide) rfl

theorem decodeCBranchImm_eq : decodeCBranchImm insn = signed branchBits (insn.setWidth 16) 32 :=
  signed_of_unsigned (unsigned_of_moves insn
    (.or (.or (.or (.or (part .right 2 0x0006) (part .right 7 0x0018)) (part .left 3 0x0020))
      (part .left 1 0x00C0)) (part .right 4 0x0100))
    (by decide) (by decide)) (by decide) rfl

theorem decodeCAddi16spOff_eq : decodeCAddi16spOff insn = signed addi16spBits (insn.setWidth 16) 32 :=
  signed_of_unsigned (unsigned_of_moves insn
    (.or (.or (.or (.or (part .right 2 0x0010) (part .left 3 0x0020)) (part .left 1 0x0040))
      (part .left 4 0x0180)) (part .right 3 0x0200))
    (by decide) (by decide)) (by decide) rfl

theorem decodeCAluImm_eq : decodeCAluImm insn = signed aluBits (insn.setWidth 16) 32 := by
  have hp : eval insn (.or (.right (.left .whole 25) 1) (.left (.right .whole 12) 31)) =
      gather 32 (List.replicate 24 none ++ [some 0, some 1] ++ aluBits) insn := eval_eq_gather (by decide) insn
  have ha : ((insn <<< 25) >>> 1) ||| ((insn >>> 12) <<< 31) = _ := hp
  rw [decodeCAluImm, ha, gather_sshiftRight (by decide), signed, gather_low (by decide)]
  rfl

theorem decodeCLuiImm_eq : decodeCLuiImm insn = signed (List.replicate 12 none ++ aluBits) (insn.setWidth 16) 32 := by
  have hp : eval insn (.or (.left (.mask .whole 0x7C) 24) (.left (.right .whole 12) 31)) =
      gather 32 (List.replicate 26 none ++ aluBits) insn := eval_eq_gather (by decide) insn
  have ha : ((insn &&& 0x7C) <<< 24) ||| ((insn >>> 12) <<< 31) = _ := hp
  rw [decodeCLuiImm, ha, gather_sshiftRight (by decide), signed, gather_low (by decide)]
  rfl

theorem mask_zero_iff : insn &&& 0x107C = 0 ↔ gather 6 aluBits (insn.setWidth 16) = 0 := by
  have h : insn &&& 0x107C = gather 32 ([none, none, some 2, some 3, some 4, some 5, some 6] ++
      List.replicate 5 none ++ [some 12]) insn :=
    (eval_eq_gather (by decide) insn : eval insn (.mask .whole 0x107C) = _)
  rw [h, gather_eq_zero (by decide), gather_eq_zero (by decide)]
  simp

theorem op_fields : (insn &&& 0x1C60).toNat =
    (insn.extractLsb' 12 1).toNat * 4096 + (insn.extractLsb' 10 2).toNat * 1024 + (insn.extractLsb' 5 2).toNat * 32 := by
  have ht : ∀ (bit : BitVec 1) (h low : BitVec 2),
      ((bit ++ h ++ 0#3 ++ low ++ 0#5).setWidth 32).toNat = bit.toNat * 4096 + h.toNat * 1024 + low.toNat * 32 := by
    decide
  rw [← ht]
  congr 1
  apply eq_of_getLsbD_eq
  intro i hb
  simp only [getLsbD_setWidth, getLsbD_append]
  interval_cases i <;> simp
end

section
variable (c : BitVec 16)

variable {p : List (Option Nat)}

theorem signed_signExtend {w : Nat} (h : p.length ≤ w) (m : Nat) :
    (signed p c w).signExtend m = signed p c m := by
  rw [signed, signExtend_twice h, signed]

theorem signed_setWidth {w m : Nat} (hf : m ≤ w) :
    (signed p c w).setWidth m = signed p c m := by
  rw [signed, signed]
  apply eq_of_getLsbD_eq
  intro i hb
  rw [getLsbD_setWidth, getLsbD_signExtend, getLsbD_signExtend]
  simp [show i < w by omega]

theorem plus_unsigned {x : Xlen} (h : p.length < 12) (b : x.Word) :
    Hart.plus b (gather 32 p c) = b + (unsigned p c).signExtend x.bits := by
  rw [Hart.plus, unsigned, gather_signExtend h, gather_setWidth _ _ (.inr (by omega))]

theorem lui_imm : signed aluBits c 20 ++ (0 : BitVec 12) = signed (List.replicate 12 none ++ aluBits) c 32 := by
  have h : ∀ f : BitVec 6, f.signExtend 20 ++ (0 : BitVec 12) = (f ++ 0#12).signExtend 32 := by decide
  rw [signed, h]
  exact congrArg (BitVec.signExtend 32) (gather_shifted 12 aluBits c).symm

end

open Hart
variable {x : Xlen} {σ : Type} (platform : Platform x σ) (h : Hart x σ) (insn : BitVec 32)

theorem Hart.zeroX0_writeReg {d : x.Word} : (h.writeReg 0 d).zeroX0 = h.zeroX0 := by
  unfold zeroX0 writeReg
  congr 1
  funext o
  by_cases hz : o = 0#5 <;> simp [hz]

theorem Hart.retire_zeroX0 (length : x.Word) : (h.retire platform length).zeroX0 = h.zeroX0.retire platform length := by
  unfold retire zeroX0 writeReg writePc
  cases h.trap <;> rfl

def Hart.perform (h : Hart x σ) : Instruction → Hart x σ
  | .jalr rd rs1 _ =>
    -- The target is read after the link is written, and keeps its lowest bit.
    let linked := if rd = 0 then h else h.writeReg rd (h.pc + 2)
    linked.writePc (linked.readReg rs1 - 2)
  | .fsw rs2 rs1 off =>
    -- On the stack, with the offset of a load.
    h.emulateI platform 2 insn (.fsw rs2 rs1 (if rs1 = 2 then unsigned lwspBits (insn.setWidth 16) else off))
  | i => h.emulateI platform 2 insn i

section
variable {i : Instruction}

theorem regPrime_ne_two (pos : Nat) : regPrime insn pos ≠ 2 := by
  have ht : ∀ f : BitVec 3, f.setWidth 5 + 8 ≠ (2 : RegId) := by decide
  exact ht _

theorem emulateC0_expands (he : expandC0 x (insn.setWidth 16) = some i) :
    h.emulateC0 platform insn = h.perform platform insn i := by
  simp (disch := decide) only [expandC0, low_field, popular_eq_regPrime] at he
  unfold emulateC0 bits
  split at he
  all_goals rename_i hf
  · split at he
    · cases he
    · rename_i hn
      cases he
      have hi : decodeCAddi4spnImm insn ≠ 0 := by
        intro hz
        rw [decodeCAddi4spnImm_eq] at hz
        apply hn
        rw [unsigned, ← gather_setWidth _ _ (.inr (show addi4spnBits.length ≤ 32 by decide)), hz]
        rfl
      simp only [hf, if_pos hi]
      simp (disch := decide) only [decodeCAddi4spnImm_eq, plus_unsigned, perform, emulateI]
  · cases he
    simp (disch := decide) only [hf, decodeCLdOff_eq, plus_unsigned, perform, emulateI]
  · cases he
    simp (disch := decide) only [hf, decodeCLwOff_eq, plus_unsigned, perform, emulateI]
  · cases he
    by_cases hw : x = .rv64 <;>
      simp (disch := decide) only [hf, hw, ↓reduceIte, decodeCLwOff_eq, decodeCLdOff_eq, plus_unsigned,
        perform, emulateI]
  · cases he
    simp (disch := decide) only [hf, decodeCLdOff_eq, plus_unsigned, perform, emulateI]
  · cases he
    simp (disch := decide) only [hf, decodeCLwOff_eq, plus_unsigned, perform, emulateI]
  · cases he
    by_cases hw : x = .rv64 <;>
      simp (disch := decide) only [hf, hw, ↓reduceIte, decodeCLwOff_eq, decodeCLdOff_eq, plus_unsigned,
        regPrime_ne_two, perform, emulateI]
  · cases he

theorem decodeCShamt_eq {s : BitVec 6} (ha : shiftAmount x (insn.setWidth 16) = some s) :
    decodeCShamt insn x = s.toNat := by
  have hf : gather 6 aluBits (insn.setWidth 16) = insn.extractLsb' 12 1 ++ insn.extractLsb' 2 5 := by
    apply eq_of_getLsbD_eq
    intro i hb
    rw [getLsbD_gather, getLsbD_append, getLsbD_extractLsb']
    interval_cases i <;> simp
  simp only [shiftAmount, hf] at ha
  split at ha
  · cases ha
  · rename_i legal
    cases ha
    rw [toNat_append]
    cases x with
    | rv64 => rw [decodeCShamt, Nat.or_comm]
    | rv32 =>
      have hs : (insn.extractLsb' 12 1).toNat = 0 := by
        have low := (insn.extractLsb' 2 5).isLt
        have ha : ¬ 32 ≤ (insn.extractLsb' 12 1 ++ insn.extractLsb' 2 5).toNat :=
          fun hl => legal (.inr ⟨rfl, hl⟩)
        rw [toNat_append, ← Nat.shiftLeft_add_eq_or_of_lt low] at ha
        omega
      simp [decodeCShamt, hs]

theorem setWidth_sub_word (hw : x = .rv64) (a b : x.Word) : (a - b).setWidth 32 = a.setWidth 32 - b.setWidth 32 := by
  subst hw
  rw [BitVec.sub_eq_add_neg, setWidth_add _ _ (by decide), setWidth_neg_of_le (by decide),
    ← BitVec.sub_eq_add_neg]

theorem setWidth_add_word (hw : x = .rv64) (a b : x.Word) : (a + b).setWidth 32 = a.setWidth 32 + b.setWidth 32 := by
  subst hw
  exact setWidth_add a b (by decide)

theorem emulateC1Alu_expands (he : expandAlu x (insn.setWidth 16) = some i) :
    h.emulateC1Alu insn = h.perform platform insn i := by
  have hc := op_fields insn
  simp (disch := decide) only [expandAlu, low_field, popular_eq_regPrime] at he
  unfold emulateC1Alu bits
  split at he
  all_goals rename_i hf
  · obtain ⟨s, ha, rfl⟩ := Option.map_eq_some_iff.mp he
    simp [hf, decodeCShamt_eq insn ha, perform, emulateI]
  · obtain ⟨s, ha, rfl⟩ := Option.map_eq_some_iff.mp he
    simp [hf, decodeCShamt_eq insn ha, perform, emulateI]
  · cases he
    simp (disch := decide) only [hf, decodeCAluImm_eq, signed_signExtend, perform, emulateI]
  · unfold emulateC1Op
    split at he
    -- Four operations on words, two on half words of RV64.
    iterate 4
      · rename_i hb funct
        rw [hb, funct] at hc
        cases he
        simp only [hf, hc, perform, emulateI]
    iterate 2
      · rename_i hb funct
        rw [hb, funct] at hc
        split at he
        · rename_i hw
          cases he
          simp only [hf, hc, setWidth_sub_word hw, setWidth_add_word hw, perform, emulateI]
        · cases he
    · cases he
  · cases he

theorem emulateC1_expands (hz : h.registers 0 = 0#x.bits) (he : expandC1 x (insn.setWidth 16) = some i) :
    (h.emulateC1 insn).zeroX0 = (h.perform platform insn i).zeroX0 := by
  simp (disch := decide) only [expandC1, low_field, popular_eq_regPrime] at he
  unfold emulateC1 bits
  split at he
  all_goals rename_i hf
  · split at he
    · rename_i rd
      split at he <;> cases he
      simp only [hf, rd, perform, emulateI, zeroX0_writeReg]
    · split at he <;> cases he
      simp (disch := decide) only [hf, decodeCAluImm_eq, signed_signExtend, perform, emulateI]
  · split at he
    · rename_i hw
      split at he <;> cases he
      rename_i rd
      have fits : 32 ≤ x.bits := by subst hw; decide
      simp (disch := decide) only [hf, if_pos hw, ne_eq, rd, not_false_eq_true, ↓reduceIte, decodeCAluImm_eq,
        signed_signExtend, setWidth_add_word hw, signed_setWidth _ fits, perform, emulateI]
    · rename_i name
      cases he
      simp (disch := decide) only [hf, if_neg name, decodeCJalImm_eq, jumpC, signed_signExtend, perform,
        emulateI]
      rfl
  · split at he <;> cases he
    simp (disch := decide) only [hf, decodeCAluImm_eq, signed_signExtend, perform, emulateI, readReg,
      hz, BitVec.zero_add]
  · split at he
    · cases he
    · rename_i hi
      have hn : insn &&& 0x107C ≠ 0 := fun hc => hi (.inl ((mask_zero_iff insn).mp hc))
      split at he <;> cases he
      · rename_i rd
        simp (disch := decide) only [hf, if_pos hn, if_pos rd, decodeCAddi16spOff_eq, signed_signExtend,
          perform, emulateI]
      · rename_i rd
        simp (disch := decide) only [hf, if_pos hn, if_neg rd, decodeCLuiImm_eq, lui_imm, perform, emulateI]
  · simp [hf, emulateC1Alu_expands platform h insn he]
  · cases he
    simp (disch := decide) only [hf, decodeCJalImm_eq, jumpC, signed_signExtend, perform, emulateI]
    exact (zeroX0_writeReg (h.writePc _)).symm
  iterate 2
    · cases he
      simp (disch := decide) only [hf, decodeCBranchImm_eq, jumpC, signed_signExtend, perform, emulateI,
        branch, readReg, hz]
      by_cases hc : h.registers (regPrime insn 7) = 0#x.bits <;> simp
  · cases he

theorem stack_fields : (insn.extractLsb' 12 4).toNat =
    2 * (insn.extractLsb' 13 3).toNat + (insn.extractLsb' 12 1).toNat := by
  simp only [extractLsb'_toNat]
  omega

theorem emulateC2_expands (hz : h.registers 0 = 0#x.bits) (he : expandC2 x (insn.setWidth 16) = some i) :
    h.emulateC2 platform insn = h.perform platform insn i := by
  have hc := stack_fields insn
  have hl : (insn.extractLsb' 12 1).toNat = 0 ∨ (insn.extractLsb' 12 1).toNat = 1 := by
    omega
  simp (disch := decide) only [expandC2, low_field] at he
  unfold emulateC2 bits
  split at he
  all_goals rename_i hf
  · split at he
    · cases he
    · obtain ⟨s, ha, rfl⟩ := Option.map_eq_some_iff.mp he
      rcases hl with hb | hb <;>
        simp [hc, hf, hb, decodeCShamt_eq insn ha, perform, emulateI]
  · cases he
    rcases hl with hb | hb <;>
      simp (disch := decide) only [hc, hf, hb, decodeCLdspOff_eq, plus_unsigned, perform, emulateI]
  · split at he <;> cases he
    rename_i rd
    rcases hl with hb | hb <;>
      simp (disch := decide) only [hc, hf, hb, rd, ne_eq, not_false_eq_true, ↓reduceIte, decodeCLwspOff_eq, plus_unsigned,
        perform, emulateI]
  · split at he
    · rename_i hw
      split at he <;> cases he
      rename_i rd
      rcases hl with hb | hb <;>
        simp (disch := decide) only [hc, hf, hb, hw, rd, ne_eq, not_false_eq_true, ↓reduceIte,
          decodeCLdspOff_eq, plus_unsigned,
          perform, emulateI]
    · rename_i hn
      cases he
      rcases hl with hb | hb <;>
        simp (disch := decide) only [hc, hf, hb, hn, ↓reduceIte, decodeCLwspOff_eq, plus_unsigned,
          perform, emulateI]
  · split at he
    · rename_i hb
      split at he
      · rename_i hr
        split at he <;> cases he
        rename_i rd
        simp only [hc, hf, hb, hr, rd, ne_eq, not_true_eq_false, not_false_eq_true, ↓reduceIte, perform]
      · rename_i hr
        split at he <;> cases he
        simp only [hc, hf, hb, hr, ne_eq, not_false_eq_true, ↓reduceIte, perform, emulateI, readReg, hz,
          BitVec.zero_add]
    · rename_i hb
      split at he
      · rename_i hr
        split at he <;> cases he
        · rename_i rd
          simp [hc, hf, hb, hr, rd, perform, emulateI]
        · rename_i rd
          simp only [hc, hf, hb, hr, rd, ne_eq]
          rfl
      · rename_i hr
        split at he <;> cases he
        simp only [hc, hf, hb, hr, ne_eq, not_false_eq_true, ↓reduceIte, perform, emulateI]
    · cases he
  · cases he
    rcases hl with hb | hb <;>
      simp (disch := decide) only [hc, hf, hb, decodeCSdspOff_eq, plus_unsigned, perform, emulateI]
  · cases he
    rcases hl with hb | hb <;>
      simp (disch := decide) only [hc, hf, hb, decodeCSwspOff_eq, plus_unsigned, perform, emulateI]
  · cases he
    by_cases hw : x = .rv64 <;> rcases hl with hb | hb <;>
      simp (disch := decide) only [hc, hf, hb, hw, ↓reduceIte, decodeCSdspOff_eq, decodeCLwspOff_eq, plus_unsigned,
        perform, emulateI]
  · cases he

end

theorem dispatch_zero : h.dispatch.registers 0 = 0#x.bits := rfl

theorem dispatch_register {reg : RegId} (hn : reg ≠ 0) : h.dispatch.registers reg = h.registers reg :=
  if_neg hn

theorem executeC_performs {i : Instruction} (he : expand x (insn.setWidth 16) = some i) :
    (h.executeC platform insn).zeroX0 = ((h.dispatch.perform platform insn i).retire platform 2).zeroX0 := by
  simp (disch := decide) only [expand, low_field] at he
  unfold executeC bits
  split at he
  all_goals rename_i hq
  · simp [hq, emulateC0_expands platform h.dispatch insn he]
  · simp [hq, retire_zeroX0, emulateC1_expands platform h.dispatch insn (dispatch_zero h) he]
  · simp [hq, emulateC2_expands platform h.dispatch insn (dispatch_zero h) he]
  · cases he

theorem expand_cases {c : BitVec 16} {i : Instruction} (he : expand x c = some i) :
    match i with
    | .jalr rd rs1 off => rs1 ≠ 0 ∧ off = 0 ∧ (rd = 0 ∨ rd = 1)
    | .fsw _ _ _ => x ≠ .rv64
    | _ => True := by
  unfold expand at he
  split at he
  · simp only [expandC0] at he
    (repeat' split at he) <;> cases he <;> trivial
  · simp only [expandC1, expandAlu, Option.map] at he
    (repeat' split at he) <;> cases he <;> trivial
  · simp only [expandC2, Option.map] at he
    (repeat' split at he) <;> cases he <;> trivial
  · cases he

def Faithful (c : BitVec 16) : Instruction → Prop
  | .jalr rd rs1 _ =>
    if rd = rs1 then h.registers rs1 &&& ~~~1 = h.pc + 2 else (h.registers rs1).getLsbD 0 = false
  | .fsw _ rs1 off => rs1 = 2 → h.fs = 0 ∨ off = unsigned lwspBits c
  | _ => True

theorem clear_lowest {w : Nat} (wo : BitVec w) : wo &&& ~~~1 = wo ↔ wo.getLsbD 0 = false := by
  constructor
  · intro hs
    rw [← hs]
    simp
  · intro hc
    apply eq_of_getLsbD_eq
    intro i hb
    cases i with
    | zero => rw [getLsbD_and, hc, Bool.false_and]
    | succ i => simp [hb]

theorem jump_iff {li l' : Hart x σ} (hs : li.zeroX0 = l'.zeroX0) (hq : li.trap = none) (t target' l : x.Word) :
    ((li.writePc (t - l)).retire platform l).zeroX0 =
      ((l'.writePc (target' - l)).retire platform l).zeroX0 ↔ t = target' := by
  have hq' : l'.trap = none := (congrArg trap hs).symm.trans hq
  constructor
  · intro he
    have hp := congrArg pc he
    simpa [retire, writePc, zeroX0, writeReg, hq, hq'] using hp
  · rintro rfl
    rw [retire_zeroX0, retire_zeroX0]
    exact congrArg (fun g => (g.writePc (t - l)).retire platform l) hs

theorem jalr_iff {rd rs1 : RegId} (hn : rs1 ≠ 0) (hl : rd = 0 ∨ rd = 1) :
    ((h.dispatch.perform platform insn (.jalr rd rs1 0)).retire platform 2).zeroX0 =
      (h.execute platform 2 insn (.jalr rd rs1 0)).zeroX0 ↔ Faithful h (insn.setWidth 16) (.jalr rd rs1 0) := by
  have hb : h.execute platform 2 insn (.jalr rd rs1 0) =
      ((h.dispatch.writeReg rd (h.pc + 2)).writePc ((h.registers rs1 &&& ~~~1) - 2)).retire platform 2 := by
    have still : (0 : BitVec 12).signExtend x.bits = 0#x.bits := by
      rw [signExtend_eq_setWidth_of_msb_false rfl]
      simp
    simp only [execute, emulateI, readReg, dispatch_register h hn, still, BitVec.add_zero]
    rfl
  rw [hb]
  rcases hl with rfl | rfl
  · have hs : h.dispatch.zeroX0 = (h.dispatch.writeReg 0 (h.pc + 2)).zeroX0 := (zeroX0_writeReg _).symm
    simp only [perform, Faithful, ↓reduceIte, if_neg hn.symm]
    rw [jump_iff platform hs rfl, readReg, dispatch_register h hn, eq_comm, clear_lowest]
  · have hs : (h.dispatch.writeReg 1 (h.dispatch.pc + 2)).zeroX0 = (h.dispatch.writeReg 1 (h.pc + 2)).zeroX0 := rfl
    simp only [perform, Faithful]
    rw [if_neg (by decide), jump_iff platform hs rfl]
    by_cases link : rs1 = 1
    · subst link
      exact eq_comm
    · rw [if_neg (Ne.symm link), readReg, writeReg]
      simp only [if_neg link]
      rw [dispatch_register h hn, eq_comm, clear_lowest]

theorem store_accesses (sz : Nat) (va : x.Word) (d : BitVec 64) :
    (h.store platform sz va d).accesses = .write sz (va.setWidth 64) d :: h.accesses := by
  unfold store
  dsimp only
  split <;> rfl

theorem retire_accesses (l : x.Word) : (h.retire platform l).zeroX0.accesses = h.accesses := by
  unfold retire
  split <;> rfl

theorem address_injective32 {b : BitVec 32} {off off' : BitVec 12}
    (same : (b + off.signExtend 32).setWidth 64 = (b + off'.signExtend 32).setWidth 64) : off = off' := by
  have hs := congrArg (BitVec.setWidth 32) same
  rw [setWidth_setWidth_of_le _ (by decide), setWidth_setWidth_of_le _ (by decide)] at hs
  have hn := congrArg BitVec.toInt ((BitVec.add_right_inj b).mp hs)
  rw [toInt_signExtend_of_le (by decide), toInt_signExtend_of_le (by decide)] at hn
  exact eq_of_toInt_eq hn

theorem address_injective (hn : x ≠ .rv64) {b : x.Word} {off off' : BitVec 12}
    (hs : (b + off.signExtend x.bits).setWidth 64 = (b + off'.signExtend x.bits).setWidth 64) : off = off' := by
  cases x with
  | rv64 => exact absurd rfl hn
  | rv32 => exact address_injective32 hs

theorem fsw_iff {rs2 rs1 : RegId} {off : BitVec 12} (hn : x ≠ .rv64) :
    ((h.dispatch.perform platform insn (.fsw rs2 rs1 off)).retire platform 2).zeroX0 =
      (h.execute platform 2 insn (.fsw rs2 rs1 off)).zeroX0 ↔ Faithful h (insn.setWidth 16) (.fsw rs2 rs1 off) := by
  have hf : h.dispatch.fpuIsEnabled = (h.fs != 0) := rfl
  by_cases hs : rs1 = 2
  · subst hs
    simp only [perform, ↓reduceIte, Faithful, execute, emulateI, forall_const, hf]
    by_cases hd : h.fs = 0#2
    · simp [hd]
    · rw [if_pos (by simp [hd]), if_pos (by simp [hd])]
      simp only [ofNat_eq_ofNat, hd, false_or]
      constructor
      · intro he
        have ht := congrArg accesses he
        rw [retire_accesses, retire_accesses, storeFloat, storeFloat, store_accesses, store_accesses] at ht
        injection ht with first
        injection first with _ addresses
        exact (address_injective hn addresses).symm
      · rintro rfl
        rfl
  · simp only [perform, if_neg hs, execute]
    exact ⟨fun _ same => absurd same hs, fun _ => trivial⟩

theorem compressed_equals_expansion {i : Instruction} (expanded : expand x (insn.setWidth 16) = some i) :
    (h.executeC platform insn).zeroX0 = (h.execute platform 2 insn i).zeroX0 ↔ Faithful h (insn.setWidth 16) i := by
  rw [executeC_performs platform h insn expanded]
  cases i
  case jalr rd rs1 off =>
    obtain ⟨nonzero, rfl, link⟩ := expand_cases expanded
    exact jalr_iff platform h insn nonzero link
  case fsw rs2 rs1 off => exact fsw_iff platform h insn (expand_cases expanded)
  all_goals exact ⟨fun _ => trivial, fun _ => rfl⟩

def quietPlatform (x : Xlen) : Platform x Unit where
  read _ _ memory := (.ok 0, memory)
  write _ _ _ memory := (none, memory)
  vector _ := 0

def atCall (x : Xlen) (link : x.Word) : Hart x Unit where
  registers reg := if reg = 1 then link else 0
  pc := 0x1000
  fpuRegisters _ := 0
  fs := 0
  memory := ()
  accesses := []
  trap := none

theorem call_through_x5_expands : ((atCall .rv64 0x2000).executeC (quietPlatform .rv64) 0x9282).zeroX0 =
    ((atCall .rv64 0x2000).execute (quietPlatform .rv64) 2 0x9282 (.jalr 1 5 0)).zeroX0 :=
  (compressed_equals_expansion (quietPlatform .rv64) (atCall .rv64 0x2000) 0x9282 (by decide)).mpr
    (by simp only [Faithful]; decide)

theorem call_through_x1_falls_through : expand .rv64 0x9082 = some (.jalr 1 1 0) ∧
    ((atCall .rv64 0x2000).executeC (quietPlatform .rv64) 0x9082).pc = 0x1002 ∧
    ((atCall .rv64 0x2000).execute (quietPlatform .rv64) 2 0x9082 (.jalr 1 1 0)).pc = 0x2000 := by
  decide

end RiscvEmulators.Rvvm.Isa
