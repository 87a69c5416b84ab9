import Mathlib.Algebra.Group.Nat.Defs

namespace RiscvEmulators.Rvvm.Isa

inductive Xlen where
  | rv32 | rv64
  deriving DecidableEq

def Xlen.bits : Xlen → Nat
  | .rv32 => 32
  | .rv64 => 64

abbrev Xlen.Word (x : Xlen) := BitVec x.bits
abbrev RegId := BitVec 5

inductive Access where
  | read (size : Nat) (vaddr : BitVec 64)
  | write (size : Nat) (vaddr data : BitVec 64)

structure Trap (x : Xlen) where
  cause : Nat
  tval : BitVec 64
  epc : x.Word

/-- The registers of a hart, with its memory, the accesses to it and the trap of the current instruction. -/
structure Hart (x : Xlen) (σ : Type) where
  registers : RegId → x.Word
  pc : x.Word
  fpuRegisters : RegId → BitVec 64
  fs : BitVec 2
  memory : σ
  accesses : List Access
  trap : Option (Trap x)

/-- `riscv_mmu_op` and the TLB path before it: data, or the cause and value of a trap; and where a trap goes. -/
structure Platform (x : Xlen) (σ : Type) where
  read : Nat → BitVec 64 → σ → Except (Nat × BitVec 64) (BitVec 64) × σ
  write : Nat → BitVec 64 → BitVec 64 → σ → Option (Nat × BitVec 64) × σ
  vector : Trap x → x.Word

section
variable {x : Xlen} {σ : Type}

namespace Hart
variable (h : Hart x σ)

def readReg (reg : RegId) : x.Word := h.registers reg

def writeReg (reg : RegId) (data : x.Word) : Hart x σ :=
  { h with registers := fun other => if other = reg then data else h.registers other }

def writePc (pc : x.Word) : Hart x σ := { h with pc := pc }

/-- `riscv_trap`: only one trap may be raised per dispatch cycle. -/
def raise (cause : Nat) (tval : BitVec 64) : Hart x σ :=
  { h with trap := h.trap.or (some ⟨cause, tval, h.pc⟩) }

def illegalInsn (insn : BitVec 32) : Hart x σ := h.raise 2 (insn.setWidth 64)
def breakpoint : Hart x σ := h.raise 3 0
def fpuIsEnabled : Bool := h.fs != 0

def zeroX0 : Hart x σ := h.writeReg 0 0

section
variable (platform : Platform x σ)
variable (h : Hart x σ)

def load (size : Nat) (vaddr : x.Word) (deliver : Hart x σ → BitVec 64 → Hart x σ) : Hart x σ :=
  let h := { h with accesses := .read size (vaddr.setWidth 64) :: h.accesses }
  match platform.read size (vaddr.setWidth 64) h.memory with
  | (.ok data, memory) => deliver { h with memory := memory } data
  | (.error (cause, tval), memory) => { h with memory := memory }.raise cause tval

def store (size : Nat) (vaddr : x.Word) (data : BitVec 64) : Hart x σ :=
  let h := { h with accesses := .write size (vaddr.setWidth 64) data :: h.accesses }
  match platform.write size (vaddr.setWidth 64) data h.memory with
  | (none, memory) => { h with memory := memory }
  | (some (cause, tval), memory) => { h with memory := memory }.raise cause tval

def loadU64 (vaddr : x.Word) (reg : RegId) : Hart x σ :=
  h.load platform 8 vaddr fun h data => h.writeReg reg (data.setWidth x.bits)

def loadS32 (vaddr : x.Word) (reg : RegId) : Hart x σ :=
  h.load platform 4 vaddr fun h data => h.writeReg reg ((data.setWidth 32).signExtend x.bits)

def loadU16 (vaddr : x.Word) (reg : RegId) : Hart x σ :=
  h.load platform 2 vaddr fun h data => h.writeReg reg ((data.setWidth 16).setWidth x.bits)

def loadS16 (vaddr : x.Word) (reg : RegId) : Hart x σ :=
  h.load platform 2 vaddr fun h data => h.writeReg reg ((data.setWidth 16).signExtend x.bits)

def loadU8 (vaddr : x.Word) (reg : RegId) : Hart x σ :=
  h.load platform 1 vaddr fun h data => h.writeReg reg ((data.setWidth 8).setWidth x.bits)

def writeFpuReg (reg : RegId) (data : BitVec 64) : Hart x σ :=
  { h with fpuRegisters := fun other => if other = reg then data else h.fpuRegisters other, fs := 3 }

def loadDouble (vaddr : x.Word) (reg : RegId) : Hart x σ :=
  h.load platform 8 vaddr fun h data => h.writeFpuReg reg data

def loadFloat (vaddr : x.Word) (reg : RegId) : Hart x σ :=
  h.load platform 4 vaddr fun h data => h.writeFpuReg reg ((data.setWidth 32).setWidth 64 ||| 0xFFFFFFFF00000000)

def storeU64 (vaddr : x.Word) (reg : RegId) : Hart x σ :=
  h.store platform 8 vaddr ((h.readReg reg).setWidth 64)

def storeU32 (vaddr : x.Word) (reg : RegId) : Hart x σ :=
  h.store platform 4 vaddr (((h.readReg reg).setWidth 32).setWidth 64)

def storeU16 (vaddr : x.Word) (reg : RegId) : Hart x σ :=
  h.store platform 2 vaddr (((h.readReg reg).setWidth 16).setWidth 64)

def storeU8 (vaddr : x.Word) (reg : RegId) : Hart x σ :=
  h.store platform 1 vaddr (((h.readReg reg).setWidth 8).setWidth 64)

def storeDouble (vaddr : x.Word) (reg : RegId) : Hart x σ :=
  h.store platform 8 vaddr (h.fpuRegisters reg)

def storeFloat (vaddr : x.Word) (reg : RegId) : Hart x σ :=
  h.store platform 4 vaddr (((h.fpuRegisters reg).setWidth 32).setWidth 64)

end

def dispatch (h : Hart x σ) : Hart x σ := { h.zeroX0 with trap := none }

def retire (platform : Platform x σ) (h : Hart x σ) (length : x.Word) : Hart x σ :=
  match h.trap with
  | none => h.writePc (h.pc + length)
  | some trap => h.writePc (platform.vector trap)

end Hart

inductive Instruction where
  | addi (rd rs1 : RegId) (imm : BitVec 12)
  | andi (rd rs1 : RegId) (imm : BitVec 12)
  | addiw (rd rs1 : RegId) (imm : BitVec 12)
  | slli (rd rs1 : RegId) (shamt : BitVec 6)
  | srli (rd rs1 : RegId) (shamt : BitVec 6)
  | srai (rd rs1 : RegId) (shamt : BitVec 6)
  | lui (rd : RegId) (imm : BitVec 20)
  | add (rd rs1 rs2 : RegId)
  | sub (rd rs1 rs2 : RegId)
  | xor (rd rs1 rs2 : RegId)
  | or (rd rs1 rs2 : RegId)
  | and (rd rs1 rs2 : RegId)
  | addw (rd rs1 rs2 : RegId)
  | subw (rd rs1 rs2 : RegId)
  | lw (rd rs1 : RegId) (off : BitVec 12)
  | ld (rd rs1 : RegId) (off : BitVec 12)
  | flw (rd rs1 : RegId) (off : BitVec 12)
  | fld (rd rs1 : RegId) (off : BitVec 12)
  | sw (rs2 rs1 : RegId) (off : BitVec 12)
  | sd (rs2 rs1 : RegId) (off : BitVec 12)
  | fsw (rs2 rs1 : RegId) (off : BitVec 12)
  | fsd (rs2 rs1 : RegId) (off : BitVec 12)
  | jal (rd : RegId) (off : BitVec 21)
  | jalr (rd rs1 : RegId) (off : BitVec 12)
  | beq (rs1 rs2 : RegId) (off : BitVec 13)
  | bne (rs1 rs2 : RegId) (off : BitVec 13)
  | ebreak
  deriving DecidableEq

namespace Hart
variable (platform : Platform x σ)

def branch (h : Hart x σ) (length : x.Word) (taken : Bool) (off : BitVec 13) : Hart x σ :=
  if taken then h.writePc (h.pc + off.signExtend x.bits - length) else h

/-- `riscv_emulate_i` after decoding; in the source the length is 4. `insn` is the word that was fetched. -/
def emulateI (h : Hart x σ) (length : x.Word) (insn : BitVec 32) : Instruction → Hart x σ
  | .addi rd rs1 imm => h.writeReg rd (h.readReg rs1 + imm.signExtend x.bits)
  | .andi rd rs1 imm => h.writeReg rd (h.readReg rs1 &&& imm.signExtend x.bits)
  | .addiw rd rs1 imm =>
    if x = .rv64 then h.writeReg rd (((h.readReg rs1).setWidth 32 + imm.signExtend 32).signExtend x.bits)
    else h.illegalInsn insn
  | .slli rd rs1 shamt => h.writeReg rd (h.readReg rs1 <<< shamt.toNat)
  | .srli rd rs1 shamt => h.writeReg rd (h.readReg rs1 >>> shamt.toNat)
  | .srai rd rs1 shamt => h.writeReg rd ((h.readReg rs1).sshiftRight shamt.toNat)
  | .lui rd imm => h.writeReg rd ((imm ++ (0 : BitVec 12)).signExtend x.bits)
  | .add rd rs1 rs2 => h.writeReg rd (h.readReg rs1 + h.readReg rs2)
  | .sub rd rs1 rs2 => h.writeReg rd (h.readReg rs1 - h.readReg rs2)
  | .xor rd rs1 rs2 => h.writeReg rd (h.readReg rs1 ^^^ h.readReg rs2)
  | .or rd rs1 rs2 => h.writeReg rd (h.readReg rs1 ||| h.readReg rs2)
  | .and rd rs1 rs2 => h.writeReg rd (h.readReg rs1 &&& h.readReg rs2)
  | .addw rd rs1 rs2 =>
    if x = .rv64 then h.writeReg rd (((h.readReg rs1).setWidth 32 + (h.readReg rs2).setWidth 32).signExtend x.bits)
    else h.illegalInsn insn
  | .subw rd rs1 rs2 =>
    if x = .rv64 then h.writeReg rd (((h.readReg rs1).setWidth 32 - (h.readReg rs2).setWidth 32).signExtend x.bits)
    else h.illegalInsn insn
  | .lw rd rs1 off => h.loadS32 platform (h.readReg rs1 + off.signExtend x.bits) rd
  | .ld rd rs1 off =>
    if x = .rv64 then h.loadU64 platform (h.readReg rs1 + off.signExtend x.bits) rd else h.illegalInsn insn
  | .flw rd rs1 off =>
    if h.fpuIsEnabled then h.loadFloat platform (h.readReg rs1 + off.signExtend x.bits) rd else h.illegalInsn insn
  | .fld rd rs1 off =>
    if h.fpuIsEnabled then h.loadDouble platform (h.readReg rs1 + off.signExtend x.bits) rd else h.illegalInsn insn
  | .sw rs2 rs1 off => h.storeU32 platform (h.readReg rs1 + off.signExtend x.bits) rs2
  | .sd rs2 rs1 off =>
    if x = .rv64 then h.storeU64 platform (h.readReg rs1 + off.signExtend x.bits) rs2 else h.illegalInsn insn
  | .fsw rs2 rs1 off =>
    if h.fpuIsEnabled then h.storeFloat platform (h.readReg rs1 + off.signExtend x.bits) rs2 else h.illegalInsn insn
  | .fsd rs2 rs1 off =>
    if h.fpuIsEnabled then h.storeDouble platform (h.readReg rs1 + off.signExtend x.bits) rs2 else h.illegalInsn insn
  | .jal rd off => (h.writeReg rd (h.pc + length)).writePc (h.pc + off.signExtend x.bits - length)
  | .jalr rd rs1 off =>
    (h.writeReg rd (h.pc + length)).writePc (((h.readReg rs1 + off.signExtend x.bits) &&& ~~~1) - length)
  | .beq rs1 rs2 off => h.branch length (h.readReg rs1 == h.readReg rs2) off
  | .bne rs1 rs2 off => h.branch length (h.readReg rs1 != h.readReg rs2) off
  | .ebreak => h.breakpoint

def execute (h : Hart x σ) (length : x.Word) (insn : BitVec 32) (instruction : Instruction) : Hart x σ :=
  (h.dispatch.emulateI platform length insn instruction).retire platform length

end Hart

end

section
variable (insn : BitVec 32)

def decodeCAddi4spnImm : BitVec 32 :=
  ((insn >>> 1) &&& 0x03C0) ||| ((insn >>> 2) &&& 0x0008) ||| ((insn >>> 4) &&& 0x0004) ||| ((insn >>> 7) &&& 0x0030)

def decodeCJalImm : BitVec 32 :=
  let imm := ((insn >>> 1) &&& 0x0B40) ||| ((insn >>> 2) &&& 0x000E) ||| ((insn >>> 7) &&& 0x0010) |||
    ((insn <<< 1) &&& 0x0080) ||| ((insn <<< 2) &&& 0x0400) ||| ((insn <<< 3) &&& 0x0020)
  (imm.setWidth 12).signExtend 32

def decodeCLdOff : BitVec 32 := ((insn <<< 1) &&& 0xC0) ||| ((insn >>> 7) &&& 0x38)
def decodeCLwOff : BitVec 32 := ((insn <<< 1) &&& 0x40) ||| ((insn >>> 4) &&& 0x04) ||| ((insn >>> 7) &&& 0x38)

def decodeCLdspOff : BitVec 32 := ((insn >>> 2) &&& 0x0018) ||| ((insn >>> 7) &&& 0x0020) ||| ((insn <<< 4) &&& 0x01C0)

def decodeCLwspOff : BitVec 32 := ((insn >>> 2) &&& 0x1C) ||| ((insn >>> 7) &&& 0x20) ||| ((insn <<< 4) &&& 0xC0)

def decodeCSdspOff : BitVec 32 := ((insn >>> 1) &&& 0x01C0) ||| ((insn >>> 7) &&& 0x0038)
def decodeCSwspOff : BitVec 32 := ((insn >>> 1) &&& 0xC0) ||| ((insn >>> 7) &&& 0x3C)
def decodeCAluImm : BitVec 32 := (((insn <<< 25) >>> 1) ||| ((insn >>> 12) <<< 31)).sshiftRight 26

def decodeCAddi16spOff : BitVec 32 :=
  let imm := ((insn >>> 2) &&& 0x0010) ||| ((insn <<< 3) &&& 0x0020) ||| ((insn <<< 1) &&& 0x0040) |||
    ((insn <<< 4) &&& 0x0180) ||| ((insn >>> 3) &&& 0x0200)
  (imm.setWidth 10).signExtend 32

def decodeCLuiImm : BitVec 32 := (((insn &&& 0x7C) <<< 24) ||| ((insn >>> 12) <<< 31)).sshiftRight 14

def decodeCBranchImm : BitVec 32 :=
  let imm := ((insn >>> 2) &&& 0x0006) ||| ((insn >>> 7) &&& 0x0018) ||| ((insn <<< 3) &&& 0x0020) |||
    ((insn <<< 1) &&& 0x00C0) ||| ((insn >>> 4) &&& 0x0100)
  (imm.setWidth 9).signExtend 32

def decodeCShamt (x : Xlen) : Nat :=
  match x with
  | .rv32 => (insn.extractLsb' 2 5).toNat
  | .rv64 => (insn.extractLsb' 2 5).toNat ||| ((insn.extractLsb' 12 1).toNat <<< 5)

def bits (pos len : Nat) : Nat := (insn.extractLsb' pos len).toNat
def regPrime (pos : Nat) : RegId := (insn.extractLsb' pos 3).setWidth 5 + 8

end

namespace Hart
variable {x : Xlen} {σ : Type} (platform : Platform x σ)

def plus (base : x.Word) (off : BitVec 32) : x.Word := base + off.setWidth x.bits
def jumpC (h : Hart x σ) (off : BitVec 32) : Hart x σ := h.writePc (h.pc + off.signExtend x.bits - 2)

def emulateZcbMemory (h : Hart x σ) (insn : BitVec 32) : Hart x σ :=
  let rds := regPrime insn 2
  let rs1 := regPrime insn 7
  let byteOff := ((insn &&& 0x20) >>> 4) ||| ((insn &&& 0x40) >>> 6)
  let halfOff := (insn &&& 0x20) >>> 4
  match bits insn 10 3 with
  | 0 => h.loadU8 platform (plus (h.readReg rs1) byteOff) rds
  | 1 =>
    if insn &&& 0x40 ≠ 0 then h.loadS16 platform (plus (h.readReg rs1) halfOff) rds
    else h.loadU16 platform (plus (h.readReg rs1) halfOff) rds
  | 2 => h.storeU8 platform (plus (h.readReg rs1) byteOff) rds
  | 3 => if insn &&& 0x40 = 0 then h.storeU16 platform (plus (h.readReg rs1) halfOff) rds else h.illegalInsn insn
  | _ => h.illegalInsn insn

def emulateC0 (h : Hart x σ) (insn : BitVec 32) : Hart x σ :=
  let rds := regPrime insn 2
  let rs1 := regPrime insn 7
  match bits insn 13 3 with
  | 0 =>
    let imm := decodeCAddi4spnImm insn
    if imm ≠ 0 then h.writeReg rds (plus (h.readReg 2) imm) else h.illegalInsn insn
  | 1 =>
    if h.fpuIsEnabled then h.loadDouble platform (plus (h.readReg rs1) (decodeCLdOff insn)) rds else h.illegalInsn insn
  | 2 => h.loadS32 platform (plus (h.readReg rs1) (decodeCLwOff insn)) rds
  | 3 =>
    if x = .rv64 then h.loadU64 platform (plus (h.readReg rs1) (decodeCLdOff insn)) rds
    else if h.fpuIsEnabled then h.loadFloat platform (plus (h.readReg rs1) (decodeCLwOff insn)) rds
    else h.illegalInsn insn
  | 4 => h.emulateZcbMemory platform insn
  | 5 =>
    if h.fpuIsEnabled then h.storeDouble platform (plus (h.readReg rs1) (decodeCLdOff insn)) rds else h.illegalInsn insn
  | 6 => h.storeU32 platform (plus (h.readReg rs1) (decodeCLwOff insn)) rds
  | _ =>
    if x = .rv64 then h.storeU64 platform (plus (h.readReg rs1) (decodeCLdOff insn)) rds
    else if h.fpuIsEnabled then h.storeFloat platform (plus (h.readReg rs1) (decodeCLwOff insn)) rds
    else h.illegalInsn insn

def emulateZcbUnary (h : Hart x σ) (insn : BitVec 32) (rds : RegId) (reg1 : x.Word) : Hart x σ :=
  match bits insn 2 3 with
  | 0 => h.writeReg rds ((reg1.setWidth 8).setWidth x.bits)
  | 1 => h.writeReg rds ((reg1.setWidth 8).signExtend x.bits)
  | 2 => h.writeReg rds ((reg1.setWidth 16).setWidth x.bits)
  | 3 => h.writeReg rds ((reg1.setWidth 16).signExtend x.bits)
  | 4 => if x = .rv64 then h.writeReg rds ((reg1.setWidth 32).setWidth x.bits) else h.illegalInsn insn
  | 5 => h.writeReg rds (~~~reg1)
  | _ => h.illegalInsn insn

def emulateC1Op (h : Hart x σ) (insn : BitVec 32) (rds : RegId) (reg1 : x.Word) : Hart x σ :=
  let reg2 := h.readReg (regPrime insn 2)
  match (insn &&& 0x1C60).toNat with
  | 0x0C00 => h.writeReg rds (reg1 - reg2)
  | 0x0C20 => h.writeReg rds (reg1 ^^^ reg2)
  | 0x0C40 => h.writeReg rds (reg1 ||| reg2)
  | 0x0C60 => h.writeReg rds (reg1 &&& reg2)
  | 0x1C00 =>
    if x = .rv64 then h.writeReg rds (((reg1 - reg2).setWidth 32).signExtend x.bits) else h.illegalInsn insn
  | 0x1C20 =>
    if x = .rv64 then h.writeReg rds (((reg1 + reg2).setWidth 32).signExtend x.bits) else h.illegalInsn insn
  | 0x1C40 => h.writeReg rds (reg1 * reg2)
  | 0x1C60 => h.emulateZcbUnary insn rds reg1
  | _ => h.illegalInsn insn

def emulateC1Alu (h : Hart x σ) (insn : BitVec 32) : Hart x σ :=
  let rds := regPrime insn 7
  let reg1 := h.readReg rds
  match bits insn 10 2 with
  | 0 => h.writeReg rds (reg1 >>> decodeCShamt insn x)
  | 1 => h.writeReg rds (reg1.sshiftRight (decodeCShamt insn x))
  | 2 => h.writeReg rds (reg1 &&& (decodeCAluImm insn).signExtend x.bits)
  | _ => h.emulateC1Op insn rds reg1

def emulateC1 (h : Hart x σ) (insn : BitVec 32) : Hart x σ :=
  let rds := insn.extractLsb' 7 5
  match bits insn 13 3 with
  | 0 => h.writeReg rds (h.readReg rds + (decodeCAluImm insn).signExtend x.bits)
  | 1 =>
    if x = .rv64 then
      if rds ≠ 0 then
        h.writeReg rds (((h.readReg rds + (decodeCAluImm insn).signExtend x.bits).setWidth 32).signExtend x.bits)
      else h.emulateC1Alu insn
    else (h.writeReg 1 (h.pc + 2)).jumpC (decodeCJalImm insn)
  | 2 => h.writeReg rds ((decodeCAluImm insn).signExtend x.bits)
  | 3 =>
    if insn &&& 0x107C ≠ 0 then
      if rds = 2 then h.writeReg 2 (h.readReg 2 + (decodeCAddi16spOff insn).signExtend x.bits)
      else h.writeReg rds ((decodeCLuiImm insn).signExtend x.bits)
    else if rds &&& 0x01 ≠ 0 ∧ rds &&& 0x10 = 0 then h
    else h.emulateC1Alu insn
  | 5 => h.jumpC (decodeCJalImm insn)
  | 6 => if h.readReg (regPrime insn 7) ≠ 0 then h else h.jumpC (decodeCBranchImm insn)
  | 7 => if h.readReg (regPrime insn 7) = 0 then h else h.jumpC (decodeCBranchImm insn)
  | _ => h.emulateC1Alu insn

def emulateC2 (h : Hart x σ) (insn : BitVec 32) : Hart x σ :=
  let rds := insn.extractLsb' 7 5
  let rs2 := insn.extractLsb' 2 5
  match bits insn 12 4 with
  | 0x0 | 0x1 => h.writeReg rds (h.readReg rds <<< decodeCShamt insn x)
  | 0x2 | 0x3 =>
    if h.fpuIsEnabled then h.loadDouble platform (plus (h.readReg 2) (decodeCLdspOff insn)) rds else h.illegalInsn insn
  | 0x4 | 0x5 =>
    if rds ≠ 0 then h.loadS32 platform (plus (h.readReg 2) (decodeCLwspOff insn)) rds else h.illegalInsn insn
  | 0x6 | 0x7 =>
    if x = .rv64 then
      if rds ≠ 0 then h.loadU64 platform (plus (h.readReg 2) (decodeCLdspOff insn)) rds else h.illegalInsn insn
    else if h.fpuIsEnabled then h.loadFloat platform (plus (h.readReg 2) (decodeCLwspOff insn)) rds
    else h.illegalInsn insn
  | 0x8 =>
    if rs2 ≠ 0 then h.writeReg rds (h.readReg rs2)
    else if rds ≠ 0 then h.writePc (h.readReg rds - 2)
    else h.illegalInsn insn
  | 0x9 =>
    if rs2 ≠ 0 then h.writeReg rds (h.readReg rds + h.readReg rs2)
    else if rds ≠ 0 then
      -- The link register is written before the target is read.
      let linked := h.writeReg 1 (h.pc + 2)
      linked.writePc (linked.readReg rds - 2)
    else h.breakpoint
  | 0xA | 0xB =>
    if h.fpuIsEnabled then h.storeDouble platform (plus (h.readReg 2) (decodeCSdspOff insn)) rs2 else h.illegalInsn insn
  | 0xC | 0xD => h.storeU32 platform (plus (h.readReg 2) (decodeCSwspOff insn)) rs2
  | _ =>
    if x = .rv64 then h.storeU64 platform (plus (h.readReg 2) (decodeCSdspOff insn)) rs2
    -- The offset of a load is decoded here.
    else if h.fpuIsEnabled then h.storeFloat platform (plus (h.readReg 2) (decodeCLwspOff insn)) rs2
    else h.illegalInsn insn

def executeC (h : Hart x σ) (insn : BitVec 32) : Hart x σ :=
  let h := h.dispatch
  let after := match bits insn 0 2 with
    | 0 => h.emulateC0 platform insn
    | 1 => h.emulateC1 insn
    | _ => h.emulateC2 platform insn
  after.retire platform 2

end Hart

end RiscvEmulators.Rvvm.Isa
