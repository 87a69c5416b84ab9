import Riscv.Rvvm.Aplic.Model
import Riscv.Rvvm.Mmu.Event

namespace RiscvEmulators.Rvvm
open Store Word

structure Imsic where
  eidelivery : W32
  eithreshold : W32
  eip : Bits 8
  eie : Bits 8
  line : Bool
  reported : W32

namespace Imsic

def irqLimit : Nat := 256

def csriMiprio0 : Nat := 0x30
def csriMiprio15 : Nat := 0x3F
def csriEidelivery : Nat := 0x70
def csriEithreshold : Nat := 0x72
def csriEip0 : Nat := 0x80
def csriEip63 : Nat := 0xBF
def csriEie0 : Nat := 0xC0
def csriEie63 : Nat := 0xFF
def bitClz32 (val : W32) : Nat := if val = 0 then 32 else 31 - val.toNat.log2

variable (imsic : Imsic)

def interrupt : Imsic := { imsic with line := true }

def sendAiaIrq (irq : W32) : Imsic :=
  if bound : irq ≠ 0 ∧ irq.toNat < irqLimit then
    if imsic.eidelivery ≠ 0 then
      let thresh := imsic.eithreshold - 1
      let reg : Fin 8 := ⟨irq.toNat / 32, by unfold irqLimit at bound; omega⟩
      let eie := imsic.eie reg
      let prev := imsic.eip reg
      let imsic := { imsic with eip := imsic.eip.insert irq.toNat }
      if irq < thresh ∧ bitOf irq.toNat &&& eie ≠ 0 ∧ bitOf irq.toNat &&& prev = 0 then imsic.interrupt else imsic
    else imsic
  else imsic

def scan (update claim : Bool) (thresh : W32) : List (Fin 8) → Nat → Imsic → Nat × Imsic
  | [], ret, imsic => (ret, imsic)
  | i :: words, ret, imsic =>
    let bits := imsic.eip i &&& imsic.eie i
    if bits ≠ 0 then
      if ret ≠ 0 then (ret, imsic.interrupt)
      else
        let bit := bitClz32 bits ^^^ 31
        let irq := 32 * i.val + bit
        if irq < thresh.toNat then
          let mask := ~~~bitOf bit
          let imsic := if claim then { imsic with eip := imsic.eip.change i fun word => word &&& mask } else imsic
          let bits := if claim then bits &&& mask else bits
          if update then
            if bits ≠ 0 then (irq, imsic.interrupt) else scan update claim thresh words irq imsic
          else (irq, imsic)
        else scan update claim thresh words ret imsic
    else scan update claim thresh words ret imsic

def updateAiaInternal (update claim : Bool) : Nat × Imsic :=
  let thresh := imsic.eithreshold - 1
  let imsic := if update then { imsic with line := false } else imsic
  if imsic.eidelivery ≠ 0 then scan update claim thresh (List.finRange 8) 0 imsic else (0, imsic)

def updateAiaState : Imsic := (imsic.updateAiaInternal true false).2
def getAiaIrq (claim : Bool) : Nat × Imsic := imsic.updateAiaInternal true claim
def isCsrWrite (dest : W64) (op : CsrOp) : Bool := decide (dest ≠ 0 ∨ op = .swap)

def csrTopei (dest : W64) (op : CsrOp) : Imsic :=
  let (irq, imsic) := imsic.getAiaIrq (isCsrWrite dest op)
  { imsic with reported := BitVec.ofNat 32 irq ||| BitVec.ofNat 32 irq <<< 16 }

def csrAtomicHelper (val : W32) (dest : W64) : CsrOp → W32 × Bool
  | .swap => (dest.setWidth 32, true)
  | .setBits => if dest ≠ 0 then (val ||| dest.setWidth 32, true) else (val, false)
  | .clearBits => if dest ≠ 0 then (val &&& ~~~dest.setWidth 32, true) else (val, false)

def csrAiaHelper (val : W32) (put : W32 → Imsic) (dest : W64) (op : CsrOp) : W64 × Imsic :=
  let (stored, wrote) := csrAtomicHelper val dest op
  (val.setWidth 64, if wrote then (put stored).updateAiaState else imsic)

def array (pend : Bool) : Bits 8 := if pend then imsic.eip else imsic.eie

def putArray (pend : Bool) (reg : Nat) (word : W32) : Imsic :=
  if pend then { imsic with eip := imsic.eip.change reg fun _ => word }
  else { imsic with eie := imsic.eie.change reg fun _ => word }

def csrAiaPairHelper (rv64 : Bool) (imsic : Imsic) (reg : Nat) (pend : Bool) (dest : W64) (op : CsrOp) :
    Option (W64 × Imsic) :=
  if rv64 ∧ reg % 2 = 1 then none
  else if bound : reg < 8 then
    let (low, imsic) := imsic.csrAiaHelper (imsic.array pend ⟨reg, bound⟩) (imsic.putArray pend reg) dest op
    if pair : rv64 ∧ reg + 1 < 8 then
      let (high, imsic) := imsic.csrAiaHelper (imsic.array pend ⟨reg + 1, pair.2⟩) (imsic.putArray pend (reg + 1))
        (dest >>> 32) op
      some (low ||| high <<< 32, imsic)
    else some (low, imsic)
  else none

def csrIndirect (rv64 : Bool) (imsic : Imsic) (csri : Nat) (dest : W64) (op : CsrOp) :
    Option (W64 × Imsic) :=
  if csri = csriEidelivery then
    some (imsic.csrAiaHelper imsic.eidelivery (fun val => { imsic with eidelivery := val }) (dest &&& 1) op)
  else if csri = csriEithreshold then
    some (imsic.csrAiaHelper imsic.eithreshold (fun val => { imsic with eithreshold := val }) dest op)
  else if csriMiprio0 ≤ csri ∧ csri ≤ csriMiprio15 then some (0, imsic)
  else if csriEip0 ≤ csri ∧ csri ≤ csriEip63 then imsic.csrAiaPairHelper rv64 (csri - csriEip0) true dest op
  else if csriEie0 ≤ csri ∧ csri ≤ csriEie63 then imsic.csrAiaPairHelper rv64 (csri - csriEie0) false dest op
  else none

def regSeteipnumLe : Nat := 0x00
def regSeteipnumBe : Nat := 0x04

def mmioWrite (offset : Nat) (data : W32) : Imsic :=
  if offset % 4096 / 4 * 4 = regSeteipnumLe then imsic.sendAiaIrq data
  else if offset % 4096 / 4 * 4 = regSeteipnumBe then imsic.sendAiaIrq (Aplic.byteSwap data)
  else imsic

def init : Imsic := ⟨0, 0, fun _ => 0, fun _ => 0, false, 0⟩

inductive Event where
  | message (offset : Nat) (data : W32)
  | indirect (csri : Nat) (dest : W64) (op : CsrOp)
  | topei (dest : W64) (op : CsrOp)
deriving DecidableEq, Repr

def after (rv64 : Bool) (imsic : Imsic) : Event → Imsic
  | .message offset data => imsic.mmioWrite offset data
  | .indirect csri dest op => ((imsic.csrIndirect rv64 csri dest op).map Prod.snd).getD imsic
  | .topei dest op => imsic.csrTopei dest op

end Imsic
end RiscvEmulators.Rvvm
