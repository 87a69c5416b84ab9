import Riscv.Word.Field
import Riscv.Word.Scan

namespace RiscvEmulators.Spike
open Word

abbrev Reg := W64

def mstatusSie : Reg := 0x00000002
def mstatusMie : Reg := 0x00000008
def mstatusSpie : Reg := 0x00000020
def mstatusUbe : Reg := 0x00000040
def mstatusMpie : Reg := 0x00000080
def mstatusSpp : Reg := 0x00000100
def mstatusVs : Reg := 0x00000600
def mstatusMpp : Reg := 0x00001800
def mstatusFs : Reg := 0x00006000
def mstatusXs : Reg := 0x00018000
def mstatusMprv : Reg := 0x00020000
def mstatusSum : Reg := 0x00040000
def mstatusMxr : Reg := 0x00080000
def mstatusTvm : Reg := 0x00100000
def mstatusTw : Reg := 0x00200000
def mstatusTsr : Reg := 0x00400000
def mstatusSpelp : Reg := 0x00800000
def mstatusSdt : Reg := 0x01000000
def mstatus32Sd : Reg := 0x80000000
def mstatusUxl : Reg := 0x0000000300000000
def mstatusGva : Reg := 0x0000004000000000
def mstatusMpv : Reg := 0x0000008000000000
def mstatusMpelp : Reg := 0x0000020000000000
def mstatusMdt : Reg := 0x0000040000000000
def mstatus64Sd : Reg := 0x8000000000000000

def hstatusGva : Reg := 0x00000040
def hstatusSpv : Reg := 0x00000080
def hstatusSpvp : Reg := 0x00000100
def hstatusHu : Reg := 0x00000200
def hstatusVgein : Reg := 0x0003f000
def hstatusVtvm : Reg := 0x00100000
def hstatusVtw : Reg := 0x00200000
def hstatusVtsr : Reg := 0x00400000
def hstatusHukte : Reg := 0x01000000
def hstatusHupmm : Reg := 0x0003000000000000
def mnstatusNmie : Reg := 0x00000008

def menvcfgSse : Reg := 0x00000008
def menvcfgDte : Reg := 0x0800000000000000
def menvcfgAdue : Reg := 0x2000000000000000
def menvcfgPbmte : Reg := 0x4000000000000000
def menvcfgStce : Reg := 0x8000000000000000

def mipSsip : Reg := 0x0002
def mipVssip : Reg := 0x0004
def mipMsip : Reg := 0x0008
def mipStip : Reg := 0x0020
def mipVstip : Reg := 0x0040
def mipMtip : Reg := 0x0080
def mipSeip : Reg := 0x0200
def mipVseip : Reg := 0x0400
def mipMeip : Reg := 0x0800
def mipSgeip : Reg := 0x1000
def mipLcofip : Reg := 0x2000
def mipSMask : Reg := mipSsip ||| mipStip ||| mipSeip
def mipVsMask : Reg := mipVssip ||| mipVstip ||| mipVseip
def mipHsMask : Reg := mipVsMask ||| mipSgeip

def irqSExt : Reg := 9
def irqVsExt : Reg := 10
def irqLcof : Nat := 13

def hvictlVti : Reg := 0x40000000
def hvictlIid : Reg := 0x003f0000
def hvictlDpr : Reg := 0x00000200
def hvictlIpriom : Reg := 0x00000100
def hvictlIprio : Reg := 0x000000ff
def mtopiIid : Reg := 0x0fff0000

def causeBreakpoint : Reg := 0x3
def causeDoubleTrap : Reg := 0x10
def tcontrolMte : Reg := 0x8
def tcontrolMpte : Reg := 0x80
def debugRomEntry : Reg := 0x800
def debugRomTvec : Reg := 0x808

inductive Xlen where
  | rv32
  | rv64
deriving DecidableEq, Repr

def Xlen.bits : Xlen → Nat
  | .rv32 => 32
  | .rv64 => 64

inductive Prv where
  | u
  | s
  | m
deriving DecidableEq, Repr

def Prv.code : Prv → BitVec 2
  | .u => 0
  | .s => 1
  | .m => 3

def Prv.reg (prv : Prv) : Reg := prv.code.setWidth 64

/-- What the ISA string fixes for the whole simulation. `extH` is membership of the
  maximal ISA; the current `misa.H` is part of the state. -/
structure Isa where
  maxXlen : Xlen
  extU : Bool
  extS : Bool
  extF : Bool
  extH : Bool
  extZfinx : Bool
  extZicfilp : Bool
  extSsdbltrp : Bool
  extSmdbltrp : Bool
  extSsaia : Bool
  extSvukte : Bool
  extSsnpm : Bool
  anyVector : Bool
  anyCustom : Bool
  hasMmu : Bool
deriving DecidableEq, Repr

def legalizePrivilege (isa : Isa) (prv : BitVec 2) : Prv :=
  if !isa.extU then .m
  else if prv = 2 ∨ (prv = 1 ∧ !isa.extS) then .u
  else if prv = 0 then .u
  else if prv = 1 then .s
  else .m

theorem legalizePrivilege_idem {isa : Isa} {prv : BitVec 2} :
    legalizePrivilege isa (legalizePrivilege isa prv).code = legalizePrivilege isa prv := by
  unfold legalizePrivilege
  cases isa.extU <;> cases isa.extS <;> revert prv <;> decide

/-- Privilege mode as `set_privilege` leaves it: a level the ISA implements, with
  V clear in M-mode. -/
structure Mode (isa : Isa) where
  prv : Prv
  virt : Bool
  legal : legalizePrivilege isa prv.code = prv
  virtBelow : virt → prv ≠ .m

def setPrivilege (isa : Isa) (prv : Prv) (virt : Bool) : Mode isa where
  prv := legalizePrivilege isa prv.code
  virt := virt && legalizePrivilege isa prv.code != .m
  legal := legalizePrivilege_idem
  virtBelow := by simp

structure State (isa : Isa) where
  mode : Mode isa
  debugMode : Bool
  misaH : Bool
  elp : Bool
  pc : Reg
  mstatus : Reg
  vsstatus : Reg
  hstatus : Reg
  mnstatus : Option Reg
  menvcfg : Reg
  henvcfg : Reg
  medeleg : Reg
  hedeleg : Reg
  mideleg : Reg
  hideleg : Reg
  mip : Reg
  mie : Reg
  sie : Reg
  mvien : Reg
  mvip : Reg
  hvip : Reg
  hvictl : Reg
  mtvec : Reg
  stvec : Reg
  vstvec : Reg
  mepc : Reg
  sepc : Reg
  vsepc : Reg
  mcause : Reg
  scause : Reg
  vscause : Reg
  mtval : Reg
  stval : Reg
  vstval : Reg
  mtval2 : Reg
  htval : Reg
  mtinst : Reg
  htinst : Reg
  tcontrol : Option Reg
  /-- `hideleg` is a masked register: only VS-level interrupts can be stored. -/
  hidelegMasked : Within mipVsMask hideleg
  /-- `mvien` implements SEIP and SSIP only. -/
  mvienMasked : Within (mipSeip ||| mipSsip) mvien

variable {isa : Isa}

def hasPage (isa : Isa) : Bool := isa.extS && isa.hasMmu

def computeSstatusWriteMask (isa : Isa) : Reg :=
  (if isa.extS then mstatusSie ||| mstatusSpie ||| mstatusSpp else 0) |||
    (if hasPage isa then mstatusSum ||| mstatusMxr else 0) |||
    (if (isa.extS || isa.extF) && !isa.extZfinx then mstatusFs else 0) |||
    (if isa.anyCustom then mstatusXs else 0) |||
    (if isa.anyVector then mstatusVs else 0) |||
    (if isa.extS && isa.extZicfilp then mstatusSpelp else 0) |||
    (if isa.extSsdbltrp then mstatusSdt else 0)

def sdBit (isa : Isa) : Reg :=
  match isa.maxXlen with
  | .rv32 => mstatus32Sd
  | .rv64 => mstatus64Sd

def sstatusReadMask (isa : Isa) : Reg := computeSstatusWriteMask isa ||| mstatusUbe ||| mstatusUxl ||| sdBit isa

def adjustSd (isa : Isa) (val : Reg) : Reg :=
  if val &&& mstatusFs = mstatusFs ∨ val &&& mstatusVs = mstatusVs ∨ val &&& mstatusXs = mstatusXs
  then val ||| sdBit isa else val &&& ~~~sdBit isa

namespace State
variable (s : State isa)

def henvcfgRead : Reg :=
  (s.menvcfg ||| ~~~(menvcfgPbmte ||| menvcfgStce ||| menvcfgAdue ||| menvcfgDte ||| menvcfgSse)) &&& s.henvcfg

def sdtHidden (envcfg : Reg) : Reg := if envcfg &&& menvcfgDte ≠ 0 then 0 else mstatusSdt
def dropSie (val : Reg) : Reg := if val &&& mstatusSdt ≠ 0 then val &&& ~~~mstatusSie else val
def vsstatusRead : Reg := s.vsstatus &&& (sstatusReadMask isa &&& ~~~sdtHidden s.henvcfgRead)

def vsstatusWrite (val : Reg) : State isa :=
  let mask := computeSstatusWriteMask isa &&& ~~~sdtHidden s.henvcfgRead
  { s with vsstatus := adjustSd isa (dropSie ((s.vsstatus &&& ~~~mask) ||| (val &&& mask))) }

def mstatusRead : Reg := s.mstatus &&& ~~~sdtHidden s.menvcfg

def mstatusWriteMask : Reg :=
  (computeSstatusWriteMask isa &&& ~~~sdtHidden s.menvcfg) ||| mstatusMie ||| mstatusMpie |||
    (if isa.extU then mstatusMprv else 0) ||| mstatusMpp ||| (if isa.extU then mstatusTw else 0) |||
    (if isa.extS then mstatusTsr else 0) ||| (if hasPage isa then mstatusTvm else 0) |||
    (if s.misaH then mstatusGva else 0) ||| (if s.misaH then mstatusMpv else 0) |||
    (if isa.extSmdbltrp then mstatusMdt else 0) |||
    (if isa.extZicfilp then mstatusMpelp ||| (if isa.extS then mstatusSpelp else 0) else 0)

def mstatusNext (val : Reg) : Reg :=
  let requested := legalizePrivilege isa ((getField val mstatusMpp).setWidth 2)
  let adjusted := setField val mstatusMpp requested.reg
  let merged := (s.mstatus &&& ~~~mstatusWriteMask s) ||| (adjusted &&& mstatusWriteMask s)
  let machine := if merged &&& mstatusMdt ≠ 0 then merged &&& ~~~mstatusMie else merged
  adjustSd isa (dropSie machine)

def mstatusWrite (val : Reg) : State isa := { s with mstatus := mstatusNext s val }

/-- `mstatush` rewrites `mstatus` with its upper half; it exists on RV32 only. -/
def mstatushWrite (val : Reg) : State isa :=
  match isa.maxXlen with
  | .rv32 => mstatusWrite s ((s.mstatusRead <<< 32 >>> 32) ||| ((val &&& 0xffffffff) <<< 32))
  | .rv64 => s

def nonvirtualSstatusRead : Reg :=
  s.mstatusRead &&& (sstatusReadMask isa &&& ~~~sdtHidden s.menvcfg)

def nonvirtualSstatusWrite (val : Reg) : State isa :=
  let mask := computeSstatusWriteMask isa &&& ~~~sdtHidden s.menvcfg
  mstatusWrite s (dropSie ((s.mstatusRead &&& ~~~mask) ||| (val &&& mask)))

def sstatusRead : Reg := if s.mode.virt then s.vsstatusRead else s.nonvirtualSstatusRead

def sstatusWrite (val : Reg) : State isa :=
  if s.mode.virt then s.vsstatusWrite val else s.nonvirtualSstatusWrite val

def hstatusWrite (val : Reg) : State isa :=
  let mask := (if isa.extSvukte then hstatusHukte else 0) ||| hstatusVtsr ||| hstatusVtw |||
    (if isa.hasMmu then hstatusVtvm else 0) ||| (if isa.extSsnpm then hstatusHupmm else 0) |||
    hstatusHu ||| hstatusSpvp ||| hstatusSpv ||| hstatusGva
  let pmm := getField val hstatusHupmm
  let adjusted := setField val hstatusHupmm (if pmm ≠ 1 then pmm else 0)
  { s with hstatus := (s.hstatus &&& ~~~mask) ||| (adjusted &&& mask) }

def nmie : Bool :=
  match s.mnstatus with
  | none => true
  | some mnstatus => getField mnstatus mnstatusNmie != 0

end State

open State
variable {isa : Isa}

def selectAnInterruptWithDefaultPriority (enabled : Reg) : Reg :=
  if enabled >>> (irqLcof + 1) ≠ 0 then enabled >>> (irqLcof + 1) <<< (irqLcof + 1)
  else if enabled &&& mipMeip ≠ 0 then mipMeip
  else if enabled &&& mipMsip ≠ 0 then mipMsip
  else if enabled &&& mipMtip ≠ 0 then mipMtip
  else if enabled &&& mipSeip ≠ 0 then mipSeip
  else if enabled &&& mipSsip ≠ 0 then mipSsip
  else if enabled &&& mipStip ≠ 0 then mipStip
  else if enabled &&& mipLcofip ≠ 0 then mipLcofip
  else if enabled &&& mipVseip ≠ 0 then mipVseip
  else if enabled &&& mipVssip ≠ 0 then mipVssip
  else if enabled &&& mipVstip ≠ 0 then mipVstip
  else enabled

namespace State
variable (s : State isa)

def midelegRead : Reg := if s.misaH then s.mideleg ||| mipHsMask else s.mideleg
def hidelegRead : Reg := s.hideleg &&& s.midelegRead

def mipRead : Reg :=
  s.mip ||| s.hvip ||| (if s.mvien &&& mipSeip ≠ 0 then 0 else s.mvip &&& mipSeip)

def mvipRead : Reg :=
  (s.mvip &&& mipSeip) ||| (if s.menvcfg &&& menvcfgStce ≠ 0 then 0 else s.mipRead &&& mipStip) |||
    ((if s.mvien &&& mipSsip ≠ 0 then s.mvip else s.mipRead) &&& mipSsip)

def mvienMask : Reg := ~~~s.midelegRead &&& s.mvien

def nonvirtualSipRead : Reg :=
  (s.mipRead &&& s.midelegRead &&& ~~~mipHsMask &&& ~~~s.mvienMask) ||| (s.mvipRead &&& s.mvienMask)

def nonvirtualSieRead : Reg :=
  (s.mie &&& s.midelegRead &&& ~~~mipHsMask &&& ~~~s.mvienMask) ||| (s.sie &&& s.mvienMask)

def vsEnabledInterrupts : Reg := (s.mipRead &&& s.mie &&& s.hidelegRead) >>> 1

def vstopiIdentity : Option Reg :=
  let iid := getField s.hvictl hvictlIid
  let enabled := s.vsEnabledInterrupts
  if s.hvictl &&& hvictlVti ≠ 0 then
    if enabled &&& mipSeip = 0 ∧ iid = irqSExt then none
    else if enabled &&& mipSeip ≠ 0 ∧ (iid = irqSExt ∨ s.hvictl &&& hvictlDpr ≠ 0) then some irqSExt
    else some iid
  else if enabled = 0 then none
  else some (BitVec.ofNat 64 (ctz (selectAnInterruptWithDefaultPriority enabled)))

def vstopiPriority (identity : Reg) : Reg :=
  let iid := getField s.hvictl hvictlIid
  let iprio := getField s.hvictl hvictlIprio
  let dpr := s.hvictl &&& hvictlDpr ≠ 0
  let vgein := getField s.hstatus hstatusVgein
  let virtualSeiPriority := if vgein = 0 ∧ iid = irqSExt ∧ iprio ≠ 0 then iprio else 255
  if identity = irqSExt then virtualSeiPriority
  else if s.hvictl &&& hvictlVti ≠ 0 then if iprio ≠ 0 ∨ ¬dpr then iprio else 255
  else 255

def vstopiRead : Reg :=
  match s.vstopiIdentity with
  | none => 0
  | some identity =>
    setField (if s.hvictl &&& hvictlIpriom ≠ 0 then s.vstopiPriority identity else 1) mtopiIid identity

def enableMask (enabled : Bool) : Reg := if enabled then BitVec.allOnes 64 else 0

def sPendingInterrupts : Reg :=
  if isa.extSsaia then s.nonvirtualSipRead &&& s.nonvirtualSieRead else 0

def vsPendingInterrupt : Reg :=
  if isa.extSsaia then
    (if s.vstopiRead ≠ 0 then (1 : Reg) <<< getField s.vstopiRead mtopiIid else 0) &&& ~~~mipSMask
  else 0

def mEnabled : Bool :=
  s.mode.prv ≠ .m || getField s.mstatusRead mstatusMie != 0

def sieSet : Bool := getField s.sstatusRead mstatusSie != 0

def hsEnabled : Bool :=
  s.mode.virt || s.mode.prv == .u || (s.mode.prv == .s && s.sieSet)

def vsEnabled : Bool := s.mode.prv == .u || (s.mode.prv == .s && s.sieSet)

def mInterrupts (pending : Reg) : Reg :=
  pending &&& ~~~s.midelegRead &&& enableMask s.mEnabled

def hsInterrupts (pending : Reg) : Reg :=
  ((pending &&& (s.midelegRead &&& ~~~s.hidelegRead)) ||| (s.sPendingInterrupts &&& ~~~s.hidelegRead)) &&&
      enableMask s.hsEnabled

def vsInterrupts (pending : Reg) : Reg :=
  ((pending &&& s.hidelegRead) ||| s.vsPendingInterrupt) &&& enableMask s.vsEnabled

end State

inductive Level where
  | vs
  | hs
  | m
deriving DecidableEq, Repr

namespace State

def enabledInterrupts (s : State isa) (pending : Reg) : Level × Reg :=
  if s.mInterrupts pending ≠ 0 then (.m, s.mInterrupts pending)
  else if s.mode.virt && s.hsInterrupts pending == 0 then (.vs, s.vsInterrupts pending)
  else (.hs, s.hsInterrupts pending)

def interruptBit (isa : Isa) : Reg := (1 : Reg) <<< (isa.maxXlen.bits - 1)

def takeInterrupt (s : State isa) (pending : Reg) : Option Reg :=
  if pending = 0 ∧ s.sPendingInterrupts = 0 ∧ s.vsPendingInterrupt = 0 then none
  else
    let enabled := (s.enabledInterrupts pending).2
    if !s.debugMode && s.nmie && enabled != 0 then
      some (interruptBit isa ||| BitVec.ofNat 64 (ctz (selectAnInterruptWithDefaultPriority enabled)))
    else none

end State

structure Trap where
  cause : Reg
  hasGva : Bool
  tval : Reg
  tval2 : Reg
  tinst : Reg
deriving DecidableEq, Repr

/-- `take_trap` ends in the handler of some level, in the debug ROM or in the
  critical-error state. `hvictl` is looked up in the CSR map, where it is absent
  without H. -/
inductive TrapOutcome (isa : Isa) where
  | handled (level : Level) (s : State isa)
  | debugRom (s : State isa)
  | criticalError
  | noHvictl

def boolReg (value : Bool) : Reg := if value then 1 else 0

namespace Trap

def interrupt (isa : Isa) (t : Trap) : Bool := t.cause &&& State.interruptBit isa != 0

def bit (isa : Isa) (t : Trap) : Reg :=
  if t.interrupt isa then t.cause &&& ~~~State.interruptBit isa else t.cause

end Trap

namespace State
variable (s : State isa)

def belowM : Bool := s.mode.prv != .m

def vsdeleg (t : Trap) : Reg :=
  if s.mode.virt && s.belowM then
    if t.interrupt isa then s.hidelegRead else s.medeleg &&& s.hedeleg
  else 0

def hsdeleg (t : Trap) : Reg :=
  if s.belowM then
    if t.interrupt isa then s.midelegRead ||| s.nonvirtualSipRead else s.medeleg
  else 0

def delegates (t : Trap) (deleg : Reg) : Bool :=
  s.belowM && decide ((t.bit isa).toNat < isa.maxXlen.bits) && (deleg >>> t.bit isa) &&& 1 != 0

/-- A trap taken while SDT of its handler is set goes to M-mode. -/
def supvDoubleTrap (t : Trap) : Bool :=
  (s.delegates t (s.vsdeleg t) || s.delegates t (s.hsdeleg t)) &&
    getField (if s.delegates t (s.vsdeleg t) then s.sstatusRead else s.nonvirtualSstatusRead) mstatusSdt != 0

/-- The `hvictl.VTI` injection test. It looks at the trap number only. -/
def vti (t : Trap) : Bool :=
  isa.extSsaia && s.hvictl &&& hvictlVti != 0 && getField s.hvictl hvictlIid != irqSExt &&
    getField s.hvictl hvictlIid == t.bit isa &&
    getField s.vstopiRead mtopiIid == getField s.hvictl hvictlIid

def trapLevel (t : Trap) : Level :=
  let double := s.supvDoubleTrap t
  if (!double && s.delegates t (s.vsdeleg t)) || s.vti t then .vs
  else if !double && s.delegates t (s.hsdeleg t) then .hs
  else .m

def vectored (tvec : Reg) (interrupt : Bool) (cause : Reg) : Reg :=
  (tvec &&& ~~~1) + if tvec &&& 1 != 0 && interrupt then 4 * cause else 0

def sEntryStatus (status : Reg) (prv : Prv) (elp double : Bool) : Reg :=
  let status := setField status mstatusSpie (getField status mstatusSie)
  let status := setField status mstatusSpp prv.reg
  let status := setField status mstatusSie 0
  let status := setField status mstatusSpelp (boolReg elp)
  if double then setField status mstatusSdt 1 else status

def trapToVs (t : Trap) (epc : Reg) : State isa :=
  let interrupt := t.interrupt isa
  let bit := t.bit isa
  let adjustedCause := if interrupt && decide (bit.toNat ≤ irqVsExt.toNat) && !s.vti t then bit - 1 else bit
  let entered :=
    { s with
      pc := vectored s.vstvec interrupt adjustedCause
      vscause := adjustedCause ||| if interrupt then interruptBit isa else 0
      vsepc := epc &&& ~~~1
      vstval := t.tval }
  let double := s.menvcfg &&& menvcfgDte != 0 && s.henvcfgRead &&& menvcfgDte != 0
  let status := sEntryStatus entered.sstatusRead s.mode.prv s.elp double
  { ({ entered with elp := false } : State isa).sstatusWrite status with mode := setPrivilege isa .s true }

def hTrapStatus (t : Trap) : Reg :=
  let status := if s.mode.virt then setField s.hstatus hstatusSpvp s.mode.prv.reg else s.hstatus
  setField (setField status hstatusSpv (boolReg s.mode.virt)) hstatusGva (boolReg t.hasGva)

def trapToHs (t : Trap) (epc : Reg) : State isa :=
  let interrupt := t.interrupt isa
  let entered :=
    { s with
      pc := vectored s.stvec interrupt (t.bit isa)
      scause := t.cause
      sepc := epc &&& ~~~1
      stval := t.tval
      htval := t.tval2
      htinst := t.tinst }
  let status := sEntryStatus entered.nonvirtualSstatusRead s.mode.prv s.elp (s.menvcfg &&& menvcfgDte != 0)
  let banked := ({ entered with elp := false } : State isa).nonvirtualSstatusWrite status
  let recorded := if s.misaH then banked.hstatusWrite (hTrapStatus s t) else banked
  { recorded with mode := setPrivilege isa .s false }

/-- M-mode entry; `none` is the critical error of a second M-level trap. -/
def trapToM (t : Trap) (epc : Reg) : Option (State isa) :=
  let read := s.mstatusRead
  if isa.extSmdbltrp && (getField read mstatusMdt != 0 || !s.nmie) then none
  else
    let status := if isa.extSmdbltrp then setField read mstatusMdt 1 else read
    let status := setField status mstatusMpie (getField status mstatusMie)
    let status := setField status mstatusMpp s.mode.prv.reg
    let status := setField status mstatusMie 0
    let status := setField status mstatusMpv (boolReg s.mode.virt)
    let status := setField status mstatusGva (boolReg t.hasGva)
    let status := setField status mstatusMpelp (boolReg s.elp)
    let double := s.supvDoubleTrap t
    let entered :=
      { s with
        pc := if s.nmie then vectored s.mtvec (t.interrupt isa) (t.bit isa) else 0
        mepc := epc &&& ~~~1
        mcause := if double then causeDoubleTrap else t.cause
        mtval := t.tval
        mtval2 := if double then t.cause else t.tval2
        mtinst := t.tinst
        elp := false
        tcontrol := s.tcontrol.map fun tcontrol => if tcontrol &&& tcontrolMte ≠ 0 then tcontrolMpte else 0 }
    some { (entered.mstatusWrite status).mstatushWrite (status >>> 32) with mode := setPrivilege isa .m false }

def takeTrap (t : Trap) (epc : Reg) : TrapOutcome isa :=
  if s.debugMode then
    .debugRom { s with pc := if t.cause = causeBreakpoint then debugRomEntry else debugRomTvec }
  else if isa.extSsaia && !isa.extH then .noHvictl
  else match s.trapLevel t with
    | .vs => .handled .vs (s.trapToVs t epc)
    | .hs => .handled .hs (s.trapToHs t epc)
    | .m => match s.trapToM t epc with
      | none => .criticalError
      | some taken => .handled .m taken

end State

def Mode.rank (mode : Mode isa) : Nat :=
  match mode.prv, mode.virt with
  | .u, _ => 0
  | .s, true => 1
  | .s, false => 2
  | .m, _ => 3

/-- The guest injection test in terms of `hvictl` and the pending VS external
  interrupt alone: DPR lets that interrupt win over the injected one. -/
def InjectsGuest (s : State isa) (number : Reg) : Prop :=
  isa.extSsaia ∧ s.hvictl &&& hvictlVti ≠ 0 ∧ getField s.hvictl hvictlIid = number ∧
    number ≠ irqSExt ∧ ¬(s.vsEnabledInterrupts &&& mipSeip ≠ 0 ∧ s.hvictl &&& hvictlDpr ≠ 0)

instance (s : State isa) (number : Reg) : Decidable (InjectsGuest s number) :=
  inferInstanceAs (Decidable (_ ∧ _))

theorem iid_fits (reg h : Reg) :
    getField (setField reg mtopiIid (getField h hvictlIid)) mtopiIid = getField h hvictlIid :=
  getField_setField_getField reg h mtopiIid hvictlIid 16 (by decide) (by decide) (by decide) (by decide)
    (by decide)

theorem sExt_fits (reg : Reg) : getField (setField reg mtopiIid irqSExt) mtopiIid = irqSExt :=
  getField_setField reg mtopiIid irqSExt 16 (by decide) (by decide) (by decide)

theorem State.vti_iff (s : State isa) (t : Trap) : s.vti t ↔ InjectsGuest s (t.bit isa) := by
  simp only [vti, Bool.and_eq_true, bne_iff_ne, beq_iff_eq]
  constructor
  · rintro ⟨⟨⟨⟨aia, hi⟩, ho⟩, hs⟩, ht⟩
    refine ⟨aia, hi, hs, hs ▸ ho, ?_⟩
    rintro ⟨he, hp⟩
    have named : s.vstopiIdentity = some irqSExt := by
      rw [vstopiIdentity, if_pos hi, if_neg (fun hb => he hb.1), if_pos ⟨he, .inr hp⟩]
    rw [vstopiRead, named] at ht
    exact ho ((sExt_fits _).symm.trans ht).symm
  · rintro ⟨aia, hi, hs, ho, hf⟩
    have ha : getField s.hvictl hvictlIid ≠ irqSExt := hs ▸ ho
    refine ⟨⟨⟨⟨aia, hi⟩, ha⟩, hs⟩, ?_⟩
    have named : s.vstopiIdentity = some (getField s.hvictl hvictlIid) := by
      have hl : ¬(s.vsEnabledInterrupts &&& mipSeip ≠ 0 ∧
          (getField s.hvictl hvictlIid = irqSExt ∨ s.hvictl &&& hvictlDpr ≠ 0)) := by
        rintro ⟨he, hp⟩
        exact hf ⟨he, hp.resolve_left ha⟩
      rw [vstopiIdentity, if_pos hi, if_neg (fun hb => ha hb.2), if_neg hl]
    rw [vstopiRead, named]
    exact iid_fits _ _

def Mode.RaisedBy (before after : Mode isa) : Prop :=
  before.rank ≤ after.rank ∧ (after.virt → before.virt)

instance (before after : Mode isa) : Decidable (before.RaisedBy after) := inferInstanceAs (Decidable (_ ∧ _))

theorem Mode.raised_m (md : Mode isa) : md.RaisedBy (setPrivilege isa .m false) := by
  obtain ⟨prv, v, hl, hb⟩ := md
  simp only [RaisedBy, rank, setPrivilege, legalizePrivilege, Prv.code]
  cases isa.extU <;> cases prv <;> cases v <;> simp

theorem guestIsBelow : (Prv.s != Prv.m) ∧ (Prv.u != Prv.m) := by decide

theorem Mode.raised_hs {md : Mode isa} (hb : md.prv ≠ .m) : md.RaisedBy (setPrivilege isa .s false) := by
  obtain ⟨prv, v, hl, hi⟩ := md
  simp only [RaisedBy, rank, setPrivilege] at hl hb ⊢
  cases hu : isa.extU <;> cases hs : isa.extS <;> cases prv <;> cases v <;> simp_all

theorem Mode.raised_vs_iff (md : Mode isa) : md.RaisedBy (setPrivilege isa .s true) ↔ md.virt ∨ isa.extU = false := by
  obtain ⟨prv, v, hl, hi⟩ := md
  simp only [RaisedBy, rank, setPrivilege, legalizePrivilege, Prv.code] at hl hi ⊢
  cases hu : isa.extU <;> cases hs : isa.extS <;> cases prv <;> cases v <;> simp_all [guestIsBelow]

variable {s : State isa} {t : Trap}

theorem State.vsdeleg_virt (hd : s.delegates t (s.vsdeleg t)) : s.mode.virt := by
  cases hv : s.mode.virt with
  | true => rfl
  | false => simp [delegates, vsdeleg, hv] at hd

theorem State.trapToM_mode {ta : State isa} {epc : Reg} (h : s.trapToM t epc = some ta) :
    ta.mode = setPrivilege isa .m false := by
  simp only [trapToM] at h
  split at h
  · cases h
  · cases h
    rfl

theorem State.takeTrap_eq (t : Trap) (epc : Reg) (hr : s.debugMode = false) (hm : isa.extSsaia → isa.extH) :
    s.takeTrap t epc = match s.trapLevel t with
      | .vs => .handled .vs (s.trapToVs t epc)
      | .hs => .handled .hs (s.trapToHs t epc)
      | .m => match s.trapToM t epc with
        | none => .criticalError
        | some taken => .handled .m taken := by
  have hp : (isa.extSsaia && !isa.extH) = false := by
    cases ha : isa.extSsaia <;> simp_all
  simp only [takeTrap, hr, hp]
  rfl

theorem State.trapLevel_vs_iff (s : State isa) (t : Trap) :
    s.trapLevel t = .vs ↔ (s.supvDoubleTrap t = false ∧ s.delegates t (s.vsdeleg t)) ∨ s.vti t := by
  simp only [trapLevel]
  grind

theorem State.trapLevel_hs (h : s.trapLevel t = .hs) : s.delegates t (s.hsdeleg t) := by
  simp only [trapLevel] at h
  grind

theorem TrapOutcome.forall_handled {l : Level} {p : State isa → Prop} :
    (∀ o a, TrapOutcome.handled l s = .handled o a → p a) ↔ p s := by
  constructor
  · intro ha
    exact ha l s rfl
  · rintro hh o a ⟨⟩
    exact hh

theorem State.quiet_of_level (hl : s.trapLevel t ≠ .vs) : ¬InjectsGuest s (t.bit isa) := by
  rw [← vti_iff]
  intro hi
  exact hl ((s.trapLevel_vs_iff t).mpr (.inr hi))

/-- Trap delivery outside debug mode raises the privilege and stays out of the guest
  exactly unless an injected interrupt number is met with V = 0. -/
theorem takeTrap_raises_iff {s : State isa} (trap : Trap) (epc : Reg) (running : s.debugMode = false) :
    (∀ level after, s.takeTrap trap epc = .handled level after → s.mode.RaisedBy after.mode) ↔
      ¬(isa.extH = true ∧ InjectsGuest s (trap.bit isa) ∧ s.mode.virt = false ∧ isa.extU = true) := by
  by_cases implied : isa.extSsaia → isa.extH
  · rw [takeTrap_eq trap epc running implied]
    cases level : s.trapLevel trap with
    | vs =>
      rw [TrapOutcome.forall_handled]
      change s.mode.RaisedBy (setPrivilege isa .s true) ↔ _
      rw [Mode.raised_vs_iff, ← vti_iff]
      rcases (s.trapLevel_vs_iff trap).mp level with ⟨-, deleg⟩ | injects
      · simp [vsdeleg_virt deleg]
      · have guests : isa.extH := implied ((s.vti_iff trap).mp injects).1
        cases s.mode.virt <;> cases isa.extU <;> simp [injects, guests]
    | hs =>
      rw [TrapOutcome.forall_handled]
      have below : s.mode.prv ≠ .m := by
        have chosen := trapLevel_hs level
        simp only [delegates, belowM, Bool.and_eq_true, bne_iff_ne] at chosen
        exact chosen.1.1
      have quiet : ¬InjectsGuest s (trap.bit isa) := quiet_of_level (by simp [level])
      simp only [quiet, false_and, and_false, not_false_eq_true, iff_true]
      exact Mode.raised_hs below
    | m =>
      have quiet : ¬InjectsGuest s (trap.bit isa) := quiet_of_level (by simp [level])
      simp only [quiet, false_and, and_false, not_false_eq_true, iff_true]
      intro level after handled
      split at handled
      · cases handled
      · rename_i taken entered
        cases handled
        rw [trapToM_mode entered]
        exact s.mode.raised_m
  · have lacks : isa.extSsaia ∧ isa.extH = false := by simpa using implied
    simp [takeTrap, running, lacks]

def fullIsa : Isa where
  maxXlen := .rv64
  extU := true
  extS := true
  extF := true
  extH := true
  extZfinx := false
  extZicfilp := false
  extSsdbltrp := false
  extSmdbltrp := false
  extSsaia := true
  extSvukte := false
  extSsnpm := false
  anyVector := false
  anyCustom := false
  hasMmu := true

def clearState (prv : Prv) (virt : Bool) : State fullIsa where
  mode := setPrivilege fullIsa prv virt
  debugMode := false
  misaH := true
  elp := false
  pc := 0
  mstatus := 0
  vsstatus := 0
  hstatus := 0
  mnstatus := none
  menvcfg := 0
  henvcfg := 0
  medeleg := 0
  hedeleg := 0
  mideleg := 0
  hideleg := 0
  mip := 0
  mie := 0
  sie := 0
  mvien := 0
  mvip := 0
  hvip := 0
  hvictl := 0
  mtvec := 0
  stvec := 0
  vstvec := 0
  mepc := 0
  sepc := 0
  vsepc := 0
  mcause := 0
  scause := 0
  vscause := 0
  mtval := 0
  stval := 0
  vstval := 0
  mtval2 := 0
  htval := 0
  mtinst := 0
  htinst := 0
  tcontrol := none
  hidelegMasked := by decide
  mvienMasked := by decide

def plainTrap (cause : Reg) : Trap where
  cause := cause
  hasGva := false
  tval := 0
  tval2 := 0
  tinst := 0

theorem ecall_raises : (clearState .u false).debugMode = false ∧
    ∀ level after, (clearState .u false).takeTrap (plainTrap 8) 0 = .handled level after →
      (clearState .u false).mode.RaisedBy after.mode :=
  ⟨rfl, (takeTrap_raises_iff (plainTrap 8) 0 rfl).mpr (by decide)⟩

theorem machine_ecall_enters_guest :
    ∃ after, { clearState .m false with hvictl := 0x400b0000 }.takeTrap (plainTrap 11) 0 = .handled .vs after ∧
      after.mode.prv = .s ∧ after.mode.virt ∧ ¬(clearState .m false).mode.RaisedBy after.mode := by
  refine ⟨_, rfl, by decide, by decide, by decide⟩

end RiscvEmulators.Spike
