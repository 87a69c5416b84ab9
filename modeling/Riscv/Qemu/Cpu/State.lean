import Riscv.Word.Field

namespace RiscvEmulators.Qemu.Cpu
open Word

def mstatusUie : W64 := 0x00000001
def mstatusSie : W64 := 0x00000002
def mstatusMie : W64 := 0x00000008
def mstatusUpie : W64 := 0x00000010
def mstatusSpie : W64 := 0x00000020
def mstatusMpie : W64 := 0x00000080
def mstatusSpp : W64 := 0x00000100
def mstatusVs : W64 := 0x00000600
def mstatusMpp : W64 := 0x00001800
def mstatusFs : W64 := 0x00006000
def mstatusXs : W64 := 0x00018000
def mstatusMprv : W64 := 0x00020000
def mstatusSum : W64 := 0x00040000
def mstatusMxr : W64 := 0x00080000
def mstatusTvm : W64 := 0x00100000
def mstatusTw : W64 := 0x00200000
def mstatusTsr : W64 := 0x00400000
def mstatusSpelp : W64 := 0x00800000
def mstatusSdt : W64 := 0x01000000
def mstatusMpelp : W64 := 0x020000000000
def mstatusGva : W64 := 0x4000000000
def mstatusMpv : W64 := 0x8000000000
def mstatusMdt : W64 := 0x40000000000
def mstatus64Uxl : W64 := 0x0000000300000000
def mstatus64Sxl : W64 := 0x0000000C00000000
def mstatus32Sd : W64 := 0x80000000
def mstatus64Sd : W64 := 0x8000000000000000

def hstatusGva : W64 := 0x00000040
def hstatusSpv : W64 := 0x00000080
def hstatusSpvp : W64 := 0x00000100
def hstatusVtsr : W64 := 0x00400000

def mnstatusNmie : W64 := 0x00000008
def mnstatusMnpv : W64 := 0x00000080
def mnstatusMnpelp : W64 := 0x00000200
def mnstatusMnpp : W64 := 0x00001800

def menvcfgLpe : W64 := 0x4
def menvcfgSse : W64 := 0x8
def menvcfgDte : W64 := 0x0800000000000000
def menvcfgAdue : W64 := 0x2000000000000000
def menvcfgPbmte : W64 := 0x4000000000000000
def menvcfgStce : W64 := 0x8000000000000000
def mseccfgMlpe : W64 := 0x400

def excpInstAddrMis : W64 := 0x0
def excpInstAccessFault : W64 := 0x1
def excpIllegalInst : W64 := 0x2
def excpBreakpoint : W64 := 0x3
def excpLoadAddrMis : W64 := 0x4
def excpLoadAccessFault : W64 := 0x5
def excpStoreAmoAddrMis : W64 := 0x6
def excpStoreAmoAccessFault : W64 := 0x7
def excpUEcall : W64 := 0x8
def excpSEcall : W64 := 0x9
def excpVsEcall : W64 := 0xa
def excpMEcall : W64 := 0xb
def excpInstPageFault : W64 := 0xc
def excpLoadPageFault : W64 := 0xd
def excpStorePageFault : W64 := 0xf
def excpDoubleTrap : W64 := 0x10
def excpSwCheck : W64 := 0x12
def excpInstGuestPageFault : W64 := 0x14
def excpLoadGuestAccessFault : W64 := 0x15
def excpVirtInstructionFault : W64 := 0x16
def excpStoreGuestAmoAccessFault : W64 := 0x17
def excpSemihost : W64 := 0x3f

def irqVsSoft : W64 := 2
def irqVsTimer : W64 := 6
def irqVsExt : W64 := 10

/-- Privilege levels a hart can run at. The reserved encoding 2 is refused by
  `riscv_cpu_set_mode`. -/
inductive Priv where
  | user
  | supervisor
  | machine
deriving DecidableEq, Repr

def Priv.code : Priv → W64
  | .user => 0
  | .supervisor => 1
  | .machine => 3

inductive Mxl where
  | rv32
  | rv64
  | rv128
deriving DecidableEq, Repr

inductive PrivVersion where
  | v1_10
  | v1_11
  | v1_12
  | v1_13
deriving DecidableEq, Repr

def PrivVersion.atLeast112 : PrivVersion → Bool
  | .v1_10 | .v1_11 => false
  | .v1_12 | .v1_13 => true

structure RISCVCPUConfig where
  extZca : Bool
  extZve32x : Bool
  extZicfilp : Bool
  extZicfiss : Bool
  extSmrnmi : Bool
  extSmdbltrp : Bool
  extSsdbltrp : Bool
  extSvpbmt : Bool
  extSvadu : Bool
  extSstc : Bool
  extSmcdeleg : Bool
  extSmnpm : Bool
  extSsnpm : Bool
deriving DecidableEq, Repr

structure MisaExt where
  rvf : Bool
  rvc : Bool
  rvs : Bool
  rvu : Bool
  rvh : Bool
deriving DecidableEq, Repr

/-- Environment configuration registers. Their writers let DTE through only when
  Ssdbltrp is implemented, which the last field records. -/
structure EnvCfg (cfg : RISCVCPUConfig) where
  menvcfg : W64
  senvcfg : W64
  henvcfg : W64
  dteImplemented : cfg.extSsdbltrp = false → menvcfg &&& menvcfgDte = 0 ∧ henvcfg &&& menvcfgDte = 0

structure CPURISCVState where
  cfg : RISCVCPUConfig
  misaExt : MisaExt
  misaMxl : Mxl
  privVer : PrivVersion
  envcfg : EnvCfg cfg
  mseccfg : W64
  priv : Priv
  virtEnabled : Bool
  xl : W64
  debugger : Bool
  elp : Bool
  pc : W64
  mstatus : W64
  mstatusHs : W64
  vsstatus : W64
  hstatus : W64
  mnstatus : W64
  stvec : W64
  stvecHs : W64
  vstvec : W64
  sscratch : W64
  sscratchHs : W64
  vsscratch : W64
  sepc : W64
  sepcHs : W64
  vsepc : W64
  scause : W64
  scauseHs : W64
  vscause : W64
  stval : W64
  stvalHs : W64
  vstval : W64
  satp : W64
  satpHs : W64
  vsatp : W64
  htval : W64
  mtvec : W64
  mepc : W64
  mcause : W64
  mtval : W64
  mtval2 : W64
  mncause : W64
  mnepc : W64
  rnmip : W64
  rnmiIrqvec : W64
  rnmiExcpvec : W64
  medeleg : W64
  mideleg : W64
  hedeleg : W64
  hideleg : W64
  mip : W64
  mvip : W64
  mvien : W64
  hvip : W64
  hvien : W64

def Mxl.code : Mxl → W64
  | .rv32 => 1
  | .rv64 => 2
  | .rv128 => 3

section
variable (env : CPURISCVState)

def riscvEnvSmodeDbltrpEnabled (virt : Bool) : Bool :=
  if virt then env.envcfg.henvcfg &&& menvcfgDte != 0
  else env.envcfg.menvcfg &&& menvcfgDte != 0

def cpuGetFcfien : Bool :=
  if !env.cfg.extZicfilp then false
  else match env.priv with
    | .user =>
      if env.misaExt.rvs then env.envcfg.senvcfg &&& menvcfgLpe != 0
      else env.envcfg.menvcfg &&& menvcfgLpe != 0
    | .supervisor =>
      if env.virtEnabled then env.envcfg.henvcfg &&& menvcfgLpe != 0
      else env.envcfg.menvcfg &&& menvcfgLpe != 0
    | .machine => env.mseccfg &&& mseccfgMlpe != 0

def cpuGetXl (mode : Priv) : W64 :=
  if env.misaMxl = .rv32 then env.misaMxl.code
  else match mode with
    | .machine => env.misaMxl.code
    | .user => getField env.mstatus mstatus64Uxl
    | .supervisor => getField env.mstatus mstatus64Sxl

def cpuRecomputeXl : W64 := cpuGetXl env env.priv

def riscvCpuSxl : W64 :=
  if env.misaMxl = .rv32 then Mxl.rv32.code else getField env.mstatus mstatus64Sxl

/-- The `mstatus` fields that are exchanged when V changes. SDT depends on the
  direction: DTE is read from the mode that is being left. -/
def swapMask : W64 :=
  mstatusMxr ||| mstatusSum ||| mstatusSpp ||| mstatusSpie ||| mstatusSie ||| mstatus64Uxl ||| mstatusVs |||
    (if env.misaExt.rvf then mstatusFs else 0) |||
    (if env.cfg.extZicfilp && getField env.envcfg.henvcfg menvcfgLpe != 0 then mstatusSpelp else 0) |||
    (if riscvEnvSmodeDbltrpEnabled env env.virtEnabled then mstatusSdt else 0)

def riscvCpuSwapHypervisorRegs : CPURISCVState :=
  if env.virtEnabled then
    { env with
      vsstatus := env.mstatus &&& swapMask env
      mstatus := (env.mstatus &&& ~~~swapMask env) ||| env.mstatusHs
      vstvec := env.stvec, stvec := env.stvecHs
      vsscratch := env.sscratch, sscratch := env.sscratchHs
      vsepc := env.sepc, sepc := env.sepcHs
      vscause := env.scause, scause := env.scauseHs
      vstval := env.stval, stval := env.stvalHs
      vsatp := env.satp, satp := env.satpHs }
  else
    { env with
      mstatusHs := env.mstatus &&& swapMask env
      mstatus := (env.mstatus &&& ~~~swapMask env) ||| env.vsstatus
      stvecHs := env.stvec, stvec := env.vstvec
      sscratchHs := env.sscratch, sscratch := env.vsscratch
      sepcHs := env.sepc, sepc := env.vsepc
      scauseHs := env.scause, scause := env.vscause
      stvalHs := env.stval, stval := env.vstval
      satpHs := env.satp, satp := env.vsatp }

def riscvCpuSetMode (newpriv : Priv) (virtEn : Bool) : CPURISCVState :=
  { env with
    priv := newpriv
    xl := cpuGetXl env newpriv
    virtEnabled := if env.misaExt.rvh then virtEn else env.virtEnabled }

end

inductive StatusCsr where
  | sstatus
  | vsstatus
deriving DecidableEq, Repr

def StatusCsr.csrPriv : StatusCsr → Nat
  | .sstatus => 1
  | .vsstatus => 2

def StatusCsr.minPriv112 : StatusCsr → Bool
  | .sstatus => false
  | .vsstatus => true

def StatusCsr.predicate (csr : StatusCsr) (env : CPURISCVState) : Bool :=
  match csr with
  | .sstatus => env.misaExt.rvs
  | .vsstatus => env.misaExt.rvh

variable (env : CPURISCVState)

def riscvCsrrwCheck (csr : StatusCsr) : Option W64 :=
  let effectivePriv := env.priv.code.toNat +
    if env.misaExt.rvh && env.priv == .supervisor && !env.virtEnabled then 1 else 0
  if csr.minPriv112 && !env.privVer.atLeast112 then some excpIllegalInst
  else if !csr.predicate env then some excpIllegalInst
  else if !env.debugger && decide (effectivePriv < csr.csrPriv) then
    if env.virtEnabled then some excpVirtInstructionFault else some excpIllegalInst
  else none

def legalizeMpp (oldMpp val : W64) : W64 :=
  let newMpp := getField val mstatusMpp
  let valid :=
    if newMpp = Priv.machine.code then true
    else if newMpp = Priv.supervisor.code then env.misaExt.rvs
    else if newMpp = Priv.user.code then env.misaExt.rvu
    else false
  if valid then val else setField val mstatusMpp oldMpp

/-- The value `write_mstatus` merges: MPP legalized, then SIE and MIE dropped where
  a double-trap bit is being set. -/
def mstatusLegalized (val : W64) : W64 :=
  let legal := legalizeMpp env (getField env.mstatus mstatusMpp) val
  let supervisor :=
    if riscvEnvSmodeDbltrpEnabled env env.virtEnabled && legal &&& mstatusSdt != 0
    then legal &&& ~~~mstatusSie else legal
  if env.cfg.extSmdbltrp && supervisor &&& mstatusMdt != 0
  then supervisor &&& ~~~mstatusMie else supervisor

def mstatusWriteMask (val : W64) : W64 :=
  mstatusSie ||| mstatusSpie ||| mstatusMie ||| mstatusMpie ||| mstatusSpp ||| mstatusMprv |||
    mstatusSum ||| mstatusMpp ||| mstatusMxr ||| mstatusTvm ||| mstatusTsr ||| mstatusTw |||
    (if env.misaExt.rvf then mstatusFs else 0) |||
    (if env.cfg.extZve32x then mstatusVs else 0) |||
    (if riscvEnvSmodeDbltrpEnabled env env.virtEnabled then mstatusSdt else 0) |||
    (if env.cfg.extSmdbltrp then mstatusMdt else 0) |||
    (if env.misaMxl ≠ .rv32 ∨ env.debugger then
      (if env.misaExt.rvh then mstatusMpv ||| mstatusGva else 0) |||
        (if val &&& mstatus64Uxl != 0 then mstatus64Uxl else 0)
      else 0) |||
    (if env.cfg.extZicfilp then mstatusMpelp ||| mstatusSpelp else 0)

def writeMstatus (val : W64) : CPURISCVState :=
  let val := mstatusLegalized env val
  let mask := mstatusWriteMask env val
  let written := { env with mstatus := (env.mstatus &&& ~~~mask) ||| (val &&& mask) }
  if env.debugger then { written with xl := cpuRecomputeXl written } else written

theorem writeMstatus_mstatus (env : CPURISCVState) (val : W64) : (writeMstatus env val).mstatus =
    (env.mstatus &&& ~~~mstatusWriteMask env (mstatusLegalized env val)) |||
      (mstatusLegalized env val &&& mstatusWriteMask env (mstatusLegalized env val)) := by
  simp only [writeMstatus]
  split <;> rfl

theorem within_mstatusWriteMask (env : CPURISCVState) (val : W64) {bits : W64}
    (ha : Within (mstatusSie ||| mstatusSpie ||| mstatusMie ||| mstatusMpie ||| mstatusSpp ||| mstatusMprv |||
      mstatusSum ||| mstatusMpp ||| mstatusMxr ||| mstatusTvm ||| mstatusTsr ||| mstatusTw) bits) :
    Within (mstatusWriteMask env val) bits := by
  rw [within_iff] at ha ⊢
  intro i hb hc
  apply ha i hb
  simp only [mstatusWriteMask, BitVec.getElem_or, Bool.or_eq_false_iff] at hc ⊢
  simp [hc]

def sstatusV110Mask : W64 :=
  mstatusSie ||| mstatusSpie ||| mstatusUie ||| mstatusUpie ||| mstatusSpp ||| mstatusFs |||
    mstatusXs ||| mstatusSum ||| mstatusMxr ||| mstatusVs

def sstatusWriteMask (val : W64) : W64 :=
  sstatusV110Mask |||
    (if (env.xl ≠ Mxl.rv32.code ∨ env.debugger) ∧ val &&& mstatus64Uxl ≠ 0 then mstatus64Uxl else 0) |||
    (if env.cfg.extZicfilp then mstatusSpelp else 0) |||
    (if env.cfg.extSsdbltrp then mstatusSdt else 0)

def writeSstatus (val : W64) : CPURISCVState :=
  let mask := sstatusWriteMask env val
  writeMstatus env ((env.mstatus &&& ~~~mask) ||| (val &&& mask))

def writeVsstatus (val : W64) : CPURISCVState :=
  let mask := if val &&& mstatus64Uxl = 0 then ~~~mstatus64Uxl else BitVec.allOnes 64
  let val :=
    if env.envcfg.henvcfg &&& menvcfgDte != 0 then
      if val &&& mstatusSdt != 0 then val &&& ~~~mstatusSie else val
    else val &&& ~~~mstatusSdt
  { env with vsstatus := (env.vsstatus &&& ~~~mask) ||| val }

structure PendingTrap where
  async : Bool
  cause : W64
  alwaysStoreamo : Bool
  badaddr : W64
  bins : W64
  twoStageLookup : Bool
  guestPhysFaultAddr : W64
  swCheckCode : W64
  watchpointHit : Option W64
deriving DecidableEq, Repr

def promoteLoadFault (origCause : W64) : W64 :=
  if origCause = excpLoadGuestAccessFault then excpStoreGuestAmoAccessFault
  else if origCause = excpLoadAccessFault then excpStoreAmoAccessFault
  else if origCause = excpLoadPageFault then excpStorePageFault
  else origCause

def isDataAccessFault (cause : W64) : Bool :=
  cause = excpLoadGuestAccessFault || cause = excpStoreGuestAmoAccessFault || cause = excpLoadAddrMis ||
    cause = excpStoreAmoAddrMis || cause = excpLoadAccessFault || cause = excpStoreAmoAccessFault ||
    cause = excpLoadPageFault || cause = excpStorePageFault

def isFetchFault (cause : W64) : Bool :=
  cause = excpInstGuestPageFault || cause = excpInstAddrMis || cause = excpInstAccessFault || cause = excpInstPageFault

section
variable (env : CPURISCVState)

def trapCause (trap : PendingTrap) : W64 :=
  if trap.async then trap.cause
  else
    let cause :=
      if isDataAccessFault trap.cause && trap.alwaysStoreamo then promoteLoadFault trap.cause else trap.cause
    if cause = excpUEcall then
      match env.priv with
      | .machine => excpMEcall
      | .supervisor => if env.virtEnabled then excpVsEcall else excpSEcall
      | .user => excpUEcall
    else cause

def trapTval (trap : PendingTrap) : W64 :=
  if trap.async then 0
  else if isDataAccessFault trap.cause || isFetchFault trap.cause then trap.badaddr
  else if trap.cause = excpIllegalInst ∨ trap.cause = excpVirtInstructionFault then trap.bins
  else if trap.cause = excpBreakpoint then trap.watchpointHit.getD trap.badaddr
  else if trap.cause = excpSwCheck then trap.swCheckCode
  else 0

def trapWriteGva (trap : PendingTrap) : Bool :=
  !trap.async && (isDataAccessFault trap.cause || isFetchFault trap.cause) && trap.twoStageLookup

/-- Injection terms are indexed by the cause as raised, before any renumbering. -/
def sInjected (trap : PendingTrap) : Bool :=
  env.mvip &&& ((1 : W64) <<< trap.cause) &&& env.mvien != 0 && env.mip &&& ((1 : W64) <<< trap.cause) == 0

def vsInjected (trap : PendingTrap) : Bool :=
  env.hvip &&& ((1 : W64) <<< trap.cause) &&& env.hvien != 0 && env.mip &&& ((1 : W64) <<< trap.cause) == 0

def delegated (deleg cause : W64) : Bool := deleg >>> cause &&& 1 != 0

def trapDelegatedMode (trap : PendingTrap) : Priv :=
  let cause := trapCause env trap
  let deleg := if trap.async then env.mideleg else env.medeleg
  if env.priv ≠ .machine ∧ cause < 64 ∧
      (delegated deleg cause || sInjected env trap || vsInjected env trap) then .supervisor
  else .machine

def vsmodeExc (trap : PendingTrap) : Bool :=
  let cause := trapCause env trap
  let hdeleg := if trap.async then env.hideleg else env.hedeleg
  env.virtEnabled && decide (cause < 64) && (delegated hdeleg cause || vsInjected env trap)

def smodeDoubleTrap (trap : PendingTrap) : Bool :=
  if env.cfg.extSsdbltrp && env.priv == .supervisor && trapDelegatedMode env trap == .supervisor then
    let toVs := env.misaExt.rvh && vsmodeExc env trap
    let dte := if toVs then env.envcfg.henvcfg &&& menvcfgDte != 0 else env.envcfg.menvcfg &&& menvcfgDte != 0
    let sdt :=
      if env.misaExt.rvh && !toVs && env.virtEnabled then env.mstatusHs &&& mstatusSdt != 0
      else env.mstatus &&& mstatusSdt != 0
    dte && sdt
  else false

def trapMode (trap : PendingTrap) : Priv :=
  if smodeDoubleTrap env trap then .machine else trapDelegatedMode env trap

def boolWord (value : Bool) : W64 := if value then 1 else 0

def causeWithFlag (cause : W64) (async : Bool) (xl : W64) : W64 :=
  cause ||| boolWord async <<< ((16 <<< xl.toNat) - 1)

def vectoredPc (tvec cause : W64) (async : Bool) : W64 :=
  (tvec >>> 2 <<< 2) + if async && tvec &&& 3 == 1 then cause * 4 else 0

def sTrapStatus (status : W64) (priv : Priv) (virt : Bool) : W64 :=
  let s := setField status mstatusSpie (getField status mstatusSie)
  let s := setField s mstatusSpp priv.code
  let s := setField s mstatusSie 0
  if riscvEnvSmodeDbltrpEnabled env virt then setField s mstatusSdt 1 else s

/-- Hypervisor bookkeeping before an S-level trap entry: the register bank is
  exchanged only when the trap leaves the guest. -/
def sTrapHypervisor (trap : PendingTrap) : CPURISCVState :=
  if !env.misaExt.rvh then env
  else if vsmodeExc env trap then { env with hstatus := setField env.hstatus hstatusGva 0 }
  else if env.virtEnabled then
    let swapped := riscvCpuSwapHypervisorRegs env
    let hstatus := setField swapped.hstatus hstatusSpvp env.priv.code
    let hstatus := setField hstatus hstatusSpv 1
    { swapped with hstatus := setField hstatus hstatusGva (boolWord (trapWriteGva trap)) }
  else
    { env with
      hstatus := setField (setField env.hstatus hstatusSpv 0) hstatusGva (boolWord (trapWriteGva trap)) }

def saveSpelp : CPURISCVState :=
  if cpuGetFcfien env then { env with mstatus := setField env.mstatus mstatusSpelp (boolWord env.elp) }
  else env

def trapToVs (trap : PendingTrap) : Bool := env.misaExt.rvh && vsmodeExc env trap

def sTrapCause (trap : PendingTrap) : W64 :=
  let cause := trapCause env trap
  if trapToVs env trap && trap.async && (cause == irqVsTimer || cause == irqVsSoft || cause == irqVsExt)
  then cause - 1 else cause

def sTrapVirt (trap : PendingTrap) : Bool :=
  if env.misaExt.rvh && !trapToVs env trap then false else env.virtEnabled

def trapToS (trap : PendingTrap) : CPURISCVState :=
  let cause := sTrapCause env trap
  let virt := sTrapVirt env trap
  let banked := sTrapHypervisor (saveSpelp env) trap
  let status := sTrapStatus banked banked.mstatus env.priv virt
  let taken :=
    { banked with
      mstatus := status
      scause := causeWithFlag cause trap.async (riscvCpuSxl { banked with mstatus := status })
      sepc := banked.pc
      stval := trapTval trap
      htval := if env.misaExt.rvh && !trapToVs env trap then trap.guestPhysFaultAddr else 0
      pc := vectoredPc banked.stvec cause trap.async }
  { riscvCpuSetMode taken .supervisor virt with elp := false }

def riscvDoNmi (cause : W64) (virt : Bool) : CPURISCVState :=
  let mnstatus := setField env.mnstatus mnstatusNmie 0
  let mnstatus := setField mnstatus mnstatusMnpv (boolWord virt)
  let mnstatus := setField mnstatus mnstatusMnpp env.priv.code
  let mnstatus :=
    if cpuGetFcfien env then setField mnstatus mnstatusMnpelp (boolWord env.elp) else mnstatus
  riscvCpuSetMode
    { env with mnstatus := mnstatus, mncause := cause, mnepc := env.pc, pc := env.rnmiIrqvec } .machine false

/-- M-level trap entry; `none` is the `cpu_abort` of a second M-mode double trap or
  the failed assertion that MDT is set in M-mode only. -/
def trapToM (trap : PendingTrap) : Option CPURISCVState :=
  let cause := trapCause env trap
  let tval := trapTval trap
  let nnmiExcep := env.cfg.extSmrnmi && getField env.mnstatus mnstatusNmie == 0 && !trap.async
  let saved :=
    if cpuGetFcfien env then
      if nnmiExcep then { env with mnstatus := setField env.mnstatus mnstatusMnpelp (boolWord env.elp) }
      else { env with mstatus := setField env.mstatus mstatusMpelp (boolWord env.elp) }
    else env
  let banked :=
    if env.misaExt.rvh then
      let swapped := if env.virtEnabled then riscvCpuSwapHypervisorRegs saved else saved
      let status := setField swapped.mstatus mstatusMpv (boolWord env.virtEnabled)
      { swapped with
        mstatus := if env.virtEnabled && tval != 0 then setField status mstatusGva 1 else status }
    else saved
  let virt := if env.misaExt.rvh then false else env.virtEnabled
  let s := setField banked.mstatus mstatusMpie (getField banked.mstatus mstatusMie)
  let s := setField s mstatusMpp env.priv.code
  let s := setField s mstatusMie 0
  let mdt := env.cfg.extSmdbltrp && banked.mstatus &&& mstatusMdt != 0
  if mdt then
    if env.priv ≠ .machine then none
    else if !env.cfg.extSmrnmi || nnmiExcep then none
    else some (riscvDoNmi banked cause false)
  else
    let mcause := causeWithFlag cause trap.async env.misaMxl.code
    let double := smodeDoubleTrap env trap
    let taken :=
      { banked with
        mstatus := if env.cfg.extSmdbltrp then setField s mstatusMdt 1 else s
        mcause := if double then excpDoubleTrap else mcause
        mtval2 := if double then mcause
          else if env.misaExt.rvh then trap.guestPhysFaultAddr else 0
        mepc := banked.pc
        mtval := tval
        pc := if nnmiExcep then banked.rnmiExcpvec else vectoredPc banked.mtvec cause trap.async }
    some { riscvCpuSetMode taken .machine virt with elp := false }

def takesNmi (trap : PendingTrap) : Bool :=
  env.cfg.extSmrnmi && env.rnmip != 0 && trap.async

def takesSemihosting (trap : PendingTrap) : Bool := !trap.async && trap.cause == excpSemihost

def riscvCpuDoInterrupt (trap : PendingTrap) : Option CPURISCVState :=
  if takesNmi env trap then
    some (riscvDoNmi env (causeWithFlag trap.cause true env.misaMxl.code) env.virtEnabled)
  else if takesSemihosting trap then some { env with pc := env.pc + 4 }
  else match trapMode env trap with
    | .machine => trapToM env trap
    | .supervisor | .user => some (trapToS env trap)

end

variable (env : CPURISCVState)

def getXepcMask : W64 := if env.misaExt.rvc then ~~~1 else ~~~3

def riscvCpuAllow16bitInsn : Bool :=
  if env.privVer.atLeast112 then env.cfg.extZca else env.misaExt.rvc

def sretFault : Option W64 :=
  let retpc := env.sepc &&& getXepcMask env
  if env.priv = .user then some excpIllegalInst
  else if !riscvCpuAllow16bitInsn env && retpc &&& 3 != 0 then some excpInstAddrMis
  else if getField env.mstatus mstatusTsr != 0 && env.priv != .machine then some excpIllegalInst
  else if env.virtEnabled && getField env.hstatus hstatusVtsr != 0 then some excpVirtInstructionFault
  else none

def sretPrevPriv : Priv :=
  if getField env.mstatus mstatusSpp = 0 then .user else .supervisor

def sretEntersGuest : Bool :=
  env.misaExt.rvh && !env.virtEnabled && getField env.hstatus hstatusSpv != 0

def sretStatus : W64 :=
  let mstatus := setField env.mstatus mstatusSie (getField env.mstatus mstatusSpie)
  let mstatus := setField mstatus mstatusSpie 1
  let mstatus := setField mstatus mstatusSpp Priv.user.code
  let mstatus := if env.cfg.extSsdbltrp then setField mstatus mstatusSdt 0 else mstatus
  let mstatus :=
    if env.cfg.extSmdbltrp && env.priv == .machine then setField mstatus mstatusMdt 0 else mstatus
  if env.privVer.atLeast112 then setField mstatus mstatusMprv 0 else mstatus

def sretVsstatus : W64 :=
  if env.cfg.extSsdbltrp && sretEntersGuest env && sretPrevPriv env == .user
  then setField env.vsstatus mstatusSdt 0 else env.vsstatus

def sretBanked : CPURISCVState :=
  let entered := { env with mstatus := sretStatus env, vsstatus := sretVsstatus env }
  if env.misaExt.rvh && !env.virtEnabled then
    let cleared := { entered with hstatus := setField env.hstatus hstatusSpv 0 }
    if sretEntersGuest env then riscvCpuSwapHypervisorRegs cleared else cleared
  else entered

def sretPrevVirt : Bool :=
  if env.misaExt.rvh && !env.virtEnabled then sretEntersGuest env else env.virtEnabled

def sretTaken : CPURISCVState :=
  let returned := riscvCpuSetMode (sretBanked env) (sretPrevPriv env) (sretPrevVirt env)
  { returned with
    elp := if cpuGetFcfien returned then getField returned.mstatus mstatusSpelp != 0 else returned.elp
    mstatus := setField returned.mstatus mstatusSpelp 0
    pc := env.sepc &&& getXepcMask env }

def helperSret : Except W64 CPURISCVState :=
  match sretFault env with
  | some cause => .error cause
  | none => .ok (sretTaken env)

end RiscvEmulators.Qemu.Cpu
