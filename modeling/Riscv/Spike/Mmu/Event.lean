import Riscv.Spike.Mmu.Tlb

namespace RiscvEmulators.Spike.Mmu
open Word Transition

def mnstatusMnpv : Reg := 0x00000080
def mnstatusMnpelp : Reg := 0x00000200
def mnstatusMnpp : Reg := 0x00001800
def dcsrPrv : Reg := 0x00000003
def dcsrMprven : Reg := 0x00000010
def dcsrV : Reg := 0x00000020
def dcsrPelp : Reg := 0x00040000
def legalPmm (pmm : Reg) : Reg := if pmm = 1 then 0 else pmm

def paddrBits (isa : Isa) : Nat :=
  match isa.maxXlen with
  | .rv32 => 34
  | .rv64 => 56

def ppnMask (isa : Isa) : Reg := ((1 : Reg) <<< (paddrBits isa - 12)) - 1

def satpValid (hw : Hardware) (val : Reg) : Bool :=
  match hw.isa.maxXlen with
  | .rv32 =>
    let mode := getField val satp32Mode
    mode == 0 || (mode == 1 && decide (32 ≤ hw.maxVaddrBits))
  | .rv64 =>
    let mode := getField val satp64Mode
    mode == 0 || (mode == 8 && decide (39 ≤ hw.maxVaddrBits)) || (mode == 9 && decide (48 ≤ hw.maxVaddrBits)) ||
      (mode == 10 && decide (57 ≤ hw.maxVaddrBits))

def computeNewSatp (hw : Hardware) (read val : Reg) : Reg :=
  let modeMask := match hw.isa.maxXlen with | .rv32 => satp32Mode | .rv64 => satp64Mode
  let asidMaskIfEnabled := match hw.isa.maxXlen with | .rv32 => satp32Asid | .rv64 => satp64Asid
  let asidMask := if hw.mmuAsid then asidMaskIfEnabled else 0
  let satpPpn := match hw.isa.maxXlen with | .rv32 => satp32Ppn | .rv64 => satp64Ppn &&& ppnMask hw.isa
  let newMask := (if satpValid hw val then modeMask else 0) ||| asidMask ||| satpPpn
  let oldMask := if satpValid hw val then 0 else modeMask
  (newMask &&& val) ||| (oldMask &&& read)

def baseAtp (hw : Hardware) (read val : Reg) : Reg := if hw.isa.hasMmu then computeNewSatp hw read val else 0

def hgatpMask (hw : Hardware) (val : Reg) : Reg :=
  let mask := match hw.isa.maxXlen with
    | .rv32 => hgatp32Ppn ||| hgatp32Mode ||| (if hw.mmuVmid then hgatp32Vmid else 0)
    | .rv64 =>
      let mode := getField val hgatp64Mode
      (hgatp64Ppn &&& ppnMask hw.isa) ||| (if hw.mmuVmid then hgatp64Vmid else 0) |||
        (if mode = 0 ∨ (39 ≤ hw.maxVaddrBits ∧ mode = 8) ∨ (48 ≤ hw.maxVaddrBits ∧ mode = 9) ∨
          (57 ≤ hw.maxVaddrBits ∧ mode = 10) then hgatp64Mode else 0)
  mask &&& ~~~3

def envcfgAdjusted (val : Reg) : Reg :=
  let val := if getField val menvcfgCbie = 2 then setField val menvcfgCbie 0 else val
  setField val menvcfgPmm (legalPmm (getField val menvcfgPmm))

section
variable (hw : Hardware)

def cboMask : Reg :=
  (if hw.extZicbom then menvcfgCbcfe ||| menvcfgCbie else 0) ||| (if hw.extZicboz then menvcfgCbze else 0)

def menvcfgMask : Reg :=
  cboMask hw ||| (if hw.extSmnpm then menvcfgPmm else 0) ||| (if hw.extSvadu then menvcfgAdue else 0) |||
    (if hw.extSvpbmt then menvcfgPbmte else 0) ||| (if hw.extSstc then menvcfgStce else 0) |||
    (if hw.isa.extZicfilp then menvcfgLpe else 0) ||| (if hw.extZicfiss then menvcfgSse else 0) |||
    (if hw.isa.extSsdbltrp then menvcfgDte else 0) ||| (if hw.extSmcdeleg then menvcfgCde else 0)

def henvcfgMask : Reg :=
  cboMask hw ||| (if hw.isa.extSsnpm then menvcfgPmm else 0) ||| (if hw.extSvadu then menvcfgAdue else 0) |||
    (if hw.extSvpbmt then menvcfgPbmte else 0) ||| (if hw.extSstc then menvcfgStce else 0) |||
    (if hw.isa.extZicfilp then menvcfgLpe else 0) ||| (if hw.extZicfiss then menvcfgSse else 0) |||
    (if hw.isa.extSsdbltrp then menvcfgDte else 0)

def senvcfgMask : Reg :=
  cboMask hw ||| (if hw.isa.extSvukte then senvcfgUkte else 0) ||| (if hw.isa.extSsnpm then menvcfgPmm else 0) |||
    (if hw.isa.extZicfilp then menvcfgLpe else 0) ||| (if hw.extZicfiss then menvcfgSse else 0)

end

def comparedBits (isa : Isa) : Reg :=
  mstatusMpp ||| mstatusMprv ||| (if hasPage isa then mstatusMxr ||| mstatusSum else 0)

section
variable {hw : Hardware}

namespace Machine

/-- `maybe_flush_tlb`. It runs before SD is adjusted, and SD is not among the bits it compares. -/
def maybeFlushTlb (m : Machine hw) (newval read : Reg) : Machine hw :=
  if (newval ^^^ read) &&& comparedBits hw.isa ≠ 0 then m.flushTlb else m

def mstatusWrite (m : Machine hw) (val : Reg) : Machine hw :=
  { m.maybeFlushTlb (m.core.mstatusNext val) m.core.mstatusRead with core := m.core.mstatusWrite val }

def vsstatusWrite (m : Machine hw) (val : Reg) : Machine hw :=
  let written := m.core.vsstatusWrite val
  let flushed := if m.core.mode.virt then m.maybeFlushTlb written.vsstatus m.core.vsstatusRead else m
  { flushed with core := written }

def nonvirtualSstatusWrite (m : Machine hw) (val : Reg) : Machine hw :=
  let mask := computeSstatusWriteMask hw.isa &&& ~~~State.sdtHidden m.core.menvcfg
  m.mstatusWrite (State.dropSie ((m.core.mstatusRead &&& ~~~mask) ||| (val &&& mask)))

def sstatusWrite (m : Machine hw) (val : Reg) : Machine hw :=
  if m.core.mode.virt then m.vsstatusWrite val else m.nonvirtualSstatusWrite val

def mnstatusNext (m : Machine hw) (mnstatus val : Reg) : Reg :=
  let mask := mnstatusNmie ||| (if m.core.misaH then mnstatusMnpv else 0) |||
    (if hw.isa.extZicfilp then mnstatusMnpelp else 0) ||| mnstatusMnpp
  let requested := legalizePrivilege hw.isa ((getField val mnstatusMnpp).setWidth 2)
  (mnstatus &&& mnstatusNmie) ||| (setField val mnstatusMnpp requested.reg &&& mask)

def mnstatusWrite (m : Machine hw) (val : Reg) : Machine hw :=
  { m with core := { m.core with mnstatus := m.core.mnstatus.map (m.mnstatusNext · val) } }

def dcsrWrite (m : Machine hw) (val : Reg) : Machine hw :=
  { m with
    dcsr :=
      { prv := (getField val dcsrPrv).setWidth 2
        v := m.core.misaH && getField val dcsrV != 0
        pelp := hw.isa.extZicfilp && getField val dcsrPelp != 0
        mprven := getField val dcsrMprven != 0 } }

section
variable (m : Machine hw)

def nonvirtualSatpWrite (val : Reg) : Machine hw :=
  let newval := baseAtp hw m.satp val
  { (if newval ≠ m.satp then m.flushTlb else m) with satp := newval }

def vsatpWrite (val : Reg) : Machine hw :=
  let newval := baseAtp hw m.vsatp val
  { (if newval ≠ m.vsatp then m.flushTlb else m) with vsatp := newval }

def satpWrite (val : Reg) : Machine hw :=
  let newval := if satpValid hw val then val else m.satpReadvirt m.core.mode.virt
  if m.core.mode.virt then m.vsatpWrite newval else m.nonvirtualSatpWrite newval

def hgatpWrite (val : Reg) : Machine hw :=
  let mask := hgatpMask hw val
  { m.flushTlb with hgatp := (m.hgatp &&& ~~~mask) ||| (val &&& mask) }

def flushOnPmm (read adjusted : Reg) : Machine hw :=
  if getField adjusted menvcfgPmm ≠ getField read menvcfgPmm then m.flushTlb else m

def menvcfgWrite (val : Reg) : Machine hw :=
  let adjusted := envcfgAdjusted val
  let mask := menvcfgMask hw
  { m.flushOnPmm m.core.menvcfg adjusted with
    core := { m.core with menvcfg := (m.core.menvcfg &&& ~~~mask) ||| (adjusted &&& mask) } }

def henvcfgWrite (val : Reg) : Machine hw :=
  let enabled := m.core.menvcfg ||| ~~~(menvcfgPbmte ||| menvcfgStce ||| menvcfgAdue ||| menvcfgDte ||| menvcfgSse)
  let adjusted := envcfgAdjusted ((m.core.henvcfg &&& ~~~enabled) ||| (val &&& enabled))
  let mask := henvcfgMask hw
  { m.flushOnPmm m.core.henvcfgRead adjusted with
    core := { m.core with henvcfg := (m.core.henvcfgRead &&& ~~~mask) ||| (adjusted &&& mask) } }

def senvcfgWrite (val : Reg) : Machine hw :=
  let enabled := m.envcfgRead m.core.mode.virt ||| ~~~menvcfgSse
  let adjusted := envcfgAdjusted ((m.senvcfg &&& ~~~enabled) ||| (val &&& enabled))
  let mask := senvcfgMask hw
  { m.flushOnPmm m.senvcfgRead adjusted with senvcfg := (m.senvcfgRead &&& ~~~mask) ||| (adjusted &&& mask) }

end

section
variable (m : Machine hw)

def rlb : Bool := m.mseccfg &&& mseccfgRlb != 0

def mseccfgNext (val : Reg) : Reg :=
  let pmplockRecorded := (List.range hw.nPmp).any fun i => (m.pmp i).cfg &&& pmpL != 0
  let new := m.mseccfg
  let new :=
    if hw.nPmp = 0 then new
    else
      let new := if pmplockRecorded && !m.rlb then new else (new &&& ~~~mseccfgRlb) ||| (val &&& mseccfgRlb)
      new ||| (val &&& mseccfgMmwp) ||| (val &&& mseccfgMml)
  let new :=
    if hw.extZkr then
      (new &&& ~~~(mseccfgUseed ||| mseccfgSseed)) ||| (val &&& (mseccfgUseed ||| mseccfgSseed))
    else new
  let new := if hw.isa.extZicfilp then (new &&& ~~~mseccfgMlpe) ||| (val &&& mseccfgMlpe) else new
  if hw.extSmmpm then setField new mseccfgPmm (legalPmm (getField val mseccfgPmm)) else new

def mseccfgWrite (val : Reg) : Machine hw :=
  { (if hw.nPmp = 0 then m else m.flushTlb) with mseccfg := m.mseccfgNext val }

def nextLockedAndTor (idx : Nat) : Bool :=
  decide (idx + 1 < 64) && (!m.rlb && (m.pmp (idx + 1)).cfg &&& pmpL != 0) && (m.pmp (idx + 1)).cfg &&& pmpA == pmpTor

def pmpaddrWrite (idx : Nat) (val : Reg) : Machine hw :=
  let locked := !m.rlb && (m.pmp idx).cfg &&& pmpL != 0
  if hw.nPmp ≠ 0 ∧ idx < hw.nPmp ∧ !locked ∧ !m.nextLockedAndTor idx then
    let entry := { m.pmp idx with val := val &&& (((1 : Reg) <<< (paddrBits hw.isa - 2)) - 1) }
    { m.flushTlb with pmp := fun i => if i = idx then entry else m.pmp i }
  else m

def pmpcfgNext (old new : BitVec 8) : BitVec 8 :=
  let mml := m.mseccfg &&& mseccfgMml != 0
  let allCfgFields := pmpR ||| pmpW ||| pmpX ||| pmpA ||| (if hw.extSmpmpmt then pmpMt else 0) ||| pmpL
  let cfg := new &&& allCfgFields
  let cfg := if mml then cfg else cfg &&& (~~~pmpW ||| if cfg &&& pmpR ≠ 0 then pmpW else 0)
  let cfg := if hw.lgPmpGranularity ≠ 2 ∧ cfg &&& pmpA = pmpNa4 then cfg ||| pmpNapot else cfg
  let cfg := if getField cfg pmpMt = 3 then setField cfg pmpMt 0 else cfg
  let cfgx := cfg &&& pmpX != 0
  let cfgw := cfg &&& pmpW != 0
  let cfgr := cfg &&& pmpR != 0
  if !m.rlb && old &&& pmpL != 0 then old
  else if m.rlb || !(mml && (cfg &&& pmpL != 0 && !(cfgx && cfgw && cfgr) && (cfgx || (cfgw && !cfgr)))) then cfg
  else old

def pmpcfgWrite (reg : Nat) (val : Reg) : Machine hw :=
  if hw.nPmp = 0 then m
  else
    { m.flushTlb with
      pmp := fun i =>
        if 4 * reg ≤ i ∧ i < 4 * reg + hw.isa.maxXlen.bits / 8 ∧ i < hw.nPmp then
          { m.pmp i with cfg := m.pmpcfgNext (m.pmp i).cfg ((val >>> (8 * (i - 4 * reg))).setWidth 8) }
        else m.pmp i }

end
end Machine

end

variable {hw : Hardware}

namespace Machine

section
variable (m : Machine hw)

def xLpe (virt : Bool) (prv : BitVec 2) : Bool :=
  hw.isa.extZicfilp && (if prv = 0 then
      if hw.isa.extS then m.senvcfgRead &&& menvcfgLpe != 0 else m.core.menvcfg &&& menvcfgLpe != 0
    else if prv = 1 then
      if virt then m.core.henvcfgRead &&& menvcfgLpe != 0 else m.core.menvcfg &&& menvcfgLpe != 0
    else m.mseccfg &&& mseccfgMlpe != 0)

def enterMode (core : State hw.isa) (prv : BitVec 2) (virt : Bool) : State hw.isa :=
  { core with mode := setPrivilege hw.isa (legalizePrivilege hw.isa prv) virt }

def setElp (core : State hw.isa) (elp : Bool) : State hw.isa := { core with elp := elp }
def haltCore (core : State hw.isa) : State hw.isa := { core with debugMode := true, elp := false, pc := debugRomEntry }

def dropVsSdt (core : State hw.isa) : State hw.isa := core.vsstatusWrite (core.vsstatusRead &&& ~~~mstatusSdt)

def dropMstatus (core : State hw.isa) (bits : Reg) : State hw.isa := core.mstatusWrite (core.mstatusRead &&& ~~~bits)

def mretCore : State hw.isa :=
  let status := m.core.mstatusRead
  let prevPrv := (getField status mstatusMpp).setWidth 2
  let prevVirt := getField status mstatusMpv != 0
  let status := if prevPrv ≠ 3 then setField status mstatusMprv 0 else status
  let status := setField status mstatusMie (getField status mstatusMpie)
  let status := setField status mstatusMpie 1
  let status := setField status mstatusMpp (if hw.isa.extU then 0 else 3)
  let status := setField status mstatusMpv 0
  let elp := if m.xLpe prevVirt prevPrv then getField status mstatusMpelp != 0 else m.core.elp
  let status := setField status mstatusMpelp 0
  let status := setField status mstatusMdt 0
  let status := if prevPrv = 0 ∨ (prevVirt ∧ prevPrv ≠ 3) then setField status mstatusSdt 0 else status
  let core := setElp m.core elp
  let core := if prevVirt ∧ prevPrv = 0 then dropVsSdt core else core
  let core := (core.mstatusWrite status).mstatushWrite (status >>> 32)
  let core :=
    { core with
      tcontrol := core.tcontrol.map fun tcontrol => if tcontrol &&& tcontrolMpte ≠ 0 then tcontrolMpte ||| tcontrolMte else 0 }
  enterMode core prevPrv prevVirt

def sretAllowed : Bool :=
  hw.isa.extS && if m.core.mode.virt then m.core.mode.prv ≠ .u && getField m.core.hstatus hstatusVtsr == 0
    else if getField m.core.mstatusRead mstatusTsr ≠ 0 then m.core.mode.prv = .m
    else m.core.mode.prv ≠ .u

def sretCore : State hw.isa :=
  let virt := m.core.mode.virt
  let status := m.core.sstatusRead
  let prevPrv := (getField status mstatusSpp).setWidth 2
  let status := setField status mstatusSie (getField status mstatusSpie)
  let status := setField status mstatusSpie 1
  let status := setField status mstatusSpp 0
  let prevVirt := virt || (m.core.misaH && getField m.core.hstatus hstatusSpv != 0)
  let core := if !virt && m.core.misaH then m.core.hstatusWrite (setField m.core.hstatus hstatusSpv 0) else m.core
  let core := if virt then core else core.mstatusWrite (setField core.mstatusRead mstatusMprv 0)
  let core := if m.xLpe prevVirt prevPrv then { core with elp := getField status mstatusSpelp != 0 } else core
  let fromM : Bool := m.core.mode.prv = .m
  let fromS : Bool := m.core.mode.prv = .s
  let core := if fromM then dropMstatus core mstatusMdt else core
  let status := if fromM && (prevPrv == 0 || prevVirt) then setField status mstatusSdt 0 else status
  let core := if fromM && prevVirt && prevPrv == 0 then dropVsSdt core else core
  let status := setField status mstatusSpelp 0
  let status := if fromS then setField status mstatusSdt 0 else status
  let core := if fromS && !virt && prevVirt && prevPrv == 0 then dropVsSdt core else core
  enterMode (core.sstatusWrite status) prevPrv prevVirt

def mnretCore (mnstatus : Reg) : State hw.isa :=
  let prevPrv := (getField mnstatus mnstatusMnpp).setWidth 2
  let prevVirt := getField mnstatus mnstatusMnpv != 0
  let core := if prevPrv ≠ 3 then m.core.mstatusWrite (setField m.core.mstatusRead mstatusMprv 0) else m.core
  let status := setField mnstatus mnstatusNmie 1
  let core := if m.xLpe prevVirt prevPrv then { core with elp := getField status mnstatusMnpelp != 0 } else core
  let status := if hw.isa.extZicfilp then setField status mnstatusMnpelp 0 else status
  enterMode { core with mnstatus := some (m.mnstatusNext mnstatus status) } prevPrv prevVirt

def dretCore : State hw.isa :=
  let lower : Bool := m.dcsr.prv == 0 || m.dcsr.v
  let guestUser : Bool := m.dcsr.v && m.dcsr.prv == 0
  let core := if m.xLpe m.dcsr.v m.dcsr.prv then setElp m.core m.dcsr.pelp else m.core
  let core := enterMode core m.dcsr.prv m.dcsr.v
  let core := if core.mode.prv ≠ .m then dropMstatus (dropMstatus core mstatusMprv) mstatusMdt else core
  let core := if lower then dropMstatus core mstatusSdt else core
  let core := if guestUser then dropVsSdt core else core
  { core with debugMode := false }

def changePrivilege (core : State hw.isa) : Machine hw := { m.flushTlb with core := core }

def takeTrap (m : Machine hw) (t : Trap) (epc : Reg) : Machine hw :=
  match m.core.takeTrap t epc with
  | .handled _ core => m.changePrivilege core
  | .debugRom core => { m with core := core }
  | .criticalError | .noHvictl => m

def mret : Machine hw := if m.core.mode.prv = .m then m.changePrivilege m.mretCore else m
def sret : Machine hw := if m.sretAllowed then m.changePrivilege m.sretCore else m

def mnret : Machine hw :=
  match m.core.mnstatus with
  | none => m
  | some mnstatus => if m.core.mode.prv = .m then m.changePrivilege (m.mnretCore mnstatus) else m

def dret : Machine hw := if m.core.debugMode then m.changePrivilege m.dretCore else m

def enterDebugMode : Machine hw :=
  { m.changePrivilege (enterMode (haltCore m.core) 3 false) with
    dcsr := { m.dcsr with prv := m.core.mode.prv.code, v := m.core.mode.virt, pelp := m.core.elp } }

end
end Machine

inductive LoadKind where
  | plain | reserved | guest | guestX | shadowStack

def LoadKind.flags : LoadKind → XlateFlags
  | .plain => .none
  | .reserved => .reserved
  | .guest => ⟨true, false, false, false, false⟩
  | .guestX => ⟨true, true, false, false, false⟩
  | .shadowStack => ⟨false, false, false, true, false⟩

inductive StoreKind where
  | plain | guest | shadowStack

def StoreKind.flags : StoreKind → XlateFlags
  | .plain => .none
  | .guest => ⟨true, false, false, false, false⟩
  | .shadowStack => ⟨false, false, false, true, false⟩

def accessLen (lg : Fin 5) : Nat := 2 ^ lg.val

/-- What a hart does. An access comes with the answers of the trigger module, and the data that it moves is not
  followed: a store that reaches the page tables is followed by `tables`. `stlbPpn` and `itlbPpn` are the flushes
  that another hart asks for, and `probe` is a translation without an access. -/
inductive Event where
  | mstatus (val : Reg)
  | sstatus (val : Reg)
  | vsstatus (val : Reg)
  | satp (val : Reg)
  | vsatp (val : Reg)
  | hgatp (val : Reg)
  | mnstatus (val : Reg)
  | dcsr (val : Reg)
  | mseccfg (val : Reg)
  | menvcfg (val : Reg)
  | henvcfg (val : Reg)
  | senvcfg (val : Reg)
  | pmpaddr (idx : Nat) (val : Reg)
  | pmpcfg (reg : Nat) (val : Reg)
  | trap (t : Trap) (epc : Reg)
  | mret
  | sret
  | mnret
  | dret
  | enterDebugMode
  | sfence
  | triggers (fetch load store : Bool)
  | load (kind : LoadKind) (addr : Reg) (lg : Fin 5) (first second : TriggerMatch)
  | store (kind : StoreKind) (addr : Reg) (lg : Fin 5) (answer : TriggerMatch)
  | storeProbe (kind : StoreKind) (addr : Reg) (lg : Fin 5) (requireAlignment : Bool)
  | fetch (pc : Reg) (first second : TriggerMatch)
  | probe (addr : Reg) (type : AccessType) (flags : XlateFlags) (len : Nat)
  | stlbPpn (ppn : Reg)
  | itlbPpn (ppn : Reg)
  | tables (ram : Reg → Reg) (device : Reg → Option Reg)

def Regs.sameFormat (regs regs' : Regs) : Bool :=
  regs.pbmte false == regs'.pbmte false && regs.pbmte true == regs'.pbmte true && regs.adue false == regs'.adue false &&
    regs.adue true == regs'.adue true && regs.sse false == regs'.sse false && regs.sse true == regs'.sse true &&
    regs.ukte == regs'.ukte

namespace Machine

def noteFormat (before after : Machine hw) : Machine hw :=
  { after with
    pages := { after.pages with changed := after.pages.changed || !before.regs.sameFormat after.regs } }

def after {α : Type} (m : Machine hw) (access : Access hw α) : Machine hw := finalState (access m)

def effect (m : Machine hw) : Event → Machine hw
  | .mstatus val => m.mstatusWrite val
  | .sstatus val => m.sstatusWrite val
  | .vsstatus val => m.vsstatusWrite val
  | .satp val => m.satpWrite val
  | .vsatp val => m.vsatpWrite val
  | .hgatp val => m.hgatpWrite val
  | .mnstatus val => m.mnstatusWrite val
  | .dcsr val => m.dcsrWrite val
  | .mseccfg val => m.mseccfgWrite val
  | .menvcfg val => m.menvcfgWrite val
  | .henvcfg val => m.henvcfgWrite val
  | .senvcfg val => m.senvcfgWrite val
  | .pmpaddr idx val => m.pmpaddrWrite idx val
  | .pmpcfg reg val => m.pmpcfgWrite reg val
  | .trap t epc => m.takeTrap t epc
  | .mret => m.mret
  | .sret => m.sret
  | .mnret => m.mnret
  | .dret => m.dret
  | .enterDebugMode => m.enterDebugMode
  | .sfence => m.flushTlb
  | .triggers fetch load store =>
    { m.flushTlb with checkTriggersFetch := fetch, checkTriggersLoad := load, checkTriggersStore := store }
  | .load kind addr lg first second => m.after (Mmu.load addr (accessLen lg) kind.flags first second)
  | .store kind addr lg answer => m.after (Mmu.store addr (accessLen lg) kind.flags answer)
  | .storeProbe kind addr lg requireAlignment =>
    m.after (storeSlowPath addr (accessLen lg) kind.flags false requireAlignment .unmatched)
  | .fetch pc first second => m.after (fetchInsnParcel (pc &&& ~~~1) first second)
  | .probe addr type flags len => m.after (translateIn (generateAccessInfo hw.isa m.regs addr type flags) len)
  | .stlbPpn ppn => m.flushStlbPpn ppn
  | .itlbPpn ppn => m.flushItlbPpn ppn
  | .tables ram device => { m with pages := { m.pages with ram := ram, device := device, changed := true } }

def step (m : Machine hw) (event : Event) : Machine hw := noteFormat m (m.effect event)

end Machine

end RiscvEmulators.Spike.Mmu
