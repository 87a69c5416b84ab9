import Riscv.Spike.State
import Riscv.Rules.FirstMatch

namespace RiscvEmulators.Spike.Mmu
open Word Rules

inductive AccessType where
  | load | store | fetch
  deriving DecidableEq

structure XlateFlags where
  forcedVirt : Bool
  hlvx : Bool
  lr : Bool
  ssAccess : Bool
  cleanInval : Bool
  deriving DecidableEq

def XlateFlags.none : XlateFlags := ⟨false, false, false, false, false⟩

def XlateFlags.isSpecialAccess (flags : XlateFlags) : Bool :=
  flags.forcedVirt || flags.hlvx || flags.lr || flags.ssAccess || flags.cleanInval

/-- What is fixed for a simulation: the ISA, the PMP geometry, the address map of the simulator and its devices,
  and what the memory tracers look at. -/
structure Hardware where
  isa : Isa
  maxVaddrBits : Nat
  nPmp : Nat
  lgPmpGranularity : Nat
  extSvnapot : Bool
  extSvrsw60t59b : Bool
  extSmpmpmt : Bool
  extSmmpm : Bool
  extSmnpm : Bool
  extSvadu : Bool
  extSvpbmt : Bool
  extSstc : Bool
  extSmcdeleg : Bool
  extZkr : Bool
  extZicbom : Bool
  extZicboz : Bool
  extZicfiss : Bool
  extZicclsm : Bool
  extZiccid : Bool
  mmuAsid : Bool
  mmuVmid : Bool
  logCommits : Bool
  addrToMem : Reg → Reg
  mmioFetch : Reg → Nat → Bool
  mmioLoad : Reg → Nat → Bool
  mmioStore : Reg → Nat → Bool
  interestedInPage : Reg → AccessType → Bool
  hasMmu : isa.hasMmu = (maxVaddrBits != 0)
  granularity : 2 ≤ lgPmpGranularity ∧ lgPmpGranularity < 64

structure PmpEntry where
  cfg : BitVec 8
  val : Reg

structure Dcsr where
  prv : BitVec 2
  v : Bool
  pelp : Bool
  mprven : Bool

structure TlbEntry where
  hostAddr : Reg
  targetAddr : Reg
  tag : Reg

structure PteCacheEntry where
  paddr : Reg
  pte : Reg

/-- The memory that holds page tables, behind the cache of page-table entries. A device may refuse to answer.
  `changed` records that the tables or the bits that gate their format changed since the last `flush_tlb`. -/
structure PageStore where
  ram : Reg → Reg
  device : Reg → Option Reg
  pteCache : Nat → PteCacheEntry
  changed : Bool

abbrev ReverseTags := Nat → Bool

structure Machine (hw : Hardware) where
  core : State hw.isa
  satp : Reg
  vsatp : Reg
  hgatp : Reg
  senvcfg : Reg
  mseccfg : Reg
  dcsr : Dcsr
  pmp : Nat → PmpEntry
  pages : PageStore
  tlbLoad : Nat → TlbEntry
  tlbStore : Nat → TlbEntry
  tlbInsn : Nat → TlbEntry
  storeTags : ReverseTags
  insnTags : ReverseTags
  checkTriggersFetch : Bool
  checkTriggersLoad : Bool
  checkTriggersStore : Bool
  matchedTrigger : Bool

def pageMask : Reg := 0xfff
def pageSize : Nat := 4096
def pageBase (addr : Reg) : Reg := addr &&& ~~~pageMask

def mseccfgMml : Reg := 0x1
def mseccfgMmwp : Reg := 0x2
def mseccfgRlb : Reg := 0x4
def mseccfgUseed : Reg := 0x100
def mseccfgSseed : Reg := 0x200
def mseccfgMlpe : Reg := 0x400
def mseccfgPmm : Reg := 0x300000000
def menvcfgPmm : Reg := 0x300000000
def menvcfgLpe : Reg := 0x4
def menvcfgCbie : Reg := 0x30
def menvcfgCbcfe : Reg := 0x40
def menvcfgCbze : Reg := 0x80
def menvcfgCde : Reg := 0x1000000000000000
def senvcfgUkte : Reg := 0x100

section
variable {hw : Hardware}

namespace Machine

def nmie (m : Machine hw) : Bool := m.core.nmie

def inMprv (m : Machine hw) : Bool :=
  m.nmie && (!m.core.debugMode || m.dcsr.mprven) && getField m.core.mstatusRead mstatusMprv != 0

def senvcfgRead (m : Machine hw) : Reg :=
  let envcfg := if m.core.mode.virt then m.core.henvcfgRead else m.core.menvcfg
  m.senvcfg &&& ~~~(if envcfg &&& menvcfgSse ≠ 0 then 0 else menvcfgSse)

def sstatusReadvirt (m : Machine hw) (virt : Bool) : Reg :=
  if virt then m.core.vsstatusRead else m.core.nonvirtualSstatusRead

def satpReadvirt (m : Machine hw) (virt : Bool) : Reg := if virt then m.vsatp else m.satp

end Machine

end

def pmpR : BitVec 8 := 0x01
def pmpW : BitVec 8 := 0x02
def pmpX : BitVec 8 := 0x04
def pmpA : BitVec 8 := 0x18
def pmpMt : BitVec 8 := 0x60
def pmpL : BitVec 8 := 0x80
def pmpTor : BitVec 8 := 0x08
def pmpNa4 : BitVec 8 := 0x10
def pmpNapot : BitVec 8 := 0x18

structure PmpRegs where
  entries : Nat → PmpEntry
  mml : Bool
  mmwp : Bool

variable (hw : Hardware) (pmp : PmpRegs)

def pmpTorMask : Reg := -((1 : Reg) <<< (hw.lgPmpGranularity - 2))
def torPaddr (entry : PmpEntry) : Reg := (entry.val &&& pmpTorMask hw) <<< 2
def torBasePaddr (i : Nat) : Reg := if i = 0 then 0 else torPaddr hw (pmp.entries (i - 1))

def napotMask (entry : PmpEntry) : Reg :=
  let isNa4 := entry.cfg &&& pmpA = pmpNa4
  let mask := (entry.val <<< 1) ||| (if isNa4 then 0 else 1) ||| ~~~pmpTorMask hw
  ~~~(mask &&& ~~~(mask + 1)) <<< 2

def match4 (i : Nat) (addr : Reg) : Bool :=
  let entry := pmp.entries i
  if entry.cfg &&& pmpA = 0 then false
  else if entry.cfg &&& pmpA = pmpTor then torBasePaddr hw pmp i ≤ addr && addr < torPaddr hw entry
  else (addr ^^^ torPaddr hw entry) &&& napotMask hw entry == 0

/-- `subset_match`; its caller passes an address that `len` divides. -/
def subsetMatch (i : Nat) (addr len : Reg) : Bool :=
  let entry := pmp.entries i
  let base := torBasePaddr hw pmp i
  let tor := torPaddr hw entry
  if entry.cfg &&& pmpA = 0 then false
  else
    let beginsAfterLower := base ≤ addr
    let beginsAfterUpper := tor ≤ addr
    let endsBeforeLower := addr &&& -len < base &&& -len
    let endsBeforeUpper := addr &&& -len < tor &&& -len
    let torHomogeneous := endsBeforeLower || beginsAfterUpper || (beginsAfterLower && endsBeforeUpper)
    let maskHomogeneous := ~~~(napotMask hw entry <<< 1) &&& len != 0
    let napotHomogeneous := maskHomogeneous || (addr ^^^ tor) / len != 0
    !(if entry.cfg &&& pmpA = pmpTor then torHomogeneous else napotHomogeneous)

def pmpHomogeneous (addr len : Reg) : Bool := (List.range hw.nPmp).all fun i => !subsetMatch hw pmp i addr len

def accessOk (cfg : BitVec 8) (mml : Bool) (type : AccessType) (prv : Prv) (hlvx : Bool) : Bool :=
  let cfgx := cfg &&& pmpX != 0
  let cfgw := cfg &&& pmpW != 0
  let cfgr := cfg &&& pmpR != 0
  let cfgl := cfg &&& pmpL != 0
  let prvm : Bool := prv = .m
  let typer : Bool := type = .load
  let typex : Bool := type = .fetch
  let typew : Bool := type = .store
  let normalRwx := (typer && cfgr && (!hlvx || cfgx)) || (typew && cfgw) || (typex && cfgx)
  if mml then
    if cfgx && cfgw && cfgr && cfgl then typer && !hlvx
    else if !cfgr && cfgw then
      (!cfgl && cfgx && ((typer && !hlvx) || typew)) || (!cfgl && !cfgx && ((typer && !hlvx) || (typew && prvm))) ||
        (cfgl && typex) || (cfgl && typer && cfgx && prvm)
    else prvm == cfgl && normalRwx
  else (prvm && !cfgl) || normalRwx

def granule : Reg := (1 : Reg) <<< hw.lgPmpGranularity

def sectors (addr : Reg) (len : Nat) : List Reg :=
  let addrAligned := addr &&& -granule hw
  let lenAligned := ((addr + BitVec.ofNat 64 len + granule hw - 1) &&& -granule hw) - addrAligned
  (List.range (lenAligned.toNat / 2 ^ hw.lgPmpGranularity)).map fun k => addrAligned + BitVec.ofNat 64 k * granule hw

def entryMatch (addr : Reg) (len : Nat) (i : Nat) : Option Bool :=
  if (sectors hw addr len).any (match4 hw pmp i) then some ((sectors hw addr len).all (match4 hw pmp i)) else none

def pmpOk (addr : Reg) (len : Nat) (type : AccessType) (prv : Prv) (hlvx : Bool) : Bool :=
  if hw.nPmp = 0 then true
  else match firstMatch (entryMatch hw pmp addr len) (List.range hw.nPmp) with
    | some (i, allMatch) => allMatch && accessOk (pmp.entries i).cfg pmp.mml type prv hlvx
    | none => prv = .m && !pmp.mmwp && (!pmp.mml || type ≠ .fetch)

end RiscvEmulators.Spike.Mmu
