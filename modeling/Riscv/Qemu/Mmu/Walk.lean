import Riscv.Qemu.Pmp.PageCache

namespace RiscvEmulators.Qemu.Mmu
open Word Cpu Pmp

def pteV : W64 := 0x001
def pteR : W64 := 0x002
def pteW : W64 := 0x004
def pteX : W64 := 0x008
def pteU : W64 := 0x010
def pteA : W64 := 0x040
def pteD : W64 := 0x080
def ptePbmt : W64 := 0x6000000000000000
def pteN : W64 := 0x8000000000000000
def pteAttr : W64 := pteN ||| ptePbmt
def pteReserved (svrsw60t59b : Bool) : W64 := if svrsw60t59b then 0x07C0000000000000 else 0x1FC0000000000000
def ptePpnMask : W64 := 0x3FFFFFFFFFFC00

def satp32Mode : W64 := 0x80000000
def satp32Asid : W64 := 0x7fc00000
def satp32Ppn : W64 := 0x003fffff
def satp64Mode : W64 := 0xF000000000000000
def satp64Asid : W64 := 0x0FFFF00000000000
def satp64Ppn : W64 := 0x00000FFFFFFFFFFF

def hstatusHu : W64 := 0x00000200
def hstatusHukte : W64 := 0x01000000
def senvcfgUkte : W64 := 0x100

structure Config where
  pmp : Hardware
  extSvade : Bool
  extSvnapot : Bool
  extSvukte : Bool
  extSvrsw60t59b : Bool
  maxSatpMode : Nat

structure Env where
  cpu : CPURISCVState
  hgatp : W64
  pmp : Pmp.State

inductive Level where
  | u | s | sSum | m
  deriving DecidableEq

def Level.ofCode (code : W64) : Level := if code = 0 then .u else if code = 1 then .s else if code = 2 then .sSum else .m

structure MmuIdx where
  level : Level
  twoStage : Bool
  ssWrite : Bool
  deriving DecidableEq

def MmuIdx.user : MmuIdx := ⟨.u, false, false⟩

def MmuIdx.priv (idx : MmuIdx) : Priv :=
  match idx.level with
  | .u => .user
  | .s | .sSum => .supervisor
  | .m => .machine

section
variable (cpu : CPURISCVState)

def riscvEnvMmuIndex (ifetch : Bool) : MmuIdx :=
  let mprv := !ifetch && cpu.priv = .machine && getField cpu.mstatus mstatusMprv != 0
  let mode := if mprv then getField cpu.mstatus mstatusMpp else cpu.priv.code
  let virt := if mprv then getField cpu.mstatus mstatusMpv != 0 && mode != Priv.machine.code else cpu.virtEnabled
  let status := if mprv && virt then cpu.vsstatus else cpu.mstatus
  let sum := !ifetch && mode == Priv.supervisor.code && getField status mstatusSum != 0
  ⟨if sum then .sSum else .ofCode mode, virt, false⟩

def checkAccessHlsv (x : Bool) : Option MmuIdx :=
  if cpu.priv ≠ .machine ∧ cpu.virtEnabled then none
  else if cpu.priv = .user ∧ getField cpu.hstatus hstatusHu = 0 then none
  else
    let mode := getField cpu.hstatus hstatusSpvp
    let sum := !x && mode == Priv.supervisor.code && getField cpu.vsstatus mstatusSum != 0
    some ⟨if sum then .sSum else .ofCode mode, true, false⟩

end

def cpuGetBcfien (cpu : CPURISCVState) : Bool :=
  if !cpu.cfg.extZicfiss then false
  else match cpu.priv with
    | .user => cpu.envcfg.senvcfg &&& menvcfgSse != 0
    | .supervisor =>
      if cpu.virtEnabled then cpu.envcfg.henvcfg &&& menvcfgSse != 0 else cpu.envcfg.menvcfg &&& menvcfgSse != 0
    | .machine => false

def doSvukteCheck (hw : Config) (cpu : CPURISCVState) (firstStage : Bool) (mode : Priv) (virt : Bool) : Bool :=
  if !(hw.extSvukte || !firstStage || getField cpu.satp satp64Mode != 8) then false
  else if cpu.priv = .user ∧ !cpu.virtEnabled ∧ virt then getField cpu.hstatus hstatusHukte != 0 && mode = .user
  else getField cpu.envcfg.senvcfg senvcfgUkte != 0 && mode = .user

/-- What one stage of `get_physical_address` reads of the registers and of its arguments. SXL is MXL. -/
structure View where
  rv32 : Bool
  firstStage : Bool
  mode : Priv
  sum : Bool
  sstackIdx : Bool
  probe : Bool
  svukte : Bool
  atp : W64
  pbmte : Bool
  adue : Bool
  mxr : Bool
  bcfien : Bool

/-- The beginning of `get_physical_address`. The background registers are those of the guest. -/
def view (hw : Config) (env : Env) (idx : MmuIdx) (firstStage twoStage probe : Bool) : View :=
  let cpu := env.cpu
  let virt := cpu.virtEnabled
  let useBackground := !virt && twoStage
  let guest := firstStage && twoStage && virt
  { rv32 := cpu.misaMxl = .rv32
    firstStage := firstStage
    mode := idx.priv
    sum := idx.level = .sSum
    sstackIdx := idx.ssWrite
    probe := probe
    svukte := doSvukteCheck hw cpu firstStage idx.priv idx.twoStage
    atp := if firstStage then if useBackground then cpu.vsatp else cpu.satp else env.hgatp
    pbmte := cpu.envcfg.menvcfg &&& menvcfgPbmte != 0 && (!guest || cpu.envcfg.henvcfg &&& menvcfgPbmte != 0)
    adue := (if cpu.cfg.extSvadu then cpu.envcfg.menvcfg &&& menvcfgAdue != 0 else !hw.extSvade) &&
      (!guest || cpu.envcfg.henvcfg &&& menvcfgAdue != 0)
    mxr := (firstStage || !virt) && getField cpu.mstatus mstatusMxr != 0 ||
      firstStage && twoStage && !virt && getField cpu.vsstatus mstatusMxr != 0 ||
      virt && getField cpu.mstatusHs mstatusMxr != 0
    bcfien := cpuGetBcfien cpu && firstStage }

/-- The words that page tables are read from: `none` is a failed transaction. Only RAM can be updated. -/
structure PageMemory where
  word : W64 → Option W64
  ram : W64 → Bool

def PageMemory.setBits (memory : PageMemory) (addr bits : W64) : PageMemory :=
  { memory with word := fun other => if other = addr then (memory.word addr).map (· ||| bits) else memory.word other }

inductive Failure where
  | fail | pmpFail | gStageFail | unreachable
  deriving DecidableEq

abbrev Walk := EStateM Failure PageMemory

inductive Vm where
  | bare
  | paged (levels ptidxbits ptesize : Nat)
  | unreachable

namespace View
variable (hw : Config) (v : View)

def vm : Vm :=
  let mode := if v.rv32 then getField v.atp satp32Mode else getField v.atp satp64Mode
  if mode = 1 then .paged 2 10 4
  else if mode = 8 then .paged 3 9 8
  else if mode = 9 then .paged 4 9 8
  else if mode = 10 then .paged 5 9 8
  else if mode = 0 then .bare
  else .unreachable

def base : W64 := (if v.rv32 then getField v.atp satp32Ppn else getField v.atp satp64Ppn) <<< 12
def widened : Nat := if v.firstStage then 0 else 2
def sxlen : Nat := if v.rv32 then 32 else 64
def checkSvukteAddr (addr : W64) : Bool := !addr.getLsbD (v.sxlen - 1)

def inRange (levels ptidxbits : Nat) (addr : W64) : Bool :=
  let vaBits := 12 + levels * ptidxbits + v.widened
  if v.firstStage then
    let mask : W64 := if vaBits - 1 < v.sxlen then ((1 : W64) <<< (v.sxlen - (vaBits - 1))) - 1 else 0
    let maskedMsbs := (addr >>> (vaBits - 1)) &&& mask
    maskedMsbs == 0 || maskedMsbs == mask
  else levels == 2 || addr >>> vaBits == 0

def index (levels ptidxbits remaining : Nat) (addr : W64) : W64 :=
  let bits := if remaining + 1 = levels then ptidxbits + v.widened else ptidxbits
  (addr >>> (12 + remaining * ptidxbits)) &&& (((1 : W64) <<< bits) - 1)

def pteOf (word : W64) : W64 := if v.rv32 then word &&& 0xffffffff else word
def ppn (pte : W64) : W64 := if v.rv32 then pte >>> 10 else (pte &&& ptePpnMask) >>> 10

inductive PteKind where
  | refused | table | leaf
  deriving DecidableEq

def malformed (pte : W64) : Bool :=
  !v.rv32 && (pte &&& pteReserved hw.extSvrsw60t59b != 0 || (!v.pbmte && pte &&& ptePbmt != 0) ||
    (!hw.extSvnapot && pte &&& pteN != 0))

def pteKind (pte : W64) : PteKind :=
  if v.malformed hw pte then .refused
  else if pte &&& pteV = 0 then .refused
  else if pte &&& (pteR ||| pteW ||| pteX) ≠ 0 then .leaf
  else if pte &&& (pteD ||| pteA ||| pteU ||| pteAttr) ≠ 0 then .refused
  else .table

def leafRwx (pte : W64) : Option (W64 × Bool) :=
  let rwx := pte &&& (pteR ||| pteW ||| pteX)
  if rwx = pteW ||| pteX then none
  else if rwx = pteW then
    if v.bcfien then some (if v.sstackIdx then pteR ||| pteW else if v.probe then 0 else pteR, true) else none
  else if rwx = pteR ∧ v.sstackIdx then none
  else some (rwx, false)

def rwxProt (rwx : W64) : BitVec 8 :=
  (if rwx &&& pteR ≠ 0 then pageRead else 0) ||| (if rwx &&& pteW ≠ 0 then pageWrite else 0) |||
    (if rwx &&& pteX ≠ 0 then if v.mxr then pageRead ||| pageExec else pageExec else 0)

def leafProt (ptshift : Nat) (pte : W64) : Option (BitVec 8 × Bool) :=
  if v.ppn pte &&& (((1 : W64) <<< ptshift) - 1) ≠ 0 then none
  else if !v.pbmte ∧ pte &&& ptePbmt ≠ 0 then none
  else match v.leafRwx pte with
    | none => none
    | some (rwx, sstackPage) =>
      if pte &&& pteU ≠ 0 then
        if v.mode = .user then some (v.rwxProt rwx, sstackPage)
        else if v.sum then some (v.rwxProt rwx &&& (pageRead ||| pageWrite), sstackPage)
        else none
      else if v.mode = .supervisor then some (v.rwxProt rwx, sstackPage)
      else none

def leafPhysical (ptshift : Nat) (last : Bool) (addr pte : W64) : Option W64 :=
  let vpn := addr >>> 12
  let napot := hw.extSvnapot && pte &&& pteN != 0
  let napotMask : W64 := if napot then 0xf else 0
  if napot && (!last || v.ppn pte &&& 0xf != 0x8) then none
  else some (((v.ppn pte &&& ~~~napotMask ||| vpn &&& napotMask ||| vpn &&& (((1 : W64) <<< ptshift) - 1)) <<< 12) |||
    (addr &&& 0xfff))

end View

section
variable (hw : Config) (pmp : Pmp.State) (v : View)

def pteAt (memory : PageMemory) (pteAddr : W64) : Except Failure W64 :=
  if (getPhysicalAddressPmp hw.pmp pmp pteAddr (BitVec.ofNat 64 (v.sxlen / 8)) .dataLoad .supervisor).isNone then
    .error .pmpFail
  else match memory.word pteAddr with
    | none => .error .fail
    | some word => .ok (v.pteOf word)

def loadPte (pteAddr : W64) : Walk W64 := fun memory =>
  match pteAt hw pmp v memory pteAddr with
  | .ok pte => .ok pte memory
  | .error failure => .error failure memory

structure Leaf where
  remaining : Nat
  pteAddr : W64
  pte : W64

/-- The loop over the levels. In a first stage of two, `resolve` translates the address of each table. -/
def walkLevels (resolve : W64 → Walk W64) (levels ptidxbits ptesize : Nat) (addr : W64) : Nat → W64 → Walk Leaf
  | 0, _ => throw .fail
  | remaining + 1, base => do
    let table ← resolve base
    let pteAddr := table + v.index levels ptidxbits remaining addr * BitVec.ofNat 64 ptesize
    let pte ← loadPte hw pmp v pteAddr
    match v.pteKind hw pte with
    | .refused => throw .fail
    | .table => walkLevels resolve levels ptidxbits ptesize addr remaining (v.ppn pte <<< 12)
    | .leaf => pure ⟨remaining, pteAddr, pte⟩

def accessBits (type : AccessType) : W64 := pteA ||| if type = .dataStore then pteD else 0

def updatePte (type : AccessType) (leaf : Leaf) : Walk W64 := fun memory =>
  let updated := leaf.pte ||| accessBits type
  if updated = leaf.pte then .ok leaf.pte memory
  else if v.adue ∧ memory.ram leaf.pteAddr then .ok updated (memory.setBits leaf.pteAddr (accessBits type))
  else .error .fail memory

def dropWrite (type : AccessType) (pte : W64) (prot : BitVec 8) : BitVec 8 :=
  if type ≠ .dataStore ∧ pte &&& pteD = 0 then prot &&& ~~~pageWrite else prot

def walkLeaf (ptidxbits : Nat) (addr : W64) (type : AccessType) (leaf : Leaf) : Walk (W64 × BitVec 8) :=
  let ptshift := leaf.remaining * ptidxbits
  match v.leafProt ptshift leaf.pte with
  | none => throw .fail
  | some (prot, sstackPage) =>
    if prot &&& type.prot = 0 then throw (if sstackPage then .pmpFail else .fail)
    else do
      let pte ← updatePte v type leaf
      match v.leafPhysical hw ptshift (leaf.remaining == 0) addr pte with
      | none => throw .fail
      | some physical => pure (physical, dropWrite type pte prot)

def pageRwx : BitVec 8 := pageRead ||| pageWrite ||| pageExec

inductive Plan where
  | refused
  | direct
  | unreachable
  | paged (levels ptidxbits ptesize : Nat)

def View.plan (addr : W64) : Plan :=
  if v.svukte && !v.checkSvukteAddr addr then .refused
  else if v.mode = .machine ∨ !hw.pmp.mmu then .direct
  else match v.vm with
    | .bare => .direct
    | .unreachable => .unreachable
    | .paged levels ptidxbits ptesize =>
      if v.inRange levels ptidxbits addr then .paged levels ptidxbits ptesize else .refused

def walkStage (resolve : W64 → Walk W64) (addr : W64) (type : AccessType) : Walk (W64 × BitVec 8) :=
  match v.plan hw addr with
  | .refused => throw .fail
  | .direct => pure (addr, pageRwx)
  | .unreachable => throw .unreachable
  | .paged levels ptidxbits ptesize => do
    let leaf ← walkLevels hw pmp v resolve levels ptidxbits ptesize addr levels v.base
    walkLeaf hw v ptidxbits addr type leaf

end

section
variable (hw : Config) (env : Env)

def getGuestPhysicalAddress (probe : Bool) (addr : W64) (type : AccessType) : Walk (W64 × BitVec 8) :=
  walkStage hw env.pmp (view hw env .user false true probe) pure addr type

def resolveBase (base : W64) : Walk W64 := fun memory =>
  match getGuestPhysicalAddress hw env false base .dataLoad memory with
  | .ok found memory => .ok found.1 memory
  | .error .unreachable memory => .error .unreachable memory
  | .error _ memory => .error .gStageFail memory

def getPhysicalAddress (idx : MmuIdx) (probe : Bool) (addr : W64) (type : AccessType) : Walk (W64 × BitVec 8) :=
  walkStage hw env.pmp (view hw env idx true idx.twoStage probe) (if idx.twoStage then resolveBase hw env else pure) addr
    type

def translate (idx : MmuIdx) (probe : Bool) (addr : W64) (type : AccessType) : Walk (W64 × BitVec 8) := do
  let first ← getPhysicalAddress hw env idx probe addr type
  if idx.twoStage then do
    let second ← getGuestPhysicalAddress hw env probe first.1 type
    pure (second.1, first.2 &&& second.2)
  else pure first

structure Filled where
  physical : W64
  prot : BitVec 8
  size : W64

def riscvCpuTlbFill (idx : MmuIdx) (probe : Bool) (addr size : W64) (type : AccessType) : Walk Filled := do
  let found ← translate hw env idx probe addr type
  match getPhysicalAddressPmp hw.pmp env.pmp found.1 size type idx.priv with
  | none => throw .pmpFail
  | some protPmp => pure ⟨found.1, found.2 &&& protPmp, getTlbSize hw.pmp env.pmp found.1⟩

end
end RiscvEmulators.Qemu.Mmu
