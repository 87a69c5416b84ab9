import Riscv.Spike.Mmu.State

namespace RiscvEmulators.Spike.Mmu
open Word

def satp32Mode : Reg := 0x80000000
def satp32Asid : Reg := 0x7fc00000
def satp32Ppn : Reg := 0x003fffff
def satp64Mode : Reg := 0xf000000000000000
def satp64Asid : Reg := 0x0ffff00000000000
def satp64Ppn : Reg := 0x00000fffffffffff
def hgatp32Mode : Reg := 0x80000000
def hgatp32Vmid : Reg := 0x1fc00000
def hgatp32Ppn : Reg := 0x003fffff
def hgatp64Mode : Reg := 0xf000000000000000
def hgatp64Vmid : Reg := 0x03fff00000000000
def hgatp64Ppn : Reg := 0x00000fffffffffff
def prvOfCode (code : Reg) : Prv := if code = 0 then .u else if code = 1 then .s else .m

/-- The registers that address translation reads. A function of a Boolean gives the register of the host and, at
  `true`, the one of the guest. -/
structure Regs where
  prv : Prv
  virt : Bool
  mprv : Bool
  mpp : Prv
  mpv : Bool
  spvp : Prv
  sum : Bool → Bool
  mxr : Bool → Bool
  satp : Bool → Reg
  hgatp : Reg
  mseccfgPmm : Reg
  menvcfgPmm : Reg
  henvcfgPmm : Reg
  senvcfgPmm : Reg
  hupmm : Reg
  pbmte : Bool → Bool
  adue : Bool → Bool
  sse : Bool → Bool
  ukte : Bool
  hukte : Bool
  pmp : PmpRegs
  debugMode : Bool

section
variable {hw : Hardware}

namespace Machine

def pmpRegs (m : Machine hw) : PmpRegs :=
  ⟨m.pmp, m.mseccfg &&& mseccfgMml != 0, m.mseccfg &&& mseccfgMmwp != 0⟩

def envcfgRead (m : Machine hw) (virt : Bool) : Reg := if virt then m.core.henvcfgRead else m.core.menvcfg

def regs (m : Machine hw) : Regs where
  prv := m.core.mode.prv
  virt := m.core.mode.virt
  mprv := m.inMprv
  mpp := prvOfCode (getField m.core.mstatusRead mstatusMpp)
  mpv := getField m.core.mstatusRead mstatusMpv != 0
  spvp := prvOfCode (getField m.core.hstatus hstatusSpvp)
  sum := fun virt => m.sstatusReadvirt virt &&& mstatusSum != 0
  mxr := fun virt => m.sstatusReadvirt virt &&& mstatusMxr != 0
  satp := m.satpReadvirt
  hgatp := m.hgatp
  mseccfgPmm := getField m.mseccfg mseccfgPmm
  menvcfgPmm := getField m.core.menvcfg menvcfgPmm
  henvcfgPmm := getField m.core.henvcfgRead menvcfgPmm
  senvcfgPmm := getField m.senvcfgRead menvcfgPmm
  hupmm := getField m.core.hstatus hstatusHupmm
  pbmte := fun virt => m.envcfgRead virt &&& menvcfgPbmte != 0
  adue := fun virt => m.envcfgRead virt &&& menvcfgAdue != 0
  sse := fun virt => m.envcfgRead virt &&& menvcfgSse != 0
  ukte := getField m.senvcfgRead senvcfgUkte != 0
  hukte := getField m.core.hstatus hstatusHukte != 0
  pmp := m.pmpRegs
  debugMode := m.core.debugMode

end Machine

structure AccessInfo where
  vaddr : Reg
  transformedVaddr : Reg
  effectivePriv : Prv
  effectiveVirt : Bool
  flags : XlateFlags
  type : AccessType

def zext (x : Reg) (pos : Nat) : Reg := (x <<< (64 - pos)) >>> (64 - pos)
def sext (x : Reg) (pos : Nat) : Reg := (x <<< (64 - pos)).sshiftRight (64 - pos)

def getPmlen (isa : Isa) (regs : Regs) (virt : Bool) (priv : Prv) (flags : XlateFlags) : Nat :=
  if isa.maxXlen ≠ .rv64 ∨ flags.hlvx then 0
  else
    let pmm :=
      if priv = .m then regs.mseccfgPmm
      else if regs.mxr false || regs.mxr virt then 0
      else if !virt && (priv = .s || (!isa.extS && priv = .u)) then regs.menvcfgPmm
      else if virt && priv = .s then regs.henvcfgPmm
      else if regs.prv = .u && flags.forcedVirt then regs.hupmm
      else regs.senvcfgPmm
    if pmm = 2 then 7 else if pmm = 3 then 16 else 0

def effectiveMode (regs : Regs) (type : AccessType) (flags : XlateFlags) : Prv × Bool :=
  if type = .fetch then (regs.prv, regs.virt)
  else if flags.forcedVirt then (regs.spvp, true)
  else if regs.mprv then (regs.mpp, regs.virt || (regs.mpv && regs.mpp ≠ .m))
  else (regs.prv, regs.virt)

def transformAddr (isa : Isa) (regs : Regs) (virt : Bool) (priv : Prv) (flags : XlateFlags) (addr : Reg) : Reg :=
  let pos := isa.maxXlen.bits - getPmlen isa regs virt priv flags
  if priv = .m ∨ getField (regs.satp virt) satp64Mode = 0 then zext addr pos else sext addr pos

def generateAccessInfo (isa : Isa) (regs : Regs) (addr : Reg) (type : AccessType) (flags : XlateFlags) : AccessInfo :=
  let mode := effectiveMode regs type flags
  { vaddr := addr
    transformedVaddr := if type = .fetch then addr else transformAddr isa regs mode.2 mode.1 flags addr
    effectivePriv := mode.1
    effectiveVirt := mode.2
    flags := flags
    type := type }

/-- What the walk of one access reads, with the registers of its virtualization mode picked out. A walk does not look
  at `lr`. -/
structure View where
  type : AccessType
  flags : XlateFlags
  prv : Prv
  virt : Bool
  satp : Reg
  hgatp : Reg
  sum : Bool
  mxr : Bool
  mxrHs : Bool
  pbmte : Bool
  adue : Bool
  sse : Bool
  gPbmte : Bool
  gAdue : Bool
  ukte : Bool
  pmp : PmpRegs
  debugMode : Bool

def AccessInfo.view (regs : Regs) (info : AccessInfo) : View where
  type := info.type
  flags := { info.flags with lr := false }
  prv := info.effectivePriv
  virt := info.effectiveVirt
  satp := regs.satp info.effectiveVirt
  hgatp := regs.hgatp
  sum := regs.sum info.effectiveVirt
  mxr := regs.mxr false || regs.mxr info.effectiveVirt
  mxrHs := regs.mxr false
  pbmte := regs.pbmte info.effectiveVirt
  adue := regs.adue info.effectiveVirt
  sse := regs.sse info.effectiveVirt
  gPbmte := regs.pbmte false
  gAdue := regs.adue false
  ukte := if info.flags.forcedVirt && regs.prv = .u then regs.hukte else regs.ukte
  pmp := regs.pmp
  debugMode := regs.debugMode

end

def pteV : Reg := 0x001
def pteR : Reg := 0x002
def pteW : Reg := 0x004
def pteX : Reg := 0x008
def pteU : Reg := 0x010
def pteA : Reg := 0x040
def pteD : Reg := 0x080
def pteSvrsw60t59b : Reg := 0x1800000000000000
def pteRsvd : Reg := 0x07c0000000000000
def ptePbmt : Reg := 0x6000000000000000
def pteN : Reg := 0x8000000000000000
def pteAttr : Reg := 0xffc0000000000000
def has (word bits : Reg) : Bool := word &&& bits != 0

def pteTable (pte : Reg) : Bool := pte &&& (pteV ||| pteR ||| pteW ||| pteX) == pteV
def ptePpn (pte : Reg) : Reg := (pte &&& ~~~pteAttr) >>> 10
def napotBits (pte : Reg) : Nat := if has pte pteN then ctz (ptePpn pte) + 1 else 0

inductive Failure where
  | trap (t : Trap)
  | trigger
  | abort

abbrev Walker := EStateM Failure PageStore

def accessFault (virt : Bool) (addr : Reg) (type : AccessType) : Failure :=
  .trap ⟨match type with | .fetch => 0x1 | .load => 0x5 | .store => 0x7, virt, addr, 0, 0⟩

def pageFault (virt : Bool) (addr : Reg) (type : AccessType) : Failure :=
  .trap ⟨match type with | .fetch => 0xc | .load => 0xd | .store => 0xf, virt, addr, 0, 0⟩

def guestPageFault (gva gpa tinst : Reg) (type : AccessType) : Failure :=
  .trap ⟨match type with | .fetch => 0x14 | .load => 0x15 | .store => 0x17, true, gva, gpa, tinst⟩

structure VmInfo where
  levels : Nat
  idxbits : Nat
  widenbits : Nat
  ptbase : Reg

def svLevels (stage2 : Bool) (mode : Reg) : Option Nat :=
  if mode = 8 then some 3
  else if mode = 9 then some 4
  else if mode = 10 then some 5
  else if mode = 11 ∧ !stage2 then some 6
  else none

/-- `decode_vm_info`; `none` is its abort. The size of a page-table entry follows the register width. -/
def decodeVmInfo (xlen : Xlen) (stage2 : Bool) (prv : Prv) (satp : Reg) : Option VmInfo :=
  let widenbits := if stage2 then 2 else 0
  match xlen with
  | .rv32 =>
    if prv = .m ∨ getField satp (if stage2 then hgatp32Mode else satp32Mode) = 0 then some ⟨0, 0, 0, 0⟩
    else some ⟨2, 10, widenbits, (satp &&& if stage2 then hgatp32Ppn else satp32Ppn) <<< 12⟩
  | .rv64 =>
    let mode := getField satp (if stage2 then hgatp64Mode else satp64Mode)
    if prv = .m ∨ mode = 0 then some ⟨0, 0, 0, 0⟩
    else (svLevels stage2 mode).map fun levels =>
      ⟨levels, 9, widenbits, (satp &&& if stage2 then hgatp64Ppn else satp64Ppn) <<< 12⟩

def pteSize (xlen : Xlen) : Nat :=
  match xlen with
  | .rv32 => 4
  | .rv64 => 8

def mmioOk (debugMode : Bool) (paddr : Reg) : Bool := !(decide (paddr.toNat < 0x1000) && !debugMode)

def readPte (hw : Hardware) (debugMode : Bool) (ram : Reg → Reg) (device : Reg → Option Reg) (paddr : Reg) : Option Reg :=
  if hw.addrToMem paddr ≠ 0 then some (ram paddr)
  else if mmioOk debugMode paddr then device paddr
  else none

def pteCacheInsert (store : PageStore) (paddr pte : Reg) : PageStore :=
  if has pte pteV then
    { store with pteCache := fun slot => if slot = paddr.toNat % 251 then ⟨paddr, pte⟩ else store.pteCache slot }
  else store

def pteLoad (hw : Hardware) (view : View) (ptePaddr addr : Reg) (trapType : AccessType) : Walker Reg := fun store =>
  let cached := store.pteCache (ptePaddr.toNat % 251)
  if cached.paddr = ptePaddr then .ok cached.pte store
  else if !pmpOk hw view.pmp ptePaddr (pteSize hw.isa.maxXlen) .load .s false then
    .error (accessFault view.virt addr trapType) store
  else match readPte hw view.debugMode store.ram store.device ptePaddr with
    | some pte => .ok pte (pteCacheInsert store ptePaddr pte)
    | none => .error (accessFault view.virt addr trapType) store

def pteStore (hw : Hardware) (view : View) (ptePaddr newPte addr : Reg) (trapType : AccessType) : Walker Unit :=
  fun store =>
    let target := match hw.isa.maxXlen with
      | .rv32 => newPte &&& 0xffffffff
      | .rv64 => newPte
    if !pmpOk hw view.pmp ptePaddr (pteSize hw.isa.maxXlen) .store .s false then
      .error (accessFault view.virt addr trapType) store
    else if hw.addrToMem ptePaddr ≠ 0 then
      let ram := fun paddr => if paddr = ptePaddr then target else store.ram paddr
      .ok () (pteCacheInsert { store with ram := ram, changed := true } ptePaddr newPte)
    else if mmioOk view.debugMode ptePaddr && hw.mmioStore ptePaddr (pteSize hw.isa.maxXlen) then
      let device := fun paddr => if paddr = ptePaddr then some target else store.device paddr
      .ok () (pteCacheInsert { store with device := device, changed := true } ptePaddr newPte)
    else .error (accessFault view.virt addr trapType) store

inductive PteKind where
  | broken
  | refused (type : AccessType)
  | table
  | leaf

def s2Kind (hw : Hardware) (view : View) (type : AccessType) (hlvx mxr : Bool) (level ptshift : Nat) (pte : Reg) :
    PteKind :=
  let ppn := ptePpn pte
  if has pte pteRsvd then .broken
  else if !hw.extSvrsw60t59b && has pte pteSvrsw60t59b then .broken
  else if !hw.extSvnapot && has pte pteN then .broken
  else if !view.gPbmte && has pte ptePbmt then .broken
  else if pte &&& ptePbmt = ptePbmt then .broken
  else if pteTable pte then
    if has pte (pteD ||| pteA ||| pteU ||| pteN ||| ptePbmt) then .broken else .table
  else if !has pte pteV || (!has pte pteR && has pte pteW) then .broken
  else if (has pte pteN && (ppn = 0 || level ≠ 0)) || (napotBits pte ≠ 0 && napotBits pte ≠ 4) then .broken
  else if !has pte pteU then .broken
  else if (if type = .fetch ∨ hlvx then !has pte pteX
      else if type = .load then !has pte pteR && !(mxr && has pte pteX)
      else !(has pte pteR && has pte pteW)) then .broken
  else if ppn &&& (((1 : Reg) <<< ptshift) - 1) ≠ 0 then .broken
  else .leaf

def adBits (type : AccessType) : Reg := if type = .store then pteA ||| pteD else pteA

def leafPage (pte addr : Reg) (ptshift : Nat) : Reg :=
  let vpn := addr >>> 12
  let napotMask := ((1 : Reg) <<< napotBits pte) - 1
  ((ptePpn pte &&& ~~~napotMask) ||| (vpn &&& napotMask) ||| (vpn &&& (((1 : Reg) <<< ptshift) - 1))) <<< 12

def pteIndex (addr : Reg) (ptshift idxbits : Nat) : Reg :=
  (addr >>> (12 + ptshift)) &&& (((1 : Reg) <<< idxbits) - 1)

structure S2Request where
  gva : Reg
  gpa : Reg
  type : AccessType
  trapType : AccessType
  hlvx : Bool
  isForVsPtAddr : Bool

namespace S2Request
variable (hw : Hardware) (view : View) (request : S2Request)

def mxr : Bool := !request.isForVsPtAddr && view.mxrHs

def tinst : Reg :=
  (if request.isForVsPtAddr then 0x2000 else 0) |||
    (if hw.isa.maxXlen = .rv64 ∧ request.isForVsPtAddr then 0x1000 else 0) |||
    (if request.type = .store ∧ request.isForVsPtAddr then 0x0020 else 0)

def fault : Failure := guestPageFault request.gva (request.gpa >>> 2) (request.tinst hw) request.trapType

def idxbits (vm : VmInfo) (level : Nat) : Nat :=
  if level = vm.levels - 1 then vm.idxbits + vm.widenbits else vm.idxbits

def updateAd (ptePaddr pte : Reg) : Walker Unit :=
  if pte &&& adBits request.type = adBits request.type then pure ()
  else if view.gAdue then pteStore hw view ptePaddr (pte ||| adBits request.type) request.gva request.trapType
  else throw (request.fault hw)

def levels (vm : VmInfo) : Nat → Reg → Walker Reg
  | 0, _ => throw (request.fault hw)
  | level + 1, base => do
    let ptshift := level * vm.idxbits
    let ptePaddr := base + pteIndex request.gpa ptshift (idxbits vm level) * BitVec.ofNat 64 (pteSize hw.isa.maxXlen)
    let pte ← pteLoad hw view ptePaddr request.gva request.trapType
    match s2Kind hw view request.type request.hlvx (request.mxr view) level ptshift pte with
    | .table => levels vm level (ptePpn pte <<< 12)
    | .leaf => do
      request.updateAd hw view ptePaddr pte
      pure (leafPage pte request.gpa ptshift ||| (request.gpa &&& pageMask))
    | _ => throw (request.fault hw)

end S2Request

def s2xlate (hw : Hardware) (view : View) (request : S2Request) : Walker Reg :=
  if !view.virt then pure request.gpa
  else match decodeVmInfo hw.isa.maxXlen true .u view.hgatp with
    | none => throw .abort
    | some vm =>
      if vm.levels = 0 then pure request.gpa
      else
        let maxgpabits := vm.levels * vm.idxbits + vm.widenbits + 12
        let maxgpa := ((1 : Reg) <<< maxgpabits) - 1
        if request.gpa &&& ~~~maxgpa = 0 then request.levels hw view vm vm.levels vm.ptbase
        else throw (request.fault hw)

def svukteFault (hw : Hardware) (view : View) (addr : Reg) : Bool :=
  view.prv = .u && view.ukte &&
    getField view.satp (match hw.isa.maxXlen with | .rv32 => satp32Mode | .rv64 => satp64Mode) != 0 &&
    addr >>> (hw.isa.maxXlen.bits - 1) != 0

def View.walkType (view : View) : AccessType := if view.flags.ssAccess then .store else view.type

def s1Kind (hw : Hardware) (view : View) (level ptshift : Nat) (pte : Reg) : PteKind :=
  let type := view.walkType
  let sMode : Bool := view.prv = .s
  let ppn := ptePpn pte
  let ssPage := !has pte pteR && has pte pteW && !has pte pteX
  if has pte pteRsvd then .broken
  else if !hw.extSvrsw60t59b && has pte pteSvrsw60t59b then .broken
  else if !hw.extSvnapot && has pte pteN then .broken
  else if !view.pbmte && has pte ptePbmt then .broken
  else if pte &&& ptePbmt = ptePbmt then .broken
  else if pteTable pte then
    if has pte (pteD ||| pteA ||| pteU ||| pteN ||| ptePbmt) then .broken else .table
  else if (if has pte pteU then sMode && (type = .fetch || !view.sum) else !sMode) then .broken
  else if !has pte pteV || (!has pte pteR && has pte pteW && ((!view.sse && !has pte pteX) || has pte pteX)) then
    .broken
  else if (has pte pteN && (ppn = 0 || level ≠ 0)) || (napotBits pte ≠ 0 && napotBits pte ≠ 4) then .broken
  else if ppn &&& (((1 : Reg) <<< ptshift) - 1) ≠ 0 then .broken
  else if ssPage && ((type = .store && !view.flags.ssAccess) || view.flags.cleanInval) then .refused .store
  else if ssPage && type = .fetch then .refused .fetch
  else if ((has pte pteR && has pte pteW) || has pte pteX) && view.flags.ssAccess then .refused .store
  else if (if type = .fetch ∨ view.flags.hlvx then !has pte pteX
      else if type = .load then !(view.sse && ssPage) && !has pte pteR && !(view.mxr && has pte pteX)
      else !has pte pteW) then .broken
  else .leaf

def updateAd (hw : Hardware) (view : View) (addr slot ptePaddr pte : Reg) : Walker Unit :=
  let type := view.walkType
  if pte &&& adBits type = adBits type then pure ()
  else if view.adue then do
    let _ ← s2xlate hw view ⟨addr, slot, .store, type, false, true⟩
    pteStore hw view ptePaddr (pte ||| adBits type) addr type
  else throw (pageFault view.virt addr type)

def walkLevels (hw : Hardware) (view : View) (vm : VmInfo) (addr : Reg) : Nat → Reg → Walker Reg
  | 0, _ => throw (pageFault view.virt addr view.walkType)
  | level + 1, base => do
    let type := view.walkType
    let ptshift := level * vm.idxbits
    let slot := base + pteIndex addr ptshift vm.idxbits * BitVec.ofNat 64 (pteSize hw.isa.maxXlen)
    let ptePaddr ← s2xlate hw view ⟨addr, slot, .load, type, false, true⟩
    let pte ← pteLoad hw view ptePaddr addr type
    match s1Kind hw view level ptshift pte with
    | .table => walkLevels hw view vm addr level (ptePpn pte <<< 12)
    | .refused cause => throw (accessFault view.virt addr cause)
    | .broken => throw (pageFault view.virt addr type)
    | .leaf => do
      updateAd hw view addr slot ptePaddr pte
      let phys := leafPage pte addr ptshift ||| (addr &&& pageMask)
      let final ← s2xlate hw view ⟨addr, phys, type, type, view.flags.hlvx, false⟩
      pure (pageBase final)

def canonical (xlen : Xlen) (vm : VmInfo) (addr : Reg) : Bool :=
  let vaBits := 12 + vm.levels * vm.idxbits
  let mask := ((1 : Reg) <<< (xlen.bits - (vaBits - 1))) - 1
  let maskedMsbs := (addr >>> (vaBits - 1)) &&& mask
  maskedMsbs == 0 || maskedMsbs == mask

def walk (hw : Hardware) (view : View) (addr : Reg) : Walker Reg :=
  match decodeVmInfo hw.isa.maxXlen false view.prv view.satp with
  | none => throw .abort
  | some vm =>
    if vm.levels = 0 then
      if view.flags.ssAccess then throw (accessFault view.virt addr .store)
      else do
        let type := view.walkType
        let final ← s2xlate hw view ⟨addr, zext addr hw.isa.maxXlen.bits, type, type, view.flags.hlvx, false⟩
        pure (pageBase final)
    else if svukteFault hw view addr then throw (pageFault view.virt addr view.walkType)
    else walkLevels hw view vm addr (if canonical hw.isa.maxXlen vm addr then vm.levels else 0) vm.ptbase

def translate (hw : Hardware) (regs : Regs) (info : AccessInfo) (len : Nat) : Walker Reg := do
  let addr := info.transformedVaddr
  let view := info.view regs
  let type := if info.flags.ssAccess then .store else info.type
  let page ← walk hw view addr
  let paddr := page ||| (addr &&& pageMask)
  if pmpOk hw view.pmp paddr len type info.effectivePriv info.flags.hlvx then pure paddr
  else throw (accessFault view.virt addr type)

end RiscvEmulators.Spike.Mmu
