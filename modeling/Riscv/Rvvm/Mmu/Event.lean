import Riscv.Rvvm.Mmu.Served
import Riscv.Transition.Run

namespace RiscvEmulators.Rvvm
open Word

inductive CsrOp where
  | swap
  | setBits
  | clearBits
deriving DecidableEq, Repr

def csrHelperMasked (rv64 : Bool) (csr dest mask : W64) (op : CsrOp) : W64 :=
  let mask := if rv64 then mask else mask &&& 0xFFFFFFFF
  match op with
  | .swap => (csr &&& ~~~mask) ||| (dest &&& mask)
  | .setBits => csr ||| (dest &&& mask)
  | .clearBits => csr &&& ~~~(dest &&& mask)

def csrHelper (rv64 : Bool) (csr dest : W64) (op : CsrOp) : W64 :=
  if rv64 then
    match op with
    | .swap => dest
    | .setBits => csr ||| dest
    | .clearBits => csr &&& ~~~dest
  else csrHelperMasked rv64 csr dest (-1) op

def mstatusMask : W64 := 0xF007FFFAA
def sstatusMask : W64 := 0x3000DE722

section
variable (board : Board)

def statusXlValid (xl : W64) : Bool := (board.useRv32 && xl = 1) || xl = 2

def fixXs (status : W64) : W64 :=
  let fs := bitCut status 13 2
  let vs := bitCut status 9 2
  bitReplace status 15 2 (if fs < vs then vs else fs)

def validXl (status : W64) (pos : Nat) : W64 :=
  if statusXlValid board (bitCut status pos 2) then status else bitReplace status pos 2 2

def legalStatus (status : W64) : W64 :=
  let status := if board.rv64 then validXl board (validXl board status 32) 34 else status
  let status := if bitCut status 11 2 = 2 then bitReplace status 11 2 0 else status
  let status := if board.useFpu then status else bitReplace status 13 2 0
  if board.useRvv then status else bitReplace status 9 2 0

def rawStatus (vm : Vm) (dest mask : W64) (op : CsrOp) : W64 :=
  csrHelperMasked vm.rv64 (fixXs vm.status) dest mask op

def csrStatus (vm : Vm) (dest mask : W64) (op : CsrOp) : Vm :=
  let status := rawStatus vm dest mask op
  if status ≠ vm.status then { vm with status := legalStatus board status } else vm

def rawSatp (vm : Vm) (dest : W64) (op : CsrOp) : W64 :=
  let mode := vm.mmuMode.setWidth 64
  csrHelper vm.rv64 ((if vm.rv64 then mode <<< 60 else mode <<< 31) ||| (vm.rootPageTable.val >>> pageShift)) dest op

def satpMode (rv64 : Bool) (satp : W64) : BitVec 8 :=
  if rv64 then (bitCut satp 60 4).setWidth 8 else (bitCut satp 31 1).setWidth 8

def satpRoot (rv64 : Bool) (satp : W64) : PageAddr :=
  ⟨(satp &&& bitMask (if rv64 then 44 else 22)) <<< 12, aligned_shiftLeft (Nat.le_refl _) (by decide)⟩

def satpSupported (rv64 : Bool) (mode : BitVec 8) : Bool :=
  !rv64 || mode = satpModeBare || (decide (satpModeSv39 ≤ mode ∧ mode ≤ satpModeSv57) && (mode ≠ satpModeSv57 || board.sv57))

def csrSatp (vm : Vm) (dest : W64) (op : CsrOp) : Vm :=
  if vm.status &&& statusTvm ≠ 0 ∧ vm.privMode < privMachine then vm
  else
    let satp := rawSatp vm dest op
    let mode := satpMode vm.rv64 satp
    if satpSupported board vm.rv64 mode then
      let rooted := { vm with rootPageTable := satpRoot vm.rv64 satp }
      -- the mode is stored only together with the flush
      if decide (vm.mmuMode ≠ 0) ≠ decide (mode ≠ 0) then { tlbFlush rooted with mmuMode := mode } else rooted
    else vm

def misaRv64 : W64 := 0x8000000000000000

def updateXlen (vm : Vm) : Vm :=
  if board.useRv64 ∧ board.useRv32 then
    let rv64 : Bool :=
      if vm.privMode = privMachine then vm.isa &&& misaRv64 ≠ 0
      else if vm.privMode = privUser then vm.status.getLsbD 33
      else vm.status.getLsbD 35
    if vm.rv64 ≠ rv64 then restartDispatch { vm with rv64 := rv64 } else vm
  else vm

def switchPriv (vm : Vm) (priv : Priv) : Vm :=
  if vm.privMode ≠ priv then tlbFlush (updateXlen board { vm with privMode := priv }) else vm

def trapPrivHelper (vm : Vm) (target : Priv) : Vm :=
  let stack (pp ppBits pie ie : Nat) : W64 :=
    let status := bitReplace vm.status pp ppBits (vm.privMode.setWidth 64)
    let status := bitReplace status pie 1 (bitCut status ie 1)
    bitReplace status ie 1 0
  if target = privMachine then { vm with status := stack 11 2 7 3 }
  else if target = privUser then
    let status := bitReplace vm.status 4 1 (bitCut vm.status 0 1)
    { vm with status := bitReplace status 0 1 0 }
  else { vm with status := stack 8 1 5 1 }

def restartAtPc (vm : Vm) : Vm := restartDispatch { vm with trap := true }

def delegated (vm : Vm) (cause : Cause) : Nat → Priv
  | 0 => privUser
  | n + 1 =>
    if vm.privMode.toNat < n + 1 ∧ (vm.edeleg (BitVec.ofNat 2 (n + 1))).getLsbD cause.toNat then delegated vm cause n
    else BitVec.ofNat 2 (n + 1)

def enterTrap (vm : Vm) (target : Priv) : Vm := switchPriv board (trapPrivHelper vm target) target

def riscvTrap (vm : Vm) (cause : Cause) : Vm :=
  if vm.trap then vm
  else if vm.userland then restartAtPc vm
  else restartAtPc (enterTrap board vm (delegated vm cause 3))

def irqTarget (ideleg : Priv → W64) : Nat → W64 → Priv
  | 0, _ => privUser
  | n + 1, pending =>
    if pending &&& ~~~(ideleg (BitVec.ofNat 2 (n + 1))) ≠ 0 then BitVec.ofNat 2 (n + 1)
    else irqTarget ideleg n (pending &&& ideleg (BitVec.ofNat 2 (n + 1)))

def handleIrqs (vm : Vm) (pending : W64) : Vm :=
  if pending = 0 then vm
  else
    let priv := irqTarget vm.ideleg 3 pending
    if priv < vm.privMode then vm
    else if vm.privMode = priv ∧ ¬vm.status.getLsbD vm.privMode.toNat then vm
    else enterTrap board vm priv

def mstatusAllowed (vm : Vm) (flag : W64) : Bool :=
  (decide (privSupervisor ≤ vm.privMode) && (vm.status &&& flag = 0)) || vm.privMode = privMachine

def sret (vm : Vm) : Vm :=
  if mstatusAllowed vm statusTsr then
    let next := (bitCut vm.status 8 1).setWidth 2
    let status := bitReplace vm.status 8 1 0
    let status := bitReplace status 1 1 (bitCut status 5 1)
    switchPriv board { vm with status := status } next
  else vm

def mret (vm : Vm) : Vm :=
  if vm.privMode = privMachine then
    let next := vm.mpp
    let status := if next < privMachine then vm.status &&& ~~~statusMprv else vm.status
    let status := bitReplace status 11 2 0
    let status := bitReplace status 3 1 (bitCut status 7 1)
    switchPriv board { vm with status := status } next
  else vm

def sfenceVma (vm : Vm) (addr : Option Addr) : Vm :=
  if mstatusAllowed vm statusTvm then
    match addr with
    | some addr => tlbFlushPage vm addr
    | none => tlbFlush vm
  else vm

end

/-- What happens to a hart. `dispatch` is the head of the outer run loop, with the interrupts pending there;
  `rmwCommit` writes the bounce buffer of a device access back. `moveRegion` is a write of a base address register, by
  this hart or another one. -/
inductive Event where
  | mstatus (op : CsrOp) (dest : W64)
  | sstatus (op : CsrOp) (dest : W64)
  | satp (op : CsrOp) (dest : W64)
  | trap (cause : Cause)
  | dispatch (pending : W64)
  | mret
  | sret
  | sfenceVma (addr : Option Addr)
  | load (vaddr : Addr) (size : Nat)
  | store (vaddr : Addr) (size : Nat)
  | fetch (vaddr : Addr) (long : Bool)
  | roTranslate (vaddr : Addr) (size : Nat) (buffer : Bool)
  | rmwTranslate (vaddr : Addr) (size : Nat) (buffer : Bool)
  | rmwCommit (vaddr : Addr) (size : Nat)
  | moveRegion (bar : Nat) (addr : Addr)

def settle (board : Board) : Vm × Outcome → Vm
  | (vm, .fault cause) => riscvTrap board vm cause
  | (vm, _) => vm

def step (board : Board) (vm : Vm) : Event → Vm
  | .mstatus op dest => if vm.privMode = privMachine then csrStatus board vm dest mstatusMask op else vm
  | .sstatus op dest => if privSupervisor ≤ vm.privMode then csrStatus board vm dest sstatusMask op else vm
  | .satp op dest => if privSupervisor ≤ vm.privMode then csrSatp board vm dest op else vm
  | .trap cause => riscvTrap board vm cause
  | .dispatch pending => handleIrqs board { vm with running := true, trap := false } pending
  | .mret => mret board vm
  | .sret => sret board vm
  | .sfenceVma addr => sfenceVma vm addr
  | .load vaddr size => settle board (loadOp board vm vaddr size)
  | .store vaddr size => settle board (storeOp board vm vaddr size)
  | .fetch vaddr long => settle board (fetchInsn board vm vaddr long)
  | .roTranslate vaddr size buffer => settle board (ptrTranslate board vm vaddr size .read buffer)
  | .rmwTranslate vaddr size buffer => settle board (ptrTranslate board vm vaddr size .write buffer)
  | .rmwCommit vaddr size => (mmuOp board vm vaddr size (plainAttr .write)).1
  | .moveRegion bar addr => { vm with mmioDevs := moveRegion vm.mmioDevs bar addr }

section

/- The kinds of access whose cached translations are watched. -/
variable (kinds : Access → Prop) (board : Board)

def Looser (vm vm' : Vm) (kind : Access) : Prop :=
  (¬vm.Paged kind ∧ ¬vm'.Paged kind) ∨
    (vm'.accessPriv kind = vm.accessPriv kind ∧ vm'.mmuMode = vm.mmuMode ∧ vm'.rootPageTable = vm.rootPageTable ∧
      (kind ≠ .exec → vm.sum → vm'.sum) ∧ (kind = .read → vm.mxr → vm'.mxr))

/-- A status write may set SUM and MXR but clear neither, and may not move data accesses to another
  privilege, while page tables are in effect for them. Nothing is asked about instruction fetches. -/
def StatusCareful (vm : Vm) (dest mask : W64) (op : CsrOp) : Prop :=
  let raw := { vm with status := rawStatus vm dest mask op }
  (∀ kind, kinds kind → Looser vm raw kind) ∧ (raw.mprv → raw.mpp ≠ privHypervisor)

/-- A write to `satp` turns paging on or off, or leaves the root alone, or is made where no watched access
  is paged. -/
def SatpCareful (vm : Vm) (dest : W64) (op : CsrOp) : Prop :=
  let satp := rawSatp vm dest op
  (decide (vm.mmuMode ≠ 0) ≠ decide (satpMode vm.rv64 satp ≠ 0)) ∨ satpRoot vm.rv64 satp = vm.rootPageTable ∨
    ∀ kind, kinds kind → ¬vm.Paged kind

def Vm.Lowered (vm : Vm) : Prop :=
  vm.privMode = privMachine ∧ vm.mprv ∧ vm.mpp ≠ privMachine ∧ vm.mmuMode ≠ satpModeBare

def TrapCareful (vm : Vm) : Prop := ∀ kind, kinds kind → kind ≠ .exec → ¬vm.Lowered

/-- An MRET that stays in machine mode sets MPP to user mode, also without a flush. -/
def MretCareful (vm : Vm) : Prop :=
  vm.privMode = privMachine → ∀ kind, kinds kind → kind ≠ .exec →
    ¬(vm.mpp = privMachine ∧ vm.mprv ∧ vm.mmuMode ≠ satpModeBare)

/-- A fill keeps the tags of its page for other kinds of access, which then share its host pointer, and a
  store also sets the tag for loads. -/
def FillCareful (vm : Vm) (vaddr : Addr) (access : Access) : Prop :=
  (∀ kind, kinds kind → vm.Hits vaddr kind → (vm.Paged kind ↔ vm.Paged access)) ∧
    (kinds .read → access = .write → vm.Paged .read →
      ∀ found, vm.leafOf board vaddr = some found → found.2.pte &&& vm.accessBits .read ≠ 0)

def OpCareful (vm : Vm) (vaddr : Addr) (size : Nat) (attr : Attr) : Prop :=
  FillCareful kinds board vm vaddr attr.access ∧
    (¬blockInPage vaddr size → FillCareful kinds board vm (secondPart vaddr) attr.access)

def FaultCareful (vm : Vm) (outcome : Outcome) : Prop := ∀ cause, outcome = .fault cause → TrapCareful kinds vm

/-- A region moves to a free place, and no watched entry leads into it. -/
def MoveCareful (vm : Vm) (bar : Nat) (addr : Addr) : Prop :=
  Placed (moveRegion vm.mmioDevs bar addr) ∧ ∀ dev, vm.mmioDevs[bar]? = some dev →
    ∀ vaddr kind, kinds kind → vm.Hits vaddr kind → ¬dev.Holds ((vm.entryOf vaddr).ptr + vaddr)

def EventCareful (vm : Vm) : Event → Prop
  | .mstatus op dest => StatusCareful kinds vm dest mstatusMask op
  | .sstatus op dest => StatusCareful kinds vm dest sstatusMask op
  | .satp op dest => SatpCareful kinds vm dest op
  | .trap _ => TrapCareful kinds vm
  | .dispatch _ => TrapCareful kinds vm
  | .mret => MretCareful kinds vm
  | .sret => True
  | .sfenceVma _ => True
  | .load vaddr size => (vm.Hits vaddr .read ∧ aligned vaddr size) ∨
    (OpCareful kinds board vm vaddr size (plainAttr .read) ∧ FaultCareful kinds vm (loadOp board vm vaddr size).2)
  | .store vaddr size => (vm.Hits vaddr .write ∧ aligned vaddr size) ∨
    (OpCareful kinds board vm vaddr size (plainAttr .write) ∧ FaultCareful kinds vm (storeOp board vm vaddr size).2)
  | .fetch vaddr long => (vm.Hits vaddr .exec ∧ (long → vm.Hits (vaddr + 2) .exec)) ∨
    (OpCareful kinds board vm vaddr 2 (plainAttr .exec) ∧ OpCareful kinds board vm (vaddr + 2) 2 (plainAttr .exec) ∧
      FaultCareful kinds vm (fetchInsn board vm vaddr long).2)
  | .roTranslate vaddr size buffer => vm.Hits vaddr .read ∨ (OpCareful kinds board vm vaddr size ⟨.read, true, buffer⟩ ∧
    FaultCareful kinds vm (ptrTranslate board vm vaddr size .read buffer).2)
  | .rmwTranslate vaddr size buffer => vm.Hits vaddr .write ∨
    (OpCareful kinds board vm vaddr size ⟨.write, true, buffer⟩ ∧
      FaultCareful kinds vm (ptrTranslate board vm vaddr size .write buffer).2)
  | .rmwCommit vaddr size => OpCareful kinds board vm vaddr size (plainAttr .write)
  | .moveRegion bar addr => MoveCareful kinds vm bar addr

end

end RiscvEmulators.Rvvm
