import Riscv.Rvvm.Dma
import Riscv.Word.Align
import Riscv.Word.Field

namespace RiscvEmulators.Rvvm
open Word

def bitMask (count : Nat) : W64 := ((1 : W64) <<< count) - 1
def bitCut (val : W64) (pos bits : Nat) : W64 := (val <<< (64 - bits - pos)) >>> (64 - bits)

def bitReplace (val : W64) (pos bits : Nat) (rep : W64) : W64 :=
  (val &&& ~~~(bitMask bits <<< pos)) ||| ((rep &&& bitMask bits) <<< pos)

def signExtend (val : W64) (bits : Nat) : W64 := (val <<< (64 - bits)).sshiftRight (64 - bits)
abbrev Priv := BitVec 2

def privUser : Priv := 0
def privSupervisor : Priv := 1
def privHypervisor : Priv := 2
def privMachine : Priv := 3

inductive Access where
  | read
  | write
  | exec
deriving DecidableEq, Repr

def mmuRead : W64 := 0x2
def mmuWrite : W64 := 0x4
def mmuExec : W64 := 0x8

def Access.bits : Access → W64
  | .read => mmuRead
  | .write => mmuWrite
  | .exec => mmuExec

structure TlbEntry where
  ptr : Addr
  r : Addr
  w : Addr
  e : Addr
deriving DecidableEq, Repr

def TlbEntry.tag (entry : TlbEntry) : Access → Addr
  | .read => entry.r
  | .write => entry.w
  | .exec => entry.e

/-- An MMIO region; `mapping` is the host memory of a direct memory region, absent for a register file. -/
structure MmioDev where
  addr : Addr
  size : Addr
  mapping : Option Addr
deriving DecidableEq, Repr

def mmioOverlapCheck (addr1 size1 addr2 size2 : Addr) : Bool :=
  decide (addr1 < addr2 + size2) && decide (addr2 < addr1 + size1)

/-- What a machine is built with. `riscv_init_ram` refuses an unaligned RAM. -/
structure Board where
  mem : Ram
  addrAligned : Aligned 12 mem.addr
  sizeAligned : Aligned 12 mem.size
  rv64 : Bool
  sv57 : Bool
  useRv32 : Bool
  useRv64 : Bool
  useFpu : Bool
  useRvv : Bool

/-- The root of the page tables; `satp` can name page-aligned addresses only. -/
abbrev PageAddr := { addr : Addr // Aligned 12 addr }

/-- The parts of `rvvm_hart_t` that address translation and control transfers use, with the host memory and the regions
  of the machine, which the guest can move. -/
structure Vm where
  tlb : BitVec 8 → TlbEntry
  host : Addr → BitVec 8
  mmioDevs : List MmioDev
  status : W64
  isa : W64
  edeleg : Priv → W64
  ideleg : Priv → W64
  rootPageTable : PageAddr
  mmuMode : BitVec 8
  privMode : Priv
  rv64 : Bool
  userland : Bool
  trap : Bool
  running : Bool

def pageShift : Nat := 12
def vpnOf (vaddr : Addr) : Addr := vaddr >>> pageShift
def tlbSlot (vpn : Addr) : BitVec 8 := vpn.setWidth 8
def Vm.entryOf (vm : Vm) (vaddr : Addr) : TlbEntry := vm.tlb (tlbSlot (vpnOf vaddr))
def Vm.Hits (vm : Vm) (vaddr : Addr) (access : Access) : Prop := (vm.entryOf vaddr).tag access = vpnOf vaddr

instance (vm : Vm) (vaddr : Addr) (access : Access) : Decidable (vm.Hits vaddr access) :=
  inferInstanceAs (Decidable (_ = _))

def Vm.setEntry (vm : Vm) (slot : BitVec 8) (entry : TlbEntry) : Vm :=
  { vm with tlb := fun other => if other = slot then entry else vm.tlb other }

def restartDispatch (vm : Vm) : Vm := { vm with running := false }

def emptyTlb (slot : BitVec 8) : TlbEntry :=
  -- tag zero names no page of a nonzero slot; slot zero needs another one
  if slot = 0 then ⟨0, -1, -1, -1⟩ else ⟨0, 0, 0, 0⟩

def tlbFlush (vm : Vm) : Vm := restartDispatch { vm with tlb := emptyTlb }

def TlbEntry.without (entry : TlbEntry) (vpn : Addr) : TlbEntry :=
  let drop (tag : Addr) : Addr := if tag = vpn then vpn - 1 else tag
  { entry with r := drop entry.r, w := drop entry.w, e := drop entry.e }

def tlbFlushPage (vm : Vm) (addr : Addr) : Vm :=
  let vpn := vpnOf addr
  let entry := vm.tlb (tlbSlot vpn)
  let flushed := vm.setEntry (tlbSlot vpn) (entry.without vpn)
  if entry.e = vpn then restartDispatch flushed else flushed

def tlbPut (vm : Vm) (vaddr ptr : Addr) (access : Access) : Vm :=
  let vpn := vpnOf vaddr
  let entry := vm.tlb (tlbSlot vpn)
  let keep (tag : Addr) : Addr := if tag ≠ vpn then vpn - 1 else tag
  vm.setEntry (tlbSlot vpn) <|
    match access with
    | .read => ⟨ptr - vaddr, vpn, keep entry.w, keep entry.e⟩
    | .write => ⟨ptr - vaddr, vpn, vpn, keep entry.e⟩
    | .exec => ⟨ptr - vaddr, keep entry.r, vpn - 1, vpn⟩

def physAccess (board : Board) (paddr : Addr) : Option Addr :=
  if board.mem.addr ≤ paddr ∧ paddr - board.mem.addr < board.mem.size then some (hostPtr board.mem paddr) else none

theorem tlbSlot_pred {vpn : Addr} : tlbSlot (vpn - 1) ≠ tlbSlot vpn := by
  intro hs
  have hl := congrArg BitVec.toNat hs
  simp only [tlbSlot, BitVec.toNat_setWidth, BitVec.toNat_sub] at hl
  have ho : (1 : W64).toNat = 1 := rfl
  omega

theorem pred_ne (vpn : Addr) : vpn - 1 ≠ vpn := fun h => tlbSlot_pred (congrArg tlbSlot h)

@[simp] theorem entryOf_setEntry_same (vm : Vm) (va : Addr) (entry : TlbEntry) :
    (vm.setEntry (tlbSlot (vpnOf va)) entry).entryOf va = entry := by
  simp [Vm.entryOf, Vm.setEntry]

theorem entryOf_setEntry_other (vm : Vm) {vaddr : Addr} {sl : BitVec 8} (e : TlbEntry)
    (h : tlbSlot (vpnOf vaddr) ≠ sl) : (vm.setEntry sl e).entryOf vaddr = vm.entryOf vaddr := by
  simp [Vm.entryOf, Vm.setEntry, h]

theorem not_hits_emptyTlb {vm : Vm} (he : vm.tlb = emptyTlb) (va : Addr) (access : Access) : ¬vm.Hits va access := by
  intro hh
  unfold Vm.Hits Vm.entryOf at hh
  rw [he, emptyTlb] at hh
  by_cases hz : tlbSlot (vpnOf va) = 0
  · rw [if_pos hz] at hh
    have ht : vpnOf va = -1 := by cases access <;> exact hh.symm
    rw [ht] at hz
    exact absurd hz (by decide)
  · rw [if_neg hz] at hh
    have ht : vpnOf va = 0 := by cases access <;> exact hh.symm
    rw [ht] at hz
    exact hz (by decide)

theorem tag_without {e : TlbEntry} {vpn page : Addr} {ac : Access} (slot : tlbSlot page = tlbSlot vpn)
    (ht : (e.without vpn).tag ac = page) : e.tag ac = page := by
  have hd (tag : Addr) (hs : (if tag = vpn then vpn - 1 else tag) = page) : tag = page := by
    by_cases hh : tag = vpn
    · rw [if_pos hh] at hs
      rw [← hs] at slot
      exact absurd slot tlbSlot_pred
    · rwa [if_neg hh] at hs
  cases ac <;> exact hd _ ht

theorem entryOf_tlbFlushPage (vm : Vm) (a vaddr : Addr) : (tlbFlushPage vm a).entryOf vaddr =
    (vm.setEntry (tlbSlot (vpnOf a)) ((vm.tlb (tlbSlot (vpnOf a))).without (vpnOf a))).entryOf vaddr := by
  unfold tlbFlushPage
  dsimp only
  split <;> rfl

theorem hits_tlbFlushPage {vm : Vm} {a va : Addr} {ac : Access} (hh : (tlbFlushPage vm a).Hits va ac) :
    vm.Hits va ac ∧ ((tlbFlushPage vm a).entryOf va).ptr = (vm.entryOf va).ptr := by
  unfold Vm.Hits at hh ⊢
  rw [entryOf_tlbFlushPage] at hh ⊢
  by_cases hs : tlbSlot (vpnOf va) = tlbSlot (vpnOf a)
  · rw [← hs, entryOf_setEntry_same] at hh ⊢
    exact ⟨tag_without hs hh, rfl⟩
  · rw [entryOf_setEntry_other vm _ hs] at hh ⊢
    exact ⟨hh, rfl⟩

theorem hits_tlbPut {vm : Vm} {va ptr other : Addr} {ac k : Access} (hh : (tlbPut vm va ptr ac).Hits other k) :
    (vpnOf other = vpnOf va ∧ ((tlbPut vm va ptr ac).entryOf other).ptr = ptr - va ∧
      (k = ac ∨ (k = .read ∧ ac = .write) ∨ vm.Hits other k)) ∨
      (vm.Hits other k ∧ ((tlbPut vm va ptr ac).entryOf other) = vm.entryOf other) := by
  by_cases hs : tlbSlot (vpnOf other) = tlbSlot (vpnOf va)
  · left
    unfold Vm.Hits at hh
    unfold tlbPut at hh ⊢
    dsimp only at hh ⊢
    have hk (tag : Addr) (same : (if tag ≠ vpnOf va then vpnOf va - 1 else tag) = vpnOf other) :
        vpnOf other = vpnOf va ∧ tag = vpnOf other := by
      by_cases here : tag = vpnOf va
      · rw [if_neg (not_not_intro here)] at same
        exact ⟨by rw [← same, here], same⟩
      · rw [if_pos here] at same
        rw [← same] at hs
        exact absurd hs tlbSlot_pred
    have hg (same : vpnOf va - 1 = vpnOf other) : False := by
      rw [← same] at hs
      exact tlbSlot_pred hs
    rw [← hs, entryOf_setEntry_same] at hh ⊢
    rw [hs] at hh ⊢
    unfold Vm.Hits Vm.entryOf
    rw [hs]
    cases ac with
    | read =>
      cases k with
      | read => exact ⟨hh.symm, rfl, .inl rfl⟩
      | write => exact ⟨(hk _ hh).1, rfl, .inr (.inr (hk _ hh).2)⟩
      | exec => exact ⟨(hk _ hh).1, rfl, .inr (.inr (hk _ hh).2)⟩
    | write =>
      cases k with
      | read => exact ⟨hh.symm, rfl, .inr (.inl ⟨rfl, rfl⟩)⟩
      | write => exact ⟨hh.symm, rfl, .inl rfl⟩
      | exec => exact ⟨(hk _ hh).1, rfl, .inr (.inr (hk _ hh).2)⟩
    | exec =>
      cases k with
      | read => exact ⟨(hk _ hh).1, rfl, .inr (.inr (hk _ hh).2)⟩
      | write => exact absurd hh hg
      | exec => exact ⟨hh.symm, rfl, .inl rfl⟩
  · right
    unfold Vm.Hits at hh ⊢
    unfold tlbPut at hh ⊢
    rw [entryOf_setEntry_other vm _ hs] at hh ⊢
    exact ⟨hh, rfl⟩

def statusMprv : W64 := (1 : W64) <<< 17
def statusSum : W64 := (1 : W64) <<< 18
def statusMxr : W64 := (1 : W64) <<< 19
def statusTvm : W64 := (1 : W64) <<< 20
def statusTsr : W64 := (1 : W64) <<< 22

def pteValid : W64 := 0x01
def pteLeaf : W64 := 0x0A
def pteUser : W64 := 0x10
def pteAccessed : W64 := 0x40
def pteDirty : W64 := 0x80
def debugAccess : W64 := mmuRead ||| mmuExec ||| mmuWrite

def checkPriv (status : W64) (priv : Priv) (access : W64) : Bool :=
  if access = debugAccess then true
  else if access = mmuExec then false
  else if priv ≠ privSupervisor ∨ status &&& statusSum = 0 then false
  else true

/-- The constants in which the Sv32 walk and the RV64 walks differ. `tableBits` is the width at which the
  pointer to the next table is cut: the 32-bit type of an Sv32 entry, the 56-bit mask on RV64; only the
  RV64 walks refuse addresses that are not `canonical`. -/
structure Scheme where
  levels : Nat
  vpnBits : Nat
  pteShift : Nat
  physBits : Nat
  tableBits : Nat
  canonical : Bool
deriving DecidableEq, Repr

def schemeSv32 : Scheme := ⟨2, 10, 2, 34, 32, false⟩
def schemeRv64 (svLevels : Nat) : Scheme := ⟨svLevels, 9, 3, 56, 56, true⟩

def readLe (host : Addr → BitVec 8) (ptr : Addr) : Nat → W64
  | 0 => 0
  | n + 1 => readLe host ptr n ||| ((host (ptr + BitVec.ofNat 64 n)).setWidth 64 <<< (8 * n))

namespace Scheme
variable (scheme : Scheme) (board : Board)

def pteOffset (vaddr : Addr) (bitOff : Nat) : Addr :=
  ((vaddr >>> bitOff) &&& bitMask scheme.vpnBits) <<< scheme.pteShift

def readPte (host : Addr → BitVec 8) (ptr : Addr) : W64 := readLe host ptr (2 ^ scheme.pteShift)
def nextTable (pte : W64) : Addr := ((pte >>> 10) <<< pageShift) &&& bitMask scheme.tableBits
def pteShifted (pte : W64) : Addr := (pte <<< 2) &&& bitMask (8 * 2 ^ scheme.pteShift)

def misaligned (pte : W64) (bitOff : Nat) : Bool :=
  scheme.pteShifted pte &&& bitMask bitOff &&& ~~~(bitMask pageShift) ≠ 0

def combine (pte : W64) (vaddr : Addr) (bitOff : Nat) : Addr :=
  (scheme.pteShifted pte &&& (bitMask (scheme.physBits - bitOff) <<< bitOff)) ||| (vaddr &&& bitMask bitOff)

def rootOff : Nat := scheme.levels * scheme.vpnBits + pageShift - scheme.vpnBits

end Scheme

structure Found where
  paddr : Addr
  ptePtr : Addr
  pteAd : W64

/-- The loop over the levels. An entry that is neither a usable leaf nor a table leaves the loop at the
  same table and the same level, so the remaining rounds read it again. -/
def Scheme.walk (scheme : Scheme) (board : Board) (vm : Vm) (vaddr : Addr) (priv : Priv) (access : W64) :
    Nat → Addr → Nat → Option Found
  | 0, _, _ => none
  | rounds + 1, pagetable, bitOff =>
    (physAccess board (pagetable + scheme.pteOffset vaddr bitOff)).bind fun ptePtr =>
    let pte := scheme.readPte vm.host ptePtr
    if pte &&& pteValid ≠ 0 then
      if pte &&& pteLeaf ≠ 0 then
        if decide (pte &&& pteUser ≠ 0) = decide (priv ≠ 0) ∧ ¬checkPriv vm.status priv access then none
        else if pte &&& access ≠ 0 then
          if scheme.misaligned pte bitOff then none
          else some ⟨scheme.combine pte vaddr bitOff, ptePtr, pte ||| pteAccessed ||| ((access &&& mmuWrite) <<< 5)⟩
        else walk scheme board vm vaddr priv access rounds pagetable bitOff
      else if pte &&& mmuWrite = 0 then
        walk scheme board vm vaddr priv access rounds (scheme.nextTable pte) (bitOff - scheme.vpnBits)
      else walk scheme board vm vaddr priv access rounds pagetable bitOff
    else walk scheme board vm vaddr priv access rounds pagetable bitOff

/-- An entry of `size` bytes is swapped for the one with the accessed and the dirty bit. -/
def markPte (host : Addr → BitVec 8) (ptePtr : Addr) (size : Nat) (pteAd : W64) : Addr → BitVec 8 :=
  memcpy host ptePtr (fun i => (pteAd >>> (8 * i)).setWidth 8) (BitVec.ofNat 64 size)

def Scheme.translate (scheme : Scheme) (board : Board) (vm : Vm) (vaddr : Addr) (priv : Priv) (access : W64) :
    Option (Addr × (Addr → BitVec 8)) :=
  if scheme.canonical ∧ vaddr ≠ signExtend vaddr (scheme.rootOff + scheme.vpnBits) then none
  else (scheme.walk board vm vaddr priv access scheme.levels vm.rootPageTable scheme.rootOff).map fun found =>
    (found.paddr, markPte vm.host found.ptePtr (2 ^ scheme.pteShift) found.pteAd)

def mmuTranslateSv32 : Board → Vm → Addr → Priv → W64 → Option (Addr × (Addr → BitVec 8)) :=
  schemeSv32.translate

def mmuTranslateRv64 (svLevels : Nat) : Board → Vm → Addr → Priv → W64 → Option (Addr × (Addr → BitVec 8)) :=
  (schemeRv64 svLevels).translate

def satpModeBare : BitVec 8 := 0x0
def satpModeSv32 : BitVec 8 := 0x1
def satpModeSv39 : BitVec 8 := 0x8
def satpModeSv48 : BitVec 8 := 0x9
def satpModeSv57 : BitVec 8 := 0xA

def Vm.mprv (vm : Vm) : Bool := vm.status &&& statusMprv ≠ 0
def Vm.sum (vm : Vm) : Bool := vm.status &&& statusSum ≠ 0
def Vm.mxr (vm : Vm) : Bool := vm.status &&& statusMxr ≠ 0
def Vm.mpp (vm : Vm) : Priv := (bitCut vm.status 11 2).setWidth 2
def Vm.accessPriv (vm : Vm) (access : Access) : Priv := if vm.mprv ∧ access ≠ .exec then vm.mpp else vm.privMode

def Vm.accessBits (vm : Vm) (access : Access) : W64 :=
  if vm.mxr ∧ access = .read then access.bits ||| mmuExec else access.bits

def mmuTranslate (board : Board) (vm : Vm) (vaddr : Addr) (access : Access) : Option (Addr × (Addr → BitVec 8)) :=
  let priv := vm.accessPriv access
  let bits := vm.accessBits access
  if priv < privMachine then
    if vm.mmuMode = satpModeBare then some (vaddr, vm.host)
    else if vm.mmuMode = satpModeSv32 ∧ board.useRv32 then mmuTranslateSv32 board vm vaddr priv bits
    else if vm.mmuMode = satpModeSv39 ∧ board.useRv64 then mmuTranslateRv64 3 board vm vaddr priv bits
    else if vm.mmuMode = satpModeSv48 ∧ board.useRv64 then mmuTranslateRv64 4 board vm vaddr priv bits
    else if vm.mmuMode = satpModeSv57 ∧ board.useRv64 then mmuTranslateRv64 5 board vm vaddr priv bits
    else none
  else some (vaddr, vm.host)

def sv64PhysMask : W64 := 0xFFFFFFFFFFFFFF
abbrev Cause := BitVec 8

/-- How a memory operation ends: it is served, it returns a null pointer without a trap, or it traps. -/
inductive Outcome where
  | served
  | refused
  | fault (cause : Cause)
deriving DecidableEq, Repr

def misalignCause : Access → Cause
  | .exec => 0x0
  | .read => 0x4
  | .write => 0x6

def physFaultCause : Access → Cause
  | .exec => 0x1
  | .read => 0x5
  | .write => 0x7

def pagefaultCause : Access → Cause
  | .exec => 0xC
  | .read => 0xD
  | .write => 0xF

def mmioFind (devs : List MmioDev) (paddr : Addr) : Option MmioDev :=
  devs.find? fun dev => decide (dev.addr ≤ paddr) && decide (paddr < dev.addr + dev.size)

def MmioDev.direct (dev : MmioDev) (paddr : Addr) : Option Addr :=
  let paddrAlign := paddr &&& ~~~(bitMask pageShift)
  if dev.addr ≤ paddrAlign ∧ paddrAlign + 0x1000 ≤ dev.addr + dev.size then
    dev.mapping.map (· + (paddr - dev.addr))
  else none

/-- What a scan does to the hart is the fill of its translation cache. The bytes moved are left out, and what a device's
  handler does to the regions of the machine is an event of its own. `none` when no device answers. -/
def mmioScan (vm : Vm) (vaddr paddr : Addr) (access : Access) : Option Vm :=
  (mmioFind vm.mmioDevs paddr).map fun dev =>
    match dev.direct paddr with
    | some ptr => tlbPut vm vaddr ptr access
    | none => vm

/-- A write of a base address register (`pci_bus_write`) moves a region. Nothing is flushed. -/
def moveRegion (devs : List MmioDev) (bar : Nat) (addr : Addr) : List MmioDev :=
  devs.modify bar fun dev => { dev with addr := addr }

variable (board : Board)

/-- What `riscv_mmu_op_internal` is asked for besides the address: `ptr` for a direct pointer, `buffer`
  when a bounce buffer is passed. -/
structure Attr where
  access : Access
  ptr : Bool
  buffer : Bool
deriving DecidableEq, Repr

def mmuOpInPage (vm : Vm) (vaddr : Addr) (attr : Attr) : Vm × Outcome :=
  match mmuTranslate board vm vaddr attr.access with
  | none => (vm, .fault (pagefaultCause attr.access))
  | some (paddr, host) =>
    let vm := { vm with host := host }
    match physAccess board paddr with
    | some ptr => (tlbPut vm vaddr ptr attr.access, .served)
    | none =>
      match if attr.buffer then mmioScan vm vaddr paddr (if attr.ptr then .read else attr.access) else none with
      | some vm => (vm, .served)
      | none =>
        if paddr &&& ~~~sv64PhysMask = 0 then (vm, if attr.buffer then .served else .refused)
        else (vm, .fault (physFaultCause attr.access))

def blockInPage (vaddr : Addr) (size : Nat) : Bool := (vaddr &&& bitMask pageShift).toNat + size ≤ 0x1000
def secondPart (vaddr : Addr) : Addr := vaddr + (0x1000 - (vaddr &&& bitMask pageShift))

def mmuOp (vm : Vm) (vaddr : Addr) (size : Nat) (attr : Attr) : Vm × Outcome :=
  if blockInPage vaddr size then mmuOpInPage board vm vaddr attr
  else if attr.ptr then (vm, .fault (misalignCause attr.access))
  else
    -- two pages: the second part is accessed only when the first one went through
    match mmuOpInPage board vm vaddr attr with
    | (vm, .served) => mmuOpInPage board vm (secondPart vaddr) attr
    | failed => failed

def plainAttr (access : Access) : Attr := ⟨access, false, true⟩
def aligned (vaddr : Addr) (size : Nat) : Bool := vaddr &&& BitVec.ofNat 64 (size - 1) = 0

def loadOp (vm : Vm) (vaddr : Addr) (size : Nat) : Vm × Outcome :=
  if vm.Hits vaddr .read ∧ aligned vaddr size then (vm, .served) else mmuOp board vm vaddr size (plainAttr .read)

def storeOp (vm : Vm) (vaddr : Addr) (size : Nat) : Vm × Outcome :=
  if vm.Hits vaddr .write ∧ aligned vaddr size then (vm, .served) else mmuOp board vm vaddr size (plainAttr .write)

def ptrTranslate (vm : Vm) (vaddr : Addr) (size : Nat) (access : Access) (buffer : Bool) : Vm × Outcome :=
  if vm.Hits vaddr access then (vm, .served) else mmuOp board vm vaddr size ⟨access, true, buffer⟩

/-- `long` says whether the first halfword opens a 4-byte instruction. -/
def fetchInsn (vm : Vm) (vaddr : Addr) (long : Bool) : Vm × Outcome :=
  if vm.Hits vaddr .exec ∧ (long → vm.Hits (vaddr + 2) .exec) then (vm, .served)
  else
    match mmuOp board vm vaddr 2 (plainAttr .exec) with
    | (vm, .served) => if long then mmuOp board vm (vaddr + 2) 2 (plainAttr .exec) else (vm, .served)
    | failed => failed

end RiscvEmulators.Rvvm
