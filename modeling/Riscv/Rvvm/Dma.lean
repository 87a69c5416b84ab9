import Mathlib.Algebra.Group.Nat.Defs

namespace RiscvEmulators.Rvvm
open BitVec

abbrev Addr := BitVec 64

structure Ram where
  addr : Addr
  size : Addr
  data : Addr
deriving DecidableEq, Repr

structure Machine where
  mem : Ram
  host : Addr → BitVec 8

def rangeTest (ram : Ram) (addr size : Addr) : Bool :=
  decide (ram.addr ≤ addr) && decide (addr + size ≤ ram.addr + ram.size)

def hostPtr (ram : Ram) (addr : Addr) : Addr := ram.data + (addr - ram.addr)

def memcpy (host : Addr → BitVec 8) (dest : Addr) (src : Nat → BitVec 8) (size : Addr) : Addr → BitVec 8 :=
  fun p => if (p - dest).toNat < size.toNat then src (p - dest).toNat else host p

def rvvmWriteRam (machine : Option Machine) (dest : Addr) (src : Nat → BitVec 8) (size : Addr) : Option Machine :=
  machine.bind fun m =>
    if rangeTest m.mem dest size then some { m with host := memcpy m.host (hostPtr m.mem dest) src size }
    else none

def rvvmReadRam (machine : Option Machine) (src size : Addr) : Option (List (BitVec 8)) :=
  machine.bind fun m =>
    if rangeTest m.mem src size then
      some ((List.range size.toNat).map fun i => m.host (hostPtr m.mem src + BitVec.ofNat 64 i))
    else none

def rvvmGetDmaPtr (machine : Option Machine) (addr size : Addr) : Option Addr :=
  machine.bind fun m => if rangeTest m.mem addr size then some (hostPtr m.mem addr) else none

def pciCmdBusMaster : BitVec 32 := 0x4

structure PciFunc where
  command : BitVec 32
  machine : Option Machine

def pciGetDmaPtr (func : Option PciFunc) (addr size : Addr) : Option Addr :=
  func.bind fun f => if f.command &&& pciCmdBusMaster ≠ 0 then rvvmGetDmaPtr f.machine addr size else none

def InRam (ram : Ram) (addr size : Addr) : Prop :=
  ram.addr.toNat ≤ addr.toNat ∧ addr.toNat + size.toNat ≤ ram.addr.toNat + ram.size.toNat

def WrapsIntoRam (ram : Ram) (addr size : Addr) : Prop :=
  ram.addr.toNat + ram.size.toNat < 2 ^ 64 ∧ ram.addr.toNat ≤ addr.toNat ∧
    2 ^ 64 ≤ addr.toNat + size.toNat ∧ addr.toNat + size.toNat ≤ 2 ^ 64 + ram.addr.toNat + ram.size.toNat

instance (ram : Ram) (addr size : Addr) : Decidable (InRam ram addr size) := inferInstanceAs (Decidable (_ ∧ _))

theorem rangeTest_eq_true_iff (ram : Ram) (a sz : Addr) : rangeTest ram a sz ↔ ram.addr.toNat ≤ a.toNat ∧
    (a.toNat + sz.toNat) % 2 ^ 64 ≤ (ram.addr.toNat + ram.size.toNat) % 2 ^ 64 := by
  simp [rangeTest, le_def]

theorem rangeTest_sound_iff (ram : Ram) (a size : Addr) :
    (rangeTest ram a size → InRam ram a size) ↔ ¬WrapsIntoRam ram a size := by
  rw [rangeTest_eq_true_iff]
  unfold InRam WrapsIntoRam
  omega

theorem WrapsIntoRam.rangeTest {ram : Ram} {a size : Addr} (hw : WrapsIntoRam ram a size) :
    rangeTest ram a size ∧ ¬InRam ram a size := by
  have hu := mt (rangeTest_sound_iff ram a size).mp (not_not_intro hw)
  exact Classical.not_imp.mp hu

def nvmePageSize : Nat := 4096
def nvmePageMask : Addr := 0xfff

structure NvmePrpCtx where
  prp1 : Addr
  prp2 : Addr
  size : Nat
  cur : Nat
  curLe : cur ≤ size

def nvmePrpAvail (prp : NvmePrpCtx) : Nat := prp.size - prp.cur

def readUint64Le (host : Addr → BitVec 8) (p : Addr) : Addr :=
  ((((((host (p + 7) ++ host (p + 6)) ++ host (p + 5)) ++ host (p + 4)) ++ host (p + 3)) ++ host (p + 2)) ++
      host (p + 1)) ++ host p

def atListEnd (prp2 : Addr) : Bool := (prp2 + 8) &&& nvmePageMask == 0

theorem atListEnd_page (p : Addr) : atListEnd (p &&& ~~~nvmePageMask) = false := by
  have ha : p &&& ~~~nvmePageMask &&& (8 : Addr) = 0 := by
    rw [BitVec.and_assoc]
    exact and_zero
  have ho : (p &&& ~~~nvmePageMask ||| (8 : Addr)) &&& nvmePageMask = 8 := by
    rw [and_or_distrib_right, BitVec.and_assoc, show ~~~nvmePageMask &&& nvmePageMask = 0#64 by decide,
      and_zero]
    decide
  rw [atListEnd, add_eq_or_of_and_eq_zero _ _ ha, ho]
  decide

structure PrpScan where
  len : Nat
  prp1 : Addr
  prp2 : Addr

/-- The list loop of `nvme_parse_prp_region`. A page of entries is mapped on demand,
  its last entry chains to the next page while more than one page is left, and the
  scan stops at the first entry that does not continue the region. -/
def nvmeScanPrpList (func : Option PciFunc) (host : Addr → BitVec 8) (prp : NvmePrpCtx) (prp2 : Addr)
    (dma : Option Addr) (len : Nat) : PrpScan :=
  if nvmePrpAvail prp ≤ len then ⟨len, prp.prp1, prp.prp2⟩
  else match dma.or (pciGetDmaPtr func (prp2 &&& ~~~nvmePageMask) 4096) with
    | none => ⟨len, prp.prp1, prp.prp2⟩
    | some list =>
      if atListEnd prp2 ∧ len + nvmePageSize < nvmePrpAvail prp then
        nvmeScanPrpList func host prp (readUint64Le host (list + 4096 - 8) &&& ~~~nvmePageMask) none len
      else
        let page := readUint64Le host (list + (prp2 &&& nvmePageMask))
        if page ≠ prp.prp1 + BitVec.ofNat 64 len then ⟨len, page, prp2 + 8⟩
        else nvmeScanPrpList func host prp (prp2 + 8) (some list) (len + nvmePageSize)
termination_by (nvmePrpAvail prp - len, if atListEnd prp2 then 1 else 0)
decreasing_by
  · rename_i chain
    right
    simp [atListEnd_page, chain.1]
  · left
    simp only [nvmePageSize]
    omega

def nvmeFirstLen (prp : NvmePrpCtx) : Nat :=
  if prp.cur = 0 then nvmePageSize - (prp.prp1 &&& nvmePageMask).toNat else nvmePageSize

def nvmeParsePrpRegion (func : Option PciFunc) (host : Addr → BitVec 8) (prp : NvmePrpCtx) : PrpScan :=
  let len := nvmeFirstLen prp
  if prp.cur = 0 ∧ prp.size ≤ len then ⟨prp.size, prp.prp1, prp.prp2⟩
  else if prp.cur = 0 ∧ prp.size ≤ len + nvmePageSize then
    let page := prp.prp2 &&& ~~~nvmePageMask
    if page = prp.prp1 + BitVec.ofNat 64 len then ⟨prp.size, prp.prp1, prp.prp2⟩ else ⟨len, page, prp.prp2⟩
  else
    let scan := nvmeScanPrpList func host prp (prp.prp2 &&& ~~~7) none len
    { scan with len := min scan.len (nvmePrpAvail prp) }

theorem nvmeParsePrpRegion_le {f : Option PciFunc} {ho : Addr → BitVec 8} {prp : NvmePrpCtx} :
    prp.cur + (nvmeParsePrpRegion f ho prp).len ≤ prp.size := by
  have h := prp.curLe
  simp only [nvmeParsePrpRegion]
  split
  · simp only
    omega
  split
  · split <;> simp only <;> omega
  · simp only [nvmePrpAvail]
    omega

def nvmeGetPrpRegion (func : Option PciFunc) (host : Addr → BitVec 8) (prp : NvmePrpCtx) :
    Option (Addr × Nat) × NvmePrpCtx :=
  let scan := nvmeParsePrpRegion func host prp
  let next : NvmePrpCtx :=
    ⟨scan.prp1, scan.prp2, prp.size, prp.cur + scan.len, nvmeParsePrpRegion_le⟩
  if scan.len = 0 then (none, next)
  else ((pciGetDmaPtr func prp.prp1 (BitVec.ofNat 64 scan.len)).map fun region => (region, scan.len), next)

/-- Every way a device or the machine API reaches guest RAM for the bytes
  `[addr, addr + size)` grants the access only inside RAM. -/
structure DmaInRam (machine : Machine) (addr size : Addr) : Prop where
  pointer : ∀ ptr, rvvmGetDmaPtr (some machine) addr size = some ptr → InRam machine.mem addr size
  pci : ∀ command ptr, pciGetDmaPtr (some ⟨command, some machine⟩) addr size = some ptr → InRam machine.mem addr size
  read : ∀ bytes, rvvmReadRam (some machine) addr size = some bytes → bytes ≠ [] → InRam machine.mem addr size
  write : ∀ src after, rvvmWriteRam (some machine) addr src size = some after → size.toNat ≠ 0 →
    InRam machine.mem addr size
  nvme : ∀ command (prp next : NvmePrpCtx) region, prp.prp1 = addr →
    nvmeGetPrpRegion (some ⟨command, some machine⟩) machine.host prp = (some (region, size.toNat), next) →
    InRam machine.mem addr size

theorem rangeTest_of_getDmaPtr {m : Machine} {a size ptr : Addr}
    (h : rvvmGetDmaPtr (some m) a size = some ptr) : rangeTest m.mem a size := by
  simp only [rvvmGetDmaPtr, Option.bind_some] at h
  split at h
  · assumption
  · cases h

theorem getDmaPtr_of_pci {c : BitVec 32} {m : Machine} {a sz ptr : Addr}
    (h : pciGetDmaPtr (some ⟨c, some m⟩) a sz = some ptr) : rvvmGetDmaPtr (some m) a sz = some ptr := by
  simp only [pciGetDmaPtr, Option.bind_some] at h
  split at h
  · exact h
  · cases h

theorem getPrpRegion_granted {f : Option PciFunc} {h : Addr → BitVec 8} {prp nx : NvmePrpCtx}
    {region : Addr} {sz : Nat} (hg : nvmeGetPrpRegion f h prp = (some (region, sz), nx)) :
    pciGetDmaPtr f prp.prp1 (BitVec.ofNat 64 sz) = some region := by
  simp only [nvmeGetPrpRegion] at hg
  split at hg
  · simp at hg
  · simp only [Prod.mk.injEq, Option.map_eq_some_iff] at hg
    obtain ⟨⟨ptr, hf, rfl, rfl⟩, -⟩ := hg
    exact hf

/-- All DMA paths stay inside guest RAM exactly when the access does not wrap
  around the address space into it. -/
theorem dma_in_ram_iff (machine : Machine) (addr size : Addr) :
    DmaInRam machine addr size ↔ ¬WrapsIntoRam machine.mem addr size := by
  constructor
  · intro inRam wraps
    have granted : rvvmGetDmaPtr (some machine) addr size = some (hostPtr machine.mem addr) := by
      simp [rvvmGetDmaPtr, wraps.rangeTest.1]
    exact wraps.rangeTest.2 (inRam.pointer _ granted)
  · intro apart
    have sound := (rangeTest_sound_iff machine.mem addr size).mpr apart
    constructor
    · intro ptr granted
      exact sound (rangeTest_of_getDmaPtr granted)
    · intro func ptr granted
      exact sound (rangeTest_of_getDmaPtr (getDmaPtr_of_pci granted))
    · intro bytes copied _
      simp only [rvvmReadRam, Option.bind_some] at copied
      split at copied
      · exact sound ‹_›
      · cases copied
    · intro src after copied _
      simp only [rvvmWriteRam, Option.bind_some] at copied
      split at copied
      · exact sound ‹_›
      · cases copied
    · intro func prp next region start granted
      have lent := getPrpRegion_granted granted
      rw [start, ofNat_toNat] at lent
      exact sound (rangeTest_of_getDmaPtr (getDmaPtr_of_pci lent))

def smallMachine : Machine where
  mem := { addr := 0x80000000, size := 0x10000000, data := 0x7f0000000000 }
  host := fun _ => 0

def topPagePrp : NvmePrpCtx where
  prp1 := 0xfffffffffffff000
  prp2 := 0
  size := 4096
  cur := 0
  curLe := by decide

theorem nvme_region_outside_ram :
    (∃ next, nvmeGetPrpRegion (some ⟨pciCmdBusMaster, some smallMachine⟩) smallMachine.host topPagePrp =
      (some (0x7f0000000000 + 0xffffffff7ffff000, 4096), next)) ∧
      ¬InRam smallMachine.mem 0xfffffffffffff000 4096 ∧ ¬DmaInRam smallMachine 0xfffffffffffff000 4096 := by
  have outside : ¬InRam smallMachine.mem 0xfffffffffffff000 4096 := by decide
  refine ⟨⟨_, rfl⟩, outside, fun inRam => outside (inRam.pointer (0x7f0000000000 + 0xffffffff7ffff000) ?_)⟩
  decide

end RiscvEmulators.Rvvm
