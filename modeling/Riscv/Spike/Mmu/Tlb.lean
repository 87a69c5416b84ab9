import Riscv.Spike.Mmu.Verdict
import Riscv.Spike.Mmu.Follow
import Riscv.Transition.Simulation

namespace RiscvEmulators.Spike.Mmu
open Word

def tlbCheckTriggers : Reg := 0x8000000000000000
def tlbCheckTracer : Reg := 0x4000000000000000
def tlbMmio : Reg := 0x2000000000000000
def tlbFlags : Reg := tlbCheckTriggers ||| tlbCheckTracer ||| tlbMmio
def pageOffset (addr : Reg) : Reg := addr &&& pageMask

structure TlbAnswer where
  hit : Bool
  hostAddr : Reg
  paddr : Reg

def accessTlb (tlb : Nat → TlbEntry) (vaddr allowedFlags requiredFlags : Reg) : TlbAnswer :=
  let vpn := vaddr >>> 12
  let entry := tlb (vpn.toNat % 256)
  { hit := entry.tag &&& (~~~allowedFlags ||| requiredFlags) == vpn ||| requiredFlags
    hostAddr := if has entry.tag (allowedFlags &&& tlbMmio) then 0 else entry.hostAddr + pageOffset vaddr
    paddr := entry.targetAddr + pageOffset vaddr }

def TlbEntry.invalid : TlbEntry := ⟨BitVec.allOnes 64, BitVec.allOnes 64, BitVec.allOnes 64⟩

def simpleHash1 (x : Reg) : Reg :=
  let x := (x ^^^ (x >>> 33)) * 0xff51afd7ed558ccd
  let x := (x ^^^ (x >>> 33)) * 0xc4ceb9fe1a85ec53
  x ^^^ (x >>> 33)

def simpleHash2 (x : Reg) : Reg :=
  let x := (x ^^^ (x >>> 30)) * 0xbf58476d1ce4e5b9
  let x := (x ^^^ (x >>> 27)) * 0x94d049b13c66a8ed
  x ^^^ (x >>> 31)

namespace ReverseTags

def slot (value : Reg) (i : Nat) : Nat :=
  (simpleHash1 value + BitVec.ofNat 64 i * simpleHash2 value).toNat % 4096

def insert (tags : ReverseTags) (value : Reg) : ReverseTags :=
  fun index => tags index || (List.range 3).any (slot value · == index)

def contains (tags : ReverseTags) (value : Reg) : Bool := (List.range 3).all fun i => tags (slot value i)

end ReverseTags

def flushTlbPpn (ppn : Reg) (tlb : Nat → TlbEntry) (filter : ReverseTags) : (Nat → TlbEntry) × ReverseTags :=
  let entryPpn := fun slot => (tlb slot).targetAddr >>> 12
  if !filter.contains ppn then (tlb, filter)
  else
    (fun slot => if entryPpn slot = ppn then { tlb slot with tag := BitVec.allOnes 64 } else tlb slot,
      (List.range 256).foldl
        (fun tags slot =>
          if entryPpn slot = ppn ∨ (tlb slot).tag = BitVec.allOnes 64 then tags else tags.insert (entryPpn slot))
        fun _ => false)

variable {hw : Hardware}

namespace Machine
variable (m : Machine hw)

def tlb (type : AccessType) : Nat → TlbEntry :=
  match type with
  | .load => m.tlbLoad
  | .store => m.tlbStore
  | .fetch => m.tlbInsn

def checkTriggersFor (type : AccessType) : Bool :=
  match type with
  | .load => m.checkTriggersLoad
  | .store => m.checkTriggersStore
  | .fetch => m.checkTriggersFetch

def putTlb (type : AccessType) (idx : Nat) (entry : TlbEntry) : Machine hw :=
  let put := fun slot => if slot = idx then entry else m.tlb type slot
  match type with
  | .load => { m with tlbLoad := put }
  | .store => { m with tlbStore := put }
  | .fetch => { m with tlbInsn := put }

def flushTlb : Machine hw :=
  { m with
    tlbLoad := fun _ => .invalid
    tlbStore := fun _ => .invalid
    tlbInsn := fun _ => .invalid
    pages :=
      { m.pages with
        pteCache := fun _ => ⟨BitVec.allOnes 64, BitVec.allOnes 64⟩
        changed := false } }

def flushStlbPpn (ppn : Reg) : Machine hw :=
  let flushed := flushTlbPpn ppn m.tlbStore m.storeTags
  { m with tlbStore := flushed.1, storeTags := flushed.2 }

def flushItlbPpn (ppn : Reg) : Machine hw :=
  let flushed := flushTlbPpn ppn m.tlbInsn m.insnTags
  { m with tlbInsn := flushed.1, insnTags := flushed.2 }

def excludeStores (paddr : Reg) : Machine hw :=
  if hw.extZiccid then { m.flushStlbPpn (paddr >>> 12) with insnTags := m.insnTags.insert (paddr >>> 12) } else m

def excludeFetches (paddr : Reg) : Machine hw :=
  if hw.extZiccid then { m.flushItlbPpn (paddr >>> 12) with storeTags := m.storeTags.insert (paddr >>> 12) } else m

def refillTlb (vaddr paddr hostAddr : Reg) (type : AccessType) : Machine hw :=
  let idx := (vaddr >>> 12).toNat % 256
  let expectedTag := vaddr >>> 12
  let basePaddr := pageBase paddr
  if m.inMprv || !pmpHomogeneous hw m.pmpRegs basePaddr 0x1000 || hw.logCommits then m
  else
    let flags := (if m.checkTriggersFor type then tlbCheckTriggers else 0) |||
      (if hw.interestedInPage basePaddr type then tlbCheckTracer else 0) ||| (if hostAddr = 0 then tlbMmio else 0)
    m.putTlb type idx ⟨hostAddr - pageOffset vaddr, paddr - pageOffset vaddr, expectedTag ||| flags⟩

end Machine

abbrev Access (hw : Hardware) := EStateM Failure (Machine hw)
def XlateFlags.reserved : XlateFlags := ⟨false, false, true, false, false⟩

inductive TriggerMatch where
  | unmatched | before | after

/-- `check_triggers`. An action after the access flushes the TLB, so that the next fetch finds the match. -/
def checkTriggers (enabled : Bool) (answer : TriggerMatch) : Access hw Unit := fun m =>
  if !enabled || m.matchedTrigger then .ok () m
  else match answer with
    | .unmatched => .ok () m
    | .before => .error .trigger m
    | .after => .ok () { m.flushTlb with matchedTrigger := true }

def translateIn (info : AccessInfo) (len : Nat) : Access hw Reg := fun m =>
  match translate hw m.regs info len m.pages with
  | .ok paddr pages => .ok paddr { m with pages := pages }
  | .error failure pages => .error failure { m with pages := pages }

def modifyMachine (f : Machine hw → Machine hw) : Access hw Unit := fun m => .ok () (f m)

def misaligned (virt : Bool) (addr : Reg) (type : AccessType) : Failure :=
  .trap ⟨match type with | .fetch => 0x0 | .load => 0x4 | .store => 0x6, virt, addr, 0, 0⟩

/-- `mmio`: an access that is not naturally aligned goes byte by byte. -/
def mmio (hw : Hardware) (debugMode : Bool) (paddr : Reg) (len : Nat) (type : AccessType) : Bool :=
  let one := fun (paddr : Reg) (len : Nat) =>
    mmioOk debugMode paddr && (if type = .store then hw.mmioStore paddr len else hw.mmioLoad paddr len)
  if len &&& (len - 1) = 0 ∧ paddr &&& BitVec.ofNat 64 (len - 1) = 0 then one paddr len
  else (List.range len).all fun i => one (paddr + BitVec.ofNat 64 i) 1

structure Location where
  hostAddr : Reg
  paddr : Reg

def TlbAnswer.location (answer : TlbAnswer) : Location := ⟨answer.hostAddr, answer.paddr⟩

def performIntrapageLoad (vaddr : Reg) (place : Location) (len : Nat) (flags : XlateFlags) : Access hw Unit := do
  let m ← get
  if place.hostAddr ≠ 0 ∨ mmio hw m.core.debugMode place.paddr len .load then pure ()
  else
    let info := generateAccessInfo hw.isa m.regs vaddr .load flags
    throw (accessFault info.effectiveVirt info.transformedVaddr (if info.flags.ssAccess then .store else .load))

def locateLoad (len : Nat) (info : AccessInfo) : Access hw Location := do
  let m ← get
  let answer := accessTlb m.tlbLoad info.vaddr tlbFlags 0
  let special := info.flags.isSpecialAccess && !info.flags.lr
  if !answer.hit || special then do
    let paddr ← translateIn info len
    if special then pure ⟨hw.addrToMem paddr, paddr⟩
    else do
      modifyMachine (·.refillTlb info.vaddr paddr (hw.addrToMem paddr) .load)
      pure ⟨hw.addrToMem paddr, paddr⟩
  else pure answer.location

def loadSlowPathIntrapage (len : Nat) (info : AccessInfo) : Access hw Unit := do
  let place ← locateLoad len info
  if info.flags.lr ∧ hw.addrToMem place.paddr = 0 then
    throw (accessFault info.effectiveVirt info.transformedVaddr .load)
  else performIntrapageLoad info.vaddr place len info.flags

def lenPage0 (addr : Reg) (len : Nat) : Nat := min len (pageSize - addr.toNat % pageSize)

def loadParts (len : Nat) (info : AccessInfo) : Access hw Unit :=
  if info.transformedVaddr &&& BitVec.ofNat 64 (len - 1) = 0 then loadSlowPathIntrapage len info
  else if !hw.extZicclsm then throw (misaligned info.effectiveVirt info.transformedVaddr .load)
  else if info.flags.lr then throw (accessFault info.effectiveVirt info.transformedVaddr .load)
  else do
    let head := lenPage0 info.transformedVaddr len
    loadSlowPathIntrapage head info
    if head ≠ len then do
      let m ← get
      loadSlowPathIntrapage (len - head)
        (generateAccessInfo hw.isa m.regs (info.vaddr + BitVec.ofNat 64 head) .load info.flags)
    else pure ()

def loadSlowPath (addr : Reg) (len : Nat) (flags : XlateFlags) (first second : TriggerMatch) : Access hw Unit := do
  let m ← get
  let answer := accessTlb m.tlbLoad addr (tlbFlags &&& ~~~tlbCheckTriggers) 0
  let intrapage := decide (addr.toNat % pageSize + len ≤ pageSize)
  let aligned := addr &&& BitVec.ofNat 64 (len - 1) == 0
  if !flags.isSpecialAccess && answer.hit && (aligned || (intrapage && hw.extZicclsm)) then
    performIntrapageLoad addr answer.location len flags
  else do
    checkTriggers m.checkTriggersLoad first
    loadParts len (generateAccessInfo hw.isa m.regs addr .load flags)
    checkTriggers m.checkTriggersLoad second

def load (addr : Reg) (len : Nat) (flags : XlateFlags) (first second : TriggerMatch) : Access hw Unit := do
  let m ← get
  let aligned := addr &&& BitVec.ofNat 64 (len - 1) == 0
  if !flags.isSpecialAccess && aligned && (accessTlb m.tlbLoad addr 0 0).hit then pure ()
  else loadSlowPath addr len flags first second

def performIntrapageStore (vaddr : Reg) (place : Location) (len : Nat) (flags : XlateFlags) : Access hw Unit := do
  let m ← get
  if place.hostAddr ≠ 0 ∨ mmio hw m.core.debugMode place.paddr len .store then pure ()
  else
    let info := generateAccessInfo hw.isa m.regs vaddr .store flags
    throw (accessFault info.effectiveVirt info.transformedVaddr .store)

def locateStore (len : Nat) (info : AccessInfo) : Access hw Location := do
  let m ← get
  let answer := accessTlb m.tlbStore info.vaddr tlbFlags 0
  if !answer.hit || info.flags.isSpecialAccess then do
    let paddr ← translateIn info len
    modifyMachine (·.excludeFetches paddr)
    if info.flags.isSpecialAccess then pure ⟨hw.addrToMem paddr, paddr⟩
    else do
      modifyMachine (·.refillTlb info.vaddr paddr (hw.addrToMem paddr) .store)
      pure ⟨hw.addrToMem paddr, paddr⟩
  else pure answer.location

def storeSlowPathIntrapage (len : Nat) (info : AccessInfo) (actuallyStore : Bool) : Access hw Unit := do
  let place ← locateStore len info
  if actuallyStore then performIntrapageStore info.vaddr place len info.flags else pure ()

def storeParts (len : Nat) (info : AccessInfo) (actuallyStore requireAlignment : Bool) : Access hw Unit :=
  if info.transformedVaddr &&& BitVec.ofNat 64 (len - 1) = 0 then storeSlowPathIntrapage len info actuallyStore
  else if !hw.extZicclsm then throw (misaligned info.effectiveVirt info.transformedVaddr .store)
  else if requireAlignment then throw (accessFault info.effectiveVirt info.transformedVaddr .store)
  else do
    let head := lenPage0 info.transformedVaddr len
    storeSlowPathIntrapage head info actuallyStore
    if head ≠ len then do
      let m ← get
      storeSlowPathIntrapage (len - head)
        (generateAccessInfo hw.isa m.regs (info.vaddr + BitVec.ofNat 64 head) .store info.flags) actuallyStore
    else pure ()

def storeSlowPath (addr : Reg) (len : Nat) (flags : XlateFlags) (actuallyStore requireAlignment : Bool)
    (answer : TriggerMatch) : Access hw Unit := do
  let m ← get
  let cached := accessTlb m.tlbStore addr (tlbFlags &&& ~~~tlbCheckTriggers) 0
  let intrapage := decide (addr.toNat % pageSize + len ≤ pageSize)
  let aligned := addr &&& BitVec.ofNat 64 (len - 1) == 0
  if !flags.isSpecialAccess && cached.hit && (aligned || (intrapage && hw.extZicclsm)) then
    if actuallyStore then performIntrapageStore addr cached.location len flags else pure ()
  else do
    checkTriggers (actuallyStore && m.checkTriggersStore) answer
    storeParts len (generateAccessInfo hw.isa m.regs addr .store flags) actuallyStore requireAlignment

def store (addr : Reg) (len : Nat) (flags : XlateFlags) (answer : TriggerMatch) : Access hw Unit := do
  let m ← get
  let aligned := addr &&& BitVec.ofNat 64 (len - 1) == 0
  if !flags.isSpecialAccess && aligned && (accessTlb m.tlbStore addr 0 0).hit then pure ()
  else storeSlowPath addr len flags true false answer

def performIntrapageFetch (vaddr : Reg) (place : Location) : Access hw Unit := do
  let m ← get
  if place.hostAddr ≠ 0 ∨ (mmioOk m.core.debugMode place.paddr && hw.mmioFetch place.paddr 2) then pure ()
  else throw (accessFault m.core.mode.virt vaddr .fetch)

def locateFetch (info : AccessInfo) (answer : TlbAnswer) : Access hw Location :=
  if answer.hit then pure answer.location
  else do
    let paddr ← translateIn info 2
    modifyMachine (·.excludeStores paddr)
    modifyMachine (·.refillTlb info.vaddr paddr (hw.addrToMem paddr) .fetch)
    pure ⟨hw.addrToMem paddr, paddr⟩

def fetchSlowPath (vaddr : Reg) (first second : TriggerMatch) : Access hw Unit := do
  let m ← get
  let answer := accessTlb m.tlbInsn vaddr (tlbFlags &&& ~~~tlbCheckTriggers) 0
  if m.matchedTrigger then do
    modifyMachine ({ · with matchedTrigger := false })
    throw .trigger
  else if answer.hit then performIntrapageFetch vaddr answer.location
  else do
    checkTriggers m.checkTriggersFetch first
    let place ← locateFetch (generateAccessInfo hw.isa m.regs vaddr .fetch .none) (accessTlb m.tlbInsn vaddr tlbFlags 0)
    performIntrapageFetch vaddr place
    checkTriggers m.checkTriggersFetch second

def fetchInsnParcel (vaddr : Reg) (first second : TriggerMatch) : Access hw Unit := do
  let m ← get
  if (accessTlb m.tlbInsn vaddr 0 0).hit then pure ()
  else fetchSlowPath vaddr first second

open Transition

/-- The cache agrees with the tables, which hold 32-bit words on RV32. -/
structure Faithful (hw : Hardware) (regs : Regs) (store : PageStore) : Prop where
  cache : CacheHeld hw regs.pmp regs.debugMode store
  words : ∀ paddr word, tablePte hw regs.pmp regs.debugMode store.tables paddr = some word → Fits hw.isa.maxXlen word

theorem div_mod_congr {x y s t w : Nat} (ha : x % 2 ^ w = y % 2 ^ w) (hf : s + t ≤ w) :
    x / 2 ^ s % 2 ^ t = y / 2 ^ s % 2 ^ t := by
  have hd : 2 ^ (s + t) ∣ 2 ^ w := Nat.pow_dvd_pow 2 hf
  rw [← Nat.mod_mul_right_div_self, ← Nat.mod_mul_right_div_self, ← Nat.pow_add, ← Nat.mod_mod_of_dvd x hd,
    ← Nat.mod_mod_of_dvd y hd, ha]

theorem pteIndex_toNat (a : Reg) (p : Nat) {idxbits : Nat} (h : idxbits < 64) :
    (pteIndex a p idxbits).toNat = a.toNat / 2 ^ (12 + p) % 2 ^ idxbits := by
  rw [pteIndex, toNat_and_low_mask _ h, BitVec.toNat_ushiftRight, Nat.shiftRight_eq_div_pow]

theorem pageOffset_toNat' (a : Reg) : (a &&& pageMask).toNat = a.toNat % 2 ^ 12 := by
  rw [show pageMask = ((1 : Reg) <<< 12) - 1 by decide, toNat_and_low_mask a (by decide)]

theorem page_or_offset_toNat (p a : Reg) (n : Nat) (small : n < 2 ^ 52) (is : p = BitVec.ofNat 64 n <<< 12) :
    (p ||| (a &&& pageMask)).toNat = n * 2 ^ 12 + a.toNat % 2 ^ 12 := by
  have hs : p.toNat = n <<< 12 := by
    rw [is, BitVec.toNat_shiftLeft, BitVec.toNat_ofNat, Nat.shiftLeft_eq]
    omega
  rw [BitVec.toNat_or, hs, pageOffset_toNat', ← Nat.shiftLeft_add_eq_or_of_lt (Nat.mod_lt _ (by decide)),
    Nat.shiftLeft_eq]

section
variable {request : Paging.Request} {pte : Paging.Pte} {vpnBits level : Nat}

structure LeafForm (pte : Paging.Pte) (vpnBits level : Nat) : Prop where
  valid : pte.v
  napot : pte.n → level = 0 ∧ pte.ppn % 16 = 8
  aligned : pte.ppn % 2 ^ (level * vpnBits) = 0

theorem leafForm (hl : request.verdict pte vpnBits level = .leaf) : LeafForm pte vpnBits level := by
  unfold Paging.Request.verdict at hl
  split at hl
  · cases hl
  · rename_i hf
    split at hl
    · cases hl
    · split at hl
      · cases hl
      · rename_i ha
        simp only [Paging.Encodings.reserved, Bool.or_eq_true, not_or, Bool.not_eq_true, Bool.not_eq_false'] at hf
        obtain ⟨hv, -, hp⟩ := hf
        refine ⟨hv, fun hs => ?_, Decidable.not_not.mp ha⟩
        simpa [hs, Paging.Pte.napot] using hp

variable {xl : Xlen} {word : Reg}

theorem ppn_small (f : Paging.Format) (word : Reg) : (f.pte word).ppn < 2 ^ 44 := by
  cases f with
  | narrow => exact Nat.lt_trans (Nat.mod_lt _ (by decide)) (by decide : 2 ^ 22 < 2 ^ 44)
  | wide => exact Nat.mod_lt _ (by decide)

theorem splice_lt {x : Nat} (y : Nat) {low width : Nat} (hs : x < 2 ^ width) (hf : low ≤ width) :
    x / 2 ^ low * 2 ^ low + y % 2 ^ low < 2 ^ width := by
  have whole : 2 ^ width = 2 ^ (width - low) * 2 ^ low := by rw [← Nat.pow_add, Nat.sub_add_cancel hf]
  have hh : x / 2 ^ low + 1 ≤ 2 ^ (width - low) := Nat.div_lt_of_lt_mul (by rw [Nat.mul_comm, ← whole]; exact hs)
  have hr : y % 2 ^ low < 2 ^ low := Nat.mod_lt _ (Nat.two_pow_pos low)
  calc x / 2 ^ low * 2 ^ low + y % 2 ^ low
      < (x / 2 ^ low + 1) * 2 ^ low := by rw [Nat.add_mul, Nat.one_mul]; exact Nat.add_lt_add_left hr _
    _ ≤ 2 ^ width := by rw [whole]; exact Nat.mul_le_mul_right _ hh

theorem spliced_page_toNat {ppn a : Reg} (hs : ppn.toNat < 2 ^ 44) {low : Nat} (hf : low ≤ 44) :
    ((((ppn &&& ~~~(((1 : Reg) <<< low) - 1)) ||| ((a >>> 12) &&& (((1 : Reg) <<< low) - 1))) <<< 12) |||
      (a &&& pageMask)).toNat =
      (ppn.toNat / 2 ^ low * 2 ^ low + a.toNat / 2 ^ 12 % 2 ^ low) * 2 ^ 12 + a.toNat % 2 ^ 12 := by
  have hn := toNat_splice ppn (a >>> 12) (show low < 64 by omega)
  rw [BitVec.toNat_ushiftRight, Nat.shiftRight_eq_div_pow] at hn
  have hb := splice_lt (a.toNat / 2 ^ 12) hs hf
  apply page_or_offset_toNat _ a _ (Nat.lt_trans hb (by decide))
  rw [← hn, BitVec.ofNat_toNat, BitVec.setWidth_eq]

theorem leafPage_toNat (fits : Fits xl word) (s : Paging.Scheme) (a : Reg) (level : Nat) (hs : level * s.vpnBits ≤ 44)
    (hf : LeafForm ((pteFormat xl).pte word) s.vpnBits level) :
    (leafPage word a (level * s.vpnBits) ||| (a &&& pageMask)).toNat =
      s.physical ((pteFormat xl).pte word) a.toNat level := by
  obtain ⟨-, hn, ha⟩ := hf
  have ppn := ptePpn_toNat fits
  have hp : (ptePpn word).toNat < 2 ^ 44 := by
    rw [ppn]
    exact ppn_small _ _
  unfold Paging.Scheme.physical leafPage napotBits
  rw [has_pteN fits]
  cases set : ((pteFormat xl).pte word).n with
  | true =>
    obtain ⟨rfl, hf⟩ := hn set
    rw [← ppn] at hf ⊢
    have hc := ((ctz_eq_three_iff (ptePpn word)).mpr hf).2
    simp only [↓reduceIte]
    rw [← spliced_page_toNat hp (by decide), hc]
    simp
  | false =>
    have hk : ptePpn word &&& ~~~(((1 : Reg) <<< (level * s.vpnBits)) - 1) = ptePpn word := by
      apply BitVec.eq_of_toNat_eq
      rw [toNat_and_not_low_mask _ (by omega), ppn]
      exact Nat.div_mul_cancel (Nat.dvd_of_mod_eq_zero ha)
    have he : ((1 : Reg) <<< 0) - 1 = 0#64 := by decide
    simp only [↓reduceIte, Bool.false_eq_true]
    rw [← ppn, ← spliced_page_toNat hp hs, hk, he, BitVec.not_zero, BitVec.and_allOnes, BitVec.and_zero, BitVec.or_zero]

end

section
variable (hw : Hardware) (rg : Regs) (inf : AccessInfo)
variable (ty : AccessType) {pmp : PmpRegs} {d : Bool} {paddr word : Reg}

theorem accessFault_eq :
    accessFault (inf.view rg).virt inf.transformedVaddr ty = faultTrap hw inf (.access ty.access) := by
  cases ty <;> rfl

theorem pageFault_eq : pageFault (inf.view rg).virt inf.transformedVaddr ty = faultTrap hw inf (.page ty.access) := by
  cases ty <;> rfl

theorem tablePte_readable {ts : Tables} (h : tablePte hw pmp d ts paddr = some word) :
    pmpOk hw pmp paddr (pteSize hw.isa.maxXlen) .load .s false := by
  unfold tablePte at h
  split at h
  · assumption
  · cases h

theorem tableMemory_read (pmp : PmpRegs) (d : Bool) (paddr : Reg) (ts : Tables) :
    (tableMemory hw pmp d).read paddr.toNat ts = tablePte hw pmp d ts paddr := by
  show tablePte hw pmp d ts (BitVec.ofNat 64 paddr.toNat) = _
  rw [BitVec.ofNat_toNat, BitVec.setWidth_eq]

theorem pteLoad_simulates (he : paddr.getLsbD 0 = false) (ty : AccessType) :
    Simulates (Faithful hw rg) PageStore.tables (faultTrap hw inf)
      (fun word v => word = v ∧ Fits hw.isa.maxXlen word ∧ pmpOk hw rg.pmp paddr (pteSize hw.isa.maxXlen) .load .s false)
      (pteLoad hw (inf.view rg) paddr inf.transformedVaddr ty)
      ((tableMemory hw rg.pmp rg.debugMode).load ty.access paddr.toNat) := by
  intro st hf
  obtain ⟨hc, words⟩ := hf
  unfold Paging.Memory.load pteLoad
  rw [tableMemory_read]
  dsimp only
  split
  · rename_i hh
    have hr := hc paddr he hh
    rw [hr]
    exact ⟨⟨rfl, words _ _ hr, tablePte_readable hw hr⟩, ⟨hc, words⟩, rfl⟩
  · split
    · rename_i denied
      have hn : tablePte hw rg.pmp rg.debugMode st.tables paddr = none :=
        if_neg (by simpa [AccessInfo.view] using denied)
      rw [hn]
      exact ⟨accessFault_eq hw rg inf ty, ⟨hc, words⟩, rfl⟩
    · rename_i ha
      have hd : tablePte hw rg.pmp rg.debugMode st.tables paddr =
          readPte hw (inf.view rg).debugMode st.ram st.device paddr :=
        if_pos (by simpa [AccessInfo.view] using ha)
      rw [hd]
      cases hr : readPte hw (inf.view rg).debugMode st.ram st.device paddr with
      | none => exact ⟨accessFault_eq hw rg inf ty, ⟨hc, words⟩, rfl⟩
      | some word =>
        rw [hr] at hd
        refine ⟨⟨rfl, words _ _ hd, tablePte_readable hw hd⟩, ⟨?_, ?_⟩, pteCacheInsert_tables _ _ _⟩
        · exact pteCacheInsert_held hw hc hd
        · rw [pteCacheInsert_tables]
          exact words

theorem tablePte_stored {ts a : Tables} (hr : pmpOk hw pmp paddr (pteSize hw.isa.maxXlen) .load .s false)
    (hs : (tableMemory hw pmp d).write paddr.toNat word ts = some a) (other : Reg) :
    tablePte hw pmp d a other = if other = paddr then some word else tablePte hw pmp d ts other := by
  have hp : BitVec.ofNat 64 paddr.toNat = paddr := by rw [BitVec.ofNat_toNat, BitVec.setWidth_eq]
  simp only [tableMemory, hp] at hs
  by_cases sa : other = paddr
  · subst sa
    rw [tablePte, if_pos hr, readPte]
    split at hs
    · cases hs
    · split at hs
      · rename_i ram
        cases hs
        rw [if_pos ram]
        simp
      · rename_i ram
        split at hs
        · rename_i hd
          cases hs
          rw [if_neg ram, if_pos (Bool.and_eq_true_iff.mp hd).1]
          simp
        · cases hs
  · split at hs
    · cases hs
    · split at hs
      · cases hs
        simp [tablePte, readPte, sa]
      · split at hs
        · cases hs
          simp [tablePte, readPte, sa]
        · cases hs

theorem pteCacheInsert_stored {s w : PageStore} (held : CacheHeld hw pmp d s)
    (hc : w.pteCache = s.pteCache) (hv : has word pteV)
    (stored : ∀ o, tablePte hw pmp d w.tables o = if o = paddr then some word else tablePte hw pmp d s.tables o) :
    CacheHeld hw pmp d (pteCacheInsert w paddr word) := by
  intro o he hh
  rw [pteCacheInsert_tables, stored]
  unfold pteCacheInsert at hh ⊢
  rw [if_pos hv] at hh ⊢
  dsimp only at hh ⊢
  by_cases hs : o.toNat % 251 = paddr.toNat % 251
  · rw [if_pos hs] at hh ⊢
    rw [if_pos hh.symm]
  · rw [if_neg hs, hc] at hh ⊢
    rw [if_neg (fun sa => hs (by rw [sa]))]
    exact held o he hh

theorem pteStore_eq {v : View} {paddr a : Reg} {ty : AccessType} (hf : Fits hw.isa.maxXlen word) :
    pteStore hw v paddr word a ty = fun store =>
      if !pmpOk hw v.pmp paddr (pteSize hw.isa.maxXlen) .store .s false then
        .error (accessFault v.virt a ty) store
      else if hw.addrToMem paddr ≠ 0 then
        let ram := fun o => if o = paddr then word else store.ram o
        .ok () (pteCacheInsert { store with ram := ram, changed := true } paddr word)
      else if mmioOk v.debugMode paddr && hw.mmioStore paddr (pteSize hw.isa.maxXlen) then
        let device := fun o => if o = paddr then some word else store.device o
        .ok () (pteCacheInsert { store with device := device, changed := true } paddr word)
      else .error (accessFault v.virt a ty) store := by
  unfold pteStore
  cases wide : hw.isa.maxXlen with
  | rv64 => rfl
  | rv32 =>
    have hl : word &&& 0xffffffff = word := by
      apply BitVec.eq_of_toNat_eq
      show (word &&& (((1 : Reg) <<< 32) - 1)).toNat = word.toNat
      rw [toNat_and_low_mask word (by decide), Nat.mod_eq_of_lt (hf wide)]
    rw [hl]

theorem pteStore_simulates (fits : Fits hw.isa.maxXlen word) (hv : has word pteV)
    (hr : pmpOk hw rg.pmp paddr (pteSize hw.isa.maxXlen) .load .s false) :
    Simulates (Faithful hw rg) PageStore.tables (faultTrap hw inf) (fun _ _ => True)
      (pteStore hw (inf.view rg) paddr word inf.transformedVaddr ty)
      ((tableMemory hw rg.pmp rg.debugMode).store ty.access paddr.toNat word) := by
  intro st hf
  obtain ⟨hc, words⟩ := hf
  have hp : BitVec.ofNat 64 paddr.toNat = paddr := by rw [BitVec.ofNat_toNat, BitVec.setWidth_eq]
  have hk (w : PageStore) (sa : w.pteCache = st.pteCache)
      (hs : (tableMemory hw rg.pmp rg.debugMode).write paddr.toNat word st.tables = some w.tables) :
      Faithful hw rg (pteCacheInsert w paddr word) := by
    have he := tablePte_stored hw hr hs
    refine ⟨pteCacheInsert_stored hw hc sa hv he, fun o f reads => ?_⟩
    rw [pteCacheInsert_tables, he] at reads
    split at reads
    · cases reads
      exact fits
    · exact words o f reads
  let c := pteSize hw.isa.maxXlen
  have wrote : (tableMemory hw rg.pmp rg.debugMode).write paddr.toNat word st.tables =
      if !pmpOk hw rg.pmp paddr c .store .s false then none
      else if hw.addrToMem paddr ≠ 0 then
        some ⟨fun o => if o = paddr then word else st.ram o, st.device⟩
      else if mmioOk rg.debugMode paddr && hw.mmioStore paddr c then
        some ⟨st.ram, fun o => if o = paddr then some word else st.device o⟩
      else none := by
    simp only [tableMemory, hp]
    rfl
  rw [pteStore_eq hw fits]
  unfold Paging.Memory.store
  dsimp only
  by_cases hd : (!pmpOk hw rg.pmp paddr c .store .s false)
  · rw [if_pos hd] at wrote
    rw [wrote, if_pos (by exact hd)]
    exact ⟨accessFault_eq hw rg inf ty, ⟨hc, words⟩, rfl⟩
  · rw [if_neg hd] at wrote
    rw [if_neg (by exact hd)]
    by_cases ram : hw.addrToMem paddr ≠ 0
    · rw [if_pos ram] at wrote
      rw [wrote, if_pos ram]
      exact ⟨trivial, hk _ rfl wrote, pteCacheInsert_tables _ _ _⟩
    · rw [if_neg ram] at wrote
      rw [if_neg ram]
      by_cases device : (mmioOk rg.debugMode paddr && hw.mmioStore paddr c)
      · rw [if_pos device] at wrote
        rw [wrote, if_pos (by exact device)]
        exact ⟨trivial, hk _ rfl wrote, pteCacheInsert_tables _ _ _⟩
      · rw [if_neg device] at wrote
        rw [wrote, if_neg (by exact device)]
        exact ⟨accessFault_eq hw rg inf ty, ⟨hc, words⟩, rfl⟩

end

section
variable {rq : Paging.Request} {type : AccessType} (s : rq.access = type.access)
include s

theorem marks_eq : rq.marks = adBits type := by
  rw [Paging.Request.marks, s]
  cases type <;> rfl

theorem marked_iff (x : Xlen) (word : Reg) :
    word &&& adBits type = adBits type ↔ rq.marked ((pteFormat x).pte word) := by
  have ho : word &&& pteA = pteA ↔ word.getLsbD 6 := by
    have hb := and_sliceMask_eq_iff word pteA 6 1 (by decide)
    rw [show sliceMask 64 6 1 = pteA by decide, show pteA &&& pteA = pteA by decide,
      show pteA.extractLsb' 6 1 = 1 by decide] at hb
    have hv : ∀ low : BitVec 1, low = 1 ↔ low.getLsbD 0 := by decide
    rw [hb, hv]
    simp
  let c := pteA ||| pteD
  have both : word &&& c = pteA ||| pteD ↔ word.getLsbD 6 ∧ word.getLsbD 7 := by
    have hb := and_sliceMask_eq_iff word c 6 2 (by decide)
    rw [show sliceMask 64 6 2 = pteA ||| pteD by decide, show c &&& c = pteA ||| pteD by decide,
      show c.extractLsb' 6 2 = 3 by decide] at hb
    have hv : ∀ low : BitVec 2, low = 3 ↔ low.getLsbD 0 ∧ low.getLsbD 1 := by decide
    rw [hb, hv]
    simp
  rw [Paging.Request.marked, s]
  cases type with
  | store => simpa [adBits, AccessType.access, Paging.Format.pte] using both
  | load => simpa [adBits, AccessType.access, Paging.Format.pte] using ho
  | fetch => simpa [adBits, AccessType.access, Paging.Format.pte] using ho

omit s in
theorem fits_marked {xlen : Xlen} {word : Reg} (fits : Fits xlen word) (type : AccessType) :
    Fits xlen (word ||| adBits type) := by
  intro narrow
  have small := fits narrow
  exact Nat.or_lt_two_pow small (by cases type <;> decide)

omit s in
theorem valid_marked {word : Reg} (valid : has word pteV) (type : AccessType) : has (word ||| adBits type) pteV := by
  rw [(has_flags .rv64 _).1] at valid ⊢
  show (word ||| adBits type).getLsbD 0
  rw [BitVec.getLsbD_or]
  exact Bool.or_eq_true_iff.mpr (.inl valid)

end

end RiscvEmulators.Spike.Mmu
