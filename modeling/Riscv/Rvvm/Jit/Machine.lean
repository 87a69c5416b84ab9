import Riscv.Rvvm.Mmu.Served
import Riscv.Word.Scan

namespace RiscvEmulators.Rvvm.Jit
open Word BitVec

/-- `bit_next_pow2`. A host whose compiler has a bit scan builtin takes the highest set bit instead of the bit twiddling,
  which rounds down. -/
def bitNextPow2 (builtin : Bool) (val : W64) : W64 :=
  if val &&& (val - 1) = 0 then val
  else if builtin then (1 : W64) <<< val.toNat.log2
  else smear (val - 1) + 1

theorem and_pred_eq_zero_iff {val : W64} (h : val ≠ 0) :
    (val - 1).toNat = val.toNat - 1 ∧ (val &&& (val - 1) = 0 ↔ ∃ k, val.toNat = 2 ^ k) := by
  have p : val.toNat ≠ 0 := fun e => h (eq_of_toNat_eq e)
  have pr : (val - 1).toNat = val.toNat - 1 := toNat_sub_of_le (by rw [le_def]; simp; omega)
  refine ⟨pr, ?_⟩
  rw [← toNat_inj, toNat_and, pr]
  exact Nat.and_sub_one_eq_zero_iff_isPowerOfTwo p

theorem bitNextPow2_mask {b : Bool} {val : W64} (n : b = false ∨ val &&& (val - 1) = 0) :
    ∃ k, (bitNextPow2 b val - 1).toNat = 2 ^ k - 1 ∧ val.toNat ≤ 2 ^ k ∧ (val ≠ 0 → ∀ j, val.toNat ≤ 2 ^ j → k ≤ j) := by
  unfold bitNextPow2
  by_cases z : val = 0
  · subst z
    exact ⟨64, by cases b <;> decide, by decide, fun h => absurd rfl h⟩
  obtain ⟨pr, pow⟩ := and_pred_eq_zero_iff z
  by_cases po : val &&& (val - 1) = 0
  · obtain ⟨k, exact⟩ := pow.mp po
    rw [if_pos po]
    refine ⟨k, by rw [pr, exact], Nat.le_of_eq exact, fun _ j hj => ?_⟩
    rw [exact] at hj
    exact (Nat.pow_le_pow_iff_right (by decide)).mp hj
  · obtain ⟨k, mk, bound, least⟩ := smear_mask (val - 1)
    have p : val.toNat ≠ 0 := fun e => z (eq_of_toNat_eq e)
    rw [if_neg po, n.resolve_right po, if_neg Bool.false_ne_true, BitVec.add_sub_cancel]
    exact ⟨k, mk, by omega, fun _ j hj => least j (by omega)⟩

abbrev Bitmap := Addr → BitVec 5 → Bool

def Bitmap.set (map : Bitmap) (word : Addr) (bit : BitVec 5) (value : Bool) : Bitmap :=
  fun word' bit' => if word' = word ∧ bit' = bit then value else map word' bit'

/-- A compiled block. `bytes` are the guest-physical addresses it was translated from, `overwritten` whether one of them
  was written since and `outdated` whether a `fence.i` was executed after such a write: the program has none of them. -/
structure Block where
  size : Nat
  bytes : List Addr
  overwritten : Bool
  outdated : Bool
deriving DecidableEq, Repr

structure Heap where
  curr : Nat
  size : Nat
  blocks : Addr → Option Block
  tracked : Bool
  jitedPages : Bitmap
  dirtyPages : Bitmap
  dirtyMask : Addr

namespace Heap
variable (heap : Heap)

def word (addr : Addr) : Addr := (addr >>> 17) &&& heap.dirtyMask
def bit (addr : Addr) : BitVec 5 := (addr >>> 12).setWidth 5
def jited (addr : Addr) : Bool := heap.jitedPages (heap.word addr) (bit addr)
def dirty (addr : Addr) : Bool := heap.dirtyPages (heap.word addr) (bit addr)
def init (size : Nat) : Heap := ⟨0, size, fun _ => none, false, fun _ _ => false, fun _ _ => false, 0⟩
def pageUnits (size : Addr) : Addr := (size + 0x1FFFF) >>> 17

def initMemtracking (builtin : Bool) (size : Addr) : Heap :=
  { heap with
    tracked := true
    dirtyMask := bitNextPow2 builtin (pageUnits size) - 1
    dirtyPages := fun _ _ => false
    jitedPages := fun _ _ => false }

def markJitedPage (addr : Addr) : Heap :=
  if heap.tracked then { heap with jitedPages := heap.jitedPages.set (heap.word addr) (bit addr) true } else heap

def markDirtyPage (addr : Addr) : Heap :=
  if heap.jited addr then
    { heap with
      dirtyPages := heap.dirtyPages.set (heap.word addr) (bit addr) true
      jitedPages := heap.jitedPages.set (heap.word addr) (bit addr) false }
  else heap

def marks (addr size : Addr) : List Addr :=
  (List.range ((size.toNat + 4095) / 4096)).map fun i => addr + BitVec.ofNat 64 (4096 * i)

def markDirtyMem (addr size : Addr) : Heap :=
  if heap.tracked then (marks addr size).foldl markDirtyPage heap else heap

def pageNeedsFlush (addr : Addr) : Bool := heap.tracked && heap.dirty addr

/-- The block found, and the cache afterwards: a dirty page is cleaned and loses all of its blocks. -/
def blockLookup (physPc : Addr) : Option Block × Heap :=
  if heap.pageNeedsFlush physPc then
    (none, { heap with
      dirtyPages := heap.dirtyPages.set (heap.word physPc) (bit physPc) false
      blocks := fun pc => if vpnOf pc = vpnOf physPc then none else heap.blocks pc })
  else (heap.blocks physPc, heap)

def blockFinalize (physPc : Addr) (block : Block) : Option Heap :=
  if heap.size < heap.curr + block.size then none
  else
    some <| Heap.markJitedPage
      { heap with
        curr := heap.curr + block.size
        blocks := fun pc => if pc = physPc then some block else heap.blocks pc }
      physPc

def flushCache : Heap :=
  { heap with
    blocks := fun _ => none
    curr := 0
    dirtyPages := if heap.tracked then fun _ _ => false else heap.dirtyPages }

end Heap

section
variable {heap : Heap} {addr addr' : Addr}

theorem word_page (h : SamePage addr addr') : heap.word addr = heap.word addr' := by
  rw [Heap.word, Heap.word, h.shift (by decide)]

theorem bit_page (h : SamePage addr addr') : Heap.bit addr = Heap.bit addr' := by
  rw [Heap.bit, Heap.bit, h.shift (by decide)]

theorem jited_page (h : SamePage addr addr') : heap.jited addr = heap.jited addr' := by
  rw [Heap.jited, Heap.jited, word_page h, bit_page h]

theorem dirty_page (h : SamePage addr addr') : heap.dirty addr = heap.dirty addr' := by
  rw [Heap.dirty, Heap.dirty, word_page h, bit_page h]

def InMem (mem : Ram) (addr : Addr) : Prop := mem.addr ≤ addr ∧ addr - mem.addr < mem.size
instance (mem : Ram) (addr : Addr) : Decidable (InMem mem addr) := inferInstanceAs (Decidable (_ ∧ _))

def Heap.Covers (heap : Heap) (mem : Ram) : Prop :=
  ∃ k, heap.dirtyMask.toNat = 2 ^ k - 1 ∧ mem.size.toNat ≤ 2 ^ 17 * 2 ^ k

theorem slot_toNat {k : Nat} (hm : heap.dirtyMask.toNat = 2 ^ k - 1) (addr : Addr) :
    (Heap.bit addr).toNat + 32 * (heap.word addr).toNat = addr.toNat / 4096 % (32 * 2 ^ k) := by
  have hb : (Heap.bit addr).toNat = addr.toNat / 4096 % 32 := by
    simp [Heap.bit, Nat.shiftRight_eq_div_pow]
  have hw : (heap.word addr).toNat = addr.toNat / 4096 / 32 % 2 ^ k := by
    rw [Heap.word, toNat_and, hm, Nat.and_two_pow_sub_one_eq_mod, toNat_ushiftRight,
      Nat.shiftRight_eq_div_pow, Nat.div_div_eq_div_mul]
  rw [hb, hw, Nat.mod_mul]

theorem samePage_of_slot {mem : Ram} (ha : Aligned 12 mem.addr) (covers : heap.Covers mem)
    (inside : InMem mem addr) (hi : InMem mem addr') (word : heap.word addr = heap.word addr')
    (bit : Heap.bit addr = Heap.bit addr') : SamePage addr addr' := by
  obtain ⟨k, hm, large⟩ := covers
  have hs : addr.toNat / 4096 % (32 * 2 ^ k) = addr'.toNat / 4096 % (32 * 2 ^ k) := by
    rw [← slot_toNat hm, ← slot_toNat hm, word, bit]
  have hb : mem.addr.toNat % 4096 = 0 := Nat.mod_eq_zero_of_dvd ha
  have ho (x : Addr) (hw : InMem mem x) : mem.addr.toNat ≤ x.toNat ∧ x.toNat - mem.addr.toNat < mem.size.toNat := by
    have hl := le_def.mp hw.1
    have hu := lt_def.mp hw.2
    rw [toNat_sub_of_le hw.1] at hu
    exact ⟨hl, hu⟩
  have hf := ho addr inside
  have second := ho addr' hi
  have hc (x y : Nat) (same : x % (32 * 2 ^ k) = y % (32 * 2 ^ k)) (hor : x ≤ y) (hn : y - x < 32 * 2 ^ k) : x = y := by
    have hz := Nat.sub_mod_eq_zero_of_mod_eq same.symm
    rw [Nat.mod_eq_of_lt hn] at hz
    omega
  have hp : addr.toNat / 4096 = addr'.toNat / 4096 := by
    by_cases hor : addr.toNat / 4096 ≤ addr'.toNat / 4096
    · exact hc _ _ hs hor (by omega)
    · exact (hc _ _ hs.symm (by omega) (by omega)).symm
  apply eq_of_toNat_eq
  simpa [vpnOf, pageShift, Nat.shiftRight_eq_div_pow] using hp

theorem initMemtracking_covers {b : Bool} {mem : Ram} (hf : mem.size.toNat + 0x1FFFF < 2 ^ 64)
    (hr : b = false ∨ Heap.pageUnits mem.size &&& (Heap.pageUnits mem.size - 1) = 0) :
    (heap.initMemtracking b mem.size).Covers mem := by
  obtain ⟨k, hm, hb, -⟩ := bitNextPow2_mask hr
  refine ⟨k, hm, ?_⟩
  have hu : (Heap.pageUnits mem.size).toNat = (mem.size.toNat + 0x1FFFF) / 2 ^ 17 := by
    rw [Heap.pageUnits, toNat_ushiftRight]
    simp
    omega
  omega

end

section
variable {heap : Heap} {addr page : Addr}

structure Marked (heap heap' : Heap) : Prop where
  blocks : heap'.blocks = heap.blocks
  tracked : heap'.tracked = heap.tracked
  dirtyMask : heap'.dirtyMask = heap.dirtyMask
  dirty : ∀ page, heap.dirty page → heap'.dirty page
  jited : ∀ page, heap.jited page → heap'.jited page ∨ heap'.dirty page

theorem Marked.refl (heap : Heap) : Marked heap heap := ⟨rfl, rfl, rfl, fun _ => id, fun _ => .inl⟩

theorem Marked.trans {h' heap'' : Heap} (hf : Marked heap h') (hs : Marked h' heap'') : Marked heap heap'' := by
  refine ⟨hs.blocks.trans hf.blocks, hs.tracked.trans hf.tracked,
    hs.dirtyMask.trans hf.dirtyMask, fun page set => hs.dirty page (hf.dirty page set), ?_⟩
  intro page set
  rcases hf.jited page set with hh | hm
  · exact hs.jited page hh
  · exact .inr (hs.dirty page hm)

def Heap.SameSlot (heap : Heap) (page addr : Addr) : Prop := heap.word page = heap.word addr ∧ Heap.bit page = Heap.bit addr

theorem set_slot (map : Bitmap) (v : Bool) :
    map.set (heap.word addr) (Heap.bit addr) v (heap.word page) (Heap.bit page) = true ↔
      if v then map (heap.word page) (Heap.bit page) ∨ heap.SameSlot page addr
      else map (heap.word page) (Heap.bit page) ∧ ¬heap.SameSlot page addr := by
  unfold Bitmap.set Heap.SameSlot
  split <;> cases v <;> simp_all

theorem markDirtyPage_slot (heap : Heap) (addr page : Addr) :
    ((heap.markDirtyPage addr).dirty page ↔ heap.dirty page ∨ heap.jited page ∧ heap.SameSlot page addr) ∧
      ((heap.markDirtyPage addr).jited page ↔ heap.jited page ∧ ¬heap.SameSlot page addr) := by
  have hj (hs : heap.SameSlot page addr) : heap.jited page = heap.jited addr := by
    rw [Heap.jited, Heap.jited, hs.1, hs.2]
  unfold Heap.markDirtyPage
  split
  · rename_i ha
    refine ⟨(set_slot heap.dirtyPages true).trans ?_, set_slot heap.jitedPages false⟩
    exact or_congr_right (iff_and_self.mpr fun hs => (hj hs).trans ha)
  · rename_i ha
    have hn (hp : heap.jited page) : ¬heap.SameSlot page addr := fun hs => ha ((hj hs).symm.trans hp)
    exact ⟨(or_iff_left fun h => hn h.1 h.2).symm, (and_iff_left_of_imp hn).symm⟩

theorem markDirtyPage_marked (heap : Heap) (addr : Addr) : Marked heap (heap.markDirtyPage addr) := by
  have hs := markDirtyPage_slot heap addr
  refine ⟨?_, ?_, ?_, fun page h => (hs page).1.mpr (.inl h), fun page h => ?_⟩
  iterate 3 (unfold Heap.markDirtyPage; split <;> rfl)
  by_cases hp : heap.SameSlot page addr
  · exact .inr ((hs page).1.mpr (.inr ⟨h, hp⟩))
  · exact .inl ((hs page).2.mpr ⟨h, hp⟩)

theorem foldl_markDirtyPage_marked (heap : Heap) (a : List Addr) : Marked heap (a.foldl Heap.markDirtyPage heap) := by
  induction a generalizing heap with
  | nil => exact .refl heap
  | cons addr a ih => exact (markDirtyPage_marked heap addr).trans (ih _)

theorem markDirtyMem_marked (heap : Heap) (addr sz : Addr) : Marked heap (heap.markDirtyMem addr sz) := by
  unfold Heap.markDirtyMem
  split
  · exact foldl_markDirtyPage_marked heap _
  · exact .refl heap

theorem foldl_markDirtyPage_dirty (heap : Heap) (a : List Addr) (page : Addr) :
    (a.foldl Heap.markDirtyPage heap).dirty page ↔
      heap.dirty page ∨ heap.jited page ∧ ∃ mark ∈ a, heap.SameSlot page mark := by
  induction a generalizing heap with
  | nil => simp
  | cons m a ih =>
    have hm : (heap.markDirtyPage m).SameSlot = heap.SameSlot := by
      unfold Heap.SameSlot Heap.word
      rw [(markDirtyPage_marked heap m).dirtyMask]
    have hs := markDirtyPage_slot heap m page
    rw [List.foldl_cons, ih, hm, hs.1, hs.2]
    by_cases hp : heap.SameSlot page m <;> simp [hp]

theorem markDirtyMem_dirty {s sz : Addr} (ht : heap.tracked) (hm : addr ∈ Heap.marks s sz)
    (hs : SamePage addr page) (hk : heap.jited page ∨ heap.dirty page) : (heap.markDirtyMem s sz).dirty page := by
  rw [Heap.markDirtyMem, if_pos ht, foldl_markDirtyPage_dirty]
  exact hk.symm.imp_right fun hj => ⟨hj, addr, hm, (word_page hs).symm, (bit_page hs).symm⟩

def Touched (addr size page : Addr) : Prop := ∃ byte, SamePage byte page ∧ (byte - addr).toNat < size.toNat

def Heap.HoldsCode (heap : Heap) (page : Addr) : Prop :=
  ∃ pc block, heap.blocks pc = some block ∧ (SamePage pc page ∨ ∃ byte ∈ block.bytes, SamePage byte page)

def Heap.Discards (heap : Heap) (page : Addr) : Prop :=
  heap.pageNeedsFlush page ∧
    ∀ pc, SamePage pc page → (heap.blockLookup pc).1 = none ∧ (heap.blockLookup pc).2.blocks pc = none

theorem discards_iff : heap.Discards page ↔ heap.pageNeedsFlush page := by
  refine and_iff_left_of_imp fun hf pc hp => ?_
  have hn : heap.pageNeedsFlush pc := by
    rwa [Heap.pageNeedsFlush, dirty_page hp]
  rw [Heap.blockLookup, if_pos hn]
  exact ⟨rfl, if_pos rfl⟩

theorem dirty_marking_covers_iff (heap : Heap) (addr size : Addr) :
    (∀ page, Touched addr size page → heap.HoldsCode page → (heap.markDirtyMem addr size).Discards page) ↔
      ∀ page, Touched addr size page → heap.HoldsCode page → heap.tracked ∧ (heap.dirty page ∨
        heap.jited page ∧ ∃ i, 4096 * i < size.toNat ∧ heap.SameSlot page (addr + BitVec.ofNat 64 (4096 * i))) := by
  refine forall₃_congr fun page _ _ => ?_
  rw [discards_iff, Heap.pageNeedsFlush, Bool.and_eq_true, (markDirtyMem_marked heap addr size).tracked]
  refine and_congr_right fun tracked => ?_
  have rounds (i : Nat) : i < (size.toNat + 4095) / 4096 ↔ 4096 * i < size.toNat := by omega
  rw [Heap.markDirtyMem, if_pos tracked, foldl_markDirtyPage_dirty]
  simp [Heap.marks, rounds]

def compiled (pc : Addr) (bytes : List Addr) : Option Heap :=
  ((Heap.init 4096).initMemtracking false 0x40000).blockFinalize pc ⟨16, bytes, false, false⟩

theorem dirty_marking_misses :
    (∃ heap, compiled 0x80001000 [0x80001000, 0x80001001] = some heap ∧ Touched 0x80000FFF 2 0x80001000 ∧
      heap.HoldsCode 0x80001000 ∧ ¬(heap.markDirtyMem 0x80000FFF 2).Discards 0x80001000 ∧
      ((heap.markDirtyMem 0x80000FFF 2).blockLookup 0x80001000).1 = some ⟨16, [0x80001000, 0x80001001], false, false⟩) ∧
    ∃ heap, compiled 0x80000FFE [0x80000FFE, 0x80000FFF, 0x80001000, 0x80001001] = some heap ∧
      Touched 0x80001000 2 0x80001000 ∧ heap.HoldsCode 0x80001000 ∧
      ¬(heap.markDirtyMem 0x80001000 2).Discards 0x80001000 := by
  refine ⟨⟨_, rfl, ⟨0x80001000, rfl, by decide⟩, ⟨0x80001000, _, rfl, .inl rfl⟩, ?_, by decide +kernel⟩,
    _, rfl, ⟨0x80001000, rfl, by decide⟩, ⟨0x80000FFE, _, rfl, .inr ⟨0x80001000, by decide, rfl⟩⟩, ?_⟩
  all_goals
    rw [discards_iff]
    decide +kernel

end

structure Trace where
  virtPc : Addr
  physPc : Addr
  block : Block
deriving DecidableEq, Repr

/-- `trace` is present while `jit_compiling` is set; `jtlb` has the tags of the block TLB. -/
structure State where
  vm : Vm
  harvard : Bool
  heap : Heap
  trace : Option Trace
  blockEnds : Bool
  jtlb : BitVec 8 → Option Addr

def State.prepare (board : Board) (vm : Vm) (harvard builtin : Bool) (cacheSize : Nat) : State :=
  let heap := Heap.init cacheSize
  { vm, harvard, trace := none, blockEnds := false, jtlb := fun _ => none
    heap := if harvard then heap else heap.initMemtracking builtin board.mem.size }

def place (frame vaddr : Addr) : Addr := (frame &&& ~~~(bitMask pageShift)) ||| (vaddr &&& bitMask pageShift)

/-- The physical address of a host address in RAM; `riscv_virt_translate_e` does not ask whether it is one. -/
def ramAddr (board : Board) (ptr : Addr) : Addr := ptr - board.mem.data + board.mem.addr
def physOf (board : Board) (vm : Vm) (vaddr : Addr) : Addr := ramAddr board ((vm.entryOf vaddr).ptr + vaddr)

def virtTranslateE (board : Board) (vm : Vm) (vaddr : Addr) (frame : Option Addr) : Option Addr :=
  if vm.Hits vaddr .exec then some (physOf board vm vaddr) else frame.map (place · vaddr)

def Block.overwrite (block : Block) (addr : Addr) (size : Nat) : Block :=
  { block with overwritten := block.overwritten || block.bytes.any fun byte => decide ((byte - addr).toNat < size) }

def Block.expire (block : Block) : Block := { block with outdated := block.outdated || block.overwritten }

namespace State
variable (board : Board) (s : State)

def mapBlocks (change : Block → Block) : State :=
  { s with
    heap := { s.heap with blocks := fun pc => (s.heap.blocks pc).map change }
    trace := s.trace.map fun trace => { trace with block := change trace.block } }

def overwrite (addr : Addr) (size : Nat) : State := s.mapBlocks fun block => block.overwrite addr size
def markDirtyMem (addr size : Addr) : State := { s with heap := s.heap.markDirtyMem addr size }

def jtlbPut (vaddr : Addr) : State :=
  { s with jtlb := fun slot => if slot = (vaddr >>> 1).setWidth 8 then some vaddr else s.jtlb slot }

def jtlbFlush : State := { s with jtlb := fun _ => none }

def tlbFlushPage (vaddr : Addr) : State :=
  let flushed := { s with vm := Rvvm.tlbFlushPage s.vm vaddr }
  if s.vm.Hits vaddr .exec then flushed.jtlbFlush else flushed

/-- The write part of `riscv_mmio_scan`: a page that a direct memory region holds is cached, and the bytes are copied to
  the memory of the region. -/
def storeRegion (vaddr paddr : Addr) (size : Nat) : State :=
  match mmioFind s.vm.mmioDevs paddr with
  | none => s
  | some dev =>
    let vm := (dev.direct paddr).elim s.vm fun ptr => tlbPut s.vm vaddr ptr .write
    match dev.mapping with
    | none => s
    | some mapping => { s with vm }.overwrite (ramAddr board (mapping + (paddr - dev.addr))) size

/-- The write part of `riscv_mmu_op_internal` within a page. A page fault leaves no trace here. -/
def storeInPage (vaddr : Addr) (size : Nat) (frame : Option Addr) : State :=
  match frame with
  | none => s
  | some frame =>
    let paddr := place frame vaddr
    match physAccess board paddr with
    | none => s.storeRegion board vaddr paddr size
    | some ptr => ({ s with vm := tlbPut s.vm vaddr ptr .write }.overwrite paddr size).markDirtyMem paddr 8

def firstPart (vaddr : Addr) : Nat := 0x1000 - (vaddr &&& bitMask pageShift).toNat

def store (vaddr : Addr) (size : Nat) (frame frame' : Option Addr) : State :=
  if s.vm.Hits vaddr .write ∧ aligned vaddr size then s.overwrite (physOf board s.vm vaddr) size
  else if blockInPage vaddr size then s.storeInPage board vaddr size frame
  else
    -- the second part of an access whose first part faults is one without a translation
    (s.storeInPage board vaddr (firstPart vaddr) frame).storeInPage board (secondPart vaddr) (size - firstPart vaddr) frame'

/-- `riscv_rmw_translate` and the write through its pointer, or for a region the write of the bounce buffer, which
  leaves the entry of a write; its callers refuse an unaligned address. -/
def rmw (vaddr : Addr) (size : Nat) (frame : Option Addr) : State :=
  if aligned vaddr size then
    if s.vm.Hits vaddr .write then s.overwrite (physOf board s.vm vaddr) size
    else s.storeInPage board vaddr size frame
  else s

def fill (vaddr : Addr) (access : Access) (frame : Option Addr) : State :=
  match frame.bind fun frame => hostOf board s.vm.mmioDevs (place frame vaddr) with
  | none => s
  | some ptr => { s with vm := tlbPut s.vm vaddr ptr access }

def writeRam (dest size : Addr) : State :=
  if rangeTest board.mem dest size then (s.overwrite dest size.toNat).markDirtyMem dest size else s

def getDmaPtr (addr size : Addr) : State := if rangeTest board.mem addr size then s.markDirtyMem addr size else s

def lookup (pc : Addr) (frame : Option Addr) : State :=
  if s.trace.isSome ∨ s.jtlb ((pc >>> 1).setWidth 8) = some pc then s
  else
    match virtTranslateE board s.vm pc frame with
    | none => s
    | some physPc =>
      match s.heap.blockLookup physPc with
      | (some _, heap) => { s with heap }.jtlbPut pc
      | (none, heap) => { s with heap, trace := some ⟨pc, physPc, ⟨0, [], false, false⟩⟩, blockEnds := false }.jtlbFlush

def finalize (trace : Trace) (tail : Nat) : State :=
  let s := { s with trace := none }
  if trace.block.size = 0 then s
  else
    match s.heap.blockFinalize trace.physPc { trace.block with size := trace.block.size + tail } with
    | some heap => { s with heap }.jtlbPut trace.virtPc
    | none => { s with heap := s.heap.flushCache }.jtlbFlush

def dispatch (pc : Addr) (tail : Nat) : State :=
  match s.trace with
  | none => s
  | some trace =>
    if s.blockEnds ∨ vpnOf trace.virtPc ≠ vpnOf pc then { s.finalize trace tail with blockEnds := true }
    else { s with blockEnds := true }

def extend (bytes : List Addr) (size : Nat) (ends : Bool) : State :=
  match s.trace with
  | none => s
  | some trace =>
    { s with
      blockEnds := ends
      trace := some { trace with
        block := { trace.block with size := trace.block.size + size, bytes := trace.block.bytes ++ bytes } } }

def flushCache : State := { s with trace := none, heap := s.heap.flushCache }.jtlbFlush

def fenceI : State :=
  let s := s.mapBlocks Block.expire
  if s.harvard then s.flushCache else s.jtlbFlush

end State

/-- What happens to a hart and the memory of its machine; the translations that the page tables give come with the
  events. An access has `2 ^ log` bytes. -/
inductive Event where
  | store (vaddr : Addr) (log : Fin 7) (frame frame' : Option Addr)
  | rmw (vaddr : Addr) (log : Fin 7) (frame : Option Addr)
  | load (vaddr : Addr) (frame : Option Addr)
  | fetch (vaddr : Addr) (frame : Option Addr)
  | flushTlb
  | flushPage (vaddr : Addr)
  | moveRegion (bar : Nat) (addr : Addr)
  | writeRam (dest size : Addr)
  | getDmaPtr (addr size : Addr)
  | deviceWrite (addr : Addr) (size : Nat)
  | lookup (pc : Addr) (frame : Option Addr)
  | dispatch (pc : Addr) (tail : Nat)
  | extend (bytes : List Addr) (size : Nat) (ends : Bool)
  | discard
  | endBlock
  | fenceI
deriving Repr

def step (board : Board) (s : State) : Event → State
  | .store vaddr log frame frame' => s.store board vaddr (2 ^ log.val) frame frame'
  | .rmw vaddr log frame => s.rmw board vaddr (2 ^ log.val) frame
  | .load vaddr frame => s.fill board vaddr .read frame
  | .fetch vaddr frame => s.fill board vaddr .exec frame
  | .flushTlb => { s with vm := tlbFlush s.vm }.jtlbFlush
  | .flushPage vaddr => s.tlbFlushPage vaddr
  | .moveRegion bar addr => { s with vm := { s.vm with mmioDevs := moveRegion s.vm.mmioDevs bar addr } }
  | .writeRam dest size => s.writeRam board dest size
  | .getDmaPtr addr size => s.getDmaPtr board addr size
  | .deviceWrite addr size => s.overwrite addr size
  | .lookup pc frame => s.lookup board pc frame
  | .dispatch pc tail => s.dispatch pc tail
  | .extend bytes size ends => s.extend bytes size ends
  | .discard => { s with trace := none }
  | .endBlock => { s with blockEnds := true }
  | .fenceI => s.fenceI

end RiscvEmulators.Rvvm.Jit
