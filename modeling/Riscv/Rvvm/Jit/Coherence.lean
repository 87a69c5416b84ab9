import Riscv.Rvvm.Jit.Machine
import Riscv.Rvvm.Mmu.Agreement

namespace RiscvEmulators.Rvvm.Jit
open Word Transition BitVec State Heap Option

def Writable (board : Board) (vm : Vm) (byte : Addr) : Prop := ∃ vaddr,
  vm.Hits vaddr .write ∧ physOf board vm vaddr = byte

def Unwritable (board : Board) (vm : Vm) (page : Addr) : Prop := ∀ byte, SamePage byte page → ¬Writable board vm byte

structure Held (board : Board) (s : State) (pc : Addr) (block : Block) : Prop where
  inside : InMem board.mem pc
  page : ∀ byte ∈ block.bytes, SamePage byte pc
  noticed : block.outdated → block.overwritten
  current : s.heap.dirty pc ∨ s.heap.jited pc ∧ block.overwritten = false ∧ Unwritable board s.vm pc

structure Traced (board : Board) (s : State) (trace : Trace) : Prop where
  inside : InMem board.mem trace.physPc
  page : ∀ byte ∈ trace.block.bytes, SamePage byte trace.physPc
  noticed : trace.block.outdated → trace.block.overwritten
  current : trace.block.overwritten → s.heap.dirty trace.physPc

/-- The host memory of RAM is apart from that of the direct memory regions, and from the page after each, which the copy
  of a write at the end of a region can reach. -/
def RegionsApart (board : Board) (devs : List MmioDev) : Prop :=
  ∀ dev ∈ devs, ∀ mapping, dev.mapping = some mapping → ∀ offset : Addr, offset.toNat < dev.size.toNat + 4096 →
    ¬InMem board.mem (ramAddr board (mapping + offset))

structure Coherent (board : Board) (s : State) : Prop where
  regions : RegionsApart board s.vm.mmioDevs
  tracked : s.heap.tracked
  covers : s.heap.Covers board.mem
  held : ∀ pc block, s.heap.blocks pc = some block → Held board s pc block
  traced : ∀ trace, s.trace = some trace → Traced board s trace

def State.Tracing (s : State) (addr : Addr) : Prop := ∃ trace, s.trace = some trace ∧ SamePage addr trace.physPc

def State.Known (s : State) (addr : Addr) : Prop := s.heap.jited addr ∨ s.heap.dirty addr

def State.Condemned (s : State) (addr : Addr) : Prop :=
  (∀ pc block, s.heap.blocks pc = some block → SamePage addr pc → s.heap.dirty pc) ∧
    (s.Tracing addr → s.heap.dirty addr)

theorem samePage_of_near {addr byte : Addr} {size : Nat} (hr : addr.toNat % 4096 + size ≤ 4096)
    (hn : (byte - addr).toNat < size) : SamePage byte addr := by
  have hs : byte.toNat = addr.toNat + (byte - addr).toNat := by
    have hw := congrArg BitVec.toNat (BitVec.sub_add_cancel byte addr)
    rw [toNat_add] at hw
    omega
  apply eq_of_toNat_eq
  simp [vpnOf, pageShift]
  omega

theorem place_mod (frame va : Addr) : (place frame va).toNat % 4096 = va.toNat % 4096 := by
  rw [place, bitMask, toNat_splice frame va (by decide)]
  simp [pageShift]

theorem place_page (frame : Addr) {va o : Addr} (hs : SamePage va o) :
    SamePage (place frame va + (o - va)) (place frame va) := by
  have hp := hs.toNat
  have ho := place_mod frame va
  apply eq_of_toNat_eq
  simp [vpnOf, pageShift]
  omega

theorem aligned_room {va : Addr} {log : Fin 7} (hw : aligned va (2 ^ log.val)) :
    va.toNat % 4096 + 2 ^ log.val ≤ 4096 := by
  have hl : va.toNat % 2 ^ log.val = 0 := by
    have hz := congrArg BitVec.toNat (of_decide_eq_true hw)
    have hm : ∀ log : Fin 7, (BitVec.ofNat 64 (2 ^ log.val - 1)).toNat = 2 ^ log.val - 1 := by decide
    rw [toNat_and, hm log, Nat.and_two_pow_sub_one_eq_mod] at hz
    exact hz
  have hs : log.val = 0 ∨ log.val = 1 ∨ log.val = 2 ∨ log.val = 3 ∨ log.val = 4 ∨ log.val = 5 ∨ log.val = 6 := by omega
  rcases hs with h | h | h | h | h | h | h <;> rw [h] at hl ⊢ <;> omega

theorem blockInPage_room {va : Addr} {size : Nat} (hi : blockInPage va size) : va.toNat % 4096 + size ≤ 4096 := by
  have hb := of_decide_eq_true hi
  rw [bitMask, toNat_and_low_mask va (by decide)] at hb
  exact hb

section
variable {bd : Board} {vm : Vm}

theorem hits_page {va o : Addr} {access : Access} (h : SamePage va o) : vm.Hits va access ↔ vm.Hits o access := by
  unfold Vm.Hits Vm.entryOf
  rw [show vpnOf va = vpnOf o from h]

theorem writable_near {vaddr byte : Addr} {size : Nat} (hh : vm.Hits vaddr .write)
    (hr : vaddr.toNat % 4096 + size ≤ 4096) (hn : (byte - physOf bd vm vaddr).toNat < size) : Writable bd vm byte := by
  have hs : SamePage (vaddr + (byte - physOf bd vm vaddr)) vaddr := by
    apply samePage_of_near hr
    rwa [BitVec.add_comm, BitVec.add_sub_cancel]
  refine ⟨_, (hits_page hs).mpr hh, ?_⟩
  have he : vm.entryOf (vaddr + (byte - physOf bd vm vaddr)) = vm.entryOf vaddr := by
    unfold Vm.entryOf
    rw [show vpnOf (vaddr + (byte - physOf bd vm vaddr)) = vpnOf vaddr from hs]
  unfold physOf ramAddr at he ⊢
  grind

theorem not_hits_exec {va o ptr : Addr} (h : SamePage va o) : ¬(tlbPut vm va ptr .exec).Hits o .write := by
  rw [← hits_page h]
  unfold Vm.Hits tlbPut
  rw [entryOf_setEntry_same]
  exact pred_ne _

/-- What becomes writable by a fill from RAM: the page that is filled, except by an instruction fetch and by a load of a
  page that is not written to. -/
theorem writable_tlbPut {va frame byte : Addr} {ac : Access}
    (hw : Writable bd (tlbPut vm va (hostPtr bd.mem (place frame va)) ac) byte) :
    Writable bd vm byte ∨ SamePage byte (place frame va) ∧ ac ≠ .exec ∧ (ac = .read → vm.Hits va .write) := by
  obtain ⟨other, hh, ht⟩ := hw
  rcases hits_tlbPut hh with ⟨page, hp, hr⟩ | ⟨hb, he⟩
  · right
    have hs := page.symm
    refine ⟨?_, ?_, ?_⟩
    · have hm : bd.mem.data + (place frame va - bd.mem.addr) - va + other - bd.mem.data + bd.mem.addr =
          place frame va + (other - va) := by grind
      rw [← ht, physOf, ramAddr, hp, hostPtr, hm]
      exact place_page frame hs
    · rintro rfl
      exact not_hits_exec hs hh
    · rintro rfl
      rcases hr with hi | ⟨hi, _⟩ | hb
      · cases hi
      · cases hi
      · exact (hits_page hs).mpr hb
  · left
    refine ⟨other, hb, ?_⟩
    rw [← ht, physOf, physOf, he]

end

section
variable {bd : Board} {s : State}

theorem Coherent.dirty_of_writable (hc : Coherent bd s) {pc byte : Addr} {b : Block}
    (hf : s.heap.blocks pc = some b) (hs : SamePage byte pc) (hw : Writable bd s.vm byte) : s.heap.dirty pc := by
  rcases (hc.held pc b hf).current with hd | ⟨_, _, hu⟩
  · exact hd
  · exact absurd hw (hu byte hs)

theorem Coherent.known (hc : Coherent bd s) {pc : Addr} {b : Block} (hf : s.heap.blocks pc = some b) : s.Known pc := by
  rcases (hc.held pc b hf).current with hd | ⟨hj, _⟩
  · exact .inr hd
  · exact .inl hj

theorem Coherent.tlb (hc : Coherent bd s) {vm : Vm} (regions : vm.mmioDevs = s.vm.mmioDevs)
    (only : ∀ byte, Writable bd vm byte → Writable bd s.vm byte ∨
      ∀ pc b, s.heap.blocks pc = some b → SamePage byte pc → s.heap.dirty pc) :
    Coherent bd { s with vm } := by
  refine ⟨regions ▸ hc.regions, hc.tracked, hc.covers, ?_, ?_⟩
  · intro pc b hf
    have hh := hc.held pc b hf
    refine ⟨hh.inside, hh.page, hh.noticed, ?_⟩
    rcases hh.current with hd | ⟨hj, now, hu⟩
    · exact .inl hd
    · by_cases hd : s.heap.dirty pc
      · exact .inl hd
      · refine .inr ⟨hj, now, fun byte hs hw => ?_⟩
        rcases only byte hw with hb | was
        · exact hu byte hs hb
        · exact hd (was pc b hf hs)
  · intro t hf
    have ht := hc.traced t hf
    exact ⟨ht.inside, ht.page, ht.noticed, ht.current⟩

theorem Coherent.marked (hc : Coherent bd s) {heap : Heap} (marked : Marked s.heap heap) :
    Coherent bd { s with heap } := by
  refine ⟨hc.regions, marked.tracked.trans hc.tracked, ?_, ?_, ?_⟩
  · obtain ⟨k, hm, hb⟩ := hc.covers
    exact ⟨k, by rw [← hm, marked.dirtyMask], hb⟩
  · intro pc b hf
    rw [marked.blocks] at hf
    have hh := hc.held pc b hf
    refine ⟨hh.inside, hh.page, hh.noticed, ?_⟩
    rcases hh.current with hd | ⟨hj, now⟩
    · exact .inl (marked.dirty pc hd)
    · rcases marked.jited pc hj with hj | hd
      · exact .inr ⟨hj, now⟩
      · exact .inl hd
  · intro t hf
    have ht := hc.traced t hf
    exact ⟨ht.inside, ht.page, ht.noticed, fun hs => marked.dirty _ (ht.current hs)⟩

theorem overwritten_of_far {block : Block} {addr : Addr} {size : Nat}
    (hf : ∀ byte ∈ block.bytes, ¬(byte - addr).toNat < size) : block.overwrite addr size = block := by
  have hn : (block.bytes.any fun byte => decide ((byte - addr).toNat < size)) = false := by
    rw [List.any_eq_false]
    intro byte hm
    rw [decide_eq_true_iff]
    exact hf byte hm
  rw [Block.overwrite, hn, Bool.or_false]

theorem Coherent.overwrite (hc : Coherent bd s) {addr : Addr} {size : Nat}
    (told : ∀ byte, (byte - addr).toNat < size → s.Condemned byte) : Coherent bd (s.overwrite addr size) := by
  refine ⟨hc.regions, hc.tracked, hc.covers, ?_, ?_⟩
  · intro pc bl hf
    obtain ⟨b, hk, rfl⟩ := map_eq_some_iff.mp hf
    have hh := hc.held pc b hk
    by_cases hit' : ∃ byte ∈ b.bytes, (byte - addr).toNat < size
    · obtain ⟨byte, hm, hn⟩ := hit'
      have hd := (told byte hn).1 pc b hk (hh.page byte hm)
      refine ⟨hh.inside, hh.page, fun ho => ?_, .inl hd⟩
      simp [Block.overwrite, hh.noticed ho]
    · rw [overwritten_of_far (fun byte hm hn => hit' ⟨byte, hm, hn⟩)]
      exact ⟨hh.inside, hh.page, hh.noticed, hh.current⟩
  · intro t hf
    obtain ⟨b, hk, rfl⟩ := map_eq_some_iff.mp hf
    have ht := hc.traced b hk
    by_cases hit' : ∃ byte ∈ b.block.bytes, (byte - addr).toNat < size
    · obtain ⟨byte, hm, hn⟩ := hit'
      have hs := ht.page byte hm
      have hd := (told byte hn).2 ⟨b, hk, hs⟩
      refine ⟨ht.inside, ht.page, fun ho => ?_, fun _ => ?_⟩
      · simp [Block.overwrite, ht.noticed ho]
      · rw [dirty_page hs] at hd
        exact hd
    · dsimp only
      rw [overwritten_of_far (fun byte hm hn => hit' ⟨byte, hm, hn⟩)]
      exact ⟨ht.inside, ht.page, ht.noticed, ht.current⟩

theorem markDirtyMem_blocks (heap : Heap) (blocks : Addr → Option Block) (addr size : Addr) :
    { heap with blocks }.markDirtyMem addr size = { heap.markDirtyMem addr size with blocks } := by
  have hp (heap : Heap) (addr : Addr) :
      { heap with blocks }.markDirtyPage addr = { heap.markDirtyPage addr with blocks } := by
    unfold markDirtyPage
    have hs : { heap with blocks }.jited addr = heap.jited addr := rfl
    rw [hs]
    split <;> rfl
  have ha (heap : Heap) (a : List Addr) :
      a.foldl markDirtyPage { heap with blocks } = { a.foldl markDirtyPage heap with blocks } := by
    induction a generalizing heap with
    | nil => rfl
    | cons addr a ih => rw [List.foldl_cons, List.foldl_cons, hp, ih]
  unfold Heap.markDirtyMem
  split
  · exact ha heap _
  · rfl

theorem Coherent.write (hc : Coherent bd s) {vm : Vm} {st l addr : Addr} {size : Nat}
    (regions : vm.mmioDevs = s.vm.mmioDevs)
    (hm2 : ∀ byte, (byte - addr).toNat < size → ∃ mark ∈ marks st l, SamePage mark byte)
    (hk : ∀ byte, (byte - addr).toNat < size → s.Tracing byte → s.Known byte)
    (only : ∀ byte, Writable bd vm byte → Writable bd s.vm byte ∨ ∃ mark ∈ marks st l, SamePage mark byte) :
    Coherent bd (({ s with vm }.overwrite addr size).markDirtyMem st l) := by
  have hp {mark byte : Addr} (hm : mark ∈ marks st l) (hs : SamePage mark byte) {pc : Addr}
      {b : Block} (hf : s.heap.blocks pc = some b) (hh : SamePage byte pc) :
      (s.heap.markDirtyMem st l).dirty pc :=
    markDirtyMem_dirty hc.tracked hm (hs.trans hh) (hc.known hf)
  have hma := markDirtyMem_marked s.heap st l
  have first := hc.marked hma
  have both : Coherent bd { s with vm, heap := s.heap.markDirtyMem st l } := by
    apply first.tlb regions
    intro byte hw
    rcases only byte hw with hb | ⟨mark, hm, hs⟩
    · exact .inl hb
    · right
      intro pc b hf hh
      rw [hma.blocks] at hf
      exact hp hm hs hf hh
  -- the write and the marking commute
  have swap : ({ s with vm }.overwrite addr size).markDirtyMem st l =
      { s with vm, heap := s.heap.markDirtyMem st l }.overwrite addr size := by
    unfold State.markDirtyMem State.overwrite State.mapBlocks
    rw [markDirtyMem_blocks, hma.blocks]
  rw [swap]
  apply both.overwrite
  intro byte hn
  obtain ⟨mark, hm, hs⟩ := hm2 byte hn
  constructor
  · intro pc b hf hh
    rw [hma.blocks] at hf
    exact hp hm hs hf hh
  · intro ht
    exact markDirtyMem_dirty hc.tracked hm hs (hk byte hn ht)

end

section
variable {board : Board} {s : State}

theorem inMem_page {addr byte : Addr} (same : SamePage byte addr) (inside : InMem board.mem byte) :
    InMem board.mem addr := by
  have found : physAccess board byte = some (hostPtr board.mem byte) := if_pos inside
  have there := physAccess_page same found
  unfold physAccess at there
  split at there
  · rename_i within
    exact within
  · cases there

theorem Coherent.condemned (coherent : Coherent board s) {byte : Addr} (outside : ¬InMem board.mem byte) :
    s.Condemned byte := by
  refine ⟨fun pc block found same => ?_, fun ⟨trace, traced, same⟩ => ?_⟩
  · exact absurd (inMem_page same.symm (coherent.held pc block found).inside) outside
  · exact absurd (inMem_page same.symm (coherent.traced trace traced).inside) outside

theorem region_outside {devs : List MmioDev} {dev : MmioDev} {mapping paddr paddr' : Addr} (apart : RegionsApart board devs)
    (found : mmioFind devs paddr = some dev) (mapped : dev.mapping = some mapping) (above : dev.addr ≤ paddr')
    (near : paddr'.toNat < paddr.toNat + 4096) : ¬InMem board.mem (ramAddr board (mapping + (paddr' - dev.addr))) := by
  have answers := List.find?_some found
  rw [Bool.and_eq_true, decide_eq_true_eq, decide_eq_true_eq, le_def, lt_def, toNat_add] at answers
  apply apart dev (List.mem_of_find?_eq_some found) mapping mapped
  rw [toNat_sub_of_le above]
  have low := le_def.mp above
  omega

theorem writable_region {devs : List MmioDev} {dev : MmioDev} {va frame ptr byte : Addr} {ac : Access} {vm : Vm}
    (apart : RegionsApart board devs) (found : mmioFind devs (place frame va) = some dev)
    (direct : dev.direct (place frame va) = some ptr) (writable : Writable board (tlbPut vm va ptr ac) byte) :
    Writable board vm byte ∨ ¬InMem board.mem byte := by
  obtain ⟨other, hit, reached⟩ := writable
  rcases hits_tlbPut hit with ⟨page, filled, -⟩ | ⟨old, same⟩
  · right
    have inPage := (place_page frame page.symm).toNat
    unfold MmioDev.direct at direct
    dsimp only at direct
    split at direct
    · rename_i whole
      obtain ⟨mapping, mapped, rfl⟩ := map_eq_some_iff.mp direct
      have base := le_def.mp whole.1
      rw [pageBase_toNat] at base
      have above : dev.addr ≤ place frame va + (other - va) := by
        rw [le_def]
        omega
      have there : mapping + (place frame va - dev.addr) - va + other =
          mapping + (place frame va + (other - va) - dev.addr) := by grind
      rw [← reached, physOf, filled, there]
      exact region_outside apart found mapped above (by omega)
    · cases direct
  · left
    refine ⟨other, old, ?_⟩
    rw [← reached, physOf, physOf, same]

theorem Coherent.outside (coherent : Coherent board s) {vm : Vm} (regions : vm.mmioDevs = s.vm.mmioDevs)
    (only : ∀ byte, Writable board vm byte → Writable board s.vm byte ∨ ¬InMem board.mem byte) :
    Coherent board { s with vm } := by
  apply coherent.tlb regions
  intro byte writable
  exact (only byte writable).imp_right fun outside => (coherent.condemned outside).1

theorem Coherent.storeRegion (coherent : Coherent board s) {va frame : Addr} {size : Nat}
    (room : va.toNat % 4096 + size ≤ 4096) :
    Coherent board (s.storeRegion board va (place frame va) size) := by
  unfold State.storeRegion
  split
  · exact coherent
  · rename_i dev found
    dsimp only
    split
    · exact coherent
    · rename_i mapping mapped
      have filled : Coherent board
          { s with vm := (dev.direct (place frame va)).elim s.vm fun ptr => tlbPut s.vm va ptr .write } := by
        cases direct : dev.direct (place frame va) with
        | none => exact coherent
        | some ptr =>
          apply coherent.outside
          · rfl
          · intro byte (writable : Writable board (tlbPut s.vm va ptr .write) byte)
            exact writable_region coherent.regions found direct writable
      apply filled.overwrite
      intro byte near
      apply filled.condemned
      -- the bytes of a write within a page follow its address without a wrap
      generalize offset : byte - ramAddr board (mapping + (place frame va - dev.addr)) = step at near
      have inPage := place_mod frame va
      have far : (place frame va + step).toNat = (place frame va).toNat + step.toNat := by
        rw [toNat_add]
        omega
      have answers := List.find?_some found
      rw [Bool.and_eq_true, decide_eq_true_eq, decide_eq_true_eq, le_def, lt_def] at answers
      have there : byte = ramAddr board (mapping + (place frame va + step - dev.addr)) := by
        rw [← offset]
        unfold ramAddr
        grind
      rw [there]
      apply region_outside coherent.regions found mapped
      · rw [le_def]
        omega
      · omega

def MissCareful (board : Board) (s : State) (vaddr : Addr) (frame : Option Addr) : Prop :=
  ∀ page, frame = some page → InMem board.mem (place page vaddr) → s.Tracing (place page vaddr) → s.Known (place page vaddr)

def HitCareful (s : State) (addr : Addr) (size : Nat) : Prop :=
  ∀ byte, (byte - addr).toNat < size → s.Tracing byte → s.heap.dirty byte

def Careful (board : Board) (s : State) : Event → Prop
  | .store vaddr log frame frame' =>
    if s.vm.Hits vaddr .write ∧ aligned vaddr (2 ^ log.val) then HitCareful s (physOf board s.vm vaddr) (2 ^ log.val)
    else if blockInPage vaddr (2 ^ log.val) then MissCareful board s vaddr frame
    else MissCareful board s vaddr frame ∧
      MissCareful board (s.storeInPage board vaddr (State.firstPart vaddr) frame) (secondPart vaddr) frame'
  | .rmw vaddr log frame =>
    if s.vm.Hits vaddr .write then HitCareful s (physOf board s.vm vaddr) (2 ^ log.val) else MissCareful board s vaddr frame
  | .load vaddr frame =>
    ∀ page, frame = some page → s.vm.Hits vaddr .write → SamePage (place page vaddr) (physOf board s.vm vaddr)
  | .writeRam dest size =>
    (∀ byte, (byte - dest).toNat < size.toNat → ∃ mark ∈ Heap.marks dest size, SamePage mark byte) ∧
      ∀ byte, (byte - dest).toNat < size.toNat → s.Tracing byte → s.Known byte
  | .deviceWrite addr size =>
    HitCareful s addr size ∧ ∀ byte, (byte - addr).toNat < size → s.heap.jited byte = false
  | .lookup pc frame => ∀ physPc, virtTranslateE board s.vm pc frame = some physPc → InMem board.mem physPc
  | .dispatch _ _ =>
    ∀ trace, s.trace = some trace → s.heap.dirty trace.physPc ∨ Unwritable board s.vm trace.physPc
  | .extend bytes _ _ => ∀ trace, s.trace = some trace → ∀ byte ∈ bytes, SamePage byte trace.physPc
  | _ => True

variable {fr : Option Addr} {pc physPc : Addr}

variable {va : Addr}

theorem Coherent.storeInPage (held : Coherent board s) {size : Nat}
    (hr : va.toNat % 4096 + size ≤ 4096) (care : MissCareful board s va fr) :
    Coherent board (s.storeInPage board va size fr) := by
  unfold State.storeInPage
  cases fr with
  | none => exact held
  | some page =>
    dsimp only
    by_cases hi : InMem board.mem (place page va)
    · have ha : physAccess board (place page va) = some (hostPtr board.mem (place page va)) := if_pos hi
      have hm : place page va ∈ marks (place page va) 8 := by simp [marks]
      have hn (byte : Addr) (hc : (byte - place page va).toNat < size) : SamePage (place page va) byte :=
        (samePage_of_near (by rw [place_mod]; exact hr) hc).symm
      rw [ha]
      apply held.write
      · rfl
      · intro byte hc
        exact ⟨_, hm, hn byte hc⟩
      · intro byte hc ht
        obtain ⟨t, hf, hs⟩ := ht
        have hk := care page rfl hi ⟨t, hf, (hn byte hc).trans hs⟩
        unfold State.Known at hk ⊢
        rwa [← jited_page (hn byte hc), ← dirty_page (hn byte hc)]
      · intro byte hw
        rcases writable_tlbPut hw with hb | ⟨hs, _⟩
        · exact .inl hb
        · exact .inr ⟨_, hm, hs.symm⟩
    · have ha : physAccess board (place page va) = none := if_neg hi
      rw [ha]
      exact held.storeRegion hr

theorem Coherent.hit (hc : Coherent board s) {size : Nat} (hit : s.vm.Hits va .write)
    (hr : va.toNat % 4096 + size ≤ 4096) (care : HitCareful s (physOf board s.vm va) size) :
    Coherent board (s.overwrite (physOf board s.vm va) size) := by
  apply hc.overwrite
  intro byte hn
  refine ⟨fun pc b hf hs => ?_, care byte hn⟩
  exact hc.dirty_of_writable hf hs (writable_near hit hr hn)

theorem firstPart_room : va.toNat % 4096 + firstPart va ≤ 4096 := by
  rw [firstPart, bitMask, toNat_and_low_mask va (by decide), pageShift]
  omega

theorem secondPart_room {log : Fin 7} :
    (secondPart va).toNat % 4096 + (2 ^ log.val - firstPart va) ≤ 4096 := by
  have hm : (va &&& bitMask pageShift).toNat = va.toNat % 4096 := by
    rw [bitMask, toNat_and_low_mask va (by decide)]
    rfl
  have start : (secondPart va).toNat % 4096 = 0 := by
    rw [secondPart, toNat_add, toNat_sub]
    have hp : (0x1000 : Addr).toNat = 4096 := rfl
    omega
  have hs : ∀ log : Fin 7, 2 ^ log.val ≤ 64 := by decide
  have hb := hs log
  omega

theorem Coherent.fill (hc : Coherent board s) {ac : Access}
    (care : ∀ page, fr = some page → ac ≠ .exec → ac = .read ∧
      (s.vm.Hits va .write → SamePage (place page va) (physOf board s.vm va))) : Coherent board (s.fill board va ac fr) := by
  unfold State.fill
  cases fr with
  | none => exact hc
  | some page =>
    rw [bind_some]
    by_cases hi : InMem board.mem (place page va)
    · have hs : physAccess board (place page va) = some (hostPtr board.mem (place page va)) := if_pos hi
      rw [hostOf_ram hs]
      apply hc.tlb
      · rfl
      intro byte hw
      rcases writable_tlbPut hw with hb | ⟨same, hn, hl⟩
      · exact .inl hb
      · right
        intro pc b hf hh
        obtain ⟨hr, hk⟩ := care page rfl hn
        have hit := hl hr
        exact hc.dirty_of_writable hf ((hk hit).symm.trans (same.symm.trans hh)) ⟨va, hit, rfl⟩
    · have hs : physAccess board (place page va) = none := if_neg hi
      rw [hostOf, hs]
      cases direct : (mmioFind s.vm.mmioDevs (place page va)).bind (·.direct (place page va)) with
      | none => exact hc
      | some ptr =>
        obtain ⟨dev, found, direct⟩ := bind_eq_some_iff.mp direct
        apply hc.outside
        · rfl
        · exact fun byte => writable_region hc.regions found direct

theorem dirty_cleaned {heap : Heap} (hc : heap.Covers board.mem) (inside : InMem board.mem pc)
    (hi : InMem board.mem physPc) (ha : ¬SamePage pc physPc) (hd : heap.dirty pc) :
    heap.dirtyPages.set (heap.word physPc) (bit physPc) false (heap.word pc) (bit pc) := by
  unfold Bitmap.set
  rw [if_neg]
  · exact hd
  · rintro ⟨hw, hb⟩
    exact ha (samePage_of_slot board.addrAligned hc inside hi hw hb)

theorem Coherent.blockLookup (hc : Coherent board s) (hi : InMem board.mem physPc) (idle : s.trace = none)
    : Coherent board { s with heap := (s.heap.blockLookup physPc).2 } := by
  unfold Heap.blockLookup
  split
  · refine ⟨hc.regions, hc.tracked, hc.covers, ?_, ?_⟩
    · intro pc b hf
      change (if vpnOf pc = vpnOf physPc then none else s.heap.blocks pc) = some b at hf
      split at hf
      · cases hf
      · rename_i ha
        have hh := hc.held pc b hf
        refine ⟨hh.inside, hh.page, hh.noticed, ?_⟩
        rcases hh.current with hd | hr
        · exact .inl (dirty_cleaned hc.covers hh.inside hi ha hd)
        · exact .inr hr
    · intro t ht
      rw [idle] at ht
      cases ht
  · exact hc

theorem Coherent.retrace (hc : Coherent board s) {trace : Option Trace} (ht : ∀ t, trace = some t → Traced board s t)
    (jtlb : BitVec 8 → Option Addr) (blockEnds : Bool) : Coherent board { s with trace, jtlb, blockEnds } := by
  refine ⟨hc.regions, hc.tracked, hc.covers, fun pc b hf => ?_, fun t hf => ?_⟩
  · have hh := hc.held pc b hf
    exact ⟨hh.inside, hh.page, hh.noticed, hh.current⟩
  · have ht := ht t hf
    exact ⟨ht.inside, ht.page, ht.noticed, ht.current⟩

theorem Coherent.startTrace (hc : Coherent board s) (hi : InMem board.mem physPc) :
    Coherent board { s with trace := some ⟨pc, physPc, ⟨0, [], false, false⟩⟩ } := by
  refine hc.retrace (fun t hf => ?_) _ _
  cases hf
  exact ⟨hi, fun byte hm => absurd hm List.not_mem_nil, fun ho => ho, fun hs => Bool.noConfusion hs⟩

theorem Coherent.stopTrace (hc : Coherent board s) : Coherent board { s with trace := none } := by
  refine hc.retrace (fun t hf => ?_) _ _
  cases hf

theorem Coherent.other (hc : Coherent board s) (jtlb : BitVec 8 → Option Addr) (blockEnds : Bool) :
    Coherent board { s with jtlb, blockEnds } := hc.retrace hc.traced _ _

theorem Coherent.lookup (hc : Coherent board s) (care : Careful board s (.lookup pc fr))
    : Coherent board (s.lookup board pc fr) := by
  unfold State.lookup
  split
  · exact hc
  · rename_i hm
    have idle : s.trace = none := by
      cases trace : s.trace with
      | none => rfl
      | some trace => simp [trace] at hm
    cases ht : virtTranslateE board s.vm pc fr with
    | none => exact hc
    | some physPc =>
      have hi := care physPc ht
      have hl := hc.blockLookup hi idle
      dsimp only
      cases hr : s.heap.blockLookup physPc with
      | mk f heap =>
        rw [hr] at hl
        cases f with
        | some b => exact hl.other _ s.blockEnds
        | none => exact (hl.startTrace hi).other _ false

theorem flushCache_coherent (hc : Coherent board s) (hi : s.trace = none) :
    Coherent board { s with heap := s.heap.flushCache } := by
  refine ⟨hc.regions, hc.tracked, hc.covers, fun pc b hf => (nomatch hf), fun t hf => ?_⟩
  rw [hi] at hf
  cases hf

theorem Coherent.blockFinalize (hc : Coherent board s) {t : Trace} {b : Block} {heap : Heap}
    (ht : Traced board s t) (hs : b = { t.block with size := b.size })
    (care : s.heap.dirty t.physPc ∨ Unwritable board s.vm t.physPc) (hi : s.trace = none)
    (hp : s.heap.blockFinalize t.physPc b = some heap) : Coherent board { s with heap } := by
  unfold Heap.blockFinalize at hp
  split at hp
  · cases hp
  · rw [markJitedPage, if_pos (show s.heap.tracked from hc.tracked)] at hp
    cases hp
    have hj (pc : Addr) (set : s.heap.jited pc) :
        s.heap.jitedPages.set (s.heap.word t.physPc) (bit t.physPc) true (s.heap.word pc) (bit pc) := by
      unfold Bitmap.set
      split
      · rfl
      · exact set
    refine ⟨hc.regions, hc.tracked, hc.covers, fun pc o hf => ?_, fun t hf => ?_⟩
    · change (if pc = t.physPc then some b else s.heap.blocks pc) = some o at hf
      split at hf
      · rename_i here
        cases hf
        subst here
        refine ⟨ht.inside, ?_, ?_, ?_⟩
        · rw [hs]
          exact ht.page
        · rw [hs]
          exact ht.noticed
        · by_cases hd : s.heap.dirty t.physPc
          · exact .inl hd
          · refine .inr ⟨?_, ?_, care.resolve_left hd⟩
            · exact if_pos ⟨rfl, rfl⟩
            · rw [hs]
              cases stale : t.block.overwritten with
              | false => rfl
              | true => exact absurd (ht.current stale) hd
      · have hh := hc.held pc o hf
        refine ⟨hh.inside, hh.page, hh.noticed, ?_⟩
        rcases hh.current with hd | ⟨set, hr⟩
        · exact .inl hd
        · exact .inr ⟨hj pc set, hr⟩
    · rw [hi] at hf
      cases hf

theorem Coherent.dispatch (hc : Coherent board s) {tail : Nat} (care : Careful board s (.dispatch pc tail))
    : Coherent board (s.dispatch pc tail) := by
  unfold State.dispatch
  cases ht : s.trace with
  | none => exact hc
  | some trace =>
    have hs := hc.stopTrace
    have traced : Traced board { s with trace := none } trace := by
      have ho := hc.traced trace ht
      exact ⟨ho.inside, ho.page, ho.noticed, ho.current⟩
    dsimp only
    split
    · suffices hf : Coherent board (s.finalize trace tail) from hf.other _ true
      unfold State.finalize
      dsimp only
      split
      · exact hs
      · cases hp : s.heap.blockFinalize trace.physPc { trace.block with size := trace.block.size + tail } with
        | some heap =>
          have hf := hs.blockFinalize traced rfl (care trace ht) rfl hp
          exact hf.other _ s.blockEnds
        | none => exact (flushCache_coherent hs rfl).other _ s.blockEnds
    · have he := hc.other s.jtlb true
      rw [ht] at he
      exact he

theorem Coherent.extend (hc : Coherent board s) {b : List Addr} {size : Nat} {ends : Bool}
    (care : Careful board s (.extend b size ends)) : Coherent board (s.extend b size ends) := by
  unfold State.extend
  cases trace' : s.trace with
  | none => exact hc
  | some t =>
    have ht := hc.traced t trace'
    refine hc.retrace (fun t' hf => ?_) _ _
    cases hf
    refine ⟨ht.inside, fun byte hm => ?_, ht.noticed, ht.current⟩
    rcases List.mem_append.mp hm with ho | hn
    · exact ht.page byte ho
    · exact care t trace' byte hn

theorem Coherent.expire (hc : Coherent board s) : Coherent board (s.mapBlocks Block.expire) := by
  have hn (b : Block) (ho : b.outdated → b.overwritten) : b.expire.outdated → b.expire.overwritten := by
    simp [Block.expire]
    rintro (he | now)
    · exact ho he
    · exact now
  refine ⟨hc.regions, hc.tracked, hc.covers, fun pc b hf => ?_, fun t hf => ?_⟩
  · obtain ⟨be, hk, rfl⟩ := map_eq_some_iff.mp hf
    have hh := hc.held pc be hk
    exact ⟨hh.inside, hh.page, hn _ hh.noticed, hh.current⟩
  · obtain ⟨be, hk, rfl⟩ := map_eq_some_iff.mp hf
    have ht := hc.traced be hk
    exact ⟨ht.inside, ht.page, hn _ ht.noticed, ht.current⟩

theorem Coherent.fenceI (h : Coherent board s) : Coherent board s.fenceI := by
  unfold State.fenceI
  dsimp only
  split
  · exact (flushCache_coherent h.expire.stopTrace rfl).other _ _
  · exact h.expire.other _ _

theorem Coherent.writeRam (hc : Coherent board s) {dest size : Addr}
    (care : Careful board s (.writeRam dest size)) : Coherent board (s.writeRam board dest size) := by
  unfold State.writeRam
  split
  · exact hc.write rfl care.1 care.2 fun byte hw => .inl hw
  · exact hc

theorem RegionsApart.move {devs : List MmioDev} (apart : RegionsApart board devs) (bar : Nat) (addr : Addr) :
    RegionsApart board (moveRegion devs bar addr) := by
  intro dev member
  obtain ⟨i, at_⟩ := List.mem_iff_getElem?.mp member
  rw [moveRegion, List.getElem?_modify] at at_
  obtain ⟨before, there, rfl⟩ := map_eq_some_iff.mp at_
  have kept := apart before (List.mem_of_getElem? there)
  split
  · exact kept
  · exact kept

theorem Coherent.moveRegion (coherent : Coherent board s) (bar : Nat) (addr : Addr) :
    Coherent board { s with vm := { s.vm with mmioDevs := Rvvm.moveRegion s.vm.mmioDevs bar addr } } := by
  refine ⟨coherent.regions.move bar addr, coherent.tracked, coherent.covers, fun pc block found => ?_, fun trace found => ?_⟩
  · have held := coherent.held pc block found
    exact ⟨held.inside, held.page, held.noticed, held.current⟩
  · have traced := coherent.traced trace found
    exact ⟨traced.inside, traced.page, traced.noticed, traced.current⟩

theorem step_coherent (board : Board) (s : State) (e : Event) (care : Careful board s e)
    (hc : Coherent board s) : Coherent board (step board s e) := by
  cases e with
  | store va log fr f' =>
    simp only [Careful] at care
    simp [step, State.store]
    split at care
    · rename_i hh
      rw [if_pos hh]
      exact hc.hit hh.1 (aligned_room hh.2) care
    · rename_i hm
      rw [if_neg hm]
      split at care
      · rename_i hi
        rw [if_pos hi]
        exact hc.storeInPage (blockInPage_room hi) care
      · rename_i cross
        rw [if_neg cross]
        have first := hc.storeInPage firstPart_room care.1
        exact first.storeInPage secondPart_room care.2
  | rmw va log fr =>
    simp only [Careful] at care
    simp [step, State.rmw]
    split
    · rename_i hw
      split at care
      · rename_i hh
        rw [if_pos hh]
        exact hc.hit hh (aligned_room hw) care
      · rename_i hm
        rw [if_neg hm]
        exact hc.storeInPage (aligned_room hw) care
    · exact hc
  | load va fr => exact hc.fill fun page found _ => ⟨rfl, care page found⟩
  | fetch va fr => exact hc.fill fun page found hn => absurd rfl hn
  | flushTlb =>
    have hf : Coherent board { s with vm := tlbFlush s.vm } := by
      apply hc.tlb
      · rfl
      rintro byte ⟨va, hh, _⟩
      exact absurd hh (not_hits_emptyTlb rfl va .write)
    exact hf.other _ _
  | flushPage va =>
    have hf : Coherent board { s with vm := tlbFlushPage s.vm va } := by
      apply hc.tlb (sameSpace_tlbFlushPage s.vm va).regions
      rintro byte ⟨o, hh, ht⟩
      obtain ⟨hb, hp⟩ := hits_tlbFlushPage hh
      refine .inl ⟨o, hb, ?_⟩
      rw [← ht, physOf, physOf, hp]
    simp [step, State.tlbFlushPage]
    split
    · exact hf.other _ _
    · exact hf
  | moveRegion bar addr => exact hc.moveRegion bar addr
  | writeRam dest size => exact hc.writeRam care
  | getDmaPtr addr size =>
    simp [step, State.getDmaPtr]
    split
    · exact hc.marked (markDirtyMem_marked _ _ _)
    · exact hc
  | deviceWrite addr size =>
    apply hc.overwrite
    intro byte near
    refine ⟨fun pc b found hs => ?_, care.1 byte near⟩
    rcases hc.known found with hj | hd
    · rw [← jited_page hs, care.2 byte near] at hj
      cases hj
    · exact hd
  | lookup pc fr => exact hc.lookup care
  | dispatch pc tail => exact hc.dispatch care
  | extend byt size ends => exact hc.extend care
  | discard => exact hc.stopTrace
  | endBlock => exact hc.other _ true
  | fenceI => exact hc.fenceI

end

theorem Coherent.lookup_current {board : Board} {s : State} (hc : Coherent board s) {pc : Addr} {b : Block}
    (hf : (s.heap.blockLookup pc).1 = some b) : b.overwritten = false ∧ b.outdated = false := by
  unfold Heap.blockLookup at hf
  split at hf
  · cases hf
  · rename_i clean
    have hh := hc.held pc b hf
    rcases hh.current with hd | ⟨_, now, _⟩
    · exact absurd (by rw [pageNeedsFlush, hc.tracked, hd]; rfl) clean
    · refine ⟨now, ?_⟩
      cases ho : b.outdated with
      | false => rfl
      | true =>
        have hs := hh.noticed ho
        rw [now] at hs
        cases hs

/-- No block of a Harvard cache has lived through a `fence.i`. -/
structure Renewed (s : State) : Prop where
  harvard : s.harvard
  blocks : ∀ pc block, s.heap.blocks pc = some block → block.outdated = false
  trace : ∀ trace, s.trace = some trace → trace.block.outdated = false

section
variable {bd : Board} {s : State}

theorem Renewed.of {s' : State} (hr : Renewed s) (hh : s'.harvard = s.harvard)
    (hb : s'.heap.blocks = s.heap.blocks) (ht : s'.trace = s.trace) : Renewed s' := by
  refine ⟨hh.trans hr.harvard, ?_, ?_⟩
  · rw [hb]
    exact hr.blocks
  · rw [ht]
    exact hr.trace

theorem Renewed.markDirtyMem (h : Renewed s) (addr size : Addr) : Renewed (s.markDirtyMem addr size) :=
  h.of rfl (markDirtyMem_marked s.heap addr size).blocks rfl

theorem Renewed.overwrite (hr : Renewed s) (addr : Addr) (size : Nat) : Renewed (s.overwrite addr size) := by
  refine ⟨hr.harvard, fun pc bl hf => ?_, fun t hf => ?_⟩
  · obtain ⟨b, hk, rfl⟩ := map_eq_some_iff.mp hf
    exact hr.blocks pc b hk
  · obtain ⟨b, hk, rfl⟩ := map_eq_some_iff.mp hf
    exact hr.trace b hk

theorem Renewed.storeInPage (h : Renewed s) (va : Addr) (size : Nat) (frame : Option Addr) :
    Renewed (s.storeInPage bd va size frame) := by
  simp only [State.storeInPage, State.storeRegion]
  repeat' split
  · exact h
  · exact h
  · exact h
  · refine Renewed.overwrite ?_ _ _
    exact h.of rfl rfl rfl
  · refine Renewed.markDirtyMem (Renewed.overwrite ?_ _ _) _ _
    exact h.of rfl rfl rfl

theorem Renewed.finalize (hr : Renewed s) {t : Trace} (ht : s.trace = some t) (tail : Nat) :
    Renewed (s.finalize t tail) := by
  simp only [State.finalize]
  split
  · exact ⟨hr.harvard, hr.blocks, fun t hf => (nomatch hf)⟩
  · cases hp : s.heap.blockFinalize t.physPc { t.block with size := t.block.size + tail } with
    | none => exact ⟨hr.harvard, fun pc b hf => (nomatch hf), fun t hf => (nomatch hf)⟩
    | some heap =>
      refine ⟨hr.harvard, fun pc b hf => ?_, fun t hf => (nomatch hf)⟩
      change heap.blocks pc = some b at hf
      simp only [Heap.blockFinalize, markJitedPage] at hp
      repeat' split at hp
      all_goals cases hp
      all_goals
        dsimp only at hf
        split at hf
        · cases hf
          exact hr.trace t ht
        · exact hr.blocks pc b hf

theorem Renewed.lookup (hr : Renewed s) (pc : Addr) (frame : Option Addr) : Renewed (s.lookup bd pc frame) := by
  have hk (physPc pc : Addr) (b : Block) (found : (s.heap.blockLookup physPc).2.blocks pc = some b) :
      b.outdated = false := by
    unfold Heap.blockLookup at found
    split at found
    · dsimp only at found
      split at found
      · cases found
      · exact hr.blocks pc b found
    · exact hr.blocks pc b found
  simp only [State.lookup]
  split
  · exact hr
  · cases virtTranslateE bd s.vm pc frame with
    | none => exact hr
    | some physPc =>
      have hl := hk physPc
      dsimp only
      cases hre : s.heap.blockLookup physPc with
      | mk found heap =>
        rw [hre] at hl
        cases found with
        | some b => exact ⟨hr.harvard, hl, hr.trace⟩
        | none =>
          refine ⟨hr.harvard, hl, fun t found => ?_⟩
          cases found
          rfl

theorem step_renewed (bd : Board) (s : State) (e : Event) (hr : Renewed s) : Renewed (step bd s e) := by
  cases e with
  | store va log frame f' =>
    simp [step, State.store]
    split
    · exact hr.overwrite _ _
    · split
      · exact hr.storeInPage _ _ _
      · exact (hr.storeInPage _ _ _).storeInPage _ _ _
  | rmw va log frame =>
    simp [step, State.rmw]
    split
    · split
      · exact hr.overwrite _ _
      · exact hr.storeInPage _ _ _
    · exact hr
  | load va frame | fetch va frame =>
    simp [step, State.fill]
    split
    · exact hr
    · exact hr.of rfl rfl rfl
  | flushTlb | endBlock | moveRegion bar addr => exact hr.of rfl rfl rfl
  | flushPage va =>
    simp [step, State.tlbFlushPage]
    split <;> exact hr.of rfl rfl rfl
  | writeRam dest size =>
    simp [step, State.writeRam]
    split
    · exact (hr.overwrite _ _).markDirtyMem _ _
    · exact hr
  | getDmaPtr addr size =>
    simp [step, State.getDmaPtr]
    split
    · exact hr.markDirtyMem _ _
    · exact hr
  | deviceWrite addr size => exact hr.overwrite _ _
  | lookup pc frame => exact hr.lookup pc frame
  | dispatch pc tail =>
    simp [step, State.dispatch]
    split
    · exact hr
    · rename_i t ht
      split
      · exact (hr.finalize ht tail).of rfl rfl rfl
      · exact hr.of rfl rfl rfl
  | extend byt size ends =>
    simp [step, State.extend]
    split
    · exact hr
    · rename_i t ht
      refine ⟨hr.harvard, hr.blocks, fun t' hf => ?_⟩
      cases hf
      exact hr.trace t ht
  | discard =>
    refine ⟨hr.harvard, hr.blocks, fun t hf => ?_⟩
    cases hf
  | fenceI =>
    have flag : (s.mapBlocks Block.expire).harvard := hr.harvard
    simp [step, State.fenceI]
    rw [if_pos flag]
    refine ⟨hr.harvard, fun pc b hf => ?_, fun t hf => ?_⟩ <;> cases hf

theorem Renewed.lookup_current (hr : Renewed s) {pc : Addr} {b : Block}
    (hf : (s.heap.blockLookup pc).1 = some b) : b.outdated = false := by
  unfold Heap.blockLookup at hf
  split at hf
  · cases hf
  · exact hr.blocks pc b hf

theorem prepare_renewed (bd : Board) (vm : Vm) (b : Bool) (c : Nat) : Renewed (prepare bd vm true b c) :=
  ⟨rfl, nofun, nofun⟩

end

/-- What keeps a program away from blocks that a `fence.i` should have removed: a cache that `fence.i` flushes, or regions
  apart from RAM, page bitmaps as large as RAM and steps that the page tracking sees. -/
def Safe (board : Board) (vm : Vm) (harvard builtin : Bool) (cacheSize : Nat) (events : List Event) : Prop :=
  harvard ∨ RegionsApart board vm.mmioDevs ∧ board.mem.size.toNat + 0x1FFFF < 2 ^ 64 ∧
    (builtin = false ∨ Heap.pageUnits board.mem.size &&& (Heap.pageUnits board.mem.size - 1) = 0) ∧
    StepsMeet (step board) (Careful board) (State.prepare board vm harvard builtin cacheSize) events

/-- In a safe run no lookup finds a block whose bytes were overwritten before a `fence.i`. -/
theorem lookup_never_outdated (board : Board) (vm : Vm) (harvard builtin : Bool) (cacheSize : Nat) (events : List Event)
    (safe : Safe board vm harvard builtin cacheSize events) (physPc : Addr) (block : Block)
    (found : ((run (step board) (prepare board vm harvard builtin cacheSize) events).heap.blockLookup physPc).1 =
      some block) : block.outdated = false := by
  cases harvard with
  | true =>
    have renewed : Renewed (run (step board) (prepare board vm true builtin cacheSize) events) :=
      run_invariant (step_renewed board) (prepare_renewed board vm builtin cacheSize)
    exact renewed.lookup_current found
  | false =>
    obtain ⟨apart, fits, rounds, careful⟩ := safe.resolve_left Bool.false_ne_true
    have start : Coherent board (prepare board vm false builtin cacheSize) :=
      ⟨apart, rfl, initMemtracking_covers fits rounds, nofun, nofun⟩
    have coherent := careful.run_invariant (step_coherent board) start
    exact (coherent.lookup_current found).2

def threeWordBoard : Board :=
  { plainBoard with
    mem := ⟨0x80000000, 0x60000, 0x10000000⟩
    addrAligned := by unfold Aligned; decide
    sizeAligned := by unfold Aligned; decide }

def compileAt (pc : Addr) : List Event :=
  [.dispatch pc 0, .lookup pc (some pc), .extend [pc, pc + 1, pc + 2, pc + 3] 16 false, .dispatch (pc + 4) 0,
    .dispatch (pc + 8) 32]

def boot (builtin : Bool) : State := State.prepare threeWordBoard userPageVm false builtin 4096
def tracedBytes : List Addr := [0x80000000, 0x80000001, 0x80000002, 0x80000003]

theorem compiled_block_current :
    ((run (step threeWordBoard) (boot false) [.lookup 0x80000000 (some 0x80000000), .extend tracedBytes 16 true,
      .dispatch 0x80000004 32, .fenceI]).heap.blockLookup 0x80000000).1 = some ⟨48, tracedBytes, false, false⟩ ∧
      (Block.mk 48 tracedBytes false false).outdated = false := by
  let frame := some 0x80000000
  have found : ((run (step threeWordBoard) (boot false) [.lookup 0x80000000 frame, .extend tracedBytes 16 true,
      .dispatch 0x80000004 32, .fenceI]).heap.blockLookup 0x80000000).1 = some ⟨48, tracedBytes, false, false⟩ := by
    decide +kernel
  have inRam : Careful threeWordBoard (boot false) (.lookup 0x80000000 frame) := by
    intro physPc translated
    have here : virtTranslateE threeWordBoard userPageVm 0x80000000 frame = some 0x80000000 := by decide +kernel
    cases here.symm.trans translated
    decide
  have started : (step threeWordBoard (boot false) (.lookup 0x80000000 frame)).trace =
      some ⟨0x80000000, 0x80000000, ⟨0, [], false, false⟩⟩ := by
    decide +kernel
  have careful : StepsMeet (step threeWordBoard) (Careful threeWordBoard) (boot false)
      [.lookup 0x80000000 frame, .extend tracedBytes 16 true, .dispatch 0x80000004 32, .fenceI] := by
    refine ⟨inRam, ?_, ?_, True.intro, True.intro⟩
    · intro trace traced
      cases started.symm.trans traced
      have onePage : tracedBytes.all (fun byte => vpnOf byte == vpnOf 0x80000000) := by decide
      intro byte member
      exact eq_of_beq (List.all_eq_true.mp onePage byte member)
    · intro trace traced
      right
      rintro byte same ⟨vaddr, hit, -⟩
      exact not_hits_emptyTlb rfl vaddr .write hit
  have apart : RegionsApart threeWordBoard userPageVm.mmioDevs := fun dev member => absurd member List.not_mem_nil
  refine ⟨found, lookup_never_outdated threeWordBoard userPageVm false false 4096 _ ?_ _ _ found⟩
  exact .inr ⟨apart, by decide, .inl rfl, careful⟩

def FindsOutdated (builtin : Bool) (events : List Event) (pc : Addr) : Prop :=
  ((run (step threeWordBoard) (boot builtin) events).heap.blockLookup pc).1.map Block.outdated = some true

instance (builtin : Bool) (events : List Event) (pc : Addr) : Decidable (FindsOutdated builtin events pc) :=
  inferInstanceAs (Decidable (_ = _))

theorem outdated_blocks_found :
    -- code that is changed twice: the second store goes through the write entry that the first one has filled
    FindsOutdated false ([.fetch 0x80000000 (some 0x80000000)] ++ compileAt 0x80000000 ++
      [.store 0x80000000 2 (some 0x80000000) none, .fenceI] ++ compileAt 0x80000000 ++
      [.store 0x80000000 2 none none, .fenceI]) 0x80000000 ∧
    -- a store to the second page of an instruction
    FindsOutdated false (compileAt 0x80000FFE ++ [.store 0x80001000 1 (some 0x80001000) none, .fenceI]) 0x80000FFE ∧
    -- a page of DMA that starts in the middle of a page
    FindsOutdated false (compileAt 0x80001000 ++ [.writeRam 0x80000800 0x1000, .fenceI]) 0x80001000 ∧
    -- a lookup on another page that shares the bit
    FindsOutdated true (compileAt 0x80000000 ++ [.store 0x80000000 2 (some 0x80000000) none,
      .lookup 0x80040000 (some 0x80040000), .discard, .fenceI]) 0x80000000 := by
  decide +kernel

end RiscvEmulators.Rvvm.Jit
