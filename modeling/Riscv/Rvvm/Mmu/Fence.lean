import Mathlib.Data.List.Induction
import Riscv.Rvvm.Window

namespace RiscvEmulators.Rvvm
open Word Transition BitVec Option

def Vm.leafPlace (board : Board) (vm : Vm) (vaddr : Addr) : Option Addr :=
  (vm.leafOf board vaddr).map fun found => found.2.place

theorem markBits_byte (vm : Vm) (access : Access) :
    (markBits (vm.accessBits access)).setWidth 8 = if access = .write then 0xC0#8 else 0x40#8 := by
  unfold Vm.accessBits
  cases access with
  | read =>
    split
    · decide
    · decide
  | write => simp only [reduceCtorEq, and_false]; decide
  | exec => simp only [reduceCtorEq, and_false]; decide

def Event.Refills (event : Event) (vaddr : Addr) (kind : Access) : Prop :=
  ∃ access ∈ event.accesses, SamePage vaddr access.1 ∧ RecordedAs kind access.2

section
variable {vm : Vm} {addr vaddr : Addr} {kind : Access}

theorem flushPage_drops (hs : SamePage vaddr addr) : ¬(tlbFlushPage vm addr).Hits vaddr kind := by
  have hp : vpnOf vaddr = vpnOf addr := hs
  intro hh
  unfold Vm.Hits at hh
  rw [entryOf_tlbFlushPage, ← hp, entryOf_setEntry_same] at hh
  have hd (tag : Addr) : (if tag = vpnOf vaddr then vpnOf vaddr - 1 else tag) ≠ vpnOf vaddr := by
    split
    · exact pred_ne _
    · assumption
  cases kind <;> exact hd _ hh

theorem flushPage_keeps (ho : ¬SamePage vaddr addr) (hit : vm.Hits vaddr kind) :
    (tlbFlushPage vm addr).Hits vaddr kind := by
  unfold Vm.Hits at hit ⊢
  rw [entryOf_tlbFlushPage]
  by_cases hs : tlbSlot (vpnOf vaddr) = tlbSlot (vpnOf addr)
  · rw [← hs, entryOf_setEntry_same]
    have hk {tag : Addr} (ht : tag = vpnOf vaddr) :
        (if tag = vpnOf addr then vpnOf addr - 1 else tag) = vpnOf vaddr := by
      rw [if_neg (fun hh => ho (ht.symm.trans hh)), ht]
    cases kind <;> exact hk hit
  · rw [entryOf_setEntry_other vm _ hs]
    exact hit

end

section
variable {bd : Board} {vm vm' vm'' : Vm}

def NoNewHits (vm vm' : Vm) : Prop := ∀ addr kind, vm'.Hits addr kind → vm.Hits addr kind

theorem noNewHits_same (hs : vm'.tlb = vm.tlb) : NoNewHits vm vm' := by
  intro addr kind hh
  rwa [Vm.Hits, Vm.entryOf, hs] at hh

theorem noNewHits_empty (he : vm'.tlb = emptyTlb) : NoNewHits vm vm' :=
  fun addr kind hh => absurd hh (not_hits_emptyTlb he addr kind)

theorem Turned.hits {k : Access → Prop} (ht : Turned k vm vm') : NoNewHits vm vm' := by
  cases ht with
  | emptied tlb _ _ => exact noNewHits_empty tlb
  | eased tlb _ _ _ _ => exact noNewHits_same tlb

def unwatched (_ : Access) : Prop := False

variable {vm : Vm}

theorem sfenceVma_hits {addr : Option Addr} : NoNewHits vm (sfenceVma vm addr) := by
  unfold sfenceVma
  split
  · split
    · exact fun vaddr kind h => (hits_tlbFlushPage h).1
    · exact noNewHits_empty rfl
  · exact noNewHits_same rfl

theorem settle_hits {r : Vm × Outcome} : NoNewHits r.1 (settle bd r) := by
  obtain ⟨vm, o⟩ := r
  cases o with
  | served => exact noNewHits_same rfl
  | refused => exact noNewHits_same rfl
  | fault c => exact (riscvTrap_turned fun _ h => h.elim : Turned unwatched _ _).hits

theorem step_hits {e : Event} {addr : Addr} {kind : Access} (hh : (step bd vm e).Hits addr kind) :
    vm.Hits addr kind ∨ e.Refills addr kind := by
  have ho (r : Vm × Outcome) (hs : r.1 = e.operate bd vm)
      (ha : (settle bd r).Hits addr kind) : vm.Hits addr kind ∨ e.Refills addr kind := by
    have hb := settle_hits addr kind ha
    rw [hs] at hb
    rcases (operate_operated).hits addr kind hb with old | ⟨ac, hm, hp, hr, _⟩
    · exact .inl old
    · exact .inr ⟨ac, hm, hp, hr⟩
  have hc (vm' : Vm) (ht : Turned unwatched vm vm') (ha : vm'.Hits addr kind) : vm.Hits addr kind ∨ e.Refills addr kind :=
    .inl (ht.hits addr kind ha)
  cases e with
  | mstatus op d => exact hc _ (csrStatus_turned fun _ h => h.elim).ite hh
  | sstatus op d => exact hc _ (csrStatus_turned fun _ h => h.elim).ite hh
  | satp op d => exact hc _ (csrSatp_turned (.inr (.inr fun _ h => h.elim))).ite hh
  | trap c => exact hc _ (riscvTrap_turned fun _ h => h.elim) hh
  | dispatch p =>
    have ht : Turned unwatched { vm with running := true, trap := false } (step bd vm (.dispatch p)) :=
      handleIrqs_turned p fun _ h => h.elim
    exact .inl (ht.hits addr kind hh)
  | mret => exact hc _ (mret_turned fun _ _ h => h.elim) hh
  | sret => exact hc _ sret_turned hh
  | sfenceVma f => exact .inl (sfenceVma_hits addr kind hh)
  | load vaddr sz => exact ho (loadOp bd vm vaddr sz) rfl hh
  | store vaddr sz => exact ho (storeOp bd vm vaddr sz) rfl hh
  | fetch vaddr l => exact ho (fetchInsn bd vm vaddr l) rfl hh
  | roTranslate vaddr sz b => exact ho (ptrTranslate bd vm vaddr sz .read b) rfl hh
  | rmwTranslate vaddr sz b => exact ho (ptrTranslate bd vm vaddr sz .write b) rfl hh
  | rmwCommit vaddr sz => exact ho ((mmuOp bd vm vaddr sz (plainAttr .write)).1, .served) rfl hh
  | moveRegion bar addr => exact .inl hh

end

section
variable {bd : Board} {lent : Addr → Prop} {vm vm' : Vm} {va : Addr} {ac : Access}

/-- Whatever hits lies in host memory that has been lent to the guest, as all that is mapped now has. -/
structure Backed (board : Board) (lent : Addr → Prop) (vm : Vm) : Prop where
  placed : Placed vm.mmioDevs
  lends : ∀ paddr ptr, hostOf board vm.mmioDevs paddr = some ptr → lent ptr
  hits : ∀ addr kind, vm.Hits addr kind → lent ((vm.entryOf addr).ptr + addr)

theorem Backed.turned {k : Access → Prop} (backed : Backed bd lent vm) (turned : Turned k vm vm') :
    Backed bd lent vm' := by
  cases turned with
  | emptied tlb regions _ =>
    exact ⟨regions ▸ backed.placed, regions ▸ backed.lends, fun addr kind hit => absurd hit (not_hits_emptyTlb tlb addr kind)⟩
  | eased tlb _ regions _ _ =>
    refine ⟨regions ▸ backed.placed, regions ▸ backed.lends, fun addr kind hit => ?_⟩
    rw [Vm.Hits, Vm.entryOf, tlb] at hit
    rw [Vm.entryOf, tlb]
    exact backed.hits addr kind hit

theorem Backed.fills (backed : Backed bd lent vm) (fills : Fills bd vm va ac vm') : Backed bd lent vm' := by
  cases fills with
  | still => exact backed
  | marked _ => exact ⟨backed.placed, backed.lends, backed.hits⟩
  | filled translated behind _ =>
    refine ⟨backed.placed, backed.lends, fun addr kind hit => ?_⟩
    rcases hits_tlbPut hit with ⟨page, ptr, _⟩ | ⟨old, same⟩
    · -- the page of the filled address lies in one piece of host memory
      have here := served_of_translate translated behind
      have whole := served_page (by exact backed.placed) (SamePage.symm page) here
      obtain ⟨paddr, -, there⟩ := bind_eq_some_iff.mp whole
      rw [ptr, BitVec.sub_eq_add_neg, BitVec.add_assoc, BitVec.add_comm (-va), ← BitVec.sub_eq_add_neg]
      exact backed.lends paddr _ there
    · rw [same]
      exact backed.hits addr kind old

theorem Backed.mmuOp (backed : Backed bd lent vm) {sz : Nat} {attr : Attr} (data : attr.ptr → attr.access ≠ .exec) :
    Backed bd lent (mmuOp bd vm va sz attr).1 :=
  mmuOp_ends backed data (fun _ => backed.fills) fun _ _ _ first => first.fills

theorem backed_settle {r : Vm × Outcome} (backed : Backed bd lent r.1) : Backed bd lent (settle bd r) := by
  obtain ⟨vm, outcome⟩ := r
  cases outcome with
  | served => exact backed
  | refused => exact backed
  | fault cause => exact backed.turned (riscvTrap_turned fun _ h => h.elim : Turned unwatched _ _)

theorem Backed.unless {c : Prop} [Decidable c] {r : Vm × Outcome} (backed : Backed bd lent vm) (after : Backed bd lent r.1) :
    Backed bd lent (settle bd (if c then (vm, .served) else r)) := by
  split
  · exact backed
  · exact backed_settle after

theorem Backed.sfenceVma {addr : Option Addr} (backed : Backed bd lent vm) : Backed bd lent (sfenceVma vm addr) := by
  unfold Rvvm.sfenceVma
  split
  · split
    · rename_i addr
      have regions := (sameSpace_tlbFlushPage vm addr).regions
      refine ⟨regions ▸ backed.placed, regions ▸ backed.lends, fun vaddr kind hit => ?_⟩
      obtain ⟨old, same⟩ := hits_tlbFlushPage hit
      rw [same]
      exact backed.hits vaddr kind old
    · exact ⟨backed.placed, backed.lends, fun vaddr kind hit => absurd hit (not_hits_emptyTlb rfl vaddr kind)⟩
  · exact backed

theorem Backed.step {event : Event} (backed : Backed bd lent vm) (placed : Placed (step bd vm event).mmioDevs)
    (lends : ∀ paddr ptr, hostOf bd (step bd vm event).mmioDevs paddr = some ptr → lent ptr) :
    Backed bd lent (step bd vm event) := by
  have control {vm' : Vm} (turned : Turned unwatched vm vm') : Backed bd lent vm' := backed.turned turned
  cases event with
  | mstatus op d => exact control (csrStatus_turned fun _ h => h.elim).ite
  | sstatus op d => exact control (csrStatus_turned fun _ h => h.elim).ite
  | satp op d => exact control (csrSatp_turned (.inr (.inr fun _ h => h.elim))).ite
  | trap c => exact control (riscvTrap_turned fun _ h => h.elim)
  | dispatch p =>
    have resumed : Backed bd lent { vm with running := true, trap := false } := ⟨backed.placed, backed.lends, backed.hits⟩
    exact resumed.turned (handleIrqs_turned p fun _ h => h.elim : Turned unwatched _ _)
  | mret => exact control (mret_turned fun _ _ h => h.elim)
  | sret => exact control sret_turned
  | sfenceVma f => exact backed.sfenceVma
  | load vaddr sz => exact backed.unless (backed.mmuOp (plainAttr_ptr .read))
  | store vaddr sz => exact backed.unless (backed.mmuOp (plainAttr_ptr .write))
  | fetch vaddr l =>
    exact backed_settle (fetchInsn_ends backed (backed.mmuOp (plainAttr_ptr .exec))
      fun _ first => first.mmuOp (plainAttr_ptr .exec))
  | roTranslate vaddr sz b => exact backed.unless (backed.mmuOp nofun)
  | rmwTranslate vaddr sz b => exact backed.unless (backed.mmuOp nofun)
  | rmwCommit vaddr sz => exact backed.mmuOp (plainAttr_ptr .write)
  | moveRegion bar addr => exact ⟨placed, lends, backed.hits⟩

end

section
variable {bd : Board} {vm : Vm}

theorem hits_put {vm : Vm} {vaddr ptr : Addr} {kind : Access} : (tlbPut vm vaddr ptr kind).Hits vaddr kind := by
  unfold Vm.Hits tlbPut
  rw [entryOf_setEntry_same]
  cases kind <;> rfl

theorem mmuOpInPage_fills {vaddr : Addr} {kind : Access} (back : (served bd vm vaddr kind).isSome) :
    (mmuOpInPage bd vm vaddr (plainAttr kind)).1.Hits vaddr kind ∧
      (mmuOpInPage bd vm vaddr (plainAttr kind)).2 = .served := by
  obtain ⟨ptr, hs⟩ := isSome_iff_exists.mp back
  obtain ⟨pa, ht, hb⟩ := bind_eq_some_iff.mp hs
  obtain ⟨⟨t, host⟩, hw, same⟩ := map_eq_some_iff.mp ht
  subst same
  unfold mmuOpInPage plainAttr
  rw [hw]
  dsimp only
  unfold hostOf at hb
  cases hi : physAccess bd t with
  | some f => exact ⟨hits_put, rfl⟩
  | none =>
    rw [hi] at hb
    obtain ⟨dev, f, hd⟩ := bind_eq_some_iff.mp hb
    simp only [mmioScan, f, map_some, hd]
    exact ⟨hits_put, rfl⟩

theorem load_fills {vaddr : Addr} (empty : vm.tlb = emptyTlb) (serves : (served bd vm vaddr .read).isSome) :
    (step bd vm (.load vaddr 1)).Hits vaddr .read ∧ (step bd vm (.load vaddr 1)).control = vm.control := by
  have missed : ¬vm.Hits vaddr .read := not_hits_emptyTlb empty vaddr .read
  have within : blockInPage vaddr 1 := by
    have offset := offset_toNat vaddr
    simp only [blockInPage, offset, decide_eq_true_eq]
    omega
  obtain ⟨hit, done⟩ := mmuOpInPage_fills serves
  have load : loadOp bd vm vaddr 1 = mmuOpInPage bd vm vaddr (plainAttr .read) := by
    rw [loadOp, if_neg (fun hits => missed hits.1), mmuOp, if_pos within]
  have settled : step bd vm (.load vaddr 1) = (mmuOpInPage bd vm vaddr (plainAttr .read)).1 := by
    rw [step, load]
    generalize mmuOpInPage bd vm vaddr (plainAttr .read) = result at done
    obtain ⟨vm', outcome⟩ := result
    cases done
    rfl
  rw [settled]
  exact ⟨hit, (operated_fills (mmuOpInPage_does (plainAttr_ptr .read))).control⟩

end

section
variable {board : Board} {start : Vm}

def laterStep (board : Board) (vm : Vm) (turn : Event × (Addr → BitVec 8)) : Vm :=
  step board { vm with host := turn.2 } turn.1

theorem later_misses {vm : Vm} {addr : Addr} {kind : Access} {later : List (Event × (Addr → BitVec 8))}
    (untouched : ∀ turn ∈ later, ¬turn.1.Refills addr kind) (missed : ¬vm.Hits addr kind) :
    ¬(run (laterStep board) vm later).Hits addr kind := by
  induction later generalizing vm with
  | nil => exact missed
  | cons turn later ih =>
    apply ih (fun turn member => untouched turn (List.mem_cons_of_mem _ member))
    intro hit
    rcases step_hits hit with old | refills
    · exact missed old
    · exact untouched turn List.mem_cons_self refills

def LentIn (board : Board) (start : Vm) (turns : List (Event × (Addr → BitVec 8))) (ptr : Addr) : Prop :=
  ∃ before, before <+: turns ∧ ∃ paddr, hostOf board (run (laterStep board) start before).mmioDevs paddr = some ptr

theorem run_backed {turns : List (Event × (Addr → BitVec 8))} (flushed : start.tlb = emptyTlb)
    (placed : ∀ before, before <+: turns → Placed (run (laterStep board) start before).mmioDevs)
    {before : List (Event × (Addr → BitVec 8))} (sooner : before <+: turns) :
    Backed board (LentIn board start turns) (run (laterStep board) start before) := by
  have lends {before : List (Event × (Addr → BitVec 8))} (sooner : before <+: turns) (paddr ptr : Addr)
      (behind : hostOf board (run (laterStep board) start before).mmioDevs paddr = some ptr) :
      LentIn board start turns ptr := ⟨before, sooner, paddr, behind⟩
  -- the induction adds one turn at the end, so that what comes before it is a run of its own
  induction before using List.reverseRecOn with
  | nil => exact ⟨placed [] sooner, lends sooner, fun addr kind hit => absurd hit (not_hits_emptyTlb flushed addr kind)⟩
  | append_singleton before turn ih =>
    have backed := ih ((List.prefix_append before [turn]).trans sooner)
    have here := placed _ sooner
    have lent := lends sooner
    rw [run_append] at here lent ⊢
    have stored : Backed board (LentIn board start turns) { run (laterStep board) start before with host := turn.2 } :=
      ⟨backed.placed, backed.lends, backed.hits⟩
    exact stored.step here lent

/-- Whatever a guest does, and whatever is written to memory meanwhile, a hit leads to host memory that was lent to the
  guest, now or earlier in the run. -/
theorem tlb_hit_backed (board : Board) (start : Vm) (turns : List (Event × (Addr → BitVec 8)))
    (flushed : start.tlb = emptyTlb)
    (placed : ∀ before, before <+: turns → Placed (run (laterStep board) start before).mmioDevs)
    (vaddr : Addr) (access : Access) (hit : (run (laterStep board) start turns).Hits vaddr access) :
    ∃ before, before <+: turns ∧ ∃ paddr, hostOf board (run (laterStep board) start before).mmioDevs paddr =
      some (((run (laterStep board) start turns).entryOf vaddr).ptr + vaddr) :=
  (run_backed flushed placed (List.prefix_refl turns)).hits vaddr access hit

theorem loaded_page_backed : ∃ before, before <+: [(Event.load 0x1000 8, userPageVm.host)] ∧ ∃ paddr,
    hostOf plainBoard (run (laterStep plainBoard) userPageVm before).mmioDevs paddr =
      some (((run (laterStep plainBoard) userPageVm [(.load 0x1000 8, userPageVm.host)]).entryOf 0x1008).ptr + 0x1008) := by
  apply tlb_hit_backed plainBoard userPageVm _ rfl _ 0x1008 .read (by decide +kernel)
  intro before sooner
  have regions : (run (laterStep plainBoard) userPageVm before).mmioDevs = [] := by
    rcases List.prefix_cons_iff.mp sooner with rfl | ⟨rest, rfl, nothing⟩
    · rfl
    · rw [List.prefix_nil.mp nothing]
      decide +kernel
  rw [regions]
  exact placed_nil

def SharesLeaf (board : Board) (vm : Vm) (addr addr' : Addr) : Prop :=
  ∃ place, vm.leafPlace board addr = some place ∧ vm.leafPlace board addr' = some place

/-- The same page tables, in whatever status, privilege and state of the translation cache. -/
structure SamePaging (tables vm : Vm) : Prop where
  mode : vm.mmuMode = tables.mmuMode
  root : vm.rootPageTable = tables.rootPageTable
  host : vm.host = tables.host

/-- An access of the event misses, is translated by the leaf PTE of `fenced`, and leaves an entry. -/
def Event.Makes (event : Event) (board : Board) (vm : Vm) (fenced addr : Addr) (kind : Access) : Prop :=
  (step board vm event).Hits addr kind ∧
    ∃ access ∈ event.accesses, SamePage addr access.1 ∧ RecordedAs kind access.2 ∧ ¬vm.Hits addr access.2 ∧
      vm.Paged access.2 ∧ (served board vm access.1 access.2).isSome ∧ SharesLeaf board vm access.1 fenced

/-- After `sfence.vma` with an address, no entry is left that was made from the leaf PTE of the address in these tables,
  wherever in a run from a flushed cache it was made, and whatever happened to memory and the hart since. -/
def FenceComplete (board : Board) (tables : Vm) (fenced : Addr) : Prop :=
  ∀ (start : Vm) (before : List (Event × (Addr → BitVec 8))) (event : Event) (after later : List (Event × (Addr → BitVec 8)))
    (addr : Addr) (kind : Access), start.tlb = emptyTlb →
    SamePaging tables (run (laterStep board) start before) →
    event.Makes board (run (laterStep board) start before) fenced addr kind →
    mstatusAllowed (run (laterStep board) (step board (run (laterStep board) start before) event) after) statusTvm →
    (∀ turn ∈ after ++ later, ¬turn.1.Refills addr kind) →
    ¬(run (laterStep board) (sfenceVma (run (laterStep board) (step board (run (laterStep board) start before) event) after)
      (some fenced)) later).Hits addr kind

def Reachable (board : Board) (tables : Vm) (addr : Addr) : Prop :=
  ∃ vm kind, SamePaging tables vm ∧ vm.Paged kind ∧ (served board vm addr kind).isSome

theorem SamePaging.leafPlace {tables vm : Vm} (same : SamePaging tables vm) (addr : Addr) :
    vm.leafPlace board addr = tables.leafPlace board addr := by
  rw [Vm.leafPlace, Vm.leafPlace, Vm.leafOf, Vm.leafOf, same.mode, same.root, same.host]

theorem SamePaging.sharesLeaf {tables vm : Vm} (same : SamePaging tables vm) {addr addr' : Addr} :
    SharesLeaf board vm addr addr' ↔ SharesLeaf board tables addr addr' := by
  unfold SharesLeaf
  rw [same.leafPlace, same.leafPlace]

def reader (vm : Vm) : Vm := { vm with tlb := emptyTlb, status := statusSum ||| statusMxr, privMode := privSupervisor }

theorem reader_priv (vm : Vm) : (reader vm).accessPriv .read = privSupervisor := by
  have mprv : (reader vm).mprv = false := (by decide : decide ((statusSum ||| statusMxr) &&& statusMprv ≠ 0) = false)
  rw [Vm.accessPriv, mprv, if_neg (by decide)]
  rfl

theorem reader_bits (vm : Vm) : (reader vm).accessBits .read = pteLeaf := by
  have mxr : (reader vm).mxr := (by decide : decide ((statusSum ||| statusMxr) &&& statusMxr ≠ 0))
  rw [Vm.accessBits, mxr, if_pos (by decide)]
  decide

theorem reader_paged {vm : Vm} {kind : Access} (paged : vm.Paged kind) : (reader vm).Paged .read := by
  refine ⟨?_, paged.2⟩
  rw [reader_priv]
  decide

theorem leafOf_isLeaf {vm : Vm} {addr : Addr} {found : Scheme × Leaf} (leaf : vm.leafOf board addr = some found) :
    found.2.pte &&& pteLeaf ≠ 0 := by
  obtain ⟨scheme, -, leaf⟩ := bind_eq_some_iff.mp leaf
  split at leaf
  · cases leaf
  · obtain ⟨leaf, looked, rfl⟩ := map_eq_some_iff.mp leaf
    exact (lookup_leaf looked).1

theorem reader_permits {vm : Vm} {leaf : Leaf} (isLeaf : leaf.pte &&& pteLeaf ≠ 0) :
    leaf.Permits (reader vm).status ((reader vm).accessPriv .read) ((reader vm).accessBits .read) := by
  have sum : checkPriv (statusSum ||| statusMxr) privSupervisor pteLeaf := by decide
  rw [reader_priv, reader_bits]
  exact ⟨fun refused => refused.2 sum, isLeaf⟩

theorem reader_serves {vm : Vm} {addr : Addr} {kind : Access} (paged : vm.Paged kind)
    (serves : (served board vm addr kind).isSome) : (served board (reader vm) addr .read).isSome := by
  obtain ⟨ptr, serves⟩ := isSome_iff_exists.mp serves
  obtain ⟨paddr, translated, behind⟩ := bind_eq_some_iff.mp serves
  have reads : translation board (reader vm) addr .read = some paddr := by
    apply translation_mono (iff_of_true (reader_paged paged) paged) _ translated
    exact fun _ => ⟨rfl, fun found leaf _ => reader_permits (leafOf_isLeaf leaf)⟩
  rw [served, reads, bind_some]
  show (hostOf board vm.mmioDevs paddr).isSome
  rw [behind]
  rfl

theorem reader_fences {vm vm' : Vm} (control : vm'.control = (reader vm).control) : mstatusAllowed vm' statusTvm := by
  have status : vm'.control.status = statusSum ||| statusMxr := by rw [control]; rfl
  have priv : vm'.control.privMode = privSupervisor := by rw [control]; rfl
  change vm'.status = _ at status
  change vm'.privMode = _ at priv
  rw [mstatusAllowed, status, priv]
  decide

end
end RiscvEmulators.Rvvm
