import Riscv.Rvvm.Mmu.Translation
import Mathlib.Data.List.Pairwise

namespace RiscvEmulators.Rvvm
open Word BitVec Scheme Option

theorem bitMask_getLsbD {k : Nat} (h : k < 64) (i : Nat) : (bitMask k).getLsbD i = decide (i < k) := by
  rw [← testBit_toNat, bitMask, toNat_low_mask h, Nat.testBit_two_pow_sub_one]

def SamePage (addr addr' : Addr) : Prop := vpnOf addr = vpnOf addr'

section
variable {addr a : Addr}

theorem SamePage.symm (h : SamePage addr a) : SamePage a addr := Eq.symm h

theorem samePage_iff : SamePage addr a ↔ ∀ i, 12 ≤ i → addr.getLsbD i = a.getLsbD i := by
  constructor
  · intro hs i hh
    have bit := congrArg (·.getLsbD (i - 12)) hs
    simp only [vpnOf, pageShift, getLsbD_ushiftRight, Nat.add_sub_cancel' hh] at bit
    exact bit
  · intro hb
    apply eq_of_getLsbD_eq
    intro i _
    simp only [vpnOf, getLsbD_ushiftRight]
    exact hb _ (Nat.le_add_right _ _)

theorem SamePage.toNat (hs : SamePage addr a) : addr.toNat / 4096 = a.toNat / 4096 := by
  have hq := congrArg BitVec.toNat hs
  simpa [vpnOf, pageShift, Nat.shiftRight_eq_div_pow] using hq

theorem SamePage.shift (hs : SamePage addr a) {bitOff : Nat} (hp : pageShift ≤ bitOff) :
    addr >>> bitOff = a >>> bitOff := by
  apply eq_of_getLsbD_eq
  intro i _
  rw [getLsbD_ushiftRight, getLsbD_ushiftRight]
  exact samePage_iff.mp hs _ (Nat.le_trans hp (Nat.le_add_right _ _))

theorem SamePage.and_bitMask (same : SamePage addr a) {bo : Nat} (hp : pageShift ≤ bo)
    (hb : bo < 64) : a &&& bitMask bo = (addr &&& bitMask bo) + (a - addr) := by
  have hs (x : Addr) : x = (x &&& ~~~(bitMask bo)) + (x &&& bitMask bo) := by
    have ha : (x &&& ~~~(bitMask bo)) &&& (x &&& bitMask bo) = 0#64 := by
      apply eq_of_getLsbD_eq
      intro i _
      cases bit : (bitMask bo).getLsbD i <;> simp [bit]
    rw [add_eq_or_of_and_eq_zero _ _ ha]
    apply eq_of_getLsbD_eq
    intro i hi
    rw [getLsbD_or, getLsbD_and, getLsbD_and, getLsbD_not]
    cases (bitMask bo).getLsbD i <;> simp [hi]
  have hh : a &&& ~~~(bitMask bo) = addr &&& ~~~(bitMask bo) := by
    apply eq_of_getLsbD_eq
    intro i _
    rw [getLsbD_and, getLsbD_and, getLsbD_not, bitMask_getLsbD hb]
    by_cases hl : i < bo
    · simp [hl]
    · rw [samePage_iff.mp same i (Nat.le_trans hp (Nat.le_of_not_lt hl))]
  have hm (h l l' : Addr) : l' = l + (h + l' - (h + l)) := by
    grind
  calc a &&& bitMask bo
      = (addr &&& bitMask bo) + ((addr &&& ~~~(bitMask bo)) + (a &&& bitMask bo) -
          ((addr &&& ~~~(bitMask bo)) + (addr &&& bitMask bo))) := hm _ _ _
    _ = (addr &&& bitMask bo) + (a - addr) := by rw [← hs addr, ← hh, ← hs a]

theorem SamePage.signExtend (same : SamePage addr a) {bits : Nat} (hw : 12 < bits) (bound : bits ≤ 64)
    (hc : addr = signExtend addr bits) : a = Rvvm.signExtend a bits := by
  have ht (x : Addr) (i : Nat) (small : i < 64) : (Rvvm.signExtend x bits).getLsbD i =
      if i < bits then x.getLsbD i else x.getLsbD (bits - 1) := by
    unfold Rvvm.signExtend
    rw [getLsbD_sshiftRight]
    by_cases hl : i < bits
    · have hs : 64 - bits + i < 64 := by omega
      have hb : 64 - bits + i - (64 - bits) = i := by omega
      simp only [if_pos hl, getLsbD_shiftLeft, hs]
      have hi : ¬64 ≤ i := by omega
      simp [hi]
    · have hs : ¬64 - bits + i < 64 := by omega
      have hi : ¬64 ≤ i := by omega
      have sign : (x <<< (64 - bits)).msb = x.getLsbD (bits - 1) := by
        rw [msb_eq_getLsbD_last, getLsbD_shiftLeft]
        have hb : 64 - 1 - (64 - bits) = bits - 1 := by omega
        have hr : ¬64 - 1 < 64 - bits := by omega
        simp [hb, hr]
      simp [if_neg hl, if_neg hs, hi, sign]
  apply eq_of_getLsbD_eq
  intro i small
  rw [ht a i small]
  by_cases hl : i < bits
  · rw [if_pos hl]
  · have bit := ht addr i small
    rw [← hc, if_neg hl] at bit
    rw [if_neg hl, ← samePage_iff.mp same i (by omega), ← samePage_iff.mp same (bits - 1) (by omega), bit]

end

section
variable {s : Scheme} {bd : Board} {h : Addr → BitVec 8} {va v : Addr}

theorem lookup_page (hs : SamePage va v) {n bitOff : Nat} (pt : Addr) (hd : s.Deep n (bitOff + s.vpnBits)) :
    s.lookup bd h va n pt bitOff = s.lookup bd h v n pt bitOff := by
  induction n generalizing pt bitOff with
  | zero => rfl
  | succ n ih =>
    have hp : pageShift ≤ bitOff := hd.page_here
    have hi : s.pteOffset va bitOff = s.pteOffset v bitOff := by
      rw [pteOffset, pteOffset, hs.shift hp]
    rw [lookup, lookup, hi]
    cases physAccess bd (pt + s.pteOffset v bitOff) with
    | none => rw [bind_none, bind_none]
    | some p =>
      simp only [bind_some]
      rw [ih pt hd.same]
      split
      · split
        · rfl
        · split
          · exact ih _ hd.below
          · rfl
      · rfl

theorem lookup_bitOff {n bitOff : Nat} {pt : Addr} (hd : s.Deep n (bitOff + s.vpnBits))
    {lf : Leaf} (hf : s.lookup bd h va n pt bitOff = some lf) : pageShift ≤ lf.bitOff ∧ lf.bitOff ≤ bitOff := by
  induction n generalizing pt bitOff with
  | zero => cases hf
  | succ n ih =>
    obtain ⟨p, _, hf⟩ := bind_eq_some_iff.mp hf
    dsimp only at hf
    split at hf
    · split at hf
      · cases hf
        exact ⟨hd.page_here, Nat.le_refl _⟩
      · split at hf
        · have hb := ih hd.below hf
          exact ⟨hb.1, Nat.le_trans hb.2 (Nat.sub_le _ _)⟩
        · exact ih hd.same hf
    · exact ih hd.same hf

theorem lookup_leaf {n bitOff : Nat} {pt : Addr} {leaf : Leaf} (found : s.lookup bd h va n pt bitOff = some leaf) :
    leaf.pte &&& pteLeaf ≠ 0 ∧ leaf.pte = s.readPte h leaf.place &&& ~~~adBits := by
  induction n generalizing pt bitOff with
  | zero => cases found
  | succ n ih =>
    obtain ⟨p, _, found⟩ := bind_eq_some_iff.mp found
    dsimp only at found
    split at found
    · split at found
      · rename_i isLeaf
        cases found
        exact ⟨isLeaf, rfl⟩
      · split at found
        · exact ih found
        · exact ih found
    · exact ih found

theorem combine_page (hs : SamePage va v) {pte : W64} {bo : Nat} (hp : pageShift ≤ bo)
    (hb : bo < 64) : s.combine pte v bo = s.combine pte va bo + (v - va) := by
  have sum (x : Addr) : s.combine pte x bo =
      (s.pteShifted pte &&& (bitMask (s.physBits - bo) <<< bo)) + (x &&& bitMask bo) := by
    rw [combine, add_eq_or_of_and_eq_zero]
    apply eq_of_getLsbD_eq
    intro i _
    rw [getLsbD_and, getLsbD_and, getLsbD_and, bitMask_getLsbD hb]
    by_cases hl : i < bo <;> simp [hl]
  rw [sum, sum, hs.and_bitMask hp hb, BitVec.add_assoc]

theorem combine_samePage (hs : SamePage va v) {pte : W64} {bo : Nat} :
    SamePage (s.combine pte va bo) (s.combine pte v bo) := by
  rw [samePage_iff]
  intro i hh
  unfold combine
  simp [samePage_iff.mp hs i hh]

end

def schemeOf (board : Board) (mode : BitVec 8) : Option Scheme :=
  if mode = satpModeSv32 ∧ board.useRv32 then some schemeSv32
  else if mode = satpModeSv39 ∧ board.useRv64 then some (schemeRv64 3)
  else if mode = satpModeSv48 ∧ board.useRv64 then some (schemeRv64 4)
  else if mode = satpModeSv57 ∧ board.useRv64 then some (schemeRv64 5)
  else none

structure Scheme.Sound (scheme : Scheme) : Prop where
  entry : scheme.Entry
  deep : scheme.Deep scheme.levels (scheme.rootOff + scheme.vpnBits)
  bound : scheme.rootOff + scheme.vpnBits ≤ 64
  wide : 12 < scheme.rootOff + scheme.vpnBits
  room : scheme.rootOff < 64

variable {board : Board} {acc : Access}

theorem schemeOf_sound {md : BitVec 8} {sc : Scheme} (ha : schemeOf board md = some sc) : sc.Sound := by
  have hk : sc = schemeSv32 ∨ sc = schemeRv64 3 ∨ sc = schemeRv64 4 ∨ sc = schemeRv64 5 := by
    unfold schemeOf at ha
    split at ha
    · exact .inl (Option.some.inj ha).symm
    · split at ha
      · exact .inr (.inl (Option.some.inj ha).symm)
      · split at ha
        · exact .inr (.inr (.inl (Option.some.inj ha).symm))
        · split at ha
          · exact .inr (.inr (.inr (Option.some.inj ha).symm))
          · cases ha
  rcases hk with rfl | rfl | rfl | rfl <;>
    exact ⟨by unfold Scheme.Entry; decide, by unfold Scheme.Deep; decide, by decide, by decide, by decide⟩

def Vm.leafOf (board : Board) (vm : Vm) (vaddr : Addr) : Option (Scheme × Leaf) :=
  (schemeOf board vm.mmuMode).bind fun scheme =>
    if scheme.canonical ∧ vaddr ≠ signExtend vaddr (scheme.rootOff + scheme.vpnBits) then none
    else (scheme.lookup board vm.host vaddr scheme.levels vm.rootPageTable scheme.rootOff).map fun leaf => (scheme, leaf)

def Vm.Paged (vm : Vm) (access : Access) : Prop := vm.accessPriv access < privMachine ∧ vm.mmuMode ≠ satpModeBare

instance (vm : Vm) (access : Access) : Decidable (vm.Paged access) := inferInstanceAs (Decidable (_ ∧ _))

def translation (board : Board) (vm : Vm) (vaddr : Addr) (access : Access) : Option Addr :=
  (mmuTranslate board vm vaddr access).map Prod.fst

variable {vm : Vm}

theorem accessBits_apart : Within (~~~adBits) (vm.accessBits acc) := by
  unfold Vm.accessBits
  split
  · cases acc <;> decide
  · cases acc <;> decide

theorem mmuTranslate_paged (h : vm.Paged acc) (vaddr : Addr) :
    mmuTranslate board vm vaddr acc = (schemeOf board vm.mmuMode).bind fun sc =>
      sc.translate board vm vaddr (vm.accessPriv acc) (vm.accessBits acc) := by
  unfold mmuTranslate schemeOf mmuTranslateSv32 mmuTranslateRv64
  rw [if_pos h.1, if_neg h.2]
  split
  · rfl
  · split
    · rfl
    · split
      · rfl
      · split
        · rfl
        · rfl

theorem mmuTranslate_plain (hp : ¬vm.Paged acc) (vaddr : Addr) :
    mmuTranslate board vm vaddr acc = some (vaddr, vm.host) := by
  unfold mmuTranslate
  by_cases hl : vm.accessPriv acc < privMachine
  · have hb : vm.mmuMode = satpModeBare := Classical.not_not.mp fun hm => hp ⟨hl, hm⟩
    rw [if_pos hl, if_pos hb]
  · rw [if_neg hl]

theorem scheme_translate_eq {sc : Scheme} (hs : sc.Sound) {vaddr : Addr} {pv : Priv} {acc : W64}
    (ha : Within (~~~adBits) acc) : (sc.translate board vm vaddr pv acc).map Prod.fst =
      if sc.canonical ∧ vaddr ≠ signExtend vaddr (sc.rootOff + sc.vpnBits) then none
      else (sc.lookup board vm.host vaddr sc.levels vm.rootPageTable sc.rootOff).bind
        fun lf => lf.resolve sc vm.status pv acc vaddr := by
  unfold Scheme.translate
  split
  · rfl
  · have walked : (sc.walk board vm vaddr pv acc sc.levels vm.rootPageTable sc.rootOff).map _ = _ :=
      walk_eq_lookup ha _ hs.deep
    have places := congrArg (Option.map Prod.fst) walked
    simpa [map_bind, Function.comp_def] using places

theorem translation_eq (board : Board) (vm : Vm) (vaddr : Addr) (acc : Access) : translation board vm vaddr acc =
    if vm.Paged acc then (vm.leafOf board vaddr).bind fun f =>
      f.2.resolve f.1 vm.status (vm.accessPriv acc) (vm.accessBits acc) vaddr
    else some vaddr := by
  unfold translation
  by_cases hp : vm.Paged acc
  · rw [if_pos hp, mmuTranslate_paged hp, Vm.leafOf]
    cases ha : schemeOf board vm.mmuMode with
    | none => rfl
    | some sc =>
      rw [bind_some, bind_some, scheme_translate_eq (schemeOf_sound ha) accessBits_apart]
      split
      · rfl
      · rw [bind_map]
        rfl
  · rw [if_neg hp, mmuTranslate_plain hp]
    rfl

section
variable {bd : Board} {vm : Vm} {vaddr vaddr' : Addr} {ac : Access}

theorem leafOf_page (same : SamePage vaddr vaddr') : vm.leafOf bd vaddr = vm.leafOf bd vaddr' := by
  unfold Vm.leafOf
  cases ha : schemeOf bd vm.mmuMode with
  | none => rw [bind_none, bind_none]
  | some sc =>
    have hs := schemeOf_sound ha
    have hc : vaddr ≠ signExtend vaddr (sc.rootOff + sc.vpnBits) ↔ vaddr' ≠ signExtend vaddr' (sc.rootOff + sc.vpnBits) :=
      ⟨mt (same.symm.signExtend hs.wide hs.bound), mt (same.signExtend hs.wide hs.bound)⟩
    simp [hc, lookup_page same _ hs.deep]

theorem leafOf_sound {f : Scheme × Leaf} (hh : vm.leafOf bd vaddr = some f) :
    pageShift ≤ f.2.bitOff ∧ f.2.bitOff < 64 := by
  obtain ⟨sc, ha, hh⟩ := bind_eq_some_iff.mp hh
  have hs := schemeOf_sound ha
  split at hh
  · cases hh
  · obtain ⟨leaf, hl, same⟩ := map_eq_some_iff.mp hh
    subst same
    have hb := lookup_bitOff hs.deep hl
    exact ⟨hb.1, Nat.lt_of_le_of_lt hb.2 hs.room⟩

theorem leafOf_congr {vm' : Vm} (hm : vm'.mmuMode = vm.mmuMode) (hr : vm'.rootPageTable = vm.rootPageTable)
    (ht : ∀ sc, schemeOf bd vm.mmuMode = some sc → SameTables sc bd vm.host vm'.host) :
    vm'.leafOf bd vaddr = vm.leafOf bd vaddr := by
  unfold Vm.leafOf
  rw [hm, hr]
  cases ha : schemeOf bd vm.mmuMode with
  | none => rw [bind_none, bind_none]
  | some sc =>
    simp only [bind_some]
    rw [lookup_congr (ht sc ha) (schemeOf_sound ha).entry _ _ vm.rootPageTable.property]

theorem mmuTranslate_sameTables {paddr : Addr} {host : Addr → BitVec 8} {sc : Scheme}
    (ha : schemeOf bd vm.mmuMode = some sc)
    (ht : mmuTranslate bd vm vaddr ac = some (paddr, host)) : SameTables sc bd vm.host host := by
  by_cases hp : vm.Paged ac
  · rw [mmuTranslate_paged hp, ha, bind_some, Scheme.translate] at ht
    split at ht
    · cases ht
    · obtain ⟨f, hw, hs⟩ := map_eq_some_iff.mp ht
      have he := (schemeOf_sound ha).entry
      have hm := walk_marks he vm.rootPageTable.property hw
      rw [← (Prod.mk.inj hs).2]
      exact hm.sameTables he
  · rw [mmuTranslate_plain hp] at ht
    rw [← (Prod.mk.inj (Option.some.inj ht)).2]
    exact fun _ _ => AgreeOff.refl _ _

theorem resolve_page (hs : SamePage vaddr vaddr') {f : Scheme × Leaf} (hh : vm.leafOf bd vaddr = some f)
    {st : W64} {pv : Priv} {bs : W64} {paddr : Addr} (hr : f.2.resolve f.1 st pv bs vaddr = some paddr) :
    f.2.resolve f.1 st pv bs vaddr' = some (paddr + (vaddr' - vaddr)) ∧ SamePage paddr (paddr + (vaddr' - vaddr)) := by
  have hb := leafOf_sound hh
  unfold Leaf.resolve at hr ⊢
  split at hr
  · rename_i hg
    have ht := Option.some.inj hr
    have hm : f.1.combine f.2.pte vaddr' f.2.bitOff = _ := combine_page hs hb.1 hb.2
    rw [if_pos hg, hm, ht]
    refine ⟨rfl, ?_⟩
    rw [← ht, ← hm]
    exact combine_samePage hs
  · cases hr

theorem translation_page (hs : SamePage vaddr vaddr') {paddr : Addr} (ht : translation bd vm vaddr ac = some paddr) :
    translation bd vm vaddr' ac = some (paddr + (vaddr' - vaddr)) ∧ SamePage paddr (paddr + (vaddr' - vaddr)) := by
  rw [translation_eq] at ht ⊢
  by_cases hp : vm.Paged ac
  · rw [if_pos hp] at ht ⊢
    obtain ⟨f, hh, hr⟩ := bind_eq_some_iff.mp ht
    have hm := resolve_page hs hh hr
    rw [← leafOf_page hs, hh]
    exact hm
  · rw [if_neg hp] at ht ⊢
    rw [← Option.some.inj ht, BitVec.add_comm vaddr, BitVec.sub_add_cancel]
    exact ⟨rfl, hs⟩

end

/-- Regions as `rvvm_attach_mmio` leaves them, which refuses one that overlaps another. They are taken to lie in the 56-bit
  physical address space. -/
structure Placed (devs : List MmioDev) : Prop where
  apart : devs.Pairwise fun dev dev' => mmioOverlapCheck dev.addr dev.size dev'.addr dev'.size = false
  physical : ∀ dev ∈ devs, dev.addr.toNat + dev.size.toNat ≤ 2 ^ 56

theorem placed_nil : Placed [] := ⟨List.Pairwise.nil, fun _ member => absurd member List.not_mem_nil⟩

section
variable (board : Board) (devs : List MmioDev)

/-- The host memory behind a physical address: RAM, or a direct memory region that holds the whole page. -/
def hostOf (paddr : Addr) : Option Addr :=
  match physAccess board paddr with
  | some ptr => some ptr
  | none => (mmioFind devs paddr).bind (·.direct paddr)

variable {board devs} {paddr paddr' ptr : Addr}

theorem add_sub_swap {x a b c : Addr} : x + (b - c) = x + (a - c) + (b - a) := by
  rw [BitVec.add_assoc]
  grind

theorem physAccess_page (hs : SamePage paddr paddr') (hi : physAccess board paddr = some ptr) :
    physAccess board paddr' = some (ptr + (paddr' - paddr)) := by
  have hp := hs.toNat
  have base : board.mem.addr.toNat % 4096 = 0 := Nat.mod_eq_zero_of_dvd board.addrAligned
  have he : board.mem.size.toNat % 4096 = 0 := Nat.mod_eq_zero_of_dvd board.sizeAligned
  unfold physAccess at hi ⊢
  split at hi
  · rename_i both
    obtain ⟨above, below⟩ := both
    rw [lt_def, toNat_sub_of_le above] at below
    rw [le_def] at above
    have ha : board.mem.addr ≤ paddr' := by
      rw [le_def]
      omega
    have hb : paddr' - board.mem.addr < board.mem.size := by
      rw [lt_def, toNat_sub_of_le ha]
      omega
    rw [if_pos ⟨ha, hb⟩, ← Option.some.inj hi, hostPtr]
    exact congrArg some add_sub_swap
  · cases hi

theorem physAccess_page_none (hs : SamePage paddr paddr') (ho : physAccess board paddr = none) :
    physAccess board paddr' = none := by
  cases hi : physAccess board paddr' with
  | none => rfl
  | some ptr =>
    rw [physAccess_page hs.symm hi] at ho
    cases ho

theorem pageBase_toNat (addr : Addr) : (addr &&& ~~~(bitMask pageShift)).toNat = addr.toNat / 4096 * 4096 :=
  toNat_and_not_low_mask addr (by decide)

def MmioDev.Covers (dev : MmioDev) (paddr : Addr) : Prop :=
  dev.addr.toNat ≤ paddr.toNat ∧ paddr.toNat < dev.addr.toNat + dev.size.toNat

section
variable (placed : Placed devs)
include placed

theorem covers_iff {dev : MmioDev} (member : dev ∈ devs) {paddr : Addr} :
    (decide (dev.addr ≤ paddr) && decide (paddr < dev.addr + dev.size)) ↔ dev.Covers paddr := by
  have fits := placed.physical dev member
  rw [Bool.and_eq_true, decide_eq_true_eq, decide_eq_true_eq, lt_def, toNat_add,
    Nat.mod_eq_of_lt (by omega)]
  rfl

theorem covers_unique {dev dev' : MmioDev} (member : dev ∈ devs) (member' : dev' ∈ devs)
    (covers : dev.Covers paddr) (covers' : dev'.Covers paddr) : dev = dev' := by
  have overlap (one two : MmioDev) (first : one ∈ devs) (second : two ∈ devs)
      (left : one.Covers paddr) (right : two.Covers paddr) :
      mmioOverlapCheck one.addr one.size two.addr two.size := by
    have := placed.physical one first
    have := placed.physical two second
    unfold MmioDev.Covers at left right
    rw [mmioOverlapCheck, Bool.and_eq_true, decide_eq_true_eq, decide_eq_true_eq, lt_def, lt_def,
      toNat_add, toNat_add, Nat.mod_eq_of_lt (by omega)]
    omega
  by_cases same : dev = dev'
  · exact same
  · have symmetric : Std.Symm fun dev dev' : MmioDev =>
        mmioOverlapCheck dev.addr dev.size dev'.addr dev'.size = false := ⟨by
      intro one two apart
      rwa [mmioOverlapCheck, Bool.and_comm]⟩
    have apart := placed.apart.forall member member' same
    rw [overlap _ _ member member' covers covers'] at apart
    cases apart

theorem mmioFind_eq_some_iff {dev : MmioDev} : mmioFind devs paddr = some dev ↔ dev ∈ devs ∧ dev.Covers paddr := by
  constructor
  · intro found
    have member := List.mem_of_find?_eq_some found
    have answers := List.find?_some found
    exact ⟨member, (covers_iff placed member).mp answers⟩
  · rintro ⟨member, covers⟩
    have answers : (mmioFind devs paddr).isSome := by
      rw [mmioFind, List.find?_isSome]
      exact ⟨dev, member, (covers_iff placed member).mpr covers⟩
    obtain ⟨first, found⟩ := isSome_iff_exists.mp answers
    have member' := List.mem_of_find?_eq_some found
    have matched := List.find?_some found
    have covers' := (covers_iff placed member').mp matched
    rw [found, covers_unique placed member' member covers' covers]

theorem direct_page {dev : MmioDev} (mem : dev ∈ devs) (hc : dev.Covers paddr)
    (hs : SamePage paddr paddr') (hd : dev.direct paddr = some ptr) :
    dev.Covers paddr' ∧ dev.direct paddr' = some (ptr + (paddr' - paddr)) := by
  have hp := hs.toNat
  have hf := placed.physical dev mem
  unfold MmioDev.Covers at hc ⊢
  unfold MmioDev.direct at hd ⊢
  dsimp only at hd ⊢
  split at hd
  · rename_i hb
    obtain ⟨m, hm, ht⟩ := map_eq_some_iff.mp hd
    have base : paddr' &&& ~~~(bitMask pageShift) = paddr &&& ~~~(bitMask pageShift) := by
      apply eq_of_toNat_eq
      rw [pageBase_toNat, pageBase_toNat, hp]
    have ha := le_def.mp hb.1
    have hbe := le_def.mp hb.2
    have step : (0x1000 : Addr).toNat = 4096 := rfl
    rw [pageBase_toNat] at ha
    rw [toNat_add, toNat_add, pageBase_toNat] at hbe
    -- regions end far below the last page, so neither sum wraps
    rw [base, if_pos hb, hm, ← ht]
    exact ⟨by omega, congrArg some add_sub_swap⟩
  · cases hd

theorem hostOf_page (same : SamePage paddr paddr') (behind : hostOf board devs paddr = some ptr) :
    hostOf board devs paddr' = some (ptr + (paddr' - paddr)) := by
  unfold hostOf at behind ⊢
  cases inside : physAccess board paddr with
  | some found =>
    rw [inside] at behind
    rw [physAccess_page same inside, Option.some.inj behind]
  | none =>
    rw [inside] at behind
    obtain ⟨dev, found, direct⟩ := bind_eq_some_iff.mp behind
    obtain ⟨member, covers⟩ := (mmioFind_eq_some_iff placed).mp found
    obtain ⟨covers', direct'⟩ := direct_page placed member covers same direct
    rw [physAccess_page_none same inside, (mmioFind_eq_some_iff placed).mpr ⟨member, covers'⟩]
    exact direct'

end

def MmioDev.Holds (dev : MmioDev) (ptr : Addr) : Prop := ∃ mapping, dev.mapping = some mapping ∧ ptr - mapping < dev.size

theorem direct_holds {dev : MmioDev} (covers : dev.Covers paddr) (direct : dev.direct paddr = some ptr) :
    dev.Holds ptr := by
  obtain ⟨above, below⟩ := covers
  unfold MmioDev.direct at direct
  dsimp only at direct
  split at direct
  · obtain ⟨mapping, mapped, rfl⟩ := map_eq_some_iff.mp direct
    refine ⟨mapping, mapped, ?_⟩
    rw [BitVec.add_comm, BitVec.add_sub_cancel, lt_def, toNat_sub_of_le (le_def.mpr above)]
    omega
  · cases direct

theorem hostOf_move {bar : Nat} {addr : Addr} (placed : Placed devs) (placed' : Placed (moveRegion devs bar addr))
    (elsewhere : ∀ dev, devs[bar]? = some dev → ¬dev.Holds ptr) (behind : hostOf board devs paddr = some ptr) :
    hostOf board (moveRegion devs bar addr) paddr = some ptr := by
  unfold hostOf at behind ⊢
  cases inside : physAccess board paddr with
  | some found =>
    rw [inside] at behind
    exact behind
  | none =>
    rw [inside] at behind
    obtain ⟨dev, found, direct⟩ := bind_eq_some_iff.mp behind
    obtain ⟨member, covers⟩ := (mmioFind_eq_some_iff placed).mp found
    obtain ⟨i, at_⟩ := List.mem_iff_getElem?.mp member
    have other : bar ≠ i := by
      rintro rfl
      exact elsewhere dev at_ (direct_holds covers direct)
    have kept : dev ∈ moveRegion devs bar addr := by
      rw [List.mem_iff_getElem?]
      refine ⟨i, ?_⟩
      rw [moveRegion, List.getElem?_modify, at_]
      simp [other]
    dsimp only
    rw [(mmioFind_eq_some_iff placed').mpr ⟨kept, covers⟩]
    exact direct

end

def served (board : Board) (vm : Vm) (vaddr : Addr) (access : Access) : Option Addr :=
  (translation board vm vaddr access).bind (hostOf board vm.mmioDevs)

theorem served_page {board : Board} {vaddr vaddr' ptr : Addr} {acc : Access} (placed : Placed vm.mmioDevs)
    (same : SamePage vaddr vaddr') (serves : served board vm vaddr acc = some ptr) :
    served board vm vaddr' acc = some (ptr + (vaddr' - vaddr)) := by
  obtain ⟨paddr, translated, behind⟩ := bind_eq_some_iff.mp serves
  obtain ⟨translated', page⟩ := translation_page same translated
  rw [served, translated', bind_some, hostOf_page placed page behind, BitVec.add_comm paddr, BitVec.add_sub_cancel]

end RiscvEmulators.Rvvm
