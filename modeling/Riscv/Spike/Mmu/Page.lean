import Riscv.Word.Align
import Riscv.Spike.Mmu.Walk
import Riscv.Transition.Contract
import Riscv.Paging.Translation

namespace RiscvEmulators.Spike.Mmu
open Word Rules BitVec List
variable (hw : Hardware) (pmp : PmpRegs)

theorem pageBase_toNat (addr : Reg) : (pageBase addr).toNat = addr.toNat / 4096 * 4096 :=
  toNat_and_not_low_mask addr (k := 12) (by decide)

theorem pageBase_eq_iff (addr p : Reg) : pageBase addr = pageBase p ↔
    (pageBase p).toNat ≤ addr.toNat ∧ addr.toNat < (pageBase p).toNat + 4096 := by
  rw [← toNat_inj, pageBase_toNat, pageBase_toNat]
  omega

theorem granule_toNat : (granule hw).toNat = 2 ^ hw.lgPmpGranularity := toNat_unit hw.granularity.2

theorem alignDown_toNat (addr : Reg) :
    (addr &&& -granule hw).toNat = addr.toNat / 2 ^ hw.lgPmpGranularity * 2 ^ hw.lgPmpGranularity :=
  toNat_and_neg_unit addr hw.granularity.2

structure InPage (addr : Reg) (len : Nat) : Prop where
  nonempty : 1 ≤ len
  fits : addr.toNat % 4096 + len ≤ 4096

variable {addr : Reg} {len : Nat}

theorem sector_of_page (hi : InPage addr len) (hc : 12 ≤ hw.lgPmpGranularity) {n : Nat} (hb : n < len) :
    (addr.toNat + n) / 2 ^ hw.lgPmpGranularity = (pageBase addr).toNat / 2 ^ hw.lgPmpGranularity := by
  obtain ⟨hn, hf⟩ := hi
  rw [show hw.lgPmpGranularity = 12 + (hw.lgPmpGranularity - 12) by omega, Nat.pow_add, ← Nat.div_div_eq_div_mul,
    ← Nat.div_div_eq_div_mul, pageBase_toNat, show (addr.toNat + n) / 2 ^ 12 = addr.toNat / 4096 * 4096 / 2 ^ 12 by omega]

theorem lenAligned_toNat (hi : InPage addr len) {u : Nat} (hu : 2 ^ hw.lgPmpGranularity = u) :
    (((addr + BitVec.ofNat 64 len + granule hw - 1) &&& -granule hw) - (addr &&& -granule hw)).toNat =
      ((addr.toNat + (len - 1)) / u - addr.toNat / u + 1) * u := by
  have he : addr + BitVec.ofNat 64 len + granule hw - 1 = addr + BitVec.ofNat 64 (len - 1) + granule hw := by
    apply eq_of_toNat_eq
    have one : (1 : Reg).toNat = 1 := rfl
    simp only [toNat_add, toNat_sub, toNat_ofNat]
    have := hi.nonempty
    omega
  have hl : (addr + BitVec.ofNat 64 (len - 1)).toNat = addr.toNat + (len - 1) := by
    rw [toNat_add, toNat_ofNat]
    have := hi.fits
    omega
  let c := addr.toNat + (len - 1)
  have ho : addr.toNat / u ≤ c / u := Nat.div_le_div_right (Nat.le_add_right _ _)
  have hs : c / u * u - addr.toNat / u * u + u < 2 ^ 64 := by
    by_cases hc : 12 ≤ hw.lgPmpGranularity
    · have hf := sector_of_page hw hi hc hi.nonempty
      rw [Nat.add_zero] at hf
      rw [← hu, sector_of_page hw hi hc (by have := hi.nonempty; omega), hf, Nat.sub_self, Nat.zero_add]
      exact Nat.pow_lt_pow_right (by decide) hw.granularity.2
    · have hf : u ≤ 2 ^ 12 := by rw [← hu]; exact Nat.pow_le_pow_right (by decide) (by omega)
      have hp : 0 < u := by rw [← hu]; exact Nat.two_pow_pos _
      have hh := Nat.div_mul_le_self c u
      have low := Nat.lt_div_mul_add (a := addr.toNat) hp
      have := hi.fits
      omega
  have hp := Nat.mul_le_mul_right u ho
  rw [he, granule, add_unit_and_neg_unit _ hw.granularity.2, ← granule, toNat_sub, toNat_add,
    alignDown_toNat, alignDown_toNat, hl, granule_toNat, hu, Nat.add_mul, Nat.sub_mul]
  have hb : addr.toNat / u * u ≤ addr.toNat := Nat.div_mul_le_self _ _
  generalize c / u * u = high at hs hp ⊢
  omega

theorem sectors_eq (h : InPage addr len) :
    sectors hw addr len = (List.range ((addr.toNat + (len - 1)) / 2 ^ hw.lgPmpGranularity -
      addr.toNat / 2 ^ hw.lgPmpGranularity + 1)).map fun k => (addr &&& -granule hw) + BitVec.ofNat 64 k * granule hw := by
  unfold sectors
  dsimp only
  rw [lenAligned_toNat hw h rfl, Nat.mul_div_cancel _ (Nat.two_pow_pos _)]

theorem sectors_ne_nil (h : InPage addr len) : sectors hw addr len ≠ [] := by
  rw [sectors_eq hw h]
  simp

theorem sector_in_page (hi : InPage addr len) (hf : hw.lgPmpGranularity ≤ 12) {s : Reg}
    (hm : s ∈ sectors hw addr len) : pageBase s = pageBase addr := by
  rw [sectors_eq hw hi, mem_map] at hm
  obtain ⟨k, bound, rfl⟩ := hm
  rw [mem_range] at bound
  have power := Nat.two_pow_pos hw.lgPmpGranularity
  have divides := Nat.pow_dvd_pow 2 hf
  generalize hu : 2 ^ hw.lgPmpGranularity = u at bound power divides
  have hh := Nat.div_mul_le_self (addr.toNat + (len - 1)) u
  have hr : (addr.toNat / u + k) * u ≤ (addr.toNat + (len - 1)) / u * u :=
    Nat.mul_le_mul_right _ (by
      have := Nat.div_le_div_right (c := u) (Nat.le_add_right addr.toNat (len - 1))
      omega)
  rw [Nat.add_mul] at hr
  have hs : (pageBase addr).toNat ≤ addr.toNat / u * u := by
    have whole : u ∣ (pageBase addr).toNat := by
      rw [pageBase_toNat]
      exact Nat.dvd_trans divides (Nat.dvd_mul_left _ _)
    have hb : (pageBase addr).toNat ≤ addr.toNat := by
      rw [pageBase_toNat]
      exact Nat.div_mul_le_self _ _
    calc (pageBase addr).toNat = (pageBase addr).toNat / u * u := (Nat.div_mul_cancel whole).symm
      _ ≤ _ := Nat.mul_le_mul_right _ (Nat.div_le_div_right hb)
  have hp := pageBase_toNat addr
  have fits := hi.fits
  have step : k ≤ k * u := Nat.le_mul_of_pos_right k power
  rw [pageBase_eq_iff, toNat_add, toNat_mul, alignDown_toNat, granule_toNat, hu, toNat_ofNat,
    Nat.mod_eq_of_lt (a := k) (by omega)]
  omega

theorem sectors_coarse (hi : InPage addr len) (hc : 12 ≤ hw.lgPmpGranularity) :
    sectors hw addr len = [pageBase addr &&& -granule hw] := by
  have hf := sector_of_page hw hi hc hi.nonempty
  rw [Nat.add_zero] at hf
  have hs : addr &&& -granule hw = pageBase addr &&& -granule hw := by
    apply eq_of_toNat_eq
    rw [alignDown_toNat, alignDown_toNat, hf]
  rw [sectors_eq hw hi, sector_of_page hw hi hc (by have := hi.nonempty; omega), hf, ← hs]
  simp

theorem pageMask_getLsbD (j : Nat) : pageMask.getLsbD j = decide (j < 12) := by
  exact Nat.testBit_two_pow_sub_one 12 j

theorem getLsbD_of_pageBase_eq {x y : Reg} (hs : pageBase x = pageBase y) {j : Nat} (hh : 12 ≤ j) :
    x.getLsbD j = y.getLsbD j := by
  by_cases hb : j < 64
  · have bit := congrArg (fun w => w.getLsbD j) hs
    simpa only [pageBase, getLsbD_and, getLsbD_not, pageMask_getLsbD, hb, decide_true,
      show ¬ j < 12 by omega, decide_false, Bool.not_false, Bool.and_true] using bit
  · rw [getLsbD_of_ge x j (by omega), getLsbD_of_ge y j (by omega)]

theorem napotMask_cases {e : PmpEntry} {k : Nat} (hb : k < 64) :
    ((napotMask hw e).getLsbD k = false ∧ ∀ j ≤ k, (napotMask hw e).getLsbD j = false) ∨ ((napotMask hw e).getLsbD k ∧
      ∀ j, k ≤ j → j < 64 → (napotMask hw e).getLsbD j) := by
  unfold napotMask
  dsimp only
  generalize (e.val <<< 1 ||| (if e.cfg &&& pmpA = pmpNa4 then 0 else 1) ||| ~~~pmpTorMask hw) = mk
  let c := mk &&& ~~~(mk + 1)
  have bit : ∀ j < 64, (~~~c <<< 2).getLsbD j =
      (decide (2 ≤ j) && !c.getLsbD (j - 2)) := by
    intro j hs
    by_cases hl : j < 2
    · simp [hl, show ¬ 2 ≤ j by omega]
    · simp [hl, hs, show 2 ≤ j by omega, show j - 2 < 64 by omega]
  cases ht : (~~~c <<< 2).getLsbD k with
  | false =>
    refine .inl ⟨rfl, fun j le => ?_⟩
    rw [bit k hb] at ht
    rw [bit j (by omega)]
    by_cases hl : j < 2
    · simp [show ¬ 2 ≤ j by omega]
    · have set : c.getLsbD (k - 2) := by
        simpa [show 2 ≤ k by omega] using ht
      rw [trailing_downward (show j - 2 ≤ k - 2 by omega) (by omega) set]
      simp
  | true =>
    refine .inr ⟨rfl, fun j le hs => ?_⟩
    rw [bit k hb] at ht
    rw [bit j hs]
    simp only [Bool.and_eq_true, decide_eq_true_eq] at ht ⊢
    refine ⟨by omega, ?_⟩
    cases set : c.getLsbD (j - 2) with
    | false => rfl
    | true =>
      rw [trailing_downward (show k - 2 ≤ j - 2 by omega) (by omega) set] at ht
      cases ht.2

theorem pageBase_idem (addr : Reg) : pageBase (pageBase addr) = pageBase addr := by
  rw [← toNat_inj, pageBase_toNat, pageBase_toNat]
  omega

theorem napot_match_page {entry : PmpEntry} {x y : Reg} {tor : Reg} (same : pageBase x = pageBase y)
    (hh : (~~~(napotMask hw entry <<< 1) &&& 0x1000 != 0 || (y ^^^ tor) / 0x1000 != 0)) :
    ((x ^^^ tor) &&& napotMask hw entry == 0) = ((y ^^^ tor) &&& napotMask hw entry == 0) := by
  have bits : ∀ j, 12 ≤ j → (x ^^^ tor).getLsbD j = (y ^^^ tor).getLsbD j := by
    intro j high
    rw [getLsbD_xor, getLsbD_xor, getLsbD_of_pageBase_eq same high]
  obtain ⟨-, hc⟩ | ⟨set, ha⟩ := napotMask_cases hw (show 11 < 64 by decide)
  · have he : (x ^^^ tor) &&& napotMask hw entry = (y ^^^ tor) &&& napotMask hw entry := by
      apply eq_of_getLsbD_eq
      intro j hb
      rw [getLsbD_and, getLsbD_and]
      by_cases high : 12 ≤ j
      · rw [bits j high]
      · rw [hc j (by omega), Bool.and_false, Bool.and_false]
    rw [he]
  · have hm : ~~~(napotMask hw entry <<< 1) &&& 0x1000 = 0 := by
      rw [show (0x1000 : Reg) = BitVec.twoPow 64 12 by decide, and_twoPow_eq_zero _ 12 (by decide)]
      simp [set]
    have apart : (y ^^^ tor) / 0x1000 ≠ 0 := by
      rw [hm] at hh
      simpa using hh
    obtain ⟨j, high, bit⟩ : ∃ j, 12 ≤ j ∧ (y ^^^ tor).getLsbD j := by
      refine Classical.byContradiction fun hn => apart ?_
      have hs : (y ^^^ tor).toNat < 2 ^ 12 := Nat.lt_pow_two_of_testBit _ fun j high => by
        exact Bool.eq_false_iff.mpr fun bit => hn ⟨j, high, bit⟩
      apply eq_of_toNat_eq
      exact Nat.div_eq_of_lt hs
    have hb : j < 64 := lt_of_getLsbD bit
    have hd : ∀ z : Reg, z.getLsbD j → (z &&& napotMask hw entry == 0) = false := by
      intro z hz
      rw [beq_eq_false_iff_ne]
      intro zero
      have match' := congrArg (fun w => w.getLsbD j) zero
      simp [hz, ha j (by omega) hb] at match'
    rw [hd _ bit, hd _ ((bits j high).trans bit)]

theorem match4_page (i : Nat) {x y : Reg} (hs : pageBase x = pageBase y)
    (hh : subsetMatch hw pmp i (pageBase y) 0x1000 = false) : match4 hw pmp i x = match4 hw pmp i (pageBase y) := by
  unfold subsetMatch at hh
  unfold match4
  by_cases ho : (pmp.entries i).cfg &&& pmpA = 0
  · rw [if_pos ho, if_pos ho]
  · rw [if_neg ho, Bool.not_eq_false'] at hh
    rw [if_neg ho, if_neg ho]
    by_cases ht : (pmp.entries i).cfg &&& pmpA = pmpTor
    · rw [if_pos ht] at hh
      rw [if_pos ht, if_pos ht]
      obtain ⟨hl, high⟩ := (pageBase_eq_iff x y).mp hs
      have hp := pageBase_toNat y
      have hr := fun z : Reg => toNat_and_neg_unit z (show 12 < 64 by decide)
      simp only [show (1 : Reg) <<< 12 = 0x1000 from rfl] at hr
      generalize torBasePaddr hw pmp i = base at hh ⊢
      generalize torPaddr hw (pmp.entries i) = u at hh ⊢
      simp only [lt_def, le_def, hr, Bool.or_eq_true, Bool.and_eq_true, decide_eq_true_eq]
        at hh ⊢
      rw [Bool.eq_iff_iff]
      simp only [Bool.and_eq_true, decide_eq_true_eq]
      omega
    · rw [if_neg ht] at hh
      rw [if_neg ht, if_neg ht]
      exact napot_match_page hw (hs.trans (pageBase_idem y).symm) hh

theorem inPage_base (addr : Reg) : InPage (pageBase addr) 1 := by
  refine ⟨Nat.le_refl 1, ?_⟩
  omega

theorem any_all_of_constant {β : Type} (test : β → Bool) (value : Bool) {i : List β} (hn : i ≠ [])
    (hc : ∀ it ∈ i, test it = value) : i.any test = value ∧ i.all test = value := by
  obtain ⟨fst, r, rfl⟩ := exists_cons_of_ne_nil hn
  cases value with
  | true =>
    have ha : (fst :: r).all test := all_eq_true.mpr hc
    exact ⟨any_eq_true.mpr ⟨fst, mem_cons_self, hc fst mem_cons_self⟩, ha⟩
  | false =>
    have none : (fst :: r).any test = false := any_eq_false.mpr fun it hm => by
      rw [hc it hm]
      decide
    exact ⟨none, by rw [all_cons, hc fst mem_cons_self, Bool.false_and]⟩

theorem entryMatch_page (hi : InPage addr len) (i : Nat) (hh : subsetMatch hw pmp i (pageBase addr) 0x1000 = false) :
    entryMatch hw pmp addr len i = entryMatch hw pmp (pageBase addr) 1 i := by
  by_cases hc : 12 ≤ hw.lgPmpGranularity
  · rw [entryMatch, entryMatch, sectors_coarse hw hi hc, sectors_coarse hw (inPage_base addr) hc, pageBase_idem]
  · have hf : hw.lgPmpGranularity ≤ 12 := by omega
    have ha := any_all_of_constant (match4 hw pmp i) (match4 hw pmp i (pageBase addr)) (sectors_ne_nil hw hi)
      fun s hm => match4_page hw pmp i (sector_in_page hw hi hf hm) hh
    have hb := any_all_of_constant (match4 hw pmp i) (match4 hw pmp i (pageBase addr))
      (sectors_ne_nil hw (inPage_base addr)) fun s hm => by
        have inside := sector_in_page hw (inPage_base addr) hf hm
        rw [pageBase_idem] at inside
        exact match4_page hw pmp i inside hh
    rw [entryMatch, entryMatch, ha.1, ha.2, hb.1, hb.2]

theorem pmpOk_page (hi : InPage addr len) (hh : pmpHomogeneous hw pmp (pageBase addr) 0x1000)
    (ty : AccessType) (prv : Prv) (hlvx : Bool) :
    pmpOk hw pmp addr len ty prv hlvx = pmpOk hw pmp (pageBase addr) 1 ty prv hlvx := by
  have hs : firstMatch (entryMatch hw pmp addr len) (List.range hw.nPmp) =
      firstMatch (entryMatch hw pmp (pageBase addr) 1) (List.range hw.nPmp) := by
    refine (firstMatch_range_eq_iff _ _ _).mpr fun i hb _ => entryMatch_page hw pmp hi i ?_
    have whole := all_eq_true.mp hh i (mem_range.mpr hb)
    simpa using whole
  rw [pmpOk, pmpOk, hs]

open Transition

structure Tables where
  ram : Reg → Reg
  device : Reg → Option Reg

def PageStore.tables (store : PageStore) : Tables := ⟨store.ram, store.device⟩

def tablePte (hw : Hardware) (pmp : PmpRegs) (debugMode : Bool) (tables : Tables) (paddr : Reg) : Option Reg :=
  if pmpOk hw pmp paddr (pteSize hw.isa.maxXlen) .load .s false then readPte hw debugMode tables.ram tables.device paddr
  else none

section
variable (hw : Hardware) (view : View) (tables : Tables)

def s2PageLevels (vm : VmInfo) (gpage : Reg) (type : AccessType) (hlvx mxr : Bool) : Nat → Reg → Option Reg
  | 0, _ => none
  | level + 1, base => do
    let ptshift := level * vm.idxbits
    let pte ← tablePte hw view.pmp view.debugMode tables
      (base + pteIndex gpage ptshift (S2Request.idxbits vm level) * BitVec.ofNat 64 (pteSize hw.isa.maxXlen))
    match s2Kind hw view type hlvx mxr level ptshift pte with
    | .table => s2PageLevels vm gpage type hlvx mxr level (ptePpn pte <<< 12)
    | .leaf => if pte &&& adBits type ≠ adBits type then none else some (leafPage pte gpage ptshift)
    | _ => none

def s2Page (gpage : Reg) (type : AccessType) (hlvx isForVsPtAddr : Bool) : Option Reg :=
  if !view.virt then some gpage
  else do
    let vm ← decodeVmInfo hw.isa.maxXlen true .u view.hgatp
    if vm.levels = 0 then some gpage
    else if gpage &&& ~~~(((1 : Reg) <<< (vm.levels * vm.idxbits + vm.widenbits + 12)) - 1) = 0 then
      s2PageLevels hw view tables vm gpage type hlvx (!isForVsPtAddr && view.mxrHs) vm.levels vm.ptbase
    else none

def walkPageLevels (vm : VmInfo) (page : Reg) : Nat → Reg → Option Reg
  | 0, _ => none
  | level + 1, base => do
    let ptshift := level * vm.idxbits
    let slot := base + pteIndex page ptshift vm.idxbits * BitVec.ofNat 64 (pteSize hw.isa.maxXlen)
    let slotPage ← s2Page hw view tables (pageBase slot) .load false true
    let pte ← tablePte hw view.pmp view.debugMode tables (slotPage ||| (slot &&& pageMask))
    match s1Kind hw view level ptshift pte with
    | .table => walkPageLevels vm page level (ptePpn pte <<< 12)
    | .leaf =>
      if pte &&& adBits view.walkType ≠ adBits view.walkType then none
      else s2Page hw view tables (leafPage pte page ptshift) view.walkType view.flags.hlvx false
    | _ => none

def walkPage (page : Reg) : Option Reg := do
  let vm ← decodeVmInfo hw.isa.maxXlen false view.prv view.satp
  if vm.levels = 0 then
    if view.flags.ssAccess then none
    else s2Page hw view tables (pageBase (zext page hw.isa.maxXlen.bits)) view.walkType view.flags.hlvx false
  else if svukteFault hw view page then none
  else walkPageLevels hw view tables vm page (if canonical hw.isa.maxXlen vm page then vm.levels else 0) vm.ptbase

end

def CacheHeld (hw : Hardware) (pmp : PmpRegs) (debugMode : Bool) (store : PageStore) : Prop :=
  ∀ paddr : Reg, paddr.getLsbD 0 = false → (store.pteCache (paddr.toNat % 251)).paddr = paddr →
    tablePte hw pmp debugMode store.tables paddr = some (store.pteCache (paddr.toNat % 251)).pte

structure Steady (hw : Hardware) (pmp : PmpRegs) (debugMode : Bool) (tables : Tables) (store : PageStore) : Prop where
  same : store.tables = tables
  unchanged : store.changed = false
  cache : CacheHeld hw pmp debugMode store

def Spoiled (store : PageStore) : Prop := store.changed

def AccessType.access : AccessType → Paging.Access
  | .load => .load
  | .store => .store
  | .fetch => .fetch

def pteFormat : Xlen → Paging.Format
  | .rv32 => .narrow
  | .rv64 => .wide

/-- The scheme and root that `satp` or `vsatp` selects, by the specification's encoding; the inner `none` is Bare, the
  outer one a reserved mode. -/
def atpRoot (xlen : Xlen) (atp : Reg) : Option (Option Paging.Root) :=
  match xlen with
  | .rv32 => some (if atp.getLsbD 31 then some ⟨.sv32, atp.toNat % 2 ^ 22⟩ else none)
  | .rv64 =>
    match atp.toNat / 2 ^ 60 with
    | 0 => some none
    | 8 => some (some ⟨.sv39, atp.toNat % 2 ^ 44⟩)
    | 9 => some (some ⟨.sv48, atp.toNat % 2 ^ 44⟩)
    | 10 => some (some ⟨.sv57, atp.toNat % 2 ^ 44⟩)
    | _ => none

def hgatpRoot (xlen : Xlen) (hgatp : Reg) : Option (Option Paging.Root) :=
  (atpRoot xlen hgatp).map (Option.map fun root => { root with scheme := root.scheme.x4 })

def tableMemory (hw : Hardware) (pmp : PmpRegs) (debugMode : Bool) : Paging.Memory Tables where
  read place tables := tablePte hw pmp debugMode tables (BitVec.ofNat 64 place)
  write place word tables :=
    let paddr := BitVec.ofNat 64 place
    if !pmpOk hw pmp paddr (pteSize hw.isa.maxXlen) .store .s false then none
    else if hw.addrToMem paddr ≠ 0 then
      some { tables with ram := fun other => if other = paddr then word else tables.ram other }
    else if mmioOk debugMode paddr && hw.mmioStore paddr (pteSize hw.isa.maxXlen) then
      some { tables with device := fun other => if other = paddr then some word else tables.device other }
    else none

/-- An access with its control, as the privileged specification reads the registers. MXR of the host holds for both stages
  of a guest, and the guest's own for the first. -/
def privilegedContext (hw : Hardware) (regs : Regs) (info : AccessInfo) (first second : Option Paging.Root) :
    Paging.Context Tables where
  xlen := hw.isa.maxXlen.bits
  memory := tableMemory hw regs.pmp regs.debugMode
  first := if info.effectivePriv = .m then none else first
  second := if info.effectiveVirt then second else none
  request :=
    { access := if info.flags.ssAccess then .store else info.type.access
      user := info.effectivePriv = .u
      sum := regs.sum info.effectiveVirt
      mxr := regs.mxr false || regs.mxr info.effectiveVirt
      hlvx := info.flags.hlvx
      shadowStack := info.flags.ssAccess
      cacheBlock := info.flags.cleanInval
      adue := regs.adue info.effectiveVirt
      encodings :=
        { svnapot := hw.extSvnapot
          svrsw60t59b := hw.extSvrsw60t59b
          pbmte := regs.pbmte info.effectiveVirt
          sse := regs.sse info.effectiveVirt } }
  secondMxr := regs.mxr false
  secondAdue := regs.adue false
  secondPbmte := regs.pbmte false
  ukte := if info.flags.forcedVirt && regs.prv = .u then regs.hukte else regs.ukte

def faultTrap (hw : Hardware) (info : AccessInfo) (fault : Paging.Fault) : Failure :=
  .trap
    { cause := BitVec.ofNat 64 fault.cause
      hasGva := info.effectiveVirt
      tval := info.transformedVaddr
      tval2 := BitVec.ofNat 64 fault.tval2
      tinst := BitVec.ofNat 64 (fault.tinst (pteFormat hw.isa.maxXlen).pteSize) }

end RiscvEmulators.Spike.Mmu
