import Riscv.Spike.Mmu.Event

namespace RiscvEmulators.Spike.Mmu
open Word Transition BitVec Option Machine

theorem zext_getLsbD {x : Reg} {pos j : Nat} (hwi : pos ≤ 64) (hl : j < pos) :
    (zext x pos).getLsbD j = x.getLsbD j := by
  have hi : 64 - pos + j < 64 := by omega
  rw [zext, getLsbD_ushiftRight, getLsbD_shiftLeft]
  simp [hi]

theorem sext_getLsbD {x : Reg} {pos j : Nat} (hp : 0 < pos) (hwi : pos ≤ 64) (hb : j < 64) :
    (sext x pos).getLsbD j = x.getLsbD (min j (pos - 1)) := by
  rw [sext, getLsbD_sshiftRight, msb_eq_getLsbD_last, getLsbD_shiftLeft, getLsbD_shiftLeft]
  by_cases hl : j < pos
  · have hi : 64 - pos + j < 64 := by omega
    simp [hi, show ¬64 ≤ j by omega, show min j (pos - 1) = j by omega]
  · have ho : ¬64 - pos + j < 64 := by omega
    simp [ho, show ¬64 ≤ j by omega, show min j (pos - 1) = pos - 1 by omega,
      show 64 - 1 - (64 - pos) = pos - 1 by omega, show ¬63 < 64 - pos by omega]

structure PageMap (f : Reg → Reg) : Prop where
  offset : ∀ addr, pageOffset (f addr) = pageOffset addr
  page : ∀ addr, pageBase (f (pageBase addr)) = pageBase (f addr)

theorem pageOffset_eq {x y : Reg} (hs : ∀ j < 12, x.getLsbD j = y.getLsbD j) : pageOffset x = pageOffset y := by
  apply eq_of_getLsbD_eq
  intro j _
  rw [pageOffset, pageOffset, getLsbD_and, getLsbD_and, pageMask_getLsbD]
  by_cases hl : j < 12
  · rw [hs j hl]
  · simp [hl]

theorem pageBase_getLsbD {ad : Reg} {j : Nat} (hh : 12 ≤ j) : (pageBase ad).getLsbD j = ad.getLsbD j := by
  rw [pageBase, getLsbD_and, getLsbD_not, pageMask_getLsbD]
  by_cases hb : j < 64
  · simp [hb, show ¬j < 12 by omega]
  · simp [getLsbD_of_ge ad j (by omega)]

theorem pageBase_eq {x y : Reg} (hs : ∀ j, 12 ≤ j → j < 64 → x.getLsbD j = y.getLsbD j) : pageBase x = pageBase y := by
  apply eq_of_getLsbD_eq
  intro j hb
  rw [pageBase, pageBase, getLsbD_and, getLsbD_and, getLsbD_not, pageMask_getLsbD]
  by_cases hh : 12 ≤ j
  · rw [hs j hh hb]
  · simp [show j < 12 by omega]

theorem PageMap.page_eq {f : Reg → Reg} (hm : PageMap f) {x y : Reg} (hs : pageBase x = pageBase y) :
    pageBase (f x) = pageBase (f y) := by
  rw [← hm.page x, hs, hm.page y]

theorem pageMap_id : PageMap fun addr => addr := ⟨fun _ => rfl, pageBase_idem⟩

theorem pageMap_zext {pos : Nat} (hl : 12 ≤ pos) (hwi : pos ≤ 64) : PageMap (zext · pos) :=
  ⟨fun ad => pageOffset_eq fun _ hb => zext_getLsbD hwi (by omega), fun ad => zext_page ad pos⟩

theorem pageMap_sext {pos : Nat} (hl : 12 < pos) (hwi : pos ≤ 64) : PageMap (sext · pos) := by
  refine ⟨fun ad => pageOffset_eq fun j hb => ?_, fun ad => ?_⟩
  · rw [sext_getLsbD (by omega) hwi (by omega), show min j (pos - 1) = j by omega]
  · apply pageBase_eq
    intro j hh hb
    rw [sext_getLsbD (by omega) hwi hb, sext_getLsbD (by omega) hwi hb, pageBase_getLsbD (by omega)]

section
variable (hw : Hardware) (regs : Regs) (tables : Tables)

theorem getPmlen_le (isa : Isa) (v : Bool) (pv : Prv) (f : XlateFlags) :
    getPmlen isa regs v pv f ≤ 16 ∧ (isa.maxXlen = .rv32 → getPmlen isa regs v pv f = 0) := by
  unfold getPmlen
  constructor
  · dsimp only
    repeat' split
    all_goals decide
  · intro h
    rw [if_pos (.inl (by rw [h]; decide))]

theorem transform_pageMap (ty : AccessType) (f : XlateFlags) :
    PageMap fun ad => (generateAccessInfo hw.isa regs ad ty f).transformedVaddr := by
  unfold generateAccessInfo
  by_cases hf : ty = .fetch
  · simp only [if_pos hf]
    exact pageMap_id
  · simp only [if_neg hf]
    unfold transformAddr
    generalize effectiveMode regs ty f = md
    have hpm := getPmlen_le regs hw.isa md.2 md.1 f
    have hp : 12 < hw.isa.maxXlen.bits - getPmlen hw.isa regs md.2 md.1 f ∧
        hw.isa.maxXlen.bits - getPmlen hw.isa regs md.2 md.1 f ≤ 64 := by
      cases hwi : hw.isa.maxXlen with
      | rv32 =>
        rw [hpm.2 hwi]
        decide
      | rv64 =>
        show 12 < 64 - _ ∧ 64 - _ ≤ 64
        omega
    by_cases hb : md.1 = .m ∨ getField (regs.satp md.2) satp64Mode = 0
    · simp only [if_pos hb]
      exact pageMap_zext (by omega) hp.2
    · simp only [if_neg hb]
      exact pageMap_sext hp.1 hp.2

theorem walkPageLevels_aligned {vi : View} {vm : VmInfo} {v : Reg} {l : Nat} {b page : Reg}
    (hf : walkPageLevels hw vi tables vm v l b = some page) : pageBase page = page := by
  induction l generalizing b with
  | zero => cases hf
  | succ l ih =>
    rw [walkPageLevels] at hf
    simp only [bind_eq_bind, bind_eq_some_iff] at hf
    obtain ⟨s, -, pte, -, hf⟩ := hf
    cases hk : s1Kind hw vi l (l * vm.idxbits) pte with
    | table =>
      rw [hk] at hf
      exact ih hf
    | leaf =>
      rw [hk] at hf
      dsimp only at hf
      split at hf
      · cases hf
      · exact s2Page_aligned hw vi tables (leafPage_aligned pte v _) hf
    | broken =>
      rw [hk] at hf
      cases hf
    | refused c =>
      rw [hk] at hf
      cases hf

theorem walkPage_aligned {vi : View} {v page : Reg} (h : walkPage hw vi tables v = some page) :
    pageBase page = page := by
  rw [walkPage] at h
  simp only [bind_eq_bind, bind_eq_some_iff] at h
  obtain ⟨vm, -, h⟩ := h
  split at h
  · split at h
    · cases h
    · exact s2Page_aligned hw vi tables (pageBase_idem _) h
  · split at h
    · cases h
    · exact walkPageLevels_aligned hw tables h

theorem page_add_offset {p : Reg} (off : Reg) (ha : pageBase p = p) : p + pageOffset off = p ||| pageOffset off := by
  apply add_eq_or_of_and_eq_zero _ _
  rw [← ha, pageBase, pageOffset]
  apply eq_of_getLsbD_eq
  intro j hb
  rw [getLsbD_and, getLsbD_and, getLsbD_and, getLsbD_not]
  cases pageMask.getLsbD j <;> simp

theorem pageOffset_toNat (ad : Reg) : (pageOffset ad).toNat = ad.toNat % 4096 := by
  exact Nat.and_two_pow_sub_one_eq_mod ad.toNat 12

theorem inPage_iff (ad : Reg) (len : Nat) : InPage ad len ↔ 1 ≤ len ∧ (pageOffset ad).toNat + len ≤ 4096 := by
  rw [pageOffset_toNat]
  exact ⟨fun hi => ⟨hi.nonempty, hi.fits⟩, fun hb => ⟨hb.1, hb.2⟩⟩

theorem pageOffset_or {p : Reg} (off : Reg) (ha : pageBase p = p) :
    pageOffset (p ||| pageOffset off) = pageOffset off := by
  rw [← ha]
  apply pageOffset_eq
  intro j hl
  rw [getLsbD_or, pageBase, pageOffset, getLsbD_and, getLsbD_and, getLsbD_not,
    pageMask_getLsbD]
  simp [hl]

def PageHeld (type : AccessType) (vpage target : Reg) : Prop :=
  ∀ vaddr len, pageBase vaddr = vpage → InPage vaddr len →
    translatePage hw tables regs (generateAccessInfo hw.isa regs vaddr type .none) len = some (target + pageOffset vaddr)

theorem translatePage_reserved (ty : AccessType) (va : Reg) (len : Nat) :
    translatePage hw tables regs (generateAccessInfo hw.isa regs va ty .reserved) len =
      translatePage hw tables regs (generateAccessInfo hw.isa regs va ty .none) len := rfl

theorem translatePage_plain (ty : AccessType) (va : Reg) (len : Nat) :
    translatePage hw tables regs (generateAccessInfo hw.isa regs va ty .none) len =
      (walkPage hw ((generateAccessInfo hw.isa regs va ty .none).view regs) tables
        (pageBase (generateAccessInfo hw.isa regs va ty .none).transformedVaddr)).bind fun p =>
          if pmpOk hw regs.pmp (p ||| pageOffset va) len ty (effectiveMode regs ty .none).1 false
          then some (p ||| pageOffset va) else none := by
  have h : pageOffset (generateAccessInfo hw.isa regs va ty .none).transformedVaddr = pageOffset va :=
    (transform_pageMap hw regs ty .none).offset va
  rw [← h]
  rfl

theorem PageHeld.of_translated {ty : AccessType} {va pa : Reg} {len : Nat} (hin : InPage va len)
    (ht : translatePage hw tables regs (generateAccessInfo hw.isa regs va ty .none) len = some pa)
    (hh : pmpHomogeneous hw regs.pmp (pageBase pa) 0x1000) :
    PageHeld hw regs tables ty (pageBase va) (pa - pageOffset va) := by
  rw [translatePage_plain, bind_eq_some_iff] at ht
  obtain ⟨page, hwa, hc⟩ := ht
  obtain ⟨all, hl⟩ := ite_none_right_eq_some.mp hc
  obtain rfl := Option.some.inj hl
  have ha := walkPage_aligned hw tables hwa
  have hb : ∀ ad, pageBase (page ||| pageOffset ad) = page := fun ad => pageBase_or page ad ha
  have he : ∀ ad len, InPage ad len → pmpOk hw regs.pmp (page ||| pageOffset ad) len ty
      (effectiveMode regs ty .none).1 false = pmpOk hw regs.pmp page 1 ty (effectiveMode regs ty .none).1 false := by
    intro ad len hi
    have hi' : InPage (page ||| pageOffset ad) len := by
      rw [inPage_iff] at hi ⊢
      rwa [pageOffset_or ad ha]
    rw [pmpOk_page hw regs.pmp hi' (by rw [hb] at hh ⊢; exact hh), hb]
  intro o sz hsa hi
  have hs : pageBase (generateAccessInfo hw.isa regs o ty .none).transformedVaddr =
      pageBase (generateAccessInfo hw.isa regs va ty .none).transformedVaddr :=
    (transform_pageMap hw regs ty .none).page_eq hsa
  rw [translatePage_plain, hs, ← page_add_offset va ha, BitVec.add_sub_cancel, page_add_offset o ha]
  show (walkPage hw ((generateAccessInfo hw.isa regs va ty .none).view regs) tables _).bind _ = _
  rw [hwa]
  exact if_pos ((he o sz hi).trans ((he va len hin).symm.trans all))

structure SameTranslation (isa : Isa) (type : AccessType) (regs regs' : Regs) : Prop where
  info : ∀ addr, generateAccessInfo isa regs' addr type .none = generateAccessInfo isa regs addr type .none
  view : ∀ addr, (generateAccessInfo isa regs addr type .none).view regs' =
    (generateAccessInfo isa regs addr type .none).view regs

theorem PageHeld.transfer {regs r' : Regs} {tables : Tables} {ty : AccessType} {v target : Reg}
    (hs : SameTranslation hw.isa ty regs r') (hh : PageHeld hw regs tables ty v target) :
    PageHeld hw r' tables ty v target := by
  intro va len hb hi
  have ht := hh va len hb hi
  have hp : r'.pmp = regs.pmp := congrArg View.pmp (hs.view va)
  rw [hs.info va]
  unfold translatePage at ht ⊢
  rwa [hs.view va, hp]

def EntryHeld (type : AccessType) (entry : TlbEntry) : Prop :=
  entry.tag = BitVec.allOnes 64 ∨ ∃ vaddr flags : Reg, Within tlbFlags flags ∧ entry.tag = vaddr >>> 12 ||| flags ∧
      (type = .fetch ∨ regs.mprv = false) ∧ PageHeld hw regs tables type (pageBase vaddr) entry.targetAddr

theorem tlbFlags_getLsbD {j : Nat} (hb : j < 64) : tlbFlags.getLsbD j = decide (61 ≤ j) := by
  have ha : ∀ i : Fin 64, tlbFlags.getLsbD i.val = decide (61 ≤ i.val) := by decide
  exact ha ⟨j, hb⟩

theorem flag_low {f : Reg} (hwi : Within tlbFlags f) {j : Nat} (hl : j < 61) : f.getLsbD j = false := by
  cases hb : f.getLsbD j with
  | false => rfl
  | true =>
    have hi := hwi.getLsbD hb
    rw [tlbFlags_getLsbD (by omega), decide_eq_true_eq] at hi
    omega

section
variable {a r : Reg} (al : Within tlbFlags a) (re : Within tlbFlags r)
include al re

theorem tag_hit_low {tag vpn : Reg} (hh : tag &&& (~~~a ||| r) = vpn ||| r) {j : Nat}
    (hl : j < 61) : tag.getLsbD j = vpn.getLsbD j := by
  have hb := congrArg (fun w => w.getLsbD j) hh
  rw [getLsbD_and, getLsbD_or, getLsbD_or, getLsbD_not, flag_low al hl, flag_low re hl] at hb
  simpa [show j < 64 by omega] using hb

theorem EntryHeld.of_hit {ty : AccessType} {e : TlbEntry} {vaddr : Reg} (hh : EntryHeld hw regs tables ty e)
    (hit : e.tag &&& (~~~a ||| r) = vaddr >>> 12 ||| r) : PageHeld hw regs tables ty (pageBase vaddr) e.targetAddr := by
  obtain hi | ⟨o, f, hwi, ht, -, hp⟩ := hh
  · have hb := tag_hit_low al re hit (show 60 < 61 by decide)
    rw [hi] at hb
    simp at hb
  · have hs : pageBase o = pageBase vaddr := by
      apply pageBase_eq
      intro j hhi hbo
      have hb := tag_hit_low al re hit (show j - 12 < 61 by omega)
      rw [ht, getLsbD_or, flag_low hwi (by omega), getLsbD_ushiftRight,
        getLsbD_ushiftRight, show 12 + (j - 12) = j by omega, Bool.or_false] at hb
      exact hb
    rwa [hs] at hp

end

end

variable {hw : Hardware}

structure Machine.Held (m : Machine hw) : Prop where
  cache : CacheHeld hw m.regs.pmp m.regs.debugMode m.pages
  entries : ∀ type slot, EntryHeld hw m.regs m.pages.tables type (m.tlb type slot)

def Machine.Coherent (m : Machine hw) : Prop := m.pages.changed = false → m.Held

structure Ready (hw : Hardware) (regs : Regs) (m : Machine hw) : Prop where
  coherent : m.Coherent
  same : m.regs = regs

theorem flushTlb_held {m : Machine hw} : m.flushTlb.Held := by
  refine ⟨fun paddr he hc => ?_, fun ty slot => .inl ?_⟩
  · rw [← hc] at he
    change (BitVec.allOnes 64).getLsbD 0 = false at he
    exact absurd he (by decide)
  · cases ty <;> rfl

theorem flushTlb_coherent (m : Machine hw) : m.flushTlb.Coherent := fun _ => flushTlb_held

theorem Machine.Coherent.of_dropped {m m' : Machine hw} (hc : m.Coherent) (r : m'.regs = m.regs)
    (hp : m'.pages = m.pages) (hd : ∀ ty sl, m'.tlb ty sl = m.tlb ty sl ∨ (m'.tlb ty sl).tag = BitVec.allOnes 64) :
    m'.Coherent := by
  intro hu
  rw [hp] at hu
  obtain ⟨hca, he⟩ := hc hu
  refine ⟨by rw [r, hp]; exact hca, fun ty sl => ?_⟩
  rw [r, hp]
  obtain sa | invalid := hd ty sl
  · rw [sa]
    exact he ty sl
  · exact .inl invalid

theorem checkTriggers_keeps_of {P : Machine hw → Prop} (h : ∀ m, P m → P { m.flushTlb with matchedTrigger := true })
    {e : Bool} {a : TriggerMatch} : Keeps P (checkTriggers e a) := by
  intro m hm
  unfold checkTriggers
  by_cases hs : (!e || m.matchedTrigger)
  · rw [if_pos hs]
    exact hm
  · rw [if_neg hs]
    cases a with
    | unmatched => exact hm
    | before => exact hm
    | after => exact h m hm

theorem checkTriggers_keeps {r : Regs} {e : Bool} {a : TriggerMatch} : Keeps (Ready hw r) (checkTriggers e a) :=
  checkTriggers_keeps_of fun m hr => ⟨(flushTlb_coherent m).of_dropped rfl rfl fun _ _ => .inl rfl, hr.same⟩

structure Translated (regs : Regs) (info : AccessInfo) (len : Nat) (paddr : Reg) (m : Machine hw) : Prop
    extends Ready hw regs m where
  translated : m.pages.changed = false → translatePage hw m.pages.tables regs info len = some paddr

theorem Machine.Held.steady {m : Machine hw} (hh : m.Held) (hu : m.pages.changed = false) :
    Steady hw m.regs.pmp m.regs.debugMode m.pages.tables m.pages := ⟨rfl, hu, hh.cache⟩

theorem Machine.Held.pages {m : Machine hw} {pages : PageStore} (hh : m.Held)
    (hs : Steady hw m.regs.pmp m.regs.debugMode m.pages.tables pages) : ({ m with pages := pages } : Machine hw).Held :=
  ⟨hs.cache, fun ty sl => by
    show EntryHeld hw m.regs pages.tables ty _
    rw [hs.same]
    exact hh.entries ty sl⟩

theorem translateIn_ensures (r : Regs) (i : AccessInfo) (len : Nat) :
    Ensures (Ready hw r) (translateIn i len) (Translated r i len) (Ready hw r) := by
  rintro m ⟨hco, rfl⟩
  unfold translateIn
  have ht := translate_tracks hw m.pages.tables m.regs i len
  have stale {ps : PageStore} {p : Prop} (hs : ps.changed) (hu : ps.changed = false) : p :=
    absurd (hu.symm.trans hs) (by decide)
  cases hc : m.pages.changed with
  | true =>
    have spoiled := ht.stays m.pages hc
    cases ho : translate hw m.regs i len m.pages with
    | ok p ps =>
      rw [ho] at spoiled
      exact ⟨⟨stale spoiled, rfl⟩, stale spoiled⟩
    | error f ps =>
      rw [ho] at spoiled
      exact ⟨stale spoiled, rfl⟩
  | false =>
    have hh := hco hc
    have hf := ht.follows m.pages (hh.steady hc)
    cases ho : translate hw m.regs i len m.pages with
    | ok p ps =>
      rw [ho] at hf
      obtain ⟨hfo, hs⟩ | ⟨-, spoiled⟩ := hf
      · refine ⟨⟨fun _ => hh.pages hs, rfl⟩, fun _ => ?_⟩
        rw [hs.same]
        exact hfo
      · exact ⟨⟨stale spoiled, rfl⟩, stale spoiled⟩
    | error f ps =>
      rw [ho] at hf
      obtain hs | spoiled := hf.2
      · exact ⟨fun _ => hh.pages hs, rfl⟩
      · exact ⟨stale spoiled, rfl⟩

section

theorem tlb_putTlb (m : Machine hw) (ty o : AccessType) (idx slot : Nat) (e : TlbEntry) :
    (m.putTlb ty idx e).tlb o slot = if o = ty ∧ slot = idx then e else m.tlb o slot := by
  cases ty <;> cases o <;> simp [putTlb, tlb]

theorem flushTlbPpn_dropped (ppn : Reg) (tlb : Nat → TlbEntry) (f : ReverseTags) (sl : Nat) :
    (flushTlbPpn ppn tlb f).1 sl = tlb sl ∨ ((flushTlbPpn ppn tlb f).1 sl).tag = BitVec.allOnes 64 := by
  unfold flushTlbPpn
  split
  · exact .inl rfl
  · dsimp only
    split
    · exact .inr rfl
    · exact .inl rfl

theorem flushStlbPpn_coherent {m : Machine hw} (hc : m.Coherent) (ppn : Reg) : (m.flushStlbPpn ppn).Coherent := by
  refine hc.of_dropped rfl rfl fun ty sl => ?_
  cases ty with
  | store => exact flushTlbPpn_dropped ppn m.tlbStore m.storeTags sl
  | load => exact .inl rfl
  | fetch => exact .inl rfl

theorem flushItlbPpn_coherent {m : Machine hw} (hc : m.Coherent) (ppn : Reg) : (m.flushItlbPpn ppn).Coherent := by
  refine hc.of_dropped rfl rfl fun ty sl => ?_
  cases ty with
  | fetch => exact flushTlbPpn_dropped ppn m.tlbInsn m.insnTags sl
  | load => exact .inl rfl
  | store => exact .inl rfl

variable {rg : Regs} {inf : AccessInfo} {len : Nat} {pa : Reg} {m : Machine hw}

theorem excludeStores_translated (hd : Translated rg inf len pa m) {t : Reg} :
    Translated rg inf len pa (m.excludeStores t) := by
  unfold excludeStores
  split
  · have hc := flushStlbPpn_coherent hd.coherent (t >>> 12)
    exact ⟨⟨hc.of_dropped rfl rfl fun _ _ => .inl rfl, hd.same⟩, hd.translated⟩
  · exact hd

theorem excludeFetches_translated (hd : Translated rg inf len pa m) {t : Reg} :
    Translated rg inf len pa (m.excludeFetches t) := by
  unfold excludeFetches
  split
  · have hc := flushItlbPpn_coherent hd.coherent (t >>> 12)
    exact ⟨⟨hc.of_dropped rfl rfl fun _ _ => .inl rfl, hd.same⟩, hd.translated⟩
  · exact hd

theorem putTlb_ready {ty : AccessType} {idx : Nat} {e : TlbEntry} (hr : Ready hw rg m)
    (hh : m.pages.changed = false → EntryHeld hw rg m.pages.tables ty e) : Ready hw rg (m.putTlb ty idx e) := by
  have sa : (m.putTlb ty idx e).regs = m.regs := by cases ty <;> rfl
  have hp : (m.putTlb ty idx e).pages = m.pages := by cases ty <;> rfl
  refine ⟨fun hu => ?_, sa.trans hr.same⟩
  rw [hp] at hu
  obtain ⟨hca, he⟩ := hr.coherent hu
  refine ⟨by rw [sa, hp]; exact hca, fun o sl => ?_⟩
  rw [sa, hp, tlb_putTlb]
  split
  case isTrue hc =>
    rw [hc.1, hr.same]
    exact hh hu
  case isFalse => exact he o sl

theorem refillTlb_ready {ty : AccessType} {v : Reg} {ha : Reg} (hi : InPage v len)
    (hd : Translated rg (generateAccessInfo hw.isa rg v ty .none) len pa m) : Ready hw rg (m.refillTlb v pa ha ty) := by
  unfold refillTlb
  dsimp only
  split
  case isTrue => exact hd.toReady
  case isFalse hf =>
    simp only [Bool.not_eq_true, Bool.or_eq_false_iff, Bool.not_eq_false'] at hf
    have hm : rg.mprv = false := by
      rw [← hd.same]
      exact hf.1.1
    have hh : pmpHomogeneous hw rg.pmp (pageBase pa) 0x1000 := by
      rw [← hd.same]
      exact hf.1.2
    refine putTlb_ready hd.toReady fun hu => .inr ⟨v, _, ?_, rfl, .inr hm, ?_⟩
    · exact ((within_ite fun _ => by decide).or (within_ite fun _ => by decide)).or (within_ite fun _ => by decide)
    · exact PageHeld.of_translated hw rg m.pages.tables hi (hd.translated hu) hh

end

section

theorem accessLen_cases (lg : Fin 5) :
    accessLen lg = 1 ∨ accessLen lg = 2 ∨ accessLen lg = 4 ∨ accessLen lg = 8 ∨ accessLen lg = 16 := by
  revert lg
  decide

variable {inf : AccessInfo} (s : pageOffset inf.transformedVaddr = pageOffset inf.vaddr)
include s

theorem inPage_aligned (lg : Fin 5) (ha : inf.transformedVaddr &&& BitVec.ofNat 64 (accessLen lg - 1) = 0) :
    InPage inf.vaddr (accessLen lg) := by
  have hc := accessLen_cases lg
  rw [inPage_iff, ← s, pageOffset_toNat]
  have hr : inf.transformedVaddr.toNat % accessLen lg = 0 := by
    have hv := congrArg BitVec.toNat ha
    rw [BitVec.toNat_and, BitVec.toNat_ofNat, Nat.mod_eq_of_lt (by omega)] at hv
    rw [accessLen, Nat.and_two_pow_sub_one_eq_mod] at hv
    exact hv
  rcases hc with len | len | len | len | len
  all_goals rw [len] at hr ⊢; omega

theorem inPage_head {len : Nat} (hn : 1 ≤ len) : InPage inf.vaddr (lenPage0 inf.transformedVaddr len) := by
  have ho := congrArg BitVec.toNat s
  rw [pageOffset_toNat, pageOffset_toNat] at ho
  unfold lenPage0 pageSize
  exact ⟨by omega, by omega⟩

theorem inPage_tail {len : Nat} (hs2 : len ≤ 4096) (hs : lenPage0 inf.transformedVaddr len ≠ len) :
    InPage (inf.vaddr + BitVec.ofNat 64 (lenPage0 inf.transformedVaddr len))
      (len - lenPage0 inf.transformedVaddr len) := by
  have ho := congrArg BitVec.toNat s
  rw [pageOffset_toNat, pageOffset_toNat] at ho
  have hh : lenPage0 inf.transformedVaddr len = 4096 - inf.vaddr.toNat % 4096 := by
    unfold lenPage0 pageSize at hs ⊢
    omega
  have hsh : lenPage0 inf.transformedVaddr len ≤ len := by
    unfold lenPage0
    omega
  refine ⟨by omega, ?_⟩
  rw [BitVec.toNat_add, BitVec.toNat_ofNat]
  omega

end

structure Splits (len : Nat) (Fits : Reg → Nat → Prop) : Prop where
  whole : ∀ {info : AccessInfo}, pageOffset info.transformedVaddr = pageOffset info.vaddr →
    info.transformedVaddr &&& BitVec.ofNat 64 (len - 1) = 0 → Fits info.vaddr len
  head : ∀ {info : AccessInfo}, pageOffset info.transformedVaddr = pageOffset info.vaddr →
    Fits info.vaddr (lenPage0 info.transformedVaddr len)
  tail : ∀ {info : AccessInfo}, pageOffset info.transformedVaddr = pageOffset info.vaddr →
    lenPage0 info.transformedVaddr len ≠ len →
      Fits (info.vaddr + BitVec.ofNat 64 (lenPage0 info.transformedVaddr len)) (len - lenPage0 info.transformedVaddr len)

theorem splits_any {len : Nat} : Splits len fun _ _ => True := ⟨fun _ _ => ⟨⟩, fun _ => ⟨⟩, fun _ _ => ⟨⟩⟩

theorem splits_accessLen (lg : Fin 5) : Splits (accessLen lg) InPage := by
  have hl := accessLen_cases lg
  exact ⟨fun hs => inPage_aligned hs lg, fun hs => inPage_head hs (by omega), fun hs => inPage_tail hs (by omega)⟩

section
variable {P : Machine hw → Prop} {Fits : Reg → Nat → Prop} {len : Nat} {f : XlateFlags} {va : Reg} {p : Location}

theorem performIntrapageLoad_keeps : Keeps P (performIntrapageLoad va p len f) :=
  Keeps.read fun _ _ => Keeps.ite (fun _ => Keeps.pure _) fun _ => Keeps.throw _

theorem performIntrapageStore_keeps : Keeps P (performIntrapageStore va p len f) :=
  Keeps.read fun _ _ => Keeps.ite (fun _ => Keeps.pure _) fun _ => Keeps.throw _

theorem performIntrapageFetch_keeps : Keeps P (performIntrapageFetch va p) :=
  Keeps.read fun _ _ => Keeps.ite (fun _ => Keeps.pure _) fun _ => Keeps.throw _

variable (hc : ∀ {e a}, Keeps P (checkTriggers e a))
include hc

theorem load_keeps_of (hs : Splits len Fits) (hl : ∀ {m va len}, P m → Fits va len →
    Keeps P (locateLoad len (generateAccessInfo hw.isa m.regs va .load f))) {fst snd : TriggerMatch} :
    Keeps P (load va len f fst snd) := by
  have hi {m : Machine hw} {va : Reg} {len : Nat} (hm : P m) (hf : Fits va len) :
      Keeps P (loadSlowPathIntrapage len (generateAccessInfo hw.isa m.regs va .load f)) :=
    (hl hm hf).bind fun _ => Keeps.ite (fun _ => Keeps.throw _) fun _ => performIntrapageLoad_keeps
  have hp {m : Machine hw} (hm : P m) : Keeps P (loadParts len (generateAccessInfo hw.isa m.regs va .load f)) := by
    have ho := (transform_pageMap hw m.regs .load f).offset va
    exact Keeps.ite (fun ha => hi hm (hs.whole ho ha)) fun _ => Keeps.ite (fun _ => Keeps.throw _) fun _ =>
      Keeps.ite (fun _ => Keeps.throw _) fun _ => (hi hm (hs.head ho)).bind fun _ =>
        Keeps.ite (fun hn => Keeps.read fun _ hm => hi hm (hs.tail ho hn)) fun _ => Keeps.pure _
  have hw : Keeps P (loadSlowPath va len f fst snd) :=
    Keeps.read fun _ hm => Keeps.ite (fun _ => performIntrapageLoad_keeps) fun _ =>
      hc.bind fun _ => (hp hm).bind fun _ => hc
  exact Keeps.read fun _ _ => Keeps.ite (fun _ => Keeps.pure _) fun _ => hw

theorem storeSlowPath_keeps_of (hs : Splits len Fits) (hl : ∀ {m va len}, P m → Fits va len →
    Keeps P (locateStore len (generateAccessInfo hw.isa m.regs va .store f))) {ast r : Bool} {a : TriggerMatch} :
    Keeps P (storeSlowPath va len f ast r a) := by
  have hi {m : Machine hw} {va : Reg} {len : Nat} (hm : P m) (hf : Fits va len) :
      Keeps P (storeSlowPathIntrapage len (generateAccessInfo hw.isa m.regs va .store f) ast) :=
    (hl hm hf).bind fun _ => Keeps.ite (fun _ => performIntrapageStore_keeps) fun _ => Keeps.pure _
  have hp {m : Machine hw} (hm : P m) :
      Keeps P (storeParts len (generateAccessInfo hw.isa m.regs va .store f) ast r) := by
    have ho := (transform_pageMap hw m.regs .store f).offset va
    exact Keeps.ite (fun ha => hi hm (hs.whole ho ha)) fun _ => Keeps.ite (fun _ => Keeps.throw _) fun _ =>
      Keeps.ite (fun _ => Keeps.throw _) fun _ => (hi hm (hs.head ho)).bind fun _ =>
        Keeps.ite (fun hn => Keeps.read fun _ hm => hi hm (hs.tail ho hn)) fun _ => Keeps.pure _
  exact Keeps.read fun _ hm => Keeps.ite
    (fun _ => Keeps.ite (fun _ => performIntrapageStore_keeps) fun _ => Keeps.pure _)
    fun _ => hc.bind fun _ => hp hm

omit hc in
theorem store_keeps_of {a : TriggerMatch} (h : Keeps P (storeSlowPath va len f true false a)) :
    Keeps P (store va len f a) :=
  Keeps.read fun _ _ => Keeps.ite (fun _ => Keeps.pure _) fun _ => h

theorem fetchInsnParcel_keeps_of (hm : Keeps P (modifyMachine ({ · with matchedTrigger := false })))
    (hl : ∀ {m a}, P m → Keeps P (locateFetch (generateAccessInfo hw.isa m.regs va .fetch .none) a))
    {fst snd : TriggerMatch} : Keeps P (fetchInsnParcel va fst snd) := by
  have hw : Keeps P (fetchSlowPath va fst snd) :=
    Keeps.read fun _ hp => Keeps.ite (fun _ => hm.bind fun _ => Keeps.throw _) fun _ =>
      Keeps.ite (fun _ => performIntrapageFetch_keeps) fun _ => hc.bind fun _ => (hl hp).bind fun _ =>
        performIntrapageFetch_keeps.bind fun _ => hc
  exact Keeps.read fun _ _ => Keeps.ite (fun _ => Keeps.pure _) fun _ => hw

end

section
variable {rg : Regs}

theorem modifyMachine_ensures {f : Machine hw → Machine hw} {pre kept : Machine hw → Prop} (p : Machine hw → Prop)
    (h : ∀ m, pre m → p (f m)) : Ensures pre (modifyMachine f) (fun _ => p) kept := h

theorem LoadKind.translatePage_filling (ki : LoadKind) {ts : Tables} {v : Reg} {len : Nat}
    (h : (ki.flags.isSpecialAccess && !ki.flags.lr) ≠ true) :
    translatePage hw ts rg (generateAccessInfo hw.isa rg v .load ki.flags) len =
      translatePage hw ts rg (generateAccessInfo hw.isa rg v .load .none) len := by
  cases ki with
  | plain => rfl
  | reserved => exact translatePage_reserved hw rg ts .load v len
  | guest => exact absurd rfl h
  | guestX => exact absurd rfl h
  | shadowStack => exact absurd rfl h

variable (k : StoreKind) {va : Reg}

theorem StoreKind.flags_filling (h : k.flags.isSpecialAccess ≠ true) : k.flags = .none := by
  cases k with
  | plain => rfl
  | guest => exact absurd rfl h
  | shadowStack => exact absurd rfl h

theorem locateLoad_keeps {k : LoadKind} {len : Nat} (hi : InPage va len) :
    Keeps (Ready hw rg) (locateLoad len (generateAccessInfo hw.isa rg va .load k.flags)) := by
  refine Keeps.read fun m _ => Keeps.ite (fun _ => ?_) fun _ => Keeps.pure _
  refine Ensures.bind (translateIn_ensures rg _ len) fun paddr => ?_
  split
  case isTrue => exact Ensures.pure fun _ hd => hd.toReady
  case isFalse hf =>
    refine Ensures.bind (modifyMachine_ensures (Ready hw rg) fun m hd => ?_) fun _ => Keeps.pure _
    refine refillTlb_ready hi ⟨hd.toReady, fun hu => ?_⟩
    exact (k.translatePage_filling hf).symm.trans (hd.translated hu)

theorem locateStore_keeps {len : Nat} (hi : InPage va len) :
    Keeps (Ready hw rg) (locateStore len (generateAccessInfo hw.isa rg va .store k.flags)) := by
  refine Keeps.read fun m _ => Keeps.ite (fun _ => ?_) fun _ => Keeps.pure _
  refine Ensures.bind (translateIn_ensures rg _ len) fun p => ?_
  refine Ensures.bind (modifyMachine_ensures (Translated rg _ len p) fun _ hd =>
    excludeFetches_translated hd) fun _ => ?_
  split
  case isTrue => exact Ensures.pure fun _ hd => hd.toReady
  case isFalse hf =>
    refine Ensures.bind (modifyMachine_ensures (Ready hw rg) fun m hd => ?_) fun _ => Keeps.pure _
    rw [k.flags_filling hf] at hd
    exact refillTlb_ready hi hd

theorem locateFetch_keeps (hi : InPage va 2) {a : TlbAnswer} :
    Keeps (Ready hw rg) (locateFetch (generateAccessInfo hw.isa rg va .fetch .none) a) := by
  refine Keeps.ite (fun _ => Keeps.pure _) fun _ => ?_
  refine Ensures.bind (translateIn_ensures rg _ 2) fun p => ?_
  refine Ensures.bind (modifyMachine_ensures (Translated rg _ 2 p) fun _ hd =>
    excludeStores_translated hd) fun _ => ?_
  exact Ensures.bind (modifyMachine_ensures (Ready hw rg) fun _ hd => refillTlb_ready hi hd)
    fun _ => Keeps.pure _

theorem load_keeps (k : LoadKind) (a : Reg) (lg : Fin 5) (fst snd : TriggerMatch) :
    Keeps (Ready hw rg) (load a (accessLen lg) k.flags fst snd) := by
  refine load_keeps_of checkTriggers_keeps (splits_accessLen lg) fun hm hi => ?_
  rw [hm.same]
  exact locateLoad_keeps hi

theorem storeSlowPath_keeps (ad : Reg) (lg : Fin 5) (ast r : Bool) (a : TriggerMatch) :
    Keeps (Ready hw rg) (storeSlowPath ad (accessLen lg) k.flags ast r a) := by
  refine storeSlowPath_keeps_of checkTriggers_keeps (splits_accessLen lg) fun hm hi => ?_
  rw [hm.same]
  exact locateStore_keeps k hi

theorem fetchInsnParcel_keeps (hi : InPage va 2) (fst snd : TriggerMatch) :
    Keeps (Ready hw rg) (fetchInsnParcel va fst snd) := by
  refine fetchInsnParcel_keeps_of checkTriggers_keeps (fun m hr => ⟨?_, hr.same⟩) fun hm => ?_
  · exact hr.coherent.of_dropped rfl rfl fun _ _ => .inl rfl
  · rw [hm.same]
    exact locateFetch_keeps hi

theorem translateIn_keeps (i : AccessInfo) (len : Nat) : Keeps (Ready hw rg) (translateIn i len) := by
  intro m hr
  have he := translateIn_ensures rg i len m hr
  cases ho : translateIn i len m with
  | ok _ _ => rw [ho] at he; exact he.toReady
  | error _ _ => rw [ho] at he; exact he

end

end RiscvEmulators.Spike.Mmu
