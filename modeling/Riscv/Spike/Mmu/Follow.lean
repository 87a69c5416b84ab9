import Riscv.Spike.Mmu.Page

namespace RiscvEmulators.Spike.Mmu
open Word Transition BitVec Option
variable (hw : Hardware) (v : View) (tables : Tables)

@[simp] theorem pteCacheInsert_tables (s : PageStore) (pa pte : Reg) : (pteCacheInsert s pa pte).tables = s.tables := by
  unfold pteCacheInsert PageStore.tables
  split <;> rfl

@[simp] theorem pteCacheInsert_changed {s : PageStore} {pa pte : Reg} :
    (pteCacheInsert s pa pte).changed = s.changed := by
  unfold pteCacheInsert
  split <;> rfl

theorem pteCacheInsert_held {pmp : PmpRegs} {d : Bool} {s : PageStore} {pa pte : Reg}
    (held : CacheHeld hw pmp d s) (hr : tablePte hw pmp d s.tables pa = some pte) :
    CacheHeld hw pmp d (pteCacheInsert s pa pte) := by
  intro o he hh
  rw [pteCacheInsert_tables]
  unfold pteCacheInsert at hh ⊢
  split
  · rename_i hv
    rw [if_pos hv] at hh
    dsimp only at hh ⊢
    by_cases hs : o.toNat % 251 = pa.toNat % 251
    · rw [if_pos hs] at hh ⊢
      rw [← hh, hr]
    · rw [if_neg hs] at hh ⊢
      exact held o he hh
  · rename_i hi
    rw [if_neg hi] at hh
    exact held o he hh

theorem pteLoad_stays (pa addr : Reg) (t : AccessType) : Stays Spoiled (pteLoad hw v pa addr t) := by
  intro s h
  unfold pteLoad
  dsimp only
  repeat' split
  all_goals first | exact h | (simp only [finalState, Spoiled, pteCacheInsert_changed]; exact h)

theorem pteLoad_tracks {paddr : Reg} (he : paddr.getLsbD 0 = false) {addr : Reg} {t : AccessType} :
    Tracks (Steady hw v.pmp v.debugMode tables) Spoiled (pteLoad hw v paddr addr t)
      (tablePte hw v.pmp v.debugMode tables paddr) := by
  refine ⟨fun s hs => ?_, fun s spare => ?_⟩
  · obtain rfl := hs.same
    unfold pteLoad
    dsimp only
    split
    · rename_i hh
      exact .inl ⟨hs.cache paddr he hh, hs⟩
    · split
      · rename_i denied
        refine ⟨?_, .inl hs⟩
        rw [tablePte, if_neg (by simpa using denied)]
      · rename_i ha
        have hd : tablePte hw v.pmp v.debugMode s.tables paddr = readPte hw v.debugMode s.ram s.device paddr := by
          rw [tablePte, if_pos (by simpa using ha)]
          rfl
        split
        · rename_i pte hr
          rw [hr] at hd
          refine .inl ⟨hd, pteCacheInsert_tables _ _ _, pteCacheInsert_changed.trans hs.unchanged, ?_⟩
          exact pteCacheInsert_held hw hs.cache hd
        · rename_i hr
          exact ⟨hd.trans hr, .inl hs⟩
  · exact pteLoad_stays hw v paddr addr t s spare

theorem pteStore_tracks {pa pte addr : Reg} {t : AccessType} :
    Tracks (Steady hw v.pmp v.debugMode tables) Spoiled (pteStore hw v pa pte addr t) none := by
  refine ⟨fun s steady => ?_, fun s hs => ?_⟩
  · unfold pteStore
    repeat' split
    all_goals first
      | exact ⟨rfl, .inl steady⟩
      | exact .inr ⟨rfl, pteCacheInsert_changed⟩
  · unfold pteStore
    repeat' split
    all_goals first
      | exact hs
      | exact pteCacheInsert_changed

theorem pageBase_shift (addr : Reg) {n : Nat} (h : 12 ≤ n) : pageBase addr >>> n = addr >>> n := by
  apply eq_of_getLsbD_eq
  intro j _
  rw [getLsbD_ushiftRight, getLsbD_ushiftRight]
  exact getLsbD_of_pageBase_eq (pageBase_idem addr) (by omega)

theorem pteIndex_page (addr : Reg) (p idxbits : Nat) :
    pteIndex (pageBase addr) p idxbits = pteIndex addr p idxbits := by
  rw [pteIndex, pteIndex, pageBase_shift addr (by omega)]

theorem leafPage_page (pte addr : Reg) (ptshift : Nat) :
    leafPage pte (pageBase addr) ptshift = leafPage pte addr ptshift := by
  rw [leafPage, leafPage, pageBase_shift addr (Nat.le_refl 12)]

theorem pageBase_or_offset (addr : Reg) : pageBase addr ||| (addr &&& pageMask) = addr := by
  apply eq_of_getLsbD_eq
  intro j h
  simp only [pageBase, getLsbD_or, getLsbD_and, getLsbD_not, h]
  cases addr.getLsbD j <;> cases pageMask.getLsbD j <;> rfl

theorem pageBase_shiftLeft {x : Reg} : pageBase (x <<< 12) = x <<< 12 := by
  rw [← toNat_inj, pageBase_toNat, toNat_shiftLeft]
  omega

theorem pageBase_or (page off : Reg) (ha : pageBase page = page) : pageBase (page ||| (off &&& pageMask)) = page := by
  apply eq_of_getLsbD_eq
  intro j hb
  have bit := congrArg (fun w => w.getLsbD j) ha
  simp only [pageBase, getLsbD_or, getLsbD_and, getLsbD_not, hb]
    at bit ⊢
  rw [← bit]
  cases page.getLsbD j <;> cases off.getLsbD j <;> cases pageMask.getLsbD j <;> rfl

theorem low_mask_getLsbD {n j : Nat} (hb : j < 64) : (((1 : Reg) <<< n) - 1).getLsbD j = decide (j < n) := by
  by_cases hf : n < 64
  · rw [← testBit_toNat, toNat_low_mask hf, Nat.testBit_two_pow_sub_one]
  · have hz : (1 : Reg) <<< n = 0 := shiftLeft_eq_zero (by omega)
    rw [hz, show (0 : Reg) - 1 = BitVec.allOnes 64 from rfl, getLsbD_allOnes]
    simp
    omega

theorem page_above_zero_iff (addr : Reg) {n : Nat} (wide : 12 ≤ n) :
    pageBase addr &&& ~~~(((1 : Reg) <<< n) - 1) = 0 ↔ addr &&& ~~~(((1 : Reg) <<< n) - 1) = 0 := by
  have hs : pageBase addr &&& ~~~(((1 : Reg) <<< n) - 1) = addr &&& ~~~(((1 : Reg) <<< n) - 1) := by
    apply eq_of_getLsbD_eq
    intro j hb
    simp only [pageBase, getLsbD_and, getLsbD_not, hb, low_mask_getLsbD hb, pageMask_getLsbD]
    by_cases hl : j < 12
    · simp [show j < n by omega]
    · simp [hl]
  rw [hs]

theorem even_shiftLeft {x : Reg} : (x <<< 12).getLsbD 0 = false := by simp

theorem even_slot {b : Reg} (he : b.getLsbD 0 = false) (i : Reg) (x : Xlen) :
    (b + i * BitVec.ofNat 64 (pteSize x)).getLsbD 0 = false := by
  have hp : (i * BitVec.ofNat 64 (pteSize x)).getLsbD 0 = false := by
    rw [← testBit_toNat, toNat_mul, Nat.testBit_zero]
    cases x <;> simp only [pteSize, toNat_ofNat, decide_eq_false_iff_not] <;> omega
  rw [getLsbD_add (by decide), carry_zero, he, hp]
  rfl

variable (rq : S2Request) (vm : VmInfo) (addr : Reg)

theorem s2UpdateAd_tracks (pa pte : Reg) : Tracks (Steady hw v.pmp v.debugMode tables) Spoiled (rq.updateAd hw v pa pte)
    (if pte &&& adBits rq.type ≠ adBits rq.type then none else some ()) := by
  unfold S2Request.updateAd
  by_cases hs : pte &&& adBits rq.type = adBits rq.type
  · rw [if_pos hs, if_neg fun hm => hm hs]
    exact Tracks.pure ()
  · rw [if_neg hs]
    split
    · exact pteStore_tracks hw v tables
    · exact Tracks.throw _

theorem s2Levels_tracks {l : Nat} {b : Reg} (he : b.getLsbD 0 = false) :
    Tracks (Steady hw v.pmp v.debugMode tables) Spoiled (rq.levels hw v vm l b)
      ((s2PageLevels hw v tables vm (pageBase rq.gpa) rq.type rq.hlvx (rq.mxr v) l
        b).map (· ||| (rq.gpa &&& pageMask))) := by
  induction l generalizing b with
  | zero => exact Tracks.throw _
  | succ l ih =>
    have hs := even_slot he (pteIndex rq.gpa (l * vm.idxbits) (S2Request.idxbits vm l))
      hw.isa.maxXlen
    rw [s2PageLevels, pteIndex_page, bind_eq_bind, map_bind]
    refine Tracks.bind (pteLoad_tracks hw v tables hs) (fun pte _ => ?_) fun pte => ?_
    · dsimp only [Function.comp]
      cases s2Kind hw v rq.type rq.hlvx (rq.mxr v) l (l * vm.idxbits) pte with
      | table => exact ih even_shiftLeft
      | leaf =>
        have leaf := Tracks.bind (s2UpdateAd_tracks hw v tables rq
          (b + pteIndex rq.gpa (l * vm.idxbits) (S2Request.idxbits vm l) *
            BitVec.ofNat 64 (pteSize hw.isa.maxXlen)) pte)
          (fun _ _ => Tracks.pure (leafPage pte rq.gpa (l * vm.idxbits) ||| (rq.gpa &&& pageMask)))
          fun _ => Stays.pure _
        rw [leafPage_page]
        dsimp only
        split <;> simp_all
      | broken => exact Tracks.throw _
      | refused c => exact Tracks.throw _
    · split
      · exact (ih even_shiftLeft).stays
      · exact Stays.bind (s2UpdateAd_tracks hw v tables rq _ _).stays fun _ => Stays.pure _
      · exact Stays.throw _

theorem decodeVmInfo_even {x : Xlen} {s : Bool} {prv : Prv} {sa : Reg} {vm : VmInfo}
    (h : decodeVmInfo x s prv sa = some vm) : vm.ptbase.getLsbD 0 = false := by
  cases x with
  | rv32 =>
    cases s <;> simp only [decodeVmInfo, Bool.false_eq_true, ↓reduceIte] at h <;> split at h
    all_goals cases h
    all_goals first | rfl | exact even_shiftLeft
  | rv64 =>
    cases s <;> simp only [decodeVmInfo, Bool.false_eq_true, ↓reduceIte] at h <;> split at h
    all_goals first
      | cases h; rfl
      | obtain ⟨ls, -, rfl⟩ := map_eq_some_iff.mp h; exact even_shiftLeft

theorem s2xlate_tracks : Tracks (Steady hw v.pmp v.debugMode tables) Spoiled (s2xlate hw v rq)
    ((s2Page hw v tables (pageBase rq.gpa) rq.type rq.hlvx rq.isForVsPtAddr).map (· ||| (rq.gpa &&& pageMask))) := by
  have walks : Tracks (Steady hw v.pmp v.debugMode tables) Spoiled (pure rq.gpa : Walker Reg)
      ((some (pageBase rq.gpa)).map (· ||| (rq.gpa &&& pageMask))) := by
    rw [map_some, pageBase_or_offset]
    exact Tracks.pure _
  unfold s2xlate s2Page
  by_cases hh : v.virt = false
  · rw [if_pos (by simp [hh]), if_pos (by simp [hh])]
    exact walks
  · rw [if_neg (by simpa using hh), if_neg (by simpa using hh)]
    cases hd : decodeVmInfo hw.isa.maxXlen true .u v.hgatp with
    | none => exact Tracks.throw _
    | some vm =>
      dsimp only [bind_eq_bind, bind_some]
      by_cases hb : vm.levels = 0
      · rw [if_pos hb, if_pos hb]
        exact walks
      · rw [if_neg hb, if_neg hb]
        have hf := page_above_zero_iff rq.gpa (n := vm.levels * vm.idxbits + vm.widenbits + 12) (by omega)
        by_cases hi : rq.gpa &&& ~~~(((1 : Reg) <<< (vm.levels * vm.idxbits + vm.widenbits + 12)) - 1) = 0
        · rw [if_pos hi, if_pos (hf.mpr hi)]
          exact s2Levels_tracks hw v tables rq vm (decodeVmInfo_even hd)
        · rw [if_neg hi, if_neg fun hp => hi (hf.mp hp)]
          exact Tracks.throw _

theorem leafPage_aligned (pte addr : Reg) (ptshift : Nat) :
    pageBase (leafPage pte addr ptshift) = leafPage pte addr ptshift :=
  pageBase_shiftLeft

theorem s2PageLevels_aligned {vm : VmInfo} {g : Reg} {ty : AccessType} {h mxr : Bool} {l : Nat} {b page : Reg}
    (hf : s2PageLevels hw v tables vm g ty h mxr l b = some page) : pageBase page = page := by
  induction l generalizing b with
  | zero => cases hf
  | succ l ih =>
    obtain ⟨pte, -, hr⟩ := bind_eq_some_iff.mp hf
    split at hr
    · exact ih hr
    · split at hr
      · cases hr
      · cases hr
        exact leafPage_aligned _ _ _
    · cases hr

theorem s2Page_aligned {g : Reg} {ty : AccessType} {h i : Bool} {page : Reg} (ha : pageBase g = g)
    (hf : s2Page hw v tables g ty h i = some page) : pageBase page = page := by
  unfold s2Page at hf
  split at hf
  · cases hf
    exact ha
  · obtain ⟨vm, -, hr⟩ := bind_eq_some_iff.mp hf
    split at hr
    · cases hr
      exact ha
    · split at hr
      · exact s2PageLevels_aligned hw v tables hr
      · cases hr

theorem s2xlate_page_tracks (p : Reg) (hi : pageBase rq.gpa = p) : Tracks (Steady hw v.pmp v.debugMode tables) Spoiled
    (s2xlate hw v rq >>= fun f => (pure (pageBase f) : Walker Reg))
    (s2Page hw v tables p rq.type rq.hlvx rq.isForVsPtAddr) := by
  subst hi
  have hv : s2Page hw v tables (pageBase rq.gpa) rq.type rq.hlvx rq.isForVsPtAddr =
      ((s2Page hw v tables (pageBase rq.gpa) rq.type rq.hlvx rq.isForVsPtAddr).map
          (· ||| (rq.gpa &&& pageMask))) >>= fun f => some (pageBase f) := by
    cases hf : s2Page hw v tables (pageBase rq.gpa) rq.type rq.hlvx rq.isForVsPtAddr with
    | none => rfl
    | some p =>
      have ha := s2Page_aligned hw v tables (pageBase_idem _) hf
      rw [map_some, bind_eq_bind, bind_some, pageBase_or _ _ ha]
  rw [hv]
  exact Tracks.bind (s2xlate_tracks hw v tables rq) (fun f _ => Tracks.pure _) fun f => Stays.pure _

theorem updateAd_tracks (sl pa pte : Reg) :
    Tracks (Steady hw v.pmp v.debugMode tables) Spoiled (updateAd hw v addr sl pa pte)
      (if pte &&& adBits v.walkType ≠ adBits v.walkType then none else some ()) := by
  unfold updateAd
  by_cases hs : pte &&& adBits v.walkType = adBits v.walkType
  · rw [if_pos hs, if_neg fun hm => hm hs]
    exact Tracks.pure ()
  · rw [if_neg hs]
    split
    · exact (s2xlate_tracks hw v tables _).bind_none fun _ => pteStore_tracks hw v tables
    · exact Tracks.throw _

theorem walkLevels_tracks {l : Nat} {b : Reg} (he : b.getLsbD 0 = false) :
    Tracks (Steady hw v.pmp v.debugMode tables) Spoiled (walkLevels hw v vm addr l b)
      (walkPageLevels hw v tables vm (pageBase addr) l b) := by
  induction l generalizing b with
  | zero => exact Tracks.throw _
  | succ l ih =>
    have hs := even_slot he (pteIndex addr (l * vm.idxbits) vm.idxbits) hw.isa.maxXlen
    rw [walkPageLevels, walkLevels, pteIndex_page]
    generalize b + pteIndex addr (l * vm.idxbits) vm.idxbits * BitVec.ofNat 64 (pteSize hw.isa.maxXlen) = sl
      at hs
    have hp : ∀ s, s2Page hw v tables (pageBase sl) .load false true = some s →
        (s ||| (sl &&& pageMask)).getLsbD 0 = false := by
      intro s hf
      rw [getLsbD_or, getLsbD_and, hs, ← s2Page_aligned hw v tables (pageBase_idem sl) hf,
        pageBase, getLsbD_and, getLsbD_not, pageMask_getLsbD]
      simp
    refine Tracks.bind_map (s2xlate_tracks hw v tables ⟨addr, sl, .load, v.walkType, false, true⟩)
      (fun s hf => Tracks.bind (pteLoad_tracks hw v tables (hp s hf))
        (fun pte _ => ?_) fun pte => ?_)
      fun p => Stays.bind (pteLoad_stays hw v _ _ _) fun pte => ?_
    · cases s1Kind hw v l (l * vm.idxbits) pte with
      | table => exact ih even_shiftLeft
      | refused c => exact Tracks.throw _
      | broken => exact Tracks.throw _
      | leaf =>
        have leaf := Tracks.bind (updateAd_tracks hw v tables addr sl (s ||| (sl &&& pageMask)) pte)
          (fun _ _ => s2xlate_page_tracks hw v tables ⟨addr, leafPage pte addr (l * vm.idxbits) |||
            (addr &&& pageMask), v.walkType, v.walkType, v.flags.hlvx, false⟩ _
            (pageBase_or _ _ (leafPage_aligned _ _ _)))
          fun _ => Stays.bind (s2xlate_tracks hw v tables _).stays fun _ => Stays.pure _
        rw [leafPage_page]
        dsimp only at leaf ⊢
        split <;> simp_all
    all_goals
      split
      · exact (ih even_shiftLeft).stays
      · exact Stays.throw _
      · exact Stays.throw _
      · exact Stays.bind (updateAd_tracks hw v tables _ _ _ _).stays fun _ =>
          Stays.bind (s2xlate_tracks hw v tables _).stays fun _ => Stays.pure _

theorem decodeVmInfo_paged {x : Xlen} {s : Bool} {prv : Prv} {sa : Reg} {vm : VmInfo}
    (hd : decodeVmInfo x s prv sa = some vm) (hp : vm.levels ≠ 0) : 1 ≤ vm.levels * vm.idxbits := by
  have some' : 1 ≤ vm.idxbits := by
    cases x with
    | rv32 =>
      rw [decodeVmInfo] at hd
      by_cases hb : prv = .m ∨ getField sa (if s then hgatp32Mode else satp32Mode) = 0
      · rw [if_pos hb] at hd
        cases hd
        exact absurd rfl hp
      · rw [if_neg hb] at hd
        cases hd
        show 1 ≤ 10
        decide
    | rv64 =>
      rw [decodeVmInfo] at hd
      by_cases hb : prv = .m ∨ getField sa (if s then hgatp64Mode else satp64Mode) = 0
      · rw [if_pos hb] at hd
        cases hd
        exact absurd rfl hp
      · rw [if_neg hb] at hd
        obtain ⟨ls, -, rfl⟩ := map_eq_some_iff.mp hd
        show 1 ≤ 9
        decide
  exact Nat.mul_pos (Nat.pos_of_ne_zero hp) some'

theorem zext_page (pos : Nat) : pageBase (zext (pageBase addr) pos) = pageBase (zext addr pos) := by
  apply eq_of_getLsbD_eq
  intro j hb
  simp only [zext, pageBase, getLsbD_and, getLsbD_not, getLsbD_ushiftRight,
    getLsbD_shiftLeft, pageMask_getLsbD]
  by_cases hl : j < 12
  · simp [hl]
  · by_cases hi : 64 - pos + j < 64
    · simp [hl, hb]
    · simp [hi]

theorem svukteFault_page : svukteFault hw v (pageBase addr) = svukteFault hw v addr := by
  unfold svukteFault
  rw [pageBase_shift addr (by cases hw.isa.maxXlen <;> decide)]

theorem canonical_page (h : 1 ≤ vm.levels * vm.idxbits) :
    canonical hw.isa.maxXlen vm (pageBase addr) = canonical hw.isa.maxXlen vm addr := by
  unfold canonical
  dsimp only
  rw [pageBase_shift addr (by omega)]

theorem walk_tracks : Tracks (Steady hw v.pmp v.debugMode tables) Spoiled (walk hw v addr)
    (walkPage hw v tables (pageBase addr)) := by
  unfold walk walkPage
  cases hd : decodeVmInfo hw.isa.maxXlen false v.prv v.satp with
  | none => exact Tracks.throw _
  | some vm =>
    dsimp only [bind_eq_bind, bind_some]
    by_cases hb : vm.levels = 0
    · rw [if_pos hb, zext_page]
      split
      · exact Tracks.throw _
      · exact s2xlate_page_tracks hw v tables
          ⟨addr, zext addr hw.isa.maxXlen.bits, v.walkType, v.walkType, v.flags.hlvx, false⟩ _ rfl
    · rw [if_neg hb, svukteFault_page, canonical_page hw vm addr (decodeVmInfo_paged hd hb)]
      split
      · exact Tracks.throw _
      · exact walkLevels_tracks hw v tables vm addr (decodeVmInfo_even hd)

def translatePage (regs : Regs) (info : AccessInfo) (len : Nat) : Option Reg := do
  let page ← walkPage hw (info.view regs) tables (pageBase info.transformedVaddr)
  let paddr := page ||| (info.transformedVaddr &&& pageMask)
  if pmpOk hw regs.pmp paddr len (if info.flags.ssAccess then .store else info.type) info.effectivePriv info.flags.hlvx
  then some paddr else none

theorem translate_tracks (r : Regs) (inf : AccessInfo) (len : Nat) :
    Tracks (Steady hw r.pmp r.debugMode tables) Spoiled (translate hw r inf len) (translatePage hw tables r inf len) := by
  refine Tracks.bind (walk_tracks hw (inf.view r) tables _) (fun p _ => ?_) fun p => ?_
  · generalize (if inf.flags.ssAccess then AccessType.store else inf.type) = ty
    show Tracks _ _ (if pmpOk hw r.pmp _ len ty inf.effectivePriv inf.flags.hlvx then _ else _) _
    by_cases h : pmpOk hw r.pmp (p ||| inf.transformedVaddr &&& pageMask) len ty inf.effectivePriv
        inf.flags.hlvx
    · rw [if_pos h, if_pos h]
      exact Tracks.pure _
    · rw [if_neg h, if_neg h]
      exact Tracks.throw _
  · dsimp only
    generalize (if inf.flags.ssAccess then AccessType.store else inf.type) = ty
    split
    · exact Stays.pure _
    · exact Stays.throw _

end RiscvEmulators.Spike.Mmu
