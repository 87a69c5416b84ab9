import Riscv.Spike.Mmu.Coherence

namespace RiscvEmulators.Spike.Mmu
open Word Transition Machine

/-- A change of registers that no cached translation can see: what the current mode translates with stays, and MPRV
  does not come into force. -/
structure Regs.Unmoved (isa : Isa) (regs regs' : Regs) : Prop where
  prv : regs'.prv = regs.prv
  virt : regs'.virt = regs.virt
  mprv : regs.mprv = false → regs'.mprv = false
  sum : regs'.sum regs.virt = regs.sum regs.virt
  mxrHs : regs'.mxr false = regs.mxr false
  mxr : regs'.mxr regs.virt = regs.mxr regs.virt
  satp : regs'.satp regs.virt = regs.satp regs.virt
  hgatp : regs'.hgatp = regs.hgatp
  mseccfgPmm : isa.maxXlen = .rv64 → regs.prv = .m → regs'.mseccfgPmm = regs.mseccfgPmm
  menvcfgPmm : regs'.menvcfgPmm = regs.menvcfgPmm
  henvcfgPmm : regs'.henvcfgPmm = regs.henvcfgPmm
  senvcfgPmm : regs'.senvcfgPmm = regs.senvcfgPmm
  format : regs.sameFormat regs'
  pmp : regs'.pmp = regs.pmp
  debugMode : regs'.debugMode = regs.debugMode

section
variable {isa : Isa} {rg regs' : Regs}

theorem Regs.sameFormat_iff : rg.sameFormat regs' ↔
    (∀ v, regs'.pbmte v = rg.pbmte v) ∧ (∀ v, regs'.adue v = rg.adue v) ∧
      (∀ v, regs'.sse v = rg.sse v) ∧ regs'.ukte = rg.ukte := by
  simp only [Regs.sameFormat, Bool.and_eq_true, beq_iff_eq, Bool.forall_bool]
  constructor
  · rintro ⟨⟨⟨⟨⟨⟨a, b⟩, c⟩, d⟩, e⟩, f⟩, g⟩
    exact ⟨⟨a.symm, b.symm⟩, ⟨c.symm, d.symm⟩, ⟨e.symm, f.symm⟩, g.symm⟩
  · rintro ⟨⟨a, b⟩, ⟨c, d⟩, ⟨e, f⟩, g⟩
    exact ⟨⟨⟨⟨⟨⟨a.symm, b.symm⟩, c.symm⟩, d.symm⟩, e.symm⟩, f.symm⟩, g.symm⟩

theorem effectiveMode_plain {ty : AccessType} (hp : ty = .fetch ∨ rg.mprv = false) :
    effectiveMode rg ty .none = (rg.prv, rg.virt) := by
  unfold effectiveMode
  by_cases hf : ty = .fetch
  · rw [if_pos hf]
  · rw [if_neg hf]
    rw [hp.resolve_left hf]
    rfl

namespace Regs.Unmoved

theorem getPmlen_eq (hu : rg.Unmoved isa regs') :
    getPmlen isa regs' rg.virt rg.prv .none = getPmlen isa rg rg.virt rg.prv .none := by
  unfold getPmlen
  by_cases hn : isa.maxXlen ≠ .rv64 ∨ XlateFlags.none.hlvx
  · rw [if_pos hn, if_pos hn]
  · have wide : isa.maxXlen = .rv64 := Classical.not_not.mp fun ho => hn (.inl ho)
    rw [hu.mxrHs, hu.mxr, hu.menvcfgPmm, hu.henvcfgPmm, hu.senvcfgPmm]
    by_cases hm : rg.prv = .m
    · rw [if_pos hm, if_pos hm, hu.mseccfgPmm wide hm]
    · rw [if_neg hm, if_neg hm]
      have hf : ∀ prv : Prv, (decide (prv = .u) && XlateFlags.none.forcedVirt) = false := fun _ => Bool.and_false _
      simp [hf]

theorem sameTranslation (hu : rg.Unmoved isa regs') {ty : AccessType}
    (plain : ty = .fetch ∨ rg.mprv = false) : SameTranslation isa ty rg regs' := by
  obtain ⟨hp, ha, hs, ukte⟩ := sameFormat_iff.mp hu.format
  have hm := effectiveMode_plain plain
  have hm' : effectiveMode regs' ty .none = (rg.prv, rg.virt) := by
    rw [effectiveMode_plain (plain.imp_right hu.mprv), hu.prv, hu.virt]
  refine ⟨fun a => ?_, fun a => ?_⟩
  · unfold generateAccessInfo transformAddr
    rw [hm, hm']
    dsimp only
    rw [hu.getPmlen_eq, hu.satp]
  · unfold AccessInfo.view generateAccessInfo
    rw [hm]
    rw [hu.satp, hu.hgatp, hu.sum, hu.mxrHs, hu.mxr, hp, ha, hs, hp, ha, ukte, hu.pmp, hu.debugMode]
    rfl

theorem entryHeld (hu : rg.Unmoved isa regs') {hw : Hardware} (hs : hw.isa = isa) {ts : Tables}
    {ty : AccessType} {entry : TlbEntry} (hh : EntryHeld hw rg ts ty entry) : EntryHeld hw regs' ts ty entry := by
  subst hs
  obtain hi | ⟨va, f, within, ht, hp, page⟩ := hh
  · exact .inl hi
  · exact .inr ⟨va, f, within, ht, hp.imp_right hu.mprv, page.transfer hw (hu.sameTranslation hp)⟩

end Regs.Unmoved

variable {hw : Hardware} {m m' : Machine hw}

theorem Machine.Coherent.of_unmoved (hc : m.Coherent) (same : m.regs.Unmoved hw.isa m'.regs)
    (hp : m'.pages = m.pages) (ht : ∀ ty, m'.tlb ty = m.tlb ty) : m'.Coherent := by
  intro hu
  rw [hp] at hu
  obtain ⟨cache, he⟩ := hc hu
  refine ⟨by rw [same.pmp, same.debugMode, hp]; exact cache, fun ty sl => ?_⟩
  rw [hp, ht]
  exact same.entryHeld rfl (he ty sl)

theorem noteFormat_coherent (hc : m.regs.sameFormat m'.regs → m'.Coherent) : (m.noteFormat m').Coherent := by
  intro hu
  have hb : (m'.pages.changed || !m.regs.sameFormat m'.regs) = false := hu
  rw [Bool.or_eq_false_iff, Bool.not_eq_false'] at hb
  obtain ⟨cache, he⟩ := hc hb.2 hb.1
  exact ⟨cache, he⟩

end

variable {hw : Hardware}

section
variable {isa : Isa} (s : State isa)

theorem sdtHidden_within (e : Reg) : Within mstatusSdt (State.sdtHidden e) := by
  unfold State.sdtHidden
  split
  · exact within_zero _
  · decide

theorem mstatusRead_and {bits : Reg} (h : Within (~~~mstatusSdt) bits) : s.mstatusRead &&& bits = s.mstatus &&& bits :=
  (agreeOff_and_not s.mstatus (sdtHidden_within s.menvcfg)).and_eq h

def sumMxr (isa : Isa) : Reg := sstatusReadMask isa &&& (mstatusSum ||| mstatusMxr)

theorem sumMxr_within : Within (~~~mstatusSdt) (sumMxr isa) := by
  have h : Within (~~~mstatusSdt) (mstatusSum ||| mstatusMxr) := by decide
  exact h.and_right _

theorem sstatus_masked (x e : Reg) :
    x &&& (sstatusReadMask isa &&& ~~~State.sdtHidden e) &&& (mstatusSum ||| mstatusMxr) = x &&& sumMxr isa := by
  have h := (agreeOff_and_not x (sdtHidden_within e)).and_eq (@sumMxr_within isa)
  rw [← h, sumMxr]
  ac_rfl

theorem nonvirtualSstatusRead_and :
    s.nonvirtualSstatusRead &&& (mstatusSum ||| mstatusMxr) = s.mstatus &&& sumMxr isa := by
  rw [State.nonvirtualSstatusRead, sstatus_masked, mstatusRead_and s sumMxr_within]

theorem vsstatusRead_and : s.vsstatusRead &&& (mstatusSum ||| mstatusMxr) = s.vsstatus &&& sumMxr isa := by
  rw [State.vsstatusRead, sstatus_masked]

theorem vsstatusRead_sumMxr : s.vsstatusRead &&& sumMxr isa = s.vsstatus &&& sumMxr isa := by
  have h := vsstatusRead_and s
  rw [sumMxr] at h ⊢
  rw [BitVec.and_comm (sstatusReadMask isa), ← BitVec.and_assoc, h, BitVec.and_assoc,
    BitVec.and_comm (sstatusReadMask isa), BitVec.and_assoc, BitVec.and_self]

theorem henvcfgRead_pmm : s.henvcfgRead &&& menvcfgPmm = s.henvcfg &&& menvcfgPmm := by
  rw [State.henvcfgRead, BitVec.and_comm _ s.henvcfg, BitVec.and_assoc, or_not_and s.menvcfg (by decide)]

theorem senvcfgRead_pmm {m : Machine hw} : m.senvcfgRead &&& menvcfgPmm = m.senvcfg &&& menvcfgPmm := by
  have h : ∀ e : Reg, Within menvcfgSse (if e &&& menvcfgSse ≠ 0 then 0 else menvcfgSse) := by
    intro e
    split <;> decide
  exact (agreeOff_and_not m.senvcfg (h _)).and_eq (by decide)

end

structure Machine.Kept (m m' : Machine hw) : Prop where
  mode : m'.core.mode = m.core.mode
  debugMode : m'.core.debugMode = m.core.debugMode
  mprv : m.inMprv = false → m'.inMprv = false
  status : m'.core.mstatus &&& sumMxr hw.isa = m.core.mstatus &&& sumMxr hw.isa
  vsstatus : m.core.mode.virt → m'.core.vsstatus &&& sumMxr hw.isa = m.core.vsstatus &&& sumMxr hw.isa
  satp : m'.satp = m.satp
  vsatp : m'.vsatp = m.vsatp
  hgatp : m'.hgatp = m.hgatp
  mseccfg : hw.isa.maxXlen = .rv64 → m.core.mode.prv = .m →
    getField m'.mseccfg mseccfgPmm = getField m.mseccfg mseccfgPmm
  menvcfg : m'.core.menvcfg &&& menvcfgPmm = m.core.menvcfg &&& menvcfgPmm
  henvcfg : m'.core.henvcfg &&& menvcfgPmm = m.core.henvcfg &&& menvcfgPmm
  senvcfg : m'.senvcfg &&& menvcfgPmm = m.senvcfg &&& menvcfgPmm
  pmp : m'.pmpRegs = m.pmpRegs

variable {m m' : Machine hw}

theorem Machine.Kept.unmoved (hk : m.Kept m') (format : m.regs.sameFormat m'.regs) :
    m.regs.Unmoved hw.isa m'.regs := by
  let c := mstatusSum ||| mstatusMxr
  have hh : m'.core.nonvirtualSstatusRead &&& c =
      m.core.nonvirtualSstatusRead &&& c := by
    rw [nonvirtualSstatusRead_and, nonvirtualSstatusRead_and, hk.status]
  have hb : m'.sstatusReadvirt m.core.mode.virt &&& c =
      m.sstatusReadvirt m.core.mode.virt &&& c := by
    cases virt : m.core.mode.virt with
    | false => exact hh
    | true =>
      show m'.core.vsstatusRead &&& _ = m.core.vsstatusRead &&& _
      rw [vsstatusRead_and, vsstatusRead_and, hk.vsstatus virt]
  exact {
    prv := congrArg Mode.prv hk.mode
    virt := congrArg Mode.virt hk.mode
    mprv := hk.mprv
    sum := congrArg (· != 0) (and_eq_of_within hb (by decide))
    mxrHs := congrArg (· != 0) (and_eq_of_within hh (by decide))
    mxr := congrArg (· != 0) (and_eq_of_within hb (by decide))
    satp := by
      show m'.satpReadvirt m.core.mode.virt = m.satpReadvirt m.core.mode.virt
      rw [satpReadvirt, satpReadvirt, hk.satp, hk.vsatp]
    hgatp := hk.hgatp
    mseccfgPmm := hk.mseccfg
    menvcfgPmm := getField_congr hk.menvcfg
    henvcfgPmm := getField_congr (by rw [henvcfgRead_pmm, henvcfgRead_pmm, hk.henvcfg])
    senvcfgPmm := getField_congr (by rw [senvcfgRead_pmm, senvcfgRead_pmm, hk.senvcfg])
    format := format
    pmp := hk.pmp
    debugMode := hk.debugMode }

inductive Machine.Safe (m m' : Machine hw) : Prop where
  | flushed (tlb : ∀ type slot, (m'.tlb type slot).tag = BitVec.allOnes 64)
      (cache : ∀ slot, (m'.pages.pteCache slot).paddr = BitVec.allOnes 64)
  | kept (registers : m.Kept m') (pages : m'.pages = m.pages) (tlb : ∀ type, m'.tlb type = m.tlb type)

theorem Machine.Safe.coherent (hs : m.Safe m') (coherent : m.Coherent)
    (hf : m.regs.sameFormat m'.regs) : m'.Coherent := by
  cases hs with
  | flushed ht cache =>
    refine fun _ => ⟨fun pa he hc => ?_, fun ty sl => .inl (ht ty sl)⟩
    rw [← hc, cache] at he
    exact absurd he (by decide)
  | kept hr hp ht => exact coherent.of_unmoved (hr.unmoved hf) hp ht

theorem Machine.Kept.refl (m : Machine hw) : m.Kept m :=
  ⟨rfl, rfl, id, rfl, fun _ => rfl, rfl, rfl, rfl, fun _ _ => rfl, rfl, rfl, rfl, rfl⟩

theorem Machine.Safe.still (hk : m.Kept m') (hp : m'.pages = m.pages) (ht : m'.tlb = m.tlb) :
    m.Safe m' := .kept hk hp (congrFun ht)

theorem Machine.Safe.emptied (ht : m'.tlb = m.flushTlb.tlb)
    (hp : m'.pages.pteCache = m.flushTlb.pages.pteCache) : m.Safe m' := by
  apply Machine.Safe.flushed
  · intro ty sl
    rw [ht]
    cases ty <;> rfl
  · intro sl
    rw [hp]
    rfl

theorem Machine.Safe.refl (m : Machine hw) : m.Safe m := .still (.refl m) rfl rfl

section

theorem comparedBits_apart {isa : Isa} : Within (~~~mstatusSdt) (comparedBits isa) :=
  Within.or (by decide) (within_ite fun _ => by decide)

theorem mprv_compared {isa : Isa} : Within (comparedBits isa) mstatusMprv := by
  unfold comparedBits
  split <;> decide

theorem sumMxr_compared {isa : Isa} : Within (comparedBits isa) (sumMxr isa) := by
  unfold comparedBits
  cases hp : hasPage isa with
  | true =>
    have hi : Within (mstatusMpp ||| mstatusMprv ||| (mstatusMxr ||| mstatusSum)) (mstatusSum ||| mstatusMxr) := by
      decide
    exact hi.and_right _
  | false =>
    have hm : Within (~~~(mstatusSum ||| mstatusMxr)) (sstatusReadMask isa) := by
      unfold sstatusReadMask computeSstatusWriteMask sdBit
      rw [hp]
      refine ((Within.or ?_ (by decide)).or (by decide)).or (by cases isa.maxXlen <;> decide)
      exact ((((((within_ite fun _ => by decide).or (by decide)).or (within_ite fun _ => by decide)).or
        (within_ite fun _ => by decide)).or (within_ite fun _ => by decide)).or (within_ite fun _ => by decide)).or
        (within_ite fun _ => by decide)
    rw [sumMxr, hm.and_eq_zero]
    exact within_zero _

theorem inMprv_congr {m m' : Machine hw} (hm : m'.core.mnstatus = m.core.mnstatus)
    (hd : m'.core.debugMode = m.core.debugMode) (dcsr' : m'.dcsr = m.dcsr)
    (mprv : m'.core.mstatus &&& mstatusMprv = m.core.mstatus &&& mstatusMprv) : m'.inMprv = m.inMprv := by
  have hr : getField m'.core.mstatusRead mstatusMprv = getField m.core.mstatusRead mstatusMprv :=
    getField_congr (by rw [mstatusRead_and _ (by decide), mstatusRead_and _ (by decide), mprv])
  unfold inMprv nmie State.nmie
  rw [hr, hm, hd, dcsr']

variable (m : Machine hw) (val : Reg)

theorem mstatusWrite_safe : m.Safe (m.mstatusWrite val) := by
  unfold mstatusWrite maybeFlushTlb
  split
  case isTrue => exact .emptied rfl rfl
  case isFalse hu =>
    have hs : m.core.mstatusNext val &&& comparedBits hw.isa = m.core.mstatus &&& comparedBits hw.isa := by
      rw [and_eq_of_xor (Classical.not_not.mp hu), mstatusRead_and _ (comparedBits_apart)]
    refine .still { Kept.refl m with mprv := fun ho => ?_, status := ?_ } rfl rfl
    · exact Eq.trans (b := m.inMprv) (inMprv_congr rfl rfl rfl (and_eq_of_within hs (mprv_compared))) ho
    · exact and_eq_of_within hs (sumMxr_compared)

theorem vsstatusWrite_safe : m.Safe (m.vsstatusWrite val) := by
  unfold vsstatusWrite maybeFlushTlb
  dsimp only
  split
  case isFalse hh =>
    exact .still { Kept.refl m with vsstatus := fun hv => absurd hv hh } rfl rfl
  case isTrue =>
    split
    case isTrue => exact .emptied rfl rfl
    case isFalse hu =>
      have hs := and_eq_of_within (and_eq_of_xor (Classical.not_not.mp hu)) (sumMxr_compared)
      refine .still { Kept.refl m with vsstatus := fun _ => hs.trans ?_ } rfl rfl
      exact vsstatusRead_sumMxr m.core

theorem sstatusWrite_safe : m.Safe (m.sstatusWrite val) := by
  unfold sstatusWrite
  split
  · exact vsstatusWrite_safe m val
  · exact mstatusWrite_safe m _

def ArmsMprvByNmie (m : Machine hw) (val : Reg) : Prop :=
  m.nmie = false ∧ val &&& mnstatusNmie ≠ 0 ∧ m.core.mstatus &&& mstatusMprv ≠ 0 ∧
    (m.core.debugMode → m.dcsr.mprven)

def ArmsMprvByMprven (m : Machine hw) (val : Reg) : Prop :=
  m.core.debugMode ∧ m.dcsr.mprven = false ∧ val &&& dcsrMprven ≠ 0 ∧ m.core.mstatus &&& mstatusMprv ≠ 0 ∧
    m.nmie

theorem inMprv_iff : m.inMprv ↔ m.nmie ∧ (m.core.debugMode → m.dcsr.mprven) ∧ m.core.mstatus &&& mstatusMprv ≠ 0 := by
  unfold inMprv
  rw [Bool.and_eq_true, Bool.and_eq_true, bne_iff_ne, and_assoc, ← mstatusRead_and m.core (by decide)]
  have h : getField m.core.mstatusRead mstatusMprv = 0 ↔ m.core.mstatusRead &&& mstatusMprv = 0 :=
    getField_eq_zero_iff 17 (by decide) (by decide) (by decide)
  rw [ne_eq, h]
  cases m.core.debugMode <;> simp

theorem mnstatusNext_nmie {mn val : Reg} (hc : mn &&& mnstatusNmie = 0) (hu : val &&& mnstatusNmie = 0)
    : m.mnstatusNext mn val &&& mnstatusNmie = 0 := by
  unfold mnstatusNext
  dsimp only
  generalize (legalizePrivilege hw.isa ((getField val mnstatusMnpp).setWidth 2)).reg = prv
  have hk : setField val mnstatusMnpp prv &&& mnstatusNmie = 0 :=
    ((agreeOff_setField val mnstatusMnpp prv).and_eq (by decide)).trans hu
  generalize mnstatusNmie ||| (if m.core.misaH then mnstatusMnpv else 0) |||
    (if hw.isa.extZicfilp then mnstatusMnpelp else 0) ||| mnstatusMnpp = mk
  apply BitVec.eq_of_getElem_eq
  intro i hb
  have bit : (setField val mnstatusMnpp prv &&& mnstatusNmie)[i] = false := by simp [hk]
  rw [BitVec.getElem_and] at bit
  cases mk[i] <;> simp_all

theorem mnstatusWrite_safe (hc : ¬ArmsMprvByNmie m val) : m.Safe (m.mnstatusWrite val) := by
  refine .still { Kept.refl m with mprv := fun ho => ?_ } rfl rfl
  rw [← Bool.not_eq_true, inMprv_iff] at ho ⊢
  rintro ⟨hn, hd, mprv⟩
  have hb : m.nmie = false := by
    rw [← Bool.not_eq_true]
    exact fun hs => ho ⟨hs, hd, mprv⟩
  refine hc ⟨hb, fun hu => ?_, mprv, hd⟩
  unfold nmie State.nmie at hb hn
  cases hi : m.core.mnstatus with
  | none =>
    rw [hi] at hb
    cases hb
  | some mn =>
    rw [hi, bne_eq_false_iff_eq, getField_eq_zero_iff 3 (by decide) (by decide) (by decide)] at hb
    have ha := mnstatusNext_nmie m hb hu
    rw [← getField_eq_zero_iff 3 (by decide) (by decide) (by decide)] at ha
    simp only [mnstatusWrite, hi, Option.map_some, ha] at hn
    exact absurd hn (by decide)

theorem dcsrWrite_safe (hc : ¬ArmsMprvByMprven m val) : m.Safe (m.dcsrWrite val) := by
  refine .still { Kept.refl m with mprv := fun ho => ?_ } rfl rfl
  rw [← Bool.not_eq_true, inMprv_iff] at ho ⊢
  rintro ⟨hn, hd, mprv⟩
  refine ho ⟨hn, fun hi => ?_, mprv⟩
  cases hb : m.dcsr.mprven with
  | true => rfl
  | false =>
    have hs : (getField val dcsrMprven != 0) := hd hi
    rw [bne_iff_ne, ne_eq, getField_eq_zero_iff 4 (by decide) (by decide) (by decide)] at hs
    exact absurd ⟨hi, hb, hs, mprv, hn⟩ hc

end

section
variable (m : Machine hw) (val : Reg)

theorem nonvirtualSatpWrite_safe : m.Safe (m.nonvirtualSatpWrite val) := by
  unfold nonvirtualSatpWrite
  dsimp only
  split
  case isTrue => exact .emptied rfl rfl
  case isFalse h =>
    exact .still { Kept.refl m with satp := Classical.not_not.mp h } rfl rfl

theorem vsatpWrite_safe : m.Safe (m.vsatpWrite val) := by
  unfold vsatpWrite
  dsimp only
  split
  case isTrue => exact .emptied rfl rfl
  case isFalse h =>
    exact .still { Kept.refl m with vsatp := Classical.not_not.mp h } rfl rfl

theorem satpWrite_safe : m.Safe (m.satpWrite val) := by
  unfold satpWrite
  dsimp only
  split
  · exact vsatpWrite_safe m _
  · exact nonvirtualSatpWrite_safe m _

theorem hgatpWrite_safe : m.Safe (m.hgatpWrite val) :=
  .emptied rfl rfl

theorem pmm_masked {read a : Reg} {mk : Reg} (hs : getField a menvcfgPmm = getField read menvcfgPmm) :
    ((read &&& ~~~mk) ||| (a &&& mk)) &&& menvcfgPmm = read &&& menvcfgPmm := by
  have ha : AgreeOff (~~~menvcfgPmm) a read := by
    exact and_eq_of_getField 32 (by decide) (by decide) (by decide) hs
  exact (ha.masked mk).and_eq (by decide)

theorem menvcfgWrite_safe : m.Safe (m.menvcfgWrite val) := by
  unfold menvcfgWrite flushOnPmm
  dsimp only
  split
  case isTrue => exact .emptied rfl rfl
  case isFalse hs =>
    refine .still { Kept.refl m with mprv := fun ho => ?_, menvcfg := ?_ } rfl rfl
    · exact Eq.trans (b := m.inMprv) (inMprv_congr rfl rfl rfl rfl) ho
    · exact pmm_masked (Classical.not_not.mp hs)

theorem henvcfgWrite_safe : m.Safe (m.henvcfgWrite val) := by
  unfold henvcfgWrite flushOnPmm
  dsimp only
  split
  case isTrue => exact .emptied rfl rfl
  case isFalse h =>
    refine .still { Kept.refl m with henvcfg := ?_ } rfl rfl
    exact (pmm_masked (Classical.not_not.mp h)).trans (henvcfgRead_pmm m.core)

theorem senvcfgWrite_safe : m.Safe (m.senvcfgWrite val) := by
  unfold senvcfgWrite flushOnPmm
  dsimp only
  split
  case isTrue => exact .emptied rfl rfl
  case isFalse h =>
    refine .still { Kept.refl m with senvcfg := ?_ } rfl rfl
    exact (pmm_masked (Classical.not_not.mp h)).trans (senvcfgRead_pmm)

end

def MovesMask (m : Machine hw) (val : Reg) : Prop :=
  hw.nPmp = 0 ∧ hw.extSmmpm ∧ hw.isa.maxXlen = .rv64 ∧ m.core.mode.prv = .m ∧
    legalPmm (getField val mseccfgPmm) ≠ getField m.mseccfg mseccfgPmm

theorem agreeOff_chosen {l mask : Reg} (c : Bool) (x val : Reg) (hi : Within l mask) :
    AgreeOff l (if c then (x &&& ~~~mask) ||| (val &&& mask) else x) x := by
  have hit : Within mask mask := BitVec.and_not_self mask
  cases c with
  | false => exact AgreeOff.refl l x
  | true => exact (agreeOff_merge mask x (val &&& mask) (hit.and_right val)).mono hi

def mseccfgMoved (pmm : Bool) : Reg := mseccfgUseed ||| mseccfgSseed ||| mseccfgMlpe ||| if pmm then mseccfgPmm else 0

theorem mseccfgNext_agree (m : Machine hw) (val : Reg) (hn : hw.nPmp = 0) :
    AgreeOff (mseccfgMoved hw.extSmmpm) (m.mseccfgNext val) m.mseccfg := by
  unfold mseccfgNext
  simp only [if_pos hn]
  have hs : ∀ pmm : Bool, Within (mseccfgMoved pmm) (mseccfgUseed ||| mseccfgSseed) := by decide
  have hm : ∀ pmm : Bool, Within (mseccfgMoved pmm) mseccfgMlpe := by decide
  refine AgreeOff.trans ?_ ((agreeOff_chosen hw.isa.extZicfilp _ val (hm hw.extSmmpm)).trans
    (agreeOff_chosen hw.extZkr m.mseccfg val (hs hw.extSmmpm)))
  cases hw.extSmmpm with
  | false => exact AgreeOff.refl _ _
  | true => exact (agreeOff_setField _ mseccfgPmm _).mono (by decide)

theorem mseccfgNext_pmm {m : Machine hw} {val : Reg} (hm : hw.extSmmpm)
    (hs : legalPmm (getField val mseccfgPmm) = getField m.mseccfg mseccfgPmm) :
    getField (m.mseccfgNext val) mseccfgPmm = getField m.mseccfg mseccfgPmm := by
  unfold mseccfgNext
  simp only [if_pos hm, hs]
  exact getField_setField_getField _ m.mseccfg mseccfgPmm mseccfgPmm 32 (by decide) (by decide) (by decide) (by decide)
    (by decide)

theorem mseccfgWrite_safe (m : Machine hw) (val : Reg) (hc : ¬MovesMask m val) : m.Safe (m.mseccfgWrite val) := by
  unfold mseccfgWrite
  split
  case isFalse => exact .emptied rfl rfl
  case isTrue hn =>
    have ha := mseccfgNext_agree m val hn
    refine .still { Kept.refl m with mseccfg := fun wide masks => ?_, pmp := ?_ } rfl rfl
    · cases hm : hw.extSmmpm with
      | false =>
        rw [hm] at ha
        exact getField_congr (ha.and_eq (by decide))
      | true =>
        exact mseccfgNext_pmm hm
          (Classical.not_not.mp fun hm2 => hc ⟨hn, hm, wide, masks, hm2⟩)
    · have apart : ∀ pmm : Bool, Within (~~~mseccfgMoved pmm) (mseccfgMml ||| mseccfgMmwp) := by decide
      have moved := ha.and_eq (apart hw.extSmmpm)
      show PmpRegs.mk m.pmp (m.mseccfgNext val &&& mseccfgMml != 0) (m.mseccfgNext val &&& mseccfgMmwp != 0) = m.pmpRegs
      rw [and_eq_of_within moved (by decide), and_eq_of_within moved (by decide)]
      rfl

theorem pmpaddrWrite_safe (m : Machine hw) (idx : Nat) (val : Reg) : m.Safe (m.pmpaddrWrite idx val) := by
  unfold pmpaddrWrite
  dsimp only
  split
  · exact .emptied rfl rfl
  · exact .refl m

theorem pmpcfgWrite_safe (m : Machine hw) (reg : Nat) (val : Reg) : m.Safe (m.pmpcfgWrite reg val) := by
  unfold pmpcfgWrite
  split
  · exact .refl m
  · exact .emptied rfl rfl

section
variable (m : Machine hw)

theorem changePrivilege_safe {c : State hw.isa} : m.Safe (m.changePrivilege c) :=
  .emptied rfl rfl

theorem debugRom_core {s c : State hw.isa} {t : Trap} {epc : Reg} (ht : s.takeTrap t epc = .debugRom c) :
    ∃ pc, c = { s with pc := pc } := by
  unfold State.takeTrap at ht
  split at ht
  · cases ht
    exact ⟨_, rfl⟩
  · split at ht
    · cases ht
    · cases hl : s.trapLevel t with
      | vs => rw [hl] at ht; cases ht
      | hs => rw [hl] at ht; cases ht
      | m =>
        rw [hl] at ht
        cases he : s.trapToM t epc with
        | none => rw [he] at ht; cases ht
        | some c' => rw [he] at ht; cases ht

theorem takeTrap_safe (t : Trap) (epc : Reg) : m.Safe (m.takeTrap t epc) := by
  unfold takeTrap
  cases h : m.core.takeTrap t epc with
  | handled l c => exact changePrivilege_safe m
  | criticalError => exact .refl m
  | noHvictl => exact .refl m
  | debugRom c =>
    obtain ⟨pc, rfl⟩ := debugRom_core h
    exact .still { Kept.refl m with } rfl rfl

theorem mret_safe : m.Safe m.mret := by
  unfold mret
  split
  · exact changePrivilege_safe m
  · exact .refl m

theorem sret_safe : m.Safe m.sret := by
  unfold sret
  split
  · exact changePrivilege_safe m
  · exact .refl m

theorem mnret_safe : m.Safe m.mnret := by
  unfold mnret
  cases m.core.mnstatus with
  | none => exact .refl m
  | some mn =>
    dsimp only
    split
    · exact changePrivilege_safe m
    · exact .refl m

theorem dret_safe : m.Safe m.dret := by
  unfold dret
  split
  · exact changePrivilege_safe m
  · exact .refl m

theorem enterDebugMode_safe : m.Safe m.enterDebugMode :=
  .emptied rfl rfl

end

end RiscvEmulators.Spike.Mmu
