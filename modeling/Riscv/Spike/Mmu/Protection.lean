import Riscv.Spike.Mmu.Writes
import Riscv.Transition.Run

namespace RiscvEmulators.Spike.Mmu
open Word Transition Machine

section
variable {hw : Hardware}

/-- The writes that do not flush although cached translations depend on them are kept from changing these. -/
def Careful (m : Machine hw) : Event → Prop
  | .mnstatus val => ¬ArmsMprvByNmie m val
  | .dcsr val => ¬ArmsMprvByMprven m val
  | .mseccfg val => ¬MovesMask m val
  | _ => True

theorem inPage_parcel {pc : Reg} : InPage (pc &&& ~~~1) 2 := by
  have h : (pc &&& ~~~1).toNat = pc.toNat / 2 * 2 := toNat_and_not_low_mask pc (k := 1) (by decide)
  refine ⟨by decide, ?_⟩
  omega

theorem after_coherent {α : Type} {m : Machine hw} {ac : Access hw α} (hk : Keeps (Ready hw m.regs) ac)
    (hc : m.Coherent) : (m.after ac).Coherent := (hk.finalState ⟨hc, rfl⟩).coherent

theorem effect_coherent {m : Machine hw} {e : Event} (careful : Careful m e) (hc : m.Coherent)
    (hf : m.regs.sameFormat (m.effect e).regs) : (m.effect e).Coherent := by
  cases e with
  | mstatus val => exact (mstatusWrite_safe m val).coherent hc hf
  | sstatus val => exact (sstatusWrite_safe m val).coherent hc hf
  | vsstatus val => exact (vsstatusWrite_safe m val).coherent hc hf
  | satp val => exact (satpWrite_safe m val).coherent hc hf
  | vsatp val => exact (vsatpWrite_safe m val).coherent hc hf
  | hgatp val => exact (hgatpWrite_safe m val).coherent hc hf
  | mnstatus val => exact (mnstatusWrite_safe m val careful).coherent hc hf
  | dcsr val => exact (dcsrWrite_safe m val careful).coherent hc hf
  | mseccfg val => exact (mseccfgWrite_safe m val careful).coherent hc hf
  | menvcfg val => exact (menvcfgWrite_safe m val).coherent hc hf
  | henvcfg val => exact (henvcfgWrite_safe m val).coherent hc hf
  | senvcfg val => exact (senvcfgWrite_safe m val).coherent hc hf
  | pmpaddr idx val => exact (pmpaddrWrite_safe m idx val).coherent hc hf
  | pmpcfg reg val => exact (pmpcfgWrite_safe m reg val).coherent hc hf
  | trap t epc => exact (takeTrap_safe m t epc).coherent hc hf
  | mret => exact (mret_safe m).coherent hc hf
  | sret => exact (sret_safe m).coherent hc hf
  | mnret => exact (mnret_safe m).coherent hc hf
  | dret => exact (dret_safe m).coherent hc hf
  | enterDebugMode => exact (enterDebugMode_safe m).coherent hc hf
  | sfence => exact flushTlb_coherent m
  | triggers fetch load store =>
    exact (flushTlb_coherent m).of_dropped rfl rfl fun _ _ => .inl rfl
  | load k ad lg fst snd => exact after_coherent (load_keeps k ad lg fst snd) hc
  | store k ad lg a => exact after_coherent (store_keeps_of (storeSlowPath_keeps k ad lg true false a)) hc
  | storeProbe k ad lg r =>
    exact after_coherent (storeSlowPath_keeps k ad lg false r .unmatched) hc
  | fetch pc fst snd => exact after_coherent (fetchInsnParcel_keeps (inPage_parcel) fst snd) hc
  | probe ad ty f len => exact after_coherent (translateIn_keeps _ len) hc
  | stlbPpn ppn => exact flushStlbPpn_coherent hc ppn
  | itlbPpn ppn => exact flushItlbPpn_coherent hc ppn
  | tables ram d => exact nofun

theorem step_coherent (m : Machine hw) (e : Event) (careful : Careful m e) (hc : m.Coherent) :
    (m.step e).Coherent := noteFormat_coherent (effect_coherent careful hc)

theorem Machine.Held.translates {m : Machine hw} (hh : m.Held) (hu : m.pages.changed = false)
    {ty : AccessType} {va a r : Reg} {len : Nat} (hi : InPage va len) (ha : Within tlbFlags a) (hr : Within tlbFlags r)
    (hit : (accessTlb (m.tlb ty) va a r).hit) :
    ∃ pages, translate hw m.regs (generateAccessInfo hw.isa m.regs va ty .none) len m.pages =
      .ok (accessTlb (m.tlb ty) va a r).paddr pages := by
  have hp := (hh.entries ty _).of_hit hw m.regs m.pages.tables ha hr (eq_of_beq hit)
  have hf := hp va len rfl hi
  have ht := translate_tracks hw m.pages.tables m.regs (generateAccessInfo hw.isa m.regs va ty .none) len
  rw [hf] at ht
  obtain ⟨pages, result, -⟩ := ht.returns (hh.steady hu)
  exact ⟨pages, result⟩

/-- In every careful run, a hit of a plain access yields the address that translation returns, as long as the page
  tables and the bits that gate their format are as they were at the last flush. -/
theorem tlb_hit_translates (start : Machine hw) (events : List Event)
    (careful : StepsMeet Machine.step Careful start.flushTlb events) (type : AccessType) (vaddr allowed required : Reg)
    (len : Nat) (inPage : InPage vaddr len) (allowedFlags : Within tlbFlags allowed)
    (requiredFlags : Within tlbFlags required)
    (unchanged : (run Machine.step start.flushTlb events).pages.changed = false)
    (hit : (accessTlb ((run Machine.step start.flushTlb events).tlb type) vaddr allowed required).hit = true) :
    ∃ pages, translate hw (run Machine.step start.flushTlb events).regs
      (generateAccessInfo hw.isa (run Machine.step start.flushTlb events).regs vaddr type .none) len
      (run Machine.step start.flushTlb events).pages =
        .ok (accessTlb ((run Machine.step start.flushTlb events).tlb type) vaddr allowed required).paddr pages := by
  have coherent := careful.run_invariant step_coherent (flushTlb_coherent start)
  exact (coherent unchanged).translates unchanged inPage allowedFlags requiredFlags hit

def maskingHart : Hardware where
  isa := fullIsa
  maxVaddrBits := 57
  nPmp := 0
  lgPmpGranularity := 2
  extSvnapot := false
  extSvrsw60t59b := false
  extSmpmpmt := false
  extSmmpm := true
  extSmnpm := false
  extSvadu := false
  extSvpbmt := false
  extSstc := false
  extSmcdeleg := false
  extZkr := false
  extZicbom := false
  extZicboz := false
  extZicfiss := false
  extZicclsm := false
  extZiccid := false
  mmuAsid := true
  mmuVmid := true
  logCommits := false
  addrToMem := fun paddr => paddr ||| 1
  mmioFetch := fun _ _ => false
  mmioLoad := fun _ _ => false
  mmioStore := fun _ _ => false
  interestedInPage := fun _ _ => false
  hasMmu := rfl
  granularity := by decide

def Machine.clear {hw : Hardware} (core : State hw.isa) : Machine hw where
  core := core
  satp := 0
  vsatp := 0
  hgatp := 0
  senvcfg := 0
  mseccfg := 0
  dcsr := ⟨0, false, false, false⟩
  pmp := fun _ => ⟨0, 0⟩
  pages := ⟨fun _ => 0, fun _ => none, fun _ => ⟨0, 0⟩, false⟩
  tlbLoad := fun _ => .invalid
  tlbStore := fun _ => .invalid
  tlbInsn := fun _ => .invalid
  storeTags := fun _ => false
  insnTags := fun _ => false
  checkTriggersFetch := false
  checkTriggersLoad := false
  checkTriggersStore := false
  matchedTrigger := false

def clearMachine : Machine maskingHart := .clear (clearState .m false)
def plainLoad (addr : Reg) : Event := .load .plain addr 3 .unmatched .unmatched

theorem loaded_page_translates :
    ∃ pages, translate maskingHart (run Machine.step clearMachine.flushTlb [plainLoad 0x80001000]).regs
      (generateAccessInfo fullIsa (run Machine.step clearMachine.flushTlb [plainLoad 0x80001000]).regs 0x80001008
        .load .none) 8 (run Machine.step clearMachine.flushTlb [plainLoad 0x80001000]).pages = .ok 0x80001008 pages :=
  tlb_hit_translates clearMachine [plainLoad 0x80001000] ⟨True.intro, True.intro⟩ .load 0x80001008 0 0 8
    ⟨by decide, by decide⟩ (by decide) (by decide) rfl rfl

def maskedMachine : Machine maskingHart := { clearMachine with mseccfg := 0x300000000 }

def unmaskingRun : Machine maskingHart :=
  run Machine.step maskedMachine.flushTlb [plainLoad 0xffff000080001000, .mseccfg 0]

theorem unmasked_load_hits_masked_page :
    unmaskingRun.pages.changed = false ∧ (accessTlb unmaskingRun.tlbLoad 0xffff000080001000 0 0).hit = true ∧
      (accessTlb unmaskingRun.tlbLoad 0xffff000080001000 0 0).paddr = 0x80001000 ∧
      ∃ pages, translate maskingHart unmaskingRun.regs
        (generateAccessInfo fullIsa unmaskingRun.regs 0xffff000080001000 .load .none) 8 unmaskingRun.pages =
          .ok 0xffff000080001000 pages :=
  ⟨rfl, rfl, rfl, _, rfl⟩

end

section
variable (hw : Hardware) (v : View)

theorem walkLevels_returns (vm : VmInfo) (a : Reg) (l : Nat) (b : Reg) :
    Returns (walkLevels hw v vm a l b) fun page => pageBase page = page := by
  induction l generalizing b with
  | zero => exact .throw _
  | succ l ih =>
    refine Returns.any.bind ?_
    intro p _
    refine Returns.any.bind ?_
    intro pte _
    cases s1Kind hw v l (l * vm.idxbits) pte with
    | table => exact ih _
    | refused c => exact .throw _
    | broken => exact .throw _
    | leaf =>
      refine Returns.any.bind ?_
      intro _ _
      refine Returns.any.bind ?_
      intro f _
      exact .pure (pageBase_idem f)

theorem walk_returns (a : Reg) : Returns (walk hw v a) fun page => pageBase page = page := by
  unfold walk
  cases decodeVmInfo hw.isa.maxXlen false v.prv v.satp with
  | none => exact .throw _
  | some vm =>
    refine Returns.ite ?_ ?_
    · intro hb
      refine Returns.ite ?_ ?_
      · intro hs
        exact .throw _
      · intro plain
        refine Returns.any.bind ?_
        intro f _
        exact .pure (pageBase_idem f)
    · intro hp
      refine Returns.ite ?_ ?_
      · intro hf
        exact .throw _
      · intro ha
        exact walkLevels_returns hw v vm a _ _

theorem translate_returns (r : Regs) (inf : AccessInfo) (len : Nat) : Returns (translate hw r inf len) fun pa =>
    pmpOk hw r.pmp pa len (if inf.flags.ssAccess then .store else inf.type) inf.effectivePriv
      inf.flags.hlvx ∧ pageOffset pa = pageOffset inf.transformedVaddr := by
  refine (walk_returns hw (inf.view r) inf.transformedVaddr).bind ?_
  intro page ha
  refine Returns.ite ?_ ?_
  · intro hp
    exact .pure ⟨hp, pageOffset_or inf.transformedVaddr ha⟩
  · intro hr
    exact .throw _

end

section
variable {hw : Hardware}

theorem pmpOk_same_page {pmp : PmpRegs} {p a a' : Reg} {len l' : Nat}
    (hh : pmpHomogeneous hw pmp p 0x1000) (inside : pageBase a = p)
    (hi : pageBase a' = p) (hi3 : InPage a len) (hi2 : InPage a' l') {ty : AccessType}
    {prv : Prv} {hlvx : Bool} : pmpOk hw pmp a len ty prv hlvx = pmpOk hw pmp a' l' ty prv hlvx := by
  have hf := pmpOk_page hw pmp hi3 (by rw [inside]; exact hh) ty prv hlvx
  have hs := pmpOk_page hw pmp hi2 (by rw [hi]; exact hh) ty prv hlvx
  rw [hf, hs, inside, hi]

theorem refillTlb_cases {m : Machine hw} {va pa ha : Reg} {ty : AccessType} : m.refillTlb va pa ha ty = m ∨
    pmpHomogeneous hw m.pmpRegs (pageBase pa) 0x1000 ∧
      (((m.refillTlb va pa ha ty).tlb ty) ((va >>> 12).toNat % 256)).targetAddr = pa - pageOffset va := by
  unfold refillTlb
  by_cases h : (m.inMprv || !pmpHomogeneous hw m.pmpRegs (pageBase pa) 0x1000 || hw.logCommits)
  · rw [if_pos h]
    exact .inl rfl
  · rw [if_neg h, tlb_putTlb]
    right
    simp only [Bool.or_eq_true, Bool.not_eq_true', not_or, Bool.not_eq_false] at h
    refine ⟨h.1.2, ?_⟩
    simp

theorem paddr_sub_offset {paddr va : Reg} (hs : pageOffset paddr = pageOffset va) :
    paddr - pageOffset va = pageBase paddr := by
  rw [← hs]
  apply BitVec.eq_of_toNat_eq
  have ho := pageOffset_toNat paddr
  rw [BitVec.toNat_sub, pageBase_toNat]
  omega

theorem filled_page {e : TlbEntry} {pa va : Reg} (hs : pageOffset pa = pageOffset va)
    (ht : e.targetAddr = pa - pageOffset va) {va' : Reg} {len : Nat} (hi : InPage va' len) :
    pageBase (e.targetAddr + pageOffset va') = pageBase pa ∧ InPage (e.targetAddr + pageOffset va') len := by
  rw [ht, paddr_sub_offset hs]
  have ha := pageBase_idem pa
  constructor
  · rw [pageBase_eq_iff, BitVec.toNat_add, pageOffset_toNat, pageBase_toNat]
    omega
  · rw [inPage_iff, page_add_offset va' ha, pageOffset_or va' ha]
    exact (inPage_iff va' len).mp hi

/-- In a page that `pmp_homogeneous` accepts, the PMP answers every access alike; so what `refill_tlb` installs after
  one access passed the check lets no access in that the PMP refuses. -/
theorem pmp_check_carries_over_page (m : Machine hw) :
    (∀ (page addr addr' : Reg) (len len' : Nat) (type : AccessType) (prv : Prv) (hlvx : Bool),
      pmpHomogeneous hw m.pmpRegs page 0x1000 = true → pageBase addr = page →
      pageBase addr' = page → InPage addr len → InPage addr' len' →
        pmpOk hw m.pmpRegs addr len type prv hlvx = pmpOk hw m.pmpRegs addr' len' type prv hlvx) ∧
    ∀ (vaddr : Reg) (len : Nat) (type : AccessType) (flags : XlateFlags) (pages : PageStore) (paddr : Reg)
      (pages' : PageStore) (filled : Machine hw) (hostAddr : Reg), InPage vaddr len → flags.ssAccess = false →
      translate hw m.regs (generateAccessInfo hw.isa m.regs vaddr type flags) len pages = .ok paddr pages' →
      filled.regs = m.regs → filled.refillTlb vaddr paddr hostAddr type = filled ∨
        ∀ (vaddr' : Reg) (len' : Nat) (allowed required : Reg),
          (vaddr' >>> 12).toNat % 256 = (vaddr >>> 12).toNat % 256 → InPage vaddr' len' →
          (accessTlb ((filled.refillTlb vaddr paddr hostAddr type).tlb type) vaddr' allowed required).hit = true →
          pmpOk hw m.pmpRegs
            (accessTlb ((filled.refillTlb vaddr paddr hostAddr type).tlb type) vaddr' allowed required).paddr len' type
            (effectiveMode m.regs type flags).1 flags.hlvx = true := by
  constructor
  · intro page addr addr' len len' type prv hlvx alike base base' inPage inPage'
    exact pmpOk_same_page alike base base' inPage inPage'
  · intro vaddr len type flags pages paddr pages' filled hostAddr inPage plain translated same
    obtain ⟨ok, off⟩ := translate_returns hw m.regs _ len pages paddr pages' translated
    have pmp : filled.pmpRegs = m.pmpRegs := congrArg Regs.pmp same
    have off : pageOffset paddr = pageOffset vaddr :=
      off.trans ((transform_pageMap hw m.regs type flags).offset vaddr)
    have inPaddr : InPage paddr len := by
      rw [inPage_iff, off]
      exact (inPage_iff vaddr len).mp inPage
    rcases refillTlb_cases with kept | ⟨alike, taken⟩
    · exact .inl kept
    · right
      intro vaddr' len' allowed required slot inPage' _
      unfold accessTlb
      dsimp only
      rw [slot]
      obtain ⟨base, fits⟩ := filled_page off taken inPage'
      rw [pmp] at alike
      rw [pmpOk_same_page alike base rfl fits inPaddr]
      have granted : pmpOk hw m.pmpRegs paddr len (if flags.ssAccess then .store else type)
          (effectiveMode m.regs type flags).1 flags.hlvx := ok
      rw [plain] at granted
      exact granted

def guardedHart : Hardware := { maskingHart with nPmp := 4 }

def guardedMachine : Machine guardedHart :=
  { Machine.clear (clearState .m false) with pmp := fun i => if i = 0 then ⟨0x99, 0x20001fff⟩ else ⟨0, 0⟩ }

theorem guarded_page_answers_alike : pmpOk guardedHart guardedMachine.pmpRegs 0x80001000 8 .store .m false =
    pmpOk guardedHart guardedMachine.pmpRegs 0x80001ffe 2 .store .m false ∧
    pmpOk guardedHart guardedMachine.pmpRegs 0x80001ff8 8 .load .m false = true := by
  have carries := pmp_check_carries_over_page guardedMachine
  refine ⟨carries.1 0x80001000 _ _ _ _ _ _ _ rfl rfl rfl ⟨by decide, by decide⟩ ⟨by decide, by decide⟩, ?_⟩
  have filled := carries.2 0x80001000 8 .load .none guardedMachine.pages 0x80001000 _ guardedMachine 0x1000
    ⟨by decide, by decide⟩ rfl rfl rfl
  rcases filled with kept | answers
  · have tags := congrArg (fun m => (tlbLoad m 1).tag) kept
    exact absurd tags (by decide)
  · exact answers 0x80001ff8 8 0 0 rfl ⟨by decide, by decide⟩ rfl

end

section
variable {hw : Hardware}

inductive PmpWrite where
  | pmpcfg (reg : Nat) (val : Reg)
  | pmpaddr (idx : Nat) (val : Reg)
  | mseccfg (val : Reg)

def Machine.pmpWrite (m : Machine hw) : PmpWrite → Machine hw
  | .pmpcfg reg val => m.pmpcfgWrite reg val
  | .pmpaddr idx val => m.pmpaddrWrite idx val
  | .mseccfg val => m.mseccfgWrite val

structure Machine.Locked (m : Machine hw) (i : Nat) : Prop where
  rlb : m.rlb = false
  lock : ((m.pmp i).cfg &&& pmpL != 0)

/-- What the writes between two states leave of a locked entry, of RLB and of the sticky bits. -/
structure LockHeld (i : Nat) (before after : Machine hw) : Prop where
  entry : after.pmp i = before.pmp i
  base : (before.pmp i).cfg &&& pmpA = pmpTor → 0 < i → (after.pmp (i - 1)).val = (before.pmp (i - 1)).val
  rlb : after.rlb = false
  mml : before.pmpRegs.mml → after.pmpRegs.mml
  mmwp : before.pmpRegs.mmwp → after.pmpRegs.mmwp

variable {i : Nat} (m : Machine hw)

theorem LockHeld.trans {fst snd t : Machine hw} (hb : LockHeld i fst snd) (ha : LockHeld i snd t)
    : LockHeld i fst t where
  entry := ha.entry.trans hb.entry
  base tor positive := by
    have ht : (snd.pmp i).cfg &&& pmpA = pmpTor := by rw [hb.entry]; exact tor
    exact (ha.base ht positive).trans (hb.base tor positive)
  rlb := ha.rlb
  mml set := ha.mml (hb.mml set)
  mmwp set := ha.mmwp (hb.mmwp set)

variable {b a : Machine hw}

theorem LockHeld.locked {i : Nat} (h : LockHeld i b a) (locked : b.Locked i) : a.Locked i where
  rlb := h.rlb
  lock := by rw [h.entry]; exact locked.lock

theorem LockHeld.of_entries (hl : b.Locked i) (hm : a.mseccfg = b.mseccfg)
    (entry : a.pmp i = b.pmp i)
    (base : (b.pmp i).cfg &&& pmpA = pmpTor → 0 < i → (a.pmp (i - 1)).val = (b.pmp (i - 1)).val) : LockHeld i b a where
  entry := entry
  base := base
  rlb := by
    rw [Machine.rlb, hm]
    exact hl.rlb
  mml set := by
    rw [pmpRegs, hm]
    exact set
  mmwp set := by
    rw [pmpRegs, hm]
    exact set

theorem pmpcfgNext_locked (hl : m.Locked i) (new : BitVec 8) : m.pmpcfgNext (m.pmp i).cfg new = (m.pmp i).cfg := by
  have lock : (!m.rlb && (m.pmp i).cfg &&& pmpL != 0) := by
    rw [hl.rlb, hl.lock]
    rfl
  unfold pmpcfgNext
  rw [if_pos lock]

variable {val : Reg}

theorem pmpcfgWrite_entry {reg : Nat} {j : Nat} : ((m.pmpcfgWrite reg val).pmp j).val = (m.pmp j).val ∧
    (m.Locked j → (m.pmpcfgWrite reg val).pmp j = m.pmp j) := by
  unfold pmpcfgWrite
  by_cases hn : hw.nPmp = 0
  · rw [if_pos hn]
    exact ⟨rfl, fun _ => rfl⟩
  · rw [if_neg hn]
    dsimp only
    by_cases wrote : 4 * reg ≤ j ∧ j < 4 * reg + hw.isa.maxXlen.bits / 8 ∧ j < hw.nPmp
    · rw [if_pos wrote]
      refine ⟨rfl, fun hl => ?_⟩
      rw [pmpcfgNext_locked m hl]
    · rw [if_neg wrote]
      exact ⟨rfl, fun _ => rfl⟩

theorem pmpcfgWrite_held (hl : m.Locked i) {reg : Nat} : LockHeld i m (m.pmpcfgWrite reg val) := by
  have hm : (m.pmpcfgWrite reg val).mseccfg = m.mseccfg := by
    unfold pmpcfgWrite
    split <;> rfl
  apply LockHeld.of_entries hl hm
  · exact (pmpcfgWrite_entry m).2 hl
  · intro _ _
    exact (pmpcfgWrite_entry m).1

theorem pmpaddrWrite_entry {idx : Nat} (hl : m.Locked i) (bound : i < 64) :
    (m.pmpaddrWrite idx val).pmp i = m.pmp i ∧
      ((m.pmp i).cfg &&& pmpA = pmpTor → 0 < i → (m.pmpaddrWrite idx val).pmp (i - 1) = m.pmp (i - 1)) := by
  unfold pmpaddrWrite
  dsimp only
  split
  case isFalse => exact ⟨rfl, fun _ _ => rfl⟩
  case isTrue ha =>
    obtain ⟨-, -, ho, hn⟩ := ha
    have apart : i ≠ idx := by
      intro hs
      rw [← hs, hl.rlb, hl.lock] at ho
      cases ho
    refine ⟨if_neg apart, fun ht hp => ?_⟩
    have hb : i - 1 ≠ idx := by
      intro hs
      have succ : idx + 1 = i := by omega
      rw [nextLockedAndTor, succ, hl.rlb, hl.lock, ht, decide_eq_true bound] at hn
      cases hn
    exact if_neg hb

theorem pmpaddrWrite_held (hl : m.Locked i) (hb : i < 64) {idx : Nat} :
    LockHeld i m (m.pmpaddrWrite idx val) := by
  have hm : (m.pmpaddrWrite idx val).mseccfg = m.mseccfg := by
    unfold pmpaddrWrite
    dsimp only
    split <;> rfl
  obtain ⟨he, base⟩ := pmpaddrWrite_entry m hl hb
  apply LockHeld.of_entries hl hm he
  intro ht hp
  rw [base ht hp]

def Machine.mseccfgLocks (m : Machine hw) (val : Reg) : Reg :=
  let kept := if (List.range hw.nPmp).any (fun i => (m.pmp i).cfg &&& pmpL != 0) && !m.rlb then m.mseccfg
    else (m.mseccfg &&& ~~~mseccfgRlb) ||| (val &&& mseccfgRlb)
  kept ||| (val &&& mseccfgMmwp) ||| (val &&& mseccfgMml)

def mseccfgOthers : Reg := mseccfgUseed ||| mseccfgSseed ||| mseccfgMlpe ||| mseccfgPmm

theorem mseccfgNext_locks (hi : hw.nPmp ≠ 0) :
    AgreeOff mseccfgOthers (m.mseccfgNext val) (m.mseccfgLocks val) := by
  have hm (x : Reg) : AgreeOff mseccfgOthers (if hw.extSmmpm then
      setField x mseccfgPmm (legalPmm (getField val mseccfgPmm)) else x) x := by
    split
    · exact (agreeOff_setField x _ _).mono (by decide)
    · exact .refl _ _
  unfold mseccfgNext mseccfgLocks
  dsimp only
  rw [if_neg hi]
  exact (hm _).trans ((agreeOff_chosen _ _ val (by decide)).trans (agreeOff_chosen _ _ val (by decide)))

theorem mseccfgNext_bit (hi : hw.nPmp ≠ 0) {bit : Reg} (ha : Within (~~~mseccfgOthers) bit)
    : m.mseccfgNext val &&& bit = m.mseccfgLocks val &&& bit :=
  (mseccfgNext_locks m hi).and_eq ha

theorem lock_recorded (hl : m.Locked i) (hb : i < hw.nPmp) :
    (List.range hw.nPmp).any (fun i => (m.pmp i).cfg &&& pmpL != 0) :=
  List.any_eq_true.mpr ⟨i, List.mem_range.mpr hb, hl.lock⟩

theorem mseccfgLocks_locked (hl : m.Locked i) (hb : i < hw.nPmp) (val : Reg) :
    m.mseccfgLocks val = m.mseccfg ||| (val &&& mseccfgMmwp) ||| (val &&& mseccfgMml) := by
  unfold mseccfgLocks
  rw [lock_recorded m hl hb, hl.rlb]
  rfl

theorem mseccfgWrite_held (hl : m.Locked i) (hb : i < hw.nPmp) (val : Reg) : LockHeld i m (m.mseccfgWrite val) := by
  have hi : hw.nPmp ≠ 0 := by omega
  have hm : (m.mseccfgWrite val).mseccfg = m.mseccfgNext val := rfl
  have hp : (m.mseccfgWrite val).pmp = m.pmp := by
    unfold mseccfgWrite
    rw [if_neg hi]
    rfl
  have lock := mseccfgLocks_locked m hl hb val
  have hs {bit : Reg} (ha : Within (~~~mseccfgOthers) bit) (set : (m.mseccfg &&& bit != 0)) :
      (m.mseccfgNext val &&& bit != 0) := by
    rw [bne_iff_ne] at set ⊢
    rw [mseccfgNext_bit m hi ha, lock, BitVec.or_assoc]
    exact or_and_ne_zero set _
  constructor
  case entry => rw [hp]
  case base => exact fun _ _ => by rw [hp]
  case rlb =>
    have small : Within (mseccfgMmwp ||| mseccfgMml) ((val &&& mseccfgMmwp) ||| (val &&& mseccfgMml)) :=
      (Within.and_right (by decide) val).or (Within.and_right (by decide) val)
    have same : (m.mseccfg ||| ((val &&& mseccfgMmwp) ||| (val &&& mseccfgMml))) &&& mseccfgRlb =
        m.mseccfg &&& mseccfgRlb := (agreeOff_or m.mseccfg small).and_eq (by decide)
    rw [Machine.rlb, hm, mseccfgNext_bit m hi (by decide), lock, BitVec.or_assoc, same]
    exact hl.rlb
  case mml => exact hs (by decide)
  case mmwp => exact hs (by decide)

theorem pmpWrite_held (hf : hw.nPmp ≤ 64) (hl : m.Locked i) (hb : i < hw.nPmp) {w : PmpWrite}
    : LockHeld i m (m.pmpWrite w) := by
  cases w with
  | pmpcfg reg val => exact pmpcfgWrite_held m hl
  | pmpaddr idx val => exact pmpaddrWrite_held m hl (by omega)
  | mseccfg val => exact mseccfgWrite_held m hl hb val

theorem run_held (hf : hw.nPmp ≤ 64) {start : Machine hw} (hl : start.Locked i) (hb : i < hw.nPmp)
    (w : List PmpWrite) : LockHeld i start (run pmpWrite start w) := by
  have hs : LockHeld i start start := ⟨rfl, fun _ _ => rfl, hl.rlb, id, id⟩
  apply run_invariant _ hs
  intro m wr hh
  exact hh.trans (pmpWrite_held m hf (hh.locked hl) hb)

theorem LockHeld.match4 (hh : LockHeld i b a) (addr : Reg) :
    match4 hw a.pmpRegs i addr = match4 hw b.pmpRegs i addr := by
  have he : a.pmpRegs.entries i = b.pmpRegs.entries i := hh.entry
  unfold Mmu.match4
  dsimp only
  rw [he]
  by_cases ht : (b.pmpRegs.entries i).cfg &&& pmpA = pmpTor
  · have base : torBasePaddr hw a.pmpRegs i = torBasePaddr hw b.pmpRegs i := by
      unfold torBasePaddr
      by_cases hf : i = 0
      · rw [if_pos hf, if_pos hf]
      · have hb : (a.pmpRegs.entries (i - 1)).val = (b.pmpRegs.entries (i - 1)).val :=
          hh.base ht (by omega)
        rw [if_neg hf, if_neg hf, torPaddr, torPaddr, hb]
    rw [base]
  · rw [if_neg ht, if_neg ht]

/-- Over any writes of the PMP registers, a lock that RLB does not lift keeps its entry, and the base of a TOR entry,
  until reset: between any two states of the run the entry matches the same addresses, and grants the same unless
  MML was set in between. -/
theorem pmp_lock_holds (few : hw.nPmp ≤ 64) (start : Machine hw) (i : Nat) (bound : i < hw.nPmp)
    (cleared : start.rlb = false) (lock : ((start.pmp i).cfg &&& pmpL != 0) = true) (earlier later : List PmpWrite) :
    LockHeld i (run pmpWrite start earlier) (run pmpWrite start (earlier ++ later)) ∧
      (∀ addr, match4 hw (run pmpWrite start (earlier ++ later)).pmpRegs i addr =
        match4 hw (run pmpWrite start earlier).pmpRegs i addr) ∧
      ((run pmpWrite start (earlier ++ later)).pmpRegs.mml = (run pmpWrite start earlier).pmpRegs.mml →
        ∀ type prv hlvx, accessOk ((run pmpWrite start (earlier ++ later)).pmp i).cfg
          (run pmpWrite start (earlier ++ later)).pmpRegs.mml type prv hlvx =
          accessOk ((run pmpWrite start earlier).pmp i).cfg (run pmpWrite start earlier).pmpRegs.mml type prv hlvx) := by
  have locked : start.Locked i := ⟨cleared, lock⟩
  have held := run_held few ((run_held few locked bound earlier).locked locked) bound later
  rw [← run_append] at held
  refine ⟨held, held.match4, fun mml type prv hlvx => ?_⟩
  rw [mml, held.entry]

theorem guarded_entry_stays :
    match4 guardedHart (run pmpWrite guardedMachine [.pmpaddr 0 0, .mseccfg 7, .pmpcfg 0 0]).pmpRegs 0 0x80001000 =
      match4 guardedHart guardedMachine.pmpRegs 0 0x80001000 :=
  (pmp_lock_holds (by decide) guardedMachine 0 (by decide) (by decide) (by decide) []
    [.pmpaddr 0 0, .mseccfg 7, .pmpcfg 0 0]).2.1 0x80001000

end

end RiscvEmulators.Spike.Mmu
