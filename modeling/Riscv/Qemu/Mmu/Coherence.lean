import Riscv.Qemu.Mmu.Grant
import Riscv.Qemu.Cpu.Confinement

namespace RiscvEmulators.Qemu.Mmu
open Word Cpu Pmp Transition

structure TlbEntry where
  page : W64
  prot : BitVec 8
  deriving DecidableEq

/-- The entries that the softmmu may hit, by MMU index and virtual page number. -/
structure Machine where
  env : Env
  memory : PageMemory
  tlb : MmuIdx → W64 → Option TlbEntry

namespace Machine
variable (hw : Config) (m : Machine)

def tlbFlush : Machine := { m with tlb := fun _ _ => none }
def tlbFlushIf (flush : Bool) : Machine := if flush then m.tlbFlush else m

def setTlb (idx : MmuIdx) (vpn : W64) (entry : Option TlbEntry) : Machine :=
  { m with tlb := fun idx' vpn' => if idx' = idx ∧ vpn' = vpn then entry else m.tlb idx' vpn' }

def withCpu (cpu : CPURISCVState) : Machine := { m with env := { m.env with cpu := cpu } }

/-- `tlb_set_page`. An entry for less than a page is checked again at every access, which is not to keep it. -/
def tlbSetPage (idx : MmuIdx) (addr : W64) (filled : Filled) : Machine :=
  m.setTlb idx (addr >>> 12) (if filled.size = targetPageSize then some ⟨filled.physical >>> 12, filled.prot⟩ else none)

def access (idx : MmuIdx) (probe : Bool) (addr size : W64) (type : AccessType) : Machine :=
  match m.tlb idx (addr >>> 12) with
  | some entry => if entry.prot &&& type.prot ≠ 0 then m else fill
  | none => fill
where
  fill : Machine :=
    match riscvCpuTlbFill hw m.env idx probe addr size type m.memory with
    | .ok filled memory => { m with memory := memory }.tlbSetPage idx addr filled
    | .error _ memory => { m with memory := memory }

def writeMstatus (val : W64) : Machine :=
  let legal := legalizeMpp m.env.cpu (getField m.env.cpu.mstatus mstatusMpp) val
  (m.tlbFlushIf ((legal ^^^ m.env.cpu.mstatus) &&& mstatusMxr != 0)).withCpu (Cpu.writeMstatus m.env.cpu val)

def writeSstatus (val : W64) : Machine :=
  let mask := sstatusWriteMask m.env.cpu val
  m.writeMstatus ((m.env.cpu.mstatus &&& ~~~mask) ||| (val &&& mask))

def writeVsstatus (val : W64) : Machine := m.withCpu (Cpu.writeVsstatus m.env.cpu val)

def validateVm (rv32 : Bool) (vm : W64) : Bool :=
  vm.toNat ≤ hw.maxSatpMode && if rv32 then vm == 0 || vm == 1 else vm == 0 || vm == 8 || vm == 9 || vm == 10

/-- Whether `legalize_xatp` takes the new value, which flushes the TLB. -/
def takesXatp (old val : W64) : Bool :=
  let rv32 : Bool := m.env.cpu.misaMxl = .rv32
  let mode := if rv32 then satp32Mode else satp64Mode
  let fields := if rv32 then satp32Mode ||| satp32Asid ||| satp32Ppn else satp64Mode ||| satp64Asid ||| satp64Ppn
  validateVm hw rv32 (getField val mode) && (val ^^^ old) &&& fields != 0

def legalizeXatp (old val : W64) : W64 := if m.takesXatp hw old val then val else old

def writeSatp (val : W64) : Machine :=
  if !hw.pmp.mmu then m
  else
    let cpu := m.env.cpu
    (m.tlbFlushIf (m.takesXatp hw cpu.satp val)).withCpu { cpu with satp := m.legalizeXatp hw cpu.satp val }

def writeVsatp (val : W64) : Machine :=
  let cpu := m.env.cpu
  (m.tlbFlushIf (m.takesXatp hw cpu.vsatp val)).withCpu { cpu with vsatp := m.legalizeXatp hw cpu.vsatp val }

def writeHgatp (val : W64) : Machine :=
  let env := m.env
  { m.tlbFlushIf (m.takesXatp hw env.hgatp val) with env := { env with hgatp := m.legalizeXatp hw env.hgatp val } }

def pmpFlushes (s : Pmp.State) : Pmp.Write → Bool
  | .pmpcfg regIndex val => ((List.range (Mxl.cfgNums hw.pmp.mxl)).foldl (writeCfgBytes hw.pmp regIndex val) (s, false)).2
  | .pmpaddr i val =>
    let nextTor : Bool := i + 1 < hw.pmp.regions ∧ getAField (s.entries (i + 1)).cfgReg = .tor
    i < hw.pmp.regions && (s.entries i).addrReg != hw.pmp.ulong val && !(nextTor && s.isReadonly (i + 1)) && !s.isReadonly i
  | .mseccfg val =>
    let pmm := hw.pmp.extSmmpm && hw.pmp.mxl = .rv64 && getField val mseccfgPmm != Pmp.pmmFieldReserved
    let mask := if pmm then mseccfgMmwp ||| mseccfgMml ||| mseccfgPmm else mseccfgMmwp ||| mseccfgMml
    hw.pmp.extSmepmp && ((mseccfgCsrWrite hw.pmp s val).mseccfg ^^^ s.mseccfg) &&& mask != 0

def pmpWrite (write : Pmp.Write) : Machine :=
  { m.tlbFlushIf (pmpFlushes hw m.env.pmp write) with env := { m.env with pmp := writeStep hw.pmp m.env.pmp write } }

def riscvCpuSetMode (newpriv : Priv) (virtEn : Bool) : Machine :=
  let cpu := m.env.cpu
  (m.tlbFlushIf (cpu.misaExt.rvh && cpu.virtEnabled != virtEn)).withCpu (Cpu.riscvCpuSetMode cpu newpriv virtEn)

def switchVirt (newpriv : Priv) : Machine :=
  let cpu := m.env.cpu
  if cpu.misaExt.rvh then (m.withCpu (riscvCpuSwapHypervisorRegs cpu)).riscvCpuSetMode newpriv (!cpu.virtEnabled) else m

end Machine

inductive AccessKind where
  | ordinary
  | shadowStack
  | hypervisor (x : Bool)

def AccessKind.mmuIdx (cpu : CPURISCVState) (type : AccessType) : AccessKind → Option MmuIdx
  | .ordinary => some (riscvEnvMmuIndex cpu (type = .instFetch))
  | .shadowStack => some { riscvEnvMmuIndex cpu false with ssWrite := true }
  | .hypervisor x => checkAccessHlsv cpu x

inductive Event where
  | writeMstatus (val : W64)
  | writeSstatus (val : W64)
  | writeVsstatus (val : W64)
  | writeSatp (val : W64)
  | writeVsatp (val : W64)
  | writeHgatp (val : W64)
  | pmpWrite (write : Pmp.Write)
  | setMode (newpriv : Priv) (virtEn : Bool)
  | switchVirt (newpriv : Priv)
  | access (kind : AccessKind) (probe : Bool) (addr size : W64) (type : AccessType)
  | evict (idx : MmuIdx) (vpn : W64)
  | flush

def step (hw : Config) (m : Machine) : Event → Machine
  | .writeMstatus val => m.writeMstatus val
  | .writeSstatus val => m.writeSstatus val
  | .writeVsstatus val => m.writeVsstatus val
  | .writeSatp val => m.writeSatp hw val
  | .writeVsatp val => m.writeVsatp hw val
  | .writeHgatp val => m.writeHgatp hw val
  | .pmpWrite write => m.pmpWrite hw write
  | .setMode newpriv virtEn => m.riscvCpuSetMode newpriv virtEn
  | .switchVirt newpriv => m.switchVirt newpriv
  | .access kind probe addr size type =>
    match kind.mmuIdx m.env.cpu type with
    | none => m
    | some idx => m.access hw idx probe addr size type
  | .evict idx vpn => m.setTlb idx vpn none
  | .flush => m.tlbFlush

section
variable {hw : Config} {env : Env}

theorem grants_status {mstatus vsstatus xl : W64}
    (ho : getField env.cpu.mstatus mstatusMxr ≠ 0 → getField mstatus mstatusMxr ≠ 0)
    (hg : env.cpu.virtEnabled = false → getField env.cpu.vsstatus mstatusMxr ≠ 0 → getField vsstatus mstatusMxr ≠ 0) :
    Grants hw env { env with cpu := { env.cpu with mstatus := mstatus, vsstatus := vsstatus, xl := xl } } := by
  have hm : ∀ idx f t p p', (view hw env idx f t p).mxr →
      (view hw { env with cpu := { env.cpu with mstatus := mstatus, vsstatus := vsstatus, xl := xl } } idx f
        t p').mxr := by
    intro idx f t p p' set
    simp only [view, Bool.or_eq_true, Bool.and_eq_true, bne_iff_ne] at set ⊢
    rcases set with (⟨hs, set⟩ | ⟨⟨hs, host⟩, set⟩) | hh
    · exact .inl (.inl ⟨hs, ho set⟩)
    · exact .inl (.inr ⟨⟨hs, host⟩, hg (by simpa using host) set⟩)
    · exact .inr hh
  constructor
  · intro idx p
    exact ⟨rfl, id, hm idx _ _ _ _, id, Bool.noConfusion⟩
  · intro p
    exact ⟨rfl, id, hm .user _ _ _ _, id, Bool.noConfusion⟩
  · exact .refl hw env.pmp

def modeCpu (cpu : CPURISCVState) (newpriv : Priv) : CPURISCVState := { cpu with priv := newpriv }

theorem doSvukteCheck_mode {cpu : CPURISCVState} {n : Priv}
    (hk : doSvukteCheck hw (modeCpu cpu n) true .user true → doSvukteCheck hw cpu true .user true)
    (f : Bool) (md : Priv) (virt : Bool) (hg : virt → f) (hc : doSvukteCheck hw (modeCpu cpu n) f md virt) :
    doSvukteCheck hw cpu f md virt := by
  cases virt with
  | false =>
    unfold doSvukteCheck at hc ⊢
    simpa [modeCpu] using hc
  | true =>
    rw [hg rfl] at hc ⊢
    cases md with
    | user => exact hk hc
    | supervisor =>
      unfold doSvukteCheck at hc
      simp at hc
    | machine =>
      unfold doSvukteCheck at hc
      simp at hc

theorem grants_mode {n : Priv} {xl : W64} (hs : cpuGetBcfien env.cpu → cpuGetBcfien (modeCpu env.cpu n))
    (hk : doSvukteCheck hw (modeCpu env.cpu n) true .user true → doSvukteCheck hw env.cpu true .user true) :
    Grants hw env { env with cpu := { env.cpu with priv := n, xl := xl } } := by
  constructor
  · intro idx p
    refine ⟨rfl, ?_, id, ?_, Bool.noConfusion⟩
    · exact doSvukteCheck_mode hk true idx.priv idx.twoStage fun _ => rfl
    · intro he
      obtain ⟨he, stack⟩ := Bool.and_eq_true _ _ ▸ he
      exact Bool.and_eq_true _ _ ▸ ⟨hs he, stack⟩
  · intro p
    refine ⟨rfl, ?_, id, ?_, Bool.noConfusion⟩
    · exact doSvukteCheck_mode hk false .user false Bool.noConfusion
    · intro he
      exact absurd he (by simp [view])
  · exact .refl hw env.pmp

theorem grants_pmp {pmp : Pmp.State} (h : PmpSame hw env.pmp pmp) : Grants hw env { env with pmp := pmp } where
  first := (Grants.refl hw env).first
  second := (Grants.refl hw env).second
  pmp := h

end

theorem cleared_mxr (bit x : W64) (h : Within (~~~bit) mstatusMxr) : (x &&& ~~~bit) &&& mstatusMxr = x &&& mstatusMxr :=
  (agreeOff_and_not x (within_self bit)).and_eq h

theorem writeMstatus_mxr {cpu : CPURISCVState} {val : W64}
    (hu : (legalizeMpp cpu (getField cpu.mstatus mstatusMpp) val ^^^ cpu.mstatus) &&& mstatusMxr = 0) :
    (Cpu.writeMstatus cpu val).mstatus &&& mstatusMxr = cpu.mstatus &&& mstatusMxr := by
  have hl : mstatusLegalized cpu val &&& mstatusMxr =
      legalizeMpp cpu (getField cpu.mstatus mstatusMpp) val &&& mstatusMxr := by
    have hs x := cleared_mxr mstatusSie x (by decide)
    have hm x := cleared_mxr mstatusMie x (by decide)
    unfold mstatusLegalized
    dsimp only
    split
    · split
      · rw [hm, hs]
      · exact hs _
    · split
      · exact hm _
      · rfl
  rw [writeMstatus_mstatus, masked_and _ _ (within_mstatusWriteMask cpu _ (by decide)), hl]
  exact and_eq_of_xor hu

theorem writeVsstatus_mxr (cpu : CPURISCVState) (val : W64) :
    (Cpu.writeVsstatus cpu val).vsstatus &&& mstatusMxr = val &&& mstatusMxr := by
  have hm : Within (if val &&& mstatus64Uxl = 0 then ~~~mstatus64Uxl else BitVec.allOnes 64) mstatusMxr := by
    split <;> decide
  unfold Cpu.writeVsstatus
  rw [overlaid_and _ _ hm]
  split
  · split
    · exact cleared_mxr mstatusSie _ (by decide)
    · rfl
  · exact cleared_mxr mstatusSdt _ (by decide)

section
variable {hw : Hardware} {s : Pmp.State}

theorem writeCfg_unmodified {i : Nat} {val : BitVec 8} (h : (writeCfg hw s i val).2 = false) :
    (writeCfg hw s i val).1 = s := by
  unfold writeCfg at h ⊢
  dsimp only at h ⊢
  repeat' split at h
  all_goals simp_all

theorem foldl_unmodified {r : Nat} {val : W64} {b : List Nat} {state : Pmp.State × Bool}
    (hu : (b.foldl (writeCfgBytes hw r val) state).2 = false) : b.foldl (writeCfgBytes hw r val) state = state := by
  induction b generalizing state with
  | nil => rfl
  | cons i b ih =>
    have hr := ih hu
    rw [List.foldl_cons] at hu ⊢
    rw [hr] at hu ⊢
    obtain ⟨-, hk⟩ := Bool.or_eq_false_iff.mp hu
    unfold writeCfgBytes
    dsimp only
    rw [writeCfg_unmodified hk, hk, Bool.or_false]

theorem privsDefault_mseccfg {mseccfg : W64} (mml : { s with mseccfg := mseccfg }.mmlIsset = s.mmlIsset)
    (hm : { s with mseccfg := mseccfg }.mmwpIsset = s.mmwpIsset) (p : BitVec 8) (mode : Priv) :
    privsDefault hw { s with mseccfg := mseccfg } p mode = privsDefault hw s p mode := by
  unfold privsDefault
  rw [mml, hm]

theorem pmpSame_mseccfg {hw : Config} {mseccfg : W64} (mml : { s with mseccfg := mseccfg }.mmlIsset = s.mmlIsset)
    (hm : { s with mseccfg := mseccfg }.mmwpIsset = s.mmwpIsset) : PmpSame hw s { s with mseccfg := mseccfg } := by
  have rules : ∀ a l p mode rules, checkPrivs hw.pmp { s with mseccfg := mseccfg } a l p mode rules =
      checkPrivs hw.pmp s a l p mode rules := by
    intro a l p mode rules
    have ha : ∀ i, allowedPrivs { s with mseccfg := mseccfg } i mode = allowedPrivs s i mode := by
      intro i
      unfold allowedPrivs
      rw [mml]
      rfl
    induction rules with
    | nil => exact privsDefault_mseccfg mml hm p mode
    | cons i r ih =>
      rw [checkPrivs, ih, ha]
      rfl
  have hs : ∀ fst l rules, tlbSizeRules { s with mseccfg := mseccfg } fst l rules = tlbSizeRules s fst l rules := by
    intro fst l rules
    induction rules with
    | nil => rfl
    | cons i r ih => rw [tlbSizeRules, tlbSizeRules, ih]
  constructor
  · funext a size type mode
    unfold getPhysicalAddressPmp hartPrivs
    rw [rules, privsDefault_mseccfg mml hm]
  · funext a
    unfold getTlbSize
    dsimp only
    rw [hs]

def PlainSeccfg (hw : Hardware) (s : Pmp.State) : Prop :=
  hw.extSmepmp = false → s.mmlIsset = false ∧ s.mmwpIsset = false

theorem pmpcfgCsrWrite_mseccfg (r : Nat) (val : W64) : (pmpcfgCsrWrite hw s r val).mseccfg = s.mseccfg := by
  have hb : ∀ (a : Pmp.State) i cfg, a.mseccfg = s.mseccfg → (writeCfg hw a i cfg).1.mseccfg = s.mseccfg := by
    intro a i cfg hs
    rcases writeCfg_cases hw a i cfg with hu | ⟨-, cfg, hc⟩
    · rw [hu]
      exact hs
    · rw [hc]
      exact hs
  exact pmpcfgCsrWrite_keeps hb (fun _ _ hs => hs) s r val rfl

theorem pmpaddrCsrWrite_mseccfg (i : Nat) (val : W64) : (pmpaddrCsrWrite hw s i val).mseccfg = s.mseccfg := by
  unfold pmpaddrCsrWrite
  dsimp only
  repeat' split
  all_goals rfl

theorem mseccfgCsrWrite_plain (s : Pmp.State) (val : W64) (hs : hw.extSmepmp = false) :
    (mseccfgCsrWrite hw s val).mmlIsset = false ∧ (mseccfgCsrWrite hw s val).mmwpIsset = false := by
  have hc : ∀ bs, bs = mseccfgMml ∨ bs = mseccfgMmwp → (mseccfgCsrWrite hw s val).mseccfg &&& bs = 0 := by
    intro bs bits
    rw [mseccfgCsrWrite_mseccfg, hs]
    apply Within.and_eq_zero
    apply Within.and_right
    rcases mseccfgSticky_cases hw val with whole | hn
    · rw [whole]
      rcases bits with rfl | rfl <;> decide
    · rw [hn]
      rcases bits with rfl | rfl <;> decide
  unfold State.mmlIsset State.mmwpIsset
  rw [hc _ (.inl rfl), hc _ (.inr rfl)]
  exact ⟨rfl, rfl⟩

theorem writeStep_plain (hp : PlainSeccfg hw s) (w : Pmp.Write) : PlainSeccfg hw (writeStep hw s w) := by
  intro hs
  cases w with
  | pmpcfg r val =>
    unfold State.mmlIsset State.mmwpIsset
    rw [writeStep, pmpcfgCsrWrite_mseccfg]
    exact hp hs
  | pmpaddr i val =>
    unfold State.mmlIsset State.mmwpIsset
    rw [writeStep, pmpaddrCsrWrite_mseccfg]
    exact hp hs
  | mseccfg val => exact mseccfgCsrWrite_plain s val hs

theorem pmpaddrCsrWrite_unflushed {hw : Config} {i : Nat} {val : W64}
    (h : Machine.pmpFlushes hw s (.pmpaddr i val) = false) : pmpaddrCsrWrite hw.pmp s i val = s := by
  unfold Machine.pmpFlushes at h
  unfold pmpaddrCsrWrite
  dsimp only at h ⊢
  split; · rfl
  split; · rfl
  split; · rfl
  split; · rfl
  simp_all

theorem pmpSame_unflushed {hw : Config} (hp : PlainSeccfg hw.pmp s) {w : Pmp.Write}
    (hu : Machine.pmpFlushes hw s w = false) : PmpSame hw s (writeStep hw.pmp s w) := by
  cases w with
  | pmpcfg r val =>
    have same := foldl_unmodified hu
    rw [writeStep, pmpcfgCsrWrite, same]
    exact .refl hw s
  | pmpaddr i val =>
    rw [writeStep, pmpaddrCsrWrite_unflushed hu]
    exact .refl hw s
  | mseccfg val =>
    by_cases hs : hw.pmp.extSmepmp
    · have hu2 : ((mseccfgCsrWrite hw.pmp s val).mseccfg ^^^ s.mseccfg) &&& mseccfgSticky hw.pmp val = 0 := by
        simpa [Machine.pmpFlushes, hs, mseccfgSticky] using hu
      have bits : ∀ bits, Within (mseccfgMmwp ||| mseccfgMml) bits →
          (mseccfgCsrWrite hw.pmp s val).mseccfg &&& bits = s.mseccfg &&& bits := by
        intro bits within
        exact and_eq_of_within (and_eq_of_xor hu2) (within.mono (mseccfgSticky_within hw.pmp val))
      apply pmpSame_mseccfg
      · exact congrArg (· != 0) (bits mseccfgMml (by decide))
      · exact congrArg (· != 0) (bits mseccfgMmwp (by decide))
    · have ho : hw.pmp.extSmepmp = false := by simpa using hs
      obtain ⟨mml, hm2⟩ := hp ho
      obtain ⟨hmm, hm⟩ := mseccfgCsrWrite_plain s val ho
      exact pmpSame_mseccfg (hmm.trans mml.symm) (hm.trans hm2.symm)

end

open Machine

/-- The access that filled the entry would now be translated to the same page, with at least its permissions, and the PMP
  would let it pass with them. -/
def Backed (hw : Config) (env : Env) (memory : PageMemory) (idx : MmuIdx) (vpn : W64) (entry : TlbEntry) : Prop :=
  ∃ (addr size physical : W64) (type : AccessType) (prot protPmp : BitVec 8),
    addr >>> 12 = vpn ∧ physical >>> 12 = entry.page ∧
    lookupTranslate hw env memory idx false addr type = some (physical, prot) ∧ ProtLe entry.prot prot ∧
    getPhysicalAddressPmp hw.pmp env.pmp physical size type idx.priv = some protPmp ∧ ProtLe entry.prot protPmp ∧
    getTlbSize hw.pmp env.pmp physical = targetPageSize

theorem Backed.mono {hw : Config} {env e' : Env} {mem m' : PageMemory} {idx : MmuIdx} {vpn : W64}
    {entry : TlbEntry} (hb : Backed hw env mem idx vpn entry) (hg : Grants hw env e')
    (aged : Aged mem m') : Backed hw e' m' idx vpn entry := by
  obtain ⟨a, s, p, t, prot, pr, hh, page, found, grants, hp, ha, whole⟩ := hb
  obtain ⟨p', hf, hm⟩ := lookupTranslate_le hg aged found
  refine ⟨a, s, p, t, p', pr, hh, page, hf, grants.trans hm, ?_, ha, ?_⟩
  · rw [hg.pmp.check]
    exact hp
  · rw [hg.pmp.size]
    exact whole

structure Coherent (hw : Config) (m : Machine) : Prop where
  backed : ∀ idx vpn entry, m.tlb idx vpn = some entry → Backed hw m.env m.memory idx vpn entry
  plain : PlainSeccfg hw.pmp m.env.pmp

theorem mxr_eq_zero_iff (st : W64) : getField st mstatusMxr = 0 ↔ st &&& mstatusMxr = 0 :=
  getField_eq_zero_iff 19 (by decide) (by decide) (by decide)

section
variable {hw : Config} {m : Machine}

theorem tlbFlushIf_withCpu (f : Bool) (cpu : CPURISCVState) :
    (m.tlbFlushIf f).withCpu cpu = { m.tlbFlushIf f with env := { m.env with cpu := cpu } } := by
  cases f <;> rfl

theorem Coherent.of_empty (he : ∀ idx vpn, m.tlb idx vpn = none) (plain : PlainSeccfg hw.pmp m.env.pmp) :
    Coherent hw m where
  backed := by
    intro idx vpn e hc
    rw [he] at hc
    cases hc
  plain := plain

variable (c : Coherent hw m)
include c

theorem Coherent.registers {f : Bool} {env : Env} (hg : f = false → Grants hw m.env env)
    (hp : PlainSeccfg hw.pmp env.pmp) : Coherent hw { m.tlbFlushIf f with env := env } := by
  cases f with
  | true => exact .of_empty (fun _ _ => rfl) hp
  | false =>
    constructor
    · intro idx vpn e hc
      exact (c.backed idx vpn e hc).mono (hg rfl) (.refl m.memory)
    · exact hp

theorem Coherent.withCpu {f : Bool} {cpu : CPURISCVState}
    (h : f = false → Grants hw m.env { m.env with cpu := cpu }) :
    Coherent hw ((m.tlbFlushIf f).withCpu cpu) := by
  rw [tlbFlushIf_withCpu]
  exact c.registers h c.plain

variable {val : W64}

theorem writeMstatus_coherent : Coherent hw (m.writeMstatus val) := by
  apply c.withCpu
  intro hu
  have hk := writeMstatus_mxr (by simpa using hu)
  have hs : Cpu.writeMstatus m.env.cpu val =
      { m.env.cpu with
        mstatus := (Cpu.writeMstatus m.env.cpu val).mstatus, xl := (Cpu.writeMstatus m.env.cpu val).xl } := by
    unfold Cpu.writeMstatus
    split <;> rfl
  rw [hs]
  apply grants_status
  · rw [getField_congr hk]
    exact id
  · intro _ set
    exact set

theorem writeVsstatus_coherent
    (hh : m.env.cpu.virtEnabled = false → m.env.cpu.vsstatus &&& mstatusMxr ≠ 0 → val &&& mstatusMxr ≠ 0) :
    Coherent hw (m.writeVsstatus val) := by
  have hs : Cpu.writeVsstatus m.env.cpu val =
      { m.env.cpu with vsstatus := (Cpu.writeVsstatus m.env.cpu val).vsstatus } := rfl
  show Coherent hw ((m.tlbFlushIf false).withCpu (Cpu.writeVsstatus m.env.cpu val))
  apply c.withCpu
  intro _
  rw [hs]
  apply grants_status id
  intro host set
  rw [ne_eq, mxr_eq_zero_iff] at set ⊢
  rw [writeVsstatus_mxr]
  exact hh host set

theorem legalizeXatp_coherent {old val : W64} (env : W64 → Env) (hc : env old = m.env)
    (hp : PlainSeccfg hw.pmp (env (m.legalizeXatp hw old val)).pmp) :
    Coherent hw { m.tlbFlushIf (m.takesXatp hw old val) with env := env (m.legalizeXatp hw old val) } := by
  apply c.registers _ hp
  intro hu
  rw [legalizeXatp, hu, if_neg Bool.false_ne_true, hc]
  exact .refl hw m.env

theorem writeSatp_coherent : Coherent hw (m.writeSatp hw val) := by
  unfold writeSatp
  split
  · exact c
  · rw [tlbFlushIf_withCpu]
    exact legalizeXatp_coherent c (fun satp => { m.env with cpu := { m.env.cpu with satp := satp } }) rfl
      c.plain

theorem writeVsatp_coherent : Coherent hw (m.writeVsatp hw val) := by
  unfold writeVsatp
  rw [tlbFlushIf_withCpu]
  exact legalizeXatp_coherent c (fun vsatp => { m.env with cpu := { m.env.cpu with vsatp := vsatp } }) rfl
    c.plain

theorem writeHgatp_coherent (val : W64) : Coherent hw (m.writeHgatp hw val) :=
  legalizeXatp_coherent c (fun hgatp => { m.env with hgatp := hgatp }) rfl c.plain

theorem pmpWrite_coherent {w : Pmp.Write} : Coherent hw (m.pmpWrite hw w) :=
  c.registers (fun h => grants_pmp (pmpSame_unflushed c.plain h))
    (writeStep_plain c.plain w)

theorem riscvCpuSetMode_coherent {n : Priv} {v : Bool} (harmless : m.env.cpu.misaExt.rvh ∧ m.env.cpu.virtEnabled ≠ v ∨
    (cpuGetBcfien m.env.cpu → cpuGetBcfien (modeCpu m.env.cpu n)) ∧
    (doSvukteCheck hw (modeCpu m.env.cpu n) true .user true →
      doSvukteCheck hw m.env.cpu true .user true)) : Coherent hw (m.riscvCpuSetMode n v) := by
  apply c.withCpu
  intro hu
  rcases harmless with ⟨hh, hs⟩ | ⟨same, hk⟩
  · exact absurd hu (by simp [hh, hs])
  · have hv : (if m.env.cpu.misaExt.rvh then v else m.env.cpu.virtEnabled) = m.env.cpu.virtEnabled := by
      split
      case isTrue hh =>
        rw [hh, Bool.true_and, bne_eq_false_iff_eq] at hu
        exact hu.symm
      case isFalse => rfl
    unfold Cpu.riscvCpuSetMode
    rw [hv]
    exact grants_mode same hk

theorem switchVirt_coherent {n : Priv} : Coherent hw (m.switchVirt n) := by
  unfold switchVirt
  dsimp only
  split
  case isFalse => exact c
  case isTrue hh =>
    have hk : (riscvCpuSwapHypervisorRegs m.env.cpu).misaExt = m.env.cpu.misaExt ∧
        (riscvCpuSwapHypervisorRegs m.env.cpu).virtEnabled = m.env.cpu.virtEnabled := by
      unfold riscvCpuSwapHypervisorRegs
      split <;> exact ⟨rfl, rfl⟩
    have hf : (m.withCpu (riscvCpuSwapHypervisorRegs m.env.cpu)).riscvCpuSetMode n (!m.env.cpu.virtEnabled) =
        (m.withCpu (riscvCpuSwapHypervisorRegs m.env.cpu)).tlbFlush.withCpu
          (Cpu.riscvCpuSetMode (riscvCpuSwapHypervisorRegs m.env.cpu) n (!m.env.cpu.virtEnabled)) := by
      unfold Machine.riscvCpuSetMode
      dsimp only [withCpu]
      rw [hk.1, hk.2, hh]
      cases m.env.cpu.virtEnabled <;> rfl
    rw [hf]
    exact .of_empty (fun _ _ => rfl) c.plain

end

section
variable {hw : Config} {m : Machine} {idx : MmuIdx} {pro : Bool} {ad sz : W64} {ty : AccessType}

theorem riscvCpuTlbFill_ages {env : Env} {fst : PageMemory} :
    Keeps (Aged fst) (riscvCpuTlbFill hw env idx pro ad sz ty) := by
  apply Keeps.bind (translate_ages fst)
  intro f
  cases getPhysicalAddressPmp hw.pmp env.pmp f.1 sz ty idx.priv with
  | none => exact Keeps.throw _
  | some p => exact Keeps.pure _

theorem riscvCpuTlbFill_backed {env : Env} {mem a : PageMemory} {f : Filled}
    (ran : riscvCpuTlbFill hw env idx pro ad sz ty mem = .ok f a) (whole : f.size = targetPageSize) :
    Backed hw env a idx (ad >>> 12) ⟨f.physical >>> 12, f.prot⟩ := by
  obtain ⟨⟨p, prot⟩, b, walked, hr⟩ := bind_eq_ok.mp ran
  obtain ⟨p', hf, hm⟩ := translate_found walked
  cases hp : getPhysicalAddressPmp hw.pmp env.pmp p sz ty idx.priv with
  | none =>
    rw [hp] at hr
    cases hr
  | some pr =>
    rw [hp] at hr
    obtain ⟨rfl, rfl⟩ := pure_eq_ok.mp hr
    refine ⟨ad, sz, p, ty, p', pr, rfl, rfl, hf, ?_, hp, ?_, whole⟩
    · intro as hh
      exact hm as ((and_prot_iff _ _ _).mp hh).1
    · intro as hh
      exact ((and_prot_iff _ _ _).mp hh).2

theorem Coherent.ages (co : Coherent hw m) {memory : PageMemory} (h : Aged m.memory memory) :
    Coherent hw { m with memory := memory } where
  backed idx vpn e cached := (co.backed idx vpn e cached).mono (.refl hw m.env) h
  plain := co.plain

theorem Coherent.setTlb (coherent : Coherent hw m) {vpn : W64} {e : Option TlbEntry}
    (backed : ∀ kept, e = some kept → Backed hw m.env m.memory idx vpn kept) : Coherent hw (m.setTlb idx vpn e) where
  backed idx' vpn' kept cached := by
    unfold Machine.setTlb at cached
    dsimp only at cached
    split at cached
    case isTrue here =>
      rw [here.1, here.2]
      exact backed kept cached
    case isFalse => exact coherent.backed idx' vpn' kept cached
  plain := coherent.plain

theorem access_coherent (co : Coherent hw m) : Coherent hw (m.access hw idx pro ad sz ty) := by
  have hf : Coherent hw (access.fill hw m idx pro ad sz ty) := by
    have keeps : Keeps (Aged m.memory) (riscvCpuTlbFill hw m.env idx pro ad sz ty) := riscvCpuTlbFill_ages
    have hk := keeps m.memory (.refl m.memory)
    unfold access.fill
    cases hr : riscvCpuTlbFill hw m.env idx pro ad sz ty m.memory with
    | error f mem =>
      rw [hr] at hk
      exact co.ages hk
    | ok fi mem =>
      rw [hr] at hk
      apply (co.ages hk).setTlb
      intro e hc
      split at hc
      case isTrue whole =>
        cases hc
        exact riscvCpuTlbFill_backed hr whole
      case isFalse => cases hc
  unfold access
  split
  · split
    · exact co
    · exact hf
  · exact hf

end

/-- The steps that take no permission away from an entry without a flush. A write of `vsstatus` keeps MXR while the host
  runs, and a change of privilege alone neither turns shadow stacks off nor the check of Svukte on. -/
def Harmless (hw : Config) (m : Machine) : Event → Prop
  | .writeVsstatus val =>
    m.env.cpu.virtEnabled = false → m.env.cpu.vsstatus &&& mstatusMxr ≠ 0 → val &&& mstatusMxr ≠ 0
  | .setMode newpriv virtEn =>
    m.env.cpu.misaExt.rvh ∧ m.env.cpu.virtEnabled ≠ virtEn ∨
      (cpuGetBcfien m.env.cpu → cpuGetBcfien (modeCpu m.env.cpu newpriv)) ∧
      (doSvukteCheck hw (modeCpu m.env.cpu newpriv) true .user true →
        doSvukteCheck hw m.env.cpu true .user true)
  | _ => True

theorem step_coherent {hw : Config} {m : Machine} {e : Event} (h : Harmless hw m e)
    (co : Coherent hw m) : Coherent hw (step hw m e) := by
  cases e with
  | writeMstatus val => exact writeMstatus_coherent co
  | writeSstatus val => exact writeMstatus_coherent co
  | writeVsstatus val => exact writeVsstatus_coherent co h
  | writeSatp val => exact writeSatp_coherent co
  | writeVsatp val => exact writeVsatp_coherent co
  | writeHgatp val => exact writeHgatp_coherent co val
  | pmpWrite w => exact pmpWrite_coherent co
  | setMode n v => exact riscvCpuSetMode_coherent co h
  | switchVirt n => exact switchVirt_coherent co
  | access kind probe addr size type =>
    unfold step
    dsimp only
    split
    · exact co
    · exact access_coherent co
  | evict idx vpn => exact co.setTlb (by rintro kept ⟨⟩)
  | flush => exact .of_empty (fun _ _ => rfl) co.plain

/-- Each permission of an entry is one that the walk grants now, on the whole virtual page and at the page of the entry;
  and there is an access to that page that the PMP lets pass with all of them, for the page as a whole. -/
def Granted (hw : Config) (m : Machine) (idx : MmuIdx) (vpn : W64) (entry : TlbEntry) : Prop :=
  (∀ (addr : W64) (type : AccessType), addr >>> 12 = vpn → entry.prot &&& type.prot ≠ 0 →
    ∃ (physical : W64) (prot : BitVec 8), translate hw m.env idx false addr type m.memory = .ok (physical, prot) m.memory ∧
      physical >>> 12 = entry.page ∧ prot &&& type.prot ≠ 0) ∧
  ∃ (physical size : W64) (type : AccessType) (protPmp : BitVec 8), physical >>> 12 = entry.page ∧
    getPhysicalAddressPmp hw.pmp m.env.pmp physical size type idx.priv = some protPmp ∧ ProtLe entry.prot protPmp ∧
    getTlbSize hw.pmp m.env.pmp physical = targetPageSize

theorem Backed.granted {hw : Config} {m : Machine} {idx : MmuIdx} {vpn : W64} {entry : TlbEntry}
    (hb : Backed hw m.env m.memory idx vpn entry) : Granted hw m idx vpn entry := by
  obtain ⟨addr, s, p, t, prot, pr, here, page, found, granted, hp, ha, whole⟩ := hb
  constructor
  · intro a' t' hh ha2
    obtain ⟨p', pr', hf, h', has⟩ :=
      lookupTranslate_same (hh.trans here.symm) found (granted t' ha2)
    exact ⟨p', pr', lookupTranslate_settled hf, h'.trans page, has⟩
  · exact ⟨p, s, t, pr, page, hp, ha, whole⟩

/-- From an empty TLB, every run of harmless steps leaves only entries that the walk would grant again. -/
theorem cached_entries_granted (hw : Config) (start : Machine) (plain : PlainSeccfg hw.pmp start.env.pmp)
    (empty : ∀ idx vpn, start.tlb idx vpn = none) (events : List Event)
    (harmless : StepsMeet (step hw) (Harmless hw) start events) (idx : MmuIdx) (vpn : W64) (entry : TlbEntry)
    (cached : (run (step hw) start events).tlb idx vpn = some entry) :
    Granted hw (run (step hw) start events) idx vpn entry := by
  have coherent : Coherent hw (run (step hw) start events) :=
    harmless.run_invariant (fun _ _ => step_coherent) (.of_empty empty plain)
  exact (coherent.backed idx vpn entry cached).granted

def plainConfig (svukte : Bool) : Config where
  pmp := { twoRegions with pmp := false }
  extSvade := false
  extSvnapot := false
  extSvukte := svukte
  extSvrsw60t59b := false
  maxSatpMode := 10

def gigapage (pte : W64) : PageMemory where
  word := fun addr => if addr &&& ~~~0xfff = 0x80000 then some pte else none
  ram := fun _ => true

def sv39Root : W64 := 0x8000000000000080

def coldMachine (cpu : CPURISCVState) (pte : W64) : Machine where
  env := ⟨cpu, 0, resetState⟩
  memory := gigapage pte
  tlb := fun _ _ => none

def hostOfGuest : Machine :=
  coldMachine { guestEntry with hstatus := hstatusSpvp, vsstatus := 0x0000000a00080000, vsatp := sv39Root } 0x49

def shadowStackHart : Machine :=
  coldMachine
    { guestEntry with
      cfg := { guestEntry.cfg with extZicfiss := true }
      envcfg := { menvcfg := menvcfgSse, senvcfg := 0, henvcfg := 0, dteImplemented := by decide }
      satp := sv39Root } 0x45

def userOfGuest : Machine :=
  coldMachine
    { guestEntry with
      priv := .user
      hstatus := hstatusHu
      envcfg := { menvcfg := 0, senvcfg := senvcfgUkte, henvcfg := 0, dteImplemented := by decide }
      vsatp := sv39Root } 0x53

def translates (hw : Config) (m : Machine) (idx : MmuIdx) (addr : W64) (type : AccessType) : Bool :=
  match translate hw m.env idx false addr type m.memory with
  | .ok _ _ => true
  | .error _ _ => false

theorem not_granted {hw : Config} {m : Machine} {idx : MmuIdx} {vpn : W64} {entry : TlbEntry} (a : W64)
    (t : AccessType) (hh : a >>> 12 = vpn) (ha : entry.prot &&& t.prot ≠ 0)
    (hf : translates hw m idx a t = false) : ¬Granted hw m idx vpn entry := by
  intro hg
  obtain ⟨p, prot, walked, -⟩ := hg.1 a t hh ha
  rw [translates, walked] at hf
  cases hf

theorem host_read_granted : Granted (plainConfig false)
    (run (step (plainConfig false)) hostOfGuest [.access (.hypervisor false) false 0x2000 8 .dataLoad])
    ⟨.s, true, false⟩ 2 ⟨2, pageRead ||| pageExec⟩ :=
  cached_entries_granted (plainConfig false) hostOfGuest (fun _ => by decide) (fun _ _ => rfl) _ (by simp [Harmless]) _ _ _
    (by decide +kernel)

/-- Entries that outlive their permission: MXR of `vsstatus` is cleared, M-mode is entered where shadow stacks are off, and
  U-mode is left, so that UKTE applies to its guest addresses in place of HUKTE. -/
theorem stale_entries_kept :
    (let m := run (step (plainConfig false)) hostOfGuest
        [.access (.hypervisor false) false 0x2000 8 .dataLoad, .writeVsstatus 0x0000000a00000000]
      ∃ entry, m.tlb ⟨.s, true, false⟩ 2 = some entry ∧ ¬Granted (plainConfig false) m ⟨.s, true, false⟩ 2 entry) ∧
    (let m := run (step (plainConfig false)) shadowStackHart
        [.access .ordinary false 0x2000 8 .dataLoad, .setMode .machine false]
      ∃ entry, m.tlb ⟨.s, false, false⟩ 2 = some entry ∧ ¬Granted (plainConfig false) m ⟨.s, false, false⟩ 2 entry) ∧
    (let m := run (step (plainConfig true)) userOfGuest
        [.access (.hypervisor false) false 0xffffffffc0002000 8 .dataLoad, .setMode .supervisor false]
      ∃ entry, m.tlb ⟨.u, true, false⟩ 0xffffffffc0002 = some entry ∧
        ¬Granted (plainConfig true) m ⟨.u, true, false⟩ 0xffffffffc0002 entry) := by
  refine ⟨⟨⟨2, pageRead ||| pageExec⟩, by decide +kernel, ?_⟩, ⟨⟨2, pageRead⟩, by decide +kernel, ?_⟩,
    ⟨⟨2, pageRead⟩, by decide +kernel, ?_⟩⟩
  · exact not_granted 0x2000 .dataLoad (by decide) (by decide) (by decide +kernel)
  · exact not_granted 0x2000 .dataLoad (by decide) (by decide) (by decide +kernel)
  · exact not_granted 0xffffffffc0002000 .dataLoad (by decide) (by decide) (by decide +kernel)

end RiscvEmulators.Qemu.Mmu
