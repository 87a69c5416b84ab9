import Riscv.Qemu.Cpu.Banking

namespace RiscvEmulators.Qemu.Cpu
open Word BitVec SupervisorRegs

/-- Why a return from M-mode does not complete: an exception, or the assertion of `riscv_cpu_set_mode` on a reserved
  privilege level. -/
inductive RetFault where
  | exception (cause : W64)
  | assertion
deriving DecidableEq, Repr

def Priv.ofCode (code : W64) : Option Priv :=
  if code = 0 then some .user
  else if code = 1 then some .supervisor
  else if code = 3 then some .machine
  else none

def checkRetFromMMode (noRules : Bool) (env : CPURISCVState) (retpc prevPriv : W64) : Option W64 :=
  if env.priv ≠ .machine then some excpIllegalInst
  else if !riscvCpuAllow16bitInsn env && retpc &&& 3 != 0 then some excpInstAddrMis
  else if noRules && prevPriv != Priv.machine.code then some excpInstAccessFault
  else none

variable (env : CPURISCVState)

def ssdbltrpMxret (prevPriv : W64) (prevVirt : Bool) : CPURISCVState :=
  if prevPriv = Priv.user.code ∨ prevVirt ∧ (prevPriv = Priv.supervisor.code ∨ prevPriv = Priv.user.code) then
    { env with
      mstatus := setField env.mstatus mstatusSdt 0
      vsstatus := if prevVirt && prevPriv == Priv.user.code then setField env.vsstatus mstatusSdt 0 else env.vsstatus }
  else env

def mnretPrevPriv : W64 := getField env.mnstatus mnstatusMnpp

def mnretPrevVirt : Bool :=
  getField env.mnstatus mnstatusMnpv != 0 && mnretPrevPriv env != Priv.machine.code

def mnretStatus : CPURISCVState :=
  let below : Bool := mnretPrevPriv env != Priv.machine.code
  let enabled := { env with
    mnstatus := setField env.mnstatus mnstatusNmie 1
    mstatus := if below then setField env.mstatus mstatusMprv 0 else env.mstatus }
  let supervised :=
    if env.cfg.extSsdbltrp then ssdbltrpMxret enabled (mnretPrevPriv env) (mnretPrevVirt env) else enabled
  if env.cfg.extSmdbltrp && below then { supervised with mstatus := setField supervised.mstatus mstatusMdt 0 }
  else supervised

def mnretBanked : CPURISCVState :=
  if env.misaExt.rvh && mnretPrevVirt env then riscvCpuSwapHypervisorRegs (mnretStatus env) else mnretStatus env

def mnretTaken (prevPriv : Priv) : CPURISCVState :=
  let returned := riscvCpuSetMode (mnretBanked env) prevPriv (mnretPrevVirt env)
  { returned with
    elp := if cpuGetFcfien returned then getField returned.mnstatus mnstatusMnpelp != 0 else returned.elp
    mnstatus := setField returned.mnstatus mnstatusMnpelp 0
    pc := env.mnepc }

def helperMnret (noRules : Bool) (env : CPURISCVState) : Except RetFault CPURISCVState :=
  match checkRetFromMMode noRules env env.mnepc (mnretPrevPriv env) with
  | some cause => .error (.exception cause)
  | none =>
    match Priv.ofCode (mnretPrevPriv env) with
    | none => .error .assertion
    | some prevPriv => .ok (mnretTaken env prevPriv)

def hypervisorRegs : SupervisorRegs where
  status := env.mstatusHs
  stvec := env.stvecHs
  sscratch := env.sscratchHs
  sepc := env.sepcHs
  scause := env.scauseHs
  stval := env.stvalHs
  satp := env.satpHs

/-- The supervisor's fields of `mstatus` that a return is to leave alone: SDT is cleared where there are double traps, and
  MPRV and MDT are not among them. -/
def resumedFields : W64 :=
  sstatusView env &&& ~~~(if env.cfg.extSsdbltrp then mstatusSdt else 0)

def SupervisorRegs.masked (fields : W64) (regs : SupervisorRegs) : SupervisorRegs :=
  { regs with status := regs.status &&& fields }

structure Resumed (before after : CPURISCVState) : Prop where
  priv : after.priv = before.priv
  virt : after.virtEnabled = before.virtEnabled
  pc : after.pc = before.pc
  elp : after.elp = before.elp
  nmie : getField after.mnstatus mnstatusNmie = getField before.mnstatus mnstatusNmie
  current : (currentRegs after).masked (resumedFields before) = (currentRegs before).masked (resumedFields before)
  hypervisor :
    (hypervisorRegs after).masked (resumedFields before) = (hypervisorRegs before).masked (resumedFields before)
  guest : (guestRegs after).masked (resumedFields before) = (guestRegs before).masked (resumedFields before)

/-- What MNRET exchanges is the same on both sides: the registers of the guest that runs, what it has in the bank and
  what its hypervisor has there. -/
def BankedAlike : Prop :=
  SupervisorRegs.masked (resumedFields env)
      { guestRegs env with status := (env.mstatus &&& ~~~swapBase env) ||| env.vsstatus } =
    (currentRegs env).masked (resumedFields env) ∧
  SupervisorRegs.masked (resumedFields env) { currentRegs env with status := env.mstatus &&& swapBase env } =
    (hypervisorRegs env).masked (resumedFields env)

section
variable (env : CPURISCVState) (c : W64)

theorem getField_apart {reg mk v field : W64} (h : Within (~~~mk) field) :
    getField (setField reg mk v) field = getField reg field :=
  getField_congr ((agreeOff_setField reg mk v).and_eq h)

theorem nmi_mnpp : mnretPrevPriv (riscvDoNmi env c env.virtEnabled) = env.priv.code := by
  have h (reg : W64) : getField (setField reg mnstatusMnpp env.priv.code) mnstatusMnpp = env.priv.code :=
    getField_setField reg mnstatusMnpp env.priv.code 11 (by decide) (by decide) (by cases env.priv <;> decide)
  show getField (if cpuGetFcfien env then _ else _) mnstatusMnpp = _
  split
  · rw [getField_apart (by decide), h]
  · exact h _

theorem nmi_mnpv : getField (riscvDoNmi env c env.virtEnabled).mnstatus mnstatusMnpv = boolWord env.virtEnabled := by
  have h (reg : W64) : getField (setField (setField reg mnstatusMnpv (boolWord env.virtEnabled)) mnstatusMnpp
      env.priv.code) mnstatusMnpv = boolWord env.virtEnabled := by
    rw [getField_apart (by decide)]
    exact getField_setField reg mnstatusMnpv _ 7 (by decide) (by decide) (by cases env.virtEnabled <;> decide)
  show getField (if cpuGetFcfien env then _ else _) mnstatusMnpv = _
  split
  · rw [getField_apart (by decide), h]
  · exact h _

theorem nmi_prevVirt (hm : env.virtEnabled = false ∨ env.priv ≠ .machine) :
    mnretPrevVirt (riscvDoNmi env c env.virtEnabled) = env.virtEnabled := by
  unfold mnretPrevVirt
  rw [nmi_mnpv, nmi_mnpp]
  rcases hm with hh | hb
  · rw [hh]
    rfl
  · cases env.virtEnabled <;> cases hr : env.priv <;> simp_all <;> decide

theorem nmi_mnpelp (h : cpuGetFcfien env) :
    getField (setField (riscvDoNmi env c env.virtEnabled).mnstatus mnstatusNmie 1) mnstatusMnpelp = boolWord env.elp := by
  rw [getField_apart (by decide)]
  show getField (if cpuGetFcfien env then _ else _) mnstatusMnpelp = _
  rw [if_pos h]
  exact getField_setField _ mnstatusMnpelp _ 9 (by decide) (by decide) (by cases env.elp <;> decide)

end

def mnretCleared (env : CPURISCVState) : W64 :=
  mstatusMprv ||| mstatusMdt ||| (if env.cfg.extSsdbltrp then mstatusSdt else 0)

theorem mnretCleared_machine {env : CPURISCVState} {bits : W64} (h : Within (mstatusMprv ||| mstatusMdt) bits) :
    Within (mnretCleared env) bits :=
  h.mono (within_or_left _ _)

theorem ssdbltrpMxret_frame {env : CPURISCVState} {p : W64} {pr : Bool} :
    ∃ mstatus vsstatus, ssdbltrpMxret env p pr = { env with mstatus := mstatus, vsstatus := vsstatus } ∧
      AgreeOff mstatusSdt mstatus env.mstatus ∧ AgreeOff mstatusSdt vsstatus env.vsstatus := by
  unfold ssdbltrpMxret
  split
  · refine ⟨_, _, rfl, agreeOff_setField _ _ _, ?_⟩
    split
    · exact agreeOff_setField _ _ _
    · exact .refl _ _
  · exact ⟨env.mstatus, env.vsstatus, rfl, .refl _ _, .refl _ _⟩

theorem mnretStatus_frame (env : CPURISCVState) : ∃ mstatus vsstatus, mnretStatus env =
    { env with mnstatus := setField env.mnstatus mnstatusNmie 1, mstatus := mstatus, vsstatus := vsstatus } ∧
    AgreeOff (mnretCleared env) mstatus env.mstatus ∧ AgreeOff (mnretCleared env) vsstatus env.vsstatus := by
  let e := { env with
    mnstatus := setField env.mnstatus mnstatusNmie 1
    mstatus := if mnretPrevPriv env != Priv.machine.code then setField env.mstatus mstatusMprv 0 else env.mstatus }
  have hm : AgreeOff (mnretCleared env) e.mstatus env.mstatus := by
    show AgreeOff _ (if mnretPrevPriv env != Priv.machine.code then _ else _) _
    split
    · exact (agreeOff_setField _ _ _).mono (mnretCleared_machine (by decide))
    · exact .refl _ _
  have hs : ∃ mstatus vsstatus,
      (if env.cfg.extSsdbltrp then ssdbltrpMxret e (mnretPrevPriv env) (mnretPrevVirt env) else e) =
          { e with mstatus := mstatus, vsstatus := vsstatus } ∧
        AgreeOff (mnretCleared env) mstatus env.mstatus ∧ AgreeOff (mnretCleared env) vsstatus env.vsstatus := by
    by_cases hp : env.cfg.extSsdbltrp
    · rw [if_pos hp]
      obtain ⟨mstatus, vsstatus, same, hh, hg⟩ := ssdbltrpMxret_frame
      have sdt : Within (mnretCleared env) mstatusSdt := by
        unfold mnretCleared
        rw [if_pos hp]
        exact within_or_right _ _
      exact ⟨mstatus, vsstatus, same, (hh.mono sdt).trans hm, hg.mono sdt⟩
    · rw [if_neg hp]
      exact ⟨e.mstatus, env.vsstatus, rfl, hm, .refl _ _⟩
  obtain ⟨mstatus, vsstatus, same, hh, hg⟩ := hs
  have shape : mnretStatus env = if env.cfg.extSmdbltrp && mnretPrevPriv env != Priv.machine.code
      then { e with mstatus := setField mstatus mstatusMdt 0, vsstatus := vsstatus }
      else { e with mstatus := mstatus, vsstatus := vsstatus } := by
    unfold mnretStatus
    dsimp only
    rw [show (if env.cfg.extSsdbltrp then ssdbltrpMxret e (mnretPrevPriv env) (mnretPrevVirt env) else e) = _ from same]
  rw [shape]
  split
  · exact ⟨_, vsstatus, rfl, ((agreeOff_setField _ _ _).mono (mnretCleared_machine (by decide))).trans hh, hg⟩
  · exact ⟨mstatus, vsstatus, rfl, hh, hg⟩

section
variable {env : CPURISCVState} {ca : W64}

theorem cpuGetFcfien_congr {a b : CPURISCVState} (hz : a.cfg.extZicfilp = b.cfg.extZicfilp) (hp : a.priv = b.priv)
    (hr : a.misaExt.rvs = b.misaExt.rvs) (hs : a.envcfg.senvcfg = b.envcfg.senvcfg)
    (hm : a.envcfg.menvcfg = b.envcfg.menvcfg) (hh : a.envcfg.henvcfg = b.envcfg.henvcfg)
    (hv : a.virtEnabled = b.virtEnabled) (seccfg : a.mseccfg = b.mseccfg) : cpuGetFcfien a = cpuGetFcfien b := by
  unfold cpuGetFcfien
  rw [hz, hp, hr, hs, hm, hh, hv, seccfg]

theorem ofCode_code (priv : Priv) : Priv.ofCode priv.code = some priv := by
  cases priv <;> decide

theorem helperMnret_ok {n : Bool} {a : CPURISCVState} (h : helperMnret n (riscvDoNmi env ca env.virtEnabled) = .ok a) :
    a = mnretTaken (riscvDoNmi env ca env.virtEnabled) env.priv := by
  unfold helperMnret at h
  split at h
  · cases h
  · rw [nmi_mnpp, ofCode_code] at h
    cases h
    rfl

def withBanks (env : CPURISCVState) (mnstatus : W64) (current hypervisor guest : SupervisorRegs) : CPURISCVState :=
  { env with
    mnstatus := mnstatus
    mstatus := current.status, mstatusHs := hypervisor.status, vsstatus := guest.status
    stvec := current.stvec, stvecHs := hypervisor.stvec, vstvec := guest.stvec
    sscratch := current.sscratch, sscratchHs := hypervisor.sscratch, vsscratch := guest.sscratch
    sepc := current.sepc, sepcHs := hypervisor.sepc, vsepc := guest.sepc
    scause := current.scause, scauseHs := hypervisor.scause, vscause := guest.scause
    stval := current.stval, stvalHs := hypervisor.stval, vstval := guest.stval
    satp := current.satp, satpHs := hypervisor.satp, vsatp := guest.satp }

theorem mnretBanked_shape (ca : W64) (hm : env.virtEnabled = false ∨ env.priv ≠ .machine) :
    ∃ mstatus vsstatus, AgreeOff (mnretCleared env) mstatus env.mstatus ∧
      AgreeOff (mnretCleared env) vsstatus env.vsstatus ∧
      mnretBanked (riscvDoNmi env ca env.virtEnabled) = let nmi := riscvDoNmi env ca env.virtEnabled
        let mk := swapBase env ||| (if riscvEnvSmodeDbltrpEnabled env false then mstatusSdt else 0)
        if env.misaExt.rvh && env.virtEnabled then
          withBanks nmi (setField nmi.mnstatus mnstatusNmie 1)
            { guestRegs env with status := (mstatus &&& ~~~mk) ||| vsstatus }
            { currentRegs env with status := mstatus &&& mk } { guestRegs env with status := vsstatus }
        else
          withBanks nmi (setField nmi.mnstatus mnstatusNmie 1)
            { currentRegs env with status := mstatus } (hypervisorRegs env) { guestRegs env with status := vsstatus } := by
  let c := riscvDoNmi env ca env.virtEnabled
  obtain ⟨mstatus, vsstatus, status, hh, hg⟩ := mnretStatus_frame c
  refine ⟨mstatus, vsstatus, hh, hg, ?_⟩
  unfold mnretBanked
  rw [nmi_prevVirt env ca hm, status]
  show (if (env.misaExt.rvh && env.virtEnabled) then _ else _) = _
  split
  case isFalse => rfl
  case isTrue hs =>
    have hp := (Bool.and_eq_true_iff.mp hs).1
    have hl : c.virtEnabled = false := by
      show (if env.misaExt.rvh then false else env.virtEnabled) = false
      rw [hp]
      rfl
    unfold riscvCpuSwapHypervisorRegs
    rw [if_neg (by simp [hl])]
    have mk : swapMask { riscvDoNmi env ca env.virtEnabled with
        mnstatus := setField c.mnstatus mnstatusNmie 1
        mstatus := mstatus, vsstatus := vsstatus } =
          swapBase env ||| (if riscvEnvSmodeDbltrpEnabled env false then mstatusSdt else 0) := by
      show swapBase env ||| (if riscvEnvSmodeDbltrpEnabled env c.virtEnabled
        then mstatusSdt else 0) = _
      rw [hl]
    rw [mk]
    rfl

theorem mnretTaken_control (hm : env.virtEnabled = false ∨ env.priv ≠ .machine)
    (hu : getField env.mnstatus mnstatusNmie = 1) {c h g : SupervisorRegs} {nmi : CPURISCVState}
    (hn : nmi = riscvDoNmi env ca env.virtEnabled)
    (hb : mnretBanked nmi = withBanks nmi (setField nmi.mnstatus mnstatusNmie 1) c h g) :
    (mnretTaken nmi env.priv).priv = env.priv ∧ (mnretTaken nmi env.priv).virtEnabled = env.virtEnabled ∧
      (mnretTaken nmi env.priv).pc = env.pc ∧ (mnretTaken nmi env.priv).elp = env.elp ∧
      getField (mnretTaken nmi env.priv).mnstatus mnstatusNmie = getField env.mnstatus mnstatusNmie := by
  subst hn
  let q := setField (riscvDoNmi env ca env.virtEnabled).mnstatus mnstatusNmie 1
  unfold mnretTaken
  rw [hb, nmi_prevVirt env ca hm]
  have hv : (if env.misaExt.rvh then env.virtEnabled else if env.misaExt.rvh then false else env.virtEnabled) =
      env.virtEnabled := by
    cases env.misaExt.rvh <;> rfl
  refine ⟨rfl, hv, rfl, ?_, ?_⟩
  · have he : cpuGetFcfien (riscvCpuSetMode (withBanks (riscvDoNmi env ca env.virtEnabled) q c h g) env.priv
        env.virtEnabled) = cpuGetFcfien env := cpuGetFcfien_congr rfl rfl rfl rfl rfl rfl hv rfl
    dsimp only
    rw [he]
    split
    case isFalse => rfl
    case isTrue hs =>
      show (getField q mnstatusMnpelp != 0) = _
      rw [nmi_mnpelp env ca hs]
      cases env.elp <;> rfl
  · rw [hu]
    rw [getField_apart (by decide)]
    exact getField_setField _ mnstatusNmie 1 3 (by decide) (by decide) (by decide)

theorem mnretTaken_banks {c hy guest : SupervisorRegs} {m : W64} {pv : Priv}
    (h : mnretBanked env = withBanks env m c hy guest) : currentRegs (mnretTaken env pv) = c ∧
      hypervisorRegs (mnretTaken env pv) = hy ∧ guestRegs (mnretTaken env pv) = guest := by
  unfold mnretTaken
  rw [h]
  exact ⟨rfl, rfl, rfl⟩

theorem resumedFields_apart : Within (~~~mnretCleared env) (resumedFields env) := by
  unfold mnretCleared resumedFields sstatusView
  cases env.cfg.extSsdbltrp <;> cases env.cfg.extZicfilp <;> cases env.misaMxl <;> decide

theorem resumedFields_kept {i : Nat} (hb : i < 64) (hr : (resumedFields env)[i]) : (mnretCleared env)[i] = false ∧
    (swapBase env ||| (if riscvEnvSmodeDbltrpEnabled env false then mstatusSdt else 0))[i] = (swapBase env)[i] := by
  have hk : (mnretCleared env)[i] = false := by
    have hi := resumedFields_apart.getLsbD (n := i) (getLsbD_eq_getElem hb ▸ hr)
    simpa [hb] using hi
  refine ⟨hk, ?_⟩
  rw [getElem_or]
  cases he : riscvEnvSmodeDbltrpEnabled env false with
  | false => simp
  | true =>
    rw [mnretCleared, dbltrp_implemented he, getElem_or, Bool.or_eq_false_iff] at hk
    rw [hk.2, Bool.or_false]

theorem resumedFields_exchanged {m v mk : W64} (hh : AgreeOff (mnretCleared env) m env.mstatus)
    (hg : AgreeOff (mnretCleared env) v env.vsstatus)
    (he : mk = swapBase env ||| (if riscvEnvSmodeDbltrpEnabled env false then mstatusSdt else 0)) :
    ((m &&& ~~~mk) ||| v) &&& resumedFields env =
      ((env.mstatus &&& ~~~swapBase env) ||| env.vsstatus) &&& resumedFields env ∧
      m &&& mk &&& resumedFields env = env.mstatus &&& swapBase env &&& resumedFields env := by
  rw [agreeOff_iff] at hh hg
  have bits (i : Nat) (hb : i < 64) (hr : (resumedFields env)[i]) :
      m[i] = env.mstatus[i] ∧ v[i] = env.vsstatus[i] ∧ mk[i] = (swapBase env)[i] := by
    obtain ⟨hk, hs⟩ := resumedFields_kept hb hr
    rw [he]
    exact ⟨hh i hb hk, hg i hb hk, hs⟩
  constructor
  all_goals
    apply eq_of_getElem_eq
    intro i hb
    simp only [getElem_and]
    cases hr : (resumedFields env)[i] with
    | false => simp
    | true =>
      obtain ⟨hi, bank, hs⟩ := bits i hb hr
      simp [hi, bank, hs]

theorem agreeOff_resumedFields {x y : W64} (ha : AgreeOff (mnretCleared env) x y) :
    x &&& resumedFields env = y &&& resumedFields env := ha.and_eq resumedFields_apart

end

/-- A resumable NMI is resumed by MNRET exactly where no guest runs, or where MNRET has nothing to confuse: entry leaves
  the banks alone and return exchanges them. -/
theorem nmi_resumes_iff (env after : CPURISCVState) (cause : W64) (noRules : Bool)
    (unmasked : getField env.mnstatus mnstatusNmie = 1) (mode : env.virtEnabled = false ∨ env.priv ≠ .machine)
    (returns : helperMnret noRules (riscvDoNmi env cause env.virtEnabled) = .ok after) :
    Resumed env after ↔ (env.misaExt.rvh && env.virtEnabled) = false ∨ BankedAlike env := by
  rw [helperMnret_ok returns]
  obtain ⟨mstatus, vsstatus, host, guest, banked⟩ := mnretBanked_shape cause mode
  have inUse := agreeOff_resumedFields host
  have inBank := agreeOff_resumedFields guest
  cases virt : env.misaExt.rvh && env.virtEnabled with
  | false =>
    rw [virt] at banked
    obtain ⟨priv, mode', pc, elp, nmie⟩ := mnretTaken_control mode unmasked rfl banked
    obtain ⟨current, hs, kept⟩ := mnretTaken_banks banked
    refine iff_of_true ⟨priv, mode', pc, elp, nmie, ?_, ?_, ?_⟩ (.inl rfl)
    · rw [current]
      exact SupervisorRegs.ext inUse rfl rfl rfl rfl rfl rfl
    · rw [hs]
    · rw [kept]
      exact SupervisorRegs.ext inBank rfl rfl rfl rfl rfl rfl
  | true =>
    rw [virt] at banked
    obtain ⟨priv, mode', pc, elp, nmie⟩ := mnretTaken_control mode unmasked rfl banked
    obtain ⟨current, hs, kept⟩ := mnretTaken_banks banked
    obtain ⟨back, saved⟩ := resumedFields_exchanged host guest rfl
    have taken : masked (resumedFields env)
        (currentRegs (mnretTaken (riscvDoNmi env cause env.virtEnabled) env.priv)) =
          masked (resumedFields env)
            { guestRegs env with status := (env.mstatus &&& ~~~swapBase env) ||| env.vsstatus } := by
      rw [current]
      exact SupervisorRegs.ext back rfl rfl rfl rfl rfl rfl
    have put : masked (resumedFields env)
        (hypervisorRegs (mnretTaken (riscvDoNmi env cause env.virtEnabled) env.priv)) =
          masked (resumedFields env) { currentRegs env with status := env.mstatus &&& swapBase env } := by
      rw [hs]
      exact SupervisorRegs.ext saved rfl rfl rfl rfl rfl rfl
    constructor
    · intro resumed
      exact .inr ⟨taken.symm.trans resumed.current, put.symm.trans resumed.hypervisor⟩
    · rintro (absent | ⟨first, second⟩)
      · cases absent
      · refine ⟨priv, mode', pc, elp, nmie, taken.trans first, put.trans second, ?_⟩
        rw [kept]
        exact SupervisorRegs.ext inBank rfl rfl rfl rfl rfl rfl

def nmiHost : CPURISCVState :=
  { guestEntry with
    cfg := { guestEntry.cfg with extSmrnmi := true }
    envcfg := { menvcfg := 0, senvcfg := 0, henvcfg := 0, dteImplemented := fun _ => ⟨rfl, rfl⟩ }
    mnstatus := mnstatusNmie }

def nmiGuest : CPURISCVState := { nmiHost with virtEnabled := true, stvecHs := 0xA0001000 }

theorem nmi_host_resumed : ∃ after, helperMnret false (riscvDoNmi nmiHost 2 false) = .ok after ∧ Resumed nmiHost after :=
  ⟨_, rfl, (nmi_resumes_iff nmiHost _ 2 false (by decide) (.inl rfl) rfl).mpr (.inl rfl)⟩

theorem nmi_guest_lost : ∃ after, helperMnret false (riscvDoNmi nmiGuest 2 true) = .ok after ∧
    nmiGuest.stvec = 0x80001000 ∧ after.stvec = 0x90001000 ∧ nmiGuest.stvecHs = 0xA0001000 ∧ after.stvecHs = 0x80001000 :=
  ⟨_, rfl, rfl, rfl, rfl, rfl⟩

end RiscvEmulators.Qemu.Cpu
