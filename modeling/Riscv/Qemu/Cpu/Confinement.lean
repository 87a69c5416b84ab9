import Riscv.Transition.Run
import Riscv.Qemu.Cpu.State

namespace RiscvEmulators.Qemu.Cpu
open Word Transition

def statusSd : Mxl → W64
  | .rv32 => mstatus32Sd
  | .rv64 | .rv128 => mstatus64Sd

def sstatusView (env : CPURISCVState) : W64 :=
  sstatusV110Mask ||| mstatus64Uxl ||| (if env.cfg.extZicfilp then mstatusSpelp else 0) |||
    (if env.cfg.extSsdbltrp then mstatusSdt else 0) |||
    statusSd env.misaMxl

section
variable (env : CPURISCVState) (t : PendingTrap)

theorem within_sstatusView {x : W64} (h : Within (sstatusV110Mask ||| mstatus64Uxl) x) :
    Within (sstatusView env) x := by
  apply h.mono
  unfold sstatusView
  cases env.cfg.extZicfilp <;> cases env.cfg.extSsdbltrp <;> cases env.misaMxl <;> decide

theorem spelp_within_view {env : CPURISCVState} (h : env.cfg.extZicfilp) : Within (sstatusView env) mstatusSpelp := by
  rw [sstatusView, h]
  cases env.cfg.extSsdbltrp <;> cases env.misaMxl <;> decide

theorem sdt_within_view {env : CPURISCVState} (h : env.cfg.extSsdbltrp) : Within (sstatusView env) mstatusSdt := by
  rw [sstatusView, h]
  cases env.cfg.extZicfilp <;> cases env.misaMxl <;> decide

theorem dbltrp_implemented {env : CPURISCVState} {v : Bool}
    (he : riscvEnvSmodeDbltrpEnabled env v) : env.cfg.extSsdbltrp := by
  cases ha : env.cfg.extSsdbltrp with
  | true => rfl
  | false =>
    have hc := env.envcfg.dteImplemented ha
    cases v <;> simp [riscvEnvSmodeDbltrpEnabled, hc] at he

theorem fcfien_implemented {env : CPURISCVState} (he : cpuGetFcfien env) : env.cfg.extZicfilp := by
  cases ha : env.cfg.extZicfilp with
  | true => rfl
  | false => simp [cpuGetFcfien, ha] at he

theorem swapMask_within_view : Within (sstatusView env) (swapMask env) := by
  refine .or (.or (.or ?_ ?_) ?_) ?_
  · exact within_sstatusView env (by decide)
  · exact within_ite fun _ => within_sstatusView env (by decide)
  · refine within_ite fun hc => spelp_within_view ?_
    simp only [Bool.and_eq_true] at hc
    exact hc.1
  · exact within_ite fun he => sdt_within_view (dbltrp_implemented he)

theorem swapHypervisorRegs_frame : sstatusView (riscvCpuSwapHypervisorRegs env) = sstatusView env ∧
    (riscvCpuSwapHypervisorRegs env).misaExt = env.misaExt := by
  unfold riscvCpuSwapHypervisorRegs
  split <;> exact ⟨rfl, rfl⟩

theorem swapOut_mstatus {env : CPURISCVState} (hv : env.virtEnabled) (bank : Within (sstatusView env) env.mstatusHs) :
    AgreeOff (sstatusView env) (riscvCpuSwapHypervisorRegs env).mstatus env.mstatus := by
  rw [riscvCpuSwapHypervisorRegs, if_pos hv]
  have hc := agreeOff_and_not env.mstatus (swapMask_within_view env)
  rw [agreeOff_iff] at hc ⊢
  rw [within_iff] at bank
  intro i hb clear
  rw [← hc i hb clear]
  simp [bank i hb clear]

theorem saveSpelp_frame : (saveSpelp env).misaExt = env.misaExt ∧ (saveSpelp env).mstatusHs = env.mstatusHs ∧
    vsmodeExc (saveSpelp env) t = vsmodeExc env t ∧ (saveSpelp env).virtEnabled = env.virtEnabled ∧
    sstatusView (saveSpelp env) = sstatusView env := by
  unfold saveSpelp
  split <;> exact ⟨rfl, rfl, rfl, rfl, rfl⟩

theorem saveSpelp_mstatus : AgreeOff (sstatusView env) (saveSpelp env).mstatus env.mstatus := by
  unfold saveSpelp
  split
  · rename_i h
    exact (agreeOff_setField _ _ _).mono (spelp_within_view (fcfien_implemented h))
  · exact .refl _ _

theorem sTrapHypervisor_frame : sstatusView (sTrapHypervisor env t) = sstatusView env ∧
    (sTrapHypervisor env t).misaExt = env.misaExt := by
  unfold sTrapHypervisor
  repeat' split
  all_goals first | exact ⟨rfl, rfl⟩ | exact swapHypervisorRegs_frame env

theorem sTrapHypervisor_mstatus (hb : env.virtEnabled → Within (sstatusView env) env.mstatusHs) :
    AgreeOff (sstatusView env) (sTrapHypervisor env t).mstatus env.mstatus := by
  unfold sTrapHypervisor
  split
  · exact .refl _ _
  split
  · exact .refl _ _
  split
  · rename_i hv
    exact swapOut_mstatus hv (hb hv)
  · exact .refl _ _

theorem setField_agree {m : W64} (hw : Within (sstatusV110Mask ||| mstatus64Uxl) m) (reg v : W64) :
    AgreeOff (sstatusView env) (setField reg m v) reg :=
  (agreeOff_setField _ _ _).mono (within_sstatusView env hw)

theorem sTrapStatus_agree (status : W64) (pv : Priv) (vi : Bool) :
    AgreeOff (sstatusView env) (sTrapStatus env status pv vi) status := by
  have entered : AgreeOff (sstatusView env)
      (setField (setField (setField status mstatusSpie (getField status mstatusSie)) mstatusSpp pv.code)
        mstatusSie 0) status :=
    ((setField_agree env (by decide) _ _).trans (setField_agree env (by decide) _ _)).trans
      (setField_agree env (by decide) _ _)
  simp only [sTrapStatus]
  split
  · rename_i he
    exact ((agreeOff_setField _ _ _).mono (sdt_within_view (dbltrp_implemented he))).trans entered
  · exact entered

theorem trapToS_mstatus {env : CPURISCVState} (bank : env.virtEnabled → Within (sstatusView env) env.mstatusHs) :
    AgreeOff (sstatusView env) (trapToS env t).mstatus env.mstatus := by
  have hs := saveSpelp_mstatus env
  obtain ⟨-, hm, -, hk, hv⟩ := saveSpelp_frame env t
  have hb := sTrapHypervisor_mstatus (saveSpelp env) t (by rw [hk, hm, hv]; exact bank)
  have he := sTrapStatus_agree (sTrapHypervisor (saveSpelp env) t)
    (sTrapHypervisor (saveSpelp env) t).mstatus env.priv (sTrapVirt env t)
  rw [(sTrapHypervisor_frame _ t).1, hv] at he
  rw [hv] at hb
  exact (he.trans hb).trans hs

theorem sstatusWriteMask_within_view (val : W64) : Within (sstatusView env) (sstatusWriteMask env val) := by
  refine .or (.or (.or ?_ ?_) ?_) ?_
  · exact within_sstatusView env (by decide)
  · exact within_ite fun _ => within_sstatusView env (by decide)
  · exact within_ite spelp_within_view
  · exact within_ite sdt_within_view

theorem legalizeMpp_agree {env : CPURISCVState} {mk val : W64} (ha : AgreeOff mk val env.mstatus) :
    AgreeOff mk (legalizeMpp env (getField env.mstatus mstatusMpp) val) env.mstatus := by
  let c := getField env.mstatus mstatusMpp
  have hk : legalizeMpp env c val = val ∨
      legalizeMpp env c val =
        setField val mstatusMpp c := by
    unfold legalizeMpp
    grind
  rcases hk with hk | hk
  · rw [hk]
    exact ha
  · rw [hk, setField_getField val env.mstatus mstatusMpp 11 (by decide) (by decide) (by decide)]
    exact (ha.symm.masked mstatusMpp).trans ha

def dropsMie (env : CPURISCVState) : Bool := env.cfg.extSmdbltrp && env.mstatus &&& mstatusMdt != 0

theorem view_apart : Within (~~~sstatusView env) (mstatusMdt ||| mstatusMie ||| mstatusMprv) := by
  unfold sstatusView
  cases env.cfg.extZicfilp <;> cases env.cfg.extSsdbltrp <;> cases env.misaMxl <;> decide

theorem mstatusLegalized_split {env : CPURISCVState} {val : W64} (ha : AgreeOff (sstatusView env) val env.mstatus) :
    ∃ legal, AgreeOff (sstatusView env) legal env.mstatus ∧
      mstatusLegalized env val = if dropsMie env then legal &&& ~~~mstatusMie else legal := by
  have legal := legalizeMpp_agree ha
  have sie : Within (sstatusView env) mstatusSie := within_sstatusView env (by decide)
  have hm (x : W64) (hs : AgreeOff (sstatusView env) x env.mstatus) : x &&& mstatusMdt = env.mstatus &&& mstatusMdt :=
    hs.and_eq ((show Within (mstatusMdt ||| mstatusMie ||| mstatusMprv) mstatusMdt by decide).mono (view_apart env))
  simp only [mstatusLegalized]
  split
  · have hd := (agreeOff_and_not _ sie).trans legal
    exact ⟨_, hd, by rw [hm _ hd, dropsMie]⟩
  · exact ⟨_, legal, by rw [hm _ legal, dropsMie]⟩

end

/-- Nothing outside the `sstatus` view changes between two words, except that
  MPRV may be cleared. -/
def ConfinedTo (view before after : W64) : Prop :=
  AgreeOff (view ||| mstatusMprv) after before ∧ (before &&& mstatusMprv = 0 → after &&& mstatusMprv = 0)

theorem mprv_eq : mstatusMprv = BitVec.twoPow 64 17 := by decide

theorem spelp_eq : mstatusSpelp = BitVec.twoPow 64 23 := by decide

theorem mie_eq : mstatusMie = BitVec.twoPow 64 3 := by decide

theorem confinedTo_iff {v b a : W64} (apart : v[17] = false) : ConfinedTo v b a ↔
    ∀ (i : Nat) (hb : i < 64), v[i] = false → (i ≠ 17 → a[i] = b[i]) ∧ (i = 17 → b[i] = false → a[i] = false) := by
  unfold ConfinedTo
  rw [mprv_eq, and_twoPow_eq_zero _ _ (by decide), and_twoPow_eq_zero _ _ (by decide), agreeOff_iff]
  simp only [BitVec.getElem_or, BitVec.getElem_twoPow, Bool.or_eq_false_iff, decide_eq_false_iff_not]
  constructor
  · rintro ⟨ha, hl⟩ i hb hc
    refine ⟨fun ho => ha i hb ⟨hc, ho⟩, ?_⟩
    rintro rfl hz
    exact hl hz
  · intro bits
    exact ⟨fun i hb hc => (bits i hb hc.1).1 hc.2, (bits 17 (by decide) apart).2 rfl⟩

variable {env : CPURISCVState}

theorem view_mprv : (sstatusView env)[17] = false := by
  unfold sstatusView
  cases env.cfg.extZicfilp <;> cases env.cfg.extSsdbltrp <;> cases env.misaMxl <;> decide

theorem ConfinedTo.of_agree {v b after : W64} (apart : v[17] = false)
    (ha : AgreeOff v after b) : ConfinedTo v b after := by
  rw [agreeOff_iff] at ha
  rw [confinedTo_iff apart]
  intro i hb hc
  exact ⟨fun _ => ha i hb hc, fun _ hz => (ha i hb hc).trans hz⟩

theorem ConfinedTo.refl (v word : W64) : ConfinedTo v word word := ⟨.refl _ _, id⟩

theorem agreeOff_drop_mie {v l mstatus : W64} (hs : AgreeOff v l mstatus)
    (hc : mstatus &&& mstatusMie = 0) : AgreeOff v (l &&& ~~~mstatusMie) mstatus := by
  rw [mie_eq, and_twoPow_eq_zero _ _ (by decide)] at hc
  rw [agreeOff_iff] at hs ⊢
  intro i hb ho
  by_cases hm : i = 3
  · subst hm
    simp [mie_eq, hc]
  · simp [mie_eq, hm, hs i hb ho]

theorem sstatus_request_agree {val : W64} : AgreeOff (sstatusView env)
    ((env.mstatus &&& ~~~sstatusWriteMask env val) ||| (val &&& sstatusWriteMask env val)) env.mstatus := by
  have h : Within (sstatusWriteMask env val) (val &&& sstatusWriteMask env val) :=
    Within.and_right (by simp [Within]) val
  exact (agreeOff_merge _ _ _ h).mono (sstatusWriteMask_within_view env val)

theorem writeSstatus_confined_iff {val : W64} :
    ConfinedTo (sstatusView env) env.mstatus (writeSstatus env val).mstatus ↔
      ¬(dropsMie env ∧ env.mstatus &&& mstatusMie ≠ 0) := by
  obtain ⟨l, hs, hl⟩ := mstatusLegalized_split sstatus_request_agree
  rw [writeSstatus, writeMstatus_mstatus, hl]
  cases hd : dropsMie env with
  | false => simp [ConfinedTo.of_agree view_mprv (hs.masked _)]
  | true =>
    by_cases hc : env.mstatus &&& mstatusMie = 0
    · simp [hc, ConfinedTo.of_agree view_mprv ((agreeOff_drop_mie hs hc).masked _)]
    · simp only [if_true, ne_eq, hc, not_false_eq_true, and_self, not_true_eq_false, iff_false]
      intro writes
      apply hc
      have ha : Within (~~~(sstatusView env ||| mstatusMprv)) mstatusMie := by
        unfold sstatusView
        cases env.cfg.extZicfilp <;> cases env.cfg.extSsdbltrp <;> cases env.misaMxl <;> decide
      rw [← writes.1.and_eq ha, masked_and _ _ (within_mstatusWriteMask env _ (by decide)), BitVec.and_assoc]
      simp

variable {env : CPURISCVState}

theorem sretStatus_confined (hb : env.priv ≠ .machine) : ConfinedTo (sstatusView env) env.mstatus (sretStatus env) := by
  let c := getField env.mstatus mstatusSpie
  have hs := ((setField_agree env (m := mstatusSpp) (by decide) _ Priv.user.code).trans
    (setField_agree env (m := mstatusSpie) (by decide) _ 1)).trans
      (setField_agree env (m := mstatusSie) (by decide) env.mstatus c)
  have hd : AgreeOff (sstatusView env)
      (if env.cfg.extSsdbltrp then setField (setField (setField (setField env.mstatus mstatusSie
        c) mstatusSpie 1) mstatusSpp Priv.user.code) mstatusSdt 0
        else setField (setField (setField env.mstatus mstatusSie
          c) mstatusSpie 1) mstatusSpp Priv.user.code) env.mstatus := by
    split
    · rename_i hp
      exact ((agreeOff_setField _ _ _).mono (sdt_within_view hp)).trans hs
    · exact hs
  have hm : (env.priv == .machine) = false := by simpa using hb
  simp only [sretStatus, hm, Bool.and_false]
  split
  · refine ⟨((agreeOff_setField _ _ _).mono (within_or_right _ _)).trans (hd.mono (within_or_left _ _)), fun _ => ?_⟩
    rw [setField, mprv_eq, and_twoPow_eq_zero _ _ (by decide)]
    simp
  · exact .of_agree view_mprv hd

theorem sretVsstatus_agree : AgreeOff (sstatusView env) (sretVsstatus env) env.vsstatus := by
  unfold sretVsstatus
  split
  · rename_i h
    simp only [Bool.and_eq_true] at h
    exact (agreeOff_setField _ _ _).mono (sdt_within_view h.1.1)
  · exact .refl _ _

theorem swapIn_mstatus (h : env.virtEnabled = false) :
    (riscvCpuSwapHypervisorRegs env).mstatus = (env.mstatus &&& ~~~swapMask env) ||| env.vsstatus := by
  rw [riscvCpuSwapHypervisorRegs, if_neg (by simp [h])]

theorem sretEntersGuest_host (h : sretEntersGuest env) : env.misaExt.rvh ∧ env.virtEnabled = false := by
  simp only [sretEntersGuest, Bool.and_eq_true, Bool.not_eq_true'] at h
  exact h.1

theorem sretBanked_enters (he : sretEntersGuest env) : sretBanked env = riscvCpuSwapHypervisorRegs { env with
    mstatus := sretStatus env
    vsstatus := sretVsstatus env
    hstatus := setField env.hstatus hstatusSpv 0 } := by
  obtain ⟨hp, hh⟩ := sretEntersGuest_host he
  rw [sretBanked, if_pos (by simp [hp, hh]), if_pos he]

theorem sretBanked_stays (h : sretEntersGuest env = false) :
    (sretBanked env).mstatus = sretStatus env ∧ (sretBanked env).mstatusHs = env.mstatusHs := by
  unfold sretBanked
  simp only [h]
  split <;> exact ⟨rfl, rfl⟩

theorem sretBanked_frame :
    sstatusView (sretBanked env) = sstatusView env ∧ (sretBanked env).misaExt = env.misaExt := by
  cases h : sretEntersGuest env with
  | true =>
    rw [sretBanked_enters h]
    exact swapHypervisorRegs_frame _
  | false =>
    unfold sretBanked
    simp only [h]
    split <;> exact ⟨rfl, rfl⟩

theorem sretTaken_mstatus (env : CPURISCVState) : (sretTaken env).mstatus =
    setField (if sretEntersGuest env then (sretStatus env &&& ~~~swapMask env) ||| sretVsstatus env
      else sretStatus env) mstatusSpelp 0 := by
  have hb : (sretTaken env).mstatus = setField (sretBanked env).mstatus mstatusSpelp 0 := rfl
  rw [hb]
  cases he : sretEntersGuest env with
  | false => rw [(sretBanked_stays he).1]; rfl
  | true =>
    rw [sretBanked_enters he, swapIn_mstatus]
    · rfl
    · exact (sretEntersGuest_host he).2

theorem getElem_setSpelp (reg : W64) (i : Nat) (hb : i < 64) :
    (setField reg mstatusSpelp 0)[i] = (reg[i] && decide (i ≠ 23)) := by
  rw [setField, spelp_eq]
  by_cases hs : i = 23 <;> simp

/-- What SRET below M-mode needs in order to leave the rest of `mstatus` alone:
  SPELP is cleared unconditionally, and a guest entry merges all of `vsstatus`. -/
def SretConfined (env : CPURISCVState) : Prop :=
  (env.cfg.extZicfilp ∨ env.mstatus &&& mstatusSpelp = 0) ∧
    (sretEntersGuest env → Within (sstatusView env ||| mstatusSpelp ||| env.mstatus) env.vsstatus)

instance (env : CPURISCVState) : Decidable (SretConfined env) := inferInstanceAs (Decidable (_ ∧ _))

theorem spelp_view_iff (env : CPURISCVState) {i : Nat} (hb : i < 64) (hs : i = 23) :
    (sstatusView env)[i] = env.cfg.extZicfilp := by
  rw [← BitVec.getLsbD_eq_getElem, hs]
  unfold sstatusView
  cases env.cfg.extZicfilp <;> cases env.cfg.extSsdbltrp <;> cases env.misaMxl <;> decide

theorem sretTaken_outside {i : Nat} (hb : i < 64) (hc : (sstatusView env)[i] = false) :
    (sretTaken env).mstatus[i] =
      (((sretStatus env)[i] || (sretEntersGuest env && env.vsstatus[i])) && decide (i ≠ 23)) := by
  have hs := (within_iff _ _).mp (swapMask_within_view env) i hb hc
  have hg := (agreeOff_iff _ _ _).mp sretVsstatus_agree i hb hc
  rw [sretTaken_mstatus, getElem_setSpelp]
  cases sretEntersGuest env <;> simp [hs, hg]

theorem sretTaken_confined_iff (below : env.priv ≠ .machine) :
    ConfinedTo (sstatusView env) env.mstatus (sretTaken env).mstatus ↔ SretConfined env := by
  have status := (confinedTo_iff view_mprv).mp (sretStatus_confined below)
  rw [confinedTo_iff view_mprv, SretConfined, spelp_eq, and_twoPow_eq_zero _ _ (by decide)]
  constructor
  · intro bits
    constructor
    · cases hp : env.cfg.extZicfilp with
      | true => exact .inl rfl
      | false =>
        have hc := (spelp_view_iff env (by decide) rfl).trans hp
        have hk := (bits 23 (by decide) hc).1 (by decide)
        rw [sretTaken_outside _ hc] at hk
        exact .inr (by simpa using hk.symm)
    · intro he
      rw [within_iff]
      intro i hb hc
      simp only [BitVec.getElem_or, BitVec.getElem_twoPow, Bool.or_eq_false_iff, decide_eq_false_iff_not] at hc
      obtain ⟨⟨hv, hs⟩, hl⟩ := hc
      have hk : (sretTaken env).mstatus[i] = false := by
        by_cases mprv : i = 17
        · exact (bits i hb hv).2 mprv hl
        · rw [(bits i hb hv).1 mprv, hl]
      rw [sretTaken_outside hb hv] at hk
      simp only [he, ne_eq, hs, not_false_eq_true, decide_true, Bool.and_true, Bool.or_eq_false_iff] at hk
      exact hk.2
  · rintro ⟨last, hg⟩ i hb hc
    rw [sretTaken_outside hb hc]
    by_cases hs : i = 23
    · subst hs
      have hl : env.mstatus[23] = false := by
        rw [spelp_view_iff env hb rfl] at hc
        simpa [hc] using last
      simp [hl]
    · have hm (hl : env.mstatus[i] = false) : (sretEntersGuest env && env.vsstatus[i]) = false := by
        cases he : sretEntersGuest env with
        | false => rfl
        | true =>
          have hi := (within_iff _ _).mp (hg he) i hb
          simpa [hc, hl, hs] using hi
      obtain ⟨same, mprv⟩ := status i hb hc
      refine ⟨fun ho => ?_, fun is hl => ?_⟩
      · cases hl : env.mstatus[i] with
        | false => simp [same ho, hl, hm hl]
        | true => simp [same ho, hl, hs]
      · simp [mprv is hl, hm hl]

inductive StatusEvent where
  | writeSstatus (val : W64)
  | writeVsstatus (val : W64)
  | sret
  | trap (pending : PendingTrap)

/-- A refused CSR write or SRET leaves the state to the exception it raises. -/
def statusStep (env : CPURISCVState) : StatusEvent → CPURISCVState
  | .writeSstatus val => if riscvCsrrwCheck env .sstatus = none then writeSstatus env val else env
  | .writeVsstatus val => if riscvCsrrwCheck env .vsstatus = none then writeVsstatus env val else env
  | .sret => (helperSret env).toOption.getD env
  | .trap pending => (riscvCpuDoInterrupt env pending).getD env

def TrapsToS (env : CPURISCVState) : StatusEvent → Prop
  | .trap pending =>
    takesNmi env pending = false ∧ takesSemihosting pending = false ∧ trapMode env pending = .supervisor
  | _ => True

def StatusConfined (before after : CPURISCVState) : Prop :=
  ConfinedTo (sstatusView before) before.mstatus after.mstatus

/-- The exact condition under which one step of the supervisor stays confined. -/
def KeepsStatusConfined (env : CPURISCVState) : StatusEvent → Prop
  | .writeSstatus _ =>
    riscvCsrrwCheck env .sstatus = none → ¬(dropsMie env ∧ env.mstatus &&& mstatusMie ≠ 0)
  | .writeVsstatus _ | .trap _ => True
  | .sret => sretFault env = none → SretConfined env

structure SupervisorRun (env : CPURISCVState) : Prop where
  hypervisor : env.misaExt.rvh
  below : env.priv ≠ .machine
  bank : env.virtEnabled → Within (sstatusView env) env.mstatusHs

theorem trapStep_eq {pending : PendingTrap} (ht : TrapsToS env (.trap pending)) :
    statusStep env (.trap pending) = trapToS env pending := by
  obtain ⟨hn, hs, hm⟩ := ht
  simp only [statusStep, riscvCpuDoInterrupt, hn, hs, hm]
  rfl

theorem statusStep_confined_iff {event : StatusEvent} (ht : TrapsToS env event) (hi : SupervisorRun env) :
    StatusConfined env (statusStep env event) ↔ KeepsStatusConfined env event := by
  unfold StatusConfined
  cases event with
  | writeSstatus val =>
    by_cases hp : riscvCsrrwCheck env .sstatus = none
    · simp only [statusStep, KeepsStatusConfined, hp, forall_const]
      exact writeSstatus_confined_iff
    · simp [statusStep, KeepsStatusConfined, hp, ConfinedTo.refl]
  | writeVsstatus val =>
    simp only [statusStep, KeepsStatusConfined, iff_true]
    split <;> exact .refl _ _
  | sret =>
    cases hf : sretFault env with
    | some c => simp [statusStep, helperSret, KeepsStatusConfined, hf, Except.toOption, ConfinedTo.refl]
    | none =>
      simp only [statusStep, helperSret, KeepsStatusConfined, hf, forall_const]
      exact sretTaken_confined_iff hi.below
  | trap p =>
    rw [trapStep_eq ht]
    simp only [KeepsStatusConfined, iff_true]
    exact .of_agree view_mprv (trapToS_mstatus p hi.bank)

theorem SupervisorRun.writeSstatus (h : SupervisorRun env) (val : W64) : SupervisorRun (writeSstatus env val) := by
  simp only [Cpu.writeSstatus, writeMstatus]
  split <;> exact ⟨h.hypervisor, h.below, h.bank⟩

theorem SupervisorRun.writeVsstatus (h : SupervisorRun env) (val : W64) : SupervisorRun (writeVsstatus env val) :=
  ⟨h.hypervisor, h.below, h.bank⟩

theorem sretPrevPriv_ne_machine : sretPrevPriv env ≠ .machine := by
  unfold sretPrevPriv
  split <;> simp

theorem SupervisorRun.sret (hi : SupervisorRun env) : SupervisorRun (sretTaken env) := by
  obtain ⟨hv, hm⟩ := sretBanked_frame
  have hp : (sretBanked env).misaExt.rvh := by rw [hm, hi.hypervisor]
  refine ⟨hp, sretPrevPriv_ne_machine, fun virt => ?_⟩
  have hg : sretPrevVirt env := by
    simpa only [sretTaken, riscvCpuSetMode, hp, if_true] using virt
  change Within (sstatusView (sretBanked env)) (sretBanked env).mstatusHs
  rw [hv]
  cases he : sretEntersGuest env with
  | true =>
    rw [sretBanked_enters he, riscvCpuSwapHypervisorRegs, if_neg (by simp [(sretEntersGuest_host he).2])]
    exact .and_right (swapMask_within_view env) _
  | false =>
    rw [(sretBanked_stays he).2]
    apply hi.bank
    simp only [sretPrevVirt] at hg
    grind

theorem SupervisorRun.trapToS (hi : SupervisorRun env) (p : PendingTrap) : SupervisorRun (trapToS env p) := by
  obtain ⟨hm, hb, mode, -, virt⟩ := saveSpelp_frame env p
  obtain ⟨hw, hx⟩ := sTrapHypervisor_frame (saveSpelp env) p
  have hp : (sTrapHypervisor (saveSpelp env) p).misaExt.rvh := by rw [hx, hm, hi.hypervisor]
  refine ⟨hp, by simp [Cpu.trapToS, riscvCpuSetMode], fun hv => ?_⟩
  have hs : sTrapVirt env p := by
    simpa only [Cpu.trapToS, riscvCpuSetMode, hp, if_true] using hv
  have hg : vsmodeExc env p ∧ env.virtEnabled := by
    simpa [sTrapVirt, trapToVs, hi.hypervisor] using hs
  change Within (sstatusView (sTrapHypervisor (saveSpelp env) p))
    (sTrapHypervisor (saveSpelp env) p).mstatusHs
  rw [hw, virt, sTrapHypervisor, if_neg (by simp [hm, hi.hypervisor]),
    if_pos (by rw [mode]; exact hg.1)]
  rw [hb]
  exact hi.bank hg.2

theorem SupervisorRun.step {e : StatusEvent} (ht : TrapsToS env e) (hi : SupervisorRun env)
    : SupervisorRun (statusStep env e) := by
  cases e with
  | writeSstatus val =>
    simp only [statusStep]
    split
    · exact hi.writeSstatus val
    · exact hi
  | writeVsstatus val =>
    simp only [statusStep]
    split
    · exact hi.writeVsstatus val
    · exact hi
  | sret =>
    cases hf : sretFault env with
    | some c => simpa [statusStep, helperSret, hf, Except.toOption] using hi
    | none => simpa [statusStep, helperSret, hf, Except.toOption] using hi.sret
  | trap p =>
    rw [trapStep_eq ht]
    exact hi.trapToS p

/-- A run of HS-mode and its guests keeps M-mode's half of `mstatus` in every step
  exactly when each step meets its own condition. -/
theorem status_confined_iff {env : CPURISCVState} (hypervisor : env.misaExt.rvh = true)
    (host : env.virtEnabled = false) (mode : env.priv = .supervisor) {events : List StatusEvent}
    (toS : StepsMeet statusStep TrapsToS env events) :
    EachStep statusStep StatusConfined env events ↔ StepsMeet statusStep KeepsStatusConfined env events := by
  have start : SupervisorRun env := ⟨hypervisor, by simp [mode], by simp [host]⟩
  have keeps (state : CPURISCVState) (event : StatusEvent) (traps : TrapsToS state event)
      (held : SupervisorRun state) : SupervisorRun (statusStep state event) := held.step traps
  have alike (state : CPURISCVState) (event : StatusEvent) (traps : TrapsToS state event)
      (held : SupervisorRun state) :
      StatusConfined state (statusStep state event) ↔ KeepsStatusConfined state event :=
    statusStep_confined_iff traps held
  exact stepsMeet_congr keeps alike toS start

/-- An HS-mode hart that is about to enter its guest: SPV and SPP are set and
  `mstatus` carries its reset value of SXL and UXL. -/
def guestEntry : CPURISCVState where
  cfg :=
    { extZca := true, extZve32x := false, extZicfilp := false, extZicfiss := false, extSmrnmi := false,
      extSmdbltrp := false, extSsdbltrp := false, extSvpbmt := false, extSvadu := false, extSstc := false,
      extSmcdeleg := false, extSmnpm := false, extSsnpm := false }
  misaExt := { rvf := true, rvc := true, rvs := true, rvu := true, rvh := true }
  misaMxl := .rv64
  privVer := .v1_12
  envcfg := { menvcfg := 0, senvcfg := 0, henvcfg := 0, dteImplemented := by decide }
  mseccfg := 0
  priv := .supervisor
  virtEnabled := false
  xl := 2
  debugger := false
  elp := false
  pc := 0x80000000
  mstatus := 0x0000000a00000100
  mstatusHs := 0
  vsstatus := 0x0000000a00000000
  hstatus := hstatusSpv
  mnstatus := 0
  stvec := 0x80001000
  stvecHs := 0
  vstvec := 0x90001000
  sscratch := 0
  sscratchHs := 0
  vsscratch := 0
  sepc := 0x90000000
  sepcHs := 0
  vsepc := 0
  scause := 0
  scauseHs := 0
  vscause := 0
  stval := 0
  stvalHs := 0
  vstval := 0
  satp := 0
  satpHs := 0
  vsatp := 0
  htval := 0
  mtvec := 0x80002000
  mepc := 0
  mcause := 0
  mtval := 0
  mtval2 := 0
  mncause := 0
  mnepc := 0
  rnmip := 0
  rnmiIrqvec := 0
  rnmiExcpvec := 0
  medeleg := 0x400
  mideleg := 0
  hedeleg := 0
  hideleg := 0
  mip := 0
  mvip := 0
  mvien := 0
  hvip := 0
  hvien := 0

def guestEcall : PendingTrap where
  async := false
  cause := excpUEcall
  alwaysStoreamo := false
  badaddr := 0
  bins := 0
  twoStageLookup := false
  guestPhysFaultAddr := 0
  swCheckCode := 0
  watchpointHit := none

theorem guest_round_trip_confined :
    StepsMeet statusStep TrapsToS guestEntry [.writeSstatus 0x40122, .sret, .trap guestEcall] ∧
      EachStep statusStep StatusConfined guestEntry [.writeSstatus 0x40122, .sret, .trap guestEcall] := by
  have traps : StepsMeet statusStep TrapsToS guestEntry [.writeSstatus 0x40122, .sret, .trap guestEcall] :=
    ⟨True.intro, True.intro, ⟨by decide, by decide, by decide⟩, True.intro⟩
  refine ⟨traps, (status_confined_iff rfl rfl rfl traps).mpr ⟨fun _ => by decide, fun _ => by decide, ?_⟩⟩
  exact ⟨True.intro, True.intro⟩

theorem mprv_through_vsstatus : StepsMeet statusStep TrapsToS guestEntry [.writeVsstatus mstatusMprv, .sret] ∧
    ¬EachStep statusStep StatusConfined guestEntry [.writeVsstatus mstatusMprv, .sret] := by
  refine ⟨⟨True.intro, True.intro, True.intro⟩, ?_⟩
  rintro ⟨-, confined, -⟩
  have raised : (statusStep (statusStep guestEntry (.writeVsstatus mstatusMprv)) .sret).mstatus &&& mstatusMprv ≠ 0 := by
    decide
  exact raised (confined.2 (by decide))

end RiscvEmulators.Qemu.Cpu
