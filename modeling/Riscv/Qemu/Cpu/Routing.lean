import Riscv.Qemu.Cpu.Confinement

namespace RiscvEmulators.Qemu.Cpu
open Word BitVec

inductive Level where
  | machine
  | hypervisor
  | guest
  deriving DecidableEq, Repr

def levelOf (env : CPURISCVState) : Level :=
  if env.priv = .machine then .machine else if env.virtEnabled then .guest else .hypervisor

def handledIn (env : CPURISCVState) (trap : PendingTrap) : Level :=
  match riscvCpuDoInterrupt env trap with
  | none => .machine
  | some after => levelOf after

def delegatedLevel (env : CPURISCVState) (cause : W64) : Level :=
  if env.priv = .machine ∨ delegated env.medeleg cause = false then .machine
  else if env.virtEnabled && delegated env.hedeleg cause then .guest
  else .hypervisor

section
variable {env : CPURISCVState} {t : PendingTrap}

theorem saveSpelp_virtEnabled (env : CPURISCVState) : (saveSpelp env).virtEnabled = env.virtEnabled := by
  unfold saveSpelp
  split <;> rfl

theorem trapToS_level (env : CPURISCVState) (t : PendingTrap) : levelOf (trapToS env t) =
    if env.virtEnabled ∧ (env.misaExt.rvh = false ∨ vsmodeExc env t) then .guest else .hypervisor := by
  obtain ⟨hm, -⟩ := saveSpelp_frame env t
  have he : levelOf (trapToS env t) =
      if (if env.misaExt.rvh then sTrapVirt env t else (sTrapHypervisor (saveSpelp env) t).virtEnabled) then .guest
      else .hypervisor := by
    simp [levelOf, trapToS, riscvCpuSetMode, sTrapHypervisor_frame, hm]
  rw [he]
  cases hp : env.misaExt.rvh with
  | true => cases hv : env.virtEnabled <;> simp [sTrapVirt, trapToVs, hp, hv]
  | false =>
    have hb : (sTrapHypervisor (saveSpelp env) t).virtEnabled = env.virtEnabled := by
      simp [sTrapHypervisor, hm, hp, saveSpelp_virtEnabled]
    simp [hb]

theorem trapToM_machine {a : CPURISCVState} (h : trapToM env t = some a) : levelOf a = .machine := by
  unfold trapToM at h
  dsimp only at h
  generalize (if env.misaExt.rvh then _ else _ : CPURISCVState) = b at h
  split at h
  · split at h
    · cases h
    split at h
    · cases h
    · cases h
      simp [levelOf, riscvDoNmi, riscvCpuSetMode]
  · cases h
    simp [levelOf, riscvCpuSetMode]

theorem handledIn_eq (hn : takesNmi env t = false) (hp : takesSemihosting t = false) : handledIn env t =
    match trapMode env t with
    | .machine => .machine
    | .supervisor | .user =>
      if env.virtEnabled ∧ (env.misaExt.rvh = false ∨ vsmodeExc env t) then .guest
      else .hypervisor := by
  unfold handledIn riscvCpuDoInterrupt
  rw [hn, hp]
  cases trapMode env t with
  | machine =>
    cases ht : trapToM env t with
    | none => simp
    | some a => simp [trapToM_machine ht]
  | supervisor => exact trapToS_level env t
  | user => exact trapToS_level env t

end

section
variable {env : CPURISCVState} {t : PendingTrap}

theorem promoteLoadFault_of_large {cause : W64} (h : ¬promoteLoadFault cause < 64) :
    promoteLoadFault cause = cause := by
  unfold promoteLoadFault at h ⊢
  split at h
  · exact absurd (by decide) h
  split at h
  · exact absurd (by decide) h
  split at h
  · exact absurd (by decide) h
  · simp_all

theorem trapCause_of_large (hl : ¬trapCause env t < 64) : trapCause env t = t.cause := by
  unfold trapCause at hl ⊢
  by_cases hi : t.async
  · rw [if_pos hi]
  · rw [if_neg hi] at hl ⊢
    generalize hr : (if (isDataAccessFault t.cause && t.alwaysStoreamo) then promoteLoadFault t.cause
      else t.cause) = c at hl ⊢
    by_cases he : c = excpUEcall
    · rw [if_pos he] at hl
      exact absurd (by cases env.priv <;> cases env.virtEnabled <;> decide) hl
    · rw [if_neg he] at hl ⊢
      subst hr
      split at hl
      case isTrue hs =>
        rw [if_pos hs]
        exact promoteLoadFault_of_large hl
      case isFalse low => rw [if_neg low]

theorem delegated_of_large (d : W64) {c : W64} (hl : ¬c < 64) : delegated d c = false := by
  have hw : 64 ≤ c.toNat := by
    rw [lt_def] at hl
    simpa using hl
  simp [delegated, ushiftRight_eq_zero hw]

theorem injected_of_large (env : CPURISCVState) (hl : ¬t.cause < 64) :
    sInjected env t = false ∧ vsInjected env t = false := by
  have hw : 64 ≤ t.cause.toNat := by
    rw [lt_def] at hl
    simpa using hl
  simp [sInjected, vsInjected, shiftLeft_eq_zero hw]

theorem trapMode_eq (hs : smodeDoubleTrap env t = false) : trapMode env t =
    if env.priv ≠ .machine ∧ (delegated (if t.async then env.mideleg else env.medeleg) (trapCause env t) ||
      sInjected env t || vsInjected env t) then .supervisor
    else .machine := by
  unfold trapMode trapDelegatedMode
  rw [hs, if_neg Bool.false_ne_true]
  refine ite_congr (propext (and_congr_right fun _ => ?_)) (fun _ => rfl) (fun _ => rfl)
  constructor
  · exact And.right
  · intro hg
    refine ⟨Decidable.byContradiction fun hl => ?_, hg⟩
    have same := trapCause_of_large hl
    obtain ⟨quiet, hq⟩ := injected_of_large env (same ▸ hl)
    simp [delegated_of_large _ hl, quiet, hq] at hg

theorem vsmodeExc_eq (env : CPURISCVState) (t : PendingTrap) : vsmodeExc env t =
    (env.virtEnabled && (delegated (if t.async then env.hideleg else env.hedeleg) (trapCause env t) ||
      vsInjected env t)) := by
  unfold vsmodeExc
  dsimp only
  by_cases hs : trapCause env t < 64
  · rw [decide_eq_true hs, Bool.and_true]
  · have same := trapCause_of_large hs
    rw [(injected_of_large env (same ▸ hs)).2, delegated_of_large _ hs]
    simp

end

/-- An exception goes where the delegation registers send it exactly when no interrupt that is injected under its number
  changes the route: in M-mode always, under a set bit of `medeleg` if the guest's bit of `hedeleg` is set too or no
  guest interrupt is injected, and otherwise if none is injected at all. -/
theorem exception_routed_by_delegation_iff (env : CPURISCVState) (trap : PendingTrap) (sync : trap.async = false)
    (plain : takesSemihosting trap = false) (single : smodeDoubleTrap env trap = false) :
    handledIn env trap = delegatedLevel env (trapCause env trap) ↔ env.priv = .machine ∨
      (if delegated env.medeleg (trapCause env trap) then
        env.virtEnabled = true → delegated env.hedeleg (trapCause env trap) = true ∨
          env.misaExt.rvh = true ∧ vsInjected env trap = false
      else sInjected env trap = false ∧ vsInjected env trap = false) := by
  have ordinary : takesNmi env trap = false := by simp [takesNmi, sync]
  rw [handledIn_eq ordinary plain, trapMode_eq single, vsmodeExc_eq, sync, if_neg Bool.false_ne_true,
    if_neg Bool.false_ne_true]
  unfold delegatedLevel
  generalize delegated env.medeleg (trapCause env trap) = medeleg
  generalize delegated env.hedeleg (trapCause env trap) = hedeleg
  generalize sInjected env trap = sIrq
  generalize vsInjected env trap = vsIrq
  by_cases machine : env.priv = .machine
  · simp [machine]
  · cases medeleg <;> cases hedeleg <;> cases sIrq <;> cases vsIrq <;> cases env.virtEnabled <;>
      cases env.misaExt.rvh <;> simp [machine]

theorem ecall_routed_by_delegation :
    takesSemihosting guestEcall = false ∧ smodeDoubleTrap guestEntry guestEcall = false ∧
      handledIn guestEntry guestEcall = delegatedLevel guestEntry excpSEcall := by
  refine ⟨by decide, by decide, ?_⟩
  exact (exception_routed_by_delegation_iff guestEntry guestEcall rfl (by decide) (by decide)).mpr
    (.inr ⟨by decide, by decide⟩)

/-- An instruction access fault has the number of the supervisor software interrupt. While M-mode injects that interrupt,
  the fault goes to S-mode, where nothing delegates it. While the hypervisor injects interrupt 13 into its guest, a load
  page fault goes to the guest. -/
theorem injection_routes_exceptions : (let env := { guestEntry with mvip := 0x2, mvien := 0x2 }
    let fault := { guestEcall with cause := excpInstAccessFault }
    env.medeleg = 0x400 ∧ delegatedLevel env excpInstAccessFault = .machine ∧ handledIn env fault = .hypervisor) ∧
    (let env := { guestEntry with virtEnabled := true, medeleg := 0x2000, hvip := 0x2000, hvien := 0x2000 }
      let fault := { guestEcall with cause := excpLoadPageFault }
      delegatedLevel env excpLoadPageFault = .hypervisor ∧ handledIn env fault = .guest) := by
  decide

end RiscvEmulators.Qemu.Cpu
