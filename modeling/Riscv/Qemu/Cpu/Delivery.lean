import Riscv.Qemu.Cpu.Irq

namespace RiscvEmulators.Qemu.Cpu
open Word

def mDoubleTrap (env : CPURISCVState) : Bool :=
  env.cfg.extSmdbltrp && (env.mstatus &&& mstatusMdt != 0 ||
    env.misaExt.rvh && env.virtEnabled && env.mstatusHs &&& mstatusMdt != 0)

def delivery (env : CPURISCVState) (trap : PendingTrap) : Option (Level × W64) :=
  match trapMode env trap with
  | .machine => if mDoubleTrap env then none else some (.machine, trapCause env trap)
  | .supervisor | .user => some (levelOf (trapToS env trap), sTrapCause env trap)

def mTrapSaved (env : CPURISCVState) (trap : PendingTrap) : CPURISCVState :=
  if cpuGetFcfien env then
    if env.cfg.extSmrnmi && getField env.mnstatus mnstatusNmie == 0 && !trap.async then
      { env with mnstatus := setField env.mnstatus mnstatusMnpelp (boolWord env.elp) }
    else { env with mstatus := setField env.mstatus mstatusMpelp (boolWord env.elp) }
  else env

def mTrapBanked (env : CPURISCVState) (trap : PendingTrap) : CPURISCVState :=
  let saved := mTrapSaved env trap
  if env.misaExt.rvh then
    let swapped := if env.virtEnabled then riscvCpuSwapHypervisorRegs saved else saved
    let status := setField swapped.mstatus mstatusMpv (boolWord env.virtEnabled)
    { swapped with
      mstatus := if env.virtEnabled && trapTval trap != 0 then setField status mstatusGva 1 else status }
  else saved

section
variable {env : CPURISCVState} {t : PendingTrap}

theorem or_bne_zero (x y : W64) : (x ||| y != 0) = (x != 0 || y != 0) := by
  rw [Bool.eq_iff_iff, Bool.or_eq_true, bne_iff_ne, bne_iff_ne, bne_iff_ne]
  exact (not_congr BitVec.or_eq_zero_iff).trans Decidable.not_and_iff_or_not

theorem setField_mdt {reg mk v : W64} (h : Within (~~~mk) mstatusMdt) :
    setField reg mk v &&& mstatusMdt = reg &&& mstatusMdt := (agreeOff_setField reg mk v).and_eq h

theorem swapMask_mdt (env : CPURISCVState) : Within (~~~swapMask env) mstatusMdt := by
  unfold swapMask
  cases env.misaExt.rvf <;> cases (env.cfg.extZicfilp && getField env.envcfg.henvcfg menvcfgLpe != 0) <;>
    cases riscvEnvSmodeDbltrpEnabled env env.virtEnabled <;> decide

theorem mTrapSaved_frame (env : CPURISCVState) (t : PendingTrap) :
    (mTrapSaved env t).virtEnabled = env.virtEnabled ∧ (mTrapSaved env t).mstatusHs = env.mstatusHs ∧
      (mTrapSaved env t).mstatus &&& mstatusMdt = env.mstatus &&& mstatusMdt := by
  unfold mTrapSaved
  split
  · split
    · exact ⟨rfl, rfl, rfl⟩
    · exact ⟨rfl, rfl, setField_mdt (by decide)⟩
  · exact ⟨rfl, rfl, rfl⟩

theorem mTrapBanked_mdt (env : CPURISCVState) (t : PendingTrap) :
    (env.cfg.extSmdbltrp && (mTrapBanked env t).mstatus &&& mstatusMdt != 0) = mDoubleTrap env := by
  obtain ⟨hv, hb, hm⟩ := mTrapSaved_frame env t
  have gva : ∀ st : W64,
      (if (env.virtEnabled && trapTval t != 0) then setField st mstatusGva 1 else st) &&& mstatusMdt =
        st &&& mstatusMdt := by
    intro st
    split
    · exact setField_mdt (by decide)
    · rfl
  unfold mTrapBanked mDoubleTrap
  cases env.misaExt.rvh with
  | false =>
    simp [hm]
  | true =>
    simp only [if_true, gva, setField_mdt (show Within (~~~mstatusMpv) mstatusMdt by decide)]
    cases hg : env.virtEnabled with
    | false => simp [hm]
    | true =>
      rw [hg] at hv
      have hk : mstatusMdt &&& (mTrapSaved env t).mstatus &&& ~~~swapMask (mTrapSaved env t) =
          mstatusMdt &&& env.mstatus := by
        rw [BitVec.and_comm mstatusMdt, hm, BitVec.and_assoc, (swapMask_mdt _).and_eq, BitVec.and_comm]
      have hs : (riscvCpuSwapHypervisorRegs (mTrapSaved env t)).mstatus &&& mstatusMdt =
          mstatusMdt &&& env.mstatus ||| mstatusMdt &&& env.mstatusHs := by
        unfold riscvCpuSwapHypervisorRegs
        rw [if_pos hv]
        rw [BitVec.and_comm, BitVec.and_or_distrib_left, ← BitVec.and_assoc, hk, hb]
      rw [if_pos rfl, hs, BitVec.and_comm mstatusMdt, BitVec.and_comm mstatusMdt]
      rw [or_bne_zero, Bool.true_and, Bool.true_and]

theorem trapToM_delivers (hs : mDoubleTrap env = false) (hp : smodeDoubleTrap env t = false) :
    ∃ a, trapToM env t = some a ∧ a.mcause = causeWithFlag (trapCause env t) t.async env.misaMxl.code := by
  have hm := mTrapBanked_mdt env t
  rw [hs] at hm
  cases ht : trapToM env t with
  | none =>
    change (if (env.cfg.extSmdbltrp && (mTrapBanked env t).mstatus &&& mstatusMdt != 0) then _ else _) = none
      at ht
    rw [hm] at ht
    cases ht
  | some a =>
    change (if (env.cfg.extSmdbltrp && (mTrapBanked env t).mstatus &&& mstatusMdt != 0) then _ else _) =
      some a at ht
    rw [hm] at ht
    cases ht
    refine ⟨_, rfl, ?_⟩
    rw [hp]
    rfl

theorem trapToS_scause {env : CPURISCVState} {t : PendingTrap} :
    ∃ xl, (trapToS env t).scause = causeWithFlag (sTrapCause env t) t.async xl := ⟨_, rfl⟩

theorem delivery_sound (hn : takesNmi env t = false) (hp : takesSemihosting t = false)
    (single : smodeDoubleTrap env t = false) {level : Level} {c : W64} (hd : delivery env t = some (level, c)) :
    ∃ a, riscvCpuDoInterrupt env t = some a ∧ levelOf a = level ∧
      ∃ xl, (if level = .machine then a.mcause else a.scause) = causeWithFlag c t.async xl := by
  unfold delivery at hd
  unfold riscvCpuDoInterrupt
  rw [hn, hp]
  have hs : ∀ {md : Option (Level × W64)}, md = some (levelOf (trapToS env t), sTrapCause env t) →
      md = some (level, c) → levelOf (trapToS env t) = level ∧
        ∃ xl, (if level = .machine then (trapToS env t).mcause else (trapToS env t).scause) =
          causeWithFlag c t.async xl := by
    intro md same hf
    cases same.symm.trans hf
    refine ⟨rfl, ?_⟩
    rw [if_neg]
    · exact trapToS_scause
    · rw [trapToS_level]
      split <;> simp
  cases md : trapMode env t with
  | machine =>
    rw [md] at hd
    cases double : mDoubleTrap env with
    | true =>
      rw [double] at hd
      cases hd
    | false =>
      rw [double] at hd
      cases hd
      obtain ⟨a, ht, hm⟩ := trapToM_delivers double single
      exact ⟨a, ht, trapToM_machine ht, _, hm⟩
  | supervisor =>
    rw [md] at hd
    exact ⟨_, rfl, hs rfl hd⟩
  | user =>
    rw [md] at hd
    exact ⟨_, rfl, hs rfl hd⟩

end

def guestCause (cause : W64) : W64 :=
  if cause = irqVsTimer ∨ cause = irqVsSoft ∨ cause = irqVsExt then cause - 1 else cause

def deliveredCause (level : Level) (cause : W64) : W64 := if level = .guest then guestCause cause else cause

/-- The level that delivery computes for an interrupt is the one whose test chose it: an M-level one is not injected
  under the same number, one for HS is delegated or injected to S-mode and not to a running guest, and one for the guest
  is so twice. -/
def Agrees (env : CPURISCVState) (trap : PendingTrap) : Level → Prop
  | .machine => mDoubleTrap env = false ∧
    (env.priv = .machine ∨ sInjected env trap = false ∧ vsInjected env trap = false)
  | .hypervisor => (delegated env.mideleg trap.cause || sInjected env trap || vsInjected env trap) ∧
    (env.virtEnabled → delegated env.hideleg trap.cause = false ∧ vsInjected env trap = false)
  | .guest => (delegated env.mideleg trap.cause || sInjected env trap || vsInjected env trap) ∧
    (delegated env.hideleg trap.cause || vsInjected env trap)

section
variable {s : IrqState} {t : PendingTrap} {level : Level} {irq : Nat}

theorem delegated_eq (d c : W64) : delegated d c = d.getLsbD c.toNat := by
  unfold delegated
  rw [BitVec.ushiftRight_eq', show (1 : W64) = BitVec.twoPow 64 0 by decide, BitVec.and_twoPow,
    BitVec.getLsbD_ushiftRight]
  cases d.getLsbD c.toNat <;> decide

theorem gate_getLsbD {e : Bool} {bs : W64} {n : Nat} (h : (bs &&& IrqState.gate e).getLsbD n) : e ∧ bs.getLsbD n := by
  rw [BitVec.getLsbD_and, Bool.and_eq_true] at h
  refine ⟨?_, h.1⟩
  cases e with
  | true => rfl
  | false => simp [IrqState.gate] at h

theorem sieEnabled_below (he : s.sieEnabled) : s.cpu.priv ≠ .machine := by
  intro hm
  simp [IrqState.sieEnabled, hm] at he

theorem hsieEnabled_below (he : s.hsieEnabled) : s.cpu.priv ≠ .machine := by
  rcases Bool.or_eq_true_iff.mp he with hv | hs
  · exact (s.guest hv).2
  · exact sieEnabled_below hs

theorem chosen_known (hc : s.chosen = some (some level, irq)) : (s.cpu.cfg.extSmrnmi → s.cpu.rnmip = 0) ∧
    match level with
    | .machine => s.cpu.mideleg.getLsbD irq = false ∧ irq < 64
    | .hypervisor => s.cpu.priv ≠ .machine
    | .guest => s.cpu.virtEnabled := by
  unfold IrqState.chosen at hc
  split at hc
  · cases hc
  split at hc
  · cases hc
  case isFalse hq =>
    refine ⟨fun present => Decidable.byContradiction fun pends => hq ⟨present, pends⟩, ?_⟩
    split at hc
    · obtain ⟨f, hp, hs⟩ := Option.map_eq_some_iff.mp hc
      cases hs
      have hb := (gate_getLsbD (pendingToIrq_some hp)).2
      refine ⟨?_, BitVec.lt_of_getLsbD hb⟩
      rw [BitVec.getLsbD_and, Bool.and_eq_true, BitVec.getLsbD_not, Bool.and_eq_true, Bool.not_eq_true'] at hb
      exact hb.2.2
    split at hc
    · obtain ⟨f, hp, hs⟩ := Option.map_eq_some_iff.mp hc
      cases hs
      exact hsieEnabled_below (gate_getLsbD (pendingToIrq_some hp)).1
    split at hc
    · obtain ⟨f, hp, hs⟩ := Option.map_eq_some_iff.mp hc
      cases hs
      exact (Bool.and_eq_true_iff.mp (gate_getLsbD (pendingToIrq_some hp)).1).1
    · cases hc

theorem trapCause_async (h : t.async) (env : CPURISCVState) : trapCause env t = t.cause := by
  simp [trapCause, h]

theorem delivery_async (ha : t.async) (hs : smodeDoubleTrap s.cpu t = false) : delivery s.cpu t =
    if s.cpu.priv ≠ .machine ∧ (delegated s.cpu.mideleg t.cause || sInjected s.cpu t || vsInjected s.cpu t) then
      if s.cpu.virtEnabled && (delegated s.cpu.hideleg t.cause || vsInjected s.cpu t) then
        some (.guest, guestCause t.cause)
      else some (.hypervisor, t.cause)
    else if mDoubleTrap s.cpu then none else some (.machine, t.cause) := by
  unfold delivery
  rw [trapMode_eq hs, trapCause_async ha, ha, if_pos rfl]
  by_cases hg : s.cpu.priv ≠ .machine ∧
      (delegated s.cpu.mideleg t.cause || sInjected s.cpu t || vsInjected s.cpu t)
  · rw [if_pos hg, if_pos hg]
    have he := vsmodeExc_eq s.cpu t
    rw [trapCause_async ha, ha, if_pos rfl] at he
    rw [trapToS_level, ← he]
    cases hv : s.cpu.virtEnabled with
    | false =>
      have hi : vsmodeExc s.cpu t = false := by rw [he, hv, Bool.false_and]
      simp [hi, sTrapCause, trapToVs, trapCause_async ha]
    | true =>
      have hp := (s.guest hv).1
      cases ht : vsmodeExc s.cpu t with
      | false => simp [hp, sTrapCause, trapToVs, ht, trapCause_async ha]
      | true => simp [hp, sTrapCause, trapToVs, ht, trapCause_async ha, ha, guestCause, or_assoc]
  · rw [if_neg hg, if_neg hg]

end

/-- A chosen interrupt is delivered to the level whose test chose it, with its number, exactly where delivery computes
  that level; and then `riscv_cpu_do_interrupt` goes on there. -/
theorem chosen_interrupt_delivered_iff (s : IrqState) (trap : PendingTrap) (level : Level) (irq : Nat)
    (chosen : s.chosen = some (some level, irq)) (async : trap.async = true) (raised : trap.cause = BitVec.ofNat 64 irq)
    (single : smodeDoubleTrap s.cpu trap = false) :
    (delivery s.cpu trap = some (level, deliveredCause level trap.cause) ↔ Agrees s.cpu trap level) ∧
      (Agrees s.cpu trap level → ∃ after, riscvCpuDoInterrupt s.cpu trap = some after ∧ levelOf after = level ∧
        ∃ xl, (if level = .machine then after.mcause else after.scause) =
          causeWithFlag (deliveredCause level trap.cause) true xl) := by
  obtain ⟨quiet, known⟩ := chosen_known chosen
  have ordinary : takesNmi s.cpu trap = false := by
    cases rnmi : s.cpu.cfg.extSmrnmi with
    | false => simp [takesNmi, rnmi]
    | true => simp [takesNmi, quiet rnmi]
  have plain : takesSemihosting trap = false := by simp [takesSemihosting, async]
  have agrees : delivery s.cpu trap = some (level, deliveredCause level trap.cause) ↔ Agrees s.cpu trap level := by
    rw [delivery_async async single]
    unfold Agrees deliveredCause
    generalize delegated s.cpu.hideleg trap.cause = hideleg
    generalize sInjected s.cpu trap = sIrq
    generalize vsInjected s.cpu trap = vsIrq
    cases level with
    | machine =>
      have kept : delegated s.cpu.mideleg trap.cause = false := by
        rw [delegated_eq, raised, BitVec.toNat_ofNat, Nat.mod_eq_of_lt (by omega)]
        exact known.1
      rw [kept]
      by_cases machine : s.cpu.priv = .machine
      · cases mDoubleTrap s.cpu <;> simp [machine]
      · cases sIrq <;> cases vsIrq <;> cases hideleg <;> cases s.cpu.virtEnabled <;>
          cases mDoubleTrap s.cpu <;> simp
    | hypervisor =>
      generalize delegated s.cpu.mideleg trap.cause = mideleg
      cases mideleg <;> cases sIrq <;> cases vsIrq <;> cases hideleg <;> cases s.cpu.virtEnabled <;>
        cases mDoubleTrap s.cpu <;> simp [known]
    | guest =>
      have virt := (s.guest known).2
      generalize delegated s.cpu.mideleg trap.cause = mideleg
      cases mideleg <;> cases sIrq <;> cases vsIrq <;> cases hideleg <;>
        cases mDoubleTrap s.cpu <;> simp [known, virt]
  refine ⟨agrees, fun same => ?_⟩
  rw [← async]
  exact delivery_sound ordinary plain single (agrees.mpr same)

def irqHart (cpu : CPURISCVState) (mie sie vsie : W64)
    (guest : cpu.virtEnabled → cpu.misaExt.rvh ∧ cpu.priv ≠ .machine) : IrqState where
  cpu := cpu
  mie := mie
  sie := sie
  vsie := vsie
  hgeie := 0
  hgeip := 0
  hvictl := 0
  vstimeIrq := false
  softwareSeip := false
  externalSeip := false
  miprio := fun _ => 0
  siprio := fun _ => 0
  hviprio := fun _ => 0
  extSmaia := false
  extSsaia := false
  hard := false
  guest := guest

def irqTrap (cause : W64) : PendingTrap := { guestEcall with async := true, cause := cause }

def timerHart : IrqState :=
  irqHart { guestEntry with priv := .user, mip := mipMtip, mideleg := hsModeInterrupts } mipMtip 0 0 (by decide)

def maskedSoftHart : IrqState :=
  irqHart
    { guestEntry with
      priv := .user, mip := mipSsip, mvip := mipSsip, mvien := mipSsip, mideleg := hsModeInterrupts }
    0 mipSsip 0 (by decide)

def maskedOverflowHart : IrqState :=
  irqHart
    { guestEntry with
      priv := .user, virtEnabled := true, mip := mipLcofip, hvip := mipLcofip, hvien := mipLcofip
      mideleg := hsModeInterrupts ||| mipLcofip }
    0 0 mipLcofip (by decide)

theorem timer_delivered :
    timerHart.chosen = some (some .machine, 7) ∧ delivery timerHart.cpu (irqTrap 7) = some (.machine, 7) := by
  have chosen : timerHart.chosen = some (some .machine, 7) := by decide
  have agrees := (chosen_interrupt_delivered_iff timerHart (irqTrap 7) .machine 7 chosen rfl (by decide) (by decide)).1
  exact ⟨chosen, agrees.mpr ⟨by decide, .inr ⟨by decide, by decide⟩⟩⟩

/-- Selection looks at what is enabled, delivery at what is pending: an injected interrupt goes to M-mode, where it is
  disabled, and one that is injected into the guest goes to the hypervisor. -/
theorem masked_interrupt_misdelivered : maskedSoftHart.chosen = some (some .hypervisor, 1) ∧
    delivery maskedSoftHart.cpu (irqTrap 1) = some (.machine, 1) ∧ maskedOverflowHart.chosen = some (some .guest, 13) ∧
    delivery maskedOverflowHart.cpu (irqTrap 13) = some (.hypervisor, 13) := by
  decide

end RiscvEmulators.Qemu.Cpu
