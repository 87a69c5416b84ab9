import Riscv.Spike.State

namespace RiscvEmulators.Spike
open Word State
open BitVec (twoPow getLsbD_and getLsbD_or getLsbD_not getLsbD_shiftLeft getLsbD_ushiftRight lt_of_getLsbD toNat_ofNat)
variable {isa : Isa}
variable {enabled : Reg} {n : Nat} {t : Trap} {s : State isa} {pending : Reg}

theorem getLsbD_of_single {mk : Reg} (hs : mk = twoPow 64 (ctz mk)) (hp : enabled &&& mk ≠ 0)
    : enabled.getLsbD (ctz mk) := by
  rw [hs] at hp
  have hb := mt (and_twoPow_eq_zero enabled (ctz mk) (ctz_lt mk)).mpr hp
  rw [BitVec.getLsbD_eq_getElem (ctz_lt mk)]
  simpa using hb

theorem getLsbD_custom {k : Nat} (hc : enabled >>> k ≠ 0) : enabled.getLsbD (ctz (enabled >>> k <<< k)) := by
  have hh := getLsbD_ctz hc
  rw [getLsbD_ushiftRight] at hh
  have hk : enabled >>> k <<< k ≠ 0 := by
    intro hz
    have hi := lt_of_getLsbD hh
    have hs : (enabled >>> k <<< k).getLsbD (k + ctz (enabled >>> k)) := by
      rw [getLsbD_shiftLeft, getLsbD_ushiftRight, Nat.add_sub_cancel_left, hh, decide_eq_true hi]
      simp
    rw [hz] at hs
    exact absurd hs (by simp)
  have hb := getLsbD_ctz hk
  simp only [getLsbD_shiftLeft, getLsbD_ushiftRight, Bool.and_eq_true,
    Bool.not_eq_true', decide_eq_false_iff_not] at hb
  rw [Nat.add_sub_cancel' (by omega)] at hb
  exact hb.2

theorem select_next {mk r : Reg} (hs : mk = twoPow 64 (ctz mk)) (ho : enabled.getLsbD (ctz r)) :
    enabled.getLsbD (ctz (if enabled &&& mk ≠ 0 then mk else r)) := by
  split
  · rename_i hp
    exact getLsbD_of_single hs hp
  · exact ho

theorem select_enabled (hs : enabled ≠ 0) : enabled.getLsbD (ctz (selectAnInterruptWithDefaultPriority enabled)) := by
  rw [selectAnInterruptWithDefaultPriority]
  by_cases hc : enabled >>> (irqLcof + 1) ≠ 0
  · rw [if_pos hc]
    exact getLsbD_custom hc
  rw [if_neg hc]
  refine select_next (by decide) (select_next (by decide) (select_next (by decide) (select_next (by decide) ?_)))
  refine select_next (by decide) (select_next (by decide) (select_next (by decide) (select_next (by decide) ?_)))
  exact select_next (by decide) (select_next (by decide) (getLsbD_ctz hs))

theorem shift_and_one {x : Reg} (hb : n < 64) : ((x >>> BitVec.ofNat 64 n) &&& 1 != 0) = x.getLsbD n := by
  have ha : (BitVec.ofNat 64 n).toNat = n := by
    rw [toNat_ofNat, Nat.mod_eq_of_lt (by omega)]
  have hl := and_twoPow_eq_zero (x >>> BitVec.ofNat 64 n) 0 (by decide)
  rw [show twoPow 64 0 = 1 from rfl] at hl
  rw [BitVec.getElem_eq_testBit_toNat] at hl
  simp only [BitVec.ushiftRight_eq', ha] at hl ⊢
  rw [BitVec.getLsbD]
  cases bit : x.toNat.testBit n <;> simp_all

theorem interrupt_number {x : Xlen} : ∀ n : Fin 64,
    ((1 : Reg) <<< (x.bits - 1) ||| BitVec.ofNat 64 n.val) &&& (1 : Reg) <<< (x.bits - 1) ≠ 0 ∧
      ((1 : Reg) <<< (x.bits - 1) ||| BitVec.ofNat 64 n.val) &&& ~~~((1 : Reg) <<< (x.bits - 1)) =
        BitVec.ofNat 64 n.val := by
  cases x <;> decide

theorem Trap.bit_eq (hb : n < 64) (ht : t.cause = interruptBit isa ||| BitVec.ofNat 64 n) :
    t.interrupt isa ∧ t.bit isa = BitVec.ofNat 64 n := by
  obtain ⟨hf, hn⟩ := interrupt_number ⟨n, hb⟩
  have hi : t.interrupt isa := by
    rw [Trap.interrupt, ht]
    simpa [interruptBit] using hf
  refine ⟨hi, ?_⟩
  rw [Trap.bit, hi, ht]
  exact hn

theorem State.delegates_eq (s : State isa) (hb : n < 64) (hn : t.bit isa = BitVec.ofNat 64 n) (d : Reg) :
    s.delegates t d = (s.belowM && decide (n < isa.maxXlen.bits) && d.getLsbD n) := by
  have hv : (t.bit isa).toNat = n := by
    rw [hn, toNat_ofNat, Nat.mod_eq_of_lt (by omega)]
  rw [delegates, hv, hn, shift_and_one hb]

theorem State.takeInterrupt_thrown {c : Reg} (ht : s.takeInterrupt pending = some c) :
    s.debugMode = false ∧ s.nmie ∧ (s.enabledInterrupts pending).2 ≠ 0 ∧ c = interruptBit isa |||
      BitVec.ofNat 64 (ctz (selectAnInterruptWithDefaultPriority (s.enabledInterrupts pending).2)) := by
  simp only [takeInterrupt] at ht
  split at ht
  · cases ht
  split at ht
  · rename_i he
    simp only [Bool.and_eq_true, Bool.not_eq_true', bne_iff_ne] at he
    exact ⟨he.1.1, he.1.2, he.2, (Option.some.inj ht).symm⟩
  · cases ht

theorem getLsbD_enableMask {x : Reg} {enabled : Bool} (h : (x &&& enableMask enabled).getLsbD n)
    : x.getLsbD n ∧ enabled := by
  cases enabled <;> simp_all [enableMask]

theorem State.hidelegRead_le (s : State isa) (h : s.hidelegRead.getLsbD n) : s.midelegRead.getLsbD n := by
  rw [hidelegRead, getLsbD_and, Bool.and_eq_true] at h
  exact h.2

theorem State.mInterrupts_bit (hb : (s.mInterrupts pending).getLsbD n) : s.midelegRead.getLsbD n = false := by
  have hi := (getLsbD_enableMask hb).1
  simp only [getLsbD_and, getLsbD_not, Bool.and_eq_true, Bool.not_eq_true'] at hi
  exact hi.2.2

theorem State.hsInterrupts_bit (hb : (s.hsInterrupts pending).getLsbD n) :
    s.hidelegRead.getLsbD n = false ∧ (s.midelegRead ||| s.nonvirtualSipRead).getLsbD n ∧ s.hsEnabled := by
  obtain ⟨hi, he⟩ := getLsbD_enableMask hb
  refine ⟨?_, ?_, he⟩
  · cases hg : s.hidelegRead.getLsbD n <;> simp_all
  · simp only [getLsbD_or, getLsbD_and, Bool.or_eq_true, Bool.and_eq_true,
      sPendingInterrupts] at hi ⊢
    rcases hi with ⟨-, hd, -⟩ | ⟨hv, -⟩
    · exact .inl hd
    · split at hv
      · rw [getLsbD_and, Bool.and_eq_true] at hv
        exact .inr hv.1
      · simp at hv

theorem number_fits {reg : Reg} (hb : n < 64) :
    getField (setField reg mtopiIid (BitVec.ofNat 64 n)) mtopiIid = BitVec.ofNat 64 n := by
  have hf : ∀ n : Fin 64, (BitVec.ofNat 64 n.val <<< 16 &&& mtopiIid) >>> 16 = BitVec.ofNat 64 n.val := by decide
  exact getField_setField reg mtopiIid _ 16 (by decide) (by decide) (hf ⟨n, hb⟩)

theorem State.vsEnabledInterrupts_bit (hb : s.vsEnabledInterrupts.getLsbD n) : mipSMask.getLsbD n := by
  simp only [vsEnabledInterrupts, hidelegRead, getLsbD_ushiftRight, getLsbD_and,
    Bool.and_eq_true] at hb
  have hbo := lt_of_getLsbD hb.2.1
  have hs : ∀ m : Fin 63, mipVsMask.getLsbD (1 + m.val) → mipSMask.getLsbD m.val := by decide
  exact hs ⟨n, by omega⟩ (s.hidelegMasked.getLsbD hb.2.1)

theorem State.vstopi_cases (hn : s.vstopiRead ≠ 0) :
    (∃ n, n < 64 ∧ mipSMask.getLsbD n ∧ getField s.vstopiRead mtopiIid = BitVec.ofNat 64 n) ∨
      (s.hvictl &&& hvictlVti ≠ 0 ∧ getField s.vstopiRead mtopiIid = getField s.hvictl hvictlIid ∧
        ¬(s.vsEnabledInterrupts &&& mipSeip ≠ 0 ∧ s.hvictl &&& hvictlDpr ≠ 0)) := by
  cases hi : s.vstopiIdentity with
  | none => simp [vstopiRead, hi] at hn
  | some number =>
    have hr : s.vstopiRead = setField
        (if s.hvictl &&& hvictlIpriom ≠ 0 then s.vstopiPriority number else 1) mtopiIid number := by
      rw [vstopiRead, hi]
    simp only [vstopiIdentity] at hi
    split at hi
    · rename_i hin
      split at hi
      · cases hi
      split at hi
      · cases hi
        exact .inl ⟨9, by decide, by decide, by rw [hr]; exact sExt_fits _⟩
      · rename_i hl
        cases hi
        refine .inr ⟨hin, by rw [hr]; exact iid_fits _ _, ?_⟩
        rintro ⟨he, hp⟩
        exact hl ⟨he, .inr hp⟩
    · split at hi
      · cases hi
      · rename_i hen
        cases hi
        have hb := select_enabled hen
        refine .inl ⟨_, ctz_lt _, vsEnabledInterrupts_bit hb, ?_⟩
        rw [hr]
        exact number_fits (ctz_lt _)

theorem State.vsPendingInterrupt_injects (hb : s.vsPendingInterrupt.getLsbD n) :
    InjectsGuest s (BitVec.ofNat 64 n) := by
  unfold vsPendingInterrupt at hb
  split at hb
  · rename_i ha
    simp only [getLsbD_and, getLsbD_not, Bool.and_eq_true] at hb
    obtain ⟨ht, -, hn⟩ := hb
    split at ht
    · rename_i hna
      have hp : n = (getField s.vstopiRead mtopiIid).toNat := by
        simp only [BitVec.shiftLeft_eq', getLsbD_shiftLeft, Bool.and_eq_true, Bool.not_eq_true', decide_eq_false_iff_not] at ht
        have hsi : n - (getField s.vstopiRead mtopiIid).toNat = 0 := by
          simpa using ht.2
        omega
      have hnu : BitVec.ofNat 64 n = getField s.vstopiRead mtopiIid := by rw [hp]; simp
      rcases vstopi_cases hna with ⟨m, hsm, hs, hsa⟩ | ⟨hi, hsa, hf⟩
      · rw [hsa, toNat_ofNat, Nat.mod_eq_of_lt (by omega)] at hp
        rw [hp, hs] at hn
        cases hn
      · refine ⟨ha, hi, hsa.symm.trans hnu.symm, ?_, hf⟩
        intro he
        have hni : n = 9 := by
          have hv := congrArg BitVec.toNat he
          rw [toNat_ofNat, Nat.mod_eq_of_lt (by omega)] at hv
          exact hv
        rw [hni] at hn
        exact absurd hn (by decide)
    · simp at ht
  · simp at hb

theorem State.mvien_cases (hb : s.mvien.getLsbD n) : n = 1 ∨ n = 9 := by
  have hs : ∀ m : Fin 64, (mipSeip ||| mipSsip).getLsbD m.val → m.val = 1 ∨ m.val = 9 := by decide
  exact hs ⟨n, lt_of_getLsbD hb⟩ (s.mvienMasked.getLsbD hb)

theorem State.mvipRead_bit (hb : s.mvien.getLsbD n) : s.mvipRead.getLsbD n = s.mvip.getLsbD n := by
  rcases mvien_cases hb with rfl | rfl
  · have he : s.mvien &&& mipSsip ≠ 0 := by
      rw [show mipSsip = twoPow 64 1 from rfl, ne_eq, and_twoPow_eq_zero _ 1 (by decide)]
      simp [hb]
    have hm : mipSeip.getLsbD 1 = false ∧ mipStip.getLsbD 1 = false ∧ mipSsip.getLsbD 1 := by decide
    have hn : (0 : Reg).getLsbD 1 = false := rfl
    rw [mvipRead]
    split <;> simp only [getLsbD_or, getLsbD_and, hn, hm, Bool.and_false, Bool.and_true, Bool.false_or]
  · have hm : mipSeip.getLsbD 9 ∧ mipStip.getLsbD 9 = false ∧ mipSsip.getLsbD 9 = false := by decide
    have hn : (0 : Reg).getLsbD 9 = false := rfl
    rw [mvipRead]
    split <;> simp only [getLsbD_or, getLsbD_and, hn, hm, Bool.and_false, Bool.and_true, Bool.or_false]

theorem State.sip_undelegated (hb : n < 64) (hc : s.midelegRead.getLsbD n = false) :
    s.nonvirtualSipRead.getLsbD n = (s.mvien &&& s.mvip).getLsbD n := by
  have hm : s.mvienMask.getLsbD n = s.mvien.getLsbD n := by
    simp only [mvienMask, getLsbD_and, getLsbD_not, hc, hb, decide_true, Bool.not_false,
      Bool.true_and]
  simp only [nonvirtualSipRead, getLsbD_or, getLsbD_and, hc, hm]
  cases hr : s.mvien.getLsbD n with
  | false => simp
  | true => simp [mvipRead_bit hr]

def Level.prv : Level → Prv
  | .vs | .hs => .s
  | .m => .m

def Level.virt : Level → Bool
  | .vs => true
  | .hs | .m => false

def DeliveredAt (s : State isa) (t : Trap) (epc : Reg) (level : Level) : Prop :=
  ∃ after, s.takeTrap t epc = .handled level after ∧ after.mode.prv = level.prv ∧ after.mode.virt = level.virt

def State.CanEnter (s : State isa) : Level → Prop
  | .vs | .hs => isa.extU ∧ isa.extS
  | .m => ¬(isa.extSmdbltrp ∧ (getField s.mstatusRead mstatusMdt ≠ 0 ∨ s.nmie = false))

theorem setPrivilege_s_iff {v : Bool} : (setPrivilege isa .s v).prv = .s ∧ (setPrivilege isa .s v).virt = v ↔
    isa.extU ∧ isa.extS := by
  simp only [setPrivilege, legalizePrivilege]
  cases isa.extU <;> cases isa.extS <;> cases v <;> decide

theorem State.trapToM_iff (s : State isa) {t : Trap} {epc : Reg} : (∃ a, s.trapToM t epc = some a) ↔ s.CanEnter .m := by
  simp only [trapToM]
  split
  · rename_i hc
    simp only [Bool.and_eq_true, Bool.or_eq_true, bne_iff_ne, Bool.not_eq_true'] at hc
    exact iff_of_false (by simp) (not_not_intro hc)
  · rename_i hcl
    simp only [Bool.and_eq_true, Bool.or_eq_true, bne_iff_ne, Bool.not_eq_true'] at hcl
    exact iff_of_true ⟨_, rfl⟩ hcl

theorem State.takeTrap_handled_iff {after : State isa} {epc : Reg} {l : Level} (hr : s.debugMode = false) :
    s.takeTrap t epc = .handled l after ↔ (isa.extSsaia → isa.extH) ∧ s.trapLevel t = l ∧ match l with
      | .vs => s.trapToVs t epc = after
      | .hs => s.trapToHs t epc = after
      | .m => s.trapToM t epc = some after := by
  by_cases hm : isa.extSsaia → isa.extH
  · rw [takeTrap_eq t epc hr hm, and_iff_right hm]
    cases s.trapLevel t <;> cases l <;> cases s.trapToM t epc <;> simp
  · have ha : isa.extSsaia ∧ isa.extH = false := by simpa using hm
    simp [takeTrap, hr, ha]

theorem deliveredAt_iff {epc : Reg} (hr : s.debugMode = false) {level : Level} : DeliveredAt s t epc level ↔
    (isa.extSsaia → isa.extH) ∧ s.trapLevel t = level ∧ s.CanEnter level := by
  simp only [DeliveredAt, takeTrap_handled_iff hr, and_assoc, exists_and_left]
  cases level with
  | vs =>
    simp only [exists_eq_left']
    exact and_congr_right fun _ => and_congr_right fun _ => setPrivilege_s_iff
  | hs =>
    simp only [exists_eq_left']
    exact and_congr_right fun _ => and_congr_right fun _ => setPrivilege_s_iff
  | m =>
    refine and_congr_right fun _ => and_congr_right fun _ => ?_
    rw [← s.trapToM_iff]
    refine exists_congr fun a => ⟨fun he => he.1, fun he => ⟨he, ?_⟩⟩
    rw [trapToM_mode he]
    simp only [setPrivilege, legalizePrivilege]
    cases isa.extU <;> cases isa.extS <;> decide

/-- The exact condition for an interrupt that was selected at a level to be
  delivered there: injection hits the trap number whatever the level, and an
  interrupt routed by `mvien` counts as delegated even when it was pending for
  M-mode. -/
def DeliversSelected (s : State isa) (number : Reg) : Level → Prop
  | .m => ¬InjectsGuest s number ∧
    ¬(s.mode.prv ≠ .m ∧ number.toNat < isa.maxXlen.bits ∧ (s.mvien &&& s.mvip).getLsbD number.toNat) ∧
    ¬(isa.extSmdbltrp ∧ getField s.mstatusRead mstatusMdt ≠ 0)
  | .hs => ¬InjectsGuest s number ∧ number.toNat < isa.maxXlen.bits ∧ isa.extU ∧ isa.extS
  | .vs => isa.extU ∧ isa.extS

theorem State.hsEnabled_below (he : s.hsEnabled) : s.belowM := by
  cases hp : s.mode.prv with
  | m =>
    have hh : s.mode.virt = false := by
      cases hv : s.mode.virt with
      | false => rfl
      | true => exact absurd hp (s.mode.virtBelow hv)
    simp [hsEnabled, hh, hp] at he
  | u => simp [belowM, hp]
  | s => simp [belowM, hp]

theorem State.trapLevel_hs_iff (s : State isa) (t : Trap) : s.trapLevel t = .hs ↔
    s.trapLevel t ≠ .vs ∧ s.supvDoubleTrap t = false ∧ s.delegates t (s.hsdeleg t) := by
  simp only [trapLevel]
  grind

theorem State.trapLevel_m_iff (s : State isa) (t : Trap) :
    s.trapLevel t = .m ↔ s.trapLevel t ≠ .vs ∧ s.trapLevel t ≠ .hs := by
  cases s.trapLevel t <;> simp

theorem State.hidelegRead_small (s : State isa) (hb : s.hidelegRead.getLsbD n) : n < isa.maxXlen.bits := by
  rw [hidelegRead, getLsbD_and, Bool.and_eq_true] at hb
  have hs : ∀ m : Fin 64, mipVsMask.getLsbD m.val → m.val < 32 := by decide
  have hl : n < 32 := hs ⟨n, lt_of_getLsbD hb.1⟩ (s.hidelegMasked.getLsbD hb.1)
  cases isa.maxXlen <;> simp only [Xlen.bits] <;> omega

section
variable {s : State isa} {t : Trap} {n : Nat}

theorem State.interrupt_vs_iff (hb : n < 64) (hi : t.interrupt isa)
    (hn : t.bit isa = BitVec.ofNat 64 n) (hs : s.supvDoubleTrap t = false) : s.trapLevel t = .vs ↔
      (s.mode.virt ∧ n < isa.maxXlen.bits ∧ s.hidelegRead.getLsbD n) ∨ InjectsGuest s (t.bit isa) := by
  rw [trapLevel_vs_iff, vti_iff, s.delegates_eq hb hn, vsdeleg]
  have hbe : s.mode.virt → s.belowM := by
    intro hv
    simpa [belowM] using s.mode.virtBelow hv
  cases hv : s.mode.virt <;> simp_all

theorem State.interrupt_hs_iff (hb : n < 64) (hi : t.interrupt isa)
    (hn : t.bit isa = BitVec.ofNat 64 n) (hsi : s.supvDoubleTrap t = false) :
    s.trapLevel t = .hs ↔ s.trapLevel t ≠ .vs ∧ s.belowM ∧ n < isa.maxXlen.bits ∧
      (s.midelegRead ||| s.nonvirtualSipRead).getLsbD n := by
  rw [trapLevel_hs_iff, hsi, s.delegates_eq hb hn, hsdeleg, hi]
  cases s.belowM <;> simp

theorem State.selected_m_iff (hb : n < 64) (hi : t.interrupt isa)
    (hn : t.bit isa = BitVec.ofNat 64 n) (hs : s.supvDoubleTrap t = false) (ha : s.nmie)
    (hm : s.midelegRead.getLsbD n = false) : s.trapLevel t = .m ∧ s.CanEnter .m ↔ DeliversSelected s (t.bit isa) .m := by
  have hv : (t.bit isa).toNat = n := by rw [hn, toNat_ofNat, Nat.mod_eq_of_lt (by omega)]
  have hg : s.hidelegRead.getLsbD n = false := by
    cases bit : s.hidelegRead.getLsbD n with
    | false => rfl
    | true => rw [s.hidelegRead_le bit] at hm; cases hm
  rw [trapLevel_m_iff, ne_eq, ne_eq, interrupt_hs_iff hb hi hn hs, ne_eq,
    interrupt_vs_iff hb hi hn hs, getLsbD_or, hm, Bool.false_or,
    sip_undelegated hb hm, hg]
  simp only [State.CanEnter, DeliversSelected, belowM]
  grind

theorem State.selected_hs_iff (hb : n < 64) (hi : t.interrupt isa)
    (hn : t.bit isa = BitVec.ofNat 64 n) (hsi : s.supvDoubleTrap t = false) (hh : s.hidelegRead.getLsbD n = false)
    (hd : (s.midelegRead ||| s.nonvirtualSipRead).getLsbD n) (he : s.hsEnabled) :
    s.trapLevel t = .hs ∧ s.CanEnter .hs ↔ DeliversSelected s (t.bit isa) .hs := by
  have hv : (t.bit isa).toNat = n := by rw [hn, toNat_ofNat, Nat.mod_eq_of_lt (by omega)]
  rw [interrupt_hs_iff hb hi hn hsi, ne_eq, interrupt_vs_iff hb hi hn hsi, hd, hh]
  simp only [State.CanEnter, DeliversSelected, hsEnabled_below he]
  grind

theorem State.selected_vs_iff (hb : n < 64) (hi : t.interrupt isa)
    (hn : t.bit isa = BitVec.ofNat 64 n) (hs : s.supvDoubleTrap t = false) (hv : s.mode.virt)
    (hg : s.hidelegRead.getLsbD n ∨ s.vsPendingInterrupt.getLsbD n) :
    s.trapLevel t = .vs ∧ s.CanEnter .vs ↔ DeliversSelected s (t.bit isa) .vs := by
  rw [interrupt_vs_iff hb hi hn hs]
  apply and_iff_right
  rcases hg with hg | hin
  · exact .inl ⟨hv, s.hidelegRead_small hg, hg⟩
  · rw [hn]
    exact .inr (vsPendingInterrupt_injects hin)

end

theorem State.enabledInterrupts_cases (s : State isa) {pending : Reg} :
    s.enabledInterrupts pending = (.m, s.mInterrupts pending) ∨
      s.enabledInterrupts pending = (.hs, s.hsInterrupts pending) ∨
      (s.mode.virt ∧ s.enabledInterrupts pending = (.vs, s.vsInterrupts pending)) := by
  unfold enabledInterrupts
  split
  · exact .inl rfl
  split
  · rename_i h
    simp only [Bool.and_eq_true] at h
    exact .inr (.inr ⟨h.1, rfl⟩)
  · exact .inr (.inl rfl)

/-- A thrown interrupt is delivered to the level whose enable test selected it exactly
  under `DeliversSelected`. -/
theorem interrupt_delivered_iff {s : State isa} {t : Trap} {pending epc : Reg}
    (thrown : s.takeInterrupt pending = some t.cause) (single : s.supvDoubleTrap t = false) :
    DeliveredAt s t epc (s.enabledInterrupts pending).1 ↔
      (isa.extSsaia = true → isa.extH = true) ∧ DeliversSelected s (t.bit isa) (s.enabledInterrupts pending).1 := by
  obtain ⟨running, nmie, enabled, cause⟩ := takeInterrupt_thrown thrown
  have bit := select_enabled enabled
  have bound := ctz_lt (selectAnInterruptWithDefaultPriority (s.enabledInterrupts pending).2)
  obtain ⟨flagged, number⟩ := Trap.bit_eq bound cause
  rw [deliveredAt_iff running]
  refine and_congr_right fun _ => ?_
  rcases s.enabledInterrupts_cases with level | level | ⟨virt, level⟩ <;> rw [level] at bit bound number ⊢
  · exact selected_m_iff bound flagged number single nmie (mInterrupts_bit bit)
  · obtain ⟨hideleg, deleg, open'⟩ := hsInterrupts_bit bit
    exact selected_hs_iff bound flagged number single hideleg deleg open'
  · have guest := (getLsbD_enableMask bit).1
    simp only [getLsbD_or, getLsbD_and, Bool.or_eq_true, Bool.and_eq_true] at guest
    exact selected_vs_iff bound flagged number single virt (guest.imp And.right id)

def timerPending : State fullIsa := { clearState .s false with mip := mipStip, mie := mipStip }

theorem timer_delivered_to_m :
    timerPending.takeInterrupt (timerPending.mipRead &&& timerPending.mie) = some 0x8000000000000005 ∧
      DeliveredAt timerPending (plainTrap 0x8000000000000005) 0
        (timerPending.enabledInterrupts (timerPending.mipRead &&& timerPending.mie)).1 := by
  have thrown : timerPending.takeInterrupt (timerPending.mipRead &&& timerPending.mie) =
      some (plainTrap 0x8000000000000005).cause := by decide
  exact ⟨thrown, (interrupt_delivered_iff thrown (by decide)).mpr ⟨by decide, by decide, by decide, by decide⟩⟩

def doublyPending : State fullIsa :=
  { clearState .s false with
    mip := mipSsip, mie := mipSsip, mvien := mipSsip, mvip := mipSsip, mvienMasked := by decide }

theorem undelegated_interrupt_enters_hs :
    doublyPending.takeInterrupt (doublyPending.mipRead &&& doublyPending.mie) = some 0x8000000000000001 ∧
      (doublyPending.enabledInterrupts (doublyPending.mipRead &&& doublyPending.mie)).1 = .m ∧
      doublyPending.hsEnabled = false ∧ doublyPending.supvDoubleTrap (plainTrap 0x8000000000000001) = false ∧
      DeliveredAt doublyPending (plainTrap 0x8000000000000001) 0 .hs ∧
      ¬DeliveredAt doublyPending (plainTrap 0x8000000000000001) 0 .m := by
  refine ⟨by decide, by decide, by decide, by decide, ?_, ?_⟩
  · exact (deliveredAt_iff rfl).mpr ⟨by decide, by decide, by decide, by decide⟩
  · intro machine
    exact absurd ((deliveredAt_iff rfl).mp machine).2.1 (by decide)

end RiscvEmulators.Spike
