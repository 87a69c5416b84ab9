import Riscv.Spike.Mmu.Stages
import Riscv.Spike.Mmu.Protection

namespace RiscvEmulators.Spike.Mmu
open Word Transition BitVec Machine
variable {hw : Hardware}

structure Machine.Rooted (m : Machine hw) : Prop where
  satp : (atpRoot hw.isa.maxXlen m.satp).isSome
  vsatp : (atpRoot hw.isa.maxXlen m.vsatp).isSome
  hgatp : (atpRoot hw.isa.maxXlen m.hgatp).isSome

theorem atpRoot_of_mode {atp : Reg}
    (hm : atp >>> 60 = 0 ∨ atp >>> 60 = 8 ∨ atp >>> 60 = 9 ∨ atp >>> 60 = 10) : (atpRoot .rv64 atp).isSome := by
  have hv : (atp >>> 60).toNat = atp.toNat / 2 ^ 60 := by
    rw [toNat_ushiftRight, Nat.shiftRight_eq_div_pow]
  rw [atpRoot, ← hv]
  rcases hm with hm | hm | hm | hm <;> rw [hm] <;> rfl

theorem atpRoot_congr {atp a' : Reg} (hs : atp >>> 60 = a' >>> 60) :
    (atpRoot .rv64 atp).isSome = (atpRoot .rv64 a').isSome := by
  have hv (x : Reg) : x.toNat / 2 ^ 60 = (x >>> 60).toNat := by
    rw [toNat_ushiftRight, Nat.shiftRight_eq_div_pow]
  rw [atpRoot, atpRoot, hv, hv, hs]
  split <;> rfl

theorem mode64_eq (val : Reg) : getField val satp64Mode = val >>> 60 := by
  apply eq_of_toNat_eq
  rw [mode64_toNat, toNat_ushiftRight, Nat.shiftRight_eq_div_pow]

theorem mode64_congr {x y : Reg} (h : x &&& satp64Mode = y &&& satp64Mode) : x >>> 60 = y >>> 60 := by
  rw [← mode64_eq, ← mode64_eq, getField_congr h]

theorem mode64_and (val : Reg) : satp64Mode >>> 60 &&& val >>> 60 = val >>> 60 := by
  rw [← ushiftRight_and_distrib, BitVec.and_comm,
    ← getField_eq_shift val satp64Mode 60 (by decide) (by decide), mode64_eq]

theorem satpValid_mode {val : Reg} (wide : hw.isa.maxXlen = .rv64) (hv : satpValid hw val) :
    (atpRoot .rv64 val).isSome := by
  apply atpRoot_of_mode
  unfold satpValid at hv
  rw [wide] at hv
  simp only [mode64_eq, Bool.or_eq_true, Bool.and_eq_true, beq_iff_eq] at hv
  rcases hv with ((hz | he) | hn) | ht
  · exact .inl hz
  · exact .inr (.inl he.1)
  · exact .inr (.inr (.inl hn.1))
  · exact .inr (.inr (.inr ht.1))

theorem computeNewSatp_mode (r val : Reg) (wide : hw.isa.maxXlen = .rv64) :
    computeNewSatp hw r val >>> 60 = if satpValid hw val then val >>> 60 else r >>> 60 := by
  have ha : (if hw.mmuAsid then satp64Asid else 0#64) >>> 60 = 0#64 := by split <;> decide
  have hp : (satp64Ppn &&& ppnMask hw.isa) >>> 60 = 0#64 := by
    rw [ushiftRight_and_distrib, show satp64Ppn >>> 60 = 0#64 by decide, zero_and]
  unfold computeNewSatp
  rw [wide]
  cases satpValid hw val <;>
    simp [ushiftRight_or_distrib, ushiftRight_and_distrib, ha, hp, mode64_and]

theorem baseAtp_rooted {r : Reg} (val : Reg) (hr : (atpRoot hw.isa.maxXlen r).isSome) :
    (atpRoot hw.isa.maxXlen (baseAtp hw r val)).isSome := by
  cases wide : hw.isa.maxXlen with
  | rv32 => rfl
  | rv64 =>
    rw [wide] at hr
    unfold baseAtp
    split
    · have hm := computeNewSatp_mode r val wide
      split at hm
      case isTrue hv =>
        rw [atpRoot_congr hm]
        exact satpValid_mode wide hv
      case isFalse =>
        rw [atpRoot_congr hm]
        exact hr
    · rfl

theorem hgatpMask_mode {val : Reg} (wide : hw.isa.maxXlen = .rv64) :
    (Within (hgatpMask hw val) satp64Mode ∧ (atpRoot .rv64 val).isSome) ∨ Within (~~~satp64Mode) (hgatpMask hw val) := by
  have hp : Within (~~~satp64Mode) (hgatp64Ppn &&& ppnMask hw.isa) := by
    rw [BitVec.and_comm]
    exact Within.and_right (by decide) _
  have hv : Within (~~~satp64Mode) (if hw.mmuVmid then hgatp64Vmid else 0) := within_ite fun _ => by decide
  unfold hgatpMask
  rw [wide]
  dsimp only
  by_cases hl : getField val hgatp64Mode = 0 ∨ (39 ≤ hw.maxVaddrBits ∧ getField val hgatp64Mode = 8) ∨
      (48 ≤ hw.maxVaddrBits ∧ getField val hgatp64Mode = 9) ∨ (57 ≤ hw.maxVaddrBits ∧ getField val hgatp64Mode = 10)
  · rw [if_pos hl]
    refine .inl ⟨(within_or_right _ _).inter (by decide), atpRoot_of_mode ?_⟩
    rw [← mode64_eq]
    rcases hl with hz | ⟨-, he⟩ | ⟨-, hn⟩ | ⟨-, ht⟩
    · exact .inl hz
    · exact .inr (.inl he)
    · exact .inr (.inr (.inl hn))
    · exact .inr (.inr (.inr ht))
  · rw [if_neg hl, BitVec.and_comm]
    exact .inr (Within.and_right ((hp.or hv).or (within_zero _)) _)

theorem hgatpWrite_mode {h val : Reg} (hr : (atpRoot hw.isa.maxXlen h).isSome) :
    (atpRoot hw.isa.maxXlen ((h &&& ~~~hgatpMask hw val) ||| (val &&& hgatpMask hw val))).isSome := by
  cases wide : hw.isa.maxXlen with
  | rv32 => rfl
  | rv64 =>
    rw [wide] at hr
    obtain ⟨hc, hv⟩ | apart := hgatpMask_mode wide
    · rw [atpRoot_congr (mode64_congr (masked_and h val hc))]
      exact hv
    · have ho := apart.not
      have hs : ((h &&& ~~~hgatpMask hw val) ||| (val &&& hgatpMask hw val)) &&& satp64Mode = h &&& satp64Mode :=
        (agreeOff_merged h (hgatpMask hw val) val).and_eq ho
      rw [atpRoot_congr (mode64_congr hs)]
      exact hr

section
variable {m m' : Machine hw}

theorem Machine.Rooted.of_same (hr : m.Rooted) (hs : m'.satp = m.satp) (hv : m'.vsatp = m.vsatp)
    (hh : m'.hgatp = m.hgatp) : m'.Rooted :=
  ⟨by rw [hs]; exact hr.satp, by rw [hv]; exact hr.vsatp, by rw [hh]; exact hr.hgatp⟩

theorem maybeFlushTlb_rooted {n r : Reg} {core : State hw.isa} (h : m.Rooted) :
    ({ m.maybeFlushTlb n r with core := core } : Machine hw).Rooted := by
  unfold maybeFlushTlb
  split <;> exact h.of_same rfl rfl rfl

theorem vsstatusWrite_rooted {val : Reg} (h : m.Rooted) : (m.vsstatusWrite val).Rooted := by
  unfold vsstatusWrite
  split
  · exact maybeFlushTlb_rooted h
  · exact h.of_same rfl rfl rfl

theorem sstatusWrite_rooted {val : Reg} (h : m.Rooted) : (m.sstatusWrite val).Rooted := by
  unfold sstatusWrite
  split
  · exact vsstatusWrite_rooted h
  · exact maybeFlushTlb_rooted h

theorem nonvirtualSatpWrite_rooted (val : Reg) (hr : m.Rooted) : (m.nonvirtualSatpWrite val).Rooted := by
  have hl := baseAtp_rooted val hr.satp
  unfold nonvirtualSatpWrite
  dsimp only
  split <;> exact ⟨hl, hr.vsatp, hr.hgatp⟩

theorem vsatpWrite_rooted (val : Reg) (hr : m.Rooted) : (m.vsatpWrite val).Rooted := by
  have hl := baseAtp_rooted val hr.vsatp
  unfold vsatpWrite
  dsimp only
  split <;> exact ⟨hr.satp, hl, hr.hgatp⟩

theorem satpWrite_rooted {val : Reg} (h : m.Rooted) : (m.satpWrite val).Rooted := by
  unfold satpWrite
  dsimp only
  split
  · exact vsatpWrite_rooted _ h
  · exact nonvirtualSatpWrite_rooted _ h

theorem flushOnPmm_rooted {r a senvcfg : Reg} {core : State hw.isa} (h : m.Rooted) :
    ({ m.flushOnPmm r a with core := core, senvcfg := senvcfg } : Machine hw).Rooted := by
  unfold flushOnPmm
  split <;> exact h.of_same rfl rfl rfl

end

section

abbrev KeepsRoots (hw : Hardware) {α : Type} (access : Access hw α) : Prop := Keeps Machine.Rooted access

variable {inf : AccessInfo} {len : Nat} {f : XlateFlags}

theorem translateIn_rooted : KeepsRoots hw (translateIn inf len) := by
  intro m h
  unfold translateIn
  cases translate hw m.regs inf len m.pages <;> exact h.of_same rfl rfl rfl

theorem checkTriggers_rooted {e : Bool} {a : TriggerMatch} : KeepsRoots hw (checkTriggers e a) :=
  checkTriggers_keeps_of fun _ hr => hr.of_same rfl rfl rfl

theorem refillTlb_rooted {va pa ha : Reg} {ty : AccessType} :
    KeepsRoots hw (modifyMachine (·.refillTlb va pa ha ty)) := by
  intro m h
  show (m.refillTlb va pa ha ty).Rooted
  unfold refillTlb
  dsimp only
  split
  · exact h
  · cases ty <;> exact h.of_same rfl rfl rfl

theorem excludeFetches_rooted {pa : Reg} : KeepsRoots hw (modifyMachine (·.excludeFetches pa)) := by
  intro m h
  show (m.excludeFetches pa).Rooted
  unfold excludeFetches
  split <;> exact h.of_same rfl rfl rfl

theorem excludeStores_rooted {pa : Reg} : KeepsRoots hw (modifyMachine (·.excludeStores pa)) := by
  intro m h
  show (m.excludeStores pa).Rooted
  unfold excludeStores
  split <;> exact h.of_same rfl rfl rfl

theorem load_rooted {a : Reg} {fst snd : TriggerMatch} : KeepsRoots hw (load a len f fst snd) :=
  load_keeps_of checkTriggers_rooted splits_any fun _ _ => Keeps.read fun _ _ => Keeps.ite
    (fun _ => (translateIn_rooted).bind fun _ => Keeps.ite (fun _ => Keeps.pure _)
      fun _ => (refillTlb_rooted).bind fun _ => Keeps.pure _) fun _ => Keeps.pure _

theorem storeSlowPath_rooted {ad : Reg} {ast r : Bool} {a : TriggerMatch} :
    KeepsRoots hw (storeSlowPath ad len f ast r a) :=
  storeSlowPath_keeps_of checkTriggers_rooted splits_any fun _ _ => Keeps.read fun _ _ => Keeps.ite
    (fun _ => (translateIn_rooted).bind fun _ => (excludeFetches_rooted).bind fun _ =>
      Keeps.ite (fun _ => Keeps.pure _) fun _ => (refillTlb_rooted).bind fun _ => Keeps.pure _) fun _ => Keeps.pure _

theorem fetchInsnParcel_rooted {va : Reg} {fst snd : TriggerMatch} : KeepsRoots hw (fetchInsnParcel va fst snd) :=
  fetchInsnParcel_keeps_of checkTriggers_rooted (fun _ hr => hr.of_same rfl rfl rfl) fun _ =>
    Keeps.ite (fun _ => Keeps.pure _) fun _ => (translateIn_rooted).bind fun _ =>
      (excludeStores_rooted).bind fun _ => (refillTlb_rooted).bind fun _ => Keeps.pure _

end

theorem effect_rooted {m : Machine hw} {e : Event} (hr : m.Rooted) : (m.effect e).Rooted := by
  cases e with
  | mstatus val => exact maybeFlushTlb_rooted hr
  | sstatus val => exact sstatusWrite_rooted hr
  | vsstatus val => exact vsstatusWrite_rooted hr
  | satp val => exact satpWrite_rooted hr
  | vsatp val => exact vsatpWrite_rooted val hr
  | hgatp val => exact ⟨hr.satp, hr.vsatp, hgatpWrite_mode hr.hgatp⟩
  | mnstatus val => exact hr.of_same rfl rfl rfl
  | dcsr val => exact hr.of_same rfl rfl rfl
  | mseccfg val =>
    show (m.mseccfgWrite val).Rooted
    unfold mseccfgWrite
    split <;> exact hr.of_same rfl rfl rfl
  | menvcfg val => exact flushOnPmm_rooted hr
  | henvcfg val => exact flushOnPmm_rooted hr
  | senvcfg val => exact flushOnPmm_rooted hr
  | pmpaddr idx val =>
    show (m.pmpaddrWrite idx val).Rooted
    unfold pmpaddrWrite
    dsimp only
    split <;> exact hr.of_same rfl rfl rfl
  | pmpcfg reg val =>
    show (m.pmpcfgWrite reg val).Rooted
    unfold pmpcfgWrite
    split <;> exact hr.of_same rfl rfl rfl
  | trap t epc =>
    show (m.takeTrap t epc).Rooted
    unfold takeTrap
    split <;> exact hr.of_same rfl rfl rfl
  | mret =>
    show m.mret.Rooted
    unfold mret
    split <;> exact hr.of_same rfl rfl rfl
  | sret =>
    show m.sret.Rooted
    unfold sret
    split <;> exact hr.of_same rfl rfl rfl
  | mnret =>
    show m.mnret.Rooted
    unfold mnret
    split
    · exact hr
    · split <;> exact hr.of_same rfl rfl rfl
  | dret =>
    show m.dret.Rooted
    unfold dret
    split <;> exact hr.of_same rfl rfl rfl
  | enterDebugMode => exact hr.of_same rfl rfl rfl
  | sfence => exact hr.of_same rfl rfl rfl
  | triggers fetch load store => exact hr.of_same rfl rfl rfl
  | load k ad lg fst snd => exact (load_rooted).finalState hr
  | store k ad lg a => exact (store_keeps_of storeSlowPath_rooted).finalState hr
  | storeProbe k ad lg r => exact (storeSlowPath_rooted).finalState hr
  | fetch pc fst snd => exact (fetchInsnParcel_rooted).finalState hr
  | probe ad type f len => exact (translateIn_rooted).finalState hr
  | stlbPpn ppn => exact hr.of_same rfl rfl rfl
  | itlbPpn ppn => exact hr.of_same rfl rfl rfl
  | tables ram d => exact hr.of_same rfl rfl rfl

theorem step_rooted (m : Machine hw) (e : Event) (h : m.Rooted) : (m.step e).Rooted :=
  (effect_rooted h).of_same rfl rfl rfl

theorem clear_rooted {m : Machine hw} (hs : m.satp = 0) (hv : m.vsatp = 0) (hh : m.hgatp = 0) : m.Rooted := by
  have hb : (atpRoot hw.isa.maxXlen 0).isSome := by
    generalize hw.isa.maxXlen = x
    cases x <;> rfl
  constructor
  · rw [hs]
    exact hb
  · rw [hv]
    exact hb
  · rw [hh]
    exact hb

section

def Extends {xlen : Xlen} (addr : Reg) (va : BitVec xlen.bits) : Prop := addr = va.setWidth 64 ∨ addr = va.signExtend 64

variable {xl : Xlen} {a : Reg} {va : BitVec xl.bits}

theorem extends_toNat (he : Extends a va) :
    a.toNat = va.toNat ∨ 2 ^ (xl.bits - 1) ≤ va.toNat ∧ a.toNat = va.toNat + (2 ^ 64 - 2 ^ xl.bits) := by
  have hb := va.isLt
  have wide : va.toNat < 2 ^ 64 := Nat.lt_of_lt_of_le hb (by cases xl <;> decide)
  rcases he with rfl | rfl
  · left
    rw [toNat_setWidth, Nat.mod_eq_of_lt wide]
  · rw [toNat_signExtend, toNat_setWidth, Nat.mod_eq_of_lt wide]
    cases hs : va.msb with
    | false => left; simp
    | true =>
      right
      refine ⟨?_, by simp⟩
      rw [msb_eq_decide, decide_eq_true_eq] at hs
      exact hs

theorem extends_mod (he : Extends a va) : a.toNat % 2 ^ xl.bits = va.toNat := by
  have hb := va.isLt
  rcases extends_toNat he with hs | ⟨-, hs⟩ <;> rw [hs]
  · exact Nat.mod_eq_of_lt hb
  · cases xl with
    | rv32 =>
      change va.toNat < 2 ^ 32 at hb
      show (va.toNat + (2 ^ 64 - 2 ^ 32)) % 2 ^ 32 = va.toNat
      omega
    | rv64 =>
      show (va.toNat + (2 ^ 64 - 2 ^ 64)) % 2 ^ 64 = va.toNat
      omega

theorem top_bit_iff (he : Extends a va) : a >>> (xl.bits - 1) ≠ 0 ↔ 2 ^ (xl.bits - 1) ≤ va.toNat := by
  have hs : a >>> (xl.bits - 1) = 0 ↔ a.toNat < 2 ^ (xl.bits - 1) := by
    rw [← toNat_inj, toNat_ushiftRight, Nat.shiftRight_eq_div_pow]
    show a.toNat / 2 ^ (xl.bits - 1) = 0 ↔ _
    rw [Nat.div_eq_zero_iff]
    have hp := Nat.two_pow_pos (xl.bits - 1)
    omega
  rw [ne_eq, hs]
  rcases extends_toNat he with same | ⟨hh, same⟩ <;> rw [same] <;> omega

theorem top_quotient_iff {x h count : Nat} (hp : 0 < h) (hb : x < h * count) :
    x / h = count - 1 ↔ h * count - h ≤ x := by
  have below : x / h < count := Nat.div_lt_of_lt_mul hb
  have hr : count - 1 ≤ x / h ↔ (count - 1) * h ≤ x := Nat.le_div_iff_mul_le hp
  rw [Nat.sub_mul, Nat.mul_comm count h] at hr
  omega

theorem canonical_eq (he : Extends a va) {r : Paging.Root} (hp : r.scheme.widened = 0) (hf : r.scheme.width ≤ xl.bits) :
    canonical xl (vmOf r) a = r.scheme.canonical xl.bits va.toNat := by
  let c := r.scheme.width - 1
  have wide : 12 + r.scheme.levels * r.scheme.vpnBits = r.scheme.width := by
    rw [Paging.Scheme.width]
    omega
  have hn : xl.bits ≤ 64 := by cases xl <;> decide
  have whole : 2 ^ xl.bits = 2 ^ c * 2 ^ (xl.bits - c) := by
    rw [← Nat.pow_add]
    congr 1
    omega
  have hh : ((a >>> c) &&& (((1 : Reg) <<< (xl.bits - c)) - 1)).toNat =
      va.toNat / 2 ^ c := by
    rw [toNat_and_low_mask _ (by omega), toNat_ushiftRight, Nat.shiftRight_eq_div_pow,
      ← Nat.mod_mul_right_div_self, ← whole, extends_mod he]
  have hb := va.isLt
  rw [whole] at hb
  have ht := top_quotient_iff (Nat.two_pow_pos _) hb
  rw [← whole] at ht
  have hz : ((a >>> c) &&& (((1 : Reg) <<< (xl.bits - c)) - 1)) = 0 ↔
      va.toNat < 2 ^ c := by
    rw [← toNat_inj, hh]
    show va.toNat / 2 ^ c = 0 ↔ _
    rw [Nat.div_eq_zero_iff]
    have power := Nat.two_pow_pos c
    omega
  have ho : ((a >>> c) &&& (((1 : Reg) <<< (xl.bits - c)) - 1)) =
      ((1 : Reg) <<< (xl.bits - c)) - 1 ↔
      2 ^ xl.bits - 2 ^ c ≤ va.toNat := by
    rw [← toNat_inj, hh, toNat_low_mask (by omega), ht]
  unfold canonical
  dsimp only [vmOf]
  rw [wide, Paging.Scheme.canonical, Bool.eq_iff_iff, Bool.or_eq_true, beq_iff_eq, beq_iff_eq, hz, ho, Bool.or_eq_true,
    decide_eq_true_eq, decide_eq_true_eq]

end

section
variable {hw : Hardware} {rg : Regs} {info : AccessInfo} {first second : Option Paging.Root}
variable {x : Xlen} {va : BitVec hw.isa.maxXlen.bits}

theorem atpRoot_width {atp : Reg} {r : Paging.Root} (h : atpRoot x atp = some (some r)) :
    r.scheme.widened = 0 ∧ r.scheme.width ≤ x.bits := by
  cases x with
  | rv32 =>
    simp only [atpRoot] at h
    split at h <;> cases h
    exact ⟨rfl, Nat.le_refl 32⟩
  | rv64 =>
    simp only [atpRoot] at h
    split at h <;> cases h
    all_goals refine ⟨rfl, ?_⟩
    · exact (by decide : 39 ≤ 64)
    · exact (by decide : 48 ≤ 64)
    · exact (by decide : 57 ≤ 64)

theorem atpRoot_of_mode_zero {atp : Reg}
    (hz : getField atp (match x with | .rv32 => satp32Mode | .rv64 => satp64Mode) = 0) :
    atpRoot x atp = some none := by
  cases x with
  | rv32 =>
    rw [mode32_eq_zero_iff] at hz
    rw [atpRoot, hz]
    rfl
  | rv64 =>
    have hm := mode64_toNat atp
    rw [hz] at hm
    rw [atpRoot, ← hm]
    rfl

theorem svukteFault_eq (upper : Extends info.transformedVaddr va) {r : Paging.Root}
    (hs : atpRoot hw.isa.maxXlen (rg.satp info.effectiveVirt) = some (some r)) :
    svukteFault hw (info.view rg) info.transformedVaddr =
      ((privilegedContext hw rg info first second).ukte && (privilegedContext hw rg info first second).request.user &&
        decide (2 ^ (hw.isa.maxXlen.bits - 1) ≤ va.toNat)) := by
  have hm : getField (info.view rg).satp (match hw.isa.maxXlen with | .rv32 => satp32Mode | .rv64 => satp64Mode) ≠ 0 := by
    intro hz
    have hb := atpRoot_of_mode_zero hz
    rw [show atpRoot hw.isa.maxXlen (info.view rg).satp = some (some r) from hs] at hb
    cases hb
  have ht := top_bit_iff upper
  unfold svukteFault
  rw [Bool.eq_iff_iff, Bool.and_eq_true, Bool.and_eq_true, Bool.and_eq_true, Bool.and_eq_true, Bool.and_eq_true]
  constructor
  · rintro ⟨⟨⟨hu, he⟩, -⟩, hh⟩
    exact ⟨⟨he, hu⟩, decide_eq_true (ht.mp (bne_iff_ne.mp hh))⟩
  · rintro ⟨⟨he, hu⟩, hh⟩
    exact ⟨⟨⟨hu, he⟩, bne_iff_ne.mpr hm⟩, bne_iff_ne.mpr (ht.mpr (of_decide_eq_true hh))⟩

theorem decodeVmInfo_machine (x : Xlen) (g : Bool) (atp : Reg) : decodeVmInfo x g .m atp = some ⟨0, 0, 0, 0⟩ := by
  cases x <;> rfl

theorem zext_toNat {ad : Reg} {va : BitVec x.bits} (he : Extends ad va) : (zext ad x.bits).toNat = va.toNat := by
  have hn : x.bits ≤ 64 := by cases x <;> decide
  have whole : 2 ^ 64 = 2 ^ x.bits * 2 ^ (64 - x.bits) := by rw [← Nat.pow_add, Nat.add_sub_cancel' hn]
  rw [zext, toNat_ushiftRight, toNat_shiftLeft, Nat.shiftRight_eq_div_pow, Nat.shiftLeft_eq, whole,
    Nat.mul_mod_mul_right, Nat.mul_div_cancel _ (Nat.two_pow_pos _), extends_mod he]

theorem walk_simulates (hs : atpRoot hw.isa.maxXlen (rg.satp info.effectiveVirt) = some first)
    (hse : hgatpRoot hw.isa.maxXlen rg.hgatp = some second) (he : Extends info.transformedVaddr va) :
    Simulates (Faithful hw rg) PageStore.tables (faultTrap hw info) (fun p v => p.toNat = v / 2 ^ 12 * 2 ^ 12)
      (walk hw (info.view rg) info.transformedVaddr) ((privilegedContext hw rg info first second).translate va.toNat) := by
  have ha := walkType_access hw rg info first second
  -- Without translation the address itself is taken, at the width of the registers.
  let c := info.view rg
  have hb (none : (privilegedContext hw rg info first second).first = none) (vm : VmInfo) (hl : vm.levels = 0)
      (hd : decodeVmInfo hw.isa.maxXlen false c.prv c.satp = some vm) :
      Simulates (Faithful hw rg) PageStore.tables (faultTrap hw info)
        (fun p v => p.toNat = v / 2 ^ 12 * 2 ^ 12)
        (walk hw c info.transformedVaddr)
        ((privilegedContext hw rg info first second).translate va.toNat) := by
    unfold walk Paging.Context.translate
    rw [hd, none]
    dsimp only
    rw [if_pos hl]
    refine Simulates.ite Iff.rfl (fun _ => Simulates.throw (accessFault_eq hw rg info .store)) fun _ => ?_
    have final := s2xlate_simulates hw rg info first hse false c.walkType
      (zext info.transformedVaddr hw.isa.maxXlen.bits)
    rw [zext_toNat he, ← ha] at final
    exact final.map pageBase fun r v hr => by rw [pageBase_toNat, hr.1]; rfl
  by_cases hm : info.effectivePriv = .m
  · refine hb (if_pos hm) ⟨0, 0, 0, 0⟩ rfl ?_
    have prv : c.prv = .m := hm
    rw [prv, decodeVmInfo_machine]
  · have hd : decodeVmInfo hw.isa.maxXlen false c.prv c.satp =
        some (vmOfRoot (first.map (stageRoot false))) := decodeVmInfo_eq false hm hs
    cases first with
    | none => exact hb (if_neg hm) _ rfl hd
    | some root =>
      obtain ⟨sound, paged⟩ := atpRoot_supported hs
      obtain ⟨hp, hf2⟩ := atpRoot_width hs
      have hd : decodeVmInfo hw.isa.maxXlen false c.prv c.satp = some (vmOf root) :=
        hd
      have base := vmOf_ptbase sound
      have bound := sound.ppn
      have ht : (privilegedContext hw rg info (some root) second).first = some root := if_neg hm
      have hf : pageFault c.virt info.transformedVaddr c.walkType =
          faultTrap hw info (.page (privilegedContext hw rg info (some root) second).original) := by
        rw [pageFault_eq hw, ← ha]
        rfl
      have agrees : info.transformedVaddr.toNat % 2 ^ root.scheme.width = va.toNat % 2 ^ root.scheme.width := by
        rw [← extends_mod he, Nat.mod_mod_of_dvd _ (Nat.pow_dvd_pow 2 hf2)]
      have hl := walkLevels_simulates hw rg info (some root) hse hm sound hp agrees root.scheme.levels
        (Nat.le_refl _) (vmOf root).ptbase (by omega) (by omega)
      rw [base] at hl
      unfold walk Paging.Context.translate
      rw [hd, ht]
      show Simulates _ _ _ _ (if root.scheme.levels = 0 then _ else _) _
      rw [if_neg paged, svukteFault_eq he hs]
      refine Simulates.ite Iff.rfl (fun _ => Simulates.throw hf) fun _ => ?_
      rw [canonical_eq he hp hf2,
        show (privilegedContext hw rg info (some root) second).xlen = hw.isa.maxXlen.bits from rfl]
      cases root.scheme.canonical hw.isa.maxXlen.bits va.toNat with
      | true =>
        exact hl
      | false =>
        exact Simulates.throw hf

theorem decodeVmInfo_ne_none {g : Bool} {prv : Prv} {atp : Reg} (hr : (atpRoot x atp).isSome) :
    decodeVmInfo x g prv atp ≠ none := by
  obtain ⟨root, hs⟩ := Option.isSome_iff_exists.mp hr
  by_cases hm : prv = .m
  · rw [hm, decodeVmInfo_machine]
    exact Option.some_ne_none _
  · rw [decodeVmInfo_eq g hm hs]
    exact Option.some_ne_none _

/-- In every run from clear root registers, `decode_vm_info` never meets a reserved mode, and `walk` with `s2xlate` ends as
  the specification's translation does: at the same page with the same tables, or in the trap that its fault is. -/
theorem walk_conforms (start : Machine hw) (satp : start.satp = 0) (vsatp : start.vsatp = 0) (hgatp : start.hgatp = 0)
    (events : List Event) (info : AccessInfo) (va : BitVec hw.isa.maxXlen.bits)
    (extension : Extends info.transformedVaddr va) (store : PageStore)
    (faithful : Faithful hw (run Machine.step start events).regs store) :
    (∀ virt prv, decodeVmInfo hw.isa.maxXlen false prv ((run Machine.step start events).regs.satp virt) ≠ none) ∧
    decodeVmInfo hw.isa.maxXlen true .u (run Machine.step start events).regs.hgatp ≠ none ∧
    ∃ first second, atpRoot hw.isa.maxXlen ((run Machine.step start events).regs.satp info.effectiveVirt) = some first ∧
      hgatpRoot hw.isa.maxXlen (run Machine.step start events).regs.hgatp = some second ∧
      Agrees (Faithful hw (run Machine.step start events).regs) PageStore.tables (faultTrap hw info)
        (fun page value => page.toNat = value / 2 ^ 12 * 2 ^ 12)
        (walk hw (info.view (run Machine.step start events).regs) info.transformedVaddr store)
        ((privilegedContext hw (run Machine.step start events).regs info first second).translate va.toNat store.tables) := by
  let machine := run Machine.step start events
  have rooted : machine.Rooted := run_invariant step_rooted (clear_rooted satp vsatp hgatp)
  have root (virt : Bool) : (atpRoot hw.isa.maxXlen (machine.regs.satp virt)).isSome := by
    cases virt with
    | false => exact rooted.satp
    | true => exact rooted.vsatp
  obtain ⟨first, found⟩ := Option.isSome_iff_exists.mp (root info.effectiveVirt)
  obtain ⟨guest, decoded⟩ := Option.isSome_iff_exists.mp rooted.hgatp
  have second : hgatpRoot hw.isa.maxXlen machine.regs.hgatp = some (guest.map _) :=
    congrArg (Option.map _) decoded
  exact ⟨fun virt prv => decodeVmInfo_ne_none (root virt), decodeVmInfo_ne_none rooted.hgatp, first, _,
    found, second, walk_simulates found second extension store faithful⟩

end

def pagedRun : Machine maskingHart := run Machine.step clearMachine [.satp 0x8000000000080000]

def gigapageStore : PageStore where
  ram paddr := if paddr = 0x80000008 then 0x200000cf else 0
  device _ := none
  pteCache _ := ⟨BitVec.allOnes 64, BitVec.allOnes 64⟩
  changed := false

def supervisorLoad : AccessInfo := ⟨0x40001234, 0x40001234, .s, false, .none, .load⟩

theorem gigapageStore_faithful : Faithful maskingHart pagedRun.regs gigapageStore := by
  constructor
  · intro pa he hc
    rw [← hc] at he
    change (BitVec.allOnes 64).getLsbD 0 = false at he
    exact absurd he (by decide)
  · intro _ _ _ hn
    cases hn

theorem gigapage_conforms :
    (∃ after, walk maskingHart (supervisorLoad.view pagedRun.regs) 0x40001234 gigapageStore = .ok 0x80001000 after) ∧
    ∃ first second, atpRoot .rv64 (pagedRun.regs.satp false) = some first ∧
      hgatpRoot .rv64 pagedRun.regs.hgatp = some second ∧
      Agrees (Faithful maskingHart pagedRun.regs) PageStore.tables (faultTrap maskingHart supervisorLoad)
        (fun page value => page.toNat = value / 2 ^ 12 * 2 ^ 12)
        (walk maskingHart (supervisorLoad.view pagedRun.regs) 0x40001234 gigapageStore)
        ((privilegedContext maskingHart pagedRun.regs supervisorLoad first second).translate 0x40001234
          gigapageStore.tables) :=
  ⟨⟨_, rfl⟩, (walk_conforms clearMachine rfl rfl rfl [.satp 0x8000000000080000] supervisorLoad (0x40001234 : W64)
      (.inl rfl) gigapageStore gigapageStore_faithful).2.2⟩

end RiscvEmulators.Spike.Mmu
