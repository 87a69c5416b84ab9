import Riscv.Interrupt.Select
import Riscv.Qemu.Aplic.Model
import Riscv.Transition.Run

namespace RiscvEmulators.Qemu.Aplic
open Store Interrupt
section
open BitVec
variable {cfg : Config} (aplic : Aplic cfg)

def pending (irq : Fin cfg.numIrqs) : Bool := (aplic.state irq).getLsbD 0
def enabled (irq : Fin cfg.numIrqs) : Bool := (aplic.state irq).getLsbD 1
def ready (irq : Fin cfg.numIrqs) : Bool := aplic.pending irq && aplic.enabled irq

theorem ready_iff (irq : Fin cfg.numIrqs) : aplic.state irq &&& istateEnpend = istateEnpend ↔ aplic.ready irq := by
  rw [ready, Bool.and_eq_true]
  exact and_three _

theorem setRaw_getLsbD (mk : W32) (irq : Fin cfg.numIrqs) (v : Bool) (j : Fin cfg.numIrqs) (k : Nat) :
    ((aplic.setRaw mk irq v).state j).getLsbD k =
      if j = irq ∧ mk.getLsbD k then v else (aplic.state j).getLsbD k := by
  simp only [setRaw, Cells.change]
  by_cases hs : j = irq
  · have hw : (aplic.state j).getLsbD k → k < 32 := lt_of_getLsbD
    cases v <;> cases set : mk.getLsbD k <;> cases bit : (aplic.state j).getLsbD k <;>
      simp_all
  · rw [if_neg fun he => hs (Fin.ext he), if_neg fun hb => hs hb.1]

section

def priorityOf (irq : Nat) : Nat :=
  if bound : irq < cfg.numIrqs then (aplic.iprio ⟨irq, bound⟩).toNat else 0

structure Offered (idc : Fin cfg.numHarts) (irq : Fin cfg.numIrqs) : Prop where
  positive : irq.val ≠ 0
  ready : aplic.ready irq
  targets : (aplic.targetHartIdx irq).toNat = idc
  above : aplic.ithreshold idc = 0 ∨ aplic.iprio irq < aplic.ithreshold idc

def OfferedNum (idc : Fin cfg.numHarts) (irq : Nat) : Prop :=
  ∃ bound : irq < cfg.numIrqs, aplic.Offered idc ⟨irq, bound⟩

theorem priorityOf_val (irq : Fin cfg.numIrqs) : aplic.priorityOf irq = (aplic.iprio irq).toNat := dif_pos irq.isLt

def Best.Leads (aplic : Aplic cfg) (idc : Fin cfg.numHarts) (n : Nat) (best : Best) : Prop :=
  ∃ irq, Selects (fun i => i < n ∧ aplic.OfferedNum idc i) aplic.priorityOf irq ∧
    (irq = 0 ∧ best = ⟨uint32Max.toNat, uint32Max⟩ ∨
      ∃ bound : irq < cfg.numIrqs, irq ≠ 0 ∧ best = ⟨irq, aplic.iprio ⟨irq, bound⟩⟩)

theorem Config.iprioMask_lt (cfg : Config) : cfg.iprioMask.toNat < 256 := by
  unfold iprioMask
  have bits := cfg.bits
  have hc : cfg.iprioBits = 1 ∨ cfg.iprioBits = 2 ∨ cfg.iprioBits = 3 ∨ cfg.iprioBits = 4 ∨ cfg.iprioBits = 5 ∨
    cfg.iprioBits = 6 ∨ cfg.iprioBits = 7 ∨ cfg.iprioBits = 8 := by omega
  rcases hc with hs | hs | hs | hs | hs | hs | hs | hs <;> rw [hs] <;> decide

theorem iprio_le (irq : Fin cfg.numIrqs) : aplic.iprio irq ≤ cfg.iprioMask := by
  exact Nat.and_le_right

theorem iprio_lt_max (irq : Fin cfg.numIrqs) : aplic.iprio irq < uint32Max := by
  have hs := le_def.mp (aplic.iprio_le irq)
  have hm := cfg.iprioMask_lt
  rw [lt_def]
  show _ < 4294967295
  omega

variable {aplic} in
theorem consider_leads {idc : Fin cfg.numHarts} {best : Best} {irq : Fin cfg.numIrqs} (leads : best.Leads aplic idc irq) :
    (aplic.consider idc (aplic.ithreshold idc) best irq).Leads aplic idc (irq + 1) := by
  obtain ⟨known, selects, found⟩ := leads
  have idle (absent : ¬aplic.Offered idc irq) : best.Leads aplic idc (irq + 1) :=
    ⟨known, selects.skip fun offered => absent offered.2, found⟩
  unfold consider
  split
  · rename_i zero
    exact idle fun offered => offered.positive zero
  rename_i positive
  split
  · rename_i notReady
    exact idle fun offered => notReady ((aplic.ready_iff irq).mpr offered.ready)
  rename_i isReady
  split
  · rename_i elsewhere
    exact idle fun offered => elsewhere offered.targets
  rename_i targets
  split
  · rename_i masked
    refine idle fun offered => ?_
    rcases offered.above with none | less
    · exact masked.1 none
    · exact BitVec.not_le.mpr less masked.2
  rename_i above
  have offered : aplic.Offered idc irq := by
    refine ⟨positive, (aplic.ready_iff irq).mp (Decidable.not_not.mp isReady), Decidable.not_not.mp targets, ?_⟩
    by_cases none : aplic.ithreshold idc = 0
    · exact .inl none
    · exact .inr (BitVec.not_le.mp fun masked => above ⟨none, masked⟩)
  have next := selects.next ⟨irq.isLt, offered⟩ positive
  refine ⟨_, next, ?_⟩
  rcases found with ⟨none, start⟩ | ⟨bound, some, same⟩
  · rw [if_pos (.inl none), start, if_pos (aplic.iprio_lt_max irq)]
    exact .inr ⟨irq.isLt, positive, rfl⟩
  · have less : aplic.iprio irq < best.iprio ↔ known = 0 ∨ aplic.priorityOf irq < aplic.priorityOf known := by
      rw [same, aplic.priorityOf_val, show aplic.priorityOf known = (aplic.iprio ⟨known, bound⟩).toNat from dif_pos bound,
        lt_def]
      simp [some]
    by_cases first : known = 0 ∨ aplic.priorityOf irq < aplic.priorityOf known
    · rw [if_pos first, if_pos (less.mpr first)]
      exact .inr ⟨irq.isLt, positive, rfl⟩
    · rw [if_neg first, if_neg fun lower => first (less.mp lower)]
      exact .inr ⟨bound, some, same⟩

def report (irq : Nat) : W32 :=
  if irq = 0 then 0 else BitVec.ofNat 32 irq <<< 16 ||| BitVec.ofNat 32 (aplic.priorityOf irq)

theorem idcTopi_selects (idc : Fin cfg.numHarts) :
    ∃ irq, Selects (aplic.OfferedNum idc) aplic.priorityOf irq ∧ aplic.idcTopi idc = aplic.report irq ∧
      (irq = 0 ∨ irq < cfg.numIrqs) := by
  have start : Best.Leads aplic idc 0 ⟨uint32Max.toNat, uint32Max⟩ := ⟨0, selects_start, .inl ⟨rfl, rfl⟩⟩
  obtain ⟨irq, hs, hf⟩ := foldl_finRange (fun n b => Best.Leads aplic idc n b) start
    fun irq b hl => consider_leads hl
  refine ⟨irq, hs.finish fun i ho => ho.1, ?_, ?_⟩
  · unfold idcTopi
    rw [dif_pos idc.isLt]
    rcases hf with ⟨hn, same⟩ | ⟨hb, found, same⟩
    · dsimp only
      rw [same, report, if_pos hn, if_neg]
      have few := cfg.irqs
      show ¬(4294967295 < _ ∧ _)
      omega
    · dsimp only
      rw [same, report, if_neg found, if_pos ⟨hb, aplic.iprio_le _⟩, priorityOf, dif_pos hb, ofNat_toNat,
        setWidth_eq]
  · rcases hf with ⟨hn, -⟩ | ⟨hb, -⟩
    · exact .inl hn
    · exact .inr hb

theorem report_decodes {irq : Nat} (hb : irq < cfg.numIrqs) (hs : irq ≠ 0) :
    (aplic.report irq >>> 16 &&& 0x3ff).toNat = irq := by
  have hf := cfg.irqs.2
  have hp : aplic.priorityOf irq < 65536 := by
    have small := le_def.mp (aplic.iprio_le ⟨irq, hb⟩)
    have hm := cfg.iprioMask_lt
    rw [priorityOf, dif_pos hb]
    omega
  rw [report, if_neg hs, toNat_and, high_half (by omega) hp]
  show irq &&& 2 ^ 10 - 1 = irq
  rw [Nat.and_two_pow_sub_one_eq_mod]
  omega

theorem report_ne_zero {irq : Nat} (hb : irq < cfg.numIrqs) : aplic.report irq ≠ 0 ↔ irq ≠ 0 := by
  constructor
  · intro hs hn
    exact hs (if_pos hn)
  · intro source hz
    have hd := aplic.report_decodes hb source
    rw [hz] at hd
    exact source hd.symm

theorem idcTopi_ne_zero (idc : Fin cfg.numHarts) : aplic.idcTopi idc ≠ 0 ↔ ∃ irq, aplic.Offered idc irq := by
  obtain ⟨irq, hs, shown, hb⟩ := aplic.idcTopi_selects idc
  have ho : irq ≠ 0 ↔ ∃ irq, aplic.Offered idc irq := by
    rw [hs.ne_zero_iff]
    exact ⟨fun ⟨i, hb, ho⟩ => ⟨⟨i, hb⟩, ho⟩, fun ⟨i, ho⟩ => ⟨i, i.isLt, ho⟩⟩
  rw [shown, ← ho]
  rcases hb with hn | hb
  · rw [hn]
    exact iff_of_false (not_not_intro rfl) (not_not_intro rfl)
  · exact aplic.report_ne_zero hb

end

end

open Transition
variable {cfg : Config} {aplic next last : Aplic cfg} {idc : Fin cfg.numHarts}

def Due (aplic : Aplic cfg) (idc : Fin cfg.numHarts) : Prop :=
  aplic.ie ∧ aplic.idelivery idc ≠ 0 ∧ (aplic.iforce idc ≠ 0 ∨ ∃ irq, aplic.Offered idc irq)

def Lined (aplic : Aplic cfg) (idc : Fin cfg.numHarts) : Prop := aplic.externalIrqs idc = true ↔ aplic.Due idc

structure Wf (aplic : Aplic cfg) : Prop where
  quiet : ∀ irq : Fin cfg.numIrqs, aplic.sourceActive irq = false → aplic.pending irq = false ∧ aplic.enabled irq = false
  idelivery : ∀ idc, aplic.idelivery idc = 0 ∨ aplic.idelivery idc = 1
  iforce : ∀ idc, aplic.iforce idc = 0 ∨ aplic.iforce idc = 1

structure Settled (aplic : Aplic cfg) : Prop where
  wf : aplic.Wf
  lines : cfg.msimode = false → ∀ idc, aplic.Lined idc
  sent : cfg.msimode → aplic.ie → ∀ irq, aplic.ready irq = false

structure Unaffected (idc : Fin cfg.numHarts) (aplic next : Aplic cfg) : Prop where
  ie : next.ie = aplic.ie
  idelivery : next.idelivery idc = aplic.idelivery idc
  iforce : next.iforce idc = aplic.iforce idc
  offered : ∀ irq, next.Offered idc irq ↔ aplic.Offered idc irq
  line : next.externalIrqs idc = aplic.externalIrqs idc

theorem Unaffected.trans (hf : Unaffected idc aplic next) (hs : Unaffected idc next last) :
    Unaffected idc aplic last where
  ie := hs.ie.trans hf.ie
  idelivery := hs.idelivery.trans hf.idelivery
  iforce := hs.iforce.trans hf.iforce
  offered irq := (hs.offered irq).trans (hf.offered irq)
  line := hs.line.trans hf.line

theorem Unaffected.lined (h : Unaffected idc aplic next) (lined : aplic.Lined idc) : next.Lined idc := by
  rw [Lined, Due, h.line, h.ie, h.idelivery, h.iforce, exists_congr h.offered]
  exact lined

theorem offered_congr {irq : Fin cfg.numIrqs} (hr : next.ready irq = aplic.ready irq)
    (target : next.target irq = aplic.target irq) (ht : next.ithreshold idc = aplic.ithreshold idc) :
    next.Offered idc irq ↔ aplic.Offered idc irq := by
  have hart : next.targetHartIdx irq = aplic.targetHartIdx irq := by rw [targetHartIdx, target, targetHartIdx]
  have prio : next.iprio irq = aplic.iprio irq := by rw [iprio, target, iprio]
  constructor
  · rintro ⟨hp, hw, hh, ha⟩
    rw [ht, prio] at ha
    exact ⟨hp, hr ▸ hw, hart ▸ hh, ha⟩
  · rintro ⟨hp, hw, hh, ha⟩
    rw [← ht, ← prio] at ha
    exact ⟨hp, hr.symm ▸ hw, hart.symm ▸ hh, ha⟩

section
variable {m : W32} {irq : Fin cfg.numIrqs} {v : Bool}

theorem Wf.setRaw (wf : aplic.Wf) (ha : v → aplic.sourceActive irq) : (aplic.setRaw m irq v).Wf := by
  refine ⟨fun j hi => ?_, wf.idelivery, wf.iforce⟩
  obtain ⟨idle, hd⟩ := wf.quiet j hi
  have hb (k : Nat) (hc : (aplic.state j).getLsbD k = false) : ((aplic.setRaw m irq v).state j).getLsbD k = false := by
    rw [aplic.setRaw_getLsbD]
    split
    · rename_i hh
      cases v with
      | false => rfl
      | true =>
        rw [← hh.1] at ha
        exact nomatch (ha rfl).symm.trans hi
    · exact hc
  exact ⟨hb 0 idle, hb 1 hd⟩

theorem setInput_ready (irq j : Fin cfg.numIrqs) (v : Bool) : (aplic.setRaw istateInput irq v).ready j = aplic.ready j ∧
    (aplic.setRaw istateInput irq v).pending j = aplic.pending j ∧
    (aplic.setRaw istateInput irq v).enabled j = aplic.enabled j := by
  let c := aplic.setRaw istateInput irq v
  have bit (k : Fin 2) : (c.state j).getLsbD k = (aplic.state j).getLsbD k := by
    rw [aplic.setRaw_getLsbD, if_neg]
    have hc : ∀ k : Fin 2, istateInput.getLsbD k = false := by decide
    rw [hc k]
    exact fun hb => nomatch hb.2
  have hp : c.pending j = aplic.pending j := bit 0
  have he : c.enabled j = aplic.enabled j := bit 1
  exact ⟨by rw [ready, ready, hp, he], hp, he⟩

theorem setRaw_ready_other {j : Fin cfg.numIrqs} (h : j ≠ irq) : (aplic.setRaw m irq v).ready j = aplic.ready j := by
  simp only [ready, pending, enabled, aplic.setRaw_getLsbD, h, false_and, if_false]

theorem Wf.setInput (wf : aplic.Wf) (irq : Fin cfg.numIrqs) (v : Bool) : (aplic.setRaw istateInput irq v).Wf := by
  refine ⟨fun j hi => ?_, wf.idelivery, wf.iforce⟩
  obtain ⟨-, hp, he⟩ := aplic.setInput_ready irq j v
  rw [hp, he]
  exact wf.quiet j hi

theorem setRaw_unaffected (he : (aplic.targetHartIdx irq).toNat ≠ idc)
    : Unaffected idc aplic (aplic.setRaw m irq v) := by
  refine ⟨rfl, rfl, rfl, fun j => ?_, rfl⟩
  by_cases hs : j = irq
  · subst hs
    exact iff_of_false (fun ho => he ho.targets) fun ho => he ho.targets
  · exact offered_congr (setRaw_ready_other hs) rfl rfl

theorem setInput_unaffected {irq : Fin cfg.numIrqs} {v : Bool} :
    Unaffected idc aplic (aplic.setRaw istateInput irq v) :=
  ⟨rfl, rfl, rfl, fun j => offered_congr (aplic.setInput_ready irq j v).1 rfl rfl, rfl⟩

theorem Wf.idcUpdate (wf : aplic.Wf) (idc : Nat) : (aplic.idcUpdate idc).Wf := by
  unfold Aplic.idcUpdate
  split
  · split
    · exact wf
    · exact ⟨wf.quiet, wf.idelivery, wf.iforce⟩
  · exact wf

theorem idcUpdate_lined (hd : cfg.msimode = false) {idc : Fin cfg.numHarts} : (aplic.idcUpdate idc).Lined idc := by
  have hs : aplic.idcUpdate idc = { aplic with
      externalIrqs := aplic.externalIrqs.change idc fun _ => aplic.ie && decide (aplic.idelivery idc ≠ 0) &&
        (decide (aplic.iforce idc ≠ 0) || decide (aplic.idcTopi idc ≠ 0)) } := by
    rw [idcUpdate, dif_pos idc.isLt, hd]
    rfl
  have ho (irq : Fin cfg.numIrqs) : (aplic.idcUpdate idc).Offered idc irq ↔ aplic.Offered idc irq := by
    rw [hs]
    exact offered_congr rfl rfl rfl
  rw [Lined, Due, exists_congr ho, hs]
  simp only [Cells.change_same, Bool.and_eq_true, Bool.or_eq_true, decide_eq_true_iff, aplic.idcTopi_ne_zero, and_assoc]
  exact Iff.rfl

theorem idcUpdate_unaffected {u : Nat} (h : idc.val ≠ u) : Unaffected idc aplic (aplic.idcUpdate u) := by
  unfold idcUpdate
  split
  · split
    · exact ⟨rfl, rfl, rfl, fun _ => Iff.rfl, rfl⟩
    · exact ⟨rfl, rfl, rfl, fun _ => offered_congr rfl rfl rfl, if_neg h⟩
  · exact ⟨rfl, rfl, rfl, fun _ => Iff.rfl, rfl⟩

theorem idcUpdate_settled (hd : cfg.msimode = false) (wf : aplic.Wf) {u : Nat}
    (ho : ∀ idc : Fin cfg.numHarts, idc.val ≠ u → aplic.Lined idc) : (aplic.idcUpdate u).Settled := by
  refine ⟨wf.idcUpdate u, fun _ idc => ?_, fun hm => ?_⟩
  · by_cases hs : idc.val = u
    · subst hs
      exact idcUpdate_lined hd
    · exact (idcUpdate_unaffected hs).lined (ho idc hs)
  · rw [hd] at hm
    cases hm

theorem msiIrqUpdate_spec {irq : Fin cfg.numIrqs} (wf : aplic.Wf) :
    (aplic.msiIrqUpdate irq).Wf ∧ (aplic.msiIrqUpdate irq).ie = aplic.ie ∧
      (cfg.msimode → aplic.ie → (aplic.msiIrqUpdate irq).ready irq = false) ∧
      ∀ j, j ≠ irq → (aplic.msiIrqUpdate irq).ready j = aplic.ready j := by
  unfold msiIrqUpdate
  rw [dif_pos irq.isLt]
  dsimp only
  split
  · rename_i off
    refine ⟨wf, rfl, fun msi ie => ?_, fun _ _ => rfl⟩
    rw [msi, ie] at off
    simp at off
  split
  · rename_i idle
    exact ⟨wf, rfl, fun _ _ => Bool.eq_false_iff.mpr fun ready => idle ((aplic.ready_iff irq).mpr ready), fun _ _ => rfl⟩
  · have cleared : (aplic.setPendingRaw irq false).Wf := wf.setRaw nofun
    refine ⟨⟨cleared.quiet, cleared.idelivery, cleared.iforce⟩, rfl, fun _ _ => ?_, fun j other => ?_⟩
    · have pending : (aplic.setPendingRaw irq false).pending irq = false := by
        rw [pending, setPendingRaw, aplic.setRaw_getLsbD, if_pos ⟨rfl, rfl⟩]
      exact (congrArg (· && _) pending).trans (Bool.false_and _)
    · exact setRaw_ready_other other

end

theorem Wf.setPending (wf : aplic.Wf) (irq : Nat) (p : Bool) : (aplic.setPending irq p).Wf := by
  unfold Aplic.setPending
  by_cases hb : irq < cfg.numIrqs
  · rw [dif_pos hb]
    by_cases hi : aplic.sourceActive irq = false
    · rw [if_pos hi]
      exact wf
    · have hs : (aplic.setPendingRaw ⟨irq, hb⟩ p).Wf := wf.setRaw fun _ => Bool.not_eq_false _ ▸ hi
      rw [if_neg hi]
      split
      · split
        · exact wf
        split
        · exact hs
        split
        · exact wf
        split
        · exact wf
        · exact hs
      · exact hs
  · rw [dif_neg hb]
    exact wf

theorem Wf.setEnabled (wf : aplic.Wf) (irq : Nat) (e : Bool) : (aplic.setEnabled irq e).Wf := by
  unfold Aplic.setEnabled
  split
  · split
    · exact wf
    · rename_i h
      exact wf.setRaw fun _ => Bool.not_eq_false _ ▸ h
  · exact wf

theorem Wf.forWord (wf : aplic.Wf) {f : Aplic cfg → Nat → Aplic cfg}
    (keeps : ∀ aplic : Aplic cfg, aplic.Wf → ∀ irq, (f aplic irq).Wf) (w : Nat) (va : W32) :
    (aplic.forWord f w va).Wf := by
  refine List.foldlRecOn _ _ wf fun now hk i _ => ?_
  dsimp only
  split
  · exact hk
  split
  · exact keeps now hk _
  · exact hk

theorem mode_ne_zero {va stored : W32}
    (hm : (if va &&& sourcecfgD ≠ 0 then va &&& (sourcecfgD ||| sourcecfgChildidxMask)
      else va &&& (sourcecfgD ||| sourcecfgSmMask)) = stored)
    (ho : stored &&& sourcecfgD = 0) (hs : stored ≠ 0) : stored &&& sourcecfgSmMask ≠ smInactive := by
  intro hi
  by_cases hd : va &&& sourcecfgD ≠ 0
  · rw [if_pos hd] at hm
    rw [← hm, BitVec.and_assoc] at ho
    exact hd ho
  · rw [if_neg hd] at hm
    have ht : stored &&& (sourcecfgD ||| sourcecfgSmMask) = stored := by
      rw [← hm, BitVec.and_assoc, BitVec.and_self]
    have hp : stored &&& (sourcecfgD ||| sourcecfgSmMask) = stored &&& sourcecfgD ||| stored &&& sourcecfgSmMask := by
      apply BitVec.eq_of_getLsbD_eq
      simp [Bool.and_or_distrib_left]
    rw [ht, ho, hi] at hp
    exact hs hp

theorem Wf.writeSourcecfg (wf : aplic.Wf) {irq : Fin cfg.numIrqs} (hp : irq.val ≠ 0) (va : W32) :
    (aplic.writeSourcecfg irq va).Wf := by
  unfold Aplic.writeSourcecfg
  dsimp only
  generalize hr : (if cfg.numChildren = 0 ∧ va &&& sourcecfgD ≠ 0 then (0 : W32) else va) = ke
  generalize stored : (if ke &&& sourcecfgD ≠ 0 then ke &&& (sourcecfgD ||| sourcecfgChildidxMask)
    else ke &&& (sourcecfgD ||| sourcecfgSmMask)) = md
  have ho (j : Fin cfg.numIrqs) (apart : j ≠ irq) :
      { aplic with sourcecfg := aplic.sourcecfg.change irq fun _ => md }.sourceActive j = aplic.sourceActive j := by
    simp [sourceActive, Cells.change_other _ _ fun hs => apart (Fin.ext hs)]
  split
  · -- the source is not active any more, and is cleared
    refine ⟨fun j hi => ?_, wf.idelivery, wf.iforce⟩
    have hb (k : Fin 2) : (((({ aplic with sourcecfg := aplic.sourcecfg.change irq fun _ => md } : Aplic cfg).setPendingRaw
        irq false).setEnabledRaw irq false).state j).getLsbD k = if j = irq then false else (aplic.state j).getLsbD k := by
      have bits : ∀ k : Fin 2, istatePending.getLsbD k ∨ istateEnabled.getLsbD k := by decide
      rw [setEnabledRaw, setRaw_getLsbD, setPendingRaw, setRaw_getLsbD]
      by_cases hs : j = irq
      · rcases bits k with hh | hh <;> simp [hs, hh]
      · simp [hs]
    by_cases hs : j = irq
    · exact ⟨(hb 0).trans (if_pos hs), (hb 1).trans (if_pos hs)⟩
    · obtain ⟨idle, hd⟩ := wf.quiet j ((ho j hs).symm.trans hi)
      exact ⟨(hb 0).trans ((if_neg hs).trans idle), (hb 1).trans ((if_neg hs).trans hd)⟩
  rename_i hc
  obtain ⟨hn, hso⟩ := not_or.mp hc
  have own : md &&& sourcecfgD = 0 := Decidable.not_not.mp hn
  have ha : { aplic with sourcecfg := aplic.sourcecfg.change irq fun _ => md }.sourceActive irq := by
    unfold sourceActive
    rw [dif_pos ⟨hp, irq.isLt⟩]
    simp only [Cells.change_same]
    rw [if_neg hn, decide_eq_true_iff]
    exact mode_ne_zero stored own hso
  have ke : Wf { aplic with
      sourcecfg := aplic.sourcecfg.change irq fun _ => md } := by
    refine ⟨fun j hi => ?_, wf.idelivery, wf.iforce⟩
    have apart : j ≠ irq := by
      rintro rfl
      exact nomatch ha.symm.trans hi
    exact wf.quiet j ((ho j apart).symm.trans hi)
  split
  · exact ke.setRaw fun _ => ha
  · exact ke

def Prepared (aplic : Aplic cfg) (result : Option (Aplic cfg × Option (Fin cfg.numHarts))) : Prop :=
  ∀ next written, result = some (next, written) →
    next.Wf ∧ ∀ updated ∈ written, ∀ idc, idc ≠ updated → Unaffected idc aplic next

theorem Prepared.refused : aplic.Prepared none := nofun

theorem Prepared.general (h : next.Wf) : aplic.Prepared (some (next, none)) := by
  rintro _ _ ⟨⟩
  exact ⟨h, nofun⟩

theorem Prepared.own (hk : next.Wf) (ho : ∀ j, j ≠ idc → Unaffected j aplic next) :
    aplic.Prepared (some (next, some idc)) := by
  rintro _ _ ⟨⟩
  refine ⟨hk, ?_⟩
  rintro _ ⟨⟩ j other
  exact ho j other

theorem change_bit {n : Nat} {c : Cells n W32} (hb : ∀ i, c i = 0 ∨ c i = 1) (at_ : Nat)
    {va : W32} (bit : va = 0 ∨ va = 1) (i : Fin n) :
    c.change at_ (fun _ => va) i = 0 ∨ c.change at_ (fun _ => va) i = 1 := by
  unfold Cells.change
  split
  · exact bit
  · exact hb i

theorem writeReg_prepared (wf : aplic.Wf) (a : Nat) (va : W32) : aplic.Prepared (aplic.writeReg a va) := by
  -- the registers of one hart
  have hd (idc : Nat) (hb : idc < cfg.numHarts) : aplic.Prepared (some ({ aplic with
      idelivery := aplic.idelivery.change idc fun _ => va &&& 1 }, some ⟨idc, hb⟩)) :=
    .own ⟨wf.quiet, change_bit wf.idelivery idc (and_one va), wf.iforce⟩ fun j other =>
      ⟨rfl, if_neg fun hs => other (Fin.ext hs), rfl, fun _ => offered_congr rfl rfl rfl, rfl⟩
  have hf (idc : Nat) (hb : idc < cfg.numHarts) : aplic.Prepared (some ({ aplic with
      iforce := aplic.iforce.change idc fun _ => va &&& 1 }, some ⟨idc, hb⟩)) :=
    .own ⟨wf.quiet, wf.idelivery, change_bit wf.iforce idc (and_one va)⟩ fun j other =>
      ⟨rfl, rfl, if_neg fun hs => other (Fin.ext hs), fun _ => offered_congr rfl rfl rfl, rfl⟩
  have ht (idc : Nat) (hb : idc < cfg.numHarts) : aplic.Prepared (some ({ aplic with
      ithreshold := aplic.ithreshold.change idc fun _ => va &&& cfg.iprioMask }, some ⟨idc, hb⟩)) :=
    .own ⟨wf.quiet, wf.idelivery, wf.iforce⟩ fun j other =>
      ⟨rfl, rfl, rfl, fun _ => offered_congr rfl rfl (if_neg fun hs => other (Fin.ext hs)), rfl⟩
  unfold writeReg
  refine of_ite .refused (of_ite (.general ⟨wf.quiet, wf.idelivery, wf.iforce⟩) ?_)
  refine of_dite (fun _ => .general (wf.writeSourcecfg (Nat.succ_ne_zero _) va)) ?_
  -- the addresses for messages
  iterate 4
    refine of_ite (.general (of_ite ⟨wf.quiet, wf.idelivery, wf.iforce⟩ wf)) ?_
  -- the words and the numbers of pending sources
  refine of_ite (.general (wf.forWord (fun now hk irq => hk.setPending irq true) _ va)) ?_
  apply of_ite (.general (wf.setPending _ true))
  refine of_ite (.general (wf.forWord (fun now hk irq => hk.setPending irq false) _ va)) ?_
  apply of_ite (.general (wf.setPending _ false))
  -- and of enabled ones
  refine of_ite (.general (wf.forWord (fun now hk irq => hk.setEnabled irq true) _ va)) ?_
  apply of_ite (.general (wf.setEnabled _ true))
  refine of_ite (.general (wf.forWord (fun now hk irq => hk.setEnabled irq false) _ va)) ?_
  apply of_ite (.general (wf.setEnabled _ false))
  refine of_ite (.general (wf.setPending _ true)) (of_ite (.general (wf.setPending _ true)) ?_)
  refine of_ite (.general (of_ite ⟨wf.quiet, wf.idelivery, wf.iforce⟩ wf)) ?_
  refine of_dite (fun _ => of_ite (.general ⟨wf.quiet, wf.idelivery, wf.iforce⟩) .refused) (of_dite (fun _ => ?_) .refused)
  exact of_ite (hd _ _) (of_ite (hf _ _) (of_ite (ht _ _) .refused))

theorem sendRound_spec (hm : cfg.msimode) {irq : Fin cfg.numIrqs} (wf : aplic.Wf) :
    let next := if irq.val = 0 then aplic else aplic.msiIrqUpdate irq
    next.Wf ∧ (next.ie → next.ready irq = false) ∧
      ∀ j, j ≠ irq → (aplic.ie → aplic.ready j = false) → next.ie → next.ready j = false := by
  dsimp only
  by_cases hz : irq.val = 0
  · rw [if_pos hz]
    refine ⟨wf, fun _ => ?_, fun _ _ hh => hh⟩
    have hi : aplic.sourceActive irq = false := dif_neg fun hb => hb.1 hz
    rw [ready, (wf.quiet irq hi).1, Bool.false_and]
  · rw [if_neg hz]
    obtain ⟨hk, hs, sent, hr⟩ := msiIrqUpdate_spec wf
    rw [hs]
    refine ⟨hk, sent hm, fun j ho hh ie => ?_⟩
    rw [hr j ho]
    exact hh ie

theorem refresh_settled (wf : aplic.Wf) {w : Option (Fin cfg.numHarts)}
    (others : cfg.msimode = false → ∀ u ∈ w, ∀ idc, idc ≠ u → aplic.Lined idc) : (aplic.refresh w).Settled := by
  cases hm : cfg.msimode with
  | true =>
    obtain ⟨hf, sent⟩ := foldl_establish
      (fun (now : Aplic cfg) (irq : Fin cfg.numIrqs) => if irq.val = 0 then now else now.msiIrqUpdate irq)
      (fun irq now => now.ie → now.ready irq = false) (fun irq now hk => sendRound_spec hm hk)
      (List.finRange cfg.numIrqs) wf
    unfold refresh
    rw [if_pos hm]
    refine ⟨hf, fun hd => ?_, fun _ ie irq => sent irq (List.mem_finRange irq) ie⟩
    rw [hm] at hd
    cases hd
  | false =>
    cases w with
    | some u =>
      rw [refresh, hm]
      exact idcUpdate_settled hm wf fun idc ho =>
        others hm u rfl idc fun hs => ho (congrArg Fin.val hs)
    | none =>
      obtain ⟨hf, hl⟩ := foldl_establish (fun (now : Aplic cfg) (idc : Fin cfg.numHarts) => now.idcUpdate idc)
        (fun idc now => now.Lined idc)
        (fun idc now hk => ⟨hk.idcUpdate idc, idcUpdate_lined hm, fun j ho hh =>
          (idcUpdate_unaffected fun hs => ho (Fin.ext hs)).lined hh⟩) (List.finRange cfg.numHarts) wf
      rw [refresh, hm]
      refine ⟨hf, fun _ idc => hl idc (List.mem_finRange idc), fun msi => ?_⟩
      rw [hm] at msi
      cases msi

theorem Settled.write (hs : aplic.Settled) (a : Nat) (va : W32) : (aplic.write a va).Settled := by
  have hp := writeReg_prepared hs.wf a va
  unfold Aplic.write
  split
  · rename_i next w ha
    obtain ⟨wf, ho⟩ := hp next w ha
    exact refresh_settled wf fun hd u hm idc other =>
      (ho u hm idc other).lined (hs.lines hd idc)
  · exact hs

def Answered (result : Option (W32 × Aplic cfg)) : Prop := ∃ value next, result = some (value, next) ∧ next.Settled

theorem Settled.idcClaimi (hs : aplic.Settled) (hd : cfg.msimode = false) (idc : Fin cfg.numHarts) :
    Answered (aplic.idcClaimi idc) := by
  have hl := hs.lines hd
  unfold Aplic.idcClaimi
  by_cases hn : aplic.idcTopi idc = 0
  · have hk : Wf { aplic with
        iforce := aplic.iforce.change idc fun _ => 0 } :=
      ⟨hs.wf.quiet, hs.wf.idelivery, change_bit hs.wf.iforce _ (.inl rfl)⟩
    rw [if_pos hn]
    refine ⟨_, _, rfl, idcUpdate_settled hd hk fun j ho => ?_⟩
    have same : Unaffected j aplic { aplic with
        iforce := aplic.iforce.change idc fun _ => 0 } :=
      ⟨rfl, rfl, if_neg ho, fun _ => offered_congr rfl rfl rfl, rfl⟩
    exact same.lined (hl j)
  · obtain ⟨irq, picks, shown, -⟩ := aplic.idcTopi_selects idc
    have hf : irq ≠ 0 := fun hz => hn (shown.trans (if_pos hz))
    obtain ⟨hb, offered⟩ := (picks.foremost hf).waits
    have decodes : (aplic.idcTopi idc >>> 16 &&& 0x3ff).toNat = irq := by
      rw [shown]
      exact aplic.report_decodes hb hf
    have hp : (aplic.idcTopi idc >>> 16 &&& 0x3ff).toNat < cfg.numIrqs := decodes ▸ hb
    have hh : (⟨(aplic.idcTopi idc >>> 16 &&& 0x3ff).toNat, hp⟩ : Fin cfg.numIrqs) = ⟨irq, hb⟩ := Fin.ext decodes
    have active : aplic.sourceActive irq := by
      cases hi : aplic.sourceActive irq with
      | true => rfl
      | false =>
        have idle : aplic.ready ⟨irq, hb⟩ = false := by
          rw [ready, (hs.wf.quiet ⟨irq, hb⟩ hi).1, Bool.false_and]
        exact absurd (idle.symm.trans offered.ready) Bool.false_ne_true
    have cleared : (aplic.setPendingRaw ⟨irq, hb⟩ false).Wf := hs.wf.setRaw fun h => absurd h Bool.false_ne_true
    have agrees : ((aplic.setPendingRaw ⟨irq, hb⟩ false).setPendingRaw ⟨irq, hb⟩ true).Wf :=
      cleared.setRaw fun _ => active
    have apart {j : Fin cfg.numHarts} (ho : j.val ≠ idc) : (aplic.targetHartIdx ⟨irq, hb⟩).toNat ≠ j :=
      fun same => ho (same.symm.trans offered.targets)
    have hc (j : Fin cfg.numHarts) (ho : j.val ≠ idc) : (aplic.setPendingRaw ⟨irq, hb⟩ false).Lined j :=
      (setRaw_unaffected (apart ho)).lined (hl j)
    have ha (j : Fin cfg.numHarts) (ho : j.val ≠ idc) :
        ((aplic.setPendingRaw ⟨irq, hb⟩ false).setPendingRaw ⟨irq, hb⟩ true).Lined j :=
      Unaffected.lined (setRaw_unaffected (apart ho)) (hc j ho)
    rw [if_neg hn, dif_pos hp, hh]
    refine ⟨_, _, rfl, ?_⟩
    split
    · exact idcUpdate_settled hd agrees ha
    split
    · exact idcUpdate_settled hd agrees ha
    · exact idcUpdate_settled hd cleared hc

theorem Settled.read (settled : aplic.Settled) (a : Nat) : Answered (aplic.read a) := by
  have hs (va : W32) : Answered (some (va, aplic)) := ⟨va, aplic, rfl, settled⟩
  unfold Aplic.read
  refine of_ite (hs _) (of_ite (hs _) (of_dite (fun _ => hs _) ?_))
  iterate 8
    apply of_ite (hs _)
  refine of_dite (fun _ => hs _) (of_dite (fun hb => ?_) (hs _))
  iterate 4
    apply of_ite (hs _)
  exact of_ite (settled.idcClaimi hb.1 _) (hs _)

theorem becomesPending_active {irq : Fin cfg.numIrqs} {l : Int} (hp : 0 < irq.val)
    (ho : aplic.sourcecfg irq &&& sourcecfgD = 0) (hb : aplic.becomesPending irq l) : aplic.sourceActive irq := by
  have hm : aplic.sm irq ≠ smInactive := by
    intro hi
    rw [becomesPending, hi] at hb
    cases hb
  rw [sourceActive, dif_pos ⟨Nat.ne_of_gt hp, irq.isLt⟩]
  rw [if_neg (not_not_intro ho), decide_eq_true_iff]
  exact hm

theorem Settled.requestHere (hs : aplic.Settled) {irq : Fin cfg.numIrqs} (hp : 0 < irq.val)
    (own : aplic.sourcecfg irq &&& sourcecfgD = 0) (l : Int) : (aplic.requestHere irq l).Settled := by
  unfold Aplic.requestHere
  cases hb : aplic.becomesPending irq l with
  | false =>
    refine ⟨hs.wf.setInput irq _, fun hd idc => ?_, fun msi ie j => ?_⟩
    · exact setInput_unaffected.lined (hs.lines hd idc)
    · exact (aplic.setInput_ready irq j _).1.trans (hs.sent msi ie j)
  | true =>
    have ha := becomesPending_active hp own hb
    have hp2 : (aplic.setPendingRaw irq true).Wf := hs.wf.setRaw fun _ => ha
    have wf := hp2.setInput irq (decide (0 < l))
    rw [if_pos rfl, if_pos rfl]
    cases hm : cfg.msimode with
    | true =>
      rw [if_pos rfl]
      obtain ⟨hf, same, sent, hr⟩ := msiIrqUpdate_spec wf
      refine ⟨hf, (fun hd => nomatch hm.symm.trans hd), fun _ ie j => ?_⟩
      rw [same] at ie
      by_cases hh : j = irq
      · rw [hh]
        exact sent hm ie
      · rw [hr j hh, (setInput_ready irq j _).1, setPendingRaw, setRaw_ready_other hh]
        exact hs.sent hm ie j
    | false =>
      refine idcUpdate_settled hm wf fun idc ho => ?_
      have raised : Unaffected idc aplic (aplic.setPendingRaw irq true) := setRaw_unaffected fun same => ho same.symm
      exact (raised.trans setInput_unaffected).lined (hs.lines hm idc)

section
variable {top : Topology} {system : System top}

theorem update_settled (hs : ∀ d, (system d).Settled) {d : Fin top.count} {aplic : Aplic (top.config d)}
    (hk : aplic.Settled) (e : Fin top.count) : (Function.update system d aplic e).Settled := by
  by_cases same : e = d
  · subst same
    rw [Function.update_self]
    exact hk
  · rw [Function.update_of_ne same]
    exact hs e

theorem request_settled (hs : ∀ d, (system d).Settled) {f : Nat} {d : Fin top.count}
    (he : top.count ≤ d + f) {irq : Nat} (hk : 0 < irq ∧ irq < (top.config d).numIrqs) {l : Int} :
    ∃ next, request f system d irq l = some next ∧ ∀ d, (next d).Settled := by
  induction f generalizing d with
  | zero => omega
  | succ f ih =>
    rw [request, dif_pos hk]
    dsimp only
    split
    · split
      · rename_i c hd
        have hm := List.mem_of_getElem? hd
        have hl := top.later d c hm
        have hb : irq < (top.config c).numIrqs := (top.same d c hm).symm ▸ hk.2
        exact ih (by omega) ⟨hk.1, hb⟩
      · exact ⟨system, rfl, hs⟩
    · rename_i ho
      exact ⟨_, rfl, update_settled hs
        ((hs d).requestHere hk.1 (Decidable.not_not.mp ho) l)⟩

theorem step_settled (hs : ∀ d, (system d).Settled) {e : Event top} :
    ∃ next, step system e = some next ∧ ∀ d, (next d).Settled := by
  cases e with
  | read d a =>
    obtain ⟨va, next, shown, kept⟩ := (hs d).read a
    refine ⟨Function.update system d next, ?_, update_settled hs kept⟩
    rw [step, shown, Option.map_some]
  | write d a va => exact ⟨_, rfl, update_settled hs ((hs d).write a va)⟩
  | request d irq l hk => exact request_settled hs (Nat.le_add_left _ _) hk

theorem init_settled (cfg : Config) : (init cfg).Settled := by
  have ho : (init cfg).ie = false := by
    show decide ((0 : W32) &&& domaincfgIe ≠ 0) = false
    decide
  refine ⟨⟨fun irq _ => ⟨?_, ?_⟩, fun _ => .inl rfl, fun _ => .inl rfl⟩, fun _ idc => ?_, fun _ ie => ?_⟩
  · exact BitVec.getLsbD_zero
  · exact BitVec.getLsbD_zero
  · exact iff_of_false Bool.false_ne_true fun hd => nomatch ho.symm.trans hd.1
  · exact nomatch ho.symm.trans ie

structure Exact (aplic : Aplic cfg) : Prop where
  line : cfg.msimode = false → ∀ idc : Fin cfg.numHarts, aplic.externalIrqs idc = true ↔
    aplic.ie ∧ aplic.idelivery idc = 1 ∧ (aplic.iforce idc = 1 ∨ aplic.idcTopi idc ≠ 0)
  topi : ∀ idc : Fin cfg.numHarts, ∃ irq,
    Selects (aplic.OfferedNum idc) aplic.priorityOf irq ∧ aplic.idcTopi idc = aplic.report irq
  sent : cfg.msimode → aplic.ie → ∀ irq, ¬(aplic.pending irq ∧ aplic.enabled irq)
  inactive : ∀ irq : Fin cfg.numIrqs, aplic.sourceActive irq = false →
    aplic.pending irq = false ∧ aplic.enabled irq = false

theorem Settled.exact (hs : aplic.Settled) : aplic.Exact where
  line hd idc := by
    have hb {va : W32} (hk : va = 0 ∨ va = 1) : va ≠ 0 ↔ va = 1 := by
      rcases hk with same | same <;> rw [same] <;> decide
    have hl := hs.lines hd idc
    rw [Lined, Due, hb (hs.wf.idelivery idc), hb (hs.wf.iforce idc)] at hl
    rw [aplic.idcTopi_ne_zero]
    exact hl
  topi idc := by
    obtain ⟨irq, picks, shown, -⟩ := aplic.idcTopi_selects idc
    exact ⟨irq, picks, shown⟩
  sent hm ie irq both := by
    have hi := hs.sent hm ie irq
    rw [ready, both.1, both.2] at hi
    cases hi
  inactive := hs.wf.quiet

theorem outputs_exact (top : Topology) (events : List (Event top)) :
    StepsMeet after (fun system event => ∃ next, step system event = some next ∧ ∀ d, (next d).Exact)
      (fun d => init (top.config d)) events := by
  have keeps (system : System top) (event : Event top) (settled : ∀ d, (system d).Settled) :
      ∀ d, (after system event d).Settled := by
    obtain ⟨next, steps, kept⟩ := step_settled settled
    rw [after, steps]
    exact kept
  refine stepsMeet_of_invariant keeps (fun system event settled => ?_) fun d => init_settled _
  obtain ⟨next, steps, kept⟩ := step_settled settled
  exact ⟨next, steps, fun d => (kept d).exact⟩

end

end RiscvEmulators.Qemu.Aplic
