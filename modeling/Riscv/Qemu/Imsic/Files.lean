import Riscv.Interrupt.File
import Riscv.Qemu.Imsic.Model
import Mathlib.Data.Fin.Tuple.Basic

namespace RiscvEmulators.Qemu.Imsic
open Store Interrupt BitVec File
variable {cfg : Config} {imsic next la : Imsic cfg} {page : Fin cfg.numPages}

section

theorem place_inj {page page' : Fin cfg.numPages} {i i' : Fin cfg.numIrqs} (hs : (place page i).val = place page' i') :
    page = page' ∧ i = i' := by
  have hs : page.val * cfg.numIrqs + i = page' * cfg.numIrqs + i' := hs
  have hd (page : Fin cfg.numPages) (i : Fin cfg.numIrqs) : (page.val * cfg.numIrqs + i) / cfg.numIrqs = page := by
    rw [Nat.add_comm, Nat.add_mul_div_right _ _ (Nat.succ_pos _), Nat.div_eq_of_lt i.isLt, Nat.zero_add]
  have hp : page.val = page' := by rw [← hd page i, hs, hd page' i']
  rw [hp] at hs
  exact ⟨Fin.ext hp, Fin.ext (Nat.add_left_cancel hs)⟩

variable (imsic : Imsic cfg) (page : Fin cfg.numPages)

theorem stateAt_setState (p : Fin cfg.numPages) (i j : Fin cfg.numIrqs) (f : W32 → W32) :
    (imsic.setState page i f).stateAt p j = if p = page ∧ j = i then f (imsic.stateAt p j) else imsic.stateAt p j := by
  unfold stateAt setState Cells.change
  dsimp only
  by_cases hs : p = page ∧ j = i
  · rw [if_pos hs, if_pos (by rw [hs.1, hs.2])]
  · rw [if_neg hs, if_neg fun hh => hs (place_inj hh)]

def pending (imsic : Imsic cfg) (page : Fin cfg.numPages) (i : Fin cfg.numIrqs) : Bool := (imsic.stateAt page i).getLsbD 0

def enabled (imsic : Imsic cfg) (page : Fin cfg.numPages) (i : Fin cfg.numIrqs) : Bool := (imsic.stateAt page i).getLsbD 1

def view (imsic : Imsic cfg) (page : Fin cfg.numPages) : File cfg.numIrqs where
  delivery := decide (imsic.eidelivery page ≠ 0)
  threshold := (imsic.eithreshold page).toNat
  pending := imsic.pending page
  enabled := imsic.enabled page

theorem topei_eq : imsic.topei page = if (imsic.view page).top = 0 then 0 else report (imsic.view page).top := by
  let c := imsic.eithreshold page
  have ht : (fun i : Fin cfg.numIrqs => decide (1 ≤ i.val ∧ i.val < if c.toNat ≠ 0 ∧
      c.toNat ≤ cfg.numIrqs then c.toNat else cfg.numIrqs) &&
      decide (imsic.stateAt page i &&& eistateEnpend = eistateEnpend)) = (imsic.view page).candidate := by
    funext i
    rw [Bool.eq_iff_iff, Bool.and_eq_true, decide_eq_true_iff, decide_eq_true_iff, eistateEnpend, and_three, candidate_iff,
      active_iff]
    have limit : (1 ≤ i.val ∧ i.val < if c.toNat ≠ 0 ∧
        c.toNat ≤ cfg.numIrqs then c.toNat else cfg.numIrqs) ↔
        i.val ≠ 0 ∧ (c.toNat = 0 ∨ i.val < c.toNat) := by
      split <;> omega
    rw [limit]
    exact ⟨fun ⟨⟨hp, hb⟩, both⟩ => ⟨hp, both, hb⟩, fun ⟨hp, both, hb⟩ => ⟨⟨hp, hb⟩, both⟩⟩
  unfold topei
  dsimp only
  rw [ht, ← Fin.find?_eq_find?_finRange]
  split
  · rename_i i hf
    obtain ⟨hi, hl⟩ := Fin.find?_eq_some_iff.mp hf
    have top := top_eq_of_least hi fun j hb => Bool.eq_false_iff.mpr fun ho => by
      simpa [ho] using hl j hb
    rw [top, if_neg (candidate_iff.mp hi).1]
  · rename_i hn
    rw [if_pos (top_eq_zero_iff.mpr (Fin.find?_eq_none_iff.mp hn))]

theorem report_decodes {i : Nat} (h : i < 2048) : (report i >>> 16).toNat = i := high_half (by omega) (by omega)

theorem report_ne_zero {i : Nat} (hb : i < 2048) (hs : i ≠ 0) : report i ≠ 0 := by
  intro hz
  have hd := report_decodes hb
  rw [hz] at hd
  exact hs hd.symm

theorem top_lt : (imsic.view page).top < 2048 := by
  have hf : cfg.numIrqs ≤ 2048 := Nat.succ_le_succ cfg.ids.2.1
  rcases (imsic.view page).top_lt with hn | hb <;> omega

theorem topei_ne_zero : imsic.topei page ≠ 0 ↔ (imsic.view page).top ≠ 0 := by
  rw [topei_eq]
  split
  · rename_i hn
    exact iff_of_false (not_not_intro rfl) (not_not_intro hn)
  · rename_i hs
    exact iff_of_true (report_ne_zero (imsic.top_lt page) hs) hs

end

structure Alike (page : Fin cfg.numPages) (imsic next : Imsic cfg) : Prop where
  eidelivery : next.eidelivery page = imsic.eidelivery page
  eithreshold : next.eithreshold page = imsic.eithreshold page
  states : ∀ i, i ≠ 0 → next.stateAt page i = imsic.stateAt page i

theorem Alike.trans (hf : Alike page imsic next) (hs : Alike page next la) : Alike page imsic la where
  eidelivery := hs.eidelivery.trans hf.eidelivery
  eithreshold := hs.eithreshold.trans hf.eithreshold
  states i some := (hs.states i some).trans (hf.states i some)

theorem Alike.top (ha : Alike page imsic next) : (next.view page).top = (imsic.view page).top := by
  have hc (i : Fin cfg.numIrqs) : (next.view page).candidate i = (imsic.view page).candidate i := by
    rw [Bool.eq_iff_iff, candidate_iff, candidate_iff]
    have ht : (next.view page).threshold = (imsic.view page).threshold := congrArg BitVec.toNat ha.eithreshold
    rw [ht]
    refine and_congr_right fun hp => and_congr_left fun _ => ?_
    have hs := ha.states i fun hz => hp (congrArg Fin.val hz)
    simp [active, view, pending, enabled, hs]
  by_cases hn : (imsic.view page).top = 0
  · rw [hn, top_eq_zero_iff]
    intro i
    rw [hc, top_eq_zero_iff.mp hn]
  · obtain ⟨i, same, hi, hl⟩ := exists_top hn
    rw [← same]
    exact top_eq_of_least ((hc i).trans hi) fun j hb => (hc j).trans (hl j hb)

theorem Alike.topei (h : Alike page imsic next) : next.topei page = imsic.topei page := by
  rw [topei_eq, topei_eq, h.top]

theorem Alike.due (h : Alike page imsic next) : next.due page = imsic.due page := by
  rw [Imsic.due, h.eidelivery, h.topei, Imsic.due]

theorem setFlag_alike (imsic : Imsic cfg) (page p : Fin cfg.numPages) (f : W32 → W32) :
    Alike p imsic (imsic.setState page 0 f) := by
  refine ⟨rfl, rfl, fun i hs => ?_⟩
  rw [stateAt_setState, if_neg fun hh => hs hh.2]

theorem lower_line (imsic : Imsic cfg) {page p : Fin cfg.numPages} :
    (imsic.lower page).externalIrqs p = if p = page then false else imsic.externalIrqs p := by
  simp [lower, Cells.change, Fin.ext_iff]

theorem raise_line (imsic : Imsic cfg) (page p : Fin cfg.numPages) :
    (imsic.raise page).externalIrqs p = if p = page then true else imsic.externalIrqs p := by
  simp [raise, Cells.change, Fin.ext_iff]

def Flagged (imsic : Imsic cfg) (page : Fin cfg.numPages) : Prop :=
  imsic.stateAt page 0 = if imsic.externalIrqs page then eistateEnpend else 0

structure Updated (page : Fin cfg.numPages) (imsic next : Imsic cfg) : Prop where
  alike : ∀ p, Alike p imsic next
  line : next.externalIrqs page = imsic.due page
  flag : next.Flagged page
  others : ∀ p, p ≠ page → next.stateAt p 0 = imsic.stateAt p 0 ∧ next.externalIrqs p = imsic.externalIrqs p

theorem update_updated (flagged : imsic.Flagged page) : Updated page imsic (imsic.update page) := by
  let f := (imsic.fetchFlag page).2
  have hf (p : Fin cfg.numPages) : Alike p imsic f := imsic.setFlag_alike page p _
  have hc : f.stateAt page 0 = 0 := by
    show (imsic.fetchFlag page).2.stateAt page 0 = 0
    rw [fetchFlag, stateAt_setState, if_pos ⟨rfl, rfl⟩, flagged]
    cases imsic.externalIrqs page <;> decide
  have ha (p : Fin cfg.numPages) (ho : p ≠ page) : f.stateAt p 0 = imsic.stateAt p 0 := by
    show (imsic.fetchFlag page).2.stateAt p 0 = _
    rw [fetchFlag, stateAt_setState, if_neg fun hh => ho hh.1]
  -- the line is low before the registers are looked at
  have hlo : (if (imsic.fetchFlag page).1 then f.lower page else f) = f.lower page := by
    split
    · rfl
    · rename_i hu
      have hz : imsic.stateAt page 0 = 0 := by simpa [fetchFlag] using hu
      have low : imsic.externalIrqs page = false := by
        cases high : imsic.externalIrqs page with
        | false => rfl
        | true =>
          rw [Flagged, high, hz] at flagged
          cases flagged
      have hs : imsic.externalIrqs.change page (fun _ => false) = imsic.externalIrqs := by
        rw [← low, Cells.change_self]
      exact congrArg (fun l => { f with externalIrqs := l }) hs.symm
  have low (p : Fin cfg.numPages) : Alike p imsic (f.lower page) :=
    ⟨(hf p).eidelivery, (hf p).eithreshold, (hf p).states⟩
  have hw : imsic.update page = if imsic.due page then ((f.lower page).raise page).markFlag page else f.lower page := by
    rw [← (low page).due, ← hlo]
    rfl
  rw [hw]
  cases hd : imsic.due page with
  | true =>
    rw [if_pos rfl]
    refine ⟨fun p => ?_, ?_, ?_, fun p ho => ⟨?_, ?_⟩⟩
    · have hr : Alike p imsic ((f.lower page).raise page) :=
        ⟨(low p).eidelivery, (low p).eithreshold, (low p).states⟩
      exact hr.trans (setFlag_alike _ page p _)
    · exact (raise_line _ page page).trans ((if_pos rfl).trans hd.symm)
    · have hl : (((f.lower page).raise page).markFlag page).externalIrqs page :=
        (raise_line _ page page).trans (if_pos rfl)
      rw [Flagged, hl, markFlag, stateAt_setState, if_pos ⟨rfl, rfl⟩]
      exact congrArg (· ||| eistateEnpend) hc
    · rw [markFlag, stateAt_setState, if_neg fun hh => ho hh.1]
      exact ha p ho
    · exact (raise_line _ page p).trans ((if_neg ho).trans ((lower_line _).trans (if_neg ho)))
  | false =>
    rw [if_neg Bool.false_ne_true]
    have hl : (f.lower page).externalIrqs page = false :=
      (lower_line _).trans (if_pos rfl)
    refine ⟨low, hl.trans hd.symm, ?_, fun p ho => ⟨ha p ho, ?_⟩⟩
    · rw [Flagged, hl]
      exact hc
    · exact (lower_line _).trans (if_neg ho)

structure Changed (page : Fin cfg.numPages) (imsic next : Imsic cfg) : Prop where
  lines : next.externalIrqs = imsic.externalIrqs
  flags : ∀ p, next.stateAt p 0 = imsic.stateAt p 0
  others : ∀ p, p ≠ page → Alike p imsic next
  bit : imsic.eidelivery page = 0 ∨ imsic.eidelivery page = 1 → next.eidelivery page = 0 ∨ next.eidelivery page = 1

theorem Changed.refl (page : Fin cfg.numPages) (imsic : Imsic cfg) : Changed page imsic imsic :=
  ⟨rfl, fun _ => rfl, fun _ _ => ⟨rfl, rfl, fun _ _ => rfl⟩, id⟩

theorem Changed.trans (hf : Changed page imsic next) (hs : Changed page next la) : Changed page imsic la where
  lines := hs.lines.trans hf.lines
  flags p := (hs.flags p).trans (hf.flags p)
  others p other := (hf.others p other).trans (hs.others p other)
  bit known := hs.bit (hf.bit known)

structure Settled (imsic : Imsic cfg) (page : Fin cfg.numPages) : Prop where
  bit : imsic.eidelivery page = 0 ∨ imsic.eidelivery page = 1
  flag : imsic.Flagged page
  line : imsic.externalIrqs page = imsic.due page

theorem Changed.flagged (hc : Changed page imsic next) (hs : ∀ p, imsic.Settled p) {p : Fin cfg.numPages} :
    next.Flagged p := by
  rw [Flagged, hc.flags, hc.lines]
  exact (hs p).flag

theorem Changed.updated (hc : Changed page imsic next) (hs : ∀ p, imsic.Settled p) :
    Updated page next (next.update page) := update_updated (hc.flagged hs)

theorem Changed.update_settled (hc : Changed page imsic next) (hs : ∀ p, imsic.Settled p)
    (p : Fin cfg.numPages) : (next.update page).Settled p := by
  have hu := hc.updated hs
  by_cases same : p = page
  · subst same
    refine ⟨?_, hu.flag, ?_⟩
    · rw [(hu.alike p).eidelivery]
      exact hc.bit (hs p).bit
    · rw [hu.line, (hu.alike p).due]
  · obtain ⟨hf, hl⟩ := hu.others p same
    have ha := (hc.others p same).trans (hu.alike p)
    refine ⟨?_, ?_, ?_⟩
    · rw [ha.eidelivery]
      exact (hs p).bit
    · rw [Flagged, hf, hl]
      exact hc.flagged hs
    · rw [hl, hc.lines, ha.due]
      exact (hs p).line

end RiscvEmulators.Qemu.Imsic
