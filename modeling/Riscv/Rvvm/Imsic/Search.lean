import Riscv.Interrupt.File
import Riscv.Rvvm.Imsic.Model

namespace RiscvEmulators.Rvvm.Imsic
open Store Interrupt BitVec File List

def view (imsic : Imsic) : File 256 where
  delivery := decide (imsic.eidelivery = 1)
  threshold := imsic.eithreshold.toNat
  pending i := imsic.eip.has i
  enabled i := imsic.eie.has i

@[ext] structure Spec where
  file : File 256
  reported : W32

def accept (file : File 256) (irq : W32) : File 256 :=
  if irq ≠ 0 ∧ irq.toNat < 256 then file.setPending irq.toNat true else file

def messageIrq (offset : Nat) (data : W32) : W32 :=
  if offset % 4096 / 4 * 4 = regSeteipnumLe then data
  else if offset % 4096 / 4 * 4 = regSeteipnumBe then Aplic.byteSwap data
  else 0

def bitAfter (old new : Bool) : CsrOp → Bool
  | .swap => new
  | .setBits => old || new
  | .clearBits => old && !new

def window (rv64 : Bool) (reg : Nat) (dest : BitVec 64) (i : Nat) : Option Bool :=
  if rv64 ∧ reg % 2 = 1 then none
  else if i / 32 = reg then some (dest.getLsbD (i % 32))
  else if rv64 ∧ i / 32 = reg + 1 then some (dest.getLsbD (32 + i % 32))
  else none

def windowed (rv64 : Bool) (reg : Nat) (dest : BitVec 64) (op : CsrOp) (old : Fin 256 → Bool) (i : Fin 256) : Bool :=
  (window rv64 reg dest i).elim (old i) fun new => bitAfter (old i) new op

def accessed (rv64 : Bool) (file : File 256) (csri : Nat) (dest : BitVec 64) (op : CsrOp) : File 256 :=
  if csri = csriEidelivery then { file with delivery := bitAfter file.delivery (dest.getLsbD 0) op }
  else if csri = csriEithreshold then
    { file with threshold := (csrAtomicHelper (BitVec.ofNat 32 file.threshold) dest op).1.toNat }
  else if csriEip0 ≤ csri ∧ csri ≤ csriEip63 then
    { file with pending := windowed rv64 (csri - csriEip0) dest op file.pending }
  else if csriEie0 ≤ csri ∧ csri ≤ csriEie63 then
    { file with enabled := windowed rv64 (csri - csriEie0) dest op file.enabled }
  else file

def Spec.after (rv64 : Bool) (spec : Spec) : Event → Spec
  | .message offset data => { spec with file := accept spec.file (messageIrq offset data) }
  | .indirect csri dest op => { spec with file := accessed rv64 spec.file csri dest op }
  | .topei dest op =>
    { file := if isCsrWrite dest op then spec.file.claim else spec.file
      reported := BitVec.ofNat 32 spec.file.top ||| BitVec.ofNat 32 spec.file.top <<< 16 }

def Spec.init : Spec := ⟨File.empty 256, 0⟩

structure Agrees (imsic : Imsic) (spec : Spec) : Prop where
  file : imsic.view = spec.file
  reported : imsic.reported = spec.reported
  line : imsic.line = spec.file.raised
  top : (imsic.getAiaIrq false).1 = spec.file.top

/-- The search finds the right identity: identity 0 is unused, nothing waits while delivery is off, and the top
  identity is alone in its word and not just below the threshold. -/
structure Plain (file : File 256) : Prop where
  none : file.active 0 = false
  delivered : file.delivery = false → file.top = 0
  below : file.top ≠ 0 → file.top + 1 ≠ file.threshold
  alone : ∀ j : Fin 256, file.top ≠ 0 → file.active j → j.val / 32 = file.top / 32 → j.val = file.top

instance (file : File 256) : Decidable (Plain file) :=
  decidable_of_iff (file.active 0 = false ∧ (file.delivery = false → file.top = 0) ∧
      (file.top ≠ 0 → file.top + 1 ≠ file.threshold) ∧
      ∀ j : Fin 256, file.top ≠ 0 → file.active j → j.val / 32 = file.top / 32 → j.val = file.top)
    ⟨fun ⟨unused, delivered, below, alone⟩ => ⟨unused, delivered, below, alone⟩,
      fun ⟨unused, delivered, below, alone⟩ => ⟨unused, delivered, below, alone⟩⟩

structure Careful (rv64 : Bool) (imsic : Imsic) (event : Event) : Prop where
  plain : Plain (Spec.after rv64 ⟨imsic.view, imsic.reported⟩ event).file
  -- a message that comes while delivery is off is of an identity that is pending already
  kept : ∀ offset data, event = .message offset data → messageIrq offset data ≠ 0 →
    (messageIrq offset data).toNat < 256 → imsic.eidelivery = 0 → imsic.eip.has (messageIrq offset data).toNat
  -- what stays behind when an identity is claimed is not all above the threshold
  claimed : ∀ dest op, event = .topei dest op → isCsrWrite dest op → imsic.view.top ≠ 0 →
    ∀ j, imsic.view.claim.active j → imsic.view.claim.top ≠ 0

section
variable {imsic : Imsic}

def bits (imsic : Imsic) (i : Fin 8) : W32 := imsic.eip i &&& imsic.eie i
def irqOf (imsic : Imsic) (i : Fin 8) : Nat := 32 * i.val + (bitClz32 (imsic.bits i) ^^^ 31)
def Hits (imsic : Imsic) (thresh : W32) (i : Fin 8) : Prop := imsic.bits i ≠ 0 ∧ imsic.irqOf i < thresh.toNat

theorem highBit_eq {w : W32} (hn : w ≠ 0) : bitClz32 w ^^^ 31 = w.toNat.log2 := by
  have hp : w.toNat ≠ 0 := fun hz => hn (eq_of_toNat_eq hz)
  have hs : w.toNat.log2 < 32 := (Nat.log2_lt hp).mpr w.isLt
  rw [bitClz32, if_neg hn]
  generalize w.toNat.log2 = bit at hs
  revert bit
  decide

theorem getLsbD_highBit {w : W32} (hn : w ≠ 0) : w.getLsbD (bitClz32 w ^^^ 31) ∧ bitClz32 w ^^^ 31 < 32 := by
  have hp : w.toNat ≠ 0 := fun hz => hn (eq_of_toNat_eq hz)
  rw [highBit_eq hn]
  exact ⟨Nat.testBit_log2 hp, (Nat.log2_lt hp).mpr w.isLt⟩

theorem active_bits (i : Fin 256) : imsic.view.active i = (imsic.bits ⟨i.val / 32, by omega⟩).getLsbD (i.val % 32) := by
  rw [bits, getLsbD_and, active]
  simp only [view]
  rw [Bits.has_eq _ (show i.val / 32 < 8 by omega), Bits.has_eq _ (show i.val / 32 < 8 by omega)]

theorem irqOf_active {i : Fin 8} (hn : imsic.bits i ≠ 0) :
    ∃ j : Fin 256, j.val = imsic.irqOf i ∧ j.val / 32 = i.val ∧ imsic.view.active j := by
  obtain ⟨hb, hs⟩ := getLsbD_highBit hn
  refine ⟨⟨imsic.irqOf i, ?_⟩, rfl, ?_, ?_⟩
  · unfold irqOf
    omega
  · unfold irqOf
    dsimp only
    omega
  · have hw : imsic.irqOf i / 32 = i.val := by unfold irqOf; omega
    have hp : imsic.irqOf i % 32 = bitClz32 (imsic.bits i) ^^^ 31 := by unfold irqOf; omega
    rw [active_bits]
    simp only [hw, hp]
    exact hb

theorem below_iff {irq : Nat} (hb : irq < 256) : irq < (imsic.eithreshold - 1).toNat ↔
    imsic.view.threshold = 0 ∨ irq + 1 < imsic.view.threshold := by
  have hv : (imsic.eithreshold - 1).toNat = (imsic.eithreshold.toNat + (2 ^ 32 - 1)) % 2 ^ 32 := by
    rw [Nat.add_comm]
    rfl
  change _ ↔ imsic.eithreshold.toNat = 0 ∨ irq + 1 < imsic.eithreshold.toNat
  omega

theorem hits_iff (i : Fin 8) : imsic.Hits (imsic.eithreshold - 1) i ↔
    imsic.bits i ≠ 0 ∧ (imsic.view.threshold = 0 ∨ imsic.irqOf i + 1 < imsic.view.threshold) := by
  apply and_congr_right
  intro hn
  obtain ⟨j, hs, -⟩ := irqOf_active hn
  exact below_iff (by rw [← hs]; exact j.isLt)

theorem Plain.misses (hp : Plain imsic.view) (hi : imsic.view.top = 0) {i : Fin 8} :
    ¬ imsic.Hits (imsic.eithreshold - 1) i := by
  rw [hits_iff]
  rintro ⟨hn, hb⟩
  obtain ⟨j, hs, -, ha⟩ := irqOf_active hn
  have hc : imsic.view.candidate j := by
    rw [candidate_iff]
    refine ⟨fun hz => ?_, ha, by omega⟩
    rw [show j = 0 from Fin.ext hz, hp.none] at ha
    cases ha
  rw [top_eq_zero_iff.mp hi j] at hc
  cases hc

theorem Plain.finds (hp : Plain imsic.view) (hw : imsic.view.top ≠ 0) :
    ∃ i : Fin 8, imsic.irqOf i = imsic.view.top ∧ imsic.Hits (imsic.eithreshold - 1) i ∧ (∀ j < i, imsic.bits j = 0) ∧
      ∀ k, (imsic.bits i).getLsbD k → k = bitClz32 (imsic.bits i) ^^^ 31 := by
  obtain ⟨m, hs, best, most⟩ := exists_top hw
  obtain ⟨hn, ha, below⟩ := candidate_iff.mp best
  have word : m.val / 32 < 8 := by omega
  have hf : imsic.bits ⟨m.val / 32, word⟩ ≠ 0 := by
    intro he
    rw [active_bits, he] at ha
    simp at ha
  obtain ⟨t, ht2, takes, ht⟩ := irqOf_active hf
  have hi2 : imsic.irqOf ⟨m.val / 32, word⟩ = imsic.view.top := by
    rw [← ht2]
    exact hp.alone t hw ht (by rw [← hs]; exact takes)
  refine ⟨⟨m.val / 32, word⟩, hi2, ?_, fun j hb => ?_, fun k bit => ?_⟩
  · rw [hits_iff]
    have apart := hp.below hw
    exact ⟨hf, by omega⟩
  · apply Classical.byContradiction
    intro hbu
    obtain ⟨o, -, hot, ho⟩ := irqOf_active hbu
    have hl : o < m := by omega
    have hi : imsic.view.candidate o := by
      rw [candidate_iff]
      refine ⟨fun hz => ?_, ho, ?_⟩
      · rw [show o = 0 from Fin.ext hz, hp.none] at ho
        cases ho
      · omega
    rw [most o hl] at hi
    cases hi
  · have hsm : k < 32 := lt_of_getLsbD bit
    have hth : imsic.view.active ⟨32 * (m.val / 32) + k, by omega⟩ := by
      rw [active_bits]
      simp only [show (32 * (m.val / 32) + k) / 32 = m.val / 32 by omega, show (32 * (m.val / 32) + k) % 32 = k by omega]
      exact bit
    have hal := hp.alone _ hw hth (by dsimp only; omega)
    dsimp only at hal
    unfold irqOf at hi2
    dsimp only at hi2
    omega

end

section
variable {imsic : Imsic} {t : W32} {c : Bool}

def highBit (imsic : Imsic) (i : Fin 8) : Nat := bitClz32 (imsic.bits i) ^^^ 31

def taken (imsic : Imsic) (i : Fin 8) : Imsic :=
  { imsic with eip := imsic.eip.change i fun word => word &&& ~~~bitOf (imsic.highBit i) }

variable {i : Fin 8}

theorem scan_empty (he : imsic.bits i = 0) (w : List (Fin 8)) (ret : Nat) :
    scan true c t (i :: w) ret imsic = scan true c t w ret imsic := by
  have hn : ¬ imsic.eip i &&& imsic.eie i ≠ 0 := Decidable.not_not.mpr he
  rw [scan]
  rw [if_neg hn]

theorem scan_miss (hm : ¬ imsic.Hits t i) (w : List (Fin 8)) :
    scan true c t (i :: w) 0 imsic = scan true c t w 0 imsic := by
  by_cases he : imsic.bits i = 0
  · exact scan_empty he w 0
  · have ha : ¬ 32 * i.val + (bitClz32 (imsic.eip i &&& imsic.eie i) ^^^ 31) < t.toNat :=
      fun hb => hm ⟨he, hb⟩
    rw [scan]
    rw [if_pos (show imsic.eip i &&& imsic.eie i ≠ 0 from he), if_neg (by decide), if_neg ha]

theorem scan_look (hh : imsic.Hits t i) (w : List (Fin 8)) :
    scan true false t (i :: w) 0 imsic = (imsic.irqOf i, imsic.interrupt) := by
  have hb : 32 * i.val + (bitClz32 (imsic.eip i &&& imsic.eie i) ^^^ 31) < t.toNat := hh.2
  have hs : imsic.eip i &&& imsic.eie i ≠ 0 := hh.1
  rw [scan]
  rw [if_pos hs, if_pos hb]
  simp only [Bool.false_eq_true, if_false]
  rw [if_pos hs]
  rfl

theorem scan_claim (hh : imsic.Hits t i) (ha : imsic.bits i &&& ~~~bitOf (imsic.highBit i) = 0)
    (w : List (Fin 8)) : scan true true t (i :: w) 0 imsic = scan true true t w (imsic.irqOf i) (imsic.taken i) := by
  have hb : 32 * i.val + (bitClz32 (imsic.eip i &&& imsic.eie i) ^^^ 31) < t.toNat := hh.2
  have hs : imsic.eip i &&& imsic.eie i ≠ 0 := hh.1
  have hr : ¬ imsic.eip i &&& imsic.eie i &&& ~~~bitOf (bitClz32 (imsic.eip i &&& imsic.eie i) ^^^ 31) ≠ 0 :=
    Decidable.not_not.mpr ha
  rw [scan]
  rw [if_pos hs, if_pos hb]
  simp only [if_true]
  rw [if_neg hr]
  rfl

theorem scan_skip {w : List (Fin 8)} (miss : ∀ i ∈ w, ¬ imsic.Hits t i) (r : List (Fin 8)) :
    scan true c t (w ++ r) 0 imsic = scan true c t r 0 imsic := by
  induction w with
  | nil => rfl
  | cons i w ih =>
    rw [List.cons_append, scan_miss (miss i List.mem_cons_self)]
    exact ih fun j hm => miss j (mem_cons_of_mem _ hm)

theorem scan_found {ret : Nat} (hf : ret ≠ 0) (w : List (Fin 8)) : scan true c t w ret imsic
    = (ret, if w.any (fun i => decide (imsic.bits i ≠ 0)) then imsic.interrupt else imsic) := by
  induction w with
  | nil => rfl
  | cons i w ih =>
    rw [any_cons]
    by_cases he : imsic.bits i = 0
    · rw [scan_empty he, ih]
      simp [he]
    · rw [decide_eq_true he, Bool.true_or, if_pos rfl, scan]
      rw [if_pos (show imsic.eip i &&& imsic.eie i ≠ 0 from he), if_pos hf]

theorem finRange_split : finRange 8 = (finRange 8).filter (· < i) ++ i :: (finRange 8).filter (i < ·) := by
  revert i
  decide

theorem updateAiaInternal_look (hp : Plain imsic.view) (bool : imsic.eidelivery = 0 ∨ imsic.eidelivery = 1) :
    imsic.updateAiaInternal true false = (imsic.view.top, { imsic with line := imsic.view.raised }) := by
  unfold updateAiaInternal
  rcases bool with ho | on
  · have idle : imsic.view.top = 0 := hp.delivered (by simp [view, ho])
    simp [ho, raised, idle]
  · have hd : imsic.view.delivery := by simp [view, on]
    rw [if_pos rfl, if_pos (by rw [on]; decide)]
    by_cases hw : imsic.view.top = 0
    · have hm : ∀ i ∈ finRange 8, ¬ ({ imsic with line := false } : Imsic).Hits (imsic.eithreshold - 1) i :=
        fun i _ => hp.misses hw
      rw [← append_nil (finRange 8), scan_skip hm, scan]
      simp [raised, hw]
    · obtain ⟨i, hi, hits, hb, -⟩ := hp.finds hw
      have hm : ∀ j ∈ (finRange 8).filter (· < i),
          ¬ ({ imsic with line := false } : Imsic).Hits (imsic.eithreshold - 1) j := by
        intro j mem hf
        exact hf.1 (hb j (by simpa using mem))
      have hh : ({ imsic with line := false } : Imsic).Hits (imsic.eithreshold - 1) i := hits
      rw [finRange_split, scan_skip hm, scan_look hh]
      rw [← hi] at hw
      simp only [raised, hd]
      rw [← hi, decide_eq_true hw]
      rfl

end

section
variable {im : Imsic}

section
variable {i : Fin 8} (ha : ∀ k, (im.bits i).getLsbD k → k = im.highBit i)
include ha

theorem bits_alone : im.bits i &&& ~~~bitOf (im.highBit i) = 0 := by
  apply eq_of_getLsbD_eq
  intro k hb
  rw [getLsbD_and, getLsbD_not, bitOf_getLsbD]
  cases bit : (im.bits i).getLsbD k with
  | false => simp
  | true => simp [← ha k bit, Nat.mod_eq_of_lt hb]

theorem taken_bits (j : Fin 8) : (im.taken i).bits j = if j = i then 0 else im.bits j := by
  unfold bits taken
  dsimp only
  by_cases hh : j = i
  · rw [if_pos hh, hh, Cells.change_same, BitVec.and_assoc, BitVec.and_comm (~~~_), ← BitVec.and_assoc]
    exact bits_alone ha
  · rw [if_neg hh, Cells.change_other _ _ fun he => hh (Fin.ext he)]

end

theorem taken_view {i : Fin 8} (hn : im.bits i ≠ 0) : (im.taken i).view = im.view.setPending (im.irqOf i) false := by
  have hs := (getLsbD_highBit hn).2
  have hp : im.irqOf i % 32 = im.highBit i := by
    unfold irqOf highBit
    omega
  have hw : im.irqOf i / 32 = i.val := by
    unfold irqOf
    omega
  have hr : (im.taken i).eip = im.eip.remove (im.irqOf i) := by
    unfold taken Bits.remove bitOf
    rw [hw, hp, Nat.mod_eq_of_lt (show im.highBit i < 32 from hs)]
  unfold view setPending
  rw [hr]
  simp only [File.mk.injEq, taken, true_and, and_true]
  refine ⟨rfl, ?_⟩
  funext j
  rw [Bits.has_remove]
  by_cases hh : j.val = im.irqOf i <;> simp

theorem updateAiaInternal_claim (hp : Plain im.view) (hb2 : im.eidelivery = 0 ∨ im.eidelivery = 1)
    (hcl : im.view.top ≠ 0 → ∀ j, im.view.claim.active j → im.view.claim.top ≠ 0) :
    ∃ a, im.updateAiaInternal true true = (im.view.top, a) ∧ a.view = im.view.claim ∧
      a.line = im.view.claim.raised ∧ a.reported = im.reported ∧ a.eidelivery = im.eidelivery := by
  unfold updateAiaInternal
  dsimp only
  by_cases hw : im.view.top = 0
  · have hs : im.view.claim = im.view := if_pos hw
    have low : im.view.claim.raised = false := by simp [hs, raised, hw]
    have hm : ∀ i ∈ finRange 8, ¬ ({ im with line := false } : Imsic).Hits (im.eithreshold - 1) i :=
      fun i _ => hp.misses hw
    refine ⟨{ im with line := false }, ?_, hs.symm, low.symm, rfl, rfl⟩
    rw [if_pos rfl, hw]
    split
    · rw [← append_nil (finRange 8), scan_skip hm, scan]
    · rfl
  · have on : im.eidelivery = 1 := by
      rcases hb2 with off | on
      · exact absurd (hp.delivered (by simp [view, off])) hw
      · exact on
    obtain ⟨i, slot, hh, before, also⟩ := hp.finds hw
    have hm : ∀ j ∈ (finRange 8).filter (· < i),
        ¬ ({ im with line := false } : Imsic).Hits (im.eithreshold - 1) j := by
      intro j mem hf
      exact hf.1 (before j (by simpa using mem))
    have here : ({ im with line := false } : Imsic).Hits (im.eithreshold - 1) i := hh
    have hl := taken_bits also
    have hc : im.view.claim = (im.taken i).view := by
      rw [claim, if_neg hw, taken_view hh.1, slot]
    have hno : im.irqOf i ≠ 0 := by rw [slot]; exact hw
    -- what is left is in later words
    have hr : ((finRange 8).filter (i < ·)).any (fun j => decide ((im.taken i).bits j ≠ 0))
        = im.view.claim.raised := by
      rw [Bool.eq_iff_iff, any_eq_true, raised_iff, hc]
      constructor
      · rintro ⟨j, mem, hb⟩
        obtain ⟨k, -, -, ha⟩ := irqOf_active (of_decide_eq_true hb)
        have hso := hcl hw k (by rw [hc]; exact ha)
        rw [hc] at hso
        obtain ⟨top, -, hi, -⟩ := exists_top hso
        exact ⟨by simp [view, taken, on], top, hi⟩
      · rintro ⟨-, k, hi⟩
        have ha := (candidate_iff.mp hi).2.1
        have hwo : k.val / 32 < 8 := by omega
        have hb : (im.taken i).bits ⟨k.val / 32, hwo⟩ ≠ 0 := by
          intro he
          rw [active_bits, he] at ha
          simp at ha
        refine ⟨⟨k.val / 32, hwo⟩, ?_, decide_eq_true hb⟩
        rw [hl] at hb
        rw [mem_filter, decide_eq_true_iff]
        refine ⟨mem_finRange _, ?_⟩
        by_cases hs : (⟨k.val / 32, hwo⟩ : Fin 8) = i
        · rw [if_pos hs] at hb
          exact absurd rfl hb
        · rw [if_neg hs] at hb
          apply Classical.byContradiction
          intro hn
          have ho : (⟨k.val / 32, hwo⟩ : Fin 8) < i := by
            have hap : k.val / 32 ≠ i.val := fun heq => hs (Fin.ext heq)
            have hbo : ¬ i.val < k.val / 32 := hn
            omega
          exact hb (before _ ho)
    rw [if_pos rfl, if_pos (by rw [on]; decide), finRange_split, scan_skip hm, scan_claim here (bits_alone also),
      scan_found (show ({ im with line := false } : Imsic).irqOf i ≠ 0 from hno)]
    refine ⟨_, by rw [← slot]; rfl, ?_, ?_, ?_, ?_⟩
    · rw [hc]
      split <;> rfl
    · rw [← hr]
      change (if ((finRange 8).filter (i < ·)).any (fun j => decide ((im.taken i).bits j ≠ 0))
        then (taken { im with line := false } i).interrupt else taken { im with line := false } i).line = _
      cases ((finRange 8).filter (i < ·)).any fun j => decide ((im.taken i).bits j ≠ 0) <;> rfl
    · split <;> rfl
    · split <;> rfl

end
end RiscvEmulators.Rvvm.Imsic
