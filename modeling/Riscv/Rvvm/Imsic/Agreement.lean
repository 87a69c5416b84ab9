import Riscv.Rvvm.Imsic.Search
import Riscv.Transition.Run

namespace RiscvEmulators.Rvvm.Imsic
open Store Word Interrupt Transition BitVec File Bits

section
variable {imsic : Imsic}

structure Settled (imsic : Imsic) : Prop where
  plain : Plain imsic.view
  bool : imsic.eidelivery = 0 ∨ imsic.eidelivery = 1
  line : imsic.line = imsic.view.raised

theorem updateAiaState_eq (hp : Plain imsic.view) (hb : imsic.eidelivery = 0 ∨ imsic.eidelivery = 1) :
    imsic.updateAiaState = { imsic with line := imsic.view.raised } := by
  rw [updateAiaState, updateAiaInternal_look hp hb]

theorem updateAiaState_settled (hp : Plain imsic.view) (hb : imsic.eidelivery = 0 ∨ imsic.eidelivery = 1) :
    imsic.updateAiaState.Settled := by
  rw [updateAiaState_eq hp hb]
  exact ⟨hp, hb, rfl⟩

theorem scan_keeps (t : W32) (w : List (Fin 8)) (ret : Nat) (imsic : Imsic) :
    ∃ line, (scan true false t w ret imsic).2 = { imsic with line } := by
  induction w generalizing ret with
  | nil => exact ⟨imsic.line, rfl⟩
  | cons i w ih =>
    by_cases he : imsic.bits i = 0
    · rw [scan_empty he]
      exact ih ret
    · by_cases hf : ret = 0
      · rw [hf]
        by_cases hh : imsic.Hits t i
        · rw [scan_look hh]
          exact ⟨true, rfl⟩
        · rw [scan_miss hh]
          exact ih 0
      · rw [scan_found hf]
        split
        · exact ⟨true, rfl⟩
        · exact ⟨imsic.line, rfl⟩

theorem updateAiaState_keeps (imsic : Imsic) : ∃ line, imsic.updateAiaState = { imsic with line } := by
  unfold updateAiaState updateAiaInternal
  dsimp only
  rw [if_pos rfl]
  split
  · exact scan_keeps _ _ _ _
  · exact ⟨false, rfl⟩

variable {val : W32} {de : W64}

theorem csrAtomicHelper_bit {op : CsrOp} {i : Nat} (hb : i < 32) :
    (csrAtomicHelper val de op).1.getLsbD i = bitAfter (val.getLsbD i) (de.getLsbD i) op := by
  unfold csrAtomicHelper bitAfter
  cases op with
  | swap => simp [hb]
  | setBits =>
    dsimp only
    split
    · simp [hb]
    · rename_i hz
      rw [Decidable.not_not.mp hz]
      simp
  | clearBits =>
    dsimp only
    split
    · simp [hb]
    · rename_i hz
      rw [Decidable.not_not.mp hz]
      simp

theorem csrAtomicHelper_kept {op : CsrOp} (h : (csrAtomicHelper val de op).2 = false)
    : (csrAtomicHelper val de op).1 = val := by
  unfold csrAtomicHelper at *
  cases op with
  | swap => cases h
  | setBits =>
    dsimp only at *
    split at h
    · cases h
    · rw [if_neg (by assumption)]
  | clearBits =>
    dsimp only at *
    split at h
    · cases h
    · rw [if_neg (by assumption)]

theorem csrAiaHelper_settled {put : W32 → Imsic} {op : CsrOp} (same : put val = imsic)
    (hs : (csrAtomicHelper val de op).2 = false → imsic.Settled) (hp : Plain (put (csrAtomicHelper val de op).1).view)
    (hb : (put (csrAtomicHelper val de op).1).eidelivery = 0 ∨ (put (csrAtomicHelper val de op).1).eidelivery = 1) :
    (imsic.csrAiaHelper val put de op).2.Settled ∧
      (imsic.csrAiaHelper val put de op).2.view = (put (csrAtomicHelper val de op).1).view ∧
      (imsic.csrAiaHelper val put de op).2.reported = (put (csrAtomicHelper val de op).1).reported := by
  unfold csrAiaHelper
  dsimp only
  cases hw : (csrAtomicHelper val de op).2 with
  | true =>
    refine ⟨updateAiaState_settled hp hb, ?_, ?_⟩ <;> rw [updateAiaState_eq hp hb] <;> rfl
  | false =>
    rw [csrAtomicHelper_kept hw, same]
    exact ⟨hs hw, rfl, rfl⟩

end

section

def bitsOf (file : File 256) (pend : Bool) : Fin 256 → Bool := if pend then file.pending else file.enabled

def putBits (file : File 256) (pend : Bool) (bits : Fin 256 → Bool) : File 256 :=
  if pend then { file with pending := bits } else { file with enabled := bits }

@[simp] theorem bitsOf_putBits (f : File 256) (pe : Bool) (bits : Fin 256 → Bool) :
    bitsOf (putBits f pe bits) pe = bits := by cases pe <;> rfl

@[simp] theorem putBits_putBits (f : File 256) (pe : Bool) (fst second : Fin 256 → Bool) :
    putBits (putBits f pe fst) pe second = putBits f pe second := by cases pe <;> rfl

@[simp] theorem putBits_self (file : File 256) (pe : Bool) : putBits file pe (bitsOf file pe) = file := by
  cases pe <;> rfl

theorem windowed_none {rv64 : Bool} {reg : Nat} {de : W64} {op : CsrOp} {old : Fin 256 → Bool}
    (none : ∀ i : Fin 256, window rv64 reg de i = none) : windowed rv64 reg de op old = old := by
  funext i
  rw [windowed, none i]
  rfl

theorem windowed_pair {reg : Nat} (he : reg % 2 ≠ 1) (de : W64) (op : CsrOp) (old : Fin 256 → Bool) :
    windowed true reg de op old = windowed false (reg + 1) (de >>> 32) op (windowed false reg de op old) := by
  funext i
  simp only [windowed, window, he]
  by_cases hl : i.val / 32 = reg
  · simp [hl]
  · by_cases hh : i.val / 32 = reg + 1
    · simp [hh]
    · simp [hh]

variable (imsic : Imsic)

theorem array_has (pe : Bool) (i : Fin 256) : (imsic.array pe).has i = bitsOf imsic.view pe i := by
  cases pe <;> rfl

theorem putArray_view (pe : Bool) (reg : Fin 8) (de : W64) (op : CsrOp) :
    (imsic.putArray pe reg (csrAtomicHelper (imsic.array pe reg) de op).1).view
      = putBits imsic.view pe (windowed false reg de op (bitsOf imsic.view pe)) := by
  have hc (i : Fin 256) : has ((imsic.array pe).change reg.val
      fun _ => (csrAtomicHelper (imsic.array pe reg) de op).1) i
        = windowed false reg de op (bitsOf imsic.view pe) i := by
    rw [has_change, windowed, window]
    by_cases hh : i.val / 32 = reg.val
    · rw [if_pos hh, if_pos hh, csrAtomicHelper_bit (Nat.mod_lt _ (by decide)),
        (imsic.array pe).getLsbD_eq_has hh, array_has]
      rfl
    · rw [if_neg hh, if_neg hh, array_has]
      rfl
  cases pe with
  | true =>
    have hs : (fun i : Fin 256 => has (imsic.eip.change reg.val
        fun _ => (csrAtomicHelper (imsic.array true reg) de op).1) i) = _ := funext hc
    simp [putArray, putBits, view, hs]
  | false =>
    have hs : (fun i : Fin 256 => has (imsic.eie.change reg.val
        fun _ => (csrAtomicHelper (imsic.array false reg) de op).1) i) = _ := funext hc
    simp [putArray, putBits, view, hs]

theorem putArray_self {pe : Bool} {reg : Fin 8} : imsic.putArray pe reg (imsic.array pe reg) = imsic := by
  cases pe with
  | true =>
    have h : (imsic.eip.change reg.val fun _ => imsic.eip reg) = imsic.eip := Cells.change_self imsic.eip reg
    simp [putArray, array, h]
  | false =>
    have h : (imsic.eie.change reg.val fun _ => imsic.eie reg) = imsic.eie := Cells.change_self imsic.eie reg
    simp [putArray, array, h]

theorem putArray_eidelivery {pe : Bool} {reg : Nat} {w : W32} :
    (imsic.putArray pe reg w).eidelivery = imsic.eidelivery := by cases pe <;> rfl

theorem putArray_reported {pe : Bool} {reg : Nat} {w : W32} :
    (imsic.putArray pe reg w).reported = imsic.reported := by cases pe <;> rfl

def accessWord (pend : Bool) (reg : Fin 8) (dest : W64) (op : CsrOp) : Imsic :=
  (imsic.csrAiaHelper (imsic.array pend reg) (imsic.putArray pend reg) dest op).2

variable {imsic} {p : Bool} {reg : Fin 8} {d : W64} {op : CsrOp}

theorem accessWord_keeps (imsic : Imsic) {p : Bool} {reg : Fin 8} {d : W64} {op : CsrOp} :
    (imsic.accessWord p reg d op).view = putBits imsic.view p (windowed false reg d op (bitsOf imsic.view p)) ∧
    (imsic.accessWord p reg d op).eidelivery = imsic.eidelivery ∧
    (imsic.accessWord p reg d op).reported = imsic.reported := by
  unfold accessWord csrAiaHelper
  dsimp only
  rw [← putArray_view]
  cases hw : (csrAtomicHelper (imsic.array p reg) d op).2 with
  | true =>
    obtain ⟨line, hu⟩ := updateAiaState_keeps
      (imsic.putArray p reg (csrAtomicHelper (imsic.array p reg) d op).1)
    rw [hu]
    exact ⟨rfl, putArray_eidelivery _, putArray_reported _⟩
  | false =>
    rw [csrAtomicHelper_kept hw, putArray_self]
    exact ⟨rfl, rfl, rfl⟩

theorem accessWord_settled (hb : imsic.eidelivery = 0 ∨ imsic.eidelivery = 1)
    (hs : (csrAtomicHelper (imsic.array p reg) d op).2 = false → imsic.Settled)
    (hp : Plain (putBits imsic.view p (windowed false reg d op (bitsOf imsic.view p)))) :
    (imsic.accessWord p reg d op).Settled := by
  rw [← putArray_view] at hp
  exact (csrAiaHelper_settled imsic.putArray_self hs hp
    (by rw [putArray_eidelivery]; exact hb)).1

theorem windowed_unwritten (h : (csrAtomicHelper (imsic.array p reg) d op).2 = false) :
    putBits imsic.view p (windowed false reg d op (bitsOf imsic.view p)) = imsic.view := by
  rw [← putArray_view, csrAtomicHelper_kept h, putArray_self]

theorem accessPair_settled {nx : Fin 8} {h : W64} (hs : imsic.Settled) (plain : Plain (putBits imsic.view p
    (windowed false nx h op (windowed false reg d op (bitsOf imsic.view p))))) :
    ((imsic.accessWord p reg d op).accessWord p nx h op).Settled := by
  obtain ⟨hv, hd, -⟩ := accessWord_keeps imsic
  have hp : Plain (putBits (imsic.accessWord p reg d op).view p
      (windowed false nx h op (bitsOf (imsic.accessWord p reg d op).view p))) := by
    rw [hv, bitsOf_putBits, putBits_putBits]
    exact plain
  apply accessWord_settled (by rw [hd]; exact hs.bool) _ hp
  intro hu
  have same := windowed_unwritten hu
  rw [same, hv] at hp
  exact accessWord_settled hs.bool (fun _ => hs) hp

theorem csrAiaPairHelper_settled {rv64 : Bool} {reg : Nat} {p : Bool} (hs : imsic.Settled)
    (hp : Plain (putBits imsic.view p (windowed rv64 reg d op (bitsOf imsic.view p)))) :
    ∃ a, ((imsic.csrAiaPairHelper rv64 reg p d op).map Prod.snd).getD imsic = a ∧ a.Settled ∧
      a.view = putBits imsic.view p (windowed rv64 reg d op (bitsOf imsic.view p)) ∧ a.reported = imsic.reported := by
  unfold csrAiaPairHelper
  by_cases odd : rv64 ∧ reg % 2 = 1
  · rw [if_pos odd, windowed_none fun i => if_pos odd, putBits_self]
    exact ⟨imsic, rfl, hs, rfl, rfl⟩
  rw [if_neg odd]
  by_cases hb : reg < 8
  · rw [dif_pos hb]
    dsimp only
    by_cases pair : rv64 ∧ reg + 1 < 8
    · obtain ⟨hw, next⟩ := pair
      subst hw
      have he : reg % 2 ≠ 1 := fun hi => odd ⟨rfl, hi⟩
      rw [dif_pos ⟨rfl, next⟩]
      rw [windowed_pair he] at hp ⊢
      obtain ⟨hv, -, hr⟩ := accessWord_keeps imsic
      obtain ⟨view, -, rest⟩ := accessWord_keeps (imsic.accessWord p ⟨reg, hb⟩ d op)
      refine ⟨(imsic.accessWord p ⟨reg, hb⟩ d op).accessWord p ⟨reg + 1, next⟩ (d >>> 32) op, rfl,
        accessPair_settled hs hp, ?_, rest.trans hr⟩
      rw [view, hv, bitsOf_putBits, putBits_putBits]
    · have hn : rv64 = false := by
        cases rv64 with
        | false => rfl
        | true =>
          have he : reg % 2 ≠ 1 := fun hi => odd ⟨rfl, hi⟩
          exact absurd ⟨rfl, by omega⟩ pair
      rw [hn] at hp ⊢
      obtain ⟨hv, -, hr⟩ := accessWord_keeps imsic
      exact ⟨imsic.accessWord p ⟨reg, hb⟩ d op, rfl, accessWord_settled hs.bool (fun _ => hs) hp, hv, hr⟩
  · have ho : ∀ i : Fin 256, window rv64 reg d i = none := by
      intro i
      rw [window, if_neg odd, if_neg (by omega), if_neg (by omega)]
    rw [dif_neg hb, windowed_none ho, putBits_self]
    exact ⟨imsic, rfl, hs, rfl, rfl⟩

end

section
variable {imsic : Imsic} {irq : W32}

theorem insert_view (hb : irq ≠ 0 ∧ irq.toNat < 256) :
    ({ imsic with eip := imsic.eip.insert irq.toNat } : Imsic).view = accept imsic.view irq := by
  have hw : irq.toNat / 32 < 8 := by omega
  rw [accept, if_pos hb]
  unfold view setPending
  simp only [File.mk.injEq, true_and, and_true]
  funext j
  rw [has_insert _ hw]
  by_cases hh : j.val = irq.toNat <;> simp

theorem accept_pending {file : File 256} (hp : ∀ hb : irq.toNat < 256, file.pending ⟨irq.toNat, hb⟩) :
    accept file irq = file := by
  unfold accept
  split
  · apply File.ext <;> try rfl
    funext j
    simp only [setPending]
    split
    · rename_i hb hh
      rw [show j = ⟨irq.toNat, hb.2⟩ from Fin.ext hh]
      exact (hp hb.2).symm
    · rfl
  · rfl

theorem accept_candidate {f : File 256} (bound : irq ≠ 0 ∧ irq.toNat < 256) {j : Fin 256} :
    (accept f irq).candidate j ↔ f.candidate j ∨
      j.val = irq.toNat ∧ f.enabled j ∧ (f.threshold = 0 ∨ j.val < f.threshold) := by
  have hn : irq.toNat ≠ 0 := fun hz => bound.1 (eq_of_toNat_eq hz)
  rw [accept, if_pos bound, candidate_iff, candidate_iff, active_iff, active_iff]
  simp only [setPending]
  by_cases hh : j.val = irq.toNat
  · simp only [hh, if_true, true_and]
    constructor
    · exact fun ha => .inr ha.2
    · rintro (⟨-, ⟨-, he⟩, hb⟩ | ⟨he, hb⟩)
      · exact ⟨hn, he, hb⟩
      · exact ⟨hn, he, hb⟩
  · simp [hh]

theorem accept_raised {f : File 256} (hb : irq ≠ 0 ∧ irq.toNat < 256) (hd : f.delivery)
    (plain : Plain (accept f irq)) : (accept f irq).raised ↔
      ((f.threshold = 0 ∨ irq.toNat + 1 < f.threshold) ∧ f.enabled ⟨irq.toNat, hb.2⟩ ∧
        f.pending ⟨irq.toNat, hb.2⟩ = false) ∨ f.raised := by
  have same : (accept f irq).delivery = f.delivery := by rw [accept, if_pos hb]; rfl
  have hs : (accept f irq).threshold = f.threshold := by rw [accept, if_pos hb]; rfl
  rw [raised_iff, raised_iff, same]
  constructor
  · rintro ⟨-, some'⟩
    have hw : (accept f irq).top ≠ 0 := by
      intro idle
      obtain ⟨i, hi⟩ := some'
      rw [top_eq_zero_iff.mp idle i] at hi
      cases hi
    obtain ⟨top, best, hi, -⟩ := exists_top hw
    have ha := plain.below hw
    rw [hs, ← best] at ha
    rcases (accept_candidate hb).mp hi with cases' | ⟨hh, he, hb2⟩
    · exact .inr ⟨hd, top, cases'⟩
    · -- the top identity is that of the message: it is new, or it was a candidate before
      have hs2 : top = ⟨irq.toNat, hb.2⟩ := Fin.ext hh
      rw [hh] at ha hb2
      rw [hs2] at he
      cases hp : f.pending ⟨irq.toNat, hb.2⟩ with
      | false => exact .inl ⟨by omega, he, rfl⟩
      | true =>
        have hn : irq.toNat ≠ 0 := fun hz => hb.1 (eq_of_toNat_eq hz)
        exact .inr ⟨hd, _, candidate_iff.mpr ⟨hn, active_iff.mpr ⟨hp, he⟩, hb2⟩⟩
  · rintro (⟨hb2, he, -⟩ | ⟨-, i, cases'⟩)
    · exact ⟨hd, _, (accept_candidate hb).mpr (.inr ⟨rfl, he, by dsimp only; omega⟩)⟩
    · exact ⟨hd, i, (accept_candidate hb).mpr (.inl cases')⟩

theorem bit_eq_zero_iff {bs : Bits 8} (bound : irq.toNat < 256) :
    bitOf irq.toNat &&& bs ⟨irq.toNat / 32, by omega⟩ = 0 ↔ bs.has irq.toNat = false := by
  rw [has_eq bs (show irq.toNat / 32 < 8 by omega), BitVec.and_comm, and_bitOf]
  split
  · rename_i hb
    rw [hb]
    exact iff_of_false (bitOf_ne_zero _) (by decide)
  · rename_i hb
    exact iff_of_true rfl (Bool.eq_false_iff.mpr hb)

theorem sendAiaIrq_settled (hs : imsic.Settled) (hp : Plain (accept imsic.view irq))
    (hk : irq ≠ 0 → irq.toNat < 256 → imsic.eidelivery = 0 → imsic.eip.has irq.toNat) :
    (imsic.sendAiaIrq irq).Settled ∧ (imsic.sendAiaIrq irq).view = accept imsic.view irq ∧
      (imsic.sendAiaIrq irq).reported = imsic.reported := by
  unfold sendAiaIrq
  by_cases hb : irq ≠ 0 ∧ irq.toNat < irqLimit
  · have hl : irq ≠ 0 ∧ irq.toNat < 256 := hb
    rw [dif_pos hb]
    rcases hs.bool with ho | on
    · have same : accept imsic.view irq = imsic.view := accept_pending fun _ => hk hl.1 hl.2 ho
      rw [if_neg (by simp [ho]), same]
      exact ⟨hs, rfl, rfl⟩
    · have hd : imsic.view.delivery := by simp [view, on]
      have hr := accept_raised hl hd hp
      rw [← insert_view hl] at hp hr ⊢
      rw [if_pos (by rw [on]; decide)]
      have ha : (irq < imsic.eithreshold - 1 ∧ bitOf irq.toNat &&& imsic.eie ⟨irq.toNat / 32, by omega⟩ ≠ 0 ∧
          bitOf irq.toNat &&& imsic.eip ⟨irq.toNat / 32, by omega⟩ = 0) ↔
          (imsic.view.threshold = 0 ∨ irq.toNat + 1 < imsic.view.threshold) ∧
            imsic.view.enabled ⟨irq.toNat, hl.2⟩ ∧ imsic.view.pending ⟨irq.toNat, hl.2⟩ = false := by
        rw [lt_def, below_iff hl.2, Ne, bit_eq_zero_iff hl.2, bit_eq_zero_iff hl.2, Bool.not_eq_false]
        rfl
      by_cases hn : irq < imsic.eithreshold - 1 ∧ bitOf irq.toNat &&& imsic.eie ⟨irq.toNat / 32, by omega⟩ ≠ 0 ∧
          bitOf irq.toNat &&& imsic.eip ⟨irq.toNat / 32, by omega⟩ = 0
      · rw [if_pos hn]
        exact ⟨⟨hp, .inr on, (hr.mpr (.inl (ha.mp hn))).symm⟩, rfl, rfl⟩
      · rw [if_neg hn]
        refine ⟨⟨hp, .inr on, ?_⟩, rfl, rfl⟩
        rw [Bool.eq_iff_iff, hr]
        rw [hs.line]
        constructor
        · exact .inr
        · rintro (hi | both)
          · exact absurd (ha.mpr hi) hn
          · exact both
  · have same : accept imsic.view irq = imsic.view := if_neg hb
    rw [dif_neg hb, same]
    exact ⟨hs, rfl, rfl⟩

theorem mmioWrite_eq (imsic : Imsic) (off : Nat) (da : W32) :
    imsic.mmioWrite off da = imsic.sendAiaIrq (messageIrq off da) := by
  have hu : ¬ ((0 : W32) ≠ 0 ∧ (0 : W32).toNat < irqLimit) := fun hs => hs.1 rfl
  have hi : imsic.sendAiaIrq 0 = imsic := dif_neg hu
  unfold mmioWrite messageIrq
  split
  · rfl
  · split
    · rfl
    · exact hi.symm

end

section
variable {im : Imsic} {d : W64} {op : CsrOp}

theorem eidelivery_after {d : W64} {op : CsrOp} (hb : im.eidelivery = 0 ∨ im.eidelivery = 1) :
    let val := (csrAtomicHelper im.eidelivery (d &&& 1) op).1
    (val = 0 ∨ val = 1) ∧ decide (val = 1) = bitAfter (decide (im.eidelivery = 1)) (d.getLsbD 0) op := by
  have hl : d &&& 1 = if d.getLsbD 0 then 1 else 0 := by
    apply eq_of_getLsbD_eq
    intro i bound
    by_cases hf : i = 0
    · cases bit : d.getLsbD 0 <;> rw [hf, getLsbD_and, bit] <;> rfl
    · cases d.getLsbD 0 <;> simp [hf]
  rw [hl]
  rcases hb with ho | on
  · rw [ho]
    cases d.getLsbD 0 <;> cases op <;> decide
  · rw [on]
    cases d.getLsbD 0 <;> cases op <;> decide

theorem csrIndirect_settled {rv64 : Bool} {c : Nat} (hs : im.Settled) (hp : Plain (accessed rv64 im.view c d op)) :
    ∃ a, ((im.csrIndirect rv64 c d op).map Prod.snd).getD im = a ∧ a.Settled ∧
      a.view = accessed rv64 im.view c d op ∧ a.reported = im.reported := by
  unfold csrIndirect
  unfold accessed at hp ⊢
  by_cases here : c = csriEidelivery
  · rw [if_pos here] at hp
    rw [if_pos here, if_pos here]
    obtain ⟨hb, value⟩ := eidelivery_after hs.bool
    have hv : ({ im with eidelivery := (csrAtomicHelper im.eidelivery (d &&& 1) op).1 } : Imsic).view
        = { im.view with delivery := bitAfter im.view.delivery (d.getLsbD 0) op } :=
      File.ext value rfl rfl rfl
    rw [← hv] at hp ⊢
    exact ⟨_, rfl, csrAiaHelper_settled rfl (fun _ => hs) hp hb⟩
  rw [if_neg here] at hp
  rw [if_neg here, if_neg here]
  by_cases hi : c = csriEithreshold
  · rw [if_pos hi] at hp
    rw [if_pos hi, if_pos hi]
    have hv : ({ im with eithreshold := (csrAtomicHelper im.eithreshold d op).1 } : Imsic).view
        = { im.view with
            threshold := (csrAtomicHelper (BitVec.ofNat 32 im.view.threshold) d op).1.toNat } := by
      simp [view]
    rw [← hv] at hp ⊢
    exact ⟨_, rfl, csrAiaHelper_settled rfl (fun _ => hs) hp hs.bool⟩
  rw [if_neg hi] at hp
  rw [if_neg hi, if_neg hi]
  by_cases hi4 : csriMiprio0 ≤ c ∧ c ≤ csriMiprio15
  · have none : ¬ (csriEip0 ≤ c ∧ c ≤ csriEip63) := by
      unfold csriEip0 csriMiprio15 at *
      omega
    have hn : ¬ (csriEie0 ≤ c ∧ c ≤ csriEie63) := by
      unfold csriEie0 csriMiprio15 at *
      omega
    rw [if_pos hi4, if_neg none, if_neg hn]
    exact ⟨im, rfl, hs, rfl, rfl⟩
  rw [if_neg hi4]
  by_cases hi2 : csriEip0 ≤ c ∧ c ≤ csriEip63
  · rw [if_pos hi2] at hp
    rw [if_pos hi2, if_pos hi2]
    exact csrAiaPairHelper_settled hs hp
  rw [if_neg hi2] at hp
  rw [if_neg hi2, if_neg hi2]
  by_cases hi3 : csriEie0 ≤ c ∧ c ≤ csriEie63
  · rw [if_pos hi3] at hp
    rw [if_pos hi3, if_pos hi3]
    exact csrAiaPairHelper_settled hs hp
  rw [if_neg hi3, if_neg hi3]
  exact ⟨im, rfl, hs, rfl, rfl⟩

theorem csrTopei_settled (hs : im.Settled) (hp : Plain (if isCsrWrite d op then im.view.claim else im.view))
    (hc : isCsrWrite d op → im.view.top ≠ 0 → ∀ j, im.view.claim.active j → im.view.claim.top ≠ 0) :
    (im.csrTopei d op).Settled ∧ (im.csrTopei d op).view = (if isCsrWrite d op then im.view.claim else im.view) ∧
      (im.csrTopei d op).reported = BitVec.ofNat 32 im.view.top ||| BitVec.ofNat 32 im.view.top <<< 16 := by
  unfold csrTopei getAiaIrq
  cases hw : isCsrWrite d op with
  | true =>
    rw [hw] at hp
    obtain ⟨a, hl, hv, live, -, hd⟩ := updateAiaInternal_claim hs.plain hs.bool (hc hw)
    rw [hl]
    refine ⟨⟨?_, ?_, ?_⟩, hv, rfl⟩
    · exact hv.symm ▸ hp
    · exact hd.symm ▸ hs.bool
    · exact live.trans (congrArg raised hv.symm)
  | false =>
    rw [updateAiaInternal_look hs.plain hs.bool]
    exact ⟨⟨hs.plain, hs.bool, rfl⟩, rfl, rfl⟩

end

section
variable {rv64 : Bool}

def Follows (imsic : Imsic) (spec : Spec) : Prop := imsic.Settled ∧ spec = ⟨imsic.view, imsic.reported⟩

theorem Follows.agrees {imsic : Imsic} {spec : Spec} (hf : Follows imsic spec) : Agrees imsic spec := by
  obtain ⟨hs, rfl⟩ := hf
  refine ⟨rfl, rfl, hs.line, ?_⟩
  rw [getAiaIrq, updateAiaInternal_look hs.plain hs.bool]

theorem after_follows (imsic : Imsic) (s : Spec) (e : Event) (hc : Careful rv64 imsic e)
    (hf : Follows imsic s) : Follows (after rv64 imsic e) (s.after rv64 e) := by
  obtain ⟨hs, rfl⟩ := hf
  have hp := hc.plain
  cases e with
  | message off da =>
    obtain ⟨nx, hv, hr⟩ := sendAiaIrq_settled hs hp (hc.kept off da rfl)
    rw [after, mmioWrite_eq]
    exact ⟨nx, Spec.ext hv.symm hr.symm⟩
  | indirect csri de op =>
    obtain ⟨nx, hi, hn, hv, hr⟩ := csrIndirect_settled hs hp
    rw [after, hi]
    exact ⟨hn, Spec.ext hv.symm hr.symm⟩
  | topei de op =>
    obtain ⟨nx, hv, hr⟩ := csrTopei_settled hs hp (hc.claimed de op rfl)
    exact ⟨nx, Spec.ext hv.symm hr.symm⟩

theorem view_init : init.view = empty 256 := by
  have h (i : Fin 256) : has (fun _ : Fin 8 => 0) i = false := by
    rw [has_eq _ (show i.val / 32 < 8 by omega)]
    simp
  exact File.ext rfl rfl (funext h) (funext h)

theorem init_follows : Follows init Spec.init := by
  refine ⟨⟨?_, .inl rfl, ?_⟩, ?_⟩
  · rw [view_init]
    exact ⟨rfl, fun _ => empty_top, fun h => absurd empty_top h, fun _ h => absurd empty_top h⟩
  · rfl
  · rw [view_init]
    rfl

/-- The file is what the architecture asks for in every run without the situations that the search gets wrong. -/
theorem agrees_of_careful {events : List Event} (careful : StepsMeet (after rv64) (Careful rv64) init events) :
    Agrees (run (after rv64) init events) (run (Spec.after rv64) Spec.init events) :=
  (careful.run_refines after_follows init_follows).agrees

theorem agrees_of_one_claimed : Agrees
    (run (after true) init [.indirect 0x70 1 .swap, .indirect 0xC0 0x20 .swap, .message 0 5, .topei 0 .swap])
    (run (Spec.after true) Spec.init
      [.indirect 0x70 1 .swap, .indirect 0xC0 0x20 .swap, .message 0 5, .topei 0 .swap]) := by
  apply agrees_of_careful
  refine ⟨⟨by decide +kernel, ?_, ?_⟩, ⟨by decide +kernel, ?_, ?_⟩, ⟨by decide +kernel, ?_, ?_⟩,
    ⟨by decide +kernel, ?_, ?_⟩, trivial⟩
  · exact nofun
  · exact nofun
  · exact nofun
  · exact nofun
  · intro _ _ _ _ _ off
    exact absurd off (by decide +kernel)
  · exact nofun
  · exact nofun
  · intro _ _ i _ _
    decide +kernel

theorem messages_lost_and_misordered :
    ¬ Agrees (run (after true) init [.message 0 5]) (run (Spec.after true) Spec.init [.message 0 5]) ∧ ¬ Agrees
      (run (after true) init [.indirect 0x70 1 .swap, .indirect 0xC0 0x60 .swap, .message 0 5, .message 0 6])
      (run (Spec.after true) Spec.init
        [.indirect 0x70 1 .swap, .indirect 0xC0 0x60 .swap, .message 0 5, .message 0 6]) := by
  constructor
  · intro agrees
    have pending := congrFun (congrArg File.pending agrees.file) 5
    revert pending
    decide +kernel
  · intro agrees
    have top := agrees.top
    revert top
    decide +kernel

end
end RiscvEmulators.Rvvm.Imsic
