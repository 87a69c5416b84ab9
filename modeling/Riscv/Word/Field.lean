import Mathlib.Algebra.Group.Nat.Defs

namespace RiscvEmulators.Word
open BitVec
variable {w : Nat}

abbrev W64 := BitVec 64

def maskUnit (mask : BitVec w) : BitVec w := mask &&& ~~~(mask <<< 1)
def getField (reg mask : BitVec w) : BitVec w := (reg &&& mask) / maskUnit mask

def setField (reg mask value : BitVec w) : BitVec w :=
  (reg &&& ~~~mask) ||| (value * maskUnit mask &&& mask)

def AgreeOff (mask x y : BitVec w) : Prop := x &&& ~~~mask = y &&& ~~~mask
def Within (mask x : BitVec w) : Prop := x &&& ~~~mask = 0
def merge (reg mask value : BitVec w) : BitVec w := (reg &&& ~~~mask) ||| (value &&& mask)

instance (mask x y : BitVec w) : Decidable (AgreeOff mask x y) :=
  inferInstanceAs (Decidable (_ = _))

instance (mask x : BitVec w) : Decidable (Within mask x) :=
  inferInstanceAs (Decidable (_ = _))

theorem agreeOff_iff (mask x y : BitVec w) :
    AgreeOff mask x y ↔ ∀ (i : Nat) (hb : i < w), mask[i] = false → x[i] = y[i] := by
  constructor
  · intro ha i hb hc
    have bit := congrArg (fun wo => wo.getLsbD i) ha
    simpa [hb, hc] using bit
  · intro hbi
    apply eq_of_getElem_eq
    intro i hb
    cases hc : mask[i] <;> simp_all

theorem within_iff (mask x : BitVec w) : Within mask x ↔ ∀ (i : Nat) (hb : i < w), mask[i] = false → x[i] = false := by
  have h := agreeOff_iff mask x 0#w
  rw [AgreeOff] at h
  simpa [Within] using h

variable {mask x y small l : BitVec w} (reg : BitVec w) {bits : BitVec w}

theorem Within.getLsbD {n : Nat} (hw : Within mask x) (bit : x.getLsbD n) : mask.getLsbD n := by
  have hb := lt_of_getLsbD bit
  have hc := (within_iff _ _).mp hw n hb
  rw [getLsbD_eq_getElem hb] at bit ⊢
  cases hs : mask[n] with
  | true => rfl
  | false => rw [hc hs] at bit; cases bit

theorem within_zero (mask : BitVec w) : Within mask 0 := by simp [Within]

theorem within_self (mask : BitVec w) : Within mask mask := by simp [Within]

theorem within_or_left (x y : BitVec w) : Within (x ||| y) x := by
  rw [within_iff]
  simp_all

theorem within_or_right (x y : BitVec w) : Within (x ||| y) y := by
  rw [BitVec.or_comm]
  exact within_or_left y x

theorem Within.or (hl : Within mask x) (hr : Within mask y) : Within mask (x ||| y) := by
  rw [within_iff] at hl hr ⊢
  intro i hb hc
  simp [hl i hb hc, hr i hb hc]

theorem Within.and_right (hw : Within mask x) (y : BitVec w) : Within mask (y &&& x) := by
  rw [within_iff] at hw ⊢
  intro i hb hc
  simp [hw i hb hc]

theorem Within.inter {m' : BitVec w} (hl : Within mask x) (hr : Within m' x) : Within (mask &&& m') x := by
  rw [within_iff] at hl hr ⊢
  intro i hb hc
  rw [getElem_and, Bool.and_eq_false_iff] at hc
  rcases hc with hc | hc
  · exact hl i hb hc
  · exact hr i hb hc

theorem Within.mono (hw : Within small x) (hi : Within l small) : Within l x := by
  rw [within_iff] at hw hi ⊢
  intro i hb hc
  exact hw i hb (hi i hb hc)

theorem Within.not (h : Within l small) : Within (~~~small) (~~~l) := by
  rw [Within, BitVec.not_not, BitVec.and_comm]
  exact h

theorem Within.and_eq_zero (h : Within (~~~mask) x) : x &&& mask = 0 := by
  simpa [Within] using h

theorem within_ite {c : Prop} [Decidable c] (h : c → Within mask x) : Within mask (if c then x else 0) := by
  split
  · exact h ‹_›
  · exact within_zero mask

theorem AgreeOff.refl (mask x : BitVec w) : AgreeOff mask x x := rfl

theorem AgreeOff.symm (h : AgreeOff mask x y) : AgreeOff mask y x :=
  Eq.symm h

theorem AgreeOff.trans {z : BitVec w} (hf : AgreeOff mask x y) (hs : AgreeOff mask y z)
    : AgreeOff mask x z := Eq.trans hf hs

theorem AgreeOff.mono (ha : AgreeOff small x y) (hw : Within l small) : AgreeOff l x y := by
  rw [agreeOff_iff] at ha ⊢
  rw [within_iff] at hw
  intro i hb hc
  exact ha i hb (hw i hb hc)

theorem AgreeOff.or {x' y' : BitVec w} (hl : AgreeOff mask x y) (hr : AgreeOff mask x' y') :
    AgreeOff mask (x ||| x') (y ||| y') := by
  rw [agreeOff_iff] at hl hr ⊢
  intro i hb hc
  rw [getElem_or, getElem_or, hl i hb hc, hr i hb hc]

theorem agreeOff_or {va : BitVec w} (x : BitVec w) (hw : Within mask va) : AgreeOff mask (x ||| va) x := by
  rw [agreeOff_iff]
  rw [within_iff] at hw
  intro i hb hc
  rw [getElem_or, hw i hb hc, Bool.or_false]

theorem agreeOff_setField (mask va : BitVec w) : AgreeOff mask (setField reg mask va) reg := by
  rw [agreeOff_iff]
  intro i hb hc
  simp [setField, hc]

theorem agreeOff_merge (mask x va : BitVec w) (hw : Within mask va) : AgreeOff mask ((x &&& ~~~mask) ||| va) x := by
  rw [agreeOff_iff]
  rw [within_iff] at hw
  intro i hb hc
  simp [hc, hw i hb hc]

theorem agreeOff_and_not (x : BitVec w) (hw : Within l small) : AgreeOff l (x &&& ~~~small) x := by
  rw [agreeOff_iff]
  rw [within_iff] at hw
  intro i hb hc
  simp [hw i hb hc]

theorem AgreeOff.masked {va : BitVec w} (ha : AgreeOff l va x) (mask : BitVec w) :
    AgreeOff l ((x &&& ~~~mask) ||| (va &&& mask)) x := by
  rw [agreeOff_iff] at ha ⊢
  intro i hb hc
  have bit := ha i hb hc
  cases hs : mask[i] <;> simp [hs, bit]

theorem AgreeOff.and_eq (ha : AgreeOff mask x y) (hap : Within (~~~mask) bits) : x &&& bits = y &&& bits := by
  rw [agreeOff_iff] at ha
  rw [within_iff] at hap
  apply eq_of_getElem_eq
  intro i hb
  cases hc : mask[i] <;> simp_all

theorem and_eq_of_within (hs : x &&& mask = y &&& mask) (hw : Within mask bits) : x &&& bits = y &&& bits := by
  have ha : AgreeOff (~~~mask) x y := by
    rw [AgreeOff, BitVec.not_not]
    exact hs
  exact ha.and_eq (by rwa [BitVec.not_not])

theorem Within.and_eq (hw : Within mask x) : x &&& mask = x := by
  rw [within_iff] at hw
  apply eq_of_getElem_eq
  intro i hb
  cases hs : mask[i] <;> simp_all

theorem Within.and_ne_zero (hw : Within mask x) (hs : x &&& bits ≠ 0) : mask &&& bits ≠ 0 := by
  intro hc
  apply hs
  calc x &&& bits = x &&& mask &&& bits := by rw [hw.and_eq]
    _ = 0 := by simp [BitVec.and_assoc, hc]

theorem or_not_and (x : BitVec w) (ha : Within (~~~mask) bits) : (x ||| ~~~mask) &&& bits = bits := by
  rw [within_iff] at ha
  apply eq_of_getElem_eq
  intro i hb
  cases hc : mask[i] <;> simp_all

theorem and_eq_of_xor (hsa : (x ^^^ y) &&& mask = 0) : x &&& mask = y &&& mask := by
  apply eq_of_getElem_eq
  intro i hb
  have bit : ((x ^^^ y) &&& mask)[i] = false := by simp [hsa]
  simp only [getElem_and] at bit ⊢
  cases hs : mask[i] <;> simp_all

theorem or_and_ne_zero (hs : x &&& bits ≠ 0) (y : BitVec w) : (x ||| y) &&& bits ≠ 0 := by
  rw [BitVec.and_comm, and_or_distrib_left, BitVec.and_comm bits x]
  intro hc
  exact hs (or_eq_zero_iff.mp hc).1

theorem overlaid_and (x va : BitVec w) (hw : Within mask bits) : ((x &&& ~~~mask) ||| va) &&& bits = va &&& bits := by
  rw [within_iff] at hw
  apply eq_of_getElem_eq
  intro i hb
  cases hs : mask[i] <;> simp_all

theorem masked_and (x va : BitVec w) (h : Within mask bits) :
    ((x &&& ~~~mask) ||| (va &&& mask)) &&& bits = va &&& bits := by
  rw [overlaid_and x _ h, BitVec.and_assoc, BitVec.and_comm mask, h.and_eq]

theorem and_twoPow_eq_zero (x : BitVec w) (k : Nat) (hb : k < w) : x &&& twoPow w k = 0 ↔ x[k] = false := by
  have hs : twoPow w k ≠ 0 := by
    intro hz
    have bit := congrArg (fun wo => wo.getLsbD k) hz
    simp [hb] at bit
  rw [and_twoPow, getLsbD_eq_getElem hb]
  cases x[k] <;> simp_all

theorem or_twoPow_eq {k : Nat} (hb : k < w) (hs : x &&& twoPow w k ≠ 0) : x ||| twoPow w k = x := by
  have bit : x.getLsbD k := by
    rwa [ne_eq, and_twoPow_eq_zero x k hb, Bool.not_eq_false] at hs
  apply eq_of_getLsbD_eq
  intro i hl
  rw [getLsbD_or]
  by_cases hh : k = i
  · subst hh
    rw [bit, Bool.true_or]
  · simp [hh]

theorem getField_mul_maskUnit {x mask : BitVec w} {k : Nat} (hbo : k < w)
    (hu : maskUnit mask = twoPow w k) (hl : mask >>> k <<< k = mask) :
    getField x mask * maskUnit mask = x &&& mask := by
  rw [getField, hu, udiv_twoPow_eq_of_lt hbo, mul_twoPow_eq_shiftLeft,
    ushiftRight_and_distrib, shiftLeft_and_distrib, hl]
  apply eq_of_getElem_eq
  intro i hi
  have bit := congrArg (fun wo => wo.getLsbD i) hl
  by_cases hb : i < k
  · have hc : mask[i] = false := by simpa [hi, hb] using bit.symm
    simp [hc]
  · simp [hb, show k + (i - k) = i by omega, hi]

theorem and_eq_of_getField (k : Nat) (hb : k < w) (hu : maskUnit mask = twoPow w k)
    (hl : mask >>> k <<< k = mask) (hs : getField x mask = getField y mask) : x &&& mask = y &&& mask := by
  rw [← getField_mul_maskUnit hb hu hl, hs, getField_mul_maskUnit hb hu hl]

theorem getField_congr (h : x &&& mask = y &&& mask) : getField x mask = getField y mask := by
  rw [getField, getField, h]

theorem getField_eq_zero_iff (k : Nat) (hb : k < w) (hu : maskUnit mask = twoPow w k)
    (hl : mask >>> k <<< k = mask) : getField x mask = 0 ↔ x &&& mask = 0 := by
  constructor
  · intro hc
    rw [← getField_mul_maskUnit hb hu hl, hc]
    simp
  · intro hc
    rw [getField, hc]
    exact zero_udiv

theorem setField_getField (x mask : BitVec w) (k : Nat) (hb : k < w) (hu : maskUnit mask = twoPow w k)
    (hl : mask >>> k <<< k = mask) : setField reg mask (getField x mask) = (reg &&& ~~~mask) ||| (x &&& mask) := by
  rw [setField, getField_mul_maskUnit hb hu hl, BitVec.and_assoc, BitVec.and_self]

theorem getField_eq_shift (x mask : BitVec w) (k : Nat) (hb : k < w)
    (hu : maskUnit mask = twoPow w k) : getField x mask = (x &&& mask) >>> k := by
  rw [getField, hu, udiv_twoPow_eq_of_lt hb]

theorem setField_and (mask va : BitVec w) : setField reg mask va &&& mask = va * maskUnit mask &&& mask := by
  apply eq_of_getElem_eq
  intro i hb
  cases hs : mask[i] <;> simp [setField, hs]

theorem getField_setField (mask value : BitVec w) (k : Nat) (hb : k < w) (hu : maskUnit mask = twoPow w k)
    (hf : (value <<< k &&& mask) >>> k = value) : getField (setField reg mask value) mask = value := by
  rw [getField_eq_shift _ _ k hb hu, setField_and, hu, mul_twoPow_eq_shiftLeft, hf]

theorem getField_setField_getField (x l small : BitVec w) (k : Nat) (hb : k < w)
    (hu : maskUnit l = twoPow w k) (hn : maskUnit small = twoPow w k)
    (hl : small >>> k <<< k = small) (hi : Within l small) :
    getField (setField reg l (getField x small)) l = getField x small := by
  have hs : getField x small * maskUnit l = x &&& small := by
    rw [hu, ← hn, getField_mul_maskUnit hb hn hl]
  have hk : x &&& small &&& l = x &&& small := by
    rw [within_iff] at hi
    apply eq_of_getElem_eq
    intro i hin
    cases hse : l[i] <;> simp_all
  rw [getField_eq_shift _ l k hb hu, setField_and, hs, hk, ← getField_eq_shift x small k hb hn]

theorem or_split_inj {h low h' l' : BitVec w} (off : h &&& mask = 0) (ho : h' &&& mask = 0)
    (hsa : h ||| (low &&& mask) = h' ||| (l' &&& mask)) : h = h' ∧ low &&& mask = l' &&& mask := by
  have hbi (i : Nat) (hb : i < w) : h[i] = h'[i] ∧ (low &&& mask)[i] = (l' &&& mask)[i] := by
    have bit : (h &&& mask)[i] = false ∧ (h' &&& mask)[i] = false ∧
        (h ||| (low &&& mask))[i] = (h' ||| (l' &&& mask))[i] := by simp [off, ho, hsa]
    cases hs : mask[i] <;> grind
  exact ⟨eq_of_getElem_eq fun i hb => (hbi i hb).1, eq_of_getElem_eq fun i hb => (hbi i hb).2⟩

section
variable {reg m wr l v o : BitVec w}

theorem merge_and_eq_zero (ho : reg &&& o = 0) (hn : v &&& wr &&& o = 0) : merge reg (wr &&& l) v &&& o = 0 := by
  have hk : o &&& (reg &&& ~~~(wr &&& l)) = 0 := by
    rw [← BitVec.and_assoc, BitVec.and_comm o, ho]
    exact zero_and
  have hw : o &&& (v &&& (wr &&& l)) = 0 := by
    rw [show o &&& (v &&& (wr &&& l)) = v &&& wr &&& o &&& l by ac_rfl, hn]
    exact zero_and
  unfold merge
  rw [BitVec.and_comm, and_or_distrib_left, hk, hw]
  exact BitVec.or_self

variable (reg m v : BitVec w)

theorem getElem_merge {i : Nat} (h : i < w) : (merge reg m v)[i] = if m[i] then v[i] else reg[i] := by
  simp only [merge, getElem_or, getElem_and, getElem_not]
  cases m[i] <;> simp

@[simp] theorem merge_self (x m : BitVec w) : merge x m x = x := by
  apply eq_of_getElem_eq
  intro i h
  rw [getElem_merge]
  split <;> rfl

theorem merge_and_not {m bits : BitVec w} (hi : Within m bits) :
    merge reg m v &&& ~~~bits = merge reg m (v &&& ~~~bits) := by
  rw [within_iff] at hi
  apply eq_of_getElem_eq
  intro i hb
  simp only [getElem_and, getElem_merge]
  cases hs : m[i] <;> simp_all

theorem not_merge : ~~~merge reg m v = merge (~~~reg) m (~~~v) := by
  apply eq_of_getElem_eq
  intro i h
  simp only [getElem_not, getElem_merge]
  split <;> rfl

theorem agreeOff_merged : AgreeOff m (merge reg m v) reg :=
  agreeOff_merge m reg (v &&& m) ((within_self m).and_right v)

theorem merge_ne_zero {reg m v t : BitVec w} (hi : Within t m) (hs : reg &&& ~~~t ≠ 0) : merge reg m v ≠ 0 := by
  intro hg
  have hk := (agreeOff_merged reg m v).mono hi
  rw [hg] at hk
  exact hs (Eq.trans hk.symm zero_and)

end

def sliceMask (w lo n : Nat) : BitVec w := (BitVec.allOnes n).setWidth w <<< lo

theorem getLsbD_sliceMask {lo n : Nat} {j : Nat} (hb : j < w) :
    (sliceMask w lo n).getLsbD j = decide (lo ≤ j ∧ j < lo + n) := by
  rw [sliceMask, getLsbD_shiftLeft, getLsbD_setWidth]
  by_cases hl : j < lo
  · simp [Nat.not_le.mpr hl]
  · simp [hb, show lo ≤ j by omega, show j - lo < w by omega, show j - lo < n ↔ j < lo + n by omega]

theorem and_sliceMask_eq_iff (x y : BitVec w) (lo n : Nat) (hf : lo + n ≤ w) :
    x &&& sliceMask w lo n = y &&& sliceMask w lo n ↔ x.extractLsb' lo n = y.extractLsb' lo n := by
  constructor
  · intro hs
    apply eq_of_getLsbD_eq
    intro i hb
    have bit := congrArg (fun wo => wo.getLsbD (lo + i)) hs
    simp only [getLsbD_and, getLsbD_sliceMask (show lo + i < w by omega)] at bit
    simpa [hb] using bit
  · intro hs
    apply eq_of_getLsbD_eq
    intro j hb
    have bit := congrArg (fun wo => wo.getLsbD (j - lo)) hs
    simp only [getLsbD_and, getLsbD_sliceMask hb]
    by_cases hi : lo ≤ j ∧ j < lo + n
    · simpa [hi, show j - lo < n by omega] using bit
    · simp [hi]

theorem and_sliceMask_eq_zero_iff (x : BitVec w) {lo n : Nat} (hf : lo + n ≤ w) :
    x &&& sliceMask w lo n = 0 ↔ x.extractLsb' lo n = 0 := by
  have hz := and_sliceMask_eq_iff x 0 lo n hf
  rwa [show (0 : BitVec w) &&& sliceMask w lo n = 0 from zero_and, show (0 : BitVec w).extractLsb' lo n = 0 by
    apply eq_of_getLsbD_eq; simp] at hz

end RiscvEmulators.Word
