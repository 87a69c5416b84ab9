import Mathlib.Algebra.Group.Nat.Defs

namespace RiscvEmulators.Interrupt

/-- An interrupt file with the identities below `n`, of which 0 stands for none. -/
@[ext] structure File (n : Nat) where
  delivery : Bool
  threshold : Nat
  pending : Fin n → Bool
  enabled : Fin n → Bool

namespace File
variable {n : Nat} (file : File n)

def active (i : Fin n) : Bool := file.pending i && file.enabled i

def candidate (i : Fin n) : Bool :=
  decide (i.val ≠ 0) && file.active i && decide (file.threshold = 0 ∨ i.val < file.threshold)

def top : Nat := ((List.range n).find? fun i => if bound : i < n then file.candidate ⟨i, bound⟩ else false).getD 0

def raised : Bool := file.delivery && decide (file.top ≠ 0)

def setPending (i : Nat) (value : Bool) : File n :=
  { file with pending := fun j => if j.val = i then value else file.pending j }

def claim : File n := if file.top = 0 then file else file.setPending file.top false
def empty (n : Nat) : File n := ⟨false, 0, fun _ => false, fun _ => false⟩

variable {file}

theorem candidate_iff {i : Fin n} : file.candidate i ↔
    i.val ≠ 0 ∧ file.active i ∧ (file.threshold = 0 ∨ i.val < file.threshold) := by
  simp [candidate, and_assoc]

theorem active_iff {i : Fin n} : file.active i ↔ file.pending i ∧ file.enabled i := by
  rw [active, Bool.and_eq_true]

theorem top_eq_of_least {i : Fin n} (hi : file.candidate i)
    (hl : ∀ j < i, file.candidate j = false) : file.top = i.val := by
  have hf : (List.range n).find? (fun i => if hb : i < n then file.candidate ⟨i, hb⟩ else false)
      = some i.val := by
    rw [List.find?_range_eq_some]
    refine ⟨by simp [hi], List.mem_range.mpr i.isLt, fun j before => ?_⟩
    have hb : j < n := Nat.lt_trans before i.isLt
    simp [hl ⟨j, hb⟩ before]
  rw [top, hf, Option.getD_some]

theorem top_eq_zero_iff : file.top = 0 ↔ ∀ i, file.candidate i = false := by
  unfold top
  cases hf : (List.range n).find? fun i => if hb : i < n then file.candidate ⟨i, hb⟩ else false with
  | none =>
    rw [List.find?_range_eq_none] at hf
    refine iff_of_true rfl fun i => ?_
    have ha := hf i.val i.isLt
    simpa using ha
  | some i =>
    rw [List.find?_range_eq_some] at hf
    have hb := List.mem_range.mp hf.2.1
    have hi : file.candidate ⟨i, hb⟩ := by simpa [hb] using hf.1
    refine iff_of_false (candidate_iff.mp hi).1 fun none => ?_
    rw [none] at hi
    cases hi

theorem exists_top (some : file.top ≠ 0) :
    ∃ i : Fin n, i.val = file.top ∧ file.candidate i ∧ ∀ j < i, file.candidate j = false := by
  unfold top at some ⊢
  cases hf : (List.range n).find? fun i => if hb : i < n then file.candidate ⟨i, hb⟩ else false with
  | none => simp [hf] at some
  | some i =>
    rw [List.find?_range_eq_some] at hf
    have hb := List.mem_range.mp hf.2.1
    refine ⟨⟨i, hb⟩, rfl, by simpa [hb] using hf.1, fun j before => ?_⟩
    have ha := hf.2.2 j.val before
    simpa using ha

theorem top_lt (file : File n) : file.top = 0 ∨ file.top < n := by
  by_cases hn : file.top = 0
  · exact .inl hn
  · obtain ⟨i, hs, -⟩ := exists_top hn
    exact .inr (by rw [← hs]; exact i.isLt)

theorem raised_iff : file.raised ↔ file.delivery ∧ ∃ i, file.candidate i := by
  rw [raised, Bool.and_eq_true, decide_eq_true_iff, Ne, top_eq_zero_iff]
  apply and_congr_right
  intro _
  constructor
  · intro hs
    apply Classical.byContradiction
    intro hn
    exact hs fun i => Bool.eq_false_iff.mpr fun hi => hn ⟨i, hi⟩
  · rintro ⟨i, hi⟩ hn
    rw [hn i] at hi
    cases hi

@[simp] theorem empty_candidate (i : Fin n) : (empty n).candidate i = false := by simp [candidate, active, empty]

@[simp] theorem empty_top : (empty n).top = 0 := top_eq_zero_iff.mpr empty_candidate

end File
end RiscvEmulators.Interrupt
