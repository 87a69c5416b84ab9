import Mathlib.Algebra.Group.Nat.Defs

namespace RiscvEmulators.Store
open BitVec

abbrev W32 := BitVec 32

abbrev Cells (n : Nat) (α : Type) := Fin n → α

namespace Cells
variable {n : Nat} {α : Type}

def read (cells : Cells n α) (i : Nat) : Option α := if bound : i < n then some (cells ⟨i, bound⟩) else none

def change (cells : Cells n α) (i : Nat) (f : α → α) : Cells n α :=
  fun j => if j.val = i then f (cells j) else cells j

def modify (cells : Cells n α) (i : Nat) (f : α → α) : Option (Cells n α) :=
  if i < n then some (cells.change i f) else none

def write (cells : Cells n α) (i : Nat) (value : α) : Option (Cells n α) := cells.modify i fun _ => value

variable (cells : Cells n α) (i : Fin n) (f : α → α)

theorem read_lt {i : Nat} (h : i < n) : cells.read i = some (cells ⟨i, h⟩) := dif_pos h

@[simp] theorem read_val : cells.read i.val = some (cells i) := dif_pos i.isLt

@[simp] theorem modify_val : cells.modify i.val f = some (cells.change i.val f) := if_pos i.isLt

theorem read_isSome (i : Nat) : (cells.read i).isSome ↔ i < n := by
  unfold read
  split <;> simp [*]

theorem change_same : cells.change i.val f i = f (cells i) := if_pos rfl

theorem change_other {i : Nat} {j : Fin n} (h : j.val ≠ i) : cells.change i f j = cells j := if_neg h

theorem read_change (i j : Nat) (f : α → α) :
    (cells.change i f).read j = if j = i then (cells.read j).map f else cells.read j := by
  unfold read change
  by_cases hb : j < n <;> by_cases hs : j = i <;> simp [hs]

theorem read_stored {i : Nat} (h : i < n) (value : α) : (cells.change i fun _ => value).read i = some value := by
  rw [read_change, if_pos rfl, read, dif_pos h, Option.map_some]

theorem change_self : (cells.change i.val fun _ => cells i) = cells := by
  funext j
  by_cases hs : j = i
  · rw [hs, change_same]
  · exact change_other cells _ fun hh => hs (Fin.ext hh)

end Cells

section
variable {n : Nat}

abbrev Bits (n : Nat) := Cells n (BitVec 32)
def bitOf (i : Nat) : BitVec 32 := (1 : BitVec 32) <<< (i % 32)

theorem bitOf_getLsbD (i j : Nat) : (bitOf i).getLsbD j = decide (j = i % 32) := by
  have ho : (1 : BitVec 32) = 1#32 := rfl
  rw [bitOf, getLsbD_shiftLeft, ho, getLsbD_one, Bool.eq_iff_iff]
  simp only [Bool.and_eq_true, Bool.not_eq_true', decide_eq_true_iff, decide_eq_false_iff_not]
  omega

theorem bitOf_ne_zero (i : Nat) : bitOf i ≠ 0 := by
  intro hz
  have hb := bitOf_getLsbD i (i % 32)
  rw [hz] at hb
  simp at hb

theorem and_bitOf (w : BitVec 32) (i : Nat) : w &&& bitOf i = if w.getLsbD (i % 32) then bitOf i else 0 := by
  apply eq_of_getLsbD_eq
  intro j _
  rw [getLsbD_and, bitOf_getLsbD]
  cases set : w.getLsbD (i % 32) with
  | true => by_cases hs : j = i % 32 <;> simp [hs, set, bitOf_getLsbD]
  | false => by_cases hs : j = i % 32 <;> simp [hs, set]

theorem and_one {k : Nat} (w : BitVec k) : w &&& 1 = 0 ∨ w &&& 1 = 1 := by
  rw [show (1 : BitVec k) = 1#k from rfl, and_one_eq_setWidth_ofBool_getLsbD]
  cases w.getLsbD 0 with
  | false => exact .inl (by simp)
  | true => exact .inr (eq_of_toNat_eq (by simp))

theorem and_three (w : BitVec 32) : w &&& 3 = 3 ↔ w.getLsbD 0 ∧ w.getLsbD 1 := by
  have hm : ∀ k : Fin 32, (3 : BitVec 32).getLsbD k = decide (k.val = 0 ∨ k.val = 1) := by decide
  rw [eq_of_getLsbD_eq_iff]
  constructor
  · intro hb
    have hz := hb 0 (by decide)
    have ho := hb 1 (by decide)
    rw [getLsbD_and] at hz ho
    exact ⟨(Bool.and_eq_true_iff.mp hz).1, (Bool.and_eq_true_iff.mp ho).1⟩
  · rintro ⟨hz, ho⟩ k hb
    have hk : (3 : BitVec 32).getLsbD k = decide (k = 0 ∨ k = 1) := hm ⟨k, hb⟩
    rw [getLsbD_and, hk]
    by_cases hf : k = 0
    · rw [hf, hz]
      rfl
    · by_cases hs : k = 1
      · rw [hs, ho]
        rfl
      · simp [hf, hs]

theorem high_half {i p : Nat} (hi : i < 2 ^ 16) (hp : p < 2 ^ 16) :
    ((BitVec.ofNat 32 i <<< 16 ||| BitVec.ofNat 32 p) >>> 16).toNat = i := by
  rw [toNat_ushiftRight, toNat_or, toNat_shiftLeft, toNat_ofNat, toNat_ofNat, Nat.shiftLeft_eq,
    Nat.mod_eq_of_lt (show i < 2 ^ 32 by omega), Nat.mod_eq_of_lt (show i * 2 ^ 16 < 2 ^ 32 by omega),
    Nat.mod_eq_of_lt (show p < 2 ^ 32 by omega), ← Nat.shiftLeft_eq, Nat.shiftRight_or_distrib, Nat.shiftLeft_shiftRight,
    Nat.shiftRight_eq_div_pow, Nat.div_eq_of_lt hp, Nat.or_zero]

def Bits.has (bits : Bits n) (i : Nat) : Bool := ((bits.read (i / 32)).getD 0).getLsbD (i % 32)
def Bits.insert (bits : Bits n) (i : Nat) : Bits n := bits.change (i / 32) fun word => word ||| bitOf i
def Bits.remove (bits : Bits n) (i : Nat) : Bits n := bits.change (i / 32) fun word => word &&& ~~~bitOf i

variable (bits : Bits n) {i : Nat} (reg : Fin n)

open Bits Cells

theorem Bits.read_has (h : i / 32 < n) :
    (bits.read (i / 32)).map (fun w => w.getLsbD (i % 32)) = some (bits.has i) := by
  rw [has, Cells.read, dif_pos h]
  rfl

theorem Bits.has_eq (h : i / 32 < n) : bits.has i = (bits ⟨i / 32, h⟩).getLsbD (i % 32) := by
  rw [has, Cells.read, dif_pos h, Option.getD_some]

theorem Bits.and_bitOf_ne_zero (hb : i / 32 < n) : bits ⟨i / 32, hb⟩ &&& bitOf i ≠ 0 ↔ bits.has i := by
  rw [and_bitOf, bits.has_eq hb]
  split
  · rename_i hs
    exact iff_of_true (bitOf_ne_zero i) hs
  · rename_i hc
    exact iff_of_false (not_not_intro rfl) hc

theorem Bits.has_word (hb : i < 32) : bits.has (32 * reg.val + i) = (bits reg).getLsbD i := by
  have hw : (32 * reg.val + i) / 32 = reg.val := by omega
  have hp : (32 * reg.val + i) % 32 = i := by omega
  rw [has, hw, hp, read_val, Option.getD_some]

theorem Bits.has_change (f : BitVec 32 → BitVec 32) (j : Nat) :
    has (bits.change reg.val f) j = if j / 32 = reg.val then (f (bits reg)).getLsbD (j % 32) else bits.has j := by
  by_cases h : j / 32 = reg.val
  · rw [if_pos h, has, h, read_val, change_same, Option.getD_some]
  · rw [has, has]
    unfold Cells.read
    split
    · rw [change_other _ _ h]
    · rfl

def picked (reg : Nat) (word : BitVec 32) (i : Nat) : Bool := decide (i / 32 = reg) && word.getLsbD (i % 32)

theorem picked_bitOf (i j : Nat) : picked (i / 32) (bitOf i) j = decide (j = i) := by
  rw [picked, bitOf_getLsbD, Bool.eq_iff_iff]
  simp only [Bool.and_eq_true, decide_eq_true_iff]
  omega

theorem Bits.has_union (w : BitVec 32) (j : Nat) :
    has (bits.change reg.val fun old => old ||| w) j = (bits.has j || picked reg w j) := by
  rw [has_change, picked]
  by_cases h : j / 32 = reg.val
  · rw [has, h]
    simp
  · simp [h]

theorem Bits.has_diff (w : BitVec 32) (j : Nat) :
    has (bits.change reg.val fun old => old &&& ~~~w) j = (bits.has j && !picked reg w j) := by
  rw [has_change, picked]
  by_cases h : j / 32 = reg.val
  · rw [getLsbD_and, has, h]
    simp [Nat.mod_lt j (show 0 < 32 by decide)]
  · simp [h]

theorem Bits.getLsbD_eq_has {reg : Fin n} (h : i / 32 = reg.val) : (bits reg).getLsbD (i % 32) = bits.has i := by
  rw [has, h, read_val, Option.getD_some]

theorem Bits.picked_andNot (w : BitVec 32) (i : Nat) :
    picked reg (w &&& ~~~bits reg) i = (picked reg w i && !bits.has i) := by
  unfold picked
  by_cases h : i / 32 = reg.val
  · rw [← bits.getLsbD_eq_has h, getLsbD_and]
    simp [h, Nat.mod_lt i (show 0 < 32 by decide)]
  · simp [h]

theorem Bits.has_insert (h : i / 32 < n) (j : Nat) : (bits.insert i).has j = (decide (j = i) || bits.has j) := by
  rw [← picked_bitOf, Bool.or_comm]
  exact bits.has_union ⟨i / 32, h⟩ (bitOf i) j

theorem Bits.has_remove (i j : Nat) : (bits.remove i).has j = (decide (j ≠ i) && bits.has j) := by
  by_cases hb : i / 32 < n
  · have hr := bits.has_diff ⟨i / 32, hb⟩ (bitOf i) j
    rw [picked_bitOf] at hr
    rw [remove, hr, Bool.and_comm, decide_not]
  · have hs : bits.remove i = bits := by
      funext k
      exact change_other _ _ (by omega)
    rw [hs]
    by_cases hh : j = i
    · rw [hh, has, Cells.read, dif_neg hb]
      simp
    · simp [hh]

theorem Bits.has_set (hb : i / 32 < n) (set : Prop) [Decidable set] (j : Nat) :
    has (bits.change (i / 32) fun w => if set then w ||| bitOf i else w &&& ~~~bitOf i) j
      = if j = i then decide set else bits.has j := by
  by_cases his : set
  · simp only [if_pos his]
    have hi := bits.has_insert hb j
    rw [insert] at hi
    rw [hi]
    by_cases hs : j = i <;> simp [his]
  · simp only [if_neg his]
    have hr := bits.has_remove i j
    rw [remove] at hr
    rw [hr]
    by_cases hs : j = i <;> simp [his]

end

variable {α β : Type} {f : β → α → Option β} {acc : β} (inv : Nat → β → Prop)

theorem foldlM_some {g : β → α → β} {xs : List α} (hb : ∀ acc, ∀ x ∈ xs, f acc x = some (g acc x))
    : xs.foldlM f acc = some (xs.foldl g acc) := by
  induction xs generalizing acc with
  | nil => rfl
  | cons x xs ih =>
    rw [List.foldlM_cons, hb acc x List.mem_cons_self]
    exact ih fun acc y hm => hb acc y (List.mem_cons_of_mem x hm)

theorem foldlM_total {xs : List α} (acc : β) (hb : ∀ acc, ∀ x ∈ xs, ∃ acc', f acc x = some acc')
    : ∃ acc', xs.foldlM f acc = some acc' := by
  induction xs generalizing acc with
  | nil => exact ⟨acc, rfl⟩
  | cons x xs ih =>
    obtain ⟨nx, hf⟩ := hb acc x List.mem_cons_self
    obtain ⟨acc', hr⟩ := ih nx fun acc y hm => hb acc y (List.mem_cons_of_mem x hm)
    refine ⟨acc', ?_⟩
    rw [List.foldlM_cons, hf]
    exact hr

theorem foldlM_establish {inv : β → Prop} {h : α → β → Prop}
    (hb : ∀ x acc, inv acc → ∃ acc', f acc x = some acc' ∧ inv acc' ∧ h x acc' ∧ ∀ y, y ≠ x → h y acc → h y acc')
    (xs : List α) (hs : inv acc) :
    ∃ acc', xs.foldlM f acc = some acc' ∧ inv acc' ∧ (∀ x ∈ xs, h x acc') ∧ ∀ x, h x acc → h x acc' := by
  induction xs generalizing acc with
  | nil => exact ⟨acc, rfl, hs, nofun, fun _ hh => hh⟩
  | cons x xs ih =>
    obtain ⟨next, hfi, hk, hd, ho⟩ := hb x acc hs
    obtain ⟨acc', hr, hf, he, hst⟩ := ih hk
    refine ⟨acc', ?_, hf, ?_, fun y hh => hst y ?_⟩
    · rw [List.foldlM_cons, hfi]
      exact hr
    · intro y hm
      rcases List.mem_cons.mp hm with rfl | hl
      · exact hst y hd
      · exact he y hl
    · rcases Classical.em (y = x) with rfl | hot
      · exact hd
      · exact ho y hot hh

theorem foldl_establish {inv : β → Prop} (f : β → α → β) (h : α → β → Prop)
    (hb : ∀ x acc, inv acc → inv (f acc x) ∧ h x (f acc x) ∧ ∀ y, y ≠ x → h y acc → h y (f acc x))
    (xs : List α) (hs : inv acc) : inv (xs.foldl f acc) ∧ ∀ x ∈ xs, h x (xs.foldl f acc) := by
  obtain ⟨acc', hl, hf, he, -⟩ := foldlM_establish (f := fun acc x => some (f acc x))
    (fun x acc hk => ⟨f acc x, rfl, hb x acc hk⟩) xs hs
  rw [foldlM_some fun _ _ _ => rfl] at hl
  cases hl
  exact ⟨hf, he⟩

theorem foldl_finRange {n : Nat} {f : β → Fin n → β} (hs : inv 0 acc)
    (hb : ∀ (i : Fin n) acc, inv i acc → inv (i + 1) (f acc i)) : inv n ((List.finRange n).foldl f acc) := by
  induction n with
  | zero => exact hs
  | succ n ih =>
    rw [List.finRange_succ_last, List.foldl_append, List.foldl_map]
    exact hb (Fin.last n) _ (ih fun i acc hh => hb i.castSucc acc hh)

theorem foldlM_range {f : β → Nat → Option β} {n : Nat} (hs : inv 0 acc)
    (hbo : ∀ i acc, i < n → inv i acc → ∃ acc', f acc i = some acc' ∧ inv (i + 1) acc') :
    ∃ acc', (List.range n).foldlM f acc = some acc' ∧ inv n acc' := by
  induction n with
  | zero => exact ⟨acc, rfl, hs⟩
  | succ n ih =>
    obtain ⟨b, hr, hh⟩ := ih fun i acc hb => hbo i acc (Nat.lt_succ_of_lt hb)
    obtain ⟨a, hro, hn⟩ := hbo n b (Nat.lt_succ_self n) hh
    refine ⟨a, ?_, hn⟩
    rw [List.range_succ, List.foldlM_append, hr]
    simp [hro]

end RiscvEmulators.Store
