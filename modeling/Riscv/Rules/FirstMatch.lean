namespace RiscvEmulators.Rules
variable {ι α : Type}

def firstMatch (applies : ι → Option α) : List ι → Option (ι × α)
  | [] => none
  | rule :: rest =>
    match applies rule with
    | some result => some (rule, result)
    | none => firstMatch applies rest

def AgreeWhereReached (first second : ι → Option α) : List ι → Prop
  | [] => True
  | rule :: rest => first rule = second rule ∧ (second rule = none → AgreeWhereReached first second rest)

theorem firstMatch_applies {a : ι → Option α} {r : List ι} {ru : ι} {result : α}
    (hf : firstMatch a r = some (ru, result)) : a ru = some result := by
  induction r with
  | nil => cases hf
  | cons head rest ih =>
    rw [firstMatch] at hf
    split at hf
    · rename_i ha
      cases hf
      exact ha
    · exact ih hf

theorem firstMatch_eq_iff (fst snd : ι → Option α) (rules : List ι) :
    firstMatch fst rules = firstMatch snd rules ↔ AgreeWhereReached fst snd rules := by
  induction rules with
  | nil => simp [firstMatch, AgreeWhereReached]
  | cons ru rest ih =>
    rw [firstMatch, firstMatch, AgreeWhereReached, ← ih]
    cases hl : fst ru with
    | none =>
      cases hr : snd ru with
      | none => simp
      | some r =>
        refine iff_of_false (fun hs => ?_) (by simp)
        have ha := firstMatch_applies hs
        rw [hl] at ha
        cases ha
    | some r =>
      cases hr : snd ru with
      | none =>
        refine iff_of_false (fun hs => ?_) (by simp)
        have ha := firstMatch_applies hs.symm
        rw [hr] at ha
        cases ha
      | some o => simp

theorem agreeWhereReached_range (fst snd : Nat → Option α) (s c : Nat) : AgreeWhereReached fst snd (List.range' s c) ↔
    ∀ i, s ≤ i → i < s + c → (∀ j, s ≤ j → j < i → snd j = none) → fst i = snd i := by
  induction c generalizing s with
  | zero => simp [AgreeWhereReached]; omega
  | succ c ih =>
    rw [List.range'_succ, AgreeWhereReached, ih (s + 1)]
    constructor
    · rintro ⟨hh, ht⟩ i ha before hm
      by_cases here : i = s
      · rw [here, hh]
      · refine ht (hm s (Nat.le_refl _) (by omega)) i (by omega) (by omega) fun j ha' hb => ?_
        exact hm j (by omega) hb
    · intro all
      refine ⟨all s (Nat.le_refl _) (by omega) fun j ha before => by omega, fun hh i ha before hm => ?_⟩
      refine all i (by omega) (by omega) fun j ha' hb => ?_
      by_cases here : j = s
      · rw [here, hh]
      · exact hm j (by omega) hb

theorem firstMatch_range_eq_iff (fst snd : Nat → Option α) (c : Nat) :
    firstMatch fst (List.range c) = firstMatch snd (List.range c) ↔
      ∀ i < c, (∀ j < i, snd j = none) → fst i = snd i := by
  rw [firstMatch_eq_iff, List.range_eq_range', agreeWhereReached_range]
  simp

theorem firstMatch_eq_none {a : ι → Option α} {r : List ι} (hm : ∀ ru ∈ r, a ru = none) : firstMatch a r = none := by
  induction r with
  | nil => rfl
  | cons h rest ih =>
    rw [firstMatch, hm h List.mem_cons_self]
    exact ih fun ru mem => hm ru (List.mem_cons_of_mem h mem)

end RiscvEmulators.Rules
