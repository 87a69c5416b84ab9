import Mathlib.Logic.Function.Basic

namespace RiscvEmulators.Transition

section
variable {α : Type} {p : α → Prop} {c : Prop} [Decidable c] {r : α}

theorem of_ite {l : α} (hl : p l) (hr : p r) : p (if c then l else r) := iteInduction (fun _ => hl) fun _ => hr

theorem of_dite {l : c → α} (hl : ∀ h, p (l h)) (hr : p r) : p (if h : c then l h else r) := by
  split
  · exact hl _
  · exact hr

end

section
variable {σ ε : Type}

def run (step : σ → ε → σ) (state : σ) (events : List ε) : σ := events.foldl step state

/-- Every event of the run is accepted by `ok` in the state it is taken from. -/
def StepsMeet (step : σ → ε → σ) (ok : σ → ε → Prop) : σ → List ε → Prop
  | _, [] => True
  | state, event :: events => ok state event ∧ StepsMeet step ok (step state event) events

/-- Every state of the run is related to the state that follows it. -/
def EachStep (step : σ → ε → σ) (relation : σ → σ → Prop) : σ → List ε → Prop :=
  StepsMeet step fun state event => relation state (step state event)

variable {st : σ → ε → σ} {ok a p q : σ → ε → Prop} {i : σ → Prop}

@[simp] theorem run_nil (state : σ) : run st state [] = state := rfl

@[simp] theorem run_cons (s : σ) (e : ε) (events : List ε) : run st s (e :: events) = run st (st s e) events := rfl

theorem run_append (s : σ) (fst second : List ε) : run st s (fst ++ second) = run st (run st s fst) second :=
  List.foldl_append

@[simp] theorem stepsMeet_nil (s : σ) : StepsMeet st ok s [] := True.intro

@[simp] theorem stepsMeet_cons (s : σ) (e : ε) (events : List ε) : StepsMeet st ok s (e :: events) ↔
    ok s e ∧ StepsMeet st ok (st s e) events := Iff.rfl

variable {s : σ} {es events : List ε}

theorem run_invariant (hk : ∀ s e, i s → i (st s e)) (hh : i s) : i (run st s es) := by
  induction es generalizing s with
  | nil => exact hh
  | cons e es ih => exact ih (hk s e hh)

theorem StepsMeet.run_invariant (hk : ∀ s e, ok s e → i s → i (st s e)) (hm : StepsMeet st ok s es) (hh : i s)
    : i (run st s es) := by
  induction es generalizing s with
  | nil => exact hh
  | cons e es ih => exact ih hm.2 (hk s e hm.1 hh)

theorem StepsMeet.of_invariant (hk : ∀ s e, ok s e → i s → i (st s e)) (he : ∀ s e, ok s e → i s → p s e)
    (hm : StepsMeet st ok s events) (hh : i s) : StepsMeet st p s events := by
  induction events generalizing s with
  | nil => exact True.intro
  | cons e events ih => exact ⟨he s e hm.1 hh, ih hm.2 (hk s e hm.1 hh)⟩

theorem stepsMeet_of_invariant (hk : ∀ s e, i s → i (st s e)) (he : ∀ s e, i s → p s e) (hh : i s)
    : StepsMeet st p s events := by
  induction events generalizing s with
  | nil => exact True.intro
  | cons e events ih => exact ⟨he s e hh, ih (hk s e hh)⟩

theorem StepsMeet.run_refines {τ : Type} {m : τ → ε → τ} {r : σ → τ → Prop}
    (hk : ∀ s sp e, ok s e → r s sp → r (st s e) (m sp e)) {sp : τ} (hm : StepsMeet st ok s es) (hh : r s sp)
    : r (run st s es) (run m sp es) := by
  induction es generalizing s sp with
  | nil => exact hh
  | cons e es ih => exact ih hm.2 (hk s sp e hm.1 hh)

theorem stepsMeet_congr (hk : ∀ s e, a s e → i s → i (st s e)) (hs : ∀ s e, a s e → i s → (p s e ↔ q s e))
    (ht : StepsMeet st a s events) (hh : i s) : StepsMeet st p s events ↔ StepsMeet st q s events := by
  induction events generalizing s with
  | nil => exact Iff.rfl
  | cons e events ih =>
    rw [stepsMeet_cons, stepsMeet_cons, hs s e ht.1 hh, ih ht.2 (hk s e ht.1 hh)]

theorem stepsMeet_iff_of_invariant (hs : ∀ s e, i s → (p s e ↔ q s e)) (hk : ∀ s e, i s → q s e → i (st s e))
    (hh : i s) : StepsMeet st p s events ↔ StepsMeet st q s events := by
  induction events generalizing s with
  | nil => exact Iff.rfl
  | cons e events ih =>
    rw [stepsMeet_cons, hs s e hh]
    apply and_congr_right
    intro hm
    exact ih (hk s e hh hm)

/-- Where a step keeps the invariant exactly under a condition, the invariant holds in every state of a run exactly
  when every step meets the condition. -/
theorem stepsMeet_invariant_iff (hk : ∀ s e, i s → (i (st s e) ↔ ok s e)) (hh : i s) :
    StepsMeet st (fun s e => i (st s e)) s events ↔ StepsMeet st ok s events :=
  stepsMeet_iff_of_invariant hk (fun s e hh hm => (hk s e hh).mpr hm) hh

end

structure Threads (ι σ ρ : Type) where
  shared : σ
  place : ι → ρ

namespace Threads
variable {ι σ ρ ε : Type} [DecidableEq ι] {move : ι → ε → σ → ρ → Option (σ × ρ)}

def take (move : ι → ε → σ → ρ → Option (σ × ρ)) (threads : Threads ι σ ρ) (event : ι × ε) : Threads ι σ ρ :=
  match move event.1 event.2 threads.shared (threads.place event.1) with
  | some (shared, place) => ⟨shared, Function.update threads.place event.1 place⟩
  | none => threads

theorem take_place {threads : Threads ι σ ρ} {e : ι × ε} {i : ι} (h : e.1 ≠ i) :
    (threads.take move e).place i = threads.place i := by
  unfold take
  split
  · exact Function.update_of_ne h.symm _ _
  · rfl

theorem run_place {threads : Threads ι σ ρ} {es : List (ι × ε)} {i : ι} (ho : ∀ e ∈ es, e.1 ≠ i) :
    (run (take move) threads es).place i = threads.place i := by
  induction es generalizing threads with
  | nil => rfl
  | cons e es ih =>
    rw [run_cons, ih fun l hm => ho l (List.mem_cons_of_mem e hm)]
    exact take_place (ho e List.mem_cons_self)

variable {due done : σ → Prop} {looks : ρ → Prop} {threads : Threads ι σ ρ}

def Attended (due done : σ → Prop) (looks : ρ → Prop) (threads : Threads ι σ ρ) : Prop :=
  due threads.shared → done threads.shared ∨ ∃ i, looks (threads.place i)

/-- A thread that stops looking leaves nothing undone. A thread that was not looking neither makes anything due nor
  undoes it. -/
def Attends (move : ι → ε → σ → ρ → Option (σ × ρ)) (due done : σ → Prop) (looks : ρ → Prop) : Prop :=
  ∀ {i event shared place shared' place'}, move i event shared place = some (shared', place') →
    looks place' ∨ (due shared' → done shared') ∨ ¬looks place ∧ (due shared' → due shared) ∧ (done shared → done shared')

theorem Attended.take (hat : Attends move due done looks) (ha : threads.Attended due done looks)
    (e : ι × ε) : (threads.take move e).Attended due done looks := by
  unfold Threads.take
  split
  · rename_i s p hm
    intro hi
    rcases hat hm with hs | hf | ⟨hid, hw, hk⟩
    · refine .inr ⟨e.1, ?_⟩
      dsimp only
      rw [Function.update_self]
      exact hs
    · exact .inl (hf hi)
    · rcases ha (hw hi) with his | ⟨i, hl⟩
      · exact .inl (hk his)
      · -- it is another thread that looks
        have ho : i ≠ e.1 := by
          rintro rfl
          exact hid hl
        refine .inr ⟨i, ?_⟩
        dsimp only
        rw [Function.update_of_ne ho]
        exact hl
  · exact ha

theorem Attended.run (hat : Attends move due done looks) (ha : threads.Attended due done looks)
    (es : List (ι × ε)) : (run (Threads.take move) threads es).Attended due done looks :=
  run_invariant (fun _ e ha => ha.take hat e) ha

omit [DecidableEq ι] in
theorem Attended.finished (ha : threads.Attended due done looks) (idle : ∀ i, ¬looks (threads.place i))
    (isDue : due threads.shared) : done threads.shared := by
  rcases ha isDue with hi | ⟨i, hl⟩
  · exact hi
  · exact absurd hl (idle i)

end Threads

end RiscvEmulators.Transition
