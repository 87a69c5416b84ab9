import Riscv.Spike.Trigger.Model
import Riscv.Transition.Run

namespace RiscvEmulators.Spike.Trigger
open Word Store Transition
variable {n : Nat} {isa : Isa} {state : Module n}

def Module.Owned (state : Module n) : Prop :=
  ∀ i j : Fin n, j.val = i.val + 1 →
    ¬ ((state.triggers i).getDmode = false ∧ (state.triggers i).getChain ∧ (state.triggers j).getDmode)

def Module.Untouched (state after : Module n) : Prop :=
  state.debugMode = false → ∀ i, (state.triggers i).getDmode → after.triggers i = state.triggers i

def chainable (type : W64) : Bool := decide (type = 2) || decide (type = 6)

/-- The hart does not ask for a trigger that is chained and the debugger's before a trigger that is the debugger's. -/
def Careful (isa : Isa) (state : Module n) : Event n → Prop
  | .tdata1 index val => state.debugMode = false → (state.triggers index).getDmode = false →
    chainable (getField val isa.tdata1Type) → flag val mcontrolChain → flag val isa.tdata1Dmode →
    (state.next index).any getDmode = false
  | _ => True

section

theorem flag_setField_same (val mk : W64) : flag (setField val mk 0) mk = false := by
  have h : setField val mk 0 &&& mk = 0 := by
    rw [setField_and]
    simp
  unfold flag getField
  rw [h]
  simp

theorem flag_setField_chain (val : W64) :
    flag (setField val isa.tdata1Dmode 0) mcontrolChain = flag val mcontrolChain := by
  have h : ~~~isa.tdata1Dmode &&& mcontrolChain = mcontrolChain := by
    unfold Isa.tdata1Dmode Isa.xlen
    cases isa.rv64 <;> decide
  unfold flag
  rw [getField_congr]
  unfold setField
  rw [show (0 : W64) * maskUnit isa.tdata1Dmode &&& isa.tdata1Dmode = 0#64 by simp, BitVec.or_zero,
    BitVec.and_assoc, h]

variable {d a : Bool} {val ty : W64}

@[simp] theorem tdata2Write_getDmode (trigger : Trigger) : (trigger.tdata2Write val).getDmode = trigger.getDmode := rfl

@[simp] theorem tdata2Write_getChain (trigger : Trigger) : (trigger.tdata2Write val).getChain = trigger.getChain := rfl

@[simp] theorem tdata3Write_getDmode (trigger : Trigger) : (trigger.tdata3Write isa val).getDmode = trigger.getDmode :=
  rfl

@[simp] theorem tdata3Write_getChain (trigger : Trigger) : (trigger.tdata3Write isa val).getChain = trigger.getChain :=
  rfl

theorem tdata1Written_getDmode (ht : d = false → flag val isa.tdata1Dmode = false) :
    (tdata1Written isa d val a ty).getDmode = flag val isa.tdata1Dmode := by
  have hb : (d && flag val isa.tdata1Dmode) = flag val isa.tdata1Dmode := by
    cases d with
    | true => rfl
    | false => rw [ht rfl]; rfl
  unfold tdata1Written
  repeat' split
  all_goals first | rfl | exact hb

theorem tdata1Written_getChain : (tdata1Written isa d val a ty).getChain
    = (chainable ty && a && flag val mcontrolChain) := by
  unfold tdata1Written chainable
  by_cases legacy : ty = 2
  · simp [legacy, getChain, mcontrolWrite, matchControl]
  by_cases hi : ty = 6
  · simp [hi, getChain, mcontrol6Write, matchControl]
  simp only [legacy, hi, if_false]
  repeat' split
  all_goals rfl

end

section
variable {ind : Fin n} {trigger : Trigger}

theorem next_any {p : Trigger → Bool} : (state.next ind).any p ↔
    ∃ j : Fin n, j.val = ind.val + 1 ∧ p (state.triggers j) := by
  unfold Module.next Cells.read
  split
  · rename_i hb
    constructor
    · exact fun hf => ⟨_, rfl, hf⟩
    · rintro ⟨j, ha, hf⟩
      rw [show j = ⟨ind.val + 1, hb⟩ from Fin.ext ha] at hf
      exact hf
  · constructor
    · intro hf
      cases hf
    · omega

theorem previous_any {p : Trigger → Bool} : (state.previous ind).any p ↔
    ∃ i : Fin n, ind.val = i.val + 1 ∧ p (state.triggers i) := by
  unfold Module.previous
  by_cases first : ind.val = 0
  · rw [if_pos first]
    constructor
    · intro hf
      cases hf
    · omega
  · have hb : ind.val - 1 < n := by omega
    rw [if_neg first, Cells.read, dif_pos hb]
    constructor
    · exact fun hf => ⟨⟨ind.val - 1, hb⟩, by dsimp only; omega, hf⟩
    · rintro ⟨i, before, hf⟩
      rw [show i = ⟨ind.val - 1, hb⟩ from Fin.ext (by dsimp only; omega)] at hf
      exact hf

theorem put_same (ind : Fin n) (trigger : Trigger) : (state.put ind trigger).triggers ind = trigger :=
  if_pos rfl

theorem put_other {i : Fin n} (trigger : Trigger) (h : i.val ≠ ind.val) :
    (state.put ind trigger).triggers i = state.triggers i :=
  if_neg h

theorem put_owned (owned : state.Owned) : (state.put ind trigger).Owned ↔
    ¬ (trigger.getDmode = false ∧ trigger.getChain ∧ (state.next ind).any getDmode) ∧
    ¬ ((state.previous ind).any (fun b => !b.getDmode && b.getChain) ∧ trigger.getDmode) := by
  rw [next_any, previous_any]
  constructor
  · intro hk
    constructor
    · rintro ⟨hu, hc, j, ha, hd⟩
      apply hk ind j ha
      rw [put_same, put_other trigger (by omega)]
      exact ⟨hu, hc, hd⟩
    · rintro ⟨⟨i, b, hc⟩, hd⟩
      rw [Bool.and_eq_true, Bool.not_eq_true'] at hc
      apply hk i ind b
      rw [put_same, put_other trigger (by omega)]
      exact ⟨hc.1, hc.2, hd⟩
  · rintro ⟨first, hf⟩ i j ha ⟨hu, hc, hd⟩
    by_cases here : i = ind
    · subst here
      rw [put_same] at hu hc
      rw [put_other trigger (by omega)] at hd
      exact first ⟨hu, hc, j, ha, hd⟩
    · have ho : i.val ≠ ind.val := fun hs => here (Fin.ext hs)
      rw [put_other trigger ho] at hu hc
      by_cases hi : j = ind
      · subst hi
        rw [put_same] at hd
        exact hf ⟨⟨i, ha, by rw [hu, hc]; rfl⟩, hd⟩
      · rw [put_other trigger fun hs => hi (Fin.ext hs)] at hd
        exact owned i j ha ⟨hu, hc, hd⟩

theorem put_owned_of_same (ho : state.Owned) (hd : trigger.getDmode = (state.triggers ind).getDmode)
    (chain : trigger.getChain = (state.triggers ind).getChain) : (state.put ind trigger).Owned := by
  rw [put_owned ho, hd, chain, next_any, previous_any]
  constructor
  · rintro ⟨hu, hc, j, ha, owned⟩
    exact ho ind j ha ⟨hu, hc, owned⟩
  · rintro ⟨⟨i, hb, hc⟩, owned⟩
    rw [Bool.and_eq_true, Bool.not_eq_true'] at hc
    exact ho i ind hb ⟨hc.1, hc.2, owned⟩

theorem put_untouched (ha : ¬ ((state.triggers ind).getDmode ∧ (!state.debugMode))) :
    state.Untouched (state.put ind trigger) := by
  intro ho i hd
  apply put_other
  intro hs
  rw [show i = ind from Fin.ext hs] at hd
  exact ha ⟨hd, by rw [ho]; rfl⟩

theorem tdata1Write_owned {val : W64} (ho : state.Owned) :
    (state.tdata1Write isa ind val).Owned ↔ Careful isa state (.tdata1 ind val) := by
  unfold Module.tdata1Write
  by_cases hr : (state.triggers ind).getDmode ∧ (!state.debugMode)
  · rw [if_pos hr]
    refine iff_of_true ho fun _ hu => ?_
    rw [hr.1] at hu
    cases hu
  rw [if_neg hr]
  cases hm : state.debugMode with
  | true =>
    refine iff_of_true ?_ fun outside => absurd (hm.symm.trans outside) (by decide)
    simp only [if_true]
    split
    · exact ho
    · rename_i ha
      rw [put_owned ho, tdata3Write_getDmode, tdata2Write_getDmode, tdata3Write_getChain, tdata2Write_getChain,
        tdata1Written_getDmode (by simp), tdata1Written_getChain]
      refine ⟨?_, ha⟩
      rintro ⟨hu, hc, hd⟩
      simp [hu, hd] at hc
  | false =>
    have hu : (state.triggers ind).getDmode = false := by
      rw [hm] at hr
      simpa using hr
    have ht := flag_setField_same val isa.tdata1Dmode
    simp only [Bool.false_eq_true, if_false, ht, and_false]
    rw [put_owned ho, tdata3Write_getDmode, tdata2Write_getDmode, tdata3Write_getChain, tdata2Write_getChain,
      tdata1Written_getDmode (fun _ => ht), tdata1Written_getChain, flag_setField_chain, ht]
    simp only [Careful, hm, hu]
    cases chainable (getField val isa.tdata1Type) <;> cases flag val mcontrolChain <;>
      cases flag val isa.tdata1Dmode <;> cases (state.next ind).any getDmode <;> simp

theorem after_owned_iff {event : Event n} (ho : state.Owned) :
    (state.after isa event).Owned ∧ state.Untouched (state.after isa event) ↔ Careful isa state event := by
  cases event with
  | tdata1 ind val =>
    have hu : state.Untouched (state.tdata1Write isa ind val) := by
      unfold Module.tdata1Write
      dsimp only
      by_cases hr : (state.triggers ind).getDmode ∧ (!state.debugMode)
      · rw [if_pos hr]
        exact fun _ _ _ => rfl
      · rw [if_neg hr]
        generalize (if state.debugMode then val else setField val isa.tdata1Dmode 0) = tdata1
        split
        · exact fun _ _ _ => rfl
        · exact put_untouched hr
    exact (and_iff_left hu).trans (tdata1Write_owned ho)
  | tdata2 ind val =>
    refine iff_of_true ?_ trivial
    simp only [Module.after, Module.tdata2Write]
    split
    · exact ⟨ho, fun _ _ _ => rfl⟩
    · exact ⟨put_owned_of_same ho rfl rfl, put_untouched (by assumption)⟩
  | tdata3 ind val =>
    refine iff_of_true ?_ trivial
    simp only [Module.after, Module.tdata3Write]
    split
    · exact ⟨ho, fun _ _ _ => rfl⟩
    · exact ⟨put_owned_of_same ho rfl rfl, put_untouched (by assumption)⟩
  | debug e => exact iff_of_true ⟨ho, fun _ _ _ => rfl⟩ trivial
  | misa h => exact iff_of_true ⟨ho, fun _ _ _ => rfl⟩ trivial

end

theorem init_owned {he : Bool} : (Module.init n he).Owned := by
  rintro i j - ⟨-, h, -⟩
  cases h

/-- In a run every state is owned and every step leaves the debugger's triggers alone exactly when the hart never asks
  for a chain into them. -/
theorem ownership_iff (isa : Isa) (hEnabled : Bool) (events : List (Event n)) : StepsMeet (Module.after isa)
    (fun state event => (state.after isa event).Owned ∧ state.Untouched (state.after isa event))
    (Module.init n hEnabled) events ↔ StepsMeet (Module.after isa) (Careful isa) (Module.init n hEnabled) events :=
  stepsMeet_iff_of_invariant (fun (state : Module n) _ (owned : state.Owned) => after_owned_iff owned)
    (fun (state : Module n) _ (owned : state.Owned) careful => ((after_owned_iff owned).mpr careful).1)
    init_owned

theorem chained_into_owned : ¬ (run (Module.after ⟨true, true, true⟩) (Module.init 2 false)
    [.debug true, .tdata1 1 0xf800000000000000, .debug false, .tdata1 0 0x6800000000000800]).Owned := by
  intro owned
  have apart := owned 0 1 rfl
  revert apart
  decide +kernel

end RiscvEmulators.Spike.Trigger
