import Riscv.Spike.Plic.Effects
import Riscv.Transition.Run

namespace RiscvEmulators.Spike.Plic
open Store Interrupt Transition
variable {cfg : Config}

/-- No source is claimed in two contexts, and none is pending while its level is low. -/
structure Exclusive (plic : Plic cfg) : Prop where
  claimed : ∀ id c c', (plic.view.spot c id).claimed → (plic.view.spot c' id).claimed → c = c'
  low : ∀ id, plic.view.level id = false → ∀ c, (plic.view.spot c id).pending = false

def ServedOnce (plic : Plic cfg) : Prop := ∀ id c c', plic.inService c id → plic.inService c' id → c = c'

/-- A source whose level is high is enabled in one more context only if it is pending in none, and the context comes
  before those that enable it. -/
def Act.EnablesOnce (view : View cfg) : Act cfg → Prop
  | .enable c word val => ∀ id, id / 32 = word → val.getLsbD (id % 32) → (view.spot c id).enable = false →
    view.level id →
    (∀ c', (view.spot c' id).pending = false) ∧ ∀ c' < c, (view.spot c' id).enable = false
  | _ => True

/-- Enable bits of a source change only while no context has it in service. -/
def Act.Settled (view : View cfg) : Act cfg → Prop
  | .enable c word val => ∀ id, id / 32 = word → val.getLsbD (id % 32) ≠ (view.spot c id).enable →
    ∀ c', view.inService c' id = false
  | _ => True

namespace View

def Sole (view : View cfg) : Prop :=
  ∀ c id, (view.spot c id).pending → view.level id ∧ view.First id c

def Served (view : View cfg) : Prop := ∀ c id, view.inService c id → view.First id c

variable {view : View cfg} {act : Act cfg}

variable {c : Fin cfg.count}

theorem First.congr {v' : View cfg} {id : Nat}
    (h : ∀ c', (v'.spot c' id).enable = (view.spot c' id).enable) : v'.First id c ↔ view.First id c := by
  simp [View.First, h]

theorem enable_after (c : Fin cfg.count) (w : Nat) (val : W32) (c' : Fin cfg.count) (id : Nat) :
    ((view.after (.enable c w val)).spot c' id).enable =
      if c' = c ∧ id / 32 = w then val.getLsbD (id % 32) else (view.spot c' id).enable := by
  simp only [after]
  split
  · unfold Spot.enabling
    split
    · assumption
    · cases val.getLsbD (id % 32) with
      | false => rfl
      | true => cases view.level id <;> rfl
  · rfl

theorem enable_kept (h : ∀ c w val, act ≠ .enable c w val) (c : Fin cfg.count) (id : Nat) :
    ((view.after act).spot c id).enable = (view.spot c id).enable := by
  cases act with
  | nothing => rfl
  | priority => rfl
  | threshold => rfl
  | enable c w val => exact absurd rfl (h c w val)
  | claim c' id' =>
    simp only [after]
    split
    · rfl
    · simp only [service, change]
      split <;> rfl
  | complete c' id' =>
    simp only [after]
    split
    · simp only [service, change]
      split <;> rfl
    · rfl
  | level id' lvl =>
    simp only [after]
    split
    · cases lvl <;> rfl
    · rfl

theorem pending_after_enable (wf : view.Wf) {w : Nat} {val : W32} {c' : Fin cfg.count}
    {id : Nat} : ((view.after (.enable c w val)).spot c' id).pending ↔
      if c' = c ∧ id / 32 = w then val.getLsbD (id % 32) ∧
        ((view.spot c' id).pending ∨ (view.spot c' id).enable = false ∧ view.level id)
      else (view.spot c' id).pending := by
  have he := ((wf.spot c' id).pending · |>.1)
  simp only [after]
  split
  · unfold Spot.enabling
    cases ho : (view.spot c' id).enable <;> cases hn : val.getLsbD (id % 32) <;> cases view.level id <;>
      simp_all [Spot.raise, Spot.lower]
  · exact Iff.rfl

theorem Sole.after_enable (sole : view.Sole) (wf : view.Wf) {w : Nat} {val : W32} :
    (view.after (.enable c w val)).Sole ↔ (Act.enable c w val).EnablesOnce view := by
  constructor
  · intro hk id hi set hc hh
    have hf : (view.after (.enable c w val)).First id c := by
      refine (hk c id ((pending_after_enable wf).mpr ?_)).2
      rw [if_pos ⟨rfl, hi⟩]
      exact ⟨set, .inr ⟨hc, hh⟩⟩
    refine ⟨fun c' => Bool.eq_false_iff.mpr fun hp => ?_, fun c' hb => ?_⟩
    · by_cases hs : c' = c
      · rw [hs] at hp
        exact absurd ((wf.spot c id).pending hp).1 (Bool.eq_false_iff.mp hc)
      · have pends : ((view.after (.enable c w val)).spot c' id).pending := by
          rw [pending_after_enable wf, if_neg fun both => hs both.1]
          exact hp
        exact hs ((hk c' id pends).2.unique hf)
    · have off := hf.2 c' hb
      rwa [enable_after, if_neg fun both => Nat.ne_of_lt hb (congrArg Fin.val both.1)] at off
  · intro once c' id hp
    rw [pending_after_enable wf] at hp
    by_cases here : c' = c ∧ id / 32 = w
    · rw [if_pos here] at hp
      obtain ⟨rfl, hi⟩ := here
      have ho (c'' : Fin cfg.count) (hb : c'' < c') :
          ((view.after (.enable c' w val)).spot c'' id).enable = (view.spot c'' id).enable := by
        rw [enable_after, if_neg fun both => Nat.ne_of_lt hb (congrArg Fin.val both.1)]
      have hn : ((view.after (.enable c' w val)).spot c' id).enable := by
        rw [enable_after, if_pos ⟨rfl, hi⟩]
        exact hp.1
      rcases hp.2 with before | ⟨hc, hh⟩
      · obtain ⟨hh, hf⟩ := sole c' id before
        exact ⟨hh, hn, fun c'' hb => (ho c'' hb).trans (hf.2 c'' hb)⟩
      · have alone := (once id hi hp.1 hc hh).2
        exact ⟨hh, hn, fun c'' hb => (ho c'' hb).trans (alone c'' hb)⟩
    · rw [if_neg here] at hp
      obtain ⟨hh, hf⟩ := sole c' id hp
      refine ⟨hh, ?_, fun c'' hb => ?_⟩
      · rw [enable_after, if_neg here]
        exact hf.1
      · rw [enable_after]
        split
        · rename_i ht
          -- the write would have enabled a source that is pending elsewhere
          obtain ⟨rfl, hi⟩ := ht
          refine Bool.eq_false_iff.mpr fun set => ?_
          have ha := (once id hi set (hf.2 c'' hb) hh).1 c'
          rw [hp] at ha
          cases ha
        · exact hf.2 c'' hb

theorem Sole.after_level (sole : view.Sole) (id : Nat) (lvl : Bool) : (view.after (.level id lvl)).Sole := by
  intro c id' hp
  have hf : (view.after (.level id lvl)).First id' c ↔ view.First id' c :=
    First.congr fun c' => enable_kept (by rintro _ _ _ ⟨⟩) c' id'
  rw [hf]
  simp only [after] at hp ⊢
  by_cases hs : id' = id
  · subst hs
    rw [if_pos rfl]
    by_cases hh : view.First id' c
    · rw [if_pos ⟨rfl, hh⟩] at hp
      cases lvl with
      | false => cases hp
      | true => exact ⟨rfl, hh⟩
    · rw [if_neg fun hb => hh hb.2] at hp
      exact absurd (sole c id' hp).2 hh
  · rw [if_neg hs]
    rw [if_neg fun hb => hs hb.1] at hp
    exact sole c id' hp

theorem sole_congr {v' : View cfg} (hp : ∀ c id, (v'.spot c id).pending = (view.spot c id).pending)
    (he : ∀ c id, (v'.spot c id).enable = (view.spot c id).enable) (hl : v'.level = view.level) :
    v'.Sole ↔ view.Sole := by
  simp [Sole, hp, hl, First.congr fun c' => he c' _]

theorem Sole.after_iff (h : view.Sole) (wf : view.Wf) : (view.after act).Sole ↔ act.EnablesOnce view := by
  cases act with
  | enable c word val => exact h.after_enable wf
  | level id lvl => exact iff_of_true (h.after_level id lvl) True.intro
  | nothing => exact iff_of_true h True.intro
  | priority => exact iff_of_true h True.intro
  | threshold => exact iff_of_true h True.intro
  | claim c id =>
    refine iff_of_true ((sole_congr (fun c' id' => ?_) (enable_kept (by rintro _ _ _ ⟨⟩)) ?_).mpr h) True.intro
    · simp only [after]
      split
      · rfl
      · simp only [service, change]
        split <;> rfl
    · simp only [after]
      split <;> rfl
  | complete c id =>
    refine iff_of_true ((sole_congr (fun c' id' => ?_) (enable_kept (by rintro _ _ _ ⟨⟩)) ?_).mpr h) True.intro
    · simp only [after]
      split
      · simp only [service, change]
        split <;> rfl
      · rfl
    · simp only [after]
      split <;> rfl

theorem Served.after (hs : view.Served) (sole : view.Sole) (fits : act.Fits view) (settled : act.Settled view) :
    (view.after act).Served := by
  intro c id ht
  cases act with
  | enable c' word val =>
    have hb : view.inService c id := ht
    refine (First.congr fun c'' => ?_).mpr (hs c id hb)
    rw [enable_after]
    split
    · rename_i hh
      obtain ⟨rfl, hi⟩ := hh
      apply Classical.byContradiction
      intro hc
      have idle := settled id hi hc c
      rw [hb] at idle
      cases idle
    · rfl
  | claim c' id' =>
    refine (First.congr fun c'' => enable_kept (by rintro _ _ _ ⟨⟩) c'' id).mpr ?_
    simp only [View.after] at ht
    split at ht
    · exact hs c id ht
    · rename_i hf
      simp only [service] at ht
      split at ht
      · rename_i hh
        rw [hh.1, hh.2]
        exact (sole c' id' (fits.resolve_left hf)).2
      · exact hs c id ht
  | complete c' id' =>
    refine (First.congr fun c'' => enable_kept (by rintro _ _ _ ⟨⟩) c'' id).mpr (hs c id ?_)
    simp only [View.after] at ht
    split at ht
    · simp only [service] at ht
      split at ht
      · cases ht
      · exact ht
    · exact ht
  | level => exact (First.congr fun c'' => enable_kept (by rintro _ _ _ ⟨⟩) c'' id).mpr (hs c id ht)
  | nothing => exact hs c id ht
  | priority => exact hs c id ht
  | threshold => exact hs c id ht

end View

section
variable {plic : Plic cfg}

theorem Wf.exclusive (wf : plic.Wf) (hs : plic.view.Sole) : plic.Exclusive where
  claimed := fun id c c' hh ht =>
    (hs c id ((wf.view.spot c id).claimed hh).1).2.unique (hs c' id ((wf.view.spot c' id).claimed ht).1).2
  low := fun id low c => Bool.eq_false_iff.mpr fun hp => by
    rw [(hs c id hp).1] at low
    cases low

def Steady (plic : Plic cfg) : Prop := plic.Exclusive ∧ ∀ id, (plic.after (.level id false)).Exclusive

theorem Wf.steady_iff (hf : cfg.numIds ≤ 1024) (wf : plic.Wf) : plic.Steady ↔ plic.view.Sole := by
  constructor
  · rintro ⟨he, hl⟩ c id hp
    have hk := ((wf.view.spot c id).pending hp).2
    have hh : plic.view.level id :=
      Bool.eq_true_of_not_eq_false fun low => by
        rw [he.low id low c] at hp
        cases hp
    refine ⟨hh, Classical.byContradiction fun lasts => ?_⟩
    -- lowering the source does not reach the context
    have hd : plic.decode (.level id false) = .level id false := by
      simp only [decode]
      rw [if_neg (not_or.mpr ⟨hk.1, Nat.not_le.mpr hk.2⟩)]
    have low : ((plic.after (.level id false)).view.spot c id).pending = false := by
      refine (hl id).low id ?_ c
      rw [after_view hf wf, hd]
      exact if_pos rfl
    rw [after_view hf wf, hd] at low
    simp only [View.after, lasts, and_false, if_false] at low
    rw [hp] at low
    cases low
  · intro hs
    refine ⟨wf.exclusive hs, fun id => (wf.after hf (.level id false)).exclusive ?_⟩
    rw [after_view hf wf, hs.after_iff wf.view]
    simp only [decode]
    split <;> exact True.intro

theorem init_sole : (init cfg).view.Sole := fun c id h => absurd h (init_idle c id)

theorem exclusive_iff (few : cfg.numIds ≤ 1024) (accesses : List Access) :
    (StepsMeet after (fun plic access => ∃ next, plic.step access = some next ∧ next.Steady) (init cfg) accesses ↔
      StepsMeet after (fun plic access => (plic.decode access).EnablesOnce plic.view) (init cfg) accesses) ∧
    (StepsMeet after (fun plic access => (plic.decode access).EnablesOnce plic.view ∧
      (plic.decode access).Settled plic.view) (init cfg) accesses →
      StepsMeet after (fun plic access => (plic.after access).ServedOnce) (init cfg) accesses) := by
  have keeps (plic : Plic cfg) (access : Access) (held : plic.Wf ∧ plic.view.Sole)
      (once : (plic.decode access).EnablesOnce plic.view) :
      (plic.after access).Wf ∧ (plic.after access).view.Sole := by
    refine ⟨held.1.after few access, ?_⟩
    rwa [after_view few held.1, held.2.after_iff held.1.view]
  constructor
  · refine stepsMeet_iff_of_invariant (fun plic access held => ?_) keeps ⟨init_wf few, init_sole⟩
    obtain ⟨wf, sole⟩ := held
    obtain ⟨fits, next, steps, view, lines⟩ := step_does few wf access
    have kept : next.Wf := ⟨view ▸ wf.view.after fits, lines⟩
    rw [steps, ← sole.after_iff wf.view, ← view, ← kept.steady_iff few]
    simp
  · intro careful
    have stays (plic : Plic cfg) (access : Access)
        (careful : (plic.decode access).EnablesOnce plic.view ∧ (plic.decode access).Settled plic.view)
        (held : (plic.Wf ∧ plic.view.Sole) ∧ plic.view.Served) :
        ((plic.after access).Wf ∧ (plic.after access).view.Sole) ∧ (plic.after access).view.Served := by
      refine ⟨keeps plic access held.1 careful.1, ?_⟩
      rw [after_view few held.1.1]
      exact held.2.after held.1.2 (step_does few held.1.1 access).1 careful.2
    refine careful.of_invariant stays (fun plic access careful held id c c' here there => ?_)
      ⟨⟨init_wf few, init_sole⟩, fun c id taken => nomatch taken⟩
    have served := (stays plic access careful held).2
    exact (served c id here).unique (served c' id there)

def pair : Config := ⟨[true], 1⟩
def machine : Fin pair.count := ⟨0, Nat.le_of_ble_eq_true rfl⟩
def supervisor : Fin pair.count := ⟨1, Nat.le_of_ble_eq_true rfl⟩
def shared : List Access := [.store 0x2080 2, .store 4 1, .level 1 true, .store 0x2000 2]

theorem exclusive_pair : pair.numIds ≤ 1024 ∧
    (StepsMeet after (fun plic access => ∃ next, plic.step access = some next ∧ next.Steady) (init pair)
      [.store 0x2080 2, .store 4 1, .level 1 true, .load 0x201004] ↔
      StepsMeet after (fun plic access => (plic.decode access).EnablesOnce plic.view) (init pair)
        [.store 0x2080 2, .store 4 1, .level 1 true, .load 0x201004]) :=
  ⟨by decide, (exclusive_iff (by decide) _).1⟩

theorem claimed_twice : let claimed := run after (init pair) (shared ++ [.load 0x200004, .load 0x201004])
    let l := run after (init pair) (shared ++ [.level 1 false])
    ((claimed.view.spot machine 1).claimed ∧ (claimed.view.spot supervisor 1).claimed ∧
        claimed.inService machine 1 ∧ claimed.inService supervisor 1) ∧
    l.view.level 1 = false ∧ (l.view.spot supervisor 1).pending := by
  decide +kernel

end

/-- The source may interrupt the context, by its priority register. -/
structure Deliverable (plic : Plic cfg) (c : Fin cfg.count) (id : Nat) : Prop where
  known : 0 < id ∧ id < cfg.numIds
  enabled : (plic.view.spot c id).enable
  pending : (plic.view.spot c id).pending
  unclaimed : (plic.view.spot c id).claimed = false
  above : plic.view.threshold c < plic.view.priority id

structure Top (plic : Plic cfg) (c : Fin cfg.count) (id : Nat) : Prop where
  deliverable : plic.Deliverable c id
  highest : ∀ other, plic.Deliverable c other → plic.view.priority other ≤ plic.view.priority id
  lowest : ∀ other, plic.Deliverable c other → plic.view.priority other = plic.view.priority id → id ≤ other

structure Exact (plic : Plic cfg) : Prop where
  line : ∀ c, plic.line c = true ↔ ∃ id, plic.Deliverable c id
  claim : ∀ c, ∃ id next, plic.contextClaim c = some (id, next) ∧
    (plic.Top c id ∨ id = 0 ∧ ∀ other, ¬plic.Deliverable c other)

/-- The priority register of a source that is pending in some context is not changed. -/
def Act.Keeps (view : View cfg) : Act cfg → Prop
  | .priority id val => ∀ c, (view.spot c id).pending → val = view.priority id
  | _ => True

namespace View
variable {view : View cfg} {act : Act cfg}

def Fresh (view : View cfg) : Prop := ∀ c id, (view.spot c id).pending → (view.spot c id).prio = view.priority id

theorem Fresh.after (hf : view.Fresh) (hk : act.Keeps view) : (view.after act).Fresh := by
  intro c id hp
  cases act with
  | nothing => exact hf c id hp
  | threshold => exact hf c id hp
  | priority id' val =>
    simp only [View.after] at hp ⊢
    split
    · rename_i hs
      subst hs
      rw [hf c id hp, hk c hp]
    · exact hf c id hp
  | enable c' word val =>
    have hb := hf c id
    simp only [View.after] at hp ⊢
    split at hp
    · rename_i hh
      unfold Spot.enabling at hp ⊢
      cases old : (view.spot c id).enable <;> cases new : val.getLsbD (id % 32) <;> cases level : view.level id <;>
        simp_all [Spot.raise, Spot.lower]
    · rename_i ho
      rw [if_neg ho]
      exact hb hp
  | claim c' id' =>
    simp only [View.after] at hp ⊢
    split at hp
    · rename_i hn
      rw [if_pos hn]
      exact hf c id hp
    · rename_i source
      rw [if_neg source]
      simp only [service, change] at hp ⊢
      split at hp <;> rename_i hh
      · rw [if_pos hh]
        exact hf c id hp
      · rw [if_neg hh]
        exact hf c id hp
  | complete c' id' =>
    simp only [View.after] at hp ⊢
    split at hp <;> rename_i he
    · rw [if_pos he]
      simp only [service, change] at hp ⊢
      split at hp <;> rename_i hh
      · rw [if_pos hh]
        exact hf c id hp
      · rw [if_neg hh]
        exact hf c id hp
    · rw [if_neg he]
      exact hf c id hp
  | level id' lvl =>
    simp only [View.after] at hp ⊢
    split at hp
    · rename_i hh
      rw [if_pos hh]
      cases lvl with
      | false => cases hp
      | true => exact congrArg view.priority hh.1.symm
    · rename_i ho
      rw [if_neg ho]
      exact hf c id hp

end View

section
variable {plic : Plic cfg}

theorem deliverable_iff (wf : plic.Wf) (hf : plic.view.Fresh) {c : Fin cfg.count} {id : Nat} :
    plic.Deliverable c id ↔ (plic.contexts c).Offered cfg id := by
  constructor
  · intro hd
    refine ⟨⟨hd.known.2, hd.pending, hd.unclaimed⟩, ?_⟩
    have ha := hd.above
    rw [← hf c id hd.pending] at ha
    exact ha
  · rintro ⟨⟨hk, hp, hu⟩, ha⟩
    have hp : (plic.view.spot c id).pending := hp
    have he := (wf.view.spot c id).pending hp
    refine ⟨⟨Nat.pos_of_ne_zero he.2.1, hk⟩, he.1, hp, hu, ?_⟩
    rw [← hf c id hp]
    exact ha

theorem Wf.exact (few : cfg.numIds ≤ 1024) (wf : plic.Wf) (fresh : plic.view.Fresh) : plic.Exact := by
  have ho (c : Fin cfg.count) : Selects (plic.Deliverable c) (plic.contexts c).urgency (plic.best c) :=
    (best_selects few (wf.view.unused c)).2.congr (fun id => (deliverable_iff wf fresh).symm) fun _ _ => rfl
  have hp (c : Fin cfg.count) {id : Nat} (hd : plic.Deliverable c id) :
      (plic.contexts c).prioOf id = plic.view.priority id := fresh c id hd.pending
  refine ⟨fun c => ?_, fun c => ?_⟩
  · rw [wf.lined c, decide_eq_true_iff]
    exact (ho c).ne_zero_iff
  · obtain ⟨nx, hc, -⟩ := contextClaim_does few wf c
    refine ⟨plic.best c, nx, hc, ?_⟩
    rcases ho c with ⟨-, hf⟩ | hn
    · have first (o : Nat) (hd : plic.Deliverable c o) := hf.first o hd
      refine .inl ⟨hf.waits, fun o hd => ?_, fun o hd hs => ?_⟩
      · rw [← hp c hd, ← hp c hf.waits]
        rcases first o hd with hl | ⟨hs, -⟩
        · exact BitVec.le_of_lt (urgency_lt.mp hl)
        · exact BitVec.le_def.mpr (Nat.le_of_eq (OrderDual.toDual_inj.mp hs).symm)
      · rcases first o hd with hl | ⟨-, hb⟩
        · rw [urgency_lt, hp c hd, hp c hf.waits, hs] at hl
          exact absurd hl (BitVec.lt_irrefl _)
        · exact hb
    · exact .inr hn

theorem lines_exact_of_careful (few : cfg.numIds ≤ 1024) {accesses : List Access}
    (careful : StepsMeet after (fun plic access => (plic.decode access).Keeps plic.view) (init cfg) accesses) :
    (init cfg).Exact ∧
      StepsMeet after (fun plic access => ∃ next, plic.step access = some next ∧ next.Exact) (init cfg) accesses := by
  have start : (init cfg).view.Fresh := fun c id waits => absurd waits (init_idle c id)
  have keeps (plic : Plic cfg) (access : Access) (kept : (plic.decode access).Keeps plic.view)
      (held : plic.Wf ∧ plic.view.Fresh) : (plic.after access).Wf ∧ (plic.after access).view.Fresh := by
    refine ⟨held.1.after few access, ?_⟩
    rw [after_view few held.1]
    exact held.2.after kept
  refine ⟨(init_wf few).exact few start, careful.of_invariant keeps (fun plic access kept held => ?_) ⟨init_wf few, start⟩⟩
  obtain ⟨-, next, steps, -⟩ := step_does few held.1 access
  have still := keeps plic access kept held
  rw [after, steps] at still
  exact ⟨next, steps, still.1.exact few still.2⟩

theorem lines_exact_pair : StepsMeet after (fun plic access => (plic.decode access).Keeps plic.view) (init pair)
    [.store 4 1, .store 0x2000 2, .level 1 true] ∧
    (init pair).Exact ∧ StepsMeet after (fun plic access => ∃ next, plic.step access = some next ∧ next.Exact)
      (init pair) [.store 4 1, .store 0x2000 2, .level 1 true] := by
  have careful : StepsMeet after (fun plic access => (plic.decode access).Keeps plic.view) (init pair)
      [.store 4 1, .store 0x2000 2, .level 1 true] :=
    ⟨fun c waits => absurd waits (init_idle c 1), True.intro, True.intro, True.intro⟩
  exact ⟨careful, lines_exact_of_careful (by decide) careful⟩

def triple : Config := ⟨[false], 2⟩
def only : Fin triple.count := ⟨0, Nat.le_of_ble_eq_true rfl⟩

/-- The line stays high when the priority of the source falls to the threshold, and a claim still returns the source.
  Of two sources, a claim returns the second after the first was given the higher priority. -/
theorem priorities_stale : let lowered := run after (init pair) [.store 4 1, .store 0x2000 2, .level 1 true, .store 4 0]
    let r := run after (init triple) [.store 4 1, .store 8 2, .store 0x2000 6, .level 1 true, .level 2 true,
      .store 4 3]
    (lowered.line machine ∧ lowered.view.threshold machine = 0 ∧ lowered.view.priority 1 = 0 ∧
      (lowered.contextClaim machine).map Prod.fst = some 1) ∧
    r.view.threshold only = 0 ∧ r.view.priority 1 = 3 ∧ r.view.priority 2 = 2 ∧
      (r.view.spot only 1).pending ∧ (r.view.spot only 1).enable ∧
      (r.view.spot only 1).claimed = false ∧ (r.contextClaim only).map Prod.fst = some 2 := by
  decide +kernel

end

end RiscvEmulators.Spike.Plic
