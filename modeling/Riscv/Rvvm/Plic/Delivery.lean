import Riscv.Rvvm.Plic.Update
import Riscv.Transition.Run
import Riscv.Word.Field

namespace RiscvEmulators.Rvvm.Plic
open Store Transition Cells Bits Option List
variable {harts : Nat}

/-- The source is pending and not in service. Zero is not a source. -/
def Waits (plic : Plic harts) (irq : Source) : Prop :=
  irq.val ≠ 0 ∧ plic.pending.has irq ∧ plic.inService irq = false

instance (plic : Plic harts) (irq : Source) : Decidable (plic.Waits irq) := inferInstanceAs (Decidable (_ ∧ _ ∧ _))

/-- No interrupt that waits is forgotten: if contexts take it, the line of one of them is raised. -/
def NoneLost (plic : Plic harts) : Prop := ∀ irq : Source, plic.Waits irq → plic.Heard irq
instance (plic : Plic harts) : Decidable plic.NoneLost := inferInstanceAs (Decidable (∀ _ : Source, _ → _))

section
variable {pl p : Plic harts}

theorem Signals.waits (h : Signals pl p) (irq : Source) : p.Waits irq ↔ pl.Waits irq := by
  obtain ⟨_, rfl⟩ := h
  exact Iff.rfl

theorem noneLost_of_exact (exact : ∀ ctx, pl.Exact ctx) : pl.NoneLost := by
  rintro irq w ⟨ctx, t⟩
  exact ⟨ctx, t, (exact ctx).mpr ⟨irq, w.2.1, t⟩⟩

theorem fullUpdate_noneLost (pl : Plic harts) : ∃ p, pl.fullUpdate = some p ∧ p.NoneLost := by
  obtain ⟨p, d, -, exact⟩ := pl.fullUpdate_spec
  exact ⟨p, d, noneLost_of_exact exact⟩

theorem heard_prio (pl : Plic harts) {irq other : Source} {v : W32} (ha : other ≠ irq) :
    { pl with prio := pl.prio.change irq.val fun _ => v }.Heard other ↔ pl.Heard other := by
  have hs : (pl.prio.change irq.val fun _ => v) other = pl.prio other :=
    change_other _ _ fun hh => ha (Fin.ext hh)
  unfold Heard Deliverable
  dsimp only
  rw [hs]
  exact Iff.rfl

end

def Spares (plic : Plic harts) (result : Option (Plic harts)) (heeds : Prop) : Prop :=
  ∃ plic', result = some plic' ∧ (plic.NoneLost → (plic'.NoneLost ↔ heeds))

section
variable (plic : Plic harts)

variable {plic} in
theorem spares {r : Option (Plic harts)} {p' : Plic harts} (hd : r = some p') (hk : plic.NoneLost → p'.NoneLost) :
    plic.Spares r True := ⟨p', hd, fun hs => iff_of_true (hk hs) True.intro⟩

theorem setIrqPrio_spec (irq : Source) (prio : W32) : plic.Spares (plic.setIrqPrio irq prio) True := by
  let changed : Plic harts := { plic with prio := plic.prio.change irq.val fun _ => prio }
  have ho {source : Source} (ha : source ≠ irq) (hh : plic.Heard source) : changed.Heard source :=
    (heard_prio plic ha).mpr hh
  have step : plic.setIrqPrio irq prio = if prio < plic.prio irq then
      if plic.pending.has irq then changed.fullUpdate else some changed
      else if plic.prio irq < prio then changed.updateIrq irq
      else some changed := by
    unfold setIrqPrio Cells.write
    rw [read_val, modify_val, bind_eq_bind, bind_some, bind_eq_bind, bind_some]
    dsimp only
    rw [irqPending_eq]
    rfl
  rw [step]
  split
  · split
    · obtain ⟨p', hd, hs⟩ := changed.fullUpdate_noneLost
      exact spares hd fun _ => hs
    · rename_i hi
      refine spares rfl fun hs source hw => ?_
      have ha : source ≠ irq := by
        rintro rfl
        exact hi hw.2.1
      exact ho ha (hs source hw)
  · split
    · obtain ⟨p', hd, does, hh⟩ := changed.updateIrq_spec irq
      refine spares hd fun hs source hw => ?_
      have hb : plic.Waits source := (does.signals.waits source).mp hw
      by_cases here : source = irq
      · subst here
        exact hh hb.2.1
      · exact does.heard (ho here (hs source hb))
    · rename_i hn none
      have same : prio = plic.prio irq := BitVec.le_antisymm (BitVec.not_lt.mp none) (BitVec.not_lt.mp hn)
      have hu : changed = plic := by
        change { plic with prio := plic.prio.change irq.val fun _ => prio } = plic
        rw [same, change_self]
      rw [hu]
      exact spares rfl id

def EnableHeeds (ctx : Ctx harts) (reg : Fin 2) (enable : W32) : Prop :=
  plic.enable ctx reg &&& ~~~enable ≠ 0 → plic.enable ctx reg &&& ~~~enable &&& plic.pending reg = 0 →
    ∀ irq : Source, plic.Waits irq → irq.val / 32 = reg.val → enable.getLsbD (irq.val % 32) →
      plic.threshold ctx < plic.prio irq → (∃ other, plic.Deliverable other irq) ∨ plic.line ctx

def ThresholdHeeds (ctx : Ctx harts) (threshold : W32) : Prop :=
  plic.threshold ctx ≠ threshold → ∀ irq : Source, plic.Waits irq → (∃ other, other ≠ ctx ∧ plic.Deliverable other irq) →
      (plic.enable ctx).has irq ∧ threshold < plic.prio irq ∨
        ∃ other, other ≠ ctx ∧ plic.Deliverable other irq ∧ plic.line other

def CompleteHeeds (ctx : Ctx harts) (irq : Source) : Prop :=
  irq.val ≠ 0 → plic.raised.has irq ∨ plic.pending.has irq →
    plic.raised.has irq ∧ plic.workaroundIntxStorm = false ∧ plic.Deliverable ctx irq ∨ plic.Heard irq

def withEnable (ctx : Ctx harts) (reg : Fin 2) (enable : W32) : Plic harts :=
  { plic with enable := plic.enable.change ctx.val fun _ => (plic.enable ctx).change reg.val fun _ => enable }

variable (ctx : Ctx harts) (reg : Fin 2) (enable : W32)

theorem setEnableBits_eq : plic.setEnableBits ctx reg enable = if plic.enable ctx reg &&& ~~~enable ≠ 0 then
    if plic.enable ctx reg &&& ~~~enable &&& plic.pending reg ≠ 0 then (plic.withEnable ctx reg enable).fullUpdate
    else some (plic.withEnable ctx reg enable)
    else if enable &&& ~~~plic.enable ctx reg ≠ 0 then (plic.withEnable ctx reg enable).updateCtxIrqReg ctx reg
    else some (plic.withEnable ctx reg enable) := by
  unfold setEnableBits Cells.write
  simp only [read_val, modify_val]
  rfl

theorem withEnable_same :
    (plic.withEnable ctx reg enable).enable ctx = (plic.enable ctx).change reg.val fun _ => enable := by
  unfold withEnable
  dsimp only
  rw [change_same]

theorem deliverable_withEnable (o : Ctx harts) (irq : Source) : (plic.withEnable ctx reg enable).Deliverable o irq ↔
    if o = ctx ∧ irq.val / 32 = reg.val then enable.getLsbD (irq.val % 32) ∧ plic.threshold ctx < plic.prio irq
    else plic.Deliverable o irq := by
  unfold Deliverable
  by_cases hs : o = ctx
  · have h : irq.val / 32 < 2 := by omega
    rw [hs, withEnable_same, has_eq _ h, has_eq _ h, change]
    simp only [true_and]
    split <;> rfl
  · rw [if_neg fun h => hs h.1]
    unfold withEnable
    dsimp only
    rw [change_other _ _ fun h => hs (Fin.ext h)]

theorem setEnableBits_spec : plic.Spares (plic.setEnableBits ctx reg enable) (plic.EnableHeeds ctx reg enable) := by
  let c := plic.withEnable ctx reg enable
  -- an interrupt that no pending bit was taken from is taken by more contexts than before
  have g {irq : Source} (k : irq.val / 32 = reg.val → (plic.enable ctx).has irq →
      enable.getLsbD (irq.val % 32)) {o : Ctx harts} (t : plic.Deliverable o irq) :
      c.Deliverable o irq := by
    rw [deliverable_withEnable]
    split
    · rename_i w
      rw [w.1] at t
      exact ⟨k w.2 t.1, t.2⟩
    · exact t
  have sh {irq : Source} {o : Ctx harts} (t : c.Deliverable o irq) : plic.Deliverable o irq ∨
      o = ctx ∧ irq.val / 32 = reg.val ∧ enable.getLsbD (irq.val % 32) ∧ plic.threshold ctx < plic.prio irq := by
    rw [deliverable_withEnable] at t
    split at t
    · rename_i w
      exact .inr ⟨w.1, w.2, t⟩
    · exact .inl t
  have h {irq : Source} (k : irq.val / 32 = reg.val → (plic.enable ctx).has irq →
      enable.getLsbD (irq.val % 32)) (heard : plic.Heard irq)
      (r : irq.val / 32 = reg.val → enable.getLsbD (irq.val % 32) → plic.threshold ctx < plic.prio irq →
        (∃ o, plic.Deliverable o irq) ∨ plic.line ctx) : c.Heard irq := by
    have old : (∃ o, plic.Deliverable o irq) → ∃ o, c.Deliverable o irq ∧ c.line o := by
      intro some
      obtain ⟨o, t, set⟩ := heard some
      exact ⟨o, g k t, set⟩
    rintro ⟨o, t⟩
    rcases sh t with b | ⟨rfl, w, bit, a⟩
    · exact old ⟨o, b⟩
    · rcases r w bit a with some | set
      · exact old some
      · exact ⟨o, t, set⟩
  rw [setEnableBits_eq]
  by_cases d : plic.enable ctx reg &&& ~~~enable = 0
  · rw [if_neg (not_not_intro d)]
    have k {irq : Source} (w : irq.val / 32 = reg.val) (set : (plic.enable ctx).has irq) :
        enable.getLsbD (irq.val % 32) := by
      rw [← getLsbD_eq_has _ w] at set
      exact Word.Within.getLsbD d set
    have he : plic.EnableHeeds ctx reg enable := fun some => absurd d some
    split
    · obtain ⟨p', don, ad, heard⟩ := c.updateCtxIrqReg_spec ctx reg
      refine ⟨p', don, fun s => iff_of_true ?_ he⟩
      intro irq wa
      have b : plic.Waits irq := (ad.signals.waits irq).mp wa
      have old := s irq b
      by_cases w : irq.val / 32 = reg.val
      · by_cases none : plic.pending reg &&& c.enable ctx reg = 0
        · refine ad.heard (h k old fun _ bit _ => ?_)
          have pd := b.2.1
          rw [← getLsbD_eq_has _ w] at pd
          have bo := congrArg (fun w => w.getLsbD (irq.val % 32)) none
          rw [plic.withEnable_same, change_same] at bo
          simp [pd, bit] at bo
        · exact heard none irq w b.2.1
      · exact ad.heard (h k old fun here => absurd here w)
    · rename_i en
      refine ⟨c, rfl, fun s => iff_of_true ?_ he⟩
      intro irq wa
      refine h k (s irq wa) fun w bit a => .inl ⟨ctx, ?_, a⟩
      rw [← getLsbD_eq_has _ w]
      exact Word.Within.getLsbD (Decidable.not_not.mp en) bit
  · rw [if_pos d]
    by_cases l : plic.enable ctx reg &&& ~~~enable &&& plic.pending reg = 0
    · rw [if_neg (not_not_intro l)]
      refine ⟨c, rfl, fun s => ⟨?_, ?_⟩⟩
      · intro af _ _ irq wa w bit a
        have t : c.Deliverable ctx irq := by
          rw [deliverable_withEnable, if_pos ⟨rfl, w⟩]
          exact ⟨bit, a⟩
        obtain ⟨o, t', set⟩ := af irq wa ⟨ctx, t⟩
        rcases sh t' with old | ⟨rfl, -⟩
        · exact .inl ⟨o, old⟩
        · exact .inr set
      · intro he irq wa
        have k (w : irq.val / 32 = reg.val) (set : (plic.enable ctx).has irq) : enable.getLsbD (irq.val % 32) := by
          have pd : plic.pending.has irq := wa.2.1
          rw [← getLsbD_eq_has _ w] at set
          rw [← getLsbD_eq_has _ w] at pd
          rw [BitVec.and_assoc, BitVec.and_comm (~~~enable), ← BitVec.and_assoc] at l
          apply Word.Within.getLsbD l
          rw [BitVec.getLsbD_and, set, pd, Bool.and_self]
        exact h k (s irq wa) fun w bit a => he d l irq wa w bit a
    · rw [if_pos l]
      obtain ⟨p', don, s⟩ := c.fullUpdate_noneLost
      exact ⟨p', don, fun _ => iff_of_true s fun _ none => absurd none l⟩

def withThreshold (ctx : Ctx harts) (threshold : W32) : Plic harts :=
  { plic with threshold := plic.threshold.change ctx.val fun _ => threshold }

theorem deliverable_withThreshold (th : W32) (o : Ctx harts) (irq : Source) :
    (plic.withThreshold ctx th).Deliverable o irq ↔
      if o = ctx then (plic.enable ctx).has irq ∧ th < plic.prio irq else plic.Deliverable o irq := by
  unfold Deliverable withThreshold
  dsimp only
  split
  · rename_i hs
    rw [hs, change_same]
  · rename_i ha
    rw [change_other _ _ fun hs => ha (Fin.ext hs)]

theorem setCtxThreshold_spec (threshold : W32) :
    plic.Spares (plic.setCtxThreshold ctx threshold) (plic.ThresholdHeeds ctx threshold) := by
  let changed := plic.withThreshold ctx threshold
  have here (irq : Source) : changed.Deliverable ctx irq ↔ (plic.enable ctx).has irq ∧ threshold < plic.prio irq := by
    rw [deliverable_withThreshold, if_pos rfl]
  have other {o : Ctx harts} (ha : o ≠ ctx) (irq : Source) : changed.Deliverable o irq ↔ plic.Deliverable o irq := by
    rw [deliverable_withThreshold, if_neg ha]
  have step : plic.setCtxThreshold ctx threshold =
      if plic.threshold ctx ≠ threshold then (changed.updateCtx ctx false).map Prod.snd else some changed := by
    unfold setCtxThreshold Cells.write
    simp
    rfl
  rw [step]
  by_cases hd : plic.threshold ctx = threshold
  · rw [if_neg (not_not_intro hd)]
    have hu : changed = plic := by
      change { plic with threshold := plic.threshold.change ctx.val fun _ => threshold } = plic
      rw [← hd, change_self]
    rw [hu]
    exact ⟨plic, rfl, fun sound => iff_of_true sound fun o => absurd hd o⟩
  · rw [if_pos hd]
    obtain ⟨_, p', does, hs, ho, update, -⟩ := changed.updateCtx_spec ctx false
    have hta (o : Ctx harts) (irq : Source) := hs.deliverable o irq
    rw [does]
    refine ⟨p', rfl, fun _ => ⟨?_, ?_⟩⟩
    · rintro haf - irq hw ⟨o, ha, ht⟩
      obtain ⟨t, ht, set⟩ := haf irq ((hs.waits irq).mpr hw)
        ⟨o, (hta o irq).mpr ((other ha irq).mpr ht)⟩
      rw [hta] at ht
      by_cases own : t = ctx
      · subst own
        exact .inl ((here irq).mp ht)
      · rw [ho t own] at set
        exact .inr ⟨t, own, (other own irq).mp ht, set⟩
    · rintro hh irq hw ⟨o, ht⟩
      rw [hta] at ht
      rw [hs.waits] at hw
      -- the line of the context itself is up to date
      have own (he : changed.Deliverable ctx irq) : ∃ ctx, p'.Deliverable ctx irq ∧ p'.line ctx :=
        ⟨ctx, (hta ctx irq).mpr he, update.mpr ⟨irq, hw.2.1, he, fun hc => Bool.noConfusion hc⟩⟩
      by_cases hsa : o = ctx
      · subst hsa
        exact own ht
      · rcases hh hd irq hw ⟨o, hsa, (other hsa irq).mp ht⟩ with he | ⟨t, ha, ht, set⟩
        · exact own ((here irq).mpr he)
        · refine ⟨t, (hta t irq).mpr ((other ha irq).mpr ht), ?_⟩
          rw [ho t ha]
          exact set

theorem service_inService (irq other : Nat) (t : Bool) :
    (plic.service irq t).inService other = if other = irq then t else plic.inService other := rfl

theorem claimIrq_spec : ∃ irq p', plic.claimIrq ctx = some (irq, p') ∧ (plic.NoneLost → p'.NoneLost) := by
  obtain ⟨irq, nx, hd, hs, ho, hu, hc⟩ := plic.updateCtx_spec ctx true
  have hh (source : Source) (ha : source.val ≠ irq) (pending : plic.pending.has source)
      (hh : plic.Heard source) : nx.Heard source := by
    rintro ⟨o, ht⟩
    rw [hs.deliverable] at ht
    obtain ⟨t, ht, set⟩ := hh ⟨o, ht⟩
    refine ⟨t, (hs.deliverable t source).mpr ht, ?_⟩
    by_cases same : t = ctx
    · subst same
      exact hu.mpr ⟨source, pending, ht, fun _ => ha⟩
    · rw [ho t same]
      exact set
  unfold claimIrq claimLoop
  rw [hd, bind_eq_bind, bind_some]
  dsimp only
  by_cases hn : irq = 0
  · rw [if_neg (not_not_intro hn)]
    refine ⟨irq, nx, rfl, fun sound source hw => ?_⟩
    rw [hs.waits] at hw
    exact hh source (fun same => hw.1 (same.trans hn)) hw.2.1 (sound source hw)
  · rw [if_pos hn]
    obtain ⟨bound, pending, -⟩ := plic.mem_waiting.mp (hc hn)
    obtain ⟨_, share⟩ := hs
    -- the interrupt that was found is still pending, so that one round is enough
    have word : irq / 32 < 2 := by omega
    have step : nx.pending ⟨irq / 32, word⟩ &&& bitOf irq ≠ 0 := by
      have set : plic.pending.has irq := pending
      rw [has_eq plic.pending word] at set
      rw [share, and_bitOf, if_pos set]
      exact bitOf_ne_zero irq
    refine ⟨irq, { nx with pending := nx.pending.remove irq }.service irq true, ?_, ?_⟩
    · simp only [Cells.read, dif_pos word, Cells.modify, if_pos word, bind_eq_bind, bind_some]
      rw [if_neg step]
      rfl
    · rintro sound source ⟨hr, hw, hf⟩
      have ha : source.val ≠ irq := by
        intro same
        rw [service_inService, if_pos same] at hf
        cases hf
      have hb : plic.Waits source := by
        refine ⟨hr, ?_, ?_⟩
        · change (nx.pending.remove irq).has source at hw
          rw [has_remove, share, Bool.and_eq_true] at hw
          exact hw.2
        · rw [service_inService, if_neg ha, share] at hf
          exact hf
      exact hh source ha hb.2.1 (sound source hb)

theorem completeIrq_spec (irq : Source) : plic.Spares (plic.completeIrq ctx irq) (plic.CompleteHeeds ctx irq) := by
  have word : irq.val / 32 < 2 := by omega
  let freed := plic.service irq false
  let a : Plic harts := { freed with pending := plic.pending.insert irq }
  have step : plic.completeIrq ctx irq = if plic.raised.has irq then
      if plic.workaroundIntxStorm then some a else (a.notifyCtxIrq ctx irq).map Prod.snd
      else some freed := by
    unfold completeIrq
    simp only [Cells.read, dif_pos word, Cells.modify, bind_eq_bind, bind_some]
    rw [has_eq plic.raised word, and_bitOf]
    split
    · rw [if_pos (bitOf_ne_zero _)]
      rfl
    · rfl
  -- the other sources are as they were
  have ho {bs : Bits 2} {source : Source} (ha : source ≠ irq) (hk : bs.has source = plic.pending.has source)
      (hw : { freed with pending := bs }.Waits source) : plic.Waits source := by
    obtain ⟨ready, pending, hf⟩ := hw
    rw [service_inService, if_neg fun here => ha (Fin.ext here)] at hf
    rw [hk] at pending
    exact ⟨ready, pending, hf⟩
  have hq {bs : Bits 2} (hk : ∀ source : Source, source ≠ irq → bs.has source = plic.pending.has source)
      (hs : plic.NoneLost) : { freed with pending := bs }.NoneLost ↔ (irq.val ≠ 0 → bs.has irq → plic.Heard irq) := by
    constructor
    · intro after ready pending
      exact after irq ⟨ready, pending, if_pos rfl⟩
    · intro hh source hw
      by_cases same : source = irq
      · subst same
        exact hh hw.1 hw.2.1
      · exact hs source (ho same (hk source same) hw)
  have hi (source : Source) (ha : source ≠ irq) : (plic.pending.insert irq).has source = plic.pending.has source := by
    rw [has_insert _ word, decide_eq_false fun same => ha (Fin.ext same), Bool.false_or]
  have pending : (plic.pending.insert irq).has irq := by
    rw [has_insert _ word, decide_eq_true rfl, Bool.true_or]
  rw [step]
  unfold CompleteHeeds
  cases hra : plic.raised.has irq with
  | false =>
    refine ⟨freed, rfl, fun hs => ?_⟩
    rw [show freed = { freed with pending := plic.pending } from rfl, hq (fun _ _ => rfl) hs]
    simp
  | true =>
    cases hw2 : plic.workaroundIntxStorm with
    | true =>
      refine ⟨a, rfl, fun hs => ?_⟩
      rw [hq hi hs]
      simp [pending]
    | false =>
      rw [notifyCtxIrq_eq]
      by_cases ht : plic.Deliverable ctx irq
      · have hta : a.Deliverable ctx irq := ht
        rw [if_pos hta]
        refine ⟨_, rfl, fun hs => iff_of_true ?_ fun _ _ => .inl ⟨rfl, rfl, ht⟩⟩
        intro source hw
        have had := adds_raiseLine a ctx
        by_cases same : source = irq
        · subst same
          refine fun _ => ⟨ctx, ht, ?_⟩
          rw [line_raiseLine, decide_eq_true rfl, Bool.true_or]
        · exact had.heard (hs source (ho same (hi source same) ((had.signals.waits source).mp hw)))
      · have hr : ¬a.Deliverable ctx irq := ht
        rw [if_neg hr]
        refine ⟨a, rfl, fun hs => ?_⟩
        rw [hq hi hs]
        simp [pending, ht]

theorem fetchOr_eq (bs : Bits 2) (irq : Source) : fetchOr bs irq = some (bs.has irq, bs.insert irq) := by
  have h : irq.val / 32 < 2 := by omega
  unfold fetchOr
  rw [has_eq bs h]
  simp only [Cells.read, dif_pos h, Cells.modify, if_pos h]
  rfl

theorem arm_spec (irq : Source) : plic.Spares (do
    let (w, pending) ← fetchOr plic.pending irq
    let plic := { plic with pending }
    if w then return plic else plic.notifyIrq irq) True := by
  let a : Plic harts := { plic with pending := plic.pending.insert irq }
  have hb {source : Source} (hk : source ≠ irq ∨ plic.pending.has irq) (hw : a.Waits source) : plic.Waits source := by
    obtain ⟨hr, pending, hf⟩ := hw
    refine ⟨hr, ?_, hf⟩
    by_cases hs : source = irq
    · subst hs
      exact hk.resolve_left (not_not_intro rfl)
    · rw [has_insert _ (show irq.val / 32 < 2 by omega), decide_eq_false fun here => hs (Fin.ext here)] at pending
      exact pending
  rw [fetchOr_eq, bind_eq_bind]
  cases was : plic.pending.has irq with
  | true => exact spares rfl fun sound source hw => sound source (hb (.inr was) hw)
  | false =>
    obtain ⟨p', hd, ha, hh⟩ := a.notifyIrq_spec irq
    refine spares hd fun sound source hw => ?_
    by_cases hs : source = irq
    · subst hs
      exact hh
    · exact ha.heard (sound source (hb (.inl hs) ((ha.signals.waits source).mp hw)))

theorem sendIrq_spec (irq : Nat) : plic.Spares (plic.sendIrq irq) True := by
  unfold sendIrq
  split
  · rename_i h
    exact plic.arm_spec ⟨irq, h.2⟩
  · exact spares rfl id

theorem raiseIrq_spec (irq : Nat) : plic.Spares (plic.raiseIrq irq) True := by
  unfold raiseIrq
  split
  · rename_i h
    have raised := fetchOr_eq plic.raised ⟨irq, h.2⟩
    rw [raised, bind_eq_bind, bind_some]
    dsimp only
    split
    · exact spares rfl id
    · exact arm_spec { plic with raised := plic.raised.insert irq } ⟨irq, h.2⟩
  · exact spares rfl id

theorem lowerIrq_spec (irq : Nat) : plic.Spares (plic.lowerIrq irq) True := by
  unfold lowerIrq
  split
  · have hw : irq / 32 < 2 := by omega
    simp only [Cells.modify, if_pos hw]
    exact spares rfl id
  · exact spares rfl id

theorem update_spec : plic.Spares plic.update True := by
  unfold update
  split
  · obtain ⟨p', hd, hs⟩ := plic.fullUpdate_noneLost
    exact spares hd fun _ => hs
  · exact spares rfl id

theorem reset_spec : plic.Spares plic.reset True := by
  have bound (plic : Plic harts) (ctx : Nat) (hm : ctx ∈ List.range (2 * harts)) : ∃ plic', (do
      let plic ← plic.interruptClear ctx
      let enable ← plic.enable.write ctx fun _ => 0
      return { plic with enable }) = some plic' := by
    have hb := mem_range.mp hm
    have c := plic.interruptClear_eq ⟨ctx, hb⟩
    rw [c, bind_eq_bind, bind_some, Cells.write, Cells.modify, if_pos hb]
    exact ⟨_, rfl⟩
  obtain ⟨c, hd⟩ := foldlM_total plic bound
  unfold reset
  rw [hd]
  refine spares rfl fun _ irq hw => ?_
  have hp := hw.2.1
  rw [has_eq _ (show irq.val / 32 < 2 by omega)] at hp
  simp at hp

end

section
variable (plic : Plic harts)

inductive Write (harts : Nat) where
  | prio (irq : Source) (value : W32)
  | enable (ctx : Ctx harts) (reg : Fin 2) (value : W32)
  | threshold (ctx : Ctx harts) (value : W32)
  | complete (ctx : Ctx harts) (irq : Nat)
  | ignored

def decode (harts offset : Nat) (value : W32) : Write harts :=
  if offset < 0x1000 then
    if valid : 0 < offset / 4 ∧ offset / 4 < 64 then .prio ⟨offset / 4, valid.2⟩ value else .ignored
  else if offset < 0x2000 then .ignored
  else if offset < 0x1F2000 then
    if valid : (offset - 0x2000) / 4 % 32 < 2 ∧ (offset - 0x2000) / 128 < 2 * harts then
      .enable ⟨(offset - 0x2000) / 128, valid.2⟩ ⟨(offset - 0x2000) / 4 % 32, valid.1⟩ value
    else .ignored
  else if offset < 0x200000 then .ignored
  else if offset < 0x4000000 then
    if valid : (offset - 0x200000) / 4096 < 2 * harts then
      if (offset - 0x200000) / 4 % 1024 = ctxflagClaimcomplete then .complete ⟨(offset - 0x200000) / 4096,
        valid⟩ value.toNat
      else if (offset - 0x200000) / 4 % 1024 = ctxflagThreshold then .threshold ⟨(offset - 0x200000) / 4096, valid⟩ value
      else .ignored
    else .ignored
  else .ignored

def Write.perform (plic : Plic harts) : Write harts → Option (Plic harts)
  | .prio irq value => plic.setIrqPrio irq value
  | .enable ctx reg value => plic.setEnableBits ctx reg value
  | .threshold ctx value => plic.setCtxThreshold ctx value
  | .complete ctx irq => plic.completeIrq ctx irq
  | .ignored => some plic

theorem mmioWrite_eq (off : Nat) (v : W32) : plic.mmioWrite off v = (decode harts off v).perform plic := by
  unfold mmioWrite decode
  simp only [apply_ite (Write.perform plic)]
  refine if_congr .rfl ?_ (if_congr .rfl rfl (if_congr .rfl ?_ (if_congr .rfl rfl (if_congr .rfl ?_ rfl))))
  · split <;> rfl
  · split <;> rfl
  · by_cases hv : (off - 0x200000) / 4096 < 2 * harts
    · rw [if_pos hv, dif_pos hv, apply_ite (Write.perform plic), apply_ite (Write.perform plic)]
      rfl
    · rw [if_neg hv, dif_neg hv]
      rfl

def Write.Bounded : Write harts → Prop
  | .complete _ irq => irq < 64
  | _ => True

def Write.Heeded (plic : Plic harts) : Write harts → Prop
  | .enable ctx reg value => plic.EnableHeeds ctx reg value
  | .threshold ctx value => plic.ThresholdHeeds ctx value
  | .complete ctx irq => ∀ source : Source, source.val = irq → plic.CompleteHeeds ctx source
  | _ => True

theorem perform_spec {w : Write harts} (b : w.Bounded) : plic.Spares (w.perform plic) (w.Heeded plic) := by
  cases w with
  | prio irq v => exact plic.setIrqPrio_spec irq v
  | enable ctx reg v => exact plic.setEnableBits_spec ctx reg v
  | threshold ctx v => exact plic.setCtxThreshold_spec ctx v
  | complete ctx irq =>
    obtain ⟨p', d, k⟩ := plic.completeIrq_spec ctx ⟨irq, b⟩
    refine ⟨p', d, fun so => (k so).trans ⟨?_, fun h => h _ rfl⟩⟩
    rintro h s rfl
    exact h
  | ignored => exact spares rfl id

theorem perform_isSome (w : Write harts) : (w.perform plic).isSome ↔ w.Bounded := by
  constructor
  · intro d
    cases w with
    | complete ctx irq =>
      apply Classical.byContradiction
      intro (o : ¬irq < 64)
      have none : plic.raised.read (irq / 32) = none := dif_neg (by omega)
      rw [Write.perform, completeIrq, none] at d
      cases d
    | _ => trivial
  · intro b
    obtain ⟨p', d, -⟩ := plic.perform_spec b
    rw [d]
    rfl

def ReadKeeps (result : Option (W32 × Plic harts)) : Prop :=
  ∃ v p', result = some (v, p') ∧ (plic.NoneLost → p'.NoneLost)

theorem readKeeps_same {v : W32} : plic.ReadKeeps (some (v, plic)) := ⟨v, plic, rfl, id⟩

theorem mmioRead_spec (off : Nat) : plic.ReadKeeps (plic.mmioRead off) := by
  have hs {v : W32} := plic.readKeeps_same (v := v)
  unfold mmioRead
  refine of_ite (iteInduction (fun hv => ?_) fun _ => hs) (of_ite (iteInduction (fun hv => ?_) fun _ => hs)
    (of_ite hs (of_ite (iteInduction (fun hv => ?_) fun _ => hs) (of_ite hs
      (of_ite (iteInduction (fun hv => of_ite ?_ (of_ite ?_ hs)) fun _ => hs) hs)))))
  · rw [Cells.read, dif_pos hv.2]
    exact hs
  · rw [Cells.read, dif_pos hv]
    exact hs
  · simp only [Cells.read, dif_pos hv.2, dif_pos hv.1]
    exact hs
  · obtain ⟨irq, p', hd, hk⟩ := plic.claimIrq_spec ⟨_, hv⟩
    have hc : plic.claimIrq ((off - 0x200000) / 4096) = some (irq, p') := hd
    rw [hc]
    exact ⟨_, _, rfl, hk⟩
  · rw [Cells.read, dif_pos hv]
    exact hs

/-- A completion names a source; everything else may have any value. -/
def Event.Bounded (harts : Nat) : Event → Prop
  | .write offset value => (decode harts offset value).Bounded
  | _ => True

def Event.Heeded (plic : Plic harts) : Event → Prop
  | .write offset value => (decode harts offset value).Heeded plic
  | _ => True

theorem step_spec {e : Event} (hb : e.Bounded harts) : plic.Spares (plic.step e) (e.Heeded plic) := by
  cases e with
  | read off =>
    obtain ⟨v, p', hd, hk⟩ := plic.mmioRead_spec off
    rw [step, hd]
    exact spares rfl hk
  | write off v =>
    rw [step, mmioWrite_eq]
    exact plic.perform_spec hb
  | send irq => exact plic.sendIrq_spec irq
  | raise irq => exact plic.raiseIrq_spec irq
  | lower irq => exact plic.lowerIrq_spec irq
  | update => exact plic.update_spec
  | reset => exact plic.reset_spec

theorem step_isSome (e : Event) : (plic.step e).isSome ↔ e.Bounded harts := by
  constructor
  · intro d
    cases e with
    | write off v =>
      rw [step, mmioWrite_eq] at d
      exact (plic.perform_isSome _).mp d
    | _ => trivial
  · intro b
    obtain ⟨p', d, -⟩ := plic.step_spec b
    rw [d]
    rfl

end

/-- A run stays inside the arrays exactly when every completion names a source. -/
theorem accesses_in_bounds_iff (plic : Plic harts) (events : List Event) :
    (plic.run events).isSome ↔ ∀ event ∈ events, event.Bounded harts := by
  induction events generalizing plic with
  | nil => simp [run]
  | cons event events ih =>
    rw [forall_mem_cons, ← plic.step_isSome event]
    unfold run at ih ⊢
    rw [foldlM_cons]
    cases done : plic.step event with
    | none => simp
    | some nx =>
      rw [bind_eq_bind, bind_some, ih nx]
      simp

theorem completion_out_of_bounds : ((init 1 false fun _ => 0).run [.write 0x200004 64]).isNone = true := by
  decide +kernel

def after (plic : Plic harts) (event : Event) : Plic harts := (plic.step event).getD plic

theorem init_noneLost (harts : Nat) (w : Bool) (p : Cells harts W32) : (init harts w p).NoneLost := by
  intro irq hw
  have hp := hw.2.1
  rw [has_eq _ (show irq.val / 32 < 2 by omega)] at hp
  simp [init] at hp

/-- No interrupt is lost after any operation of a run exactly when each operation finds what it needs. -/
theorem none_lost_iff (harts : Nat) (workaround : Bool) (pendingIrqs : Cells harts W32) (events : List Event)
    (bounded : ∀ event ∈ events, event.Bounded harts) :
    StepsMeet after (fun plic event => (plic.after event).NoneLost) (init harts workaround pendingIrqs) events ↔
      StepsMeet after (fun plic event => event.Heeded plic) (init harts workaround pendingIrqs) events := by
  have start := init_noneLost harts workaround pendingIrqs
  generalize init harts workaround pendingIrqs = plic at start ⊢
  induction events generalizing plic with
  | nil => exact Iff.rfl
  | cons event events ih =>
    obtain ⟨next, done, keeps⟩ := plic.step_spec (bounded event mem_cons_self)
    have reached : plic.after event = next := by rw [after, done]; rfl
    rw [stepsMeet_cons, stepsMeet_cons, reached, keeps start]
    apply and_congr_right
    intro heeded
    exact ih (fun other member => bounded other (mem_cons_of_mem _ member)) next ((keeps start).mpr heeded)

def enableBoth : List Event := [.write 0x4 1, .write 0x2000 2, .write 0x2080 2]

theorem raised_source_heeded :
    StepsMeet after (fun plic event => event.Heeded plic) (init 1 false fun _ => 0) (enableBoth ++ [.raise 1]) := by
  have bounded : ∀ event ∈ enableBoth ++ [Event.raise 1], event.Bounded 1 := by
    intro event member
    simp only [enableBoth, cons_append, nil_append, mem_cons, not_mem_nil, or_false] at member
    rcases member with rfl | rfl | rfl | rfl <;> exact True.intro
  apply (none_lost_iff 1 false (fun _ => 0) _ bounded).mp
  exact ⟨by decide +kernel, by decide +kernel, by decide +kernel, by decide +kernel, True.intro⟩

def Loses (events : List Event) : Prop :=
  ((init 1 false fun _ => 0).run events).map (fun plic => decide plic.NoneLost) = some false

instance (events : List Event) : Decidable (Loses events) := inferInstanceAs (Decidable (_ = _))

theorem waiting_interrupts_lost :
    -- the threshold of the machine context, the only one that was notified, is set to the priority of the source
    Loses (enableBoth ++ [.raise 1, .write 0x200000 1]) ∧
    -- one write enables source 2, which is pending, and disables source 1, which is not
    Loses [.write 0x4 1, .write 0x8 1, .write 0x2000 2, .raise 2, .write 0x2000 4] ∧
    -- the machine context claims source 1, sets its threshold and completes; the source is still raised
    Loses (enableBoth ++ [.raise 1, .read 0x200004, .write 0x200000 1, .write 0x200004 1]) := by
  decide +kernel

end RiscvEmulators.Rvvm.Plic
