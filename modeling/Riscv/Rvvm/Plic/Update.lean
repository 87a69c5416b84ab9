import Riscv.Rvvm.Plic.Model
import Mathlib.Data.List.Count

namespace RiscvEmulators.Rvvm.Plic
open Store Cells BitVec List Option
variable {harts : Nat}

abbrev Ctx (harts : Nat) := Fin (2 * harts)
abbrev Source := Fin 64

section

def hartOf (ctx : Ctx harts) : Fin harts := ⟨ctx.val / 2, by omega⟩
def line (plic : Plic harts) (ctx : Ctx harts) : Bool := (plic.pendingIrqs (hartOf ctx)).getLsbD (ctxPrio ctx)

def raiseLine (plic : Plic harts) (ctx : Ctx harts) : Plic harts :=
  { plic with pendingIrqs := plic.pendingIrqs.change (ctxHartid ctx) fun irqs => irqs ||| bitOf (ctxPrio ctx) }

def dropLine (plic : Plic harts) (ctx : Ctx harts) : Plic harts :=
  { plic with pendingIrqs := plic.pendingIrqs.change (ctxHartid ctx) fun irqs => irqs &&& ~~~bitOf (ctxPrio ctx) }

variable (pl : Plic harts) (ctx : Ctx harts)

theorem interrupt_eq : pl.interrupt ctx = some (pl.raiseLine ctx) := by
  unfold interrupt
  rw [show ctxHartid ctx = (hartOf ctx).val from rfl, modify_val]
  rfl

theorem interruptClear_eq : pl.interruptClear ctx = some (pl.dropLine ctx) := by
  unfold interruptClear
  rw [show ctxHartid ctx = (hartOf ctx).val from rfl, modify_val]
  rfl

theorem ctxPrio_mod (ctx : Nat) : ctxPrio ctx % 32 = ctxPrio ctx := by
  unfold ctxPrio
  split <;> rfl

theorem ctx_eq_iff {ctx o : Ctx harts} (hh : hartOf o = hartOf ctx) : ctxPrio o = ctxPrio ctx ↔ o = ctx := by
  have hs : o.val / 2 = ctx.val / 2 := congrArg Fin.val hh
  rw [Fin.ext_iff]
  unfold ctxPrio interruptSexternal interruptMexternal
  split <;> split <;> omega

theorem line_raiseLine (o : Ctx harts) : (pl.raiseLine ctx).line o = (decide (o = ctx) || pl.line o) := by
  unfold line raiseLine
  dsimp only
  by_cases hh : hartOf o = hartOf ctx
  · rw [hh, show ctxHartid ctx = (hartOf ctx).val from rfl, change_same, BitVec.getLsbD_or, bitOf_getLsbD,
      ctxPrio_mod, Bool.or_comm, decide_eq_decide.mpr (ctx_eq_iff hh)]
  · have ha : o ≠ ctx := fun hs => hh (by rw [hs])
    rw [change_other _ _ (fun hs : (hartOf o).val = ctxHartid ctx => hh (Fin.ext hs))]
    simp [ha]

theorem line_dropLine (o : Ctx harts) : (pl.dropLine ctx).line o = (decide (o ≠ ctx) && pl.line o) := by
  unfold line dropLine
  dsimp only
  by_cases hh : hartOf o = hartOf ctx
  · have small : ctxPrio o < 32 := by
      rw [← ctxPrio_mod]
      exact Nat.mod_lt _ (by decide)
    rw [hh, show ctxHartid ctx = (hartOf ctx).val from rfl, change_same, BitVec.getLsbD_and, BitVec.getLsbD_not,
      bitOf_getLsbD, ctxPrio_mod]
    have hb := ctx_eq_iff hh
    by_cases hs : o = ctx <;> simp [hs, small, hb]
  · have ha : o ≠ ctx := fun hs => hh (by rw [hs])
    rw [change_other _ _ (fun hs : (hartOf o).val = ctxHartid ctx => hh (Fin.ext hs))]
    simp [ha]

end

def Deliverable (plic : Plic harts) (ctx : Ctx harts) (irq : Source) : Prop :=
  (plic.enable ctx).has irq ∧ plic.threshold ctx < plic.prio irq

instance (plic : Plic harts) (ctx : Ctx harts) (irq : Source) : Decidable (plic.Deliverable ctx irq) :=
  inferInstanceAs (Decidable (_ ∧ _))

def Heard (plic : Plic harts) (irq : Source) : Prop :=
  (∃ ctx, plic.Deliverable ctx irq) → ∃ ctx, plic.Deliverable ctx irq ∧ plic.line ctx

instance (plic : Plic harts) (irq : Source) : Decidable (plic.Heard irq) := inferInstanceAs (Decidable (_ → _))

def Signals (plic plic' : Plic harts) : Prop := ∃ pendingIrqs, plic' = { plic with pendingIrqs }

structure Adds (plic plic' : Plic harts) : Prop where
  signals : Signals plic plic'
  kept : ∀ ctx, plic.line ctx → plic'.line ctx

section
variable {plic p plic'' : Plic harts}

theorem Signals.refl (plic : Plic harts) : Signals plic plic := ⟨_, rfl⟩

theorem Signals.trans (hf : Signals plic p) (hs : Signals p plic'') : Signals plic plic'' := by
  obtain ⟨_, rfl⟩ := hf
  obtain ⟨i, rfl⟩ := hs
  exact ⟨i, rfl⟩

theorem Signals.deliverable (h : Signals plic p) (ctx : Ctx harts) (irq : Source) :
    p.Deliverable ctx irq ↔ plic.Deliverable ctx irq := by
  obtain ⟨_, rfl⟩ := h
  exact Iff.rfl

theorem Adds.refl (plic : Plic harts) : Adds plic plic := ⟨.refl plic, fun _ => id⟩

theorem Adds.trans (hf : Adds plic p) (hs : Adds p plic'') : Adds plic plic'' :=
  ⟨hf.signals.trans hs.signals, fun ctx set => hs.kept ctx (hf.kept ctx set)⟩

theorem Adds.heard (ha : Adds plic p) {irq : Source} (heard : plic.Heard irq) : p.Heard irq := by
  rintro ⟨ctx, ht⟩
  obtain ⟨ctx, ht, hs⟩ := heard ⟨ctx, (ha.signals.deliverable ctx irq).mp ht⟩
  exact ⟨ctx, (ha.signals.deliverable ctx irq).mpr ht, ha.kept ctx hs⟩

theorem adds_raiseLine (plic : Plic harts) (ctx : Ctx harts) : Adds plic (plic.raiseLine ctx) := by
  refine ⟨⟨_, rfl⟩, fun o h => ?_⟩
  rw [line_raiseLine, h, Bool.or_true]

end

section
variable (pl : Plic harts)

theorem irqPending_eq (irq : Source) : pl.irqPending irq = some (pl.pending.has irq) := by
  rw [← pl.pending.read_has (show irq.val / 32 < 2 by omega)]
  exact (Option.map_eq_bind ..).symm

theorem irqEnabled_eq (ctx : Ctx harts) (irq : Source) : pl.irqEnabled ctx irq = some ((pl.enable ctx).has irq) := by
  unfold irqEnabled
  rw [read_val, ← (pl.enable ctx).read_has (show irq.val / 32 < 2 by omega)]
  exact (Option.map_eq_bind ..).symm

theorem notifyCtxIrq_eq (ctx : Ctx harts) (irq : Source) : pl.notifyCtxIrq ctx irq =
    some (if pl.Deliverable ctx irq then (true, pl.raiseLine ctx) else (false, pl)) := by
  unfold notifyCtxIrq
  rw [irqEnabled_eq, read_val, interrupt_eq]
  by_cases he : (pl.enable ctx).has irq
  · by_cases hl : pl.prio irq ≤ pl.threshold ctx
    · simp [Deliverable, BitVec.not_lt.mpr hl]
    · simp [Deliverable, he, BitVec.not_le.mp hl]
  · simp [Deliverable, he]

theorem notifyFirst_spec {irq : Source} {c : List Nat} (hb : ∀ ctx ∈ c, ctx < 2 * harts) :
    ∃ p', pl.notifyFirst irq c = some p' ∧ Adds pl p' ∧ ((∃ ctx : Ctx harts, ctx.val ∈ c ∧ pl.Deliverable ctx irq) →
      ∃ ctx, pl.Deliverable ctx irq ∧ p'.line ctx) := by
  induction c with
  | nil => exact ⟨pl, rfl, .refl pl, fun ⟨_, hm, _⟩ => absurd hm List.not_mem_nil⟩
  | cons first c ih =>
    obtain ⟨ctx, rfl⟩ : ∃ ctx : Ctx harts, ctx.val = first := ⟨⟨first, hb first List.mem_cons_self⟩, rfl⟩
    unfold notifyFirst
    rw [notifyCtxIrq_eq]
    by_cases ht : pl.Deliverable ctx irq
    · rw [if_pos ht]
      refine ⟨_, rfl, adds_raiseLine pl ctx, fun _ => ⟨ctx, ht, ?_⟩⟩
      rw [line_raiseLine, decide_eq_true rfl, Bool.true_or]
    · rw [if_neg ht]
      obtain ⟨p', hd, ha, hh⟩ := ih fun o hm => hb o (List.mem_cons_of_mem _ hm)
      refine ⟨p', hd, ha, ?_⟩
      rintro ⟨o, hm, ht'⟩
      rcases List.mem_cons.mp hm with hs | hl
      · exact absurd (Fin.ext hs ▸ ht') ht
      · exact hh ⟨o, hl, ht'⟩

theorem notifyIrq_spec (irq : Source) : ∃ p', pl.notifyIrq irq = some p' ∧ Adds pl p' ∧ p'.Heard irq := by
  obtain ⟨p', hd, ha, hh⟩ := pl.notifyFirst_spec fun _ => List.mem_range.mp
  refine ⟨p', hd, ha, ?_⟩
  rintro ⟨ctx, ht⟩
  obtain ⟨ctx, ht, hs⟩ := hh ⟨ctx, List.mem_range.mpr ctx.isLt, (ha.signals.deliverable ctx irq).mp ht⟩
  exact ⟨ctx, (ha.signals.deliverable ctx irq).mpr ht, hs⟩

theorem updateIrq_spec (irq : Source) : ∃ p', pl.updateIrq irq = some p' ∧ Adds pl p' ∧
    (pl.pending.has irq → p'.Heard irq) := by
  unfold updateIrq
  rw [irqPending_eq]
  cases hw : pl.pending.has irq with
  | false => exact ⟨pl, rfl, .refl pl, fun hi => Bool.noConfusion hi⟩
  | true =>
    obtain ⟨p', hd, ha, hh⟩ := pl.notifyIrq_spec irq
    exact ⟨p', hd, ha, fun _ => hh⟩

end

section
variable {threshold : W32} {prioOf : Nat → W32}

structure Scan.Passed (threshold : W32) (prioOf : Nat → W32) (irqs : List Nat) (scan : Scan) : Prop where
  count : scan.notifyingIrqs = irqs.countP fun irq => threshold < prioOf irq
  bound : ∀ irq ∈ irqs, prioOf irq ≤ scan.maxPrio
  found : scan.highestPrioIrq ∈ irqs ∧ prioOf scan.highestPrioIrq = scan.maxPrio ∨
    scan.highestPrioIrq = 0 ∧ scan.maxPrio = 0

theorem Scan.Passed.add {i : List Nat} {s : Scan} (hp : s.Passed threshold prioOf i) (irq : Nat) :
    (s.add threshold irq (prioOf irq)).Passed threshold prioOf (i ++ [irq]) := by
  refine ⟨?_, ?_, ?_⟩
  · rw [countP_append, ← hp.count, Scan.add]
    by_cases ha : threshold < prioOf irq <;> simp [ha]
  · intro o hm
    have hk : o = irq ∨ prioOf o ≤ s.maxPrio := by
      rcases mem_append.mp hm with ho | new
      · exact .inr (hp.bound o ho)
      · exact .inl (mem_singleton.mp new)
    simp only [Scan.add]
    split
    · rename_i hl
      rcases hk with rfl | ho
      · exact BitVec.le_refl _
      · exact BitVec.le_trans ho (BitVec.le_of_lt hl)
    · rename_i hs
      rcases hk with rfl | ho
      · exact BitVec.not_lt.mp hs
      · exact ho
  · simp only [Scan.add]
    split
    · exact .inl ⟨mem_append_right _ (mem_singleton.mpr rfl), rfl⟩
    · rcases hp.found with ⟨hm, hh⟩ | hn
      · exact .inl ⟨mem_append_left _ hm, hh⟩
      · exact .inr hn

theorem Scan.Passed.foldl {i : List Nat} {s : Scan} (hp : s.Passed threshold prioOf i) (m : List Nat) :
    (m.foldl (fun s irq => s.add threshold irq (prioOf irq)) s).Passed threshold prioOf (i ++ m) := by
  induction m generalizing i s with
  | nil => rwa [append_nil]
  | cons irq m ih =>
    have hn := ih (hp.add irq)
    rwa [List.append_assoc] at hn

theorem Scan.Passed.notifies {i : List Nat} {s : Scan} (hp : s.Passed threshold prioOf i) (hn : i.Nodup) (c : Bool) :
    (if c ∧ threshold < s.maxPrio then s.notifyingIrqs - 1 else s.notifyingIrqs) ≠ 0 ↔
      ∃ irq ∈ i, threshold < prioOf irq ∧ (c → irq ≠ s.highestPrioIrq) := by
  rw [hp.count]
  split
  · rename_i hc
    have hm : s.highestPrioIrq ∈ i ∧ prioOf s.highestPrioIrq = s.maxPrio := by
      apply hp.found.resolve_right
      rintro ⟨-, hz⟩
      have ha := hc.2
      rw [hz] at ha
      exact absurd ha BitVec.not_lt_zero
    have hr := countP_erase (fun irq => decide (threshold < prioOf irq)) i s.highestPrioIrq
    rw [if_pos ⟨hm.1, by rw [hm.2]; exact decide_eq_true hc.2⟩] at hr
    rw [← hr, ← Nat.pos_iff_ne_zero, countP_pos_iff]
    constructor
    · rintro ⟨irq, least, ha⟩
      obtain ⟨ho, hh⟩ := hn.mem_erase_iff.mp least
      exact ⟨irq, hh, of_decide_eq_true ha, fun _ => ho⟩
    · rintro ⟨irq, hh, ha, ho⟩
      exact ⟨irq, hn.mem_erase_iff.mpr ⟨ho hc.1, hh⟩, decide_eq_true ha⟩
  · rename_i hq
    rw [← Nat.pos_iff_ne_zero, countP_pos_iff]
    constructor
    · rintro ⟨irq, hh, ha⟩
      have ha := of_decide_eq_true ha
      refine ⟨irq, hh, ha, fun hc => ?_⟩
      -- the interrupt is at most the highest one, which is not above the threshold
      have hl : threshold < s.maxPrio :=
        lt_def.mpr (Nat.lt_of_lt_of_le (lt_def.mp ha) (le_def.mp (hp.bound irq hh)))
      exact absurd ⟨hc, hl⟩ hq
    · rintro ⟨irq, hh, ha, -⟩
      exact ⟨irq, hh, decide_eq_true ha⟩

end

section
variable (plic : Plic harts)

def prioOf (irq : Nat) : W32 := (plic.prio.read irq).getD 0

def waiting (ctx : Ctx harts) : List Nat :=
  (List.range 64).filter fun irq => plic.pending.has irq && (plic.enable ctx).has irq

theorem mem_waiting {ctx : Ctx harts} {irq : Nat} :
    irq ∈ plic.waiting ctx ↔ irq < 64 ∧ plic.pending.has irq ∧ (plic.enable ctx).has irq := by
  rw [waiting, mem_filter, mem_range, Bool.and_eq_true]

variable (ctx : Ctx harts) (reg : Fin 2)

theorem enabledIrqs_eq : plic.enabledIrqs ctx reg = some (plic.pending reg &&& plic.enable ctx reg) := by
  unfold enabledIrqs
  simp

theorem enabledIrqs_getLsbD {j : Nat} (h : j < 32) : (plic.pending reg &&& plic.enable ctx reg).getLsbD j =
    (plic.pending.has (32 * reg.val + j) && (plic.enable ctx).has (32 * reg.val + j)) := by
  rw [getLsbD_and, Bits.has_word _ reg h, Bits.has_word _ reg h]

theorem scanReg_eq (threshold : W32) (s : Scan) (reg : Fin 2) :
    plic.scanReg ctx threshold s reg = some ((((List.range 32).map fun j => 32 * reg.val + j).filter fun irq =>
      plic.pending.has irq && (plic.enable ctx).has irq).foldl
        (fun s irq => s.add threshold irq (plic.prioOf irq)) s) := by
  have hb (s : Scan) (j : Nat) (hm : j ∈ List.range 32) :
      (if (plic.pending reg &&& plic.enable ctx reg).getLsbD j then do
          let p ← plic.prio.read (32 * reg.val + j)
          return s.add threshold (32 * reg.val + j) p
        else return s : Option Scan) =
      some (if plic.pending.has (32 * reg.val + j) && (plic.enable ctx).has (32 * reg.val + j) then
        s.add threshold (32 * reg.val + j) (plic.prioOf (32 * reg.val + j)) else s) := by
    have small := mem_range.mp hm
    have hs : 32 * reg.val + j < 64 := by omega
    rw [plic.enabledIrqs_getLsbD ctx reg small, prioOf, Cells.read]
    split <;> rfl
  have hl : (List.range 32).foldlM _ s = some _ := foldlM_some hb
  unfold scanReg
  rw [enabledIrqs_eq, foldl_filter, foldl_map, bind_eq_bind, bind_some]
  by_cases he : plic.pending reg &&& plic.enable ctx reg = 0
  · rw [← hl, he]
    rfl
  · rw [if_pos he]
    exact hl

def scan (ctx : Ctx harts) : Scan :=
  (plic.waiting ctx).foldl (fun scan irq => scan.add (plic.threshold ctx) irq (plic.prioOf irq)) ⟨0, 0, 0⟩

theorem scan_passed : (plic.scan ctx).Passed (plic.threshold ctx) plic.prioOf (plic.waiting ctx) := by
  have hs : (Scan.mk 0 0 0).Passed (plic.threshold ctx) plic.prioOf [] :=
    ⟨rfl, fun irq hm => absurd hm not_mem_nil, .inr ⟨rfl, rfl⟩⟩
  exact hs.foldl (plic.waiting ctx)

theorem scanRegs_eq :
    (List.range 2).foldlM (plic.scanReg ctx (plic.threshold ctx)) ⟨0, 0, 0⟩ = some (plic.scan ctx) := by
  have hw : List.range 64 = ((List.range 32).map fun j => 32 * (0 : Fin 2).val + j) ++
      (List.range 32).map fun j => 32 * (1 : Fin 2).val + j := by decide
  let c := plic.threshold ctx
  have hf := plic.scanReg_eq ctx c ⟨0, 0, 0⟩ 0
  have hs (scan : Scan) := plic.scanReg_eq ctx c scan 1
  rw [scan, waiting, hw, filter_append, foldl_append]
  change ((plic.scanReg ctx c ⟨0, 0, 0⟩ (0 : Fin 2).val).bind fun scan =>
    (plic.scanReg ctx c scan (1 : Fin 2).val).bind some) = _
  rw [hf, bind_some, bind_fun_some, hs]

def notifying (ctx : Ctx harts) (claim : Bool) : Nat :=
  if claim ∧ plic.threshold ctx < (plic.scan ctx).maxPrio then (plic.scan ctx).notifyingIrqs - 1
  else (plic.scan ctx).notifyingIrqs

theorem updateCtx_eq (c : Bool) : plic.updateCtx ctx c = some ((plic.scan ctx).highestPrioIrq,
    if plic.notifying ctx c ≠ 0 then (plic.dropLine ctx).raiseLine ctx else plic.dropLine ctx) := by
  -- the scan reads no line
  have h : (List.range 2).foldlM ((plic.dropLine ctx).scanReg ctx (plic.threshold ctx)) ⟨0, 0, 0⟩ =
      some (plic.scan ctx) := (plic.dropLine ctx).scanRegs_eq ctx
  unfold updateCtx
  rw [Cells.read_val, bind_eq_bind, bind_some, interruptClear_eq, bind_eq_bind, bind_some,
    h, bind_eq_bind, interrupt_eq]
  change (if plic.notifying ctx c ≠ 0 then some (_, (plic.dropLine ctx).raiseLine ctx)
    else some (_, plic.dropLine ctx)) = _
  split <;> rfl

theorem updateCtx_spec (c : Bool) : ∃ irq p', plic.updateCtx ctx c = some (irq, p') ∧
    Signals plic p' ∧ (∀ o, o ≠ ctx → p'.line o = plic.line o) ∧
    (p'.line ctx ↔ ∃ s : Source, plic.pending.has s ∧ plic.Deliverable ctx s ∧ (c → s.val ≠ irq)) ∧
    (irq ≠ 0 → irq ∈ plic.waiting ctx) := by
  have past := plic.scan_passed ctx
  have hn2 : (plic.waiting ctx).Nodup := nodup_range.filter _
  have hn := past.notifies hn2 c
  have hs : (∃ irq ∈ plic.waiting ctx, plic.threshold ctx < plic.prioOf irq ∧
      (c → irq ≠ (plic.scan ctx).highestPrioIrq)) ↔
      ∃ s : Source, plic.pending.has s ∧ plic.Deliverable ctx s ∧ (c → s.val ≠ (plic.scan ctx).highestPrioIrq) := by
    constructor
    · rintro ⟨irq, hm, ha, o⟩
      obtain ⟨hb, hp, he⟩ := plic.mem_waiting.mp hm
      rw [prioOf, Cells.read, dif_pos hb] at ha
      exact ⟨⟨irq, hb⟩, hp, ⟨he, ha⟩, o⟩
    · rintro ⟨s, hp, ⟨he, ha⟩, o⟩
      refine ⟨s, plic.mem_waiting.mpr ⟨s.isLt, hp, he⟩, ?_, o⟩
      rwa [prioOf, Cells.read_val]
  have hc : (plic.scan ctx).highestPrioIrq ≠ 0 → (plic.scan ctx).highestPrioIrq ∈ plic.waiting ctx := by
    intro none
    rcases past.found with ⟨hm, _⟩ | ⟨hz, _⟩
    · exact hm
    · exact absurd hz none
  refine ⟨_, _, plic.updateCtx_eq ctx c, ?_, ?_, ?_, hc⟩
  · split
    · exact ⟨_, rfl⟩
    · exact ⟨_, rfl⟩
  · intro o apart
    split
    · simp [line_raiseLine, line_dropLine, apart]
    · simp [line_dropLine, apart]
  · rw [← hs, ← hn]
    change _ ↔ plic.notifying ctx c ≠ 0
    by_cases hl : plic.notifying ctx c = 0
    · simp [hl, line_dropLine]
    · simp [hl, line_raiseLine]

def Exact (plic : Plic harts) (ctx : Ctx harts) : Prop :=
  plic.line ctx = true ↔ ∃ source : Source, plic.pending.has source ∧ plic.Deliverable ctx source

theorem updateCtxs_spec {c : List Nat} (b : ∀ ctx ∈ c, ctx < 2 * harts) :
    ∃ p', c.foldlM (fun plic ctx => (plic.updateCtx ctx false).map Prod.snd) plic = some p' ∧
      Signals plic p' ∧ ∀ ctx : Ctx harts, (ctx.val ∈ c ∨ plic.Exact ctx) → p'.Exact ctx := by
  induction c generalizing plic with
  | nil => exact ⟨plic, rfl, .refl plic, fun ctx k => k.resolve_left not_mem_nil⟩
  | cons first c ih =>
    obtain ⟨ctx, rfl⟩ : ∃ ctx : Ctx harts, ctx.val = first := ⟨⟨first, b first mem_cons_self⟩, rfl⟩
    obtain ⟨irq, nx, d, s, ot, h, -⟩ := plic.updateCtx_spec ctx false
    obtain ⟨p', r, mo, u⟩ := ih nx fun o m => b o (mem_cons_of_mem _ m)
    refine ⟨p', ?_, s.trans mo, ?_⟩
    · rw [foldlM_cons, d]
      exact r
    · intro o k
      apply u
      by_cases sa : o = ctx
      · subst sa
        obtain ⟨_, rfl⟩ := s
        rw [Exact, h]
        simp [Deliverable]
      · rcases k with m | exact
        · rcases mem_cons.mp m with h | l
          · exact absurd (Fin.ext h) sa
          · exact .inl l
        · right
          have ke := ot o sa
          obtain ⟨_, rfl⟩ := s
          rw [Exact, ke]
          exact exact

theorem fullUpdate_spec : ∃ p', plic.fullUpdate = some p' ∧ Signals plic p' ∧ ∀ ctx, p'.Exact ctx := by
  obtain ⟨p', hd, hs, hu⟩ := plic.updateCtxs_spec fun _ => mem_range.mp
  exact ⟨p', hd, hs, fun ctx => hu ctx (.inl (mem_range.mpr ctx.isLt))⟩

theorem updateIrqs_spec {p : List Nat} (hb : ∀ i ∈ p, i < 32) :
    ∃ p', p.foldlM (fun plic i => plic.updateIrq (32 * reg.val + i)) plic = some p' ∧ Adds plic p' ∧
      ∀ irq : Source, (∃ i ∈ p, irq.val = 32 * reg.val + i) → plic.pending.has irq → p'.Heard irq := by
  induction p generalizing plic with
  | nil => exact ⟨plic, rfl, .refl plic, fun irq ⟨i, hm, _⟩ => absurd hm not_mem_nil⟩
  | cons i p ih =>
    have small := hb i mem_cons_self
    obtain ⟨source, hn⟩ : ∃ source : Source, source.val = 32 * reg.val + i := ⟨⟨32 * reg.val + i, by omega⟩, rfl⟩
    obtain ⟨nx, hd, ha, hh⟩ := plic.updateIrq_spec source
    obtain ⟨p', hr, more, hl⟩ := ih nx fun j hm => hb j (mem_cons_of_mem _ hm)
    refine ⟨p', ?_, ha.trans more, ?_⟩
    · rw [foldlM_cons, ← hn, hd]
      exact hr
    · rintro irq ⟨j, hm, place⟩ hp
      rcases mem_cons.mp hm with rfl | ht
      · have hs : irq = source := Fin.ext (place.trans hn.symm)
        subst hs
        exact more.heard (hh hp)
      · apply hl irq ⟨j, ht, place⟩
        obtain ⟨_, rfl⟩ := ha.signals
        exact hp

theorem updateCtxIrqReg_spec : ∃ p', plic.updateCtxIrqReg ctx reg = some p' ∧ Adds plic p' ∧
    (plic.pending reg &&& plic.enable ctx reg ≠ 0 →
      ∀ irq : Source, irq.val / 32 = reg.val → plic.pending.has irq → p'.Heard irq) := by
  unfold updateCtxIrqReg
  rw [enabledIrqs_eq, bind_eq_bind, bind_some]
  by_cases none : plic.pending reg &&& plic.enable ctx reg = 0
  · rw [if_neg (not_not_intro none)]
    exact ⟨plic, rfl, .refl plic, fun some => absurd none some⟩
  · rw [if_pos none]
    obtain ⟨p', d, a, h⟩ := plic.updateIrqs_spec reg fun _ => mem_range.mp
    refine ⟨p', d, a, fun _ irq word pd => h irq ⟨irq.val % 32, ?_, by omega⟩ pd⟩
    exact mem_range.mpr (Nat.mod_lt _ (by decide))

end

end RiscvEmulators.Rvvm.Plic
