import Mathlib.Data.Fin.Tuple.Basic
import Riscv.Spike.Plic.Selection

namespace RiscvEmulators.Spike.Plic
open Store Interrupt BitVec Bits Context Config Option
variable {cfg : Config}

@[ext] structure Spot where
  enable : Bool
  pending : Bool
  claimed : Bool
  prio : BitVec 8

namespace Spot

def raise (spot : Spot) (prio : BitVec 8) : Spot := { spot with pending := true, prio }
def lower (spot : Spot) : Spot := { spot with pending := false, claimed := false, prio := 0 }
def claim (spot : Spot) : Spot := { spot with claimed := true }
def complete (spot : Spot) : Spot := { spot with claimed := false }

def enabling (spot : Spot) (enable level : Bool) (prio : BitVec 8) : Spot :=
  if spot.enable = enable then spot
  else if enable then (if level then { spot with enable := true }.raise prio else { spot with enable := true })
  else { spot with enable := false }.lower

end Spot

def Context.spot (c : Context) (id : Nat) : Spot := ⟨c.enable.has id, c.pending.has id, c.claimed.has id, c.prioOf id⟩

@[ext] structure View (cfg : Config) where
  spot : Fin cfg.count → Nat → Spot
  threshold : Fin cfg.count → BitVec 8
  priority : Nat → BitVec 8
  level : Nat → Bool
  inService : Fin cfg.count → Nat → Bool

def view (plic : Plic cfg) : View cfg where
  spot := fun c => (plic.contexts c).spot
  threshold := fun c => (plic.contexts c).priorityThreshold
  priority := fun id => (plic.priority.read id).getD 0
  level := plic.level.has
  inService := plic.inService

def line (plic : Plic cfg) (c : Fin cfg.count) : Bool :=
  ((plic.mip.read (cfg.proc c)).getD 0).getLsbD (mipBit (cfg.mmode c))

def best (plic : Plic cfg) (c : Fin cfg.count) : Nat := (contextBestPending cfg (plic.contexts c)).getD 0
def Lined (plic : Plic cfg) (c : Fin cfg.count) : Prop := plic.line c = decide (plic.best c ≠ 0)

inductive Act (cfg : Config) where
  | nothing
  | priority (id : Nat) (val : BitVec 8)
  | enable (c : Fin cfg.count) (word : Nat) (val : W32)
  | threshold (c : Fin cfg.count) (val : BitVec 8)
  | claim (c : Fin cfg.count) (id : Nat)
  | complete (c : Fin cfg.count) (id : Nat)
  | level (id : Nat) (lvl : Bool)

namespace View
variable (view : View cfg)

def First (id : Nat) (c : Fin cfg.count) : Prop :=
  (view.spot c id).enable ∧ ∀ c' < c, (view.spot c' id).enable = false

instance (id : Nat) (c : Fin cfg.count) : Decidable (view.First id c) := inferInstanceAs (Decidable (_ ∧ _))

variable {view} in
theorem First.unique {id : Nat} {c c' : Fin cfg.count} (first : view.First id c) (other : view.First id c') : c = c' := by
  rcases Nat.lt_trichotomy c.val c'.val with less | same | more
  · exact absurd first.1 (Bool.eq_false_iff.mp (other.2 c less))
  · exact Fin.ext same
  · exact absurd other.1 (Bool.eq_false_iff.mp (first.2 c' more))

def change (c : Fin cfg.count) (id : Nat) (f : Spot → Spot) : View cfg :=
  { view with spot := fun c' id' => if c' = c ∧ id' = id then f (view.spot c' id') else view.spot c' id' }

def service (c : Fin cfg.count) (id : Nat) (taken : Bool) : View cfg :=
  { view with inService := fun c' id' => if c' = c ∧ id' = id then taken else view.inService c' id' }

def after : Act cfg → View cfg
  | .nothing => view
  | .priority id val => { view with priority := fun id' => if id' = id then val else view.priority id' }
  | .enable c word val =>
    { view with
      spot := fun c' id =>
        if c' = c ∧ id / 32 = word then
          (view.spot c' id).enabling (val.getLsbD (id % 32)) (view.level id) (view.priority id)
        else view.spot c' id }
  | .threshold c val => { view with threshold := fun c' => if c' = c then val else view.threshold c' }
  | .claim c id => if id = 0 then view else (view.change c id Spot.claim).service c id true
  | .complete c id =>
    if (view.spot c id).enable then (view.change c id Spot.complete).service c id false
    else view
  | .level id lvl =>
    { view with
      level := fun id' => if id' = id then lvl else view.level id'
      spot := fun c id' =>
        if id' = id ∧ view.First id c then
          (if lvl then (view.spot c id').raise (view.priority id) else (view.spot c id').lower)
        else view.spot c id' }

end View

def decode (plic : Plic cfg) : Access → Act cfg
  | .load addr =>
    if contextBase ≤ addr ∧ addr < regSize then
      if bound : (addr - contextBase) / contextPerHart < cfg.count then
        if (addr - contextBase) % contextPerHart = contextClaimOffset then .claim ⟨_, bound⟩ (plic.best ⟨_, bound⟩)
        else .nothing
      else .nothing
    else .nothing
  | .store addr bytes =>
    let val := bytes.rotateLeft (8 * (addr % 4))
    if addr < enableBase then
      if 0 < addr / 4 ∧ addr / 4 < cfg.numIds then .priority (addr / 4) ((val &&& prioMask).setWidth 8) else .nothing
    else if addr < contextBase then
      let word := (addr - enableBase) % enablePerHart / 4
      if bound : (addr - enableBase) / enablePerHart < cfg.count then
        if word < cfg.numIdsWord then .enable ⟨_, bound⟩ word (if word = 0 then val &&& ~~~1 else val) else .nothing
      else .nothing
    else if addr < regSize then
      if bound : (addr - contextBase) / contextPerHart < cfg.count then
        if (addr - contextBase) % contextPerHart = contextThreshold then
          .threshold ⟨_, bound⟩ ((val &&& prioMask).setWidth 8)
        else if (addr - contextBase) % contextPerHart = contextClaimOffset ∧ val.toNat < cfg.numIds then
          .complete ⟨_, bound⟩ val.toNat
        else .nothing
      else .nothing
    else .nothing
  | .level id lvl => if id = 0 ∨ cfg.numIds ≤ id then .nothing else .level id lvl

structure Spot.Ok (known : Prop) (served : Bool) (spot : Spot) : Prop where
  claimed : spot.claimed → spot.pending ∧ served
  pending : spot.pending → spot.enable ∧ known

namespace Spot.Ok
variable {k : Prop} {served : Bool} {s : Spot}

theorem lower (s : Spot) : s.lower.Ok k served := ⟨nofun, nofun⟩

theorem raise (ok : s.Ok k served) (he : s.enable) (hi : k) (p : BitVec 8) : (s.raise p).Ok k served :=
  ⟨fun hc => ⟨rfl, (ok.claimed hc).2⟩, fun _ => ⟨he, hi⟩⟩

theorem enabling (ok : s.Ok k served) {l : Bool} (hi : l → k) (enable : Bool)
    (p : BitVec 8) : (s.enabling enable l p).Ok k served := by
  have ha : ({ s with enable := true } : Spot).Ok k served :=
    ⟨ok.claimed, fun hp => ⟨rfl, (ok.pending hp).2⟩⟩
  unfold Spot.enabling
  split
  · exact ok
  · cases enable with
    | false => exact lower _
    | true =>
      cases l with
      | false => exact ha
      | true => exact ha.raise rfl (hi rfl) p

theorem claim (ok : s.Ok k served) (h : s.pending) : s.claim.Ok k true :=
  ⟨fun _ => ⟨h, rfl⟩, ok.pending⟩

theorem complete (ok : s.Ok k served) : s.complete.Ok k false := ⟨nofun, ok.pending⟩

end Spot.Ok

def Config.Known (cfg : Config) (id : Nat) : Prop := id ≠ 0 ∧ id < cfg.numIds

structure View.Wf (view : View cfg) : Prop where
  spot : ∀ c id, (view.spot c id).Ok (cfg.Known id) (view.inService c id)
  level : ∀ id, view.level id → cfg.Known id

def Act.Fits (view : View cfg) : Act cfg → Prop
  | .claim c id => id = 0 ∨ (view.spot c id).pending
  | .level id _ => cfg.Known id
  | _ => True

theorem View.Wf.after {view : View cfg} (wf : view.Wf) {act : Act cfg} (fits : act.Fits view) : (view.after act).Wf := by
  cases act with
  | nothing => exact wf
  | priority => exact ⟨wf.spot, wf.level⟩
  | threshold => exact ⟨wf.spot, wf.level⟩
  | enable c word val =>
    refine ⟨fun c' id => ?_, wf.level⟩
    simp only [View.after]
    split
    · exact (wf.spot c' id).enabling (wf.level id) _ _
    · exact wf.spot c' id
  | claim c id =>
    simp only [View.after]
    split
    · exact wf
    · rename_i found
      refine ⟨fun c' id' => ?_, wf.level⟩
      simp only [View.service, View.change]
      split
      · rename_i hs
        rw [hs.1, hs.2]
        exact (wf.spot c id).claim (fits.resolve_left found)
      · exact wf.spot c' id'
  | complete c id =>
    simp only [View.after]
    split
    · refine ⟨fun c' id' => ?_, wf.level⟩
      simp only [View.service, View.change]
      split
      · exact (wf.spot c' id').complete
      · exact wf.spot c' id'
    · exact wf
  | level id lvl =>
    refine ⟨fun c id' => ?_, fun id' => ?_⟩
    · simp only [View.after]
      split
      · rename_i hf
        cases lvl with
        | false => exact Spot.Ok.lower _
        | true => exact (wf.spot c id').raise (hf.1 ▸ hf.2.1) (hf.1 ▸ fits) _
      · exact wf.spot c id'
    · simp only [View.after]
      split
      · rename_i hs
        intro _
        exact hs ▸ fits
      · exact wf.level id'

structure Wf (plic : Plic cfg) : Prop where
  view : plic.view.Wf
  lined : ∀ c, plic.Lined c

theorem View.Wf.unused {plic : Plic cfg} (wf : plic.view.Wf) (c : Fin cfg.count) :
    (plic.contexts c).pending.has 0 = false :=
  Bool.eq_false_iff.mpr fun h => ((wf.spot c 0).pending h).2.1 rfl

section
variable {plic : Plic cfg} {c : Fin cfg.count}

theorem best_selects (few : cfg.numIds ≤ 1024) (hu : (plic.contexts c).pending.has 0 = false) :
    contextBestPending cfg (plic.contexts c) = some (plic.best c) ∧
      Selects ((plic.contexts c).Offered cfg) (plic.contexts c).urgency (plic.best c) := by
  obtain ⟨id, hf, hs⟩ := contextBestPending_selects few hu
  have same : plic.best c = id := by rw [best, hf, getD_some]
  rw [same]
  exact ⟨hf, hs⟩

theorem getLsbD_mipMask (m m' : Bool) : (mipMask m).getLsbD (mipBit m') = decide (m = m') := by
  cases m <;> cases m' <;> decide

theorem getLsbD_backdoorWrite (old : BitVec 64) (m m' h : Bool) :
    (backdoorWriteWithMask old (mipMask m) (if h then mipMask m else 0)).getLsbD (mipBit m') =
      if m = m' then h else old.getLsbD (mipBit m') := by
  have hs : mipBit m' < 64 := by cases m' <;> decide
  rw [backdoorWriteWithMask, getLsbD_or, getLsbD_and, getLsbD_and, getLsbD_not,
    getLsbD_mipMask]
  cases h <;> by_cases same : m = m' <;> simp [same, hs, getLsbD_mipMask]

theorem line_eq (plic : Plic cfg) (c : Fin cfg.count) :
    plic.line c = (plic.mip ⟨cfg.proc c, proc_lt c⟩).getLsbD (mipBit (cfg.mmode c)) := by
  rw [line, Cells.read, dif_pos (proc_lt c), getD_some]

theorem best_congr {nx : Plic cfg} (h : nx.contexts c = plic.contexts c) : nx.best c = plic.best c := by
  rw [best, best, h]

theorem contextUpdate_spec (few : cfg.numIds ≤ 1024) (hu : (plic.contexts c).pending.has 0 = false) :
    ∃ nx, plic.contextUpdate c = some nx ∧ nx.contexts = plic.contexts ∧ nx.view = plic.view ∧ nx.Lined c ∧
      ∀ c' ≠ c, nx.line c' = plic.line c' := by
  let w (old : BitVec 64) : BitVec 64 :=
    backdoorWriteWithMask old (mipMask (cfg.mmode c)) (if plic.best c ≠ 0 then mipMask (cfg.mmode c) else 0)
  let nx : Plic cfg := { plic with mip := plic.mip.change (cfg.proc c) w }
  have hw (old : BitVec 64) (m : Bool) : (w old).getLsbD (mipBit m) =
      if cfg.mmode c = m then decide (plic.best c ≠ 0) else old.getLsbD (mipBit m) := by
    have hb := getLsbD_backdoorWrite old (cfg.mmode c) m (decide (plic.best c ≠ 0))
    simpa only [decide_eq_true_eq] using hb
  have mip (hart : Fin cfg.harts.length) :
      nx.mip hart = if hart.val = cfg.proc c then w (plic.mip hart) else plic.mip hart := rfl
  refine ⟨nx, ?_, rfl, rfl, ?_, fun c' ho => ?_⟩
  · unfold contextUpdate
    rw [(best_selects few hu).1]
    simp only [Cells.modify, if_pos (proc_lt c)]
    rfl
  · have hs : nx.best c = plic.best c := best_congr rfl
    rw [Lined, line_eq, mip, if_pos rfl, hw, if_pos rfl, hs]
  · rw [line_eq, line_eq, mip]
    split
    · rename_i hp
      rw [hw, if_neg fun hm => ho (context_unique hp hm.symm)]
    · rfl

theorem setContext_same (plic : Plic cfg) (c : Fin cfg.count) (context : Context) :
    (plic.setContext c context).contexts c = context := if_pos rfl

theorem setContext_other (plic : Plic cfg) {c' : Fin cfg.count} {co : Context} (ho : c' ≠ c) :
    (plic.setContext c co).contexts c' = plic.contexts c' := if_neg fun hs => ho (Fin.ext hs)

def Does (plic : Plic cfg) (act : Act cfg) (result : Option (Plic cfg)) : Prop :=
  act.Fits plic.view ∧ ∃ next, result = some next ∧ next.view = plic.view.after act ∧ ∀ c, next.Lined c

theorem contextUpdate_does (few : cfg.numIds ≤ 1024) {ch : Plic cfg} (wf : plic.Wf) {act : Act cfg}
    (hf : act.Fits plic.view) (view : ch.view = plic.view.after act)
    (others : ∀ c' ≠ c, ch.contexts c' = plic.contexts c') (hl : ch.line = plic.line) :
    Does plic act (ch.contextUpdate c) := by
  have hv : ch.view.Wf := view ▸ wf.view.after hf
  obtain ⟨nx, hu, hc, hs, own, hk⟩ := contextUpdate_spec few (hv.unused c)
  refine ⟨hf, nx, hu, hs.trans view, fun c' => ?_⟩
  by_cases hh : c' = c
  · rwa [hh]
  · have ho : nx.best c' = plic.best c' := best_congr (by rw [hc, others c' hh])
    rw [Lined, hk c' hh, ho, hl]
    exact wf.lined c'

end

section
variable (c : Context) {id : Nat} (b : id < 1024)

def Context.raise (c : Context) (id : Nat) (prio : BitVec 8) : Context :=
  { c with pending := c.pending.insert id, pendingPriority := c.pendingPriority.change id fun _ => prio }

def Context.lower (c : Context) (id : Nat) : Context :=
  { c with
    pending := c.pending.remove id
    pendingPriority := c.pendingPriority.change id fun _ => 0
    claimed := c.claimed.remove id }

def Context.claim (c : Context) (id : Nat) : Context := { c with claimed := c.claimed.insert id }
def Context.complete (c : Context) (id : Nat) : Context := { c with claimed := c.claimed.remove id }

include b

theorem prioOf_change (p : BitVec 8) (id' : Nat) :
    ((c.pendingPriority.change id fun _ => p).read id').getD 0 = if id' = id then p else c.prioOf id' := by
  rw [Cells.read_change]
  split
  · rename_i h
    rw [h, Cells.read, dif_pos b]
    rfl
  · rfl

theorem Context.spot_raise (p : BitVec 8) (id' : Nat) :
    (c.raise id p).spot id' = if id' = id then (c.spot id').raise p else c.spot id' := by
  have hw : id / 32 < 32 := by omega
  have hp := prioOf_change c b p id'
  by_cases hs : id' = id
  · rw [if_pos hs] at hp ⊢
    exact Spot.ext rfl (by simp [raise, spot, Spot.raise, has_insert _ hw, hs]) rfl hp
  · rw [if_neg hs] at hp ⊢
    exact Spot.ext rfl (by simp [raise, spot, has_insert _ hw, hs]) rfl hp

theorem Context.spot_lower (id' : Nat) :
    (c.lower id).spot id' = if id' = id then (c.spot id').lower else c.spot id' := by
  have hp := prioOf_change c b 0 id'
  by_cases hs : id' = id
  · rw [if_pos hs] at hp ⊢
    exact Spot.ext rfl (by simp [lower, spot, Spot.lower, has_remove, hs])
      (by simp [lower, spot, Spot.lower, has_remove, hs]) hp
  · rw [if_neg hs] at hp ⊢
    exact Spot.ext rfl (by simp [lower, spot, has_remove, hs]) (by simp [lower, spot, has_remove, hs]) hp

theorem Context.spot_claim (id' : Nat) :
    (c.claim id).spot id' = if id' = id then (c.spot id').claim else c.spot id' := by
  have hw : id / 32 < 32 := by omega
  by_cases hs : id' = id
  · rw [if_pos hs]
    exact Spot.ext rfl rfl (by simp [claim, spot, Spot.claim, has_insert _ hw, hs]) rfl
  · rw [if_neg hs]
    exact Spot.ext rfl rfl (by simp [claim, spot, has_insert _ hw, hs]) rfl

omit b

theorem Context.spot_complete (id id' : Nat) :
    (c.complete id).spot id' = if id' = id then (c.spot id').complete else c.spot id' := by
  by_cases h : id' = id
  · rw [if_pos h]
    exact Spot.ext rfl rfl (by simp [complete, spot, Spot.complete, has_remove, h]) rfl
  · rw [if_neg h]
    exact Spot.ext rfl rfl (by simp [complete, spot, has_remove, h]) rfl

end

section

theorem view_setContext (plic : Plic cfg) (c : Fin cfg.count) (co : Context) :
    (plic.setContext c co).view = { plic.view with
      spot := fun c' => if c' = c then co.spot else plic.view.spot c'
      threshold := fun c' => if c' = c then co.priorityThreshold else plic.view.threshold c' } := by
  refine View.ext (funext fun c' => ?_) (funext fun c' => ?_) rfl rfl rfl <;>
    by_cases h : c' = c <;> simp [view, h, setContext_same, setContext_other]

theorem view_setContext_eq {plic : Plic cfg} {c : Fin cfg.count} {co : Context} {view : View cfg}
    (hr : view = { plic.view with spot := view.spot, threshold := view.threshold })
    (spot : ∀ id, co.spot id = view.spot c id) (threshold : co.priorityThreshold = view.threshold c)
    (spots : ∀ c' ≠ c, view.spot c' = plic.view.spot c')
    (ht : ∀ c' ≠ c, view.threshold c' = plic.view.threshold c') :
    (plic.setContext c co).view = view := by
  rw [view_setContext, hr]
  refine View.ext (funext fun c' => ?_) (funext fun c' => ?_) rfl rfl rfl
  · by_cases hs : c' = c
    · rw [hs]
      exact (if_pos rfl).trans (funext spot)
    · exact (if_neg hs).trans (spots c' hs).symm
  · by_cases hs : c' = c
    · rw [hs]
      exact (if_pos rfl).trans threshold
    · exact (if_neg hs).trans (ht c' hs).symm

variable {plic : Plic cfg} (few : cfg.numIds ≤ 1024) (wf : plic.Wf)
include wf

theorem does_nothing : Does plic .nothing (some plic) := ⟨True.intro, plic, rfl, rfl, wf.lined⟩

include few
variable {id : Nat} (c : Fin cfg.count)

variable {val : W32}

theorem priorityWrite_does (kn : 0 < id ∧ id < cfg.numIds) {off : Nat} (hh : off / 4 = id)
    : Does plic (.priority id ((val &&& prioMask).setWidth 8)) (plic.priorityWrite off val) := by
  have bo : id < 1024 := Nat.lt_of_lt_of_le kn.2 few
  unfold priorityWrite
  simp only [hh, if_pos kn, Cells.write, Cells.modify, if_pos bo]
  refine ⟨True.intro, _, rfl, ?_, wf.lined⟩
  refine View.ext rfl rfl (funext fun id' => ?_) rfl rfl
  simp only [view, View.after, Cells.read_change]
  split
  · rename_i hs
    rw [hs, Cells.read, dif_pos bo]
    rfl
  · rfl

theorem setContext_does (act : Act cfg) (hf : act.Fits plic.view) {c : Fin cfg.count} {co : Context}
    (hv : (plic.setContext c co).view = plic.view.after act) : Does plic act ((plic.setContext c co).contextUpdate c) :=
  contextUpdate_does few wf hf hv (fun _ => setContext_other _) rfl

theorem setThreshold_does :
    Does plic (.threshold c ((val &&& prioMask).setWidth 8)) ((plic.setThreshold c val).map Prod.snd) := by
  have hs : (val &&& prioMask).toNat ≤ maxPrio := by
    exact Nat.and_le_right
  have hc : Does plic (.threshold c ((val &&& prioMask).setWidth 8))
      ((plic.setContext c { plic.contexts c with priorityThreshold := (val &&& prioMask).setWidth 8 }).contextUpdate c) :=
    setContext_does few wf (.threshold c ((val &&& prioMask).setWidth 8)) True.intro
      (view_setContext_eq rfl (fun _ => rfl) (if_pos rfl).symm (fun _ _ => rfl) fun _ ho => if_neg ho)
  obtain ⟨hf, nx, hu, hr⟩ := hc
  unfold setThreshold
  simp only [if_pos hs]
  rw [hu]
  exact ⟨hf, nx, rfl, hr⟩

omit few wf in
theorem view_change {c : Fin cfg.count} {context : Context} {f : Spot → Spot}
    (spot : ∀ id', context.spot id' = if id' = id then f ((plic.contexts c).spot id') else (plic.contexts c).spot id')
    (threshold : context.priorityThreshold = (plic.contexts c).priorityThreshold) :
    (plic.setContext c context).view = plic.view.change c id f := by
  refine view_setContext_eq rfl (fun id' => ?_) threshold (fun c' other => ?_) fun _ _ => rfl
  · rw [spot id']
    simp only [View.change, true_and]
    rfl
  · simp [View.change, other]

theorem contextClaim_does :
    ∃ nx, plic.contextClaim c = some (plic.best c, nx) ∧ Does plic (.claim c (plic.best c)) (some nx) := by
  obtain ⟨fo, se⟩ := best_selects few (wf.view.unused c)
  have o (some : plic.best c ≠ 0) := (se.foremost some).waits.1
  have f : (Act.claim c (plic.best c)).Fits plic.view :=
    Decidable.or_iff_not_imp_left.mpr fun some => (o some).2.1
  have cl : ∃ ch, plic.claimBest c (plic.best c) = some ch ∧
      Does plic (.claim c (plic.best c)) (ch.contextUpdate c) := by
    unfold claimBest
    by_cases none : plic.best c = 0
    · rw [if_neg (not_not_intro none)]
      refine ⟨plic, rfl, contextUpdate_does few wf f ?_ (fun _ _ => rfl) rfl⟩
      simp [View.after, if_pos none]
    · have known := (o none).1
      have w : plic.best c / 32 < 32 := by omega
      rw [if_pos none]
      simp only [Cells.modify, if_pos w]
      refine ⟨_, rfl, contextUpdate_does few wf f ?_ (fun _ => setContext_other _) rfl⟩
      have ch : (plic.setContext c ((plic.contexts c).claim (plic.best c))).view = plic.view.change c _ Spot.claim :=
        view_change (spot_claim _ (by omega)) rfl
      simp only [View.after, if_neg none, ← ch]
      rfl
  obtain ⟨ch, fst, -, nx, snd, r⟩ := cl
  refine ⟨nx, ?_, f, nx, rfl, r⟩
  unfold contextClaim
  simp only [fo, fst, snd, bind_eq_bind, bind_some]
  rfl

theorem complete_does (kn : id < cfg.numIds) : Does plic (.complete c id) (plic.complete c id) := by
  have hw : id / 32 < 32 := by omega
  unfold complete
  simp only [if_pos kn, Cells.read_lt _ hw, bind_eq_bind, bind_some, and_bitOf_ne_zero]
  split
  · rename_i he
    simp only [Cells.modify, if_pos hw]
    refine contextUpdate_does few wf True.intro ?_ (fun _ => setContext_other _) rfl
    have hc : (plic.setContext c ((plic.contexts c).complete id)).view = plic.view.change c id Spot.complete :=
      view_change (spot_complete _ id) rfl
    have he : (plic.view.spot c id).enable := he
    simp only [View.after, if_pos he, ← hc]
    rfl
  · rename_i hd
    have hd : ¬(plic.view.spot c id).enable := hd
    refine ⟨True.intro, plic, rfl, ?_, wf.lined⟩
    simp [View.after, if_neg hd]

omit few wf in
theorem levelChanged_eq (b : id < 1024) (c : Fin cfg.count) (lvl : Bool) (idPrio : BitVec 8) :
    plic.levelChanged c id lvl idPrio = (plic.setContext c
      (if lvl then (plic.contexts c).raise id idPrio else (plic.contexts c).lower id)).contextUpdate c := by
  have hw : id / 32 < 32 := by omega
  unfold levelChanged
  cases lvl <;> simp [Cells.modify, Cells.write, hw, b, raise, lower, Bits.insert, Bits.remove]

omit few wf in
theorem levelFirst_eq (b : id < 1024) (lvl : Bool) (idPrio : BitVec 8) (contexts : List (Fin cfg.count)) :
    plic.levelFirst id lvl idPrio contexts = match contexts.find? fun c => (plic.contexts c).enable.has id with
      | none => some plic
      | some c => plic.levelChanged c id lvl idPrio := by
  have hw : id / 32 < 32 := by omega
  induction contexts with
  | nil => rfl
  | cons c contexts ih =>
    simp only [levelFirst, Cells.read_lt _ hw, bind_eq_bind, bind_some, and_bitOf_ne_zero, List.find?_cons]
    cases (plic.contexts c).enable.has id with
    | true => rfl
    | false => exact ih

theorem setInterruptLevel_does (kn : cfg.Known id) {lvl : Bool} :
    Does plic (.level id lvl) (plic.setInterruptLevel id lvl) := by
  have bo : id < 1024 := Nat.lt_of_lt_of_le kn.2 few
  have w : id / 32 < 32 := by omega
  have hp : plic.priority.read id = some (plic.view.priority id) := by
    simp [view, Cells.read, bo]
  have hl (id' : Nat) : has (plic.level.change (id / 32) fun w => if lvl then w ||| bitOf id
      else w &&& ~~~bitOf id) id' = if id' = id then lvl else plic.view.level id' := by
    rw [has_set _ w]
    simp [view]
  unfold setInterruptLevel
  rw [if_neg (not_or.mpr ⟨kn.1, Nat.not_le.mpr kn.2⟩)]
  simp only [hp, Cells.modify, if_pos w, bind_eq_bind, bind_some, levelFirst_eq bo]
  split
  · rename_i ha
    refine ⟨kn, _, rfl, ?_, wf.lined⟩
    have hn (c : Fin cfg.count) : ¬plic.view.First id c := by
      intro hf
      exact absurd hf.1 (List.find?_eq_none.mp ha c (List.mem_finRange c))
    refine View.ext (funext fun c => funext fun id' => ?_) rfl rfl (funext hl) rfl
    simp only [View.after, hn c, and_false]
    rfl
  · rename_i c found
    rw [← Fin.find?_eq_find?_finRange, Fin.find?_eq_some_iff] at found
    have hf : plic.view.First id c := found
    rw [levelChanged_eq bo]
    refine contextUpdate_does few wf kn ?_ (fun _ => setContext_other _) rfl
    rw [view_setContext]
    refine View.ext (funext fun c' => funext fun id' => ?_) (funext fun c' => ?_) rfl (funext hl) rfl
    · by_cases hs : c' = c
      · rw [hs]
        simp only [View.after, hf, and_true]
        cases lvl with
        | false => exact spot_lower _ bo id'
        | true => exact spot_raise _ bo _ id'
      · have ho : ¬plic.view.First id c' := fun also => hs (also.unique hf)
        simp only [View.after, ho, hs, and_false]
        rfl
    · by_cases hs : c' = c
      · rw [hs]
        simp only [if_true]
        cases lvl <;> rfl
      · simp only [hs]
        rfl

def Spot.turned (spot : Spot) (old new level : Bool) (prio : BitVec 8) : Spot :=
  if old = new then spot else if new && level then spot.raise prio else if new then spot else spot.lower

omit few wf in
theorem Spot.turned_eq (spot : Spot) {new level : Bool} {prio : BitVec 8} :
    ({ spot with enable := new } : Spot).turned spot.enable new level prio = spot.enabling new level prio := by
  rcases spot with ⟨enable, pending, claimed, old⟩
  cases enable <;> cases new <;> cases level <;> rfl

omit few wf in
variable (plic) in
theorem enableId_eq {word i n : Nat} (hn : word * 32 + i = n) (hw : word < 32) (hi : i < 32) {old new : W32}
    {c : Context} :
    ∃ c', plic.enableId word new (old ^^^ new) c i = some c' ∧ c'.priorityThreshold = c.priorityThreshold ∧
      ∀ id, c'.spot id = if id = n then (c.spot id).turned (old.getLsbD i) (new.getLsbD i)
        (plic.view.level id) (plic.view.priority id) else c.spot id := by
  have hb : n < 1024 := by omega
  have hd : n / 32 = word := by omega
  have hbit : bitOf i = bitOf n := by
    rw [bitOf, bitOf, show n % 32 = i % 32 by omega]
  have hp : plic.priority.read n = some (plic.view.priority n) := by
    simp [view, Cells.read, hb]
  have hh : (plic.level ⟨word, hw⟩).getLsbD i = plic.view.level n := by
    rw [← hn, Nat.mul_comm]
    exact (plic.level.has_word ⟨word, hw⟩ hi).symm
  have insert (bits : Bits 32) : (bits.modify word fun w => w ||| bitOf i) = some (bits.insert n) := by
    rw [Cells.modify, if_pos hw, Bits.insert, hd, hbit]
  have remove (bits : Bits 32) : (bits.modify word fun w => w &&& ~~~bitOf i) = some (bits.remove n) := by
    rw [Cells.modify, if_pos hw, Bits.remove, hd, hbit]
  have wrote (p : BitVec 8) : c.pendingPriority.write n p = some (c.pendingPriority.change n fun _ => p) := if_pos hb
  have hc : (old ^^^ new).getLsbD i = false ↔ old.getLsbD i = new.getLsbD i := by
    rw [getLsbD_xor]
    cases old.getLsbD i <;> cases new.getLsbD i <;> decide
  unfold enableId
  simp only [hn, hp, Cells.read_lt _ hw, hh, hc, insert, remove, wrote, bind_eq_bind, bind_some]
  by_cases hs : old.getLsbD i = new.getLsbD i
  · simp [Spot.turned, hs]
  · rw [if_neg hs]
    cases hnow : new.getLsbD i with
    | false =>
      refine ⟨c.lower n, rfl, rfl, fun id => ?_⟩
      rw [spot_lower c hb]
      rw [hnow] at hs
      simp [Spot.turned, hs]
    | true =>
      rw [hnow] at hs
      cases hl : plic.view.level n with
      | false =>
        refine ⟨c, rfl, rfl, fun id => ?_⟩
        split
        · rename_i he
          simp [Spot.turned, he, hl]
        · rfl
      | true =>
        refine ⟨c.raise n (plic.view.priority n), rfl, rfl, fun id => ?_⟩
        rw [spot_raise c hb]
        split
        · rename_i he
          simp [Spot.turned, hs, he, hl]
        · rfl

/-- The context before round `i` of the loop of an enable write: the sources of the word below `i` are done. -/
structure Enabling (plic : Plic cfg) (c : Fin cfg.count) (word : Nat) (new : W32) (i : Nat) (context : Context) :
    Prop where
  threshold : context.priorityThreshold = (plic.contexts c).priorityThreshold
  inside : ∀ id, id / 32 = word → context.spot id =
    if id % 32 < i then (plic.view.spot c id).enabling (new.getLsbD (id % 32)) (plic.view.level id) (plic.view.priority id)
    else { plic.view.spot c id with enable := new.getLsbD (id % 32) }
  outside : ∀ id, id / 32 ≠ word → context.spot id = plic.view.spot c id

omit few wf in
theorem enabling_start {c : Fin cfg.count} {word : Nat} (hw : word < 32) {new : W32} :
    Enabling plic c word new 0
      { plic.contexts c with enable := (plic.contexts c).enable.change word fun _ => new } := by
  have hb (id : Nat) := (plic.contexts c).enable.has_change ⟨word, hw⟩ (fun _ => new) id
  refine ⟨rfl, fun id hi => ?_, fun id ho => ?_⟩
  · exact Spot.ext ((hb id).trans (if_pos hi)) rfl rfl rfl
  · exact Spot.ext ((hb id).trans (if_neg ho)) rfl rfl rfl

omit few wf in
theorem enabling_round {c : Fin cfg.count} {word i : Nat} (hw : word < 32) (hi : i < 32) {new : W32}
    {co : Context} (he : Enabling plic c word new i co) :
    ∃ co', plic.enableId word new ((plic.contexts c).enable ⟨word, hw⟩ ^^^ new) co i = some co' ∧
      Enabling plic c word new (i + 1) co' := by
  obtain ⟨co', hr, hk, spot⟩ := enableId_eq plic rfl hw hi
  refine ⟨co', hr, hk.trans he.threshold, fun id inside => ?_, fun id ho => ?_⟩
  · rw [spot, he.inside id inside]
    by_cases hn : id = word * 32 + i
    · have hb : id % 32 = i := by omega
      have hold : ((plic.contexts c).enable ⟨word, hw⟩).getLsbD i = (plic.view.spot c id).enable := by
        rw [← hb]
        exact (plic.contexts c).enable.getLsbD_eq_has inside
      rw [if_pos hn, hb, if_neg (Nat.lt_irrefl i), if_pos (Nat.lt_succ_self i), hold]
      exact Spot.turned_eq _
    · have hs : id % 32 < i + 1 ↔ id % 32 < i := by omega
      rw [if_neg hn]
      simp only [hs]
  · rw [spot, he.outside id ho, if_neg (by omega)]

theorem contextEnableWrite_does {c : Fin cfg.count} {w : Nat} (kn : w < cfg.numIdsWord) {off : Nat}
    (hh : off / 4 = w) :
    Does plic (.enable c w (if w = 0 then val &&& ~~~1 else val)) (plic.contextEnableWrite c off val) := by
  have hw : w < 32 := Nat.lt_of_lt_of_le kn (numIdsWord_le few).1
  unfold contextEnableWrite
  generalize hn : (if w = 0 then val &&& ~~~1 else val) = new
  have wrote : (plic.contexts c).enable.write w new = some ((plic.contexts c).enable.change w fun _ => new) :=
    if_pos hw
  obtain ⟨co, hl, hd⟩ := foldlM_range (Enabling plic c w new) (enabling_start hw)
    fun i co hs he => enabling_round hw hs he
  simp only [hh, if_neg (Nat.not_le.mpr kn), hn, Cells.read_lt _ hw, wrote, hl, bind_eq_bind, bind_some]
  refine setContext_does few wf (.enable c w new) True.intro
    (view_setContext_eq rfl (fun id => ?_) hd.threshold (fun c' ho => funext fun id => ?_) fun _ _ => rfl)
  · have hs : id % 32 < 32 := Nat.mod_lt _ (by decide)
    by_cases hi : id / 32 = w
    · rw [hd.inside id hi, if_pos hs]
      simp [View.after, hi]
    · rw [hd.outside id hi]
      simp [View.after, hi]
  · simp [View.after, ho]

end

section
variable (pl : Plic cfg) (few : cfg.numIds ≤ 1024)
include few

theorem priorityRead_isSome {off : Nat} : ∃ val, pl.priorityRead off = some val := by
  unfold priorityRead
  dsimp only
  split
  · rename_i hk
    simp [Cells.read, Nat.lt_of_lt_of_le hk.2 few]
  · exact ⟨0, rfl⟩

theorem pendingRead_isSome {off : Nat} : ∃ val, pl.pendingRead off = some val := by
  unfold pendingRead
  dsimp only
  split
  · rename_i hk
    have hw : off / 4 < 32 := Nat.lt_of_lt_of_le hk (numIdsWord_le few).1
    exact foldlM_total 0 fun val c _ => ⟨_, by simp [Cells.read, hw]; rfl⟩
  · exact ⟨0, rfl⟩

theorem contextEnableRead_isSome {c : Fin cfg.count} {off : Nat} : ∃ val, pl.contextEnableRead c off = some val := by
  unfold contextEnableRead
  dsimp only
  split
  · rename_i hk
    have hw : off / 4 < 32 := Nat.lt_of_lt_of_le hk (numIdsWord_le few).1
    exact ⟨_, dif_pos hw⟩
  · exact ⟨0, rfl⟩

variable {pl} (wf : pl.Wf)
include wf

theorem loadWord_does {a : Nat} : Does pl (pl.decode (.load a)) ((pl.loadWord a).map fun (_, _, pl) => pl) := by
  have idl : Does pl .nothing (some pl) := does_nothing wf
  unfold loadWord loadReg
  simp only [decode]
  by_cases p : a < pendingBase
  · obtain ⟨val, r⟩ := priorityRead_isSome pl few
    rw [if_pos p, r, if_neg fun i => by unfold pendingBase contextBase at *; omega]
    exact idl
  rw [if_neg p]
  by_cases pe : a < enableBase
  · obtain ⟨val, r⟩ := pendingRead_isSome pl few
    rw [if_pos pe, r, if_neg fun i => by unfold enableBase contextBase at *; omega]
    exact idl
  rw [if_neg pe]
  by_cases e : a < contextBase
  · rw [if_pos e, if_neg fun i => by omega]
    split
    · obtain ⟨val, r⟩ := contextEnableRead_isSome pl few
      rw [r]
      exact idl
    · exact idl
  rw [if_neg e]
  by_cases co : a < regSize
  · rw [if_pos ⟨Nat.not_lt.mp e, co⟩]
    split
    · rename_i bo
      unfold contextRead
      by_cases th : (a - contextBase) % contextPerHart = contextThreshold
      · rw [th]
        exact idl
      · split
        · obtain ⟨next, cl, d⟩ := contextClaim_does few wf ⟨_, bo⟩
          rw [cl]
          exact d
        · exact idl
    · exact idl
  rw [if_neg co, if_neg fun i => co i.2]
  exact idl

theorem storeWord_does {a : Nat} {b : W32} :
    Does pl (pl.decode (.store a b)) ((pl.storeWord a b).map Prod.snd) := by
  have hi : Does pl .nothing (some pl) := does_nothing wf
  have ha {act : Act cfg} {r : Option (Plic cfg)} (ret : Bool) (hd : Does pl act r) :
      Does pl act ((r.map fun pl => (ret, pl)).map Prod.snd) := by
    rwa [map_map, show Prod.snd ∘ (fun pl => (ret, pl)) = @id (Plic cfg) from rfl, map_id]
  unfold storeWord storeReg
  simp only [decode]
  generalize b.rotateLeft (8 * (a % 4)) = val
  by_cases hp : a < enableBase
  · rw [if_pos hp, if_pos hp]
    apply ha true
    split
    · rename_i kn
      exact priorityWrite_does few wf kn rfl
    · rename_i hu
      unfold priorityWrite
      rw [if_neg hu]
      exact hi
  rw [if_neg hp, if_neg hp]
  by_cases he : a < contextBase
  · rw [if_pos he]
    split
    · apply ha true
      split
      · rename_i kn
        exact contextEnableWrite_does few wf kn rfl
      · rename_i hu
        unfold contextEnableWrite
        rw [if_pos (Nat.not_lt.mp hu)]
        exact hi
    · exact hi
  rw [if_neg he, if_neg he]
  by_cases hc : a < regSize
  · rw [if_pos hc]
    split
    · rename_i bo
      unfold contextWrite
      split
      · exact setThreshold_does few wf ⟨_, bo⟩
      · by_cases claims : (a - contextBase) % contextPerHart = contextClaimOffset
        · rw [if_pos claims]
          apply ha true
          by_cases kn : val.toNat < cfg.numIds
          · rw [if_pos ⟨claims, kn⟩]
            exact complete_does few wf ⟨_, bo⟩ kn
          · rw [if_neg fun hb => kn hb.2, complete, if_neg kn]
            exact hi
        · rw [if_neg claims, if_neg fun hb => claims hb.1]
          exact hi
    · exact hi
  rw [if_neg hc, if_neg hc]
  exact hi

theorem step_does (ac : Access) : Does pl (pl.decode ac) (pl.step ac) := by
  cases ac with
  | load a => exact loadWord_does few wf
  | store a b => exact storeWord_does few wf
  | level id lvl =>
    simp only [decode, step]
    split
    · rename_i h
      rw [setInterruptLevel, if_pos h]
      exact does_nothing wf
    · rename_i kn
      exact setInterruptLevel_does few wf ⟨(not_or.mp kn).1, Nat.not_le.mp (not_or.mp kn).2⟩

theorem after_view (ac : Access) : (pl.after ac).view = pl.view.after (pl.decode ac) := by
  obtain ⟨-, next, h, view, -⟩ := step_does few wf ac
  rw [after, h]
  exact view

theorem Wf.after (ac : Access) : (pl.after ac).Wf := by
  obtain ⟨hf, next, hs, view, hl⟩ := step_does few wf ac
  rw [Plic.after, hs]
  exact ⟨view ▸ wf.view.after hf, hl⟩

end

theorem has_empty {n : Nat} {id : Nat} : has (fun _ => 0 : Bits n) id = false := by
  unfold has Cells.read
  split <;> simp

theorem init_idle (c : Fin cfg.count) (id : Nat) : ¬((init cfg).view.spot c id).pending :=
  Bool.eq_false_iff.mp has_empty

theorem init_wf (few : cfg.numIds ≤ 1024) : (init cfg).Wf := by
  refine ⟨⟨fun c id => ⟨fun hc => ?_, fun hp => absurd hp (init_idle c id)⟩, fun id hl => ?_⟩, fun c => ?_⟩
  · exact absurd hc (Bool.eq_false_iff.mp has_empty)
  · exact absurd hl (Bool.eq_false_iff.mp has_empty)
  · have hn : (init cfg).best c = 0 := by
      apply Classical.byContradiction
      intro hs
      have hi : ((init cfg).contexts c).pending.has 0 = false := has_empty
      exact init_idle c _ ((best_selects few hi).2.foremost hs).waits.1.2.1
    rw [Lined, hn, line_eq]
    simp [init]

/-! Accesses of every length are made of words. -/

theorem load_words (plic : Plic cfg) (ad len : Nat) :
    ∃ a : List Access, ((plic.load ad len).map fun (_, _, plic) => plic) = a.foldlM step plic := by
  unfold load
  by_cases hf : len = 4
  · refine ⟨[.load ad], ?_⟩
    rw [if_pos hf]
    cases hl : plic.loadWord ad <;> simp [step, hl]
  rw [if_neg hf]
  by_cases he : len = 8
  · rw [if_pos he]
    cases hl : plic.loadWord ad with
    | none => exact ⟨[.load ad], by simp [step, hl]⟩
    | some low =>
      rcases low with ⟨ret, low, nx⟩
      cases ret with
      | false => exact ⟨[.load ad], by simp [step, hl]⟩
      | true =>
        refine ⟨[.load ad, .load (ad + 4)], ?_⟩
        cases hs : nx.loadWord (ad + 4) <;> simp [step, hl, hs]
  · exact ⟨[], by simp [he]⟩

theorem store_words (plic : Plic cfg) (ad len : Nat) (b : BitVec 64) :
    ∃ a : List Access, (plic.store ad len b).map Prod.snd = a.foldlM step plic := by
  unfold store
  by_cases hf : len = 4
  · refine ⟨[.store ad (b.setWidth 32)], ?_⟩
    rw [if_pos hf]
    cases hs : plic.storeWord ad (b.setWidth 32) <;> simp [step, hs]
  rw [if_neg hf]
  by_cases he : len = 8
  · rw [if_pos he]
    cases hs : plic.storeWord ad (b.setWidth 32) with
    | none => exact ⟨[.store ad (b.setWidth 32)], by simp [step, hs]⟩
    | some low =>
      rcases low with ⟨ret, nx⟩
      cases ret with
      | false => exact ⟨[.store ad (b.setWidth 32)], by simp [step, hs]⟩
      | true =>
        refine ⟨[.store ad (b.setWidth 32), .store (ad + 4) (b.extractLsb' 32 32)], ?_⟩
        cases second : nx.storeWord (ad + 4) (b.extractLsb' 32 32) <;> simp [step, hs]
  · exact ⟨[], by simp [he]⟩

end RiscvEmulators.Spike.Plic
