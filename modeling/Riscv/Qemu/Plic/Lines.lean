import Riscv.Qemu.Plic.Selection
import Riscv.Transition.Run

namespace RiscvEmulators.Qemu.SifivePlic
open Store Interrupt Transition BitVec Config SifivePlic
variable {cfg : Config}

def line (plic : SifivePlic cfg) (c : Fin cfg.numAddrs) : Option Bool :=
  match cfg.mode c with
  | .m => plic.mExternalIrqs.read (cfg.hartid c)
  | .s => plic.sExternalIrqs.read (cfg.hartid c)
  | .u => none

def Lined (plic : SifivePlic cfg) (c : Fin cfg.numAddrs) : Prop :=
  ∀ high, plic.line c = some high → (high = true ↔ ∃ irq, plic.Deliverable c irq)

/-- The lines and the results of claims are those of the registers, and no claim returns a source that is in service. -/
structure Exact (plic : SifivePlic cfg) : Prop where
  line : ∀ c, plic.Lined c
  claim : ∀ c : Fin cfg.numAddrs, ∃ irq, plic.claimedIrq c = some irq ∧ (irq ≠ 0 ↔ ∃ source, plic.Deliverable c source) ∧
    (irq ≠ 0 → plic.inService irq = false)

structure Wf (plic : SifivePlic cfg) : Prop where
  unused : plic.prioOf 0 = 0
  served : ∀ irq, plic.claimed.has irq = plic.inService irq

section

def Quiet (plic next : SifivePlic cfg) : Prop :=
  next = { plic with mExternalIrqs := next.mExternalIrqs, sExternalIrqs := next.sExternalIrqs }

variable {plic n : SifivePlic cfg}

theorem Quiet.trans {last : SifivePlic cfg} (hf : Quiet plic n) (hs : Quiet n last) : Quiet plic last := by
  rw [Quiet, hs, hf]

theorem Quiet.claimedIrq (h : Quiet plic n) (c : Nat) : n.claimedIrq c = plic.claimedIrq c := by
  rw [h]
  rfl

theorem Quiet.deliverable (hq : Quiet plic n) (c : Fin cfg.numAddrs) (irq : Nat) :
    n.Deliverable c irq ↔ plic.Deliverable c irq := by
  rw [hq]
  exact ⟨fun ⟨⟨hk, hp, hu, ha⟩, he⟩ => ⟨⟨hk, hp, hu, ha⟩, he⟩, fun ⟨⟨hk, hp, hu, ha⟩, he⟩ => ⟨⟨hk, hp, hu, ha⟩, he⟩⟩

theorem Quiet.wf (h : Quiet plic n) (wf : plic.Wf) : n.Wf := by
  rw [h]
  exact ⟨wf.unused, wf.served⟩

theorem setIrq_spec (plic : SifivePlic cfg) {c : Fin cfg.numAddrs} {l : Bool} :
    ∃ n, plic.setIrq c l = some n ∧ Quiet plic n ∧ (∀ h, n.line c = some h → h = l) ∧
      ∀ c' ≠ c, n.line c' = plic.line c' := by
  have hp := hartid_lt c
  unfold setIrq
  cases hm : cfg.mode c
  case u =>
    refine ⟨plic, rfl, rfl, fun h hs => ?_, fun _ _ => rfl⟩
    rw [line, hm] at hs
    cases hs
  all_goals
    simp only [Cells.write, Cells.modify, if_pos hp]
    refine ⟨_, rfl, rfl, fun h hs => ?_, fun c' ho => ?_⟩
    · rw [line, hm] at hs
      exact Option.some.inj (hs.symm.trans (Cells.read_stored _ hp l))
    · have ha (hm' : cfg.mode c' = cfg.mode c) : cfg.hartid c' ≠ cfg.hartid c :=
        fun same => ho (context_unique same hm')
      simp only [line]
      cases hm' : cfg.mode c' <;> simp [Cells.read_change, hm, hm'] at ha ⊢
      simp [ha]

theorem update_spec (hu : plic.prioOf 0 = 0) : ∃ n, plic.update = some n ∧ Quiet plic n ∧ ∀ c, n.Lined c := by
  have hr (c : Fin cfg.numAddrs) (now : SifivePlic cfg) (hq : Quiet plic now) :
      ∃ n, (do let irq ← now.claimedIrq c; now.setIrq c (decide (irq ≠ 0))) = some n ∧ Quiet plic n ∧
        n.Lined c ∧ ∀ c' ≠ c, now.Lined c' → n.Lined c' := by
    obtain ⟨irq, hf, selects⟩ := claimedIrq_selects hu c
    obtain ⟨n, set, only, own, ho⟩ := setIrq_spec now
    have hd (c' : Fin cfg.numAddrs) (irq : Nat) := only.deliverable c' irq
    refine ⟨n, ?_, hq.trans only, fun h hs => ?_, fun c' other hl h hs => ?_⟩
    · rw [hq.claimedIrq, hf]
      exact set
    · rw [own h hs, decide_eq_true_iff, selects.ne_zero_iff]
      simp [hd, hq.deliverable]
    · rw [ho c' other] at hs
      rw [hl h hs]
      simp only [hd]
  have start : Quiet plic plic := rfl
  obtain ⟨n, loop, hq, hl, -⟩ := foldlM_establish hr (List.finRange cfg.numAddrs) start
  exact ⟨n, loop, hq, fun c => hl c (List.mem_finRange c)⟩

end

section
variable {a b : W32}

theorem priority_area (hi : addrBetween a b (cfg.numSources <<< 2)) : (a - b).toNat / 4 < cfg.sources := by
  have hb := lt_def.mp (of_decide_eq_true hi).2
  rw [toNat_shiftLeft] at hb
  unfold sources
  omega

theorem context_area {s : W32} (hi : addrBetween a b (cfg.span s)) : (a - b).toNat / s.toNat < cfg.numAddrs := by
  have hb := lt_def.mp (of_decide_eq_true hi).2
  apply Nat.div_lt_of_lt_mul
  rw [Nat.mul_comm]
  exact Nat.lt_of_lt_of_le hb
    (Nat.le_trans (Nat.mod_le _ _) (Nat.mul_le_mul_right _ (Nat.mod_le _ _)))

end

section
variable {plic : SifivePlic cfg}

theorem word_lt {irq : Nat} (h : irq < cfg.sources) : irq / 32 < cfg.bitfieldWords := by
  unfold bitfieldWords
  omega

theorem atomicSetMasked_eq (old mask : W32) (l : Bool) :
    atomicSetMasked old mask (if l then BitVec.allOnes 32 else 0) = if l then old ||| mask else old &&& ~~~mask := by
  cases l with
  | false => exact (congrArg (old &&& ~~~mask ||| ·) zero_and).trans or_zero
  | true =>
    rw [atomicSetMasked, if_pos rfl, if_pos rfl, allOnes_and]
    apply eq_of_getLsbD_eq
    intro i h
    rw [getLsbD_or, getLsbD_and, getLsbD_not, getLsbD_or]
    cases old.getLsbD i <;> cases mask.getLsbD i <;> simp [h]

theorem setBit_spec (bs : Bits cfg.bitfieldWords) {irq : Nat} (hk : irq < cfg.sources) (l : Bool) :
    ∃ b', setBit bs irq l = some b' ∧ ∀ j, b'.has j = if j = irq then l else bs.has j := by
  have hw := word_lt hk
  refine ⟨_, if_pos hw, fun j => ?_⟩
  simp only [atomicSetMasked_eq]
  rw [Bits.has_set bs hw]
  simp

theorem service_wf (wf : plic.Wf) (pending : Bits cfg.bitfieldWords) {claimed : Bits cfg.bitfieldWords} {irq : Nat}
    {l : Bool}
    (hh : ∀ j, claimed.has j = if j = irq then l else plic.claimed.has j) :
    (({ plic with pending, claimed } : SifivePlic cfg).service irq l).Wf := by
  refine ⟨wf.unused, fun o => ?_⟩
  simp [service, hh o, wf.served]

theorem claim_spec (wf : plic.Wf) (c : Fin cfg.numAddrs) :
    ∃ irq next, plic.claim c = some (irq, next) ∧ Selects (plic.Deliverable c) plic.urgency irq ∧ next.Wf ∧
      (∀ c, next.Lined c) ∧ ∀ source, next.inService source = (decide (irq ≠ 0 ∧ source = irq) || plic.inService source) := by
  obtain ⟨irq, found, selects⟩ := claimedIrq_selects wf.unused c
  unfold claim
  rw [found]
  by_cases zero : irq = 0
  · obtain ⟨next, updated, quiet, lined⟩ := update_spec wf.unused
    refine ⟨irq, next, by simp [zero, updated], selects, quiet.wf wf, lined, fun source => ?_⟩
    rw [quiet]
    simp [zero]
  · have known := (selects.foremost zero).waits.known
    obtain ⟨pending, cleared, -⟩ := setBit_spec plic.pending known false
    obtain ⟨claimed, marked, only⟩ := setBit_spec plic.claimed known true
    have served := service_wf wf pending only
    obtain ⟨next, updated, quiet, lined⟩ := update_spec served.unused
    refine ⟨irq, next, by simp [zero, setPending, setClaimed, cleared, marked, updated], selects, quiet.wf served, lined,
      fun source => ?_⟩
    rw [quiet]
    by_cases same : source = irq <;> simp [service, zero, same]

def enableOf : Event cfg → Option (Fin cfg.numAddrs × Nat × W32)
  | .write addr value =>
    let addrid := (addr - cfg.enableBase).toNat / cfg.enableStride.toNat
    let wordid := (addr &&& (cfg.enableStride - 1)).toNat / 4
    if addrBetween addr cfg.priorityBase (cfg.numSources <<< 2) then none
    else if addrBetween addr cfg.pendingBase (pendingSize cfg) then none
    else if addrBetween addr cfg.enableBase (cfg.span cfg.enableStride) then
      if bound : addrid < cfg.numAddrs then
        if wordid < cfg.bitfieldWords then some (⟨addrid, bound⟩, wordid, value) else none
      else none
    else none
  | _ => none

/-- The source that an event completes: a write of its number to the claim register of some context. -/
def completed : Event cfg → Option Nat
  | .write addr value =>
    if addrBetween addr cfg.priorityBase (cfg.numSources <<< 2) then none
    else if addrBetween addr cfg.pendingBase (pendingSize cfg) then none
    else if addrBetween addr cfg.enableBase (cfg.span cfg.enableStride) then none
    else if addrBetween addr cfg.contextBase (cfg.span cfg.contextStride) ∧
        addr &&& (cfg.contextStride - 1) = 4 ∧ value < cfg.numSources then some value.toNat
    else none
  | _ => none

def setEnable (plic : SifivePlic cfg) (c : Fin cfg.numAddrs) (word : Nat) (value : W32) : SifivePlic cfg :=
  { plic with enable := plic.enable.change (c * cfg.bitfieldWords + word) fun _ => value }

structure Does (plic : SifivePlic cfg) (event : Event cfg) (next : SifivePlic cfg) : Prop where
  wf : next.Wf
  lines : enableOf event = none → next = plic ∨ ∀ c, next.Lined c
  enables : ∀ c word value, enableOf event = some (c, word, value) →
    word < cfg.bitfieldWords ∧ next = plic.setEnable c word value
  service : ∀ irq, completed event ≠ some irq → plic.inService irq → next.inService irq

theorem Wf.does {now : SifivePlic cfg} (wf : now.Wf) {event : Event cfg} (other : enableOf event = none)
    (service : ∀ irq, completed event ≠ some irq → plic.inService irq → now.inService irq) :
    ∃ next, now.update = some next ∧ Does plic event next := by
  obtain ⟨next, updated, quiet, lined⟩ := update_spec wf.unused
  refine ⟨next, updated, quiet.wf wf, fun _ => .inr lined, fun _ _ _ enables => ?_, fun irq kept serving => ?_⟩
  · rw [other] at enables
    cases enables
  · rw [quiet]
    exact service irq kept serving

theorem Wf.idle (wf : plic.Wf) {event : Event cfg} (other : enableOf event = none) :
    ∃ next, some plic = some next ∧ Does plic event next := by
  refine ⟨plic, rfl, wf, fun _ => .inl rfl, fun _ _ _ enables => ?_, fun _ _ serving => serving⟩
  rw [other] at enables
  cases enables

theorem read_does (wf : plic.Wf) {ad : W32} :
    ∃ next, (plic.read ad).map Prod.snd = some next ∧ Does plic (.read ad) next := by
  have idle : ∃ next, some plic = some next ∧ Does plic (.read ad) next := wf.idle rfl
  unfold read
  split
  · rename_i hi
    rw [Cells.read, dif_pos (priority_area hi)]
    exact idle
  split
  · exact idle
  split
  · rename_i hi
    dsimp only
    split
    · rename_i hb
      rw [Cells.read, dif_pos (index_lt ⟨_, context_area hi⟩ hb)]
      exact idle
    · exact idle
  split
  · rename_i hi
    have c := context_area hi
    dsimp only
    split
    · rw [Cells.read, dif_pos c]
      exact idle
    split
    · obtain ⟨irq, next, claims, -, kept, lined, serves⟩ := claim_spec wf ⟨_, c⟩
      rw [claims]
      refine ⟨next, rfl, kept, fun _ => .inr lined, fun _ _ _ enables => ?_, fun source _ serving => ?_⟩
      · cases enables
      · rw [serves, serving, Bool.or_true]
    · exact idle
  · exact idle

theorem irqRequest_does (wf : plic.Wf) (irq : Fin cfg.sources) (l : Int) :
    ∃ next, plic.irqRequest irq l = some next ∧ Does plic (.request irq l) next := by
  unfold irqRequest
  split
  · obtain ⟨pending, hs, -⟩ := setBit_spec plic.pending irq.isLt true
    have hr : ({ plic with pending } : SifivePlic cfg).Wf := ⟨wf.unused, wf.served⟩
    have does : ∃ next, _ = some next ∧ Does plic (.request irq l) next := hr.does rfl fun _ _ serving => serving
    simpa [setPending, hs] using does
  · exact wf.idle rfl

theorem write_does (wf : plic.Wf) {ad v : W32} :
    ∃ next, plic.write ad v = some next ∧ Does plic (.write ad v) next := by
  unfold write
  by_cases hp : addrBetween ad cfg.priorityBase (cfg.numSources <<< 2)
  · have o : enableOf (.write ad v : Event cfg) = none := if_pos hp
    rw [if_pos hp]
    dsimp only
    split
    · exact wf.idle o
    rename_i positive
    cases cfg.legalize v with
    | none => exact wf.idle o
    | some p =>
      simp only [Cells.write, Cells.modify, if_pos (priority_area hp)]
      refine Wf.does ?_ o fun _ _ serving => serving
      refine ⟨?_, wf.served⟩
      rw [prioOf, Cells.read_change, if_neg (Ne.symm positive)]
      exact wf.unused
  rw [if_neg hp]
  by_cases pends : addrBetween ad cfg.pendingBase (pendingSize cfg)
  · rw [if_pos pends]
    exact wf.idle ((if_neg hp).trans (if_pos pends))
  rw [if_neg pends]
  have he : enableOf (.write ad v : Event cfg) = _ := (if_neg hp).trans (if_neg pends)
  by_cases enables : addrBetween ad cfg.enableBase (cfg.span cfg.enableStride)
  · have c := context_area enables
    rw [if_pos enables, dif_pos c] at he
    rw [if_pos enables]
    by_cases hb : (ad &&& (cfg.enableStride - 1)).toNat / 4 < cfg.bitfieldWords
    · rw [if_pos hb] at he ⊢
      simp only [Cells.write, Cells.modify, if_pos (index_lt ⟨_, c⟩ hb)]
      refine ⟨_, rfl, ⟨wf.unused, wf.served⟩, fun none => ?_, fun c' word val hh => ?_, fun _ _ serving => serving⟩
      · rw [he] at none
        cases none
      · rw [he] at hh
        cases hh
        exact ⟨hb, rfl⟩
    · rw [if_neg hb] at he ⊢
      exact wf.idle he
  rw [if_neg enables] at he ⊢
  split
  · rename_i hc
    dsimp only
    split
    · cases cfg.legalize v with
      | none => exact wf.idle he
      | some p =>
        simp only [Cells.write, Cells.modify, if_pos (context_area hc)]
        exact Wf.does (by exact ⟨wf.unused, wf.served⟩) he fun _ _ serving => serving
    split
    · rename_i register
      split
      · rename_i known
        obtain ⟨claimed, marked, only⟩ := setBit_spec plic.claimed (lt_def.mp known) false
        have completes : completed (.write ad v : Event cfg) = some v.toNat := by
          rw [completed, if_neg hp, if_neg pends, if_neg enables, if_pos ⟨hc, register, known⟩]
        have service irq (kept : completed (.write ad v : Event cfg) ≠ some irq) (serving : plic.inService irq) :
            (({ plic with claimed } : SifivePlic cfg).service v.toNat false).inService irq := by
          have other : irq ≠ v.toNat := fun same => kept (by rw [completes, same])
          simpa [SifivePlic.service, other] using serving
        simpa [setClaimed, marked] using (service_wf wf plic.pending only).does he service
      · exact wf.idle he
    · exact wf.idle he
  · exact wf.idle he

theorem step_does (wf : plic.Wf) (e : Event cfg) : ∃ next, plic.step e = some next ∧ Does plic e next := by
  cases e with
  | read ad => exact read_does wf
  | write ad v => exact write_does wf
  | request irq l => exact irqRequest_does wf irq l

end

section
variable {plic : SifivePlic cfg}

/-- A write to an enable register does not change whether a source may interrupt the context, if it has a line. -/
def Careful (plic : SifivePlic cfg) (event : Event cfg) : Prop :=
  ∀ c word value, enableOf event = some (c, word, value) → cfg.mode c ≠ .u →
    ((∃ irq, plic.Waiting c irq ∧ plic.enabled c irq) ↔
        ∃ irq, plic.Waiting c irq ∧ (if irq / 32 = word then value.getLsbD (irq % 32) else plic.enabled c irq))

theorem setEnable_enabled {c : Fin cfg.numAddrs} {w : Nat} (hb : w < cfg.bitfieldWords) {v : W32}
    {c' : Fin cfg.numAddrs} {irq : Nat} (hk : irq < cfg.sources) : (plic.setEnable c w v).enabled c' irq =
      if c' = c ∧ irq / 32 = w then v.getLsbD (irq % 32) else plic.enabled c' irq := by
  simp only [enabled, setEnable]
  by_cases hh : c' = c ∧ irq / 32 = w
  · rw [if_pos hh, hh.1, hh.2, Cells.read_stored _ (index_lt c hb), Option.getD_some]
  · rw [if_neg hh, Cells.read_change, if_neg]
    intro hs
    obtain ⟨hc, hw⟩ := index_inj (word_lt hk) hb hs
    exact hh ⟨Fin.ext hc, hw⟩

theorem deliverable_setEnable (plic : SifivePlic cfg) (c : Fin cfg.numAddrs) {w : Nat}
    (hb : w < cfg.bitfieldWords) (v : W32) (c' : Fin cfg.numAddrs) (irq : Nat) :
    (plic.setEnable c w v).Deliverable c' irq ↔ plic.Waiting c' irq ∧
      (if c' = c ∧ irq / 32 = w then v.getLsbD (irq % 32) else plic.enabled c' irq) := by
  constructor
  · rintro ⟨⟨hk, hp, hu, ha⟩, he⟩
    rw [setEnable_enabled hb hk] at he
    exact ⟨⟨hk, hp, hu, ha⟩, he⟩
  · rintro ⟨⟨hk, hp, hu, ha⟩, he⟩
    refine ⟨⟨hk, hp, hu, ha⟩, ?_⟩
    rwa [setEnable_enabled hb hk]

theorem line_isSome (plic : SifivePlic cfg) {c : Fin cfg.numAddrs} (hm : cfg.mode c ≠ .u) :
    ∃ high, plic.line c = some high := by
  have hp := hartid_lt c
  unfold line
  cases mode : cfg.mode c with
  | m => exact ⟨_, dif_pos hp⟩
  | s => exact ⟨_, dif_pos hp⟩
  | u => exact absurd mode hm

theorem Wf.claims (wf : plic.Wf) (c : Fin cfg.numAddrs) : ∃ irq, plic.claimedIrq c = some irq ∧
    (irq ≠ 0 ↔ ∃ s, plic.Deliverable c s) ∧ (irq ≠ 0 → plic.inService irq = false) := by
  obtain ⟨irq, f, se⟩ := claimedIrq_selects wf.unused c
  refine ⟨irq, f, se.ne_zero_iff, fun some => ?_⟩
  rw [← wf.served]
  exact (se.foremost some).waits.unclaimed

theorem Does.lined_iff {event : Event cfg} {nx : SifivePlic cfg} (hd : Does plic event nx)
    (hl : ∀ c, plic.Lined c) : (∀ c, nx.Lined c) ↔ Careful plic event := by
  cases he : enableOf event with
  | none =>
    refine iff_of_true ?_ fun c w v hh => by rw [he] at hh; cases hh
    rcases hd.lines he with same | set
    · rwa [same]
    · exact set
  | some t =>
    obtain ⟨c, w, v⟩ := t
    obtain ⟨bound, same⟩ := hd.enables c w v he
    have hh (irq : Nat) := deliverable_setEnable plic c bound v c irq
    have hb : (∃ irq, plic.Deliverable c irq) ↔ ∃ irq, plic.Waiting c irq ∧ plic.enabled c irq :=
      exists_congr fun irq => ⟨fun hw => ⟨hw.toWaiting, hw.enabled⟩, fun hw => ⟨hw.1, hw.2⟩⟩
    simp only [true_and] at hh
    constructor
    · intro hk c' w' v' t hm
      rw [he] at t
      cases t
      obtain ⟨high, hs⟩ := line_isSome plic hm
      have hn := hk c high (by rw [same]; exact hs)
      rw [same] at hn
      rw [← hb, ← hl c high hs, hn]
      exact exists_congr hh
    · intro hc c' high hs
      rw [same] at hs ⊢
      have hs : plic.line c' = some high := hs
      rw [hl c' high hs]
      by_cases ho : c' = c
      · subst ho
        have hm : cfg.mode c' ≠ .u := by
          intro hu
          rw [line, hu] at hs
          cases hs
        rw [hb, hc c' w v he hm]
        exact exists_congr fun irq => (hh irq).symm
      · refine exists_congr fun irq => ?_
        rw [deliverable_setEnable plic c bound, if_neg fun hb2 => ho hb2.1]
        exact ⟨fun hw => ⟨hw.toWaiting, hw.enabled⟩, fun hw => ⟨hw.1, hw.2⟩⟩

theorem init_wf (cfg : Config) : (init cfg).Wf := by
  refine ⟨?_, fun irq => ?_⟩
  · simp only [prioOf, Cells.read]
    split <;> rfl
  · simp only [init, Bits.has, Cells.read]
    split <;> simp

theorem init_lined (c : Fin cfg.numAddrs) : (init cfg).Lined c := by
  intro h hs
  have place := hartid_lt c
  have hl : h = false := by
    unfold line at hs
    cases hm : cfg.mode c with
    | m => rw [hm] at hs; exact (Option.some.inj ((dif_pos place).symm.trans hs)).symm
    | s => rw [hm] at hs; exact (Option.some.inj ((dif_pos place).symm.trans hs)).symm
    | u => rw [hm] at hs; cases hs
  rw [hl]
  apply iff_of_false Bool.false_ne_true
  rintro ⟨irq, hw⟩
  have hp := hw.pending
  simp only [init, Bits.has, Cells.read] at hp
  split at hp <;> simp at hp

theorem after_does (wf : plic.Wf) (event : Event cfg) : Does plic event (plic.after event) := by
  obtain ⟨next, steps, does⟩ := step_does wf event
  rw [after, steps]
  exact does

theorem lines_exact_iff (cfg : Config) (events : List (Event cfg)) :
    StepsMeet after (fun plic event => ∃ next, plic.step event = some next ∧ next.Exact) (init cfg) events ↔
      StepsMeet after Careful (init cfg) events := by
  have keeps (plic : SifivePlic cfg) (event : Event cfg) (exact : plic.Wf ∧ ∀ c, plic.Lined c)
      (careful : Careful plic event) : (plic.after event).Wf ∧ ∀ c, (plic.after event).Lined c := by
    have does := after_does exact.1 event
    exact ⟨does.wf, (does.lined_iff exact.2).mpr careful⟩
  refine stepsMeet_iff_of_invariant (fun plic event exact => ?_) keeps ⟨init_wf cfg, init_lined⟩
  obtain ⟨next, steps, does⟩ := step_does exact.1 event
  rw [steps, ← does.lined_iff exact.2]
  constructor
  · rintro ⟨_, same, exact⟩
    cases same
    exact exact.line
  · intro lined
    exact ⟨next, rfl, lined, does.wf.claims⟩

theorem run_wf (wf : plic.Wf) (events : List (Event cfg)) : (run after plic events).Wf :=
  run_invariant (fun _ event wf => (after_does wf event).wf) wf

/-- A source stays in service until an event completes it. -/
theorem run_inService {irq : Nat} {events : List (Event cfg)} (wf : plic.Wf) (serving : plic.inService irq)
    (kept : ∀ event ∈ events, completed event ≠ some irq) : (run after plic events).inService irq := by
  induction events generalizing plic with
  | nil => exact serving
  | cons event events ih =>
    have does := after_does wf event
    apply ih does.wf (does.service irq (kept event List.mem_cons_self) serving)
    intro later member
    exact kept later (List.mem_cons_of_mem event member)

/-- After any accesses and requests, a claim hands out the most urgent source that may interrupt the context, if there is
  one, and whatever happens then, no context can be given the source again before it is completed. -/
theorem claim_most_urgent (cfg : Config) (events : List (Event cfg)) (context : Fin cfg.numAddrs) :
    let plic := run after (init cfg) events
    ∃ irq next, plic.claim context = some (irq, next) ∧ Selects (plic.Deliverable context) plic.urgency irq ∧
      (irq ≠ 0 → plic.inService irq = false ∧ ∀ later : List (Event cfg), (∀ event ∈ later, completed event ≠ some irq) →
        (run after next later).inService irq ∧ ∀ other, ¬(run after next later).Deliverable other irq) := by
  intro plic
  have wf : plic.Wf := run_wf (init_wf cfg) events
  obtain ⟨irq, next, claims, selects, kept, -, serves⟩ := claim_spec wf context
  refine ⟨irq, next, claims, selects, fun nonzero => ⟨?_, fun later uncompleted => ?_⟩⟩
  · rw [← wf.served]
    exact (selects.foremost nonzero).waits.unclaimed
  · have serving : (run after next later).inService irq := by
      apply run_inService kept _ uncompleted
      rw [serves]
      simp [nonzero]
    refine ⟨serving, fun other deliverable => ?_⟩
    have unclaimed := deliverable.unclaimed
    rw [(run_wf kept later).served, serving] at unclaimed
    cases unclaimed

def small : Config where
  addrs := [(0, .m)]
  harts := 1
  numSources := 7
  numPriorities := 7
  priorityBase := 0
  pendingBase := 0x1000
  enableBase := 0x2000
  enableStride := 0x80
  contextBase := 0x200000
  contextStride := 0x1000
  distinct := List.nodup_singleton _
  inRange := fun _ member => List.mem_singleton.mp member ▸ Nat.one_pos
  nonempty := fun zero => nomatch congrArg BitVec.toNat zero
  few := Nat.le_of_ble_eq_true rfl
  divisor := fun zero => nomatch congrArg BitVec.toNat zero

def hart : Fin small.numAddrs := ⟨0, Nat.le_of_ble_eq_true rfl⟩
def device : Fin small.sources := ⟨1, Nat.le_of_ble_eq_true rfl⟩

theorem lines_stale : let enabled := run after (init small) [.write 4 1, .request device 1, .write 0x2000 2]
    let d := run after (init small) [.write 4 1, .write 0x2000 2, .request device 1, .write 0x2000 0]
    (enabled.claimedIrq hart = some 1 ∧ enabled.line hart = some false) ∧
      d.claimedIrq hart = some 0 ∧ d.line hart = some true := by
  decide +kernel

end
end RiscvEmulators.Qemu.SifivePlic
