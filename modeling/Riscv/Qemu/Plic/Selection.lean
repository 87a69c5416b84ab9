import Riscv.Interrupt.Select
import Riscv.Qemu.Plic.Model
import Mathlib.Data.List.Nodup

namespace RiscvEmulators.Qemu.SifivePlic
open Store Interrupt Option List

theorem parseHartConfig_spec {te : List Char} {h0 : Nat} {m : List PlicMode} {a : List (Nat × PlicMode)}
    {h : Nat} (p : parseHartConfig te h0 m = some (a, h)) :
    a.Nodup ∧ (∀ ad ∈ a, h0 ≤ ad.1 ∧ ad.1 < h ∧ (ad.1 = h0 → ad.2 ∉ m)) ∧ h0 ≤ h ∧ (m ≠ [] → h0 < h) := by
  induction te generalizing h0 m a h with
  | nil =>
    cases p
    refine ⟨nodup_nil, nofun, ?_, fun some => ?_⟩
    · split <;> omega
    · rw [if_neg some]
      exact Nat.lt_succ_self h0
  | cons c te ih =>
    rw [parseHartConfig] at p
    split at p
    · split at p
      · rename_i none
        obtain ⟨n, pl, mo, -⟩ := ih p
        subst none
        exact ⟨n, pl, mo, fun some => absurd rfl some⟩
      · obtain ⟨n, pl, mo, -⟩ := ih p
        refine ⟨n, fun ad me => ?_, Nat.le_of_succ_le mo, fun _ => mo⟩
        have pla := pl ad me
        exact ⟨Nat.le_of_succ_le pla.1, pla.2.1, fun s => absurd pla.1 (by omega)⟩
    · obtain ⟨md, -, p⟩ := bind_eq_some_iff.mp p
      split at p
      · cases p
      · rename_i new
        obtain ⟨⟨later, t⟩, r, p⟩ := bind_eq_some_iff.mp p
        cases p
        obtain ⟨n, pl, mo, u⟩ := ih r
        have f : (h0, md) ∉ later := fun me => (pl _ me).2.2 rfl mem_cons_self
        refine ⟨nodup_cons.mpr ⟨f, n⟩, fun ad me => ?_, mo, fun _ => u (cons_ne_nil _ _)⟩
        rcases mem_cons.mp me with rfl | me
        · exact ⟨Nat.le_refl _, u (cons_ne_nil _ _), fun _ => new⟩
        · have pla := pl ad me
          exact ⟨pla.1, pla.2.1, fun s old => pla.2.2 s (mem_cons_of_mem _ old)⟩

theorem parseHartConfig_config {text : List Char} {addrs : List (Nat × PlicMode)} {harts : Nat}
    (parsed : parseHartConfig text 0 [] = some (addrs, harts)) : addrs.Nodup ∧ ∀ addr ∈ addrs, addr.1 < harts := by
  obtain ⟨distinct, placed, -⟩ := parseHartConfig_spec parsed
  exact ⟨distinct, fun addr member => (placed addr member).2.1⟩

theorem two_harts_distinct : [(0, PlicMode.m), (1, .m), (1, .s)].Nodup ∧
    ∀ ad ∈ [(0, PlicMode.m), (1, .m), (1, .s)], ad.1 < 2 :=
  parseHartConfig_config (by decide : parseHartConfig [',', 'M', ',', ',', 'M', 'S', ','] 0 [] = some (_, 2))

variable {cfg : Config}

namespace Config

theorem hartid_lt (c : Fin cfg.numAddrs) : cfg.hartid c < cfg.harts := cfg.inRange _ (get_mem cfg.addrs c)

theorem context_unique {c c' : Fin cfg.numAddrs} (hh : cfg.hartid c = cfg.hartid c') (hm : cfg.mode c = cfg.mode c') :
    c = c' :=
  nodup_iff_injective_get.mp cfg.distinct (Prod.ext hh hm)

theorem index_lt (c : Fin cfg.numAddrs) {i : Nat} (hb : i < cfg.bitfieldWords) :
    c * cfg.bitfieldWords + i < cfg.bitfieldWords * cfg.numAddrs := by
  have hr : (c.val + 1) * cfg.bitfieldWords ≤ cfg.numAddrs * cfg.bitfieldWords := Nat.mul_le_mul_right _ c.isLt
  rw [Nat.mul_comm cfg.bitfieldWords]
  rw [Nat.succ_mul] at hr
  omega

theorem index_inj {c c' i i' : Nat} (hb : i < cfg.bitfieldWords) (hb' : i' < cfg.bitfieldWords)
    (hs : c * cfg.bitfieldWords + i = c' * cfg.bitfieldWords + i') : c = c' ∧ i = i' := by
  have hp : 0 < cfg.bitfieldWords := Nat.zero_lt_of_lt hb
  have hq := congrArg (· / cfg.bitfieldWords) hs
  simp only [Nat.mul_comm _ cfg.bitfieldWords, Nat.mul_add_div hp, Nat.div_eq_of_lt hb, Nat.div_eq_of_lt hb'] at hq
  subst hq
  exact ⟨rfl, Nat.add_left_cancel hs⟩

end Config

section
variable (plic : SifivePlic cfg)

def prioOf (irq : Nat) : W32 := (plic.sourcePriority.read irq).getD 0

def enabled (c : Fin cfg.numAddrs) (irq : Nat) : Bool :=
  ((plic.enable.read (c * cfg.bitfieldWords + irq / 32)).getD 0).getLsbD (irq % 32)

structure Waiting (c : Fin cfg.numAddrs) (irq : Nat) : Prop where
  known : irq < cfg.sources
  pending : plic.pending.has irq
  unclaimed : plic.claimed.has irq = false
  above : plic.targetPriority c < plic.prioOf irq

structure Deliverable (c : Fin cfg.numAddrs) (irq : Nat) : Prop extends plic.Waiting c irq where
  enabled : plic.enabled c irq

def urgency (irq : Nat) : Natᵒᵈ := OrderDual.toDual (plic.prioOf irq).toNat

variable {plic} {c : Fin cfg.numAddrs}

theorem urgency_lt {i j : Nat} : plic.urgency i < plic.urgency j ↔ plic.prioOf j < plic.prioOf i := by
  exact OrderDual.toDual_lt_toDual

structure Max.Leads (plic : SifivePlic cfg) (c : Fin cfg.numAddrs) (n : Nat) (max : Max) : Prop where
  selects : Selects (fun irq => irq < n ∧ plic.Deliverable c irq) plic.urgency max.irq
  prio : max.prio = if max.irq = 0 then plic.targetPriority c else plic.prioOf max.irq

theorem Max.Leads.round {max : Max} {irq : Nat} (hl : max.Leads plic c irq) (none' : plic.prioOf 0 = 0)
    (hk : irq < cfg.sources) {bit : Bool}
    (hi : bit = (plic.pending.has irq && !plic.claimed.has irq && plic.enabled c irq)) : Max.Leads plic c (irq + 1)
      (if bit ∧ max.prio < plic.prioOf irq then ⟨irq, plic.prioOf irq⟩ else max) := by
  have hd : plic.Deliverable c irq ↔ bit ∧ plic.targetPriority c < plic.prioOf irq := by
    rw [hi]
    simp only [Bool.and_eq_true, Bool.not_eq_true']
    constructor
    · intro hd
      exact ⟨⟨⟨hd.pending, hd.unclaimed⟩, hd.enabled⟩, hd.above⟩
    · rintro ⟨⟨⟨pends, hu⟩, he⟩, ha⟩
      exact ⟨⟨hk, pends, hu, ha⟩, he⟩
  by_cases hw : plic.Deliverable c irq
  · have hp : irq ≠ 0 := by
      intro hz
      have ha := hw.above
      rw [hz, none'] at ha
      exact BitVec.not_lt_zero ha
    have hn := hl.selects.next hw hp
    have ht : (bit ∧ max.prio < plic.prioOf irq) ↔ (max.irq = 0 ∨ plic.urgency irq < plic.urgency max.irq) := by
      rw [urgency_lt, hl.prio]
      have hb := hd.mp hw
      by_cases first : max.irq = 0 <;> simp [first, hb]
    rw [if_congr ht rfl rfl]
    by_cases hf : max.irq = 0 ∨ plic.urgency irq < plic.urgency max.irq
    · rw [if_pos hf] at hn ⊢
      exact ⟨hn, by rw [if_neg hp]⟩
    · rw [if_neg hf] at hn ⊢
      exact ⟨hn, hl.prio⟩
  · -- what the search has found is above the threshold, so it is not given up for this source
    have keeps : ¬(bit ∧ max.prio < plic.prioOf irq) := by
      rintro ⟨hs, ha⟩
      refine hw (hd.mpr ⟨hs, ?_⟩)
      rw [hl.prio] at ha
      split at ha
      · exact ha
      · rename_i hfo
        exact BitVec.lt_trans (hl.selects.foremost hfo).waits.2.above ha
    rw [if_neg keeps]
    exact ⟨hl.selects.skip hw, hl.prio⟩

theorem maxOfWord_leads (hu : plic.prioOf 0 = 0) {max : Max} {i : Nat} (hb : i < cfg.bitfieldWords)
    (hl : max.Leads plic c (i * 32)) : ∃ m', plic.maxOfWord c max i = some m' ∧ m'.Leads plic c ((i + 1) * 32) := by
  have hi := Config.index_lt c hb
  have hr : plic.enable.read (c * cfg.bitfieldWords + i) = some (plic.enable ⟨_, hi⟩) := dif_pos hi
  have reads (bs : Bits cfg.bitfieldWords) : bs.read i = some (bs ⟨i, hb⟩) := bs.read_val ⟨i, hb⟩
  have bit {j : Nat} (hs : j < 32) : (plic.pending ⟨i, hb⟩ &&& ~~~plic.claimed ⟨i, hb⟩ &&&
      plic.enable ⟨_, hi⟩).getLsbD j = (plic.pending.has (i * 32 + j) && !plic.claimed.has (i * 32 + j) &&
        plic.enabled c (i * 32 + j)) := by
    have hwo : (i * 32 + j) / 32 = i := by omega
    have hp : (i * 32 + j) % 32 = j := by omega
    have has (bs : Bits cfg.bitfieldWords) : bs.has (i * 32 + j) = (bs ⟨i, hb⟩).getLsbD j := by
      rw [Nat.mul_comm]
      exact bs.has_word ⟨i, hb⟩ hs
    rw [enabled, hwo, hp, hr, has, has]
    simp [hs]
  unfold maxOfWord
  simp only [reads, hr, bind_eq_bind, bind_some]
  split
  · rename_i he
    refine ⟨max, rfl, ?_, hl.prio⟩
    refine hl.selects.congr (fun irq => and_congr_left fun hw => ?_) fun _ _ => rfl
    -- no source of the word is waiting
    have ho : irq / 32 ≠ i := by
      intro hh
      have hh : irq = i * 32 + irq % 32 := by omega
      have set := bit (Nat.mod_lt irq (by decide))
      rw [← hh, he, hw.pending, hw.unclaimed, hw.enabled] at set
      simp at set
    omega
  · generalize size : (if i = cfg.bitfieldWords - 1 then cfg.sources - (cfg.bitfieldWords - 1) * 32 else 32) = num
    have hw2 : cfg.bitfieldWords = (cfg.sources + 31) / 32 := rfl
    have width : num ≤ 32 ∧ i * 32 + num ≤ cfg.sources ∧ (i * 32 + num = cfg.sources ∨ num = 32) := by
      split at size <;> omega
    have ht (j : Nat) (max : Max) (below : j < num) (hl : max.Leads plic c (i * 32 + j)) : ∃ m',
        ((plic.sourcePriority.read (i * 32 + j)).bind fun p =>
            some (if (plic.pending ⟨i, hb⟩ &&& ~~~plic.claimed ⟨i, hb⟩ &&& plic.enable ⟨_, hi⟩).getLsbD j ∧
              max.prio < p then ⟨i * 32 + j, p⟩ else max)) = some m' ∧ m'.Leads plic c (i * 32 + (j + 1)) := by
      have hk : i * 32 + j < cfg.sources := by omega
      have hr2 : plic.sourcePriority.read (i * 32 + j) = some (plic.prioOf (i * 32 + j)) := by
        rw [prioOf, Cells.read, dif_pos hk, getD_some]
      rw [hr2]
      exact ⟨_, rfl, hl.round hu hk (bit (by omega))⟩
    obtain ⟨m', loop, hd⟩ := foldlM_range (fun j max => Max.Leads plic c (i * 32 + j) max) hl ht
    refine ⟨m', loop, ?_, hd.prio⟩
    refine hd.selects.congr (fun irq => and_congr_left fun hw => ?_) fun _ _ => rfl
    have hk := hw.known
    omega

theorem claimedIrq_selects (hu : plic.prioOf 0 = 0) (c : Fin cfg.numAddrs) :
    ∃ irq, plic.claimedIrq c = some irq ∧ Selects (plic.Deliverable c) plic.urgency irq := by
  have start : Max.Leads plic c (0 * 32) ⟨0, plic.targetPriority c⟩ := ⟨selects_start, rfl⟩
  obtain ⟨max, hs, hl⟩ := foldlM_range (n := cfg.bitfieldWords)
    (fun i max => Max.Leads plic c (i * 32) max) start fun i max hb hl => maxOfWord_leads hu hb hl
  refine ⟨max.irq, ?_, hl.selects.finish fun irq hw => ?_⟩
  · unfold claimedIrq
    rw [Cells.read_val]
    simp only [bind_eq_bind, bind_some, hs]
    rfl
  · have hk := hw.known
    unfold Config.bitfieldWords
    omega

end
end RiscvEmulators.Qemu.SifivePlic
