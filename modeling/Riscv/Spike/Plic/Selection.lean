import Riscv.Interrupt.Select
import Riscv.Spike.Plic.Model
import Mathlib.Data.List.Nodup

namespace RiscvEmulators.Spike.Plic
open Store Interrupt OrderDual List Option
variable {cfg : Config}

namespace Config

theorem mem_contextsFrom {h0 : Nat} {h : List Bool} {co : Nat × Bool}
    (hm : co ∈ contextsFrom h0 h) : h0 ≤ co.1 ∧ co.1 < h0 + h.length := by
  induction h generalizing h0 with
  | nil => cases hm
  | cons s h ih =>
    have hl (hh : co ∈ contextsFrom (h0 + 1) h) : h0 ≤ co.1 ∧ co.1 < h0 + (h.length + 1) := by
      have hb := ih hh
      omega
    rcases mem_cons.mp hm with rfl | hr
    · exact ⟨Nat.le_refl _, by simp⟩
    · cases s with
      | false => exact hl hr
      | true =>
        rcases mem_cons.mp hr with rfl | hr
        · exact ⟨Nat.le_refl _, by simp⟩
        · exact hl hr

theorem contextsFrom_nodup (h0 : Nat) (harts : List Bool) : (contextsFrom h0 harts).Nodup := by
  induction harts generalizing h0 with
  | nil => exact nodup_nil
  | cons s harts ih =>
    have hl (m : Bool) : (h0, m) ∉ contextsFrom (h0 + 1) harts := by
      intro hm
      have hb := mem_contextsFrom hm
      omega
    cases s with
    | false => exact nodup_cons.mpr ⟨hl true, ih (h0 + 1)⟩
    | true =>
      refine nodup_cons.mpr ⟨fun hm => ?_, nodup_cons.mpr ⟨hl false, ih (h0 + 1)⟩⟩
      rcases mem_cons.mp hm with hs | hr
      · cases hs
      · exact hl true hr

theorem proc_lt (c : Fin cfg.count) : cfg.proc c < cfg.harts.length := by
  have h := mem_contextsFrom (get_mem (contextsFrom 0 cfg.harts) c)
  rw [Nat.zero_add] at h
  exact h.2

theorem context_unique {c c' : Fin cfg.count} (hp : cfg.proc c = cfg.proc c') (hm : cfg.mmode c = cfg.mmode c') :
    c = c' :=
  nodup_iff_injective_get.mp (contextsFrom_nodup 0 cfg.harts) (Prod.ext hp hm)

theorem numIdsWord_le (hf : cfg.numIds ≤ 1024) : cfg.numIdsWord ≤ 32 ∧ cfg.numIds ≤ cfg.numIdsWord * 32 := by
  unfold numIds at hf ⊢
  unfold numIdsWord
  have hs : (cfg.ndev + 1 + 31).toNat = (cfg.ndev + 1).toNat + 31 := by
    rw [BitVec.toNat_add, Nat.mod_eq_of_lt]
    · rfl
    · show _ + 31 < _
      omega
  omega

end Config

section
variable {c : Context}

def Context.prioOf (c : Context) (id : Nat) : BitVec 8 := (c.pendingPriority.read id).getD 0

def Context.Waits (cfg : Config) (c : Context) (id : Nat) : Prop :=
  id < cfg.numIds ∧ c.pending.has id ∧ c.claimed.has id = false

def Context.urgency (c : Context) (id : Nat) : Natᵒᵈ := OrderDual.toDual (c.prioOf id).toNat

structure Best.Leads (cfg : Config) (c : Context) (n : Nat) (best : Best) : Prop where
  selects : Selects (fun id => id < n ∧ c.Waits cfg id) c.urgency best.id
  prio : best.prio = if best.id = 0 then 0 else c.prioOf best.id

theorem urgency_lt {i j : Nat} : c.urgency i < c.urgency j ↔ c.prioOf j < c.prioOf i := by
  exact toDual_lt_toDual

theorem bestOfWord_leads (few : cfg.numIds ≤ 1024) (unset : c.pending.has 0 = false) {b : Best} {i : Nat}
    (hb : i < 32) (hl : b.Leads cfg c (i * 32)) :
    ∃ b', bestOfWord cfg c b i = some b' ∧ b'.Leads cfg c ((i + 1) * 32) := by
  have hwo (bs : Bits 32) : bs.read i = some (bs ⟨i, hb⟩) := bs.read_val ⟨i, hb⟩
  have bit (bs : Bits 32) {j : Nat} (hs : j < 32) : (bs ⟨i, hb⟩).getLsbD j = bs.has (i * 32 + j) := by
    rw [Nat.mul_comm, bs.has_word ⟨i, hb⟩ hs]
  unfold bestOfWord
  simp only [hwo, bind_eq_bind, bind_some]
  split
  · rename_i he
    refine ⟨b, rfl, ?_, hl.prio⟩
    refine hl.selects.congr (fun id => and_congr_left fun hw => ?_) fun _ _ => rfl
    -- no source of the word is pending
    have ho : id / 32 ≠ i := by
      intro hh
      have hp := hw.2.1
      rw [Bits.has_eq _ (hh ▸ hb)] at hp
      simp only [hh, he] at hp
      simp at hp
    omega
  · have turn (j : Nat) (b : Best) (hs : j < 32) (hl : b.Leads cfg c (i * 32 + j)) :
        ∃ b', (if cfg.numIds ≤ i * 32 + j ∨ (c.pending ⟨i, hb⟩).getLsbD j = false
            ∨ (c.claimed ⟨i, hb⟩).getLsbD j then some b
          else do
            let p ← c.pendingPriority.read (i * 32 + j)
            return if b.id = 0 ∨ b.prio < p then ⟨i * 32 + j, p⟩ else b : Option Best) = some b'
          ∧ b'.Leads cfg c (i * 32 + (j + 1)) := by
      rw [bit c.pending hs, bit c.claimed hs]
      split
      · rename_i hi
        refine ⟨b, rfl, hl.selects.skip ?_, hl.prio⟩
        rintro ⟨hk, hp, hu⟩
        rcases hi with past | ha | hc
        · omega
        · rw [hp] at ha
          cases ha
        · rw [hu] at hc
          cases hc
      · rename_i hw
        obtain ⟨hk, hp, hu⟩ := not_or.mp hw |>.imp id not_or.mp
        have hw : c.Waits cfg (i * 32 + j) :=
          ⟨Nat.lt_of_not_le hk, Bool.of_not_eq_false hp, Bool.eq_false_iff.mpr hu⟩
        have nonzero : i * 32 + j ≠ 0 := by
          intro hz
          rw [hz, unset] at hp
          exact hp rfl
        have hr : c.pendingPriority.read (i * 32 + j) = some (c.prioOf (i * 32 + j)) := by
          rw [Context.prioOf, Cells.read, dif_pos (show i * 32 + j < 1024 by omega), getD_some]
        have ht : (b.id = 0 ∨ b.prio < c.prioOf (i * 32 + j)) ↔ (b.id = 0 ∨ c.urgency (i * 32 + j) < c.urgency b.id) := by
          rw [urgency_lt, hl.prio]
          by_cases none : b.id = 0 <;> simp [none]
        have hn := hl.selects.next hw nonzero
        rw [hr]
        simp only [bind_eq_bind, bind_some, ht]
        refine ⟨_, rfl, ?_⟩
        by_cases hf : b.id = 0 ∨ c.urgency (i * 32 + j) < c.urgency b.id
        · rw [if_pos hf] at hn
          rw [if_pos hf]
          exact ⟨hn, by rw [if_neg nonzero]⟩
        · rw [if_neg hf] at hn
          rw [if_neg hf]
          exact ⟨hn, hl.prio⟩
    rw [show (i + 1) * 32 = i * 32 + 32 by omega]
    exact foldlM_range (fun j b => Best.Leads cfg c (i * 32 + j) b) hl turn

def Context.Offered (cfg : Config) (c : Context) (id : Nat) : Prop :=
  c.Waits cfg id ∧ c.priorityThreshold < c.prioOf id

theorem contextBestPending_selects (hf : cfg.numIds ≤ 1024) (hu : c.pending.has 0 = false) :
    ∃ id, contextBestPending cfg c = some id ∧ Selects (c.Offered cfg) c.urgency id := by
  obtain ⟨words, hc⟩ := Config.numIdsWord_le hf
  have start : Best.Leads cfg c (0 * 32) ⟨0, 0⟩ := ⟨selects_start, rfl⟩
  obtain ⟨b, hs, hl⟩ := foldlM_range (n := cfg.numIdsWord)
    (fun i b => Best.Leads cfg c (i * 32) b) start
    fun i b hb hl => bestOfWord_leads hf hu (Nat.lt_of_lt_of_le hb words) hl
  have all : Selects (c.Waits cfg) c.urgency b.id :=
    hl.selects.finish fun id hw => Nat.lt_of_lt_of_le hw.1 hc
  have limit := all.limit (toDual c.priorityThreshold.toNat)
  have ha (id : Nat) : c.urgency id < toDual c.priorityThreshold.toNat ↔ c.priorityThreshold < c.prioOf id := by
    exact toDual_lt_toDual
  have hk : (b.id ≠ 0 ∧ c.urgency b.id < toDual c.priorityThreshold.toNat) ↔
      ¬b.prio ≤ c.priorityThreshold := by
    rw [ha, hl.prio]
    by_cases hn : b.id = 0
    · simp [hn]
    · simp [hn]
  refine ⟨_, ?_, limit.congr (fun id => and_congr_right fun _ => ha id) fun _ _ => rfl⟩
  unfold contextBestPending
  rw [hs]
  simp only [hk]
  split <;> simp [*]

end
end RiscvEmulators.Spike.Plic
