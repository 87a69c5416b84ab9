import Riscv.Qemu.Imsic.Files
import Riscv.Transition.Run

namespace RiscvEmulators.Qemu.Imsic
open Store Interrupt Transition BitVec
variable {cfg : Config} {imsic next last : Imsic cfg} {page : Fin cfg.numPages}

namespace Access
variable (access : Access)

def file (cfg : Config) : Option (Fin cfg.numPages) :=
  match access.csr with
  | .m => if cfg.mmode then some cfg.firstPage else none
  | .s => if cfg.mmode then none else some cfg.firstPage
  | .vs =>
    if cfg.mmode then none
    else if bound : access.vgein ≠ 0 ∧ access.vgein.toNat < cfg.numPages then some ⟨access.vgein.toNat, bound.2⟩
    else none

def Clears (i : Nat) : Prop :=
  ∃ num b, access.isel.toNat = 0x80 + num ∧ num < 64 ∧ (access.rv64 → num % 2 = 0) ∧ b < access.xlen ∧
    i = 32 * num + b ∧ access.wrMask.getLsbD b ∧ access.newVal.getLsbD b = false

def fields (csr : Csr) (vgein : BitVec 6) (rv64 : Bool) : W32 :=
  (BitVec.ofNat 32 (if rv64 then 64 else 32) &&& 0xff) <<< 24 |||
    ((if csr = .vs then vgein.setWidth 32 else 0) &&& 0x3f) <<< 20 |||
    ((if csr = .vs then 1 else 0 : W32) &&& 0x1) <<< 18 ||| ((if csr = .m then prvM else prvS) &&& 0x3) <<< 16

theorem fields_decode {csr : Csr} {r : Bool} : ∀ v : BitVec 6,
    iregPriv (fields csr v r) = (if csr = .m then prvM else prvS) ∧
    iregVirt (fields csr v r) = (if csr = .vs then 1 else 0) ∧
    iregVgein (fields csr v r) = (if csr = .vs then v.setWidth 32 else 0) ∧
    ((csr = .vs → v.toNat < 16) → (iregXlen (fields csr v r)).toNat = if r then 64 else 32) ∧
    fields csr v r &&& 0xffff = 0 := by
  cases csr <;> cases r <;> decide +kernel

theorem reg_eq : access.reg = fields access.csr access.vgein access.rv64 ||| access.isel.setWidth 32 &&& 0xffff := by
  simp [reg, makeIreg, fields, xlen]

theorem low_shift {k : Nat} (ha : 16 ≤ k) : (access.isel.setWidth 32 &&& 0xffff : W32) >>> k = 0 := by
  apply eq_of_toNat_eq
  have hs : (access.isel.setWidth 32 &&& 0xffff : W32).toNat < 2 ^ 16 := by
    exact Nat.lt_of_le_of_lt Nat.and_le_right (by decide)
  have hp : 2 ^ 16 ≤ 2 ^ k := Nat.pow_le_pow_right (by decide) ha
  rw [toNat_ushiftRight, Nat.shiftRight_eq_div_pow, Nat.div_eq_of_lt (Nat.lt_of_lt_of_le hs hp)]
  rfl

theorem reg_shift {k : Nat} (h : 16 ≤ k) : access.reg >>> k = fields access.csr access.vgein access.rv64 >>> k := by
  rw [reg_eq, ushiftRight_or_distrib, access.low_shift h]
  exact or_zero

theorem reg_isel : (iregIsel access.reg).toNat = access.isel.toNat := by
  obtain ⟨-, -, -, -, hl⟩ := fields_decode access.vgein
  have ho : iregIsel access.reg = access.isel.setWidth 32 &&& 0xffff := by
    rw [iregIsel, reg_eq]
    apply eq_of_getLsbD_eq
    intro i _
    have hc : (fields access.csr access.vgein access.rv64 &&& 0xffff).getLsbD i = false :=
      (congrArg (·.getLsbD i) hl).trans getLsbD_zero
    simp only [getLsbD_and, getLsbD_or] at hc ⊢
    rw [Bool.and_or_distrib_right, hc, Bool.false_or, Bool.and_assoc, Bool.and_self]
  have hs := access.isel.isLt
  rw [ho, toNat_and, toNat_setWidth, Nat.mod_eq_of_lt (show access.isel.toNat < 2 ^ 32 by omega)]
  show access.isel.toNat &&& 2 ^ 16 - 1 = _
  rw [Nat.and_two_pow_sub_one_eq_mod, Nat.mod_eq_of_lt hs]

/-- `AIA_MAKE_IREG` lets the upper bits of a guest's number run into the field of the width, so the number is small. -/
theorem reg_xlen (few : cfg.numPages ≤ 16) (found : access.file cfg = some page) :
    (iregXlen access.reg).toNat = access.xlen := by
  obtain ⟨-, -, -, width, -⟩ := fields_decode access.vgein
  rw [iregXlen, access.reg_shift (by decide)]
  apply width
  intro guest
  rw [file, guest] at found
  dsimp only at found
  split at found
  · cases found
  · split at found
    · rename_i bound
      omega
    · cases found

theorem page_reg {cfg : Config} : cfg.page access.reg = access.file cfg := by
  obtain ⟨hp, hv, hg, -, -⟩ := fields_decode access.vgein
  rw [iregPriv, ← access.reg_shift (by decide)] at hp
  rw [iregVirt, ← access.reg_shift (by decide)] at hv
  rw [iregVgein, ← access.reg_shift (by decide)] at hg
  unfold Config.page file
  cases hc : access.csr with
  | m =>
    simp only [iregPriv, iregVirt, hp, hv, hc]
    cases cfg.mmode <;> rfl
  | s =>
    simp only [iregPriv, iregVirt, hp, hv, hc]
    cases cfg.mmode <;> rfl
  | vs =>
    have hn : (iregVgein access.reg).toNat = access.vgein.toNat := by
      rw [iregVgein, hg, if_pos hc, toNat_setWidth, Nat.mod_eq_of_lt (by omega)]
    have guest : iregVgein access.reg ≠ 0 ↔ access.vgein ≠ 0 := by
      rw [Ne, Ne, ← toNat_inj, ← toNat_inj, hn]
      exact Iff.rfl
    simp only [iregPriv, iregVirt, hp, hv, hc]
    cases cfg.mmode with
    | true => rfl
    | false =>
      simp only [hn, guest]
      rfl

end Access

section

variable {newVal wrMask : BitVec 64}

theorem merge_bit {old : W32} (hb : old = 0 ∨ old = 1) :
    merge old newVal (wrMask &&& 1) = 0 ∨ merge old newVal (wrMask &&& 1) = 1 := by
  unfold merge
  rcases and_one wrMask with hm | hm
  · rw [hm]
    have hn : newVal &&& 0 = 0 := and_zero
    rw [hn]
    rcases hb with hs | hs <;> rw [hs] <;> decide
  · rw [hm]
    rcases and_one newVal with hv | hv <;> rw [hv] <;>
      rcases hb with hs | hs <;> rw [hs] <;> decide

theorem storeEidelivery_changed (imsic : Imsic cfg) {page : Fin cfg.numPages} :
    Changed page imsic (imsic.storeEidelivery page newVal wrMask) := by
  refine ⟨rfl, fun _ => rfl, fun p ho => ⟨?_, rfl, fun _ _ => rfl⟩, fun hb => ?_⟩
  · exact if_neg fun same => ho (Fin.ext same)
  · have hs : (imsic.storeEidelivery page newVal wrMask).eidelivery page =
        merge (imsic.eidelivery page) newVal (wrMask &&& 1) := if_pos rfl
    rw [hs]
    exact merge_bit hb

theorem storeEithreshold_changed (imsic : Imsic cfg) {page : Fin cfg.numPages} :
    Changed page imsic (imsic.storeEithreshold page newVal wrMask) :=
  ⟨rfl, fun _ => rfl, fun _ ho => ⟨rfl, if_neg fun hs => ho (Fin.ext hs), fun _ _ => rfl⟩, id⟩

theorem setState_changed (imsic : Imsic cfg) (page : Fin cfg.numPages) {i : Fin cfg.numIrqs} (hp : i ≠ 0)
    (f : W32 → W32) : Changed page imsic (imsic.setState page i f) := by
  refine ⟨rfl, fun p => ?_, fun p ho => ⟨rfl, rfl, fun j _ => ?_⟩, id⟩
  · rw [stateAt_setState, if_neg fun hh => hp hh.2.symm]
  · rw [stateAt_setState, if_neg fun hh => ho hh.1]

theorem pending_setState (imsic : Imsic cfg) (page p : Fin cfg.numPages) (i j : Fin cfg.numIrqs)
    (f : W32 → W32) : (imsic.setState page i f).pending p j =
      if p = page ∧ j = i then (f (imsic.stateAt p j)).getLsbD 0 else imsic.pending p j := by
  rw [pending, stateAt_setState]
  split <;> rfl

theorem claim_eq (shown : imsic.topei page ≠ 0) : ∃ i : Fin cfg.numIrqs, i ≠ 0 ∧ imsic.topei page = report i ∧
    imsic.claim page (imsic.topei page) = imsic.setState page i fun state => state &&& ~~~eistatePending := by
  have hf := (imsic.topei_ne_zero page).mp shown
  have ht := imsic.topei_eq page
  rw [if_neg hf] at ht
  obtain ⟨i, hs, hi, -⟩ := File.exists_top hf
  have hp := (File.candidate_iff.mp hi).1
  rw [← hs] at ht
  have hd : (imsic.topei page >>> 16).toNat = i := by
    rw [ht]
    exact report_decodes (hs ▸ imsic.top_lt page)
  refine ⟨i, fun hz => hp (congrArg Fin.val hz), ht, ?_⟩
  unfold claim
  rw [if_pos, hd]
  · rfl
  · intro hz
    rw [hz] at hd
    exact hp hd.symm

def Keeps (removed : Fin cfg.numPages → Fin cfg.numIrqs → Prop) (imsic next : Imsic cfg) : Prop :=
  ∀ p i, i ≠ 0 → imsic.pending p i → next.pending p i ∨ removed p i

theorem Keeps.refl (r : Fin cfg.numPages → Fin cfg.numIrqs → Prop) (imsic : Imsic cfg) :
    Keeps r imsic imsic := fun _ _ _ h => .inl h

theorem Keeps.update {r : Fin cfg.numPages → Fin cfg.numIrqs → Prop} (hk : Keeps r imsic next)
    (hu : Updated page next last) : Keeps r imsic last := by
  intro p i hp set
  rcases hk p i hp set with hs | hg
  · rw [pending, (hu.alike p).states i hp]
    exact .inl hs
  · exact .inr hg

section
variable {state : W32} {newVal wrMask : BitVec 64} {xlen num : Nat}

def Cleared (page : Fin cfg.numPages) (pend : Bool) (newVal wrMask : BitVec 64) (xlen num n : Nat) (p : Fin cfg.numPages)
    (i : Fin cfg.numIrqs) : Prop :=
  p = page ∧ pend ∧ ∃ b, b < n ∧ i.val = num * xlen + b ∧ wrMask.getLsbD b ∧ newVal.getLsbD b = false

theorem Cleared.succ {pe : Bool} {n : Nat} {p : Fin cfg.numPages} {i : Fin cfg.numIrqs}
    (hc : Cleared page pe newVal wrMask xlen num n p i) : Cleared page pe newVal wrMask xlen num (n + 1) p i := by
  obtain ⟨hh, hw, b, hb, hr⟩ := hc
  exact ⟨hh, hw, b, Nat.lt_succ_of_lt hb, hr⟩

structure Passed (page : Fin cfg.numPages) (pend : Bool) (newVal wrMask : BitVec 64) (xlen num : Nat) (imsic : Imsic cfg)
    (n : Nat) (acc : BitVec 64 × Imsic cfg) : Prop where
  changed : Changed page imsic acc.2
  zero : num = 0 → acc.1.getLsbD 0 = false
  keeps : Keeps (Cleared page pend newVal wrMask xlen num n) imsic acc.2

theorem storeBit_pending {pe : Bool} (imsic : Imsic cfg) {page p : Fin cfg.numPages} {i j : Fin cfg.numIrqs} {v : Bool}
    (hs : imsic.pending p j) : (imsic.storeBit page i (if pe then eistatePending else eistateEnabled) v).pending p j ∨
      p = page ∧ j = i ∧ pe ∧ v = false := by
  rw [storeBit, pending_setState]
  split
  · rename_i hh
    cases v with
    | true =>
      left
      rw [if_pos rfl, getLsbD_or]
      exact Bool.or_eq_true _ _ ▸ .inl hs
    | false =>
      cases pe with
      | true => exact .inr ⟨hh.1, hh.2, rfl, rfl⟩
      | false =>
        left
        rw [if_neg Bool.false_ne_true, getLsbD_and]
        exact Bool.and_eq_true _ _ ▸ ⟨hs, by decide⟩
  · exact .inl hs

theorem eixBit_passed {pe : Bool} {acc : BitVec 64 × Imsic cfg} (hb : num < cfg.numIrqs / xlen) {i : Fin xlen}
    (passed : Passed page pe newVal wrMask xlen num imsic i acc) : Passed page pe newVal wrMask xlen num imsic (i + 1)
      (eixBit page (if pe then eistatePending else eistateEnabled) newVal wrMask hb acc i) := by
  obtain ⟨val, now⟩ := acc
  obtain ⟨hc, hz, hk⟩ := passed
  unfold eixBit
  dsimp only
  split
  · refine ⟨hc, hz, fun p j hp set => ?_⟩
    exact (hk p j hp set).imp_right Cleared.succ
  · rename_i hp
    refine ⟨?_, fun hf => ?_, fun p j source set => ?_⟩
    · dsimp only
      split
      · refine hc.trans (setState_changed now page (fun same => hp ?_) _)
        have hn : num * xlen + i.val = 0 := congrArg Fin.val same
        obtain ⟨zero, hs⟩ := Nat.add_eq_zero_iff.mp hn
        have source : xlen ≠ 0 := Nat.ne_of_gt (Nat.lt_of_le_of_lt (Nat.zero_le _) i.isLt)
        exact ⟨(Nat.mul_eq_zero.mp zero).resolve_right source, hs⟩
      · exact hc
    · have he : i.val ≠ 0 := fun hs => hp ⟨hf, hs⟩
      have hu (c : Prop) [Decidable c] : (if c then val ||| (1 : BitVec 64) <<< i.val else val).getLsbD 0 = false := by
        split
        · rw [getLsbD_or, hz hf]
          simp [Nat.pos_of_ne_zero he]
        · exact hz hf
      exact hu _
    · dsimp only
      rcases hk p j source set with stays | hg
      · split
        · rename_i hw
          rcases storeBit_pending now stays with kept | hr
          · exact .inl kept
          · obtain ⟨hh, same, whole, clears⟩ := hr
            exact .inr ⟨hh, whole, i, Nat.lt_succ_self _, congrArg Fin.val same, hw, clears⟩
        · exact .inl stays
      · exact .inr hg.succ

end
end

section

def Access.Removes (access : Access) (imsic : Imsic cfg) (page : Fin cfg.numPages) (i : Fin cfg.numIrqs) : Prop :=
  access.file cfg = some page ∧
    (access.isel.toNat = 0x200 ∧ access.wrMask ≠ 0 ∧ imsic.topei page = report i ∨ access.Clears i)

inductive Served (imsic : Imsic cfg) (access : Access) : Option (BitVec 64) → Imsic cfg → Prop
  | refused : Served imsic access none imsic
  | served {page : Fin cfg.numPages} {mid : Imsic cfg} {val : BitVec 64} (changed : Changed page imsic mid)
    (zero : access.isel.toNat = 0x80 ∨ access.isel.toNat = 0xc0 → val.getLsbD 0 = false)
    (keeps : Keeps (access.Removes imsic) imsic mid) : Served imsic access (some val) (mid.update page)

variable {ac : Access}

theorem eixRmw_served (file : ac.file cfg = some page) {pe : Bool} {num : Nat}
    (hn : ac.isel.toNat = (if pe then 0x80 else 0xc0) + num) (few : num < 64) :
    ∃ r next, imsic.eixRmw ac.xlen page num pe ac.newVal ac.wrMask = some (r, next) ∧ Served imsic ac r next := by
  have hw2 : ¬64 < ac.xlen := by
    unfold Access.xlen
    split <;> decide
  unfold eixRmw
  -- the number of the register, and where its first bit is
  cases hk : eixNum ac.xlen num with
  | none => exact ⟨none, imsic, rfl, .refused⟩
  | some low =>
    have hs : low * ac.xlen = 32 * num ∧ (ac.rv64 → num % 2 = 0) := by
      unfold eixNum at hk
      cases wide : ac.rv64 with
      | true =>
        rw [Access.xlen, wide] at hk ⊢
        simp only [if_true] at hk ⊢
        split at hk
        · split at hk
          · cases hk
          · cases hk
            omega
        · omega
      | false =>
        rw [Access.xlen, wide] at hk ⊢
        simp at hk
        subst hk
        exact ⟨Nat.mul_comm _ _, nofun⟩
    dsimp only
    by_cases hb : low < cfg.numIrqs / ac.xlen
    · rw [dif_pos hb, if_neg hw2]
      have hf : Passed page pe ac.newVal ac.wrMask ac.xlen low imsic 0 (0, imsic) :=
        ⟨Changed.refl page imsic, fun _ => getLsbD_zero, Keeps.refl _ imsic⟩
      have hl := foldl_finRange (Passed page pe ac.newVal ac.wrMask ac.xlen low imsic) hf
        fun i acc passed => eixBit_passed hb passed
      refine ⟨_, _, rfl, .served hl.changed (fun hf => hl.zero ?_) fun p i hp set => ?_⟩
      · have none : num = 0 := by
          split at hn <;> omega
        rw [none] at hs
        have some : ac.xlen ≠ 0 := by
          unfold Access.xlen
          split <;> decide
        exact (Nat.mul_eq_zero.mp hs.1).resolve_right some
      · rcases hl.keeps p i hp set with stays | ⟨hh, whole, b, below, place, hw, hc⟩
        · exact .inl stays
        · subst hh whole
          exact .inr ⟨file, .inr ⟨num, b, hn, few, hs.2, below, hs.1 ▸ place, hw, hc⟩⟩
    · rw [dif_neg hb]
      exact ⟨none, imsic, rfl, .refused⟩

theorem topeiRmw_served (f : ac.file cfg = some page) (n : ac.isel.toNat = 0x200) :
    Served imsic ac (some (imsic.topeiRmw page ac.wrMask).1) (imsic.topeiRmw page ac.wrMask).2 := by
  have z (val : BitVec 64) : ac.isel.toNat = 0x80 ∨ ac.isel.toNat = 0xc0 → val.getLsbD 0 = false := by
    omega
  unfold topeiRmw
  dsimp only
  by_cases c : imsic.topei page ≠ 0 ∧ ac.wrMask ≠ 0
  · obtain ⟨i, some, s, sa⟩ := claim_eq c.1
    rw [if_pos c, sa]
    refine .served (imsic.setState_changed page some _) (z _) fun p j po set => ?_
    rw [pending_setState]
    split
    · rename_i h
      rw [h.1, h.2]
      exact .inr ⟨f, .inl ⟨n, c.2, s⟩⟩
    · exact .inl set
  · rw [if_neg c]
    exact .served (Changed.refl page imsic) (z _) (Keeps.refl _ imsic)

theorem rmw_served (imsic : Imsic cfg) (few : cfg.numPages ≤ 16) :
    ∃ r next, imsic.rmw ac.reg ac.newVal ac.wrMask = some (r, next) ∧ Served imsic ac r next := by
  have hn := ac.reg_isel
  unfold rmw
  rw [ac.page_reg]
  cases hf : ac.file cfg with
  | none => exact ⟨none, imsic, rfl, .refused⟩
  | some page =>
    dsimp only
    -- of the numbers that follow, only those of the arrays show an identity by its bit
    have hp {i : W32} (same : iregIsel ac.reg = i) (ho : i.toNat ≠ 0x80 ∧ i.toNat ≠ 0xc0)
        (val : BitVec 64) : ac.isel.toNat = 0x80 ∨ ac.isel.toNat = 0xc0 → val.getLsbD 0 = false := by
      rw [← hn, same]
      rintro (first | second)
      · exact absurd first ho.1
      · exact absurd second ho.2
    by_cases hd : iregIsel ac.reg = iselectEidelivery
    · rw [if_pos hd]
      exact ⟨_, _, rfl, .served imsic.storeEidelivery_changed (hp hd (by decide) _)
        fun _ _ _ set => .inl set⟩
    rw [if_neg hd]
    by_cases ht : iregIsel ac.reg = iselectEithreshold
    · rw [if_pos ht]
      exact ⟨_, _, rfl, .served imsic.storeEithreshold_changed (hp ht (by decide) _)
        fun _ _ _ set => .inl set⟩
    rw [if_neg ht]
    by_cases top : iregIsel ac.reg = iselectTopei
    · rw [if_pos top]
      refine ⟨_, _, rfl, topeiRmw_served hf ?_⟩
      rw [← hn, top]
      rfl
    rw [if_neg top]
    have ha {b top : W32} (p : Bool) (hs : b.toNat = if p then 0x80 else 0xc0)
        (size : top.toNat = b.toNat + 63) (hi : b ≤ iregIsel ac.reg ∧ iregIsel ac.reg ≤ top) :
        ∃ r next, imsic.eixRmw (iregXlen ac.reg).toNat page (iregIsel ac.reg - b).toNat p ac.newVal
          ac.wrMask = some (r, next) ∧ Served imsic ac r next := by
      have above := le_def.mp hi.1
      have hb := le_def.mp hi.2
      rw [ac.reg_xlen few hf, toNat_sub_of_le hi.1]
      refine eixRmw_served hf ?_ (by omega)
      omega
    by_cases p : iselectEip0 ≤ iregIsel ac.reg ∧ iregIsel ac.reg ≤ iselectEip63
    · rw [if_pos p]
      exact ha true rfl rfl p
    rw [if_neg p]
    by_cases he : iselectEie0 ≤ iregIsel ac.reg ∧ iregIsel ac.reg ≤ iselectEie63
    · rw [if_pos he]
      exact ha false rfl rfl he
    rw [if_neg he]
    exact ⟨none, imsic, rfl, .refused⟩

theorem write_spec (a : Nat) (v : W32) (hi : a < cfg.numPages * mmioPageSz) :
    ∃ next, imsic.write a v = some next ∧ (next = imsic ∧ ¬(a % mmioPageSz = 0 ∧ v ≠ 0 ∧ v.toNat < cfg.numIrqs) ∨
      ∃ (page : Fin cfg.numPages) (i : Fin cfg.numIrqs), a = page * mmioPageSz ∧ v.toNat = i ∧ i ≠ 0 ∧
        next = (imsic.setState page i fun state => state ||| eistatePending).update page) := by
  have hp : a / mmioPageSz < cfg.numPages := by
    unfold mmioPageSz at hi ⊢
    omega
  unfold write
  by_cases ha : a % 4 ≠ 0
  · rw [if_pos ha]
    refine ⟨imsic, rfl, .inl ⟨rfl, fun hb => ha ?_⟩⟩
    have hf := hb.1
    unfold mmioPageSz at hf
    omega
  rw [if_neg ha, if_neg (Nat.not_lt.mpr (Nat.le_of_lt hi))]
  by_cases hf : a % mmioPageSz = 0
  · rw [if_pos hf]
    by_cases hk : v ≠ 0 ∧ v.toNat < cfg.numIrqs
    · rw [dif_pos hk, dif_pos hp]
      refine ⟨_, rfl, .inr ⟨⟨_, hp⟩, ⟨_, hk.2⟩, ?_, rfl, ?_, rfl⟩⟩
      · exact (Nat.div_mul_cancel (Nat.dvd_of_mod_eq_zero hf)).symm
      · intro hz
        have hn : v.toNat = 0 := congrArg Fin.val hz
        exact hk.1 (eq_of_toNat_eq hn)
    · rw [dif_neg hk]
      exact ⟨imsic, rfl, .inl ⟨rfl, fun hb => hk hb.2⟩⟩
  · rw [if_neg hf]
    exact ⟨imsic, rfl, .inl ⟨rfl, fun hb => hf hb.1⟩⟩

end

/-- The line, `topei` and the state of identity 0 are what the registers of the file ask for. -/
structure Exact (imsic : Imsic cfg) (page : Fin cfg.numPages) : Prop where
  line : imsic.externalIrqs page = true ↔ imsic.eidelivery page = 1 ∧ imsic.topei page ≠ 0
  topei : imsic.topei page = if (imsic.view page).top = 0 then 0 else report (imsic.view page).top
  flag : imsic.stateAt page 0 = if imsic.externalIrqs page then eistateEnpend else 0

theorem Settled.exact (hs : imsic.Settled page) : imsic.Exact page where
  line := by
    have hb : imsic.eidelivery page ≠ 0 ↔ imsic.eidelivery page = 1 := by
      rcases hs.bit with same | same <;> rw [same] <;> decide
    rw [hs.line, due, Bool.and_eq_true, decide_eq_true_iff, decide_eq_true_iff, hb]
  topei := imsic.topei_eq page
  flag := hs.flag

def Event.Sends (page : Fin cfg.numPages) (i : Fin cfg.numIrqs) : Event cfg → Prop
  | .message addr value _ => addr = page * mmioPageSz ∧ value.toNat = i
  | .access _ => False

def Event.Removes (imsic : Imsic cfg) (page : Fin cfg.numPages) (i : Fin cfg.numIrqs) : Event cfg → Prop
  | .message .. => False
  | .access asked => asked.Removes imsic page i

def Event.ReadsFirst : Event cfg → Prop
  | .message .. => False
  | .access asked => asked.isel.toNat = 0x80 ∨ asked.isel.toNat = 0xc0

structure Correct (imsic : Imsic cfg) (event : Event cfg) (result : Option (BitVec 64)) (next : Imsic cfg) : Prop where
  exact : ∀ page, next.Exact page
  delivered : ∀ page i, i ≠ 0 → event.Sends page i → next.pending page i
  kept : ∀ page i, i ≠ 0 → imsic.pending page i → next.pending page i ∨ event.Removes imsic page i
  zero : event.ReadsFirst → ∀ val, result = some val → val.getLsbD 0 = false

theorem message_correct (s : ∀ p, imsic.Settled p) {a : Nat} {v : W32} (ins : a < cfg.numPages * mmioPageSz) :
    ∃ next, imsic.write a v = some next ∧ (∀ p, next.Settled p) ∧ Correct imsic (.message a v ins) none next := by
  obtain ⟨next, w, ef⟩ := imsic.write_spec a v ins
  refine ⟨next, w, ?_⟩
  rcases ef with ⟨sa, r⟩ | ⟨page, i, h, wh, po, sa⟩
  · subst sa
    refine ⟨s, fun p => (s p).exact, fun p j some se => absurd ?_ r, fun _ _ _ set => .inl set, nofun⟩
    obtain ⟨st, n⟩ := se
    refine ⟨?_, fun z => some (Fin.ext ?_), n ▸ j.isLt⟩
    · rw [st, Nat.mul_mod_left]
    · rw [← n, z]
      rfl
  · have c := imsic.setState_changed page po fun state => state ||| eistatePending
    have u := c.updated s
    have sta (p : Fin cfg.numPages) (j : Fin cfg.numIrqs) (some : j ≠ 0)
        (set : imsic.pending p j ∨ p = page ∧ j = i) : next.pending p j := by
      rw [sa, pending, (u.alike p).states j some]
      show (imsic.setState page i fun state => state ||| eistatePending).pending p j
      rw [pending_setState]
      split
      · rw [getLsbD_or]
        exact (Bool.or_eq_true _ _).mpr (.inr rfl)
      · rename_i e
        exact set.resolve_right e
    have f (p : Fin cfg.numPages) : next.Settled p := by
      rw [sa]
      exact c.update_settled s p
    refine ⟨f, fun p => (f p).exact, fun p j some se => sta p j some (.inr ?_),
      fun p j some set => .inl (sta p j some (.inl set)), nofun⟩
    obtain ⟨st, n⟩ := se
    refine ⟨Fin.ext ?_, Fin.ext (n.symm.trans wh)⟩
    exact Nat.eq_of_mul_eq_mul_right (show 0 < mmioPageSz by decide) (st.symm.trans h)

theorem Served.correct {access : Access} {r : Option (BitVec 64)} (hs : ∀ p, imsic.Settled p)
    (served : Served imsic access r next) : (∀ p, next.Settled p) ∧ Correct imsic (.access access) r next := by
  cases served with
  | refused =>
    exact ⟨hs, fun p => (hs p).exact, nofun, fun _ _ _ set => .inl set, nofun⟩
  | served hc hz hk =>
    have hf := hc.update_settled hs
    refine ⟨hf, fun p => (hf p).exact, nofun, ?_, fun file val shown => ?_⟩
    · exact hk.update (hc.updated hs)
    · cases shown
      exact hz file

theorem step_correct (few : cfg.numPages ≤ 16) (settled : ∀ p, imsic.Settled p) (event : Event cfg) :
    ∃ result next, imsic.step event = some (result, next) ∧ (∀ p, next.Settled p) ∧ Correct imsic event result next := by
  cases event with
  | message addr value inside =>
    obtain ⟨next, written, correct⟩ := message_correct settled inside
    exact ⟨none, next, by rw [step, written, Option.map_some], correct⟩
  | access access =>
    obtain ⟨result, next, steps, served⟩ := imsic.rmw_served few
    exact ⟨result, next, steps, served.correct settled⟩

theorem init_settled (cfg : Config) (page : Fin cfg.numPages) : (init cfg).Settled page := by
  refine ⟨.inl rfl, rfl, ?_⟩
  rfl

/-- Over every run, each operation has a result and leaves the lines, `topei` and the pending identities as the registers
  and the messages ask for. The machines that create the device give it at most eight pages. -/
theorem files_exact (cfg : Config) (few : cfg.numPages ≤ 16) (events : List (Event cfg)) :
    StepsMeet after (fun imsic event => ∃ result next, imsic.step event = some (result, next) ∧
      Correct imsic event result next) (init cfg) events := by
  have keeps (imsic : Imsic cfg) (event : Event cfg) (settled : ∀ p, imsic.Settled p) :
      ∀ p, (after imsic event).Settled p := by
    obtain ⟨result, next, steps, kept, -⟩ := step_correct few settled event
    rw [after, steps]
    exact kept
  refine stepsMeet_of_invariant keeps (fun imsic event settled => ?_) (init_settled cfg)
  obtain ⟨result, next, steps, -, correct⟩ := step_correct few settled event
  exact ⟨result, next, steps, correct⟩

def sevenGuests : Config where
  mmode := false
  numPages := 8
  numIds := 127
  pages := ⟨Nat.le_of_ble_eq_true rfl, Nat.le_of_ble_eq_true rfl, nofun⟩
  ids := ⟨Nat.le_of_ble_eq_true rfl, Nat.le_of_ble_eq_true rfl, rfl⟩

theorem guest_files_exact : sevenGuests.numPages ≤ 16 ∧
    StepsMeet after (fun imsic event => ∃ result next, imsic.step event = some (result, next) ∧
      Correct imsic event result next) (init sevenGuests)
      [.message (7 * mmioPageSz) 33 (Nat.le_of_ble_eq_true rfl), .access ⟨.vs, 7, false, 0x82, 0, 1⟩] :=
  ⟨by decide, files_exact sevenGuests (by decide) _⟩

end RiscvEmulators.Qemu.Imsic
