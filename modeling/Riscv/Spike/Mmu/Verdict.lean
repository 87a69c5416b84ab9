import Riscv.Spike.Mmu.Page

namespace RiscvEmulators.Spike.Mmu
open Word

def Fits (xlen : Xlen) (word : Reg) : Prop := xlen = .rv32 → word.toNat < 2 ^ 32

section

theorem has_iff (w bs : Reg) : has w bs ↔ w &&& bs ≠ 0 := bne_iff_ne

theorem has_bit {w : Reg} {bit : Reg} {k : Nat} (hb : k < 64) (hs : bit = BitVec.twoPow 64 k) :
    has w bit = w.getLsbD k := by
  have hc := and_twoPow_eq_zero w k hb
  rw [← hs, ← BitVec.getLsbD_eq_getElem hb] at hc
  rw [Bool.eq_iff_iff, has_iff, ne_eq, hc, Bool.not_eq_false]

theorem has_slice {w : Reg} {mk : Reg} {lo n : Nat} (fi : lo + n ≤ 64) (hs : mk = sliceMask 64 lo n) :
    has w mk = (w.extractLsb' lo n != 0) := by
  have hc := and_sliceMask_eq_zero_iff w fi
  rw [← hs] at hc
  rw [Bool.eq_iff_iff, has_iff, ne_eq, hc, bne_iff_ne]

theorem has_or (w bs m : Reg) : has w (bs ||| m) = (has w bs || has w m) := by
  have h : w &&& (bs ||| m) = 0 ↔ w &&& bs = 0 ∧ w &&& m = 0 := by
    rw [BitVec.and_or_distrib_left]
    exact BitVec.or_eq_zero_iff
  rw [Bool.eq_iff_iff, Bool.or_eq_true, has_iff, has_iff, has_iff, ne_eq, h, Decidable.not_and_iff_or_not]

theorem getLsbD_of_narrow {w : Reg} (hn : w.toNat < 2 ^ 32) {j : Nat} (hh : 32 ≤ j) : w.getLsbD j = false := by
  exact Nat.testBit_lt_two_pow (Nat.lt_of_lt_of_le hn (Nat.pow_le_pow_right (by decide) hh))

theorem slice_of_narrow {w : Reg} (hn : w.toNat < 2 ^ 32) {lo n : Nat} (hh : 32 ≤ lo) : w.extractLsb' lo n = 0 := by
  apply BitVec.eq_of_getLsbD_eq
  intro i hb
  rw [BitVec.getLsbD_extractLsb', getLsbD_of_narrow hn (by omega)]
  simp

variable (xl : Xlen) (wo : Reg)

theorem has_flags :
    has wo pteV = ((pteFormat xl).pte wo).v ∧ has wo pteR = ((pteFormat xl).pte wo).r ∧
    has wo pteW = ((pteFormat xl).pte wo).w ∧ has wo pteX = ((pteFormat xl).pte wo).x ∧
    has wo pteU = ((pteFormat xl).pte wo).u ∧ has wo pteA = ((pteFormat xl).pte wo).a ∧
    has wo pteD = ((pteFormat xl).pte wo).d := by
  refine ⟨?_, ?_, ?_, ?_, ?_, ?_, ?_⟩ <;> exact has_bit (by decide) rfl

variable {xl wo} (f : Fits xl wo)
include f

theorem has_pteN : has wo pteN = ((pteFormat xl).pte wo).n := by
  have h : has wo pteN = wo.getLsbD 63 := has_bit (by decide) rfl
  rw [h]
  cases xl with
  | rv32 => exact getLsbD_of_narrow (f rfl) (by decide)
  | rv64 => rfl

theorem has_high_slice {mk : Reg} {lo n : Nat} (hh : 32 ≤ lo) (hi : lo + n ≤ 64) (hs : mk = sliceMask 64 lo n) :
    has wo mk = ((match pteFormat xl with | .narrow => (0 : BitVec n) | .wide => wo.extractLsb' lo n) != 0) := by
  rw [has_slice hi hs]
  cases xl with
  | rv32 => rw [slice_of_narrow (f rfl) hh]; rfl
  | rv64 => rfl

theorem has_fields :
    has wo pteRsvd = (((pteFormat xl).pte wo).future != 0) ∧
    has wo pteSvrsw60t59b = (((pteFormat xl).pte wo).software != 0) ∧
    has wo ptePbmt = (((pteFormat xl).pte wo).pbmt != 0) := by
  refine ⟨?_, ?_, ?_⟩ <;> exact has_high_slice f (by decide) (by decide) (by decide)

theorem ptePbmt_reserved_iff : wo &&& ptePbmt = ptePbmt ↔ ((pteFormat xl).pte wo).pbmt = 3 := by
  have h := and_sliceMask_eq_iff wo ptePbmt 61 2 (by decide)
  rw [show sliceMask 64 61 2 = ptePbmt by decide, show ptePbmt &&& ptePbmt = ptePbmt by decide] at h
  rw [h]
  cases xl with
  | rv32 => rw [slice_of_narrow (f rfl) (by decide)]; rfl
  | rv64 => rfl

theorem ptePpn_toNat : (ptePpn wo).toNat = ((pteFormat xl).pte wo).ppn := by
  have hl : (wo &&& ~~~pteAttr).toNat = wo.toNat % 2 ^ 54 := by
    rw [show ~~~pteAttr = ((1 : Reg) <<< 54) - 1 by decide]
    exact toNat_and_low_mask wo (by decide)
  rw [ptePpn, BitVec.toNat_ushiftRight, hl, Nat.shiftRight_eq_div_pow]
  cases xl with
  | rv32 =>
    have hn := f rfl
    show wo.toNat % 2 ^ 54 / 2 ^ 10 = wo.toNat / 2 ^ 10 % 2 ^ 22
    omega
  | rv64 =>
    show wo.toNat % 2 ^ 54 / 2 ^ 10 = wo.toNat / 2 ^ 10 % 2 ^ 44
    omega

end

theorem ctz_eq_three_iff (ppn : Reg) : ppn ≠ 0 ∧ ctz ppn = 3 ↔ ppn.toNat % 16 = 8 := by
  have hb (hn : ppn ≠ 0) : ppn.toNat / 2 ^ ctz ppn % 2 = 1 := by
    have hs := getLsbD_ctz hn
    rw [← BitVec.testBit_toNat, Nat.testBit_eq_decide_div_mod_eq] at hs
    exact of_decide_eq_true hs
  constructor
  · rintro ⟨hn, ht⟩
    have hs := hb hn
    have hc := ctz_clear hn
    rw [ht] at hs hc
    omega
  · intro hf
    have hn : ppn ≠ 0 := by
      rintro rfl
      exact absurd hf (by decide)
    refine ⟨hn, ?_⟩
    have hs := hb hn
    have hc := ctz_clear hn
    rcases Nat.lt_or_ge (ctz ppn) 4 with small | hl
    · have cases' : ctz ppn = 0 ∨ ctz ppn = 1 ∨ ctz ppn = 2 ∨ ctz ppn = 3 := by omega
      rcases cases' with ha | ha | ha | ha <;> rw [ha] at hs <;> omega
    · have six : 16 ∣ ppn.toNat :=
        Nat.dvd_trans (Nat.pow_dvd_pow 2 hl) (Nat.dvd_of_mod_eq_zero hc)
      omega

theorem napotFault_eq {x : Xlen} {w : Reg} (fi : Fits x w) (l : Nat) :
    ((has w pteN && (decide (ptePpn w = 0) || decide (l ≠ 0))) ||
      (decide (napotBits w ≠ 0) && decide (napotBits w ≠ 4))) =
      (((pteFormat x).pte w).n && !((pteFormat x).pte w).napot l) := by
  have ht := ctz_eq_three_iff (ptePpn w)
  rw [ptePpn_toNat fi] at ht
  rw [← has_pteN fi, napotBits, Paging.Pte.napot]
  cases has w pteN
  · simp
  · by_cases hf : ((pteFormat x).pte w).ppn % 16 = 8
    · obtain ⟨hn, hc⟩ := ht.mpr hf
      by_cases hz : l = 0 <;> simp [hf, hc, hz]
      exact hn
    · have hd : ptePpn w = 0 ∨ ctz (ptePpn w) ≠ 3 := by
        by_cases hz : ptePpn w = 0
        · exact .inl hz
        · exact .inr fun hc => hf (ht.mp ⟨hz, hc⟩)
      rcases hd with hz | ho
      · simp [hf, hz]
      · simp [hf, ho]

def kindOf : Paging.Verdict → PteKind
  | .pageFault => .broken
  | .accessFault .load => .refused .load
  | .accessFault .store => .refused .store
  | .accessFault .fetch => .refused .fetch
  | .pointer => .table
  | .leaf => .leaf

section

theorem pteTable_eq (x : Xlen) (w : Reg) : pteTable w = (((pteFormat x).pte w).v && ((pteFormat x).pte w).pointer) := by
  have s := and_sliceMask_eq_iff w pteV 0 4 (by decide)
  rw [show sliceMask 64 0 4 = pteV ||| pteR ||| pteW ||| pteX by decide,
    show pteV &&& (pteV ||| pteR ||| pteW ||| pteX) = pteV by decide, show pteV.extractLsb' 0 4 = 1 by decide] at s
  have bits : ∀ low : BitVec 4,
      low = 1 ↔ (low.getLsbD 0 && (!low.getLsbD 1 && !low.getLsbD 2 && !low.getLsbD 3)) := by decide
  have bit (i : Nat) (hb : i < 4) : (w.extractLsb' 0 4).getLsbD i = w.getLsbD i := by
    simp [hb]
  rw [bits, bit 0 (by decide), bit 1 (by decide), bit 2 (by decide), bit 3 (by decide)] at s
  rw [Bool.eq_iff_iff, pteTable, beq_iff_eq, s]
  rfl

theorem misaligned_iff {x : Xlen} {w : Reg} (fi : Fits x w) {s : Nat} (h : s < 64) :
    ptePpn w &&& (((1 : Reg) <<< s) - 1) ≠ 0 ↔ ((pteFormat x).pte w).ppn % 2 ^ s ≠ 0 := by
  rw [← ptePpn_toNat fi, ← toNat_and_low_mask _ h, ne_eq, ← BitVec.toNat_inj]
  rfl

variable (request : Paging.Request) (pte : Paging.Pte)

theorem common_kind {vp l : Nat} {t : PteKind}
    (rest : request.encodings.undefinedBits pte = false → (pte.v && pte.pointer) = false →
      t = kindOf (request.verdict pte vp l)) : (if (pte.future != 0) then .broken
      else if (!request.encodings.svrsw60t59b && pte.software != 0) then .broken
      else if (!request.encodings.svnapot && pte.n) then .broken
      else if (!request.encodings.pbmte && pte.pbmt != 0) then .broken
      else if pte.pbmt = 3 then .broken
      else if (pte.v && pte.pointer) then
        if (pte.d || pte.a || pte.u || pte.n || pte.pbmt != 0) then .broken else .table
      else t) = kindOf (request.verdict pte vp l) := by
  have hm : ∀ (a b c d : Bool) (p : Prop) [Decidable p] (x y : PteKind),
      (if a then x else if b then x else if c then x else if d then x else if p then x else y) =
        if (a || b || c || d || decide p) then x else y := by
    intro a b c d p _ x y
    cases a <;> cases b <;> cases c <;> cases d <;> simp
  rw [hm]
  by_cases hu : request.encodings.undefinedBits pte
  · rw [if_pos (by simpa [Paging.Encodings.undefinedBits] using hu)]
    simp [Paging.Request.verdict, Paging.Encodings.reserved, hu, kindOf]
  · rw [if_neg (by simpa [Paging.Encodings.undefinedBits] using hu)]
    rw [Bool.not_eq_true] at hu
    cases ht : pte.v && pte.pointer with
    | false => exact rest hu ht
    | true =>
      obtain ⟨hv, hp⟩ := Bool.and_eq_true_iff.mp ht
      have hn : pte.w = false := by
        simp only [Paging.Pte.pointer, Bool.and_eq_true, Bool.not_eq_true'] at hp
        exact hp.1.2
      cases he : pte.d || pte.a || pte.u || pte.n || pte.pbmt != 0 with
      | true =>
        have hr : request.encodings.reserved l pte := by
          rw [Paging.Encodings.reserved, hp, he]
          simp
        simp [Paging.Request.verdict, hr, kindOf]
      | false =>
        have plain : pte.n = false := by simp_all
        have hf : request.encodings.reserved l pte = false := by
          rw [Paging.Encodings.reserved, hu, hn, he, plain]
          simp
        simp [Paging.Request.verdict, hv, hf, hp, kindOf]

theorem verdict_rest {request : Paging.Request} {pte : Paging.Pte} {vp l : Nat}
    (hu : request.encodings.undefinedBits pte = false) (ht : (pte.v && pte.pointer) = false) :
    request.verdict pte vp l = if (!pte.v || (!pte.r && pte.w && !(request.encodings.sse && pte.shadowStackPage)) ||
      (pte.n && !pte.napot l)) then .pageFault
      else if pte.ppn % 2 ^ (l * vp) ≠ 0 then .pageFault
      else if !request.userAllows pte then .pageFault
      else match request.shadowStackFault pte with
        | some t => .accessFault t
        | none => if request.permits pte then .leaf else .pageFault := by
  unfold Paging.Request.verdict Paging.Encodings.reserved
  rw [hu]
  cases hv : pte.v with
  | false => simp
  | true =>
    rw [hv, Bool.true_and] at ht
    rw [ht]
    simp only [Bool.false_and, Bool.or_false]
    rfl

section
variable {request} {ty : AccessType} (sa : request.access = ty.access)
include sa

theorem userAllows_eq {prv : Prv} (hb : prv ≠ .m) (hu : request.user = decide (prv = .u)) :
    (if pte.u then decide (prv = .s) && (decide (ty = .fetch) || !request.sum) else !decide (prv = .s)) =
      !request.userAllows pte := by
  rw [Paging.Request.userAllows, sa, hu]
  cases prv with
  | m => exact absurd rfl hb
  | u => simp
  | s => cases ty <;> cases pte.u <;> simp [AccessType.access]

theorem permission_kind (hs : request.shadowStack → ty = .store) (hp : pte.pointer = false)
    (en : (!pte.r && pte.w && !(request.encodings.sse && pte.shadowStackPage)) = false) :
    (if (!pte.r && pte.w && !pte.x && (decide (ty = .store) && !request.shadowStack || request.cacheBlock)) then
      .refused .store
      else if (!pte.r && pte.w && !pte.x && decide (ty = .fetch)) then .refused .fetch
      else if ((pte.r && pte.w || pte.x) && request.shadowStack) then .refused .store
      else if (if ty = .fetch ∨ request.hlvx then !pte.x
        else if ty = .load then
          !(request.encodings.sse && (!pte.r && pte.w && !pte.x)) && !pte.r && !(request.mxr && pte.x)
        else !pte.w) then .broken
      else .leaf) =
      kindOf (match request.shadowStackFault pte with
        | some ty => .accessFault ty
        | none => if request.permits pte then .leaf else .pageFault) := by
  rcases request with ⟨ac, user, sum, mxr, h, s, c, adue, svn, sv, p, sse⟩
  rcases pte with ⟨v, r, w, x, u, a, d, ppn, f, so, pbmt, n⟩
  simp only [Paging.Pte.shadowStackPage,
    Paging.Pte.pointer] at hp en ⊢
  cases r <;> cases w <;> cases x
  all_goals cases ty <;> cases s <;> simp_all [kindOf]
  all_goals cases h <;> cases mxr <;> cases c <;> rfl

end

section
variable {σ : Type} (cx : Paging.Context σ) (i : Bool) {pte} (e : (!pte.r && pte.w) = false)
include e

theorem guest_shadowStackFault (ac : Paging.Access) : (cx.secondRequest i ac).shadowStackFault pte = none := by
  simp [Paging.Request.shadowStackFault, Paging.Pte.shadowStackPage, Paging.Context.secondRequest, e]

theorem guest_permits (t : AccessType) : (if t = .fetch ∨ (!i && cx.request.hlvx) then !pte.x
    else if t = .load then !pte.r && !((!i && cx.secondMxr) && pte.x)
    else !(pte.r && pte.w)) = !(cx.secondRequest i t.access).permits pte := by
  simp only [Paging.Request.permits, Paging.Pte.shadowStackPage, Paging.Context.secondRequest, e]
  rcases pte with ⟨v, r, w, x, u, a, d, ppn, f, s, pbmt, n⟩
  cases t <;> cases (!i && cx.request.hlvx) <;> cases r <;> cases w <;> simp_all [AccessType.access]

end

variable (hw : Hardware) {wo : Reg} (f : Fits hw.isa.maxXlen wo) (rg : Regs) (inf : AccessInfo)
  (fst snd : Option Paging.Root)

theorem walkType_access : (privilegedContext hw rg inf fst snd).request.access = (inf.view rg).walkType.access := by
  by_cases h : inf.flags.ssAccess <;> simp [privilegedContext, View.walkType, AccessInfo.view, h]
  rfl

include f in
theorem s1Kind_eq (below : inf.effectivePriv ≠ .m) (level vpnBits : Nat) (bound : level * vpnBits < 64) :
    s1Kind hw (inf.view rg) level (level * vpnBits) wo = kindOf ((privilegedContext hw rg inf fst snd).request.verdict
      ((pteFormat hw.isa.maxXlen).pte wo) vpnBits level) := by
  have same := walkType_access hw rg inf fst snd
  have misaligned := misaligned_iff f bound
  unfold s1Kind
  dsimp only
  rw [napotFault_eq f level]
  simp only [has_or, has_fields f, has_pteN f, has_flags hw.isa.maxXlen wo, ptePbmt_reserved_iff f,
    pteTable_eq hw.isa.maxXlen, misaligned]
  generalize (pteFormat hw.isa.maxXlen).pte wo = pte
  refine common_kind (privilegedContext hw rg inf fst snd).request pte fun undefined table => ?_
  have user : (if pte.u then decide ((inf.view rg).prv = .s) &&
      (decide ((inf.view rg).walkType = .fetch) || !(inf.view rg).sum)
      else !decide ((inf.view rg).prv = .s)) =
      !(privilegedContext hw rg inf fst snd).request.userAllows pte := userAllows_eq pte same below rfl
  have encoding : (!pte.r && pte.w && (!(inf.view rg).sse && !pte.x || pte.x)) =
      (!pte.r && pte.w && !((privilegedContext hw rg inf fst snd).request.encodings.sse && pte.shadowStackPage)) := by
    simp only [AccessInfo.view, privilegedContext, Paging.Pte.shadowStackPage]
    cases pte.r <;> cases pte.w <;> cases pte.x <;> simp
  rw [verdict_rest undefined table, user, encoding]
  cases valid : pte.v with
  | false => simp [kindOf]
  | true =>
    rw [valid, Bool.true_and] at table
    cases encoded : !pte.r && pte.w && !((privilegedContext hw rg inf fst snd).request.encodings.sse &&
      pte.shadowStackPage) with
    | true => simp [kindOf]
    | false =>
      have storing : (privilegedContext hw rg inf fst snd).request.shadowStack →
          (inf.view rg).walkType = .store := fun ss => if_pos ss
      cases (privilegedContext hw rg inf fst snd).request.userAllows pte with
      | false => simp [kindOf]
      | true =>
        have rest := permission_kind pte same storing table encoded
        cases pte.n && !pte.napot level with
        | true => simp [kindOf]
        | false =>
          by_cases low : pte.ppn % 2 ^ (level * vpnBits) = 0
          · simp only [low, Bool.false_eq_true]
            exact rest
          · simp [low, kindOf]

include f in
theorem s2Kind_eq (implicit : Bool) (type : AccessType) (level vpnBits : Nat) (bound : level * vpnBits < 64) :
    s2Kind hw (inf.view rg) type (!implicit && inf.flags.hlvx) (!implicit && rg.mxr false) level (level * vpnBits) wo =
      kindOf (((privilegedContext hw rg inf fst snd).secondRequest implicit type.access).verdict
        ((pteFormat hw.isa.maxXlen).pte wo) vpnBits level) := by
  let c := privilegedContext hw rg inf fst snd
  have misaligned := misaligned_iff f bound
  unfold s2Kind
  dsimp only
  rw [napotFault_eq f level]
  simp only [has_or, has_fields f, has_pteN f, has_flags hw.isa.maxXlen wo, ptePbmt_reserved_iff f,
    pteTable_eq hw.isa.maxXlen, misaligned]
  generalize (pteFormat hw.isa.maxXlen).pte wo = pte
  refine common_kind (c.secondRequest implicit type.access) pte
    fun undefined table => ?_
  rw [verdict_rest undefined table]
  cases valid : pte.v with
  | false => simp [kindOf]
  | true =>
    cases encoded : !pte.r && pte.w with
    | true => simp [Paging.Context.secondRequest, kindOf]
    | false =>
      have noFault := guest_shadowStackFault c implicit encoded type.access
      have permission := guest_permits c implicit encoded type
      have user : (c.secondRequest implicit type.access).userAllows pte =
          pte.u := if_pos rfl
      rw [noFault, user]
      cases pte.n && !pte.napot level with
      | true => simp [kindOf]
      | false =>
        cases pte.u with
        | false => simp [kindOf]
        | true =>
          have permission' : (if type = .fetch ∨ (!implicit && inf.flags.hlvx) then !pte.x
              else if type = .load then !pte.r && !((!implicit && rg.mxr false) && pte.x)
              else !(pte.r && pte.w)) =
              !(c.secondRequest implicit type.access).permits pte :=
            permission
          rw [permission']
          cases (c.secondRequest implicit type.access).permits pte <;>
            by_cases low : pte.ppn % 2 ^ (level * vpnBits) = 0 <;>
            simp [low, kindOf]

end
end RiscvEmulators.Spike.Mmu
