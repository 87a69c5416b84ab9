import Riscv.Spike.Mmu.Tlb

namespace RiscvEmulators.Spike.Mmu
open Word Transition BitVec PageStore S2Request

section
variable (hw : Hardware) (regs : Regs) (info : AccessInfo) (fst second : Option Paging.Root)

def vmOf (root : Paging.Root) : VmInfo :=
  ⟨root.scheme.levels, root.scheme.vpnBits, root.scheme.widened, BitVec.ofNat 64 (root.ppn * 2 ^ 12)⟩

structure Supported (xlen : Xlen) (root : Paging.Root) : Prop where
  format : root.scheme.format = pteFormat xlen
  levels : root.scheme.levels * root.scheme.vpnBits ≤ 45
  widened : root.scheme.widened ≤ 2
  ppn : root.ppn < 2 ^ 44

def askGuest (implicit : Bool) (type : AccessType) (gpa : Reg) : S2Request :=
  ⟨info.transformedVaddr, gpa, type, (info.view regs).walkType, !implicit && info.flags.hlvx, implicit⟩

theorem askGuest_fault (hv : info.effectiveVirt) (i : Bool) (ty : AccessType) (gpa : Reg) :
    (askGuest regs info i ty gpa).fault hw = faultTrap hw info (.guestPage (info.view regs).walkType.access gpa.toNat
      (if i then some ty.access else none)) := by
  have hs : gpa >>> 2 = BitVec.ofNat 64 (gpa.toNat / 4) := by
    apply eq_of_toNat_eq
    rw [toNat_ushiftRight, Nat.shiftRight_eq_div_pow, toNat_ofNat, Nat.mod_eq_of_lt (by omega)]
  have ht : (askGuest regs info i ty gpa).tinst hw = BitVec.ofNat 64
      ((Paging.Fault.guestPage (info.view regs).walkType.access gpa.toNat
          (if i then some ty.access else none)).tinst (pteFormat hw.isa.maxXlen).pteSize) := by
    unfold tinst askGuest
    cases hw.isa.maxXlen <;> cases i <;> cases ty <;>
      simp [Paging.Fault.tinst, pteFormat, Paging.Format.pteSize, AccessType.access]
  unfold fault faultTrap
  rw [ht, hv]
  show guestPageFault _ (gpa >>> 2) _ (info.view regs).walkType = _
  rw [hs]
  cases (info.view regs).walkType <;> rfl

theorem slot_toNat {b a : Reg} {s i size : Nat} (hs : b.toNat < 2 ^ 56) (hn : i ≤ 12) (hf : size ≤ 8) :
    (b + pteIndex a s i * BitVec.ofNat 64 size).toNat = b.toNat + a.toNat / 2 ^ (12 + s) % 2 ^ i * size := by
  have hi : a.toNat / 2 ^ (12 + s) % 2 ^ i < 2 ^ 12 :=
    Nat.lt_of_lt_of_le (Nat.mod_lt _ (Nat.two_pow_pos _)) (Nat.pow_le_pow_right (by decide) hn)
  rw [toNat_add, toNat_mul, pteIndex_toNat a s (by omega), toNat_ofNat]
  generalize a.toNat / 2 ^ (12 + s) % 2 ^ i = p at hi
  have hp : p * size ≤ 2 ^ 12 * 8 := Nat.mul_le_mul (Nat.le_of_lt hi) hf
  rw [Nat.mod_eq_of_lt (show size < 2 ^ 64 by omega), Nat.mod_eq_of_lt (show p * size < 2 ^ 64 by omega)]
  exact Nat.mod_eq_of_lt (by omega)

theorem pteSize_eq (x : Xlen) : pteSize x = (pteFormat x).pteSize := by cases x <;> rfl

variable (scheme : Paging.Scheme) {root : Paging.Root}

theorem vpnBits_le : scheme.vpnBits ≤ 10 := by
  unfold Paging.Scheme.vpnBits
  cases scheme.format <;> decide

theorem vpnBits_ge : 9 ≤ scheme.vpnBits := by
  unfold Paging.Scheme.vpnBits
  cases scheme.format <;> decide

theorem level_bound {x : Xlen} (hs : Supported x root) {l : Nat} (le : l + 1 ≤ root.scheme.levels)
    : l * root.scheme.vpnBits ≤ 36 := by
  have whole := Nat.mul_le_mul_right root.scheme.vpnBits le
  have hb := vpnBits_ge root.scheme
  rw [Nat.add_mul] at whole
  have ht := hs.levels
  omega

theorem pteSize_le {x : Xlen} : pteSize x ≤ 8 := by cases x <;> decide

theorem guest_slot (hs : Supported hw.isa.maxXlen root) {b : Reg} (small : b.toNat < 2 ^ 56) (gpa : Reg) (l : Nat) :
    (b + pteIndex gpa (l * root.scheme.vpnBits) (idxbits (vmOf root) l) *
      BitVec.ofNat 64 (pteSize hw.isa.maxXlen)).toNat =
      b.toNat + root.scheme.vpn gpa.toNat l * root.scheme.format.pteSize := by
  have hb : idxbits (vmOf root) l =
      root.scheme.vpnBits + if l = root.scheme.levels - 1 then root.scheme.widened else 0 := by
    unfold idxbits vmOf
    split <;> rfl
  have hn : idxbits (vmOf root) l ≤ 12 := by
    have hf := vpnBits_le root.scheme
    have hm := hs.widened
    rw [hb]
    split <;> omega
  rw [slot_toNat small hn pteSize_le, Paging.Scheme.vpn, hb, hs.format, pteSize_eq]

theorem physical_mod (pte : Paging.Pte) (va l : Nat) : scheme.physical pte va l % 2 ^ 12 = va % 2 ^ 12 := by
  unfold Paging.Scheme.physical
  rw [Nat.mul_add_mod_self_right, Nat.mod_mod]

theorem base_even {b : Reg} (h : b.toNat % 2 ^ 12 = 0) : b.getLsbD 0 = false := by
  rw [← testBit_toNat, Nat.testBit_zero, decide_eq_false_iff_not]
  omega

theorem next_table {w : Reg} (hf : Fits hw.isa.maxXlen w) :
    (ptePpn w <<< 12).toNat = ((pteFormat hw.isa.maxXlen).pte w).ppn * 2 ^ 12 := by
  have hb := ppn_small (pteFormat hw.isa.maxXlen) w
  rw [toNat_shiftLeft, ptePpn_toNat hf]
  omega

theorem follow_simulates {s : Paging.Stage Tables} {rel : Reg → Nat → Prop} {nx f : Nat → Paging.Walk Tables Nat}
    {va l sl pl : Nat} {w : Reg} {p : Walker Reg} {k : PteKind}
    (hs : k = kindOf (s.request.verdict (s.scheme.format.pte w) s.scheme.vpnBits l))
    (hb : k = .broken → Simulates (Faithful hw regs) tables (faultTrap hw info) rel p (throw s.pageFault))
    (hr : ∀ c : AccessType, k = .refused c →
      Simulates (Faithful hw regs) tables (faultTrap hw info) rel p (throw (.access c.access)))
    (ht : k = .table → Simulates (Faithful hw regs) tables (faultTrap hw info) rel p
      (nx ((s.scheme.format.pte w).ppn * 2 ^ 12) >>= f))
    (leaf : k = .leaf → LeafForm (s.scheme.format.pte w) s.scheme.vpnBits l →
      Simulates (Faithful hw regs) tables (faultTrap hw info) rel p (s.mark sl pl w >>= fun _ =>
        f (s.scheme.physical (s.scheme.format.pte w) va l))) :
    Simulates (Faithful hw regs) tables (faultTrap hw info) rel p (s.follow nx va l sl pl w >>= f) := by
  unfold Paging.Stage.follow
  dsimp only
  cases hv : s.request.verdict (s.scheme.format.pte w) s.scheme.vpnBits l with
  | pageFault => exact hb (by rw [hs, hv]; rfl)
  | accessFault c =>
    cases c with
    | load => exact hr .load (by rw [hs, hv]; rfl)
    | store => exact hr .store (by rw [hs, hv]; rfl)
    | fetch => exact hr .fetch (by rw [hs, hv]; rfl)
  | pointer => exact ht (by rw [hs, hv]; rfl)
  | leaf =>
    rw [bind_assoc]
    exact leaf (by rw [hs, hv]; rfl) (leafForm hv)

theorem s2Kind_ne_refused (v : View) (ty : AccessType) (h mxr : Bool) (l p : Nat) (pte : Reg)
    (cause : AccessType) : s2Kind hw v ty h mxr l p pte ≠ .refused cause := by
  have he {t : Prop} [Decidable t] {le r : PteKind} (fst : le ≠ .refused cause)
      (ho : r ≠ .refused cause) : (if t then le else r) ≠ .refused cause := by
    split <;> assumption
  repeat' apply he
  all_goals exact nofun

theorem s2UpdateAd_simulates (virt : info.effectiveVirt) (scheme : Paging.Scheme)
    (i : Bool) (type : AccessType) (gpa sl : Reg) {w : Reg} (fits : Fits hw.isa.maxXlen w) (hv : has w pteV)
    (hr : pmpOk hw regs.pmp sl (pteSize hw.isa.maxXlen) .load .s false) :
    Simulates (Faithful hw regs) tables (faultTrap hw info) (fun _ _ => True)
      ((askGuest regs info i type gpa).updateAd hw (info.view regs) sl w)
      (((privilegedContext hw regs info fst second).secondStage scheme i type.access gpa.toNat).mark
        sl.toNat sl.toNat w) := by
  have ha := walkType_access hw regs info fst second
  have hm : w &&& adBits type = adBits type ↔ ((privilegedContext hw regs info fst second).secondStage scheme
      i type.access gpa.toNat).request.marked (scheme.format.pte w) := by
    exact marked_iff rfl hw.isa.maxXlen w
  have mark : ((privilegedContext hw regs info fst second).secondStage scheme i type.access
      gpa.toNat).request.marks = adBits type := marks_eq rfl
  refine Simulates.ite hm (fun _ => Simulates.pure trivial) fun _ => ?_
  refine Simulates.ite Iff.rfl (fun _ => ?_) fun _ => Simulates.throw ?_
  · have hs := pteStore_simulates hw regs info (info.view regs).walkType (fits_marked fits type)
      (valid_marked hv type) hr
    rw [← ha] at hs
    rw [mark]
    exact hs
  · rw [askGuest_fault hw regs info virt, ← ha]
    rfl

theorem s2Levels_simulates (hv : info.effectiveVirt) (hs : Supported hw.isa.maxXlen root) (i : Bool)
    (ty : AccessType) (gpa : Reg) (l : Nat) (le : l ≤ root.scheme.levels) (b : Reg)
    (small : b.toNat < 2 ^ 56) (aligned : b.toNat % 2 ^ 12 = 0) : Simulates (Faithful hw regs) tables (faultTrap hw info)
      (fun f v => f.toNat = v ∧ v % 2 ^ 12 = gpa.toNat % 2 ^ 12)
      ((askGuest regs info i ty gpa).levels hw (info.view regs) (vmOf root) l b)
      (((privilegedContext hw regs info fst second).secondStage root.scheme i ty.access gpa.toNat).translate
        gpa.toNat l b.toNat) := by
  let g := askGuest regs info i ty gpa
  let q := (privilegedContext hw regs info fst second).secondStage root.scheme i ty.access gpa.toNat
  have ha := walkType_access hw regs info fst second
  have fault : g.fault hw = faultTrap hw info
      q.pageFault := by
    rw [askGuest_fault hw regs info hv, ← ha]
    rfl
  induction l generalizing b with
  | zero => exact Simulates.throw fault
  | succ l ih =>
    have slot : (b + pteIndex gpa (l * root.scheme.vpnBits) (idxbits (vmOf root) l) *
        BitVec.ofNat 64 (pteSize hw.isa.maxXlen)).toNat =
        q.slot
            gpa.toNat l b.toNat := guest_slot hw hs small gpa l
    have he := even_slot (base_even aligned) (pteIndex gpa (l * root.scheme.vpnBits)
      (idxbits (vmOf root) l)) hw.isa.maxXlen
    have shift := level_bound hs le
    apply Simulates.after_pure
    rw [← slot]
    have hl := pteLoad_simulates hw regs info he (info.view regs).walkType
    rw [← ha] at hl
    refine Simulates.bind hl fun w v same => ?_
    obtain ⟨rfl, hf, hr⟩ := same
    have hk : s2Kind hw (info.view regs) g.type
        g.hlvx (g.mxr (info.view regs)) l
        (l * (vmOf root).idxbits) w =
        kindOf (q.request.verdict (root.scheme.format.pte w) root.scheme.vpnBits l) := by
      rw [hs.format]
      exact s2Kind_eq hw hf regs info fst second i ty l root.scheme.vpnBits (by omega)
    rw [← bind_pure (Paging.Stage.follow _ _ _ _ _ _ _)]
    refine follow_simulates hw regs info hk (fun is => ?_) (fun c is => ?_) (fun is => ?_) fun is form => ?_
    · rw [is]
      exact Simulates.throw fault
    · exact absurd is (s2Kind_ne_refused hw _ _ _ _ _ _ _ _)
    · rw [is, bind_pure]
      have ht := next_table hw hf
      rw [← hs.format] at ht
      have hb := ppn_small root.scheme.format w
      have rest := ih (by omega) (ptePpn w <<< 12) (by rw [ht]; omega) (by rw [ht]; omega)
      rw [ht] at rest
      exact rest
    · rw [is]
      have hu := s2UpdateAd_simulates hw regs info fst second hv root.scheme i ty gpa _
        hf (by rw [(has_flags hw.isa.maxXlen _).1]; exact form.valid) hr
      refine Simulates.bind hu fun _ _ _ => Simulates.pure ⟨?_, physical_mod _ _ _ _⟩
      have hp := leafPage_toNat hf root.scheme gpa l (by omega) (by rw [← hs.format]; exact form)
      rw [← hs.format] at hp
      exact hp

def vmOfRoot : Option Paging.Root → VmInfo
  | none => ⟨0, 0, 0, 0⟩
  | some root => vmOf root

theorem mode64_toNat (atp : Reg) : (getField atp satp64Mode).toNat = atp.toNat / 2 ^ 60 := by
  have hh : atp &&& satp64Mode = atp &&& ~~~(((1 : Reg) <<< 60) - 1) := by
    rw [show satp64Mode = ~~~(((1 : Reg) <<< 60) - 1) by decide]
  rw [getField_eq_shift atp satp64Mode 60 (by decide) (by decide), toNat_ushiftRight, hh,
    toNat_and_not_low_mask atp (by decide)]
  omega

theorem mode32_eq_zero_iff (atp : Reg) : getField atp satp32Mode = 0 ↔ atp.getLsbD 31 = false := by
  have h := and_twoPow_eq_zero atp 31 (by decide)
  rw [getField_eq_zero_iff 31 (by decide) (by decide) (by decide)]
  exact h

theorem ptbase_eq (atp : Reg) (n : Nat) (mk : Reg) (hb : n ≤ 44) (hl : mk = ((1 : Reg) <<< n) - 1) :
    (atp &&& mk) <<< 12 = BitVec.ofNat 64 (atp.toNat % 2 ^ n * 2 ^ 12) := by
  apply eq_of_toNat_eq
  rw [toNat_shiftLeft, hl, toNat_and_low_mask atp (by omega), toNat_ofNat, Nat.shiftLeft_eq]

theorem atpRoot_supported {x : Xlen} {atp : Reg} {root : Paging.Root} (hs : atpRoot x atp = some (some root)) :
    Supported x root ∧ root.scheme.levels ≠ 0 := by
  have ppn := Nat.mod_lt atp.toNat (show 2 ^ 44 > 0 by decide)
  have hp := Nat.mod_lt atp.toNat (show 2 ^ 22 > 0 by decide)
  cases x with
  | rv32 =>
    simp only [atpRoot] at hs
    split at hs
    · cases hs
      refine ⟨⟨rfl, ?_, ?_, Nat.lt_trans hp (by decide)⟩, ?_⟩
      all_goals simp [Paging.Scheme.sv32, Paging.Scheme.vpnBits, Paging.Format.vpnBits]
    · cases hs
  | rv64 =>
    simp only [atpRoot] at hs
    split at hs <;> cases hs
    all_goals refine ⟨⟨rfl, ?_, ?_, ppn⟩, ?_⟩
    all_goals simp [Paging.Scheme.sv39, Paging.Scheme.sv48, Paging.Scheme.sv57, Paging.Scheme.vpnBits, Paging.Format.vpnBits]

theorem hgatpRoot_supported {x : Xlen} {h : Reg} {root : Paging.Root}
    (hs : hgatpRoot x h = some (some root)) : Supported x root ∧ root.scheme.levels ≠ 0 := by
  simp only [hgatpRoot, Option.map_eq_some_iff] at hs
  obtain ⟨p, found, n, is, rfl⟩ := hs
  subst is
  obtain ⟨⟨hf, hl, -, ppn⟩, hp⟩ := atpRoot_supported found
  exact ⟨⟨hf, hl, Nat.le_refl 2, ppn⟩, hp⟩

def stageRoot (guest : Bool) (root : Paging.Root) : Paging.Root :=
  if guest then { root with scheme := root.scheme.x4 } else root

theorem decodeVmInfo_eq {x : Xlen} (g : Bool) {prv : Prv} (hb : prv ≠ .m) {atp : Reg} {root : Option Paging.Root}
    (hs : atpRoot x atp = some root) : decodeVmInfo x g prv atp = some (vmOfRoot (root.map (stageRoot g))) := by
  cases x with
  | rv32 =>
    have hm : (if g then hgatp32Mode else satp32Mode) = satp32Mode := by cases g <;> rfl
    have hp : (if g then hgatp32Ppn else satp32Ppn) = satp32Ppn := by cases g <;> rfl
    have mode := mode32_eq_zero_iff atp
    simp only [atpRoot, Option.some.injEq] at hs
    subst hs
    unfold decodeVmInfo
    dsimp only
    rw [hm, hp, ptbase_eq atp 22 satp32Ppn (by decide) (by decide)]
    cases set : atp.getLsbD 31 with
    | false =>
      rw [if_pos (.inr (mode.mpr set))]
      rfl
    | true =>
      have paged : ¬(prv = .m ∨ getField atp satp32Mode = 0) := by
        rintro (inM | hc)
        · exact hb inM
        · rw [mode, set] at hc
          cases hc
      rw [if_neg paged]
      cases g <;> rfl
  | rv64 =>
    have hm : (if g then hgatp64Mode else satp64Mode) = satp64Mode := by cases g <;> rfl
    have hp : (if g then hgatp64Ppn else satp64Ppn) = satp64Ppn := by cases g <;> rfl
    have mode := mode64_toNat atp
    simp only [atpRoot] at hs
    unfold decodeVmInfo
    dsimp only
    rw [hm, hp, ptbase_eq atp 44 satp64Ppn (by decide) (by decide)]
    rw [← mode] at hs
    have hv (n : Nat) (is : (getField atp satp64Mode).toNat = n) (small : n < 2 ^ 64) :
        getField atp satp64Mode = BitVec.ofNat 64 n := by
      apply eq_of_toNat_eq
      rw [is, toNat_ofNat, Nat.mod_eq_of_lt small]
    split at hs
    case h_1 is =>
      cases hs
      have bare : getField atp satp64Mode = 0 := hv 0 is (by decide)
      rw [if_pos (.inr bare)]
      rfl
    case h_5 => cases hs
    all_goals
      rename_i is
      cases hs
      rw [hv _ is (by decide), if_neg (by simp [hb])]
      cases g <;> rfl

variable {second}

theorem decodeVmInfo_hgatp {x : Xlen} {h : Reg} (hs : hgatpRoot x h = some second) :
    decodeVmInfo x true .u h = some (vmOfRoot second) := by
  obtain ⟨p, hf, rfl⟩ := Option.map_eq_some_iff.mp hs
  rw [decodeVmInfo_eq true (by decide) hf]
  rfl

theorem vmOf_ptbase {x : Xlen} {root : Paging.Root} (hs : Supported x root) :
    (vmOf root).ptbase.toNat = root.ppn * 2 ^ 12 := by
  have hb := hs.ppn
  show (BitVec.ofNat 64 (root.ppn * 2 ^ 12)).toNat = _
  rw [toNat_ofNat]
  omega

theorem above_zero_iff {a : Reg} {n : Nat} (hb : n < 64) : a &&& ~~~(((1 : Reg) <<< n) - 1) = 0 ↔ a.toNat < 2 ^ n := by
  rw [← toNat_inj, toNat_and_not_low_mask a hb]
  show a.toNat / 2 ^ n * 2 ^ n = 0 ↔ _
  rw [Nat.mul_eq_zero, Nat.div_eq_zero_iff]
  have hp := Nat.two_pow_pos n
  omega

theorem s2xlate_simulates (hse : hgatpRoot hw.isa.maxXlen regs.hgatp = some second) (i : Bool)
    (ty : AccessType) (gpa : Reg) : Simulates (Faithful hw regs) tables (faultTrap hw info)
      (fun f v => f.toNat = v ∧ v % 2 ^ 12 = gpa.toNat % 2 ^ 12)
      (s2xlate hw (info.view regs) (askGuest regs info i ty gpa))
      ((privilegedContext hw regs info fst second).translateGuest i ty.access gpa.toNat) := by
  have same : Simulates (Faithful hw regs) tables (faultTrap hw info)
      (fun f v => f.toNat = v ∧ v % 2 ^ 12 = gpa.toNat % 2 ^ 12) (pure gpa) (pure gpa.toNat) :=
    Simulates.pure ⟨rfl, rfl⟩
  unfold s2xlate Paging.Context.translateGuest
  cases hv : info.effectiveVirt with
  | false =>
    have hh : (privilegedContext hw regs info fst second).second = none := if_neg (by simp [hv])
    rw [if_pos (show (!(info.view regs).virt) by simp [AccessInfo.view, hv]), hh]
    exact same
  | true =>
    have hg : (privilegedContext hw regs info fst second).second = second := if_pos hv
    have hd : decodeVmInfo hw.isa.maxXlen true .u (info.view regs).hgatp = some (vmOfRoot second) :=
      decodeVmInfo_hgatp hse
    rw [if_neg (show ¬(!(info.view regs).virt) by simp [AccessInfo.view, hv]), hg, hd]
    cases second with
    | none => exact same
    | some root =>
      obtain ⟨hs, hp⟩ := hgatpRoot_supported hse
      have hw2 : root.scheme.levels * root.scheme.vpnBits + root.scheme.widened + 12 < 64 := by
        have hl := hs.levels
        have wide := hs.widened
        omega
      show Simulates _ _ _ _ (if root.scheme.levels = 0 then _ else _) _
      rw [if_neg hp]
      refine Simulates.ite (above_zero_iff hw2) (fun _ => ?_) fun _ => Simulates.throw ?_
      · have hb := vmOf_ptbase hs
        have bound := hs.ppn
        have hl := s2Levels_simulates hw regs info fst (some root) hv hs i ty gpa
          root.scheme.levels (Nat.le_refl _) (vmOf root).ptbase (by rw [hb]; omega) (by rw [hb]; omega)
        rw [hb] at hl
        exact hl
      · rw [askGuest_fault hw regs info hv, ← walkType_access hw regs info fst (some root)]
        rfl

end

section
variable (hw : Hardware) (rg : Regs) (inf : AccessInfo) (fst : Option Paging.Root) {snd : Option Paging.Root}

variable {root : Paging.Root}

theorem host_slot (hs : Supported hw.isa.maxXlen root) (hp : root.scheme.widened = 0)
    {b : Reg} (small : b.toNat < 2 ^ 56) {a : Reg} {va : Nat}
    (ha : a.toNat % 2 ^ root.scheme.width = va % 2 ^ root.scheme.width) {l : Nat} (le : l + 1 ≤ root.scheme.levels) :
    (b + pteIndex a (l * root.scheme.vpnBits) root.scheme.vpnBits * BitVec.ofNat 64 (pteSize hw.isa.maxXlen)).toNat =
      b.toNat + root.scheme.vpn va l * root.scheme.format.pteSize := by
  have hb := vpnBits_le root.scheme
  have whole : (l + 1) * root.scheme.vpnBits ≤ root.scheme.levels * root.scheme.vpnBits := Nat.mul_le_mul_right _ le
  rw [slot_toNat small (by omega) pteSize_le, Paging.Scheme.vpn, hp, ite_self, Nat.add_zero, hs.format,
    pteSize_eq, div_mod_congr ha]
  rw [Paging.Scheme.width]
  rw [Nat.add_mul] at whole
  omega

theorem physical_congr {x y : Nat} (ha : x % 2 ^ root.scheme.width = y % 2 ^ root.scheme.width)
    {pte : Paging.Pte} {level : Nat} (le : level + 1 ≤ root.scheme.levels) :
    root.scheme.physical pte x level = root.scheme.physical pte y level := by
  have hb := vpnBits_ge root.scheme
  have whole : (level + 1) * root.scheme.vpnBits ≤ root.scheme.levels * root.scheme.vpnBits := Nat.mul_le_mul_right _ le
  rw [Nat.add_mul] at whole
  have wide : root.scheme.width = root.scheme.levels * root.scheme.vpnBits + root.scheme.widened + 12 := rfl
  have ho : x % 2 ^ 12 = y % 2 ^ 12 := by
    have hl := div_mod_congr (s := 0) (t := 12) ha (by omega)
    rwa [Nat.pow_zero, Nat.div_one, Nat.div_one] at hl
  unfold Paging.Scheme.physical
  dsimp only
  rw [ho, div_mod_congr ha (show 12 + (if pte.n then 4 else level * root.scheme.vpnBits) ≤ root.scheme.width by
    split <;> omega)]

theorem updateAd_simulates (hs : hgatpRoot hw.isa.maxXlen rg.hgatp = some snd) {scheme : Paging.Scheme}
    {sl pa w : Reg}
    (fits : Fits hw.isa.maxXlen w) (hv : has w pteV) (hr : pmpOk hw rg.pmp pa (pteSize hw.isa.maxXlen) .load .s false) :
    Simulates (Faithful hw rg) tables (faultTrap hw inf) (fun _ _ => True)
      (updateAd hw (inf.view rg) inf.transformedVaddr sl pa w)
      (((privilegedContext hw rg inf fst snd).firstStage scheme).mark sl.toNat pa.toNat w) := by
  have ha := walkType_access hw rg inf fst snd
  have hm : w &&& adBits (inf.view rg).walkType = adBits (inf.view rg).walkType ↔
      ((privilegedContext hw rg inf fst snd).firstStage scheme).request.marked (scheme.format.pte w) := by
    exact marked_iff ha hw.isa.maxXlen w
  have mark : ((privilegedContext hw rg inf fst snd).firstStage scheme).request.marks =
      adBits (inf.view rg).walkType := marks_eq ha
  refine Simulates.ite hm (fun _ => Simulates.pure trivial) fun _ => ?_
  refine Simulates.ite Iff.rfl (fun _ => ?_) fun _ => Simulates.throw ?_
  · refine Simulates.bind (s2xlate_simulates hw rg inf fst hs true .store sl) fun _ _ _ => ?_
    have stores := pteStore_simulates hw rg inf (inf.view rg).walkType
      (fits_marked fits (inf.view rg).walkType) (valid_marked hv _) hr
    rw [← ha] at stores
    rw [mark]
    exact stores
  · rw [pageFault_eq hw, ← ha]
    rfl

theorem walkLevels_simulates (second : hgatpRoot hw.isa.maxXlen rg.hgatp = some snd) (hb : inf.effectivePriv ≠ .m)
    (hs : Supported hw.isa.maxXlen root) (plain : root.scheme.widened = 0) {va : Nat}
    (agrees : inf.transformedVaddr.toNat % 2 ^ root.scheme.width = va % 2 ^ root.scheme.width) (l : Nat)
    (le : l ≤ root.scheme.levels) (b : Reg) (small : b.toNat < 2 ^ 56) (aligned : b.toNat % 2 ^ 12 = 0) :
    Simulates (Faithful hw rg) tables (faultTrap hw inf) (fun pag v => pag.toNat = v / 2 ^ 12 * 2 ^ 12)
      (walkLevels hw (inf.view rg) (vmOf root) inf.transformedVaddr l b)
      (((privilegedContext hw rg inf fst snd).firstStage root.scheme).translate va l b.toNat >>=
        (privilegedContext hw rg inf fst snd).translateGuest false (privilegedContext hw rg inf fst snd).original) := by
  let q := (privilegedContext hw rg inf fst snd).firstStage root.scheme
  have ha := walkType_access hw rg inf fst snd
  have fault : pageFault (inf.view rg).virt inf.transformedVaddr (inf.view rg).walkType = faultTrap hw inf
      q.pageFault := by
    rw [pageFault_eq hw, ← ha]
    rfl
  induction l generalizing b with
  | zero => exact Simulates.throw fault
  | succ l ih =>
    have shift := level_bound hs le
    have slot : (b + pteIndex inf.transformedVaddr (l * root.scheme.vpnBits) root.scheme.vpnBits *
        BitVec.ofNat 64 (pteSize hw.isa.maxXlen)).toNat =
        q.slot va l b.toNat :=
      host_slot hw hs plain small agrees le
    have he := even_slot (base_even aligned) (pteIndex inf.transformedVaddr (l * root.scheme.vpnBits)
      root.scheme.vpnBits) hw.isa.maxXlen
    rw [Paging.Stage.translate, ← slot, bind_assoc]
    refine Simulates.bind (s2xlate_simulates hw rg inf fst second true .load _) fun pa p hf2 => ?_
    obtain ⟨rfl, ho⟩ := hf2
    have hp : pa.getLsbD 0 = false := by
      rw [← testBit_toNat, Nat.testBit_zero, decide_eq_false_iff_not] at he ⊢
      change pa.toNat % 2 ^ 12 = (b + pteIndex inf.transformedVaddr (l * root.scheme.vpnBits)
        root.scheme.vpnBits * BitVec.ofNat 64 (pteSize hw.isa.maxXlen)).toNat % 2 ^ 12 at ho
      omega
    have hl := pteLoad_simulates hw rg inf hp (inf.view rg).walkType
    rw [← ha] at hl
    rw [bind_assoc]
    refine Simulates.bind hl fun w v same => ?_
    obtain ⟨rfl, hf, hr⟩ := same
    have hk : s1Kind hw (inf.view rg) l (l * (vmOf root).idxbits) w =
        kindOf (q.request.verdict
          (root.scheme.format.pte w) root.scheme.vpnBits l) := by
      rw [hs.format]
      exact s1Kind_eq hw hf rg inf fst snd hb l root.scheme.vpnBits (by omega)
    refine follow_simulates hw rg inf hk (fun is => ?_) (fun c is => ?_) (fun is => ?_) fun is form => ?_
    · rw [is]
      exact Simulates.throw fault
    · rw [is]
      exact Simulates.throw (accessFault_eq hw rg inf c)
    · rw [is]
      have ht := next_table hw hf
      rw [← hs.format] at ht
      have bound := ppn_small root.scheme.format w
      have hr2 := ih (by omega) (ptePpn w <<< 12) (by rw [ht]; omega) (by rw [ht]; omega)
      rw [ht] at hr2
      exact hr2
    · rw [is]
      have hv : has w pteV := by
        rw [(has_flags hw.isa.maxXlen _).1]
        exact form.valid
      refine Simulates.bind (updateAd_simulates hw rg inf fst second hf hv hr) fun _ _ _ => ?_
      have pag := leafPage_toNat hf root.scheme inf.transformedVaddr l (by omega)
        (by rw [← hs.format]; exact form)
      rw [← hs.format, physical_congr agrees le] at pag
      have final := s2xlate_simulates hw rg inf fst second false (inf.view rg).walkType
        (leafPage w inf.transformedVaddr (l * root.scheme.vpnBits) ||| (inf.transformedVaddr &&& pageMask))
      rw [pag, ← ha] at final
      exact final.map pageBase fun r v result => by rw [pageBase_toNat, result.1]; rfl

end
end RiscvEmulators.Spike.Mmu
