import Riscv.Qemu.Pmp.Agreement
import Mathlib.Data.List.Basic

namespace RiscvEmulators.Qemu.Pmp
open Word Cpu Rules Transition BitVec Bool

def targetPageSize : W64 := 0x1000

def tlbSizeRules (s : State) (tlbSa tlbEa : W64) : List Nat → W64
  | [] => targetPageSize
  | i :: rest =>
    let sa := (s.entries i).sa
    let ea := (s.entries i).ea
    if getAField (s.entries i).cfgReg = .off then tlbSizeRules s tlbSa tlbEa rest
    else if sa ≤ tlbSa && tlbEa ≤ ea then targetPageSize
    else if (tlbSa ≤ sa && sa ≤ tlbEa) || (tlbSa ≤ ea && ea ≤ tlbEa) then 1
    else tlbSizeRules s tlbSa tlbEa rest

def getTlbSize (hw : Hardware) (s : State) (addr : W64) : W64 :=
  let tlbSa := addr &&& ~~~(targetPageSize - 1)
  let tlbEa := tlbSa + targetPageSize - 1
  if !hw.pmp || s.numRules = 0 then targetPageSize
  else tlbSizeRules s tlbSa tlbEa (List.range hw.regions)

section
variable (hw : Hardware) (s : State)

def privsDefault (privs : BitVec 8) (mode : Priv) : Bool × BitVec 8 :=
  if s.mmwpIsset then (false, 0)
  else if s.mmlIsset then
    if mode = .machine && privs &&& pmpExec == 0 then (true, pmpRead ||| pmpWrite) else (false, 0)
  else if !hw.pmp || mode = .machine then (true, pmpRead ||| pmpWrite ||| pmpExec) else (false, 0)

def checkPrivs (addr last : W64) (privs : BitVec 8) (mode : Priv) : List Nat → Bool × BitVec 8
  | [] => privsDefault hw s privs mode
  | i :: rest =>
    let first := isInRange s i addr
    let final := isInRange s i last
    if first != final then (false, 0)
    else if first && final && getAField (s.entries i).cfgReg ≠ .off then
      (privs &&& allowedPrivs s i mode == privs, allowedPrivs s i mode)
    else checkPrivs addr last privs mode rest

def hartPrivs (addr size : W64) (privs : BitVec 8) (mode : Priv) : Bool × BitVec 8 :=
  if s.numRules = 0 then privsDefault hw s privs mode
  else checkPrivs hw s addr (lastByte hw addr size) privs mode (List.range hw.regions)

theorem privsDefault_fst {pri : BitVec 8} {mode : Priv} :
    (privsDefault hw s pri mode).1 = hasPrivsDefault hw s pri mode := by
  unfold privsDefault hasPrivsDefault
  cases s.mmwpIsset with
  | true => rfl
  | false =>
    cases s.mmlIsset with
    | true => cases decide (mode = .machine) && pri &&& pmpExec == 0 <;> rfl
    | false => cases !hw.pmp || decide (mode = .machine) <;> rfl

theorem checkPrivs_fst {ad l : W64} {pri : BitVec 8} {md : Priv} {rules : List Nat} :
    (checkPrivs hw s ad l pri md rules).1 = checkRules hw s ad l pri md rules := by
  induction rules with
  | nil => exact privsDefault_fst hw s
  | cons i rest ih =>
    rw [checkPrivs, checkRules, ← ih]
    split
    · rfl
    · split <;> rfl

theorem hartPrivs_fst (ad si : W64) (pri : BitVec 8) (mode : Priv) :
    (hartPrivs hw s ad si pri mode).1 = hartHasPrivs hw s ad si pri mode := by
  unfold hartPrivs hartHasPrivs
  split
  · exact privsDefault_fst hw s
  · exact checkPrivs_fst hw s

end

inductive AccessType where
  | dataLoad | dataStore | instFetch
  deriving DecidableEq

def AccessType.privs : AccessType → BitVec 8
  | .dataLoad => pmpRead
  | .dataStore => pmpWrite
  | .instFetch => pmpExec

def pageRead : BitVec 8 := 0x1
def pageWrite : BitVec 8 := 0x2
def pageExec : BitVec 8 := 0x4

def AccessType.prot : AccessType → BitVec 8
  | .dataLoad => pageRead
  | .dataStore => pageWrite
  | .instFetch => pageExec

def privToPageProt (privs : BitVec 8) : BitVec 8 :=
  (if privs &&& pmpRead ≠ 0 then pageRead else 0) ||| (if privs &&& pmpWrite ≠ 0 then pageWrite else 0) |||
    (if privs &&& pmpExec ≠ 0 then pageExec else 0)

def getPhysicalAddressPmp (hw : Hardware) (s : State) (addr size : W64) (type : AccessType) (mode : Priv) :
    Option (BitVec 8) :=
  if !hw.pmp then some (pageRead ||| pageWrite ||| pageExec)
  else
    let checked := hartPrivs hw s addr size type.privs mode
    if checked.1 then some (privToPageProt checked.2) else none

def State.Decoded (hw : Hardware) (s : State) : Prop :=
  ∀ i < hw.regions, ((s.entries i).sa, (s.entries i).ea) =
    ruleRange hw (s.entries i).cfgReg (s.entries i).addrReg (s.prevAddr i)

structure InsidePage (page addr size : W64) : Prop where
  nonempty : 1 ≤ size.toNat
  page : addr.toNat / 4096 = page.toNat / 4096
  fits : addr.toNat % 4096 + size.toNat ≤ 4096

theorem InsidePage.last {pa ad si : W64} (hw : Hardware) (hi : InsidePage pa ad si) :
    (lastByte hw ad si).toNat = ad.toNat + si.toNat - 1 := by
  have hf := hi.fits
  exact lastByte_toNat hw ad si hi.nonempty (by omega) (by omega)

section
variable {hw : Hardware} {s : State}

def pageStart (page : W64) : W64 := page &&& ~~~(targetPageSize - 1)
def pageEnd (page : W64) : W64 := pageStart page + targetPageSize - 1

theorem pageStart_toNat (pa : W64) : (pageStart pa).toNat = pa.toNat / 4096 * 4096 :=
  toNat_and_not_low_mask pa (k := 12) (by decide)

theorem pageEnd_toNat (pa : W64) : (pageEnd pa).toNat = pa.toNat / 4096 * 4096 + 4095 := by
  have hs : targetPageSize.toNat = 4096 := rfl
  have ho : (1 : W64).toNat = 1 := rfl
  rw [pageEnd, toNat_sub, toNat_add, pageStart_toNat]
  omega

variable {p a sz : W64} {pr ask : BitVec 8}

theorem InsidePage.last_page (hw : Hardware) (hi : InsidePage p a sz) :
    (lastByte hw a sz).toNat / 4096 = p.toNat / 4096 := by
  have hn := hi.nonempty
  have hf := hi.fits
  rw [hi.last hw, ← hi.page]
  omega

theorem isInRange_covered {byte : W64} {i : Nat} (hi : byte.toNat / 4096 = p.toNat / 4096)
    (hc : ((s.entries i).sa ≤ pageStart p && pageEnd p ≤ (s.entries i).ea)) : isInRange s i byte := by
  rw [and_eq_true, decide_eq_true_eq, decide_eq_true_eq, le_def, le_def, pageStart_toNat,
    pageEnd_toNat] at hc
  rw [isInRange, and_eq_true, decide_eq_true_eq, decide_eq_true_eq, le_def, le_def]
  omega

theorem isInRange_apart {b : W64} {i : Nat} (hi : b.toNat / 4096 = p.toNat / 4096)
    (hu : ¬((s.entries i).sa ≤ pageStart p && pageEnd p ≤ (s.entries i).ea))
    (ho : ¬((pageStart p ≤ (s.entries i).sa && (s.entries i).sa ≤ pageEnd p) ||
      (pageStart p ≤ (s.entries i).ea && (s.entries i).ea ≤ pageEnd p))) : isInRange s i b = false := by
  simp only [or_eq_true, and_eq_true, decide_eq_true_eq, le_def, pageStart_toNat, pageEnd_toNat]
    at hu ho
  rw [← not_eq_true, isInRange, and_eq_true, decide_eq_true_eq, decide_eq_true_eq, le_def,
    le_def]
  omega

theorem isInRange_off {i : Nat} (sa : (s.entries i).sa = 0) (ea : (s.entries i).ea = -1) (byte : W64) :
    isInRange s i byte := by
  have ht : (-1 : W64).toNat = 18446744073709551615 := rfl
  rw [isInRange, sa, ea, and_eq_true, decide_eq_true_eq, decide_eq_true_eq, le_def, le_def]
  exact ⟨Nat.zero_le _, by omega⟩

theorem checkPrivs_page {a' s' : W64} (inside : InsidePage p a sz) (hi : InsidePage p a' s') {rules : List Nat}
    (hd : ∀ i ∈ rules, getAField (s.entries i).cfgReg = .off → (s.entries i).sa = 0 ∧ (s.entries i).ea = -1)
    (whole : tlbSizeRules s (pageStart p) (pageEnd p) rules = targetPageSize) (pr : BitVec 8) (md : Priv) :
    checkPrivs hw s a (lastByte hw a sz) pr md rules = checkPrivs hw s a' (lastByte hw a' s') pr md rules := by
  induction rules with
  | nil => rw [checkPrivs, checkPrivs]
  | cons i rest ih =>
    have ih := ih fun j hm => hd j (List.mem_cons_of_mem i hm)
    have last := inside.last_page hw
    have hl := hi.last_page hw
    rw [tlbSizeRules] at whole
    rw [checkPrivs, checkPrivs]
    by_cases off : getAField (s.entries i).cfgReg = .off
    · obtain ⟨sa, ea⟩ := hd i List.mem_cons_self off
      rw [if_pos off] at whole
      rw [isInRange_off sa ea, isInRange_off sa ea, isInRange_off sa ea, isInRange_off sa ea]
      simp only [off]
      exact ih whole
    · rw [if_neg off] at whole
      split at whole
      case isTrue hc =>
        rw [isInRange_covered inside.page hc, isInRange_covered last hc,
          isInRange_covered hi.page hc, isInRange_covered hl hc]
        simp [off]
      case isFalse hu =>
        split at whole
        case isTrue hp => exact absurd whole (by decide)
        case isFalse ho =>
          rw [isInRange_apart inside.page hu ho, isInRange_apart last hu ho,
            isInRange_apart hi.page hu ho, isInRange_apart hl hu ho]
          simpa using ih whole

theorem Decoded.off (hd : s.Decoded hw) {i : Nat} (hb : i < hw.regions)
    (off : getAField (s.entries i).cfgReg = .off) : (s.entries i).sa = 0 ∧ (s.entries i).ea = -1 := by
  have hs := hd i hb
  rw [ruleRange, off] at hs
  exact ⟨congrArg Prod.fst hs, congrArg Prod.snd hs⟩

theorem hartPrivs_page {a' s' : W64} (hd : s.Decoded hw) (hs : hw.pmp ∨ s.numRules = 0)
    (whole : getTlbSize hw s p = targetPageSize) (hi2 : InsidePage p a sz)
    (inside : InsidePage p a' s') {pr : BitVec 8} {mode : Priv} :
    hartPrivs hw s a sz pr mode = hartPrivs hw s a' s' pr mode := by
  unfold hartPrivs
  by_cases hn : s.numRules = 0
  · rw [if_pos hn, if_pos hn]
  · rw [if_neg hn, if_neg hn]
    have hi : hw.pmp := hs.resolve_right hn
    rw [getTlbSize, hi] at whole
    simp only [hn] at whole
    apply checkPrivs_page hi2 inside _ whole
    intro i hm ho
    exact Decoded.off hd (List.mem_range.mp hm) ho

theorem privsDefault_suffices {md : Priv} (hg : (privsDefault hw s pr md).1)
    (ha : (privsDefault hw s pr md).2 &&& ask = ask) : (privsDefault hw s ask md).1 := by
  unfold privsDefault at hg ha ⊢
  cases mmwp : s.mmwpIsset with
  | true =>
    rw [mmwp] at hg
    cases hg
  | false =>
    rw [mmwp] at hg ha
    cases mml : s.mmlIsset with
    | false =>
      rw [mml] at hg
      simpa using hg
    | true =>
      rw [mml] at hg ha
      by_cases hd : (decide (md = .machine) && pr &&& pmpExec == 0)
      · simp only [hd, if_true] at ha
        have hn : ask &&& pmpExec = 0 := by
          revert ask
          decide +kernel
        have hm := (and_eq_true_iff.mp hd).1
        simp [hm, hn]
      · simp only [hd, Bool.false_eq_true, if_false, if_true] at hg

theorem checkPrivs_suffices {md : Priv} {l : W64} {r : List Nat} (hg : (checkPrivs hw s a l pr md r).1)
    (ha : (checkPrivs hw s a l pr md r).2 &&& ask = ask) : (checkPrivs hw s a l ask md r).1 := by
  induction r with
  | nil => exact privsDefault_suffices hg ha
  | cons i rest ih =>
    rw [checkPrivs] at hg ha ⊢
    split at hg
    case isTrue hp => cases hg
    case isFalse denied =>
      rw [if_neg denied] at ha ⊢
      split at hg
      case isTrue hf =>
        rw [if_pos hf] at ha ⊢
        rw [beq_iff_eq, BitVec.and_comm]
        exact ha
      case isFalse hm =>
        rw [if_neg hm] at ha ⊢
        exact ih hg ha

theorem hartPrivs_suffices {md : Priv} (hg : (hartPrivs hw s a sz pr md).1)
    (ha : (hartPrivs hw s a sz pr md).2 &&& ask = ask) : (hartPrivs hw s a sz ask md).1 := by
  unfold hartPrivs at hg ha ⊢
  split at hg
  case isTrue hn =>
    rw [if_pos hn] at ha ⊢
    exact privsDefault_suffices hg ha
  case isFalse hs =>
    rw [if_neg hs] at ha ⊢
    exact checkPrivs_suffices hg ha

theorem privToPageProt_asks {pr : BitVec 8} {ty : AccessType} (h : privToPageProt pr &&& ty.prot ≠ 0) :
    pr &&& ty.privs = ty.privs := by
  revert pr
  cases ty <;> decide +kernel

end

/-- Where `pmp_get_tlb_size` returns the page size, the check answers all accesses inside the page alike, and the page
  protection that one granted access leaves in the TLB lets in only accesses that the check grants. A CPU without PMP
  has no rules, and its accesses are not checked. -/
theorem page_check_uniform (hw : Hardware) (s : State) (decoded : s.Decoded hw) (page : W64)
    (whole : getTlbSize hw s page = targetPageSize) (addr size addr' size' : W64) (inside : InsidePage page addr size)
    (inside' : InsidePage page addr' size') (mode : Priv) : (hw.pmp = true ∨ s.numRules = 0 →
      ∀ privs, hartPrivs hw s addr size privs mode = hartPrivs hw s addr' size' privs mode) ∧
    ∀ type type' prot, getPhysicalAddressPmp hw s addr size type mode = some prot → prot &&& type'.prot ≠ 0 →
      (getPhysicalAddressPmp hw s addr' size' type' mode).isSome := by
  refine ⟨fun checks privs => hartPrivs_page decoded checks whole inside inside', ?_⟩
  intro type type' prot granted bit
  unfold getPhysicalAddressPmp at granted ⊢
  cases present : hw.pmp with
  | false => rfl
  | true =>
    simp only [present, Bool.not_true, Bool.false_eq_true, if_false] at granted ⊢
    split at granted
    case isFalse denied => cases granted
    case isTrue held =>
      cases granted
      have asks := privToPageProt_asks bit
      have allowed := hartPrivs_suffices held asks
      rw [hartPrivs_page decoded (.inl present) whole inside inside'] at allowed
      rw [if_pos allowed]
      rfl

def onePage : List Write := [.pmpaddr 0 0x1ff, .pmpcfg 0 0x1b1b, .pmpcfg 0 0x001b]

theorem first_page_uniform : hartPrivs twoRegions (run (writeStep twoRegions) resetState onePage) 0 8 pmpWrite .user =
    hartPrivs twoRegions (run (writeStep twoRegions) resetState onePage) 0xfff 1 pmpWrite .user :=
  (page_check_uniform twoRegions (run (writeStep twoRegions) resetState onePage) (by unfold State.Decoded; decide) 0
    (by decide) 0 8 0xfff 1 ⟨by decide, by decide, by decide⟩ ⟨by decide, by decide, by decide⟩ .user).1
    (.inl rfl) pmpWrite

open State List

section
variable {hw : Hardware}

structure State.Locked (s : State) (i : Nat) : Prop where
  rlb : s.rlbIsset = false
  lock : s.isLocked i

variable {i : Nat}

variable {s : State}

theorem State.Locked.readonly (h : s.Locked i) : s.isReadonly i := by
  rw [isReadonly, h.lock, h.rlb]
  rfl

/-- What the writes between two states leave of a locked entry, with its stored range, of RLB and of the sticky bits. -/
structure LockHeld (hw : Hardware) (i : Nat) (before after : State) : Prop where
  entry : after.entries i = before.entries i
  base : before.aField i = .tor → 0 < i → (after.entries (i - 1)).addrReg = (before.entries (i - 1)).addrReg
  rlb : after.rlbIsset = false
  mml : hw.extSmepmp → before.mmlIsset → after.mmlIsset
  mmwp : hw.extSmepmp → before.mmwpIsset → after.mmwpIsset

theorem LockHeld.refl (hl : s.Locked i) : LockHeld hw i s s :=
  ⟨rfl, fun _ _ => rfl, hl.rlb, fun _ hs => hs, fun _ hs => hs⟩

theorem LockHeld.trans {fst snd t : State} (hb : LockHeld hw i fst snd)
    (ha : LockHeld hw i snd t) : LockHeld hw i fst t where
  entry := ha.entry.trans hb.entry
  base tor positive := by
    have ht : snd.aField i = .tor := by
      rw [aField, hb.entry]
      exact tor
    exact (ha.base ht positive).trans (hb.base tor positive)
  rlb := ha.rlb
  mml hs set := ha.mml hs (hb.mml hs set)
  mmwp hs set := ha.mmwp hs (hb.mmwp hs set)

theorem LockHeld.locked {b a : State} (h : LockHeld hw i b a) (locked : b.Locked i) : a.Locked i where
  rlb := h.rlb
  lock := by
    rw [isLocked, h.entry]
    exact locked.lock

theorem LockHeld.of_entries {b a : State} (hl : b.Locked i)
    (hm : a.mseccfg = b.mseccfg) (entry : a.entries i = b.entries i)
    (base : b.aField i = .tor → 0 < i → (a.entries (i - 1)).addrReg = (b.entries (i - 1)).addrReg) :
    LockHeld hw i b a where
  entry := entry
  base := base
  rlb := by
    rw [rlbIsset, hm]
    exact hl.rlb
  mml _ set := by
    rw [mmlIsset, hm]
    exact set
  mmwp _ set := by
    rw [mmwpIsset, hm]
    exact set

theorem writeCfg_lockHeld (hl : s.Locked i) {j : Nat} {val : BitVec 8} :
    LockHeld hw i s (writeCfg hw s j val).1 := by
  rcases writeCfg_cases hw s j val with hu | ⟨hwr, cfg, hc⟩
  · rw [hu]
    exact .refl hl
  · have ho : i ≠ j := by
      intro hs
      rw [← hs, hl.readonly] at hwr
      cases hwr
    rw [hc]
    refine .of_entries hl rfl ?_ ?_
    · rw [updateRuleAddr_other hw _ ho]
      simp [setEntry, ho]
    · intro _ _
      rw [updateRuleAddr_addrReg]
      unfold setEntry
      dsimp only
      by_cases hs : i - 1 = j
      · rw [if_pos hs, hs]
      · rw [if_neg hs]

variable {val : W64}

theorem pmpcfgCsrWrite_lockHeld (hl : s.Locked i) {r : Nat} :
    LockHeld hw i s (pmpcfgCsrWrite hw s r val) := by
  have hb (t : State) (j : Nat) (val : BitVec 8) (hh : LockHeld hw i s t) :
      LockHeld hw i s (writeCfg hw t j val).1 := hh.trans (writeCfg_lockHeld (hh.locked hl))
  have hu (t : State) (n : Nat) (hh : LockHeld hw i s t) : LockHeld hw i s { t with numRules := n } :=
    ⟨hh.entry, hh.base, hh.rlb, hh.mml, hh.mmwp⟩
  exact pmpcfgCsrWrite_keeps hb hu s r val (.refl hl)

theorem pmpaddrCsrWrite_lockHeld (hl : s.Locked i) (hb : i < hw.regions) {j : Nat}
    : LockHeld hw i s (pmpaddrCsrWrite hw s j val) := by
  unfold pmpaddrCsrWrite
  dsimp only
  split; · exact .refl hl
  split; · exact .refl hl
  split; · exact .refl hl
  rename_i hn
  split; · exact .refl hl
  rename_i hwr
  have ho : i ≠ j := fun hs => hwr (hs ▸ hl.readonly)
  have hno : s.aField i = .tor → 0 < i → i - 1 ≠ j := by
    intro ht hp hs
    have hn3 : j + 1 = i := by omega
    apply hn
    rw [hn3, hl.readonly, Bool.and_true]
    exact decide_eq_true ⟨hb, ht⟩
  have hk (k : Nat) (ha : k ≠ j) :
      ((s.setEntry j { s.entries j with addrReg := hw.ulong val }).entries k).addrReg = (s.entries k).addrReg := by
    simp [setEntry, ha]
  split
  case isTrue hne =>
    have hn2 : i ≠ j + 1 := by
      intro hs
      apply hn
      rw [hne, ← hs, hl.readonly]
      rfl
    refine .of_entries hl rfl ?_ fun ht hp => ?_
    · rw [updateRuleAddr_other hw _ hn2, updateRuleAddr_other hw _ ho]
      simp [setEntry, ho]
    · rw [updateRuleAddr_addrReg, updateRuleAddr_addrReg]
      exact hk _ (hno ht hp)
  case isFalse =>
    refine .of_entries hl rfl ?_ fun ht hp => ?_
    · rw [updateRuleAddr_other hw _ ho]
      simp [setEntry, ho]
    · rw [updateRuleAddr_addrReg]
      exact hk _ (hno ht hp)

theorem lockedAny (hl : s.Locked i) (hb : i < hw.regions) :
    (!s.rlbIsset && (List.range hw.regions).any s.isLocked) := by
  rw [hl.rlb]
  exact any_eq_true.mpr ⟨i, mem_range.mpr hb, hl.lock⟩

def mseccfgSticky (hw : Hardware) (val : W64) : W64 :=
  let pmm := hw.extSmmpm && hw.mxl = .rv64 && getField val mseccfgPmm != pmmFieldReserved
  if pmm then mseccfgMmwp ||| mseccfgMml ||| mseccfgPmm else mseccfgMmwp ||| mseccfgMml

theorem mseccfgSticky_cases (hw : Hardware) (val : W64) :
    mseccfgSticky hw val = mseccfgMmwp ||| mseccfgMml ||| mseccfgPmm ∨
      mseccfgSticky hw val = mseccfgMmwp ||| mseccfgMml := by
  unfold mseccfgSticky
  dsimp only
  split
  · exact .inl rfl
  · exact .inr rfl

theorem mseccfgSticky_within (hw : Hardware) (val : W64) : Within (mseccfgSticky hw val) (mseccfgMmwp ||| mseccfgMml) := by
  rcases mseccfgSticky_cases hw val with hwi | hn
  · rw [hwi]
    decide
  · rw [hn]
    exact within_self _

theorem mseccfgSticky_apart {hw : Hardware} : Within (~~~mseccfgRlb) (mseccfgSticky hw val) := by
  rcases mseccfgSticky_cases hw val with hwi | hn
  · rw [hwi]
    decide
  · rw [hn]
    decide

theorem mseccfgCsrWrite_mseccfg (hw : Hardware) (s : State) (val : W64) : (mseccfgCsrWrite hw s val).mseccfg =
    let v := if !s.rlbIsset && (List.range hw.regions).any s.isLocked then val &&& ~~~mseccfgRlb else val
  if hw.extSmepmp then v ||| (s.mseccfg &&& mseccfgSticky hw val)
  else v &&& ~~~(mseccfgSticky hw val ||| mseccfgRlb) := rfl

theorem mseccfgCsrWrite_lockHeld (hl : s.Locked i) (hb : i < hw.regions) :
    LockHeld hw i s (mseccfgCsrWrite hw s val) := by
  have hs := mseccfgCsrWrite_mseccfg hw s val
  rw [if_pos (lockedAny hl hb)] at hs
  have hc : Within (~~~mseccfgRlb) (mseccfgCsrWrite hw s val).mseccfg := by
    rw [hs]
    split
    · apply Within.or
      · exact Within.and_right (within_self _) val
      · exact Within.and_right mseccfgSticky_apart s.mseccfg
    · apply Within.and_right
      rcases mseccfgSticky_cases hw val with hwi | hn
      · rw [hwi]; decide
      · rw [hn]; decide
  have hst {bit : W64} (hi : Within (mseccfgMmwp ||| mseccfgMml) bit) (hsm : hw.extSmepmp)
      (set : (s.mseccfg &&& bit != 0)) : ((mseccfgCsrWrite hw s val).mseccfg &&& bit != 0) := by
    rw [bne_iff_ne] at set ⊢
    rw [hs, if_pos hsm, BitVec.or_comm]
    apply or_and_ne_zero
    rw [BitVec.and_assoc, BitVec.and_comm _ bit, (hi.mono (mseccfgSticky_within hw val)).and_eq]
    exact set
  constructor
  case entry => rfl
  case base => exact fun _ _ => rfl
  case rlb =>
    rw [rlbIsset, hc.and_eq_zero]
    rfl
  case mml => exact hst (by decide)
  case mmwp => exact hst (by decide)

theorem writeStep_lockHeld (hl : s.Locked i) (hb : i < hw.regions) {w : Write} :
    LockHeld hw i s (writeStep hw s w) := by
  cases w with
  | pmpcfg r val => exact pmpcfgCsrWrite_lockHeld hl
  | pmpaddr index val => exact pmpaddrCsrWrite_lockHeld hl hb
  | mseccfg val => exact mseccfgCsrWrite_lockHeld hl hb

theorem run_lockHeld {st : State} (hl : st.Locked i) (hb : i < hw.regions) {w : List Write} :
    LockHeld hw i st (run (writeStep hw) st w) := by
  apply run_invariant _ (LockHeld.refl hl)
  intro s wr hh
  exact hh.trans (writeStep_lockHeld (hh.locked hl) hb)

/-- Over any register writes, a lock that RLB does not lift keeps its entry, the stored range and the base of a TOR
  entry, between any two states of the run. -/
theorem lock_outlives_writes (hw : Hardware) (start : State) (i : Nat) (bound : i < hw.regions)
    (cleared : start.rlbIsset = false) (lock : start.isLocked i = true) (earlier later : List Write) :
    LockHeld hw i (run (writeStep hw) start earlier) (run (writeStep hw) start (earlier ++ later)) := by
  have locked : start.Locked i := ⟨cleared, lock⟩
  rw [run_append]
  exact run_lockHeld ((run_lockHeld locked bound).locked locked) bound

theorem locked_word_stays : LockHeld twoRegions 0 (run (writeStep twoRegions) resetState lockedWord)
    (run (writeStep twoRegions) (run (writeStep twoRegions) resetState lockedWord)
      [.pmpaddr 0 7, .mseccfg 7, .pmpcfg 0 0]) :=
  lock_outlives_writes twoRegions (run (writeStep twoRegions) resetState lockedWord) 0 (by decide) (by decide) (by decide)
    [] [.pmpaddr 0 7, .mseccfg 7, .pmpcfg 0 0]

end

section

def pmpAmatch : BitVec 8 := 0x18
def clearEntry (entry : Entry) : Entry := { entry with cfgReg := entry.cfgReg &&& ~~~(pmpLock ||| pmpAmatch) }

/-- `pmp_unlock_entries`; the loop ends at the number of active rules. -/
def unlockEntries (s : State) : State :=
  (List.range s.numRules).foldl (fun s i => s.setEntry i (clearEntry (s.entries i))) s

def resetHold (hw : Hardware) (s : State) : State :=
  unlockEntries { s with mseccfg := if hw.extSmepmp then 0 else s.mseccfg }

inductive Event where
  | write (write : Write)
  | reset

def step (hw : Hardware) (s : State) : Event → State
  | .write write => writeStep hw s write
  | .reset => resetHold hw s

variable {hw : Hardware}

theorem unlockLoop (s : State) (n : Nat) : (List.range n).foldl (fun s i => s.setEntry i (clearEntry (s.entries i))) s =
    { s with entries := fun i => if i < n then clearEntry (s.entries i) else s.entries i } := by
  induction n with
  | zero => rfl
  | succ n ih =>
    rw [range_succ, foldl_append, ih]
    show setEntry _ _ _ = _
    unfold setEntry
    congr 1
    funext i
    dsimp only
    by_cases hl : i = n
    · rw [if_pos hl, if_neg (Nat.lt_irrefl n), if_pos (by omega), hl]
    · by_cases hb : i < n
      · rw [if_neg hl, if_pos hb, if_pos (by omega)]
      · rw [if_neg hl, if_neg hb, if_neg (by omega)]

theorem resetHold_entries (s : State) (i : Nat) :
    (resetHold hw s).entries i = if i < s.numRules then clearEntry (s.entries i) else s.entries i := by
  rw [resetHold, unlockEntries, unlockLoop]

theorem resetHold_numRules (s : State) : (resetHold hw s).numRules = s.numRules := by
  rw [resetHold, unlockEntries, unlockLoop]

theorem clearEntry_cleared {e : Entry} :
    getAField (clearEntry e).cfgReg = .off ∧ (clearEntry e).cfgReg &&& pmpLock = 0 := by
  unfold clearEntry
  dsimp only
  generalize e.cfgReg = cfg
  revert cfg
  decide +kernel

theorem resetHold_aField (s : State) (i : Nat) :
    (resetHold hw s).aField i = if i < s.numRules then .off else s.aField i := by
  rw [aField, resetHold_entries]
  split
  · exact clearEntry_cleared.1
  · rfl

theorem resetHold_isLocked (s : State) (i : Nat) :
    (resetHold hw s).isLocked i = if i < s.numRules then false else s.isLocked i := by
  rw [isLocked, resetHold_entries]
  split
  · rw [clearEntry_cleared.2]
    rfl
  · rfl

theorem resetHold_prevAddr (s : State) (i : Nat) : (resetHold hw s).prevAddr i = s.prevAddr i := by
  unfold prevAddr
  rw [resetHold_entries]
  by_cases h : i - 1 < s.numRules
  · rw [if_pos h]
    rfl
  · rw [if_neg h]

def RangeCurrent (hw : Hardware) (s : State) (i : Nat) : Prop :=
  s.aField i ≠ .off → ((s.entries i).sa, (s.entries i).ea) =
    ruleRange hw (s.entries i).cfgReg (s.entries i).addrReg (s.prevAddr i)

structure Derived (hw : Hardware) (s : State) : Prop where
  counted : s.numRules = s.activeRules hw
  ranges : ∀ i < hw.regions, RangeCurrent hw s i

theorem rangeCurrent_local {hw : Hardware} : EntryLocal hw (RangeCurrent hw) where
  fresh s i := by
    intro _
    rw [updateRuleAddr_prevAddr]
    simp [updateRuleAddr, setEntry]
  congr {s s' i} hc hs previous := by
    intro ha
    have hf : s'.aField i = s.aField i := by rw [aField, aField, hs]
    rw [hf] at ha
    rw [hs, hc ha]
    by_cases ht : s.aField i = .tor
    · rw [previous ht]
    · exact ruleRange_prev _ _ _ _ _ ht

variable {s : State}

theorem writeStep_derived {w : Write} (h : Derived hw s) : Derived hw (writeStep hw s w) where
  counted := writeStep_counted s w h.counted
  ranges i bound := rangeCurrent_local.writeStep s w bound (h.ranges i bound)

theorem resetHold_rangeCurrent {i : Nat} (hcu : RangeCurrent hw s i) :
    RangeCurrent hw (resetHold hw s) i := by
  intro ha
  rw [resetHold_aField] at ha
  by_cases hc : i < s.numRules
  · rw [if_pos hc] at ha
    exact absurd rfl ha
  · rw [if_neg hc] at ha
    rw [resetHold_entries, if_neg hc, resetHold_prevAddr]
    exact hcu ha

theorem activeRules_le : s.activeRules hw ≤ hw.regions := by
  have h := length_filter_le (fun i => decide (s.aField i ≠ .off)) (List.range hw.regions)
  rw [length_range] at h
  exact h

theorem resetHold_activeRules_iff {hw : Hardware} (hf : s.numRules ≤ hw.regions) :
    (resetHold hw s).activeRules hw = s.activeRules hw ↔ ∀ i < s.numRules, s.aField i = .off := by
  constructor
  · intro hsa i hc
    have hs : ((List.range hw.regions).filter fun i => (resetHold hw s).aField i ≠ .off).Sublist
        ((List.range hw.regions).filter fun i => s.aField i ≠ .off) := by
      apply monotone_filter_right
      intro j ha
      rw [decide_eq_true_eq, resetHold_aField] at ha
      split at ha
      · exact absurd rfl ha
      · exact decide_eq_true ha
    have hl := hs.eq_of_length hsa
    by_contra ha
    have hm : i ∈ (List.range hw.regions).filter fun i => s.aField i ≠ .off :=
      mem_filter.mpr ⟨mem_range.mpr (by omega), decide_eq_true ha⟩
    rw [← hl, mem_filter, resetHold_aField, if_pos hc] at hm
    exact absurd hm.2 (by decide)
  · intro hn
    apply activeRules_congr
    intro i _
    rw [resetHold_aField]
    split
    case isTrue hc => exact (hn i hc).symm
    case isFalse => rfl

def ClearsNone (s : State) : Event → Prop
  | .write _ => True
  | .reset => ∀ i < s.numRules, s.aField i = .off

theorem step_derived_iff {event : Event} (hd : Derived hw s) :
    Derived hw (step hw s event) ↔ ClearsNone s event := by
  cases event with
  | write write => exact iff_of_true (writeStep_derived hd) True.intro
  | reset =>
    have hf : s.numRules ≤ hw.regions := hd.counted ▸ activeRules_le
    rw [ClearsNone, ← resetHold_activeRules_iff hf]
    constructor
    · intro ha
      have hc := ha.counted
      rw [step, resetHold_numRules] at hc
      rw [← hc, hd.counted]
    · intro hs
      refine ⟨?_, fun i hb => resetHold_rangeCurrent (hd.ranges i hb)⟩
      rw [step, resetHold_numRules, hs]
      exact hd.counted

theorem resetState_derived {hw : Hardware} : Derived hw resetState where
  counted := resetState_counted hw
  ranges i _ active := absurd (resetState_aField i) active

/-- The count of rules and the stored ranges are current after every step of a run exactly when no reset of the run
  clears an active rule: reset does not count the rules anew. -/
theorem derived_state_current_iff (hw : Hardware) (events : List Event) :
    StepsMeet (step hw) (fun s event => Derived hw (step hw s event)) resetState events ↔
      StepsMeet (step hw) ClearsNone resetState events :=
  stepsMeet_invariant_iff (fun _ _ derived => step_derived_iff derived) resetState_derived

theorem reset_leaves_rule_counted : (run (step twoRegions) resetState [.write (.pmpcfg 0 0x1f), .reset]).numRules = 1 ∧
    (run (step twoRegions) resetState [.write (.pmpcfg 0 0x1f), .reset]).activeRules twoRegions = 0 := by
  decide

/-- Reset clears every entry exactly when the active entries come first and no entry after them is locked. -/
theorem reset_unlocks_iff (hw : Hardware) (writes : List Write) : (∀ i, i < hw.regions →
    (resetHold hw (run (writeStep hw) resetState writes)).isLocked i = false ∧
      (resetHold hw (run (writeStep hw) resetState writes)).aField i = .off) ↔
    ∀ i, i < hw.regions → (run (writeStep hw) resetState writes).activeRules hw ≤ i →
      (run (writeStep hw) resetState writes).isLocked i = false ∧
        (run (writeStep hw) resetState writes).aField i = .off := by
  rw [← reachable_counted]
  apply forall_congr'
  intro i
  apply imp_congr_right
  intro _
  rw [resetHold_isLocked, resetHold_aField]
  by_cases counted : i < (run (writeStep hw) resetState writes).numRules
  · rw [if_pos counted, if_pos counted]
    exact iff_of_true ⟨rfl, rfl⟩ fun above => absurd counted (by omega)
  · rw [if_neg counted, if_neg counted]
    exact ⟨fun clear _ => clear, fun clear => clear (by omega)⟩

theorem reset_keeps_second_entry :
    (resetHold twoRegions (run (writeStep twoRegions) resetState [.pmpcfg 0 0x9f00])).isLocked 1 = true ∧
      (resetHold twoRegions (run (writeStep twoRegions) resetState [.pmpcfg 0 0x9f00])).aField 1 = .napot := by
  decide

end

end RiscvEmulators.Qemu.Pmp
