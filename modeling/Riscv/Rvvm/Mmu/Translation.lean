import Riscv.Rvvm.Mmu.Walk
import Mathlib.Logic.Function.Basic

namespace RiscvEmulators.Rvvm
open Word BitVec Scheme

def adBits : W64 := pteAccessed ||| pteDirty

/-- What the page tables say about an address, whoever asks: the leaf entry without its accessed and dirty bits, and the
  level and the place it was found at. -/
structure Leaf where
  pte : W64
  bitOff : Nat
  place : Addr

def Scheme.lookup (scheme : Scheme) (board : Board) (host : Addr → BitVec 8) (vaddr : Addr) :
    Nat → Addr → Nat → Option Leaf
  | 0, _, _ => none
  | rounds + 1, pagetable, bitOff =>
    (physAccess board (pagetable + scheme.pteOffset vaddr bitOff)).bind fun ptePtr =>
    let pte := scheme.readPte host ptePtr &&& ~~~adBits
    if pte &&& pteValid ≠ 0 then
      if pte &&& pteLeaf ≠ 0 then some ⟨pte, bitOff, ptePtr⟩
      else if pte &&& mmuWrite = 0 then
        lookup scheme board host vaddr rounds (scheme.nextTable pte) (bitOff - scheme.vpnBits)
      else lookup scheme board host vaddr rounds pagetable bitOff
    else lookup scheme board host vaddr rounds pagetable bitOff

def Leaf.Permits (leaf : Leaf) (status : W64) (priv : Priv) (access : W64) : Prop :=
  ¬(decide (leaf.pte &&& pteUser ≠ 0) = decide (priv ≠ 0) ∧ ¬checkPriv status priv access) ∧ leaf.pte &&& access ≠ 0

instance (leaf : Leaf) (status : W64) (priv : Priv) (access : W64) :
    Decidable (leaf.Permits status priv access) := inferInstanceAs (Decidable (_ ∧ _))

def Leaf.resolve (leaf : Leaf) (scheme : Scheme) (status : W64) (priv : Priv) (access : W64) (vaddr : Addr) :
    Option Addr :=
  if leaf.Permits status priv access ∧ ¬scheme.misaligned leaf.pte leaf.bitOff then
    some (scheme.combine leaf.pte vaddr leaf.bitOff)
  else none

def Scheme.Deep (scheme : Scheme) (rounds bitOff : Nat) : Prop := pageShift + scheme.vpnBits * rounds ≤ bitOff

section
variable {s : Scheme} {r bitOff : Nat} (d : s.Deep (r + 1) (bitOff + s.vpnBits))
include d

theorem Scheme.Deep.same : s.Deep r (bitOff + s.vpnBits) := by
  unfold Scheme.Deep at d ⊢
  rw [Nat.mul_succ] at d
  omega

theorem Scheme.Deep.below : s.Deep r (bitOff - s.vpnBits + s.vpnBits) := by
  unfold Scheme.Deep at d ⊢
  rw [Nat.mul_succ] at d
  omega

theorem Scheme.Deep.page_here : pageShift ≤ bitOff := by
  unfold Scheme.Deep at d
  rw [Nat.mul_succ] at d
  omega

end

section
variable (pte : W64) (s : Scheme)

theorem strip_and {bits : W64} (apart : Within (~~~adBits) bits) : (pte &&& ~~~adBits) &&& bits = pte &&& bits := by
  have ha : AgreeOff adBits (pte &&& ~~~adBits) pte := agreeOff_and_not pte (by decide)
  exact ha.and_eq apart

theorem strip_getLsbD {i : Nat} (hh : 8 ≤ i) : (pte &&& ~~~adBits).getLsbD i = pte.getLsbD i := by
  have hc : adBits.getLsbD i = false := by
    have hs : adBits = BitVec.setWidth 64 (0xC0 : BitVec 8) := by decide
    rw [hs, getLsbD_setWidth, getLsbD_of_ge _ _ hh, Bool.and_false]
  rw [getLsbD_and, getLsbD_not, hc]
  by_cases hb : i < 64
  · simp [hb]
  · simp [getLsbD_of_ge pte i (by omega)]

theorem nextTable_strip (pte : W64) : s.nextTable (pte &&& ~~~adBits) = s.nextTable pte := by
  have h : (pte &&& ~~~adBits) >>> 10 = pte >>> 10 := by
    apply eq_of_getLsbD_eq
    intro i _
    rw [getLsbD_ushiftRight, getLsbD_ushiftRight, strip_getLsbD pte (by omega)]
  rw [nextTable, nextTable, h]

theorem pteShifted_strip {pte mask : W64} (hp : ∀ i < pageShift, mask.getLsbD i = false) :
    s.pteShifted (pte &&& ~~~adBits) &&& mask = s.pteShifted pte &&& mask := by
  apply eq_of_getLsbD_eq
  intro i _
  unfold pteShifted
  rw [getLsbD_and, getLsbD_and, getLsbD_and, getLsbD_and, getLsbD_shiftLeft,
    getLsbD_shiftLeft]
  by_cases hl : i < pageShift
  · rw [hp i hl, Bool.and_false, Bool.and_false]
  · rw [strip_getLsbD pte (by unfold pageShift at hl; omega)]

theorem misaligned_strip (pte : W64) (bitOff : Nat) :
    s.misaligned (pte &&& ~~~adBits) bitOff = s.misaligned pte bitOff := by
  have ha (i : Nat) (hl : i < pageShift) : (bitMask bitOff &&& ~~~(bitMask pageShift)).getLsbD i = false := by
    have ho : (bitMask pageShift).getLsbD i := by
      revert hl i
      decide
    rw [getLsbD_and, getLsbD_not, ho, Bool.not_true, Bool.and_false, Bool.and_false]
  unfold misaligned
  rw [BitVec.and_assoc, BitVec.and_assoc, pteShifted_strip s ha]

theorem combine_strip (pte : W64) (vaddr : Addr) {bitOff : Nat} (hp : pageShift ≤ bitOff) :
    s.combine (pte &&& ~~~adBits) vaddr bitOff = s.combine pte vaddr bitOff := by
  have ha (i : Nat) (hl : i < pageShift) : (bitMask (s.physBits - bitOff) <<< bitOff).getLsbD i = false := by
    simp [Nat.lt_of_lt_of_le hl hp]
  unfold combine
  rw [pteShifted_strip s ha]

theorem permits_strip (bitOff : Nat) (place : Addr) (st : W64) (pv : Priv) {a : W64}
    (h : Within (~~~adBits) a) : (Leaf.mk (pte &&& ~~~adBits) bitOff place).Permits st pv a ↔
      ¬(decide (pte &&& pteUser ≠ 0) = decide (pv ≠ 0) ∧ ¬checkPriv st pv a) ∧ pte &&& a ≠ 0 := by
  unfold Leaf.Permits
  rw [strip_and _ h, strip_and _ (by decide)]

end

section
variable {s : Scheme} {bd : Board} {vm : Vm} {vaddr : Addr} {pr : Priv} {ac : W64}

theorem walk_denied {pt p : Addr} {bitOff : Nat} (hh : physAccess bd (pt + s.pteOffset vaddr bitOff) = some p)
    (hv : s.readPte vm.host p &&& pteValid ≠ 0) (hl : s.readPte vm.host p &&& pteLeaf ≠ 0)
    (hd : s.readPte vm.host p &&& ac = 0) (n : Nat) : s.walk bd vm vaddr pr ac n pt bitOff = none := by
  induction n with
  | zero => rfl
  | succ n ih =>
    rw [walk, hh, Option.bind_some]
    rw [if_pos hv, if_pos hl]
    split
    · rfl
    · rw [if_neg (not_not_intro hd), ih]

theorem walk_eq_lookup (has : Within (~~~adBits) ac) {n bitOff : Nat} (pt : Addr) (de : s.Deep n (bitOff + s.vpnBits)) :
    (s.walk bd vm vaddr pr ac n pt bitOff).map (fun found => (found.paddr, found.ptePtr)) =
      (s.lookup bd vm.host vaddr n pt bitOff).bind
        fun lf => (lf.resolve s vm.status pr ac vaddr).map fun paddr => (paddr, lf.place) := by
  induction n generalizing pt bitOff with
  | zero => rfl
  | succ n ih =>
    rw [walk, lookup]
    cases hh : physAccess bd (pt + s.pteOffset vaddr bitOff) with
    | none => rfl
    | some p =>
      have page : pageShift ≤ bitOff := de.page_here
      have ha := ih pt de.same
      simp only [Option.bind_some]
      rw [strip_and _ (by decide), strip_and _ (by decide), strip_and _ (by decide), nextTable_strip]
      by_cases hv : s.readPte vm.host p &&& pteValid ≠ 0
      · rw [if_pos hv, if_pos hv]
        by_cases lf : s.readPte vm.host p &&& pteLeaf ≠ 0
        · rw [if_pos lf, if_pos lf, Option.bind_some]
          have hp := permits_strip (s.readPte vm.host p) bitOff p vm.status pr has
          rw [Leaf.resolve, misaligned_strip, combine_strip s _ _ page]
          by_cases hr : decide (s.readPte vm.host p &&& pteUser ≠ 0) = decide (pr ≠ 0) ∧ ¬checkPriv vm.status pr ac
          · rw [if_pos hr, if_neg (fun hb => (hp.mp hb.1).1 hr)]
            rfl
          · rw [if_neg hr]
            by_cases hd : s.readPte vm.host p &&& ac = 0
            · rw [if_neg (not_not_intro hd), if_neg (fun hb => (hp.mp hb.1).2 hd), walk_denied hh hv lf hd]
              rfl
            · rw [if_pos hd]
              by_cases ho : s.misaligned (s.readPte vm.host p) bitOff
              · rw [if_pos ho, if_neg (fun hb => hb.2 ho)]
                rfl
              · rw [if_neg ho, if_pos ⟨hp.mpr ⟨hr, hd⟩, ho⟩]
                rfl
        · rw [if_neg lf, if_neg lf]
          by_cases ht : s.readPte vm.host p &&& mmuWrite = 0
          · rw [if_pos ht, if_pos ht]
            exact ih _ de.below
          · rw [if_neg ht, if_neg ht]
            exact ha
      · rw [if_neg hv, if_neg hv]
        exact ha

end

theorem readLe_getLsbD (host : Addr → BitVec 8) (ptr : Addr) {n : Nat} (small : n ≤ 8) (i : Nat) :
    (readLe host ptr n).getLsbD i = (decide (i < 8 * n) && (host (ptr + BitVec.ofNat 64 (i / 8))).getLsbD (i % 8)) := by
  induction n with
  | zero => simp [readLe]
  | succ n ih =>
    rw [readLe, getLsbD_or, ih (by omega), getLsbD_shiftLeft, getLsbD_setWidth]
    by_cases low : i < 8 * n
    · simp [low, show i < 8 * (n + 1) by omega]
    · by_cases here : i < 8 * (n + 1)
      · have byte : i / 8 = n := by omega
        have bit : i - 8 * n = i % 8 := by omega
        have narrow : i % 8 < 64 := by omega
        simp [low, here, byte, bit, narrow, show i < 64 by omega]
      · rw [getLsbD_of_ge (host _) _ (by omega : 8 ≤ i - 8 * n)]
        simp [low, here]

theorem readLe_byte (host : Addr → BitVec 8) (ptr : Addr) {n i : Nat} (small : n ≤ 8) (inside : i < n) :
    (readLe host ptr n >>> (8 * i)).setWidth 8 = host (ptr + BitVec.ofNat 64 i) := by
  apply eq_of_getLsbD_eq
  intro k low
  rw [getLsbD_setWidth, getLsbD_ushiftRight, readLe_getLsbD host ptr small]
  have byte : (8 * i + k) / 8 = i := by omega
  have bit : (8 * i + k) % 8 = k := by omega
  simp [byte, bit, low, show 8 * i + k < 8 * n by omega]

theorem readLe_congr {ho h' : Addr → BitVec 8} {ptr : Addr} {n : Nat}
    (hs : ∀ i < n, h' (ptr + BitVec.ofNat 64 i) = ho (ptr + BitVec.ofNat 64 i)) :
    readLe h' ptr n = readLe ho ptr n := by
  induction n with
  | zero => rfl
  | succ n ih => rw [readLe, readLe, ih (fun i hb => hs i (by omega)), hs n (by omega)]

def SameTables (scheme : Scheme) (board : Board) (host host' : Addr → BitVec 8) : Prop :=
  ∀ ptr : Addr, Aligned scheme.pteShift (ptr - board.mem.data) →
    AgreeOff adBits (scheme.readPte host' ptr) (scheme.readPte host ptr)

def markBits (access : W64) : W64 := pteAccessed ||| ((access &&& mmuWrite) <<< 5)

theorem markBits_within (access : W64) : Within adBits (markBits access) := by
  apply Within.or (by decide)
  rw [within_iff]
  intro i bound clear
  have other : i ≠ 7 := by
    intro seven
    rw [← getLsbD_eq_getElem bound, seven] at clear
    cases clear
  by_cases low : i < 5
  · simp [low]
  · have unwritten : mmuWrite.getLsbD (i - 5) = false := by
      have single : mmuWrite = BitVec.twoPow 64 2 := by decide
      rw [single]
      have two : 2 ≠ i - 5 := by omega
      simp [two]
    simp [← getLsbD_eq_getElem, unwritten]

structure Found.Marks (found : Found) (scheme : Scheme) (board : Board) (host : Addr → BitVec 8) (access : W64) :
    Prop where
  aligned : Aligned scheme.pteShift (found.ptePtr - board.mem.data)
  sets : found.pteAd = scheme.readPte host found.ptePtr ||| markBits access

def Scheme.Entry (scheme : Scheme) : Prop := scheme.pteShift ≤ 3

section
variable {s : Scheme} {bd : Board} {h : Addr → BitVec 8}

theorem Scheme.Entry.size (entry : s.Entry) : 0 < 2 ^ s.pteShift ∧ 2 ^ s.pteShift ≤ 8 := by
  have narrow : s.pteShift ≤ 3 := entry
  exact ⟨Nat.two_pow_pos _, Nat.pow_le_pow_right (by decide) narrow⟩

theorem markPte_eq (entry : s.Entry) {ptr : Addr} {bits : W64} (within : Within adBits bits) :
    markPte h ptr (2 ^ s.pteShift) (s.readPte h ptr ||| bits) = Function.update h ptr (h ptr ||| bits.setWidth 8) := by
  obtain ⟨positive, small⟩ := entry.size
  funext p
  have size : (BitVec.ofNat 64 (2 ^ s.pteShift)).toNat = 2 ^ s.pteShift := by
    rw [toNat_ofNat, Nat.mod_eq_of_lt (by omega)]
  unfold markPte memcpy
  rw [size]
  by_cases first : p = ptr
  · subst first
    have byte := readLe_byte h p small positive
    rw [Nat.mul_zero, ushiftRight_zero] at byte
    rw [Function.update_self, BitVec.sub_self, if_pos (by simp [positive])]
    simp only [toNat_zero, Nat.mul_zero, ushiftRight_zero, setWidth_or]
    rw [Scheme.readPte, byte, BitVec.add_zero]
  · rw [Function.update_of_ne first]
    split
    case isFalse => rfl
    case isTrue inside =>
      have there : ptr + BitVec.ofNat 64 (p - ptr).toNat = p := by
        rw [ofNat_toNat, setWidth_eq, BitVec.add_comm, BitVec.sub_add_cancel]
      have later : 0 < (p - ptr).toNat := by
        apply Nat.pos_of_ne_zero
        intro zero
        rw [zero, BitVec.add_zero] at there
        exact first there.symm
      have high : (bits >>> (8 * (p - ptr).toNat)).setWidth 8 = 0#8 := by
        apply eq_of_getLsbD_eq
        intro i _
        have clear : adBits.getLsbD (8 * (p - ptr).toNat + i) = false := by
          have low : adBits = BitVec.setWidth 64 (0xC0 : BitVec 8) := by decide
          rw [low, getLsbD_setWidth, getLsbD_of_ge _ _ (by omega), Bool.and_false]
        rw [getLsbD_setWidth, getLsbD_ushiftRight, getLsbD_zero, ← within.and_eq, getLsbD_and, clear, Bool.and_false,
          Bool.and_false]
      dsimp only
      rw [ushiftRight_or_distrib, setWidth_or, high, or_zero, Scheme.readPte, readLe_byte h ptr small inside, there]

theorem readPte_update (entry : s.Entry) {ptr : Addr} {bits : W64} (within : Within adBits bits) :
    AgreeOff adBits (s.readPte (Function.update h ptr (h ptr ||| bits.setWidth 8)) ptr) (s.readPte h ptr) := by
  obtain ⟨-, small⟩ := entry.size
  rw [agreeOff_iff]
  intro i bound clear
  rw [← getLsbD_eq_getElem, ← getLsbD_eq_getElem, Scheme.readPte, Scheme.readPte, readLe_getLsbD _ _ small,
    readLe_getLsbD _ _ small]
  congr 1
  by_cases low : i < 8
  · have off : bits.getLsbD i = false := by
      rw [← getLsbD_eq_getElem bound] at clear
      rw [← within.and_eq, getLsbD_and, clear, Bool.and_false]
    have byte : i / 8 = 0 := by omega
    simp [byte, Nat.mod_eq_of_lt low, off]
  · have apart : ptr + BitVec.ofNat 64 (i / 8) ≠ ptr := by
      intro same
      have zero : BitVec.ofNat 64 (i / 8) = 0#64 := by simpa using same
      have none := congrArg BitVec.toNat zero
      rw [toNat_ofNat, Nat.mod_eq_of_lt (by omega)] at none
      simp at none
      omega
    rw [Function.update_of_ne apart]

theorem Found.Marks.update {f : Found} {access : W64} (marks : f.Marks s bd h access) (entry : s.Entry) :
    markPte h f.ptePtr (2 ^ s.pteShift) f.pteAd =
      Function.update h f.ptePtr (h f.ptePtr ||| (markBits access).setWidth 8) := by
  rw [marks.sets, markPte_eq entry (markBits_within access)]

theorem Found.Marks.sameTables {f : Found} {access : W64} (marks : f.Marks s bd h access) (entry : s.Entry) :
    SameTables s bd h (markPte h f.ptePtr (2 ^ s.pteShift) f.pteAd) := by
  rw [marks.update entry]
  intro ptr aligned
  by_cases here : ptr = f.ptePtr
  · subst here
    exact readPte_update entry (markBits_within access)
  · have same : s.readPte (Function.update h f.ptePtr (h f.ptePtr ||| (markBits access).setWidth 8)) ptr =
        s.readPte h ptr := by
      apply readLe_congr
      intro i inside
      have apart : ptr + BitVec.ofNat 64 i ≠ f.ptePtr := by
        intro meets
        apply here
        have near : (f.ptePtr - bd.mem.data - (ptr - bd.mem.data)).toNat < 2 ^ s.pteShift := by
          have gap : f.ptePtr - bd.mem.data - (ptr - bd.mem.data) = BitVec.ofNat 64 i := by
            rw [← meets, BitVec.add_comm ptr, BitVec.sub_eq_add_neg _ bd.mem.data, BitVec.add_assoc,
              ← BitVec.sub_eq_add_neg, BitVec.add_sub_cancel]
          rw [gap]
          exact Nat.lt_of_le_of_lt (Nat.mod_le _ _) inside
        have narrow : s.pteShift ≤ 3 := entry
        have equal := marks.aligned.eq_of_near aligned (by omega) near
        have places := congrArg (· + bd.mem.data) equal
        simpa using places.symm
      rw [Function.update_of_ne apart]
    rw [same]
    exact AgreeOff.refl _ _

theorem ptePtr_aligned {pt va p : Addr} {bo : Nat} (he : s.Entry) (ht : Aligned 12 pt)
    (hh : physAccess bd (pt + s.pteOffset va bo) = some p) : Aligned s.pteShift (p - bd.mem.data) := by
  have hn : s.pteShift ≤ 3 := he
  unfold physAccess at hh
  split at hh
  · cases hh
    have ho : hostPtr bd.mem (pt + s.pteOffset va bo) - bd.mem.data = pt + s.pteOffset va bo - bd.mem.addr := by
      rw [hostPtr, BitVec.add_comm, BitVec.add_sub_cancel]
    rw [ho]
    have hs : Aligned s.pteShift (s.pteOffset va bo) :=
      aligned_shiftLeft (Nat.le_refl _) (by omega)
    exact ((ht.mono (by omega)).add hs (by omega)).sub (bd.addrAligned.mono (by omega)) (by omega)
  · cases hh

theorem nextTable_aligned {pte : W64} : Aligned 12 (s.nextTable pte) :=
  (aligned_shiftLeft (Nat.le_refl _) (by decide)).and _

theorem walk_marks {vm : Vm} {va : Addr} {pv : Priv} {ac : W64} (he : s.Entry) {n bo : Nat}
    {pt : Addr} (ht : Aligned 12 pt) {f : Found} (hw : s.walk bd vm va pv ac n pt bo = some f) :
    f.Marks s bd vm.host ac := by
  induction n generalizing pt bo with
  | zero => cases hw
  | succ n ih =>
    obtain ⟨p, hh, hw⟩ := Option.bind_eq_some_iff.mp hw
    dsimp only at hw
    split at hw
    · split at hw
      · split at hw
        · cases hw
        · split at hw
          · split at hw
            · cases hw
            · cases hw
              exact ⟨ptePtr_aligned he ht hh, BitVec.or_assoc _ _ _⟩
          · exact ih ht hw
      · split at hw
        · exact ih nextTable_aligned hw
        · exact ih ht hw
    · exact ih ht hw

theorem lookup_congr {h' : Addr → BitVec 8} (hs : SameTables s bd h h') (he : s.Entry)
    (va : Addr) (n : Nat) {pt : Addr} (ht : Aligned 12 pt) (bitOff : Nat) :
    s.lookup bd h' va n pt bitOff = s.lookup bd h va n pt bitOff := by
  induction n generalizing pt bitOff with
  | zero => rfl
  | succ n ih =>
    rw [Scheme.lookup, Scheme.lookup]
    cases hh : physAccess bd (pt + s.pteOffset va bitOff) with
    | none => rw [Option.bind_none, Option.bind_none]
    | some p =>
      have hr : s.readPte h' p &&& ~~~adBits = s.readPte h p &&& ~~~adBits :=
        hs p (ptePtr_aligned he ht hh)
      simp only [Option.bind_some]
      rw [hr, ih ht, ih nextTable_aligned]

end

end RiscvEmulators.Rvvm
