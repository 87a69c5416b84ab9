import Riscv.Qemu.Pmp.Decision
import Riscv.Transition.Run

namespace RiscvEmulators.Qemu.Pmp
open Word Cpu Transition State BitVec Rules

structure RangeHeld (hw : Hardware) (s : State) (i : Nat) : Prop where
  bounds : ((s.entries i).sa, (s.entries i).ea) = s.registerRange hw i
  idle : s.aField i = .off → (s.entries i).ea = 0 ∨ (s.entries i).ea = -1

structure Consistent (hw : Hardware) (s : State) : Prop where
  held : ∀ i < hw.regions, RangeHeld hw s i
  counted : s.numRules = 0 ↔ ∀ i < hw.regions, s.aField i = .off

theorem ruleRange_prev (hw : Hardware) (cfg : BitVec 8) (addr first second : W64) (h : getAField cfg ≠ .tor) :
    ruleRange hw cfg addr first = ruleRange hw cfg addr second := by
  unfold ruleRange
  split <;> first | rfl | contradiction

theorem RangeHeld.congr {hw : Hardware} {s s' : State} {i : Nat} (hh : RangeHeld hw s i)
    (same : s'.entries i = s.entries i) (hp : s.aField i = .tor → s'.prevAddr i = s.prevAddr i) : RangeHeld hw s' i := by
  have hs : s'.aField i = s.aField i := by rw [aField, aField, same]
  refine ⟨?_, by rw [hs, same]; exact hh.idle⟩
  rw [same, hh.bounds]
  unfold registerRange
  rw [hs, same]
  split
  · rfl
  · by_cases ht : s.aField i = .tor
    · rw [hp ht]
    · exact ruleRange_prev _ _ _ _ _ ht

theorem updateRuleAddr_other (hw : Hardware) (s : State) {i j : Nat} (h : j ≠ i) :
    (updateRuleAddr hw s i).entries j = s.entries j := by
  simp [updateRuleAddr, setEntry, h]

@[simp] theorem updateRuleAddr_cfgReg (hw : Hardware) (s : State) (i j : Nat) :
    ((updateRuleAddr hw s i).entries j).cfgReg = (s.entries j).cfgReg := by
  by_cases h : j = i <;> simp [updateRuleAddr, setEntry, h]

@[simp] theorem updateRuleAddr_addrReg (hw : Hardware) (s : State) (i j : Nat) :
    ((updateRuleAddr hw s i).entries j).addrReg = (s.entries j).addrReg := by
  by_cases h : j = i <;> simp [updateRuleAddr, setEntry, h]

@[simp] theorem updateRuleAddr_prevAddr (hw : Hardware) (s : State) (i j : Nat) :
    (updateRuleAddr hw s i).prevAddr j = s.prevAddr j := by
  simp [prevAddr]

theorem updateRuleAddr_held (hw : Hardware) (s : State) (i : Nat) : RangeHeld hw (updateRuleAddr hw s i) i := by
  have hs : ((updateRuleAddr hw s i).entries i).sa = (ruleRange hw (s.entries i).cfgReg
      (s.entries i).addrReg (s.prevAddr i)).1 ∧ ((updateRuleAddr hw s i).entries i).ea =
      (ruleRange hw (s.entries i).cfgReg (s.entries i).addrReg (s.prevAddr i)).2 := by
    simp [updateRuleAddr, setEntry]
  have kind : (updateRuleAddr hw s i).aField i = .off →
      ruleRange hw (s.entries i).cfgReg (s.entries i).addrReg (s.prevAddr i) = (0, -1) := by
    intro ho
    rw [aField, updateRuleAddr_cfgReg] at ho
    rw [ruleRange, ho]
  refine ⟨?_, fun ho => .inr (by rw [hs.2, kind ho])⟩
  unfold registerRange
  split
  · rename_i ho
    rw [hs.1, kind ho]
  · rw [hs.1, hs.2]
    simp

/-- A property of single entries that every update establishes, and that depends on nothing but the entry and, for TOR,
  the previous pmpaddr. -/
structure EntryLocal (hw : Hardware) (holds : State → Nat → Prop) : Prop where
  fresh : ∀ s i, holds (updateRuleAddr hw s i) i
  congr : ∀ {s s' : State} {i : Nat}, holds s i → s'.entries i = s.entries i →
    (s.aField i = .tor → s'.prevAddr i = s.prevAddr i) → holds s' i

section
variable {hw : Hardware} {hol : State → Nat → Prop}

theorem EntryLocal.update (he : EntryLocal hw holds) {s : State} {i j : Nat} (hh : j ≠ i → holds s j) :
    holds (updateRuleAddr hw s i) j := by
  by_cases hs : j = i
  · rw [hs]
    exact he.fresh s i
  · exact he.congr (hh hs) (updateRuleAddr_other hw s hs) fun _ => updateRuleAddr_prevAddr hw s i j

theorem writeCfg_cases (hw : Hardware) (s : State) (i : Nat) (val : BitVec 8) :
    writeCfg hw s i val = (s, false) ∨ s.isReadonly i = false ∧ ∃ cfg, writeCfg hw s i val =
      (updateRuleAddr hw (s.setEntry i { s.entries i with cfgReg := cfg }) i, true) := by
  unfold writeCfg
  dsimp only
  repeat' split
  all_goals first | exact .inl rfl | exact .inr ⟨by simpa using ‹¬s.isReadonly i›, _, rfl⟩

theorem setEntry_cfg_prevAddr {s : State} {i j : Nat} {cfg : BitVec 8} :
    (s.setEntry i { s.entries i with cfgReg := cfg }).prevAddr j = s.prevAddr j := by
  unfold prevAddr setEntry
  dsimp only
  by_cases h : j - 1 = i
  · rw [if_pos h, h]
  · rw [if_neg h]

theorem EntryLocal.writeCfg (he : EntryLocal hw holds) (s : State) (i : Nat) (val : BitVec 8) {j : Nat}
    (hh : holds s j) : holds (writeCfg hw s i val).1 j := by
  rcases writeCfg_cases hw s i val with hu | ⟨-, cfg, hc⟩
  · rw [hu]
    exact hh
  · rw [hc]
    apply he.update
    intro ho
    exact he.congr hh (by simp [setEntry, ho]) fun _ => setEntry_cfg_prevAddr

theorem pmpcfgCsrWrite_keeps {k : State → Prop} (hb : ∀ s i val, k s → k (writeCfg hw s i val).1)
    (hu : ∀ s n, k s → k { s with numRules := n }) (s : State) (r : Nat) (val : W64)
    (hs : k s) : k (pmpcfgCsrWrite hw s r val) := by
  have wrote : k ((List.range (Mxl.cfgNums hw.mxl)).foldl (writeCfgBytes hw r val) (s, false)).1 :=
    @run_invariant (State × Bool) Nat (writeCfgBytes hw r val) (fun st => k st.1) (s, false) _
      (fun st i hh => hb st.1 _ _ hh) hs
  unfold pmpcfgCsrWrite
  dsimp only
  split
  · exact hu _ _ wrote
  · exact wrote

theorem writeCfgBytes_untouched (r : Nat) (val : W64) {start : State} (s : State × Bool) (i : Nat)
    (hb : s.2 = false → s.1 = start) :
    (writeCfgBytes hw r val s i).2 = false → (writeCfgBytes hw r val s i).1 = start := by
  unfold writeCfgBytes
  rcases writeCfg_cases hw s.1 (r * 4 + i) ((val >>> (8 * i)).setWidth 8) with hu | ⟨-, cfg, hc⟩
  · rw [hu]
    dsimp only
    rw [Bool.or_false]
    exact hb
  · rw [hc]
    dsimp only
    rw [Bool.or_true]
    intro touched
    cases touched

def State.activeRules (hw : Hardware) (s : State) : Nat :=
  ((List.range hw.regions).filter fun i => s.aField i ≠ .off).length

theorem activeRules_eq_zero_iff (s : State) : s.activeRules hw = 0 ↔ ∀ i < hw.regions, s.aField i = .off := by
  simp [activeRules]

theorem activeRules_congr {s s' : State} (hs : ∀ i < hw.regions, s'.aField i = s.aField i) :
    s'.activeRules hw = s.activeRules hw := by
  unfold activeRules
  congr 1
  apply List.filter_congr
  intro i hm
  rw [hs i (List.mem_range.mp hm)]

theorem pmpcfgCsrWrite_counted {s : State} {r : Nat} {val : W64} (hc : s.numRules = s.activeRules hw) :
    (pmpcfgCsrWrite hw s r val).numRules = (pmpcfgCsrWrite hw s r val).activeRules hw := by
  have hl := @run_invariant (State × Bool) Nat (writeCfgBytes hw r val) (fun st => st.2 = false → st.1 = s) (s, false)
    (List.range (Mxl.cfgNums hw.mxl)) (writeCfgBytes_untouched r val) fun _ => rfl
  unfold pmpcfgCsrWrite
  dsimp only
  split
  case isTrue changed => rfl
  case isFalse hu =>
    rw [run] at hl
    rw [hl (by simpa using hu)]
    exact hc

theorem pmpaddrCsrWrite_cfgReg (hw : Hardware) (s : State) (i : Nat) (val : W64) (j : Nat) :
    ((pmpaddrCsrWrite hw s i val).entries j).cfgReg = (s.entries j).cfgReg := by
  unfold pmpaddrCsrWrite
  dsimp only
  repeat' split
  all_goals first | rfl | (simp only [updateRuleAddr_cfgReg, setEntry]; split <;> simp_all)

theorem pmpaddrCsrWrite_numRules (hw : Hardware) (s : State) (i : Nat) (val : W64) :
    (pmpaddrCsrWrite hw s i val).numRules = s.numRules := by
  unfold pmpaddrCsrWrite
  dsimp only
  repeat' split
  all_goals rfl

theorem EntryLocal.pmpaddrCsrWrite (he : EntryLocal hw holds) (s : State) (i : Nat) (val : W64) {j : Nat}
    (hb : j < hw.regions) (hh : holds s j) : holds (pmpaddrCsrWrite hw s i val) j := by
  let st := s.setEntry i { s.entries i with addrReg := hw.ulong val }
  have elsewhere : j ≠ i → (s.aField j = .tor → j ≠ i + 1) → holds st j := by
    intro ho hn
    refine he.congr hh (by simp [st, setEntry, ho]) fun ht => ?_
    unfold prevAddr
    split
    · have ha : j - 1 ≠ i := by
        have := hn ht
        omega
      simp [st, setEntry, ha]
    · rfl
  unfold Pmp.pmpaddrCsrWrite
  dsimp only
  split; · exact hh
  split; · exact hh
  split; · exact hh
  split; · exact hh
  split
  · refine he.update fun hn => he.update fun ho => ?_
    exact elsewhere ho fun _ => hn
  · rename_i below
    refine he.update fun ho => elsewhere ho fun ht next => below ?_
    subst next
    exact decide_eq_true ⟨hb, ht⟩

theorem EntryLocal.writeStep (he : EntryLocal hw holds) (s : State) (w : Write) {j : Nat}
    (hb : j < hw.regions) (hh : holds s j) : holds (writeStep hw s w) j := by
  cases w with
  | pmpcfg r val =>
    have bytes (s : State) (i : Nat) (val : BitVec 8) (hh : holds s j) : holds (Pmp.writeCfg hw s i val).1 j :=
      he.writeCfg s i val hh
    have hu (s : State) (n : Nat) (hh : holds s j) : holds { s with numRules := n } j :=
      he.congr hh rfl fun _ => rfl
    exact pmpcfgCsrWrite_keeps bytes hu s r _ hh
  | pmpaddr i val => exact he.pmpaddrCsrWrite s i _ hb hh
  | mseccfg val => exact he.congr hh rfl fun _ => rfl

theorem writeStep_counted (s : State) (w : Write) (hc : s.numRules = s.activeRules hw) :
    (writeStep hw s w).numRules = (writeStep hw s w).activeRules hw := by
  cases w with
  | pmpcfg r val => exact pmpcfgCsrWrite_counted hc
  | pmpaddr i val =>
    have hf : ∀ j < hw.regions, (pmpaddrCsrWrite hw s i val).aField j = s.aField j := by
      intro j _
      rw [aField, aField, pmpaddrCsrWrite_cfgReg]
    rw [writeStep, pmpaddrCsrWrite_numRules, activeRules_congr hf]
    exact hc
  | mseccfg val => exact hc

theorem rangeHeld_local (hw : Hardware) : EntryLocal hw (RangeHeld hw) := ⟨updateRuleAddr_held hw, RangeHeld.congr⟩

theorem resetState_aField (i : Nat) : resetState.aField i = .off := by
  simp [aField, resetState, getAField]

theorem resetState_counted (hw : Hardware) : resetState.numRules = resetState.activeRules hw :=
  ((activeRules_eq_zero_iff resetState).mpr fun i _ => resetState_aField i).symm

theorem reachable_counted (hw : Hardware) (w : List Write) :
    (run (writeStep hw) resetState w).numRules = (run (writeStep hw) resetState w).activeRules hw :=
  run_invariant writeStep_counted (resetState_counted hw)

theorem reachable_consistent (hw : Hardware) (w : List Write) : Consistent hw (run (writeStep hw) resetState w) := by
  constructor
  · intro i hb
    have hs : RangeHeld hw resetState i := by
      refine ⟨?_, fun _ => .inl rfl⟩
      rw [registerRange, if_pos (resetState_aField i)]
      rfl
    exact run_invariant (fun s wr hh => (rangeHeld_local hw).writeStep s wr hb hh) hs
  · rw [reachable_counted]
    exact activeRules_eq_zero_iff _

end

def Region.StrictlyInside (region : Region) (addr size : Nat) : Prop := addr < region.lo ∧ region.hi < addr + size

theorem lastByte_toNat (hw : Hardware) (addr size : W64) (nonempty : 1 ≤ size.toNat) (fits : size.toNat < 2 ^ 31)
    (inside : addr.toNat + size.toNat ≤ 2 ^ 64) : (lastByte hw addr size).toNat = addr.toNat + size.toNat - 1 := by
  have nonzero : size ≠ 0 := by
    rintro rfl
    simp at nonempty
  have extended : ((size.setWidth 32).signExtend 64).toNat = size.toNat := by
    rw [signExtend_eq_setWidth_of_msb_false]
    · simp only [toNat_setWidth]
      omega
    · rw [msb_eq_decide]
      simp only [toNat_setWidth, decide_eq_false_iff_not]
      omega
  have one : (1 : W64).toNat = 1 := rfl
  rw [lastByte, pmpSize, if_neg nonzero, toNat_sub, toNat_add]
  omega

theorem torAddr_toNat (hw : Hardware) (addr : W64) :
    (torAddr hw.g addr).toNat = addr.toNat / 2 ^ hw.g * 2 ^ hw.g := by
  have bound := hw.gBound
  unfold torAddr
  split
  · exact toNat_and_not_low_mask addr (by omega)
  · have finest : hw.g = 0 := by omega
    simp [finest]

theorem torAddr_le (hw : Hardware) (addr : W64) : (torAddr hw.g addr).toNat ≤ addr.toNat := by
  rw [torAddr_toNat]
  exact Nat.div_mul_le_self _ _

theorem toNat_shiftLeft_two (x : W64) (small : x.toNat < 2 ^ 54) : (x <<< 2).toNat = x.toNat * 4 := by
  rw [toNat_shiftLeft]
  omega

/-- What pmpaddr may hold for the shift of a TOR or NA4 entry to keep all bits. -/
def Hardware.addrLimit (hw : Hardware) : Nat := if hw.narrow then 2 ^ 30 else 2 ^ 54

theorem addrLimit_le (hw : Hardware) : hw.addrLimit ≤ 2 ^ 54 := by
  unfold Hardware.addrLimit
  split <;> decide

theorem ulong_toNat {hw : Hardware} {x : W64} (small : hw.narrow → x.toNat < 2 ^ 32) : hw.ulong x = x := by
  unfold Hardware.ulong
  split
  case isTrue narrow =>
    apply eq_of_toNat_eq
    rw [toNat_setWidth, toNat_setWidth]
    have := small narrow
    omega
  case isFalse => rfl

theorem ulong_shiftLeft {hw : Hardware} {x : W64} (small : x.toNat < hw.addrLimit) :
    (hw.ulong (x <<< 2)).toNat = x.toNat * 4 := by
  have shifted := toNat_shiftLeft_two x (Nat.lt_of_lt_of_le small (addrLimit_le hw))
  rw [ulong_toNat, shifted]
  intro narrow
  rw [Hardware.addrLimit, if_pos narrow] at small
  omega

theorem ulong_end {hw : Hardware} {x : W64} (positive : 0 < x.toNat) (small : x.toNat < hw.addrLimit) :
    (hw.ulong (x <<< 2 - 1)).toNat + 1 = x.toNat * 4 := by
  have shifted := toNat_shiftLeft_two x (Nat.lt_of_lt_of_le small (addrLimit_le hw))
  have one : (1 : W64).toNat = 1 := rfl
  have before : (x <<< 2 - 1).toNat = x.toNat * 4 - 1 := by
    rw [toNat_sub, shifted]
    omega
  rw [ulong_toNat, before]
  · omega
  · intro narrow
    rw [Hardware.addrLimit, if_pos narrow] at small
    omega

theorem rangeOverlap_eq_overlap (range : W64 × W64) (addr last : W64) (region : Region) (size : Nat)
    (nonempty : 1 ≤ size) (ends : last.toNat = addr.toNat + size - 1) (low : range.1.toNat = region.lo)
    (high : range.2.toNat + 1 = region.hi) (ordered : region.lo < region.hi)
    (outside : ¬region.StrictlyInside addr.toNat size) :
    rangeOverlap range true addr last = region.overlap addr.toNat size := by
  simp only [rangeOverlap, Region.overlap, Region.StrictlyInside, le_def] at outside ⊢
  grind

theorem trailingOnes_shifted (x : Nat) : trailingOnes 66 (x * 4 + 3) = trailingOnes 64 x + 2 := by
  rw [trailingOnes, if_pos (by omega), trailingOnes, if_pos (by omega), show (x * 4 + 3) / 2 / 2 = x by omega]

theorem decodeNapot_region {g : Nat} {addr : W64} (small : addr.toNat < 2 ^ 54)
    (ones : napotAddr g addr.toNat = addr.toNat) : (decodeNapot addr).1.toNat = (napotRegion g addr.toNat).lo ∧
      (decodeNapot addr).2.toNat + 1 = (napotRegion g addr.toNat).hi := by
  have shifted : ((addr <<< 2) ||| 0x3).toNat = addr.toNat * 4 + 3 := by
    rw [toNat_or, toNat_shiftLeft_two addr small, show addr.toNat * 4 = addr.toNat <<< 2 by
      rw [Nat.shiftLeft_eq]]
    exact (Nat.shiftLeft_add_eq_or_of_lt (by decide) _).symm
  have next : (((addr <<< 2) ||| 0x3) + 1).toNat = addr.toNat * 4 + 3 + 1 := by
    have one : (1 : W64).toNat = 1 := rfl
    rw [toNat_add]
    omega
  obtain ⟨low, high⟩ := trailingOnes_and_or 66 (addr.toNat * 4 + 3) (by omega)
  have quotient : (addr.toNat * 4 + 3) / 2 ^ (trailingOnes 64 addr.toNat + 3) =
      addr.toNat * 4 / 2 ^ (trailingOnes 64 addr.toNat + 3) := by
    rw [show trailingOnes 64 addr.toNat + 3 = 2 + (trailingOnes 64 addr.toNat + 1) by omega, Nat.pow_add,
      ← Nat.div_div_eq_div_mul, ← Nat.div_div_eq_div_mul,
      show (addr.toNat * 4 + 3) / 2 ^ 2 = addr.toNat * 4 / 2 ^ 2 by omega]
  rw [trailingOnes_shifted, quotient] at low
  rw [trailingOnes_shifted, low] at high
  simp only [decodeNapot, napotRegion, ones, toNat_and, toNat_or (_ ||| _), shifted, next]
  exact ⟨low, high⟩

/-- The registers that an entry uses stay within what the shifts keep, and a NAPOT address has the ones that the
  granularity asks for. -/
def PlainEntry (hw : Hardware) (s : State) (i : Nat) : Prop :=
  let addr := (s.entries i).addrReg.toNat
  match s.aField i with
  | .off => True
  | .tor => addr < hw.addrLimit ∧ (s.prevAddr i).toNat < hw.addrLimit
  | .na4 => addr < hw.addrLimit
  | .napot => addr < 2 ^ 54 ∧ napotAddr hw.g addr = addr

/-- Where the code goes wrong about an entry: a region strictly inside the access is missed, an empty TOR region is
  found at byte 0, and so is an entry that was not written since reset. -/
def Misread (hw : Hardware) (s : State) (addr size : Nat) (i : Nat) : Prop :=
  match s.aField i with
  | .off => (s.entries i).ea = 0 ∧ addr = 0 ∧ 1 < size
  | .tor => if (s.region hw i).hi ≤ (s.region hw i).lo then addr = 0 else (s.region hw i).StrictlyInside addr size
  | _ => (s.region hw i).StrictlyInside addr size

theorem reads_alike {hw : Hardware} {s : State} {addr size : W64} {i : Nat} (held : RangeHeld hw s i)
    (plain : PlainEntry hw s i) (nonempty : 1 ≤ size.toNat) (fits : size.toNat < 2 ^ 31)
    (inside : addr.toNat + size.toNat ≤ 2 ^ 64) (read : ¬Misread hw s addr.toNat size.toNat i) :
    rangeOverlap (s.registerRange hw i) (s.aField i ≠ .off) addr (lastByte hw addr size) =
      (s.region hw i).overlap addr.toNat size.toNat := by
  have ends := lastByte_toNat hw addr size nonempty fits inside
  unfold Misread at read
  unfold PlainEntry at plain
  cases kind : s.aField i with
  | off =>
    have region : s.region hw i = ⟨0, 0⟩ := by rw [State.region, ← aField, kind, decodedRegion]
    have all : (-1 : W64).toNat = 2 ^ 64 - 1 := rfl
    rw [kind] at read
    rw [registerRange, if_pos kind, region]
    obtain reset | full := held.idle kind
    · simp only [rangeOverlap, Region.overlap, le_def, reset] at read ⊢
      grind
    · simp only [rangeOverlap, Region.overlap, le_def, full, all]
      grind
  | tor =>
    rw [kind] at plain read
    obtain ⟨own, previous⟩ := plain
    have region : s.region hw i = ⟨(torAddr hw.g (s.prevAddr i)).toNat * 4,
        (torAddr hw.g (s.entries i).addrReg).toNat * 4⟩ := by
      rw [State.region, ← aField, kind, decodedRegion, torAddr_toNat, torAddr_toNat]
    rw [region] at read
    rw [registerRange, if_neg (by rw [kind]; decide), ruleRange, ← aField, kind, region]
    have base := Nat.lt_of_le_of_lt (torAddr_le hw _) previous
    have limit := Nat.lt_of_le_of_lt (torAddr_le hw _) own
    by_cases empty : torAddr hw.g (s.entries i).addrReg ≤ torAddr hw.g (s.prevAddr i)
    · rw [le_def] at empty
      simp only [rangeOverlap, Region.overlap, le_def] at read ⊢
      grind
    · rw [if_neg empty]
      rw [le_def] at empty
      rw [if_neg (by dsimp only; omega)] at read
      exact rangeOverlap_eq_overlap _ addr _ _ _ nonempty ends (ulong_shiftLeft base) (ulong_end (by omega) limit)
        (by dsimp only; omega) read
  | na4 =>
    rw [kind] at plain read
    have region : s.region hw i = ⟨(s.entries i).addrReg.toNat * 4, (s.entries i).addrReg.toNat * 4 + 4⟩ := by
      rw [State.region, ← aField, kind, decodedRegion]
    rw [region] at read
    rw [registerRange, ruleRange, ← aField, kind, region]
    have low := ulong_shiftLeft plain
    have small := Nat.lt_of_lt_of_le plain (addrLimit_le hw)
    refine rangeOverlap_eq_overlap _ addr _ _ _ nonempty ends low ?_ (by dsimp only; omega) read
    simp
    omega
  | napot =>
    rw [kind] at plain read
    have region : s.region hw i = napotRegion hw.g (s.entries i).addrReg.toNat := by
      rw [State.region, ← aField, kind, decodedRegion]
    rw [region] at read
    rw [registerRange, ruleRange, ← aField, kind, region]
    obtain ⟨low, high⟩ := decodeNapot_region plain.1 plain.2
    refine rangeOverlap_eq_overlap _ addr _ _ _ nonempty ends low high ?_ read
    exact Nat.lt_add_of_pos_right (Nat.two_pow_pos _)

/-- Every entry that the architecture's scan reaches is plain and not misread. The code scans only if some entry is
  enabled. -/
def NoneMisread (hw : Hardware) (s : State) (addr size : Nat) : Prop :=
  (∃ i, i < hw.regions ∧ s.aField i ≠ .off) → ∀ i < hw.regions,
    (∀ j < i, (s.region hw j).overlap addr size = none) → PlainEntry hw s i ∧ ¬Misread hw s addr size i

theorem archMatch_none {hw : Hardware} {s : State} {addr size : Nat}
    (off : ∀ i < hw.regions, s.aField i = .off) : archMatch hw s addr size = none := by
  refine firstMatch_eq_none fun i member => ?_
  rw [State.region, ← State.aField, off i (List.mem_range.mp member), decodedRegion, Region.overlap]
  simp

def twoRegions : Hardware :=
  { regions := 2, g := 0, mxl := .rv64, narrow := false, mmu := true, pmp := true, extSmpmpmt := false, extSmepmp := false,
    extSmmpm := false, regionsBound := by decide, gBound := by decide,
    narrowMxl := nofun }

def lockedWord : List Write := [.pmpaddr 0 1, .pmpcfg 0 0x90]

end RiscvEmulators.Qemu.Pmp
