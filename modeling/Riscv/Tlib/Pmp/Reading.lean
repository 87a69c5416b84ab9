import Riscv.Tlib.Pmp.Writes

namespace RiscvEmulators.Tlib.Pmp
open Word Rules Env
open Qemu.Cpu (Priv)
open Qemu.Pmp (AMatch getAField pmpRead pmpWrite pmpExec pmpRwx pmpLock Region napotAddr napotRegion decodedRegion
  grantedPrivs rangeOverlap rangeOverlap_eq_overlap toNat_shiftLeft_two)

section
variable (hw : Hardware) (env : Env)

def Hardware.grainOnes : Nat := if hw.priv111 then hw.napotGrain.getD 0 else 0

def Env.region (i : Nat) : Region :=
  match env.aField i with
  | .napot => napotRegion (hw.grainOnes + 1) (env.entries i).addrReg.toNat
  | kind => decodedRegion 0 kind (env.entries i).addrReg.toNat (env.prevAddr i).toNat

def Env.granted (i : Nat) (priv : Priv) : BitVec 8 :=
  let cfg := (env.entries i).cfgReg
  grantedPrivs env.mml (cfg.getLsbD 7) (cfg.getLsbD 0) (cfg.getLsbD 1) (cfg.getLsbD 2) priv

def Env.defaultPrivs (priv : Priv) : BitVec 8 :=
  if priv = .machine ∧ !env.mmwp then if env.mml then pmpRead ||| pmpWrite else pmpRwx else 0

def archMatch (addr size : Nat) : Option (Nat × Bool) :=
  firstMatch (fun i => (env.region hw i).overlap addr size) (List.range maxRiscvPmps)

def archGrants (rule : Option (Nat × Bool)) (priv : Priv) : BitVec 8 :=
  match rule with
  | none => env.defaultPrivs priv
  | some (i, whole) => if whole then env.granted i priv else 0

def archAccess (addr size : Nat) (priv : Priv) : BitVec 8 := archGrants env (archMatch hw env addr size) priv

end

section
variable (build : Build) (env : Env)

def codeOverlap (addr size : W64) (i : Nat) : Option Bool :=
  if env.aField i = .off then none
  else rangeOverlap (build.ruleRange (env.entries i).cfgReg (env.entries i).addrReg (env.prevAddr i)) true
    (addr &&& build.hw.addrMask) (((addr &&& build.hw.addrMask) + size - 1) &&& build.hw.addrMask)

def codePrivs (i : Nat) (priv : Priv) : BitVec 8 :=
  if env.mml then getPrivsMml env i priv else getPrivsNormal env i priv

def codeGrants (rule : Option (Nat × Bool)) (priv : Priv) : BitVec 8 :=
  match rule with
  | none => noMatch env priv
  | some (i, whole) => if whole then codePrivs env i priv else 0

variable {build env}

theorem checkRules_eq (decoded : env.Decoded build) (addr size : W64) (priv : Priv) {rules : List Nat}
    (bound : ∀ i ∈ rules, i < maxRiscvPmps) :
    checkRules build.hw env (addr &&& build.hw.addrMask) ((addr &&& build.hw.addrMask) + size - 1) priv rules =
      codeGrants env (firstMatch (codeOverlap build env addr size) rules) priv := by
  induction rules with
  | nil => rfl
  | cons i rest ih =>
    have ih := ih fun j member => bound j (List.mem_cons_of_mem i member)
    have masked : addr &&& build.hw.addrMask &&& build.hw.addrMask = addr &&& build.hw.addrMask := by
      rw [BitVec.and_assoc, BitVec.and_self]
    rw [checkRules, firstMatch, codeOverlap, ih]
    by_cases off : env.aField i = .off
    · rw [if_pos off, if_pos off]
    · rw [if_neg off, if_neg off, ← decoded.ranges i (bound i List.mem_cons_self)]
      unfold rangeOverlap isInRange
      rw [masked]
      generalize (decide ((env.entries i).sa ≤ addr &&& build.hw.addrMask) &&
        decide (addr &&& build.hw.addrMask ≤ (env.entries i).ea)) = first
      generalize (decide ((env.entries i).sa ≤ ((addr &&& build.hw.addrMask) + size - 1) &&& build.hw.addrMask) &&
        decide (((addr &&& build.hw.addrMask) + size - 1) &&& build.hw.addrMask ≤ (env.entries i).ea)) = last
      cases first <;> cases last <;> rfl

theorem mml_table {cfg : BitVec 8} {priv : Priv} :
    (if cfg &&& pmpRead != 0 && cfg &&& pmpWrite != 0 && cfg &&& pmpExec != 0 && cfg &&& pmpLock != 0 then pmpRead
    else if !(cfg &&& pmpRead != 0) && cfg &&& pmpWrite != 0 then
      if !(cfg &&& pmpLock != 0) then
        if priv = .machine ∨ (cfg &&& pmpExec != 0) then pmpRead ||| pmpWrite else pmpRead
      else if priv = .machine ∧ (cfg &&& pmpExec != 0) then pmpExec ||| pmpRead else pmpExec
    else if ((cfg &&& pmpLock != 0) ∧ priv ≠ .machine) ∨ ((!(cfg &&& pmpLock != 0)) ∧ priv = .machine) then 0
    else cfg &&& pmpRwx) = grantedPrivs true (cfg.getLsbD 7) (cfg.getLsbD 0) (cfg.getLsbD 1) (cfg.getLsbD 2) priv := by
  revert cfg
  cases priv <;> decide +kernel

theorem noMatch_eq_defaultPrivs (priv : Priv) : noMatch env priv = env.defaultPrivs priv := by
  unfold noMatch defaultPrivs
  cases priv <;> cases env.mmwp <;> cases env.mml <;> decide

def BelowLockedTor (env : Env) (i : Nat) : Prop :=
  i + 1 < maxRiscvPmps ∧ (env.entries (i + 1)).cfgReg &&& pmpLock ≠ 0 ∧ env.aField (i + 1) = .tor

def LockAlone (env : Env) (i : Nat) (priv : Priv) : Prop :=
  priv = .machine → env.mml = false → (env.entries i).cfgReg &&& pmpLock = 0 → BelowLockedTor env i →
    (env.entries i).cfgReg &&& pmpRwx = pmpRwx

theorem lock_table (cfg : BitVec 8) (priv : Priv) (locked : Bool)
    (own : priv = .machine → (cfg &&& pmpLock ≠ 0 → locked) ∧
      (cfg &&& pmpLock = 0 → locked → cfg &&& pmpRwx = pmpRwx)) :
    (if priv ≠ .machine ∨ locked then pmpRwx &&& cfg else pmpRwx) =
      grantedPrivs false (cfg.getLsbD 7) (cfg.getLsbD 0) (cfg.getLsbD 1) (cfg.getLsbD 2) priv := by
  revert cfg
  cases priv <;> cases locked <;> decide +kernel

theorem codePrivs_eq_granted {i : Nat} {priv : Priv} (alone : LockAlone env i priv) :
    codePrivs env i priv = env.granted i priv := by
  unfold codePrivs granted
  cases mml : env.mml with
  | true => exact mml_table
  | false =>
    rw [if_neg (by decide), getPrivsNormal]
    refine lock_table _ _ _ fun machine => ⟨fun own => ?_, fun unlocked locked => ?_⟩
    · exact Bool.or_eq_true_iff.mpr (.inl (bne_iff_ne.mpr own))
    · apply alone machine mml unlocked
      simpa [isLocked, unlocked, BelowLockedTor, and_assoc] using locked

end

section
variable {hw : Hardware} {env : Env}

theorem addrMask_toNat (hw : Hardware) (x : W64) : (x &&& hw.addrMask).toNat = x.toNat % 2 ^ hw.addrBits := by
  have h := hw.addrBitsBound
  rw [Hardware.addrMask, BitVec.toNat_and, toNat_low_mask (by omega), Nat.and_two_pow_sub_one_eq_mod]

structure InSpace (hw : Hardware) (addr size : W64) : Prop where
  nonempty : 1 ≤ size.toNat
  fits : addr.toNat + size.toNat ≤ 2 ^ hw.addrBits

theorem addrBits_le (hw : Hardware) : 2 ^ hw.addrBits ≤ 2 ^ 54 :=
  Nat.pow_le_pow_right (by decide) hw.addrBitsBound.2

theorem InSpace.first {addr sz : W64} (hi : InSpace hw addr sz) : addr &&& hw.addrMask = addr := by
  have hn := hi.nonempty
  have hf := hi.fits
  apply BitVec.eq_of_toNat_eq
  rw [addrMask_toNat]
  exact Nat.mod_eq_of_lt (by omega)

theorem InSpace.last {a sz : W64} (hi : InSpace hw a sz) :
    (((a &&& hw.addrMask) + sz - 1) &&& hw.addrMask).toNat = a.toNat + sz.toNat - 1 := by
  have hn := hi.nonempty
  have hf := hi.fits
  have hs := addrBits_le hw
  have ho : (1 : W64).toNat = 1 := rfl
  have sum : (a + sz - 1).toNat = a.toNat + sz.toNat - 1 := by
    rw [BitVec.toNat_sub, BitVec.toNat_add]
    omega
  rw [hi.first, addrMask_toNat, sum]
  exact Nat.mod_eq_of_lt (by omega)

/-- The registers that an entry uses name addresses inside the space, and a NAPOT address has the ones that the grain,
  which must be set from 1.11 on, asks for. -/
structure PlainEntry (hw : Hardware) (env : Env) (i : Nat) : Prop where
  wide : 2 ≤ hw.addrBits
  own : (env.entries i).addrReg.toNat * 4 < 2 ^ hw.addrBits
  previous : env.aField i = .tor → (env.prevAddr i).toNat * 4 < 2 ^ hw.addrBits
  grain : env.aField i = .napot → hw.priv111 → hw.napotGrain.isSome
  ones : env.aField i = .napot → napotAddr (hw.grainOnes + 1) (env.entries i).addrReg.toNat = (env.entries i).addrReg.toNat

/-- Where the reading of an entry goes wrong for an access: a TOR entry at address 0 reaches from its base to the end
  of the space, and a region strictly inside the access is missed. -/
def Misread (hw : Hardware) (env : Env) (addr size : Nat) (i : Nat) : Prop :=
  match env.aField i with
  | .off => False
  | .tor =>
    if (env.entries i).addrReg = 0 then (env.prevAddr i).toNat * 4 < addr + size
    else (env.region hw i).lo < (env.region hw i).hi ∧ (env.region hw i).StrictlyInside addr size
  | _ => (env.region hw i).StrictlyInside addr size

theorem shifted_toNat (hw : Hardware) {x : W64} (hsm : x.toNat * 4 < 2 ^ hw.addrBits) :
    (x <<< 2).toNat = x.toNat * 4 ∧ ((x <<< 2) &&& hw.addrMask).toNat = x.toNat * 4 := by
  have hsp := addrBits_le hw
  have hs := toNat_shiftLeft_two x (by omega)
  refine ⟨hs, ?_⟩
  rw [addrMask_toNat, hs]
  exact Nat.mod_eq_of_lt hsm

variable {i : Nat}

theorem reads_tor {build : Build} {addr size own base : W64} (ownEq : (env.entries i).addrReg = own)
    (baseEq : env.prevAddr i = base) (inside : InSpace build.hw addr size) (plain : PlainEntry build.hw env i)
    (kind : env.aField i = .tor) (read : ¬Misread build.hw env addr.toNat size.toNat i) :
    codeOverlap build env addr size i = (env.region build.hw i).overlap addr.toNat size.toNat := by
  have nonempty := inside.nonempty
  have ends := inside.last
  have one : (1 : W64).toNat = 1 := rfl
  have ownFits := plain.own
  have baseFits := plain.previous kind
  rw [ownEq] at ownFits
  rw [baseEq] at baseFits
  obtain ⟨-, low⟩ := shifted_toNat build.hw baseFits
  obtain ⟨top, -⟩ := shifted_toNat build.hw ownFits
  have region : env.region build.hw i = ⟨base.toNat * 4, own.toNat * 4⟩ := by
    rw [Env.region, kind]
    simp [decodedRegion, ownEq, baseEq]
  have range : build.ruleRange (env.entries i).cfgReg own base =
      (base <<< 2 &&& build.hw.addrMask, (own <<< 2) - 1 &&& build.hw.addrMask) := by
    rw [Build.ruleRange, ruleRange, ← aField, kind]
    simp
  rw [Misread, kind, ownEq, baseEq, region] at read
  rw [codeOverlap, if_neg (by rw [kind]; decide), ownEq, baseEq, range, inside.first, region]
  rw [inside.first] at ends
  by_cases zero : own = 0
  · have high : ((own <<< 2) - 1 &&& build.hw.addrMask).toNat = 2 ^ build.hw.addrBits - 1 := by
      have bits := build.hw.addrBitsBound
      rw [addrMask_toNat, zero]
      exact two_pow_sub_one_mod (n := 64) (by omega)
    simp only [rangeOverlap, Region.overlap, BitVec.le_def, high] at read ⊢
    grind
  · have positive : 0 < own.toNat := by
      rw [Nat.pos_iff_ne_zero]
      intro none
      exact zero (BitVec.eq_of_toNat_eq none)
    have high : ((own <<< 2) - 1 &&& build.hw.addrMask).toNat = own.toNat * 4 - 1 := by
      have before : ((own <<< 2) - 1).toNat = own.toNat * 4 - 1 := by
        rw [BitVec.toNat_sub]
        omega
      rw [addrMask_toNat, before]
      exact Nat.mod_eq_of_lt (by omega)
    rw [if_neg zero] at read
    by_cases ordered : base.toNat * 4 < own.toNat * 4
    · exact rangeOverlap_eq_overlap _ addr _ _ _ nonempty ends low (by dsimp only; omega) ordered
        fun strictly => read ⟨ordered, strictly⟩
    · simp only [rangeOverlap, Region.overlap, BitVec.le_def, high]
      grind

theorem reads_na4 {build : Build} {addr size own : W64} (ownEq : (env.entries i).addrReg = own)
    (inside : InSpace build.hw addr size) (plain : PlainEntry build.hw env i) (kind : env.aField i = .na4)
    (read : ¬Misread build.hw env addr.toNat size.toNat i) :
    codeOverlap build env addr size i = (env.region build.hw i).overlap addr.toNat size.toNat := by
  have ends := inside.last
  have ownFits := plain.own
  rw [ownEq] at ownFits
  have one : (1 : W64).toNat = 1 := rfl
  have four : (4 : W64).toNat = 4 := rfl
  obtain ⟨shifted, low⟩ := shifted_toNat build.hw ownFits
  have room : own.toNat * 4 + 4 ≤ 2 ^ build.hw.addrBits := by
    have words : 2 ^ build.hw.addrBits = 2 ^ (build.hw.addrBits - 2) * 4 := by
      rw [show (4 : Nat) = 2 ^ 2 from rfl, ← Nat.pow_add, Nat.sub_add_cancel plain.wide]
    omega
  have region : env.region build.hw i = ⟨own.toNat * 4, own.toNat * 4 + 4⟩ := by
    rw [Env.region, kind, ownEq]
    rfl
  have range : build.ruleRange (env.entries i).cfgReg own (env.prevAddr i) =
      (own <<< 2 &&& build.hw.addrMask, own <<< 2 + 4 - 1 &&& build.hw.addrMask) := by
    rw [Build.ruleRange, ruleRange, ← aField, kind]
    simp
  have high : (own <<< 2 + 4 - 1 &&& build.hw.addrMask).toNat + 1 = own.toNat * 4 + 4 := by
    have last : (own <<< 2 + 4 - 1).toNat = own.toNat * 4 + 3 := by
      rw [BitVec.toNat_sub, BitVec.toNat_add]
      omega
    rw [addrMask_toNat, last, Nat.mod_eq_of_lt (by omega)]
  rw [Misread, kind, region] at read
  rw [codeOverlap, if_neg (by rw [kind]; decide), ownEq, range, inside.first, region]
  rw [inside.first] at ends
  exact rangeOverlap_eq_overlap _ addr _ _ _ inside.nonempty ends low high (by dsimp only; omega) read

theorem napotShift_eq (hp : PlainEntry hw env i) (hn : env.aField i = .napot) :
    napotShift hw (env.entries i).addrReg = trailingOnes 64 (env.entries i).addrReg.toNat + 1 := by
  have ho := hp.ones hn
  unfold napotShift ctz64
  rw [BitVec.not_not]
  cases hr : hw.priv111 with
  | false => rw [if_neg (by decide)]
  | true =>
    rw [if_pos rfl]
    obtain ⟨g, hs⟩ := Option.isSome_iff_exists.mp (hp.grain hn hr)
    have hbo := hw.grainBound g hs
    rw [Hardware.grainOnes, if_pos hr, hs] at ho
    have hb : g ≤ trailingOnes 64 (env.entries i).addrReg.toNat := le_trailingOnes (by omega) ho
    rw [hs]
    dsimp only
    rw [if_neg (by omega)]

theorem neg_one_shiftLeft (k : Nat) : (-1 : W64) <<< k = -((1 : W64) <<< k) := by
  rw [BitVec.shiftLeft_eq_mul_twoPow, BitVec.shiftLeft_eq_mul_twoPow, BitVec.neg_mul]

theorem decodeNapot_toNat {a : W64} {k : Nat} (hs : a.toNat < 2 ^ 52) (hfi : k ≤ 53) :
    (decodeNapot a k).1.toNat = a.toNat / 2 ^ k * 2 ^ k * 4 ∧
      (decodeNapot a k).2.toNat = a.toNat / 2 ^ k * 2 ^ k * 4 + (2 ^ k * 4 - 1) := by
  have ht : (-1 : W64).toNat = 2 ^ 64 - 1 := rfl
  have hf : a ≠ -1 := by
    intro hsa
    rw [hsa, ht] at hs
    omega
  have hbe := Nat.div_mul_le_self a.toNat (2 ^ k)
  have hpo : 2 ^ k ≤ 2 ^ 53 := Nat.pow_le_pow_right (by decide) hfi
  have hp := Nat.two_pow_pos k
  have hb : ((a &&& ((-1 : W64) <<< k)) <<< 2).toNat = a.toNat / 2 ^ k * 2 ^ k * 4 := by
    rw [toNat_shiftLeft_two _ (by rw [neg_one_shiftLeft, toNat_and_neg_unit a (by omega)]; omega), neg_one_shiftLeft,
      toNat_and_neg_unit a (by omega)]
  have hr : (((2 : W64) <<< (k + 1)) - 1).toNat = 2 ^ k * 4 - 1 := by
    have ho : (1 : W64).toNat = 1 := rfl
    have two : (2 : W64).toNat = 2 := rfl
    rw [BitVec.toNat_sub, BitVec.toNat_shiftLeft, two]
    omega
  unfold decodeNapot
  rw [if_neg hf]
  rw [BitVec.toNat_add, hb]
  omega

theorem reads_napot {build : Build} {addr size own : W64} (ownEq : (env.entries i).addrReg = own)
    (inside : InSpace build.hw addr size) (plain : PlainEntry build.hw env i) (kind : env.aField i = .napot)
    (read : ¬Misread build.hw env addr.toNat size.toNat i) :
    codeOverlap build env addr size i = (env.region build.hw i).overlap addr.toNat size.toNat := by
  have nonempty := inside.nonempty
  have fits := inside.fits
  have ends := inside.last
  have space := addrBits_le build.hw
  have ownFits := plain.own
  have ones := plain.ones kind
  have shift := napotShift_eq plain kind
  rw [ownEq] at ownFits ones shift
  have small : own.toNat < 2 ^ 52 := by omega
  have power := two_pow_trailingOnes_le 64 own.toNat
  generalize count : trailingOnes 64 own.toNat = o at power
  have few : o ≤ 52 := (Nat.pow_le_pow_iff_right (a := 2) (by decide)).mp (by omega)
  obtain ⟨start, stop⟩ := decodeNapot_toNat (k := o + 1) small (by omega)
  have unit : 2 ^ (o + 3) = 2 ^ (o + 1) * 4 := by rw [← Nat.pow_add (m := o + 1) (n := 2)]
  have quotient : own.toNat * 4 / 2 ^ (o + 3) = own.toNat / 2 ^ (o + 1) := by
    rw [unit, Nat.mul_div_mul_right _ _ (by decide)]
  have region : env.region build.hw i = ⟨own.toNat / 2 ^ (o + 1) * 2 ^ (o + 1) * 4,
      own.toNat / 2 ^ (o + 1) * 2 ^ (o + 1) * 4 + 2 ^ (o + 1) * 4⟩ := by
    rw [Env.region, kind]
    rw [ownEq, napotRegion, ones, count, quotient, unit, Nat.mul_assoc]
  let cut := decodeNapot own (o + 1)
  have range : build.ruleRange (env.entries i).cfgReg own (env.prevAddr i) =
      (cut.1 &&& build.hw.addrMask, cut.2 &&& build.hw.addrMask) := by
    -- the address of 32 ones is not inside the space of the narrow build
    have plainAddr : ¬(build.rv32 ∧ getAField (env.entries i).cfgReg = .napot ∧ own = 0xffffffff) := by
      rintro ⟨rv32, -, rfl⟩
      have narrow : 2 ^ build.hw.addrBits ≤ 2 ^ 32 := Nat.pow_le_pow_right (by decide) (build.narrow rv32)
      have all : (0xffffffff : W64).toNat = 2 ^ 32 - 1 := rfl
      omega
    rw [Build.ruleRange, if_neg plainAddr, ruleRange, ← aField, kind]
    rw [shift, count]
  have below := Nat.div_mul_le_self own.toNat (2 ^ (o + 1))
  have low : (cut.1 &&& build.hw.addrMask).toNat = own.toNat / 2 ^ (o + 1) * 2 ^ (o + 1) * 4 := by
    rw [addrMask_toNat, start]
    exact Nat.mod_eq_of_lt (by omega)
  rw [Misread, kind, region] at read
  rw [codeOverlap, if_neg (by rw [kind]; decide), ownEq, range, inside.first, region]
  rw [inside.first] at ends
  have positive := Nat.two_pow_pos (o + 1)
  by_cases whole : build.hw.addrBits < o + 3
  -- the region is the whole space, and its stored end is cut to the mask
  · have wider : 2 ^ build.hw.addrBits < 2 ^ (o + 1) * 4 := by
      rw [← unit]
      exact Nat.pow_lt_pow_right (by decide) whole
    have first : own.toNat / 2 ^ (o + 1) = 0 := Nat.div_eq_of_lt (by omega)
    have high : (cut.2 &&& build.hw.addrMask).toNat = 2 ^ build.hw.addrBits - 1 := by
      rw [addrMask_toNat, stop, first, Nat.zero_mul, Nat.zero_add, ← unit]
      exact two_pow_sub_one_mod (by omega)
    rw [first] at low ⊢
    simp only [rangeOverlap, Region.overlap, BitVec.le_def, high]
    grind
  · have pieces : 2 ^ build.hw.addrBits = 2 ^ (build.hw.addrBits - (o + 3)) * (2 ^ (o + 1) * 4) := by
      rw [← unit, ← Nat.pow_add, Nat.sub_add_cancel (by omega)]
    have room : own.toNat / 2 ^ (o + 1) * 2 ^ (o + 1) * 4 + 2 ^ (o + 1) * 4 ≤ 2 ^ build.hw.addrBits := by
      have starts : own.toNat / 2 ^ (o + 1) * (2 ^ (o + 1) * 4) <
          2 ^ (build.hw.addrBits - (o + 3)) * (2 ^ (o + 1) * 4) := by
        rw [← Nat.mul_assoc]
        omega
      have piece := Nat.mul_le_mul_right (2 ^ (o + 1) * 4) (Nat.succ_le_of_lt (Nat.lt_of_mul_lt_mul_right starts))
      rw [← pieces, Nat.succ_mul, ← Nat.mul_assoc] at piece
      exact piece
    have high : (cut.2 &&& build.hw.addrMask).toNat + 1 =
        own.toNat / 2 ^ (o + 1) * 2 ^ (o + 1) * 4 + 2 ^ (o + 1) * 4 := by
      rw [addrMask_toNat, stop, Nat.mod_eq_of_lt (by omega)]
      omega
    exact rangeOverlap_eq_overlap _ addr _ _ _ nonempty ends low high (by dsimp only; omega) read

theorem reads_alike {build : Build} {addr size : W64} (inside : InSpace build.hw addr size)
    (plain : env.aField i ≠ .off → PlainEntry build.hw env i) (read : ¬Misread build.hw env addr.toNat size.toNat i) :
    codeOverlap build env addr size i = (env.region build.hw i).overlap addr.toNat size.toNat := by
  cases kind : env.aField i with
  | off =>
    rw [codeOverlap, region, kind]
    simp [decodedRegion, Region.overlap]
  | tor => exact reads_tor rfl rfl inside (plain (by rw [kind]; decide)) kind read
  | na4 => exact reads_na4 rfl inside (plain (by rw [kind]; decide)) kind read
  | napot => exact reads_napot rfl inside (plain (by rw [kind]; decide)) kind read

end

section
variable (hw : Hardware) (env : Env)

def Env.Active : Prop := ∃ i, i < maxRiscvPmps ∧ env.aField i ≠ .off

def ShortcutRight (priv : Priv) : Prop := if priv = .machine then env.mmwp ∨ env.mml = false else hw.smepmp

/-- Every entry that the architecture's scan reaches is plain and not misread. -/
def NoneMisread (addr size : Nat) : Prop :=
  ∀ i < maxRiscvPmps, (∀ j < i, (env.region hw j).overlap addr size = none) →
    (env.aField i ≠ .off → PlainEntry hw env i) ∧ ¬Misread hw env addr size i

variable {hw env}

theorem activeRules_eq_zero_iff : env.activeRules = 0 ↔ ¬ env.Active := by
  simp [Env.activeRules, Env.Active]

theorem archMatch_inactive {addr size : Nat} (inactive : ¬ env.Active) : archMatch hw env addr size = none := by
  apply firstMatch_eq_none
  intro i member
  have off : env.aField i = .off := by
    cases kind : env.aField i with
    | off => rfl
    | _ => exact absurd ⟨i, List.mem_range.mp member, by rw [kind]; decide⟩ inactive
  rw [Env.region, off]
  simp [decodedRegion, Region.overlap]

theorem noRules_eq {priv : Priv} (right : ShortcutRight hw env priv) : noRules hw env priv = env.defaultPrivs priv := by
  unfold ShortcutRight at right
  unfold noRules Env.defaultPrivs
  cases priv <;> cases mmwp : env.mmwp <;> cases mml : env.mml <;> simp_all

theorem grants_same_rule {rule : Option (Nat × Bool)} {priv : Priv}
    (alone : ∀ i, rule = some (i, true) → LockAlone env i priv) : codeGrants env rule priv = archGrants env rule priv := by
  match rule with
  | none => exact noMatch_eq_defaultPrivs priv
  | some (i, false) => rfl
  | some (i, true) => exact codePrivs_eq_granted (alone i rfl)

def plainHart : Build where
  hw :=
    { addrBits := 54, napotGrain := some 0, priv111 := true, smepmp := false, addrBitsBound := by decide,
      grainBound := by rintro _ ⟨⟩; decide }
  rv32 := false
  narrow := nofun

def derivedEnv (regs : Nat → BitVec 8 × W64) : Env :=
  let prev := fun i => if 1 ≤ i then (regs (i - 1)).2 else 0
  let range := fun i => plainHart.ruleRange (regs i).1 (regs i).2 (prev i)
  { entries := fun i => ⟨(regs i).2, (regs i).1, (range i).1, (range i).2⟩
    numRules := ((List.range maxRiscvPmps).filter fun i => getAField (regs i).1 ≠ .off).length
    mseccfg := 0
    priv := .user
    mstatus := 0 }

theorem derivedEnv_decoded {regs : Nat → BitVec 8 × W64} : (derivedEnv regs).Decoded plainHart where
  ranges _ _ := rfl
  counted := rfl

def guardedFrom (top : W64) : Env :=
  derivedEnv fun i => if i = 0 then (0x08, top) else if i = 1 then (0x1f, 0x3ffffffffffff) else (0, 0)

end

end RiscvEmulators.Tlib.Pmp
