import Riscv.Qemu.Pmp.Agreement

namespace RiscvEmulators.Tlib.Pmp
open Word
open Qemu.Cpu (Priv)
open Qemu.Pmp (AMatch getAField pmpRead pmpWrite pmpExec pmpRwx pmpLock mseccfgMml mseccfgMmwp rangeOverlap)

def maxRiscvPmps : Nat := 64

def mstatusMprv : W64 := 0x20000
def mstatusMpp : W64 := 0x1800

/-- What the platform fixes. `none` is the grain of -1 that `cpu_reset` leaves; a grain from 62 on would make
  `pmp_decode_napot` shift by the width of the word. -/
structure Hardware where
  addrBits : Nat
  napotGrain : Option Nat
  priv111 : Bool
  smepmp : Bool
  addrBitsBound : 1 ≤ addrBits ∧ addrBits ≤ 54
  grainBound : ∀ grain, napotGrain = some grain → grain < 62

def Hardware.addrMask (hw : Hardware) : W64 := ((1 : W64) <<< hw.addrBits) - 1

structure Entry where
  addrReg : W64
  cfgReg : BitVec 8
  sa : W64
  ea : W64

structure Env where
  entries : Nat → Entry
  numRules : Nat
  mseccfg : W64
  priv : Priv
  mstatus : W64

namespace Env
variable (env : Env) (i : Nat)

def aField : AMatch := getAField (env.entries i).cfgReg
def prevAddr : W64 := if 1 ≤ i then (env.entries (i - 1)).addrReg else 0
def mml : Bool := env.mseccfg &&& mseccfgMml != 0
def mmwp : Bool := env.mseccfg &&& mseccfgMmwp != 0
def activeRules : Nat := ((List.range maxRiscvPmps).filter fun i => env.aField i ≠ .off).length

end Env

def ctz64 (val : W64) : Nat := trailingOnes 64 (~~~val).toNat

/-- `pmp_decode_napot`, with one more than the grain so that a grain of -1 is a shift by nothing. -/
def decodeNapot (addr : W64) (shift : Nat) : W64 × W64 :=
  if addr = -1 then (0, -1)
  else
    let range := ((2 : W64) <<< (shift + 1)) - 1
    let base := (addr &&& ((-1 : W64) <<< shift)) <<< 2
    (base, base + range)

/-- One more than the NAPOT grain of an address. The comparison with an unset grain is unsigned, so that the unset
  grain wins. -/
def napotShift (hw : Hardware) (addr : W64) : Nat :=
  let napot := ctz64 (~~~addr)
  if hw.priv111 then
    match hw.napotGrain with
    | none => 0
    | some grain => if napot < grain then grain + 1 else napot + 1
  else napot + 1

def ruleRange (hw : Hardware) (cfg : BitVec 8) (thisAddr prevAddr : W64) : W64 × W64 :=
  let range : W64 × W64 := match getAField cfg with
    | .off => (0, -1)
    | .tor => (prevAddr <<< 2, (thisAddr <<< 2) - 1)
    | .na4 => (thisAddr <<< 2, thisAddr <<< 2 + 4 - 1)
    | .napot => decodeNapot thisAddr (napotShift hw thisAddr)
  (range.1 &&& hw.addrMask, range.2 &&& hw.addrMask)

def isLocked (env : Env) (i : Nat) : Bool :=
  (env.entries i).cfgReg &&& pmpLock != 0 ||
    (decide (i + 1 < maxRiscvPmps) && (env.entries (i + 1)).cfgReg &&& pmpLock != 0 && env.aField (i + 1) = .tor)

def isInRange (hw : Hardware) (env : Env) (i : Nat) (addr : W64) : Bool :=
  (env.entries i).sa ≤ addr &&& hw.addrMask && addr &&& hw.addrMask ≤ (env.entries i).ea

def getPrivsNormal (env : Env) (i : Nat) (priv : Priv) : BitVec 8 :=
  if priv ≠ .machine ∨ isLocked env i then pmpRwx &&& (env.entries i).cfgReg else pmpRwx

def getPrivsMml (env : Env) (i : Nat) (priv : Priv) : BitVec 8 :=
  let cfg := (env.entries i).cfgReg
  let isRead := cfg &&& pmpRead != 0
  let isWrite := cfg &&& pmpWrite != 0
  let isExec := cfg &&& pmpExec != 0
  let isLocked := cfg &&& pmpLock != 0
  if isRead && isWrite && isExec && isLocked then pmpRead
  else if !isRead && isWrite then
    if !isLocked then if priv = .machine ∨ isExec then pmpRead ||| pmpWrite else pmpRead
    else if priv = .machine ∧ isExec then pmpExec ||| pmpRead else pmpExec
  else if (isLocked ∧ priv ≠ .machine) ∨ (!isLocked ∧ priv = .machine) then 0
  else cfg &&& pmpRwx

inductive AccessType where
  | dataLoad | dataStore | instFetch
  deriving DecidableEq

def privOfCode (code : W64) : Priv := if code = 3 then .machine else if code = 0 then .user else .supervisor

def effectivePriv (env : Env) (type : AccessType) : Priv :=
  if getField env.mstatus mstatusMprv ≠ 0 ∧ (type = .dataLoad ∨ type = .dataStore) then
    privOfCode (getField env.mstatus mstatusMpp)
  else env.priv

def noRules (hw : Hardware) (env : Env) (priv : Priv) : BitVec 8 :=
  if priv = .machine then if env.mmwp then 0 else pmpRwx
  else if hw.smepmp then 0 else pmpRwx

def noMatch (env : Env) (priv : Priv) : BitVec 8 :=
  if priv = .machine then
    if env.mmwp then 0 else if env.mml then pmpRwx &&& ~~~pmpExec else pmpRwx
  else 0

def checkRules (hw : Hardware) (env : Env) (addr last : W64) (priv : Priv) : List Nat → BitVec 8
  | [] => noMatch env priv
  | i :: rest =>
    let first := isInRange hw env i addr
    let final := isInRange hw env i last
    if env.aField i = .off then checkRules hw env addr last priv rest
    else if first != final then 0
    else if first && final then if env.mml then getPrivsMml env i priv else getPrivsNormal env i priv
    else checkRules hw env addr last priv rest

def getAccess (hw : Hardware) (env : Env) (addr size : W64) (type : AccessType) : BitVec 8 :=
  let addr := addr &&& hw.addrMask
  let priv := effectivePriv env type
  if env.numRules = 0 then noRules hw env priv
  else checkRules hw env addr (addr + size - 1) priv (List.range maxRiscvPmps)

open Transition Env
open Qemu.Cpu (Priv)
open Qemu.Pmp (getAField pmpRead pmpWrite pmpExec pmpLock mseccfgMml mseccfgMmwp)

def mseccfgRlb : W64 := 0x4

/-- The build for 32 bits has a `target_ulong` of 32 bits. Its address mask is no wider, and all that is computed in
  `target_ulong` is cut by it, so that only the comparison with -1 in `pmp_decode_napot` tells the builds apart. -/
structure Build where
  hw : Hardware
  rv32 : Bool
  narrow : rv32 → hw.addrBits ≤ 32

def Build.ruleRange (build : Build) (cfg : BitVec 8) (thisAddr prevAddr : W64) : W64 × W64 :=
  if build.rv32 ∧ getAField cfg = .napot ∧ thisAddr = 0xffffffff then (0, build.hw.addrMask)
  else Pmp.ruleRange build.hw cfg thisAddr prevAddr

structure Env.Decoded (build : Build) (env : Env) : Prop where
  ranges : ∀ i < maxRiscvPmps, ((env.entries i).sa, (env.entries i).ea) =
    build.ruleRange (env.entries i).cfgReg (env.entries i).addrReg (env.prevAddr i)
  counted : env.numRules = env.activeRules

namespace Env
variable (build : Build) (env : Env)

def rlb : Bool := env.mseccfg &&& mseccfgRlb != 0

def setEntry (i : Nat) (entry : Entry) : Env :=
  { env with entries := fun j => if j = i then entry else env.entries j }

def updateRule (i : Nat) : Env :=
  let entry := env.entries i
  let range := build.ruleRange entry.cfgReg entry.addrReg (env.prevAddr i)
  { env.setEntry i { entry with sa := range.1, ea := range.2 } with numRules := env.activeRules }

def validateConfiguration (val : BitVec 8) : Option (BitVec 8) :=
  let locked := val &&& pmpLock == pmpLock
  let exec := val &&& pmpExec == pmpExec
  let shared := val &&& pmpRead != pmpRead && val &&& pmpWrite == pmpWrite
  if !env.rlb && env.mml && locked && (exec || shared) then none
  else some (if !env.mml && build.hw.priv111 && shared then val &&& ~~~pmpWrite else val)

def writeCfg (i : Nat) (val : BitVec 8) : Env :=
  if maxRiscvPmps ≤ i then env
  else if isLocked env i && !env.rlb then env
  else match env.validateConfiguration build val with
    | none => env
    | some val => (env.setEntry i { env.entries i with cfgReg := val }).updateRule build i

def writeCfgByte (base : BitVec 32) (val : W64) (env : Env) (i : Nat) : Env :=
  env.writeCfg build (base + BitVec.ofNat 32 i).toNat ((val >>> (8 * i)).setWidth 8 &&& 0x9f)

def pmpcfgCsrWrite (regIndex : BitVec 32) (val : W64) : Env :=
  if build.rv32 then (List.range 4).foldl (writeCfgByte build (regIndex * 4) val) env
  else if regIndex % 2 ≠ 0 then env
  else (List.range 8).foldl (writeCfgByte build (regIndex * 8 / 2) val) env

def pmpaddrCsrWrite (i : BitVec 32) (val : W64) : Env :=
  if maxRiscvPmps ≤ i.toNat then env
  else if isLocked env i.toNat && !env.rlb then env
  else
    let entry := env.entries i.toNat
    (env.setEntry i.toNat { entry with addrReg := val &&& build.hw.addrMask }).updateRule build i.toNat

end Env

inductive Write where
  | pmpcfg (regIndex : BitVec 32) (val : W64)
  | pmpaddr (index : BitVec 32) (val : W64)

def writeStep (build : Build) (env : Env) : Write → Env
  | .pmpcfg regIndex val => env.pmpcfgCsrWrite build regIndex val
  | .pmpaddr index val => env.pmpaddrCsrWrite build index val

section
variable {build : Build} {env : Env}

def RangeCurrent (build : Build) (env : Env) (i : Nat) : Prop :=
  ((env.entries i).sa, (env.entries i).ea) =
      build.ruleRange (env.entries i).cfgReg (env.entries i).addrReg (env.prevAddr i)

def Current (build : Build) (env : Env) : Prop :=
  ∀ i < maxRiscvPmps, env.aField i ≠ .off → RangeCurrent build env i

@[simp] theorem setEntry_self (i : Nat) (entry : Entry) : (env.setEntry i entry).entries i = entry := if_pos rfl

variable {i j : Nat}

theorem setEntry_other (h : j ≠ i) {e : Entry} : (env.setEntry i e).entries j = env.entries j := if_neg h

theorem updateRule_other (h : j ≠ i) : (env.updateRule build i).entries j = env.entries j :=
  setEntry_other h

@[simp] theorem updateRule_cfgReg (i j : Nat) :
    ((env.updateRule build i).entries j).cfgReg = (env.entries j).cfgReg := by
  by_cases h : j = i
  · simp [updateRule, h]
  · rw [updateRule_other h]

@[simp] theorem updateRule_addrReg (i j : Nat) :
    ((env.updateRule build i).entries j).addrReg = (env.entries j).addrReg := by
  by_cases h : j = i
  · simp [updateRule, h]
  · rw [updateRule_other h]

@[simp] theorem updateRule_prevAddr (i j : Nat) : (env.updateRule build i).prevAddr j = env.prevAddr j := by
  simp [prevAddr]

theorem updateRule_current : RangeCurrent build (env.updateRule build i) i := by
  unfold RangeCurrent
  rw [updateRule_prevAddr]
  simp [updateRule]

theorem updateRule_current_other (h : j ≠ i) :
    RangeCurrent build (env.updateRule build i) j ↔ RangeCurrent build env j := by
  unfold RangeCurrent
  rw [updateRule_prevAddr, updateRule_other h]

theorem ruleRange_prev_iff {cfg : BitVec 8} {a p p' : W64} : build.ruleRange cfg a p' = build.ruleRange cfg a p ↔
    (getAField cfg = .tor → p' <<< 2 &&& build.hw.addrMask = p <<< 2 &&& build.hw.addrMask) := by
  unfold Build.ruleRange Pmp.ruleRange
  cases h : getAField cfg <;> simp

theorem prevAddr_succ (env : Env) (i : Nat) : env.prevAddr (i + 1) = (env.entries i).addrReg := by
  simp [prevAddr]

theorem prevAddr_setEntry (ho : j ≠ i + 1) (e : Entry) : (env.setEntry i e).prevAddr j = env.prevAddr j := by
  unfold prevAddr
  split
  case isTrue hp => rw [setEntry_other (by omega)]
  case isFalse => rfl

theorem current_setEntry (ho : j ≠ i) (hn : j ≠ i + 1) (e : Entry) :
    RangeCurrent build (env.setEntry i e) j ↔ RangeCurrent build env j := by
  unfold RangeCurrent
  rw [setEntry_other ho, prevAddr_setEntry hn]

theorem rewritten_current_iff (hc : Current build env) {e : Entry} :
    Current build ((env.setEntry i e).updateRule build i) ↔ (i + 1 < maxRiscvPmps → env.aField (i + 1) = .tor →
      e.addrReg <<< 2 &&& build.hw.addrMask = (env.entries i).addrReg <<< 2 &&& build.hw.addrMask) := by
  have hab : i + 1 ≠ i := by omega
  have haf {j : Nat} (ho : j ≠ i) : ((env.setEntry i e).updateRule build i).aField j = env.aField j := by
    rw [aField, updateRule_cfgReg, setEntry_other ho, aField]
  have hn : i + 1 < maxRiscvPmps → env.aField (i + 1) ≠ .off →
      (RangeCurrent build ((env.setEntry i e).updateRule build i) (i + 1) ↔ (env.aField (i + 1) = .tor →
        e.addrReg <<< 2 &&& build.hw.addrMask = (env.entries i).addrReg <<< 2 &&& build.hw.addrMask)) := by
    intro hb ha
    rw [updateRule_current_other hab, RangeCurrent, setEntry_other hab, hc (i + 1) hb ha, prevAddr_succ,
      prevAddr_succ, setEntry_self, eq_comm]
    exact ruleRange_prev_iff
  constructor
  · intro hk hb ht
    have ha : env.aField (i + 1) ≠ .off := by simp [ht]
    exact (hn hb ha).mp (hk (i + 1) hb (by rwa [haf hab])) ht
  · intro hs j hb ha
    by_cases hsa : j = i
    · rw [hsa]
      exact updateRule_current
    · rw [haf hsa] at ha
      by_cases hbe : j = i + 1
      · rw [hbe] at hb ha ⊢
        exact (hn hb ha).mpr (hs hb)
      · rw [updateRule_current_other hsa, current_setEntry hsa hbe]
        exact hc j hb ha

theorem writeCfg_current (h : Current build env) {val : BitVec 8} : Current build (env.writeCfg build i val) := by
  unfold writeCfg
  split
  · exact h
  split
  · exact h
  split
  · exact h
  · exact (rewritten_current_iff h).mpr fun _ _ => rfl

theorem pmpcfgCsrWrite_current (hc : Current build env) {r : BitVec 32} {val : W64} :
    Current build (env.pmpcfgCsrWrite build r val) := by
  have hb (b : BitVec 32) (ind : List Nat) : Current build (ind.foldl (writeCfgByte build b val) env) := by
    induction ind generalizing env with
    | nil => exact hc
    | cons i ind ih => exact ih (writeCfg_current hc)
  unfold pmpcfgCsrWrite
  split
  · exact hb _ _
  split
  · exact hc
  · exact hb _ _

/-- A write of pmpaddr that is not ignored leaves the start of a TOR entry above it where it was. -/
def KeepsNextStart (build : Build) (env : Env) : Write → Prop
  | .pmpcfg _ _ => True
  | .pmpaddr i val => (isLocked env i.toNat → env.rlb) → i.toNat + 1 < maxRiscvPmps →
    env.aField (i.toNat + 1) = .tor →
    (val &&& build.hw.addrMask) <<< 2 &&& build.hw.addrMask = (env.entries i.toNat).addrReg <<< 2 &&& build.hw.addrMask

theorem writeStep_current_iff (hc : Current build env) {write : Write} :
    Current build (writeStep build env write) ↔ KeepsNextStart build env write := by
  cases write with
  | pmpcfg r val => exact iff_of_true (pmpcfgCsrWrite_current hc) True.intro
  | pmpaddr i val =>
    unfold writeStep pmpaddrCsrWrite KeepsNextStart
    dsimp only
    split
    case isTrue ho => exact iff_of_true hc fun _ hb => absurd hb (by omega)
    case isFalse hin =>
      split
      case isTrue hi =>
        have hr : ¬(isLocked env i.toNat → env.rlb) := by simpa using hi
        exact iff_of_true hc fun hw => absurd hw hr
      case isFalse hwr =>
        have hw : isLocked env i.toNat → env.rlb := by simpa using hwr
        rw [rewritten_current_iff hc]
        exact ⟨fun hk _ => hk, fun hk => hk hw⟩

end

/-- From a state with current ranges, they are current after every write of a sequence exactly when each write of
  pmpaddr keeps the start of the TOR entry above it. -/
theorem stored_ranges_current_iff (build : Build) (start : Env) (current : Current build start) (writes : List Write) :
    StepsMeet (writeStep build) (fun env write => Current build (writeStep build env write)) start writes ↔
      StepsMeet (writeStep build) (KeepsNextStart build) start writes := by
  have each : ∀ env write, Current build env →
      (Current build (writeStep build env write) ↔ KeepsNextStart build env write) := fun _ write held =>
    writeStep_current_iff held
  exact stepsMeet_invariant_iff each current

def resetEnv : Env := ⟨fun _ => ⟨0, 0, 0, 0⟩, 0, 0, .machine, 0⟩

theorem resetEnv_current {build : Build} : Current build resetEnv := by
  intro i _ ha
  have ho : getAField 0 = .off := by decide
  exact absurd ho ha

theorem widest_bound : 1 ≤ 54 ∧ 54 ≤ 54 := by decide

def wideBuild : Build where
  hw :=
    { addrBits := 54, napotGrain := none, priv111 := true, smepmp := false, addrBitsBound := widest_bound,
      grainBound := nofun }
  rv32 := false
  narrow := nofun

theorem base_first_current : Current wideBuild resetEnv ∧
    StepsMeet (writeStep wideBuild) (fun env write => Current wideBuild (writeStep wideBuild env write)) resetEnv
      [.pmpaddr 0 0x100, .pmpaddr 1 0x200, .pmpcfg 0 0x0800] :=
  ⟨resetEnv_current, (stored_ranges_current_iff wideBuild resetEnv resetEnv_current _).mpr
    ⟨fun _ _ tor => absurd tor (by decide), fun _ _ tor => absurd tor (by decide +kernel), True.intro, True.intro⟩⟩

theorem base_last_stale : ¬Current wideBuild
    (run (writeStep wideBuild) resetEnv [.pmpaddr 1 0x200, .pmpcfg 0 0x0800, .pmpaddr 0 0x100]) := by
  intro current
  have starts := congrArg Prod.fst (current 1 (by decide) (by decide +kernel))
  exact absurd starts (by decide +kernel)

section
variable {build : Build} {env start : Env} {i j : Nat}

def isAnyRegionLocked (env : Env) : Bool := (List.range maxRiscvPmps).any (isLocked env)

/-- The write of `mseccfg` in `csr_write_helper`: MML and MMWP stay, and RLB can be set as long as nothing is locked. -/
def mseccfgCsrWrite (env : Env) (val : W64) : Env :=
  let mask := mseccfgMml ||| mseccfgMmwp ||| mseccfgRlb
  let mask := if !env.rlb && isAnyRegionLocked env then mask ^^^ mseccfgRlb else mask
  { env with mseccfg := (val &&& mask) ||| (env.mseccfg &&& (mseccfgMml ||| mseccfgMmwp)) }

inductive LockEvent where
  | write (write : Write)
  | mseccfg (val : W64)

def lockStep (build : Build) (env : Env) : LockEvent → Env
  | .write write => writeStep build env write
  | .mseccfg val => mseccfgCsrWrite env val

/-- A locked entry without RLB is as it was: the registers, the stored range, and the base of a TOR entry. -/
structure LockHeld (i : Nat) (start env : Env) : Prop where
  entry : env.entries i = start.entries i
  base : start.aField i = .tor → env.prevAddr i = start.prevAddr i
  rlb : env.rlb = false
  mml : start.mml → env.mml
  mmwp : start.mmwp → env.mmwp

section
variable (h : LockHeld i start env) (hl : (start.entries i).cfgReg &&& pmpLock ≠ 0)
include h hl

theorem LockHeld.locked : isLocked env i := by
  rw [← h.entry] at hl
  exact Bool.or_eq_true_iff.mpr (.inl (bne_iff_ne.mpr hl))

variable (hi : i < maxRiscvPmps)
include hi

theorem LockHeld.rewritten (hj : ¬(isLocked env j && !env.rlb)) {e : Entry} :
    LockHeld i start ((env.setEntry j e).updateRule build j) := by
  have hj : isLocked env j = false := by simpa [h.rlb] using hj
  have ho : i ≠ j := by
    rintro rfl
    exact absurd (h.locked hl) (by simp [hj])
  refine ⟨?_, fun ht => ?_, h.rlb, h.mml, h.mmwp⟩
  · rw [updateRule_other ho, setEntry_other ho, h.entry]
  · have hn : i ≠ j + 1 := by
      rintro rfl
      rw [aField, ← h.entry] at ht
      rw [← h.entry] at hl
      simp [isLocked, aField, ht, hi] at hj
      exact hl hj.2
    rw [updateRule_prevAddr, prevAddr_setEntry hn, h.base ht]

theorem LockHeld.writeCfg {val : BitVec 8} : LockHeld i start (env.writeCfg build j val) := by
  unfold Env.writeCfg
  split
  · exact h
  split
  · exact h
  rename_i hj
  split
  · exact h
  · exact h.rewritten hl hi hj

theorem LockHeld.pmpcfg {r : BitVec 32} {val : W64} : LockHeld i start (env.pmpcfgCsrWrite build r val) := by
  have hf (b : BitVec 32) (l : List Nat) : LockHeld i start (l.foldl (writeCfgByte build b val) env) := by
    induction l generalizing env with
    | nil => exact h
    | cons j l ih => exact ih (h.writeCfg hl hi)
  unfold pmpcfgCsrWrite
  split
  · exact hf _ _
  split
  · exact h
  · exact hf _ _

theorem LockHeld.mseccfg {val : W64} : LockHeld i start (mseccfgCsrWrite env val) := by
  have ha : isAnyRegionLocked env := List.any_eq_true.mpr ⟨i, List.mem_range.mpr hi, h.locked hl⟩
  have hk {bit : W64} (hb : (mseccfgMml ||| mseccfgMmwp) &&& bit = bit) (hs : env.mseccfg &&& bit != 0) :
      (mseccfgCsrWrite env val).mseccfg &&& bit != 0 := by
    rw [bne_iff_ne] at hs ⊢
    rw [mseccfgCsrWrite, BitVec.or_comm]
    exact or_and_ne_zero (by rwa [BitVec.and_assoc, hb]) _
  refine ⟨h.entry, h.base, ?_, fun hs => hk (by decide) (h.mml hs), fun hs => hk (by decide) (h.mmwp hs)⟩
  have hw : Within (~~~mseccfgRlb) (mseccfgCsrWrite env val).mseccfg := by
    simp only [mseccfgCsrWrite, h.rlb, ha]
    exact (Within.and_right (by decide) _).or (Within.and_right (by decide) _)
  simpa [Env.rlb] using hw.and_eq_zero

theorem LockHeld.step (event : LockEvent) : LockHeld i start (lockStep build env event) := by
  match event with
  | .write (.pmpcfg r val) => exact h.pmpcfg hl hi
  | .write (.pmpaddr j val) =>
    simp only [lockStep, writeStep, pmpaddrCsrWrite]
    split
    · exact h
    split
    · exact h
    · rename_i hj
      exact h.rewritten hl hi hj
  | .mseccfg val => exact h.mseccfg hl hi

end

/-- Until reset, a lock that RLB does not lift keeps its entry over any writes. -/
theorem tlib_lock_outlives_writes (build : Build) (start : Env) (i : Nat) (inside : i < maxRiscvPmps)
    (locked : (start.entries i).cfgReg &&& pmpLock ≠ 0) (held : start.rlb = false) (events : List LockEvent) :
    LockHeld i start (run (lockStep build) start events) := by
  exact run_invariant (fun env event kept => kept.step locked inside event) ⟨rfl, fun _ => rfl, held, id, id⟩

def lockedEnv : Env := { resetEnv with entries := fun _ => ⟨0x100, 0x89, 0, 0x3ff⟩ }

theorem tlib_lock_outlives_clearing :
    LockHeld 1 lockedEnv (run (lockStep wideBuild) lockedEnv [.mseccfg 4, .write (.pmpcfg 0 0), .write (.pmpaddr 0 0)]) :=
  tlib_lock_outlives_writes wideBuild lockedEnv 1 (by decide) (by decide) (by decide) _

end

end RiscvEmulators.Tlib.Pmp
