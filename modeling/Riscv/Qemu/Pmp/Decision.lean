import Riscv.Qemu.Cpu.State
import Riscv.Rules.FirstMatch
import Riscv.Word.Align

namespace RiscvEmulators.Qemu.Pmp
open Word Cpu Rules

def pmpRead : BitVec 8 := 0x01
def pmpWrite : BitVec 8 := 0x02
def pmpExec : BitVec 8 := 0x04
def pmpRwx : BitVec 8 := 0x07
def pmpMtmatch : BitVec 8 := 0x60
def pmpLock : BitVec 8 := 0x80

def mseccfgMml : W64 := 0x1
def mseccfgMmwp : W64 := 0x2
def mseccfgRlb : W64 := 0x4
def mseccfgPmm : W64 := 0x300000000
def pmmFieldReserved : W64 := 1

/-- The configuration that the PMP code reads. The granularity is 2 ^ (g + 2) bytes. `narrow` is the build for 32 bits,
  whose `target_ulong` holds no more. -/
structure Hardware where
  regions : Nat
  g : Nat
  mxl : Mxl
  narrow : Bool
  mmu : Bool
  pmp : Bool
  extSmpmpmt : Bool
  extSmepmp : Bool
  extSmmpm : Bool
  regionsBound : regions ≤ 64
  gBound : g ≤ 29
  narrowMxl : narrow → mxl = .rv32

def Hardware.ulong (hw : Hardware) (val : W64) : W64 := if hw.narrow then (val.setWidth 32).setWidth 64 else val

inductive AMatch where
  | off | tor | na4 | napot
  deriving DecidableEq

structure Entry where
  addrReg : W64
  cfgReg : BitVec 8
  sa : W64
  ea : W64

structure State where
  entries : Nat → Entry
  numRules : Nat
  mseccfg : W64

def resetState : State := ⟨fun _ => ⟨0, 0, 0, 0⟩, 0, 0⟩

def getAField (cfg : BitVec 8) : AMatch :=
  match cfg.getLsbD 4, cfg.getLsbD 3 with
  | false, false => .off
  | false, true => .tor
  | true, false => .na4
  | true, true => .napot

def getSmepmpOperation (cfg : BitVec 8) : BitVec 8 :=
  ((cfg &&& pmpLock) >>> 4) ||| ((cfg &&& pmpRead) <<< 2) ||| (cfg &&& pmpWrite) ||| ((cfg &&& pmpExec) >>> 2)

def Mxl.cfgNums : Mxl → Nat
  | .rv32 => 4
  | .rv64 => 8
  | .rv128 => 16

namespace State
variable (s : State)

def mmlIsset : Bool := s.mseccfg &&& mseccfgMml != 0
def mmwpIsset : Bool := s.mseccfg &&& mseccfgMmwp != 0
def rlbIsset : Bool := s.mseccfg &&& mseccfgRlb != 0

def isLocked (i : Nat) : Bool := (s.entries i).cfgReg &&& pmpLock != 0
def isReadonly (i : Nat) : Bool := s.isLocked i && !s.rlbIsset

def isInvalidSmepmpCfg (val : BitVec 8) : Bool :=
  s.mmlIsset && !s.rlbIsset && (getSmepmpOperation val == 9 || getSmepmpOperation val == 10 ||
    getSmepmpOperation val == 11 || getSmepmpOperation val == 13)

def setEntry (i : Nat) (entry : Entry) : State :=
  { s with entries := fun j => if j = i then entry else s.entries j }

def prevAddr (i : Nat) : W64 := if 1 ≤ i then (s.entries (i - 1)).addrReg else 0

end State

def decodeNapot (a : W64) : W64 × W64 :=
  let a := (a <<< 2) ||| 0x3
  (a &&& (a + 1), a ||| (a + 1))

def torAddr (g : Nat) (addr : W64) : W64 := if 1 ≤ g then addr &&& ~~~(((1 : W64) <<< g) - 1) else addr

/-- The bounds of `pmp_update_rule_addr`: TOR and NA4 shift a `target_ulong`, NAPOT shifts a `hwaddr`. -/
def ruleRange (hw : Hardware) (cfg : BitVec 8) (thisAddr prevAddr : W64) : W64 × W64 :=
  match getAField cfg with
  | .off => (0, -1)
  | .tor =>
    if torAddr hw.g thisAddr ≤ torAddr hw.g prevAddr then (0, 0)
    else (hw.ulong (torAddr hw.g prevAddr <<< 2), hw.ulong (torAddr hw.g thisAddr <<< 2 - 1))
  | .na4 => (hw.ulong (thisAddr <<< 2), hw.ulong (thisAddr <<< 2) + 4 - 1)
  | .napot => decodeNapot thisAddr

section
variable (hw : Hardware)

def updateRuleAddr (s : State) (i : Nat) : State :=
  let entry := s.entries i
  let range := ruleRange hw entry.cfgReg entry.addrReg (s.prevAddr i)
  s.setEntry i { entry with sa := range.1, ea := range.2 }

def updateRuleNums (s : State) : State :=
  { s with numRules := ((List.range hw.regions).filter fun i => getAField (s.entries i).cfgReg ≠ .off).length }

def legalizeCfg (old val : BitVec 8) : BitVec 8 :=
  if !hw.extSmpmpmt then val &&& ~~~pmpMtmatch
  else if val &&& pmpMtmatch = pmpMtmatch then (val &&& ~~~pmpMtmatch) ||| (old &&& pmpMtmatch)
  else val

def writeCfg (s : State) (i : Nat) (val : BitVec 8) : State × Bool :=
  let entry := s.entries i
  if hw.regions ≤ i then (s, false)
  else if entry.cfgReg = val then (s, false)
  else if s.isReadonly i then (s, false)
  else if s.isInvalidSmepmpCfg val then (s, false)
  else if 1 ≤ hw.g ∧ getAField val = .na4 then (s, false)
  else (updateRuleAddr hw (s.setEntry i { entry with cfgReg := legalizeCfg hw entry.cfgReg val }) i, true)

def writeCfgBytes (regIndex : Nat) (val : W64) (state : State × Bool) (i : Nat) : State × Bool :=
  let written := writeCfg hw state.1 (regIndex * 4 + i) ((val >>> (8 * i)).setWidth 8)
  (written.1, state.2 || written.2)

def pmpcfgCsrWrite (s : State) (regIndex : Nat) (val : W64) : State :=
  let written := (List.range (Mxl.cfgNums hw.mxl)).foldl (writeCfgBytes hw regIndex val) (s, false)
  if written.2 then updateRuleNums hw written.1 else written.1

def pmpaddrCsrWrite (s : State) (i : Nat) (val : W64) : State :=
  let nextTor : Bool := i + 1 < hw.regions ∧ getAField (s.entries (i + 1)).cfgReg = .tor
  if hw.regions ≤ i then s
  else if (s.entries i).addrReg = hw.ulong val then s
  else if nextTor && s.isReadonly (i + 1) then s
  else if s.isReadonly i then s
  else
    let written := updateRuleAddr hw (s.setEntry i { s.entries i with addrReg := hw.ulong val }) i
    if nextTor then updateRuleAddr hw written (i + 1) else written

def mseccfgCsrWrite (s : State) (val : W64) : State :=
  let pmm := hw.extSmmpm && hw.mxl = .rv64 && getField val mseccfgPmm != pmmFieldReserved
  let mask := if pmm then mseccfgMmwp ||| mseccfgMml ||| mseccfgPmm else mseccfgMmwp ||| mseccfgMml
  let locked := !s.rlbIsset && (List.range hw.regions).any s.isLocked
  let val := if locked then val &&& ~~~mseccfgRlb else val
  { s with mseccfg := if hw.extSmepmp then val ||| (s.mseccfg &&& mask) else val &&& ~~~(mask ||| mseccfgRlb) }

inductive Write where
  | pmpcfg (regIndex : Nat) (val : W64)
  | pmpaddr (index : Nat) (val : W64)
  | mseccfg (val : W64)

def writeStep (s : State) : Write → State
  | .pmpcfg regIndex val => pmpcfgCsrWrite hw s regIndex val
  | .pmpaddr index val => pmpaddrCsrWrite hw s index val
  | .mseccfg val => mseccfgCsrWrite hw s val

def isInRange (s : State) (i : Nat) (addr : W64) : Bool := (s.entries i).sa ≤ addr && addr ≤ (s.entries i).ea

end

def hasPrivsDefault (hw : Hardware) (s : State) (privs : BitVec 8) (mode : Priv) : Bool :=
  if s.mmwpIsset then false
  else if s.mmlIsset then mode = .machine && privs &&& pmpExec == 0
  else !hw.pmp || mode = .machine

def smepmpMachine (operation : BitVec 8) : BitVec 8 :=
  match operation.toNat with
  | 2 | 3 | 14 => pmpRead ||| pmpWrite
  | 9 | 10 => pmpExec
  | 11 | 13 => pmpRead ||| pmpExec
  | 12 | 15 => pmpRead
  | _ => 0

def smepmpOther (operation : BitVec 8) : BitVec 8 :=
  match operation.toNat with
  | 1 | 10 | 11 => pmpExec
  | 2 | 4 | 15 => pmpRead
  | 3 | 6 => pmpRead ||| pmpWrite
  | 5 => pmpRead ||| pmpExec
  | 7 => pmpRwx
  | _ => 0

def allowedPrivs (s : State) (i : Nat) (mode : Priv) : BitVec 8 :=
  let cfg := (s.entries i).cfgReg
  if !s.mmlIsset then
    if mode ≠ .machine ∨ s.isLocked i then pmpRwx &&& cfg else pmpRwx
  else if mode = .machine then smepmpMachine (getSmepmpOperation cfg)
  else smepmpOther (getSmepmpOperation cfg)

def checkRules (hw : Hardware) (s : State) (addr last : W64) (privs : BitVec 8) (mode : Priv) : List Nat → Bool
  | [] => hasPrivsDefault hw s privs mode
  | i :: rest =>
    let first := isInRange s i addr
    let final := isInRange s i last
    if first != final then false
    else if first && final && getAField (s.entries i).cfgReg ≠ .off then
      privs &&& allowedPrivs s i mode == privs
    else checkRules hw s addr last privs mode rest

def pmpSize (hw : Hardware) (addr size : W64) : BitVec 32 :=
  if size = 0 then
    if hw.mmu then (-(addr ||| ~~~0xfff)).setWidth 32 else BitVec.ofNat 32 (Mxl.cfgNums hw.mxl)
  else size.setWidth 32

def lastByte (hw : Hardware) (addr size : W64) : W64 := addr + (pmpSize hw addr size).signExtend 64 - 1

def hartHasPrivs (hw : Hardware) (s : State) (addr size : W64) (privs : BitVec 8) (mode : Priv) : Bool :=
  if s.numRules = 0 then hasPrivsDefault hw s privs mode
  else checkRules hw s addr (lastByte hw addr size) privs mode (List.range hw.regions)

structure Region where
  lo : Nat
  hi : Nat
  deriving DecidableEq

def napotAddr (g addr : Nat) : Nat := addr ||| (2 ^ (g - 1) - 1)

def napotRegion (g addr : Nat) : Region :=
  let size := 2 ^ (trailingOnes 64 (napotAddr g addr) + 3)
  let lo := napotAddr g addr * 4 / size * size
  ⟨lo, lo + size⟩

def decodedRegion (g : Nat) (match_ : AMatch) (addr prev : Nat) : Region :=
  match match_ with
  | .off => ⟨0, 0⟩
  | .tor => ⟨prev / 2 ^ g * 2 ^ g * 4, addr / 2 ^ g * 2 ^ g * 4⟩
  | .na4 => ⟨addr * 4, addr * 4 + 4⟩
  | .napot => napotRegion g addr

def Region.overlap (region : Region) (addr size : Nat) : Option Bool :=
  if region.hi ≤ region.lo ∨ region.hi ≤ addr ∨ addr + size ≤ region.lo then none
  else some (region.lo ≤ addr ∧ addr + size ≤ region.hi)

def grantedPrivs (mml locked read write exec : Bool) (mode : Priv) : BitVec 8 :=
  let own : BitVec 8 := BitVec.ofBool exec ++ BitVec.ofBool write ++ BitVec.ofBool read |>.setWidth 8
  if !mml then
    if mode = .machine ∧ !locked then pmpRwx else own
  else if !read && write then
    -- shared regions: data without L, code with L
    if !locked then
      if mode = .machine ∨ exec then pmpRead ||| pmpWrite else pmpRead
    else if mode = .machine ∧ exec then pmpRead ||| pmpExec else pmpExec
  else if locked && read && write && exec then pmpRead
  else if locked = decide (mode = .machine) then own
  else 0

def State.region (hw : Hardware) (s : State) (i : Nat) : Region :=
  decodedRegion hw.g (getAField (s.entries i).cfgReg) (s.entries i).addrReg.toNat (s.prevAddr i).toNat

def State.granted (s : State) (i : Nat) (mode : Priv) : BitVec 8 :=
  let cfg := (s.entries i).cfgReg
  grantedPrivs s.mmlIsset (cfg.getLsbD 7) (cfg.getLsbD 0) (cfg.getLsbD 1) (cfg.getLsbD 2) mode

def defaultRule (implemented mmwp mml : Bool) (privs : BitVec 8) (mode : Priv) : Bool :=
  !mmwp && (if mml then mode = .machine && !privs.getLsbD 2 else mode = .machine || !implemented)

def archMatch (hw : Hardware) (s : State) (addr size : Nat) : Option (Nat × Bool) :=
  firstMatch (fun i => (s.region hw i).overlap addr size) (List.range hw.regions)

def archHasPrivs (hw : Hardware) (s : State) (addr size : Nat) (privs : BitVec 8) (mode : Priv) : Bool :=
  match archMatch hw s addr size with
  | none => defaultRule hw.pmp s.mmwpIsset s.mmlIsset privs mode
  | some (i, whole) => whole && privs &&& s.granted i mode == privs

def rangeOverlap (range : W64 × W64) (enabled : Bool) (addr last : W64) : Option Bool :=
  let first := range.1 ≤ addr && addr ≤ range.2
  let final := range.1 ≤ last && last ≤ range.2
  if first != final then some false
  else if first && final && enabled then some true
  else none

namespace State
variable (hw : Hardware) (s : State) (i : Nat)

def aField : AMatch := getAField (s.entries i).cfgReg

/-- The range that the registers of an entry decode to. An entry that is off keeps what it had at
  reset until it is first written. -/
def registerRange : W64 × W64 :=
  if s.aField i = .off then (0, (s.entries i).ea)
  else ruleRange hw (s.entries i).cfgReg (s.entries i).addrReg (s.prevAddr i)

end State

def codeMatch (hw : Hardware) (s : State) (addr size : W64) : Option (Nat × Bool) :=
  if s.numRules = 0 then none
  else firstMatch (fun i => rangeOverlap ((s.entries i).sa, (s.entries i).ea) (s.aField i ≠ .off) addr
    (lastByte hw addr size)) (List.range hw.regions)

def ruleGrants (hw : Hardware) (s : State) (rule : Option (Nat × Bool)) (privs : BitVec 8) (mode : Priv) : Bool :=
  match rule with
  | none => defaultRule hw.pmp s.mmwpIsset s.mmlIsset privs mode
  | some (i, whole) => whole && privs &&& s.granted i mode == privs

theorem smepmp_table {cfg : BitVec 8} {mode : Priv} :
    (if mode = .machine then smepmpMachine (getSmepmpOperation cfg) else smepmpOther (getSmepmpOperation cfg)) =
      grantedPrivs true (cfg.getLsbD 7) (cfg.getLsbD 0) (cfg.getLsbD 1) (cfg.getLsbD 2) mode := by
  revert cfg
  cases mode <;> decide +kernel

theorem lock_table (cfg : BitVec 8) (mode : Priv) :
    (if mode ≠ .machine ∨ cfg &&& pmpLock != 0 then pmpRwx &&& cfg else pmpRwx) =
      grantedPrivs false (cfg.getLsbD 7) (cfg.getLsbD 0) (cfg.getLsbD 1) (cfg.getLsbD 2) mode := by
  revert cfg
  cases mode <;> decide +kernel

theorem allowedPrivs_eq_granted (s : State) (i : Nat) (mode : Priv) : allowedPrivs s i mode = s.granted i mode := by
  unfold allowedPrivs State.granted
  cases s.mmlIsset with
  | true => exact smepmp_table
  | false => exact lock_table (s.entries i).cfgReg mode

variable (hw : Hardware)

theorem hasPrivsDefault_eq {s : State} {p : BitVec 8} {mode : Priv} :
    hasPrivsDefault hw s p mode = defaultRule hw.pmp s.mmwpIsset s.mmlIsset p mode := by
  have h : (p &&& pmpExec == 0) = !p.getLsbD 2 := by
    revert p
    decide +kernel
  unfold hasPrivsDefault defaultRule
  rw [h]
  cases s.mmwpIsset <;> cases s.mmlIsset <;> simp [Bool.or_comm]

theorem checkRules_eq (s : State) (a l : W64) (privs : BitVec 8) (md : Priv) (r : List Nat) :
    checkRules hw s a l privs md r =
      match firstMatch (fun i => rangeOverlap ((s.entries i).sa, (s.entries i).ea) (s.aField i ≠ .off) a l)
        r with
      | none => hasPrivsDefault hw s privs md
      | some (i, w) => w && privs &&& allowedPrivs s i md == privs := by
  induction r with
  | nil => rfl
  | cons i rest ih =>
    have h : rangeOverlap ((s.entries i).sa, (s.entries i).ea) (s.aField i ≠ .off) a l =
        if isInRange s i a != isInRange s i l then some false
        else if isInRange s i a && isInRange s i l && s.aField i ≠ .off then some true
        else none := rfl
    rw [checkRules, firstMatch, ih, h, ← State.aField]
    cases isInRange s i a <;> cases isInRange s i l <;> cases decide (s.aField i ≠ .off) <;> simp

theorem hartHasPrivs_eq (s : State) (a sz : W64) (p : BitVec 8) (mode : Priv) :
    hartHasPrivs hw s a sz p mode = ruleGrants hw s (codeMatch hw s a sz) p mode := by
  unfold hartHasPrivs codeMatch
  split
  · exact hasPrivsDefault_eq hw
  · rw [checkRules_eq]
    split <;> rename_i h <;> rw [h]
    · exact hasPrivsDefault_eq hw
    · rw [allowedPrivs_eq_granted]
      rfl

theorem archHasPrivs_eq (s : State) (a sz : Nat) (p : BitVec 8) (mode : Priv) :
    archHasPrivs hw s a sz p mode = ruleGrants hw s (archMatch hw s a sz) p mode := by
  unfold archHasPrivs
  split <;> rename_i h <;> rw [h] <;> rfl

end RiscvEmulators.Qemu.Pmp
