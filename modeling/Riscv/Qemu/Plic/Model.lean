import Riscv.Store.Cells

namespace RiscvEmulators.Qemu
open Store

inductive PlicMode where
  | u
  | s
  | m
deriving DecidableEq, Repr

namespace SifivePlic

def charToMode : Char → Option PlicMode
  | 'U' => some .u
  | 'S' => some .s
  | 'M' => some .m
  | _ => none

/-- The hart and mode of every context and the number of harts, from the text that is left, the hart and the modes it
  has so far. The two passes of the source over the text are one here; `none` is an error exit. -/
def parseHartConfig : List Char → Nat → List PlicMode → Option (List (Nat × PlicMode) × Nat)
  | [], hart, modes => some ([], if modes = [] then hart else hart + 1)
  | c :: text, hart, modes =>
    if c = ',' then (if modes = [] then parseHartConfig text hart [] else parseHartConfig text (hart + 1) [])
    else do
      let mode ← charToMode c
      if mode ∈ modes then none
      else
        let (addrs, harts) ← parseHartConfig text hart (mode :: modes)
        return ((hart, mode) :: addrs, harts)

/-- The properties of the device. The inputs are counted by an `int`, and `num_priorities + 1` is a divisor. -/
structure Config where
  addrs : List (Nat × PlicMode)
  harts : Nat
  numSources : W32
  numPriorities : W32
  priorityBase : W32
  pendingBase : W32
  enableBase : W32
  enableStride : W32
  contextBase : W32
  contextStride : W32
  distinct : addrs.Nodup
  inRange : ∀ addr ∈ addrs, addr.1 < harts
  nonempty : numSources ≠ 0
  few : numSources.toNat < 2 ^ 31
  divisor : numPriorities + 1 ≠ 0

namespace Config
variable (cfg : Config)

def sources : Nat := cfg.numSources.toNat
def numAddrs : Nat := cfg.addrs.length
def bitfieldWords : Nat := (cfg.sources + 31) / 32
def hartid (addrid : Fin cfg.numAddrs) : Nat := (cfg.addrs.get addrid).1
def mode (addrid : Fin cfg.numAddrs) : PlicMode := (cfg.addrs.get addrid).2
def span (stride : W32) : W32 := BitVec.ofNat 32 cfg.numAddrs * stride

def legalize (value : W32) : Option W32 :=
  if (cfg.numPriorities + 1) &&& cfg.numPriorities = 0 then some (value % (cfg.numPriorities + 1))
  else if value ≤ cfg.numPriorities then some value
  else none

end Config
end SifivePlic

open SifivePlic

/-- The controller with the external interrupt lines of the harts. `inService` has the sources that a claim returned and
  that were not completed since, which the controller knows from `claimed`. -/
structure SifivePlic (cfg : Config) where
  sourcePriority : Cells cfg.sources W32
  targetPriority : Cells cfg.numAddrs W32
  pending : Bits cfg.bitfieldWords
  claimed : Bits cfg.bitfieldWords
  enable : Cells (cfg.bitfieldWords * cfg.numAddrs) (W32)
  mExternalIrqs : Cells cfg.harts Bool
  sExternalIrqs : Cells cfg.harts Bool
  inService : Nat → Bool

namespace SifivePlic
variable {cfg : Config}

def addrBetween (addr base num : W32) : Bool := decide (base ≤ addr ∧ addr - base < num)
def atomicSetMasked (old mask value : W32) : W32 := old &&& ~~~mask ||| value &&& mask

/-- All operations return `none` on an access outside of an array. -/
def setBit (bits : Bits cfg.bitfieldWords) (irq : Nat) (level : Bool) : Option (Bits cfg.bitfieldWords) :=
  bits.modify (irq / 32) fun word => atomicSetMasked word (bitOf irq) (if level then BitVec.allOnes 32 else 0)

variable (plic : SifivePlic cfg)

def setPending (irq : Nat) (level : Bool) : Option (SifivePlic cfg) := do
  let pending ← setBit plic.pending irq level
  return { plic with pending }

def setClaimed (irq : Nat) (level : Bool) : Option (SifivePlic cfg) := do
  let claimed ← setBit plic.claimed irq level
  return { plic with claimed }

structure Max where
  irq : Nat
  prio : W32
deriving DecidableEq

def maxOfWord (addrid : Nat) (max : Max) (i : Nat) : Option Max := do
  let pending ← plic.pending.read i
  let claimed ← plic.claimed.read i
  let enable ← plic.enable.read (addrid * cfg.bitfieldWords + i)
  let word := pending &&& ~~~claimed &&& enable
  if word = 0 then return max
  else
    -- the last word may have fewer sources
    let numIrqInWord := if i = cfg.bitfieldWords - 1 then cfg.sources - (cfg.bitfieldWords - 1) * 32 else 32
    (List.range numIrqInWord).foldlM (fun max j => do
      let prio ← plic.sourcePriority.read (i * 32 + j)
      return if word.getLsbD j ∧ max.prio < prio then ⟨i * 32 + j, prio⟩ else max) max

def claimedIrq (addrid : Nat) : Option Nat := do
  let prio ← plic.targetPriority.read addrid
  let max ← (List.range cfg.bitfieldWords).foldlM (plic.maxOfWord addrid) ⟨0, prio⟩
  return max.irq

def setIrq (addrid : Fin cfg.numAddrs) (level : Bool) : Option (SifivePlic cfg) :=
  match cfg.mode addrid with
  | .m => (plic.mExternalIrqs.write (cfg.hartid addrid) level).map fun mExternalIrqs => { plic with mExternalIrqs }
  | .s => (plic.sExternalIrqs.write (cfg.hartid addrid) level).map fun sExternalIrqs => { plic with sExternalIrqs }
  | .u => some plic

def update : Option (SifivePlic cfg) :=
  (List.finRange cfg.numAddrs).foldlM (fun plic (addrid : Fin cfg.numAddrs) => do
    let irq ← plic.claimedIrq addrid
    plic.setIrq addrid (decide (irq ≠ 0))) plic

def service (irq : Nat) (taken : Bool) : SifivePlic cfg :=
  { plic with inService := fun other => if other = irq then taken else plic.inService other }

def claim (addrid : Nat) : Option (Nat × SifivePlic cfg) := do
  let maxIrq ← plic.claimedIrq addrid
  let plic ←
    if maxIrq ≠ 0 then do
      let plic ← plic.setPending maxIrq false
      let plic ← plic.setClaimed maxIrq true
      pure (plic.service maxIrq true)
    else pure plic
  let plic ← plic.update
  return (maxIrq, plic)

def pendingSize (cfg : Config) : W32 := (cfg.numSources + 31) >>> 3

/-- What is read, and the controller afterwards. The value is `none` for the words of the pending area behind the
  array, which the bound of the source lets through. -/
def read (plic : SifivePlic cfg) (addr : W32) : Option (Option W32 × SifivePlic cfg) :=
  if addrBetween addr cfg.priorityBase (cfg.numSources <<< 2) then do
    let prio ← plic.sourcePriority.read ((addr - cfg.priorityBase).toNat / 4)
    return (some prio, plic)
  else if addrBetween addr cfg.pendingBase (pendingSize cfg) then
    some (plic.pending.read ((addr - cfg.pendingBase).toNat / 4), plic)
  else if addrBetween addr cfg.enableBase (cfg.span cfg.enableStride) then
    let addrid := (addr - cfg.enableBase).toNat / cfg.enableStride.toNat
    let wordid := (addr &&& (cfg.enableStride - 1)).toNat / 4
    if wordid < cfg.bitfieldWords then do
      let enable ← plic.enable.read (addrid * cfg.bitfieldWords + wordid)
      return (some enable, plic)
    else some (some 0, plic)
  else if addrBetween addr cfg.contextBase (cfg.span cfg.contextStride) then
    let addrid := (addr - cfg.contextBase).toNat / cfg.contextStride.toNat
    let contextid := addr &&& (cfg.contextStride - 1)
    if contextid = 0 then do
      let prio ← plic.targetPriority.read addrid
      return (some prio, plic)
    else if contextid = 4 then (plic.claim addrid).map fun (irq, plic) => (some (BitVec.ofNat 32 irq), plic)
    else some (some 0, plic)
  else some (some 0, plic)

def write (plic : SifivePlic cfg) (addr value : W32) : Option (SifivePlic cfg) :=
  if addrBetween addr cfg.priorityBase (cfg.numSources <<< 2) then
    let irq := (addr - cfg.priorityBase).toNat / 4
    if irq = 0 then some plic
    else
      match cfg.legalize value with
      | some prio => do
        let sourcePriority ← plic.sourcePriority.write irq prio
        { plic with sourcePriority }.update
      | none => some plic
  else if addrBetween addr cfg.pendingBase (pendingSize cfg) then some plic
  else if addrBetween addr cfg.enableBase (cfg.span cfg.enableStride) then
    let addrid := (addr - cfg.enableBase).toNat / cfg.enableStride.toNat
    let wordid := (addr &&& (cfg.enableStride - 1)).toNat / 4
    if wordid < cfg.bitfieldWords then do
      let enable ← plic.enable.write (addrid * cfg.bitfieldWords + wordid) value
      return { plic with enable }
    else some plic
  else if addrBetween addr cfg.contextBase (cfg.span cfg.contextStride) then
    let addrid := (addr - cfg.contextBase).toNat / cfg.contextStride.toNat
    let contextid := addr &&& (cfg.contextStride - 1)
    if contextid = 0 then
      match cfg.legalize value with
      | some prio => do
        let targetPriority ← plic.targetPriority.write addrid prio
        { plic with targetPriority }.update
      | none => some plic
    else if contextid = 4 then
      if value < cfg.numSources then do
        let plic ← plic.setClaimed value.toNat false
        (plic.service value.toNat false).update
      else some plic
    else some plic
  else some plic

def irqRequest (irq : Fin cfg.sources) (level : Int) : Option (SifivePlic cfg) :=
  if 0 < level then do
    let plic ← plic.setPending irq true
    plic.update
  else some plic

def init (cfg : Config) : SifivePlic cfg where
  sourcePriority := fun _ => 0
  targetPriority := fun _ => 0
  pending := fun _ => 0
  claimed := fun _ => 0
  enable := fun _ => 0
  mExternalIrqs := fun _ => false
  sExternalIrqs := fun _ => false
  inService := fun _ => false

inductive Event (cfg : Config) where
  | read (addr : W32)
  | write (addr value : W32)
  | request (irq : Fin cfg.sources) (level : Int)

def step : Event cfg → Option (SifivePlic cfg)
  | .read addr => (plic.read addr).map Prod.snd
  | .write addr value => plic.write addr value
  | .request irq level => plic.irqRequest irq level

/-- An access outside of an array has no meaning, and leaves the controller as it is here. -/
def after (event : Event cfg) : SifivePlic cfg := (plic.step event).getD plic

end SifivePlic
end RiscvEmulators.Qemu
