import Riscv.Store.Cells
import Mathlib.Logic.Function.Basic

namespace RiscvEmulators.Qemu
open Store

structure Aplic.Config where
  numIrqs : Nat
  numHarts : Nat
  iprioBits : Nat
  msimode : Bool
  mmode : Bool
  numChildren : Nat
  irqs : 0 < numIrqs ∧ numIrqs ≤ 1024
  harts : numHarts < 2 ^ 14
  bits : 1 ≤ iprioBits ∧ iprioBits ≤ 8

namespace Aplic.Config
variable (cfg : Config)

def iprioMask : W32 := 1 <<< cfg.iprioBits - 1
def bitfieldWords : Nat := (cfg.numIrqs + 31) / 32

end Aplic.Config

structure Aplic.Message where
  hartIdx : W32
  guestIdx : W32
  eiid : W32
deriving DecidableEq, Repr

structure Aplic (cfg : Aplic.Config) where
  domaincfg : W32
  mmsicfgaddr : W32
  mmsicfgaddrH : W32
  smsicfgaddr : W32
  smsicfgaddrH : W32
  genmsi : W32
  sourcecfg : Cells cfg.numIrqs W32
  state : Cells cfg.numIrqs W32
  target : Cells cfg.numIrqs W32
  idelivery : Cells cfg.numHarts W32
  iforce : Cells cfg.numHarts W32
  ithreshold : Cells cfg.numHarts W32
  externalIrqs : Cells cfg.numHarts Bool
  sent : List Aplic.Message

namespace Aplic

def domaincfgRdonly : W32 := 0x80000000
def domaincfgIe : W32 := 0x100
def domaincfgDm : W32 := 0x4

def sourcecfgD : W32 := 0x400
def sourcecfgChildidxMask : W32 := 0x3ff
def sourcecfgSmMask : W32 := 0x7
def smInactive : W32 := 0x0
def smEdgeRise : W32 := 0x4
def smEdgeFall : W32 := 0x5
def smLevelHigh : W32 := 0x6
def smLevelLow : W32 := 0x7

def istatePending : W32 := 0x1
def istateEnabled : W32 := 0x2
def istateEnpend : W32 := 0x3
def istateInput : W32 := 0x100

def msicfgaddrhL : W32 := 0x80000000
def mmsicfgaddrhValidMask : W32 := 0x9f77ffff
def smsicfgaddrhValidMask : W32 := 0x00700fff

variable {cfg : Config} (aplic : Aplic cfg)

def ie : Bool := decide (aplic.domaincfg &&& domaincfgIe ≠ 0)

def sourceActive (irq : Nat) : Bool :=
  if bound : irq ≠ 0 ∧ irq < cfg.numIrqs then
    let sc := aplic.sourcecfg ⟨irq, bound.2⟩
    if sc &&& sourcecfgD ≠ 0 then false else decide (sc &&& sourcecfgSmMask ≠ smInactive)
  else false

variable (irq : Fin cfg.numIrqs)

def sm : W32 := aplic.sourcecfg irq &&& sourcecfgSmMask
def input : Bool := decide (aplic.state irq &&& istateInput ≠ 0)

def irqRectifiedVal (irq : Nat) : Bool :=
  if bound : irq < cfg.numIrqs then
    if aplic.sourceActive irq = false then false
    else
      let sm := aplic.sm ⟨irq, bound⟩
      aplic.input ⟨irq, bound⟩ ^^ decide (sm = smLevelLow ∨ sm = smEdgeFall)
  else false

def wordOf (bit : Nat → Bool) (word : Nat) : W32 :=
  (List.range 32).foldl (fun ret i => ret ||| if bit (word * 32 + i) then bitOf i else 0) 0

def readInputWord (word : Nat) : W32 := wordOf aplic.irqRectifiedVal word

def stateBit (mask : W32) (irq : Nat) : Bool :=
  if bound : irq ≠ 0 ∧ irq < cfg.numIrqs then decide (aplic.state ⟨irq, bound.2⟩ &&& mask ≠ 0) else false

def readPendingWord (word : Nat) : W32 := wordOf (aplic.stateBit istatePending) word
def readEnabledWord (word : Nat) : W32 := wordOf (aplic.stateBit istateEnabled) word

def setRaw (mask : W32) (irq : Fin cfg.numIrqs) (value : Bool) : Aplic cfg :=
  { aplic with state := aplic.state.change irq fun state => if value then state ||| mask else state &&& ~~~mask }

def setPendingRaw (pending : Bool) : Aplic cfg := aplic.setRaw istatePending irq pending
def setEnabledRaw (enabled : Bool) : Aplic cfg := aplic.setRaw istateEnabled irq enabled

def setPending (irq : Nat) (pending : Bool) : Aplic cfg :=
  if bound : irq < cfg.numIrqs then
    let irq : Fin cfg.numIrqs := ⟨irq, bound⟩
    if aplic.sourceActive irq = false then aplic
    else if aplic.sm irq = smLevelHigh ∨ aplic.sm irq = smLevelLow then
      if cfg.msimode = false then aplic
      else if pending = false then aplic.setPendingRaw irq pending
      else if aplic.input irq ∧ aplic.sm irq = smLevelLow then aplic
      else if aplic.input irq = false ∧ aplic.sm irq = smLevelHigh then aplic
      else aplic.setPendingRaw irq pending
    else aplic.setPendingRaw irq pending
  else aplic

def setEnabled (irq : Nat) (enabled : Bool) : Aplic cfg :=
  if bound : irq < cfg.numIrqs then
    if aplic.sourceActive irq = false then aplic else aplic.setEnabledRaw ⟨irq, bound⟩ enabled
  else aplic

def forWord (f : Aplic cfg → Nat → Aplic cfg) (word : Nat) (value : W32) : Aplic cfg :=
  (List.range 32).foldl (fun aplic i =>
    let irq := word * 32 + i
    if irq = 0 ∨ cfg.numIrqs ≤ irq then aplic else if value.getLsbD i then f aplic irq else aplic) aplic

def setPendingWord (word : Nat) (value : W32) (pending : Bool) : Aplic cfg :=
  aplic.forWord (fun aplic irq => aplic.setPending irq pending) word value

def setEnabledWord (word : Nat) (value : W32) (enabled : Bool) : Aplic cfg :=
  aplic.forWord (fun aplic irq => aplic.setEnabled irq enabled) word value

def msiSend (hartIdx guestIdx eiid : W32) : Aplic cfg :=
  { aplic with sent := aplic.sent ++ [⟨hartIdx, guestIdx, eiid⟩] }

def targetHartIdx : W32 := aplic.target irq >>> 18 &&& 0x3fff

def msiIrqUpdate (irq : Nat) : Aplic cfg :=
  if bound : irq < cfg.numIrqs then
    let irq : Fin cfg.numIrqs := ⟨irq, bound⟩
    if cfg.msimode = false ∨ aplic.ie = false then aplic
    else if aplic.state irq &&& istateEnpend ≠ istateEnpend then aplic
    else
      let aplic := aplic.setPendingRaw irq false
      -- a machine-level domain ignores the guest index
      let guestIdx : W32 := if cfg.mmode then 0 else aplic.target irq >>> 12 &&& 0x3f
      aplic.msiSend (aplic.targetHartIdx irq) guestIdx (aplic.target irq &&& 0x7ff)
  else aplic

structure Best where
  irq : Nat
  iprio : W32
deriving DecidableEq

def uint32Max : W32 := 0xffffffff
def iprio : W32 := aplic.target irq &&& cfg.iprioMask

def consider (idc : Nat) (ithres : W32) (best : Best) (irq : Fin cfg.numIrqs) : Best :=
  if irq.val = 0 then best
  else if aplic.state irq &&& istateEnpend ≠ istateEnpend then best
  else if (aplic.targetHartIdx irq).toNat ≠ idc then best
  else if ithres ≠ 0 ∧ ithres ≤ aplic.iprio irq then best
  else if aplic.iprio irq < best.iprio then ⟨irq, aplic.iprio irq⟩
  else best

def idcTopi (idc : Nat) : W32 :=
  if bound : idc < cfg.numHarts then
    let best := (List.finRange cfg.numIrqs).foldl (aplic.consider idc (aplic.ithreshold ⟨idc, bound⟩))
      ⟨uint32Max.toNat, uint32Max⟩
    if best.irq < cfg.numIrqs ∧ best.iprio ≤ cfg.iprioMask then BitVec.ofNat 32 best.irq <<< 16 ||| best.iprio else 0
  else 0

def idcUpdate (idc : Nat) : Aplic cfg :=
  if bound : idc < cfg.numHarts then
    let idc : Fin cfg.numHarts := ⟨idc, bound⟩
    if cfg.msimode then aplic
    else
      let topi := aplic.idcTopi idc
      let level := aplic.ie && decide (aplic.idelivery idc ≠ 0) && (decide (aplic.iforce idc ≠ 0) || decide (topi ≠ 0))
      { aplic with externalIrqs := aplic.externalIrqs.change idc fun _ => level }
  else aplic

/-- `none` is an access outside of an array. -/
def idcClaimi (idc : Fin cfg.numHarts) : Option (W32 × Aplic cfg) :=
  let topi := aplic.idcTopi idc
  if topi = 0 then some (0, { aplic with iforce := aplic.iforce.change idc fun _ => 0 }.idcUpdate idc)
  else if bound : (topi >>> 16 &&& 0x3ff).toNat < cfg.numIrqs then
    let irq : Fin cfg.numIrqs := ⟨_, bound⟩
    let cleared := aplic.setPendingRaw irq false
    let aplic :=
      if aplic.sm irq = smLevelHigh ∧ aplic.input irq then cleared.setPendingRaw irq true
      else if aplic.sm irq = smLevelLow ∧ aplic.input irq = false then cleared.setPendingRaw irq true
      else cleared
    some (topi, aplic.idcUpdate idc)
  else none

def becomesPending (level : Int) : Bool :=
  let pending := decide (aplic.state irq &&& istatePending ≠ 0)
  if aplic.sm irq = smEdgeRise then decide (0 < level) && !aplic.input irq && !pending
  else if aplic.sm irq = smEdgeFall then decide (level ≤ 0) && aplic.input irq && !pending
  else if aplic.sm irq = smLevelHigh then decide (0 < level) && !pending
  else if aplic.sm irq = smLevelLow then decide (level ≤ 0) && !pending
  else false

def requestHere (level : Int) : Aplic cfg :=
  let update := aplic.becomesPending irq level
  let aplic := if update then aplic.setPendingRaw irq true else aplic
  let aplic := aplic.setRaw istateInput irq (decide (0 < level))
  if update then
    if cfg.msimode then aplic.msiIrqUpdate irq else aplic.idcUpdate (aplic.targetHartIdx irq).toNat
  else aplic

def read (addr : Nat) : Option (W32 × Aplic cfg) :=
  let words := cfg.bitfieldWords
  let ms := cfg.mmode && cfg.msimode
  if addr % 4 ≠ 0 then some (0, aplic)
  else if addr = 0 then some (domaincfgRdonly ||| aplic.domaincfg ||| (if cfg.msimode then domaincfgDm else 0), aplic)
  else if bound : 4 ≤ addr ∧ addr < 4 + (cfg.numIrqs - 1) * 4 then
    some (aplic.sourcecfg ⟨(addr - 4) / 4 + 1, by omega⟩, aplic)
  else if ms ∧ addr = 0x1bc0 then some (aplic.mmsicfgaddr, aplic)
  else if ms ∧ addr = 0x1bc4 then some (aplic.mmsicfgaddrH, aplic)
  else if ms ∧ addr = 0x1bc8 then some (if cfg.numChildren ≠ 0 then aplic.smsicfgaddr else 0, aplic)
  else if ms ∧ addr = 0x1bcc then some (if cfg.numChildren ≠ 0 then aplic.smsicfgaddrH else 0, aplic)
  else if 0x1c00 ≤ addr ∧ addr < 0x1c00 + words * 4 then some (aplic.readPendingWord ((addr - 0x1c00) / 4), aplic)
  else if 0x1d00 ≤ addr ∧ addr < 0x1d00 + words * 4 then some (aplic.readInputWord ((addr - 0x1d00) / 4), aplic)
  else if 0x1e00 ≤ addr ∧ addr < 0x1e00 + words * 4 then some (aplic.readEnabledWord ((addr - 0x1e00) / 4), aplic)
  else if addr = 0x3000 then some (if cfg.msimode then aplic.genmsi else 0, aplic)
  else if bound : 0x3004 ≤ addr ∧ addr < 0x3004 + (cfg.numIrqs - 1) * 4 then
    let irq : Fin cfg.numIrqs := ⟨(addr - 0x3004) / 4 + 1, by omega⟩
    some (if aplic.sourceActive irq then aplic.target irq else 0, aplic)
  else if bound : cfg.msimode = false ∧ 0x4000 ≤ addr ∧ addr < 0x4000 + cfg.numHarts * 32 then
    let idc : Fin cfg.numHarts := ⟨(addr - 0x4000) / 32, by omega⟩
    let offset := (addr - 0x4000) % 32
    if offset = 0x00 then some (aplic.idelivery idc, aplic)
    else if offset = 0x04 then some (aplic.iforce idc, aplic)
    else if offset = 0x08 then some (aplic.ithreshold idc, aplic)
    else if offset = 0x18 then some (aplic.idcTopi idc, aplic)
    else if offset = 0x1c then aplic.idcClaimi idc
    else some (0, aplic)
  else some (0, aplic)

def writeSourcecfg (value : W32) : Aplic cfg :=
  let value := if cfg.numChildren = 0 ∧ value &&& sourcecfgD ≠ 0 then 0 else value
  let value :=
    if value &&& sourcecfgD ≠ 0 then value &&& (sourcecfgD ||| sourcecfgChildidxMask)
    else value &&& (sourcecfgD ||| sourcecfgSmMask)
  let aplic := { aplic with sourcecfg := aplic.sourcecfg.change irq fun _ => value }
  if value &&& sourcecfgD ≠ 0 ∨ value = 0 then (aplic.setPendingRaw irq false).setEnabledRaw irq false
  else if aplic.irqRectifiedVal irq then aplic.setPendingRaw irq true
  else aplic

def writeTarget (value : W32) : Aplic cfg :=
  let target :=
    if cfg.msimode then value
    else value &&& ~~~0xff ||| (if value &&& cfg.iprioMask ≠ 0 then value &&& cfg.iprioMask else 1)
  { aplic with target := aplic.target.change irq fun _ => target }

def byteSwap (value : W32) : W32 :=
  value.extractLsb' 0 8 ++ value.extractLsb' 8 8 ++ value.extractLsb' 16 8 ++ value.extractLsb' 24 8

/-- The registers that a write leaves, and the hart that the write was for if it was for one. A write that is refused
  has no result. -/
def writeReg (addr : Nat) (value : W32) : Option (Aplic cfg × Option (Fin cfg.numHarts)) :=
  let words := cfg.bitfieldWords
  let ms := cfg.mmode && cfg.msimode
  let unlocked := decide (aplic.mmsicfgaddrH &&& msicfgaddrhL = 0)
  if addr % 4 ≠ 0 then none
  else if addr = 0 then some ({ aplic with domaincfg := value &&& domaincfgIe }, none)
  else if bound : 4 ≤ addr ∧ addr < 4 + (cfg.numIrqs - 1) * 4 then
    some (aplic.writeSourcecfg ⟨(addr - 4) / 4 + 1, by omega⟩ value, none)
  else if ms ∧ addr = 0x1bc0 then some (if unlocked then { aplic with mmsicfgaddr := value } else aplic, none)
  else if ms ∧ addr = 0x1bc4 then
    some (if unlocked then { aplic with mmsicfgaddrH := value &&& mmsicfgaddrhValidMask } else aplic, none)
  else if ms ∧ addr = 0x1bc8 then
    some (if cfg.numChildren ≠ 0 ∧ unlocked then { aplic with smsicfgaddr := value } else aplic, none)
  else if ms ∧ addr = 0x1bcc then
    some (if cfg.numChildren ≠ 0 ∧ unlocked then { aplic with smsicfgaddrH := value &&& smsicfgaddrhValidMask }
      else aplic, none)
  else if 0x1c00 ≤ addr ∧ addr < 0x1c00 + words * 4 then
    some (aplic.setPendingWord ((addr - 0x1c00) / 4) value true, none)
  else if addr = 0x1cdc then some (aplic.setPending value.toNat true, none)
  else if 0x1d00 ≤ addr ∧ addr < 0x1d00 + words * 4 then
    some (aplic.setPendingWord ((addr - 0x1d00) / 4) value false, none)
  else if addr = 0x1ddc then some (aplic.setPending value.toNat false, none)
  else if 0x1e00 ≤ addr ∧ addr < 0x1e00 + words * 4 then
    some (aplic.setEnabledWord ((addr - 0x1e00) / 4) value true, none)
  else if addr = 0x1edc then some (aplic.setEnabled value.toNat true, none)
  else if 0x1f00 ≤ addr ∧ addr < 0x1f00 + words * 4 then
    some (aplic.setEnabledWord ((addr - 0x1f00) / 4) value false, none)
  else if addr = 0x1fdc then some (aplic.setEnabled value.toNat false, none)
  else if addr = 0x2000 then some (aplic.setPending value.toNat true, none)
  else if addr = 0x2004 then some (aplic.setPending (byteSwap value).toNat true, none)
  else if addr = 0x3000 then
    some (if cfg.msimode then
        { aplic with genmsi := value &&& ~~~0x3f000 }.msiSend (value >>> 18) 0 (value &&& 0x7ff)
      else aplic, none)
  else if bound : 0x3004 ≤ addr ∧ addr < 0x3004 + (cfg.numIrqs - 1) * 4 then
    let irq : Fin cfg.numIrqs := ⟨(addr - 0x3004) / 4 + 1, by omega⟩
    if aplic.sourceActive irq then some (aplic.writeTarget irq value, none) else none
  else if bound : cfg.msimode = false ∧ 0x4000 ≤ addr ∧ addr < 0x4000 + cfg.numHarts * 32 then
    let idc : Fin cfg.numHarts := ⟨(addr - 0x4000) / 32, by omega⟩
    let offset := (addr - 0x4000) % 32
    if offset = 0x00 then some ({ aplic with idelivery := aplic.idelivery.change idc fun _ => value &&& 1 }, some idc)
    else if offset = 0x04 then some ({ aplic with iforce := aplic.iforce.change idc fun _ => value &&& 1 }, some idc)
    else if offset = 0x08 then
      some ({ aplic with ithreshold := aplic.ithreshold.change idc fun _ => value &&& cfg.iprioMask }, some idc)
    else none
  else none

def refresh (idc : Option (Fin cfg.numHarts)) : Aplic cfg :=
  if cfg.msimode then
    (List.finRange cfg.numIrqs).foldl (fun aplic (irq : Fin cfg.numIrqs) =>
      if irq.val = 0 then aplic else aplic.msiIrqUpdate irq) aplic
  else
    match idc with
    | none => (List.finRange cfg.numHarts).foldl (fun aplic (idc : Fin cfg.numHarts) => aplic.idcUpdate idc) aplic
    | some idc => aplic.idcUpdate idc

def write (addr : Nat) (value : W32) : Aplic cfg :=
  match aplic.writeReg addr value with
  | some (aplic, idc) => aplic.refresh idc
  | none => aplic

def init (cfg : Config) : Aplic cfg where
  domaincfg := 0
  mmsicfgaddr := 0
  mmsicfgaddrH := 0
  smsicfgaddr := 0
  smsicfgaddrH := 0
  genmsi := 0
  sourcecfg := fun _ => 0
  state := fun _ => 0
  target := fun _ => if cfg.msimode then 0 else 1
  idelivery := fun _ => 0
  iforce := fun _ => 0
  ithreshold := fun _ => 0
  externalIrqs := fun _ => false
  sent := []

/-- The domains of a machine in the order in which they are made, so that children come after their parents. Parents
  and children have the same sources. -/
structure Topology where
  count : Nat
  config : Fin count → Config
  children : Fin count → List (Fin count)
  later : ∀ d, ∀ child ∈ children d, d < child
  counted : ∀ d, (config d).numChildren = (children d).length
  same : ∀ d, ∀ child ∈ children d, (config child).numIrqs = (config d).numIrqs

abbrev System (top : Topology) : Type := (d : Fin top.count) → Aplic (top.config d)

def request {top : Topology} : Nat → System top → Fin top.count → Nat → Int → Option (System top)
  | 0, _, _, _, _ => none
  | fuel + 1, system, d, irq, level =>
    if bound : 0 < irq ∧ irq < (top.config d).numIrqs then
      let sourcecfg := (system d).sourcecfg ⟨irq, bound.2⟩
      if sourcecfg &&& sourcecfgD ≠ 0 then
        match (top.children d)[(sourcecfg &&& sourcecfgChildidxMask).toNat]? with
        | some child => request fuel system child irq level
        | none => some system
      else some (Function.update system d ((system d).requestHere ⟨irq, bound.2⟩ level))
    else none

inductive Event (top : Topology) where
  | read (d : Fin top.count) (addr : Nat)
  | write (d : Fin top.count) (addr : Nat) (value : W32)
  | request (d : Fin top.count) (irq : Nat) (level : Int) (known : 0 < irq ∧ irq < (top.config d).numIrqs)

def step {top : Topology} (system : System top) : Event top → Option (System top)
  | .read d addr => ((system d).read addr).map fun (_, aplic) => Function.update system d aplic
  | .write d addr value => some (Function.update system d ((system d).write addr value))
  | .request d irq level _ => request top.count system d irq level

/-- The assertion of a request and the bounds of arrays leave no meaning to a step that has no result. -/
def after {top : Topology} (system : System top) (event : Event top) : System top := (step system event).getD system

end Aplic
end RiscvEmulators.Qemu
