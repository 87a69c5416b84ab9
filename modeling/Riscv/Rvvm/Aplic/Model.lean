import Riscv.Store.Cells

namespace RiscvEmulators.Rvvm
open Store

/-- A generated message, with the source it was sent for unless it was written to `genmsi`.
  There may be no hart that receives it. -/
structure Msi where
  source : Option Nat
  smode : Bool
  target : W32
  hart : Option Nat
deriving DecidableEq, Repr

structure Aplic (harts : Nat) where
  domaincfg : Cells 2 (W32)
  deleg : Bits 2
  raised : Bits 2
  invert : Bits 2
  pending : Bits 2
  enabled : Bits 2
  source : Cells 64 (W32)
  target : Cells 64 (W32)
  msis : List Msi

/-- The machine domain is the root; the supervisor domain has the sources delegated to it. -/
structure AplicDomain where
  rootDomain : Bool
deriving DecidableEq, Repr

namespace Aplic

def regDomaincfg : Nat := 0x0000
def regSourcecfg1 : Nat := 0x0004
def regSourcecfg1023 : Nat := 0x0FFC
def regMmsiaddrcfgh : Nat := 0x1BC4
def regSmsiaddrcfgh : Nat := 0x1BCC
def regSetip0 : Nat := 0x1C00
def regSetip31 : Nat := 0x1C7C
def regSetipnum : Nat := 0x1CDC
def regInClrip0 : Nat := 0x1D00
def regInClrip31 : Nat := 0x1D7C
def regClripnum : Nat := 0x1DDC
def regSetie0 : Nat := 0x1E00
def regSetie31 : Nat := 0x1E7C
def regSetienum : Nat := 0x1EDC
def regClrie0 : Nat := 0x1F00
def regClrie31 : Nat := 0x1F7C
def regClrienum : Nat := 0x1FDC
def regSetipnumLe : Nat := 0x2000
def regSetipnumBe : Nat := 0x2004
def regGenmsi : Nat := 0x3000
def regTarget1 : Nat := 0x3004
def regTarget1023 : Nat := 0x3FFC

def domaincfgIe : W32 := 0x100
def domaincfgHardwired : W32 := 0x80000004

def sourcecfgDelegate : W32 := 0x400
def sourcecfgDetached : W32 := 0x1
def sourcecfgEdgeFall : W32 := 0x5
def sourcecfgLvlLow : W32 := 0x7
def sourcecfgMask : W32 := 0x7
def msiaddrcfghL : W32 := 0x80000000

variable {harts : Nat}

def delegInvert (domain : AplicDomain) : W32 := if domain.rootDomain then BitVec.allOnes 32 else 0

variable (aplic : Aplic harts)

def genMsi (source : Option Nat) (smode : Bool) (target : W32) : Aplic harts :=
  let hartid := (target >>> 18).toNat
  let hart := if hartid < harts then some hartid else none
  { aplic with msis := aplic.msis ++ [⟨source, smode, target, hart⟩] }

/-- All operations return `none` on an access outside of an array. -/
def rectifiedBits (reg : Nat) : Option W32 :=
  if reg < 2 then do
    let raised ← aplic.raised.read reg
    let invert ← aplic.invert.read reg
    return raised ^^^ invert
  else some 0

def rectifiedSrc (src : Nat) : Option Bool := do
  let bits ← aplic.rectifiedBits (src / 32)
  return bits.getLsbD (src % 32)

def detachedSrc (src : Nat) : Option Bool :=
  if src < 64 then do
    let source ← aplic.source.read src
    return decide (source ≤ sourcecfgDetached)
  else some true

def notifyInterrupt (src : Nat) : Option (Aplic harts) :=
  if src < 64 then do
    let deleg ← aplic.deleg.read (src / 32)
    let smode := deleg.getLsbD (src % 32)
    let enabled ← aplic.enabled.read (src / 32)
    let domaincfg ← aplic.domaincfg.read smode.toNat
    if enabled.getLsbD (src % 32) ∧ domaincfg &&& domaincfgIe ≠ 0 then
      let target ← aplic.target.read src
      return aplic.genMsi (some src) smode target
    else
      let pending ← aplic.pending.modify (src / 32) fun word => word ||| bitOf src
      return { aplic with pending }
  else some aplic

def edgeInterrupt (src : Nat) : Option (Aplic harts) := do
  if ← aplic.detachedSrc src then return aplic else aplic.notifyInterrupt src

def updateInterrupt (src : Nat) : Option (Aplic harts) := do
  if ← aplic.rectifiedSrc src then aplic.edgeInterrupt src else return aplic

def validBits (domain : AplicDomain) (reg : Nat) : Option W32 :=
  if reg < 2 then do
    let deleg ← aplic.deleg.read reg
    return deleg ^^^ delegInvert domain
  else some 0

def validSrc (domain : AplicDomain) (src : Nat) : Option Bool := do
  let bits ← aplic.validBits domain (src / 32)
  return bits.getLsbD (src % 32)

def ungatedSrc (domain : AplicDomain) (src : Nat) : Option Bool := do
  if ← aplic.validSrc domain src then
    let rectified ← aplic.rectifiedSrc src
    let detached ← aplic.detachedSrc src
    return rectified || detached
  else return false

def readBits (bits : Bits 2) (domain : AplicDomain) (reg : Nat) : Option W32 :=
  if reg < 2 then do
    let word ← bits.read reg
    let valid ← aplic.validBits domain reg
    return word &&& valid
  else some 0

def readIp (domain : AplicDomain) (reg : Nat) : Option W32 :=
  aplic.readBits aplic.pending domain reg

def readIe (domain : AplicDomain) (reg : Nat) : Option W32 :=
  aplic.readBits aplic.enabled domain reg

def readIn (domain : AplicDomain) (reg : Nat) : Option W32 := do
  let rectified ← aplic.rectifiedBits reg
  let valid ← aplic.validBits domain reg
  return rectified &&& valid

def setipnum (domain : AplicDomain) (src : Nat) : Option (Aplic harts) := do
  if ← aplic.ungatedSrc domain src then aplic.notifyInterrupt src else return aplic

def forBits (word : W32) (body : Aplic harts → Nat → Option (Aplic harts)) (aplic : Aplic harts) :
    Option (Aplic harts) :=
  (List.range 31).foldlM (fun aplic i => if word.getLsbD i then body aplic i else some aplic) aplic

def setip (domain : AplicDomain) (reg : Nat) (bits : W32) : Option (Aplic harts) :=
  if reg < 2 then do
    let valid ← aplic.validBits domain reg
    let set := bits &&& valid
    if set ≠ 0 then forBits set (fun aplic i => aplic.setipnum domain (32 * reg + i)) aplic else return aplic
  else some aplic

def clearBits (cleared : Bits 2) (domain : AplicDomain) (reg : Nat) (bits : W32) : Option (Bits 2) :=
  if reg < 2 then do
    let valid ← aplic.validBits domain reg
    let clr := bits &&& valid
    if clr ≠ 0 then cleared.modify reg fun word => word &&& ~~~clr else return cleared
  else some cleared

def clrip (domain : AplicDomain) (reg : Nat) (bits : W32) : Option (Aplic harts) := do
  let pending ← aplic.clearBits aplic.pending domain reg bits
  return { aplic with pending }

def clripnum (domain : AplicDomain) (src : Nat) : Option (Aplic harts) :=
  aplic.clrip domain (src / 32) (bitOf src)

def setie (domain : AplicDomain) (reg : Nat) (bits : W32) : Option (Aplic harts) :=
  if reg < 2 then do
    let valid ← aplic.validBits domain reg
    let set := bits &&& valid
    let old ← aplic.enabled.read reg
    let enabled ← aplic.enabled.modify reg fun word => word ||| set
    let aplic := { aplic with enabled }
    let set := set &&& ~~~old
    if set ≠ 0 then
      let deliver ← aplic.pending.read reg
      let pending ← aplic.pending.modify reg fun word => word &&& ~~~set
      let aplic := { aplic with pending }
      if deliver ≠ 0 then forBits deliver (fun aplic i => aplic.notifyInterrupt (32 * reg + i)) aplic else return aplic
    else return aplic
  else some aplic

def setienum (domain : AplicDomain) (src : Nat) : Option (Aplic harts) :=
  aplic.setie domain (src / 32) (bitOf src)

def clrie (domain : AplicDomain) (reg : Nat) (bits : W32) : Option (Aplic harts) := do
  let enabled ← aplic.clearBits aplic.enabled domain reg bits
  return { aplic with enabled }

def clrienum (domain : AplicDomain) (src : Nat) : Option (Aplic harts) :=
  aplic.clrie domain (src / 32) (bitOf src)

def domainIndex (domain : AplicDomain) : Nat := if domain.rootDomain then 0 else 1

def writeDomaincfg (domain : AplicDomain) (val : W32) : Option (Aplic harts) := do
  let domaincfg ← aplic.domaincfg.write (domainIndex domain) (val &&& domaincfgIe)
  return { aplic with domaincfg }

def writeDelegation (domain : AplicDomain) (src : Nat) (val : W32) : Option (Aplic harts) :=
  if domain.rootDomain then do
    let deleg ← aplic.deleg.modify (src / 32) fun word =>
      if val &&& sourcecfgDelegate ≠ 0 then word ||| bitOf src else word &&& ~~~bitOf src
    return { aplic with deleg }
  else some aplic

def writeSourcecfg (domain : AplicDomain) (src : Nat) (val : W32) : Option (Aplic harts) := do
  let aplic ← aplic.writeDelegation domain src val
  if ← aplic.validSrc domain src then
    let cfg := val &&& sourcecfgMask
    let source ← aplic.source.write src cfg
    let invert ← aplic.invert.modify (src / 32) fun word =>
      if cfg = sourcecfgLvlLow ∨ cfg = sourcecfgEdgeFall then word ||| bitOf src else word &&& ~~~bitOf src
    return { aplic with source, invert }
  else return aplic

def writeTarget (domain : AplicDomain) (src : Nat) (val : W32) : Option (Aplic harts) := do
  if ← aplic.validSrc domain src then
    let target ← aplic.target.write src val
    return { aplic with target }
  else return aplic

def byteSwap (val : W32) : W32 :=
  (val <<< 24) ||| ((val &&& 0xFF00) <<< 8) ||| ((val >>> 8) &&& 0xFF00) ||| (val >>> 24)

def mmioRead (domain : AplicDomain) (offset : Nat) : Option W32 :=
  if offset = regDomaincfg then do
    let domaincfg ← aplic.domaincfg.read (domainIndex domain)
    return domaincfg ||| domaincfgHardwired
  else if offset = regMmsiaddrcfgh ∨ offset = regSmsiaddrcfgh then some msiaddrcfghL
  else if regSetip0 ≤ offset ∧ offset ≤ regSetip31 then aplic.readIp domain ((offset - regSetip0) / 4)
  else if regInClrip0 ≤ offset ∧ offset ≤ regInClrip31 then aplic.readIn domain ((offset - regInClrip0) / 4)
  else if regSetie0 ≤ offset ∧ offset ≤ regSetie31 then aplic.readIe domain ((offset - regSetie0) / 4)
  else if regSourcecfg1 ≤ offset ∧ offset ≤ regSourcecfg1023 then do
    let src := (offset - regSourcecfg1) / 4 + 1
    if ← aplic.validSrc domain src then aplic.source.read src
    else if domain.rootDomain then return sourcecfgDelegate
    else return 0
  else if regTarget1 ≤ offset ∧ offset ≤ regTarget1023 then do
    let src := (offset - regTarget1) / 4 + 1
    if ← aplic.validSrc domain src then aplic.target.read src else return 0
  else some 0

def mmioWrite (domain : AplicDomain) (offset : Nat) (val : W32) : Option (Aplic harts) :=
  if offset = regDomaincfg then aplic.writeDomaincfg domain val
  else if offset = regSetipnum ∨ offset = regSetipnumLe then aplic.setipnum domain val.toNat
  else if offset = regClripnum then aplic.clripnum domain val.toNat
  else if offset = regSetienum then aplic.setienum domain val.toNat
  else if offset = regClrienum then aplic.clrienum domain val.toNat
  else if offset = regSetipnumBe then aplic.setipnum domain (byteSwap val).toNat
  else if offset = regGenmsi then some (aplic.genMsi none (!domain.rootDomain) val)
  else if regSetip0 ≤ offset ∧ offset ≤ regSetip31 then aplic.setip domain ((offset - regSetip0) / 4) val
  else if regInClrip0 ≤ offset ∧ offset ≤ regInClrip31 then aplic.clrip domain ((offset - regInClrip0) / 4) val
  else if regSetie0 ≤ offset ∧ offset ≤ regSetie31 then aplic.setie domain ((offset - regSetie0) / 4) val
  else if regClrie0 ≤ offset ∧ offset ≤ regClrie31 then aplic.clrie domain ((offset - regClrie0) / 4) val
  else if regSourcecfg1 ≤ offset ∧ offset ≤ regSourcecfg1023 then
    aplic.writeSourcecfg domain ((offset - regSourcecfg1) / 4 + 1) val
  else if regTarget1 ≤ offset ∧ offset ≤ regTarget1023 then
    aplic.writeTarget domain ((offset - regTarget1) / 4 + 1) val
  else some aplic

def sendIrq (irq : Nat) : Option (Aplic harts) :=
  if 0 < irq ∧ irq < 64 then aplic.edgeInterrupt irq else some aplic

def raiseIrq (irq : Nat) : Option (Aplic harts) :=
  if 0 < irq ∧ irq < 64 then do
    let old ← aplic.raised.read (irq / 32)
    let raised ← aplic.raised.modify (irq / 32) fun word => word ||| bitOf irq
    let aplic := { aplic with raised }
    if ~~~old &&& bitOf irq ≠ 0 then aplic.updateInterrupt irq else return aplic
  else some aplic

def lowerIrq (irq : Nat) : Option (Aplic harts) :=
  if 0 < irq ∧ irq < 64 then do
    let old ← aplic.raised.read (irq / 32)
    let raised ← aplic.raised.modify (irq / 32) fun word => word &&& ~~~bitOf irq
    let aplic := { aplic with raised }
    -- the other bits of the word are tested
    if old &&& ~~~bitOf irq ≠ 0 then aplic.updateInterrupt irq else return aplic
  else some aplic

def init (harts : Nat) : Aplic harts where
  domaincfg := fun _ => 0
  deleg := fun _ => BitVec.allOnes 32
  raised := fun _ => 0
  invert := fun _ => 0
  pending := fun _ => 0
  enabled := fun _ => 0
  source := fun _ => 0
  target := fun _ => 0
  msis := []

inductive Event where
  | read (domain : AplicDomain) (offset : Nat)
  | write (domain : AplicDomain) (offset : Nat) (val : W32)
  | send (irq : Nat)
  | raise (irq : Nat)
  | lower (irq : Nat)
deriving DecidableEq, Repr

def step : Event → Option (Aplic harts)
  | .read domain offset => (aplic.mmioRead domain offset).map fun _ => aplic
  | .write domain offset val => aplic.mmioWrite domain offset val
  | .send irq => aplic.sendIrq irq
  | .raise irq => aplic.raiseIrq irq
  | .lower irq => aplic.lowerIrq irq

end Aplic
end RiscvEmulators.Rvvm
