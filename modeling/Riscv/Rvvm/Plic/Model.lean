import Riscv.Store.Cells

namespace RiscvEmulators.Rvvm
open Store

/-- The interrupt controller of a machine with `harts` harts, and the pending interrupts of the harts. Every hart has a
  machine context and a supervisor context. `inService` has the sources that were claimed and not completed, which
  the controller does not record. -/
structure Plic (harts : Nat) where
  prio : Cells 64 (W32)
  pending : Bits 2
  raised : Bits 2
  enable : Cells (2 * harts) (Bits 2)
  threshold : Cells (2 * harts) (W32)
  workaroundIntxStorm : Bool
  pendingIrqs : Cells harts W32
  inService : Nat → Bool

namespace Plic

def interruptSexternal : Nat := 9
def interruptMexternal : Nat := 11
def ctxPrio (ctx : Nat) : Nat := if ctx % 2 = 1 then interruptSexternal else interruptMexternal
def ctxHartid (ctx : Nat) : Nat := ctx / 2

variable {harts : Nat}
variable (plic : Plic harts)

/-- All operations return `none` on an access outside of an array. -/
def interrupt (ctx : Nat) : Option (Plic harts) := do
  let pendingIrqs ← plic.pendingIrqs.modify (ctxHartid ctx) fun irqs => irqs ||| bitOf (ctxPrio ctx)
  return { plic with pendingIrqs }

def interruptClear (ctx : Nat) : Option (Plic harts) := do
  let pendingIrqs ← plic.pendingIrqs.modify (ctxHartid ctx) fun irqs => irqs &&& ~~~bitOf (ctxPrio ctx)
  return { plic with pendingIrqs }

def irqPending (irq : Nat) : Option Bool := do
  let word ← plic.pending.read (irq / 32)
  return word.getLsbD (irq % 32)

def irqEnabled (ctx irq : Nat) : Option Bool := do
  let regs ← plic.enable.read ctx
  let word ← regs.read (irq / 32)
  return word.getLsbD (irq % 32)

def notifyCtxIrq (ctx irq : Nat) : Option (Bool × Plic harts) := do
  if ← plic.irqEnabled ctx irq then
    let prio ← plic.prio.read irq
    let threshold ← plic.threshold.read ctx
    if prio ≤ threshold then return (false, plic)
    else
      let plic ← plic.interrupt ctx
      return (true, plic)
  else return (false, plic)

def notifyFirst (plic : Plic harts) (irq : Nat) : List Nat → Option (Plic harts)
  | [] => some plic
  | ctx :: ctxs => do
    let (sent, plic) ← plic.notifyCtxIrq ctx irq
    if sent then return plic else plic.notifyFirst irq ctxs

def notifyIrq (irq : Nat) : Option (Plic harts) := plic.notifyFirst irq (List.range (2 * harts))

def updateIrq (irq : Nat) : Option (Plic harts) := do
  if ← plic.irqPending irq then plic.notifyIrq irq else return plic

def enabledIrqs (ctx reg : Nat) : Option W32 := do
  let pending ← plic.pending.read reg
  let regs ← plic.enable.read ctx
  let enable ← regs.read reg
  return pending &&& enable

def updateCtxIrqReg (ctx reg : Nat) : Option (Plic harts) := do
  let irqs ← plic.enabledIrqs ctx reg
  if irqs ≠ 0 then (List.range 32).foldlM (fun plic i => plic.updateIrq (32 * reg + i)) plic else return plic

structure Scan where
  notifyingIrqs : Nat
  highestPrioIrq : Nat
  maxPrio : W32

def Scan.add (scan : Scan) (threshold : W32) (irq : Nat) (prio : W32) : Scan where
  notifyingIrqs := if threshold < prio then scan.notifyingIrqs + 1 else scan.notifyingIrqs
  highestPrioIrq := if scan.maxPrio < prio then irq else scan.highestPrioIrq
  maxPrio := if scan.maxPrio < prio then prio else scan.maxPrio

def scanReg (ctx : Nat) (threshold : W32) (scan : Scan) (reg : Nat) : Option Scan := do
  let irqs ← plic.enabledIrqs ctx reg
  if irqs ≠ 0 then
    (List.range 32).foldlM (fun scan j =>
      if irqs.getLsbD j then do
        let prio ← plic.prio.read (32 * reg + j)
        return scan.add threshold (32 * reg + j) prio
      else return scan) scan
  else return scan

def updateCtx (ctx : Nat) (claim : Bool) : Option (Nat × Plic harts) := do
  let threshold ← plic.threshold.read ctx
  let plic ← plic.interruptClear ctx
  let scan ← (List.range 2).foldlM (plic.scanReg ctx threshold) ⟨0, 0, 0⟩
  let notifyingIrqs := if claim ∧ threshold < scan.maxPrio then scan.notifyingIrqs - 1 else scan.notifyingIrqs
  let plic ← if notifyingIrqs ≠ 0 then plic.interrupt ctx else some plic
  return (scan.highestPrioIrq, plic)

def fullUpdate : Option (Plic harts) :=
  (List.range (2 * harts)).foldlM (fun plic ctx => (plic.updateCtx ctx false).map Prod.snd) plic

def setIrqPrio (irq : Nat) (prio : W32) : Option (Plic harts) := do
  let oldPrio ← plic.prio.read irq
  let prios ← plic.prio.write irq prio
  let plic := { plic with prio := prios }
  if prio < oldPrio then
    if ← plic.irqPending irq then plic.fullUpdate else return plic
  else if oldPrio < prio then plic.updateIrq irq
  else return plic

def setEnableBits (ctx reg : Nat) (enable : W32) : Option (Plic harts) := do
  let regs ← plic.enable.read ctx
  let oldEnable ← regs.read reg
  let regs ← regs.write reg enable
  let enables ← plic.enable.write ctx regs
  let plic := { plic with enable := enables }
  let irqsDisabled := oldEnable &&& ~~~enable
  if irqsDisabled ≠ 0 then
    let pending ← plic.pending.read reg
    if irqsDisabled &&& pending ≠ 0 then plic.fullUpdate else return plic
  else if enable &&& ~~~oldEnable ≠ 0 then plic.updateCtxIrqReg ctx reg
  else return plic

def setCtxThreshold (ctx : Nat) (threshold : W32) : Option (Plic harts) := do
  let oldThreshold ← plic.threshold.read ctx
  let thresholds ← plic.threshold.write ctx threshold
  let plic := { plic with threshold := thresholds }
  if oldThreshold ≠ threshold then (plic.updateCtx ctx false).map Prod.snd else return plic

def service (irq : Nat) (taken : Bool) : Plic harts :=
  { plic with inService := fun other => if other = irq then taken else plic.inService other }

def claimLoop (ctx : Nat) : Nat → Plic harts → Option (Nat × Plic harts)
  | 0, _ => none
  | rounds + 1, plic => do
    let (irq, plic) ← plic.updateCtx ctx true
    if irq ≠ 0 then
      let word ← plic.pending.read (irq / 32)
      let pending ← plic.pending.modify (irq / 32) fun word => word &&& ~~~bitOf irq
      let plic := { plic with pending }
      if word &&& bitOf irq = 0 then claimLoop ctx rounds plic else return (irq, plic.service irq true)
    else return (irq, plic)

def claimIrq (ctx : Nat) : Option (Nat × Plic harts) := claimLoop ctx 1 plic

def completeIrq (ctx irq : Nat) : Option (Plic harts) := do
  let word ← plic.raised.read (irq / 32)
  let raised := word &&& bitOf irq
  let plic := plic.service irq false
  if raised ≠ 0 then
    let pending ← plic.pending.modify (irq / 32) fun word => word ||| raised
    let plic := { plic with pending }
    if plic.workaroundIntxStorm then return plic else (plic.notifyCtxIrq ctx irq).map Prod.snd
  else return plic

def ctxflagThreshold : Nat := 0
def ctxflagClaimcomplete : Nat := 1

def mmioRead (offset : Nat) : Option (W32 × Plic harts) :=
  if offset < 0x1000 then
    let irq := offset / 4
    if 0 < irq ∧ irq < 64 then do
      let prio ← plic.prio.read irq
      return (prio, plic)
    else some (0, plic)
  else if offset < 0x1080 then
    let reg := (offset - 0x1000) / 4
    if reg < 2 then do
      let pending ← plic.pending.read reg
      return (pending, plic)
    else some (0, plic)
  else if offset < 0x2000 then some (0, plic)
  else if offset < 0x1F2000 then
    let reg := (offset - 0x2000) / 4 % 32
    let ctx := (offset - 0x2000) / 128
    if reg < 2 ∧ ctx < 2 * harts then do
      let regs ← plic.enable.read ctx
      let enable ← regs.read reg
      return (enable, plic)
    else some (0, plic)
  else if offset < 0x200000 then some (0, plic)
  else if offset < 0x4000000 then
    let flag := (offset - 0x200000) / 4 % 1024
    let ctx := (offset - 0x200000) / 4096
    if ctx < 2 * harts then
      if flag = ctxflagClaimcomplete then (plic.claimIrq ctx).map fun (irq, plic) => (BitVec.ofNat 32 irq, plic)
      else if flag = ctxflagThreshold then do
        let threshold ← plic.threshold.read ctx
        return (threshold, plic)
      else some (0, plic)
    else some (0, plic)
  else some (0, plic)

def mmioWrite (offset : Nat) (value : W32) : Option (Plic harts) :=
  if offset < 0x1000 then
    let irq := offset / 4
    if 0 < irq ∧ irq < 64 then plic.setIrqPrio irq value else some plic
  else if offset < 0x2000 then some plic
  else if offset < 0x1F2000 then
    let reg := (offset - 0x2000) / 4 % 32
    let ctx := (offset - 0x2000) / 128
    if reg < 2 ∧ ctx < 2 * harts then plic.setEnableBits ctx reg value else some plic
  else if offset < 0x200000 then some plic
  else if offset < 0x4000000 then
    let flag := (offset - 0x200000) / 4 % 1024
    let ctx := (offset - 0x200000) / 4096
    if ctx < 2 * harts then
      if flag = ctxflagClaimcomplete then plic.completeIrq ctx value.toNat
      else if flag = ctxflagThreshold then plic.setCtxThreshold ctx value
      else some plic
    else some plic
  else some plic

def fetchOr (bits : Bits 2) (irq : Nat) : Option (Bool × Bits 2) := do
  let word ← bits.read (irq / 32)
  let bits ← bits.modify (irq / 32) fun word => word ||| bitOf irq
  return (word.getLsbD (irq % 32), bits)

def sendIrq (irq : Nat) : Option (Plic harts) :=
  if 0 < irq ∧ irq < 64 then do
    let (wasPending, pending) ← fetchOr plic.pending irq
    let plic := { plic with pending }
    if wasPending then return plic else plic.notifyIrq irq
  else some plic

def raiseIrq (irq : Nat) : Option (Plic harts) :=
  if 0 < irq ∧ irq < 64 then do
    let (wasRaised, raised) ← fetchOr plic.raised irq
    let plic := { plic with raised }
    if wasRaised then return plic
    else
      let (wasPending, pending) ← fetchOr plic.pending irq
      let plic := { plic with pending }
      if wasPending then return plic else plic.notifyIrq irq
  else some plic

def lowerIrq (irq : Nat) : Option (Plic harts) :=
  if 0 < irq ∧ irq < 64 then do
    let raised ← plic.raised.modify (irq / 32) fun word => word &&& ~~~bitOf irq
    return { plic with raised }
  else some plic

def update : Option (Plic harts) := if plic.workaroundIntxStorm then plic.fullUpdate else some plic

def reset : Option (Plic harts) := do
  let plic ← (List.range (2 * harts)).foldlM (fun plic ctx => do
    let plic ← plic.interruptClear ctx
    let enable ← plic.enable.write ctx fun _ => 0
    return { plic with enable }) plic
  return { plic with
    prio := fun _ => 0, pending := fun _ => 0, raised := fun _ => 0, threshold := fun _ => 0,
      inService := fun _ => false }

def init (harts : Nat) (workaroundIntxStorm : Bool) (pendingIrqs : Cells harts W32) : Plic harts where
  prio := fun _ => 0
  pending := fun _ => 0
  raised := fun _ => 0
  enable := fun _ _ => 0
  threshold := fun _ => 0
  workaroundIntxStorm
  pendingIrqs
  inService := fun _ => false

inductive Event where
  | read (offset : Nat)
  | write (offset : Nat) (value : W32)
  | send (irq : Nat)
  | raise (irq : Nat)
  | lower (irq : Nat)
  | update
  | reset
deriving DecidableEq, Repr

def step : Event → Option (Plic harts)
  | .read offset => (plic.mmioRead offset).map Prod.snd
  | .write offset value => plic.mmioWrite offset value
  | .send irq => plic.sendIrq irq
  | .raise irq => plic.raiseIrq irq
  | .lower irq => plic.lowerIrq irq
  | .update => plic.update
  | .reset => plic.reset

/-- `none` when one of the events makes an access outside of an array. -/
def run (events : List Event) : Option (Plic harts) := events.foldlM step plic

end Plic
end RiscvEmulators.Rvvm
