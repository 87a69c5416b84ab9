import Riscv.Store.Cells

namespace RiscvEmulators.Spike
open Store

structure Plic.Config where
  harts : List Bool
  ndev : W32

namespace Plic.Config
variable (cfg : Config)

def numIds : Nat := (cfg.ndev + 1).toNat
def numIdsWord : Nat := (cfg.ndev + 1 + 31).toNat / 32

def contextsFrom : Nat → List Bool → List (Nat × Bool)
  | _, [] => []
  | hart, supervisor :: harts =>
    (hart, true) :: (if supervisor then (hart, false) :: contextsFrom (hart + 1) harts else contextsFrom (hart + 1) harts)

def count : Nat := (contextsFrom 0 cfg.harts).length
def proc (c : Fin cfg.count) : Nat := ((contextsFrom 0 cfg.harts).get c).1
def mmode (c : Fin cfg.count) : Bool := ((contextsFrom 0 cfg.harts).get c).2

end Plic.Config

structure Plic.Context where
  priorityThreshold : BitVec 8
  enable : Bits 32
  pending : Bits 32
  pendingPriority : Cells 1024 (BitVec 8)
  claimed : Bits 32

/-- The interrupt controller and the `mip` registers of the harts. `inService` has the sources that a context was given
  by a claim and has not completed, which the controller does not record. -/
structure Plic (cfg : Plic.Config) where
  contexts : Cells cfg.count Plic.Context
  priority : Cells 1024 (BitVec 8)
  level : Bits 32
  mip : Cells cfg.harts.length (BitVec 64)
  inService : Fin cfg.count → Nat → Bool

namespace Plic

def maxPrio : Nat := 15
def prioMask : W32 := 0xF
def mipBit (mmode : Bool) : Nat := if mmode then 11 else 9
def mipMask (mmode : Bool) : BitVec 64 := 1 <<< mipBit mmode
def backdoorWriteWithMask (old mask val : BitVec 64) : BitVec 64 := old &&& ~~~mask ||| val &&& mask

structure Best where
  id : Nat
  prio : BitVec 8
deriving DecidableEq

variable {cfg : Config}

/-- All operations return `none` on an access outside of an array. -/
def bestOfWord (cfg : Config) (c : Context) (best : Best) (i : Nat) : Option Best := do
  let pending ← c.pending.read i
  let claimed ← c.claimed.read i
  if pending = 0 then return best
  else (List.range 32).foldlM (fun best j =>
    let id := i * 32 + j
    if cfg.numIds ≤ id ∨ pending.getLsbD j = false ∨ claimed.getLsbD j then some best
    else do
      let prio ← c.pendingPriority.read id
      return if best.id = 0 ∨ best.prio < prio then ⟨id, prio⟩ else best) best

def contextBestPending (cfg : Config) (c : Context) : Option Nat := do
  let best ← (List.range cfg.numIdsWord).foldlM (bestOfWord cfg c) ⟨0, 0⟩
  return if best.prio ≤ c.priorityThreshold then 0 else best.id

variable (plic : Plic cfg)

def contextUpdate (c : Fin cfg.count) : Option (Plic cfg) := do
  let bestId ← contextBestPending cfg (plic.contexts c)
  let mask := mipMask (cfg.mmode c)
  let mip ← plic.mip.modify (cfg.proc c) fun old => backdoorWriteWithMask old mask (if bestId ≠ 0 then mask else 0)
  return { plic with mip }

def setContext (c : Fin cfg.count) (context : Context) : Plic cfg :=
  { plic with contexts := plic.contexts.change c.val fun _ => context }

def service (c : Fin cfg.count) (id : Nat) (taken : Bool) : Plic cfg :=
  { plic with inService := fun c' id' => if c' = c ∧ id' = id then taken else plic.inService c' id' }

def claimBest (c : Fin cfg.count) (bestId : Nat) : Option (Plic cfg) :=
  if bestId ≠ 0 then do
    let claimed ← (plic.contexts c).claimed.modify (bestId / 32) fun word => word ||| bitOf bestId
    return (plic.setContext c { plic.contexts c with claimed }).service c bestId true
  else some plic

def contextClaim (c : Fin cfg.count) : Option (Nat × Plic cfg) := do
  let bestId ← contextBestPending cfg (plic.contexts c)
  let plic ← plic.claimBest c bestId
  let plic ← plic.contextUpdate c
  return (bestId, plic)

def priorityRead (offset : Nat) : Option W32 :=
  let id := offset / 4
  if 0 < id ∧ id < cfg.numIds then do
    let prio ← plic.priority.read id
    return prio.setWidth 32
  else some 0

def priorityWrite (offset : Nat) (val : W32) : Option (Plic cfg) :=
  let id := offset / 4
  if 0 < id ∧ id < cfg.numIds then do
    let priority ← plic.priority.write id ((val &&& prioMask).setWidth 8)
    return { plic with priority }
  else some plic

def pendingRead (offset : Nat) : Option W32 :=
  let idWord := offset / 4
  if idWord < cfg.numIdsWord then
    (List.finRange cfg.count).foldlM (fun val c => do
      let pending ← (plic.contexts c).pending.read idWord
      return val ||| pending) 0
  else some 0

def contextEnableRead (c : Fin cfg.count) (offset : Nat) : Option W32 :=
  let idWord := offset / 4
  if idWord < cfg.numIdsWord then (plic.contexts c).enable.read idWord else some 0

def enableId (idWord : Nat) (newVal xorVal : W32) (c : Context) (i : Nat) : Option Context := do
  let id := idWord * 32 + i
  let idPrio ← plic.priority.read id
  let level ← plic.level.read idWord
  if xorVal.getLsbD i = false then return c
  else if newVal.getLsbD i ∧ level.getLsbD i then
    let pending ← c.pending.modify idWord fun word => word ||| bitOf i
    let pendingPriority ← c.pendingPriority.write id idPrio
    return { c with pending, pendingPriority }
  else if newVal.getLsbD i = false then
    let pending ← c.pending.modify idWord fun word => word &&& ~~~bitOf i
    let pendingPriority ← c.pendingPriority.write id 0
    let claimed ← c.claimed.modify idWord fun word => word &&& ~~~bitOf i
    return { c with pending, pendingPriority, claimed }
  else return c

def contextEnableWrite (c : Fin cfg.count) (offset : Nat) (val : W32) : Option (Plic cfg) :=
  let idWord := offset / 4
  if cfg.numIdsWord ≤ idWord then some plic
  else do
    let oldVal ← (plic.contexts c).enable.read idWord
    let newVal := if idWord = 0 then val &&& ~~~1 else val
    let enable ← (plic.contexts c).enable.write idWord newVal
    let context ← (List.range 32).foldlM (plic.enableId idWord newVal (oldVal ^^^ newVal)) { plic.contexts c with enable }
    (plic.setContext c context).contextUpdate c

def contextThreshold : Nat := 0
def contextClaimOffset : Nat := 4

def contextRead (c : Fin cfg.count) (offset : Nat) : Option (W32 × Plic cfg) :=
  if offset = contextThreshold then some ((plic.contexts c).priorityThreshold.setWidth 32, plic)
  else if offset = contextClaimOffset then (plic.contextClaim c).map fun (id, plic) => (BitVec.ofNat 32 id, plic)
  else some (0, plic)

def setThreshold (c : Fin cfg.count) (val : W32) : Option (Bool × Plic cfg) :=
  let val := val &&& prioMask
  if val.toNat ≤ maxPrio then do
    let plic ← (plic.setContext c { plic.contexts c with priorityThreshold := val.setWidth 8 }).contextUpdate c
    return (true, plic)
  else some (false, plic)

def complete (c : Fin cfg.count) (id : Nat) : Option (Plic cfg) :=
  if id < cfg.numIds then do
    let enable ← (plic.contexts c).enable.read (id / 32)
    if enable &&& bitOf id ≠ 0 then
      let claimed ← (plic.contexts c).claimed.modify (id / 32) fun word => word &&& ~~~bitOf id
      ((plic.setContext c { plic.contexts c with claimed }).service c id false).contextUpdate c
    else return plic
  else some plic

def contextWrite (c : Fin cfg.count) (offset : Nat) (val : W32) : Option (Bool × Plic cfg) :=
  if offset = contextThreshold then plic.setThreshold c val
  else if offset = contextClaimOffset then (plic.complete c val.toNat).map fun plic => (true, plic)
  else some (false, plic)

def levelChanged (c : Fin cfg.count) (id : Nat) (lvl : Bool) (idPrio : BitVec 8) :
    Option (Plic cfg) := do
  let context := plic.contexts c
  let context ←
    if lvl then do
      let pending ← context.pending.modify (id / 32) fun word => word ||| bitOf id
      let pendingPriority ← context.pendingPriority.write id idPrio
      pure { context with pending, pendingPriority }
    else do
      let pending ← context.pending.modify (id / 32) fun word => word &&& ~~~bitOf id
      let pendingPriority ← context.pendingPriority.write id 0
      let claimed ← context.claimed.modify (id / 32) fun word => word &&& ~~~bitOf id
      pure { context with pending, pendingPriority, claimed }
  (plic.setContext c context).contextUpdate c

def levelFirst (plic : Plic cfg) (id : Nat) (lvl : Bool) (idPrio : BitVec 8) : List (Fin cfg.count) → Option (Plic cfg)
  | [] => some plic
  | c :: contexts => do
    let enable ← (plic.contexts c).enable.read (id / 32)
    if enable &&& bitOf id ≠ 0 then plic.levelChanged c id lvl idPrio else plic.levelFirst id lvl idPrio contexts

def setInterruptLevel (id : Nat) (lvl : Bool) : Option (Plic cfg) :=
  if id = 0 ∨ cfg.numIds ≤ id then some plic
  else do
    let idPrio ← plic.priority.read id
    let level ← plic.level.modify (id / 32) fun word => if lvl then word ||| bitOf id else word &&& ~~~bitOf id
    let plic := { plic with level }
    plic.levelFirst id lvl idPrio (List.finRange cfg.count)

def pendingBase : Nat := 0x1000
def enableBase : Nat := 0x2000
def enablePerHart : Nat := 0x80
def contextBase : Nat := 0x200000
def contextPerHart : Nat := 0x1000
def regSize : Nat := 0x1000000

def loadReg (addr : Nat) : Option (Bool × W32 × Plic cfg) :=
  if addr < pendingBase then (plic.priorityRead addr).map fun val => (true, val, plic)
  else if addr < enableBase then (plic.pendingRead (addr - pendingBase)).map fun val => (true, val, plic)
  else if addr < contextBase then
    if bound : (addr - enableBase) / enablePerHart < cfg.count then
      (plic.contextEnableRead ⟨_, bound⟩ ((addr - enableBase) % enablePerHart)).map fun val => (true, val, plic)
    else some (false, 0, plic)
  else if addr < regSize then
    if bound : (addr - contextBase) / contextPerHart < cfg.count then
      (plic.contextRead ⟨_, bound⟩ ((addr - contextBase) % contextPerHart)).map fun (val, plic) => (true, val, plic)
    else some (false, 0, plic)
  else some (false, 0, plic)

def loadWord (addr : Nat) : Option (Bool × W32 × Plic cfg) :=
  (plic.loadReg addr).map fun (ret, val, plic) => (ret, val.rotateRight (8 * (addr % 4)), plic)

def storeReg (addr : Nat) (val : W32) : Option (Bool × Plic cfg) :=
  if addr < enableBase then (plic.priorityWrite addr val).map fun plic => (true, plic)
  else if addr < contextBase then
    if bound : (addr - enableBase) / enablePerHart < cfg.count then
      (plic.contextEnableWrite ⟨_, bound⟩ ((addr - enableBase) % enablePerHart) val).map fun plic => (true, plic)
    else some (false, plic)
  else if addr < regSize then
    if bound : (addr - contextBase) / contextPerHart < cfg.count then
      plic.contextWrite ⟨_, bound⟩ ((addr - contextBase) % contextPerHart) val
    else some (false, plic)
  else some (false, plic)

def storeWord (addr : Nat) (bytes : W32) : Option (Bool × Plic cfg) :=
  plic.storeReg addr (bytes.rotateLeft (8 * (addr % 4)))

def load (addr len : Nat) : Option (Bool × BitVec 64 × Plic cfg) :=
  if len = 4 then (plic.loadWord addr).map fun (ret, low, plic) => (ret, low.setWidth 64, plic)
  else if len = 8 then do
    let (ret, low, plic) ← plic.loadWord addr
    if ret then
      let (ret, high, plic) ← plic.loadWord (addr + 4)
      return (ret, high ++ low, plic)
    else return (false, low.setWidth 64, plic)
  else some (false, 0, plic)

def store (addr len : Nat) (bytes : BitVec 64) : Option (Bool × Plic cfg) :=
  if len = 4 then plic.storeWord addr (bytes.setWidth 32)
  else if len = 8 then do
    let (ret, plic) ← plic.storeWord addr (bytes.setWidth 32)
    if ret then plic.storeWord (addr + 4) (bytes.extractLsb' 32 32) else return (false, plic)
  else some (false, plic)

def init (cfg : Config) : Plic cfg where
  contexts := fun _ => ⟨0, fun _ => 0, fun _ => 0, fun _ => 0, fun _ => 0⟩
  priority := fun _ => 0
  level := fun _ => 0
  mip := fun _ => 0
  inService := fun _ _ => false

inductive Access where
  | load (addr : Nat)
  | store (addr : Nat) (bytes : W32)
  | level (id : Nat) (lvl : Bool)
deriving DecidableEq, Repr

def step : Access → Option (Plic cfg)
  | .load addr => (plic.loadWord addr).map fun (_, _, plic) => plic
  | .store addr bytes => (plic.storeWord addr bytes).map Prod.snd
  | .level id lvl => plic.setInterruptLevel id lvl

/-- An access outside of an array has no meaning, and leaves the controller as it is here. -/
def after (access : Access) : Plic cfg := (plic.step access).getD plic

end Plic
end RiscvEmulators.Spike
