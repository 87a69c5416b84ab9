import Mathlib.Logic.Function.Basic
import Riscv.Spike.Mmu.Event

namespace RiscvEmulators.Spike.Reservation
open Word Transition Spike.Mmu

structure Hart (hw : Hardware) where
  machine : Machine hw
  loadReservationAddress : Reg

/-- What harts do without the reservation of another: registers, memory and the other TLBs change in any way, and entries
  leave the store TLB. -/
inductive Effect (hw : Hardware) where
  | proceed (m : Machine hw)
  | flushTlb
  | flushStlbPpn (ppn : Reg)

def Effect.apply {hw : Hardware} (hart : Hart hw) : Effect hw → Hart hw
  | .proceed m => { hart with machine := { m with tlbStore := hart.machine.tlbStore } }
  | .flushTlb => { hart with machine := hart.machine.flushTlb }
  | .flushStlbPpn ppn => { hart with machine := hart.machine.flushStlbPpn ppn }

inductive Width where
  | word | double

def Width.bytes : Width → Nat
  | .word => 4
  | .double => 8

/-- The instructions that the statements are about, with the answers of the trigger module. An AMO of
  `amo_compare_and_swap` may find that it does not write. -/
inductive Instruction where
  | store (kind : StoreKind) (addr : Reg) (lg : Fin 5) (answer : TriggerMatch)
  | amo (kind : StoreKind) (addr : Reg) (lg : Fin 5) (writes : Bool) (first second answer : TriggerMatch)
  | loadReserved (addr : Reg) (width : Width) (first second : TriggerMatch)
  | storeConditional (addr : Reg) (width : Width) (answer : TriggerMatch)
  | other

inductive Action where
  | began (instruction : Instruction)
  | reserved (paddr : Reg)
  | succeeded (paddr : Reg)

structure System {ι : Type} (hw : ι → Hardware) where
  harts : (h : ι) → Hart (hw h)
  log : List (ι × Action)

abbrev SystemAccess {ι : Type} (hw : ι → Hardware) := EStateM Failure (System hw)

namespace System
variable {ι α : Type} [DecidableEq ι] {hw : ι → Hardware}

def set (sys : System hw) (h : ι) (hart : Hart (hw h)) : System hw := { sys with harts := Function.update sys.harts h hart }

theorem set_same {sys : System hw} {h : ι} {hart : Hart (hw h)} : (sys.set h hart).harts h = hart := by
  simp [set]

theorem set_other {sys : System hw} {h k : ι} {h0 : Hart (hw h)} (ha : k ≠ h) :
    (sys.set h h0).harts k = sys.harts k := by
  simp [set, ha]

def note (sys : System hw) (h : ι) (action : Action) : System hw := { sys with log := (h, action) :: sys.log }

def onHart (h : ι) (access : Access (hw h) α) : SystemAccess hw α := fun sys =>
  match access (sys.harts h).machine with
  | .ok result m => .ok result (sys.set h { sys.harts h with machine := m })
  | .error failure m => .error failure (sys.set h { sys.harts h with machine := m })

def reserve (sys : System hw) (h : ι) (paddr : Reg) : System hw :=
  (sys.set h { sys.harts h with loadReservationAddress := paddr }).note h (.reserved paddr)

def yieldLoadReservation (sys : System hw) (h : ι) : System hw :=
  sys.set h { sys.harts h with loadReservationAddress := BitVec.allOnes 64 }

def loadReservedIntrapage (h : ι) (len : Nat) (info : AccessInfo) : SystemAccess hw Unit := do
  let place ← onHart h (locateLoad len info)
  if (hw h).addrToMem place.paddr = 0 then throw (accessFault info.effectiveVirt info.transformedVaddr .load)
  else do
    onHart h (performIntrapageLoad info.vaddr place len info.flags)
    modify (·.reserve h place.paddr)

def loadReserved (h : ι) (addr : Reg) (len : Nat) (first second : TriggerMatch) : SystemAccess hw Unit := do
  let sys ← get
  let m := (sys.harts h).machine
  let info := generateAccessInfo (hw h).isa m.regs addr .load .reserved
  onHart h (checkTriggers m.checkTriggersLoad first)
  if info.transformedVaddr &&& BitVec.ofNat 64 (len - 1) = 0 then do
    loadReservedIntrapage h len info
    onHart h (checkTriggers m.checkTriggersLoad second)
  else if !(hw h).extZicclsm then throw (misaligned info.effectiveVirt info.transformedVaddr .load)
  else throw (accessFault info.effectiveVirt info.transformedVaddr .load)

def reservationPaddr (h : ι) (vaddr : Reg) : SystemAccess hw Reg := do
  let sys ← get
  let m := (sys.harts h).machine
  let answer := accessTlb m.tlbStore vaddr 0 0
  if answer.hit then pure answer.paddr
  else onHart h (translateIn (generateAccessInfo (hw h).isa m.regs vaddr .store .none) 1)

def probeMisaligned (h : ι) (vaddr : Reg) (size : Nat) : SystemAccess hw Unit :=
  if vaddr &&& BitVec.ofNat 64 (size - 1) ≠ 0 then onHart h (storeSlowPath vaddr size .none false true .unmatched)
  else pure ()

def checkLoadReservation (h : ι) (vaddr : Reg) (size : Nat) : SystemAccess hw (Bool × Reg) := do
  probeMisaligned h vaddr size
  let paddr ← reservationPaddr h vaddr
  let sys ← get
  if (hw h).addrToMem paddr ≠ 0 then pure ((sys.harts h).loadReservationAddress == paddr, paddr)
  else throw (accessFault (sys.harts h).machine.core.mode.virt vaddr .store)

def storeConditional (h : ι) (addr : Reg) (size : Nat) (answer : TriggerMatch) : SystemAccess hw Bool := do
  let checked ← checkLoadReservation h addr size
  if checked.1 then do
    onHart h (store addr size .none answer)
    modify fun sys => (sys.yieldLoadReservation h).note h (.succeeded checked.2)
    pure true
  else do
    modify (·.yieldLoadReservation h)
    pure false

/-- `amo`, `ssamoswap` and `amo_compare_and_swap`. That load faults are reported as store faults is left out. -/
def amo (h : ι) (kind : StoreKind) (addr : Reg) (len : Nat) (writes : Bool) (first second answer : TriggerMatch) :
    SystemAccess hw Unit := do
  onHart h (storeSlowPath addr len kind.flags false true .unmatched)
  onHart h (load addr len kind.flags first second)
  if writes then onHart h (store addr len kind.flags answer) else pure ()

def execute (h : ι) : Instruction → SystemAccess hw Unit
  | .store kind addr lg answer => onHart h (store addr (accessLen lg) kind.flags answer)
  | .amo kind addr lg writes first second answer => amo h kind addr (accessLen lg) writes first second answer
  | .loadReserved addr width first second => loadReserved h addr width.bytes first second
  | .storeConditional addr width answer => do
    let _ ← storeConditional h addr width.bytes answer
  | .other => pure ()

def disturb (sys : System hw) (effects : (h : ι) → List (Effect (hw h))) : System hw :=
  { sys with harts := fun h => (effects h).foldl Effect.apply (sys.harts h) }

end System

structure Issue {ι : Type} (hw : ι → Hardware) where
  instruction : Instruction
  effects : (h : ι) → List (Effect (hw h))

def System.perform {ι : Type} [DecidableEq ι] {hw : ι → Hardware} (h : ι) (sys : System hw) (issue : Issue hw) : System hw :=
  (finalState (System.execute h issue.instruction (sys.note h (.began issue.instruction)))).disturb issue.effects

def interleave : Nat := 5000

/-- `sim_t` with the hart whose turn it is and the steps of its turn. -/
structure Sim {count : Nat} (hw : Fin count → Hardware) where
  system : System hw
  currentProc : Fin count
  currentStep : Nat

namespace Sim
variable {count : Nat} {hw : Fin count → Hardware}

def nextProc (current : Fin count) : Fin count :=
  if more : current.val + 1 < count then ⟨current.val + 1, more⟩ else ⟨0, Nat.zero_lt_of_lt current.isLt⟩

def turn (sim : Sim hw) (steps : Nat) (batch : List (Issue hw)) : Sim hw :=
  let ran := batch.foldl (System.perform sim.currentProc) sim.system
  if sim.currentStep + steps = interleave then
    { system := ran.yieldLoadReservation sim.currentProc, currentProc := nextProc sim.currentProc, currentStep := 0 }
  else { sim with system := ran, currentStep := sim.currentStep + steps }

def stepLoop (sim : Sim hw) (remaining : Nat) : List (List (Issue hw)) → Sim hw
  | [] => sim
  | batch :: batches =>
    if remaining = 0 then sim
    else
      let steps := min remaining (interleave - sim.currentStep)
      stepLoop (sim.turn steps batch) (remaining - steps) batches

structure Call {count : Nat} (hw : Fin count → Hardware) where
  n : Nat
  batches : List (List (Issue hw))

def step (sim : Sim hw) (call : Call hw) : Sim hw := sim.stepLoop call.n call.batches

def initial (machines : (h : Fin count) → Machine (hw h)) (first : 0 < count) : Sim hw where
  system := ⟨fun h => ⟨(machines h).flushTlb, BitVec.allOnes 64⟩, []⟩
  currentProc := ⟨0, first⟩
  currentStep := 0

end Sim
end RiscvEmulators.Spike.Reservation
