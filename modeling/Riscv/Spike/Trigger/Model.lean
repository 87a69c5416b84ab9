import Riscv.Store.Cells
import Riscv.Word.Field

namespace RiscvEmulators.Spike
open Word Store

namespace Trigger

structure Isa where
  rv64 : Bool
  extS : Bool
  extU : Bool

namespace Isa
variable (isa : Isa)

def xlen : Nat := if isa.rv64 then 64 else 32

def tdata1Type : W64 := 0xf <<< (isa.xlen - 4)
def tdata1Dmode : W64 := 1 <<< (isa.xlen - 5)
def trapHit : W64 := 1 <<< (isa.xlen - 6)

def textraMhvalue : W64 := if isa.rv64 then 0xfff8000000000000 else 0xfc000000
def textraMhselect : W64 := if isa.rv64 then 0x7000000000000 else 0x3800000
def textraSbytemask : W64 := if isa.rv64 then 0xf000000000 else 0xc0000
def textraSvalue : W64 := if isa.rv64 then 0x3fffffffc else 0x3fffc

end Isa

def textraSselect : W64 := 3

def mcontrolHit : W64 := 0x100000
def mcontrolSelect : W64 := 0x80000
def mcontrolTiming : W64 := 0x40000
def mcontrolAction : W64 := 0xf000
def mcontrolChain : W64 := 0x800
def mcontrolMatch : W64 := 0x780
def mcontrolM : W64 := 0x40
def mcontrolS : W64 := 0x10
def mcontrolU : W64 := 0x8
def mcontrolExecute : W64 := 0x4
def mcontrolStore : W64 := 0x2
def mcontrolLoad : W64 := 0x1

def mcontrol6Hit1 : W64 := 0x2000000
def mcontrol6Vs : W64 := 0x1000000
def mcontrol6Vu : W64 := 0x800000
def mcontrol6Hit0 : W64 := 0x400000
def mcontrol6Select : W64 := 0x200000

def icountVs : W64 := 0x4000000
def icountVu : W64 := 0x2000000
def icountHit : W64 := 0x1000000
def icountCount : W64 := 0xfffc00
def icountPending : W64 := 0x100

def itriggerVs : W64 := 0x1000
def itriggerVu : W64 := 0x800
def itriggerNmi : W64 := 0x400

def trapM : W64 := 0x200
def trapS : W64 := 0x80
def trapU : W64 := 0x40
def trapAction : W64 := 0x3f
def flag (val mask : W64) : Bool := getField val mask != 0

inductive Action where
  | debugException
  | debugMode
  | traceStart
  | traceStop
  | traceEmit
deriving DecidableEq, Repr

def Action.ofReg (act : W64) : Action :=
  if act = 1 then .debugMode else if act = 2 then .traceStart else if act = 3 then .traceStop
  else if act = 4 then .traceEmit else .debugException

inductive Match where
  | equal
  | napot
  | ge
  | lt
  | maskLow
  | maskHigh
deriving DecidableEq, Repr

def legalizeAction (val actionMask dmodeMask : W64) : Action :=
  let act := getField val actionMask
  if act > 4 ∨ act = 1 ∧ getField val dmodeMask = 0 then .debugException else .ofReg act

def legalizeMatch (val : W64) (maskmax : Nat) : Match :=
  if val = 1 then if maskmax = 0 then .equal else .napot
  else if val = 2 then .ge
  else if val = 3 then .lt
  else if val = 4 then .maskLow
  else if val = 5 then .maskHigh
  else .equal

def legalizeTiming (val : W64) (timingMask : Option W64) (selectMask executeMask loadMask : W64) :
    Bool :=
  if flag val selectMask && flag val loadMask then true
  else if flag val executeMask then false
  else timingMask.elim false (flag val)

structure Common where
  tdata2 : W64
  vs : Bool
  vu : Bool
  m : Bool
  s : Bool
  u : Bool
  sselect : W64
  svalue : W32
  sbytemask : W32
  mhselect : W32
  mhvalue : W32
deriving DecidableEq, Repr

structure MatchControl where
  dmode : Bool
  action : Action
  select : Bool
  timing : Bool
  chain : Bool
  match_ : Match
  execute : Bool
  store : Bool
  load : Bool
deriving DecidableEq, Repr

inductive Kind where
  | disabled (dmode : Bool)
  | mcontrol (control : MatchControl) (hit : Bool)
  | mcontrol6 (control : MatchControl) (hit : BitVec 2)
  | icount (dmode hit : Bool) (count countReadValue : W32) (pending pendingReadValue : Bool) (action : Action)
  | itrigger (dmode hit : Bool) (action : Action) (nmi : Bool)
  | etrigger (dmode hit : Bool) (action : Action)
deriving DecidableEq, Repr

end Trigger

structure Trigger where
  common : Trigger.Common
  kind : Trigger.Kind
deriving DecidableEq, Repr

namespace Trigger

def getDmode (trigger : Trigger) : Bool :=
  match trigger.kind with
  | .disabled dmode => dmode
  | .mcontrol control _ | .mcontrol6 control _ => control.dmode
  | .icount dmode _ _ _ _ _ _ => dmode
  | .itrigger dmode _ _ _ => dmode
  | .etrigger dmode _ _ => dmode

def getChain (trigger : Trigger) : Bool :=
  match trigger.kind with
  | .mcontrol control _ | .mcontrol6 control _ => control.chain
  | _ => false

def tdata2Read (trigger : Trigger) : W64 := trigger.common.tdata2

def tdata2Write (trigger : Trigger) (val : W64) : Trigger :=
  { trigger with common := { trigger.common with tdata2 := val } }

def legalizeMhselect (mhselect : W32) (hEnabled : Bool) : W32 :=
  if hEnabled then if mhselect = 3 then 0 else if mhselect = 7 then 4 else mhselect
  else if mhselect < 4 then 0 else 4

def tdata3Read (isa : Isa) (hEnabled : Bool) (trigger : Trigger) : W64 :=
  let tdata3 := setField 0 isa.textraMhvalue (trigger.common.mhvalue.setWidth 64)
  let tdata3 := setField tdata3 isa.textraMhselect ((legalizeMhselect trigger.common.mhselect hEnabled).setWidth 64)
  let tdata3 := setField tdata3 isa.textraSbytemask (trigger.common.sbytemask.setWidth 64)
  let tdata3 := setField tdata3 isa.textraSvalue (trigger.common.svalue.setWidth 64)
  setField tdata3 textraSselect trigger.common.sselect

def tdata3Write (isa : Isa) (trigger : Trigger) (val : W64) : Trigger :=
  { trigger with
    common := { trigger.common with
      mhvalue := (getField val isa.textraMhvalue).setWidth 32
      mhselect := (getField val isa.textraMhselect).setWidth 32
      sbytemask := (getField val isa.textraSbytemask).setWidth 32
      svalue := if isa.extS then (getField val isa.textraSvalue).setWidth 32 else 0
      sselect :=
        if isa.extS ∧ getField val textraSselect ≤ 2 then getField val textraSselect else 0 } }

def Common.new : Common := ⟨0, false, false, false, false, false, 0, 0, 0, 0, 0⟩

def Common.modes (common : Common) (isa : Isa) (val mMask sMask uMask : W64) : Common :=
  { common with m := flag val mMask, s := isa.extS && flag val sMask, u := isa.extU && flag val uMask }

def matchControl (isa : Isa) (val : W64) (allowChain : Bool) (selectMask : W64)
    (timingMask : Option W64) (maskmax : Nat) : MatchControl where
  dmode := flag val isa.tdata1Dmode
  action := legalizeAction val mcontrolAction isa.tdata1Dmode
  select := flag val selectMask
  timing := legalizeTiming val timingMask selectMask mcontrolExecute mcontrolLoad
  chain := allowChain && flag val mcontrolChain
  match_ := legalizeMatch (getField val mcontrolMatch) maskmax
  execute := flag val mcontrolExecute
  store := flag val mcontrolStore
  load := flag val mcontrolLoad

section
variable (isa : Isa) (debugMode : Bool) (val : W64) (allowChain : Bool)

def disabledWrite : Trigger := ⟨.new, .disabled (flag val isa.tdata1Dmode)⟩

def mcontrolWrite : Trigger :=
  ⟨Common.new.modes isa val mcontrolM mcontrolS mcontrolU,
    .mcontrol (matchControl isa val allowChain mcontrolSelect (some mcontrolTiming) 0) (flag val mcontrolHit)⟩

def mcontrol6Write : Trigger :=
  ⟨{ Common.new.modes isa val mcontrolM mcontrolS mcontrolU with
      vs := flag val mcontrol6Vs, vu := flag val mcontrol6Vu },
    .mcontrol6 (matchControl isa val allowChain mcontrol6Select none (isa.xlen - 1))
      ((2 * getField val mcontrol6Hit1 + getField val mcontrol6Hit0).setWidth 2)⟩

def icountWrite : Trigger :=
  let count := (getField val icountCount).setWidth 32
  let pending := flag val icountPending
  ⟨{ Common.new.modes isa val trapM trapS trapU with vs := flag val icountVs, vu := flag val icountVu },
    .icount (debugMode && flag val isa.tdata1Dmode) (flag val icountHit) count count pending pending
      (legalizeAction val trapAction isa.tdata1Dmode)⟩

def itriggerWrite : Trigger :=
  ⟨{ Common.new.modes isa val trapM trapS trapU with vs := flag val itriggerVs, vu := flag val itriggerVu },
    .itrigger (flag val isa.tdata1Dmode) (flag val isa.trapHit) (legalizeAction val trapAction isa.tdata1Dmode)
      (flag val itriggerNmi)⟩

def etriggerWrite : Trigger :=
  ⟨{ Common.new.modes isa val trapM trapS trapU with vs := flag val itriggerVs, vu := flag val itriggerVu },
    .etrigger (flag val isa.tdata1Dmode) (flag val isa.trapHit) (legalizeAction val trapAction isa.tdata1Dmode)⟩

def tdata1Written (type : W64) : Trigger :=
  if type = 2 then mcontrolWrite isa val allowChain
  else if type = 3 then icountWrite isa debugMode val
  else if type = 4 then itriggerWrite isa val
  else if type = 5 then etriggerWrite isa val
  else if type = 6 then mcontrol6Write isa val allowChain
  else disabledWrite isa val

end

/-- `module_t`, with `debug_mode` and the H bit of `misa` of its processor. -/
structure Module (n : Nat) where
  debugMode : Bool
  hEnabled : Bool
  triggers : Cells n Trigger

namespace Module
variable {n : Nat} (isa : Isa) (state : Module n)

def next (index : Fin n) : Option Trigger := state.triggers.read (index.val + 1)
def previous (index : Fin n) : Option Trigger := if index.val = 0 then none else state.triggers.read (index.val - 1)

def put (index : Fin n) (trigger : Trigger) : Module n :=
  { state with triggers := state.triggers.change index fun _ => trigger }

/-- A write that the source answers with `false` changes nothing. -/
def tdata1Write (index : Fin n) (val : W64) : Module n :=
  let trigger := state.triggers index
  if trigger.getDmode ∧ !state.debugMode then state
  else
    -- judged by the value as it is written, before dmode is taken from it
    let allowChain := !((state.next index).any getDmode && !flag val isa.tdata1Dmode)
    let tdata1 := if state.debugMode then val else setField val isa.tdata1Dmode 0
    if (state.previous index).any (fun before => !before.getDmode && before.getChain) ∧ flag tdata1 isa.tdata1Dmode
    then state
    else
      let type := getField val isa.tdata1Type
      let written := tdata1Written isa state.debugMode tdata1 allowChain type
      let tdata2 := trigger.tdata2Read
      let tdata3 := trigger.tdata3Read isa state.hEnabled
      state.put index ((written.tdata2Write tdata2).tdata3Write isa tdata3)

def tdata2Write (index : Fin n) (val : W64) : Module n :=
  let trigger := state.triggers index
  if trigger.getDmode ∧ !state.debugMode then state else state.put index (trigger.tdata2Write val)

def tdata3Write (index : Fin n) (val : W64) : Module n :=
  let trigger := state.triggers index
  if trigger.getDmode ∧ !state.debugMode then state else state.put index (trigger.tdata3Write isa val)

def init (n : Nat) (hEnabled : Bool) : Module n := ⟨false, hEnabled, fun _ => ⟨.new, .disabled false⟩⟩

end Module

inductive Event (n : Nat) where
  | tdata1 (index : Fin n) (val : W64)
  | tdata2 (index : Fin n) (val : W64)
  | tdata3 (index : Fin n) (val : W64)
  | debug (entered : Bool)
  | misa (hEnabled : Bool)
deriving DecidableEq, Repr

def Module.after {n : Nat} (isa : Isa) (state : Module n) : Event n → Module n
  | .tdata1 index val => state.tdata1Write isa index val
  | .tdata2 index val => state.tdata2Write index val
  | .tdata3 index val => state.tdata3Write isa index val
  | .debug entered => { state with debugMode := entered }
  | .misa hEnabled => { state with hEnabled }

end Trigger
end RiscvEmulators.Spike
