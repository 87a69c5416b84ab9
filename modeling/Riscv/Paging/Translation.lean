import Mathlib.Algebra.Group.Nat.Defs

namespace RiscvEmulators.Paging

inductive Access where
  | load | store | fetch
  deriving DecidableEq

inductive Format where
  | narrow | wide
  deriving DecidableEq

namespace Format

def pteSize : Format → Nat
  | narrow => 4
  | wide => 8

def vpnBits : Format → Nat
  | narrow => 10
  | wide => 9

def ppnBits : Format → Nat
  | narrow => 22
  | wide => 44

end Format

/-- The fields of an entry. An eight-byte entry has five bits for future use, two that Svrsw60t59b gives to software,
  the memory type of Svpbmt and the N bit of Svnapot above its page number. -/
structure Pte where
  v : Bool
  r : Bool
  w : Bool
  x : Bool
  u : Bool
  a : Bool
  d : Bool
  ppn : Nat
  future : BitVec 5
  software : BitVec 2
  pbmt : BitVec 2
  n : Bool

def Format.pte (format : Format) (word : BitVec 64) : Pte where
  v := word.getLsbD 0
  r := word.getLsbD 1
  w := word.getLsbD 2
  x := word.getLsbD 3
  u := word.getLsbD 4
  a := word.getLsbD 6
  d := word.getLsbD 7
  ppn := word.toNat / 2 ^ 10 % 2 ^ format.ppnBits
  future := match format with | .narrow => 0 | .wide => word.extractLsb' 54 5
  software := match format with | .narrow => 0 | .wide => word.extractLsb' 59 2
  pbmt := match format with | .narrow => 0 | .wide => word.extractLsb' 61 2
  n := match format with | .narrow => false | .wide => word.getLsbD 63

namespace Pte
variable (pte : Pte)

def pointer : Bool := !pte.r && !pte.w && !pte.x
def shadowStackPage : Bool := !pte.r && pte.w && !pte.x
def readOnly : Bool := pte.r && !pte.w && !pte.x
def napot (i : Nat) : Bool := i = 0 && pte.ppn % 16 = 8

end Pte

structure Encodings where
  svnapot : Bool
  svrsw60t59b : Bool
  pbmte : Bool
  sse : Bool

def Encodings.undefinedBits (encodings : Encodings) (pte : Pte) : Bool :=
  pte.future != 0 || (!encodings.svrsw60t59b && pte.software != 0) || (!encodings.svnapot && pte.n) ||
    (!encodings.pbmte && pte.pbmt != 0) || pte.pbmt == 3

def Encodings.reserved (encodings : Encodings) (i : Nat) (pte : Pte) : Bool :=
  encodings.undefinedBits pte || (!pte.r && pte.w && !(encodings.sse && pte.shadowStackPage)) ||
    (pte.pointer && (pte.d || pte.a || pte.u || pte.n || pte.pbmt != 0)) ||
    (pte.n && !pte.napot i)

/-- What one stage of translation is asked for. `user` stands for the effective privilege U, `hlvx` for an access that
  needs execute permission in place of read permission. -/
structure Request where
  access : Access
  user : Bool
  sum : Bool
  mxr : Bool
  hlvx : Bool
  shadowStack : Bool
  cacheBlock : Bool
  adue : Bool
  encodings : Encodings

inductive Verdict where
  | pageFault
  | accessFault (type : Access)
  | pointer
  | leaf

namespace Request
variable (request : Request) (pte : Pte)

def userAllows : Bool :=
  if request.user then pte.u else !pte.u || (request.sum && request.access != .fetch)

def shadowStackFault : Option Access :=
  if pte.shadowStackPage then
    if request.cacheBlock || (request.access == .store && !request.shadowStack) then some .store
    else if request.access = .fetch then some .fetch
    else none
  else if request.shadowStack && !pte.readOnly then some .store
  else none

def permits : Bool :=
  if request.access = .fetch ∨ request.hlvx then pte.x
  else if request.access = .load then pte.r || pte.shadowStackPage || (request.mxr && pte.x)
  else pte.w

/-- Steps 3 to 8 of the translation process, for an entry at level `i` with `vpnBits` index bits a level. -/
def verdict (vpnBits i : Nat) : Verdict :=
  if !pte.v || request.encodings.reserved i pte then .pageFault
  else if pte.pointer then .pointer
  else if pte.ppn % 2 ^ (i * vpnBits) ≠ 0 then .pageFault
  else if !request.userAllows pte then .pageFault
  else match request.shadowStackFault pte with
    | some type => .accessFault type
    | none => if request.permits pte then .leaf else .pageFault

def marks : BitVec 64 := if request.access = .store then 0xc0 else 0x40
def marked : Bool := pte.a && (request.access != .store || pte.d)

end Request

structure Scheme where
  format : Format
  levels : Nat
  widened : Nat

namespace Scheme

def sv32 : Scheme := ⟨.narrow, 2, 0⟩
def sv39 : Scheme := ⟨.wide, 3, 0⟩
def sv48 : Scheme := ⟨.wide, 4, 0⟩
def sv57 : Scheme := ⟨.wide, 5, 0⟩
def x4 (scheme : Scheme) : Scheme := { scheme with widened := 2 }

variable (scheme : Scheme)

def vpnBits : Nat := scheme.format.vpnBits
def width : Nat := scheme.levels * scheme.vpnBits + scheme.widened + 12

def vpn (va i : Nat) : Nat :=
  va / 2 ^ (12 + i * scheme.vpnBits) % 2 ^ (scheme.vpnBits + if i = scheme.levels - 1 then scheme.widened else 0)

def physical (pte : Pte) (va i : Nat) : Nat :=
  let low := if pte.n then 4 else i * scheme.vpnBits
  (pte.ppn / 2 ^ low * 2 ^ low + va / 2 ^ 12 % 2 ^ low) * 2 ^ 12 + va % 2 ^ 12

def canonical (xlen va : Nat) : Bool := va < 2 ^ (scheme.width - 1) || 2 ^ xlen - 2 ^ (scheme.width - 1) ≤ va

end Scheme

/-- A fault of the original access. A guest page fault carries the guest-physical address and the implicit access to a
  VS-stage table that it comes from. -/
inductive Fault where
  | access (type : Access)
  | page (type : Access)
  | guestPage (type : Access) (gpa : Nat) (implicit : Option Access)

namespace Fault

def cause : Fault → Nat
  | access .fetch => 1
  | access .load => 5
  | access .store => 7
  | page .fetch => 12
  | page .load => 13
  | page .store => 15
  | guestPage .fetch _ _ => 20
  | guestPage .load _ _ => 21
  | guestPage .store _ _ => 23

def tval2 : Fault → Nat
  | guestPage _ gpa _ => gpa / 4
  | _ => 0

def tinst (pteSize : Nat) : Fault → Nat
  | guestPage _ _ (some made) => (if pteSize = 8 then 0x3000 else 0x2000) + (if made = .store then 0x20 else 0)
  | _ => 0

end Fault

abbrev Walk (σ : Type) := EStateM Fault σ

structure Memory (σ : Type) where
  read : Nat → σ → Option (BitVec 64)
  write : Nat → BitVec 64 → σ → Option σ

variable {σ : Type}

namespace Memory
variable (memory : Memory σ) (original : Access)

def load (place : Nat) : Walk σ (BitVec 64) := fun s =>
  match memory.read place s with
  | some word => .ok word s
  | none => .error (.access original) s

def store (place : Nat) (word : BitVec 64) : Walk σ Unit := fun s =>
  match memory.write place word s with
  | some s' => .ok () s'
  | none => .error (.access original) s

end Memory

/-- One stage of translation. `locate` finds an entry of its tables in memory, for a load or a store of it. -/
structure Stage (σ : Type) where
  scheme : Scheme
  request : Request
  memory : Memory σ
  original : Access
  pageFault : Fault
  locate : Access → Nat → Walk σ Nat

namespace Stage
variable (stage : Stage σ)

def mark (slot place : Nat) (word : BitVec 64) : Walk σ Unit :=
  if stage.request.marked (stage.scheme.format.pte word) then pure ()
  else if stage.request.adue then do
    let _ ← stage.locate .store slot
    stage.memory.store stage.original place (word ||| stage.request.marks)
  else throw stage.pageFault

def slot (va i a : Nat) : Nat := a + stage.scheme.vpn va i * stage.scheme.format.pteSize

def follow (next : Nat → Walk σ Nat) (va i slot place : Nat) (word : BitVec 64) : Walk σ Nat :=
  let pte := stage.scheme.format.pte word
  match stage.request.verdict pte stage.scheme.vpnBits i with
  | .pageFault => throw stage.pageFault
  | .accessFault type => throw (.access type)
  | .pointer => next (pte.ppn * 2 ^ 12)
  | .leaf => do
    stage.mark slot place word
    pure (stage.scheme.physical pte va i)

def translate (va : Nat) : Nat → Nat → Walk σ Nat
  | 0, _ => throw stage.pageFault
  | i + 1, a => do
    let place ← stage.locate .load (stage.slot va i a)
    let word ← stage.memory.load stage.original place
    stage.follow (translate va i) va i (stage.slot va i a) place word

end Stage

structure Root where
  scheme : Scheme
  ppn : Nat

/-- An access and the control that applies to it. The first stage is the only one of the host and the VS-stage of a guest;
  a stage without a root is bare. -/
structure Context (σ : Type) where
  xlen : Nat
  memory : Memory σ
  first : Option Root
  second : Option Root
  request : Request
  secondMxr : Bool
  secondAdue : Bool
  secondPbmte : Bool
  ukte : Bool

namespace Context
variable (context : Context σ)

def original : Access := context.request.access

/-- G-stage accesses are made as from U-mode. Shadow-stack pages do not exist there, and an implicit access to a table
  does not see MXR. -/
def secondRequest (implicit : Bool) (access : Access) : Request where
  access := access
  user := true
  sum := false
  mxr := !implicit && context.secondMxr
  hlvx := !implicit && context.request.hlvx
  shadowStack := false
  cacheBlock := false
  adue := context.secondAdue
  encodings := { context.request.encodings with pbmte := context.secondPbmte, sse := false }

def secondStage (scheme : Scheme) (implicit : Bool) (access : Access) (gpa : Nat) : Stage σ where
  scheme := scheme
  request := context.secondRequest implicit access
  memory := context.memory
  original := context.original
  pageFault := .guestPage context.original gpa (if implicit then some access else none)
  locate := fun _ slot => pure slot

def translateGuest (implicit : Bool) (access : Access) (gpa : Nat) : Walk σ Nat :=
  match context.second with
  | none => pure gpa
  | some root =>
    let stage := context.secondStage root.scheme implicit access gpa
    if gpa < 2 ^ root.scheme.width then stage.translate gpa root.scheme.levels (root.ppn * 2 ^ 12)
    else throw stage.pageFault

def firstStage (scheme : Scheme) : Stage σ where
  scheme := scheme
  request := context.request
  memory := context.memory
  original := context.original
  pageFault := .page context.original
  locate := context.translateGuest true

def translate (va : Nat) : Walk σ Nat :=
  match context.first with
  | none =>
    if context.request.shadowStack then throw (.access .store)
    else context.translateGuest false context.original va
  | some root =>
    if context.ukte && context.request.user && decide (2 ^ (context.xlen - 1) ≤ va) then throw (.page context.original)
    else if root.scheme.canonical context.xlen va then do
      let gpa ← (context.firstStage root.scheme).translate va root.scheme.levels (root.ppn * 2 ^ 12)
      context.translateGuest false context.original gpa
    else throw (.page context.original)

end Context

end RiscvEmulators.Paging
