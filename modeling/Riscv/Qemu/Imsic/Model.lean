import Riscv.Store.Cells

namespace RiscvEmulators.Qemu
open Store

structure Imsic.Config where
  mmode : Bool
  numPages : Nat
  numIds : Nat
  pages : 1 ≤ numPages ∧ numPages ≤ 64 ∧ (mmode → numPages = 1)
  ids : 63 ≤ numIds ∧ numIds ≤ 2047 ∧ numIds &&& 63 = 63

abbrev Imsic.Config.numIrqs (cfg : Config) : Nat := cfg.numIds + 1
instance (priority := high) (cfg : Imsic.Config) : @NeZero Nat Zero.ofOfNat0 cfg.numIrqs := ⟨Nat.succ_ne_zero _⟩

structure Imsic (cfg : Imsic.Config) where
  eidelivery : Cells cfg.numPages W32
  eithreshold : Cells cfg.numPages W32
  eistate : Cells (cfg.numPages * cfg.numIrqs) (W32)
  externalIrqs : Cells cfg.numPages Bool

namespace Imsic

def eistatePending : W32 := 0x1
def eistateEnabled : W32 := 0x2
def eistateEnpend : W32 := 0x3

def iselectEidelivery : W32 := 0x70
def iselectEithreshold : W32 := 0x72
def iselectEip0 : W32 := 0x80
def iselectEip63 : W32 := 0xbf
def iselectEie0 : W32 := 0xc0
def iselectEie63 : W32 := 0xff
def iselectTopei : W32 := 0x200
def maxId : BitVec 64 := 0x7ff
def mmioPageSz : Nat := 4096

theorem place_lt {cfg : Config} {p : Fin cfg.numPages} {i : Fin cfg.numIrqs} :
    p * cfg.numIrqs + i < cfg.numPages * cfg.numIrqs := by
  have hn : (p + 1) * cfg.numIrqs ≤ cfg.numPages * cfg.numIrqs := Nat.mul_le_mul_right _ p.isLt
  rw [Nat.succ_mul] at hn
  omega

def place {cfg : Config} (page : Fin cfg.numPages) (i : Fin cfg.numIrqs) : Fin (cfg.numPages * cfg.numIrqs) :=
  ⟨page * cfg.numIrqs + i, place_lt⟩

variable {cfg : Config} (imsic : Imsic cfg)

def stateAt (page : Fin cfg.numPages) (i : Fin cfg.numIrqs) : W32 := imsic.eistate (place page i)

def setState (page : Fin cfg.numPages) (i : Fin cfg.numIrqs) (f : W32 → W32) : Imsic cfg :=
  { imsic with eistate := imsic.eistate.change (place page i) f }

def report (i : Nat) : W32 := BitVec.ofNat 32 i <<< 16 ||| BitVec.ofNat 32 i

def topei (page : Fin cfg.numPages) : W32 :=
  let threshold := (imsic.eithreshold page).toNat
  let maxIrq := if threshold ≠ 0 ∧ threshold ≤ cfg.numIrqs then threshold else cfg.numIrqs
  let found := (List.finRange cfg.numIrqs).find? fun i =>
    decide (1 ≤ i.val ∧ i.val < maxIrq) && decide (imsic.stateAt page i &&& eistateEnpend = eistateEnpend)
  match found with
  | some i => report i
  | none => 0

section
variable (page : Fin cfg.numPages)

/-! The atomic steps of `riscv_imsic_update`. -/

def fetchFlag : Bool × Imsic cfg :=
  (decide (imsic.stateAt page 0 ≠ 0), imsic.setState page 0 fun state => state &&& ~~~eistateEnpend)

def lower : Imsic cfg :=
  { imsic with externalIrqs := imsic.externalIrqs.change page fun _ => false }

def due : Bool := decide (imsic.eidelivery page ≠ 0) && decide (imsic.topei page ≠ 0)

def raise : Imsic cfg :=
  { imsic with externalIrqs := imsic.externalIrqs.change page fun _ => true }

def markFlag : Imsic cfg := imsic.setState page 0 fun state => state ||| eistateEnpend

def update : Imsic cfg :=
  let (was, imsic) := imsic.fetchFlag page
  let imsic := if was then imsic.lower page else imsic
  if imsic.due page then (imsic.raise page).markFlag page else imsic

end

section

def merge (old : W32) (newVal wrMask : BitVec 64) : W32 :=
  (old.setWidth 64 &&& ~~~wrMask ||| newVal &&& wrMask).setWidth 32

variable (page : Fin cfg.numPages)

def storeEidelivery (newVal wrMask : BitVec 64) : Imsic cfg :=
  { imsic with eidelivery := imsic.eidelivery.change page fun old => merge old newVal (wrMask &&& 1) }

def storeEithreshold (newVal wrMask : BitVec 64) : Imsic cfg :=
  { imsic with eithreshold := imsic.eithreshold.change page fun old => merge old newVal (wrMask &&& maxId) }

def eideliveryRmw (newVal wrMask : BitVec 64) : BitVec 64 × Imsic cfg :=
  ((imsic.eidelivery page).setWidth 64, (imsic.storeEidelivery page newVal wrMask).update page)

def eithresholdRmw (newVal wrMask : BitVec 64) : BitVec 64 × Imsic cfg :=
  ((imsic.eithreshold page).setWidth 64, (imsic.storeEithreshold page newVal wrMask).update page)

def claim (topei : W32) : Imsic cfg :=
  let id := topei >>> 16
  if id ≠ 0 then
    { imsic with
      eistate := imsic.eistate.change (page * cfg.numIrqs + id.toNat) fun state => state &&& ~~~eistatePending }
  else imsic

def topeiRmw (wrMask : BitVec 64) : BitVec 64 × Imsic cfg :=
  let topei := imsic.topei page
  let imsic := if topei ≠ 0 ∧ wrMask ≠ 0 then imsic.claim page topei else imsic
  (topei.setWidth 64, imsic.update page)

def storeBit (i : Fin cfg.numIrqs) (state : W32) (value : Bool) : Imsic cfg :=
  imsic.setState page i fun old => if value then old ||| state else old &&& ~~~state

theorem eix_lt {xlen num : Nat} (hb : num < cfg.numIrqs / xlen) (i : Fin xlen) : num * xlen + i < cfg.numIrqs := by
  have hp : 0 < xlen := Nat.lt_of_le_of_lt (Nat.zero_le _) i.isLt
  have hw : (num + 1) * xlen ≤ cfg.numIrqs := (Nat.le_div_iff_mul_le hp).mp hb
  rw [Nat.succ_mul] at hw
  omega

def eixBit (state : W32) (newVal wrMask : BitVec 64) {xlen num : Nat}
    (bound : num < cfg.numIrqs / xlen) (acc : BitVec 64 × Imsic cfg) (i : Fin xlen) : BitVec 64 × Imsic cfg :=
  let (val, imsic) := acc
  if num = 0 ∧ i.val = 0 then (val, imsic)
  else
    let id : Fin cfg.numIrqs := ⟨num * xlen + i, eix_lt bound i⟩
    let prev := imsic.stateAt page id
    let imsic := if wrMask.getLsbD i then imsic.storeBit page id state (newVal.getLsbD i) else imsic
    (if prev &&& state ≠ 0 then val ||| (1 : BitVec 64) <<< i.val else val, imsic)

def eixNum (xlen num : Nat) : Option Nat :=
  if xlen ≠ 32 then if num % 2 = 1 then none else some (num / 2) else some num

/-- `none` is an error. The outer `none` is a shift of a word by its width or more, which has no meaning. -/
def eixRmw (xlen : Nat) (page : Fin cfg.numPages) (num : Nat) (pend : Bool) (newVal wrMask : BitVec 64) :
    Option (Option (BitVec 64) × Imsic cfg) :=
  let state := if pend then eistatePending else eistateEnabled
  match eixNum xlen num with
  | none => some (none, imsic)
  | some num =>
    if bound : num < cfg.numIrqs / xlen then
      if 64 < xlen then none
      else
        let (val, imsic) := (List.finRange xlen).foldl (eixBit page state newVal wrMask bound) (0, imsic)
        some (some val, imsic.update page)
    else some (none, imsic)

end

/-- `AIA_MAKE_IREG`, with the fields that `AIA_IREG_ISEL` and the others take out of it. -/
def makeIreg (isel priv virt vgein xlen : W32) : W32 :=
  (xlen &&& 0xff) <<< 24 ||| (vgein &&& 0x3f) <<< 20 ||| (virt &&& 0x1) <<< 18 ||| (priv &&& 0x3) <<< 16 ||| isel &&& 0xffff

def iregIsel (reg : W32) : W32 := reg &&& 0xffff
def iregPriv (reg : W32) : W32 := reg >>> 16 &&& 0x3
def iregVirt (reg : W32) : W32 := reg >>> 18 &&& 0x1
def iregVgein (reg : W32) : W32 := reg >>> 20 &&& 0x3f
def iregXlen (reg : W32) : W32 := reg >>> 24 &&& 0xff

def prvS : W32 := 1
def prvM : W32 := 3
def Config.firstPage (cfg : Config) : Fin cfg.numPages := ⟨0, cfg.pages.1⟩

def Config.page (cfg : Config) (reg : W32) : Option (Fin cfg.numPages) :=
  if cfg.mmode then
    if iregPriv reg = prvM ∧ iregVirt reg = 0 then some cfg.firstPage else none
  else if iregPriv reg = prvS then
    if iregVirt reg ≠ 0 then
      if bound : iregVgein reg ≠ 0 ∧ (iregVgein reg).toNat < cfg.numPages then some ⟨_, bound.2⟩ else none
    else some cfg.firstPage
  else none

def rmw (reg : W32) (newVal wrMask : BitVec 64) : Option (Option (BitVec 64) × Imsic cfg) :=
  let isel := iregIsel reg
  let xlen := (iregXlen reg).toNat
  let done (result : BitVec 64 × Imsic cfg) : Option (Option (BitVec 64) × Imsic cfg) := some (some result.1, result.2)
  match cfg.page reg with
  | none => some (none, imsic)
  | some page =>
    if isel = iselectEidelivery then done (imsic.eideliveryRmw page newVal wrMask)
    else if isel = iselectEithreshold then done (imsic.eithresholdRmw page newVal wrMask)
    else if isel = iselectTopei then done (imsic.topeiRmw page wrMask)
    else if iselectEip0 ≤ isel ∧ isel ≤ iselectEip63 then
      imsic.eixRmw xlen page (isel - iselectEip0).toNat true newVal wrMask
    else if iselectEie0 ≤ isel ∧ isel ≤ iselectEie63 then
      imsic.eixRmw xlen page (isel - iselectEie0).toNat false newVal wrMask
    else some (none, imsic)

def write (addr : Nat) (value : W32) : Option (Imsic cfg) :=
  if addr % 4 ≠ 0 then some imsic
  else if cfg.numPages * mmioPageSz < addr then some imsic
  else if addr % mmioPageSz = 0 then
    if bound : value ≠ 0 ∧ value.toNat < cfg.numIrqs then
      if inside : addr / mmioPageSz < cfg.numPages then
        let page : Fin cfg.numPages := ⟨addr / mmioPageSz, inside⟩
        let imsic := imsic.setState page ⟨value.toNat, bound.2⟩ fun state => state ||| eistatePending
        some (imsic.update page)
      else none
    else some imsic
  else some imsic

def init (cfg : Config) : Imsic cfg := ⟨fun _ => 0, fun _ => 0, fun _ => 0, fun _ => false⟩

inductive Csr where
  | m
  | s
  | vs
deriving DecidableEq, Repr

structure Access where
  csr : Csr
  vgein : BitVec 6
  rv64 : Bool
  isel : BitVec 16
  newVal : BitVec 64
  wrMask : BitVec 64
deriving DecidableEq, Repr

namespace Access

def xlen (access : Access) : Nat := if access.rv64 then 64 else 32

def reg (access : Access) : W32 :=
  makeIreg (access.isel.setWidth 32) (if access.csr = .m then prvM else prvS) (if access.csr = .vs then 1 else 0)
    (if access.csr = .vs then access.vgein.setWidth 32 else 0) (BitVec.ofNat 32 access.xlen)

end Access

inductive Event (cfg : Config) where
  | message (addr : Nat) (value : W32) (inside : addr < cfg.numPages * mmioPageSz)
  | access (access : Access)

def step (imsic : Imsic cfg) : Event cfg → Option (Option (BitVec 64) × Imsic cfg)
  | .message addr value _ => (imsic.write addr value).map fun imsic => (none, imsic)
  | .access access => imsic.rmw access.reg access.newVal access.wrMask

def after (imsic : Imsic cfg) (event : Event cfg) : Imsic cfg := ((imsic.step event).map Prod.snd).getD imsic

end Imsic
end RiscvEmulators.Qemu
