import Riscv.Word.Field
import Riscv.Transition.Loop

namespace RiscvEmulators.Qemu.Iommu
open Word Transition

abbrev Reg := W64

def pageBits : Nat := 12
def pageOffsetMask : Reg := 0xfff

def lowMask (n : Nat) : Reg := ((1 : Reg) <<< n) - 1

def ppnPhys (ppn : Reg) : Reg := ppn <<< pageBits
def ppnDown (phys : Reg) : Reg := phys >>> pageBits

def atpPpnField : Reg := 0x00000fffffffffff
def atpModeField : Reg := 0xf000000000000000
def atpModeBare : Reg := 0
def atpModeSv32 : Reg := 8
def atpModeSv39 : Reg := 8
def atpModeSv48 : Reg := 9
def atpModeSv57 : Reg := 10
def iohgatpGscid : Reg := 0x0ffff00000000000
def taPscid : Reg := 0x00000000fffff000

def capSv32 : Reg := 0x100
def capSv39 : Reg := 0x200
def capSv48 : Reg := 0x400
def capSv57 : Reg := 0x800
def capSv32x4 : Reg := 0x10000
def capSv39x4 : Reg := 0x20000
def capSv48x4 : Reg := 0x40000
def capSv57x4 : Reg := 0x80000
def fctlGxl : Reg := 0x4

def tcV : Reg := 0x1
def tcEnAts : Reg := 0x2
def tcPdtv : Reg := 0x20
def tcGade : Reg := 0x80
def tcSade : Reg := 0x100
def tcDpe : Reg := 0x200
def tcSxl : Reg := 0x800
def msiptpModeFlat : Reg := 1

def pteV : Reg := 0x01
def pteR : Reg := 0x02
def pteW : Reg := 0x04
def pteX : Reg := 0x08
def pteA : Reg := 0x40
def pteD : Reg := 0x80
def ptePpnShift : Nat := 10

inductive Cause where
  | rdFault | wrFault
  | rdFaultS | wrFaultS
  | rdFaultVs | wrFaultVs
  | dmaDisabled
  | ddtLoadFault | ddtInvalid | ddtMisconfigured
  | ttypeBlocked
  | pdtLoadFault | pdtInvalid | pdtMisconfigured
  deriving DecidableEq

inductive Access where
  | read | write
  deriving DecidableEq

structure Perm where
  read : Bool
  write : Bool
  deriving DecidableEq

namespace Perm

def none : Perm := ⟨false, false⟩
def rw : Perm := ⟨true, true⟩

def allows (perm : Perm) : Access → Bool
  | .read => perm.read
  | .write => perm.write

def only : Access → Perm
  | .read => ⟨true, false⟩
  | .write => ⟨false, true⟩

end Perm

inductive Stage where
  | s | g
  deriving DecidableEq

structure Context where
  devid : BitVec 24
  processId : BitVec 20
  tc : Reg
  ta : Reg
  satp : Reg
  gatp : Reg
  msiAddrMask : Reg
  msiAddrPattern : Reg
  msiptp : Reg
  deriving DecidableEq

namespace Context

def satpMode (ctx : Context) : Reg := getField ctx.satp atpModeField
def gatpMode (ctx : Context) : Reg := getField ctx.gatp atpModeField
def enS (ctx : Context) : Bool := ctx.satpMode != atpModeBare
def enG (ctx : Context) : Bool := ctx.gatpMode != atpModeBare
def satpRoot (ctx : Context) : Reg := ppnPhys (getField ctx.satp atpPpnField)
def gatpRoot (ctx : Context) : Reg := ppnPhys (getField ctx.gatp atpPpnField)

end Context

structure Config where
  cap : Reg
  fctl : Reg
  ddtp : Reg
  enableMsi : Bool
  enableAts : Bool

structure Dma where
  ldl : Reg → Option (BitVec 32)
  ldq : Reg → Option Reg

def msiCheck (cfg : Config) (ctx : Context) (gpa : Reg) : Bool :=
  cfg.enableMsi && getField ctx.msiptp atpModeField == msiptpModeFlat &&
    (ppnDown gpa ^^^ ctx.msiAddrPattern) &&& ~~~ctx.msiAddrMask == 0

structure StageParams where
  levels : Nat
  ptidxbits : Nat
  ptesize : Nat

def stageParams (cfg : Config) (ctx : Context) (stage : Stage) : Option StageParams :=
  let mode := match stage with
    | .s => ctx.satpMode
    | .g => ctx.gatpMode
  let narrow := match stage with
    | .s => ctx.tc &&& tcSxl != 0
    | .g => cfg.fctl &&& fctlGxl != 0
  let supported (first second : Reg) := cfg.cap &&& (match stage with | .s => first | .g => second) != 0
  if mode = atpModeBare then some ⟨0, 0, 0⟩
  else if narrow then
    if mode = atpModeSv32 && supported capSv32 capSv32x4 then some ⟨2, 10, 4⟩ else none
  else if mode = atpModeSv39 then
    if supported capSv39 capSv39x4 then some ⟨3, 9, 8⟩ else none
  else if mode = atpModeSv48 then
    if supported capSv48 capSv48x4 then some ⟨4, 9, 8⟩ else none
  else if mode = atpModeSv57 then
    if supported capSv57 capSv57x4 then some ⟨5, 9, 8⟩ else none
  else none

structure WalkEnv where
  cfg : Config
  ctx : Context
  mem : Dma
  iova : Reg
  sParams : StageParams
  gParams : StageParams

structure Walk where
  pass : Stage
  addr : Reg
  base : Reg
  sStep : Nat
  gStep : Nat
  perm : Perm
  addrMask : Reg

structure Translation where
  translatedAddr : Reg
  addrMask : Reg
  perm : Perm
  trap : Bool
  deriving DecidableEq

namespace WalkEnv
variable (env : WalkEnv) (w : Walk)

def params : Stage → StageParams
  | .s => env.sParams
  | .g => env.gParams

def step : Nat :=
  match w.pass with
  | .s => w.sStep
  | .g => w.gStep

def vaBits : Nat := (if w.pass = .g ∧ w.gStep = 0 then 2 else 0) + (env.params w.pass).ptidxbits
def vaSkip : Nat := pageBits + (env.params w.pass).ptidxbits * ((env.params w.pass).levels - 1 - step w)
def vaIndex : Reg := (w.addr >>> env.vaSkip w) &&& lowMask (env.vaBits w)
def pteAddr : Reg := w.base + env.vaIndex w * BitVec.ofNat 64 (env.params w.pass).ptesize

def ade : Bool :=
  env.ctx.tc &&& (match w.pass with | .s => tcSade | .g => tcGade) != 0

def rangeFault : Option Cause :=
  let vaLen := env.vaSkip w + env.vaBits w
  if step w ≠ 0 then none
  else if w.pass = .s ∧ 32 < vaLen then
    let mask := lowMask (64 - vaLen + 1)
    let maskedMsbs := (w.addr >>> (vaLen - 1)) &&& mask
    if maskedMsbs ≠ 0 ∧ maskedMsbs ≠ mask then
      some (if w.perm.write then .wrFaultS else .rdFaultS)
    else none
  else if w.addr &&& lowMask vaLen ≠ w.addr then
    some (if w.perm.write then .wrFaultVs else .rdFaultVs)
  else none

def readPte : Option Reg :=
  if (env.params w.pass).ptesize = 4 then (env.mem.ldl (env.pteAddr w)).map (BitVec.setWidth 64)
  else env.mem.ldq (env.pteAddr w)

def pageFault : Cause :=
  match w.pass with
  | .s => if w.perm.write then .wrFaultS else .rdFaultS
  | .g => if w.perm.write then .wrFaultVs else .rdFaultVs

def refuse : Turn Walk (Except Cause Translation) := .done (.error (pageFault w))
def enterG (gpa : Reg) : Walk := { w with pass := .g, addr := gpa, base := env.ctx.gatpRoot, gStep := 0 }

def advance : Walk :=
  match w.pass with
  | .s => { w with sStep := w.sStep + 1 }
  | .g => { w with gStep := w.gStep + 1 }

def innerTurn (pte : Reg) : Turn Walk (Except Cause Translation) :=
  let table := ppnPhys (pte >>> ptePpnShift)
  let next := advance w
  if step next = (env.params w.pass).levels then refuse w
  else if w.pass = .s ∧ env.ctx.enG then .next (env.enterG next table)
  else .next { next with base := table }

def leafPerm (pte : Reg) : Perm :=
  if pte &&& pteW ≠ 0 then ⟨pte &&& pteR ≠ 0, true⟩ else ⟨true, false⟩

def leafAddr (pte : Reg) : Reg := ppnPhys (pte >>> ptePpnShift) ||| (w.addr &&& lowMask (env.vaSkip w))

def leafTurn (pte : Reg) : Turn Walk (Except Cause Translation) :=
  let base := env.leafAddr w pte
  let addrMask := w.addrMask &&& lowMask (env.vaSkip w)
  let perm := leafPerm pte
  match w.pass with
  | .g =>
    let found := { w with gStep := env.gParams.levels, addrMask := addrMask }
    if w.sStep ≠ env.sParams.levels then .next { found with pass := .s, addr := env.iova, base := base }
    else .done (.ok ⟨base, addrMask, perm, false⟩)
  | .s =>
    let found := { w with sStep := env.sParams.levels, addrMask := addrMask, perm := perm }
    if perm.write && msiCheck env.cfg env.ctx base then .done (.ok ⟨base, pageOffsetMask, perm, true⟩)
    else if env.ctx.enG then .next (env.enterG found base)
    else .done (.ok ⟨base, addrMask, perm, false⟩)

end WalkEnv

inductive PteKind where
  | invalid | inner | leaf
  deriving DecidableEq

def pteKind (vaSkip : Nat) (pte : Reg) : PteKind :=
  let flags := pte &&& (pteR ||| pteW ||| pteX)
  if pte &&& pteV = 0 then .invalid
  else if flags = 0 then .inner
  else if flags = pteW then .invalid
  else if flags = pteW ||| pteX then .invalid
  else if (pte >>> ptePpnShift) &&& lowMask (vaSkip - pageBits) ≠ 0 then .invalid
  else .leaf

def leafPermits (perm : Perm) (ade : Bool) (pte : Reg) : Bool :=
  !(perm.read && pte &&& pteR == 0) && !(perm.write && pte &&& pteW == 0) &&
      !(perm.read && !ade && pte &&& pteA == 0) && !(perm.write && !ade && pte &&& pteD == 0)

namespace WalkEnv
variable (env : WalkEnv) (w : Walk)

def turnBy (permits : Perm → Bool → Reg → Bool) : Turn Walk (Except Cause Translation) :=
  match env.rangeFault w with
  | some cause => .done (.error cause)
  | none =>
    match env.readPte w with
    | none => .done (.error (if w.perm.write then .wrFault else .rdFault))
    | some pte =>
      match pteKind (env.vaSkip w) pte with
      | .invalid => refuse w
      | .inner => env.innerTurn w pte
      | .leaf => if permits w.perm (env.ade w) pte then env.leafTurn w pte else refuse w

def walkTurn : Turn Walk (Except Cause Translation) := env.turnBy w leafPermits

def start (request : Perm) (addrMask : Reg) : Walk where
  pass := if env.ctx.enG then .g else .s
  addr := if env.ctx.enS && env.ctx.enG then env.ctx.satpRoot else env.iova
  base := if env.ctx.enG then env.ctx.gatpRoot else env.ctx.satpRoot
  sStep := 0
  gStep := 0
  perm := request
  addrMask := addrMask

end WalkEnv

def walkFuel : Nat := 64

namespace WalkEnv
variable (env : WalkEnv) (w : Walk)

structure InLevels : Prop where
  enabled : env.ctx.enG → 0 < env.gParams.levels
  sBound : w.sStep ≤ env.sParams.levels
  sOpen : w.pass = .s → w.sStep < env.sParams.levels
  gOpen : w.pass = .g → w.gStep < env.gParams.levels

def rank : Nat :=
  (env.sParams.levels - w.sStep) * (env.gParams.levels + 2) + match w.pass with
    | .s => 0
    | .g => env.gParams.levels - w.gStep + 1

variable {env w}

theorem rank_sStep_lt {ss : Nat} (hi : env.InLevels w) (hf : w.pass = .s) (hl : w.sStep < ss) :
    (env.sParams.levels - ss) * (env.gParams.levels + 2) + (env.gParams.levels + 1) < env.rank w := by
  have ho := hi.sOpen hf
  have hg : env.sParams.levels - ss + 1 ≤ env.sParams.levels - w.sStep := by omega
  have hs := Nat.mul_le_mul_right (env.gParams.levels + 2) hg
  rw [Nat.succ_mul] at hs
  simp only [rank]
  omega

variable {later : Walk} {permits : Perm → Bool → Reg → Bool}

theorem innerTurn_next {pte : Reg} (hi : env.InLevels w) (hn : env.innerTurn w pte = .next later)
    : env.InLevels later ∧ env.rank later < env.rank w := by
  unfold innerTurn at hn
  cases hs : w.pass with
  | s =>
    have hl := rank_sStep_lt hi hs (Nat.lt_add_one w.sStep)
    have ho := hi.sOpen hs
    simp only [advance, hs, step, params, true_and] at hn
    split at hn
    · cases hn
    · split at hn <;> cases hn
      · rename_i he
        exact ⟨⟨hi.enabled, ho, nofun, fun _ => hi.enabled he⟩, hl⟩
      · refine ⟨⟨hi.enabled, ho, fun _ => by dsimp only; omega, nofun⟩, ?_⟩
        simp only [rank] at hl ⊢
        omega
  | g =>
    have ho := hi.gOpen hs
    simp only [advance, hs, step, params] at hn
    split at hn <;> cases hn
    refine ⟨⟨hi.enabled, hi.sBound, nofun, fun _ => by dsimp only; omega⟩, ?_⟩
    simp only [rank, hs]
    omega

theorem leafTurn_next {pte : Reg} (hi : env.InLevels w) (hn : env.leafTurn w pte = .next later)
    : env.InLevels later ∧ env.rank later < env.rank w := by
  unfold leafTurn at hn
  cases hs : w.pass with
  | s =>
    have hl := rank_sStep_lt hi hs (hi.sOpen hs)
    simp only [hs] at hn
    split at hn
    · cases hn
    · split at hn <;> cases hn
      rename_i he
      exact ⟨⟨hi.enabled, Nat.le_refl _, nofun, fun _ => hi.enabled he⟩, hl⟩
  | g =>
    have hb := hi.sBound
    simp only [hs] at hn
    split at hn <;> cases hn
    refine ⟨⟨hi.enabled, hb, fun _ => by dsimp only; omega, nofun⟩, ?_⟩
    simp only [rank, hs]
    omega

theorem turnBy_next_cases (h : env.turnBy w permits = .next later) :
    ∃ pte, env.innerTurn w pte = .next later ∨ env.leafTurn w pte = .next later := by
  unfold turnBy at h
  split at h
  · cases h
  · split at h
    · cases h
    · split at h
      · cases h
      · exact ⟨_, .inl h⟩
      · split at h
        · exact ⟨_, .inr h⟩
        · cases h

theorem turnBy_next (hi : env.InLevels w) (hn : env.turnBy w permits = .next later)
    : env.InLevels later ∧ env.rank later < env.rank w := by
  obtain ⟨pte, inner | hl⟩ := turnBy_next_cases hn
  · exact innerTurn_next hi inner
  · exact leafTurn_next hi hl

end WalkEnv

def walkEnv (cfg : Config) (ctx : Context) (mem : Dma) (iova : Reg) : Option WalkEnv :=
  match stageParams cfg ctx .s, stageParams cfg ctx .g with
  | some sParams, some gParams => some ⟨cfg, ctx, mem, iova, sParams, gParams⟩
  | _, _ => none

def spaFetch (cfg : Config) (ctx : Context) (mem : Dma) (iova : Reg) (request : Perm) (addrMask : Reg) :
    Except Cause Translation :=
  if !ctx.enS && request.write && msiCheck cfg ctx iova then .ok ⟨iova, pageOffsetMask, request, true⟩
  else if !(ctx.enS || ctx.enG) then .ok ⟨iova, pageOffsetMask, .rw, false⟩
  else
    match walkEnv cfg ctx mem iova with
    | none => .error .ddtMisconfigured
    | some env => (iterate env.walkTurn walkFuel (env.start request addrMask)).getD (.error .ddtMisconfigured)

theorem stageParams_levels {cfg : Config} {ctx : Context} {st : Stage} {p : StageParams}
    (h : stageParams cfg ctx st = some p) :
    p.levels ≤ 5 ∧ (0 < p.levels ↔ (match st with | .s => ctx.enS | .g => ctx.enG)) := by
  unfold stageParams at h
  cases st <;> simp only [Context.enS, Context.enG] at h ⊢ <;> grind

variable {cfg : Config} {ctx : Context} {mem : Dma} {i : Reg} {env : WalkEnv}

theorem walkEnv_eq (hc : walkEnv cfg ctx mem i = some env) :
    ∃ sp gp, stageParams cfg ctx .s = some sp ∧ stageParams cfg ctx .g = some gp ∧ env = ⟨cfg, ctx, mem, i, sp, gp⟩ := by
  unfold walkEnv at hc
  split at hc
  · rename_i sp gp hf hs
    cases hc
    exact ⟨sp, gp, hf, hs, rfl⟩
  · cases hc

theorem walkEnv_inLevels (hc : walkEnv cfg ctx mem i = some env) (ht : ctx.enS || ctx.enG) (rq : Perm) (a : Reg) :
    env.InLevels (env.start rq a) ∧ env.rank (env.start rq a) < walkFuel := by
  obtain ⟨s, g, ofS, ho, rfl⟩ := walkEnv_eq hc
  obtain ⟨ofS', sLevels⟩ := stageParams_levels ofS
  obtain ⟨ofG, hg⟩ := stageParams_levels ho
  have turns : s.levels * (g.levels + 2) ≤ 5 * 7 := Nat.mul_le_mul ofS' (by omega)
  cases hs : ctx.enG with
  | true =>
    refine ⟨⟨hg.mpr, Nat.zero_le _, ?_, fun _ => hg.mpr hs⟩, ?_⟩
    · simp [WalkEnv.start, hs]
    · simp only [WalkEnv.rank, WalkEnv.start, hs, walkFuel, ite_true, Nat.sub_zero]
      omega
  | false =>
    have hf : ctx.enS := by simpa [hs] using ht
    refine ⟨⟨hg.mpr, Nat.zero_le _, fun _ => sLevels.mpr hf, ?_⟩, ?_⟩
    · simp [WalkEnv.start, hs]
    · simp only [WalkEnv.rank, WalkEnv.start, hs, walkFuel, Bool.false_eq_true, ite_false, Nat.sub_zero]
      omega

theorem walk_returns (hc : walkEnv cfg ctx mem i = some env) (ht : ctx.enS || ctx.enG) (rq : Perm) (a : Reg) :
    ∃ result, iterate env.walkTurn walkFuel (env.start rq a) = some result := by
  obtain ⟨hi, he⟩ := walkEnv_inLevels hc ht rq a
  exact iterate_returns env.InLevels env.rank (fun w later hh hn => (WalkEnv.turnBy_next hh hn).1)
    (fun w later hh hn => (WalkEnv.turnBy_next hh hn).2) hi he

end RiscvEmulators.Qemu.Iommu
