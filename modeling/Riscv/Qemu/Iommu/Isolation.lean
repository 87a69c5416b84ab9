import Riscv.Qemu.Iommu.Walk

namespace RiscvEmulators.Qemu.Iommu
open Word BitVec

def ppnField : Reg := 0x003ffffffffffc00
def ddtpMode : Reg := 0xf
def ddtpModeOff : Reg := 0
def ddtpModeBare : Reg := 1
def ddtpMode1lvl : Reg := 2
def ddtpMode2lvl : Reg := 3
def ddtpMode3lvl : Reg := 4
def entryValid : Reg := 0x1

def fscModePd8 : Reg := 1
def fscModePd17 : Reg := 2
def fscModePd20 : Reg := 3

def capMsiFlat : Reg := 0x400000
def capAts : Reg := 0x2000000
def capT2gpa : Reg := 0x4000000
def capPd8 : Reg := 0x4000000000
def capPd17 : Reg := 0x8000000000
def capPd20 : Reg := 0x10000000000

def tcEnPri : Reg := 0x4
def tcT2gpa : Reg := 0x8
def tcPrpr : Reg := 0x40
def tcSbe : Reg := 0x400

def pcTaReserved : Reg := 0xffffffff00000000
def pcFscReserved : Reg := 0x0ffff00000000000

structure DeviceContext where
  tc : Reg
  iohgatp : Reg
  ta : Reg
  fsc : Reg
  msiptp : Reg
  msiAddrMask : Reg
  msiAddrPattern : Reg

namespace DeviceContext

def context (dc : DeviceContext) (devid : BitVec 24) (processId : BitVec 20) : Context where
  devid := devid
  processId := processId
  tc := dc.tc
  ta := dc.ta
  satp := dc.fsc
  gatp := dc.iohgatp
  msiAddrMask := dc.msiAddrMask
  msiAddrPattern := dc.msiAddrPattern
  msiptp := dc.msiptp

end DeviceContext

def fscModeSupported (cfg : Config) (tc mode : Reg) : Bool :=
  if tc &&& tcSxl ≠ 0 then true
  else if mode = atpModeSv39 then cfg.cap &&& capSv39 != 0
  else if mode = atpModeSv48 then cfg.cap &&& capSv48 != 0
  else if mode = atpModeSv57 then cfg.cap &&& capSv57 != 0
  else true

def validateDeviceCtx (cfg : Config) (ctx : Context) : Bool :=
  let fscMode := getField ctx.satp atpModeField
  let msiMode := getField ctx.msiptp atpModeField
  let has (bit : Reg) := ctx.tc &&& bit != 0
  !(cfg.cap &&& capAts == 0 && (has tcEnAts || has tcEnPri || has tcPrpr)) &&
      !(!has tcEnAts && (has tcT2gpa || has tcEnPri)) &&
      !(!has tcEnPri && has tcPrpr) &&
      !(cfg.cap &&& capT2gpa == 0 && has tcT2gpa) &&
      !(cfg.cap &&& capMsiFlat != 0 && msiMode != 0 && msiMode != msiptpModeFlat) &&
      !(has tcT2gpa && ctx.gatpMode == atpModeBare) &&
      (if has tcPdtv then
        !(fscMode == fscModePd8 && cfg.cap &&& capPd8 == 0) && !(fscMode == fscModePd17 && cfg.cap &&& capPd17 == 0) &&
            !(fscMode == fscModePd20 && cfg.cap &&& capPd20 == 0)
      else
        !has tcDpe &&
          -- the source compares the 4-bit mode with the capability bit of Sv32 here
          !(has tcSxl && fscMode == capSv32 && cfg.cap &&& capSv32 == 0) && fscModeSupported cfg ctx.tc fscMode) &&
      !has tcSbe

def validateProcessCtx (cfg : Config) (ctx : Context) : Bool :=
  let mode := getField ctx.satp atpModeField
  getField ctx.ta pcTaReserved == 0 && getField ctx.satp pcFscReserved == 0 &&
    (mode == atpModeBare || mode == atpModeSv39 || mode == atpModeSv48 || mode == atpModeSv57) &&
    !(ctx.tc &&& tcSxl != 0 && mode == atpModeSv32 && cfg.cap &&& capSv32 == 0) && fscModeSupported cfg ctx.tc mode

def pdtWalk (mem : Dma) (params : StageParams) (addr : Reg) : Nat → Reg → Option Reg
  | 0, _ => none
  | remaining + 1, base =>
    let top := remaining + 1 = params.levels
    let vaBits := (if top then 2 else 0) + params.ptidxbits
    let vaSkip := pageBits + params.ptidxbits * remaining
    let pteAddr := base + ((addr >>> vaSkip) &&& lowMask vaBits) * BitVec.ofNat 64 params.ptesize
    let pte := if params.ptesize = 4 then (mem.ldl pteAddr).map (BitVec.setWidth 64) else mem.ldq pteAddr
    if top ∧ addr &&& lowMask (vaSkip + vaBits) ≠ addr then none
    else
      match pte with
      | none => none
      | some pte =>
        match pteKind vaSkip pte with
        | .invalid => none
        | .inner => pdtWalk mem params addr remaining (ppnPhys (pte >>> ptePpnShift))
        | .leaf => some (ppnPhys (pte >>> ptePpnShift) ||| (addr &&& lowMask vaSkip))

def pdtTranslate (cfg : Config) (ctx : Context) (mem : Dma) (addr : Reg) : Option Reg :=
  if ctx.gatpMode = atpModeBare then some addr
  else
    match stageParams cfg ctx .g with
    | none => none
    | some params => pdtWalk mem params addr params.levels ctx.gatpRoot

def pdtMemoryRead (cfg : Config) (ctx : Context) (mem : Dma) (offset addr : Reg) : Option Reg :=
  (pdtTranslate cfg ctx mem addr).bind fun base => mem.ldq (base + offset)

structure Directory where
  load : Reg → Option Reg
  loadFault : Cause
  check : Reg → Option Cause
  split : Nat → Nat

namespace Directory
variable (dir : Directory) (id : Reg)

def entryAddr (depth : Nat) (page : Reg) : Reg :=
  page ||| (((id >>> dir.split depth) <<< 3) &&& pageOffsetMask)

def entryPage (de : Reg) : Reg := ppnPhys (getField de ppnField)

def walk : Nat → Reg → Except Cause (List Reg × Reg)
  | 0, page => .ok ([], page)
  | depth + 1, page =>
    match dir.load (dir.entryAddr id depth page) with
    | none => .error dir.loadFault
    | some de =>
      match dir.check de with
      | some cause => .error cause
      | none =>
        match walk depth (entryPage de) with
        | .error cause => .error cause
        | .ok (entries, leaf) => .ok (dir.entryAddr id depth page :: entries, leaf)

end Directory

namespace Config

def dcFmt (cfg : Config) : Nat := if cfg.enableMsi then 0 else 1
def dcLen (cfg : Config) : Reg := if cfg.enableMsi then 64 else 32
def ddtRoot (cfg : Config) : Reg := ppnPhys (getField cfg.ddtp ppnField)

end Config

section
variable (cfg : Config)

def ddt (mem : Dma) : Directory where
  load := mem.ldq
  loadFault := .ddtLoadFault
  check := fun de =>
    if de &&& entryValid = 0 then some .ddtInvalid
    else if de &&& ~~~(ppnField ||| entryValid) ≠ 0 then some .ddtMisconfigured
    else none
  split := fun depth => depth * 9 + 6 + cfg.dcFmt

def pdt (ctx : Context) (mem : Dma) : Directory where
  load := pdtMemoryRead cfg ctx mem 0
  loadFault := .pdtLoadFault
  check := fun de => if de &&& entryValid = 0 then some .pdtInvalid else none
  split := fun depth => depth * 9 + 8

def devidBits (depth : Nat) : Nat :=
  depth * 9 + 6 + if cfg.dcFmt ≠ 0 ∧ depth ≠ 2 then 1 else 0

def readDc (mem : Dma) (addr : Reg) : Option DeviceContext := do
  let tc ← mem.ldq addr
  let iohgatp ← mem.ldq (addr + 8)
  let ta ← mem.ldq (addr + 16)
  let fsc ← mem.ldq (addr + 24)
  if cfg.enableMsi then
    let msiptp ← mem.ldq (addr + 32)
    let msiAddrMask ← mem.ldq (addr + 40)
    let msiAddrPattern ← mem.ldq (addr + 48)
    let _ ← mem.ldq (addr + 56)
    return ⟨tc, iohgatp, ta, fsc, msiptp, msiAddrMask, msiAddrPattern⟩
  else return ⟨tc, iohgatp, ta, fsc, 0, 0, 0⟩

structure DeviceFetch where
  entries : List Reg
  addr : Reg
  dc : DeviceContext

def fetchDevice (mem : Dma) (depth : Nat) (devid : BitVec 24) : Except Cause DeviceFetch :=
  if 2 ^ devidBits cfg depth ≤ devid.toNat then .error .ttypeBlocked
  else
    match (ddt cfg mem).walk (devid.setWidth 64) depth cfg.ddtRoot with
    | .error cause => .error cause
    | .ok (entries, page) =>
      let addr := page ||| ((devid.setWidth 64 * cfg.dcLen) &&& pageOffsetMask)
      match readDc cfg mem addr with
      | none => .error .ddtLoadFault
      | some dc =>
        if dc.tc &&& tcV = 0 then .error .ddtInvalid
        else if !validateDeviceCtx cfg (dc.context devid 0) then .error .ddtMisconfigured
        else .ok ⟨entries, addr, dc⟩

structure ProcessFetch where
  entries : List Reg
  addr : Option Reg
  ta : Reg
  satp : Reg

def readProcess (mem : Dma) (ctx : Context) : Except Cause ProcessFetch :=
  match (pdt cfg ctx mem).walk (ctx.processId.setWidth 64) (ctx.satpMode - fscModePd8).toNat ctx.satpRoot with
  | .error cause => .error cause
  | .ok (entries, page) =>
    let addr := page ||| ((ctx.processId.setWidth 64 <<< 4) &&& pageOffsetMask)
    match pdtMemoryRead cfg ctx mem 0 addr, pdtMemoryRead cfg ctx mem 8 addr with
    | some ta, some satp =>
      if ta &&& entryValid = 0 then .error .pdtInvalid
      else if !validateProcessCtx cfg { ctx with ta := ta, satp := satp } then .error .pdtMisconfigured
      else .ok ⟨entries, some addr, ta, satp⟩
    | _, _ => .error .pdtLoadFault

def fetchProcess (mem : Dma) (ctx : Context) : Except Cause ProcessFetch :=
  if ctx.tc &&& tcPdtv = 0 then
    if ctx.processId ≠ 0 then .error .ttypeBlocked
    else if atpModeSv57 < ctx.satpMode then .error .ddtInvalid
    else .ok ⟨[], none, ctx.ta, ctx.satp⟩
  else if ctx.processId = 0 ∧ ctx.tc &&& tcDpe = 0 then .ok ⟨[], none, ctx.ta, 0⟩
  else if ctx.satpMode = atpModeBare then .ok ⟨[], none, ctx.ta, ctx.satp⟩
  else if fscModePd20 < ctx.satpMode then .error .pdtMisconfigured
  else readProcess cfg mem ctx

def bareContext (devid : BitVec 24) (processId : BitVec 20) : Context :=
  ⟨devid, processId, if cfg.enableAts then tcV ||| tcEnAts else tcV, 0, 0, 0, 0, 0, 0⟩

def ddtDepth : Option Nat :=
  let mode := getField cfg.ddtp ddtpMode
  if mode = ddtpMode1lvl then some 0
  else if mode = ddtpMode2lvl then some 1
  else if mode = ddtpMode3lvl then some 2
  else none

structure Fetched where
  ctx : Context
  device : Option DeviceFetch
  process : Option ProcessFetch

def ctxFetch (mem : Dma) (devid : BitVec 24) (processId : BitVec 20) : Except Cause Fetched :=
  if getField cfg.ddtp ddtpMode = ddtpModeOff then .error .dmaDisabled
  else if getField cfg.ddtp ddtpMode = ddtpModeBare then .ok ⟨bareContext cfg devid processId, none, none⟩
  else
    match ddtDepth cfg with
    | none => .error .ddtMisconfigured
    | some depth =>
      match fetchDevice cfg mem depth devid with
      | .error cause => .error cause
      | .ok device =>
        let ctx := device.dc.context devid processId
        match fetchProcess cfg mem ctx with
        | .error cause => .error cause
        | .ok process => .ok ⟨{ ctx with ta := process.ta, satp := process.satp }, some device, some process⟩

end

theorem ppnPhys_page {ppn : Reg} : ppnPhys ppn &&& pageOffsetMask = 0 := by
  apply eq_of_getLsbD_eq
  intro i hb
  have hl : pageOffsetMask.getLsbD i = decide (i < 12) := by
    revert i
    decide
  simp only [ppnPhys, pageBits, getLsbD_and, hl]
  by_cases ho : i < 12 <;> simp [ho]

theorem offset_toNat (w : Reg) : (w &&& pageOffsetMask).toNat = w.toNat % 4096 := by
  exact Nat.and_two_pow_sub_one_eq_mod w.toNat 12

namespace Directory
variable {dir : Directory} {id id' : Reg}

def index (dir : Directory) (id : Reg) (level : Nat) : Reg := ((id >>> dir.split level) <<< 3) &&& pageOffsetMask

def DistinctPages (load : Reg → Option Reg) (entries : List Reg) : Prop :=
  ∀ first ∈ entries, ∀ second ∈ entries, ∀ de de', load first = some de → load second = some de' →
    entryPage de = entryPage de' → first = second

variable {depth : Nat} {es : List Reg}

theorem walk_succ {pa lf : Reg} (hw : dir.walk id (depth + 1) pa = .ok (es, lf)) :
    ∃ de rest, dir.load (dir.entryAddr id depth pa) = some de ∧ dir.walk id depth (entryPage de) = .ok (rest, lf) ∧
      es = dir.entryAddr id depth pa :: rest := by
  rw [walk] at hw
  split at hw
  · cases hw
  · rename_i de hl
    split at hw
    · cases hw
    · split at hw
      · cases hw
      · rename_i rest _ hb
        cases hw
        exact ⟨de, rest, hl, hb, rfl⟩

theorem walk_inj {pa p' lf : Reg} {es' : List Reg} (walks : dir.walk id depth pa = .ok (es, lf))
    (hw : dir.walk id' depth p' = .ok (es', lf)) (aligned : pa &&& pageOffsetMask = 0)
    (ha : p' &&& pageOffsetMask = 0) (hd : DistinctPages dir.load (es ++ es')) :
    pa = p' ∧ ∀ level < depth, dir.index id level = dir.index id' level := by
  induction depth generalizing pa p' es es' with
  | zero =>
    cases walks
    cases hw
    exact ⟨rfl, nofun⟩
  | succ depth ih =>
    obtain ⟨de, r, loads, hb, rfl⟩ := walk_succ walks
    obtain ⟨de', r', hl, hb', rfl⟩ := walk_succ hw
    have hl2 : DistinctPages dir.load (r ++ r') :=
      fun first member second hm => hd first (by simp at member ⊢; grind) second (by simp at hm ⊢; grind)
    obtain ⟨hs3, hs⟩ := ih hb hb' ppnPhys_page ppnPhys_page hl2
    have same := hd _ (by simp) _ (by simp) de de' loads hl hs3
    obtain ⟨hs4, hs2⟩ := or_split_inj aligned ha same
    refine ⟨hs4, fun level hb => ?_⟩
    obtain rfl | deeper : level = depth ∨ level < depth := by omega
    · exact hs2
    · exact hs level deeper

theorem walk_congr (page : Reg) (hs : ∀ l < depth, dir.index id l = dir.index id' l) :
    dir.walk id depth page = dir.walk id' depth page := by
  induction depth generalizing page with
  | zero => rfl
  | succ depth ih =>
    have he : dir.entryAddr id depth page = dir.entryAddr id' depth page :=
      congrArg (page ||| ·) (hs depth (Nat.lt_add_one depth))
    simp only [walk, he]
    have hb (page : Reg) : dir.walk id depth page = dir.walk id' depth page :=
      ih page fun l bound => hs l (by omega)
    simp only [hb]

theorem walk_aligned {pa lf : Reg} (hw : dir.walk id depth pa = .ok (es, lf)) (ha : pa &&& pageOffsetMask = 0) :
    lf &&& pageOffsetMask = 0 := by
  induction depth generalizing pa es with
  | zero =>
    cases hw
    exact ha
  | succ depth ih =>
    obtain ⟨de, rest, -, hb, -⟩ := walk_succ hw
    exact ih hb ppnPhys_page

theorem index_toNat {l : Nat} : (dir.index id l).toNat = id.toNat / 2 ^ dir.split l % 512 * 8 := by
  rw [index, offset_toNat, toNat_shiftLeft, toNat_ushiftRight]
  omega

end Directory

open Directory Fetched
variable {cfg : Config} {mem : Dma} {depth : Nat} {devid devid' : BitVec 24} {device d : DeviceFetch}

theorem fetchDevice_ok (fetched : fetchDevice cfg mem depth devid = .ok device) :
    devid.toNat < 2 ^ devidBits cfg depth ∧
      ∃ pa, (ddt cfg mem).walk (devid.setWidth 64) depth cfg.ddtRoot = .ok (device.entries, pa) ∧
        device.addr = pa ||| ((devid.setWidth 64 * cfg.dcLen) &&& pageOffsetMask) := by
  unfold fetchDevice at fetched
  split at fetched
  · cases fetched
  · split at fetched
    · cases fetched
    · rename_i e pa hw
      dsimp only at fetched
      split at fetched
      · cases fetched
      · split at fetched
        · cases fetched
        · split at fetched <;> cases fetched
          exact ⟨by omega, pa, hw, rfl⟩

theorem devid_bits_cover {first second : Nat} (hs : depth ≤ 2) (narrow : first < 2 ^ devidBits cfg depth)
    (hn : second < 2 ^ devidBits cfg depth) (width : first < 2 ^ 24) (hw : second < 2 ^ 24)
    (ho : first * cfg.dcLen.toNat % 4096 = second * cfg.dcLen.toNat % 4096)
    (hi : ∀ l < depth, first / 2 ^ (l * 9 + 6 + cfg.dcFmt) % 512 = second / 2 ^ (l * 9 + 6 + cfg.dcFmt) % 512) :
    first = second := by
  have levels : depth = 0 ∨ depth = 1 ∨ depth = 2 := by omega
  cases hf : cfg.enableMsi <;> simp only [devidBits, Config.dcFmt, Config.dcLen, hf] at narrow hn ho hi
  all_goals
    rcases levels with rfl | rfl | rfl
    · simp at narrow hn ho
      omega
    · have hl := hi 0 (by decide)
      simp at narrow hn ho hl
      omega
    · have hl := hi 0 (by decide)
      have hu := hi 1 (by decide)
      simp at ho hl hu
      omega

theorem device_addr_inj (hs2 : depth ≤ 2) (fetched : fetchDevice cfg mem depth devid = .ok device)
    (hf : fetchDevice cfg mem depth devid' = .ok d)
    (hd : DistinctPages mem.ldq (device.entries ++ d.entries)) (hs3 : device.addr = d.addr) : devid = devid' := by
  obtain ⟨narrow, page, walks, place⟩ := fetchDevice_ok fetched
  obtain ⟨hn, p', hw, ha⟩ := fetchDevice_ok hf
  rw [place, ha] at hs3
  have hr : cfg.ddtRoot &&& pageOffsetMask = 0 := ppnPhys_page
  obtain ⟨rfl, hs⟩ := or_split_inj (walk_aligned walks hr) (walk_aligned hw hr) hs3
  obtain ⟨-, same⟩ := walk_inj walks hw hr hr hd
  have ho := congrArg BitVec.toNat hs
  have short : cfg.dcLen.toNat ≤ 64 := by
    unfold Config.dcLen
    split <;> decide
  have hp (id : BitVec 24) : (id.setWidth 64 * cfg.dcLen).toNat = id.toNat * cfg.dcLen.toNat := by
    have bound : id.toNat * cfg.dcLen.toNat ≤ 2 ^ 24 * 64 := Nat.mul_le_mul (Nat.le_of_lt id.isLt) short
    rw [toNat_mul, toNat_setWidth_of_le (by decide), Nat.mod_eq_of_lt (by omega)]
  rw [offset_toNat, offset_toNat, hp, hp] at ho
  apply eq_of_toNat_eq
  apply devid_bits_cover hs2 narrow hn devid.isLt devid'.isLt ho
  intro l hb
  have bits := congrArg BitVec.toNat (same l hb)
  rw [index_toNat, index_toNat, toNat_setWidth_of_le (by decide)] at bits
  exact Nat.eq_of_mul_eq_mul_right (by decide) bits

namespace Context
variable (ctx : Context)

structure ReadsProcess : Prop where
  pdtv : ctx.tc &&& tcPdtv ≠ 0
  named : ctx.processId ≠ 0 ∨ ctx.tc &&& tcDpe ≠ 0
  directory : ctx.satpMode ≠ atpModeBare

def processIdBits : Nat :=
  if ctx.satpMode = fscModePd8 then 8 else if ctx.satpMode = fscModePd17 then 17 else 20

end Context

variable {ctx : Context} {processId : BitVec 20} {process p : ProcessFetch}

theorem readProcess_ok (fetched : readProcess cfg mem ctx = .ok process) :
    ∃ pa, (pdt cfg ctx mem).walk (ctx.processId.setWidth 64) (ctx.satpMode - fscModePd8).toNat ctx.satpRoot =
      .ok (process.entries, pa) ∧
      process.addr = some (pa ||| ((ctx.processId.setWidth 64 <<< 4) &&& pageOffsetMask)) := by
  unfold readProcess at fetched
  split at fetched
  · cases fetched
  · rename_i e pa h
    dsimp only at fetched
    split at fetched
    · split at fetched
      · cases fetched
      · split at fetched <;> cases fetched
        exact ⟨pa, h, rfl⟩
    · cases fetched

theorem fetchProcess_ok (fetched : fetchProcess cfg mem ctx = .ok process) : process.addr = none ∧ ¬ ctx.ReadsProcess ∨
    ctx.ReadsProcess ∧ ctx.satpMode ≤ fscModePd20 ∧ readProcess cfg mem ctx = .ok process := by
  unfold fetchProcess at fetched
  split at fetched
  · rename_i hs
    split at fetched
    · cases fetched
    · split at fetched <;> cases fetched
      exact .inl ⟨rfl, fun hr => hr.pdtv hs⟩
  · rename_i hp
    split at fetched
    · rename_i hu
      cases fetched
      exact .inl ⟨rfl, fun hr => hr.named.elim (· hu.1) (· hu.2)⟩
    · rename_i hn
      split at fetched
      · rename_i hb
        cases fetched
        exact .inl ⟨rfl, fun hr => hr.directory hb⟩
      · rename_i hd
        split at fetched
        · cases fetched
        · rename_i hk
          exact .inr ⟨⟨hp, Decidable.not_and_iff_not_or_not.mp hn, hd⟩, BitVec.not_lt.mp hk, fetched⟩

theorem process_bits_cover {first second : Nat} (hd : ctx.satpMode ≠ atpModeBare)
    (hk : ctx.satpMode ≤ fscModePd20) (width : first < 2 ^ 20) (hw : second < 2 ^ 20) :
    (first * 16 % 4096 = second * 16 % 4096 ∧ ∀ l < (ctx.satpMode - fscModePd8).toNat,
      first / 2 ^ (l * 9 + 8) % 512 = second / 2 ^ (l * 9 + 8) % 512) ↔
      first % 2 ^ ctx.processIdBits = second % 2 ^ ctx.processIdBits := by
  have modes : ctx.satpMode = fscModePd8 ∨ ctx.satpMode = fscModePd17 ∨ ctx.satpMode = fscModePd20 := by
    have bound : ctx.satpMode.toNat ≤ 3 := hk
    have hn : ctx.satpMode.toNat ≠ 0 := fun hz => hd (eq_of_toNat_eq hz)
    have hc : ctx.satpMode.toNat = 1 ∨ ctx.satpMode.toNat = 2 ∨ ctx.satpMode.toNat = 3 := by omega
    exact hc.imp eq_of_toNat_eq (Or.imp eq_of_toNat_eq eq_of_toNat_eq)
  rcases modes with hm | hm | hm
  · have depth : (ctx.satpMode - fscModePd8).toNat = 0 := by rw [hm]; rfl
    have hb : ctx.processIdBits = 8 := by rw [Context.processIdBits, if_pos hm]
    rw [depth, hb]
    constructor
    · omega
    · intro hs
      exact ⟨by omega, nofun⟩
  · have depth : (ctx.satpMode - fscModePd8).toNat = 1 := by rw [hm]; rfl
    have hb : ctx.processIdBits = 17 := by
      rw [Context.processIdBits, hm]
      rfl
    rw [depth, hb]
    constructor
    · rintro ⟨hl, hi⟩
      have middle := hi 0 (by decide)
      omega
    · intro hs
      refine ⟨by omega, fun l below => ?_⟩
      obtain rfl : l = 0 := by omega
      omega
  · have depth : (ctx.satpMode - fscModePd8).toNat = 2 := by rw [hm]; rfl
    have hb : ctx.processIdBits = 20 := by
      rw [Context.processIdBits, hm]
      rfl
    rw [depth, hb]
    constructor
    · rintro ⟨hl, hi⟩
      have middle := hi 0 (by decide)
      have hu := hi 1 (by decide)
      omega
    · intro hs
      have he : first = second := by omega
      simp [he]

theorem process_addr_iff (hd : ctx.satpMode ≠ atpModeBare) (hk : ctx.satpMode ≤ fscModePd20)
    (fetched : readProcess cfg mem ctx = .ok process)
    (hf : readProcess cfg mem { ctx with processId := processId } = .ok p)
    (distinct : DistinctPages (pdtMemoryRead cfg ctx mem 0) (process.entries ++ p.entries)) :
    process.addr = p.addr ↔ ctx.processId.toNat % 2 ^ ctx.processIdBits = processId.toNat % 2 ^ ctx.processIdBits := by
  obtain ⟨page, walks, place⟩ := readProcess_ok fetched
  obtain ⟨p', hw, ha⟩ := readProcess_ok hf
  -- the directory and its root do not depend on the process id
  replace hw : (pdt cfg ctx mem).walk (processId.setWidth 64) (ctx.satpMode - fscModePd8).toNat ctx.satpRoot =
      .ok (p.entries, p') := hw
  have hr : ctx.satpRoot &&& pageOffsetMask = 0 := ppnPhys_page
  have wide (id : BitVec 20) : (id.setWidth 64).toNat = id.toNat := toNat_setWidth_of_le (by decide)
  have ho (id : BitVec 20) : ((id.setWidth 64 <<< 4) &&& pageOffsetMask).toNat = id.toNat * 16 % 4096 := by
    rw [offset_toNat, toNat_shiftLeft, wide]
    omega
  have hi (id : BitVec 20) (level : Nat) :
      ((pdt cfg ctx mem).index (id.setWidth 64) level).toNat = id.toNat / 2 ^ (level * 9 + 8) % 512 * 8 := by
    rw [index_toNat, wide]
    rfl
  rw [← process_bits_cover hd hk ctx.processId.isLt processId.isLt, place, ha, Option.some_inj]
  constructor
  · intro hs3
    obtain ⟨rfl, hs⟩ := or_split_inj (walk_aligned walks hr) (walk_aligned hw hr) hs3
    obtain ⟨-, same⟩ := walk_inj walks hw hr hr distinct
    have low := congrArg BitVec.toNat hs
    rw [ho, ho] at low
    refine ⟨low, fun level hb => ?_⟩
    have bits := congrArg BitVec.toNat (same level hb)
    rw [hi, hi] at bits
    exact Nat.eq_of_mul_eq_mul_right (by decide) bits
  · rintro ⟨low, hl⟩
    have same : ∀ level < (ctx.satpMode - fscModePd8).toNat, (pdt cfg ctx mem).index (ctx.processId.setWidth 64) level =
        (pdt cfg ctx mem).index (processId.setWidth 64) level := by
      intro level hb
      apply eq_of_toNat_eq
      rw [hi, hi, hl level hb]
    have hs2 := walk_congr ctx.satpRoot same
    have hs : (ctx.processId.setWidth 64 <<< 4) &&& pageOffsetMask =
        (processId.setWidth 64 <<< 4) &&& pageOffsetMask := by
      apply eq_of_toNat_eq
      rw [ho, ho, low]
    rw [walks, hw, Except.ok.injEq, Prod.mk.injEq] at hs2
    rw [hs2.2, hs]

namespace Fetched
variable (fetched : Fetched)

def dcAddr : Option Reg := fetched.device.map (·.addr)
def pcAddr : Option Reg := fetched.process.bind (·.addr)
def ddtEntries : List Reg := (fetched.device.map (·.entries)).getD []
def pdtEntries : List Reg := (fetched.process.map (·.entries)).getD []

end Fetched

def ReadApart (first second : Option Reg) : Prop :=
  ∀ addr addr', first = some addr → second = some addr' → addr ≠ addr'

structure Isolated (devid devid' : BitVec 24) (processId processId' : BitVec 20) (first second : Fetched) : Prop where
  device : devid ≠ devid' → ReadApart first.dcAddr second.dcAddr
  process : devid = devid' → processId ≠ processId' → ReadApart first.pcAddr second.pcAddr

def deviceContext (cfg : Config) (mem : Dma) (devid : BitVec 24) (processId : BitVec 20) : Option Context :=
  (ddtDepth cfg).bind fun depth =>
    (fetchDevice cfg mem depth devid).toOption.map fun device => device.dc.context devid processId

/-- Two process ids of a device that both select a process context differ in the bits that the
  process directory looks at. -/
def ProcessIdsApart (cfg : Config) (mem : Dma) (devid : BitVec 24) (processId processId' : BitVec 20) : Prop :=
  ∀ ctx ctx', deviceContext cfg mem devid processId = some ctx → deviceContext cfg mem devid processId' = some ctx' →
    ctx.ReadsProcess → ctx'.ReadsProcess →
    processId.toNat % 2 ^ ctx.processIdBits ≠ processId'.toNat % 2 ^ ctx.processIdBits

theorem ctxFetch_ok {f : Fetched} {processId : BitVec 20} (fetched : ctxFetch cfg mem devid processId = .ok f) :
    f.device = none ∧ f.process = none ∧ ddtDepth cfg = none ∨
      ∃ depth device process, ddtDepth cfg = some depth ∧ fetchDevice cfg mem depth devid = .ok device ∧
        fetchProcess cfg mem (device.dc.context devid processId) = .ok process ∧
        f = ⟨{ device.dc.context devid processId with ta := process.ta, satp := process.satp }, some device,
          some process⟩ := by
  unfold ctxFetch at fetched
  split at fetched
  · cases fetched
  · split at fetched
    · rename_i hb
      cases fetched
      refine .inl ⟨rfl, rfl, ?_⟩
      rw [ddtDepth, hb]
      rfl
    · split at fetched
      · cases fetched
      · rename_i depth hc
        split at fetched
        · cases fetched
        · rename_i device found
          dsimp only at fetched
          split at fetched
          · cases fetched
          · rename_i process hf
            cases fetched
            exact .inr ⟨depth, device, process, hc, found, hf, rfl⟩

theorem ddtDepth_le {depth : Nat} (h : ddtDepth cfg = some depth) : depth ≤ 2 := by
  unfold ddtDepth at h
  grind

variable {first second : Fetched} {processId' : BitVec 20}

theorem devices_read_apart (fetched : ctxFetch cfg mem devid processId = .ok first)
    (hf2 : ctxFetch cfg mem devid' processId' = .ok second)
    (hd : DistinctPages mem.ldq (first.ddtEntries ++ second.ddtEntries)) (differ : devid ≠ devid') :
    ReadApart first.dcAddr second.dcAddr := by
  intro addr a' reads hr hs
  obtain ⟨hn, -⟩ | ⟨depth, device, process, code, found, -, rfl⟩ := ctxFetch_ok fetched
  · rw [dcAddr, hn] at reads
    cases reads
  obtain ⟨hn, -⟩ | ⟨d', d, p, hc, hf, -, rfl⟩ := ctxFetch_ok hf2
  · rw [dcAddr, hn] at hr
    cases hr
  rw [code] at hc
  cases hc
  cases reads
  cases hr
  exact differ (device_addr_inj (ddtDepth_le code) found hf hd hs)

theorem processes_read_apart_iff (fetched : ctxFetch cfg mem devid processId = .ok first)
    (hf4 : ctxFetch cfg mem devid processId' = .ok second)
    (distinct : DistinctPages (pdtMemoryRead cfg first.ctx mem 0) (first.pdtEntries ++ second.pdtEntries)) :
    ReadApart first.pcAddr second.pcAddr ↔ ProcessIdsApart cfg mem devid processId processId' := by
  obtain ⟨-, hn, hb⟩ | ⟨depth, device, process, hc, found, hf3, rfl⟩ :=
    ctxFetch_ok fetched
  · simp [ReadApart, pcAddr, hn, ProcessIdsApart, deviceContext, hb]
  obtain ⟨-, -, hb⟩ | ⟨d', d, p, hc', hf, hf2, rfl⟩ :=
    ctxFetch_ok hf4
  · rw [hc] at hb
    cases hb
  rw [hc] at hc'
  cases hc'
  rw [found] at hf
  cases hf
  have context (processId : BitVec 20) :
      deviceContext cfg mem devid processId = some (device.dc.context devid processId) := by
    rw [deviceContext, hc, Option.bind_some, found]
    rfl
  have apart : ProcessIdsApart cfg mem devid processId processId' ↔
      ((device.dc.context devid processId).ReadsProcess → (device.dc.context devid processId').ReadsProcess →
          processId.toNat % 2 ^ (device.dc.context devid processId).processIdBits ≠
            processId'.toNat % 2 ^ (device.dc.context devid processId).processIdBits) := by
    simp [ProcessIdsApart, context]
  rw [apart]
  obtain ⟨hu, hs⟩ | ⟨hr, hk, hr2⟩ := fetchProcess_ok hf3
  · exact ⟨fun _ hr => absurd hr hs, fun _ a _ hm => by simp [pcAddr, hu] at hm⟩
  obtain ⟨hu, hs⟩ | ⟨hr', -, reads⟩ := fetchProcess_ok hf2
  · exact ⟨fun _ _ hr => absurd hr hs, fun _ _ a _ hm => by simp [pcAddr, hu] at hm⟩
  have same := process_addr_iff hr.directory hk hr2 reads distinct
  obtain ⟨page, -, a⟩ := readProcess_ok hr2
  obtain ⟨p', -, ha⟩ := readProcess_ok reads
  rw [a, ha, Option.some_inj] at same
  simp only [ReadApart, pcAddr, Option.bind_some, a, ha, Option.some.injEq]
  constructor
  · intro hd _ _ he
    exact hd _ _ rfl rfl (same.mpr he)
  · rintro hd _ _ rfl rfl he
    exact hd hr hr' (same.mp he)

/-- Contexts fetched for two requests are read from addresses of their own exactly when the process
  ids of one device differ in the bits that its process directory looks at. -/
theorem ctxFetch_isolated_iff (cfg : Config) (mem : Dma) (devid devid' : BitVec 24) (processId processId' : BitVec 20)
    (first second : Fetched) (fetched : ctxFetch cfg mem devid processId = .ok first)
    (fetched' : ctxFetch cfg mem devid' processId' = .ok second)
    (ddtDistinct : DistinctPages mem.ldq (first.ddtEntries ++ second.ddtEntries)) (pdtDistinct : devid = devid' →
      DistinctPages (pdtMemoryRead cfg first.ctx mem 0) (first.pdtEntries ++ second.pdtEntries)) :
    Isolated devid devid' processId processId' first second ↔
      (devid = devid' → processId ≠ processId' → ProcessIdsApart cfg mem devid processId processId') := by
  have device := devices_read_apart fetched fetched' ddtDistinct
  constructor
  · intro isolated same distinct
    subst same
    exact (processes_read_apart_iff fetched fetched' (pdtDistinct rfl)).mp (isolated.process rfl distinct)
  · intro apart
    refine ⟨device, fun same distinct => ?_⟩
    subst same
    exact (processes_read_apart_iff fetched fetched' (pdtDistinct rfl)).mpr (apart rfl distinct)

def pd8Config : Config := ⟨capPd8, 0, 0x402, false, false⟩

def pd8Memory : Dma where
  ldl := fun _ => none
  ldq := fun addr => some <|
    if addr = 0x1000 then tcV ||| tcPdtv
    else if addr = 0x1018 then 0x1000000000000002
    else if addr = 0x2010 ∨ addr = 0x2020 then 1
    else 0

def pd8Fetched (processId : BitVec 20) (addr : Reg) : Fetched where
  ctx := ⟨0, processId, tcV ||| tcPdtv, 1, 0, 0, 0, 0, 0⟩
  device := some ⟨[], 0x1000, ⟨tcV ||| tcPdtv, 0, 0, 0x1000000000000002, 0, 0, 0⟩⟩
  process := some ⟨[], some addr, 1, 0⟩

theorem short_process_ids_isolated : ctxFetch pd8Config pd8Memory 0 1 = .ok (pd8Fetched 1 0x2010) ∧
    ctxFetch pd8Config pd8Memory 0 2 = .ok (pd8Fetched 2 0x2020) ∧
    Isolated 0 0 1 2 (pd8Fetched 1 0x2010) (pd8Fetched 2 0x2020) := by
  refine ⟨rfl, rfl, (ctxFetch_isolated_iff pd8Config pd8Memory 0 0 1 2 _ _ rfl rfl nofun fun _ => nofun).mpr ?_⟩
  rintro - - ctx ctx' ⟨⟩ ⟨⟩ - -
  decide

theorem wide_process_id_truncated : ctxFetch pd8Config pd8Memory 0 1 = .ok (pd8Fetched 1 0x2010) ∧
    ctxFetch pd8Config pd8Memory 0 257 = .ok (pd8Fetched 257 0x2010) ∧
    DistinctPages pd8Memory.ldq ((pd8Fetched 1 0x2010).ddtEntries ++ (pd8Fetched 257 0x2010).ddtEntries) ∧
    DistinctPages (pdtMemoryRead pd8Config (pd8Fetched 1 0x2010).ctx pd8Memory 0)
      ((pd8Fetched 1 0x2010).pdtEntries ++ (pd8Fetched 257 0x2010).pdtEntries) ∧
    ¬ Isolated 0 0 1 257 (pd8Fetched 1 0x2010) (pd8Fetched 257 0x2010) := by
  refine ⟨rfl, rfl, nofun, nofun, fun isolated => ?_⟩
  exact isolated.process rfl (by decide) 0x2010 0x2010 rfl rfl rfl

end RiscvEmulators.Qemu.Iommu
