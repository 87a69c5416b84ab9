import Riscv.Qemu.Iommu.Ioatc
import Riscv.Transition.Run

namespace RiscvEmulators.Qemu.Iommu
open Word Transition Context

def cmdOpcodeFunc : Reg := 0x3ff
def cmdIotinvalAv : Reg := 0x400
def cmdIotinvalPscid : Reg := 0xfffff000
def cmdIotinvalPscv : Reg := 0x100000000
def cmdIotinvalGv : Reg := 0x200000000
def cmdIotinvalGscid : Reg := 0x0ffff00000000000
def cmdIofenceAv : Reg := 0x400
def cmdIofenceData : Reg := 0xffffffff00000000
def cmdIodirPid : Reg := 0xfffff000
def cmdIodirDv : Reg := 0x200000000
def cmdIodirDid : Reg := 0xffffff0000000000

structure Command where
  dword0 : Reg
  dword1 : Reg

namespace Command
variable (cmd : Command)

def opcode : Reg := getField cmd.dword0 cmdOpcodeFunc
def gv : Bool := cmd.dword0 &&& cmdIotinvalGv != 0
def av : Bool := cmd.dword0 &&& cmdIotinvalAv != 0
def pscv : Bool := cmd.dword0 &&& cmdIotinvalPscv != 0
def gscid : BitVec 16 := (getField cmd.dword0 cmdIotinvalGscid).setWidth 16
def pscid : BitVec 20 := (getField cmd.dword0 cmdIotinvalPscid).setWidth 20
def iova : Reg := (cmd.dword1 <<< 2) &&& ~~~pageOffsetMask
def dv : Bool := cmd.dword0 &&& cmdIodirDv != 0
def did : BitVec 24 := (getField cmd.dword0 cmdIodirDid).setWidth 24
def pid : BitVec 20 := (getField cmd.dword0 cmdIodirPid).setWidth 20

end Command

def cmdCode (func op : Reg) : Reg := func <<< 7 ||| op

def cmdIotinvalVma : Reg := cmdCode 0 1
def cmdIotinvalGvma : Reg := cmdCode 1 1
def cmdIofenceC : Reg := cmdCode 0 2
def cmdIodirInvalDdt : Reg := cmdCode 0 3
def cmdIodirInvalPdt : Reg := cmdCode 1 3
def cmdAtsInval : Reg := cmdCode 0 4
def cmdAtsPrgr : Reg := cmdCode 1 4

def ctxInvalBy (devid processId : Bool) (ctxCache : List Context) (did : BitVec 24) (pid : BitVec 20) : List Context :=
  ctxCache.map fun ctx =>
    if ctx.tc &&& tcV ≠ 0 ∧ (devid → ctx.devid = did) ∧ (processId → ctx.processId = pid) then
      { ctx with tc := ctx.tc &&& ~~~tcV }
    else ctx

def ctxInvalAll := ctxInvalBy false false
def ctxInvalDevid := ctxInvalBy true false
def ctxInvalDevidProcid := ctxInvalBy true true

def iotinvalGvma (s : Device) (cmd : Command) : Device :=
  let func := if cmd.gv then if cmd.av then iotInvalGscidIova else iotInvalGscid else iotInvalAll
  let first := iotInval s.iotCache func cmd.gscid cmd.pscid cmd.iova .gStageOnly
  { s with iotCache := iotInval first func cmd.gscid cmd.pscid cmd.iova .nested }

def iotinvalVma (s : Device) (cmd : Command) : Device :=
  if cmd.gv then
    let func :=
      if cmd.pscv then if cmd.av then iotInvalGscidPscidIova else iotInvalGscidPscid
      else if cmd.av then iotInvalGscidIova else iotInvalGscid
    { s with iotCache := iotInval s.iotCache func cmd.gscid cmd.pscid cmd.iova .nested }
  else
    let func :=
      if cmd.pscv then if cmd.av then iotInvalPscidIova else iotInvalPscid
      else if cmd.av then iotInvalIova else iotInvalAll
    { s with iotCache := iotInval s.iotCache func cmd.gscid cmd.pscid cmd.iova .singleStage }

inductive CmdFault where
  | illegal
  | memory

/-- The target address space over whatever state it has: loads, and `dma_memory_write` of four bytes, which tells whether
  the transaction succeeded and may change the state also when it fails. -/
structure TargetSpace (Memory : Type) where
  ldq : Memory → Reg → Option Reg
  stl : Memory → Reg → BitVec 32 → Memory × Bool

section
variable {Memory : Type} (space : TargetSpace Memory)

def iofence (mem : Memory) (notify : Bool) (addr : Reg) (data : BitVec 32) : Memory × Bool :=
  if notify then space.stl mem addr data else (mem, true)

def invalCommand (s : Device) (cmd : Command) : Except CmdFault Device :=
  if cmd.opcode = cmdIotinvalGvma then
    if cmd.pscv then .error .illegal else .ok (iotinvalGvma s cmd)
  else if cmd.opcode = cmdIotinvalVma then .ok (iotinvalVma s cmd)
  else if cmd.opcode = cmdIodirInvalDdt then
    .ok { s with ctxCache := (if cmd.dv then ctxInvalDevid else ctxInvalAll) s.ctxCache cmd.did 0 }
  else if cmd.opcode = cmdIodirInvalPdt then
    if cmd.dv then .ok { s with ctxCache := ctxInvalDevidProcid s.ctxCache cmd.did cmd.pid } else .error .illegal
  else if cmd.opcode = cmdAtsInval ∨ cmd.opcode = cmdAtsPrgr then
    if s.cfg.enableAts then .ok s else .error .illegal
  else .error .illegal

def executeCommand (mem : Memory) (s : Device) (cmd : Command) : Memory × Except CmdFault Device :=
  if cmd.opcode = cmdIofenceC then
    let written := iofence space mem (cmd.dword0 &&& cmdIofenceAv != 0) (cmd.dword1 <<< 2)
      ((getField cmd.dword0 cmdIofenceData).setWidth 32)
    (written.1, if written.2 then .ok s else .error .memory)
  else (mem, invalCommand s cmd)

def commandStep (mem : Memory) (s : Device) (cmd : Command) : Device :=
  match (executeCommand space mem s cmd).2 with
  | .ok later => later
  | .error _ => s

end

structure CommandQueue where
  cqon : Bool
  cmdIll : Bool
  cqmf : Bool
  entries : Nat
  head : Nat
  tail : Nat
  addr : Reg
  deriving DecidableEq

namespace CommandQueue
variable {Memory : Type} (space : TargetSpace Memory) (q : CommandQueue)

def readCommand (mem : Memory) (head : Nat) : Option Command :=
  let addr := q.addr + BitVec.ofNat 64 (head * 16)
  match space.ldq mem addr, space.ldq mem (addr + 8) with
  | some dword0, some dword1 => some ⟨dword0, dword1⟩
  | _, _ => none

structure Progress (Memory : Type) where
  device : Device
  mem : Memory
  head : Nat

def turn (now : Progress Memory) : Turn (Progress Memory) (Progress Memory × Option CmdFault) :=
  if q.tail % q.entries = now.head then .done (now, none)
  else
    match q.readCommand space now.mem now.head with
    | none => .done (now, some .memory)
    | some cmd =>
      let executed := executeCommand space now.mem now.device cmd
      match executed.2 with
      | .error fault => .done ({ now with mem := executed.1 }, some fault)
      | .ok device => .next ⟨device, executed.1, (now.head + 1) % q.entries⟩

def processCqTail (mem : Memory) (s : Device) : Device × Memory × CommandQueue :=
  if !q.cqon || q.cmdIll || q.cqmf then (s, mem, q)
  else
    match iterate (q.turn space) q.entries ⟨s, mem, q.head % q.entries⟩ with
    | none => (s, mem, q)
    | some (last, none) => (last.device, last.mem, { q with head := last.head })
    | some (last, some .illegal) => (last.device, last.mem, { q with head := last.head, cmdIll := true })
    | some (last, some .memory) => (last.device, last.mem, { q with head := last.head, cqmf := true })

/-- Reads and executes the commands at the given places of the queue, each from the memory that the ones before it
  leave, up to the first that fails. The place of that one is given, or else where the places end. -/
def executeAll (stop : Nat) : Device → Memory → List Nat → Progress Memory × Option CmdFault
  | s, mem, [] => (⟨s, mem, stop⟩, none)
  | s, mem, place :: places =>
    match q.readCommand space mem place with
    | none => (⟨s, mem, place⟩, some .memory)
    | some cmd =>
      match executeCommand space mem s cmd with
      | (mem, .error fault) => (⟨s, mem, place⟩, some fault)
      | (mem, .ok s) => executeAll stop s mem places

def count (head : Nat) : Nat :=
  if head ≤ q.tail % q.entries then q.tail % q.entries - head else q.tail % q.entries + q.entries - head

def places (head : Nat) : List Nat := (List.range (q.count head)).map fun i => (head + i) % q.entries

def halted (head : Nat) : Option CmdFault → CommandQueue
  | none => { q with head := head }
  | some .illegal => { q with head := head, cmdIll := true }
  | some .memory => { q with head := head, cqmf := true }

variable {q}

theorem places_head {head : Nat} (hh : head < q.entries) (hw : q.tail % q.entries ≠ head) :
    q.places head = head :: q.places ((head + 1) % q.entries) := by
  have ht := Nat.mod_lt q.tail (Nat.zero_lt_of_lt hh)
  have hc : q.count head = q.count ((head + 1) % q.entries) + 1 := by
    unfold count
    by_cases hl : head + 1 = q.entries
    · rw [hl, Nat.mod_self, if_pos (Nat.zero_le _)]
      split <;> omega
    · rw [Nat.mod_eq_of_lt (show head + 1 < q.entries by omega)]
      split <;> split <;> omega
  rw [places, hc, List.range_succ_eq_map, List.map_cons, List.map_map, Nat.add_zero, Nat.mod_eq_of_lt hh]
  congr 1
  apply List.map_congr_left
  intro i _
  rw [Function.comp_apply, Nat.mod_add_mod]
  congr 1
  omega

theorem places_short {head : Nat} (hh : head < q.entries) : (q.places head).length < q.entries := by
  have ht := Nat.mod_lt q.tail (Nat.zero_lt_of_lt hh)
  rw [places, List.length_map, List.length_range, count]
  split <;> omega

theorem iterate_executeAll {head fuel : Nat} (s : Device) (mem : Memory) (inside : head < q.entries)
    (enough : (q.places head).length < fuel) : iterate (q.turn space) fuel ⟨s, mem, head⟩ =
      some (q.executeAll space (q.tail % q.entries) s mem (q.places head)) := by
  induction fuel generalizing s mem head with
  | zero => omega
  | succ fuel ih =>
    rw [iterate, turn]
    dsimp only
    by_cases last : q.tail % q.entries = head
    · have empty : q.places head = [] := by
        simp [places, count, last]
      rw [if_pos last, empty, executeAll, last]
    · rw [places_head inside last] at enough ⊢
      rw [if_neg last, executeAll]
      cases q.readCommand space mem head with
      | none => rfl
      | some cmd =>
        dsimp only
        obtain ⟨written, fault | device⟩ := executeCommand space mem s cmd
        · rfl
        · exact ih device written (Nat.mod_lt _ (Nat.zero_lt_of_lt inside)) (Nat.lt_of_succ_lt_succ enough)

/-- The commands from the head to the tail are executed in their order, each once and each as it is in memory then, up to
  the first that fails: the head stays there, and the queue stops with the flag of the fault. -/
theorem command_queue_drained (space : TargetSpace Memory) (mem : Memory) (q : CommandQueue) (s : Device)
    (inside : q.head < q.entries) (on : q.cqon ∧ q.cmdIll = false ∧ q.cqmf = false) :
    let (last, fault) := q.executeAll space (q.tail % q.entries) s mem (q.places q.head)
    q.processCqTail space mem s = (last.device, last.mem, q.halted last.head fault) := by
  have drained := iterate_executeAll space s mem inside (places_short inside)
  have runs : ¬(!q.cqon || q.cmdIll || q.cqmf) := by
    simpa [and_assoc] using on
  unfold processCqTail
  rw [if_neg runs, Nat.mod_eq_of_lt inside, drained]
  generalize q.executeAll space (q.tail % q.entries) s mem (q.places q.head) = result
  obtain ⟨last, - | - | -⟩ := result <;> rfl

def wordSpace : TargetSpace (Reg → Reg) where
  ldq words addr := some (words addr)
  stl words addr data :=
    (fun other => if other = addr then words addr >>> 32 <<< 32 ||| data.setWidth 64 else words other, true)

theorem overwritten_command_stops :
    let words : Reg → Reg := fun addr => if addr = 0x30 then 0x3ff00000402 else if addr = 0 then 2 else 0
    (processCqTail wordSpace ⟨true, false, false, 4, 3, 1, 0⟩ words idleDevice).2.2 =
      ⟨true, true, false, 4, 0, 1, 0⟩ := by
  intro words
  rw [command_queue_drained wordSpace words ⟨true, false, false, 4, 3, 1, 0⟩ idleDevice (by decide) (by decide)]
  decide +kernel

end CommandQueue

open CommandQueue (wordSpace)

variable {Memory : Type} (space : TargetSpace Memory)

inductive CacheEvent (Memory : Type) where
  | translate (request : Request)
  | command (mem : Memory) (cmd : Command)
  | reset

def resetDevice (cfg : Config) (iotLimit : Nat) : Device := ⟨cfg, iotLimit, [], []⟩

def cacheStep (s : Device) : CacheEvent Memory → Device
  | .translate request => (translate s request).1
  | .command mem cmd => commandStep space mem s cmd
  | .reset => resetDevice s.cfg s.iotLimit

structure IotEntry.Recorded (iot : IotEntry) : Prop where
  tag : iot.tag = iot.origin.ctx.getTranstag
  gscid : iot.gscid = iot.origin.ctx.gscid
  pscid : iot.pscid = iot.origin.ctx.pscid
  iova : iot.iova = iovaPage iot.origin.iova
  first : ∀ leaf ∈ iot.origin.used, leaf.stage = .s → iot.origin.ctx.enS ∧ leaf.addr = iot.origin.iova
  second : ∀ leaf ∈ iot.origin.used, leaf.stage = .g → iot.origin.ctx.enG

def CacheRecorded (s : Device) : Prop := ∀ iot ∈ s.iotCache, iot.Recorded

theorem entry_recorded {cfg : Config} {rq : Request} {f : Translation} : (rq.entry cfg f).Recorded where
  tag := rfl
  gscid := rfl
  pscid := rfl
  iova := rfl
  first := fun _ h => (usedLeaves_staged h).1
  second := fun _ h => (usedLeaves_staged h).2

theorem translate_recorded {s : Device} {rq : Request} (hr : CacheRecorded s) : CacheRecorded (translate s rq).1 := by
  intro iot hm
  obtain ho | ⟨f, -, -, rfl⟩ := mem_translate hm
  · exact hr iot ho
  · exact entry_recorded

variable {f : IotEntry → IotKey → Bool}

theorem mem_iotInval {i : List IotEntry} {g : BitVec 16}
    {p : BitVec 20} {io : Reg} {t : TransTag} {iot : IotEntry} :
    iot ∈ iotInval i f g p io t ↔ ∃ old ∈ i,
      (if f old ⟨t, g, p, iovaPage io⟩ then { old with perm := .none } else old) = iot := by
  simp [iotInval]

theorem iotInval_recorded {i : List IotEntry} {g : BitVec 16}
    {p : BitVec 20} {io : Reg} {t : TransTag} (hr : ∀ iot ∈ i, iot.Recorded) :
    ∀ iot ∈ iotInval i f g p io t, iot.Recorded := by
  intro iot hm
  obtain ⟨old, hp, rfl⟩ := mem_iotInval.mp hm
  obtain ⟨ht, g, p, io, hf, hs⟩ := hr old hp
  split
  · exact ⟨ht, g, p, io, hf, hs⟩
  · exact ⟨ht, g, p, io, hf, hs⟩

theorem iotinvalVma_eq (s : Device) (cmd : Command) :
    (iotinvalVma s cmd).iotCache = iotInval s.iotCache (matchBy cmd.gv cmd.pscv cmd.av) cmd.gscid cmd.pscid cmd.iova
      (if cmd.gv then .nested else .singleStage) := by
  unfold iotinvalVma
  cases cmd.gv <;> cases cmd.pscv <;> cases cmd.av <;> rfl

theorem iotinvalGvma_eq (s : Device) (cmd : Command) : (iotinvalGvma s cmd).iotCache =
    iotInval (iotInval s.iotCache (matchBy cmd.gv false (cmd.gv && cmd.av)) cmd.gscid cmd.pscid cmd.iova .gStageOnly)
      (matchBy cmd.gv false (cmd.gv && cmd.av)) cmd.gscid cmd.pscid cmd.iova .nested := by
  unfold iotinvalGvma
  cases cmd.gv <;> cases cmd.av <;> rfl

variable {space} {mem : Memory}

theorem executeCommand_cases {s later : Device} {cmd : Command}
    (executed : (executeCommand space mem s cmd).2 = .ok later) :
    cmd.opcode = cmdIotinvalGvma ∧ later = iotinvalGvma s cmd ∨
      cmd.opcode = cmdIotinvalVma ∧ later = iotinvalVma s cmd ∨
      cmd.opcode ≠ cmdIotinvalGvma ∧ cmd.opcode ≠ cmdIotinvalVma ∧ later.iotCache = s.iotCache := by
  unfold executeCommand at executed
  by_cases fence : cmd.opcode = cmdIofenceC
  · rw [if_pos fence] at executed
    dsimp only at executed
    refine .inr (.inr ⟨by rw [fence]; decide, by rw [fence]; decide, ?_⟩)
    split at executed <;> cases executed
    rfl
  · rw [if_neg fence, invalCommand] at executed
    by_cases gvma : cmd.opcode = cmdIotinvalGvma
    · rw [if_pos gvma] at executed
      split at executed <;> cases executed
      exact .inl ⟨gvma, rfl⟩
    · rw [if_neg gvma] at executed
      by_cases vma : cmd.opcode = cmdIotinvalVma
      · rw [if_pos vma] at executed
        cases executed
        exact .inr (.inl ⟨vma, rfl⟩)
      · grind

theorem commandStep_recorded {s : Device} {cmd : Command} (hr : CacheRecorded s)
    : CacheRecorded (commandStep space mem s cmd) := by
  unfold commandStep
  split
  · rename_i l he
    obtain ⟨-, rfl⟩ | ⟨-, rfl⟩ | ⟨-, -, hs⟩ := executeCommand_cases he
    · exact iotInval_recorded (iotInval_recorded hr)
    · rw [CacheRecorded, iotinvalVma_eq]
      exact iotInval_recorded hr
    · rwa [CacheRecorded, hs]
  · exact hr

theorem cacheStep_recorded {s : Device} {e : CacheEvent Memory} (hr : CacheRecorded s) :
    CacheRecorded (cacheStep space s e) := by
  cases e with
  | translate rq => exact translate_recorded hr
  | command mem cmd => exact commandStep_recorded hr
  | reset => exact fun iot hm => nomatch hm

theorem run_recorded (cfg : Config) (i : Nat) (es : List (CacheEvent Memory)) :
    CacheRecorded (run (cacheStep space) (resetDevice cfg i) es) :=
  run_invariant (fun _ _ => cacheStep_recorded) nofun

theorem iotInval_keys (i : List IotEntry) (g : BitVec 16) (p : BitVec 20) (io : Reg) (t : TransTag) :
    (iotInval i f g p io t).map IotEntry.key = i.map IotEntry.key := by
  rw [iotInval, List.map_map]
  apply List.map_congr_left
  intro iot _
  rw [Function.comp_apply]
  split <;> rfl

theorem executeCommand_keys {s l : Device} {cmd : Command} (he : (executeCommand space mem s cmd).2 = .ok l) :
    l.iotLimit = s.iotLimit ∧ l.iotCache.map IotEntry.key = s.iotCache.map IotEntry.key := by
  constructor
  · unfold executeCommand invalCommand iotinvalGvma iotinvalVma at he
    grind
  · obtain ⟨-, rfl⟩ | ⟨-, rfl⟩ | ⟨-, -, hs⟩ := executeCommand_cases he
    · rw [iotinvalGvma_eq, iotInval_keys, iotInval_keys]
    · rw [iotinvalVma_eq, iotInval_keys]
    · rw [hs]

/-- The cache has at most one entry for a key, and no more entries than its limit. -/
structure CacheFits (limit : Nat) (s : Device) : Prop where
  fixed : s.iotLimit = limit
  few : (s.iotCache.map IotEntry.key).length ≤ limit
  distinct : (s.iotCache.map IotEntry.key).Nodup

theorem CacheFits.update {limit : Nat} {s : Device} (h : CacheFits limit s) (iot : IotEntry) :
    CacheFits limit { s with iotCache := iotUpdate s.iotLimit s.iotCache iot } := by
  have hl : s.iotCache.length ≤ limit := by
    simpa using h.few
  unfold iotUpdate
  rw [h.fixed]
  split
  · exact ⟨rfl, h.few, h.distinct⟩
  split
  · exact ⟨rfl, by simp [hashTableAdd]; omega, by simp [hashTableAdd]⟩
  · have hf := s.iotCache.length_filter_le fun old => decide (old.key ≠ iot.key)
    refine ⟨rfl, by simp only [hashTableAdd, List.length_map, List.length_cons]; omega, List.nodup_cons.mpr ⟨?_, ?_⟩⟩
    · simp
    · exact h.distinct.sublist (List.filter_sublist.map _)

theorem CacheFits.translate {limit : Nat} {s : Device} (h : CacheFits limit s) (rq : Request) :
    CacheFits limit (translate s rq).1 := by
  unfold Iommu.translate
  split
  · exact h
  dsimp only
  split
  · exact h
  split
  · exact h
  split
  · exact h.update _
  · exact h

/-- However translations, commands and resets follow each other, the cache never grows over its limit. -/
theorem ioatc_fits (space : TargetSpace Memory) (cfg : Config) (limit : Nat) (events : List (CacheEvent Memory)) :
    CacheFits limit (run (cacheStep space) (resetDevice cfg limit) events) := by
  apply run_invariant _ ⟨rfl, Nat.zero_le _, List.nodup_nil⟩
  intro device event fits
  cases event with
  | translate rq => exact fits.translate rq
  | reset => exact ⟨fits.fixed, Nat.zero_le _, List.nodup_nil⟩
  | command mem cmd =>
    rw [cacheStep, commandStep]
    split
    · rename_i later done
      obtain ⟨limit', keys⟩ := executeCommand_keys done
      exact ⟨limit'.trans fits.fixed, keys ▸ fits.few, keys ▸ fits.distinct⟩
    · exact fits

namespace Command
variable (cmd : Command) (iot : IotEntry)

structure VmaScope : Prop where
  space : if cmd.gv then iot.origin.ctx.enG ∧ iot.origin.ctx.gscid = cmd.gscid else iot.origin.ctx.enG = false
  process : cmd.pscv → iot.origin.ctx.pscid = cmd.pscid
  leaf : ∃ leaf ∈ iot.origin.used, leaf.stage = .s ∧ (cmd.av → leaf.maps cmd.iova)

structure GvmaScope : Prop where
  guest : cmd.gv → iot.origin.ctx.gscid = cmd.gscid
  leaf : ∃ leaf ∈ iot.origin.used, leaf.stage = .g ∧ (cmd.gv → cmd.av → leaf.maps cmd.iova)

def InScope : Prop :=
  cmd.opcode = cmdIotinvalVma ∧ cmd.VmaScope iot ∨ cmd.opcode = cmdIotinvalGvma ∧ cmd.GvmaScope iot

def byAddress : Bool := cmd.av && (cmd.opcode = cmdIotinvalVma || cmd.gv)

def hits : Bool :=
  if cmd.opcode = cmdIotinvalVma then
    matchBy cmd.gv cmd.pscv cmd.av iot
      ⟨if cmd.gv then .nested else .singleStage, cmd.gscid, cmd.pscid, iovaPage cmd.iova⟩
  else
    matchBy cmd.gv false (cmd.gv && cmd.av) iot ⟨.gStageOnly, cmd.gscid, cmd.pscid, iovaPage cmd.iova⟩ ||
      matchBy cmd.gv false (cmd.gv && cmd.av) iot ⟨.nested, cmd.gscid, cmd.pscid, iovaPage cmd.iova⟩

variable {cmd iot}

theorem vma_hits_iff (hr : iot.Recorded) (scope : cmd.VmaScope iot) : matchBy cmd.gv cmd.pscv cmd.av iot
    ⟨if cmd.gv then .nested else .singleStage, cmd.gscid, cmd.pscid, iovaPage cmd.iova⟩ ↔
    (cmd.av → iot.iova = iovaPage cmd.iova) := by
  obtain ⟨lf, hu, stage, -⟩ := scope.leaf
  obtain ⟨hf, -⟩ := hr.first lf hu stage
  have hp := scope.process
  have space := scope.space
  have ht : iot.tag = if cmd.gv then .nested else .singleStage := by
    rw [hr.tag, getTranstag]
    simp only [enS, enG] at hf space
    grind
  have hg : cmd.gv → iot.gscid = cmd.gscid := by
    intro hs
    rw [if_pos hs] at space
    rw [hr.gscid, space.2]
  have process : cmd.pscv → iot.pscid = cmd.pscid := fun hs => hr.pscid.trans (hp hs)
  simp only [matchBy]
  grind

theorem gvma_hits_iff (hr : iot.Recorded) (scope : cmd.GvmaScope iot) :
    (matchBy cmd.gv false (cmd.gv && cmd.av) iot ⟨.gStageOnly, cmd.gscid, cmd.pscid, iovaPage cmd.iova⟩ ||
      matchBy cmd.gv false (cmd.gv && cmd.av) iot ⟨.nested, cmd.gscid, cmd.pscid, iovaPage cmd.iova⟩) ↔
      ((cmd.gv && cmd.av) → iot.iova = iovaPage cmd.iova) := by
  obtain ⟨lf, hu, stage, -⟩ := scope.leaf
  have second := hr.second lf hu stage
  have ht : iot.tag = .gStageOnly ∨ iot.tag = .nested := by
    rw [hr.tag, getTranstag]
    simp only [enG] at second
    grind
  have hg : cmd.gv → iot.gscid = cmd.gscid := fun hs => hr.gscid.trans (scope.guest hs)
  simp only [matchBy]
  grind

theorem hits_iff (hr : iot.Recorded) (hs : cmd.InScope iot) :
    cmd.hits iot ↔ (cmd.byAddress → iot.iova = iovaPage cmd.iova) := by
  have hd : cmdIotinvalGvma ≠ cmdIotinvalVma := by decide
  rw [hits, byAddress]
  obtain ⟨hv, hs⟩ | ⟨hg, hs⟩ := hs
  · rw [if_pos hv, vma_hits_iff hr hs]
    simp [hv]
  · rw [if_neg (hg ▸ hd), gvma_hits_iff hr hs]
    simp [hg, hd, and_comm]

theorem executed_cache {s l : Device}
    (hi : cmd.opcode = cmdIotinvalVma ∨ cmd.opcode = cmdIotinvalGvma)
    (he : (executeCommand space mem s cmd).2 = .ok l) :
    l.iotCache = s.iotCache.map fun iot => if cmd.hits iot then { iot with perm := .none } else iot := by
  have hd : cmdIotinvalGvma ≠ cmdIotinvalVma := by decide
  obtain ⟨hg, rfl⟩ | ⟨hv, rfl⟩ | ⟨hn, other, -⟩ := executeCommand_cases he
  · rw [iotinvalGvma_eq, iotInval, iotInval, List.map_map]
    refine List.map_congr_left fun iot _ => ?_
    simp only [hits]
    grind
  · rw [iotinvalVma_eq, iotInval]
    simp [hits, if_pos hv]
  · exact absurd hi (by simp [hn, other])

end Command

def Invalidated (s : Device) (cmd : Command) : Prop :=
  ∀ iot ∈ s.iotCache, cmd.InScope iot → iot.perm = .none

/-- Every usable entry in the scope of a command that selects by address sits on the page of that address. -/
def ScopeOnPage (s : Device) (cmd : Command) : Prop :=
  cmd.byAddress → ∀ iot ∈ s.iotCache, cmd.InScope iot → iot.perm ≠ .none → iot.iova = iovaPage cmd.iova

/-- After any run, an IOTINVAL command leaves no usable entry in its scope exactly when the entries
  in its scope that it selects by address all sit on the page of that address. -/
theorem iotinval_complete_iff (space : TargetSpace Memory) (cfg : Config) (iotLimit : Nat)
    (events : List (CacheEvent Memory)) (mem : Memory) (cmd : Command) (later : Device)
    (inval : cmd.opcode = cmdIotinvalVma ∨ cmd.opcode = cmdIotinvalGvma)
    (executed : (executeCommand space mem (run (cacheStep space) (resetDevice cfg iotLimit) events) cmd).2 = .ok later) :
    Invalidated later cmd ↔ ScopeOnPage (run (cacheStep space) (resetDevice cfg iotLimit) events) cmd := by
  have recorded := @run_recorded _ space cfg iotLimit events
  rw [Invalidated, Command.executed_cache inval executed]
  constructor
  · intro complete byAddress iot member inScope usable
    have gone := complete _ (List.mem_map_of_mem member)
    by_cases hit : cmd.hits iot
    · exact (Command.hits_iff (recorded iot member) inScope).mp hit byAddress
    · rw [if_neg hit] at gone
      exact absurd (gone inScope) usable
  · intro onPage iot member inScope
    obtain ⟨old, present, rfl⟩ := List.mem_map.mp member
    by_cases hit : cmd.hits old
    · rw [if_pos hit]
    · rw [if_neg hit] at inScope ⊢
      have missed := mt (Command.hits_iff (recorded old present) inScope).mpr hit
      exact Classical.byContradiction fun usable =>
        missed fun byAddress => onPage byAddress old present inScope usable

def vmaByAddress (addr : Reg) : Command := ⟨cmdIotinvalVma ||| cmdIotinvalAv, addr >>> 2⟩

def gigapageDevice : Device :=
  run (cacheStep wordSpace) (resetDevice idleDevice.cfg 16) [.translate (gigapageRead dirtyLeaf)]

def gigapageEntry : IotEntry :=
  (gigapageRead dirtyLeaf).entry idleDevice.cfg ⟨0x40001000, 0x3fffffff, .rw, false⟩

theorem same_page_invalidated :
    ∃ later, (executeCommand wordSpace (fun _ => 0) gigapageDevice (vmaByAddress 0x1000)).2 = .ok later ∧
      Invalidated later (vmaByAddress 0x1000) := by
  have cached : gigapageDevice.iotCache = [gigapageEntry] := rfl
  refine ⟨_, rfl, (iotinval_complete_iff wordSpace idleDevice.cfg 16 _ (fun _ => 0) (vmaByAddress 0x1000) _
    (.inl (by decide)) rfl).mpr ?_⟩
  intro _ iot member _ _
  have same : iot = gigapageEntry := List.mem_singleton.mp (cached ▸ member)
  rw [same]
  decide

theorem superpage_entry_survives :
    ∃ later, (executeCommand wordSpace (fun _ => 0) gigapageDevice (vmaByAddress 0)).2 = .ok later ∧
      ¬ Invalidated later (vmaByAddress 0) := by
  have used : gigapageEntry.origin.used = [⟨.s, 0x1000, 30, dirtyLeaf, .only .read, false⟩] := rfl
  have inScope : (vmaByAddress 0).InScope gigapageEntry :=
    .inl ⟨by decide, by decide, by decide, _, used ▸ List.mem_singleton_self _, rfl, by decide⟩
  refine ⟨_, rfl, fun complete => ?_⟩
  have gone := complete gigapageEntry (List.mem_singleton_self gigapageEntry) inScope
  exact absurd gone (by decide)

end RiscvEmulators.Qemu.Iommu
