import Riscv.Qemu.Mmu.Grant

namespace RiscvEmulators.Qemu.Mmu
open Word Cpu Pmp Transition

def shiftCount (count : Int) : Nat := (count % 64).toNat

/-- The variables that `goto restart` keeps, next to the count of levels that are left. -/
structure Cursor where
  left : Nat
  ptshift : Int
  base : W64
  sstackPage : Bool

inductive Phase where
  | fetch (cursor : Cursor)
  | swap (cursor : Cursor) (pteAddr pte : W64) (prot : BitVec 8)
  | done (result : Except Failure (W64 × BitVec 8))

structure Call where
  hw : Config
  env : Env
  idx : MmuIdx
  firstStage : Bool
  twoStage : Bool
  probe : Bool
  addr : W64
  type : AccessType

namespace Call
variable (call : Call)

def view : View := Mmu.view call.hw call.env call.idx call.firstStage call.twoStage call.probe

def levels : Nat :=
  match call.view.plan call.hw call.addr with
  | .paged levels _ _ => levels
  | _ => 0

def ptidxbits : Nat :=
  match call.view.plan call.hw call.addr with
  | .paged _ ptidxbits _ => ptidxbits
  | _ => 0

def ptesize : Nat :=
  match call.view.plan call.hw call.addr with
  | .paged _ _ ptesize => ptesize
  | _ => 0

def top : Int := (call.levels - 1) * call.ptidxbits

def root : Cursor := ⟨call.levels, call.top, call.view.base, false⟩

def start : Phase :=
  match call.view.plan call.hw call.addr with
  | .refused => .done (.error .fail)
  | .direct => .done (.ok (call.addr, pageRwx))
  | .unreachable => .done (.error .unreachable)
  | .paged .. => .fetch call.root

def index (cursor : Cursor) : W64 :=
  let bits := if cursor.left = call.levels then call.ptidxbits + call.view.widened else call.ptidxbits
  (call.addr >>> shiftCount (12 + cursor.ptshift)) &&& (((1 : W64) <<< bits) - 1)

def finish (cursor : Cursor) (pte : W64) (prot : BitVec 8) : Phase :=
  match call.view.leafPhysical call.hw (shiftCount cursor.ptshift) (cursor.left == 1) call.addr pte with
  | none => .done (.error .fail)
  | some physical => .done (.ok (physical, dropWrite call.type pte prot))

def leaf (memory : PageMemory) (cursor : Cursor) (pteAddr pte : W64) : Phase :=
  match call.view.leafProt (shiftCount cursor.ptshift) pte with
  | none => .done (.error .fail)
  | some (prot, sstackPage) =>
    let cursor := { cursor with sstackPage := cursor.sstackPage || sstackPage }
    if prot &&& call.type.prot = 0 then .done (.error (if cursor.sstackPage then .pmpFail else .fail))
    else if pte ||| accessBits call.type = pte then call.finish cursor pte prot
    else if call.view.adue ∧ memory.ram pteAddr then .swap cursor pteAddr pte prot
    else .done (.error .fail)

def fetch (memory : PageMemory) (table : W64) (cursor : Cursor) : Phase :=
  let pteAddr := table + call.index cursor * BitVec.ofNat 64 call.ptesize
  match pteAt call.hw call.env.pmp call.view memory pteAddr with
  | .error failure => .done (.error failure)
  | .ok pte => match call.view.pteKind call.hw pte with
    | .refused => .done (.error .fail)
    | .table =>
      if cursor.left = 1 then .done (.error .fail)
      else .fetch { cursor with
        left := cursor.left - 1
        ptshift := cursor.ptshift - call.ptidxbits
        base := call.view.ppn pte <<< 12 }
    | .leaf => call.leaf memory cursor pteAddr pte

def unchanged (memory : PageMemory) (pteAddr pte : W64) : Bool :=
  (memory.word pteAddr).map call.view.pteOf == some pte

/-- `goto restart`: the level counter starts again, the base and the shift do not. -/
def restart (cursor : Cursor) : Cursor := { cursor with left := call.levels }

def move (memory : PageMemory) : Phase → Phase × PageMemory
  | .fetch cursor => (call.fetch memory cursor.base cursor, memory)
  | .swap cursor pteAddr pte prot =>
    if call.unchanged memory pteAddr pte then
      (call.finish cursor (pte ||| accessBits call.type) prot, memory.setBits pteAddr (accessBits call.type))
    else (.fetch (call.restart cursor), memory)
  | .done result => (.done result, memory)

def guestCall (base : W64) : Call :=
  { call with idx := .user, firstStage := false, twoStage := true, probe := false, addr := base, type := .dataLoad }

def nested : Bool := call.twoStage && call.firstStage

end Call

structure Walker where
  memory : PageMemory
  guest : Option Phase
  phase : Phase

def guestFailure (failure : Failure) : Failure := if failure = .unreachable then .unreachable else .gStageFail

namespace Call
variable (call : Call)

def moveGuest (w : Walker) (cursor : Cursor) : Walker :=
  match w.guest with
  | none => { w with guest := some (call.guestCall cursor.base).start }
  | some (.done (.ok found)) => { w with guest := none, phase := call.fetch w.memory found.1 cursor }
  | some (.done (.error failure)) => { w with guest := none, phase := .done (.error (guestFailure failure)) }
  | some guest =>
    let moved := (call.guestCall cursor.base).move w.memory guest
    { w with memory := moved.2, guest := some moved.1 }

def advance (w : Walker) : Walker :=
  match w.phase with
  | .fetch cursor =>
    if call.nested then call.moveGuest w cursor else { w with phase := call.fetch w.memory cursor.base cursor }
  | phase =>
    let moved := call.move w.memory phase
    { w with memory := moved.2, phase := moved.1 }

end Call

def Walker.atSwap (w : Walker) : Bool :=
  match w.phase, w.guest with
  | .swap .., _ => true
  | _, some (.swap ..) => true
  | _, _ => false

inductive RaceEvent where
  | advance
  | interfere (memory : PageMemory)

namespace Call
variable (call : Call)

def take (w : Walker) : RaceEvent → Walker
  | .advance => call.advance w
  | .interfere memory => if w.atSwap then { w with memory := memory } else w

def begin (memory : PageMemory) : Walker := ⟨memory, none, call.start⟩

def Returns (w : Walker) (result : Except Failure (W64 × BitVec 8)) : Prop :=
  ∃ events, (run call.take w events).phase = .done result

/-- The compare-and-swap that comes next fails on this memory. It is that of the call's own walk, or that of the
  second-stage walk for the address of a table. -/
def Loses (w : Walker) (memory : PageMemory) : Prop :=
  match w.phase, w.guest with
  | .swap _ pteAddr pte _, _ => call.unchanged memory pteAddr pte = false
  | .fetch outer, some (.swap _ pteAddr pte _) => (call.guestCall outer.base).unchanged memory pteAddr pte = false
  | _, _ => False

/-- Whatever is returned after a lost compare-and-swap is what a call on the changed memory returns. -/
def RestartsFresh (w : Walker) : Prop :=
  ∀ memory, call.Loses w memory →
    ∀ result, call.Returns (call.advance { w with memory := memory }) result → call.Returns (call.begin memory) result

/-- A walk is in its root table, and a shadow stack page that it has seen makes no difference. -/
def InRoot (cursor : Cursor) : Prop :=
  cursor.ptshift = call.top ∧ (cursor.sstackPage → call.type = .dataLoad ∧ call.view.mxr)

/-- The walk that is about to swap is in its root table. So is the walk that waits for it. -/
def AtRoot (w : Walker) : Prop :=
  match w.phase, w.guest with
  | .swap cursor .., _ => call.InRoot cursor
  | .fetch outer, some (.swap cursor ..) => call.InRoot outer ∧ (call.guestCall outer.base).InRoot cursor
  | _, _ => True


end Call

section
variable {call : Call}

structure Cursor.Rooted (call : Call) (cursor : Cursor) : Prop where
  paged : 0 < call.ptidxbits
  below : cursor.ptshift ≤ call.top
  root : cursor.ptshift = call.top → cursor.base = call.view.base ∧ cursor.left = call.levels
  shadow : cursor.sstackPage → call.view.bcfien

def Phase.Rooted (call : Call) : Phase → Prop
  | .fetch cursor => cursor.Rooted call
  | .swap cursor _ _ _ => cursor.Rooted call
  | .done _ => True

theorem plan_paged {hw : Config} {v : View} {a : W64} {ls idx ptesize : Nat}
    (h : v.plan hw a = .paged ls idx ptesize) : v.vm = .paged ls idx ptesize := by
  unfold View.plan at h
  split at h
  · cases h
  split at h
  · cases h
  cases vm : v.vm with
  | bare => rw [vm] at h; cases h
  | unreachable => rw [vm] at h; cases h
  | paged l b s =>
    rw [vm] at h
    dsimp only at h
    split at h
    · cases h
      rfl
    · cases h

theorem start_rooted : call.start.Rooted call := by
  unfold Call.start
  cases hp : call.view.plan call.hw call.addr with
  | refused => exact True.intro
  | direct => exact True.intro
  | unreachable => exact True.intro
  | paged ls ptidxbits sz =>
    have hl := vm_paged (plan_paged hp)
    have hb : call.ptidxbits = ptidxbits := by rw [Call.ptidxbits, hp]
    refine ⟨?_, Int.le_refl _, fun _ => ⟨rfl, rfl⟩, nofun⟩
    rw [hb]
    exact Nat.pos_of_ne_zero fun hz => by simp [hz] at hl

theorem leafProt_eq_some {v : View} {p : Nat} {pte : W64} {pro : BitVec 8} {sp : Bool}
    (hg : v.leafProt p pte = some (pro, sp)) :
    ∃ rwx, v.leafRwx pte = some (rwx, sp) ∧ (pro = v.rwxProt rwx ∨ pro = v.rwxProt rwx &&& (pageRead ||| pageWrite)) := by
  unfold View.leafProt at hg
  split at hg
  · cases hg
  split at hg
  · cases hg
  cases hf : v.leafRwx pte with
  | none =>
    rw [hf] at hg
    cases hg
  | some pa =>
    obtain ⟨rwx, s⟩ := pa
    rw [hf] at hg
    dsimp only at hg
    split at hg
    · split at hg
      · cases hg
        exact ⟨rwx, rfl, .inl rfl⟩
      · split at hg
        · cases hg
          exact ⟨rwx, rfl, .inr rfl⟩
        · cases hg
    · split at hg
      · cases hg
        exact ⟨rwx, rfl, .inl rfl⟩
      · cases hg

theorem leafProt_shadow {v : View} {p : Nat} {pte : W64} {prot : BitVec 8} (found : v.leafProt p pte = some (prot, true)) :
    v.bcfien := by
  obtain ⟨rwx, shadow, -⟩ := leafProt_eq_some found
  unfold View.leafRwx at shadow
  dsimp only at shadow
  split at shadow
  · cases shadow
  split at shadow
  · split at shadow
    case isTrue enabled => exact enabled
    case isFalse => cases shadow
  split at shadow
  · cases shadow
  · cases shadow

theorem Cursor.Rooted.seen {cursor : Cursor} (rooted : cursor.Rooted call) {p : Nat} {pte : W64} {prot : BitVec 8}
    {sstackPage : Bool} (found : call.view.leafProt p pte = some (prot, sstackPage)) :
    Cursor.Rooted call { cursor with sstackPage := cursor.sstackPage || sstackPage } := by
  refine ⟨rooted.paged, rooted.below, rooted.root, ?_⟩
  intro seen
  rcases Bool.or_eq_true_iff.mp seen with before | now
  · exact rooted.shadow before
  · rw [now] at found
    exact leafProt_shadow found

theorem leaf_rooted {cursor : Cursor} (rooted : cursor.Rooted call) {memory : PageMemory} {pteAddr pte : W64} :
    (call.leaf memory cursor pteAddr pte).Rooted call := by
  unfold Call.leaf Call.finish
  split
  · exact True.intro
  case h_2 prot sstackPage found =>
    dsimp only
    split
    · exact True.intro
    split
    · split <;> exact True.intro
    split
    · exact rooted.seen found
    · exact True.intro

theorem fetch_rooted {cursor : Cursor} (hr : cursor.Rooted call) (mem : PageMemory) (t : W64) :
    (call.fetch mem t cursor).Rooted call := by
  unfold Call.fetch
  dsimp only
  split
  · exact True.intro
  split
  · exact True.intro
  · split
    · exact True.intro
    · have hb : cursor.ptshift - call.ptidxbits < call.top := by
        have := hr.paged
        have := hr.below
        omega
      exact ⟨hr.paged, Int.le_of_lt hb, fun ht => absurd ht (Int.ne_of_lt hb), hr.shadow⟩
  · exact leaf_rooted hr

theorem finish_done (c : Call) (cursor : Cursor) (pte : W64) (pr : BitVec 8) :
    ∃ result, c.finish cursor pte pr = .done result := by
  unfold Call.finish
  split
  · exact ⟨_, rfl⟩
  · exact ⟨_, rfl⟩

theorem move_rooted {phase : Phase} (rooted : phase.Rooted call) {memory : PageMemory} :
    (call.move memory phase).1.Rooted call := by
  cases phase with
  | fetch cursor => exact fetch_rooted rooted memory cursor.base
  | done result => exact True.intro
  | swap cursor pteAddr pte prot =>
    rw [Call.move]
    split
    · obtain ⟨result, ended⟩ := finish_done call cursor (pte ||| accessBits call.type) prot
      rw [ended]
      exact True.intro
    · exact ⟨rooted.paged, rooted.below, fun top => ⟨(rooted.root top).1, rfl⟩, rooted.shadow⟩

end

section
variable {c : Call} {w : Walker} {cursor : Cursor} {p pte : W64} {pr : BitVec 8}

theorem advance_fetch (phase : w.phase = .fetch cursor) (h : c.nested = false) :
    c.advance w = { w with phase := c.fetch w.memory cursor.base cursor } := by
  simp [Call.advance, phase, h]

theorem advance_guest (hp : w.phase = .fetch cursor) (hn : c.nested) : c.advance w = c.moveGuest w cursor := by
  simp [Call.advance, hp, hn]

theorem advance_lost (phase : w.phase = .swap cursor p pte pr) (h : c.unchanged w.memory p pte = false) :
    c.advance w = { w with phase := .fetch (c.restart cursor) } := by
  simp [Call.advance, phase, Call.move, h]

theorem advance_won (phase : w.phase = .swap cursor p pte pr) (h : c.unchanged w.memory p pte) : c.advance w = { w with
    memory := w.memory.setBits p (accessBits c.type)
    phase := c.finish cursor (pte ||| accessBits c.type) pr } := by
  simp [Call.advance, phase, Call.move, h]

theorem advance_done {r : Except Failure (W64 × BitVec 8)} (h : w.phase = .done r) : c.advance w = w := by
  cases w
  simp only at h
  simp [Call.advance, h, Call.move]

theorem run_done {result : Except Failure (W64 × BitVec 8)} (h : w.phase = .done result) (es : List RaceEvent) :
    (run c.take w es).phase = .done result := by
  induction es generalizing w with
  | nil => exact h
  | cons e es ih =>
    cases e with
    | advance =>
      rw [run_cons, Call.take, advance_done h]
      exact ih h
    | interfere mem =>
      rw [run_cons, Call.take]
      split
      · exact ih h
      · exact ih h

end

structure Walker.Steady (call : Call) (w : Walker) : Prop where
  rooted : w.phase.Rooted call
  alone : w.guest ≠ none → call.nested ∧ ∃ cursor, w.phase = .fetch cursor
  guest : ∀ cursor guest, w.phase = .fetch cursor → w.guest = some guest → guest.Rooted (call.guestCall cursor.base)

section
variable {call : Call} {w : Walker}

theorem Walker.Steady.guest_none (steady : w.Steady call)
    (own : call.nested = false ∨ ∀ cursor, w.phase ≠ .fetch cursor) : w.guest = none := by
  apply Decidable.byContradiction
  intro present
  obtain ⟨nested, cursor, waiting⟩ := steady.alone present
  rcases own with plain | other
  · rw [plain] at nested
    cases nested
  · exact other cursor waiting

theorem Walker.Steady.single {memory : PageMemory} {phase : Phase} (rooted : phase.Rooted call) :
    Walker.Steady call ⟨memory, none, phase⟩ :=
  ⟨rooted, fun present => absurd rfl present, nofun⟩

theorem moveGuest_steady {cursor : Cursor} (waiting : w.phase = .fetch cursor) (nested : call.nested)
    (steady : w.Steady call) : (call.moveGuest w cursor).Steady call := by
  have rooted : cursor.Rooted call := by
    have := steady.rooted
    rwa [waiting] at this
  have with_guest : ∀ memory guest, Phase.Rooted (call.guestCall cursor.base) guest →
      Walker.Steady call { w with memory := memory, guest := some guest } := by
    intro memory guest inner
    refine ⟨steady.rooted, fun _ => ⟨nested, cursor, waiting⟩, fun other _ same present => ?_⟩
    cases waiting.symm.trans same
    cases present
    exact inner
  unfold Call.moveGuest
  split
  · exact with_guest _ _ start_rooted
  · exact .single (fetch_rooted rooted _ _)
  · exact .single True.intro
  case h_4 guest _ _ present => exact with_guest _ _ (move_rooted (steady.guest cursor guest waiting present))

theorem advance_own (own : call.nested = false ∨ ∀ cursor, w.phase ≠ .fetch cursor) :
    call.advance w = { w with memory := (call.move w.memory w.phase).2, phase := (call.move w.memory w.phase).1 } := by
  cases phase : w.phase with
  | fetch cursor =>
    rcases own with plain | other
    · rw [advance_fetch phase plain]
      rfl
    · exact absurd phase (other cursor)
  | swap cursor pteAddr pte prot => simp [Call.advance, phase]
  | done result => simp [Call.advance, phase]

theorem advance_steady (steady : w.Steady call) : (call.advance w).Steady call := by
  by_cases waits : call.nested ∧ ∃ cursor, w.phase = .fetch cursor
  · obtain ⟨nested, cursor, waiting⟩ := waits
    rw [advance_guest waiting nested]
    exact moveGuest_steady waiting nested steady
  · have own : call.nested = false ∨ ∀ cursor, w.phase ≠ .fetch cursor := by
      cases nested : call.nested with
      | false => exact .inl rfl
      | true => exact .inr fun cursor waiting => waits ⟨nested, cursor, waiting⟩
    rw [advance_own own, steady.guest_none own]
    exact .single (move_rooted steady.rooted)

theorem take_steady (steady : w.Steady call) {event : RaceEvent} : (call.take w event).Steady call := by
  cases event with
  | advance => exact advance_steady steady
  | interfere memory =>
    rw [Call.take]
    split
    · exact ⟨steady.rooted, steady.alone, steady.guest⟩
    · exact steady

theorem reached_steady (memory : PageMemory) (events : List RaceEvent) :
    (run call.take (call.begin memory) events).Steady call := by
  have kept : ∀ w event, Walker.Steady call w → Walker.Steady call (call.take w event) :=
    fun _ _ steady => take_steady steady
  exact run_invariant kept (.single start_rooted)

end

section

def Phase.forget : Phase → Phase
  | .fetch cursor => .fetch { cursor with sstackPage := false }
  | .swap cursor pteAddr pte prot => .swap { cursor with sstackPage := false } pteAddr pte prot
  | .done result => .done result

def Walker.forget (w : Walker) : Walker := { w with phase := w.phase.forget }

variable {c : Call} (r : c.type = .dataLoad) (mxr : c.view.mxr)
variable {pte : W64} {result : Except Failure (W64 × BitVec 8)}

theorem rwx_read_or_exec (hn : pte &&& (pteR ||| pteW ||| pteX) ≠ 0) (hw : pte &&& (pteR ||| pteW ||| pteX) ≠ pteW) :
    pte &&& (pteR ||| pteW ||| pteX) &&& pteR ≠ 0 ∨ pte &&& (pteR ||| pteW ||| pteX) &&& pteX ≠ 0 := by
  have hb : ∀ bit, Within (pteR ||| pteW ||| pteX) bit → pte &&& (pteR ||| pteW ||| pteX) &&& bit = pte &&& bit := by
    intro bit within
    rw [BitVec.and_assoc, BitVec.and_comm _ bit, within.and_eq]
  rw [hb pteR (by decide), hb pteX (by decide)]
  apply Decidable.byContradiction
  intro neither
  obtain ⟨hn2, noExec⟩ : pte &&& pteR = 0 ∧ pte &&& pteX = 0 := by simpa using neither
  have hwr : pte &&& (pteR ||| pteW ||| pteX) = pte &&& pteW := by
    rw [BitVec.and_or_distrib_left, BitVec.and_or_distrib_left, hn2, noExec]
    simp
  rw [hwr] at hn hw
  have he := BitVec.and_twoPow pte 2
  split at he
  · exact hw he
  · exact hn he

include mxr in
theorem leafProt_reads {ptshift : Nat} {prot : BitVec 8} (kind : c.view.pteKind c.hw pte = .leaf)
    (granted : c.view.leafProt ptshift pte = some (prot, false)) : prot &&& AccessType.dataLoad.prot ≠ 0 := by
  obtain ⟨-, -, nonzero⟩ := (pteKind_leaf_iff c.hw pte).mp kind
  have readable : ∀ rwx, c.view.leafRwx pte = some (rwx, false) →
      c.view.rwxProt rwx &&& AccessType.dataLoad.prot ≠ 0 := by
    intro rwx found
    rw [rwxProt_read]
    unfold View.leafRwx at found
    dsimp only at found
    split at found
    · cases found
    split at found
    · split at found <;> cases found
    case isFalse writeOnly =>
      split at found
      · cases found
      · cases found
        rcases rwx_read_or_exec nonzero writeOnly with read | exec
        · exact .inl read
        · exact .inr ⟨exec, mxr⟩
  obtain ⟨rwx, found, same | masked⟩ := leafProt_eq_some granted
  · rw [same]
    exact readable rwx found
  · rw [masked]
    exact (and_prot_iff _ _ _).mpr ⟨readable rwx found, by decide⟩

include r mxr in
theorem leaf_forget {memory : PageMemory} {cursor : Cursor} {pteAddr : W64} (kind : c.view.pteKind c.hw pte = .leaf) :
    (c.leaf memory { cursor with sstackPage := false } pteAddr pte).forget =
      (c.leaf memory cursor pteAddr pte).forget := by
  unfold Call.leaf
  dsimp only
  cases granted : c.view.leafProt (shiftCount cursor.ptshift) pte with
  | none => rfl
  | some found =>
    obtain ⟨prot, sstackPage⟩ := found
    dsimp only
    by_cases refused : prot &&& c.type.prot = 0
    · have shadow : sstackPage := by
        cases sstackPage with
        | true => rfl
        | false =>
          rw [r] at refused
          exact absurd refused (leafProt_reads mxr kind granted)
      rw [if_pos refused, if_pos refused, shadow, Bool.or_true, Bool.or_true]
    · rw [if_neg refused, if_neg refused]
      split
      · rfl
      split
      · rfl
      · rfl

include r mxr in
theorem fetch_forget {memory : PageMemory} {table : W64} {cursor : Cursor} :
    (c.fetch memory table { cursor with sstackPage := false }).forget = (c.fetch memory table cursor).forget := by
  have index : c.index { cursor with sstackPage := false } = c.index cursor := rfl
  unfold Call.fetch
  dsimp only
  rw [index]
  cases read : pteAt c.hw c.env.pmp c.view memory
      (table + c.index cursor * BitVec.ofNat 64 c.ptesize) with
  | error failure => rfl
  | ok pte =>
    dsimp only
    cases kind : c.view.pteKind c.hw pte with
    | refused => rfl
    | table =>
      dsimp only
      split
      · rfl
      · rfl
    | leaf => exact leaf_forget r mxr kind

include r mxr in
theorem take_forget {w : Walker} {event : RaceEvent} : (c.take w.forget event).forget = (c.take w event).forget := by
  obtain ⟨memory, guest, phase⟩ := w
  cases phase with
  | done result =>
    cases event with
    | advance => rfl
    | interfere changed => rfl
  | swap cursor pteAddr pte prot =>
    cases event with
    | interfere changed => rfl
    | advance =>
      show (c.advance _).forget = (c.advance _).forget
      cases won : c.unchanged memory pteAddr pte with
      | false => rw [advance_lost rfl won, advance_lost rfl won]; rfl
      | true => rw [advance_won rfl won, advance_won rfl won]; rfl
  | fetch cursor =>
    cases event with
    | interfere changed => cases guest with
      | none => rfl
      | some guest => cases guest <;> rfl
    | advance =>
      show (c.advance _).forget = (c.advance _).forget
      cases nested : c.nested with
      | false =>
        rw [advance_fetch rfl nested, advance_fetch rfl nested]
        exact congrArg (Walker.mk memory guest) (fetch_forget r mxr)
      | true =>
        rw [advance_guest rfl nested, advance_guest rfl nested]
        cases guest with
        | none => rfl
        | some guest => cases guest with
          | fetch inner => rfl
          | swap inner pteAddr pte prot => rfl
          | done result => cases result with
            | error failure => rfl
            | ok found => exact congrArg (Walker.mk memory none) (fetch_forget r mxr)

include r mxr in
theorem run_forget {w w' : Walker} (same : w.forget = w'.forget) (events : List RaceEvent) :
    (run c.take w events).forget = (run c.take w' events).forget := by
  induction events generalizing w w' with
  | nil => exact same
  | cons event events ih =>
    apply ih
    rw [← take_forget r mxr, same, take_forget r mxr]

theorem forget_done {p : Phase} (h : p.forget = .done result) : p = .done result := by
  cases p with
  | done o => exact h
  | fetch cursor => cases h
  | swap cursor pa pte prot => cases h

include r mxr in
theorem returns_forget {w w' : Walker} (same : w.forget = w'.forget) (returns : c.Returns w result)
    : c.Returns w' result := by
  obtain ⟨events, ended⟩ := returns
  refine ⟨events, forget_done ?_⟩
  have phases := congrArg Walker.phase (run_forget r mxr same events)
  have left : (run c.take w events).phase.forget = .done result := by
    rw [ended]
    rfl
  exact phases.symm.trans left

end
end RiscvEmulators.Qemu.Mmu
