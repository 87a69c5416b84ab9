import Riscv.Rvvm.Mmu.Agreement

namespace RiscvEmulators.Rvvm
open Word Transition BitVec Option

def Event.Inner : Event → Prop
  | .fetch _ _ => False
  | .dispatch _ => False
  | _ => True

/-- What an instruction does to the hart, with what it or other harts meanwhile store to memory. -/
inductive Action where
  | hart (event : Event) (inner : event.Inner)
  | memory (host : Addr → BitVec 8)

section
variable (board : Board)

def act (vm : Vm) : Action → Vm
  | .hart event _ => step board vm event
  | .memory host => { vm with host := host }

/-- The dispatch loop. `wide` tells the RV64 interpreter from the RV32 one, whose variables have 32 bits. -/
structure Loop where
  vm : Vm
  pc : Addr
  wide : Bool
  insnPtr : Addr
  insnPage : Addr

def cutTo (wide : Bool) (addr : Addr) : Addr := if wide then addr else addr &&& 0xFFFFFFFF
def Loop.insnAddr (loop : Loop) : Addr := cutTo loop.wide loop.pc

def Loop.InWindow (loop : Loop) (addr : Addr) : Prop := cutTo loop.wide (addr - loop.insnPage) ≤ 0xFFC
instance (loop : Loop) (addr : Addr) : Decidable (loop.InWindow addr) := inferInstanceAs (Decidable (_ ≤ _))
def enterLoop (vm : Vm) (pc : Addr) : Loop := ⟨vm, pc, vm.rv64, 0, cutTo vm.rv64 (pc + 0x1000)⟩

/-- One turn of the loop: whether the first halfword opens a 4-byte instruction, what the instruction does,
  where it goes, and the interrupts pending should the loop be left. -/
structure Turn where
  long : Bool
  actions : List Action
  next : Addr
  pending : W64

def Loop.fetch (loop : Loop) (long : Bool) : Loop × Bool :=
  if loop.InWindow loop.insnAddr then (loop, true)
  else
    match fetchInsn board loop.vm loop.insnAddr long with
    | (vm, .served) =>
      let entry := vm.tlb (tlbSlot (vpnOf loop.pc))
      ({ loop with vm := vm, insnPtr := entry.ptr, insnPage := cutTo loop.wide (entry.e <<< pageShift) }, true)
    | failed => ({ loop with vm := settle board failed }, false)

def emulate (vm : Vm) (actions : List Action) : Vm := run (act board) vm actions

def turnLoop (loop : Loop) (turn : Turn) : Loop :=
  let fetched := (loop.fetch board turn.long).1
  let vm := if (loop.fetch board turn.long).2 then emulate board fetched.vm turn.actions else fetched.vm
  if (loop.fetch board turn.long).2 ∧ vm.running then { fetched with vm := vm, pc := turn.next }
  else enterLoop (handleIrqs board { vm with running := true, trap := false } turn.pending) turn.next

def Loop.WindowSafe (loop : Loop) : Prop :=
  loop.InWindow loop.insnAddr → served board loop.vm loop.insnAddr .exec = some (loop.insnPtr + loop.insnAddr)

def fetches (kind : Access) : Prop := kind = .exec

def Loop.Names (loop : Loop) (tag : Addr) : Prop :=
  tlbSlot tag = tlbSlot (vpnOf loop.insnAddr) ∧ vpnOf (cutTo loop.wide (tag <<< pageShift)) = tag

/-- Code is fetched from host memory; or the slot holds another page it may hold; or, when the slot holds
  the mark of an invalid entry, the next instruction is not on the page this mark happens to name. -/
def FetchCareful (loop : Loop) (turn : Turn) : Prop :=
  let tag := (loop.vm.entryOf loop.insnAddr).e
  EventCareful fetches board loop.vm (.fetch loop.insnAddr turn.long) ∧
    ((served board loop.vm loop.insnAddr .exec).isSome ∨ loop.Names tag ∨
        ¬cutTo loop.wide (cutTo loop.wide turn.next - cutTo loop.wide (tag <<< pageShift)) ≤ 0xFFC)

def Loop.Keeps (loop : Loop) (vm : Vm) : Event → Prop
  | .moveRegion bar _ => ∀ dev, vm.mmioDevs[bar]? = some dev →
    ∀ vaddr, loop.InWindow vaddr → ¬dev.Holds (loop.insnPtr + vaddr)
  | _ => True

/-- A store does not change where the pages that are held for execution are translated to. -/
def ActionCareful (loop : Loop) (vm : Vm) : Action → Prop
  | .hart event _ => EventCareful fetches board vm event ∧ loop.Keeps vm event
  | .memory host => ∀ addr, vm.Hits addr .exec ∨ loop.InWindow addr →
    served board { vm with host := host } addr .exec = served board vm addr .exec

def TurnCareful (loop : Loop) (turn : Turn) : Prop :=
  (¬loop.InWindow loop.insnAddr → FetchCareful board loop turn) ∧
    StepsMeet (act board) (ActionCareful board (loop.fetch board turn.long).1) (loop.fetch board turn.long).1.vm turn.actions

end

def StillServes (board : Board) (vm vm' : Vm) : Prop :=
  vm'.running → vm.running ∧
    ∀ (addr ptr : Addr), served board vm addr .exec = some ptr → served board vm' addr .exec = some ptr

section
variable {board : Board} {vm vm' vm'' : Vm}

theorem StillServes.refl (vm : Vm) : StillServes board vm vm := fun hr => ⟨hr, fun _ _ hs => hs⟩

theorem StillServes.trans (first : StillServes board vm vm') (second : StillServes board vm' vm'') :
    StillServes board vm vm'' := by
  intro running
  obtain ⟨between, later⟩ := second running
  obtain ⟨before, sooner⟩ := first between
  exact ⟨before, fun addr ptr serves => later addr ptr (sooner addr ptr serves)⟩

theorem stillServes_of_stopped (hs : vm'.running = false) : StillServes board vm vm' := by
  intro hr
  rw [hs] at hr
  cases hr

theorem stillServes_of_looser (running : vm'.running → vm.running) (host : vm'.host = vm.host)
    (regions : vm'.mmioDevs = vm.mmioDevs) (looser : Looser vm vm' .exec) : StillServes board vm vm' :=
  fun after => ⟨running after, fun _ _ => served_looser looser host regions⟩

structure SameServes (board : Board) (vm vm' : Vm) : Prop where
  running : vm'.running = vm.running
  regions : vm'.mmioDevs = vm.mmioDevs
  serves : ∀ addr kind, served board vm' addr kind = served board vm addr kind

theorem SameServes.still (same : SameServes board vm vm') : StillServes board vm vm' :=
  fun hr => ⟨same.running.symm.trans hr, fun addr _ hs => (same.serves addr .exec).trans hs⟩

theorem Operated.same {a : List (Addr × Access)} (ho : Operated board a vm vm') : SameServes board vm vm' := by
  have running : vm'.control.running = vm.control.running := by rw [ho.control]
  have regions : vm'.control.mmioDevs = vm.control.mmioDevs := by rw [ho.control]
  exact ⟨running, regions, ho.serves⟩

theorem fill_same {v : Addr} : SameServes board vm (mmuOpInPage board vm v (plainAttr .exec)).1 :=
  (operated_fills (mmuOpInPage_does (plainAttr_ptr .exec))).same

theorem Turned.serves (ht : Turned fetches vm vm') : StillServes board vm vm' := by
  cases ht with
  | emptied _ _ stopped => exact stillServes_of_stopped stopped
  | eased _ host regions running looser => exact stillServes_of_looser running host regions (looser .exec rfl)

theorem trapCareful_fetches {vm : Vm} : TrapCareful fetches vm := fun _ hf hd => absurd hf hd

theorem settle_serves {r : Vm × Outcome} (h : SameServes board vm r.1) : StillServes board vm (settle board r) := by
  obtain ⟨vm', o⟩ := r
  cases o with
  | served => exact h.still
  | refused => exact h.still
  | fault c => exact h.still.trans (riscvTrap_turned trapCareful_fetches).serves

theorem sfenceVma_serves {addr : Option Addr} : StillServes board vm (sfenceVma vm addr) := by
  unfold sfenceVma
  split
  · cases addr with
    | none => exact stillServes_of_stopped rfl
    | some addr =>
      intro hr
      have hb : vm.running := by
        revert hr
        unfold tlbFlushPage
        dsimp only
        split
        · intro hi
          cases hi
        · exact id
      exact ⟨hb, fun o ptr hs => ((sameSpace_tlbFlushPage vm addr).served o .exec).trans hs⟩
  · exact StillServes.refl vm

theorem event_serves {e : Event} (hi : e.Inner) (hc : EventCareful fetches board vm e) :
    (∃ bar addr, e = .moveRegion bar addr) ∨ StillServes board vm (step board vm e) := by
  have ho : SameServes board vm (e.operate board vm) := operate_operated.same
  by_cases moves : ∃ bar addr, e = .moveRegion bar addr
  · exact .inl moves
  right
  cases e with
  | mstatus op d => exact (csrStatus_turned fun _ => hc.each).ite.serves
  | sstatus op d => exact (csrStatus_turned fun _ => hc.each).ite.serves
  | satp op d => exact (csrSatp_turned hc).ite.serves
  | trap c => exact (riscvTrap_turned hc).serves
  | dispatch p => exact absurd hi id
  | mret => exact (mret_turned hc).serves
  | sret => exact sret_turned.serves
  | sfenceVma addr => exact sfenceVma_serves
  | fetch v long => exact absurd hi id
  | rmwCommit v sz => exact ho.still
  | moveRegion bar addr => exact absurd ⟨bar, addr, rfl⟩ moves
  | _ => exact settle_serves ho

end

section
variable (addr : Addr)

theorem slot_toNat : (tlbSlot (vpnOf addr)).toNat = addr.toNat / 4096 % 256 := by
  rw [tlbSlot, toNat_setWidth, vpnOf, toNat_ushiftRight, Nat.shiftRight_eq_div_pow]
  rfl

theorem vpn_toNat : (vpnOf addr).toNat = addr.toNat / 4096 := by
  rw [vpnOf, toNat_ushiftRight, Nat.shiftRight_eq_div_pow]
  rfl

theorem offset_toNat : (addr &&& bitMask pageShift).toNat = addr.toNat % 4096 := by
  rw [toNat_and, bitMask, toNat_low_mask (by decide), pageShift, Nat.and_two_pow_sub_one_eq_mod]

def Beside (addr vaddr : Addr) : Prop := SamePage addr vaddr ∨ tlbSlot (vpnOf addr) ≠ tlbSlot (vpnOf vaddr)

theorem beside_of_toNat {addr vaddr : Addr} (hn : vaddr.toNat / 4096 = addr.toNat / 4096 ∨
    vaddr.toNat / 4096 % 256 ≠ addr.toNat / 4096 % 256) : Beside addr vaddr := by
  rcases hn with same | ho
  · left
    apply eq_of_toNat_eq
    rw [vpn_toNat, vpn_toNat, same]
  · right
    intro slot
    have hs := congrArg BitVec.toNat slot
    rw [slot_toNat, slot_toNat] at hs
    exact ho hs.symm

theorem secondPart_toNat : (secondPart addr).toNat = (addr.toNat + (4096 - addr.toNat % 4096)) % 2 ^ 64 := by
  have ho := offset_toNat addr
  have hw : (0x1000 : Addr).toNat = 4096 := rfl
  have le : addr &&& bitMask pageShift ≤ (0x1000 : Addr) := by
    rw [le_def]
    omega
  rw [secondPart, toNat_add, toNat_sub_of_le le, ho, hw]

theorem halfword_toNat : (addr + 2).toNat = (addr.toNat + 2) % 2 ^ 64 := by
  rfl

theorem beside_second : Beside addr (secondPart addr) := by
  apply beside_of_toNat
  rw [secondPart_toNat]
  omega

theorem beside_next : Beside addr (addr + 2) := by
  apply beside_of_toNat
  rw [halfword_toNat]
  omega

theorem beside_next_second (addr : Addr) : Beside addr (secondPart (addr + 2)) := by
  apply beside_of_toNat
  rw [secondPart_toNat, halfword_toNat]
  omega

end

/-- What the slot of a page holds after code was fetched from it: the page, if host memory is behind it,
  and otherwise what it held before. -/
def Slotted (board : Board) (vm vm' : Vm) (addr : Addr) : Prop :=
  ((served board vm addr .exec).isSome → (vm'.entryOf addr).e = vpnOf addr) ∧
      (served board vm addr .exec = none → vm'.entryOf addr = vm.entryOf addr)

section
variable {bd : Board} {vm vm' : Vm} {addr va : Addr}

theorem fill_exec (bd : Board) (vm : Vm) (va : Addr) : (∃ ptr, served bd vm va .exec = some ptr ∧
    (mmuOpInPage bd vm va (plainAttr .exec)).1.tlb = (tlbPut vm va ptr .exec).tlb) ∨
    (served bd vm va .exec = none ∧ (mmuOpInPage bd vm va (plainAttr .exec)).1.tlb = vm.tlb) := by
  unfold mmuOpInPage served translation plainAttr
  cases mmuTranslate bd vm va .exec with
  | none => exact .inr ⟨rfl, rfl⟩
  | some r =>
    obtain ⟨pa, host⟩ := r
    simp only [map_some, bind_some, hostOf]
    cases h : physAccess bd pa with
    | some ptr => exact .inl ⟨ptr, rfl, rfl⟩
    | none =>
      simp only [mmioScan, if_true]
      cases mmioFind vm.mmioDevs pa with
      | none =>
        right
        refine ⟨rfl, ?_⟩
        simp only [map_none]
        split <;> rfl
      | some dev =>
        simp only [bind_some, map_some]
        cases dev.direct pa with
        | none => exact .inr ⟨rfl, rfl⟩
        | some ptr => exact .inl ⟨ptr, rfl, rfl⟩

theorem entryOf_congr (h : vm'.tlb = vm.tlb) (addr : Addr) : vm'.entryOf addr = vm.entryOf addr := by
  rw [Vm.entryOf, Vm.entryOf, h]

theorem put_elsewhere {vm : Vm} {ptr : Addr} {k : Access} (h : tlbSlot (vpnOf addr) ≠ tlbSlot (vpnOf va)) :
    (tlbPut vm va ptr k).entryOf addr = vm.entryOf addr := entryOf_setEntry_other vm _ h

theorem put_here {vm : Vm} {ptr : Addr} (hs : SamePage addr va) :
    ((tlbPut vm va ptr .exec).entryOf addr).e = vpnOf addr := by
  have hp : vpnOf va = vpnOf addr := hs.symm
  unfold tlbPut
  rw [hp, entryOf_setEntry_same]

theorem slotted_page (placed : Placed vm.mmioDevs) (same : SamePage addr va) :
    Slotted bd vm (mmuOpInPage bd vm va (plainAttr .exec)).1 addr := by
  rcases fill_exec bd vm va with ⟨ptr, hs, hf⟩ | ⟨hn, hi⟩
  · refine ⟨fun _ => ?_, fun hn => ?_⟩
    · rw [entryOf_congr hf addr]
      exact put_here same
    · rw [served_page placed same.symm hs] at hn
      cases hn
  · refine ⟨fun hb => ?_, fun _ => entryOf_congr hi addr⟩
    obtain ⟨ptr, hp⟩ := isSome_iff_exists.mp hb
    rw [served_page placed same hp] at hn
    cases hn

theorem slotted_op (placed : Placed vm.mmioDevs) (beside : Beside addr va) :
    Slotted bd vm (mmuOpInPage bd vm va (plainAttr .exec)).1 addr ∨
      (mmuOpInPage bd vm va (plainAttr .exec)).1.entryOf addr = vm.entryOf addr := by
  rcases beside with same | ho
  · exact .inl (slotted_page placed same)
  · right
    rcases fill_exec bd vm va with ⟨ptr, _, hf⟩ | ⟨_, hi⟩
    · exact (entryOf_congr hf addr).trans (put_elsewhere ho)
    · exact entryOf_congr hi addr

theorem Slotted.then {vm'' : Vm} (hf : Slotted bd vm vm' addr) (same : SameServes bd vm vm')
    (hs : Slotted bd vm' vm'' addr ∨ vm''.entryOf addr = vm'.entryOf addr) : Slotted bd vm vm'' addr := by
  have serves := same.serves addr .exec
  rcases hs with hs | hk
  · refine ⟨fun hb => ?_, fun hn => ?_⟩
    · apply hs.1
      rw [serves]
      exact hb
    · rw [hs.2 (serves.trans hn), hf.2 hn]
  · refine ⟨fun hb => ?_, fun hn => ?_⟩
    · rw [hk]
      exact hf.1 hb
    · rw [hk, hf.2 hn]

theorem slotted_mmuOp {addr : Addr} (placed : Placed vm.mmioDevs) :
    Slotted bd vm (mmuOp bd vm addr 2 (plainAttr .exec)).1 addr := by
  have hf : Slotted bd vm (mmuOpInPage bd vm addr (plainAttr .exec)).1 addr := slotted_page placed rfl
  have hs : SameServes bd vm (mmuOpInPage bd vm addr (plainAttr .exec)).1 := fill_same
  unfold mmuOp
  split
  · exact hf
  · split
    · rename_i hi
      cases hi
    · split
      · rename_i hr
        rw [hr] at hf hs
        exact hf.then hs (slotted_op (hs.regions ▸ placed) (beside_second addr))
      · exact hf

theorem slotted_mmuOp_next {addr : Addr} (placed : Placed vm.mmioDevs) :
    Slotted bd vm (mmuOp bd vm (addr + 2) 2 (plainAttr .exec)).1 addr ∨
      (mmuOp bd vm (addr + 2) 2 (plainAttr .exec)).1.entryOf addr = vm.entryOf addr := by
  have hf : Slotted bd vm (mmuOpInPage bd vm (addr + 2) (plainAttr .exec)).1 addr ∨
      (mmuOpInPage bd vm (addr + 2) (plainAttr .exec)).1.entryOf addr = vm.entryOf addr :=
    slotted_op placed (beside_next addr)
  have same : SameServes bd vm (mmuOpInPage bd vm (addr + 2) (plainAttr .exec)).1 := fill_same
  unfold mmuOp
  split
  · exact hf
  · split
    · exact .inr rfl
    · split
      · rename_i vm' hr
        rw [hr] at hf same
        have hs : Slotted bd vm' _ addr ∨ _ = vm'.entryOf addr :=
          slotted_op (same.regions ▸ placed) (beside_next_second addr)
        rcases hf with first | hk
        · exact .inl (first.then same hs)
        · rcases hs with hl | still
          · left
            refine ⟨fun hb => hl.1 ?_, fun hn => ?_⟩
            · rw [same.serves]
              exact hb
            · exact (hl.2 ((same.serves addr .exec).trans hn)).trans hk
          · exact .inr (still.trans hk)
      · exact hf

theorem slotted_fetch {l : Bool} (placed : Placed vm.mmioDevs) (hf : fetchInsn bd vm addr l = (vm', .served)) :
    Slotted bd vm vm' addr ∨ ((vm'.entryOf addr).e = vpnOf addr ∧ vm' = vm) := by
  unfold fetchInsn at hf
  split at hf
  · rename_i hh
    cases hf
    exact .inr ⟨hh.1, rfl⟩
  · left
    have first : Slotted bd vm (mmuOp bd vm addr 2 (plainAttr .exec)).1 addr := slotted_mmuOp placed
    have same : SameServes bd vm (mmuOp bd vm addr 2 (plainAttr .exec)).1 :=
      (mmuOp_operated (plainAttr_ptr .exec)).same
    split at hf
    · rename_i b hr
      rw [hr] at first same
      split at hf
      · have hs : Slotted bd b _ addr ∨ _ = b.entryOf addr := slotted_mmuOp_next (same.regions ▸ placed)
        rw [hf] at hs
        exact first.then same hs
      · cases hf
        exact first
    · rw [hf] at first
      exact first

end

section
variable {board : Board} {loop : Loop}

theorem cutTo_toNat (w : Bool) (addr : Addr) :
    (cutTo w addr).toNat = if w then addr.toNat else addr.toNat % 2 ^ 32 := by
  unfold cutTo
  cases w with
  | true => rfl
  | false =>
    have h : (0xFFFFFFFF : Addr).toNat = 2 ^ 32 - 1 := rfl
    simp only [Bool.false_eq_true, if_false]
    rw [toNat_and, h, Nat.and_two_pow_sub_one_eq_mod]

theorem cutTo_lt (addr : Addr) : (cutTo false addr).toNat < 2 ^ 32 := by
  rw [cutTo_toNat]
  exact Nat.mod_lt _ (by decide)

theorem cutTo_cutTo {w : Bool} {addr : Addr} : cutTo w (cutTo w addr) = cutTo w addr := by
  apply eq_of_toNat_eq
  rw [cutTo_toNat, cutTo_toNat]
  cases w <;> simp

theorem vpn_of_near {w : Bool} {addr tag : Addr} (hf : addr = cutTo w addr)
    (near : cutTo w (addr - cutTo w (tag <<< pageShift)) ≤ 0xFFC) : vpnOf addr = vpnOf (cutTo w (tag <<< pageShift)) := by
  have hp : (cutTo w (tag <<< pageShift)).toNat % 4096 = 0 := by
    have ha : (tag <<< pageShift).toNat % 4096 = 0 :=
      Nat.mod_eq_zero_of_dvd (aligned_shiftLeft (Nat.le_refl 12) (by decide))
    rw [cutTo_toNat]
    split
    · exact ha
    · omega
  have hs := congrArg BitVec.toNat hf
  have hl : (0xFFC : Addr).toNat = 4092 := rfl
  rw [le_def, cutTo_toNat, toNat_sub] at near
  rw [cutTo_toNat] at hs
  apply eq_of_toNat_eq
  rw [vpn_toNat, vpn_toNat]
  cases w with
  | true =>
    simp only [if_true] at near
    omega
  | false =>
    have hh := cutTo_lt (tag <<< pageShift)
    simp only [Bool.false_eq_true, if_false] at near hs
    omega

theorem vpn_cutTo {w : Bool} {pc : Addr} : vpnOf (cutTo w (vpnOf (cutTo w pc) <<< pageShift)) = vpnOf (cutTo w pc) := by
  apply eq_of_toNat_eq
  rw [vpn_toNat, cutTo_toNat, toNat_shiftLeft, vpn_toNat, Nat.shiftLeft_eq]
  have hs : 2 ^ pageShift = 4096 := rfl
  rw [hs]
  cases w with
  | true =>
    simp only [if_true]
    omega
  | false =>
    have hh := cutTo_lt pc
    simp only [Bool.false_eq_true, if_false]
    omega

def Loop.Open (board : Board) (loop : Loop) : Prop :=
  ∀ addr, addr = cutTo loop.wide addr → loop.InWindow addr → served board loop.vm addr .exec = some (loop.insnPtr + addr)

theorem slot_cut (w : Bool) (pc : Addr) : tlbSlot (vpnOf (cutTo w pc)) = tlbSlot (vpnOf pc) := by
  apply eq_of_toNat_eq
  rw [slot_toNat, slot_toNat, cutTo_toNat]
  split
  · rfl
  · omega

theorem open_of_names {vm : Vm} (hc : vm.Coherent fetches board) (hn : loop.Names (vm.entryOf loop.insnAddr).e) :
    ({ loop with
      vm := vm, insnPtr := (vm.entryOf loop.insnAddr).ptr
      insnPage := cutTo loop.wide ((vm.entryOf loop.insnAddr).e <<< pageShift) } : Loop).Open board := by
  intro addr hf hi
  have hp : vpnOf addr = (vm.entryOf loop.insnAddr).e := (vpn_of_near hf hi).trans hn.2
  have he : vm.entryOf addr = vm.entryOf loop.insnAddr := by
    rw [Vm.entryOf, hp, hn.1]
    rfl
  have hh : vm.Hits addr .exec := by
    rw [Vm.Hits, he, hp]
    rfl
  have hs := hc.serves addr .exec rfl hh
  rw [he] at hs
  exact hs

theorem enterLoop_outside {vm : Vm} {pc : Addr} : ¬(enterLoop vm pc).InWindow (enterLoop vm pc).insnAddr := by
  unfold Loop.InWindow Loop.insnAddr enterLoop
  rw [le_def, cutTo_toNat, toNat_sub, cutTo_toNat, cutTo_toNat, toNat_add]
  have hs : (0x1000 : Addr).toNat = 4096 := rfl
  have hl : (0xFFC : Addr).toNat = 4092 := rfl
  cases vm.rv64 with
  | true =>
    simp only [if_true]
    omega
  | false =>
    simp only [Bool.false_eq_true, if_false]
    omega

structure Loop.Sound (board : Board) (loop : Loop) : Prop where
  coherent : loop.vm.Coherent fetches board
  window : loop.InWindow loop.insnAddr → loop.Open board

theorem enterLoop_sound {vm : Vm} (hc : vm.Coherent fetches board) {pc : Addr} : (enterLoop vm pc).Sound board :=
  ⟨hc, fun hi => absurd hi enterLoop_outside⟩

/-- What the window shows of an address stays translated, as long as the loop goes on. -/
def Shows (board : Board) (loop : Loop) (vm vm' : Vm) : Prop :=
  vm'.running → vm.running ∧ ∀ addr, loop.InWindow addr → served board vm addr .exec = some (loop.insnPtr + addr) →
    served board vm' addr .exec = some (loop.insnPtr + addr)

theorem StillServes.shows {vm vm' : Vm} (still : StillServes board vm vm') : Shows board loop vm vm' := by
  intro running
  obtain ⟨before, serves⟩ := still running
  exact ⟨before, fun addr _ => serves addr _⟩

theorem act_sound {vm : Vm} (action : Action) (coherent : vm.Coherent fetches board)
    (careful : ActionCareful board loop vm action) :
    (act board vm action).Coherent fetches board ∧ Shows board loop vm (act board vm action) := by
  cases action with
  | hart event inner =>
    obtain ⟨careful, keeps⟩ := careful
    refine ⟨step_coherent event careful coherent, ?_⟩
    rcases event_serves inner careful with ⟨bar, addr, rfl⟩ | still
    · refine fun running => ⟨running, fun vaddr inside => ?_⟩
      apply served_move coherent.placed careful.1
      exact fun dev moves => keeps dev moves vaddr inside
    · exact still.shows
  | memory host =>
    refine ⟨⟨coherent.placed, fun addr kind fetched hit => ?_⟩, fun running => ⟨running, fun addr inside serves => ?_⟩⟩
    · cases fetched
      exact (careful addr (.inl hit)).trans (coherent.serves addr .exec rfl hit)
    · exact (careful addr (.inr inside)).trans serves

theorem emulate_sound {actions : List Action} {vm : Vm} (coherent : vm.Coherent fetches board)
    (careful : StepsMeet (act board) (ActionCareful board loop) vm actions) :
    (emulate board vm actions).Coherent fetches board ∧ Shows board loop vm (emulate board vm actions) := by
  induction actions generalizing vm with
  | nil => exact ⟨coherent, fun running => ⟨running, fun _ _ serves => serves⟩⟩
  | cons action actions ih =>
    obtain ⟨now, later⟩ := careful
    obtain ⟨between, first⟩ := act_sound action coherent now
    obtain ⟨after, rest⟩ := ih between later
    refine ⟨after, fun running => ?_⟩
    obtain ⟨goesOn, keeps⟩ := rest running
    obtain ⟨before, kept⟩ := first goesOn
    exact ⟨before, fun addr inside serves => keeps addr inside (kept addr inside serves)⟩

theorem fetch_coherent {t : Turn} (sound : loop.Sound board)
    (care : ¬loop.InWindow loop.insnAddr → FetchCareful board loop t) :
    (loop.fetch board t.long).1.vm.Coherent fetches board := by
  unfold Loop.fetch
  split
  · exact sound.coherent
  · rename_i hi
    have hs := step_coherent (.fetch loop.insnAddr t.long) (care hi).1 sound.coherent
    rw [step] at hs
    split <;> rename_i hf
    · rwa [hf] at hs
    · exact hs

theorem fetch_window {t : Turn} (sound : loop.Sound board)
    (care : ¬loop.InWindow loop.insnAddr → FetchCareful board loop t) (ht : (loop.fetch board t.long).2) :
    (loop.fetch board t.long).1.wide = loop.wide ∧
      ((loop.fetch board t.long).1.Open board ∨ ¬(loop.fetch board t.long).1.InWindow (cutTo loop.wide t.next)) := by
  have hc := fetch_coherent sound care
  unfold Loop.fetch at ht hc ⊢
  by_cases hi : loop.InWindow loop.insnAddr
  · rw [if_pos hi]
    exact ⟨rfl, .inl (sound.window hi)⟩
  · rw [if_neg hi] at ht hc ⊢
    obtain ⟨-, hp⟩ := care hi
    cases hf : fetchInsn board loop.vm loop.insnAddr t.long with
    | mk vm o =>
      rw [hf] at ht hc
      cases o with
      | refused => cases ht
      | fault c => cases ht
      | served =>
        have he : vm.tlb (tlbSlot (vpnOf loop.pc)) = vm.entryOf loop.insnAddr := by
          rw [Vm.entryOf, Loop.insnAddr, slot_cut]
        refine ⟨rfl, ?_⟩
        dsimp only
        rw [he]
        have serves (hh : (vm.entryOf loop.insnAddr).e = vpnOf loop.insnAddr) :
            loop.Names (vm.entryOf loop.insnAddr).e := by
          rw [hh]
          exact ⟨rfl, vpn_cutTo⟩
        rcases slotted_fetch sound.coherent.placed hf with slot | ⟨hh, _⟩
        · cases hb : served board loop.vm loop.insnAddr .exec with
          | some ptr =>
            left
            exact open_of_names hc (serves (slot.1 (by rw [hb]; rfl)))
          | none =>
            have hk := slot.2 hb
            rcases hp with some | hn | ha
            · rw [hb] at some
              cases some
            · left
              apply open_of_names hc
              rw [hk]
              exact hn
            · right
              rw [hk]
              exact ha
        · left
          exact open_of_names hc (serves hh)

theorem turnLoop_sound {t : Turn} (care : TurnCareful board loop t) (hs : loop.Sound board) :
    (turnLoop board loop t).Sound board := by
  obtain ⟨hf, ha⟩ := care
  have hc := fetch_coherent hs hf
  unfold turnLoop
  cases ht : (loop.fetch board t.long).2 with
  | false =>
    apply enterLoop_sound
    exact (handleIrqs_turned _ trapCareful_fetches).coherent hc.resume
  | true =>
    obtain ⟨within, hw⟩ := fetch_window hs hf ht
    obtain ⟨after, hk⟩ := emulate_sound hc ha
    simp only [if_true, true_and]
    split
    · rename_i hr
      refine ⟨after, fun hi => ?_⟩
      rcases hw with share | ho
      · intro addr first hn
        exact (hk hr).2 addr hn (share addr first hn)
      · apply absurd hi
        show ¬(loop.fetch board t.long).1.InWindow (cutTo (loop.fetch board t.long).1.wide t.next)
        rw [within]
        exact ho
    · apply enterLoop_sound
      exact (handleIrqs_turned _ trapCareful_fetches).coherent after.resume

theorem Loop.Sound.safe (hs : loop.Sound board) : loop.WindowSafe board :=
  fun hi => hs.window hi loop.insnAddr cutTo_cutTo.symm hi

end

/-- From a flushed translation cache, in every careful run of the dispatch loop, an instruction word is read
  through the window only at the host address the program counter is translated to for execution. -/
theorem window_reads_translated_page (board : Board) (vm : Vm) (pc : Addr) (turns : List Turn)
    (flushed : vm.tlb = emptyTlb) (placed : Placed vm.mmioDevs)
    (careful : StepsMeet (turnLoop board) (TurnCareful board) (enterLoop vm pc) turns) :
    (run (turnLoop board) (enterLoop vm pc) turns).WindowSafe board := by
  have entered : (enterLoop vm pc).Sound board := enterLoop_sound (coherent_of_empty placed flushed)
  have sound : (run (turnLoop board) (enterLoop vm pc) turns).Sound board :=
    careful.run_invariant (fun _ turn => turnLoop_sound) entered
  exact sound.safe

def machineVm : Vm :=
  { userPageVm with host := fun _ => 0, status := 0, mmuMode := satpModeBare, privMode := privMachine }

def jumpTo (next : Addr) : Turn := ⟨true, [], next, 0⟩

theorem ram_code_window_safe : (run (turnLoop plainBoard) (enterLoop machineVm 0x100) [jumpTo 0x104]).InWindow 0x104 ∧
    (run (turnLoop plainBoard) (enterLoop machineVm 0x100) [jumpTo 0x104]).WindowSafe plainBoard := by
  refine ⟨by decide +kernel, ?_⟩
  have fill (vaddr : Addr) : FillCareful fetches plainBoard machineVm vaddr .exec :=
    ⟨fun kind _ hit => absurd hit (not_hits_emptyTlb rfl vaddr kind), nofun⟩
  have halfword (vaddr : Addr) : OpCareful fetches plainBoard machineVm vaddr 2 (plainAttr .exec) :=
    ⟨fill vaddr, fun _ => fill _⟩
  have ram : (served plainBoard machineVm 0x100 .exec).isSome := by decide +kernel
  apply window_reads_translated_page plainBoard machineVm 0x100 [jumpTo 0x104] rfl placed_nil
  exact ⟨⟨fun _ => ⟨.inr ⟨halfword _, halfword _, fun _ _ => trapCareful_fetches⟩, .inl ram⟩, True.intro⟩, True.intro⟩

def deviceBoard : Board :=
  { plainBoard with
    mem := ⟨0x80000000, 0x4000, 0x10000⟩
    addrAligned := by unfold Aligned; decide
    sizeAligned := by unfold Aligned; decide }

def deviceVm : Vm := { machineVm with mmioDevs := [⟨0x10000000, 0x2000, none⟩] }

/-- Code on a device page fills no slot; the slot of page `0x10001` is empty, which its tag says by naming
  page zero. A jump to address `0x100` is then fetched through the window from host address `0x100`,
  although nothing is translated there. -/
theorem device_code_opens_window_on_page_zero :
    (run (turnLoop deviceBoard) (enterLoop deviceVm 0x10001000) [jumpTo 0x100]).InWindow 0x100 ∧
      (run (turnLoop deviceBoard) (enterLoop deviceVm 0x10001000) [jumpTo 0x100]).insnAddr = 0x100 ∧
      (run (turnLoop deviceBoard) (enterLoop deviceVm 0x10001000) [jumpTo 0x100]).insnPtr + 0x100 = 0x100 ∧
      served deviceBoard (run (turnLoop deviceBoard) (enterLoop deviceVm 0x10001000) [jumpTo 0x100]).vm 0x100 .exec = none := by
  decide +kernel

end RiscvEmulators.Rvvm
