import Riscv.Qemu.Mmu.Coherence
import Riscv.Qemu.Mmu.Race

namespace RiscvEmulators.Qemu.Mmu
open Word Cpu Pmp Transition Call

section
variable {c : Call}

theorem plan_eq (paged : 0 < c.ptidxbits) : c.view.plan c.hw c.addr = .paged c.levels c.ptidxbits c.ptesize := by
  unfold ptidxbits at paged
  unfold Call.levels ptidxbits ptesize
  cases h : c.view.plan c.hw c.addr with
  | paged ls idx sz => rfl
  | refused => simp [h] at paged
  | direct => simp [h] at paged
  | unreachable => simp [h] at paged

theorem start_eq (h : 0 < c.ptidxbits) : c.start = .fetch c.root := by
  unfold start
  rw [plan_eq h]

end

section
variable {call : Call}

theorem Cursor.Rooted.eq_root {cursor : Cursor} (rooted : cursor.Rooted call) (top : cursor.ptshift = call.top) :
    cursor = { call.root with sstackPage := cursor.sstackPage } := by
  obtain ⟨base, left⟩ := rooted.root top
  rw [Call.root, ← top, ← base, ← left]

theorem restart_eq_root {cursor : Cursor} (rooted : cursor.Rooted call) (top : cursor.ptshift = call.top) :
    call.restart cursor = { call.root with sstackPage := cursor.sstackPage } := by
  rw [rooted.eq_root top]
  rfl

theorem returns_begin {memory : PageMemory} {guest : Option Phase} {seen : Bool}
    {result : Except Failure (W64 × BitVec 8)} (harmless : seen → call.type = .dataLoad ∧ call.view.mxr)
    (returns : call.Returns ⟨memory, guest, .fetch { call.root with sstackPage := seen }⟩ result) :
    call.Returns ⟨memory, guest, .fetch call.root⟩ result := by
  cases seen with
  | false => exact returns
  | true =>
    obtain ⟨load, mxr⟩ := harmless rfl
    refine returns_forget load mxr ?_ returns
    rfl

theorem restartsFresh_own {w : Walker} {cursor : Cursor} {pteAddr pte : W64} {prot : BitVec 8}
    (steady : w.Steady call) (swapping : w.phase = .swap cursor pteAddr pte prot) (atRoot : call.InRoot cursor) :
    call.RestartsFresh w := by
  intro memory loses result returns
  have rooted : cursor.Rooted call := by
    have := steady.rooted
    rwa [swapping] at this
  have lost : call.unchanged memory pteAddr pte = false := by
    simpa [Loses, swapping] using loses
  have alone : w.guest = none := steady.guest_none (.inr (by simp [swapping]))
  rw [advance_lost (w := { w with memory := memory }) swapping lost, alone,
    restart_eq_root rooted atRoot.1] at returns
  rw [begin, start_eq rooted.paged]
  exact returns_begin atRoot.2 returns

theorem guest_unseen {base : W64} {cursor : Cursor} (rooted : cursor.Rooted (call.guestCall base)) :
    cursor.sstackPage = false := by
  cases seen : cursor.sstackPage with
  | false => rfl
  | true =>
    have enabled : (cpuGetBcfien call.env.cpu && false) := rooted.shadow seen
    rw [Bool.and_false] at enabled
    cases enabled

theorem moveGuest_lost {w : Walker} {outer cursor : Cursor} {pteAddr pte : W64} {prot : BitVec 8}
    (swapping : w.guest = some (.swap cursor pteAddr pte prot))
    (lost : (call.guestCall outer.base).unchanged w.memory pteAddr pte = false) :
    call.moveGuest w outer = { w with guest := some (.fetch ((call.guestCall outer.base).restart cursor)) } := by
  simp [moveGuest, swapping, move, lost]

theorem restartsFresh_guest {w : Walker} {outer cursor : Cursor} {pteAddr pte : W64} {prot : BitVec 8}
    (steady : w.Steady call) (waiting : w.phase = .fetch outer) (swapping : w.guest = some (.swap cursor pteAddr pte prot))
    (outerRoot : call.InRoot outer) (atRoot : (call.guestCall outer.base).InRoot cursor) : call.RestartsFresh w := by
  intro memory loses result returns
  obtain ⟨nested, -⟩ := steady.alone (by simp [swapping])
  have rooted : outer.Rooted call := by
    have := steady.rooted
    rwa [waiting] at this
  have inner : cursor.Rooted (call.guestCall outer.base) := steady.guest outer _ waiting swapping
  have lost : (call.guestCall outer.base).unchanged memory pteAddr pte = false := by
    rw [Loses, waiting, swapping] at loses
    exact loses
  rw [advance_guest (w := { w with memory := memory }) waiting nested,
    moveGuest_lost (w := { w with memory := memory }) swapping lost, restart_eq_root inner atRoot.1, guest_unseen inner,
    waiting, rooted.eq_root outerRoot.1] at returns
  obtain ⟨events, ended⟩ := returns_begin outerRoot.2 returns
  refine ⟨.advance :: events, ?_⟩
  have base : outer.base = call.root.base := (rooted.root outerRoot.1).1
  have first : call.advance (call.begin memory) =
      ⟨memory, some (.fetch (call.guestCall call.root.base).root), .fetch call.root⟩ := by
    rw [base] at inner
    rw [begin, start_eq rooted.paged, advance_guest rfl nested, ← start_eq inner.paged]
    rfl
  rw [run_cons, take, first]
  exact ended

theorem restartsFresh_of_atRoot {w : Walker} (steady : w.Steady call) (atRoot : call.AtRoot w) :
    call.RestartsFresh w := by
  unfold AtRoot at atRoot
  split at atRoot
  case h_1 cursor _ _ _ swapping => exact restartsFresh_own steady swapping atRoot
  case h_2 outer cursor _ _ _ waiting swapping =>
    exact restartsFresh_guest steady waiting swapping atRoot.1 atRoot.2
  case h_3 own guest =>
    intro memory loses
    unfold Loses at loses
    split at loses
    case h_1 swapping => exact absurd swapping (own _ _ _ _)
    case h_2 waiting swapping => exact (guest _ _ _ _ _ waiting swapping).elim
    case h_3 => exact loses.elim

end

section
variable {ca : Call} {cu : Cursor} {result ended : Except Failure (W64 × BitVec 8)}

theorem returns_advance {w : Walker} (hi : w.atSwap = false) (hg : ∀ result, w.phase ≠ .done result)
    (returns : ca.Returns w result) : ca.Returns (ca.advance w) result := by
  obtain ⟨es, hr⟩ := returns
  induction es with
  | nil => exact absurd hr (hg result)
  | cons e es ih =>
    cases e with
    | advance => exact ⟨es, hr⟩
    | interfere c =>
      rw [run_cons, take, hi] at hr
      exact ih hr

theorem returns_unique {w : Walker} (pla : ca.nested = false) (ha : w.guest = none) (hf : w.phase = .fetch cu)
    (he : ca.fetch w.memory cu.base cu = .done ended) (returns : ca.Returns w result) : result = ended := by
  have hi : w.atSwap = false := by simp [Walker.atSwap, hf, ha]
  obtain ⟨es, hr⟩ := returns_advance hi (by simp [hf]) returns
  rw [advance_fetch hf pla, he, run_done rfl es] at hr
  cases hr
  rfl

end

def sv39Load : Call where
  hw := { plainConfig false with extSvnapot := true }
  env := ⟨{ guestEntry with satp := sv39Root }, 0, resetState⟩
  idx := ⟨.s, false, false⟩
  firstStage := true
  twoStage := false
  probe := false
  addr := 0
  type := .dataLoad

def tables (root leaf : W64) : PageMemory where
  word addr :=
    if addr = 0x80000 then some root else if addr = 0x81000 then some 0x20801
    else if addr = 0x82000 then some leaf else none
  ram _ := true

def guestLoad : Call :=
  { sv39Load with
    env := ⟨{ guestEntry with hstatus := hstatusSpvp, vsatp := sv39Root }, 0x8000000000000090, resetState⟩
    idx := ⟨.s, true, false⟩
    twoStage := true }

def twoRoots (first second : W64) : PageMemory where
  word addr := if addr = 0x80000 then some first else if addr = 0x90000 then some second else none
  ram _ := true

def atLeaf (leaf : W64) : Walker :=
  run sv39Load.take (sv39Load.begin (tables 0x20401 leaf)) [.advance, .advance, .advance]

end RiscvEmulators.Qemu.Mmu
