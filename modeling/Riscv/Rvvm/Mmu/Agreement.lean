import Riscv.Rvvm.Mmu.Fill

namespace RiscvEmulators.Rvvm
open Word Transition

section
variable {k : Access → Prop} {board : Board} {vm : Vm}

/-- What a control transfer or a CSR write does to the translations: they are dropped, or they are kept and no watched
  access is translated otherwise. -/
inductive Turned (k : Access → Prop) (vm vm' : Vm) : Prop where
  | emptied (tlb : vm'.tlb = emptyTlb) (regions : vm'.mmioDevs = vm.mmioDevs) (stopped : vm'.running = false)
  | eased (tlb : vm'.tlb = vm.tlb) (host : vm'.host = vm.host) (regions : vm'.mmioDevs = vm.mmioDevs)
    (running : vm'.running → vm.running) (looser : ∀ kind, k kind → Looser vm vm' kind)

theorem Turned.refl (vm : Vm) : Turned k vm vm := .eased rfl rfl rfl id fun kind _ => looser_refl vm kind

theorem Turned.status {st : W64} (hl : ∀ kind, k kind → Looser vm { vm with status := st } kind) :
    Turned k vm { vm with status := st } := .eased rfl rfl rfl id hl

theorem Turned.ite {c : Prop} [Decidable c] {vm' : Vm} (ht : Turned k vm vm') : Turned k vm (if c then vm' else vm) := by
  split
  · exact ht
  · exact .refl vm

theorem Turned.restart {vm' : Vm} (ht : Turned k vm vm') : Turned k vm (restartAtPc vm') := by
  cases ht with
  | emptied tlb regions _ => exact .emptied tlb regions rfl
  | eased tlb host regions _ looser => exact .eased tlb host regions nofun looser

theorem Turned.coherent {vm' : Vm} (ht : Turned k vm vm') (hc : vm.Coherent k board) : vm'.Coherent k board := by
  cases ht with
  | emptied tlb regions _ => exact coherent_of_empty (regions ▸ hc.placed) tlb
  | eased tlb host regions _ looser => exact hc.looser tlb host regions looser

theorem csrStatus_turned {d mk : W64} {op : CsrOp}
    (care : ∀ kind, k kind → StatusCareful (· = kind) vm d mk op) : Turned k vm (csrStatus board vm d mk op) := by
  unfold csrStatus
  dsimp only
  split
  let c := rawStatus vm d mk op
  · apply Turned.status
    intro kind hw
    obtain ⟨loose, legal⟩ := care kind hw
    have ha := legalStatus_agree board c
    have flags : legalStatus board c &&& flagMask = rawStatus vm d mk op &&& flagMask :=
      ha.and_eq (by decide)
    obtain ⟨mprv, sum, mxr⟩ := flags_of_agree { vm with status := rawStatus vm d mk op } flags
    have priv : ({ vm with status := legalStatus board c } : Vm).accessPriv kind =
        ({ vm with status := rawStatus vm d mk op } : Vm).accessPriv kind := by
      by_cases hl : ({ vm with status := rawStatus vm d mk op } : Vm).mprv
      · have hf : bitCut c 11 2 ≠ 2 := by
          intro ht
          apply legal hl
          rw [Vm.mpp, ht]
          rfl
        have hk : _ &&& mppMask = rawStatus vm d mk op &&& mppMask :=
          (legalStatus_agree_mpp board hf).and_eq (by decide)
        have mpp := mpp_of_agree { vm with status := rawStatus vm d mk op } hk
        rw [Vm.accessPriv, Vm.accessPriv, mprv, mpp]
      · rw [Vm.accessPriv, Vm.accessPriv, mprv, if_neg (fun hb => hl hb.1), if_neg (fun hb => hl hb.1)]
    rcases loose kind rfl with ⟨hpl, hp⟩ | ⟨hsa, hmo, hro, hs, hm⟩
    · exact .inl ⟨hpl, mt (paged_congr priv rfl).mp hp⟩
    · refine .inr ⟨priv.trans hsa, hmo, hro, fun hd set => ?_, fun hr set => ?_⟩
      · exact sum.trans (hs hd set)
      · exact mxr.trans (hm hr set)
  · exact .refl vm

theorem StatusCareful.each {d mk : W64} {op : CsrOp} (care : StatusCareful k vm d mk op) {kind : Access}
    (hw : k kind) : StatusCareful (· = kind) vm d mk op :=
  ⟨fun _ hs => hs ▸ care.1 kind hw, care.2⟩

theorem csrSatp_turned {d : W64} {op : CsrOp} (care : SatpCareful k vm d op) :
    Turned k vm (csrSatp board vm d op) := by
  rcases csrSatp_careful board care with ⟨mode, r, hf⟩ | ⟨r, hm, hl⟩
  · rw [hf]
    exact .emptied rfl rfl rfl
  · rw [hm]
    exact .eased rfl rfl rfl id hl

theorem updateXlen_regions : (updateXlen board vm).mmioDevs = vm.mmioDevs := by
  unfold updateXlen
  rw [apply_ite Vm.mmioDevs, apply_ite Vm.mmioDevs, restartDispatch, ite_self, ite_self]

theorem switchPriv_turned {vm' : Vm} {pv : Priv} (regions : vm'.mmioDevs = vm.mmioDevs)
    (hc : vm'.privMode = pv → Turned k vm vm') : Turned k vm (switchPriv board vm' pv) := by
  unfold switchPriv
  split
  · exact .emptied rfl (updateXlen_regions.trans regions) rfl
  · rename_i hs
    exact hc (Classical.not_not.mp hs)

theorem stack_flags {st : W64} {pp p pie ie : Nat} {v : W64}
    (ha2 : Within (~~~(bitMask p <<< pp)) flagMask) (ha : Within (~~~(bitMask 1 <<< pie)) flagMask)
    (apart : Within (~~~(bitMask 1 <<< ie)) flagMask) :
    bitReplace (bitReplace (bitReplace st pp p v) pie 1 (bitCut (bitReplace st pp p v) ie 1)) ie 1 0
      &&& flagMask = st &&& flagMask := by
  rw [(agreeOff_bitReplace _ ie 1 0).and_eq apart, (agreeOff_bitReplace _ pie 1 _).and_eq ha,
    (agreeOff_bitReplace st pp p v).and_eq ha2]

theorem mpp_bitReplace {vm : Vm} {priv : Priv} :
    ({ vm with status := bitReplace vm.status 11 2 (priv.setWidth 64) } : Vm).mpp = priv := by
  unfold Vm.mpp
  apply BitVec.eq_of_getLsbD_eq
  intro i hl
  rw [BitVec.getLsbD_setWidth, bitCut_bitReplace _ _ (by decide) (by decide)]
  have hw : i < 64 := by omega
  simp [hl, hw]

theorem trapPrivHelper_looser {t : Priv} (same : vm.privMode = t) {kind : Access}
    (hc : kind ≠ .exec → ¬vm.Lowered) : Looser vm (trapPrivHelper vm t) kind := by
  by_cases hf : kind = .exec
  · subst hf
    unfold trapPrivHelper
    split
    · exact looser_exec _ _
    · split <;> exact looser_exec _ _
  · have hr := hc hf
    unfold trapPrivHelper
    split
    · rename_i hm
      apply looser_status vm (stack_flags (by decide) (by decide) (by decide))
      intro hl
      by_cases hb : vm.mmuMode = satpModeBare
      · exact .inr hb
      · left
        have mpp : vm.mpp = privMachine := Classical.not_not.mp fun ho =>
          hr ⟨same.trans hm, hl, ho, hb⟩
        have field : ∀ status : W64, bitReplace (bitReplace status 7 1 (bitCut status 3 1)) 3 1 0 &&& mppMask =
            status &&& mppMask := by
          intro status
          rw [(agreeOff_bitReplace _ 3 1 0).and_eq (by decide), (agreeOff_bitReplace status 7 1 _).and_eq (by decide)]
        have hs := mpp_of_agree { vm with status := bitReplace vm.status 11 2 (vm.privMode.setWidth 64) }
          (field (bitReplace vm.status 11 2 (vm.privMode.setWidth 64)))
        exact hs.trans (mpp_bitReplace.trans ((same.trans hm).trans mpp.symm))
    · split
      · apply looser_status vm
        · rw [(agreeOff_bitReplace _ 0 1 0).and_eq (by decide), (agreeOff_bitReplace vm.status 4 1 _).and_eq (by decide)]
        · intro _
          left
          apply mpp_of_agree vm
          rw [(agreeOff_bitReplace _ 0 1 0).and_eq (by decide), (agreeOff_bitReplace vm.status 4 1 _).and_eq (by decide)]
      · apply looser_status vm (stack_flags (by decide) (by decide) (by decide))
        intro _
        left
        apply mpp_of_agree vm
        rw [(agreeOff_bitReplace _ 1 1 0).and_eq (by decide), (agreeOff_bitReplace _ 5 1 _).and_eq (by decide),
          (agreeOff_bitReplace vm.status 8 1 _).and_eq (by decide)]

theorem trapPrivHelper_frame {vm : Vm} {t : Priv} : (trapPrivHelper vm t).privMode = vm.privMode ∧
    (trapPrivHelper vm t).tlb = vm.tlb ∧ (trapPrivHelper vm t).host = vm.host ∧
      (trapPrivHelper vm t).mmioDevs = vm.mmioDevs ∧ (trapPrivHelper vm t).running = vm.running := by
  unfold trapPrivHelper
  split
  · exact ⟨rfl, rfl, rfl, rfl, rfl⟩
  · split <;> exact ⟨rfl, rfl, rfl, rfl, rfl⟩

theorem enterTrap_turned {t : Priv} (care : TrapCareful k vm) : Turned k vm (enterTrap board vm t) := by
  obtain ⟨hp, ht, hh, regions, hr⟩ := trapPrivHelper_frame
  apply switchPriv_turned regions
  intro hs
  apply Turned.eased ht hh regions hr.symm.trans
  intro ki hw
  exact trapPrivHelper_looser (hp.symm.trans hs) (care ki hw)

theorem Vm.Coherent.resume (h : vm.Coherent k board) :
    ({ vm with running := true, trap := false } : Vm).Coherent k board :=
  h.sameSpace ⟨rfl, rfl, rfl, rfl, rfl, rfl⟩ rfl

theorem riscvTrap_turned {c : Cause} (care : TrapCareful k vm) : Turned k vm (riscvTrap board vm c) := by
  unfold riscvTrap
  split
  · exact .refl vm
  · split
    · exact (Turned.refl vm).restart
    · exact (enterTrap_turned care).restart

theorem handleIrqs_turned (p : W64) (care : TrapCareful k vm) : Turned k vm (handleIrqs board vm p) := by
  unfold handleIrqs
  dsimp only
  split
  · exact .refl vm
  · split
    · exact .refl vm
    · split
      · exact .refl vm
      · exact enterTrap_turned care

theorem sret_turned : Turned k vm (sret board vm) := by
  apply Turned.ite
  apply switchPriv_turned
  · rfl
  intro _
  apply Turned.status
  intro kind _
  apply looser_status vm
  · rw [(agreeOff_bitReplace _ 1 1 _).and_eq (by decide), (agreeOff_bitReplace vm.status 8 1 _).and_eq (by decide)]
  · intro _
    left
    apply mpp_of_agree vm
    rw [(agreeOff_bitReplace _ 1 1 _).and_eq (by decide), (agreeOff_bitReplace vm.status 8 1 _).and_eq (by decide)]

theorem mret_turned (care : MretCareful k vm) : Turned k vm (mret board vm) := by
  unfold mret
  split
  · rename_i hm
    apply switchPriv_turned
    · rfl
    intro same
    have hs : vm.mpp = privMachine := same.symm.trans hm
    have hk : ¬vm.mpp < privMachine := by rw [hs]; decide
    rw [if_neg hk]
    apply Turned.status
    intro ki hw
    by_cases hf : ki = .exec
    · subst hf
      exact looser_exec _ _
    · apply looser_status vm
      · rw [(agreeOff_bitReplace _ 3 1 _).and_eq (by decide), (agreeOff_bitReplace vm.status 11 2 _).and_eq (by decide)]
      · intro hl
        right
        exact Classical.not_not.mp fun hp => care hm ki hw hf ⟨hs, hl, hp⟩
  · exact .refl vm

theorem sfenceVma_coherent {a : Option Addr} (h : vm.Coherent k board) : (sfenceVma vm a).Coherent k board := by
  unfold sfenceVma
  split
  · cases a with
    | none => exact coherent_of_empty h.placed rfl
    | some a => exact h.flushPage a
  · exact h

theorem settle_coherent {ac : Access} {r : Vm × Outcome} (held : vm.Coherent k board)
    (hk : Kept k board ac vm r.1) (care : FaultCareful k vm r.2) : (settle board r).Coherent k board := by
  obtain ⟨vm', o⟩ := r
  have ht := hk.coherent held
  cases o with
  | served => exact ht
  | refused => exact ht
  | fault c =>
    apply (riscvTrap_turned ?_).coherent ht
    intro ki hw hd hl
    apply care c rfl ki hw hd
    have hc : vm'.control.Lowered := hl
    rw [hk.control] at hc
    exact hc

end

section
variable {k : Access → Prop} {board : Board} {vm : Vm}

theorem settle_hit {c : Prop} [Decidable c] {r : Vm × Outcome} {ac : Access} (hc : vm.Coherent k board)
    (care : c ∨ Kept k board ac vm r.1 ∧ FaultCareful k vm (if c then (vm, .served) else r).2) :
    (settle board (if c then (vm, .served) else r)).Coherent k board := by
  by_cases hh : c
  · rw [if_pos hh]
    exact hc
  · obtain ⟨hk, hf⟩ := care.resolve_left hh
    rw [if_neg hh] at hf ⊢
    exact settle_coherent hc hk hf

theorem step_coherent (e : Event) (care : EventCareful k board vm e) (hc : vm.Coherent k board) :
    (step board vm e).Coherent k board := by
  cases e with
  | mstatus op d => exact (csrStatus_turned fun _ => care.each).ite.coherent hc
  | sstatus op d => exact (csrStatus_turned fun _ => care.each).ite.coherent hc
  | satp op d => exact (csrSatp_turned care).ite.coherent hc
  | trap c => exact (riscvTrap_turned care).coherent hc
  | dispatch p =>
    apply (handleIrqs_turned p ?_).coherent hc.resume
    exact care
  | mret => exact (mret_turned care).coherent hc
  | sret => exact sret_turned.coherent hc
  | sfenceVma addr => exact sfenceVma_coherent hc
  | load va sz => exact settle_hit hc (care.imp_right fun h => ⟨mmuOp_kept h.1 (plainAttr_ptr .read), h.2⟩)
  | store va sz => exact settle_hit hc (care.imp_right fun h => ⟨mmuOp_kept h.1 (plainAttr_ptr .write), h.2⟩)
  | fetch va l =>
    rcases care with hh | ⟨first, hs, hf⟩
    · have idle : fetchInsn board vm va l = (vm, .served) := if_pos hh
      rw [step, idle]
      exact hc
    · exact settle_coherent hc (fetchInsn_kept l first hs) hf
  | roTranslate va sz b => exact settle_hit hc (care.imp_right fun h => ⟨mmuOp_kept h.1 nofun, h.2⟩)
  | rmwTranslate va sz b => exact settle_hit hc (care.imp_right fun h => ⟨mmuOp_kept h.1 nofun, h.2⟩)
  | rmwCommit va sz => exact (mmuOp_kept care (plainAttr_ptr .write)).coherent hc
  | moveRegion bar addr => exact hc.move care

theorem run_coherent {s : Vm} {es : List Event} (hc : s.Coherent k board)
    (care : StepsMeet (step board) (EventCareful k board) s es) : (run (step board) s es).Coherent k board :=
  care.run_invariant (fun _ e => step_coherent e) hc

end

/-- From a flushed translation cache, in a careful run whose memory accesses change no page table but for
  accessed and dirty bits, whatever hits is translated now, and to the host address the entry yields. -/
theorem tlb_hit_serves (board : Board) (start : Vm) (events : List Event) (flushed : start.tlb = emptyTlb)
    (placed : Placed start.mmioDevs)
    (careful : StepsMeet (step board) (EventCareful (fun _ => True) board) start events) (vaddr : Addr) (access : Access)
    (hit : (run (step board) start events).Hits vaddr access) :
    ∃ paddr host, mmuTranslate board (run (step board) start events) vaddr access = some (paddr, host) ∧
      hostOf board (run (step board) start events).mmioDevs paddr =
        some (((run (step board) start events).entryOf vaddr).ptr + vaddr) := by
  have coherent := run_coherent (coherent_of_empty placed flushed) careful
  obtain ⟨paddr, translated, behind⟩ := Option.bind_eq_some_iff.mp (coherent.serves vaddr access True.intro hit)
  obtain ⟨⟨paddr, host⟩, walked, rfl⟩ := Option.map_eq_some_iff.mp translated
  exact ⟨paddr, host, walked, behind⟩

def plainBoard : Board where
  mem := ⟨0, 0x4000, 0x10000⟩
  addrAligned := by unfold Aligned; decide
  sizeAligned := by unfold Aligned; decide
  rv64 := true
  sv57 := false
  useRv32 := true
  useRv64 := true
  useFpu := true
  useRvv := false

def userPageVm : Vm where
  tlb := emptyTlb
  host := fun ptr => if ptr = 0x10000 then 0x13 else 0
  mmioDevs := []
  status := statusSum
  isa := misaRv64
  edeleg := fun _ => 0
  ideleg := fun _ => 0
  rootPageTable := ⟨0, by unfold Aligned; decide⟩
  mmuMode := satpModeSv39
  privMode := privSupervisor
  rv64 := true
  userland := false
  trap := false
  running := true

theorem loaded_user_page_serves : ∃ paddr host,
    mmuTranslate plainBoard (run (step plainBoard) userPageVm [.load 0x1000 8]) 0x1008 .read = some (paddr, host) ∧
      hostOf plainBoard [] paddr =
        some (((run (step plainBoard) userPageVm [.load 0x1000 8]).entryOf 0x1008).ptr + 0x1008) := by
  have missed (vaddr : Addr) (kind : Access) : ¬userPageVm.Hits vaddr kind := not_hits_emptyTlb rfl vaddr kind
  have fill (vaddr : Addr) : FillCareful (fun _ => True) plainBoard userPageVm vaddr .read :=
    ⟨fun kind _ hit => absurd hit (missed vaddr kind), nofun⟩
  have ended : (loadOp plainBoard userPageVm 0x1000 8).2 = .served := by decide +kernel
  have quiet : FaultCareful (fun _ => True) userPageVm (loadOp plainBoard userPageVm 0x1000 8).2 := by
    intro cause fault
    rw [ended] at fault
    cases fault
  have regions : (run (step plainBoard) userPageVm [.load 0x1000 8]).mmioDevs = [] := by decide +kernel
  rw [← regions]
  apply tlb_hit_serves plainBoard userPageVm [.load 0x1000 8] rfl placed_nil
    ⟨.inr ⟨⟨fill _, fun _ => fill _⟩, quiet⟩, True.intro⟩
  decide +kernel

theorem cleared_sum_still_hits :
    (run (step plainBoard) userPageVm [.load 0x1000 8, .sstatus .clearBits statusSum]).Hits 0x1000 .read ∧
      (mmuTranslate plainBoard (run (step plainBoard) userPageVm [.load 0x1000 8, .sstatus .clearBits statusSum])
        0x1000 .read).isNone := by
  decide +kernel

open BitVec

section
variable (board : Board) (vm : Vm) (write : CsrOp × W64)

def readSatp : W64 := rawSatp vm 0 .setBits

def satpWrite : Vm := csrSatp board vm write.2 write.1

def SatpEffective : Prop :=
  ¬(vm.status &&& statusTvm ≠ 0 ∧ vm.privMode < privMachine) →
    let satp := rawSatp vm write.2 write.1
    let after := satpWrite board vm write
    if satpSupported board vm.rv64 (satpMode vm.rv64 satp) then
      (after.mmuMode = satpMode vm.rv64 satp ∧ after.rootPageTable = satpRoot vm.rv64 satp) ∧
      satpMode vm.rv64 (readSatp after) = satpMode vm.rv64 satp ∧ satpRoot vm.rv64 (readSatp after) = satpRoot vm.rv64 satp
    else after = vm

/-- A supported mode that is written is the one in use, or turns paging on or off. -/
def KeepsOrTurns : Prop :=
  ¬(vm.status &&& statusTvm ≠ 0 ∧ vm.privMode < privMachine) →
    let mode := satpMode vm.rv64 (rawSatp vm write.2 write.1)
    satpSupported board vm.rv64 mode → mode = vm.mmuMode ∨ decide (vm.mmuMode ≠ 0) ≠ decide (mode ≠ 0)

variable {board vm write}

theorem satp_fields (satp : W64) {n p b : Nat} (hn : n ≤ p) (hf : n ≤ 52) (hp : p + b ≤ 64) (hb : b ≤ 8) :
    let reg := (((bitCut satp p b).setWidth 8).setWidth 64 <<< p) ||| (((satp &&& bitMask n) <<< 12) >>> 12)
    bitCut reg p b = bitCut satp p b ∧ reg &&& bitMask n = satp &&& bitMask n := by
  intro reg
  have hr (i : Nat) : reg.getLsbD i = (decide (i < n ∨ p ≤ i ∧ i < p + b) && satp.getLsbD i) := by
    simp only [reg, getLsbD_or, getLsbD_shiftLeft, getLsbD_ushiftRight, getLsbD_setWidth, bitCut_getLsbD hp, getLsbD_and,
      bitMask_getLsbD (show n < 64 by omega)]
    by_cases hl : i < n
    · simp [hl, show i < p by omega, show 12 + i < 64 by omega]
    · by_cases hm : p ≤ i ∧ i < p + b
      · simp [hl, hm, show i - p < b by omega, show i - p < 8 by omega, show i - p < 64 by omega, show i < 64 by omega]
      · by_cases h : i < p
        · simp [hl, show ¬p ≤ i by omega]
        · simp [hl, hm, show ¬i - p < b by omega]
  constructor
  · apply eq_of_getLsbD_eq
    intro i _
    rw [bitCut_getLsbD hp, bitCut_getLsbD hp, hr]
    by_cases h : i < b
    · simp [h]
    · simp [h]
  · apply eq_of_getLsbD_eq
    intro i _
    rw [getLsbD_and, getLsbD_and, hr, bitMask_getLsbD (by omega)]
    by_cases h : i < n
    · simp [h]
    · simp [h]

theorem readSatp_written {rv64 : Bool} {satp : W64} (hx : vm.rv64 = rv64) (hm : vm.mmuMode = satpMode rv64 satp)
    (hr : vm.rootPageTable = satpRoot rv64 satp) :
    satpMode rv64 (readSatp vm) = satpMode rv64 satp ∧ satpRoot rv64 (readSatp vm) = satpRoot rv64 satp := by
  have hs : readSatp vm = (if rv64 then (satpMode rv64 satp).setWidth 64 <<< 60
      else (satpMode rv64 satp).setWidth 64 <<< 31) |||
      ((satpRoot rv64 satp).val >>> pageShift) := by
    simp [readSatp, rawSatp, csrHelper, csrHelperMasked, hx, hm, hr]
  rw [hs]
  cases rv64 with
  | true =>
    obtain ⟨mode, root⟩ := satp_fields satp (n := 44) (p := 60) (b := 4) (by decide) (by decide) (by decide) (by decide)
    exact ⟨congrArg (setWidth 8) mode, Subtype.ext (congrArg (fun x : W64 => x <<< 12) root)⟩
  | false =>
    obtain ⟨mode, root⟩ := satp_fields satp (n := 22) (p := 31) (b := 1) (by decide) (by decide) (by decide) (by decide)
    exact ⟨congrArg (setWidth 8) mode, Subtype.ext (congrArg (fun x : W64 => x <<< 12) root)⟩

theorem satpEffective_iff : SatpEffective board vm write ↔ KeepsOrTurns board vm write := by
  apply imp_congr_right
  intro hp
  unfold satpWrite csrSatp
  rw [if_neg hp]
  generalize rawSatp vm write.2 write.1 = satp
  by_cases hs : satpSupported board vm.rv64 (satpMode vm.rv64 satp)
  · rw [if_pos hs, if_pos hs]
    by_cases ht : decide (vm.mmuMode ≠ 0) ≠ decide (satpMode vm.rv64 satp ≠ 0)
    · rw [if_pos ht]
      exact iff_of_true ⟨⟨rfl, rfl⟩, readSatp_written rfl rfl rfl⟩ fun _ => .inr ht
    · rw [if_neg ht]
      constructor
      · exact fun h _ => .inl h.1.1.symm
      · intro h
        have hm := ((h hs).resolve_right ht).symm
        exact ⟨⟨hm, rfl⟩, readSatp_written rfl hm rfl⟩
  · rw [if_neg hs, if_neg hs]
    exact iff_of_true rfl fun h => absurd h hs

end

/-- A write between two paged modes changes the root and keeps the mode. -/
theorem satp_writes_effective_iff (board : Board) (vm : Vm) (writes : List (CsrOp × W64)) :
    StepsMeet (satpWrite board) (SatpEffective board) vm writes ↔ StepsMeet (satpWrite board) (KeepsOrTurns board) vm writes :=
  stepsMeet_iff_of_invariant (i := fun _ => True) (fun _ _ _ => satpEffective_iff) (fun _ _ _ _ => trivial) trivial

theorem sv48_walked_as_sv39 : (satpWrite plainBoard userPageVm (.swap, 0x9000000000000002)).mmuMode = satpModeSv39 ∧
    (satpWrite plainBoard userPageVm (.swap, 0x9000000000000002)).rootPageTable.val = 0x2000 ∧
    ¬StepsMeet (satpWrite plainBoard) (SatpEffective plainBoard) userPageVm [(.swap, 0x9000000000000002)] := by
  have mode : (satpWrite plainBoard userPageVm (.swap, 0x9000000000000002)).mmuMode = satpModeSv39 := by decide +kernel
  refine ⟨mode, by decide +kernel, fun meets => ?_⟩
  have equal := (meets.1 (by decide +kernel)).1.1
  exact absurd equal (by decide +kernel)

end RiscvEmulators.Rvvm
