import Riscv.Qemu.Cpu.Confinement

namespace RiscvEmulators.Qemu.Cpu
open Word Transition

@[ext] structure SupervisorRegs where
  status : W64
  stvec : W64
  sscratch : W64
  sepc : W64
  scause : W64
  stval : W64
  satp : W64
deriving DecidableEq

variable (env : CPURISCVState)

def currentRegs : SupervisorRegs where
  status := env.mstatus
  stvec := env.stvec
  sscratch := env.sscratch
  sepc := env.sepc
  scause := env.scause
  stval := env.stval
  satp := env.satp

def guestRegs : SupervisorRegs where
  status := env.vsstatus
  stvec := env.vstvec
  sscratch := env.vsscratch
  sepc := env.vsepc
  scause := env.vscause
  stval := env.vstval
  satp := env.vsatp

def enterVirt : CPURISCVState :=
  { riscvCpuSwapHypervisorRegs env with virtEnabled := true }

def leaveVirt : CPURISCVState :=
  { riscvCpuSwapHypervisorRegs env with virtEnabled := false }

/-- A guest's write of a supervisor register; `legalize_xatp` may refuse a value of `satp`. -/
inductive GuestWrite where
  | sstatus (val : W64)
  | stvec (val : W64)
  | sscratch (val : W64)
  | sepc (val : W64)
  | scause (val : W64)
  | stval (val : W64)
  | satp (val : W64) (taken : Bool)

def stvecWritten (old val : W64) : W64 := if val &&& 3 < 2 then val else old

def guestWrite : GuestWrite → CPURISCVState
  | .sstatus val => writeSstatus env val
  | .stvec val => { env with stvec := stvecWritten env.stvec val }
  | .sscratch val => { env with sscratch := val }
  | .sepc val => { env with sepc := val &&& getXepcMask env }
  | .scause val => { env with scause := val }
  | .stval val => { env with stval := val }
  | .satp val taken => { env with satp := if taken then val else env.satp }

def guestWritable (val : W64) : W64 := sstatusWriteMask env val &&& mstatusWriteMask env val

def guestStatus (val : W64) : W64 :=
  if riscvEnvSmodeDbltrpEnabled env true && val &&& mstatusSdt != 0 then val &&& ~~~mstatusSie else val

def dropMie (status : W64) : W64 := if dropsMie env then status &&& ~~~mstatusMie else status

def privateWrite (regs : SupervisorRegs) : GuestWrite → SupervisorRegs
  | .sstatus val => { regs with status := merge regs.status (guestWritable env val) (guestStatus env val) }
  | .stvec val => { regs with stvec := stvecWritten regs.stvec val }
  | .sscratch val => { regs with sscratch := val }
  | .sepc val => { regs with sepc := val &&& getXepcMask env }
  | .scause val => { regs with scause := val }
  | .stval val => { regs with stval := val }
  | .satp val taken => { regs with satp := if taken then val else regs.satp }

def lastSstatus (last : Option W64) : List GuestWrite → Option W64
  | [] => last
  | .sstatus val :: writes => lastSstatus (some val) writes
  | _ :: writes => lastSstatus last writes

section

theorem sdt_eq : mstatusSdt = BitVec.twoPow 64 24 := by decide

theorem sie_eq : mstatusSie = BitVec.twoPow 64 1 := by decide

theorem legalizeMpp_kept {env : CPURISCVState} {val : W64} (hs : val &&& mstatusMpp = env.mstatus &&& mstatusMpp) :
    legalizeMpp env (getField env.mstatus mstatusMpp) val = val := by
  have hr : setField val mstatusMpp (getField env.mstatus mstatusMpp) = val := by
    rw [setField_getField val env.mstatus mstatusMpp 11 (by decide) (by decide) (by decide), ← hs]
    exact merge_self val mstatusMpp
  simp [legalizeMpp, hr]

variable (env : CPURISCVState) (val : W64)

theorem sstatusWriteMask_within :
    Within (sstatusV110Mask ||| mstatus64Uxl ||| mstatusSpelp ||| mstatusSdt) (sstatusWriteMask env val) := by
  refine .or (.or (.or ?_ ?_) ?_) ?_
  · decide
  all_goals exact within_ite fun _ => by decide

theorem sstatusWriteMask_apart {bits : W64}
    (h : Within (~~~(sstatusV110Mask ||| mstatus64Uxl ||| mstatusSpelp ||| mstatusSdt)) bits) :
    Within (~~~sstatusWriteMask env val) bits :=
  h.mono (sstatusWriteMask_within env val).not

theorem mstatusWriteMask_congr {x y : W64} (h : (x &&& mstatus64Uxl != 0) = (y &&& mstatus64Uxl != 0)) :
    mstatusWriteMask env x = mstatusWriteMask env y := by
  unfold mstatusWriteMask
  rw [h]

theorem mstatusWriteMask_agree {x y : W64} :
    AgreeOff mstatus64Uxl (mstatusWriteMask env x) (mstatusWriteMask env y) := by
  have h (z : W64) : AgreeOff mstatus64Uxl (if z &&& mstatus64Uxl != 0 then mstatus64Uxl else 0) 0 := by
    split
    · decide
    · exact .refl _ _
  refine .or (.or (.refl _ _) ?_) (.refl _ _)
  split
  · exact .or (.refl _ _) ((h x).trans (h y).symm)
  · exact .refl _ _

theorem guestWritable_eq {val l : W64}
    (hs : sstatusWriteMask env val &&& mstatus64Uxl ≠ 0 → l &&& mstatus64Uxl = val &&& mstatus64Uxl) :
    sstatusWriteMask env val &&& mstatusWriteMask env l = guestWritable env val := by
  unfold guestWritable
  by_cases hw : sstatusWriteMask env val &&& mstatus64Uxl = 0
  · rw [BitVec.and_comm, BitVec.and_comm (sstatusWriteMask env val)]
    apply (mstatusWriteMask_agree env).and_eq
    exact hw
  · rw [mstatusWriteMask_congr env]
    rw [hs hw]

theorem within_sstatusWriteMask {bits : W64} (h : Within sstatusV110Mask bits) :
    Within (sstatusWriteMask env val) bits := by
  exact h.mono (((within_or_left _ _).mono (within_or_left _ _)).mono (within_or_left _ _))

theorem sstatusWriteMask_sdt {env : CPURISCVState} {v : Bool} (h : riscvEnvSmodeDbltrpEnabled env v)
    {val : W64} : Within (sstatusWriteMask env val) mstatusSdt := by
  unfold sstatusWriteMask
  rw [dbltrp_implemented h]
  exact within_or_right _ _

theorem sstatusWriteMask_uxl {env : CPURISCVState} {val : W64} (wide : sstatusWriteMask env val &&& mstatus64Uxl ≠ 0) :
    Within (sstatusWriteMask env val) mstatus64Uxl := by
  by_cases hw : (env.xl ≠ Mxl.rv32.code ∨ env.debugger) ∧ val &&& mstatus64Uxl ≠ 0
  · unfold sstatusWriteMask
    rw [if_pos hw]
    exact ((within_or_right _ _).mono (within_or_left _ _)).mono (within_or_left _ _)
  · refine absurd (Within.and_eq_zero ?_) wide
    unfold sstatusWriteMask
    rw [if_neg hw]
    refine .or (.or (by decide) ?_) ?_
    all_goals exact within_ite fun _ => by decide

theorem guestStatus_uxl : guestStatus env val &&& mstatus64Uxl = val &&& mstatus64Uxl := by
  unfold guestStatus
  split
  · exact (agreeOff_and_not val (within_self mstatusSie)).and_eq (by decide)
  · rfl

theorem mstatusLegalized_guest {env : CPURISCVState} (hv : env.virtEnabled) (val : W64) :
    mstatusLegalized env (merge env.mstatus (sstatusWriteMask env val) val) =
      dropMie env (merge env.mstatus (sstatusWriteMask env val) (guestStatus env val)) := by
  let c := sstatusWriteMask env val
  have ho (bits : W64) (ha : Within (~~~(sstatusV110Mask ||| mstatus64Uxl ||| mstatusSpelp ||| mstatusSdt)) bits)
      (v : W64) : merge env.mstatus c v &&& bits = env.mstatus &&& bits :=
    (agreeOff_merged _ _ _).and_eq (sstatusWriteMask_apart env val ha)
  have hs : (if riscvEnvSmodeDbltrpEnabled env env.virtEnabled &&
      merge env.mstatus c val &&& mstatusSdt != 0
      then merge env.mstatus c val &&& ~~~mstatusSie
      else merge env.mstatus c val) =
        merge env.mstatus c (guestStatus env val) := by
    unfold guestStatus
    rw [hv]
    cases he : riscvEnvSmodeDbltrpEnabled env true with
    | false => rfl
    | true =>
      have has : merge env.mstatus c val &&& mstatusSdt = val &&& mstatusSdt :=
        masked_and _ _ (sstatusWriteMask_sdt he)
      rw [has]
      cases val &&& mstatusSdt != 0 with
      | false => rfl
      | true => exact merge_and_not _ _ (within_sstatusWriteMask env val (by decide))
  unfold mstatusLegalized
  dsimp only
  rw [legalizeMpp_kept (ho mstatusMpp (by decide) val), hs, ho mstatusMdt (by decide)]
  rfl

theorem getElem_dropMie (status : W64) {i : Nat} (bound : i < 64) :
    (dropMie env status)[i] = (status[i] && !(dropsMie env && decide (i = 3))) := by
  unfold dropMie
  cases dropsMie env with
  | false => simp
  | true =>
    by_cases h : i = 3 <;> simp [mie_eq]

theorem writeSstatus_mstatus {env : CPURISCVState} (hv : env.virtEnabled) (val : W64) :
    (writeSstatus env val).mstatus = dropMie env (merge env.mstatus (guestWritable env val) (guestStatus env val)) := by
  have hl := mstatusLegalized_guest hv val
  let c := sstatusWriteMask env val
  have hr : (writeSstatus env val).mstatus = merge env.mstatus
      (mstatusWriteMask env (mstatusLegalized env (merge env.mstatus c val)))
      (mstatusLegalized env (merge env.mstatus c val)) := writeMstatus_mstatus env _
  have hw : sstatusWriteMask env val &&&
      mstatusWriteMask env (dropMie env (merge env.mstatus c (guestStatus env val))) =
        guestWritable env val := by
    refine guestWritable_eq env fun wide => ?_
    rw [← guestStatus_uxl env val, ← masked_and env.mstatus (guestStatus env val) (sstatusWriteMask_uxl wide)]
    unfold dropMie
    split
    · exact (agreeOff_and_not _ (within_self mstatusMie)).and_eq (by decide)
    · rfl
  have hm : (mstatusWriteMask env
      (dropMie env (merge env.mstatus c (guestStatus env val))))[3] := by
    simp [mstatusWriteMask, mie_eq]
  rw [hr, hl, ← hw]
  apply BitVec.eq_of_getElem_eq
  intro i bound
  simp only [getElem_merge, getElem_dropMie, BitVec.getElem_and]
  generalize mstatusWriteMask env _ = mk at hm ⊢
  by_cases hh : i = 3
  · subst hh
    simp [hm]
  · cases mk[i] <;> simp [hh]

end

def swapBase (env : CPURISCVState) : W64 :=
  mstatusMxr ||| mstatusSum ||| mstatusSpp ||| mstatusSpie ||| mstatusSie ||| mstatus64Uxl ||| mstatusVs |||
    (if env.misaExt.rvf then mstatusFs else 0) |||
    (if env.cfg.extZicfilp && getField env.envcfg.henvcfg menvcfgLpe != 0 then mstatusSpelp else 0)

def sharesSpelp (env : CPURISCVState) : Bool :=
  env.cfg.extZicfilp && getField env.envcfg.henvcfg menvcfgLpe == 0

/-- The bits of `mstatus` that hold the guest's values: those exchanged at its entry and, once it has written `sstatus`,
  those it can write. -/
def ownMask (env : CPURISCVState) (written : Bool) : W64 :=
  swapBase env ||| (if riscvEnvSmodeDbltrpEnabled env false then mstatusSdt else 0) |||
    (if written && sharesSpelp env then mstatusSpelp else 0) |||
    (if written && riscvEnvSmodeDbltrpEnabled env true then mstatusSdt else 0)

section
variable (env : CPURISCVState)

theorem getElem_ite_bit {c : Bool} {i k : Nat} (bound : i < 64) :
    (if c then BitVec.twoPow 64 k else 0)[i] = (c && decide (i = k)) := by
  cases c <;> simp

theorem getElem_swapMask {i : Nat} (bound : i < 64) :
    (swapMask env)[i] = ((swapBase env)[i] || riscvEnvSmodeDbltrpEnabled env env.virtEnabled && decide (i = 24)) := by
  show (swapBase env ||| (if riscvEnvSmodeDbltrpEnabled env env.virtEnabled then mstatusSdt else 0))[i] = _
  rw [BitVec.getElem_or, sdt_eq, getElem_ite_bit]

theorem getElem_ownMask (w : Bool) {i : Nat} (bound : i < 64) :
    (ownMask env w)[i] = ((swapBase env)[i] || riscvEnvSmodeDbltrpEnabled env false && decide (i = 24) ||
      w && sharesSpelp env && decide (i = 23) || w && riscvEnvSmodeDbltrpEnabled env true && decide (i = 24)) := by
  unfold ownMask
  simp only [BitVec.getElem_or, sdt_eq, spelp_eq, getElem_ite_bit]

theorem swapBase_apart : (swapBase env)[24] = false ∧ (swapBase env)[3] = false := by
  unfold swapBase
  cases env.misaExt.rvf <;> cases env.cfg.extZicfilp && getField env.envcfg.henvcfg menvcfgLpe != 0 <;> decide

theorem swapBase_spelp (hs : sharesSpelp env) : (swapBase env)[23] = false := by
  have hk : (env.cfg.extZicfilp && getField env.envcfg.henvcfg menvcfgLpe != 0) = false := by
    simp_all [sharesSpelp]
  unfold swapBase
  rw [hk]
  cases env.misaExt.rvf <;> decide

theorem mstatusWriteMask_within (h : env.virtEnabled) (val : W64) :
    Within (~~~(mstatusUie ||| mstatusUpie ||| mstatusXs |||
      (if env.misaExt.rvf then 0 else mstatusFs) ||| (if riscvEnvSmodeDbltrpEnabled env true then 0 else mstatusSdt)))
      (mstatusWriteMask env val) := by
  unfold mstatusWriteMask
  rw [h]
  cases env.misaExt.rvf <;> cases riscvEnvSmodeDbltrpEnabled env true <;>
    refine .or (.or (.or (.or (.or (.or ?_ ?_) ?_) ?_) ?_) ?_) ?_ <;>
    first
    | decide
    | exact within_ite fun _ => by decide
    | exact within_ite fun _ => .or (within_ite fun _ => by decide) (within_ite fun _ => by decide)

theorem guestWritable_sstatus (val : W64) : Within (sstatusWriteMask env val) (guestWritable env val) := by
  rw [guestWritable, BitVec.and_comm]
  exact (within_self _).and_right _

variable {val : W64}

theorem guestWritable_mstatus : Within (mstatusWriteMask env val) (guestWritable env val) :=
  (within_self _).and_right _

theorem guestWritable_own (hv : env.virtEnabled) (val : W64) : Within (ownMask env true) (guestWritable env val) := by
  have hs : Within (sstatusV110Mask ||| mstatus64Uxl ||| (if env.cfg.extZicfilp then mstatusSpelp else 0) |||
      mstatusSdt) (sstatusWriteMask env val) := by
    unfold sstatusWriteMask
    cases env.cfg.extZicfilp <;> refine .or (.or (.or ?_ ?_) ?_) ?_ <;>
      first
      | decide
      | exact within_ite fun _ => by decide
  have hm := mstatusWriteMask_within env hv val
  have hb := Within.inter (Within.mono (guestWritable_sstatus env val) hs)
    (Within.mono (guestWritable_mstatus env) hm)
  apply hb.mono
  unfold ownMask swapBase sharesSpelp
  rw [bne]
  cases env.misaExt.rvf <;> cases env.cfg.extZicfilp <;> cases getField env.envcfg.henvcfg menvcfgLpe == 0 <;>
    cases riscvEnvSmodeDbltrpEnabled env false <;> cases riscvEnvSmodeDbltrpEnabled env true <;> decide

theorem guestWritable_spelp (hs : sharesSpelp env) : Within (guestWritable env val) mstatusSpelp := by
  have hp : env.cfg.extZicfilp := (Bool.and_eq_true_iff.mp hs).1
  unfold guestWritable sstatusWriteMask mstatusWriteMask
  rw [hp]
  exact ((within_or_right _ _).mono (within_or_left _ _)).inter
    ((show Within (mstatusMpelp ||| mstatusSpelp) mstatusSpelp by decide).mono (within_or_right _ _))

theorem guestWritable_enabled (hv : env.virtEnabled) (he : riscvEnvSmodeDbltrpEnabled env true)
    : Within (guestWritable env val) mstatusSdt := by
  apply (sstatusWriteMask_sdt he).inter
  unfold mstatusWriteMask
  rw [hv, he]
  exact (((within_or_right _ _).mono (within_or_left _ _)).mono (within_or_left _ _)).mono (within_or_left _ _)

theorem own_writable (hv : env.virtEnabled) {i : Nat} (bound : i < 64)
    (own : (ownMask env true)[i]) (hu : (ownMask env false)[i] = false) : (guestWritable env val)[i] := by
  rw [getElem_ownMask] at own hu
  simp only [Bool.false_and, Bool.or_false, Bool.true_and] at own hu
  rw [hu, Bool.false_or, Bool.or_eq_true, Bool.and_eq_true, Bool.and_eq_true, decide_eq_true_eq,
    decide_eq_true_eq] at own
  rcases own with ⟨hs, rfl⟩ | ⟨he, rfl⟩
  · exact (guestWritable_spelp env hs).getLsbD (n := 23) (by decide)
  · exact (guestWritable_enabled env hv he).getLsbD (n := 24) (by decide)

theorem guestWritable_sdt (hv : env.virtEnabled) (val : W64)
    (hd : riscvEnvSmodeDbltrpEnabled env true = false) : (guestWritable env val)[24] = false := by
  have hm := mstatusWriteMask_within env hv val
  rw [hd, within_iff] at hm
  rw [guestWritable, BitVec.getElem_and, hm 24 (by decide), Bool.and_false]
  cases env.misaExt.rvf <;> decide

end

section
variable {env : CPURISCVState} {last : Option W64} {regs : SupervisorRegs} {status xl : W64}

def insideState (env : CPURISCVState) (regs : SupervisorRegs) (xl : W64) : CPURISCVState :=
  { env with
    virtEnabled := true
    xl := xl
    mstatusHs := env.mstatus &&& swapMask env
    mstatus := regs.status
    stvecHs := env.stvec, stvec := regs.stvec
    sscratchHs := env.sscratch, sscratch := regs.sscratch
    sepcHs := env.sepc, sepc := regs.sepc
    scauseHs := env.scause, scause := regs.scause
    stvalHs := env.stval, stval := regs.stval
    satpHs := env.satp, satp := regs.satp }

structure StatusInside (env : CPURISCVState) (last : Option W64) (own status : W64) : Prop where
  shape : status = if last.isSome then dropMie env (merge env.mstatus (ownMask env last.isSome) own)
    else merge env.mstatus (ownMask env last.isSome) own
  within : Within (ownMask env last.isSome) own
  spelp : ∀ val, last = some val → sharesSpelp env → own[23] = val[23]
  sdt : riscvEnvSmodeDbltrpEnabled env true = false → own[24] = env.vsstatus[24]

theorem ownMask_swap (h : env.virtEnabled = false) : ownMask env false = swapMask env := by
  apply BitVec.eq_of_getElem_eq
  intro i bound
  rw [getElem_ownMask, getElem_swapMask, h]
  simp

theorem statusInside_enter (hh : env.virtEnabled = false) (hb : Within (swapMask env) env.vsstatus) :
    StatusInside env none env.vsstatus ((env.mstatus &&& ~~~swapMask env) ||| env.vsstatus) := by
  refine ⟨?_, ?_, fun val ha => (by cases ha), fun _ => rfl⟩
  · show _ = merge env.mstatus (ownMask env false) env.vsstatus
    rw [ownMask_swap hh, merge, hb.and_eq]
  · show Within (ownMask env false) env.vsstatus
    rw [ownMask_swap hh]
    exact hb

theorem ownMask_mdt {env : CPURISCVState} {w : Bool} : Within (~~~ownMask env w) mstatusMdt := by
  unfold ownMask swapBase
  cases env.misaExt.rvf <;> cases env.cfg.extZicfilp && getField env.envcfg.henvcfg menvcfgLpe != 0 <;>
    cases w && sharesSpelp env <;> cases riscvEnvSmodeDbltrpEnabled env false <;>
    cases w && riscvEnvSmodeDbltrpEnabled env true <;> decide

theorem StatusInside.mdt {own : W64} (i1 : StatusInside env last own status) :
    status &&& mstatusMdt = env.mstatus &&& mstatusMdt := by
  have h : merge env.mstatus (ownMask env last.isSome) own &&& mstatusMdt = env.mstatus &&& mstatusMdt :=
    (agreeOff_merged _ _ _).and_eq ownMask_mdt
  rw [i1.shape]
  split
  · unfold dropMie
    split
    · exact ((agreeOff_and_not _ (within_self mstatusMie)).and_eq (by decide)).trans h
    · exact h
  · exact h

theorem ownMask_mono {w : Bool} {i : Nat} (bound : i < 64) (h : (ownMask env w)[i]) : (ownMask env true)[i] := by
  cases w with
  | true => exact h
  | false =>
    rw [getElem_ownMask] at h ⊢
    simp_all

theorem StatusInside.write {own w v val : W64} (i1 : StatusInside env last own status)
    (hr : Within (ownMask env true) w)
    (hf : ∀ (i : Nat) (bound : i < 64), (ownMask env true)[i] → (ownMask env false)[i] = false → w[i])
    (pad : v[23] = val[23]) (sdt : riscvEnvSmodeDbltrpEnabled env true = false → w[24] = false) :
    StatusInside env (some val) (merge own w v) (dropMie env (merge status w v)) := by
  rw [within_iff] at hr
  have how := (within_iff _ _).mp i1.within
  refine ⟨?_, ?_, ?_, ?_⟩
  · show _ = dropMie env (merge env.mstatus (ownMask env true) (merge own w v))
    rw [i1.shape]
    apply BitVec.eq_of_getElem_eq
    intro i bound
    have hk : (ownMask env false)[i] → (ownMask env true)[i] := ownMask_mono bound
    cases last with
    | none =>
      simp only [Option.isSome_none, Bool.false_eq_true, if_false, getElem_dropMie, getElem_merge]
      cases hw : w[i] <;> cases hb : (ownMask env false)[i] <;>
        cases ha : (ownMask env true)[i] <;> simp_all
    | some old =>
      simp only [Option.isSome_some, if_true, getElem_dropMie, getElem_merge]
      cases hw : w[i] <;> cases ha : (ownMask env true)[i] <;> simp_all
  · show Within (ownMask env true) (merge own w v)
    rw [within_iff]
    intro i bound hc
    have hu : (ownMask env last.isSome)[i] = false := by
      cases ho : (ownMask env last.isSome)[i] with
      | false => rfl
      | true => exact absurd (ownMask_mono bound ho) (by simp [hc])
    rw [getElem_merge, hr i bound hc, how i bound hu]
    rfl
  · rintro val' has hs
    cases has
    have hw : w[23] := by
      refine hf 23 (by decide) ?_ ?_
      · rw [getElem_ownMask, hs]
        simp
      · rw [getElem_ownMask, swapBase_spelp env hs]
        simp
    rw [getElem_merge, hw]
    exact pad
  · intro hd
    rw [getElem_merge, sdt hd]
    exact i1.sdt hd

theorem enterVirt_eq (h : env.virtEnabled = false) : enterVirt env =
    insideState env { guestRegs env with status := (env.mstatus &&& ~~~swapMask env) ||| env.vsstatus } env.xl := by
  unfold enterVirt riscvCpuSwapHypervisorRegs
  rw [if_neg (by simp [h])]
  rfl

theorem ownMask_enter (h : env.virtEnabled = false) (written : Bool) :
    ownMask (enterVirt env) written = ownMask env written := by
  rw [enterVirt_eq h]
  rfl

theorem guestWritable_inside {regs r' : SupervisorRegs} {val : W64} (hk : env.debugger = false → xl = env.xl) :
    guestWritable (insideState env regs xl) val = guestWritable (insideState env r' env.xl) val := by
  cases hw : env.debugger with
  | false =>
    rw [hk hw]
    rfl
  | true =>
    unfold guestWritable sstatusWriteMask
    have hw2 (x : W64) : (insideState env r' x).debugger := hw
    have width (x : W64) : (insideState env regs x).debugger := hw
    simp only [hw2, width, or_true]
    rfl

theorem writeSstatus_frame {t : CPURISCVState} {val : W64} : ∃ xl, (t.debugger = false → xl = t.xl) ∧
    writeSstatus t val = { t with mstatus := (writeSstatus t val).mstatus, xl := xl } := by
  unfold writeSstatus writeMstatus
  split
  case isTrue hw => exact ⟨_, fun hc => absurd hw (by simp [hc]), rfl⟩
  case isFalse => exact ⟨t.xl, fun _ => rfl, rfl⟩

def Inside (env : CPURISCVState) (last : Option W64) (own : SupervisorRegs) (t : CPURISCVState) : Prop :=
  ∃ status xl, t = insideState env { own with status := status } xl ∧ (env.debugger = false → xl = env.xl) ∧
    StatusInside env last own.status status

theorem inside_enter (hh : env.virtEnabled = false) (hb : Within (swapMask env) env.vsstatus) :
    Inside env none (guestRegs env) (enterVirt env) :=
  ⟨_, _, enterVirt_eq hh, fun _ => rfl, statusInside_enter hh hb⟩

variable {own : SupervisorRegs} {t : CPURISCVState}

theorem inside_sstatus (hh : env.virtEnabled = false) (i1 : Inside env last own t) {val : W64} :
    Inside env (some val) (privateWrite (enterVirt env) own (.sstatus val)) (writeSstatus t val) := by
  obtain ⟨status, xl, rfl, hk, hs⟩ := i1
  obtain ⟨xl', hk', hf⟩ := writeSstatus_frame
  refine ⟨(writeSstatus (insideState env { own with status := status } xl) val).mstatus, xl', hf,
    fun hc => (hk' hc).trans (hk hc), ?_⟩
  have drops : dropsMie (insideState env { own with status := status } xl) = dropsMie env := by
    show (env.cfg.extSmdbltrp && status &&& mstatusMdt != 0) = _
    rw [hs.mdt]
    rfl
  have ha : guestStatus (insideState env { own with status := status } xl) val = guestStatus (enterVirt env) val := by
    rw [enterVirt_eq hh]
    rfl
  have hw : guestWritable (insideState env { own with status := status } xl) val =
      guestWritable (enterVirt env) val := by
    rw [enterVirt_eq hh]
    exact guestWritable_inside hk
  rw [writeSstatus_mstatus rfl, hw, ha, dropMie, drops]
  refine hs.write ?_ ?_ ?_ ?_
  · rw [← ownMask_enter hh]
    exact guestWritable_own _ rfl val
  · intro i bound
    rw [← ownMask_enter hh, ← ownMask_enter hh]
    exact own_writable _ rfl bound
  · unfold guestStatus
    split
    · simp [sie_eq]
    · rfl
  · intro hd
    apply guestWritable_sdt _ rfl val
    rw [enterVirt_eq hh]
    exact hd

theorem inside_write (hh : env.virtEnabled = false) (i1 : Inside env last own t) (w : GuestWrite) :
    Inside env (lastSstatus last [w]) (privateWrite (enterVirt env) own w) (guestWrite t w) := by
  have hi := i1
  obtain ⟨status, xl, rfl, hk, hs⟩ := hi
  cases w with
  | sstatus val => exact inside_sstatus hh i1
  | sepc val =>
    rw [enterVirt_eq hh]
    exact ⟨status, xl, rfl, hk, hs⟩
  | _ => exact ⟨status, xl, rfl, hk, hs⟩

theorem inside_run (hh : env.virtEnabled = false) (i1 : Inside env last own t) {writes : List GuestWrite} :
    Inside env (lastSstatus last writes) (run (privateWrite (enterVirt env)) own writes) (run guestWrite t writes) := by
  induction writes generalizing last own t with
  | nil => exact i1
  | cons w writes ih =>
    have hn := ih (inside_write hh i1 w)
    have hs : lastSstatus last (w :: writes) = lastSstatus (lastSstatus last [w]) writes := by
      cases w <;> rfl
    rw [hs]
    exact hn

end

/-- The bits in which leaving the guest may differ from entering it: SDT, where the two directions ask different
  registers for DTE; SPELP, which the guest can write where it is not exchanged; and MIE, which a write of `sstatus`
  drops while MDT is set. -/
def BanksKept (env : CPURISCVState) (last : Option W64) : Prop :=
  (riscvEnvSmodeDbltrpEnabled env false → riscvEnvSmodeDbltrpEnabled env true = false →
    env.vsstatus &&& mstatusSdt = 0) ∧
  (riscvEnvSmodeDbltrpEnabled env false = false → riscvEnvSmodeDbltrpEnabled env true →
    env.mstatus &&& mstatusSdt = 0) ∧
  ∀ val, last = some val → (sharesSpelp env → val &&& mstatusSpelp = 0 ∧ env.mstatus &&& mstatusSpelp = 0) ∧
    (dropsMie env → env.mstatus &&& mstatusMie = 0)

section
variable {env : CPURISCVState} {last : Option W64} {own status back : W64}

def BitBack (env : CPURISCVState) (own status back : W64) (i : Nat) (bound : i < 64) : Prop :=
  (status[i] && !back[i] || env.mstatus[i] && (swapMask env)[i]) = env.mstatus[i] ∧ (status[i] && back[i]) = own[i]

theorem StatusInside.bit (i1 : StatusInside env last own status) {i : Nat} (bound : i < 64) :
    status[i] = ((if (ownMask env last.isSome)[i] then own[i] else env.mstatus[i]) &&
      !(last.isSome && dropsMie env && decide (i = 3))) := by
  rw [i1.shape]
  cases last with
  | none => simp [getElem_merge]
  | some val => simp [getElem_dropMie, getElem_merge]

variable (ins : StatusInside env last own status)
  (l : ∀ (i : Nat) (bound : i < 64),
    back[i] = ((swapBase env)[i] || riscvEnvSmodeDbltrpEnabled env true && decide (i = 24)))
include ins l

theorem bitBack_other {i : Nat} (bound : i < 64) (sdt : i ≠ 24) (hs : i ≠ 23) (hm : i ≠ 3) :
    BitBack env own status back i bound := by
  have ho := (within_iff _ _).mp ins.within i bound
  unfold BitBack
  rw [ins.bit bound, getElem_swapMask]
  rw [getElem_ownMask] at ho ⊢
  cases swaps : (swapBase env)[i] <;> simp_all

theorem bitBack_mie : BitBack env own status back 3 (by decide) ↔
    ∀ val, last = some val → dropsMie env → env.mstatus[3] = false := by
  have h := (within_iff _ _).mp ins.within 3 (by decide)
  unfold BitBack
  rw [ins.bit (by decide), l 3 (by decide), getElem_swapMask]
  rw [getElem_ownMask] at h ⊢
  simp only [swapBase_apart] at h ⊢
  cases last <;> cases dropsMie env <;> cases env.mstatus[3] <;> simp_all

theorem bitBack_spelp : BitBack env own status back 23 (by decide) ↔
    ∀ val, last = some val → sharesSpelp env → val[23] = false ∧ env.mstatus[23] = false := by
  have ho := (within_iff _ _).mp ins.within 23 (by decide)
  have ha := ins.spelp
  have hu := swapBase_spelp env
  unfold BitBack
  rw [ins.bit (by decide), getElem_swapMask]
  rw [getElem_ownMask] at ho ⊢
  cases shares : sharesSpelp env with
  | false => cases hs : (swapBase env)[23] <;> simp_all
  | true =>
    cases last with
    | none => simp_all
    | some val => cases hr : val[23] <;> cases env.mstatus[23] <;> simp_all

theorem bitBack_sdt (hh : env.virtEnabled = false) : BitBack env own status back 24 (by decide) ↔
    (riscvEnvSmodeDbltrpEnabled env false → riscvEnvSmodeDbltrpEnabled env true = false → env.vsstatus[24] = false) ∧
    (riscvEnvSmodeDbltrpEnabled env false = false → riscvEnvSmodeDbltrpEnabled env true → env.mstatus[24] = false) := by
  have ho := (within_iff _ _).mp ins.within 24 (by decide)
  have hk := ins.sdt
  unfold BitBack
  rw [ins.bit (by decide), l 24 (by decide), getElem_swapMask]
  rw [getElem_ownMask] at ho ⊢
  simp only [swapBase_apart] at ho ⊢
  cases hh : riscvEnvSmodeDbltrpEnabled env false <;> cases hg : riscvEnvSmodeDbltrpEnabled env true <;>
    cases last <;> simp_all

theorem statusBack_iff (host : env.virtEnabled = false) :
    ((status &&& ~~~back) ||| (env.mstatus &&& swapMask env) = env.mstatus ∧ status &&& back = own) ↔
      BanksKept env last := by
  have bits : ((status &&& ~~~back) ||| (env.mstatus &&& swapMask env) = env.mstatus ∧ status &&& back = own) ↔
      ∀ (i : Nat) (bound : i < 64), BitBack env own status back i bound := by
    rw [BitVec.eq_of_getElem_eq_iff, BitVec.eq_of_getElem_eq_iff, ← forall₂_and]
    simp only [BitBack, BitVec.getElem_or, BitVec.getElem_and, BitVec.getElem_not]
  have split : (∀ (i : Nat) (bound : i < 64), BitBack env own status back i bound) ↔
      BitBack env own status back 24 (by decide) ∧ BitBack env own status back 23 (by decide) ∧
        BitBack env own status back 3 (by decide) := by
    constructor
    · intro hb
      exact ⟨hb 24 _, hb 23 _, hb 3 _⟩
    · rintro ⟨sdt, hs, hm⟩ i bound
      by_cases hi2 : i = 24
      · subst hi2
        exact sdt
      by_cases hi : i = 23
      · subst hi
        exact hs
      by_cases third : i = 3
      · subst third
        exact hm
      exact bitBack_other ins l bound hi2 hi third
  rw [bits, split, bitBack_sdt ins l host, bitBack_spelp ins l, bitBack_mie ins l]
  have sdt (x : W64) : x &&& mstatusSdt = 0 ↔ x[24] = false := by rw [sdt_eq, and_twoPow_eq_zero _ _ (by decide)]
  have hs (x : W64) : x &&& mstatusSpelp = 0 ↔ x[23] = false := by rw [spelp_eq, and_twoPow_eq_zero _ _ (by decide)]
  have hm (x : W64) : x &&& mstatusMie = 0 ↔ x[3] = false := by rw [mie_eq, and_twoPow_eq_zero _ _ (by decide)]
  unfold BanksKept
  simp only [sdt, hs, hm, and_assoc, forall_and]

end

/-- Entering the guest, its writes and leaving it give the hypervisor all its registers back and leave the guest's own in
  the bank, exactly where the three bits are kept. -/
theorem banking_lossless_iff (env : CPURISCVState) (writes : List GuestWrite) (host : env.virtEnabled = false)
    (bank : Within (swapMask env) env.vsstatus) :
    (currentRegs (leaveVirt (run guestWrite (enterVirt env) writes)) = currentRegs env ∧
      guestRegs (leaveVirt (run guestWrite (enterVirt env) writes)) =
        run (privateWrite (enterVirt env)) (guestRegs env) writes) ↔ BanksKept env (lastSstatus none writes) := by
  obtain ⟨status, xl, left, -, inside⟩ := inside_run host (inside_enter host bank)
  rw [left]
  generalize run (privateWrite (enterVirt env)) (guestRegs env) writes = own at inside ⊢
  have leaves (i : Nat) (bound : i < 64) : (swapMask (insideState env { own with status := status } xl))[i] =
      ((swapBase env)[i] || riscvEnvSmodeDbltrpEnabled env true && decide (i = 24)) :=
    getElem_swapMask (insideState env { own with status := status } xl) bound
  rw [← statusBack_iff inside leaves host]
  constructor
  · rintro ⟨current, guest⟩
    exact ⟨congrArg SupervisorRegs.status current, congrArg SupervisorRegs.status guest⟩
  · rintro ⟨current, guest⟩
    exact ⟨SupervisorRegs.ext current rfl rfl rfl rfl rfl rfl, SupervisorRegs.ext guest rfl rfl rfl rfl rfl rfl⟩

def hostOf64 : CPURISCVState := { guestEntry with vsstatus := 0x200000000 }

def hostWithPads : CPURISCVState :=
  { hostOf64 with
    cfg := { guestEntry.cfg with extZicfilp := true }
    envcfg := { menvcfg := menvcfgLpe, senvcfg := 0, henvcfg := 0, dteImplemented := fun _ => ⟨rfl, rfl⟩ } }

def hostWithDoubleTraps : CPURISCVState :=
  { hostOf64 with
    cfg := { guestEntry.cfg with extSsdbltrp := true }
    envcfg := { menvcfg := menvcfgDte, senvcfg := 0, henvcfg := 0, dteImplemented := nofun }
    vsstatus := mstatusSdt ||| 0x200000000 }

theorem plain_guest_banked :
    currentRegs (leaveVirt (run guestWrite (enterVirt hostOf64) [.sstatus mstatusSpp, .sepc 0x1000])) =
      currentRegs hostOf64 ∧
      guestRegs (leaveVirt (run guestWrite (enterVirt hostOf64) [.sstatus mstatusSpp, .sepc 0x1000])) =
        run (privateWrite (enterVirt hostOf64)) (guestRegs hostOf64) [.sstatus mstatusSpp, .sepc 0x1000] := by
  refine (banking_lossless_iff hostOf64 [.sstatus mstatusSpp, .sepc 0x1000] rfl (by decide)).mpr ⟨?_, ?_, ?_⟩
  · decide
  · decide
  · intro val _
    exact ⟨nofun, nofun⟩

/-- SPELP that the guest sets stays set for the hypervisor, and so does an SDT that the guest had. -/
theorem guest_status_leaks : Within (swapMask hostWithPads) hostWithPads.vsstatus ∧
    (leaveVirt (run guestWrite (enterVirt hostWithPads) [.sstatus mstatusSpelp])).mstatus =
      hostWithPads.mstatus ||| mstatusSpelp ∧ hostWithPads.mstatus &&& mstatusSpelp = 0 ∧
    Within (swapMask hostWithDoubleTraps) hostWithDoubleTraps.vsstatus ∧
      (leaveVirt (enterVirt hostWithDoubleTraps)).mstatus = hostWithDoubleTraps.mstatus ||| mstatusSdt ∧
      hostWithDoubleTraps.mstatus &&& mstatusSdt = 0 ∧
      (leaveVirt (enterVirt hostWithDoubleTraps)).vsstatus ≠ hostWithDoubleTraps.vsstatus := by
  decide

end RiscvEmulators.Qemu.Cpu
