import Riscv.Qemu.Cpu.Delivery

namespace RiscvEmulators.Qemu.Cpu
open Word Transition IrqState
open BitVec (zero_and and_zero and_or_distrib_left twoPow)

namespace IrqState
variable (s : IrqState)

/-- The external interrupt of the selected guest, where it is enabled and not delegated to the guest. -/
def taken : W64 := s.vsgein &&& s.mie &&& ~~~(s.cpu.mideleg &&& s.cpu.hideleg)

def external : W64 := if s.cpu.virtEnabled then s.vsgein else s.taken

def sources : W64 :=
  s.cpu.mip ||| s.external ||| s.vstip ||| s.irqsF ||| (if s.cpu.virtEnabled then s.irqsFVs else 0)

def Requested : Prop := s.sources ≠ 0 → s.hard

/-- What an event leaves: the configuration, and a request for all that is pending. -/
def Follows (after : IrqState) : Prop := after.cpu.cfg = s.cpu.cfg ∧ after.Requested

/-- `riscv_cpu_interrupt` sees all that is pending: it does not look for interrupts that M-mode injects while a guest
  runs, nor for the external interrupt of the selected guest while none runs. -/
def Visible : Prop := if s.cpu.virtEnabled then s.irqsF = 0 else s.taken = 0

def Backed (touched : W64) : Prop := s.cpu.mip &&& ~~~touched ≠ 0 ∨ s.vstimeIrq

/-- The interrupt CSR can be written so. The writes of `mip` look at the requests again and must see all of them; the
  others do not, and must not make an injected interrupt, or the external one of a guest that does not run, pending
  unless one is requested. -/
def CsrKeeps (newVal wrMask : W64) : IrqCsr → Prop
  | .mie => s.hard ∨ (s.cpu.virtEnabled = false →
    newVal &&& wrMask &&& (s.vsgein &&& ~~~(s.cpu.mideleg &&& s.cpu.hideleg)) = 0)
  | .mip | .hvip | .vsip | .sip => wrMask = 0 ∨ s.Visible ∨ s.Backed delegableInts
  | .mvip => wrMask = 0 ∨ s.Backed delegableInts ∨ s.Visible ∧
    (s.cpu.virtEnabled → newVal &&& wrMask &&& (s.cpu.mvien &&& ~~~s.cpu.mideleg &&& s.sie) = 0)
  | .sie => s.hard ∨ if s.cpu.virtEnabled
    then newVal &&& wrMask &&& localInterrupts &&& (s.cpu.hvip &&& s.cpu.hvien &&& ~~~s.cpu.hideleg) = 0
    else newVal &&& wrMask &&& (s.cpu.mvip &&& s.cpu.mvien &&& ~~~s.cpu.mideleg) = 0
  | .vsie => s.hard ∨ if s.cpu.virtEnabled
    then newVal &&& wrMask &&& localInterrupts &&& (s.cpu.hvip &&& s.cpu.hvien &&& ~~~s.cpu.hideleg) = 0
    else s.vsgein &&& ~~~s.cpu.mideleg = 0
  | .mvien => s.hard ∨ newVal &&& wrMask &&& (s.cpu.mvip &&& ~~~s.cpu.mideleg &&& s.sie) = 0
  | .hvien => s.hard ∨ (s.cpu.virtEnabled →
    newVal &&& wrMask &&& (s.cpu.hvip &&& ~~~s.cpu.hideleg &&& s.vsie) = 0)
  | .mideleg => s.hard ∨ ~~~newVal &&& wrMask &&& (s.cpu.mvip &&& s.cpu.mvien &&& s.sie) = 0 ∧
    (s.cpu.virtEnabled = false → ~~~newVal &&& wrMask &&& (s.vsgein &&& s.mie) = 0)
  | .hideleg => s.hard ∨ ~~~newVal &&& wrMask &&&
    (if s.cpu.virtEnabled then s.cpu.hvip &&& s.cpu.hvien &&& s.vsie else s.vsgein &&& s.mie) = 0

def vgein : Nat := (getField s.cpu.hstatus hstatusVgein).toNat

def EventKeeps : IrqEvent → Prop
  | .csr csrno newVal wrMask => s.CsrKeeps newVal wrMask csrno
  | .updateMip mask _ => s.Visible ∨ s.Backed mask
  | .setIrq irq level =>
    if irq < irqLocalMax then s.Visible ∨ s.Backed ((1 : W64) <<< irq)
    else s.Backed mipSgeip ∨ if s.cpu.virtEnabled then s.irqsF = 0
      else mipVseip &&& s.mie &&& ~~~(s.cpu.mideleg &&& s.cpu.hideleg) = 0 ∨
        if guestLine irq = s.vgein then level = false else s.vsgein = 0
  | .vstimer expired => s.Visible ∨ s.cpu.mip ≠ 0 ∨ expired
  | .setMode _ virtEn _ => (s.cpu.misaExt.rvh && virtEn) → s.irqsF = 0 ∨ s.cpu.mip ≠ 0 ∨ s.vstimeIrq

section
variable {s}

theorem sources_eq_zero_iff : s.sources = 0 ↔
    s.cpu.mip = 0 ∧ s.external = 0 ∧ s.vstip = 0 ∧ s.irqsF = 0 ∧ (s.cpu.virtEnabled → s.irqsFVs = 0) := by
  have h : (if s.cpu.virtEnabled then s.irqsFVs else 0) = 0 ↔ (s.cpu.virtEnabled → s.irqsFVs = 0) := by
    split <;> simp_all
  rw [← h]
  refine (BitVec.or_eq_zero_iff.trans (and_congr_left' (BitVec.or_eq_zero_iff.trans
    (and_congr_left' (BitVec.or_eq_zero_iff.trans (and_congr_left' BitVec.or_eq_zero_iff)))))).trans ?_
  simp only [and_assoc]
  exact Iff.rfl

theorem requests_eq_zero (hn : s.requests = 0) : s.cpu.mip = 0 ∧ s.vstip = 0 ∧
    if s.cpu.virtEnabled then s.vsgein = 0 ∧ s.irqsFVs = 0 else s.irqsF = 0 := by
  obtain ⟨hr, hi⟩ := BitVec.or_eq_zero_iff.mp hn
  obtain ⟨hr, timer⟩ := BitVec.or_eq_zero_iff.mp hr
  obtain ⟨hm, hv⟩ := BitVec.or_eq_zero_iff.mp hr
  refine ⟨hm, timer, ?_⟩
  cases virt : s.cpu.virtEnabled with
  | true =>
    rw [virt] at hi hv
    refine ⟨hv, ?_⟩
    have hs : s.irqsFVs = s.cpu.hvien &&& s.cpu.hvip &&& s.vsie &&& ~~~s.cpu.hideleg := by
      unfold irqsFVs
      ac_rfl
    rw [hs]
    exact (congrArg (· &&& ~~~s.cpu.hideleg) hi).trans zero_and
  | false =>
    rw [virt] at hi
    have hs : s.irqsF = s.cpu.mvien &&& s.cpu.mvip &&& s.sie &&& ~~~s.cpu.mideleg := by
      unfold irqsF
      ac_rfl
    rw [hs]
    exact (congrArg (· &&& ~~~s.cpu.mideleg) hi).trans zero_and

theorem requested_interrupt (hs : s.Visible ∨ s.cpu.mip ≠ 0 ∨ s.vstimeIrq) : s.riscvCpuInterrupt.Requested := by
  intro hp
  refine bne_iff_ne.mpr fun hn => hp ?_
  obtain ⟨hm, timer, hr⟩ := requests_eq_zero hn
  show s.sources = 0
  rw [sources_eq_zero_iff]
  have hv : s.Visible := by
    rcases hs with hv | ho | ht
    · exact hv
    · exact absurd hm ho
    · unfold vstip at timer
      rw [ht] at timer
      cases timer
  unfold Visible at hv
  unfold external
  cases virt : s.cpu.virtEnabled with
  | true =>
    rw [virt] at hr hv
    exact ⟨hm, hr.1, timer, hv, fun _ => hr.2⟩
  | false =>
    rw [virt] at hr hv
    exact ⟨hm, hv, timer, hr, fun on => by cases on⟩

theorem requested_updateMip {mk t v : W64} (hi : Within t mk)
    (shown : s.Visible ∨ s.Backed t) : (s.riscvCpuUpdateMip mk v).2.Requested := by
  have hs : Within t (if mk = mipVstip ∧ s.vstimeIrq then 0 else mk) := by
    split
    · exact within_zero t
    · exact hi
  apply requested_interrupt
  exact shown.imp_right fun hb => hb.imp_left (merge_ne_zero hs)

theorem mipMask_within (s : IrqState) (wm : W64) : Within (wm &&& delegableInts) (s.mipMask wm) := by
  have hs (mk o : W64) (hi : Within (wm &&& delegableInts) mk) : Within (wm &&& delegableInts) (mk &&& o) := by
    rw [BitVec.and_comm mk]
    exact hi.and_right o
  unfold mipMask
  split
  · split
    · exact hs _ _ (hs _ _ (within_self _))
    · exact hs _ _ (within_self _)
  · exact within_self _

theorem mipMask_delegable (s : IrqState) {wm : W64} : Within delegableInts (s.mipMask wm) :=
  (s.mipMask_within wm).mono ((within_self delegableInts).and_right wm)

theorem mipMask_zero (s : IrqState) : s.mipMask 0 = 0 := by
  have h := s.mipMask_within 0
  exact h.and_eq.symm.trans and_zero

variable {nv wm : W64}

theorem noteSeip_frame (s : IrqState) : ∃ se, (s.noteSeip nv wm).2 = { s with softwareSeip := se } := by
  unfold noteSeip
  split
  · exact ⟨_, rfl⟩
  · exact ⟨s.softwareSeip, rfl⟩

variable {c : IrqCsr}

theorem rmwMip64_frame (s : IrqState) : ∃ mip se hard, (s.rmwMip64 c nv wm).2 =
    { s with cpu := { s.cpu with mip := mip }, softwareSeip := se, hard := hard } ∧
      AgreeOff delegableInts mip s.cpu.mip := by
  obtain ⟨se, h⟩ := s.noteSeip_frame
  unfold rmwMip64
  dsimp only
  rw [h]
  split
  · refine ⟨_, se, _, rfl, (agreeOff_merged _ _ _).mono ?_⟩
    split
    · exact within_zero _
    · exact s.mipMask_delegable
  · exact ⟨s.cpu.mip, se, s.hard, rfl, .refl _ _⟩

theorem requested_rmwMip64 (hb : s.Requested)
    (hs : wm = 0 ∨ s.Visible ∨ s.Backed delegableInts) : s.Follows (s.rmwMip64 c nv wm).2 := by
  obtain ⟨seip, hn⟩ := s.noteSeip_frame
  unfold rmwMip64
  dsimp only
  rw [hn]
  split
  case isTrue hw =>
    rcases hs with rfl | hs
    · exact absurd s.mipMask_zero hw
    · exact ⟨rfl, requested_updateMip s.mipMask_delegable hs⟩
  case isFalse => exact ⟨rfl, hb⟩

theorem backed_zero (hp : s.cpu.mip ≠ 0 ∨ s.vstimeIrq) : s.Backed 0 := by
  refine hp.imp_left fun hm hc => hm ?_
  rwa [show ~~~(0 : W64) = BitVec.allOnes 64 by decide, BitVec.and_allOnes] at hc

theorem Backed.kept {mip : W64} (hb : s.Backed delegableInts) (ha : AgreeOff delegableInts mip s.cpu.mip) :
    mip ≠ 0 ∨ s.vstimeIrq := by
  refine hb.imp_left fun ho hg => ho ?_
  rw [← ha, hg]
  exact zero_and

theorem requested_rmwMvip64 (before : s.Requested)
    (hs : wm = 0 ∨ s.Backed delegableInts ∨ s.Visible ∧
      (s.cpu.virtEnabled → nv &&& wm &&& (s.cpu.mvien &&& ~~~s.cpu.mideleg &&& s.sie) = 0)) :
    s.Follows (s.rmwMvip64 c nv wm).2 := by
  have ha : s.Follows (s.rmwMip64 .mip nv (wm &&& s.mvipAlias c &&& mvipWritableMask)).2 := by
    apply requested_rmwMip64 before
    rcases hs with rfl | hb | ⟨hv, -⟩
    · left
      rw [BitVec.and_assoc]
      exact zero_and
    · exact .inr (.inr hb)
    · exact .inr (.inl hv)
  obtain ⟨mip, seip, hard, hf, agrees⟩ :=
    s.rmwMip64_frame
  rw [hf] at ha
  unfold rmwMvip64
  dsimp only
  rw [hf]
  split
  case isFalse => exact ha
  case isTrue hw =>
    refine ⟨rfl, requested_interrupt ?_⟩
    rcases hs with rfl | hb | ⟨hv, hq⟩
    · rw [BitVec.and_assoc] at hw
      exact absurd zero_and hw
    · exact .inr (hb.kept agrees)
    · left
      unfold Visible at hv
      show if s.cpu.virtEnabled
        then merge s.cpu.mvip _ nv &&& (s.cpu.mvien &&& ~~~s.cpu.mideleg) &&& s.sie = 0 else s.taken = 0
      by_cases virt : s.cpu.virtEnabled
      · rw [if_pos virt] at hv ⊢
        rw [BitVec.and_assoc, BitVec.and_assoc wm]
        exact merge_and_eq_zero ((BitVec.and_assoc _ _ _).symm.trans hv) (hq virt)
      · rwa [if_neg virt] at hv ⊢

theorem requested_rmwHvip64 (before : s.Requested)
    (hs : wm = 0 ∨ s.Visible ∨ s.Backed delegableInts) : s.Follows (s.rmwHvip64 c nv wm).2 := by
  have ha : s.Follows (s.rmwMip64 c nv (wm &&& s.hvipAlias c &&& hvipWritableMask)).2 := by
    refine requested_rmwMip64 before (hs.imp_left ?_)
    rintro rfl
    rw [BitVec.and_assoc]
    exact zero_and
  obtain ⟨mip, seip, hard, hf, agrees⟩ :=
    s.rmwMip64_frame
  rw [hf] at ha
  unfold rmwHvip64
  dsimp only
  rw [hf]
  split
  case isFalse => exact ha
  case isTrue hw =>
    refine ⟨rfl, requested_interrupt ?_⟩
    rcases hs with rfl | hv | hb
    · rw [BitVec.and_assoc] at hw
      exact absurd zero_and hw
    · exact .inl hv
    · exact .inr (hb.kept agrees)

theorem rmwVsip64_written (s : IrqState) : ∃ mk, (s.rmwVsip64 nv wm).2 =
    (s.rmwHvip64 .vsip (fromGuestPosition nv) (fromGuestPosition wm &&& mk)).2 :=
  ⟨((s.cpu.hideleg &&& vsModeInterrupts) ||| (s.cpu.hvien &&& ~~~s.cpu.hideleg)) &&& vsipWritableMask, by
      rw [← BitVec.and_assoc, rmwVsip64]⟩

theorem requested_rmwVsip64 (hb : s.Requested)
    (hs : wm = 0 ∨ s.Visible ∨ s.Backed delegableInts) : s.Follows (s.rmwVsip64 nv wm).2 := by
  obtain ⟨mask, hw⟩ := s.rmwVsip64_written
  rw [hw]
  refine requested_rmwHvip64 hb (hs.imp_left ?_)
  rintro rfl
  exact zero_and

end

section
variable {s} {n wr : W64}

theorem requested_of_sources {a : IrqState} (hb : s.Requested) (hs : a.hard = s.hard)
    (hq : s.hard = false → s.sources = 0 → a.sources = 0) : a.Requested := by
  intro hp
  rw [hs]
  cases hh : s.hard with
  | true => rfl
  | false =>
    refine absurd (hq hh (Decidable.byContradiction fun hn => ?_)) hp
    rw [hb hn] at hh
    cases hh

theorem requested_injection {a : IrqState} (hb : s.Requested) (hc : a.cpu.cfg = s.cpu.cfg) (hs : a.hard = s.hard)
    (hm : a.cpu.mip = s.cpu.mip) (hv : a.vsgein = s.vsgein) (timer : a.vstip = s.vstip)
    (virt : a.cpu.virtEnabled = s.cpu.virtEnabled)
    (outside : s.hard = false → s.cpu.virtEnabled = false → s.taken = 0 → a.taken = 0)
    (hh : s.hard = false → s.irqsF = 0 → a.irqsF = 0)
    (hg : s.hard = false → s.cpu.virtEnabled → s.irqsFVs = 0 → a.irqsFVs = 0) : s.Follows a := by
  refine ⟨hc, requested_of_sources hb hs fun hu hn5 => ?_⟩
  rw [sources_eq_zero_iff] at hn5 ⊢
  obtain ⟨hn4, hn, hn2, hn3, none'⟩ := hn5
  rw [hm, timer, virt]
  refine ⟨hn4, ?_, hn2, hh hu hn3, fun hr => hg hu hr (none' hr)⟩
  unfold external at hn ⊢
  rw [virt, hv]
  cases guest : s.cpu.virtEnabled with
  | true =>
    rw [guest] at hn
    exact hn
  | false =>
    rw [guest] at hn
    exact outside hu guest hn

theorem taken_rmwMie64 (none : s.taken = 0)
    (clear : n &&& wr &&& (s.vsgein &&& ~~~(s.cpu.mideleg &&& s.cpu.hideleg)) = 0) : (s.rmwMie64 n wr).2.taken = 0 := by
  have split (mie : W64) : s.vsgein &&& mie &&& ~~~(s.cpu.mideleg &&& s.cpu.hideleg) =
      mie &&& (s.vsgein &&& ~~~(s.cpu.mideleg &&& s.cpu.hideleg)) := by ac_rfl
  have merged := merge_and_eq_zero (l := allInts) ((split _).symm.trans none) clear
  apply (split _).trans
  show (if s.cpu.misaExt.rvh then _ else _) &&& _ = (0 : W64)
  split
  · exact merged
  · rw [BitVec.and_comm (merge _ _ _), BitVec.and_assoc, merged]
    exact and_zero

theorem requested_rmwMie64 (before : s.Requested) (hk : s.CsrKeeps n wr .mie) : s.Follows (s.rmwMie64 n wr).2 := by
  refine requested_injection before rfl rfl rfl rfl rfl rfl (fun hu outside none => ?_) (fun _ hn => hn) (fun _ _ hn => hn)
  exact taken_rmwMie64 none (hk.resolve_left (by simp [hu]) outside)

theorem and_alias {mask bits : W64} (apart : mask &&& bits = 0) : n &&& (wr &&& mask) &&& bits = 0 := by
  rw [BitVec.and_assoc, BitVec.and_assoc wr, apart]
  simp

theorem vsgein_within (s : IrqState) : Within mipVseip s.vsgein := by
  unfold vsgein
  split
  · exact within_self _
  · exact within_zero _

theorem requested_rmwMvien64 (before : s.Requested) (hk : s.CsrKeeps n wr .mvien) : s.Follows (s.rmwMvien64 n wr).2 := by
  refine requested_injection before rfl rfl rfl rfl rfl rfl (fun _ _ none => none) (fun hu hn => ?_) (fun _ _ hn => hn)
  have hq := hk.resolve_left (by simp [hu])
  have hb (m : W64) : s.cpu.mvip &&& (m &&& ~~~s.cpu.mideleg) &&& s.sie =
      m &&& (s.cpu.mvip &&& ~~~s.cpu.mideleg &&& s.sie) := by ac_rfl
  exact (hb _).trans (merge_and_eq_zero ((hb _).symm.trans hn) hq)

theorem and_mideleg {bits : W64} (clear : ~~~merge s.cpu.mideleg (wr &&& delegableInts) n &&& bits = 0) :
    ~~~(s.rmwMideleg64 n wr).2.cpu.mideleg &&& bits = 0 := by
  -- the hypervisor's interrupts are always delegated
  show ~~~(if s.cpu.misaExt.rvh then _ else _) &&& _ = (0 : W64)
  split
  · rw [BitVec.not_or, BitVec.and_comm (~~~merge _ _ _), BitVec.and_assoc, clear]
    exact and_zero
  · exact clear

theorem not_merge_and {reg bits limit : W64} (before : ~~~reg &&& bits = 0) (clear : ~~~n &&& wr &&& bits = 0) :
    ~~~merge reg (wr &&& limit) n &&& bits = 0 := by
  rw [not_merge]
  exact merge_and_eq_zero before clear

theorem taken_eq_zero_iff (vsgein mie mideleg hideleg : W64) : vsgein &&& mie &&& ~~~(mideleg &&& hideleg) = 0 ↔
    ~~~mideleg &&& (vsgein &&& mie) = 0 ∧ ~~~hideleg &&& (vsgein &&& mie) = 0 := by
  rw [BitVec.not_and, and_or_distrib_left, BitVec.and_comm _ (~~~mideleg), BitVec.and_comm _ (~~~hideleg)]
  exact BitVec.or_eq_zero_iff

theorem requested_rmwMideleg64 (before : s.Requested) (hk : s.CsrKeeps n wr .mideleg) :
    s.Follows (s.rmwMideleg64 n wr).2 := by
  refine requested_injection before rfl rfl rfl rfl rfl rfl (fun hu outside none => ?_) (fun hu hn => ?_) (fun _ _ hn => hn)
  · have clear := (hk.resolve_left (by simp [hu])).2 outside
    obtain ⟨machine, hypervisor⟩ := (taken_eq_zero_iff _ _ _ _).mp none
    exact (taken_eq_zero_iff _ _ _ _).mpr ⟨and_mideleg (not_merge_and machine clear), hypervisor⟩
  · have clear := (hk.resolve_left (by simp [hu])).1
    have split (m : W64) : s.cpu.mvip &&& (s.cpu.mvien &&& m) &&& s.sie =
        m &&& (s.cpu.mvip &&& s.cpu.mvien &&& s.sie) := by ac_rfl
    exact (split _).trans (and_mideleg (not_merge_and ((split _).symm.trans hn) clear))

theorem requested_rmwHvien64 (before : s.Requested) (hk : s.CsrKeeps n wr .hvien) : s.Follows (s.rmwHvien64 n wr).2 := by
  refine requested_injection before rfl rfl rfl rfl rfl rfl (fun _ _ none => none) (fun _ hn => hn) (fun hu hr hn => ?_)
  have hq := hk.resolve_left (by simp [hu]) hr
  have hb (h : W64) : s.cpu.hvip &&& h &&& ~~~s.cpu.hideleg &&& s.vsie =
      h &&& (s.cpu.hvip &&& ~~~s.cpu.hideleg &&& s.vsie) := by ac_rfl
  exact (hb _).trans (merge_and_eq_zero ((hb _).symm.trans hn) hq)

theorem requested_rmwHideleg64 (before : s.Requested) (hk : s.CsrKeeps n wr .hideleg) :
    s.Follows (s.rmwHideleg64 n wr).2 := by
  refine requested_injection before rfl rfl rfl rfl rfl rfl (fun hu outside none => ?_) (fun _ hn => hn) (fun hu hr hn => ?_)
  · have clear := hk.resolve_left (by simp [hu])
    rw [outside] at clear
    obtain ⟨machine, hypervisor⟩ := (taken_eq_zero_iff _ _ _ _).mp none
    exact (taken_eq_zero_iff _ _ _ _).mpr ⟨machine, not_merge_and hypervisor clear⟩
  · have clear := hk.resolve_left (by simp [hu])
    rw [if_pos hr] at clear
    have split (h : W64) : s.cpu.hvip &&& s.cpu.hvien &&& h &&& s.vsie =
        h &&& (s.cpu.hvip &&& s.cpu.hvien &&& s.vsie) := by ac_rfl
    exact (split _).trans (not_merge_and ((split _).symm.trans hn) clear)

theorem fromGuestPosition_local (bs : W64) : fromGuestPosition bs &&& localInterrupts = bs &&& localInterrupts := by
  unfold fromGuestPosition
  have hl : localInterrupts &&& ~~~(vsModeInterrupts >>> 1) = localInterrupts := by decide
  have hm : localInterrupts &&& vsModeInterrupts >>> 1 <<< 1 = 0 := by decide
  rw [BitVec.and_comm, and_or_distrib_left, BitVec.shiftLeft_and_distrib, BitVec.and_comm bs,
    ← BitVec.and_assoc, BitVec.and_comm (bs <<< 1), ← BitVec.and_assoc, hl, hm, BitVec.and_comm bs]
  simp

theorem requested_rmwVsie64 (before : s.Requested) (hk : s.CsrKeeps n wr .vsie) : s.Follows (s.rmwVsie64 n wr).2 := by
  refine requested_injection before rfl rfl rfl rfl rfl rfl (fun hu outside none => ?_) (fun _ hn => hn) (fun hu hr hn => ?_)
  · have delegated := hk.resolve_left (by simp [hu])
    rw [outside] at delegated
    show (s.rmwMie64 (fromGuestPosition n) (fromGuestPosition wr &&& _)).2.taken = 0
    apply taken_rmwMie64 none
    apply and_alias
    have kept : s.cpu.hideleg &&& ~~~(s.cpu.mideleg &&& s.cpu.hideleg) = s.cpu.hideleg &&& ~~~s.cpu.mideleg := by
      rw [BitVec.not_and, and_or_distrib_left, BitVec.and_not_self]
      exact BitVec.or_zero
    have apart : s.vsgein &&& ~~~s.cpu.mideleg = 0 := delegated
    rw [BitVec.and_comm s.vsgein, BitVec.and_assoc, ← BitVec.and_assoc s.cpu.hideleg, kept, BitVec.and_assoc s.cpu.hideleg,
      BitVec.and_comm _ s.vsgein, apart]
    simp
  · have hq := hk.resolve_left (by simp [hu])
    rw [if_pos hr] at hq
    have hb (v : W64) : s.cpu.hvip &&& s.cpu.hvien &&& ~~~s.cpu.hideleg &&& v =
        v &&& (s.cpu.hvip &&& s.cpu.hvien &&& ~~~s.cpu.hideleg) := BitVec.and_comm _ _
    apply (hb _).trans
    show merge s.vsie (fromGuestPosition wr &&& (localInterrupts &&& _)) (fromGuestPosition n) &&& _ = 0
    rw [← BitVec.and_assoc (fromGuestPosition wr), fromGuestPosition_local]
    apply merge_and_eq_zero ((hb _).symm.trans hn)
    rw [BitVec.and_comm wr, ← BitVec.and_assoc (fromGuestPosition n), fromGuestPosition_local,
      BitVec.and_assoc n, BitVec.and_comm localInterrupts, ← BitVec.and_assoc n]
    exact hq

theorem requested_rmwSie64 (hb : s.Requested) (hk : s.CsrKeeps n wr .sie) : ∀ w ∈ s.rmwSie64 n wr, s.Follows w.2 := by
  intro w hf
  unfold rmwSie64 at hf
  unfold CsrKeeps at hk
  by_cases hv : s.cpu.virtEnabled
  · rw [if_pos hv] at hk
    rw [if_pos hv] at hf
    split at hf
    · cases hf
    · cases hf
      apply requested_rmwVsie64 hb
      show _ ∨ if s.cpu.virtEnabled then _ else _
      rw [if_pos hv]
      exact hk
  · rw [if_neg hv] at hk
    rw [if_neg hv] at hf
    cases hf
    refine requested_injection hb rfl rfl rfl rfl rfl rfl (fun _ _ none => ?_) (fun hu hn => ?_) (fun _ _ hn => hn)
    · show (s.rmwMie64 n (wr &&& ((sModeInterrupts ||| localInterrupts) &&& _))).2.taken = 0
      apply taken_rmwMie64 none
      apply and_alias
      have apart : (sModeInterrupts ||| localInterrupts) &&& mipVseip = 0 := by decide
      rw [← s.vsgein_within.and_eq, BitVec.and_comm s.vsgein, BitVec.and_comm (_ ||| _), BitVec.and_assoc, BitVec.and_assoc,
        ← BitVec.and_assoc (_ ||| _), apart]
      simp
    · have hq := hk.resolve_left (by simp [hu])
      have sorted (sie : W64) : s.cpu.mvip &&& (s.cpu.mvien &&& ~~~s.cpu.mideleg) &&& sie =
          sie &&& (s.cpu.mvip &&& s.cpu.mvien &&& ~~~s.cpu.mideleg) := by ac_rfl
      exact (sorted _).trans (merge_and_eq_zero ((sorted _).symm.trans hn) hq)

end

section
variable {s}

theorem requested_rmwSip64 {nv wm : W64} (hb : s.Requested) (hs : wm = 0 ∨ s.Visible ∨ s.Backed delegableInts) :
    ∀ w ∈ s.rmwSip64 nv wm, s.Follows w.2 := by
  intro w hf
  unfold rmwSip64 at hf
  by_cases virt : s.cpu.virtEnabled
  · rw [if_pos virt] at hf
    split at hf
    · cases hf
    · cases hf
      have hk : s.Follows (s.rmwVsip64 nv wm).2 := requested_rmwVsip64 hb hs
      exact hk
  · rw [if_neg virt] at hf
    cases hf
    apply requested_rmwMvip64 hb
    rcases hs with rfl | hv | backed
    · exact .inl zero_and
    · exact .inr (.inr ⟨hv, fun hr => absurd hr virt⟩)
    · exact .inr (.inl backed)

theorem requested_rmwCsr {c : IrqCsr} {nv wm : W64} (hb : s.Requested)
    (hk : s.CsrKeeps nv wm c) : ∀ w ∈ s.rmwCsr c nv wm, s.Follows w.2 := by
  intro w hf
  cases c with
  | sie => exact requested_rmwSie64 hb hk w hf
  | sip => exact requested_rmwSip64 hb hk w hf
  | mip => cases hf; exact requested_rmwMip64 hb hk
  | mie => cases hf; exact requested_rmwMie64 hb hk
  | mideleg => cases hf; exact requested_rmwMideleg64 hb hk
  | mvip => cases hf; exact requested_rmwMvip64 hb hk
  | mvien => cases hf; exact requested_rmwMvien64 hb hk
  | hvip => cases hf; exact requested_rmwHvip64 hb hk
  | hvien => cases hf; exact requested_rmwHvien64 hb hk
  | hideleg => cases hf; exact requested_rmwHideleg64 hb hk
  | vsip => cases hf; exact requested_rmwVsip64 hb hk
  | vsie => cases hf; exact requested_rmwVsie64 hb hk

theorem vsgein_eq_zero_iff : s.vsgein = 0 ↔ s.hgeip.getLsbD s.vgein = false := by
  let c := getField s.cpu.hstatus hstatusVgein
  unfold vsgein vgein
  rw [BitVec.shiftLeft_eq', show (1 : W64) <<< c.toNat =
    twoPow 64 c.toNat from rfl, BitVec.and_twoPow]
  cases hl : s.hgeip.getLsbD c.toNat with
  | false => simp
  | true =>
    have hb := BitVec.lt_of_getLsbD hl
    have hs : twoPow 64 c.toNat ≠ 0 := by
      intro hz
      have bit := congrArg (BitVec.getLsbD · c.toNat) hz
      simp [hb] at bit
    rw [if_pos rfl, if_pos hs]
    decide

theorem requested_guestLine {irq : Nat} {l : Bool} (hh : ¬irq < irqLocalMax)
    (hk : s.EventKeeps (.setIrq irq l)) : s.Follows (s.riscvCpuSetIrq irq l) := by
  dsimp only [EventKeeps] at hk
  rw [if_neg hh] at hk
  unfold riscvCpuSetIrq
  rw [if_neg hh]
  refine ⟨rfl, requested_updateMip (within_self _) ?_⟩
  rcases hk with hb | hv
  · exact .inr hb
  · left
    unfold Visible
    by_cases virt : s.cpu.virtEnabled
    · rw [if_pos virt] at hv ⊢
      exact hv
    · rw [if_neg virt] at hv ⊢
      rcases hv with disabled | low
      · unfold taken
        rw [← (vsgein_within _).and_eq, BitVec.and_assoc, BitVec.and_assoc, ← BitVec.and_assoc mipVseip]
        exact (congrArg (vsgein _ &&& ·) disabled).trans and_zero
      · suffices silent : vsgein _ = 0 by
          unfold taken
          rw [silent, BitVec.and_assoc]
          exact zero_and
        rw [vsgein_eq_zero_iff] at low ⊢
        show (if l then s.hgeip &&& ~~~twoPow 64 (guestLine irq) ||| twoPow 64 (guestLine irq)
          else s.hgeip &&& ~~~twoPow 64 (guestLine irq)).getLsbD s.vgein = false
        by_cases hl : guestLine irq = s.vgein
        · rw [if_pos hl] at low
          rw [low, hl]
          by_cases bound : s.vgein < 64 <;> simp
        · rw [if_neg hl] at low
          cases l <;> simp [low, hl]

theorem requested_setIrq {irq : Nat} {l : Bool} (hk : s.EventKeeps (.setIrq irq l)) :
    s.Follows (s.riscvCpuSetIrq irq l) := by
  by_cases hl : irq < irqLocalMax
  · dsimp only [EventKeeps] at hk
    rw [if_pos hl] at hk
    unfold riscvCpuSetIrq
    rw [if_pos hl]
    split
    · exact ⟨rfl, requested_updateMip (within_self _) hk⟩
    · exact ⟨rfl, requested_updateMip (within_self _) hk⟩
  · exact requested_guestLine hl hk

theorem requested_setMode {n : Priv} {v : Bool} {hb : v → n ≠ .machine}
    (before : s.Requested) (hk : s.EventKeeps (.setMode n v hb)) : s.Follows (s.setMode n v hb) := by
  unfold setMode
  split
  case isTrue he =>
    obtain ⟨hp, hg⟩ := Bool.and_eq_true_iff.mp he
    have hr : (riscvCpuSetMode s.cpu n v).virtEnabled := by
      simp [riscvCpuSetMode, hp, hg]
    refine ⟨rfl, requested_updateMip (within_self 0) ?_⟩
    refine (hk he).imp (fun hn => ?_) backed_zero
    unfold Visible
    rw [if_pos hr]
    exact hn
  case isFalse hs =>
    have leaves (guest : (riscvCpuSetMode s.cpu n v).virtEnabled) : s.cpu.virtEnabled := by
      cases hp : s.cpu.misaExt.rvh with
      | true =>
        cases v <;> simp_all [riscvCpuSetMode]
      | false => simpa [riscvCpuSetMode, hp] using guest
    refine ⟨rfl, requested_of_sources before rfl fun _ hn => ?_⟩
    rw [sources_eq_zero_iff] at hn ⊢
    obtain ⟨hm, hv, timer, hh, hg⟩ := hn
    refine ⟨hm, ?_, timer, hh, fun guest => hg (leaves guest)⟩
    show (if (riscvCpuSetMode s.cpu n v).virtEnabled then s.vsgein else s.taken) = 0
    unfold external at hv
    split
    case isTrue guest => rwa [if_pos (leaves guest)] at hv
    case isFalse =>
      split at hv
      · rw [taken, hv, BitVec.and_assoc]
        exact zero_and
      · exact hv

theorem requested_step (hb : s.Requested) {e : IrqEvent} (hk : s.EventKeeps e) : s.Follows (irqStep s e) := by
  cases e with
  | csr c nv wm =>
    show s.Follows (((s.rmwCsr c nv wm).map Prod.snd).getD s)
    cases hw : s.rmwCsr c nv wm with
    | none => exact ⟨rfl, hb⟩
    | some w => exact requested_rmwCsr hb hk w hw
  | updateMip mk va => exact ⟨rfl, requested_updateMip (within_self mk) hk⟩
  | setIrq irq l => exact requested_setIrq hk
  | vstimer ex =>
    refine ⟨rfl, requested_updateMip (within_self 0) ?_⟩
    exact Or.imp id backed_zero hk
  | setMode n v below => exact requested_setMode hb hk

theorem chosen_sources (hp : s.cpu.cfg.extSmrnmi = false) (hc : s.chosen.isSome) : s.sources ≠ 0 := by
  intro hn
  rw [sources_eq_zero_iff] at hn
  obtain ⟨hm, hv, timer, hh, hg⟩ := hn
  have hq : s.riscvCpuAllPending = s.vsgein &&& s.mie := by simp [riscvCpuAllPending, hm, timer]
  unfold external at hv
  cases virt : s.cpu.virtEnabled with
  | true =>
    rw [virt] at hv
    have none : s.vsgein = 0 := hv
    have m : s.mIrqs = 0 := by simp [mIrqs, hq, none]
    have hs : s.hsIrqs = 0 := by simp [hsIrqs, hq, hh, none]
    have vs : s.vsIrqs = 0 := by simp [vsIrqs, hq, none, hg virt, vsPosition]
    simp [chosen, hp, m, hs, vs] at hc
  | false =>
    rw [virt] at hv
    obtain ⟨machine, hypervisor⟩ := (taken_eq_zero_iff _ _ _ _).mp hv
    rw [BitVec.and_comm] at machine hypervisor
    have m : s.mIrqs = 0 := by simp [mIrqs, hq, machine]
    have hs : s.hsIrqs = 0 := by
      rw [hsIrqs, hq, hh, BitVec.and_assoc, BitVec.and_comm s.cpu.mideleg, ← BitVec.and_assoc, hypervisor]
      simp
    have vs : s.vsIrqs = 0 := by simp [vsIrqs, vsieEnabled, virt, gate]
    simp [chosen, hp, m, hs, vs] at hc

end
end IrqState

/-- No run whose events keep to the condition loses a request: whenever an interrupt would be taken,
  `CPU_INTERRUPT_HARD` asks for it. -/
theorem requests_never_lost (s : IrqState) (events : List IrqEvent) (start : s.Requested)
    (plain : s.cpu.cfg.extSmrnmi = false) (meets : StepsMeet irqStep IrqState.EventKeeps s events)
    (pending : (run irqStep s events).riscvCpuLocalIrqPending.isSome = true) : (run irqStep s events).hard = true := by
  let holds : IrqState → Prop := fun state => state.Requested ∧ state.cpu.cfg.extSmrnmi = false
  have keeps : ∀ state event, IrqState.EventKeeps state event → holds state → holds (irqStep state event) := by
    intro state event kept before
    obtain ⟨cfg, requested⟩ := requested_step before.1 kept
    refine ⟨requested, ?_⟩
    rw [cfg]
    exact before.2
  have requested : holds (run irqStep s events) := StepsMeet.run_invariant keeps meets ⟨start, plain⟩
  rw [riscvCpuLocalIrqPending, Option.isSome_map] at pending
  exact requested.1 (chosen_sources requested.2 pending)

def quietHart : IrqState := irqHart { guestEntry with priv := .machine } 0 0 0 (by decide)

def injectLast : List IrqEvent :=
  [.csr .mvien 0x4000 0x4000, .csr .sie 0x4000 0x4000, .csr .mvip 0x4000 0x4000,
    .setMode .user false nofun]

def enableLast : List IrqEvent :=
  [.csr .mvien 0x4000 0x4000, .csr .mvip 0x4000 0x4000, .csr .sie 0x4000 0x4000,
    .setMode .user false nofun]

def enterGuest : List IrqEvent :=
  [.csr .mvien 0x4000 0x4000, .csr .sie 0x4000 0x4000, .csr .mvip 0x4000 0x4000,
    .setMode .supervisor true (fun _ => by decide)]

theorem injection_requested :
    quietHart.Requested ∧ (run irqStep quietHart injectLast).riscvCpuLocalIrqPending = some 14 ∧
      (run irqStep quietHart injectLast).hard = true := by
  have start : quietHart.Requested := fun pending => absurd (by decide) pending
  have pending : (run irqStep quietHart injectLast).riscvCpuLocalIrqPending = some 14 := by decide
  refine ⟨start, pending, requests_never_lost quietHart injectLast start (by decide) ?_ (by rw [pending]; rfl)⟩
  refine ⟨.inr (by decide), .inr (by decide), .inr (.inr ⟨?_, by decide⟩), ?_, trivial⟩
  case refine_2 => exact nofun
  unfold IrqState.Visible
  decide

theorem injection_not_requested : quietHart.Requested ∧
    (run irqStep quietHart enableLast).riscvCpuLocalIrqPending = some 14 ∧
      (run irqStep quietHart enableLast).hard = false ∧
    (run irqStep quietHart enterGuest).riscvCpuLocalIrqPending = some 14 ∧
      (run irqStep quietHart enterGuest).hard = false :=
  ⟨fun pd => absurd (by decide) pd, by decide, by decide, by decide, by decide⟩

open BitVec
namespace IrqState
variable (s : IrqState)

def guestPending : W64 :=
  vsPosition (((s.cpu.mip ||| s.vsgein ||| s.vstip) &&& (s.cpu.hideleg &&& vsModeInterrupts)) |||
    (s.cpu.hvip &&& (s.cpu.hvien &&& ~~~s.cpu.hideleg)))

def guestEnabled : W64 :=
  vsPosition (s.mie &&& ((localInterrupts ||| vsModeInterrupts) &&& s.cpu.hideleg)) |||
    (s.vsie &&& (localInterrupts &&& (~~~s.cpu.hideleg &&& s.cpu.hvien)))

def supervisorInts : W64 := sModeInterrupts ||| localInterrupts

variable {s} {nv wm : W64}

theorem rmwMip64_read {c : IrqCsr} (hc : c ≠ .hvip) : (s.rmwMip64 c nv wm).1 = s.cpu.mip ||| s.vsgein ||| s.vstip := by
  obtain ⟨se, hn⟩ := s.noteSeip_frame
  unfold rmwMip64
  dsimp only
  rw [if_pos hc, hn]
  split <;> rfl

theorem rmwVsip64_read : (s.rmwVsip64 nv wm).1 = s.guestPending := by
  unfold rmwVsip64 rmwHvip64 guestPending
  dsimp only
  rw [rmwMip64_read (by decide)]
  obtain ⟨mip, se, hard, hf, -⟩ := s.rmwMip64_frame
  rw [hf]
  apply congrArg vsPosition
  ext i hi
  simp only [hvipAlias, hvipNalias, if_true, getElem_and, getElem_or, getElem_not]
  cases s.cpu.hideleg[i] <;> cases s.cpu.hvien[i] <;> cases vsModeInterrupts[i] <;> simp

theorem and_eq_iff_within {x mask : W64} : x &&& mask = x ↔ Within mask x := by
  constructor
  · intro h
    rw [Within, ← h, BitVec.and_assoc, BitVec.and_not_self]
    exact and_zero
  · exact Within.and_eq

/-- With V = 1 an access of `sip` and `sie` is one of `vsip` and `vsie`, but what is read is cut with masks of the
  supervisor level above. -/
theorem guest_views_iff (s : IrqState) (newVal wrMask : W64) (guest : s.cpu.virtEnabled)
    (untrapped : s.hvictl &&& hvictlVti = 0) :
    (s.rmwSip64 newVal wrMask = some (s.rmwVsip64 newVal wrMask) ↔
      Within ((s.cpu.mideleg ||| s.cpu.mvien) &&& supervisorInts) s.guestPending) ∧
    (s.rmwSie64 newVal wrMask = some (s.rmwVsie64 newVal wrMask) ↔
      Within (supervisorInts &&& s.cpu.mideleg) s.guestEnabled) := by
  constructor
  · rw [← and_eq_iff_within, ← rmwVsip64_read]
    simp [rmwSip64, guest, untrapped, Prod.ext_iff]
    exact Iff.rfl
  · rw [← and_eq_iff_within]
    simp [rmwSie64, guest, untrapped, Prod.ext_iff]
    exact Iff.rfl

end IrqState

theorem guestEntry_plain : guestEntry.misaExt.rvh ∧ guestEntry.priv ≠ .machine := by decide

def guestHart (mideleg : W64) : IrqState :=
  irqHart { guestEntry with virtEnabled := true, mip := mipVssip, hideleg := vsModeInterrupts, mideleg := mideleg }
    mipVssip 0 0 fun _ => guestEntry_plain

theorem guest_views_delegated : (guestHart (hsModeInterrupts ||| sModeInterrupts)).rmwSip64 0 0 =
    some ((guestHart (hsModeInterrupts ||| sModeInterrupts)).rmwVsip64 0 0) := by
  have views := IrqState.guest_views_iff (guestHart (hsModeInterrupts ||| sModeInterrupts)) 0 0 rfl (by decide)
  exact views.1.mpr (by decide)

theorem guest_views_cut : (guestHart hsModeInterrupts).cpu.virtEnabled = true ∧
    ((guestHart hsModeInterrupts).rmwVsip64 0 0).1 = mipSsip ∧
    ((guestHart hsModeInterrupts).rmwSip64 0 0).map Prod.fst = some 0 ∧
    ((guestHart hsModeInterrupts).rmwVsie64 0 0).1 = mipSsip ∧
    ((guestHart hsModeInterrupts).rmwSie64 0 0).map Prod.fst = some 0 := by
  decide

end RiscvEmulators.Qemu.Cpu
