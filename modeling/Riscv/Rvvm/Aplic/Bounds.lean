import Riscv.Rvvm.Aplic.Writes

namespace RiscvEmulators.Rvvm.Aplic
open Store Write Option
variable {harts : Nat}

structure SourceFrame (src : Nat) (before after : Aplic harts) : Prop where
  domaincfg : after.domaincfg = before.domaincfg
  raised : after.raised = before.raised
  pending : after.pending = before.pending
  enabled : after.enabled = before.enabled
  target : after.target = before.target
  msis : after.msis = before.msis
  deleg : ∀ other, other ≠ src → after.deleg.has other = before.deleg.has other
  invert : ∀ other, other ≠ src → after.invert.has other = before.invert.has other
  source : ∀ other : Fin 64, other.val ≠ src → after.source other = before.source other
  unimplemented : 64 ≤ src → after = before

section
variable (aplic : Aplic harts) (domain : AplicDomain)

theorem writeDelegation_spec (src : Nat) (val : W32) (hb : domain.rootDomain → src < 64) :
    ∃ deleg : Bits 2, aplic.writeDelegation domain src val = some { aplic with deleg } ∧
      (domain.rootDomain = false → deleg = aplic.deleg) ∧
      (domain.rootDomain → ∀ o, deleg.has o =
        if o = src then decide (val &&& sourcecfgDelegate ≠ 0) else aplic.deleg.has o) := by
  unfold writeDelegation
  by_cases hr : domain.rootDomain
  · have bound : src / 32 < 2 := by
      have small := hb hr
      omega
    rw [if_pos hr, Cells.modify, if_pos bound]
    refine ⟨_, rfl, fun hc => ?_, fun _ o => aplic.deleg.has_set bound _ o⟩
    rw [hr] at hc
    cases hc
  · rw [if_neg hr]
    exact ⟨aplic.deleg, rfl, fun _ => rfl, fun hi => absurd hi hr⟩

def delegated (src : Nat) (val : W32) (other : Nat) : Bool :=
  if domain.rootDomain ∧ other = src then decide (val &&& sourcecfgDelegate ≠ 0) else aplic.deleg.has other

theorem writeSourcecfg_spec (src : Nat) (val : W32) (hb : domain.rootDomain → src < 64) :
    ∃ a, aplic.writeSourcecfg domain src val = some a ∧ SourceFrame src aplic a ∧
      ∀ other, a.deleg.has other = aplic.delegated domain src val other := by
  obtain ⟨deleg, hm, hc, hr⟩ := aplic.writeDelegation_spec domain src val hb
  have deleg' : ∀ other, deleg.has other = aplic.delegated domain src val other := by
    intro other
    unfold delegated
    cases hi : domain.rootDomain with
    | true => simp [hr hi other]
    | false => simp [hc hi]
  have ha : ∀ other, other ≠ src → deleg.has other = aplic.deleg.has other := by
    intro other hd
    simp [deleg', delegated, hd]
  have ho : 64 ≤ src → deleg = aplic.deleg := by
    intro hh
    apply hc
    cases hi : domain.rootDomain with
    | true => exact absurd (hb hi) (by omega)
    | false => rfl
  simp only [writeSourcecfg, hm, validSrc_eq, bind_eq_bind, bind_some]
  by_cases owns : valid ({ aplic with deleg } : Aplic harts) domain src
  · have bound := valid_lt _ owns
    simp only [if_pos owns, Cells.write, Cells.modify, if_pos bound, if_pos (show src / 32 < 2 by omega)]
    refine ⟨_, rfl, ⟨rfl, rfl, rfl, rfl, rfl, rfl, ha, fun other hd => ?_, fun other hd => ?_,
      fun hh => absurd bound (by omega)⟩, deleg'⟩
    · exact (aplic.invert.has_set (by omega) _ other).trans (if_neg hd)
    · dsimp only
      exact Cells.change_other _ _ hd
  · rw [if_neg owns]
    refine ⟨_, rfl, ⟨rfl, rfl, rfl, rfl, rfl, rfl, ha, fun _ _ => rfl, fun _ _ => rfl, fun hh => ?_⟩, deleg'⟩
    rw [ho hh]

theorem writeTarget_spec (src : Nat) (val : W32) :
    ∃ target, aplic.writeTarget domain src val = some { aplic with target } := by
  rw [writeTarget, validSrc_eq, bind_eq_bind, bind_some]
  by_cases h : aplic.valid domain src
  · rw [if_pos h, Cells.write, Cells.modify, if_pos (aplic.valid_lt h)]
    exact ⟨_, rfl⟩
  · rw [if_neg h]
    exact ⟨aplic.target, rfl⟩

end

section
variable (ap : Aplic harts) (d : AplicDomain)

theorem rectifiedBits_isSome (reg : Nat) : (ap.rectifiedBits reg).isSome := by
  unfold rectifiedBits
  split
  · rename_i h
    simp [Cells.read, h]
  · rfl

theorem validBits_isSome (reg : Nat) : (ap.validBits d reg).isSome := by
  unfold validBits
  split
  · rename_i h
    simp [Cells.read, h]
  · rfl

theorem readBits_isSome (bs : Bits 2) (reg : Nat) : (ap.readBits bs d reg).isSome := by
  obtain ⟨v, hk⟩ := isSome_iff_exists.mp (ap.validBits_isSome d reg)
  unfold readBits
  split
  · rename_i hb
    simp [Cells.read, hb, hk]
  · rfl

theorem readIn_isSome (reg : Nat) : (ap.readIn d reg).isSome := by
  obtain ⟨r, hk⟩ := isSome_iff_exists.mp (ap.rectifiedBits_isSome reg)
  obtain ⟨v, ha⟩ := isSome_iff_exists.mp (ap.validBits_isSome d reg)
  simp [readIn, hk, ha]

theorem read_valid_isSome {c : Cells 64 (W32)} {src : Nat} (h : ap.valid d src) :
    (c.read src).isSome := (Cells.read_isSome c src).mpr (ap.valid_lt h)

theorem isSome_branch {α : Type} {c : Prop} [Decidable c] {x y : Option α} (hx : x.isSome) (hy : y.isSome) :
    (if c then x else y).isSome := by
  split <;> assumption

theorem mmioRead_isSome (off : Nat) : (ap.mmioRead d off).isSome := by
  refine isSome_branch ?_ (isSome_branch rfl (isSome_branch (ap.readBits_isSome d _ _)
    (isSome_branch (ap.readIn_isSome d _) (isSome_branch (ap.readBits_isSome d _ _)
      (isSome_branch ?_ (isSome_branch ?_ rfl))))))
  · cases d with
    | mk r => cases r <;> rfl
  · dsimp only
    rw [validSrc_eq, bind_eq_bind, bind_some]
    by_cases hi : ap.valid d ((off - regSourcecfg1) / 4 + 1)
    · rw [if_pos hi]
      exact ap.read_valid_isSome d hi
    · rw [if_neg hi]
      split <;> rfl
  · dsimp only
    rw [validSrc_eq, bind_eq_bind, bind_some]
    by_cases hi : ap.valid d ((off - regTarget1) / 4 + 1)
    · rw [if_pos hi]
      exact ap.read_valid_isSome d hi
    · rw [if_neg hi]
      rfl

end

section
variable (aplic : Aplic harts)

theorem accepted_at {p : Nat → Bool} {irq : Nat} {c : Bool} (hb : 0 < irq ∧ irq < 64) (hc : c = p irq) :
    Accepted (fun src => decide (src = irq) && decide (src ≠ 0) && p src) aplic (aplic.acceptIf c ⟨irq, hb.2⟩) := by
  apply (aplic.accepted_if _ _).congr
  intro src
  by_cases hh : src.val = irq
  · simp [hh, hc, show irq ≠ 0 by omega]
  · simp [hh]

theorem accepted_nowhere {p : Nat → Bool} {irq : Nat} (hb : ¬(0 < irq ∧ irq < 64)) :
    Accepted (fun src => decide (src = irq) && decide (src ≠ 0) && p src) aplic aplic := by
  apply aplic.accepted_none.congr
  intro src
  by_cases hh : src.val = irq
  · simp [show irq = 0 by omega]
  · simp [hh]

theorem sendIrq_spec (irq : Nat) : ∃ after, aplic.sendIrq irq = some after ∧
    Accepted (fun src => decide (src = irq) && decide (src ≠ 0) && !aplic.detached src) aplic after := by
  unfold sendIrq
  by_cases hb : 0 < irq ∧ irq < 64
  · have he := aplic.edgeInterrupt_eq ⟨irq, hb.2⟩
    rw [if_pos hb, he]
    exact ⟨_, rfl, aplic.accepted_at hb rfl⟩
  · rw [if_neg hb]
    exact ⟨aplic, rfl, aplic.accepted_nowhere hb⟩

def otherRaised (irq : Nat) : Bool := decide ((aplic.raised.read (irq / 32)).getD 0 &&& ~~~bitOf irq ≠ 0)

theorem pin_spec (raised : Bits 2) (irq : Fin 64) (e : Prop) [Decidable e] :
    (if e then ({ aplic with raised } : Aplic harts).updateInterrupt irq else some { aplic with raised })
      = some (({ aplic with raised } : Aplic harts).acceptIf
        (decide e && (raised.has irq ^^ aplic.invert.has irq) && !aplic.detached irq) irq) := by
  by_cases h : e
  · rw [if_pos h, updateInterrupt_eq, decide_eq_true h]
    rfl
  · rw [if_neg h, decide_eq_false h]
    rfl

theorem raiseIrq_spec (irq : Nat) : ∃ raised after, aplic.raiseIrq irq = some after ∧
    Accepted (fun src => decide (src = irq) && decide (src ≠ 0) &&
      (!aplic.raised.has src && !aplic.invert.has src && !aplic.detached src)) { aplic with raised } after := by
  unfold raiseIrq
  by_cases hb : 0 < irq ∧ irq < 64
  · have new : aplic.raised.modify (irq / 32) (fun w => w ||| bitOf irq) = some (aplic.raised.insert irq) :=
      if_pos (by omega)
    have hw : decide (~~~aplic.raised ⟨irq / 32, by omega⟩ &&& bitOf irq ≠ 0) = !aplic.raised.has irq := by
      rw [and_bitOf, BitVec.getLsbD_not, Bits.has_eq aplic.raised (show irq / 32 < 2 by omega)]
      have hn : bitOf irq ≠ 0#32 := bitOf_ne_zero irq
      cases (aplic.raised ⟨irq / 32, by omega⟩).getLsbD (irq % 32) <;>
        simp [Nat.mod_lt irq (show 0 < 32 by decide), hn]
    have hi : (aplic.raised.insert irq).has irq := by
      simp [Bits.has_insert aplic.raised (show irq / 32 < 2 by omega)]
    have hp := aplic.pin_spec (aplic.raised.insert irq) ⟨irq, hb.2⟩
      (~~~aplic.raised ⟨irq / 32, by omega⟩ &&& bitOf irq ≠ 0)
    rw [hw, hi] at hp
    simp only [if_pos hb, Cells.read_lt _ (show irq / 32 < 2 by omega), new]
    exact ⟨_, _, hp, accepted_at _ hb (by simp)⟩
  · rw [if_neg hb]
    exact ⟨aplic.raised, aplic, rfl, aplic.accepted_nowhere hb⟩

theorem lowerIrq_spec (irq : Nat) : ∃ raised after, aplic.lowerIrq irq = some after ∧
    Accepted (fun src => decide (src = irq) && decide (src ≠ 0) &&
      (aplic.otherRaised irq && aplic.invert.has src && !aplic.detached src)) { aplic with raised } after := by
  unfold lowerIrq
  by_cases hb : 0 < irq ∧ irq < 64
  · have hs : irq / 32 < 2 := by omega
    have hn : aplic.raised.modify (irq / 32) (fun w => w &&& ~~~bitOf irq) = some (aplic.raised.remove irq) :=
      if_pos (by omega)
    have ho : decide (aplic.raised ⟨irq / 32, by omega⟩ &&& ~~~bitOf irq ≠ 0) = aplic.otherRaised irq := by
      rw [otherRaised, Cells.read_lt _ hs, getD_some]
    have hi : (aplic.raised.remove irq).has irq = false := by simp [Bits.has_remove]
    have hp := aplic.pin_spec (aplic.raised.remove irq) ⟨irq, hb.2⟩
      (aplic.raised ⟨irq / 32, by omega⟩ &&& ~~~bitOf irq ≠ 0)
    rw [ho, hi] at hp
    simp only [if_pos hb, Cells.read_lt _ hs, hn]
    exact ⟨_, _, hp, accepted_at _ hb (by simp)⟩
  · rw [if_neg hb]
    exact ⟨aplic.raised, aplic, rfl, aplic.accepted_nowhere hb⟩

end

section
variable (aplic : Aplic harts) (domain : AplicDomain)

theorem perform_isSome (w : Write) : (w.perform aplic domain).isSome ↔ w.Bounded domain := by
  cases w with
  | domaincfg val => simp [perform, Write.Bounded, writeDomaincfg_eq]
  | setipnum src =>
    by_cases bound : src < 64
    · have hd := aplic.setipnum_eq domain ⟨src, bound⟩
      simp [perform, Write.Bounded, hd]
    · simp [perform, Write.Bounded, aplic.setipnum_outside domain bound]
  | setip reg bs =>
    obtain ⟨a, hd, -⟩ := aplic.setip_spec domain reg bs
    simp [perform, Write.Bounded, hd]
  | clrip reg bs =>
    obtain ⟨p, hd, -⟩ := aplic.clearBits_spec domain aplic.pending reg bs
    simp [perform, Write.Bounded, clrip, hd]
  | setie reg bs =>
    obtain ⟨_, _, _, a, hd, -⟩ := aplic.setie_spec domain reg bs
    simp [perform, Write.Bounded, hd]
  | clrie reg bs =>
    obtain ⟨e, hd, -⟩ := aplic.clearBits_spec domain aplic.enabled reg bs
    simp [perform, Write.Bounded, clrie, hd]
  | genmsi val => simp [perform, Write.Bounded]
  | sourcecfg src val =>
    unfold perform Write.Bounded
    dsimp only
    constructor
    · intro hd hr
      apply Classical.byContradiction
      intro ho
      -- the delegation bit of the source is beyond the array
      rw [writeSourcecfg, writeDelegation, if_pos hr, Cells.modify, if_neg (by omega)] at hd
      cases hd
    · intro hb
      obtain ⟨a, hd, -⟩ := aplic.writeSourcecfg_spec domain src val hb
      rw [hd]
      rfl
  | target src val =>
    obtain ⟨target, hd⟩ := aplic.writeTarget_spec domain src val
    simp [perform, Write.Bounded, hd]
  | ignored => simp [perform, Write.Bounded]

/-- A source that the root domain configures is one of the 64; everything else may have any value. -/
def Event.Bounded : Event → Prop
  | .write domain offset _ => domain.rootDomain → regSourcecfg1 ≤ offset ∧ offset ≤ regSourcecfg1023 →
    (offset - regSourcecfg1) / 4 + 1 < 64
  | _ => True

theorem decode_bounded (off : Nat) (val : W32) :
    (decode off val).Bounded domain ↔ (Event.write domain off val).Bounded := by
  unfold Event.Bounded
  by_cases hc : regSourcecfg1 ≤ off ∧ off ≤ regSourcecfg1023
  · rw [decode_sourcecfg val hc]
    simp [Write.Bounded, hc]
  · apply iff_of_true _ fun _ hi => absurd hi hc
    rw [decode, if_neg hc]
    simp only [apply_ite (Write.Bounded domain)]
    simp [Write.Bounded]

theorem step_isSome (e : Event) : (aplic.step e).isSome ↔ e.Bounded := by
  cases e with
  | read domain off =>
    simp [step, Event.Bounded, aplic.mmioRead_isSome domain off]
  | write domain off val =>
    rw [step, mmioWrite_eq, perform_isSome, decode_bounded]
  | send irq =>
    obtain ⟨a, h, -⟩ := aplic.sendIrq_spec irq
    simp [step, Event.Bounded, h]
  | raise irq =>
    obtain ⟨_, a, h, -⟩ := aplic.raiseIrq_spec irq
    simp [step, Event.Bounded, h]
  | lower irq =>
    obtain ⟨_, a, h, -⟩ := aplic.lowerIrq_spec irq
    simp [step, Event.Bounded, h]

def Event.Framed (before after : Aplic harts) : Event → Prop
  | .write _ offset _ => regSourcecfg1 ≤ offset ∧ offset ≤ regSourcecfg1023 →
    SourceFrame ((offset - regSourcecfg1) / 4 + 1) before after
  | _ => True

theorem step_framed {after : Aplic harts} {e : Event} (hd : aplic.step e = some after) : e.Framed aplic after := by
  cases e with
  | write domain off val =>
    intro hc
    have hb := (aplic.step_isSome (.write domain off val)).mp (by rw [hd]; rfl)
    obtain ⟨w, hr, hf, -⟩ := aplic.writeSourcecfg_spec domain ((off - regSourcecfg1) / 4 + 1) val
      fun root => hb root hc
    rw [step, mmioWrite_eq, decode_sourcecfg val hc, perform, hr] at hd
    cases hd
    exact hf
  | read domain off => exact True.intro
  | send irq => exact True.intro
  | raise irq => exact True.intro
  | lower irq => exact True.intro

def Sound (aplic : Aplic harts) : List Event → Prop
  | [] => True
  | event :: events => ∃ after, aplic.step event = some after ∧ event.Framed aplic after ∧ after.Sound events

end

theorem sound_iff_bounded (aplic : Aplic harts) (events : List Event) :
    aplic.Sound events ↔ ∀ event ∈ events, event.Bounded := by
  induction events generalizing aplic with
  | nil => simp [Sound]
  | cons event events ih =>
    rw [List.forall_mem_cons, ← aplic.step_isSome event, isSome_iff_exists]
    constructor
    · rintro ⟨next, done, -, rest⟩
      exact ⟨⟨next, done⟩, (ih next).mp rest⟩
    · rintro ⟨⟨next, done⟩, rest⟩
      exact ⟨next, done, aplic.step_framed done, (ih next).mpr rest⟩

theorem delegation_out_of_bounds : ¬ (init 1).Sound [.write ⟨true⟩ 0x100 0x400] := by
  rintro ⟨after, done, -⟩
  have outside : ((init 1).step (.write ⟨true⟩ 0x100 0x400)).isNone := by decide +kernel
  rw [done] at outside
  cases outside

end RiscvEmulators.Rvvm.Aplic
