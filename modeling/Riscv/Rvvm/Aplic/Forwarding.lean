import Riscv.Rvvm.Aplic.Bounds
import Riscv.Transition.Run

namespace RiscvEmulators.Rvvm.Aplic
open Store Transition
variable {harts : Nat}

/-- The controller as an interrupt sees it: what is pending, what is enabled, and the sources of a domain that
  delivers. -/
structure Lines where
  pending : Fin 64 → Bool
  enabled : Fin 64 → Bool
  delivers : Fin 64 → Bool

def Lines.ready (lines : Lines) (src : Fin 64) : Bool := lines.pending src && lines.enabled src && lines.delivers src

def lines (aplic : Aplic harts) : Lines where
  pending src := aplic.pending.has src
  enabled src := aplic.enabled.has src
  delivers src := aplic.delivers src

def Lines.request (lines : Lines) (wanted : Fin 64 → Bool) : Lines :=
  { lines with pending := fun src => lines.pending src || wanted src }

def Write.asked (aplic : Aplic harts) (domain : AplicDomain) : Write → Lines
  | .domaincfg val => { aplic.lines with
    delivers := fun src => if aplic.valid domain src then decide (val &&& domaincfgIe ≠ 0) else aplic.delivers src }
  | .setipnum n => aplic.lines.request fun src => decide (src.val = n) && aplic.ungated domain src
  | .setip reg bits => aplic.lines.request fun src => picked reg bits src && aplic.ungated domain src
  | .clrip reg bits => { aplic.lines with
      pending := fun src => aplic.pending.has src && !(picked reg bits src && aplic.valid domain src) }
  | .setie reg bits => { aplic.lines with
      enabled := fun src => aplic.enabled.has src || picked reg bits src && aplic.valid domain src }
  | .clrie reg bits => { aplic.lines with
      enabled := fun src => aplic.enabled.has src && !(picked reg bits src && aplic.valid domain src) }
  | .sourcecfg n val => { aplic.lines with delivers := fun src => aplic.ie (aplic.delegated domain n val src) }
  | .genmsi _ | .target _ _ | .ignored => aplic.lines

/-- The lines that an event asks for. A pin asks for an interrupt when it becomes active. -/
def Event.asked (aplic : Aplic harts) : Event → Lines
  | .read _ _ => aplic.lines
  | .write domain offset val => (decode offset val).asked aplic domain
  | .send irq => aplic.lines.request fun src => decide (src.val = irq) && decide (src.val ≠ 0) && !aplic.detached src
  | .raise irq => aplic.lines.request fun src => decide (src.val = irq) && decide (src.val ≠ 0) &&
    (!aplic.raised.has src && !aplic.invert.has src && !aplic.detached src)
  | .lower irq => aplic.lines.request fun src => decide (src.val = irq) && decide (src.val ≠ 0) &&
    (aplic.raised.has src && aplic.invert.has src && !aplic.detached src)

/-- The interrupt of a source that is asked for, enabled and delivered is sent, once, and is no longer pending;
  any other source sends nothing and stays as it was asked to be. -/
structure ForwardedOnce (before : Aplic harts) (asked : Lines) (after : Aplic harts) (src : Fin 64) : Prop where
  quiet : after.lines.ready src = false
  sent : after.sentFor src = before.sentFor src ++ if asked.ready src then [after.message src] else []
  pending : after.pending.has src = (asked.pending src && !asked.ready src)

section
variable {b a : Aplic harts} {ask : Lines} {src : Fin 64}

theorem forwardedOnce_iff {s : Bool} (hs : a.sentFor src = b.sentFor src ++ if s then [a.message src] else []) :
    ForwardedOnce b ask a src ↔ a.lines.ready src = false ∧ s = ask.ready src ∧
      a.pending.has src = (ask.pending src && !ask.ready src) := by
  constructor
  · rintro ⟨hq, ht, hp⟩
    refine ⟨hq, ?_, hp⟩
    rw [hs] at ht
    revert ht
    cases s <;> cases ask.ready src <;> simp
  · rintro ⟨hq, same, hp⟩
    rw [same] at hs
    exact ⟨hq, hs, hp⟩

theorem forwardedOnce_of_settings (sent : a.sentFor src = b.sentFor src)
    (hp : a.pending.has src = ask.pending src) (he : a.enabled.has src = ask.enabled src)
    (hd : a.delivers src = ask.delivers src) : ForwardedOnce b ask a src ↔ ask.ready src = false := by
  have hs : a.lines.ready src = ask.ready src := by
    simp [Lines.ready, lines, hp, he, hd]
  rw [forwardedOnce_iff (show a.sentFor src = b.sentFor src ++ if false then _ else [] by simp [sent]), hs, hp]
  cases ask.ready src <;> simp

theorem forwardedOnce_of_same (sent : a.sentFor src = b.sentFor src)
    (hs : a.lines = b.lines) (hq : b.lines.ready src = false) : ForwardedOnce b b.lines a src := by
  refine (forwardedOnce_of_settings sent ?_ ?_ ?_).mpr hq
  · exact congrFun (congrArg Lines.pending hs) src
  · exact congrFun (congrArg Lines.enabled hs) src
  · exact congrFun (congrArg Lines.delivers hs) src

theorem ready_iff_forwards (aplic : Aplic harts) (src : Fin 64) :
    aplic.lines.ready src = (aplic.pending.has src && aplic.forwards src) := by
  simp [Lines.ready, lines, forwards, Bool.and_assoc]

-- the state of the pins is not seen
theorem Accepted.forwardedOnce {taken : Nat → Bool} {wanted : Fin 64 → Bool} {raised : Bits 2}
    (ha : Accepted taken { b with raised } a) (hq : b.lines.ready src = false) :
    ForwardedOnce b (b.lines.request wanted) a src ↔ (b.pending.has src ∨ taken src = wanted src) := by
  have hs : a.sentFor src = b.sentFor src ++ if taken src && b.forwards src then [b.message src] else [] := ha.sent src
  have hm : a.message src = b.message src := ha.settings.message src
  have hf : a.forwards src = b.forwards src := ha.settings.forwards src
  have hp : a.pending.has src = (b.pending.has src || taken src && !b.forwards src) := ha.pending src
  have ha2 : (b.lines.request wanted).ready src
      = ((b.pending.has src || wanted src) && b.forwards src) := by
    simp [Lines.ready, Lines.request, lines, forwards, Bool.and_assoc]
  have hw : (b.lines.request wanted).pending src = (b.pending.has src || wanted src) := rfl
  rw [← hm] at hs
  rw [ready_iff_forwards] at hq
  rw [forwardedOnce_iff hs, ha2, hw, ready_iff_forwards, hp, hf]
  revert hq
  generalize b.pending.has src = pending
  generalize b.forwards src = forwards
  generalize taken src = taken
  generalize wanted src = wanted
  revert pending forwards taken wanted
  decide

end

section
variable (aplic : Aplic harts) (domain : AplicDomain)

def Write.Careful (src : Fin 64) : Write → Prop
    -- delivery is turned on: nothing waits for it
  | .domaincfg val => val &&& domaincfgIe ≠ 0 → aplic.valid domain src →
    ¬ (aplic.pending.has src ∧ aplic.enabled.has src)
  -- the last source of a word is not asked for, unless it is pending already
  | .setip reg bits => src.val % 32 = 31 → picked reg bits src → aplic.ungated domain src →
    aplic.pending.has src
  -- the last source of a word is not enabled while it is pending
  | .setie reg bits => src.val % 32 = 31 → picked reg bits src → aplic.valid domain src →
    aplic.enabled.has src = false → aplic.pending.has src = false
  -- a source that waits does not move to a domain that delivers
  | .sourcecfg n val => domain.rootDomain → src.val = n → aplic.ie (decide (val &&& sourcecfgDelegate ≠ 0)) →
    ¬ (aplic.pending.has src ∧ aplic.enabled.has src)
  | _ => True

def Event.Careful (event : Event) (src : Fin 64) : Prop :=
  match event with
  | .write domain offset val => (decode offset val).Careful aplic domain src
  -- an inverted source that is lowered was raised exactly if another of its word is
  | .lower irq => src.val = irq → src.val ≠ 0 → aplic.invert.has src → aplic.detached src = false →
      aplic.pending.has src ∨ aplic.otherRaised irq = aplic.raised.has src
  | _ => True

end

section
variable (ap : Aplic harts) (d : AplicDomain) {src : Fin 64}

variable {val : W32}

theorem delivers_domaincfg {src : Fin 64} :
    delivers ({ ap with domaincfg := ap.domaincfg.change (domainIndex d) fun _ => val &&& domaincfgIe } :
      Aplic harts) src = if ap.valid d src then decide (val &&& domaincfgIe ≠ 0) else ap.delivers src := by
  have h : val &&& domaincfgIe &&& domaincfgIe = val &&& domaincfgIe := by
    rw [BitVec.and_assoc, BitVec.and_self]
  unfold delivers ie valid domainIndex
  cases d with
  | mk r => cases r <;> cases ap.deleg.has src <;> simp [Cells.change, h]

theorem domaincfg_forwardedOnce {af : Aplic harts}
    (hd : { ap with domaincfg := ap.domaincfg.change (domainIndex d) fun _ => val &&& domaincfgIe } = af)
    (hq : ap.lines.ready src = false) :
    ForwardedOnce ap ((Write.domaincfg val).asked ap d) af src ↔ (Write.domaincfg val).Careful ap d src := by
  subst hd
  have hs : ForwardedOnce ap ((Write.domaincfg val).asked ap d)
      { ap with domaincfg := ap.domaincfg.change (domainIndex d) fun _ => val &&& domaincfgIe } src ↔
      ((Write.domaincfg val).asked ap d).ready src = false :=
    forwardedOnce_of_settings rfl rfl rfl (ap.delivers_domaincfg d)
  rw [hs, Write.Careful]
  revert hq
  simp only [Write.asked, Lines.ready, lines]
  cases ap.pending.has src <;> cases ap.enabled.has src <;> cases ap.valid d src <;> simp

variable {a : Aplic harts}

theorem setip_forwardedOnce {reg : Nat} {bs : W32}
    (ha : Accepted (fun src => picked reg bs src && ap.ungated d src && decide (src % 32 < 31)) ap a)
    (hq : ap.lines.ready src = false) :
    ForwardedOnce ap ((Write.setip reg bs).asked ap d) a src ↔ (Write.setip reg bs).Careful ap d src := by
  rw [Write.asked, ha.forwardedOnce hq, Write.Careful]
  by_cases hl : src.val % 32 = 31
  · simp only [hl]
    cases ap.pending.has src <;> cases picked reg bs src <;> cases ap.ungated d src <;> simp
  · simp [hl, show src.val % 32 < 31 by omega]

theorem setie_forwardedOnce {enabled pending : Bits 2} {taken : Nat → Bool} {reg : Nat} {bits : W32}
    (hu : enabled.has src = (ap.enabled.has src || picked reg bits src && ap.valid d src))
    (hd : pending.has src = (ap.pending.has src && !(picked reg bits src && ap.valid d src && !ap.enabled.has src)))
    (free : (picked reg bits src && ap.valid d src && !ap.enabled.has src) →
      taken src = (ap.pending.has src && decide (src.val % 32 < 31)))
    (hw : taken src → ap.pending.has src) (ha : Accepted taken { ap with enabled, pending } a)
    (hq : ap.lines.ready src = false) :
    ForwardedOnce ap ((Write.setie reg bits).asked ap d) a src ↔ (Write.setie reg bits).Careful ap d src := by
  have hs : a.sentFor src = ap.sentFor src ++
      if taken src && Aplic.forwards ({ ap with enabled, pending } : Aplic harts) src then [a.message src]
      else [] := by
    rw [ha.settings.message]
    exact ha.sent src
  have hf : Aplic.forwards ({ ap with enabled, pending } : Aplic harts) src
      = (enabled.has src && ap.delivers src) := rfl
  have ha2 : ((Write.setie reg bits).asked ap d).ready src
      = (ap.pending.has src && enabled.has src && ap.delivers src) := by
    rw [hu]
    rfl
  have waits : ((Write.setie reg bits).asked ap d).pending src = ap.pending.has src := rfl
  have hl : src.val % 32 = 31 ↔ decide (src.val % 32 < 31) = false := by
    simp only [decide_eq_false_iff_not]
    omega
  rw [forwardedOnce_iff hs, ha2, waits, ready_iff_forwards, ha.pending, ha.settings.forwards, hf, Write.Careful, hl]
  rw [hd, hu]
  revert free hw hq
  simp only [Lines.ready, lines]
  generalize ap.pending.has src = pending
  generalize ap.enabled.has src = enabled
  generalize ap.delivers src = delivers
  generalize ap.valid d src = valid
  generalize picked reg bits src = picked
  generalize decide (src.val % 32 < 31) = below
  generalize taken src = taken
  revert pending enabled delivers valid picked below taken
  decide

theorem sourcecfg_forwardedOnce {n : Nat} (hf : SourceFrame n ap a)
    (hm : ∀ o, a.deleg.has o = ap.delegated d n val o) (hq : ap.lines.ready src = false) :
    ForwardedOnce ap ((Write.sourcecfg n val).asked ap d) a src ↔ (Write.sourcecfg n val).Careful ap d src := by
  have hs : ForwardedOnce ap ((Write.sourcecfg n val).asked ap d) a src ↔
      ((Write.sourcecfg n val).asked ap d).ready src = false := by
    apply forwardedOnce_of_settings
    · simp [sentFor, hf.msis]
    · rw [hf.pending]
      rfl
    · rw [hf.enabled]
      rfl
    · simp only [Aplic.delivers, ie, hm, hf.domaincfg]
      rfl
  rw [hs, Write.Careful]
  revert hq
  simp only [Write.asked, Lines.ready, lines, delegated]
  by_cases hh : d.rootDomain ∧ src.val = n
  · rw [if_pos hh]
    generalize decide (val &&& sourcecfgDelegate ≠ 0) = s
    cases ap.pending.has src <;> cases ap.enabled.has src <;> cases ap.ie s <;> simp [hh]
  · rw [if_neg hh]
    intro hq
    exact iff_of_true hq fun hr same => absurd ⟨hr, same⟩ hh

theorem perform_forwardedOnce {w : Write} (bound : w.Bounded d) :
    ∃ a, w.perform ap d = some a ∧ ∀ src : Fin 64, ap.lines.ready src = false →
      (ForwardedOnce ap (w.asked ap d) a src ↔ w.Careful ap d src) := by
  cases w with
  | domaincfg val =>
    exact ⟨_, ap.writeDomaincfg_eq d val, fun src hq => ap.domaincfg_forwardedOnce d rfl hq⟩
  | setipnum n =>
    by_cases hb : n < 64
    · refine ⟨_, ap.setipnum_eq d ⟨n, hb⟩, fun src hq => ?_⟩
      rw [Write.asked, (ap.accepted_if _ ⟨n, hb⟩).forwardedOnce hq]
      refine iff_of_true (.inr ?_) True.intro
      by_cases hh : src.val = n <;> simp [hh]
    · refine ⟨ap, ap.setipnum_outside d hb, fun src hq => ?_⟩
      rw [Write.asked, ap.accepted_none.forwardedOnce hq]
      refine iff_of_true (.inr ?_) True.intro
      simp [show src.val ≠ n by omega]
  | setip reg bs =>
    obtain ⟨a, hd, ha⟩ := ap.setip_spec d reg bs
    exact ⟨a, hd, fun src hq => ap.setip_forwardedOnce d ha hq⟩
  | clrip reg bs =>
    obtain ⟨pending, hd, hc⟩ := ap.clearBits_spec d ap.pending reg bs
    refine ⟨{ ap with pending }, by rw [Write.perform, clrip, hd]; rfl, fun src hq => ?_⟩
    have hs : ForwardedOnce ap ((Write.clrip reg bs).asked ap d) { ap with pending } src ↔
        ((Write.clrip reg bs).asked ap d).ready src = false :=
      forwardedOnce_of_settings rfl (hc src) rfl rfl
    refine hs.trans (iff_of_true ?_ True.intro)
    revert hq
    simp only [Write.asked, Lines.ready, lines]
    cases ap.pending.has src <;> cases ap.enabled.has src <;> cases ap.delivers src <;> simp
  | setie reg bs =>
    obtain ⟨enabled, pending, t, a, hd, hu, apart, free, hw, ha⟩ :=
      ap.setie_spec d reg bs
    exact ⟨a, hd, fun src hq =>
      ap.setie_forwardedOnce d (hu src) (apart src) (free src) (hw src) ha hq⟩
  | clrie reg bs =>
    obtain ⟨enabled, hd, hc⟩ := ap.clearBits_spec d ap.enabled reg bs
    refine ⟨{ ap with enabled }, by rw [Write.perform, clrie, hd]; rfl, fun src hq => ?_⟩
    have hs : ForwardedOnce ap ((Write.clrie reg bs).asked ap d) { ap with enabled } src ↔
        ((Write.clrie reg bs).asked ap d).ready src = false :=
      forwardedOnce_of_settings rfl rfl (hc src) rfl
    refine hs.trans (iff_of_true ?_ True.intro)
    revert hq
    simp only [Write.asked, Lines.ready, lines]
    cases ap.pending.has src <;> cases ap.enabled.has src <;> cases ap.delivers src <;> simp
  | genmsi val =>
    refine ⟨_, rfl, fun src hq => iff_of_true (forwardedOnce_of_same ?_ rfl hq) True.intro⟩
    simp [genMsi, sentFor]
  | sourcecfg n val =>
    obtain ⟨a, hd, hf, hm⟩ := ap.writeSourcecfg_spec d n val bound
    exact ⟨a, hd, fun src hq => ap.sourcecfg_forwardedOnce d hf hm hq⟩
  | target n val =>
    obtain ⟨target, hd⟩ := ap.writeTarget_spec d n val
    exact ⟨_, hd, fun src hq => iff_of_true (forwardedOnce_of_same rfl rfl hq) True.intro⟩
  | ignored =>
    exact ⟨ap, rfl, fun src hq => iff_of_true (forwardedOnce_of_same rfl rfl hq) True.intro⟩

theorem lower_forwardedOnce {raised : Bits 2} {irq : Nat}
    (ha : Accepted (fun src => decide (src = irq) && decide (src ≠ 0) &&
      (ap.otherRaised irq && ap.invert.has src && !ap.detached src)) { ap with raised } a)
    (hq : ap.lines.ready src = false) :
    ForwardedOnce ap ((Event.lower irq).asked ap) a src ↔ (Event.lower irq).Careful ap src := by
  rw [Event.asked, ha.forwardedOnce hq]
  unfold Event.Careful
  by_cases hh : src.val = irq ∧ src.val ≠ 0
  · have hn : irq ≠ 0 := fun hz => hh.2 (hh.1.trans hz)
    cases ap.invert.has src <;> cases ap.detached src <;> simp [hh, hn]
  · have none : (decide (src.val = irq) && decide (src.val ≠ 0)) = false := by
      rw [← Bool.decide_and, decide_eq_false hh]
    simp only [none, Bool.false_and]
    exact iff_of_true (.inr trivial) fun hs hn => absurd ⟨hs, hn⟩ hh

theorem step_forwardedOnce {e : Event} (hb : e.Bounded) :
    ∃ a, ap.step e = some a ∧ ∀ src : Fin 64, ap.lines.ready src = false →
      (ForwardedOnce ap (e.asked ap) a src ↔ e.Careful ap src) := by
  cases e with
  | read d off =>
    obtain ⟨v, hd⟩ := Option.isSome_iff_exists.mp (ap.mmioRead_isSome d off)
    exact ⟨ap, by rw [step, hd]; rfl, fun src hq =>
      iff_of_true (forwardedOnce_of_same rfl rfl hq) True.intro⟩
  | write d off val =>
    rw [step, mmioWrite_eq]
    exact ap.perform_forwardedOnce d ((decode_bounded d off val).mpr hb)
  | send irq =>
    obtain ⟨a, hd, ha⟩ := ap.sendIrq_spec irq
    refine ⟨a, hd, fun src hq => ?_⟩
    rw [Event.asked, ha.forwardedOnce hq]
    exact iff_of_true (.inr rfl) True.intro
  | raise irq =>
    obtain ⟨r, a, hd, ha⟩ := ap.raiseIrq_spec irq
    refine ⟨a, hd, fun src hq => ?_⟩
    rw [Event.asked, ha.forwardedOnce hq]
    exact iff_of_true (.inr rfl) True.intro
  | lower irq =>
    obtain ⟨r, a, hd, ha⟩ := ap.lowerIrq_spec irq
    exact ⟨a, hd, fun src hq => ap.lower_forwardedOnce ha hq⟩

end

/-- The event stays in bounds and forwards every interrupt it asks for, once. Number 0 is no source. -/
def ForwardsOnce (aplic : Aplic harts) (event : Event) : Prop :=
  ∃ after, aplic.step event = some after ∧ ∀ src : Fin 64, src.val ≠ 0 → ForwardedOnce aplic (event.asked aplic) after src

def Event.CarefulOf (aplic : Aplic harts) (event : Event) : Prop :=
  event.Bounded ∧ ∀ src : Fin 64, src.val ≠ 0 → event.Careful aplic src

def after (aplic : Aplic harts) (event : Event) : Aplic harts := (aplic.step event).getD aplic
def Quiet (aplic : Aplic harts) : Prop := ∀ src : Fin 64, src.val ≠ 0 → aplic.lines.ready src = false

theorem forwardsOnce_iff (aplic : Aplic harts) (e : Event) (hq : aplic.Quiet) :
    aplic.ForwardsOnce e ↔ e.CarefulOf aplic := by
  constructor
  · rintro ⟨af, hd, ho⟩
    have hb := (aplic.step_isSome e).mp (by rw [hd]; rfl)
    obtain ⟨same, ha, he⟩ := aplic.step_forwardedOnce hb
    rw [hd] at ha
    cases ha
    exact ⟨hb, fun src hn => (he src (hq src hn)).mp (ho src hn)⟩
  · rintro ⟨hb, hc⟩
    obtain ⟨af, hd, he⟩ := aplic.step_forwardedOnce hb
    exact ⟨af, hd, fun src hn => (he src (hq src hn)).mpr (hc src hn)⟩

theorem ForwardsOnce.quiet {aplic : Aplic harts} {e : Event} (ho : aplic.ForwardsOnce e) : (aplic.after e).Quiet := by
  obtain ⟨next, hd, he⟩ := ho
  rw [after, hd]
  exact fun src hn => (he src hn).quiet

theorem init_quiet {harts : Nat} : (init harts).Quiet := by
  intro src _
  have h : (init harts).pending.has src = false := by
    rw [Bits.has_eq _ (show src.val / 32 < 2 by omega)]
    simp [init]
  simp [Lines.ready, lines, h]

/-- Every operation of a run forwards what it asks for, once, exactly when each finds what it needs. -/
theorem forwards_once_iff (harts : Nat) (events : List Event) : StepsMeet after ForwardsOnce (init harts) events ↔
    StepsMeet after (fun aplic event => event.CarefulOf aplic) (init harts) events :=
  stepsMeet_iff_of_invariant forwardsOnce_iff
    (fun aplic event quiet careful => ((aplic.forwardsOnce_iff event quiet).mpr careful).quiet) init_quiet

instance (before : Aplic harts) (asked : Lines) (after : Aplic harts) (src : Fin 64) :
    Decidable (ForwardedOnce before asked after src) :=
  decidable_of_iff (after.lines.ready src = false ∧
    after.sentFor src = before.sentFor src ++ (if asked.ready src then [after.message src] else []) ∧
    after.pending.has src = (asked.pending src && !asked.ready src))
    ⟨fun ⟨quiet, sent, pending⟩ => ⟨quiet, sent, pending⟩, fun once => ⟨once.quiet, once.sent, once.pending⟩⟩

def Misforwards (events : List Event) (last : Event) (src : Fin 64) : Prop :=
  ((events.foldlM step (init 1)).bind fun aplic => (aplic.step last).map fun after =>
      decide (ForwardedOnce aplic (last.asked aplic) after src)) = some false

instance (events : List Event) (last : Event) (src : Fin 64) : Decidable (Misforwards events last src) :=
  inferInstanceAs (Decidable (_ = _))

theorem interrupts_misforwarded :
    -- `setip` of source 31, which is enabled and delivered: no message
    Misforwards [.write ⟨false⟩ 0x7C 1, .write ⟨false⟩ 0 0x100, .write ⟨false⟩ 0x1EDC 31]
      (.write ⟨false⟩ 0x1C00 0x80000000) 31 ∧
    -- source 31 is pending when it is enabled: its pending bit is dropped
    Misforwards [.write ⟨false⟩ 0x7C 1, .write ⟨false⟩ 0 0x100, .write ⟨false⟩ 0x1CDC 31]
      (.write ⟨false⟩ 0x1EDC 31) 31 ∧
    -- delivery is turned on while source 1 waits
    Misforwards [.write ⟨false⟩ 0x4 1, .write ⟨false⟩ 0x1EDC 1, .write ⟨false⟩ 0x1CDC 1] (.write ⟨false⟩ 0 0x100) 1 ∧
    -- source 1 waits and is taken back by the machine domain, which delivers
    Misforwards [.write ⟨false⟩ 0x4 1, .write ⟨false⟩ 0x1EDC 1, .write ⟨false⟩ 0x1CDC 1, .write ⟨true⟩ 0 0x100]
      (.write ⟨true⟩ 0x4 1) 1 ∧
    -- source 1 is active low and falls
    Misforwards [.write ⟨false⟩ 0x4 7, .write ⟨false⟩ 0x1EDC 1, .write ⟨false⟩ 0 0x100, .raise 1] (.lower 1) 1 ∧
    -- source 1 is low already, but source 2 is raised
    Misforwards [.write ⟨false⟩ 0x4 7, .write ⟨false⟩ 0x1EDC 1, .write ⟨false⟩ 0 0x100, .raise 2] (.lower 1) 1 := by
  decide +kernel

end RiscvEmulators.Rvvm.Aplic
