import Riscv.Rvvm.Aplic.Model
import Mathlib.Data.List.Basic

namespace RiscvEmulators.Rvvm.Aplic
open Store BitVec Option
variable {harts : Nat}

section
variable (aplic : Aplic harts)

def rectified (src : Nat) : Bool := aplic.raised.has src ^^ aplic.invert.has src
def detached (src : Nat) : Bool := (aplic.source.read src).elim true fun source => decide (source ≤ sourcecfgDetached)

def valid (domain : AplicDomain) (src : Nat) : Bool := decide (src < 64) && (aplic.deleg.has src ^^ domain.rootDomain)

def ungated (domain : AplicDomain) (src : Nat) : Bool :=
  aplic.valid domain src && (aplic.rectified src || aplic.detached src)

def ie (smode : Bool) : Bool := decide (aplic.domaincfg ⟨smode.toNat, smode.toNat_lt⟩ &&& domaincfgIe ≠ 0)
def delivers (src : Nat) : Bool := aplic.ie (aplic.deleg.has src)
def forwards (src : Nat) : Bool := aplic.enabled.has src && aplic.delivers src

def accept (src : Fin 64) : Aplic harts :=
  if aplic.forwards src then aplic.genMsi (some src) (aplic.deleg.has src) (aplic.target src)
  else { aplic with pending := aplic.pending.insert src }

def acceptIf (condition : Bool) (src : Fin 64) : Aplic harts := if condition then aplic.accept src else aplic

end

section
variable (ap : Aplic harts) (d : AplicDomain)

theorem read_word (bs : Bits 2) (src : Fin 64) : bs.read (src / 32) = some (bs ⟨src / 32, by omega⟩) := dif_pos _

theorem getLsbD_word (bs : Bits 2) (src : Fin 64) :
    (bs ⟨src / 32, by omega⟩).getLsbD (src % 32) = bs.has src := (bs.has_eq (by omega)).symm

theorem has_outside {bs : Bits 2} {src : Nat} (h : ¬ src < 64) : bs.has src = false := by
  rw [Bits.has, Cells.read, dif_neg (by omega)]
  simp

theorem rectifiedSrc_eq (src : Nat) : ap.rectifiedSrc src = some (ap.rectified src) := by
  unfold rectifiedSrc rectifiedBits rectified
  by_cases h : src < 64
  · rw [if_pos (by omega), read_word _ ⟨src, h⟩, read_word _ ⟨src, h⟩, ← getLsbD_word _ ⟨src, h⟩,
      ← getLsbD_word _ ⟨src, h⟩, ← getLsbD_xor]
    rfl
  · rw [if_neg (by omega), has_outside h, has_outside h]
    simp

theorem detachedSrc_eq (src : Nat) : ap.detachedSrc src = some (ap.detached src) := by
  unfold detachedSrc detached
  by_cases h : src < 64
  · rw [if_pos h, Cells.read, dif_pos h]
    rfl
  · rw [if_neg h, Cells.read, dif_neg h]
    rfl

theorem validBits_eq (reg : Fin 2) : ap.validBits d reg = some (ap.deleg reg ^^^ delegInvert d) := by
  rw [validBits, if_pos reg.isLt, Cells.read_val]
  rfl

theorem delegInvert_getLsbD {i : Nat} (h : i < 32) : (delegInvert d).getLsbD i = d.rootDomain := by
  unfold delegInvert
  cases d.rootDomain with
  | true => rw [if_pos rfl, getLsbD_allOnes, decide_eq_true h]
  | false => simp

theorem validSrc_eq (src : Nat) : ap.validSrc d src = some (ap.valid d src) := by
  unfold validSrc valid
  by_cases hb : src < 64
  · have hw := ap.validBits_eq d ⟨src / 32, by omega⟩
    rw [hw, ← getLsbD_word _ ⟨src, hb⟩, ← delegInvert_getLsbD d (Nat.mod_lt src (by decide))]
    simp [hb]
  · rw [validBits, if_neg (by omega)]
    simp [hb]

theorem ungatedSrc_eq (src : Nat) : ap.ungatedSrc d src = some (ap.ungated d src) := by
  rw [ungatedSrc, validSrc_eq, rectifiedSrc_eq, detachedSrc_eq, ungated]
  cases ap.valid d src <;> rfl

theorem valid_word (reg : Fin 2) {i : Nat} (h : i < 32) :
    (ap.deleg reg ^^^ delegInvert d).getLsbD i = ap.valid d (32 * reg + i) := by
  rw [getLsbD_xor, delegInvert_getLsbD d h, valid, Bits.has_word _ _ h]
  simp [show 32 * reg.val + i < 64 by omega]

theorem valid_lt {d : AplicDomain} {src : Nat} (h : ap.valid d src) : src < 64 := by
  unfold valid at h
  simp only [Bool.and_eq_true, decide_eq_true_iff] at h
  exact h.1

end

section
variable (aplic : Aplic harts)

theorem notifyInterrupt_eq (src : Fin 64) : aplic.notifyInterrupt src = some (aplic.accept src) := by
  have hm : aplic.domaincfg.read (aplic.deleg.has src).toNat
      = some (aplic.domaincfg ⟨(aplic.deleg.has src).toNat, Bool.toNat_lt _⟩) := dif_pos _
  have hp : aplic.pending.modify (src / 32) (fun w => w ||| bitOf src) = some (aplic.pending.insert src) :=
    if_pos (by omega)
  simp only [notifyInterrupt, if_pos src.isLt, read_word, Option.bind_eq_bind, Option.bind_some, getLsbD_word, hm,
    hp, Cells.read_val]
  unfold accept forwards delivers ie
  by_cases hs : aplic.enabled.has src ∧
      aplic.domaincfg ⟨(aplic.deleg.has src).toNat, Bool.toNat_lt _⟩ &&& domaincfgIe ≠ 0
  · rw [if_pos hs, if_pos (by simpa using hs)]
    rfl
  · rw [if_neg hs, if_neg (by simpa using hs)]
    rfl

theorem edgeInterrupt_eq (src : Fin 64) : aplic.edgeInterrupt src = some (aplic.acceptIf (!aplic.detached src) src) := by
  rw [edgeInterrupt, detachedSrc_eq, notifyInterrupt_eq]
  cases aplic.detached src <;> rfl

theorem updateInterrupt_eq (src : Fin 64) :
    aplic.updateInterrupt src = some (aplic.acceptIf (aplic.rectified src && !aplic.detached src) src) := by
  rw [updateInterrupt, rectifiedSrc_eq, edgeInterrupt_eq, acceptIf]
  cases aplic.rectified src <;> rfl

theorem setipnum_eq (dom : AplicDomain) (src : Fin 64) :
    aplic.setipnum dom src = some (aplic.acceptIf (aplic.ungated dom src) src) := by
  rw [setipnum, ungatedSrc_eq, notifyInterrupt_eq]
  cases aplic.ungated dom src <;> rfl

theorem setipnum_outside (dom : AplicDomain) {src : Nat} (ho : ¬ src < 64) : aplic.setipnum dom src = some aplic := by
  have hg : aplic.ungated dom src = false := by simp [ungated, valid, ho]
  rw [setipnum, ungatedSrc_eq, hg]
  rfl

end

section
variable (aplic : Aplic harts)

def sentFor (src : Nat) : List Msi := aplic.msis.filter fun msi => decide (msi.source = some src)

def message (src : Fin 64) : Msi :=
  let hartid := (aplic.target src >>> 18).toNat
  ⟨some src, aplic.deleg.has src, aplic.target src, if hartid < harts then some hartid else none⟩

structure SameSettings (before after : Aplic harts) : Prop where
  domaincfg : after.domaincfg = before.domaincfg
  deleg : after.deleg = before.deleg
  raised : after.raised = before.raised
  invert : after.invert = before.invert
  enabled : after.enabled = before.enabled
  source : after.source = before.source
  target : after.target = before.target

variable {aplic} {after last : Aplic harts}

theorem SameSettings.refl (aplic : Aplic harts) : SameSettings aplic aplic := ⟨rfl, rfl, rfl, rfl, rfl, rfl, rfl⟩

theorem SameSettings.trans (hf : SameSettings aplic after) (hs : SameSettings after last) : SameSettings aplic last :=
  ⟨hs.domaincfg.trans hf.domaincfg, hs.deleg.trans hf.deleg, hs.raised.trans hf.raised,
    hs.invert.trans hf.invert, hs.enabled.trans hf.enabled, hs.source.trans hf.source,
    hs.target.trans hf.target⟩

theorem SameSettings.delivers (h : SameSettings aplic after) (src : Nat) : after.delivers src = aplic.delivers src := by
  simp [Aplic.delivers, ie, h.domaincfg, h.deleg]

theorem SameSettings.forwards (h : SameSettings aplic after) (src : Nat) : after.forwards src = aplic.forwards src := by
  rw [Aplic.forwards, Aplic.forwards, h.enabled, h.delivers]

theorem SameSettings.ungated (h : SameSettings aplic after) (dom : AplicDomain) (src : Nat) :
    after.ungated dom src = aplic.ungated dom src := by
  simp [Aplic.ungated, valid, rectified, detached, h.deleg, h.raised, h.invert, h.source]

theorem SameSettings.message (h : SameSettings aplic after) (src : Fin 64) : after.message src = aplic.message src := by
  simp [Aplic.message, h.deleg, h.target]

variable (aplic)

structure Accepted (taken : Nat → Bool) (before after : Aplic harts) : Prop where
  settings : SameSettings before after
  pending : ∀ src : Fin 64, after.pending.has src = (before.pending.has src || taken src && !before.forwards src)
  sent : ∀ src : Fin 64,
    after.sentFor src = before.sentFor src ++ if taken src && before.forwards src then [before.message src] else []

theorem accepted_none : Accepted (fun _ => false) aplic aplic :=
  ⟨SameSettings.refl aplic, fun _ => by simp, fun _ => by simp⟩

theorem accepted_one {src : Fin 64} : Accepted (fun o => decide (o = src.val)) aplic (aplic.accept src) := by
  unfold accept
  by_cases sends : aplic.forwards src
  · rw [if_pos sends]
    refine ⟨⟨rfl, rfl, rfl, rfl, rfl, rfl, rfl⟩, fun o => ?_, fun o => ?_⟩
    · by_cases hs : o = src
      · simp [hs, sends, genMsi]
      · simp [genMsi, show o.val ≠ src.val from fun he => hs (Fin.ext he)]
    · by_cases hs : o = src
      · simp [hs, sends, genMsi, sentFor, message]
      · have ha : o.val ≠ src.val := fun he => hs (Fin.ext he)
        simp [genMsi, sentFor, ha, ha.symm]
  · rw [if_neg sends]
    refine ⟨⟨rfl, rfl, rfl, rfl, rfl, rfl, rfl⟩, fun o => ?_, fun o => ?_⟩
    · rw [Bits.has_insert _ (by omega)]
      by_cases hs : o = src
      · simp [hs, sends]
      · simp [show o.val ≠ src.val from fun he => hs (Fin.ext he)]
    · by_cases hs : o = src
      · simp [hs, sends, sentFor]
      · simp [sentFor, show o.val ≠ src.val from fun he => hs (Fin.ext he)]

variable {aplic} {t m : Nat → Bool}

theorem Accepted.congr (ha : Accepted t aplic after) (hs : ∀ src : Fin 64, t src = m src) : Accepted m aplic after :=
  ⟨ha.settings, fun src => by rw [ha.pending, hs], fun src => by rw [ha.sent, hs]⟩

theorem Accepted.trans (hf : Accepted t aplic after) (hs : Accepted m after last)
    (ha : ∀ src : Fin 64, t src → m src = false) : Accepted (fun src => t src || m src) aplic last := by
  refine ⟨hf.settings.trans hs.settings, fun src => ?_, fun src => ?_⟩
  · rw [hs.pending, hf.pending, hf.settings.forwards]
    cases t src <;> cases m src <;> simp
  · rw [hs.sent, hf.sent, hf.settings.forwards, hf.settings.message]
    cases ht : t src with
    | false => simp
    | true => simp [ha src ht]

theorem accepted_if (aplic : Aplic harts) (c : Bool) (src : Fin 64) :
    Accepted (fun o => decide (o = src.val) && c) aplic (aplic.acceptIf c src) := by
  cases c with
  | true => exact aplic.accepted_one.congr fun _ => by simp
  | false => exact aplic.accepted_none.congr fun _ => by simp

end

section
variable (ap : Aplic harts)

theorem forBits_spec (w : W32) (reg : Fin 2) (bo : Aplic harts → Nat → Option (Aplic harts)) (a : Nat → Bool)
    (each : ∀ after, SameSettings ap after → ∀ src : Fin 64, src.val / 32 = reg →
      bo after (src % 32) = some (after.acceptIf (a src) src)) : ∃ after, forBits w bo ap = some after ∧
      Accepted (fun src => decide (src / 32 = reg ∧ src % 32 < 31) && w.getLsbD (src % 32) && a src) ap after := by
  -- the invariant: after `n` rounds the sources below `n` have been served
  apply foldlM_range fun n after =>
    Accepted (fun src => decide (src / 32 = reg ∧ src % 32 < n) && w.getLsbD (src % 32) && a src) ap after
  · exact ap.accepted_none.congr fun _ => by simp
  · intro n b hb ha
    have hp : (32 * reg.val + n) % 32 = n := by omega
    have hr := each b ha.settings ⟨32 * reg.val + n, by omega⟩
      (show (32 * reg.val + n) / 32 = reg.val by omega)
    rw [hp] at hr
    have hn := b.accepted_if (w.getLsbD n && a (32 * reg.val + n)) ⟨32 * reg.val + n, by omega⟩
    refine ⟨_, ?_, (ha.trans hn fun src ta => ?_).congr fun src => ?_⟩
    · cases set : w.getLsbD n with
      | true => simp [hr]
      | false => simp [acceptIf]
    · simp only [Bool.and_eq_true, decide_eq_true_iff] at ta
      have ho : src.val ≠ 32 * reg.val + n := by omega
      simp [ho]
    · by_cases hh : src.val = 32 * reg.val + n
      · simp [hh, hp, show (32 * reg.val + n) / 32 = reg.val by omega]
      · have hs : (src.val / 32 = reg.val ∧ src.val % 32 < n) ↔ (src.val / 32 = reg.val ∧ src.val % 32 < n + 1) := by
          omega
        simp [hh, hs]

theorem forBits_ne_zero (w : W32) (bo : Aplic harts → Nat → Option (Aplic harts)) :
    (if w ≠ 0 then forBits w bo ap else some ap) = forBits w bo ap := by
  split
  · rfl
  · rename_i hz
    have hn : forBits 0 bo ap = some _ := foldlM_some fun _ _ _ => if_neg (by simp)
    rw [Decidable.not_not.mp hz, hn, List.foldl_fixed]

end

inductive Write where
  | domaincfg (val : W32)
  | setipnum (src : Nat)
  | setip (reg : Nat) (bits : W32)
  | clrip (reg : Nat) (bits : W32)
  | setie (reg : Nat) (bits : W32)
  | clrie (reg : Nat) (bits : W32)
  | genmsi (val : W32)
  | sourcecfg (src : Nat) (val : W32)
  | target (src : Nat) (val : W32)
  | ignored

def decode (offset : Nat) (val : W32) : Write :=
  if offset = regDomaincfg then .domaincfg val
  else if offset = regSetipnum ∨ offset = regSetipnumLe then .setipnum val.toNat
  else if offset = regClripnum then .clrip (val.toNat / 32) (bitOf val.toNat)
  else if offset = regSetienum then .setie (val.toNat / 32) (bitOf val.toNat)
  else if offset = regClrienum then .clrie (val.toNat / 32) (bitOf val.toNat)
  else if offset = regSetipnumBe then .setipnum (byteSwap val).toNat
  else if offset = regGenmsi then .genmsi val
  else if regSetip0 ≤ offset ∧ offset ≤ regSetip31 then .setip ((offset - regSetip0) / 4) val
  else if regInClrip0 ≤ offset ∧ offset ≤ regInClrip31 then .clrip ((offset - regInClrip0) / 4) val
  else if regSetie0 ≤ offset ∧ offset ≤ regSetie31 then .setie ((offset - regSetie0) / 4) val
  else if regClrie0 ≤ offset ∧ offset ≤ regClrie31 then .clrie ((offset - regClrie0) / 4) val
  else if regSourcecfg1 ≤ offset ∧ offset ≤ regSourcecfg1023 then .sourcecfg ((offset - regSourcecfg1) / 4 + 1) val
  else if regTarget1 ≤ offset ∧ offset ≤ regTarget1023 then .target ((offset - regTarget1) / 4 + 1) val
  else .ignored

def Write.perform (aplic : Aplic harts) (domain : AplicDomain) : Write → Option (Aplic harts)
  | .domaincfg val => aplic.writeDomaincfg domain val
  | .setipnum src => aplic.setipnum domain src
  | .setip reg bits => aplic.setip domain reg bits
  | .clrip reg bits => aplic.clrip domain reg bits
  | .setie reg bits => aplic.setie domain reg bits
  | .clrie reg bits => aplic.clrie domain reg bits
  | .genmsi val => some (aplic.genMsi none (!domain.rootDomain) val)
  | .sourcecfg src val => aplic.writeSourcecfg domain src val
  | .target src val => aplic.writeTarget domain src val
  | .ignored => some aplic

theorem mmioWrite_eq (a : Aplic harts) (domain : AplicDomain) (off : Nat) (val : W32) :
    a.mmioWrite domain off val = (decode off val).perform a domain := by
  simp only [decode, apply_ite (Write.perform a domain)]
  rfl

theorem decode_sourcecfg {off : Nat} (val : W32) (hi : regSourcecfg1 ≤ off ∧ off ≤ regSourcecfg1023) :
    decode off val = .sourcecfg ((off - regSourcecfg1) / 4 + 1) val := by
  have hl : 4 ≤ off ∧ off ≤ 0xFFC := hi
  unfold decode regDomaincfg regSetipnum regSetipnumLe regClripnum regSetienum regClrienum regSetipnumBe regGenmsi
    regSetip0 regSetip31 regInClrip0 regInClrip31 regSetie0 regSetie31 regClrie0 regClrie31
  simp [show off ≠ 0x0000 by omega, show off ≠ 0x1CDC by omega, show off ≠ 0x2000 by omega,
    show off ≠ 0x1DDC by omega, show off ≠ 0x1EDC by omega, show off ≠ 0x1FDC by omega,
    show off ≠ 0x2004 by omega, show off ≠ 0x3000 by omega, show ¬ 0x1C00 ≤ off by omega,
    show ¬ 0x1D00 ≤ off by omega, show ¬ 0x1E00 ≤ off by omega, show ¬ 0x1F00 ≤ off by omega, if_pos hi]

def Write.Bounded (domain : AplicDomain) : Write → Prop
  | .sourcecfg src _ => domain.rootDomain → src < 64
  | _ => True

section
variable (ap : Aplic harts) (d : AplicDomain)

theorem writeDomaincfg_eq (val : W32) : ap.writeDomaincfg d val =
    some { ap with domaincfg := ap.domaincfg.change (domainIndex d) fun _ => val &&& domaincfgIe } := by
  have h : domainIndex d < 2 := by
    unfold domainIndex
    split <;> decide
  rw [writeDomaincfg, Cells.write, Cells.modify, if_pos h]
  rfl

theorem picked_valid (reg : Fin 2) (bs : W32) (src : Nat) :
    picked reg (bs &&& (ap.deleg reg ^^^ delegInvert d)) src = (picked reg bs src && ap.valid d src) := by
  unfold picked
  by_cases hh : src / 32 = reg.val
  · have hp : 32 * reg.val + src % 32 = src := by omega
    rw [BitVec.getLsbD_and, valid_word _ _ _ (Nat.mod_lt _ (by decide)), hp, Bool.and_assoc]
  · simp [hh]

theorem picked_outside {reg : Nat} (h : ¬ reg < 2) (bs : W32) (src : Fin 64) : picked reg bs src = false := by
  simp [picked, show src.val / 32 ≠ reg by omega]

theorem clearBits_spec (c : Bits 2) (reg : Nat) (bs : W32) : ∃ r : Bits 2, ap.clearBits c d reg bs = some r ∧
    ∀ src : Fin 64, r.has src = (c.has src && !(picked reg bs src && ap.valid d src)) := by
  unfold clearBits
  by_cases hb : reg < 2
  · have hw := ap.validBits_eq d ⟨reg, hb⟩
    have hc := ap.picked_valid d ⟨reg, hb⟩ bs
    rw [if_pos hb, hw, bind_eq_bind, bind_some]
    generalize bs &&& (ap.deleg ⟨reg, hb⟩ ^^^ delegInvert d) = clr at hc ⊢
    by_cases ha : clr ≠ 0
    · rw [if_pos ha, Cells.modify, if_pos hb]
      refine ⟨_, rfl, fun src => ?_⟩
      rw [← hc]
      exact c.has_diff ⟨reg, hb⟩ clr src
    · rw [if_neg ha]
      refine ⟨c, rfl, fun src => ?_⟩
      rw [← hc, Decidable.not_not.mp ha]
      simp [picked]
  · rw [if_neg hb]
    simp [picked_outside hb]

theorem setip_spec (reg : Nat) (bs : W32) : ∃ after, ap.setip d reg bs = some after ∧
    Accepted (fun src => picked reg bs src && ap.ungated d src && decide (src % 32 < 31)) ap after := by
  by_cases hb : reg < 2
  · have hw := ap.validBits_eq d ⟨reg, hb⟩
    rw [setip, if_pos hb, hw, bind_eq_bind, bind_some]
    have hc := ap.picked_valid d ⟨reg, hb⟩ bs
    generalize bs &&& (ap.deleg ⟨reg, hb⟩ ^^^ delegInvert d) = set at hc ⊢
    -- what is not gated is valid
    have same : ∀ src, (picked reg set src && ap.ungated d src) = (picked reg bs src && ap.ungated d src) := by
      intro src
      rw [hc, ungated]
      cases ap.valid d src <;> simp
    obtain ⟨after, hd, ha⟩ := ap.forBits_spec set ⟨reg, hb⟩
      (fun ap i => ap.setipnum d (32 * reg + i)) (ap.ungated d) (by
        intro after hs src hh
        dsimp only at hh ⊢
        rw [show 32 * reg + src.val % 32 = src.val by omega, setipnum_eq, hs.ungated])
    refine ⟨after, (ap.forBits_ne_zero ..).trans hd, ha.congr fun src => ?_⟩
    rw [← same, picked]
    by_cases hh : src.val / 32 = reg
    · simp only [hh, true_and, decide_true, Bool.true_and]
      rw [Bool.and_assoc, Bool.and_comm]
    · simp [hh]
  · refine ⟨ap, if_neg hb, ap.accepted_none.congr fun src => ?_⟩
    simp [picked_outside hb]

theorem setie_spec (reg : Nat) (bs : W32) : ∃ enabled pending t after, ap.setie d reg bs = some after ∧
    (∀ src : Fin 64, enabled.has src = (ap.enabled.has src || picked reg bs src && ap.valid d src)) ∧
    (∀ src : Fin 64, pending.has src = (ap.pending.has src &&
      !(picked reg bs src && ap.valid d src && !ap.enabled.has src))) ∧
    (∀ src : Fin 64, (picked reg bs src && ap.valid d src && !ap.enabled.has src) →
      t src = (ap.pending.has src && decide (src.val % 32 < 31))) ∧
    (∀ src : Fin 64, t src → ap.pending.has src) ∧
    Accepted t { ap with enabled, pending } after := by
  by_cases hb : reg < 2
  · have w := ap.validBits_eq d ⟨reg, hb⟩
    have hc := ap.picked_valid d ⟨reg, hb⟩ bs
    simp only [setie, if_pos hb, w, Cells.read_lt _ hb, Cells.modify, bind_eq_bind, bind_some]
    generalize bs &&& (ap.deleg ⟨reg, hb⟩ ^^^ delegInvert d) = set at hc ⊢
    have hf : ∀ src, picked reg (set &&& ~~~ap.enabled ⟨reg, hb⟩) src
        = (picked reg bs src && ap.valid d src && !ap.enabled.has src) := by
      intro src
      rw [← hc]
      exact ap.enabled.picked_andNot ⟨reg, hb⟩ set src
    have waits : ∀ src, src / 32 = reg → (ap.pending ⟨reg, hb⟩).getLsbD (src % 32) = ap.pending.has src :=
      fun src hh => ap.pending.getLsbD_eq_has hh
    generalize set &&& ~~~ap.enabled ⟨reg, hb⟩ = new at hf ⊢
    have hu : ∀ src : Fin 64, Bits.has (ap.enabled.change reg fun w => w ||| set) src
        = (ap.enabled.has src || picked reg bs src && ap.valid d src) := by
      intro src
      rw [← hc]
      exact ap.enabled.has_union ⟨reg, hb⟩ set src
    have apart : ∀ src : Fin 64, Bits.has (ap.pending.change reg fun w => w &&& ~~~new) src
        = (ap.pending.has src && !(picked reg bs src && ap.valid d src && !ap.enabled.has src)) := by
      intro src
      rw [← hf]
      exact ap.pending.has_diff ⟨reg, hb⟩ new src
    by_cases any : new ≠ 0
    · simp only [if_pos any]
      obtain ⟨after, does, ha⟩ := forBits_spec
        ({ ap with
          enabled := ap.enabled.change reg fun w => w ||| set
          pending := ap.pending.change reg fun w => w &&& ~~~new } : Aplic harts)
        (ap.pending ⟨reg, hb⟩) ⟨reg, hb⟩ (fun ap i => ap.notifyInterrupt (32 * reg + i)) (fun _ => true) (by
          intro after _ src hh
          dsimp only at hh ⊢
          rw [show 32 * reg + src.val % 32 = src.val by omega, notifyInterrupt_eq]
          rfl)
      refine ⟨_, _, _, after, (forBits_ne_zero ..).trans does, hu, apart, fun src hi => ?_, fun src here => ?_, ha⟩
      · have hh : src.val / 32 = reg := by
          simp only [picked, Bool.and_eq_true, decide_eq_true_iff] at hi
          exact hi.1.1.1
        simp only [hh, true_and, waits src hh, Bool.and_true]
        rw [Bool.and_comm]
      · simp only [Bool.and_true, Bool.and_eq_true, decide_eq_true_iff] at here
        rw [← waits src here.1.1]
        exact here.2
    · simp only [if_neg any]
      have hs : ∀ src : Nat, (picked reg bs src && ap.valid d src && !ap.enabled.has src) = false := by
        intro src
        rw [← hf, Decidable.not_not.mp any]
        simp [picked]
      refine ⟨_, ap.pending, fun _ => false, _, rfl, hu, fun src => ?_, fun src hi => ?_,
        fun _ here => absurd here Bool.false_ne_true, accepted_none _⟩
      · rw [hs]
        simp
      · rw [hs] at hi
        cases hi
  · refine ⟨ap.enabled, ap.pending, fun _ => false, ap, if_neg hb, ?_, ?_, ?_, ?_, ap.accepted_none⟩ <;>
      simp [picked_outside hb]

end

end RiscvEmulators.Rvvm.Aplic
