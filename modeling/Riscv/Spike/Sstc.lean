import Riscv.Transition.Run
import Riscv.Word.Field

namespace RiscvEmulators.Spike
open Transition BitVec Word

/-- What `time`, the comparators and the timer bits of `mip` read and write; `mip` without `hvip`. -/
structure Sstc where
  shadowVal : W64
  htimedelta : W64
  stimecmp : W64
  vstimecmp : W64
  mip : W64
  menvcfg : W64
  henvcfg : W64
  v : Bool

namespace Sstc

def mipStip : W64 := 0x20
def mipVstip : W64 := 0x40
def envcfgStce : W64 := 0x8000000000000000

variable (state : Sstc)

def timeRead : W64 := if state.v then state.shadowVal + state.htimedelta else state.shadowVal

def stceMask : W64 :=
  (if state.menvcfg &&& envcfgStce ≠ 0 then mipStip else 0) |||
    (if state.henvcfg &&& envcfgStce ≠ 0 then mipVstip else 0)

def backdoorWriteWithMask (mask val : W64) : Sstc :=
  { state with mip := (state.mip &&& ~~~mask) ||| (val &&& mask) }

def sync (val : W64) : Sstc :=
  let state := { state with shadowVal := val }
  let mipVal := (if state.shadowVal ≥ state.stimecmp then mipStip else 0) |||
    (if state.shadowVal + state.htimedelta ≥ state.vstimecmp then mipVstip else 0)
  state.backdoorWriteWithMask state.stceMask mipVal

def unloggedWrite (virt : Bool) (val : W64) : Sstc :=
  let intrMask := if virt then mipVstip else mipStip
  let state := state.backdoorWriteWithMask state.stceMask (if state.timeRead ≥ val then intrMask else 0)
  if virt then { state with vstimecmp := val } else { state with stimecmp := val }

/-- The part of a comparator that a register is: all of it, or a half in RV32. -/
inductive Part where
  | whole
  | low
  | high
deriving DecidableEq, Repr

def Part.merge (part : Part) (old val : W64) : W64 :=
  match part with
  | .whole => val
  | .low => (old >>> 32 <<< 32) ||| (val &&& 0xffffffff)
  | .high => (old <<< 32 >>> 32) ||| ((val &&& 0xffffffff) <<< 32)

def comparator (virt : Bool) : W64 := if virt then state.vstimecmp else state.stimecmp

def write (virt : Bool) (part : Part) (val : W64) : Sstc :=
  state.unloggedWrite virt (part.merge (state.comparator virt) val)

/-- The number `stimecmp` names the comparator of the mode; `vstimecmp` is open to M and HS mode. -/
inductive Event where
  | sync (val : W64)
  | stimecmp (v : Bool) (part : Part) (val : W64)
  | vstimecmp (part : Part) (val : W64)
deriving DecidableEq, Repr

def after : Event → Sstc
  | .sync val => state.sync val
  | .stimecmp v part val => ({ state with v } : Sstc).write v part val
  | .vstimecmp part val => ({ state with v := false } : Sstc).write true part val

structure Tracks (state : Sstc) : Prop where
  stip : state.mip.getLsbD 5 = decide (state.shadowVal ≥ state.stimecmp)
  vstip : state.mip.getLsbD 6 = decide (state.shadowVal + state.htimedelta ≥ state.vstimecmp)

structure Enabled (state : Sstc) : Prop where
  menvcfg : state.menvcfg &&& envcfgStce ≠ 0
  henvcfg : state.henvcfg &&& envcfgStce ≠ 0

/-- A write finds the timer of the other comparator not expired, and a write to `vstimecmp` from outside the guest
  compares alike with and without `htimedelta`. -/
def Careful (state : Sstc) : Event → Prop
  | .sync _ => True
  | .stimecmp false _ _ => ¬ state.shadowVal + state.htimedelta ≥ state.vstimecmp
  | .stimecmp true _ _ => ¬ state.shadowVal ≥ state.stimecmp
  | .vstimecmp part val => ¬ state.shadowVal ≥ state.stimecmp ∧ (state.shadowVal ≥ part.merge state.vstimecmp val ↔
    state.shadowVal + state.htimedelta ≥ part.merge state.vstimecmp val)

section
variable {state}

theorem Enabled.mask (h : state.Enabled) : state.stceMask = mipStip ||| mipVstip := by
  unfold stceMask
  rw [if_pos h.menvcfg, if_pos h.henvcfg]

variable {val : W64}

theorem Enabled.backdoor_bits (he : state.Enabled) :
    (state.backdoorWriteWithMask state.stceMask val).mip.getLsbD 5 = val.getLsbD 5 ∧
      (state.backdoorWriteWithMask state.stceMask val).mip.getLsbD 6 = val.getLsbD 6 := by
  have hs : (mipStip ||| mipVstip).getLsbD 5 := by decide
  have hv : (mipStip ||| mipVstip).getLsbD 6 := by decide
  rw [he.mask]
  unfold backdoorWriteWithMask
  constructor
  · simp only [getLsbD_or, getLsbD_and, getLsbD_not, hs]
    simp
  · simp only [getLsbD_or, getLsbD_and, getLsbD_not, hv]
    simp

theorem Enabled.sync_tracks (enabled : state.Enabled) : (state.sync val).Tracks := by
  have hm : ({ state with shadowVal := val } : Sstc).Enabled := ⟨enabled.menvcfg, enabled.henvcfg⟩
  obtain ⟨hs, hv⟩ := hm.backdoor_bits
  constructor
  · apply hs.trans
    change _ = decide (val ≥ state.stimecmp)
    by_cases expired : val ≥ state.stimecmp <;> by_cases he : val + state.htimedelta ≥ state.vstimecmp <;>
      simp only [expired, he] <;> decide
  · apply hv.trans
    change _ = decide (val + state.htimedelta ≥ state.vstimecmp)
    by_cases expired : val ≥ state.stimecmp <;> by_cases he : val + state.htimedelta ≥ state.vstimecmp <;>
      simp only [expired, he] <;> decide

theorem Enabled.unloggedWrite_bits (he : state.Enabled) {v : Bool} :
    (state.unloggedWrite v val).mip.getLsbD 5 = (!v && decide (state.timeRead ≥ val)) ∧
      (state.unloggedWrite v val).mip.getLsbD 6 = (v && decide (state.timeRead ≥ val)) := by
  obtain ⟨stip, hv⟩ := he.backdoor_bits
  have hs : (state.unloggedWrite v val).mip = (state.backdoorWriteWithMask state.stceMask
      (if state.timeRead ≥ val then if v then mipVstip else mipStip else 0)).mip := by
    cases v <;> rfl
  rw [hs, stip, hv]
  cases v <;> by_cases expired : state.timeRead ≥ val <;> simp only [expired] <;> decide

theorem Enabled.stimecmp_tracks (he : state.Enabled) (hp : state.v = false) :
    (state.unloggedWrite false val).Tracks ↔ ¬ state.shadowVal + state.htimedelta ≥ state.vstimecmp := by
  obtain ⟨hs, hv⟩ := he.unloggedWrite_bits
  have time : state.timeRead = state.shadowVal := by rw [timeRead, hp]; rfl
  rw [time] at hs
  constructor
  · intro ht
    have hk := hv.symm.trans ht.vstip
    exact of_decide_eq_false hk.symm
  · intro hw
    exact ⟨hs, hv.trans (decide_eq_false hw).symm⟩

theorem Enabled.vstimecmp_tracks (he : state.Enabled) :
    (state.unloggedWrite true val).Tracks ↔ ¬ state.shadowVal ≥ state.stimecmp ∧
      (state.timeRead ≥ val ↔ state.shadowVal + state.htimedelta ≥ val) := by
  obtain ⟨hs, hv⟩ := he.unloggedWrite_bits
  constructor
  · intro ht
    have hk := hs.symm.trans ht.stip
    have hc := hv.symm.trans ht.vstip
    exact ⟨of_decide_eq_false hk.symm, decide_eq_decide.mp hc⟩
  · rintro ⟨hw, ha⟩
    exact ⟨hs.trans (decide_eq_false hw).symm, hv.trans (decide_eq_decide.mpr ha)⟩

end

section
variable {state}

theorem Enabled.after_tracks (he : state.Enabled) {event : Event} :
    (state.after event).Tracks ↔ Careful state event := by
  cases event with
  | sync val => exact iff_of_true he.sync_tracks trivial
  | stimecmp v p val =>
    have hm : ({ state with v } : Sstc).Enabled := ⟨he.menvcfg, he.henvcfg⟩
    cases v with
    | false => exact hm.stimecmp_tracks rfl
    | true => exact hm.vstimecmp_tracks.trans (and_iff_left Iff.rfl)
  | vstimecmp p val =>
    have hm : ({ state with v := false } : Sstc).Enabled := ⟨he.menvcfg, he.henvcfg⟩
    exact hm.vstimecmp_tracks

theorem Enabled.after (h : state.Enabled) (e : Event) : (state.after e).Enabled := by
  cases e with
  | sync val => exact ⟨h.menvcfg, h.henvcfg⟩
  | stimecmp v p val => cases v <;> exact ⟨h.menvcfg, h.henvcfg⟩
  | vstimecmp p val => exact ⟨h.menvcfg, h.henvcfg⟩

/-- The pending bits track the comparators after every step of a run exactly when every step is careful. -/
theorem tracks_iff_careful (enabled : state.Enabled) (events : List Event) :
    StepsMeet Sstc.after (fun state event => (state.after event).Tracks) state events ↔
      StepsMeet Sstc.after Careful state events :=
  stepsMeet_iff_of_invariant (fun _ _ (held : Enabled _) => held.after_tracks)
    (fun _ event held _ => held.after event) enabled

def start (stimecmp vstimecmp : W64) : Sstc := ⟨0, 0, stimecmp, vstimecmp, 0, envcfgStce, envcfgStce, false⟩

theorem start_tracks : StepsMeet Sstc.after (fun state event => (state.after event).Tracks) (start 20 50)
    [.sync 10, .stimecmp false .whole 15, .sync 30] := by
  apply (tracks_iff_careful ⟨by decide, by decide⟩ _).mpr
  refine ⟨trivial, ?_, trivial, trivial⟩
  change ¬ _ ≥ _
  decide +kernel

theorem other_timer_withdrawn : ¬ (run Sstc.after (start 0 0) [.sync 10, .stimecmp false .whole 50]).Tracks ∧
    ¬ (run Sstc.after (start 0 0) [.sync 10, .vstimecmp .whole 50]).Tracks := by
  constructor
  · intro tracks
    have vstip := tracks.vstip
    revert vstip
    decide +kernel
  · intro tracks
    have stip := tracks.stip
    revert stip
    decide +kernel

end
end Sstc
end RiscvEmulators.Spike
