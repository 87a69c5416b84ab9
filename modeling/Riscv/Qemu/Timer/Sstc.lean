import Riscv.Clock.Ticks
import Riscv.Word.Field

namespace RiscvEmulators.Qemu.Timer
open Clock BitVec Word

def nanosecondsPerSecond : BitVec 32 := 1000000000
def int64Max : W64 := 0x7fffffffffffffff
def muldiv64 (a : W64) (b c : BitVec 32) : W64 := BitVec.ofNat 64 (a.toNat * b.toNat / c.toNat)

def readRtcRaw (freq : BitVec 32) (clock : Nat) : W64 :=
  muldiv64 (BitVec.ofNat 64 clock) freq nanosecondsPerSecond

def readRtc (freq : BitVec 32) (timeDelta : W64) (clock : Nat) : W64 := readRtcRaw freq clock + timeDelta

def nextMoment (freq : BitVec 32) (clock : Nat) (diff : W64) : W64 :=
  let nsDiff := muldiv64 diff nanosecondsPerSecond freq
  if nanosecondsPerSecond > freq ∧ nsDiff < diff ∨ nsDiff > int64Max then int64Max
  else
    let next := BitVec.ofNat 64 clock + nsDiff
    if next < int64Max then next else int64Max

def fires (timer : Option W64) (clock : Nat) : Bool := timer.any fun next => decide (next.toNat ≤ clock)

inductive Outcome where
  | ignored
  | past
  | deleted
  | armed (next : W64)
deriving DecidableEq, Repr

section
variable {freq : BitVec 32} {d timecmp di : W64} {clock later : Nat}

def rtcTicks (freq : BitVec 32) (clock : Nat) : Nat := ticks nanosecondsPerSecond.toNat freq.toNat clock

theorem rtcTicks_mono (freq : BitVec 32) (h : clock ≤ later) : rtcTicks freq clock ≤ rtcTicks freq later :=
  ticks_mono h

theorem clock_toNat (h : clock < 2 ^ 64) : (BitVec.ofNat 64 clock).toNat = clock := by
  exact Nat.mod_eq_of_lt h

theorem readRtc_toNat (hb : clock < 2 ^ 63) :
    (readRtc freq d clock).toNat = (rtcTicks freq clock + d.toNat) % 2 ^ 64 := by
  rw [readRtc, readRtcRaw, muldiv64, clock_toNat (by omega), toNat_add, toNat_ofNat, Nat.mod_add_mod]
  rfl

theorem readRtc_later (ho : clock ≤ later) (hb : later < 2 ^ 63)
    (hf : (readRtc freq d clock).toNat + (rtcTicks freq later - rtcTicks freq clock) < 2 ^ 64) :
    (readRtc freq d later).toNat = (readRtc freq d clock).toNat + (rtcTicks freq later - rtcTicks freq clock) := by
  have hg := rtcTicks_mono freq ho
  rw [readRtc_toNat (show clock < 2 ^ 63 by omega)] at hf ⊢
  rw [readRtc_toNat hb]
  have hw : rtcTicks freq later + d.toNat
      = rtcTicks freq clock + d.toNat + (rtcTicks freq later - rtcTicks freq clock) := by omega
  rw [hw, ← Nat.mod_add_mod, Nat.mod_eq_of_lt hf]

theorem muldiv64_toNat (di : W64) (freq : BitVec 32) : (muldiv64 di nanosecondsPerSecond freq).toNat
    = moments nanosecondsPerSecond.toNat freq.toNat di.toNat % 2 ^ 64 := by
  rw [muldiv64, toNat_ofNat]
  rfl

theorem sum_toNat {m : W64} (h : clock + m.toNat < 2 ^ 64) :
    (BitVec.ofNat 64 clock + m).toNat = clock + m.toNat := by
  rw [toNat_add, clock_toNat (by omega)]
  exact Nat.mod_eq_of_lt h

theorem nextMoment_toNat (hbo : clock < 2 ^ 63) (he : nextMoment freq clock di ≠ int64Max) :
    (nextMoment freq clock di).toNat = clock + (muldiv64 di nanosecondsPerSecond freq).toNat ∧
      clock + (muldiv64 di nanosecondsPerSecond freq).toNat < 2 ^ 63 := by
  have hl : int64Max.toNat = 2 ^ 63 - 1 := rfl
  unfold nextMoment at he ⊢
  generalize muldiv64 di nanosecondsPerSecond freq = m at he ⊢
  by_cases hc : nanosecondsPerSecond > freq ∧ m < di ∨ m > int64Max
  · rw [if_pos hc] at he
    exact absurd rfl he
  · rw [if_neg hc] at he ⊢
    have hs : ¬ int64Max.toNat < m.toNat := fun hlo => hc (.inr hlo)
    have sum := sum_toNat (show clock + m.toNat < 2 ^ 64 by omega)
    by_cases hb : BitVec.ofNat 64 clock + m < int64Max
    · rw [if_pos hb, sum]
      rw [lt_def] at hb
      exact ⟨rfl, by omega⟩
    · rw [if_neg hb] at he
      exact absurd rfl he

end

section
variable {freq : BitVec 32} {delta timecmp next : W64} {clock : Nat}

/-- Whenever a timer that was set at `clock` for `next` runs, time has reached the comparator, unless time has wrapped
  since. -/
def NotEarly (freq : BitVec 32) (delta : W64) (clock : Nat) (timecmp next : W64) : Prop :=
  ∀ later, next.toNat ≤ later → later < 2 ^ 63 →
    (readRtc freq delta clock).toNat + (rtcTicks freq later - rtcTicks freq clock) < 2 ^ 64 →
    timecmp ≤ readRtc freq delta later

/-- The distance in nanoseconds fits in a word, and the tick that has begun covers what is lost in rounding it. -/
def Exact (freq : BitVec 32) (clock : Nat) (diff : W64) : Prop :=
  diff.toNat * nanosecondsPerSecond.toNat / freq.toNat < 2 ^ 64 ∧
    diff.toNat * nanosecondsPerSecond.toNat % freq.toNat ≤ clock * freq.toNat % nanosecondsPerSecond.toNat

theorem ticks_reached_iff (p : 0 < freq) (diff : W64) :
    rtcTicks freq clock + diff.toNat ≤ rtcTicks freq (clock + (muldiv64 diff nanosecondsPerSecond freq).toNat) ↔
      Exact freq clock diff := by
  have snd : 0 < nanosecondsPerSecond.toNat := by decide
  have some : 0 < freq.toNat := p
  by_cases f : diff.toNat * nanosecondsPerSecond.toNat / freq.toNat < 2 ^ 64
  · rw [muldiv64_toNat, Nat.mod_eq_of_lt (show moments _ _ _ < 2 ^ 64 from f)]
    exact (ticks_add_moments_iff snd).trans (and_iff_right f).symm
  · refine iff_of_false (fun e => ?_) fun exact => f exact.1
    -- what is cut off is more than the timer could wait
    have whole := moments_mul nanosecondsPerSecond.toNat freq.toNat diff.toNat
    have cut : (muldiv64 diff nanosecondsPerSecond freq).toNat + 2 ^ 64
        ≤ moments nanosecondsPerSecond.toNat freq.toNat diff.toNat := by
      rw [muldiv64_toNat]
      have long : ¬ moments nanosecondsPerSecond.toNat freq.toNat diff.toNat < 2 ^ 64 := f
      omega
    have s := Nat.mul_le_mul_right freq.toNat cut
    have part := Nat.mod_lt (clock * freq.toNat) snd
    have waits := (ticks_add_le_iff snd _).mp e
    rw [Nat.add_mul] at s
    omega

theorem notEarly_iff (hb : clock < 2 ^ 63) (hp : 0 < freq) (ha : readRtc freq delta clock < timecmp)
    (har : nextMoment freq clock (timecmp - readRtc freq delta clock) ≠ int64Max) :
    NotEarly freq delta clock timecmp (nextMoment freq clock (timecmp - readRtc freq delta clock)) ↔
      Exact freq clock (timecmp - readRtc freq delta clock) := by
  let c := timecmp - readRtc freq delta clock
  obtain ⟨hm, hi⟩ := nextMoment_toNat hb har
  have hs : 0 < nanosecondsPerSecond.toNat := by decide
  have dif : c.toNat = timecmp.toNat - (readRtc freq delta clock).toNat :=
    toNat_sub_of_le (BitVec.le_of_lt ha)
  have ho : (readRtc freq delta clock).toNat < timecmp.toNat := ha
  rw [← ticks_reached_iff hp, dif]
  constructor
  let q := muldiv64 c nanosecondsPerSecond freq
  · intro hn
    have hpa : rtcTicks freq (clock + q.toNat)
        ≤ rtcTicks freq clock + c.toNat := by
      apply ticks_add_span_le hs
      rw [muldiv64_toNat]
      have hw := moments_mul nanosecondsPerSecond.toNat freq.toNat c.toNat
      have hc := Nat.mul_le_mul_right freq.toNat (Nat.mod_le
        (moments nanosecondsPerSecond.toNat freq.toNat c.toNat) (2 ^ 64))
      omega
    have hf : (readRtc freq delta clock).toNat + (rtcTicks freq (clock +
        q.toNat) - rtcTicks freq clock)
          < 2 ^ 64 := by omega
    have hr : timecmp.toNat ≤ _ := hn _ (Nat.le_of_eq hm) hi hf
    rw [readRtc_later (Nat.le_add_right _ _) hi hf] at hr
    have hg := rtcTicks_mono freq (Nat.le_add_right clock
      q.toNat)
    omega
  · intro he later hr hbo hf
    rw [hm] at hr
    have hg := rtcTicks_mono freq hr
    change timecmp.toNat ≤ _
    rw [readRtc_later (by omega) hbo hf]
    omega

end

structure Config where
  rvh : Bool
  -- the ACLINT gives the hart its time
  rdtime : Bool
  extSstc : Bool
  timebaseFreq : BitVec 32
  timeDelta : W64

inductive Irq where
  | stip
  | vstip
deriving DecidableEq, Repr

structure Env where
  clock : Nat
  menvcfg : W64
  henvcfg : W64
deriving DecidableEq, Repr

def envcfgStce : W64 := 0x8000000000000000
def stce (envcfg : W64) : Bool := getField envcfg envcfgStce != 0

namespace Env
variable (cfg : Config) (env : Env)

def rdtime : W64 := readRtc cfg.timebaseFreq cfg.timeDelta env.clock

def timecmpOutcome (irq : Irq) (timecmp delta : W64) : Outcome :=
  if !cfg.extSstc || !cfg.rdtime || !stce env.menvcfg then .ignored
  else if irq = .vstip ∧ (!cfg.rvh || !stce env.henvcfg) then .ignored
  else
    let rtc := env.rdtime cfg + delta
    if timecmp ≤ rtc then .past
    else if timecmp = BitVec.allOnes 64 then .deleted
    else .armed (nextMoment cfg.timebaseFreq env.clock (timecmp - rtc))

end Env
end RiscvEmulators.Qemu.Timer
