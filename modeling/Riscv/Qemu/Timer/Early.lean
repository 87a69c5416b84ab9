import Riscv.Qemu.Aclint.Isolation

namespace RiscvEmulators.Qemu.Timer

theorem Env.timecmpOutcome_armed {cfg : Config} {env : Env} {irq : Irq} {tc d nx : BitVec 64}
    (ha : env.timecmpOutcome cfg irq tc d = .armed nx) :
    env.rdtime cfg + d < tc ∧ nx = nextMoment cfg.timebaseFreq env.clock (tc - (env.rdtime cfg + d)) := by
  unfold Env.timecmpOutcome at ha
  dsimp only at ha
  split at ha
  · cases ha
  split at ha
  · cases ha
  split at ha
  · cases ha
  rename_i hah
  split at ha
  · cases ha
  exact ⟨BitVec.not_le.mp hah, (Outcome.armed.inj ha).symm⟩

theorem mtimer_timecmpOutcome_armed {n : Nat} {cfg : Aclint.Config n} {m : Aclint.Mtimer n}
    {tc nx : BitVec 64} (ha : m.timecmpOutcome cfg tc = .armed nx) :
    m.readRtc cfg < tc ∧ nx = nextMoment cfg.timebaseFreq m.clock (tc - m.readRtc cfg) := by
  unfold Aclint.Mtimer.timecmpOutcome at ha
  dsimp only at ha
  split at ha
  · cases ha
  rename_i hah
  exact ⟨BitVec.not_le.mp hah, (Outcome.armed.inj ha).symm⟩

/-- A timer that is set for a moment other than the last one is not early exactly if the conversion to nanoseconds did not
  overflow and lost no more than had passed of the tick. -/
theorem never_early_iff (cfg : Config) (env : Env) (irq : Irq) {harts : Nat} (acfg : Aclint.Config harts)
    (mtimer : Aclint.Mtimer harts) (timecmp delta next : BitVec 64) :
    (0 < cfg.timebaseFreq → env.clock < 2 ^ 63 → env.timecmpOutcome cfg irq timecmp delta = .armed next →
      next ≠ int64Max → (NotEarly cfg.timebaseFreq (cfg.timeDelta + delta) env.clock timecmp next ↔
        Exact cfg.timebaseFreq env.clock (timecmp - (env.rdtime cfg + delta)))) ∧
    (0 < acfg.timebaseFreq → mtimer.clock < 2 ^ 63 → mtimer.timecmpOutcome acfg timecmp = .armed next →
      next ≠ int64Max → (NotEarly acfg.timebaseFreq mtimer.timeDelta mtimer.clock timecmp next ↔
        Exact acfg.timebaseFreq mtimer.clock (timecmp - mtimer.readRtc acfg))) := by
  constructor
  · intro positive bound armed finite
    obtain ⟨ahead, rfl⟩ := env.timecmpOutcome_armed armed
    have sum : env.rdtime cfg + delta = readRtc cfg.timebaseFreq (cfg.timeDelta + delta) env.clock :=
      BitVec.add_assoc _ _ _
    rw [sum] at ahead finite ⊢
    exact notEarly_iff bound positive ahead finite
  · intro positive bound armed finite
    obtain ⟨ahead, rfl⟩ := mtimer_timecmpOutcome_armed armed
    exact notEarly_iff bound positive ahead finite

def withClock (freq : BitVec 32) : Config := ⟨true, true, true, freq, 0⟩
def started : Env := ⟨0, envcfgStce, envcfgStce⟩

theorem not_early_ten_megahertz : NotEarly 10000000 0 0 5 500 := by
  have armed : started.timecmpOutcome (withClock 10000000) .stip 5 0 = .armed 500 := by decide +kernel
  have iff := (never_early_iff (withClock 10000000) started .stip ⟨0, 0, 0, 10000000, fun _ => false, rfl, Nat.zero_le 4095⟩
    ⟨0, 0, fun _ => 0, fun _ => false, fun _ => none⟩ 5 0 500).1 (by decide) (by decide) armed (by decide)
  exact iff.mpr ⟨by decide +kernel, by decide +kernel⟩

theorem early_timers :
    (started.timecmpOutcome (withClock 32768) .stip 1 0 = .armed 30517 ∧ ¬ NotEarly 32768 0 0 1 30517) ∧
    (started.timecmpOutcome (withClock 1) .stip 18446744093 0 = .armed 19290448384 ∧
      ¬ NotEarly 1 0 0 18446744093 19290448384) := by
  refine ⟨⟨by decide +kernel, fun timely => ?_⟩, ⟨by decide +kernel, fun timely => ?_⟩⟩
  · have reached := timely 30517 (by decide) (by decide) (by decide +kernel)
    revert reached
    decide +kernel
  · have reached := timely 19290448384 (by decide) (by decide) (by decide +kernel)
    revert reached
    decide +kernel

end RiscvEmulators.Qemu.Timer
