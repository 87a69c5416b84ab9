import Mathlib.Algebra.Group.Nat.Defs

namespace RiscvEmulators.Clock
variable {unit freq clock later n : Nat}

/-- The ticks of a counter that counts `freq` in every `unit` moments, after `clock` moments. -/
def ticks (unit freq clock : Nat) : Nat := clock * freq / unit
def moments (unit freq n : Nat) : Nat := n * unit / freq

theorem ticks_mono (h : clock ≤ later) : ticks unit freq clock ≤ ticks unit freq later :=
  Nat.div_le_div_right (Nat.mul_le_mul_right freq h)

theorem moments_mul (unit freq n : Nat) : moments unit freq n * freq + n * unit % freq = n * unit := by
  rw [Nat.mul_comm]
  exact Nat.div_add_mod (n * unit) freq

theorem ticks_add_le_iff (hp : 0 < unit) (s : Nat) :
    ticks unit freq clock + n ≤ ticks unit freq (clock + s) ↔ n * unit ≤ clock * freq % unit + s * freq := by
  have hw := Nat.div_add_mod (clock * freq) unit
  rw [ticks, ticks, Nat.le_div_iff_mul_le hp, Nat.add_mul, Nat.add_mul, Nat.mul_comm _ unit]
  omega

theorem ticks_add_moments_iff (hp : 0 < unit) :
    ticks unit freq clock + n ≤ ticks unit freq (clock + moments unit freq n) ↔
      n * unit % freq ≤ clock * freq % unit := by
  have hr := moments_mul unit freq n
  rw [ticks_add_le_iff hp]
  omega

theorem ticks_add_span_le (hp : 0 < unit) {s : Nat} (hs : s * freq ≤ n * unit) :
    ticks unit freq (clock + s) ≤ ticks unit freq clock + n := by
  have hw := Nat.div_add_mod (clock * freq) unit
  have part := Nat.mod_lt (clock * freq) hp
  rw [ticks, ticks, Nat.div_le_iff_le_mul_add_pred hp, Nat.add_mul, Nat.mul_add, Nat.mul_comm unit n]
  omega

end RiscvEmulators.Clock
