import Riscv.Transition.Run
import Mathlib.Algebra.Group.Nat.Defs

namespace RiscvEmulators.Spike.Vector
open Transition

inductive Extension where
  | zvqbdot8i | zvqbdot16i | zvfqbdot8f | zvfwbdot16bf | zvqldot8i | zvqldot16i | zvfqldot8f | zvfwldot16bf
  | zvfbfa | zvfofp8min

structure Config where
  vlen : Nat
  elen : Nat
  xlen : Nat
  extensionEnabled : Extension → Bool

/-- What the ISA parser lets through: VLEN is a power of two of at most 4096 and never below ELEN. At these sizes
the float arithmetic of `set_vl` is exact. -/
structure Config.Supported (cfg : Config) : Prop where
  vlen : ∃ k ≤ 12, cfg.vlen = 2 ^ k
  elen : cfg.elen ≤ cfg.vlen

/-- `vflmul` is the float `2 ^ vlmul`. -/
structure VectorUnit where
  vtype : BitVec 64
  vl : Nat
  vlmax : Nat
  vsew : Nat
  vlmul : Int
  altfmt : Bool
  vill : Bool

structure Call where
  rd : Int
  rs1 : Int
  reqVL : Nat
  newType : BitVec 64

def newVlmul (newType : BitVec 64) : Int := (((newType.extractLsb' 0 3).setWidth 8 <<< 5).sshiftRight 5).toInt

def newVsew (newType : BitVec 64) : Nat := 2 ^ ((newType.extractLsb' 3 3).toNat + 3)

def scaled (n : Nat) (vlmul : Int) : Nat := if 0 ≤ vlmul then n * 2 ^ vlmul.toNat else n / 2 ^ (-vlmul).toNat

variable (cfg : Config) (u : VectorUnit) (call : Call)

def illAltfmt (vsew : Nat) : Bool :=
  !(cfg.extensionEnabled .zvqbdot8i && vsew == 8 || cfg.extensionEnabled .zvqbdot16i && vsew == 16 ||
    cfg.extensionEnabled .zvfqbdot8f && vsew == 8 || cfg.extensionEnabled .zvfwbdot16bf && vsew == 16 ||
    cfg.extensionEnabled .zvqldot8i && vsew == 8 || cfg.extensionEnabled .zvqldot16i && vsew == 16 ||
    cfg.extensionEnabled .zvfqldot8f && vsew == 8 || cfg.extensionEnabled .zvfwldot16bf && vsew == 16 ||
    cfg.extensionEnabled .zvfbfa && (vsew == 16 || vsew == 8) || cfg.extensionEnabled .zvfofp8min && vsew == 8)

def decoded : VectorUnit :=
  let vsew := newVsew call.newType
  let vlmul := newVlmul call.newType
  { u with
    vsew, vlmul, vlmax := scaled (cfg.vlen / vsew) vlmul, altfmt := call.newType.extractLsb' 8 1 == 1 }

def illegal (new : VectorUnit) : Bool :=
  !(-3 ≤ new.vlmul && new.vlmul ≤ 3)
    -- `min(vflmul, 1)` is `1` or the fraction `1 / 2 ^ -vlmul`
    || new.vsew * 2 ^ (-new.vlmul).toNat > cfg.elen
    || call.newType >>> 9 != 0
    || new.altfmt && illAltfmt cfg new.vsew
    || call.rd == 0 && call.rs1 == 0 && u.vlmax != new.vlmax

def retyped : VectorUnit :=
  let new := decoded cfg u call
  if illegal cfg u call new then { new with vill := true, vlmax := 0, vtype := BitVec.allOnes 64 <<< (cfg.xlen - 1) }
  else { new with vill := false, vtype := call.newType }

def newVl : Nat :=
  if u.vlmax = 0 then 0
  else if call.rd = 0 ∧ call.rs1 = 0 then u.vl
  else if call.rd ≠ 0 ∧ call.rs1 = 0 then u.vlmax
  else min call.reqVL u.vlmax

def setVl : VectorUnit :=
  let u := if u.vtype ≠ call.newType then retyped cfg u call else u
  { u with vl := newVl u call }

def reset : VectorUnit := setVl cfg { u with vtype := 0, vl := 0 } ⟨0, 0, 0, -1⟩

structure Void : Prop where
  vill : u.vill
  vlmax : u.vlmax = 0
  vtype : u.vtype = BitVec.allOnes 64 <<< (cfg.xlen - 1)

/-- With LMUL = `2 ^ vlmul`: SEW ≤ ELEN * min(LMUL, 1), and VLMAX = VLEN * LMUL / SEW without a remainder. -/
structure Legal : Prop where
  vill : u.vill = false
  vsew : u.vsew = newVsew u.vtype
  vlmul : u.vlmul = newVlmul u.vtype
  fits : u.vsew * 2 ^ (-u.vlmul).toNat ≤ cfg.elen
  vlmax : u.vlmax * (u.vsew * 2 ^ (-u.vlmul).toNat) = cfg.vlen * 2 ^ u.vlmul.toNat

structure Granted (after : VectorUnit) : Prop extends Legal cfg after where
  vtype : after.vtype = call.newType
  bounded : after.vl ≤ after.vlmax
  requested : call.rs1 ≠ 0 → after.vl = min call.reqVL after.vlmax
  longest : call.rs1 = 0 → call.rd ≠ 0 → after.vl = after.vlmax
  kept : call.rs1 = 0 → call.rd = 0 → after.vl = u.vl

def Answered : Prop :=
  let after := setVl cfg u call
  Void cfg after ∧ after.vl = 0 ∨ Granted cfg u call after

structure Held : Prop where
  typed : Void cfg u ∨ Legal cfg u
  bounded : u.vl ≤ u.vlmax

variable {cfg u call}

theorem scaled_exact {k j : Nat} {m : Int} (hf : 2 ^ j * 2 ^ (-m).toNat ≤ 2 ^ k) :
    scaled (2 ^ k / 2 ^ j) m * (2 ^ j * 2 ^ (-m).toNat) = 2 ^ k * 2 ^ m.toNat := by
  rw [← Nat.pow_add] at hf ⊢
  have hd : 2 ^ (j + (-m).toNat) ∣ 2 ^ k := Nat.pow_dvd_pow 2 ((Nat.pow_le_pow_iff_right (by decide)).mp hf)
  unfold scaled
  split
  · have hz : (-m).toNat = 0 := by omega
    rw [hz, Nat.add_zero] at hd ⊢
    rw [Nat.mul_right_comm, Nat.div_mul_cancel hd]
  · have hz : m.toNat = 0 := by omega
    rw [Nat.div_div_eq_div_mul, ← Nat.pow_add, Nat.div_mul_cancel hd, hz, Nat.pow_zero, Nat.mul_one]

theorem retyped_typed (hs : cfg.Supported) :
    Void cfg (retyped cfg u call) ∨ Legal cfg (retyped cfg u call) ∧ (retyped cfg u call).vtype = call.newType := by
  obtain ⟨k, -, hk⟩ := hs.vlen
  unfold retyped
  by_cases hi : illegal cfg u call (decoded cfg u call)
  · left
    rw [if_pos hi]
    exact ⟨rfl, rfl, rfl⟩
  · right
    rw [if_neg hi]
    have hf : newVsew call.newType * 2 ^ (-newVlmul call.newType).toNat ≤ cfg.elen := by
      simp only [illegal, Bool.or_eq_true, not_or, decide_eq_true_eq] at hi
      exact Nat.le_of_not_lt hi.1.1.1.2
    have hb := Nat.le_trans hf hs.elen
    rw [hk] at hb
    refine ⟨⟨rfl, rfl, rfl, hf, ?_⟩, rfl⟩
    unfold decoded
    rw [hk]
    exact scaled_exact hb

/-- The form that keeps `vl` is refused when it would change `vlmax`. -/
theorem retyped_vlmax (hv : (retyped cfg u call).vill = false) (hd : call.rd = 0) (hr : call.rs1 = 0) :
    (retyped cfg u call).vlmax = u.vlmax := by
  unfold retyped at hv ⊢
  by_cases hi : illegal cfg u call (decoded cfg u call)
  · rw [if_pos hi] at hv
    cases hv
  · rw [if_neg hi]
    simp only [illegal, hd, hr, Bool.or_eq_true, not_or, beq_self_eq_true, Bool.true_and, bne_iff_ne, Decidable.not_not] at hi
    exact hi.2.symm

theorem retyped_vl : (retyped cfg u call).vl = u.vl := by
  unfold retyped
  dsimp only
  split <;> rfl

theorem newVl_void (hv : u.vlmax = 0) : newVl u call = 0 := if_pos hv

theorem Legal.granted {new : VectorUnit} (hl : Legal cfg new) (ht : new.vtype = call.newType) (hv : new.vl = u.vl)
    (hb : call.rd = 0 → call.rs1 = 0 → new.vl ≤ new.vlmax) :
    Granted cfg u call { new with vl := newVl new call } := by
  refine ⟨⟨hl.vill, hl.vsew, hl.vlmul, hl.fits, hl.vlmax⟩, ht, ?_, ?_, ?_, ?_⟩ <;> dsimp only <;> unfold newVl
  · split
    · omega
    · split
      · rename_i hk
        exact hb hk.1 hk.2
      · split <;> omega
  · intro hr
    simp only [hr, and_false, if_false]
    split <;> omega
  · intro hr hd
    simp only [hr, hd, false_and, if_false, ne_eq, not_false_eq_true, and_self, if_true]
    split <;> omega
  · intro hr hd
    simp only [hr, hd, and_self, if_true]
    split <;> omega

theorem Held.answered (hs : cfg.Supported) (hh : Held cfg u) : Answered cfg u call := by
  unfold Answered setVl
  by_cases ht : u.vtype = call.newType
  · rw [if_neg (Decidable.not_not.mpr ht)]
    rcases hh.typed with hv | hl
    · exact .inl ⟨⟨hv.vill, hv.vlmax, hv.vtype⟩, newVl_void hv.vlmax⟩
    · exact .inr (hl.granted ht rfl fun _ _ => hh.bounded)
  · rw [if_pos ht]
    rcases retyped_typed hs with hv | ⟨hl, he⟩
    · exact .inl ⟨⟨hv.vill, hv.vlmax, hv.vtype⟩, newVl_void hv.vlmax⟩
    · right
      apply hl.granted he retyped_vl
      intro hd hr
      rw [retyped_vl, retyped_vlmax hl.vill hd hr]
      exact hh.bounded

theorem Held.after (hs : cfg.Supported) (hh : Held cfg u) : Held cfg (setVl cfg u call) := by
  rcases hh.answered hs with ⟨hv, hz⟩ | hg
  · exact ⟨.inl hv, by omega⟩
  · exact ⟨.inr hg.toLegal, hg.bounded⟩

theorem reset_void : Void cfg (reset cfg u) ∧ (reset cfg u).vl = 0 := by
  have hi (n : VectorUnit) : illegal cfg { u with vtype := 0, vl := 0 } ⟨0, 0, 0, -1⟩ n := by
    have hn : ((-1 : BitVec 64) >>> 9 != 0) := by decide
    simp only [illegal, hn, Bool.or_true, Bool.true_or]
  unfold reset setVl retyped
  rw [if_pos (hi _)]
  exact ⟨⟨rfl, rfl, rfl⟩, rfl⟩

/-- Every call, in every sequence of calls from reset. -/
theorem setVl_answered (supported : cfg.Supported) (unit : VectorUnit) (calls : List Call) :
    StepsMeet (setVl cfg) (Answered cfg) (reset cfg unit) calls := by
  have start : Held cfg (reset cfg unit) := ⟨.inl reset_void.1, by rw [reset_void.2]; exact Nat.zero_le _⟩
  exact stepsMeet_of_invariant (fun _ _ held => held.after supported) (fun _ _ held => held.answered supported) start

def rv64v : Config := ⟨128, 64, 64, fun _ => false⟩

theorem setVl_answered_rv64v : rv64v.Supported ∧ StepsMeet (setVl rv64v) (Answered rv64v)
    (reset rv64v ⟨0, 0, 0, 0, 0, false, false⟩) [⟨1, 0, 0, 0x10⟩, ⟨0, 0, 0, 0x19⟩, ⟨1, 2, 3, 0x15⟩] := by
  have supported : rv64v.Supported := ⟨⟨7, by decide, rfl⟩, by decide⟩
  exact ⟨supported, setVl_answered supported _ _⟩

end RiscvEmulators.Spike.Vector
