import Riscv.Qemu.Timer.Sstc
import Riscv.Store.Cells

namespace RiscvEmulators.Qemu.Aclint
open Store Timer Word

/-- An MTIMER of `n` harts as `riscv_aclint_mtimer_create` allows it; `present` for `cpu_by_arch_id`. -/
structure Config (n : Nat) where
  hartidBase : W32
  timecmpBase : W32
  timeBase : W32
  timebaseFreq : W32
  present : Nat → Bool
  aligned : timecmpBase.toNat % 8 = 0
  few : n ≤ 4095

structure Mtimer (n : Nat) where
  clock : Nat
  timeDelta : W64
  timecmp : Cells n W64
  timerIrqs : Cells n Bool
  timers : Cells n (Option W64)

namespace Mtimer
variable {n : Nat} (cfg : Config n) (mtimer : Mtimer n)

def readRtc : W64 := Timer.readRtc cfg.timebaseFreq mtimer.timeDelta mtimer.clock

def timecmpOutcome (value : W64) : Outcome :=
  let rtc := mtimer.readRtc cfg
  if value ≤ rtc then .past else .armed (nextMoment cfg.timebaseFreq mtimer.clock (value - rtc))

/-- `none` is an access beyond the end of an array. -/
def writeTimecmp (hartid : Nat) (value : W64) : Option (Mtimer n) := do
  let hartid := (BitVec.ofNat 32 hartid - cfg.hartidBase).toNat
  let timecmp ← mtimer.timecmp.write hartid value
  match mtimer.timecmpOutcome cfg value with
  | .armed next =>
    let timerIrqs ← mtimer.timerIrqs.write hartid false
    let timers ← mtimer.timers.write hartid (some next)
    some { mtimer with timecmp, timerIrqs, timers }
  | _ =>
    let timerIrqs ← mtimer.timerIrqs.write hartid true
    some { mtimer with timecmp, timerIrqs }

def timecmpEnd : Nat := (cfg.timecmpBase.toNat + n * 8) % 2 ^ 32
def atTimecmp (addr : Nat) : Prop := cfg.timecmpBase.toNat ≤ addr ∧ addr < timecmpEnd cfg
instance (addr : Nat) : Decidable (atTimecmp cfg addr) := inferInstanceAs (Decidable (_ ∧ _))
def hartidAt (addr : Nat) : Nat := cfg.hartidBase.toNat + (addr - cfg.timecmpBase.toNat) / 8
def low32 (value : W64) : W64 := value &&& 0xffffffff

def read (addr : Nat) (wide : Bool) : Option W64 :=
  if atTimecmp cfg addr then
    let hartid := hartidAt cfg addr
    if !cfg.present hartid then some 0
    else if addr % 8 = 0 then do
      let timecmp ← mtimer.timecmp.read hartid
      some (if wide then timecmp else low32 timecmp)
    else if addr % 8 = 4 then do
      let timecmp ← mtimer.timecmp.read hartid
      some (low32 (timecmp >>> 32))
    else some 0
  else if addr = cfg.timeBase.toNat then
    let rtc := mtimer.readRtc cfg
    some (if wide then rtc else low32 rtc)
  else if addr = cfg.timeBase.toNat + 4 then some (low32 (mtimer.readRtc cfg >>> 32))
  else some 0

def restart : Option (Mtimer n) :=
  (List.finRange n).foldlM (fun (mtimer : Mtimer n) i =>
    if cfg.present (cfg.hartidBase.toNat + i.val) then
      mtimer.writeTimecmp cfg (cfg.hartidBase.toNat + i.val) (mtimer.timecmp i)
    else some mtimer) mtimer

def write (addr : Nat) (value : W64) (wide : Bool) : Option (Mtimer n) :=
  if atTimecmp cfg addr then
    let hartid := hartidAt cfg addr
    if !cfg.present hartid then some mtimer
    else if addr % 8 = 0 then
      if wide then mtimer.writeTimecmp cfg hartid value
      else do
        let timecmp ← mtimer.timecmp.read hartid
        mtimer.writeTimecmp cfg hartid (timecmp >>> 32 <<< 32 ||| low32 value)
    else if addr % 8 = 4 then
      if wide then some mtimer
      else do
        let timecmp ← mtimer.timecmp.read hartid
        mtimer.writeTimecmp cfg hartid (value <<< 32 ||| low32 timecmp)
    else some mtimer
  else
    let raw := readRtcRaw cfg.timebaseFreq mtimer.clock
    let rtc := mtimer.readRtc cfg
    if addr = cfg.timeBase.toNat then
      let time := if wide then value else (rtc &&& ~~~0xffffffff) ||| value
      ({ mtimer with timeDelta := time - raw } : Mtimer n).restart cfg
    else if addr = cfg.timeBase.toNat + 4 then
      if wide then some mtimer
      else ({ mtimer with timeDelta := (value <<< 32 ||| low32 rtc) - raw } : Mtimer n).restart cfg
    else some mtimer

def advance (elapsed : Nat) : Mtimer n :=
  let clock := mtimer.clock + elapsed
  { mtimer with
    clock
    timerIrqs := fun i => mtimer.timerIrqs i || fires (mtimer.timers i) clock
    timers := fun i => if fires (mtimer.timers i) clock then none else mtimer.timers i }

def init (n : Nat) : Mtimer n := ⟨0, 0, fun _ => 0, fun _ => false, fun _ => none⟩

end Mtimer

inductive Event where
  | read (addr : Nat) (wide : Bool)
  | write (addr : Nat) (value : W64) (wide : Bool)
  | clock (elapsed : Nat)
deriving DecidableEq, Repr

def aligned (addr : Nat) (wide : Bool) : Bool := if wide then addr % 8 == 0 else addr % 4 == 0

def Mtimer.after {n : Nat} (cfg : Config n) (mtimer : Mtimer n) : Event → Option (Mtimer n × W64)
  | .read addr wide => if aligned addr wide then (mtimer.read cfg addr wide).map (mtimer, ·) else some (mtimer, 0)
  | .write addr value wide =>
    if aligned addr wide then (mtimer.write cfg addr (if wide then value else low32 value) wide).map (·, 0)
    else some (mtimer, 0)
  | .clock elapsed => some (mtimer.advance elapsed, 0)

open BitVec Mtimer Cells Option
variable {n : Nat} {cfg : Config n} {mtimer : Mtimer n}

def register (cfg : Config n) (addr : Nat) : Option (Fin n) :=
  if bound : Mtimer.atTimecmp cfg addr ∧ (addr - cfg.timecmpBase.toNat) / 8 < n then
    if cfg.present (Mtimer.hartidAt cfg addr) then some ⟨(addr - cfg.timecmpBase.toNat) / 8, bound.2⟩ else none
  else none

def bytesRead (old : W64) (addr : Nat) (wide : Bool) : W64 :=
  if wide then old else if addr % 8 = 0 then old &&& 0xffffffff else old >>> 32

def bytesWritten (old value : W64) (addr : Nat) (wide : Bool) : W64 :=
  if wide then value
  else if addr % 8 = 0 then (old &&& ~~~0xffffffff) ||| (value &&& 0xffffffff)
  else (old &&& 0xffffffff) ||| value <<< 32

def specAfter (cfg : Config n) (registers : Fin n → W64) : Event → (Fin n → W64) × Option W64
  | .read addr wide =>
    (registers, if aligned addr wide then (register cfg addr).map fun hart => bytesRead (registers hart) addr wide else none)
  | .write addr value wide =>
    match register cfg addr with
    | some hart =>
      if aligned addr wide then
        (fun i => if i = hart then bytesWritten (registers i) value addr wide else registers i, none)
      else (registers, none)
    | none => (registers, none)
  | .clock _ => (registers, none)

def Isolated (cfg : Config n) : Mtimer n → (Fin n → W64) → List Event → Prop
  | _, _, [] => True
  | mtimer, registers, event :: events =>
    ∃ after out, mtimer.after cfg event = some (after, out) ∧ after.timecmp = (specAfter cfg registers event).1 ∧
      (∀ expected, (specAfter cfg registers event).2 = some expected → out = expected) ∧
      Isolated cfg after (specAfter cfg registers event).1 events

theorem low32_getLsbD (v : W64) (i : Nat) : (low32 v).getLsbD i = (v.getLsbD i && decide (i < 32)) := by
  have bits : ∀ i < 64, (0xffffffff : W64).getLsbD i = decide (i < 32) := by decide
  rw [low32, getLsbD_and]
  by_cases hb : i < 64
  · rw [bits i hb]
  · rw [getLsbD_of_ge v i (by omega), Bool.false_and, Bool.false_and]

theorem low32_shift {v : W64} : low32 (v >>> 32) = v >>> 32 := by
  apply eq_of_getLsbD_eq
  intro i hb
  rw [low32_getLsbD, getLsbD_ushiftRight]
  by_cases hl : i < 32
  · simp [hl]
  · rw [getLsbD_of_ge v (32 + i) (by omega), Bool.false_and]

theorem low_half (old value : W64) : old >>> 32 <<< 32 ||| low32 (low32 value)
    = (old &&& ~~~0xffffffff) ||| low32 value := by
  apply eq_of_getLsbD_eq
  intro i hb
  have hm := low32_getLsbD (BitVec.allOnes 64) i
  rw [low32, allOnes_and, getLsbD_allOnes] at hm
  simp only [getLsbD_or, getLsbD_and, getLsbD_not, low32_getLsbD, hm]
  by_cases hl : i < 32
  · simp [hl]
  · simp [hl, hb, show 32 + (i - 32) = i by omega]

theorem high_half (old v : W64) : low32 v <<< 32 ||| low32 old = low32 old ||| v <<< 32 := by
  apply eq_of_getLsbD_eq
  intro i hb
  simp only [getLsbD_or, getLsbD_shiftLeft, low32_getLsbD]
  by_cases hl : i < 32
  · simp [hl]
  · simp [hl, show i - 32 < 32 by omega]

theorem relative {ba : W32} {hart : Nat} (hf : hart < 2 ^ 32) :
    (BitVec.ofNat 32 (ba.toNat + hart) - ba).toNat = hart := by
  have hs : BitVec.ofNat 32 (ba.toNat + hart) = ba + BitVec.ofNat 32 hart := by
    rw [ofNat_add, ofNat_toNat, setWidth_eq]
  rw [hs, BitVec.add_comm, BitVec.add_sub_cancel]
  exact Nat.mod_eq_of_lt hf

theorem writeTimecmp_eq (cfg : Config n) (mtimer : Mtimer n) (h0 : Fin n) (value : W64) :
    ∃ a, mtimer.writeTimecmp cfg (cfg.hartidBase.toNat + h0.val) value = some a ∧
      a.timecmp = mtimer.timecmp.change h0.val fun _ => value := by
  have h := cfg.few
  unfold writeTimecmp
  rw [relative (show h0.val < 2 ^ 32 by omega)]
  unfold Cells.write
  simp only [modify_val]
  split <;> exact ⟨_, rfl, rfl⟩

theorem restart_eq (cfg : Config n) (mtimer : Mtimer n) :
    ∃ a, mtimer.restart cfg = some a ∧ a.timecmp = mtimer.timecmp := by
  unfold restart
  generalize List.finRange n = h
  induction h generalizing mtimer with
  | nil => exact ⟨mtimer, rfl, rfl⟩
  | cons h0 h ih =>
    rw [List.foldlM_cons]
    split
    · obtain ⟨nx, hf, hs⟩ := writeTimecmp_eq cfg mtimer h0 (mtimer.timecmp h0)
      obtain ⟨a, hr, hk⟩ := ih nx
      rw [hf]
      refine ⟨a, hr, ?_⟩
      rw [hk, hs, change_self]
    · exact ih mtimer

section
variable {ad : Nat}

theorem atTimecmp_lt (hi : atTimecmp cfg ad) : (ad - cfg.timecmpBase.toNat) / 8 < n := by
  obtain ⟨hf, hl⟩ := hi
  unfold timecmpEnd at hl
  omega

theorem register_absent (hn : register cfg ad = .none) (hi : atTimecmp cfg ad) : ¬cfg.present (hartidAt cfg ad) := by
  intro hp
  rw [register, dif_pos ⟨hi, atTimecmp_lt hi⟩, if_pos hp] at hn
  cases hn

theorem register_present {h0 : Fin n} (hr : register cfg ad = some h0) :
    atTimecmp cfg ad ∧ cfg.present (hartidAt cfg ad) ∧ hartidAt cfg ad = cfg.hartidBase.toNat + h0.val := by
  unfold register at hr
  split at hr
  · rename_i hi
    split at hr
    · rename_i hp
      cases hr
      exact ⟨hi.1, hp, rfl⟩
    · cases hr
  · cases hr

theorem specAfter_write_none (h : register cfg ad = .none) (registers : Fin n → W64) (v : W64)
    (w : Bool) : (specAfter cfg registers (.write ad v w)).1 = registers := by
  simp [specAfter, h]

theorem specAfter_write_some {h0 : Fin n} {wide : Bool} (found : register cfg ad = some h0)
    (hi : aligned ad wide) (r : Cells n W64) (v : W64) : (specAfter cfg r (.write ad v wide)).1
      = r.change h0.val fun old => bytesWritten old v ad wide := by
  simp only [specAfter, found, hi, if_true]
  funext i
  by_cases hs : i = h0
  · rw [if_pos hs, hs, change_same]
  · rw [if_neg hs, change_other _ _ fun he => hs (Fin.ext he)]

theorem specAfter_write_reads (r : Fin n → W64) (ad : Nat) (v : W64) (w : Bool) :
    (specAfter cfg r (.write ad v w)).2 = none := by
  simp only [specAfter]
  cases register cfg ad with
  | none => rfl
  | some hart =>
    dsimp only
    split <;> rfl

theorem specAfter_write_unaligned (cfg : Config n) {w : Bool} (h : ¬ aligned ad w)
    (registers : Fin n → W64) (v : W64) : (specAfter cfg registers (.write ad v w)).1 = registers := by
  simp only [specAfter, h]
  cases register cfg ad <;> rfl

theorem half_of_aligned (hi : aligned ad false) : ad % 8 = 0 ∨ ad % 8 = 4 := by
  have hf : ad % 4 = 0 := by simpa [aligned] using hi
  omega

theorem wide_of_aligned (h : aligned ad true) : ad % 8 = 0 := by
  simpa [aligned] using h

variable (b : ∀ ad hart, register cfg ad = some hart → cfg.hartidBase = 0)
include b

theorem register_based {h0 : Fin n} (hr : register cfg ad = some h0) :
    atTimecmp cfg ad ∧ cfg.present h0.val ∧ hartidAt cfg ad = h0.val := by
  obtain ⟨hi, hp, ha⟩ := register_present hr
  rw [ha, b _ _ hr] at hp
  rw [b _ _ hr] at ha
  have hz : (0 : W32).toNat + h0.val = h0.val := Nat.zero_add _
  rw [hz] at hp ha
  exact ⟨hi, hp, ha⟩

theorem read_isolated {mtimer : Mtimer n} {ad : Nat} {wide : Bool} (aligned' : aligned ad wide) :
    ∃ out, mtimer.read cfg ad wide = some out ∧
      ∀ h0, register cfg ad = some h0 → out = bytesRead (mtimer.timecmp h0) ad wide := by
  unfold Mtimer.read
  cases hr : register cfg ad with
  | none =>
    simp only [reduceCtorEq, false_implies, implies_true, and_true]
    split
    · rename_i hi
      exact ⟨0, if_pos (by simp [register_absent hr hi])⟩
    · split
      · exact ⟨_, rfl⟩
      · split <;> exact ⟨_, rfl⟩
  | some h0 =>
    obtain ⟨hi, hp, ha⟩ := register_based b hr
    simp only [if_pos hi, ha, hp]
    cases wide with
    | true =>
      simp [wide_of_aligned aligned', bytesRead]
    | false =>
      rcases half_of_aligned aligned' with hl | hh
      · simp [hl, bytesRead, low32]
      · simp [hh, bytesRead, low32_shift]

theorem write_isolated (mtimer : Mtimer n) {ad : Nat} (v : W64) {w : Bool} (aligned' : aligned ad w) :
    ∃ a, mtimer.write cfg ad (if w then v else low32 v) w = some a ∧
      a.timecmp = (specAfter cfg mtimer.timecmp (.write ad v w)).1 := by
  unfold Mtimer.write
  cases hr : register cfg ad with
  | none =>
    rw [specAfter_write_none hr]
    split
    · rename_i hi
      exact ⟨mtimer, if_pos (by simp [register_absent hr hi]), rfl⟩
    · split
      · exact restart_eq cfg _
      · split
        · split
          · exact ⟨mtimer, rfl, rfl⟩
          · exact restart_eq cfg _
        · exact ⟨mtimer, rfl, rfl⟩
  | some h0 =>
    obtain ⟨hi, hp, ha⟩ := register_based b hr
    have hw {s : W64} (bytes : s = bytesWritten (mtimer.timecmp h0) v ad w) :
        ∃ a, mtimer.writeTimecmp cfg h0.val s = some a ∧
          a.timecmp = (specAfter cfg mtimer.timecmp (.write ad v w)).1 := by
      obtain ⟨a, hi3, hs⟩ := writeTimecmp_eq cfg mtimer h0 s
      rw [← (register_present hr).2.2, ha] at hi3
      refine ⟨a, hi3, ?_⟩
      rw [hs, specAfter_write_some hr aligned', bytes]
      funext i
      unfold change
      split
      · rename_i here
        rw [Fin.ext here]
      · rfl
    simp only [if_pos hi, ha, hp, read_val]
    cases w with
    | true =>
      rw [if_pos (wide_of_aligned aligned')]
      exact hw rfl
    | false =>
      rcases half_of_aligned aligned' with hl | hh
      · rw [if_pos hl]
        refine hw ((low_half _ v).trans ?_)
        simp [bytesWritten, hl, low32]
      · rw [if_neg (by decide), if_neg (by omega), if_pos hh]
        refine hw ((high_half _ v).trans ?_)
        simp [bytesWritten, hh, low32]

theorem isolated_of_based (events : List Event) : Isolated cfg mtimer mtimer.timecmp events := by
  induction events generalizing mtimer with
  | nil => trivial
  | cons ev events ih =>
    cases ev with
    | read ad w =>
      unfold Isolated Mtimer.after specAfter
      dsimp only
      by_cases hi : aligned ad w
      · obtain ⟨out, hi3, hb⟩ := read_isolated b hi
        rw [if_pos hi, if_pos hi, hi3]
        refine ⟨mtimer, out, rfl, rfl, fun expected ha => ?_, ih⟩
        obtain ⟨h0, hi2, rfl⟩ := map_eq_some_iff.mp ha
        exact hb h0 hi2
      · rw [if_neg hi, if_neg hi]
        exact ⟨mtimer, 0, rfl, rfl, nofun, ih⟩
    | write ad v w =>
      have hr (expected : W64)
          (ha : (specAfter cfg mtimer.timecmp (.write ad v w)).2 = some expected) : 0 = expected := by
        rw [specAfter_write_reads] at ha
        cases ha
      by_cases hi : aligned ad w
      · obtain ⟨a, wrote, hs⟩ := write_isolated b mtimer v hi
        refine ⟨a, 0, ?_, hs, hr, hs ▸ ih⟩
        simp [Mtimer.after, hi, wrote]
      · have hs := specAfter_write_unaligned cfg hi mtimer.timecmp v
        refine ⟨mtimer, 0, ?_, hs.symm, hr, ?_⟩
        · simp [Mtimer.after, hi]
        · rw [hs]
          exact ih
    | clock e => exact ⟨mtimer.advance e, 0, rfl, rfl, nofun, ih⟩

end

theorem register_start {a : Nat} {h0 : Fin n} (hr : register cfg a = some h0) :
    ∃ p, p % 8 = 0 ∧ register cfg p = some h0 := by
  have align := cfg.aligned
  obtain ⟨⟨hf, hl⟩, hp, ha⟩ := register_present hr
  have hs : (cfg.timecmpBase.toNat + 8 * h0.val - cfg.timecmpBase.toNat) / 8 = h0.val := by omega
  have hartid : hartidAt cfg (cfg.timecmpBase.toNat + 8 * h0.val) = hartidAt cfg a := by
    rw [ha, hartidAt, hs]
  have inside : atTimecmp cfg (cfg.timecmpBase.toNat + 8 * h0.val) := by
    unfold hartidAt at ha
    exact ⟨by omega, by omega⟩
  refine ⟨cfg.timecmpBase.toNat + 8 * h0.val, by omega, ?_⟩
  rw [register, dif_pos ⟨inside, atTimecmp_lt inside⟩, hartid, if_pos hp]
  exact congrArg some (Fin.ext hs)

theorem not_isolated {add : Nat} {h0 : Fin n} (hi5 : register cfg add = some h0)
    (ba : cfg.hartidBase ≠ 0) : ∃ events, ¬ Isolated cfg (Mtimer.init n) (fun _ => 0) events := by
  obtain ⟨p, hw, hi2⟩ := register_start hi5
  obtain ⟨inside, hp, hh⟩ := register_present hi2
  have whole : aligned p true := by simp [aligned, hw]
  have hm : cfg.hartidBase.toNat ≠ 0 := fun hz => ba (eq_of_toNat_eq hz)
  refine ⟨[.write p 1 true, .read p true], ?_⟩
  rintro ⟨a, out, -, hs, -, last, seen, hi3, -, hr, -⟩
  rw [specAfter_write_some hi2 whole] at hs hr
  -- the value that should be read is the one that was written
  have he : seen = 1 := by
    apply hr
    simp only [specAfter, whole, hi2, map_some]
    rw [change_same]
    rfl
  -- the value that is read is that of another register, if there is one
  rw [hh] at hp
  simp only [Mtimer.after, whole, Mtimer.read, if_pos inside, hh, hp, if_pos hw] at hi3
  obtain ⟨v, hi4, hf⟩ := map_eq_some_iff.mp hi3
  obtain ⟨s, hi, hi6⟩ := bind_eq_some_iff.mp hi4
  have hi7 : s = seen := (Option.some.inj hi6).trans (congrArg Prod.snd hf)
  unfold Cells.read at hi
  split at hi
  · have ho : s = 0 := by
      rw [← Option.some.inj hi, hs, change_other _ _ (by dsimp only; omega)]
    rw [← hi7, ho] at he
    cases he
  · cases hi

/-- The comparators are isolated and in bounds in every run exactly if the harts are numbered from 0, or the device has no
  comparator at all. -/
theorem isolated_iff (cfg : Config n) : (∀ events, Isolated cfg (Mtimer.init n) (fun _ => 0) events) ↔
    cfg.hartidBase = 0 ∨ ∀ addr, register cfg addr = none := by
  constructor
  · intro isolated
    by_cases based : cfg.hartidBase = 0
    · exact .inl based
    · refine .inr fun addr => ?_
      cases found : register cfg addr with
      | none => rfl
      | some h0 =>
        obtain ⟨events, confused⟩ := not_isolated found based
        exact absurd (isolated events) confused
  · intro right events
    refine isolated_of_based (fun addr h0 found => ?_) events
    rcases right with based | none
    · exact based
    · cases (none addr).symm.trans found

def pair (base : W32) : Config 2 := ⟨base, 0, 0x7ff8, 10000000, fun _ => true, rfl, Nat.le_of_ble_eq_true rfl⟩

theorem comparators_confused : ((Mtimer.init 2).after (pair 2) (.read 0 true)).isNone = true ∧
    ¬ Isolated (pair 2) (Mtimer.init 2) (fun _ => 0) [.read 0 true] ∧
    ¬ Isolated (pair 1) (Mtimer.init 2) (fun _ => 0) [.write 0 7 true, .read 0 true] := by
  refine ⟨by decide +kernel, ?_, ?_⟩
  · rintro ⟨after, out, stepped, -⟩
    have inside : ((Mtimer.init 2).after (pair 2) (.read 0 true)).isSome := by rw [stepped]; rfl
    revert inside
    decide +kernel
  · rintro ⟨after, out, stepped, -, -, last, seen, read, -, returns, -⟩
    have seven : seen = 7 := returns 7 (by decide +kernel)
    have answer : (((Mtimer.init 2).after (pair 1) (.write 0 7 true)).bind
        fun s => (s.1.after (pair 1) (.read 0 true)).map Prod.snd) = some seen := by
      rw [stepped, bind_some, read]
      rfl
    rw [seven] at answer
    revert answer
    decide +kernel

end RiscvEmulators.Qemu.Aclint
