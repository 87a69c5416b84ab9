import Riscv.Spike.Reservation.System
import Riscv.Spike.Mmu.Protection

namespace RiscvEmulators.Spike.Reservation
open Word Transition Spike.Mmu BitVec Reservation.System

section
variable {hw : Hardware}

def StoreAligned (hw : Hardware) (m : Machine hw) : Prop :=
  ∀ slot, (m.tlbStore slot).tag = BitVec.allOnes 64 ∨ pageOffset (m.tlbStore slot).targetAddr = 0

theorem flushTlb_aligned (m : Machine hw) : StoreAligned hw m.flushTlb := fun _ => .inl rfl

theorem flushStlbPpn_aligned {m : Machine hw} (ha : StoreAligned hw m) (ppn : Reg) :
    StoreAligned hw (m.flushStlbPpn ppn) := by
  intro sl
  have hd : (m.flushStlbPpn ppn).tlbStore sl = m.tlbStore sl ∨
      ((m.flushStlbPpn ppn).tlbStore sl).tag = BitVec.allOnes 64 := flushTlbPpn_dropped ppn m.tlbStore m.storeTags sl
  rcases hd with hs | hg
  · rw [hs]
    exact ha sl
  · exact .inl hg

theorem checkTriggers_aligned {e : Bool} {a : TriggerMatch} : Keeps (StoreAligned hw) (checkTriggers e a) :=
  checkTriggers_keeps_of fun m _ => flushTlb_aligned m

theorem translateIn_aligned (inf : AccessInfo) (len : Nat) : Ensures (StoreAligned hw) (translateIn inf len)
    (fun paddr m => pageOffset paddr = pageOffset inf.transformedVaddr ∧ StoreAligned hw m) (StoreAligned hw) := by
  intro m ha
  unfold translateIn
  cases ho : translate hw m.regs inf len m.pages with
  | ok paddr ps => exact ⟨(translate_returns hw m.regs inf len m.pages paddr ps ho).2, ha⟩
  | error f ps => exact ha

theorem refillTlb_aligned {m : Machine hw} (ha : StoreAligned hw m) {va paddr : Reg}
    (hs : pageOffset paddr = pageOffset va) {ho : Reg} {ty : AccessType} :
    StoreAligned hw (m.refillTlb va paddr ho ty) := by
  unfold Machine.refillTlb
  dsimp only
  split
  · exact ha
  · cases ty with
    | load => exact ha
    | fetch => exact ha
    | store =>
      intro sl
      show (if sl = _ then _ else m.tlbStore sl : TlbEntry).tag = _ ∨
        pageOffset (if sl = _ then _ else _ : TlbEntry).targetAddr = 0
      split
      · right
        rw [paddr_sub_offset hs]
        apply eq_of_toNat_eq
        rw [pageOffset_toNat, pageBase_toNat]
        exact Nat.mul_mod_left _ _
      · exact ha sl

section
variable {len : Nat} {f : XlateFlags}

theorem locateLoad_aligned {inf : AccessInfo} (hs : pageOffset inf.transformedVaddr = pageOffset inf.vaddr) :
    Keeps (StoreAligned hw) (locateLoad len inf) := by
  refine Keeps.read fun m _ => Keeps.ite (fun _ => ?_) fun _ => Keeps.pure _
  refine Ensures.bind (translateIn_aligned inf len) fun paddr => ?_
  split
  case isTrue => exact Ensures.pure fun _ hd => hd.2
  case isFalse =>
    exact Ensures.bind (modifyMachine_ensures (StoreAligned hw) fun m hd =>
      refillTlb_aligned hd.2 (hd.1.trans hs)) fun _ => Keeps.pure _

theorem access_offset {r : Regs} {va : Reg} {ty : AccessType} :
    pageOffset (generateAccessInfo hw.isa r va ty f).transformedVaddr =
      pageOffset (generateAccessInfo hw.isa r va ty f).vaddr :=
  (transform_pageMap hw r ty f).offset va

theorem load_aligned {a : Reg} {fst snd : TriggerMatch} : Keeps (StoreAligned hw) (load a len f fst snd) :=
  load_keeps_of checkTriggers_aligned splits_any fun _ _ => locateLoad_aligned access_offset

theorem excludeFetches_aligned {m : Machine hw} (ha : StoreAligned hw m) {paddr : Reg} :
    StoreAligned hw (m.excludeFetches paddr) := by
  unfold Machine.excludeFetches
  split <;> exact ha

theorem locateStore_aligned {inf : AccessInfo} (hs : pageOffset inf.transformedVaddr = pageOffset inf.vaddr) :
    Keeps (StoreAligned hw) (locateStore len inf) := by
  refine Keeps.read fun m _ => Keeps.ite (fun _ => ?_) fun _ => Keeps.pure _
  refine Ensures.bind (translateIn_aligned inf len) fun paddr => ?_
  refine Ensures.bind (modifyMachine_ensures
    (fun m => pageOffset paddr = pageOffset inf.transformedVaddr ∧ StoreAligned hw m)
    fun m hd => ⟨hd.1, excludeFetches_aligned hd.2⟩) fun _ => ?_
  split
  case isTrue => exact Ensures.pure fun _ hd => hd.2
  case isFalse =>
    exact Ensures.bind (modifyMachine_ensures (StoreAligned hw) fun m hd =>
      refillTlb_aligned hd.2 (hd.1.trans hs)) fun _ => Keeps.pure _

theorem storeSlowPath_aligned {ad : Reg} {ast r : Bool} {a : TriggerMatch} :
    Keeps (StoreAligned hw) (storeSlowPath ad len f ast r a) :=
  storeSlowPath_keeps_of checkTriggers_aligned splits_any fun _ _ => locateStore_aligned access_offset

theorem misaligned_probe (a : Reg) {len : Nat} (hs : len = 4 ∨ len = 8) (hm : a &&& BitVec.ofNat 64 (len - 1) ≠ 0) :
    Returns (storeSlowPath a len .none false true .unmatched : Access hw Unit) fun _ => a.toNat % 4096 + len ≤ 4096 := by
  have hi : Within pageMask (BitVec.ofNat 64 (len - 1)) := by rcases hs with rfl | rfl <;> decide
  refine Returns.any.bind fun m _ => Returns.ite (fun hh => ?_) fun _ => Returns.any.bind fun _ _ => ?_
  · have hu : (a &&& BitVec.ofNat 64 (len - 1) == 0) = false := by simpa using hm
    simp only [hu, Bool.false_or, Bool.and_eq_true, decide_eq_true_eq] at hh
    exact Returns.pure hh.2.1
  · have hl : (generateAccessInfo hw.isa m.regs a .store .none).transformedVaddr &&& BitVec.ofNat 64 (len - 1) =
        a &&& BitVec.ofNat 64 (len - 1) := and_eq_of_within (access_offset) hi
    refine Returns.ite (fun ha => absurd (hl.symm.trans ha) hm) fun _ =>
      Returns.ite (fun _ => Returns.throw _) fun _ => ?_
    exact Returns.throw _

end

theorem hit_offset {m : Machine hw} (ha : StoreAligned hw m) {va : Reg} (hit : (accessTlb m.tlbStore va 0 0).hit) :
    pageOffset (accessTlb m.tlbStore va 0 0).paddr = pageOffset va := by
  have ht : (m.tlbStore ((va >>> 12).toNat % 256)).tag = va >>> 12 := by
    have hs : _ &&& (~~~(0 : Reg) ||| (0 : Reg)) = va >>> 12 ||| (0 : Reg) := eq_of_beq hit
    rw [show ~~~(0 : Reg) ||| (0 : Reg) = BitVec.allOnes 64 by decide, and_allOnes] at hs
    rw [hs]
    exact or_zero
  rcases ha ((va >>> 12).toNat % 256) with hi | hb
  · rw [hi] at ht
    have hh := congrArg (BitVec.getLsbD · 63) ht
    simp at hh
  · have hv := congrArg BitVec.toNat hb
    rw [pageOffset_toNat] at hv
    apply eq_of_toNat_eq
    show (pageOffset (_ + pageOffset va)).toNat = _
    rw [pageOffset_toNat, toNat_add, pageOffset_toNat]
    change _ = 0 at hv
    omega

theorem ne_allOnes_of_offset {paddr va : Reg} (hs : pageOffset paddr = pageOffset va)
    (hl : va.toNat % 4096 < 4095) : paddr ≠ BitVec.allOnes 64 := by
  rintro rfl
  have hv := congrArg BitVec.toNat hs
  rw [pageOffset_toNat, pageOffset_toNat] at hv
  have ht : (BitVec.allOnes 64).toNat % 4096 = 4095 := by decide
  omega

end

section
variable {ι : Type}

/-- The last actions are of `h` alone, back to the reservation it made at an address. -/
def Reserves (h : ι) (paddr : Reg) : List (ι × Action) → Prop
  | [] => False
  | (k, action) :: rest => k = h ∧ match action with
    | .reserved other => other = paddr
    | _ => Reserves h paddr rest

def Justified : List (ι × Action) → Prop
  | [] => True
  | (h, action) :: rest => Justified rest ∧ match action with
    | .succeeded paddr => Reserves h paddr rest
    | _ => True

end

section
variable {ι α : Type} [DecidableEq ι] {hw : ι → Hardware}

structure Exclusive (h : ι) (sys : System hw) : Prop where
  aligned : ∀ k, StoreAligned (hw k) (sys.harts k).machine
  others : ∀ k, k ≠ h → (sys.harts k).loadReservationAddress = BitVec.allOnes 64
  own : (sys.harts h).loadReservationAddress = BitVec.allOnes 64 ∨
    Reserves h (sys.harts h).loadReservationAddress sys.log
  justified : Justified sys.log

variable {h : ι} {sys : System hw}

theorem Exclusive.set (exclusive : Exclusive h sys) {k : ι} {hart : Hart (hw k)}
    (aligned : StoreAligned (hw k) hart.machine)
    (reservation : hart.loadReservationAddress = (sys.harts k).loadReservationAddress ∨
      hart.loadReservationAddress = BitVec.allOnes 64) : Exclusive h (sys.set k hart) where
  aligned j := by
    by_cases same : j = k
    · subst same
      rw [set_same]
      exact aligned
    · rw [set_other same]
      exact exclusive.aligned j
  others j apart := by
    by_cases same : j = k
    · subst same
      rw [set_same]
      rcases reservation with kept | gone
      · rw [kept]
        exact exclusive.others j apart
      · exact gone
    · rw [set_other same]
      exact exclusive.others j apart
  own := by
    by_cases same : h = k
    · subst same
      rw [set_same]
      rcases reservation with kept | gone
      · rw [kept]
        exact exclusive.own
      · exact .inl gone
    · rw [set_other same]
      exact exclusive.own
  justified := exclusive.justified

omit [DecidableEq ι] in
theorem Exclusive.began (exclusive : Exclusive h sys) (instruction : Instruction) :
    Exclusive h (sys.note h (.began instruction)) where
  aligned := exclusive.aligned
  others := exclusive.others
  own := exclusive.own.imp id fun reserves => ⟨rfl, reserves⟩
  justified := ⟨exclusive.justified, True.intro⟩

theorem Exclusive.reserve (he : Exclusive h sys) (paddr : Reg) : Exclusive h (sys.reserve h paddr) where
  aligned k := by
    show StoreAligned (hw k) ((sys.set h _).harts k).machine
    by_cases hs : k = h
    · subst hs
      rw [set_same]
      exact he.aligned k
    · rw [set_other hs]
      exact he.aligned k
  others k apart := by
    show ((sys.set h _).harts k).loadReservationAddress = _
    rw [set_other apart]
    exact he.others k apart
  own := by
    show _ ∨ Reserves h ((sys.set h _).harts h).loadReservationAddress _
    rw [set_same]
    exact .inr ⟨rfl, rfl⟩
  justified := ⟨he.justified, True.intro⟩

theorem Exclusive.yield (he : Exclusive h sys) {k : ι} : Exclusive h (sys.yieldLoadReservation k) :=
  he.set (he.aligned k) (.inr rfl)

theorem Exclusive.succeed (he : Exclusive h sys) {paddr : Reg} (hr : Reserves h paddr sys.log) :
    Exclusive h ((sys.yieldLoadReservation h).note h (.succeeded paddr)) where
  aligned := (he.yield).aligned
  others := (he.yield).others
  own := by
    left
    show ((sys.set h _).harts h).loadReservationAddress = _
    rw [set_same]
  justified := ⟨he.justified, hr⟩

theorem onHart_ensures {ac : Access (hw h) α} {re : α → Prop} (log : List (ι × Action) → Prop)
    (ensures : Ensures (StoreAligned (hw h)) ac (fun r m => re r ∧ StoreAligned (hw h) m) (StoreAligned (hw h))) :
    Ensures (fun sys => log sys.log ∧ Exclusive h sys) (onHart h ac : SystemAccess hw α)
      (fun r sys => re r ∧ log sys.log ∧ Exclusive h sys) (Exclusive h) := by
  rintro sys ⟨hh, he⟩
  have hr := ensures (sys.harts h).machine (he.aligned h)
  unfold onHart
  cases ho : ac (sys.harts h).machine with
  | ok r m =>
    rw [ho] at hr
    exact ⟨hr.1, hh, he.set hr.2 (.inl rfl)⟩
  | error f m =>
    rw [ho] at hr
    exact he.set hr (.inl rfl)

theorem onHart_exclusive {ac : Access (hw h) α} (hk : Keeps (StoreAligned (hw h)) ac) :
    Keeps (Exclusive h) (onHart h ac : SystemAccess hw α) := by
  intro sys he
  have hr := onHart_ensures (fun _ => True) (hk.returning Returns.any) sys ⟨True.intro, he⟩
  cases ho : (onHart h ac : SystemAccess hw α) sys with
  | ok r a =>
    rw [ho] at hr
    exact hr.2.2
  | error f a =>
    rw [ho] at hr
    exact hr

theorem loadReserved_exclusive {a : Reg} {len : Nat} {fst snd : TriggerMatch} :
    Keeps (Exclusive h) (loadReserved h a len fst snd : SystemAccess hw Unit) := by
  have hi {inf : AccessInfo} (hs : pageOffset inf.transformedVaddr = pageOffset inf.vaddr) :
      Keeps (Exclusive h) (loadReservedIntrapage h len inf : SystemAccess hw Unit) :=
    (onHart_exclusive (locateLoad_aligned hs)).bind fun p => Keeps.ite (fun _ => Keeps.throw _) fun _ =>
      (onHart_exclusive performIntrapageLoad_keeps).bind fun _ =>
        fun _ he => he.reserve p.paddr
  exact Keeps.read fun _ _ => (onHart_exclusive (checkTriggers_aligned)).bind fun _ =>
    Keeps.ite (fun _ => (hi (access_offset)).bind fun _ => onHart_exclusive (checkTriggers_aligned))
      fun _ => Keeps.ite (fun _ => Keeps.throw _) fun _ => Keeps.throw _

theorem reservationPaddr_ensures {va : Reg} : Ensures (Exclusive h) (reservationPaddr h va : SystemAccess hw Reg)
    (fun paddr sys => pageOffset paddr = pageOffset va ∧ Exclusive h sys) (Exclusive h) := by
  refine Ensures.read fun sys he => ?_
  dsimp only
  split
  case isTrue hh =>
    rintro _ rfl
    exact ⟨hit_offset (he.aligned h) hh, he⟩
  case isFalse =>
    rintro s rfl
    have hr := onHart_ensures (fun _ => True) (translateIn_aligned (generateAccessInfo (hw h).isa
      (s.harts h).machine.regs va .store .none) 1) s ⟨True.intro, he⟩
    cases ho : (onHart h (translateIn (generateAccessInfo (hw h).isa (s.harts h).machine.regs va .store
        .none) 1) : SystemAccess hw Reg) s with
    | ok paddr a =>
      rw [ho] at hr
      exact ⟨hr.1.trans (access_offset), hr.2.2⟩
    | error f a =>
      rw [ho] at hr
      exact hr

theorem probeMisaligned_ensures {va : Reg} {w : Width} :
    Ensures (Exclusive h) (probeMisaligned h va w.bytes : SystemAccess hw Unit)
      (fun _ sys => va.toNat % 4096 < 4095 ∧ Exclusive h sys) (Exclusive h) := by
  have hs : w.bytes = 4 ∨ w.bytes = 8 := by cases w <;> simp [Width.bytes]
  unfold probeMisaligned
  split
  case isTrue hm =>
    intro sys he
    have hr := onHart_ensures (fun _ => True)
      (storeSlowPath_aligned.returning (misaligned_probe va hs hm)) sys ⟨True.intro, he⟩
    cases ho : (onHart h (storeSlowPath va w.bytes .none false true .unmatched) : SystemAccess hw Unit) sys with
    | ok r a =>
      rw [ho] at hr
      exact ⟨by omega, hr.2.2⟩
    | error f a =>
      rw [ho] at hr
      exact hr
  case isFalse ha =>
    intro sys he
    refine ⟨?_, he⟩
    have even : (va &&& BitVec.ofNat 64 (w.bytes - 1)).getLsbD 0 = false := by
      rw [Decidable.not_not.mp ha]
      rfl
    have odd : (BitVec.ofNat 64 (w.bytes - 1)).getLsbD 0 := by rcases hs with same | same <;> rw [same] <;> rfl
    rw [getLsbD_and, odd, Bool.and_true, ← testBit_toNat, Nat.testBit_zero, decide_eq_false_iff_not] at even
    omega

theorem checkLoadReservation_ensures {va : Reg} {w : Width} :
    Ensures (Exclusive h) (checkLoadReservation h va w.bytes : SystemAccess hw (Bool × Reg))
      (fun c sys => (c.1 → Reserves h c.2 sys.log) ∧ Exclusive h sys) (Exclusive h) := by
  refine Ensures.bind (probeMisaligned_ensures) fun _ => Ensures.assume fun hl => ?_
  refine Ensures.bind (reservationPaddr_ensures) fun paddr => Ensures.assume fun hs => ?_
  refine Ensures.read fun sys he => ?_
  split
  case isTrue =>
    rintro s rfl
    refine ⟨fun hf => ?_, he⟩
    have hh : (s.harts h).loadReservationAddress = paddr := eq_of_beq hf
    rcases he.own with hn | hr
    · exact absurd (hh.symm.trans hn) (ne_allOnes_of_offset hs hl)
    · rw [hh] at hr
      exact hr
  case isFalse =>
    rintro _ rfl
    exact he

theorem storeConditional_exclusive {ad : Reg} {w : Width} {a : TriggerMatch} :
    Keeps (Exclusive h) (storeConditional h ad w.bytes a : SystemAccess hw Bool) := by
  refine Ensures.bind (checkLoadReservation_ensures) fun c => ?_
  split
  case isTrue hf =>
    have hs : Ensures (fun sys => (c.1 → Reserves h c.2 sys.log) ∧ Exclusive h sys)
        (onHart h (store ad w.bytes .none a) : SystemAccess hw Unit) _ _ :=
      onHart_ensures (fun log => c.1 → Reserves h c.2 log)
        ((store_keeps_of storeSlowPath_aligned).returning Returns.any)
    have hn : Ensures (fun sys => True ∧ (c.1 → Reserves h c.2 sys.log) ∧ Exclusive h sys)
        (modify fun sys => (sys.yieldLoadReservation h).note h (.succeeded c.2) : SystemAccess hw Unit)
        (fun _ => Exclusive h) (Exclusive h) :=
      fun sys hh => hh.2.2.succeed (hh.2.1 hf)
    exact hs.bind fun _ => hn.bind fun _ => Keeps.pure _
  case isFalse =>
    have hy : Ensures (fun sys => (c.1 → Reserves h c.2 sys.log) ∧ Exclusive h sys)
        (modify (·.yieldLoadReservation h) : SystemAccess hw Unit) (fun _ => Exclusive h) (Exclusive h) :=
      fun sys hh => hh.2.yield
    exact hy.bind fun _ => Keeps.pure _

theorem execute_exclusive {i : Instruction} : Keeps (Exclusive h) (execute h i : SystemAccess hw Unit) := by
  cases i with
  | store k ad lg a => exact onHart_exclusive (store_keeps_of storeSlowPath_aligned)
  | amo k ad lg wr fst snd a =>
    exact (onHart_exclusive storeSlowPath_aligned).bind fun _ =>
      (onHart_exclusive (load_aligned)).bind fun _ =>
        Keeps.ite (fun _ => onHart_exclusive (store_keeps_of storeSlowPath_aligned)) fun _ => Keeps.pure _
  | loadReserved ad w fst snd => exact loadReserved_exclusive
  | storeConditional ad w a => exact (storeConditional_exclusive).bind fun _ => Keeps.pure _
  | other => exact Keeps.pure _

omit [DecidableEq ι] in
theorem apply_kept {k : ι} (effects : List (Effect (hw k))) (hart : Hart (hw k))
    (aligned : StoreAligned (hw k) hart.machine) :
    StoreAligned (hw k) (effects.foldl Effect.apply hart).machine ∧
      (effects.foldl Effect.apply hart).loadReservationAddress = hart.loadReservationAddress := by
  induction effects generalizing hart with
  | nil => exact ⟨aligned, rfl⟩
  | cons effect effects ih =>
    cases effect with
    | proceed m => exact ih _ aligned
    | flushTlb => exact ih _ (flushTlb_aligned hart.machine)
    | flushStlbPpn ppn => exact ih _ (flushStlbPpn_aligned aligned ppn)

omit [DecidableEq ι] in
theorem Exclusive.disturb (exclusive : Exclusive h sys) (effects : (k : ι) → List (Effect (hw k))) :
    Exclusive h (sys.disturb effects) := by
  have kept (k : ι) := apply_kept (effects k) (sys.harts k) (exclusive.aligned k)
  constructor
  · exact fun k => (kept k).1
  · exact fun k apart => (kept k).2.trans (exclusive.others k apart)
  · have same : ((sys.disturb effects).harts h).loadReservationAddress = (sys.harts h).loadReservationAddress := (kept h).2
    rw [same]
    exact exclusive.own
  · exact exclusive.justified

theorem perform_exclusive (he : Exclusive h sys) {i : Issue hw} : Exclusive h (sys.perform h i) :=
  ((execute_exclusive).finalState (he.began i.instruction)).disturb i.effects

theorem batch_exclusive (he : Exclusive h sys) (b : List (Issue hw)) : Exclusive h (b.foldl (perform h) sys) := by
  induction b generalizing sys with
  | nil => exact he
  | cons i b ih => exact ih (perform_exclusive he)

theorem Exclusive.switch (he : Exclusive h sys) (nx : ι) : Exclusive nx (sys.yieldLoadReservation h) := by
  have hn (k : ι) : ((sys.yieldLoadReservation h).harts k).loadReservationAddress = BitVec.allOnes 64 := by
    by_cases hs : k = h
    · subst hs
      unfold yieldLoadReservation
      rw [set_same]
    · exact (he.yield).others k hs
  exact ⟨(he.yield).aligned, fun k _ => hn k, .inl (hn nx), he.justified⟩

end

section
variable {c : Nat} {hw : Fin c → Hardware} {sim : Sim hw}

def SimExclusive (sim : Sim hw) : Prop := Exclusive sim.currentProc sim.system

theorem turn_exclusive (he : SimExclusive sim) (s : Nat) (b : List (Issue hw)) : SimExclusive (sim.turn s b) := by
  have hr := batch_exclusive he b
  unfold Sim.turn
  split
  · exact hr.switch _
  · exact hr

theorem stepLoop_exclusive (he : SimExclusive sim) (n : Nat) (b : List (List (Issue hw))) :
    SimExclusive (sim.stepLoop n b) := by
  induction b generalizing sim n with
  | nil => exact he
  | cons ba b ih =>
    unfold Sim.stepLoop
    split
    · exact he
    · exact ih (turn_exclusive he _ ba) _

theorem step_exclusive (sim : Sim hw) (ca : Sim.Call hw) (he : SimExclusive sim) : SimExclusive (sim.step ca) :=
  stepLoop_exclusive he ca.n ca.batches

theorem initial_exclusive {m : (h : Fin c) → Machine (hw h)} (hf : 0 < c) : SimExclusive (Sim.initial m hf) :=
  ⟨fun k => flushTlb_aligned (m k), fun _ _ => rfl, .inl rfl, True.intro⟩

end

section
variable {ι : Type} {h : ι} {paddr o : Reg} {earlier : List (ι × Action)}

theorem Justified.reserves {l : List (ι × Action)}
    (hj : Justified (l ++ (h, .succeeded paddr) :: earlier)) : Reserves h paddr earlier := by
  induction l with
  | nil => exact hj.2
  | cons e l ih => exact ih hj.1

theorem Reserves.exists_reserved (hr : Reserves h paddr earlier) :
    ∃ b before, earlier = b ++ (h, .reserved paddr) :: before := by
  induction earlier with
  | nil => exact hr.elim
  | cons e r ih =>
    obtain ⟨k, ac⟩ := e
    obtain ⟨rfl, hm⟩ := hr
    cases ac with
    | reserved a =>
      have hs : a = paddr := hm
      exact ⟨[], r, by rw [hs]; rfl⟩
    | began i =>
      obtain ⟨b, before, rfl⟩ := ih hm
      exact ⟨(k, .began i) :: b, before, rfl⟩
    | succeeded a =>
      obtain ⟨b, before, rfl⟩ := ih hm
      exact ⟨(k, .succeeded a) :: b, before, rfl⟩

theorem Reserves.last {between b : List (ι × Action)} (hr : Reserves h paddr (between ++ (h, .reserved o) :: b))
    (last : ∀ a, (h, Action.reserved a) ∉ between) : o = paddr ∧ ∀ e ∈ between, e.1 = h := by
  induction between with
  | nil => exact ⟨hr.2, nofun⟩
  | cons e between ih =>
    obtain ⟨k, ac⟩ := e
    obtain ⟨rfl, match'⟩ := hr
    have none (a : Reg) : (k, Action.reserved a) ∉ between :=
      fun hm => last a (List.mem_cons_of_mem _ hm)
    have ht : o = paddr ∧ ∀ e ∈ between, e.1 = k := by
      cases ac with
      | reserved a => exact absurd (List.mem_cons_self) (last a)
      | began i => exact ih match' none
      | succeeded a => exact ih match' none
    refine ⟨ht.1, fun e hm => ?_⟩
    rcases List.mem_cons.mp hm with rfl | hm
    · rfl
    · exact ht.2 e hm

end

/-- In every run of the scheduler, a store-conditional that succeeds was preceded by a load-reserved of the same hart at the
  same physical address, and since the last load-reserved of the hart no other hart has done anything. -/
theorem reservation_excludes {count : Nat} {hw : Fin count → Hardware} (machines : (hart : Fin count) → Machine (hw hart))
    (first : 0 < count) (calls : List (Sim.Call hw)) (hart : Fin count) (paddr : Reg)
    (later earlier : List (Fin count × Action)) (succeeds : (run Sim.step (Sim.initial machines first) calls).system.log =
      later ++ (hart, .succeeded paddr) :: earlier) :
    (∃ between before, earlier = between ++ (hart, .reserved paddr) :: before) ∧
    ∀ (between before : List (Fin count × Action)) (reserved : Reg),
      earlier = between ++ (hart, .reserved reserved) :: before → (∀ address, (hart, Action.reserved address) ∉ between) →
      reserved = paddr ∧ ∀ entry ∈ between, entry.1 = hart := by
  have exclusive : SimExclusive (run Sim.step (Sim.initial machines first) calls) :=
    run_invariant step_exclusive (initial_exclusive first)
  have justified := exclusive.justified
  rw [succeeds] at justified
  have reserves := justified.reserves
  refine ⟨reserves.exists_reserved, fun between before reserved split last => ?_⟩
  rw [split] at reserves
  exact reserves.last last

def pairedCall : Sim.Call (fun _ : Fin 2 => maskingHart) where
  n := 2
  batches := [[⟨.loadReserved 0x80001000 .word .unmatched .unmatched, fun _ => []⟩,
    ⟨.storeConditional 0x80001000 .word .unmatched, fun _ => []⟩]]

theorem paired_call_excludes :
    (run Sim.step (Sim.initial (fun _ => clearMachine) (by decide)) [pairedCall]).system.log =
      [(0, .succeeded 0x80001000), (0, .began (.storeConditional 0x80001000 .word .unmatched)), (0, .reserved 0x80001000),
        (0, .began (.loadReserved 0x80001000 .word .unmatched .unmatched))] ∧
    ∃ between before, [((0 : Fin 2), Action.began (.storeConditional 0x80001000 .word .unmatched)),
      (0, .reserved 0x80001000), (0, .began (.loadReserved 0x80001000 .word .unmatched .unmatched))] =
        between ++ (0, .reserved 0x80001000) :: before :=
  ⟨rfl, (reservation_excludes (fun _ => clearMachine) (by decide) [pairedCall] 0 0x80001000 [] _ rfl).1⟩

end RiscvEmulators.Spike.Reservation
