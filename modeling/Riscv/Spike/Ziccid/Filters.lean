import Riscv.Spike.Mmu.Protection

namespace RiscvEmulators.Spike.Ziccid
open Word Transition Spike.Mmu BitVec ReverseTags

/-- An entry of the instruction cache. Its parcels are aligned, so each lies in one physical page. The source does not
  keep the pages: they are what the statements are about. -/
structure IcacheEntry where
  tag : Reg
  pages : List Reg

structure Hart (hw : Hardware) where
  machine : Machine hw
  icache : Nat → IcacheEntry

namespace Hart
variable {hw : Hardware}

def flushIcache (hart : Hart hw) : Hart hw :=
  { hart with icache := fun slot => { hart.icache slot with tag := BitVec.allOnes 64 } }

def flushTlb (hart : Hart hw) : Hart hw := flushIcache { hart with machine := hart.machine.flushTlb }
def flushStlbPpn (hart : Hart hw) (ppn : Reg) : Hart hw := { hart with machine := hart.machine.flushStlbPpn ppn }

def flushItlbPpn (hart : Hart hw) (ppn : Reg) : Hart hw :=
  let flushed := { hart with machine := hart.machine.flushItlbPpn ppn }
  if hart.machine.insnTags.contains ppn then flushed.flushIcache else flushed

def reset (m : Machine hw) : Hart hw where
  machine := { m.flushTlb with storeTags := fun _ => false, insnTags := fun _ => false }
  icache := fun _ => ⟨BitVec.allOnes 64, []⟩

def icacheIndex (addr : Reg) : Nat := (addr.toNat / 2) % 4096

def putIcache (hart : Hart hw) (addr : Reg) (pages : List Reg) (interested : Bool) : Hart hw :=
  let checkTracer := (accessTlb hart.machine.tlbInsn addr tlbFlags tlbCheckTracer).hit
  let tag := if checkTracer && interested then BitVec.allOnes 64 else addr
  { hart with icache := fun slot => if slot = icacheIndex addr then ⟨tag, pages⟩ else hart.icache slot }

def proceed (hart : Hart hw) (m : Machine hw) : Hart hw :=
  { hart with
    machine :=
      { m with
        tlbStore := hart.machine.tlbStore
        tlbInsn := hart.machine.tlbInsn
        storeTags := hart.machine.storeTags
        insnTags := hart.machine.insnTags } }

end Hart

abbrev System {ι : Type} (hw : ι → Hardware) := (h : ι) → Hart (hw h)
abbrev SystemAccess {ι : Type} (hw : ι → Hardware) := EStateM Failure (System hw)

namespace System
variable {ι α : Type} [DecidableEq ι] {hw : ι → Hardware}

def set (sys : System hw) (h : ι) (hart : Hart (hw h)) : System hw := Function.update sys h hart
def modifyHart (h : ι) (f : Hart (hw h) → Hart (hw h)) : SystemAccess hw Unit := fun sys => .ok () (sys.set h (f (sys h)))

def onHart (h : ι) (access : Access (hw h) α) : SystemAccess hw α := fun sys =>
  match access (sys h).machine with
  | .ok result m => .ok result (sys.set h { sys h with machine := m })
  | .error failure m => .error failure (sys.set h { sys h with machine := m })

def checkTriggers (h : ι) (enabled : Bool) (answer : TriggerMatch) : SystemAccess hw Unit := fun sys =>
  if !enabled || (sys h).machine.matchedTrigger then .ok () sys
  else match answer with
    | .unmatched => .ok () sys
    | .before => .error .trigger sys
    | .after =>
      let flushed := (sys h).flushTlb
      .ok () (sys.set h { flushed with machine := { flushed.machine with matchedTrigger := true } })

def excludeStores (h : ι) (paddr : Reg) : SystemAccess hw Unit := fun sys =>
  if (hw h).extZiccid then
    let flushed : System hw := fun k => (sys k).flushStlbPpn (paddr >>> 12)
    let m := (flushed h).machine
    .ok () (flushed.set h { flushed h with machine := { m with insnTags := m.insnTags.insert (paddr >>> 12) } })
  else .ok () sys

def locateFetch (h : ι) (info : AccessInfo) (answer : TlbAnswer) : SystemAccess hw Location :=
  if answer.hit then pure answer.location
  else do
    let paddr ← onHart h (translateIn info 2)
    excludeStores h paddr
    onHart h (modifyMachine (·.refillTlb info.vaddr paddr ((hw h).addrToMem paddr) .fetch))
    pure ⟨(hw h).addrToMem paddr, paddr⟩

def fetchSlowPath (h : ι) (vaddr : Reg) (first second : TriggerMatch) : SystemAccess hw Reg := do
  let sys ← get
  let m := (sys h).machine
  let answer := accessTlb m.tlbInsn vaddr (tlbFlags &&& ~~~tlbCheckTriggers) 0
  if m.matchedTrigger then do
    onHart h (modifyMachine ({ · with matchedTrigger := false }))
    throw .trigger
  else if answer.hit then do
    onHart h (performIntrapageFetch vaddr answer.location)
    pure answer.paddr
  else do
    checkTriggers h m.checkTriggersFetch first
    let place ← locateFetch h (generateAccessInfo (hw h).isa m.regs vaddr .fetch .none)
      (accessTlb m.tlbInsn vaddr tlbFlags 0)
    onHart h (performIntrapageFetch vaddr place)
    checkTriggers h m.checkTriggersFetch second
    pure place.paddr

def fetchInsnParcel (h : ι) (vaddr : Reg) (first second : TriggerMatch) : SystemAccess hw Reg := do
  let sys ← get
  let answer := accessTlb (sys h).machine.tlbInsn vaddr 0 0
  if answer.hit then pure answer.paddr else fetchSlowPath h vaddr first second

abbrev ParcelTriggers := TriggerMatch × TriggerMatch

/-- The loop of `refill_icache`, with the pages of the parcels. How many there are is up to the bits that are read. -/
def fetchParcels (h : ι) (addr : Reg) : List ParcelTriggers → SystemAccess hw (List Reg)
  | [] => pure []
  | parcel :: parcels => do
    let paddr ← fetchInsnParcel h addr parcel.1 parcel.2
    let pages ← fetchParcels h (addr + 2) parcels
    pure (paddr >>> 12 :: pages)

def refillIcache (h : ι) (addr : Reg) (parcels : List ParcelTriggers) (interested : Bool) : SystemAccess hw Unit := do
  let pages ← fetchParcels h addr parcels
  modifyHart h (·.putIcache addr pages interested)

def excludeFetches (h : ι) (paddr : Reg) : SystemAccess hw Unit := fun sys =>
  if (hw h).extZiccid then
    let flushed : System hw := fun k => (sys k).flushItlbPpn (paddr >>> 12)
    let m := (flushed h).machine
    .ok () (flushed.set h { flushed h with machine := { m with storeTags := m.storeTags.insert (paddr >>> 12) } })
  else .ok () sys

def locateStore (h : ι) (len : Nat) (info : AccessInfo) : SystemAccess hw Location := do
  let sys ← get
  let answer := accessTlb (sys h).machine.tlbStore info.vaddr tlbFlags 0
  if !answer.hit || info.flags.isSpecialAccess then do
    let paddr ← onHart h (translateIn info len)
    excludeFetches h paddr
    if info.flags.isSpecialAccess then pure ⟨(hw h).addrToMem paddr, paddr⟩
    else do
      onHart h (modifyMachine (·.refillTlb info.vaddr paddr ((hw h).addrToMem paddr) .store))
      pure ⟨(hw h).addrToMem paddr, paddr⟩
  else pure answer.location

def storeSlowPathIntrapage (h : ι) (len : Nat) (info : AccessInfo) (actuallyStore : Bool) : SystemAccess hw Unit := do
  let place ← locateStore h len info
  if actuallyStore then onHart h (performIntrapageStore info.vaddr place len info.flags) else pure ()

end System

inductive Event {ι : Type} (hw : ι → Hardware) where
  | refillIcache (h : ι) (addr : Reg) (parcels : List System.ParcelTriggers) (interested : Bool)
  | fetchSlowPath (h : ι) (vaddr : Reg) (first second : TriggerMatch)
  | storeSlowPathIntrapage (h : ι) (vaddr : Reg) (len : Nat) (flags : XlateFlags) (actuallyStore : Bool)
  | flushTlb (h : ι)
  | flushIcache (h : ι)
  | flushItlbPpn (h : ι) (ppn : Reg)
  | flushStlbPpn (h : ι) (ppn : Reg)
  | proceed (h : ι) (m : Machine (hw h))

section
variable {ι : Type} [DecidableEq ι] {hw : ι → Hardware}

def Event.access (sys : System hw) : Event hw → SystemAccess hw Unit
  | .refillIcache h addr parcels interested => System.refillIcache h addr parcels interested
  | .fetchSlowPath h vaddr first second => do
    let _ ← System.fetchSlowPath h vaddr first second
  | .storeSlowPathIntrapage h vaddr len flags actuallyStore =>
    System.storeSlowPathIntrapage h len (generateAccessInfo (hw h).isa (sys h).machine.regs vaddr .store flags) actuallyStore
  | .flushTlb h => System.modifyHart h Hart.flushTlb
  | .flushIcache h => System.modifyHart h Hart.flushIcache
  | .flushItlbPpn h ppn => System.modifyHart h (·.flushItlbPpn ppn)
  | .flushStlbPpn h ppn => System.modifyHart h (·.flushStlbPpn ppn)
  | .proceed h m => System.modifyHart h (·.proceed m)

def step (sys : System hw) (event : Event hw) : System hw := finalState (event.access sys sys)

end

theorem contains_insert_self (tags : ReverseTags) (v : Reg) : (tags.insert v).contains v := by
  rw [contains, List.all_eq_true]
  intro i hi
  have hc : (List.range 3).any (slot v · == slot v i) :=
    List.any_eq_true.mpr ⟨i, hi, beq_self_eq_true _⟩
  rw [ReverseTags.insert, hc, Bool.or_true]

theorem contains_insert {tags : ReverseTags} {v : Reg} (o : Reg) (hc : tags.contains v) :
    (tags.insert o).contains v := by
  rw [contains, List.all_eq_true] at hc ⊢
  intro i hi
  rw [ReverseTags.insert, hc i hi, Bool.true_or]

theorem collected_contains (ps : Nat → Reg) (sk : Nat → Prop) [DecidablePred sk] (s : List Nat) (tags : ReverseTags) :
    let c := s.foldl (fun tags sl => if sk sl then tags else tags.insert (ps sl)) tags
    (∀ v, tags.contains v → c.contains v) ∧ ∀ sl ∈ s, ¬sk sl → c.contains (ps sl) := by
  induction s generalizing tags with
  | nil => exact ⟨fun _ hc => hc, fun _ hm => absurd hm List.not_mem_nil⟩
  | cons he s ih =>
    obtain ⟨hk, ha⟩ := ih (if sk he then tags else tags.insert (ps he))
    constructor
    · intro v hc
      apply hk
      split
      · exact hc
      · exact contains_insert _ hc
    · intro sl hm ht
      rcases List.mem_cons.mp hm with rfl | hm
      · apply hk
        rw [if_neg ht]
        exact contains_insert_self tags (ps sl)
      · exact ha sl hm ht

section

def Holds (tlb : Nat → TlbEntry) (page : Reg) : Prop :=
  ∃ slot, slot < 256 ∧ (tlb slot).tag ≠ BitVec.allOnes 64 ∧ (tlb slot).targetAddr >>> 12 = page

def Tagged (tlb : Nat → TlbEntry) (tags : ReverseTags) : Prop :=
  ∀ slot < 256, (tlb slot).tag ≠ BitVec.allOnes 64 →
    pageBase (tlb slot).targetAddr = (tlb slot).targetAddr ∧ tags.contains ((tlb slot).targetAddr >>> 12)

variable {tlb : Nat → TlbEntry} {tags : ReverseTags}

theorem Tagged.contains (ht : Tagged tlb tags) {page : Reg} (hh : Holds tlb page) : tags.contains page := by
  obtain ⟨sl, hb, hv, rfl⟩ := hh
  exact (ht sl hb hv).2

theorem Tagged.insert (ht : Tagged tlb tags) (p : Reg) : Tagged tlb (tags.insert p) := by
  intro sl hb hv
  have he := ht sl hb hv
  exact ⟨he.1, contains_insert p he.2⟩

theorem holds_invalid (page : Reg) : ¬Holds (fun _ => .invalid) page := by
  rintro ⟨slot, -, h, -⟩
  exact h rfl

theorem tagged_invalid (tags : ReverseTags) : Tagged (fun _ => .invalid) tags := by
  intro slot _ h
  exact absurd rfl h

theorem flushTlbPpn_holds (ht : Tagged tlb tags) {ppn p : Reg} (hh : Holds (flushTlbPpn ppn tlb tags).1 p) :
    Holds tlb p ∧ p ≠ ppn := by
  unfold flushTlbPpn at hh
  cases hc : tags.contains ppn with
  | false =>
    rw [hc] at hh
    refine ⟨hh, ?_⟩
    rintro rfl
    have hf := ht.contains hh
    rw [hc] at hf
    cases hf
  | true =>
    rw [hc] at hh
    obtain ⟨sl, hb, hv, hl⟩ := hh
    by_cases hd : (tlb sl).targetAddr >>> 12 = ppn
    · simp [hd] at hv
    · simp only [Bool.not_true, Bool.false_eq_true, if_false, hd] at hv hl
      refine ⟨⟨sl, hb, hv, hl⟩, ?_⟩
      rintro rfl
      exact hd hl

theorem flushTlbPpn_tagged (ht : Tagged tlb tags) {ppn : Reg} :
    Tagged (flushTlbPpn ppn tlb tags).1 (flushTlbPpn ppn tlb tags).2 := by
  unfold flushTlbPpn
  cases hc : tags.contains ppn with
  | false => exact ht
  | true =>
    intro sl hb hv
    by_cases hd : (tlb sl).targetAddr >>> 12 = ppn
    · simp [hd] at hv
    · simp only [Bool.not_true, Bool.false_eq_true, if_false, hd] at hv ⊢
      refine ⟨(ht sl hb hv).1, ?_⟩
      exact (collected_contains _ _ _ _).2 sl (List.mem_range.mpr hb) (not_or.mpr ⟨hd, hv⟩)

theorem holds_put {e : TlbEntry} {idx : Nat} {p : Reg} (holds : Holds (fun sl => if sl = idx then e else tlb sl) p) :
    Holds tlb p ∨ p = e.targetAddr >>> 12 := by
  obtain ⟨sl, hb, hv, hl⟩ := holds
  dsimp only at hv hl
  by_cases hh : sl = idx
  · rw [if_pos hh] at hl
    exact .inr hl.symm
  · rw [if_neg hh] at hv hl
    exact .inl ⟨sl, hb, hv, hl⟩

theorem Tagged.put (ht : Tagged tlb tags) {e : TlbEntry} (idx : Nat) (ha : pageBase e.targetAddr = e.targetAddr)
    (hc : tags.contains (e.targetAddr >>> 12)) : Tagged (fun sl => if sl = idx then e else tlb sl) tags := by
  intro sl hb hv
  dsimp only at hv ⊢
  by_cases hh : sl = idx
  · rw [if_pos hh]
    exact ⟨ha, hc⟩
  · rw [if_neg hh] at hv ⊢
    exact ht sl hb hv

theorem byte_page {t v : Reg} (ha : pageBase t = t) {i : Nat}
    (hi : v.toNat % 4096 + i < 4096) : (t + pageOffset v + BitVec.ofNat 64 i) >>> 12 = t >>> 12 := by
  have hb := congrArg BitVec.toNat ha
  rw [pageBase_toNat] at hb
  apply eq_of_toNat_eq
  simp only [toNat_ushiftRight, toNat_add, toNat_ofNat, pageOffset_toNat]
  omega

section
variable {va a required : Reg} (al : Within tlbFlags a) (r : Within tlbFlags required)
include al r

theorem hit_valid (hh : (accessTlb tlb va a required).hit) :
    (tlb ((va >>> 12).toNat % 256)).tag ≠ BitVec.allOnes 64 := by
  have hm : (tlb ((va >>> 12).toNat % 256)).tag &&& (~~~a ||| required) = va >>> 12 ||| required :=
    beq_iff_eq.mp hh
  intro hi
  have hb := tag_hit_low al r hm (show 60 < 61 by decide)
  rw [hi] at hb
  simp at hb

theorem hit_byte (ht : Tagged tlb tags) (hh : (accessTlb tlb va a required).hit) {i : Nat}
    (hi : va.toNat % 4096 + i < 4096) : Holds tlb (((accessTlb tlb va a required).paddr + BitVec.ofNat 64 i) >>> 12) := by
  have hs : (va >>> 12).toNat % 256 < 256 := Nat.mod_lt _ (by decide)
  have hv := hit_valid al r hh
  exact ⟨_, hs, hv, (byte_page (ht _ hs hv).1 hi).symm⟩

theorem hit_holds (ht : Tagged tlb tags) (hh : (accessTlb tlb va a required).hit) :
    Holds tlb ((accessTlb tlb va a required).paddr >>> 12) := by
  have hf := hit_byte al r ht hh (show va.toNat % 4096 + 0 < 4096 by omega)
  rwa [BitVec.add_zero] at hf

end
end

namespace Hart
variable {hw : Hardware}

def Decoded (hart : Hart hw) (page : Reg) : Prop :=
  ∃ slot, (hart.icache slot).tag ≠ BitVec.allOnes 64 ∧ page ∈ (hart.icache slot).pages

def Reads (hart : Hart hw) (page : Reg) : Prop := Holds hart.machine.tlbInsn page ∨ hart.Decoded page
def Writes (hart : Hart hw) (page : Reg) : Prop := Holds hart.machine.tlbStore page

structure Filtered (hart : Hart hw) : Prop where
  insn : Tagged hart.machine.tlbInsn hart.machine.insnTags
  store : Tagged hart.machine.tlbStore hart.machine.storeTags
  decoded : ∀ page, hart.Decoded page → hart.machine.insnTags.contains page

structure Narrows (before after : Hart hw) : Prop where
  filtered : after.Filtered
  reads : ∀ page, after.Reads page → before.Reads page
  writes : ∀ page, after.Writes page → before.Writes page

variable {hart : Hart hw}

theorem Filtered.reads (hf : hart.Filtered) {page : Reg} (reads : hart.Reads page) :
    hart.machine.insnTags.contains page := by
  rcases reads with hh | hd
  · exact hf.insn.contains hh
  · exact hf.decoded page hd

theorem Narrows.refl (hf : hart.Filtered) : hart.Narrows hart :=
  ⟨hf, fun _ hr => hr, fun _ writes => writes⟩

theorem Narrows.trans {b a : Hart hw} (hf : hart.Narrows b) (hs : b.Narrows a) : hart.Narrows a where
  filtered := hs.filtered
  reads := fun p reads => hf.reads p (hs.reads p reads)
  writes := fun p writes => hf.writes p (hs.writes p writes)

theorem not_decoded_flushIcache {page : Reg} : ¬hart.flushIcache.Decoded page := by
  rintro ⟨slot, h, -⟩
  exact h rfl

theorem flushIcache_narrows (filtered : hart.Filtered) : hart.Narrows hart.flushIcache where
  filtered := ⟨filtered.insn, filtered.store, fun p hd => absurd hd (not_decoded_flushIcache)⟩
  reads := by
    rintro p (hh | hd)
    · exact .inl hh
    · exact absurd hd (not_decoded_flushIcache)
  writes := fun _ writes => writes

theorem flushTlb_narrows (hart : Hart hw) : hart.Narrows hart.flushTlb where
  filtered := ⟨tagged_invalid _, tagged_invalid _, fun p hd => absurd hd (not_decoded_flushIcache)⟩
  reads := by
    rintro p (hh | hd)
    · exact absurd hh (holds_invalid p)
    · exact absurd hd (not_decoded_flushIcache)
  writes := fun p writes => absurd writes (holds_invalid p)

theorem Narrows.of_caches {after : Hart hw} (hf : hart.Filtered)
    (insn : after.machine.tlbInsn = hart.machine.tlbInsn) (store : after.machine.tlbStore = hart.machine.tlbStore)
    (hi : after.machine.insnTags = hart.machine.insnTags)
    (hs : after.machine.storeTags = hart.machine.storeTags) (icache : after.icache = hart.icache) : hart.Narrows after := by
  obtain ⟨m, c⟩ := after
  subst icache
  refine ⟨⟨?_, ?_, ?_⟩, ?_, ?_⟩
  · rw [insn, hi]
    exact hf.insn
  · rw [store, hs]
    exact hf.store
  · rw [hi]
    exact hf.decoded
  · intro p hr
    rwa [Reads, insn] at hr
  · intro p writes
    rwa [Writes, store] at writes

theorem insertInsn_narrows (filtered : hart.Filtered) (p : Reg) : hart.Narrows
    { hart with machine := { hart.machine with insnTags := hart.machine.insnTags.insert p } } where
  filtered := ⟨filtered.insn.insert p, filtered.store, fun o h => contains_insert p (filtered.decoded o h)⟩
  reads := fun _ reads => reads
  writes := fun _ writes => writes

theorem insertStore_narrows (filtered : hart.Filtered) (p : Reg) : hart.Narrows
    { hart with machine := { hart.machine with storeTags := hart.machine.storeTags.insert p } } where
  filtered := ⟨filtered.insn, filtered.store.insert p, filtered.decoded⟩
  reads := fun _ reads => reads
  writes := fun _ writes => writes

theorem flushStlbPpn_narrows (filtered : hart.Filtered) (ppn : Reg) : hart.Narrows (hart.flushStlbPpn ppn) where
  filtered := ⟨filtered.insn, flushTlbPpn_tagged filtered.store, filtered.decoded⟩
  reads := fun _ reads => reads
  writes := fun _ writes => (flushTlbPpn_holds filtered.store writes).1

theorem flushStlbPpn_writes (hf : hart.Filtered) {ppn p : Reg} (writes : (hart.flushStlbPpn ppn).Writes p) :
    p ≠ ppn := (flushTlbPpn_holds hf.store writes).2

/-- A flush that the filter does not spare empties the instruction cache; so the pages that were decoded without a
  TLB entry may leave the filter with it. -/
theorem flushItlbPpn_cases (hart : Hart hw) {ppn : Reg} :
    hart.machine.insnTags.contains ppn = false ∧ hart.flushItlbPpn ppn = hart ∨
      hart.flushItlbPpn ppn = flushIcache { hart with machine := hart.machine.flushItlbPpn ppn } := by
  unfold flushItlbPpn
  cases h : hart.machine.insnTags.contains ppn with
  | false =>
    left
    simp [Machine.flushItlbPpn, flushTlbPpn, h]
  | true => exact .inr (if_pos rfl)

theorem flushItlbPpn_reads (hf : hart.Filtered) {ppn p : Reg} (hr : (hart.flushItlbPpn ppn).Reads p) :
    hart.Reads p ∧ p ≠ ppn := by
  rcases hart.flushItlbPpn_cases with ⟨hs, same⟩ | flushed
  · rw [same] at hr
    refine ⟨hr, ?_⟩
    rintro rfl
    have hc := hf.reads hr
    rw [hs] at hc
    cases hc
  · rw [flushed] at hr
    rcases hr with holds | hd
    · have hh := flushTlbPpn_holds hf.insn holds
      exact ⟨.inl hh.1, hh.2⟩
    · exact absurd hd (not_decoded_flushIcache)

theorem flushItlbPpn_narrows (hf : hart.Filtered) (ppn : Reg) : hart.Narrows (hart.flushItlbPpn ppn) := by
  refine ⟨?_, fun _ hr => (flushItlbPpn_reads hf hr).1, ?_⟩
  · rcases hart.flushItlbPpn_cases with ⟨-, hs⟩ | flushed
    · rwa [hs]
    · rw [flushed]
      exact ⟨flushTlbPpn_tagged hf.insn, hf.store, fun p hd => absurd hd (not_decoded_flushIcache)⟩
  · intro p writes
    rcases hart.flushItlbPpn_cases with ⟨-, hs⟩ | flushed
    · rwa [hs] at writes
    · rwa [flushed] at writes

theorem refillTlb_put {m : Machine hw} {v p : Reg} (off : pageOffset p = pageOffset v) {ha : Reg}
    {ty : AccessType} : m.refillTlb v p ha ty = m ∨ ∃ entry : TlbEntry, entry.targetAddr = pageBase p ∧
      m.refillTlb v p ha ty = m.putTlb ty ((v >>> 12).toNat % 256) entry := by
  unfold Machine.refillTlb
  dsimp only
  split
  · exact .inl rfl
  · exact .inr ⟨_, paddr_sub_offset off, rfl⟩

theorem pageBase_ppn (p : Reg) : pageBase p >>> 12 = p >>> 12 := pageBase_shift p (Nat.le_refl 12)

section
variable {va pa : Reg} (o : pageOffset pa = pageOffset va) (h : Reg)
include o

theorem refillFetch_filtered (hf : hart.Filtered) (hc : hart.machine.insnTags.contains (pa >>> 12)) :
    Filtered { hart with machine := hart.machine.refillTlb va pa h .fetch } := by
  rcases refillTlb_put o with hs | ⟨e, ht, filled⟩
  · rw [hs]
    exact hf
  · rw [filled]
    refine ⟨hf.insn.put _ ?_ ?_, hf.store, hf.decoded⟩
    · rw [ht, pageBase_idem]
    · rw [ht, pageBase_ppn]
      exact hc

theorem refillFetch_reads {p : Reg} (hr : Reads { hart with machine := hart.machine.refillTlb va pa h .fetch } p) :
    hart.Reads p ∨ p = pa >>> 12 := by
  rcases refillTlb_put o with hs | ⟨e, ht, hf⟩
  · rw [hs] at hr
    exact .inl hr
  · rw [hf] at hr
    rcases hr with holds | hd
    · rcases holds_put holds with hb | hh
      · exact .inl (.inl hb)
      · rw [ht, pageBase_ppn] at hh
        exact .inr hh
    · exact .inl (.inr hd)

theorem refillStore_filtered (hf : hart.Filtered) (hc : hart.machine.storeTags.contains (pa >>> 12)) :
    Filtered { hart with machine := hart.machine.refillTlb va pa h .store } := by
  rcases refillTlb_put o with hs | ⟨e, ht, filled⟩
  · rw [hs]
    exact hf
  · rw [filled]
    refine ⟨hf.insn, hf.store.put _ ?_ ?_, hf.decoded⟩
    · rw [ht, pageBase_idem]
    · rw [ht, pageBase_ppn]
      exact hc

theorem refillStore_writes {p : Reg} (writes : Writes { hart with machine := hart.machine.refillTlb va pa h .store } p) :
    hart.Writes p ∨ p = pa >>> 12 := by
  rcases refillTlb_put o with hs | ⟨e, ht, hf⟩
  · rw [hs] at writes
    exact .inl writes
  · rw [hf] at writes
    rcases holds_put writes with hb | hh
    · exact .inl hb
    · rw [ht, pageBase_ppn] at hh
      exact .inr hh

omit o

theorem refillTlb_others (m : Machine hw) (va pa h : Reg) : (m.refillTlb va pa h .fetch).tlbStore = m.tlbStore ∧
    (m.refillTlb va pa h .fetch).insnTags = m.insnTags ∧ (m.refillTlb va pa h .store).tlbInsn = m.tlbInsn := by
  unfold Machine.refillTlb
  dsimp only
  split
  · exact ⟨rfl, rfl, rfl⟩
  · exact ⟨rfl, rfl, rfl⟩

end
end Hart

end RiscvEmulators.Spike.Ziccid
