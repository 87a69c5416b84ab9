import Riscv.Spike.Ziccid.Filters

namespace RiscvEmulators.Spike.Ziccid
open Word Transition Spike.Mmu Hart Ziccid.System Ensures List

section
variable {ι α : Type} {hw : ι → Hardware} {sys after : System hw} {h : ι} {pages : List Reg}

structure Exclusive (sys : System hw) : Prop where
  filtered : ∀ h, (sys h).Filtered
  apart : ∀ h k page, (sys h).Reads page → ¬(sys k).Writes page

theorem Exclusive.narrow (he : Exclusive sys) (hn : ∀ k, (sys k).Narrows (after k)) : Exclusive after where
  filtered := fun k => (hn k).filtered
  apart := fun h k p hr writes =>
    he.apart h k p ((hn h).reads p hr) ((hn k).writes p writes)

/-- The hart `h` may run instructions of these pages: no hart stores to them without a translation. -/
structure Ready (h : ι) (pages : List Reg) (sys : System hw) : Prop where
  exclusive : Exclusive sys
  contained : ∀ page ∈ pages, (sys h).machine.insnTags.contains page
  unwritten : ∀ page ∈ pages, ∀ k, ¬(sys k).Writes page

theorem Exclusive.ready (he : Exclusive sys) : Ready h [] sys :=
  ⟨he, fun _ hm => absurd hm not_mem_nil, fun _ hm => absurd hm not_mem_nil⟩

theorem reset_exclusive {m : (h : ι) → Machine (hw h)} : Exclusive fun h => Hart.reset (m h) where
  filtered := fun _ => ⟨tagged_invalid _, tagged_invalid _, fun _ ⟨_, hv, _⟩ => absurd rfl hv⟩
  apart := fun _ _ p _ writes => holds_invalid p writes

theorem Ready.subset (hr : Ready h pages sys) {f : List Reg} (hi : ∀ p ∈ f, p ∈ pages) : Ready h f sys :=
  ⟨hr.exclusive, fun p hm => hr.contained p (hi p hm), fun p hm => hr.unwritten p (hi p hm)⟩

theorem Ready.cons (hr : Ready h pages sys) {p : Reg} (hc : (sys h).machine.insnTags.contains p)
    (hu : ∀ k, ¬(sys k).Writes p) : Ready h (p :: pages) sys := by
  refine ⟨hr.exclusive, ?_, ?_⟩
  · intro o hm
    rcases mem_cons.mp hm with rfl | hm
    · exact hc
    · exact hr.contained o hm
  · intro o hm
    rcases mem_cons.mp hm with rfl | hm
    · exact hu
    · exact hr.unwritten o hm

theorem Ready.narrow (hr : Ready h pages sys) (hn : ∀ k, (sys k).Narrows (after k))
    (ht : ∀ p, (sys h).machine.insnTags.contains p → (after h).machine.insnTags.contains p) : Ready h pages after where
  exclusive := hr.exclusive.narrow hn
  contained := fun p hm => ht p (hr.contained p hm)
  unwritten := fun p hm k writes => hr.unwritten p hm k ((hn k).writes p writes)

theorem Ready.hit (hr : Ready h pages sys) {va a : Reg} (ha : Within tlbFlags a)
    (hit : (accessTlb (sys h).machine.tlbInsn va a 0).hit) :
    Ready h ((accessTlb (sys h).machine.tlbInsn va a 0).paddr >>> 12 :: pages) sys := by
  have ht := (hr.exclusive.filtered h).insn
  have hh := hit_holds ha (by decide) ht hit
  exact hr.cons (ht.contains hh) fun k => hr.exclusive.apart h k _ (.inl hh)

variable [DecidableEq ι]

theorem set_self (sys : System hw) (h : ι) (hart : Hart (hw h)) : sys.set h hart h = hart := by
  rw [System.set, Function.update_self]

variable {h0 : Hart (hw h)}

theorem forall_set (p : (k : ι) → Hart (hw k) → Prop) (hh : p h h0) (ho : ∀ k, p k (sys k)) (k : ι)
    : p k (sys.set h h0 k) :=
  (Function.forall_update_iff sys p).mpr ⟨hh, fun k _ => ho k⟩ k

theorem Exclusive.set_narrows (he : Exclusive sys) (hn : (sys h).Narrows h0) : ∀ k, (sys k).Narrows (sys.set h h0 k) :=
  forall_set (fun k h0 => (sys k).Narrows h0) hn fun k => .refl (he.filtered k)

theorem writes_set (writes : ∀ page, h0.Writes page → (sys h).Writes page) :
    ∀ k page, (sys.set h h0 k).Writes page → (sys k).Writes page :=
  forall_set (fun k h0 => ∀ page, h0.Writes page → (sys k).Writes page) writes fun _ _ hw2 => hw2

theorem Ready.set (hr : Ready h pages sys) (hn : (sys h).Narrows h0)
    (ht : h0.machine.insnTags = (sys h).machine.insnTags) : Ready h pages (sys.set h h0) := by
  apply hr.narrow (hr.exclusive.set_narrows hn)
  intro page hc
  rw [set_self, ht]
  exact hc

def SameCaches {hw : Hardware} (before after : Machine hw) : Prop :=
  after.tlbInsn = before.tlbInsn ∧ after.tlbStore = before.tlbStore ∧
    after.insnTags = before.insnTags ∧ after.storeTags = before.storeTags

theorem Ready.sameCaches (hr : Ready h pages sys) {m : Machine (hw h)} (same : SameCaches (sys h).machine m) :
    Ready h pages (sys.set h { sys h with machine := m }) := by
  obtain ⟨insn, store, hi, hs⟩ := same
  exact hr.set (.of_caches (hr.exclusive.filtered h) insn store hi hs rfl) hi

theorem onHart_ready {ac : Access (hw h) α} (hs : ∀ m, Keeps (SameCaches m) ac) :
    Ensures (Ready h pages) (onHart h ac) (fun _ => Ready h pages) Exclusive := by
  intro sys hr
  have hk := hs (sys h).machine (sys h).machine ⟨rfl, rfl, rfl, rfl⟩
  unfold onHart
  cases ho : ac (sys h).machine with
  | ok r m =>
    rw [ho] at hk
    exact hr.sameCaches hk
  | error f m =>
    rw [ho] at hk
    exact (hr.sameCaches hk).exclusive

theorem checkTriggers_ready (e : Bool) (a : TriggerMatch) :
    Ensures (Ready h pages) (System.checkTriggers h e a : SystemAccess hw Unit) (fun _ => Ready h pages) Exclusive := by
  intro sys hr
  unfold System.checkTriggers
  cases (!e || (sys h).machine.matchedTrigger) with
  | true => exact hr
  | false =>
    cases a with
    | unmatched => exact hr
    | before => exact hr.exclusive
    | after =>
      have hf := (sys h).flushTlb_narrows
      exact hr.set (hf.trans (.of_caches hf.filtered rfl rfl rfl rfl rfl)) rfl

theorem performIntrapageFetch_same {hw : Hardware} (va : Reg) (p : Location) (m : Machine hw) :
    Keeps (SameCaches m) (performIntrapageFetch va p) :=
  Keeps.read fun _ _ => Keeps.ite (fun _ => Keeps.pure _) fun _ => Keeps.throw _

theorem translateIn_same {hw : Hardware} (inf : AccessInfo) (len : Nat) (m : Machine hw) :
    Keeps (SameCaches m) (translateIn inf len) := by
  intro now hs
  unfold translateIn
  cases translate hw now.regs inf len now.pages with
  | ok pa pages => exact hs
  | error f pages => exact hs

theorem translateIn_offset (inf : AccessInfo) (len : Nat) :
    Returns (onHart h (translateIn inf len) : SystemAccess hw Reg) fun pa =>
      pageOffset pa = pageOffset inf.transformedVaddr := by
  intro sys pa after hr
  unfold onHart translateIn at hr
  cases ho : translate (hw h) (sys h).machine.regs inf len (sys h).machine.pages with
  | ok r pages =>
    rw [ho] at hr
    cases hr
    exact (translate_returns (hw h) _ inf len _ _ _ ho).2
  | error f pages =>
    rw [ho] at hr
    cases hr

theorem Ready.insert (hr : Ready h pages sys) {p : Reg} (hu : ∀ k, ¬(sys k).Writes p) :
    Ready h (p :: pages) (sys.set h { sys h with
      machine := { (sys h).machine with insnTags := (sys h).machine.insnTags.insert p } }) := by
  have he := hr.exclusive.set_narrows (insertInsn_narrows (hr.exclusive.filtered h) p)
  apply Ready.cons
  · apply hr.narrow he
    intro o hc
    rw [set_self]
    exact contains_insert p hc
  · rw [set_self]
    exact contains_insert_self _ p
  · intro k writes
    exact hu k ((he k).writes p writes)

theorem excludeStores_ready (ziccid : (hw h).extZiccid) {pa : Reg} :
    Ensures (Ready h pages) (excludeStores h pa : SystemAccess hw Unit)
      (fun _ => Ready h (pa >>> 12 :: pages)) Exclusive := by
  intro sys hr
  unfold excludeStores
  rw [if_pos ziccid]
  have hf := hr.exclusive.filtered
  have flushed : Ready h pages (fun k => (sys k).flushStlbPpn (pa >>> 12)) :=
    hr.narrow (fun k => flushStlbPpn_narrows (hf k) _) fun _ hc => hc
  apply flushed.insert
  intro k writes
  exact flushStlbPpn_writes (hf k) writes rfl

/-- A hart may newly read pages that no hart writes, and newly write pages that none has read. -/
theorem Exclusive.set (exclusive : Exclusive sys) (filtered : h0.Filtered)
    (reads : ∀ page, h0.Reads page → (sys h).Reads page ∨ ∀ k, ¬(sys.set h h0 k).Writes page)
    (writes : ∀ page, h0.Writes page → (sys h).Writes page ∨ ∀ j, ¬(sys j).Reads page) : Exclusive (sys.set h h0) := by
  have unread : ∀ k page, (sys.set h h0 k).Writes page → ∀ j, ¬(sys j).Reads page := by
    apply forall_set fun _ hart => ∀ page, hart.Writes page → ∀ j, ¬(sys j).Reads page
    · intro page written j read
      rcases writes page written with before | unread
      · exact exclusive.apart j h page read before
      · exact unread j read
    · exact fun k page written j read => exclusive.apart j k page read written
  constructor
  · exact forall_set (fun _ hart => hart.Filtered) filtered exclusive.filtered
  · suffices apart : ∀ j page, (sys.set h h0 j).Reads page → ∀ k, ¬(sys.set h h0 k).Writes page from
      fun j k page read => apart j page read k
    apply forall_set fun _ hart => ∀ page, hart.Reads page → ∀ k, ¬(sys.set h h0 k).Writes page
    · intro page read k written
      rcases reads page read with before | unwritten
      · exact unread k page written h before
      · exact unwritten k written
    · exact fun j page read k written => unread k page written j read

theorem refillFetch_ready {va pa : Reg} (ho : pageOffset pa = pageOffset va) {ha : Reg} :
    Ensures (Ready h (pa >>> 12 :: pages)) (onHart h (modifyMachine (·.refillTlb va pa ha .fetch)) : SystemAccess hw Unit)
      (fun _ => Ready h (pa >>> 12 :: pages)) Exclusive := by
  intro sys hr
  have others := refillTlb_others (sys h).machine va pa ha
  have hw2 : ∀ page, Hart.Writes
      { sys h with machine := (sys h).machine.refillTlb va pa ha .fetch } page → (sys h).Writes page := by
    intro page writes
    rwa [Hart.Writes, others.1] at writes
  have unwritten : ∀ page ∈ pa >>> 12 :: pages, ∀ k, ¬Hart.Writes (sys.set h _ k) page :=
    fun page hm k writes => hr.unwritten page hm k (writes_set hw2 k page writes)
  refine ⟨?_, ?_, unwritten⟩
  · apply hr.exclusive.set
    · exact refillFetch_filtered ho ha (hr.exclusive.filtered h) (hr.contained _ mem_cons_self)
    · intro page reads
      rcases refillFetch_reads ho ha reads with hb | rfl
      · exact .inl hb
      · exact .inr (unwritten _ mem_cons_self)
    · exact fun page writes => .inl (hw2 page writes)
  · intro page hm
    rw [set_self, others.2.1]
    exact hr.contained page hm

theorem locateFetch_ready (ziccid : (hw h).extZiccid) {inf : AccessInfo}
    (ho : pageOffset inf.transformedVaddr = pageOffset inf.vaddr) {a : TlbAnswer} (hm : a.hit = false) :
    Ensures (Ready h pages) (System.locateFetch h inf a : SystemAccess hw Location)
      (fun p => Ready h (p.paddr >>> 12 :: pages)) Exclusive := by
  unfold System.locateFetch
  rw [hm]
  apply (returning (onHart_ready (translateIn_same inf 2)) (translateIn_offset inf 2)).bind
  intro pa
  apply Ensures.assume
  intro ht
  refine (excludeStores_ready ziccid).bind fun _ => ?_
  refine (refillFetch_ready (ht.trans ho)).bind fun _ => ?_
  exact .pure fun _ hr => hr

theorem fetchLocated_ready (va : Reg) (p : Location) (e : Bool) (snd : TriggerMatch) :
    Ensures (Ready h (p.paddr >>> 12 :: pages))
      (do
        onHart h (performIntrapageFetch va p)
        System.checkTriggers h e snd
        pure p.paddr : SystemAccess hw Reg)
      (fun pa => Ready h (pa >>> 12 :: pages)) Exclusive := by
  refine (onHart_ready (performIntrapageFetch_same va p)).bind fun _ => ?_
  refine (checkTriggers_ready e snd).bind fun _ => ?_
  exact .pure fun _ hr => hr

theorem fetchSlowPath_ready (ziccid : (hw h).extZiccid) (va : Reg) (fst snd : TriggerMatch) :
    Ensures (Ready h pages) (System.fetchSlowPath h va fst snd : SystemAccess hw Reg)
      (fun pa => Ready h (pa >>> 12 :: pages)) Exclusive := by
  unfold System.fetchSlowPath
  apply Ensures.read
  intro sys hr
  have hs : ∀ now, now = sys → Ready h pages now := by
    rintro now rfl
    exact hr
  dsimp only
  split
  · -- the trigger that the last access matched
    refine Ensures.bind (strengthen (onHart_ready ?_) hs) fun _ => ?_
    · intro m now same
      exact same
    · exact .throw fun _ hk => hk.exclusive
  split
  case isTrue hh =>
    have hc : ∀ now, now = sys → Ready h ((accessTlb (sys h).machine.tlbInsn va
        (tlbFlags &&& ~~~tlbCheckTriggers) 0).paddr >>> 12 :: pages) now := by
      rintro now rfl
      exact hr.hit (by decide) hh
    refine Ensures.bind (strengthen (onHart_ready (performIntrapageFetch_same va _)) hc) fun _ => ?_
    exact .pure fun _ hk => hk
  -- an entry that only asks for the triggers to be checked was read before a match may flush it
  let c := accessTlb (sys h).machine.tlbInsn va tlbFlags 0
  cases hh : c.hit with
  | true =>
    have hc : ∀ now, now = sys →
        Ready h (c.paddr >>> 12 :: pages) now := by
      rintro now rfl
      exact hr.hit (by decide) hh
    refine Ensures.bind (strengthen (checkTriggers_ready _ fst) hc) fun _ => ?_
    unfold System.locateFetch
    rw [hh]
    exact fetchLocated_ready va c.location _ snd
  | false =>
    refine Ensures.bind (strengthen (checkTriggers_ready _ fst) hs) fun _ => ?_
    refine Ensures.bind (locateFetch_ready ziccid ?_ hh) fun p => ?_
    · exact (transform_pageMap (hw h) (sys h).machine.regs .fetch .none).offset va
    · exact fetchLocated_ready va p _ snd

theorem fetchInsnParcel_ready (ziccid : (hw h).extZiccid) (va : Reg) (fst snd : TriggerMatch) :
    Ensures (Ready h pages) (System.fetchInsnParcel h va fst snd : SystemAccess hw Reg)
      (fun pa => Ready h (pa >>> 12 :: pages)) Exclusive := by
  apply Ensures.read
  intro sys hr
  dsimp only
  split
  case isTrue hh =>
    rintro now rfl
    exact hr.hit (by decide) hh
  case isFalse =>
    apply (fetchSlowPath_ready ziccid va fst snd).strengthen
    rintro now rfl
    exact hr

theorem fetchParcels_ready (ziccid : (hw h).extZiccid) (a : Reg) (p : List System.ParcelTriggers) :
    Ensures (Ready h pages) (fetchParcels h a p : SystemAccess hw (List Reg))
      (fun f => Ready h (f ++ pages)) Exclusive := by
  induction p generalizing a pages with
  | nil => exact .pure fun _ hr => hr
  | cons pa p ih =>
    refine (fetchInsnParcel_ready ziccid a pa.1 pa.2).bind fun pad => ?_
    refine (ih (a + 2)).bind fun f => ?_
    intro now hr
    apply hr.subset
    intro page hm
    simp only [cons_append, mem_cons, mem_append] at hm ⊢
    rcases hm with hh | hb | after
    · exact .inr (.inl hh)
    · exact .inl hb
    · exact .inr (.inr after)

theorem putIcache_exclusive (hr : Ready h pages sys) {a : Reg} {i : Bool} :
    Exclusive (sys.set h ((sys h).putIcache a pages i)) := by
  have hd : ∀ p, ((sys h).putIcache a pages i).Decoded p → (sys h).Decoded p ∨ p ∈ pages := by
    rintro p ⟨sl, hv, hm⟩
    unfold putIcache at hv hm
    dsimp only at hv hm
    by_cases hh : sl = icacheIndex a
    · rw [if_pos hh] at hm
      exact .inr hm
    · rw [if_neg hh] at hv hm
      exact .inl ⟨sl, hv, hm⟩
  have hf := hr.exclusive.filtered h
  apply hr.exclusive.set
  · refine ⟨hf.insn, hf.store, ?_⟩
    intro p hc
    rcases hd p hc with hb | hm
    · exact hf.decoded p hb
    · exact hr.contained p hm
  · rintro p (holds | hc)
    · exact .inl (.inl holds)
    · rcases hd p hc with hb | hm
      · exact .inl (.inr hb)
      · right
        intro k writes
        apply hr.unwritten p hm k
        exact writes_set (fun _ (here : ((sys h).putIcache a pages i).Writes _) => here) k p writes
  · exact fun _ writes => .inl writes

theorem refillIcache_exclusive (ziccid : (hw h).extZiccid) (a : Reg) (p : List System.ParcelTriggers)
    (i : Bool) : Keeps Exclusive (refillIcache h a p i : SystemAccess hw Unit) := by
  refine Ensures.bind ((fetchParcels_ready ziccid a p).strengthen fun _ he => he.ready) ?_
  intro pages now hr
  rw [append_nil] at hr
  exact putIcache_exclusive hr

/-- The hart `h` may store to the page: no hart runs instructions of it without a translation. -/
structure Claimed (h : ι) (page : Reg) (sys : System hw) : Prop where
  exclusive : Exclusive sys
  contained : (sys h).machine.storeTags.contains page
  unread : ∀ k, ¬(sys k).Reads page

theorem performIntrapageStore_same {hw : Hardware} (va : Reg) (p : Location) (len : Nat) (f : XlateFlags)
    (m : Machine hw) : Keeps (SameCaches m) (performIntrapageStore va p len f) :=
  Keeps.read fun _ _ => Keeps.ite (fun _ => Keeps.pure _) fun _ => Keeps.throw _

theorem onHart_exclusive {ac : Access (hw h) α} (hs : ∀ m, Keeps (SameCaches m) ac) :
    Keeps Exclusive (onHart h ac) := by
  intro sys he
  have hk := onHart_ready hs sys (he.ready (h := h))
  cases ho : onHart h ac sys with
  | ok r after =>
    rw [ho] at hk
    exact hk.exclusive
  | error f after =>
    rw [ho] at hk
    exact hk

theorem excludeFetches_claimed (ziccid : (hw h).extZiccid) {pa : Reg} :
    Ensures Exclusive (excludeFetches h pa : SystemAccess hw Unit) (fun _ => Claimed h (pa >>> 12)) Exclusive := by
  intro sys he
  unfold excludeFetches
  rw [if_pos ziccid]
  have hf : Exclusive (fun k => (sys k).flushItlbPpn (pa >>> 12)) :=
    he.narrow fun k => flushItlbPpn_narrows (he.filtered k) _
  have hn := hf.set_narrows (insertStore_narrows (hf.filtered h) (pa >>> 12))
  refine ⟨hf.narrow hn, ?_, ?_⟩
  · rw [set_self]
    exact contains_insert_self _ _
  · intro k hr
    have hb := (hn k).reads _ hr
    exact (flushItlbPpn_reads (he.filtered k) hb).2 rfl

theorem refillStore_exclusive {va pa : Reg} (ho : pageOffset pa = pageOffset va) {ha : Reg} :
    Ensures (Claimed h (pa >>> 12)) (onHart h (modifyMachine (·.refillTlb va pa ha .store)) : SystemAccess hw Unit)
      (fun _ => Exclusive) Exclusive := by
  intro sys hc
  have others := refillTlb_others (sys h).machine va pa ha
  apply hc.exclusive.set
  · exact refillStore_filtered ho ha (hc.exclusive.filtered h) hc.contained
  · intro p hr
    left
    rwa [Hart.Reads, others.2.2] at hr
  · intro p writes
    rcases refillStore_writes ho ha writes with hb | rfl
    · exact .inl hb
    · exact .inr hc.unread

theorem locateStore_exclusive (ziccid : (hw h).extZiccid) {len : Nat} {inf : AccessInfo}
    (ho : pageOffset inf.transformedVaddr = pageOffset inf.vaddr) :
    Keeps Exclusive (System.locateStore h len inf : SystemAccess hw Location) := by
  apply Keeps.read
  intro sys _
  refine Keeps.ite ?_ fun _ => Keeps.pure _
  intro _
  apply Ensures.bind ((onHart_exclusive (translateIn_same inf len)).returning (translateIn_offset inf len))
  intro pa
  apply Ensures.assume
  intro ht
  refine (excludeFetches_claimed ziccid).bind fun _ => ?_
  split
  · exact .pure fun _ hc => hc.exclusive
  · refine (refillStore_exclusive (ht.trans ho)).bind fun _ => ?_
    exact .pure fun _ he => he

theorem storeSlowPathIntrapage_exclusive (ziccid : (hw h).extZiccid) (len : Nat) (inf : AccessInfo)
    (ho : pageOffset inf.transformedVaddr = pageOffset inf.vaddr) (ast : Bool) :
    Keeps Exclusive (System.storeSlowPathIntrapage h len inf ast : SystemAccess hw Unit) := by
  refine (locateStore_exclusive ziccid ho).bind fun p => ?_
  apply Keeps.ite
  · intro _
    exact onHart_exclusive (performIntrapageStore_same inf.vaddr p len inf.flags)
  · intro _
    exact Keeps.pure _

section

theorem modifyHart_exclusive {f : Hart (hw h) → Hart (hw h)}
    (hn : ∀ h0 : Hart (hw h), h0.Filtered → h0.Narrows (f h0)) : Keeps Exclusive (modifyHart h f) := by
  intro sys he
  exact he.narrow (he.set_narrows (hn (sys h) (he.filtered h)))

variable (ziccid : ∀ h, (hw h).extZiccid)
include ziccid

theorem step_exclusive (sys : System hw) (e : Event hw) (he : Exclusive sys) : Exclusive (step sys e) := by
  have hk : Keeps Exclusive (e.access sys) := by
    cases e with
    | refillIcache h a p i => exact refillIcache_exclusive (ziccid h) a p i
    | fetchSlowPath h va fst snd =>
      refine Ensures.bind ((fetchSlowPath_ready (ziccid h) va fst snd).strengthen
        fun _ he => he.ready) fun _ => ?_
      exact .pure fun _ hr => hr.exclusive
    | storeSlowPathIntrapage h va len f ast =>
      exact storeSlowPathIntrapage_exclusive (ziccid h) len _
        ((transform_pageMap (hw h) (sys h).machine.regs .store f).offset va) ast
    | flushTlb h => exact modifyHart_exclusive fun h0 _ => h0.flushTlb_narrows
    | flushIcache h => exact modifyHart_exclusive fun _ hf => flushIcache_narrows hf
    | flushItlbPpn h ppn => exact modifyHart_exclusive fun _ hf => flushItlbPpn_narrows hf ppn
    | flushStlbPpn h ppn => exact modifyHart_exclusive fun _ hf => flushStlbPpn_narrows hf ppn
    | proceed h m =>
      show Keeps Exclusive (modifyHart h (·.proceed m))
      apply modifyHart_exclusive
      intro h0 hf
      exact .of_caches hf rfl rfl rfl rfl rfl
  exact hk.finalState he

/-- From reset on, whatever the harts do: no page is in an instruction TLB and in a store TLB; the filters have the pages
  of the TLBs and of the instruction cache; and a store that hits in a store TLB leaves every byte alone that a valid
  entry of an instruction cache was decoded from. -/
theorem fetch_store_exclusion (machines : (hart : ι) → Machine (hw hart)) (events : List (Event hw)) :
    let sys := run step (fun hart => Hart.reset (machines hart)) events
    (∀ hart other page, Holds (sys hart).machine.tlbInsn page → ¬Holds (sys other).machine.tlbStore page) ∧
    (∀ hart page, Holds (sys hart).machine.tlbInsn page → (sys hart).machine.insnTags.contains page) ∧
    (∀ hart page, Holds (sys hart).machine.tlbStore page → (sys hart).machine.storeTags.contains page) ∧
    (∀ hart page, (sys hart).Decoded page → (sys hart).machine.insnTags.contains page) ∧
    ∀ (hart other : ι) (page vaddr allowed : Reg) (len offset : Nat), (sys hart).Decoded page → Within tlbFlags allowed →
      InPage vaddr len → (accessTlb (sys other).machine.tlbStore vaddr allowed 0).hit → offset < len →
        ((accessTlb (sys other).machine.tlbStore vaddr allowed 0).paddr + BitVec.ofNat 64 offset) >>> 12 ≠ page := by
  have exclusive : Exclusive (run step (fun hart => Hart.reset (machines hart)) events) :=
    run_invariant (step_exclusive ziccid) (reset_exclusive)
  refine ⟨?_, ?_, ?_, ?_, ?_⟩
  · intro hart other page held
    exact exclusive.apart hart other page (.inl held)
  · intro hart page held
    exact (exclusive.filtered hart).insn.contains held
  · intro hart page stored
    exact (exclusive.filtered hart).store.contains stored
  · intro hart page decoded
    exact (exclusive.filtered hart).decoded page decoded
  · intro hart other page vaddr allowed len offset decoded flags inPage hit inside same
    have tags := (exclusive.filtered other).store
    apply exclusive.apart hart other page (.inr decoded)
    rw [← same]
    apply hit_byte flags (by decide) tags hit
    have fits := inPage.fits
    omega

end
end

def ziccidHart : Hardware := { maskingHart with extZiccid := true }

def ziccidMachine : Machine ziccidHart := .clear (clearState .m false)

def storeThenFetch : List (Event fun _ : Fin 2 => ziccidHart) :=
  [.storeSlowPathIntrapage 1 0x80001008 8 .none true, .refillIcache 0 0x80001008 [(.unmatched, .unmatched)] false]

theorem fetched_page_not_stored :
    Holds (run step (fun _ => Hart.reset ziccidMachine) (storeThenFetch.take 1) 1).machine.tlbStore 0x80001 ∧
    Holds (run step (fun _ => Hart.reset ziccidMachine) storeThenFetch 0).machine.tlbInsn 0x80001 ∧
      ¬Holds (run step (fun _ => Hart.reset ziccidMachine) storeThenFetch 1).machine.tlbStore 0x80001 := by
  have fetched : Holds (run step (fun _ => Hart.reset ziccidMachine) storeThenFetch 0).machine.tlbInsn 0x80001 :=
    ⟨1, by decide, by decide +kernel, by decide +kernel⟩
  refine ⟨⟨1, by decide, by decide +kernel, by decide +kernel⟩, fetched, ?_⟩
  exact (fetch_store_exclusion (fun _ => rfl) (fun _ => ziccidMachine) storeThenFetch).1 0 1 0x80001 fetched

end RiscvEmulators.Spike.Ziccid
