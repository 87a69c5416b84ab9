import Riscv.Qemu.Mmu.Restart

namespace RiscvEmulators.Qemu.Mmu
open Word Cpu Pmp Transition

section
variable (hw : Config) (pmp : Pmp.State) (v : View) (levels ptidxbits ptesize : Nat) (addr : W64)

def lookupTables (memory : PageMemory) (resolve : W64 → Option W64) : Nat → W64 → Option (W64 × Leaf)
  | 0, _ => none
  | remaining + 1, base =>
    match resolve base with
    | none => none
    | some table =>
      let pteAddr := table + v.index levels ptidxbits remaining addr * BitVec.ofNat 64 ptesize
      match pteAt hw pmp v memory pteAddr with
      | .error _ => none
      | .ok pte => match v.pteKind hw pte with
        | .refused => none
        | .table => lookupTables memory resolve remaining (v.ppn pte <<< 12)
        | .leaf => some (base, ⟨remaining, pteAddr, pte⟩)

def tablesOnWay (memory : PageMemory) (resolve : W64 → Option W64) : Nat → W64 → List W64
  | 0, _ => []
  | remaining + 1, base =>
    base :: match resolve base with
      | none => []
      | some table =>
        match pteAt hw pmp v memory (table + v.index levels ptidxbits remaining addr * BitVec.ofNat 64 ptesize) with
        | .error _ => []
        | .ok pte => if v.pteKind hw pte = .table then tablesOnWay memory resolve remaining (v.ppn pte <<< 12) else []

variable {hw pmp v levels ptidxbits ptesize addr} {mem m : PageMemory} {r : Nat} {base table : W64}
  {leaf : Leaf} {re : W64 → Option W64}

theorem lookupTables_snd : (lookupTables hw pmp v levels ptidxbits ptesize addr mem re r base).map Prod.snd =
    lookupLevels hw pmp v levels ptidxbits ptesize addr mem re r base := by
  induction r generalizing base with
  | zero => rfl
  | succ r ih =>
    unfold lookupTables lookupLevels
    cases re base with
    | none => rfl
    | some table =>
      dsimp only
      cases pteAt hw pmp v mem (table + v.index levels ptidxbits r addr * BitVec.ofNat 64 ptesize) with
      | error f => rfl
      | ok pte =>
        dsimp only
        cases v.pteKind hw pte with
        | refused => rfl
        | table => exact ih
        | leaf => rfl

theorem lookupTables_aged {l : PageMemory → W64 → Option W64} {re : W64 → Walk W64}
    (resolves : Resolves re l) (ha : Aged mem m)
    (hf : lookupTables hw pmp v levels ptidxbits ptesize addr mem (l mem) r base = some (table, leaf)) :
    ∃ p', lookupTables hw pmp v levels ptidxbits ptesize addr m (l m) r base = some (table, { leaf with pte := p' }) := by
  induction r generalizing base with
  | zero => cases hf
  | succ r ih =>
    unfold lookupTables at hf ⊢
    cases hr : l mem base with
    | none => simp [hr] at hf
    | some t =>
      rw [resolves.persists ha hr]
      rw [hr] at hf
      dsimp only at hf ⊢
      cases hr2 : pteAt hw pmp v mem (t + v.index levels ptidxbits r addr * BitVec.ofNat 64 ptesize) with
      | error f => simp [hr2] at hf
      | ok pte =>
        obtain ⟨p', h', ho⟩ := pteAt_aged ha hr2
        rw [hr2] at hf
        rw [h']
        dsimp only at hf ⊢
        cases hk : v.pteKind hw pte with
        | refused => simp [hk] at hf
        | table =>
          obtain rfl := table_aged hw ho hk
          rw [hk] at hf ⊢
          exact ih hf
        | leaf =>
          rw [hk] at hf
          rw [pteKind_leaf_aged hw ho hk]
          cases hf
          exact ⟨p', rfl⟩

section
variable {walk : W64 → Walk W64} {lookup : PageMemory → W64 → Option W64} (resolves : Resolves walk lookup)
include resolves

theorem walkLevels_kept (kept : ∀ base' ∈ tablesOnWay hw pmp v levels ptidxbits ptesize addr mem (lookup mem) r base,
    finalState (walk base' mem) = mem) :
    finalState (walkLevels hw pmp v walk levels ptidxbits ptesize addr r base mem) = mem := by
  induction r generalizing base with
  | zero => rfl
  | succ r ih =>
    have first := kept base (List.mem_cons_self ..)
    show finalState (EStateM.bind _ _ mem) = mem
    unfold EStateM.bind
    cases resolved : walk base mem with
    | error failure after =>
      rw [resolved] at first
      exact first
    | ok table after =>
      rw [resolved] at first
      obtain rfl : after = mem := first
      show finalState (EStateM.bind _ _ after) = after
      unfold EStateM.bind loadPte
      have found := resolves.found resolved
      cases read : pteAt hw pmp v after (table + v.index levels ptidxbits r addr * BitVec.ofNat 64 ptesize) with
      | error failure => rfl
      | ok pte =>
        dsimp only
        cases kind : v.pteKind hw pte with
        | refused => rfl
        | leaf => rfl
        | table =>
          refine ih fun base' member => kept base' (List.mem_cons_of_mem _ ?_)
          simp only [found, read, kind, if_true]
          exact member

end
end

namespace Call
variable (call : Call)

def resolve : W64 → Walk W64 := if call.nested then resolveBase call.hw call.env else pure

variable (memory : PageMemory)

def lookupTable : W64 → Option W64 :=
  if call.nested then lookupBase call.hw call.env memory else some

def getPhysicalAddress : Walk (W64 × BitVec 8) :=
  walkStage call.hw call.env.pmp call.view call.resolve call.addr call.type

def reachLeaf : Walk Leaf :=
  walkLevels call.hw call.env.pmp call.view call.resolve call.levels call.ptidxbits call.ptesize call.addr call.levels
    call.view.base

def found : Option (W64 × Leaf) :=
  lookupTables call.hw call.env.pmp call.view call.levels call.ptidxbits call.ptesize call.addr memory
    (call.lookupTable memory) call.levels call.view.base

def tables : List W64 :=
  if call.nested then
    tablesOnWay call.hw call.env.pmp call.view call.levels call.ptidxbits call.ptesize call.addr memory
      (call.lookupTable memory) call.levels call.view.base
  else []

def leafPermits (type : AccessType) (leaf : Leaf) : Prop :=
  ∃ prot sstackPage, call.view.leafProt (leaf.remaining * call.ptidxbits) leaf.pte = some (prot, sstackPage) ∧
    prot &&& type.prot ≠ 0

def Grants (type : AccessType) : Prop :=
  match call.view.plan call.hw call.addr with
  | .refused | .unreachable => False
  | .direct => True
  | .paged .. => ∃ table leaf, call.found memory = some (table, leaf) ∧ call.leafPermits type leaf

def Updates (leaf : Leaf) : Prop :=
  call.leafPermits call.type leaf ∧ leaf.pte ||| accessBits call.type ≠ leaf.pte ∧ call.view.adue ∧
    memory.ram leaf.pteAddr

/-- A leaf is no NAPOT page, or one of the only size that there is. -/
def NapotFits (leaf : Leaf) : Prop :=
  call.hw.extSvnapot → leaf.pte &&& pteN ≠ 0 → leaf.remaining = 0 ∧ call.view.ppn leaf.pte &&& 0xf = 0x8

/-- PMP lets S-mode write the leaf, and so does the second stage where the table is in the memory of a guest. -/
def MayUpdate (table : W64) (leaf : Leaf) : Prop :=
  (getPhysicalAddressPmp call.hw.pmp call.env.pmp leaf.pteAddr (BitVec.ofNat 64 (call.view.sxlen / 8)) .dataStore
    .supervisor).isSome ∧
  (call.nested → (call.guestCall
      (table + call.view.index call.levels call.ptidxbits leaf.remaining call.addr * BitVec.ofNat 64 call.ptesize)).Grants
      memory .dataStore)

/-- A failed call leaves memory as it was, and one that succeeds sets no more than the accessed and the dirty bit in the
  leaf that it used, where it may. -/
def Respects : Prop :=
  match call.getPhysicalAddress memory with
  | .error _ after => after = memory
  | .ok _ after => after = memory ∨ ∃ table leaf bits, call.found after = some (table, leaf) ∧
      Within (pteA ||| pteD) bits ∧ after = memory.setBits leaf.pteAddr bits ∧ call.MayUpdate memory table leaf

/-- The second stage has a leaf for a table on the way that needs an update. -/
def UpdatesTable (leaf : Leaf) : Prop :=
  ∃ base ∈ call.tables memory, ∃ table, (call.guestCall base).found memory = some (table, leaf) ∧
    (call.guestCall base).Updates memory leaf

end Call

section
variable {c : Call} {memory a : PageMemory} {tb : W64} {leaf : Leaf}

theorem getPhysicalAddress_first (hw : Config) (env : Env) (idx : MmuIdx) (p : Bool) (addr : W64) (ty : AccessType) :
    getPhysicalAddress hw env idx p addr ty =
      Call.getPhysicalAddress ⟨hw, env, idx, true, idx.twoStage, p, addr, ty⟩ := by
  unfold getPhysicalAddress Call.getPhysicalAddress Call.resolve Call.nested
  simp [Call.view]

theorem getGuestPhysicalAddress_call (hw : Config) (env : Env) (p : Bool) (addr : W64) (ty : AccessType) :
    getGuestPhysicalAddress hw env p addr ty = Call.getPhysicalAddress ⟨hw, env, .user, false, true, p, addr, ty⟩ := rfl

theorem call_resolves (c : Call) : Resolves c.resolve c.lookupTable := by
  unfold Call.resolve Call.lookupTable
  cases c.nested with
  | true => exact resolves_base c.hw c.env
  | false => exact resolves_pure

theorem getPhysicalAddress_paged {levels ptidxbits ptesize : Nat}
    (h : c.view.plan c.hw c.addr = .paged levels ptidxbits ptesize) :
    c.getPhysicalAddress = c.reachLeaf >>= walkLeaf c.hw c.view c.ptidxbits c.addr c.type := by
  unfold Call.getPhysicalAddress Call.reachLeaf walkStage Call.levels Call.ptidxbits Call.ptesize
  rw [h]

theorem paged_or_direct (c : Call) (memory : PageMemory) :
    c.getPhysicalAddress = c.reachLeaf >>= walkLeaf c.hw c.view c.ptidxbits c.addr c.type ∨
      finalState (c.getPhysicalAddress memory) = memory ∧ c.levels = 0 := by
  cases h : c.view.plan c.hw c.addr with
  | paged levels ptidxbits ptesize => exact .inl (getPhysicalAddress_paged h)
  | refused =>
    right
    simp only [Call.getPhysicalAddress, walkStage, Call.levels, h]
    exact ⟨rfl, trivial⟩
  | direct =>
    right
    simp only [Call.getPhysicalAddress, walkStage, Call.levels, h]
    exact ⟨rfl, trivial⟩
  | unreachable =>
    right
    simp only [Call.getPhysicalAddress, walkStage, Call.levels, h]
    exact ⟨rfl, trivial⟩

theorem respects_of_kept (hk : finalState (c.getPhysicalAddress memory) = memory) : c.Respects memory := by
  unfold Call.Respects
  cases ho : c.getPhysicalAddress memory with
  | error f a =>
    rw [ho] at hk
    exact hk
  | ok r a =>
    rw [ho] at hk
    exact .inl hk

theorem found_of_reachLeaf (hr : c.reachLeaf memory = .ok leaf a) : ∃ tb, c.found a = some (tb, leaf) := by
  have ht := walkLevels_found (call_resolves c) hr
  rw [← lookupTables_snd] at ht
  obtain ⟨⟨tb, same⟩, hf, rfl⟩ := Option.map_eq_some_iff.mp ht
  exact ⟨tb, hf⟩

theorem reachLeaf_of_found (h : c.found memory = some (tb, leaf)) : c.reachLeaf memory = .ok leaf memory := by
  apply lookupLevels_settled (call_resolves c)
  rw [← lookupTables_snd]
  exact Option.map_eq_some_iff.mpr ⟨(tb, leaf), h, rfl⟩

theorem leafAt_found (hf : c.found memory = some (tb, leaf)) : LeafAt c.hw c.env.pmp c.view leaf memory := by
  have ht := walkLevels_found (call_resolves c) (reachLeaf_of_found hf)
  exact lookupLevels_leaf ht

theorem leafPhysical_isSome_iff (c : Call) {pte : W64} (hs : AgedWord leaf.pte pte) :
    (c.view.leafPhysical c.hw (leaf.remaining * c.ptidxbits) (leaf.remaining == 0) c.addr pte).isSome ↔
      c.NapotFits leaf := by
  rw [leafPhysical_aged c.hw hs]
  unfold View.leafPhysical Call.NapotFits
  cases c.hw.extSvnapot with
  | false => simp
  | true =>
    by_cases hn : leaf.pte &&& pteN = 0
    · simp
    · simp

theorem updatePte_updates (hu : c.Updates memory leaf) : updatePte c.view c.type leaf memory =
    .ok (leaf.pte ||| accessBits c.type) (memory.setBits leaf.pteAddr (accessBits c.type)) := by
  obtain ⟨-, hn, hp⟩ := hu
  unfold updatePte
  rw [if_neg hn, if_pos hp]

theorem updatePte_kept {c : Call} (hs : ¬(leaf.pte ||| accessBits c.type ≠ leaf.pte ∧ c.view.adue ∧
    memory.ram leaf.pteAddr)) : finalState (updatePte c.view c.type leaf memory) = memory := by
  unfold updatePte
  dsimp only
  split
  · rfl
  case isFalse hn =>
    rw [if_neg fun hp => hs ⟨hn, hp⟩]
    rfl

theorem walkLeaf_kept (hs : ¬c.Updates memory leaf) :
    finalState (walkLeaf c.hw c.view c.ptidxbits c.addr c.type leaf memory) = memory := by
  unfold walkLeaf
  cases hp : c.view.leafProt (leaf.remaining * c.ptidxbits) leaf.pte with
  | none => rfl
  | some f =>
    obtain ⟨pr, sp⟩ := f
    dsimp only
    split
    · rfl
    case isFalse ha =>
      have hk := updatePte_kept fun hn => hs ⟨⟨pr, sp, hp, ha⟩, hn⟩
      show finalState (EStateM.bind _ _ memory) = memory
      unfold EStateM.bind
      cases ho : updatePte c.view c.type leaf memory with
      | error fa a =>
        rw [ho] at hk
        exact hk
      | ok pte a =>
        rw [ho] at hk
        dsimp only
        cases c.view.leafPhysical c.hw (leaf.remaining * c.ptidxbits) (leaf.remaining == 0) c.addr pte with
        | none => exact hk
        | some p => exact hk

theorem walkLeaf_updates (hu : c.Updates memory leaf) (rwx : leaf.pte &&& (pteR ||| pteW ||| pteX) ≠ 0) :
    (c.NapotFits leaf → ∃ f, walkLeaf c.hw c.view c.ptidxbits c.addr c.type leaf memory =
      .ok f (memory.setBits leaf.pteAddr (accessBits c.type))) ∧
    (¬c.NapotFits leaf → walkLeaf c.hw c.view c.ptidxbits c.addr c.type leaf memory =
      .error .fail (memory.setBits leaf.pteAddr (accessBits c.type))) := by
  let q := leaf.pte ||| accessBits c.type
  have hr := updatePte_updates hu
  have aged : AgedWord leaf.pte q :=
    .inr ⟨rwx, _, accessBits_within c.type, rfl⟩
  have hf := leafPhysical_isSome_iff c aged
  obtain ⟨⟨pr, sp, permits, ha⟩, -⟩ := hu
  let g := leaf.remaining * c.ptidxbits
  have he : walkLeaf c.hw c.view c.ptidxbits c.addr c.type leaf memory =
      match c.view.leafPhysical c.hw g (leaf.remaining == 0) c.addr
        q with
      | none => .error .fail (memory.setBits leaf.pteAddr (accessBits c.type))
      | some p => .ok (p, dropWrite c.type q pr)
          (memory.setBits leaf.pteAddr (accessBits c.type)) := by
    unfold walkLeaf
    rw [permits]
    dsimp only
    rw [if_neg ha]
    show EStateM.bind _ _ memory = _
    unfold EStateM.bind
    rw [hr]
    dsimp only
    cases c.view.leafPhysical c.hw g (leaf.remaining == 0) c.addr
        q with
    | none => rfl
    | some p => rfl
  rw [he]
  cases hp : c.view.leafPhysical c.hw g (leaf.remaining == 0) c.addr
      q with
  | none =>
    rw [hp] at hf
    exact ⟨fun hn => absurd (hf.mpr hn) (by simp), fun _ => rfl⟩
  | some p =>
    rw [hp] at hf
    exact ⟨fun _ => ⟨_, rfl⟩, fun hm => absurd (hf.mp rfl) hm⟩

theorem setBits_ne (at_ : LeafAt c.hw c.env.pmp c.view leaf memory)
    (needed : leaf.pte ||| accessBits c.type ≠ leaf.pte) : memory.setBits leaf.pteAddr (accessBits c.type) ≠ memory := by
  intro same
  obtain ⟨word, stored, read⟩ := pteAt_ok at_.1
  have marked : (memory.setBits leaf.pteAddr (accessBits c.type)).word leaf.pteAddr =
      some (word ||| accessBits c.type) := by simp [PageMemory.setBits, stored]
  rw [same, stored] at marked
  apply needed
  rw [read, ← pteOf_or word (accessBits_within c.type), ← Option.some.inj marked]

theorem found_injective {t' : W64} {l' : Leaf} (found : c.found memory = some (tb, leaf))
    (hf : c.found memory = some (t', l')) : t' = tb ∧ l' = leaf := by
  rw [found] at hf
  cases hf
  exact ⟨rfl, rfl⟩

end

section
variable {c : Call} {memory : PageMemory} {tb : W64} {l : Leaf}

theorem getPhysicalAddress_reached (hf : c.found memory = some (tb, l)) :
    c.getPhysicalAddress memory = walkLeaf c.hw c.view c.ptidxbits c.addr c.type l memory := by
  have hr := reachLeaf_of_found hf
  rcases paged_or_direct c memory with hp | ⟨-, levels⟩
  · rw [hp]
    show EStateM.bind _ _ memory = _
    unfold EStateM.bind
    rw [hr]
  · simp [Call.found, levels, lookupTables] at hf

theorem respects_found (hf : c.found memory = some (tb, l)) :
    c.Respects memory ↔ (c.Updates memory l → c.NapotFits l ∧ c.MayUpdate memory tb l) := by
  have walked := getPhysicalAddress_reached hf
  have at_ := leafAt_found hf
  by_cases hu : c.Updates memory l
  · have hc := setBits_ne at_ hu.2.1
    have rwx := ((pteKind_leaf_iff c.hw l.pte).mp at_.2).2.2
    obtain ⟨used, plain⟩ := walkLeaf_updates hu rwx
    unfold Call.Respects
    rw [walked]
    by_cases fits : c.NapotFits l
    · obtain ⟨r, ran⟩ := used fits
      rw [ran]
      have aged : Aged memory (memory.setBits l.pteAddr (accessBits c.type)) := by
        obtain ⟨word, ht, hr⟩ := pteAt_ok at_.1
        exact aged_setBits ht (at_.rwx hr) (accessBits_within c.type)
      obtain ⟨pte', hf'⟩ := lookupTables_aged (call_resolves c) aged hf
      constructor
      · rintro (hs | ⟨t', l', bits, ha, -, -, hm⟩) -
        · exact absurd hs hc
        · refine ⟨fits, ?_⟩
          obtain ⟨rfl, rfl⟩ := found_injective hf' ha
          exact hm
      · intro hp
        exact .inr ⟨tb, _, accessBits c.type, hf', accessBits_within c.type, rfl, (hp hu).2⟩
    · rw [plain fits]
      exact ⟨fun hs => absurd hs hc, fun hp => absurd (hp hu).1 fits⟩
  · constructor
    · exact fun _ updates => absurd updates hu
    · intro _
      apply respects_of_kept
      rw [walked]
      exact walkLeaf_kept hu

theorem getPhysicalAddress_kept (reached : finalState (c.reachLeaf memory) = memory)
    (unneeded : ∀ tb leaf, c.found memory = some (tb, leaf) → ¬c.Updates memory leaf) :
    finalState (c.getPhysicalAddress memory) = memory := by
  rcases paged_or_direct c memory with paged | ⟨direct, -⟩
  · rw [paged]
    show finalState (EStateM.bind _ _ memory) = memory
    unfold EStateM.bind
    cases walked : c.reachLeaf memory with
    | error failure after =>
      rw [walked] at reached
      exact reached
    | ok leaf after =>
      rw [walked] at reached
      obtain rfl : after = memory := reached
      obtain ⟨tb, found⟩ := found_of_reachLeaf walked
      exact walkLeaf_kept (unneeded tb leaf found)
  · exact direct

theorem reachLeaf_plain (plain : c.nested = false) : finalState (c.reachLeaf memory) = memory := by
  have same : c.resolve = pure := by simp [Call.resolve, plain]
  unfold Call.reachLeaf
  rw [same]
  exact walkLevels_kept resolves_pure fun _ _ => rfl

theorem resolve_guest (nested : c.nested) (base : W64) :
    finalState (c.resolve base memory) = finalState ((c.guestCall base).getPhysicalAddress memory) := by
  have same : c.resolve = resolveBase c.hw c.env := by simp [Call.resolve, nested]
  rw [same, resolveBase, getGuestPhysicalAddress_call]
  show _ = finalState (Call.getPhysicalAddress ⟨c.hw, c.env, .user, false, true, false, base, .dataLoad⟩ memory)
  cases Call.getPhysicalAddress ⟨c.hw, c.env, .user, false, true, false, base, .dataLoad⟩ memory with
  | ok found after => rfl
  | error failure after => cases failure <;> rfl

theorem guestCall_plain (c : Call) (base : W64) : (c.guestCall base).nested = false := rfl

theorem reachLeaf_kept (unneeded : ∀ leaf, ¬c.UpdatesTable memory leaf) : finalState (c.reachLeaf memory) = memory := by
  cases nested : c.nested with
  | false => exact reachLeaf_plain nested
  | true =>
    refine walkLevels_kept (call_resolves c) fun base member => ?_
    rw [resolve_guest nested]
    refine getPhysicalAddress_kept (reachLeaf_plain (guestCall_plain c base)) fun tb leaf found updates => ?_
    refine unneeded leaf ⟨base, ?_, tb, found, updates⟩
    rw [Call.tables, if_pos nested]
    exact member

end

def readOnlyLoad : Call :=
  { sv39Load with
    hw := { plainConfig false with pmp := twoRegions }
    env := { sv39Load.env with
      pmp := run (writeStep twoRegions) resetState [.pmpaddr 0 0x3fffffffffffff, .pmpcfg 0 0x19] } }

end RiscvEmulators.Qemu.Mmu
