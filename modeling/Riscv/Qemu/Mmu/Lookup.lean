import Riscv.Qemu.Mmu.Walk
import Riscv.Transition.Contract

namespace RiscvEmulators.Qemu.Mmu
open Word Cpu Pmp Transition BitVec View

def AgedWord (before after : W64) : Prop :=
  after = before ∨ before &&& (pteR ||| pteW ||| pteX) ≠ 0 ∧ ∃ bits, Within (pteA ||| pteD) bits ∧ after = before ||| bits

theorem AgedWord.refl (word : W64) : AgedWord word word := .inl rfl

theorem AgedWord.agree {before a : W64} (ag : AgedWord before a) : AgreeOff (pteA ||| pteD) a before := by
  rcases ag with rfl | ⟨-, bits, h, rfl⟩
  · exact .refl _ _
  · exact agreeOff_or before h

theorem AgedWord.and_eq {b a : W64} (ag : AgedWord b a) {mask : W64}
    (h : Within (~~~(pteA ||| pteD)) mask) : a &&& mask = b &&& mask := ag.agree.and_eq h

theorem AgedWord.trans {fst snd third : W64} (ag : AgedWord fst snd) (later : AgedWord snd third) :
    AgedWord fst third := by
  rcases later with rfl | ⟨leaf, b', within, rfl⟩
  · exact ag
  · have hl : fst &&& (pteR ||| pteW ||| pteX) ≠ 0 := by
      rw [← ag.and_eq (by decide)]
      exact leaf
    rcases ag with rfl | ⟨-, bs, hw2, rfl⟩
    · exact .inr ⟨hl, b', within, rfl⟩
    · exact .inr ⟨hl, bs ||| b', hw2.or within, BitVec.or_assoc _ _ _⟩

theorem AgedWord.or_eq {b after bs : W64} (ag : AgedWord b after) (h : b ||| bs = b) : after ||| bs = after := by
  rcases ag with rfl | ⟨-, m, -, rfl⟩
  · exact h
  · rw [BitVec.or_assoc, BitVec.or_comm m, ← BitVec.or_assoc, h]

def Aged (before after : PageMemory) : Prop :=
  ∀ addr word, before.word addr = some word → ∃ word', after.word addr = some word' ∧ AgedWord word word'

theorem Aged.refl (memory : PageMemory) : Aged memory memory := fun _ w h => ⟨w, h, .refl w⟩

theorem Aged.trans {fst snd third : PageMemory} (ag : Aged fst snd) (hl : Aged snd third) : Aged fst third := by
  intro addr w hf2
  obtain ⟨w', found, older⟩ := ag addr w hf2
  obtain ⟨w'', hf, ho⟩ := hl addr w' found
  exact ⟨w'', hf, older.trans ho⟩

theorem aged_setBits {memory : PageMemory} {addr w bs : W64} (found : memory.word addr = some w)
    (leaf : w &&& (pteR ||| pteW ||| pteX) ≠ 0) (within : Within (pteA ||| pteD) bs) :
    Aged memory (memory.setBits addr bs) := by
  intro o w' hf
  by_cases hh : o = addr
  · subst hh
    rw [found] at hf
    cases hf
    refine ⟨w ||| bs, ?_, .inr ⟨leaf, bs, within, rfl⟩⟩
    simp [PageMemory.setBits, found]
  · refine ⟨w', ?_, .refl w'⟩
    simp [PageMemory.setBits, hh, hf]

section
variable (hw : Config) {v : View}

theorem pteOf_or (w : W64) {bits : W64} (within : Within (pteA ||| pteD) bits) :
    v.pteOf (w ||| bits) = v.pteOf w ||| bits := by
  unfold pteOf
  split
  · have hl : Within (0xffffffff : W64) bits := within.mono (by decide)
    rw [BitVec.and_comm, and_or_distrib_left, BitVec.and_comm _ w, BitVec.and_comm _ bits, hl.and_eq]
  · rfl

theorem pteOf_rwx (w : W64) : v.pteOf w &&& (pteR ||| pteW ||| pteX) = w &&& (pteR ||| pteW ||| pteX) := by
  unfold pteOf
  split
  · rw [BitVec.and_assoc, show (0xffffffff : W64) &&& (pteR ||| pteW ||| pteX) = pteR ||| pteW ||| pteX by decide]
  · rfl

theorem AgedWord.pteOf {w w' : W64} (ag : AgedWord w w') : AgedWord (v.pteOf w) (v.pteOf w') := by
  rcases ag with rfl | ⟨leaf, bs, h, rfl⟩
  · exact .refl _
  · refine .inr ⟨?_, bs, h, pteOf_or w h⟩
    rwa [pteOf_rwx]

theorem pteKind_leaf_iff (pte : W64) : v.pteKind hw pte = .leaf ↔
    v.malformed hw pte = false ∧ pte &&& pteV ≠ 0 ∧ pte &&& (pteR ||| pteW ||| pteX) ≠ 0 := by
  unfold pteKind
  constructor
  · intro leaf
    split at leaf
    case isTrue => cases leaf
    case isFalse hf =>
      split at leaf
      case isTrue => cases leaf
      case isFalse hv =>
        split at leaf
        case isTrue hg => exact ⟨(Bool.not_eq_true _).mp hf, hv, hg⟩
        case isFalse => split at leaf <;> cases leaf
  · rintro ⟨hf, hv, hg⟩
    rw [hf, if_neg Bool.false_ne_true, if_neg hv, if_pos hg]

section
variable {pte pt : W64} (a : AgedWord pte pt)
include a

theorem ppn_aged : v.ppn pt = v.ppn pte := by
  unfold ppn
  split
  · have hs := a.and_eq (show Within (~~~(pteA ||| pteD)) (~~~(((1 : W64) <<< 10) - 1)) by decide)
    have hn := congrArg BitVec.toNat hs
    rw [toNat_and_not_low_mask pt (by decide), toNat_and_not_low_mask pte (by decide)] at hn
    apply eq_of_toNat_eq
    rw [toNat_ushiftRight, toNat_ushiftRight, Nat.shiftRight_eq_div_pow]
    omega
  · rw [a.and_eq (by decide)]

theorem leafProt_aged (p : Nat) : v.leafProt p pt = v.leafProt p pte := by
  unfold leafProt leafRwx
  rw [ppn_aged a, a.and_eq (show Within _ ptePbmt by decide), a.and_eq (show Within _ pteU by decide),
    a.and_eq (show Within _ (pteR ||| pteW ||| pteX) by decide)]

theorem leafPhysical_aged (p : Nat) (la : Bool) (addr : W64) :
    v.leafPhysical hw p la addr pt = v.leafPhysical hw p la addr pte := by
  unfold leafPhysical
  rw [ppn_aged a, a.and_eq (show Within _ pteN by decide)]

theorem pteKind_leaf_aged (leaf : v.pteKind hw pte = .leaf) : v.pteKind hw pt = .leaf := by
  have h : pt &&& pteReserved hw.extSvrsw60t59b = pte &&& pteReserved hw.extSvrsw60t59b := by
    apply a.and_eq
    cases hw.extSvrsw60t59b <;> decide
  rw [pteKind_leaf_iff] at leaf ⊢
  unfold malformed at leaf ⊢
  rwa [h, a.and_eq (show Within _ ptePbmt by decide), a.and_eq (show Within _ pteN by decide),
    a.and_eq (show Within _ pteV by decide), a.and_eq (show Within _ (pteR ||| pteW ||| pteX) by decide)]

theorem table_aged (ht : v.pteKind hw pte = .table) : pt = pte := by
  rcases a with rfl | ⟨hg, -⟩
  · rfl
  · unfold pteKind at ht
    split at ht
    · cases ht
    · split at ht <;> cases ht

end
end

section
variable {hw : Config} {pmp : Pmp.State} {v : View}

theorem pteAt_ok {memory : PageMemory} {pa pte : W64} (hr : pteAt hw pmp v memory pa = .ok pte) :
    ∃ word, memory.word pa = some word ∧ pte = v.pteOf word := by
  unfold pteAt at hr
  split at hr
  · cases hr
  · cases hf : memory.word pa with
    | none =>
      rw [hf] at hr
      cases hr
    | some word =>
      rw [hf] at hr
      cases hr
      exact ⟨word, rfl, rfl⟩

theorem loadPte_eq_ok {memory a : PageMemory} {pa pte : W64} :
    loadPte hw pmp v pa memory = .ok pte a ↔ pteAt hw pmp v memory pa = .ok pte ∧ a = memory := by
  unfold loadPte
  cases pteAt hw pmp v memory pa with
  | error f => simp
  | ok fo => simp [eq_comm]

theorem pteAt_aged {memory memory' : PageMemory} (ag : Aged memory memory') {pa pte : W64}
    (hr : pteAt hw pmp v memory pa = .ok pte) : ∃ pte', pteAt hw pmp v memory' pa = .ok pte' ∧ AgedWord pte pte' := by
  obtain ⟨w, found, rfl⟩ := pteAt_ok hr
  obtain ⟨w', hf, ho⟩ := ag pa w found
  refine ⟨v.pteOf w', ?_, ho.pteOf⟩
  unfold pteAt at hr ⊢
  split at hr
  case isTrue => cases hr
  case isFalse ha => rw [if_neg ha, hf]

variable (hw pmp v) (levels ptidxbits ptesize : Nat) (addr : W64)

def lookupLevels (memory : PageMemory) (resolve : W64 → Option W64) : Nat → W64 → Option Leaf
  | 0, _ => none
  | remaining + 1, base =>
    match resolve base with
    | none => none
    | some table =>
      let pteAddr := table + v.index levels ptidxbits remaining addr * BitVec.ofNat 64 ptesize
      match pteAt hw pmp v memory pteAddr with
      | .error _ => none
      | .ok pte => match v.pteKind hw pte with
        | .refused => none
        | .table => lookupLevels memory resolve remaining (v.ppn pte <<< 12)
        | .leaf => some ⟨remaining, pteAddr, pte⟩

variable {hw pmp v levels ptidxbits ptesize addr} {memory memory' : PageMemory} {r : Nat} {base : W64} {leaf : Leaf}

theorem lookupLevels_succ {r1 : W64 → Option W64} :
    lookupLevels hw pmp v levels ptidxbits ptesize addr memory r1 (r + 1) base = some leaf ↔ ∃ t pte, r1 base = some t ∧
      pteAt hw pmp v memory (t + v.index levels ptidxbits r addr * BitVec.ofNat 64 ptesize) = .ok pte ∧
      (v.pteKind hw pte = .table ∧ lookupLevels hw pmp v levels ptidxbits ptesize addr memory r1 r
        (v.ppn pte <<< 12) = some leaf ∨
        v.pteKind hw pte = .leaf ∧ leaf = ⟨r, t + v.index levels ptidxbits r addr * BitVec.ofNat 64 ptesize, pte⟩) := by
  rw [lookupLevels]
  cases r1 base with
  | none => simp
  | some t =>
    cases hr : pteAt hw pmp v memory (t + v.index levels ptidxbits r addr * BitVec.ofNat 64 ptesize) with
    | error f => simp [hr]
    | ok pte => cases hk : v.pteKind hw pte <;> simp [hr, hk, eq_comm]

theorem walkLevels_succ {r1 : W64 → Walk W64} :
    walkLevels hw pmp v r1 levels ptidxbits ptesize addr (r + 1) base memory = .ok leaf memory' ↔
      ∃ table b pte, r1 base memory = .ok table b ∧
        pteAt hw pmp v b (table + v.index levels ptidxbits r addr * BitVec.ofNat 64 ptesize) = .ok pte ∧
        (v.pteKind hw pte = .table ∧ walkLevels hw pmp v r1 levels ptidxbits ptesize addr r
          (v.ppn pte <<< 12) b = .ok leaf memory' ∨ v.pteKind hw pte = .leaf ∧ memory' = b ∧
          leaf = ⟨r, table + v.index levels ptidxbits r addr * BitVec.ofNat 64 ptesize, pte⟩) := by
  rw [walkLevels, bind_eq_ok]
  apply exists_congr
  intro table
  constructor
  · rintro ⟨b, hr, hr2⟩
    obtain ⟨pte, a, hl, hm⟩ := bind_eq_ok.mp hr2
    obtain ⟨reads, rfl⟩ := loadPte_eq_ok.mp hl
    refine ⟨a, pte, hr, reads, ?_⟩
    cases hk : v.pteKind hw pte with
    | refused =>
      rw [hk] at hm
      cases hm
    | table =>
      rw [hk] at hm
      exact .inl ⟨rfl, hm⟩
    | leaf =>
      rw [hk] at hm
      have hs := pure_eq_ok.mp hm
      exact .inr ⟨rfl, hs.2, hs.1⟩
  · rintro ⟨b, pte, hr, reads, hr2⟩
    refine ⟨b, hr, bind_eq_ok.mpr ⟨pte, b, loadPte_eq_ok.mpr ⟨reads, rfl⟩, ?_⟩⟩
    rcases hr2 with ⟨hk, walked⟩ | ⟨hk, rfl, rfl⟩
    · rw [hk]
      exact walked
    · rw [hk]
      rfl

/-- How a translation of table addresses relates to its lookup: it finds what it is looked up with, and what it found
  stays there while the tables age. -/
structure Resolves (resolve : W64 → Walk W64) (lookup : PageMemory → W64 → Option W64) : Prop where
  settled : ∀ {memory base table}, lookup memory base = some table → resolve base memory = .ok table memory
  found : ∀ {memory base table after}, resolve base memory = .ok table after → lookup after base = some table
  ages : ∀ first base, Keeps (Aged first) (resolve base)
  persists : ∀ {memory after base table}, Aged memory after → lookup memory base = some table →
    lookup after base = some table

theorem resolves_pure : Resolves pure fun _ base => some base where
  settled := by
    rintro memory base t ⟨⟩
    rfl
  found := by
    rintro memory base t a ⟨⟩
    rfl
  ages := fun _ base => Keeps.pure base
  persists := fun _ h => h

theorem loadPte_keeps {I : PageMemory → Prop} (pa : W64) : Keeps I (loadPte hw pmp v pa) := by
  intro memory holds
  unfold loadPte
  cases pteAt hw pmp v memory pa with
  | ok pte => exact holds
  | error failure => exact holds

theorem walkLevels_keeps {I : PageMemory → Prop} {r1 : W64 → Walk W64}
    (hk : ∀ base, Keeps I (r1 base)) (r : Nat) (base : W64) :
    Keeps I (walkLevels hw pmp v r1 levels ptidxbits ptesize addr r base) := by
  induction r generalizing base with
  | zero => exact Keeps.throw _
  | succ r ih =>
    refine (hk base).bind fun table => (loadPte_keeps _).bind fun pte => ?_
    cases v.pteKind hw pte with
    | refused => exact Keeps.throw _
    | table => exact ih _
    | leaf => exact Keeps.pure _

section
variable {re : W64 → Walk W64} {l : PageMemory → W64 → Option W64} (res : Resolves re l)
include res

theorem lookupLevels_settled
    (hf : lookupLevels hw pmp v levels ptidxbits ptesize addr memory (l memory) r base = some leaf) :
    walkLevels hw pmp v re levels ptidxbits ptesize addr r base memory = .ok leaf memory := by
  induction r generalizing base with
  | zero => cases hf
  | succ r ih =>
    obtain ⟨t, pte, hr, reads, hr2⟩ := lookupLevels_succ.mp hf
    refine walkLevels_succ.mpr ⟨t, memory, pte, res.settled hr, reads, ?_⟩
    rcases hr2 with ⟨hk, hn⟩ | ⟨hk, hh⟩
    · exact .inl ⟨hk, ih hn⟩
    · exact .inr ⟨hk, rfl, hh⟩

theorem walkLevels_ages (fst : PageMemory) (r : Nat) (base : W64) :
    Keeps (Aged fst) (walkLevels hw pmp v re levels ptidxbits ptesize addr r base) :=
  walkLevels_keeps (res.ages fst) r base

theorem lookupLevels_aged (ag : Aged memory memory')
    (hf : lookupLevels hw pmp v levels ptidxbits ptesize addr memory (l memory) r base = some leaf) :
    ∃ pte', lookupLevels hw pmp v levels ptidxbits ptesize addr memory' (l memory') r base =
      some { leaf with pte := pte' } ∧ pteAt hw pmp v memory' leaf.pteAddr = .ok pte' ∧ AgedWord leaf.pte pte' := by
  induction r generalizing base with
  | zero => cases hf
  | succ r ih =>
    obtain ⟨t, pte, hr, hr3, hr4⟩ := lookupLevels_succ.mp hf
    obtain ⟨pte', reads, ho⟩ := pteAt_aged ag hr3
    rcases hr4 with ⟨hk, next⟩ | ⟨hk, rfl⟩
    · obtain ⟨la, hn, hr2, ha⟩ := ih next
      obtain rfl := table_aged hw ho hk
      exact ⟨la, lookupLevels_succ.mpr ⟨t, _, res.persists ag hr, reads, .inl ⟨hk, hn⟩⟩, hr2, ha⟩
    · refine ⟨pte', lookupLevels_succ.mpr ⟨t, pte', res.persists ag hr, reads, .inr ⟨?_, rfl⟩⟩, reads, ho⟩
      exact pteKind_leaf_aged hw ho hk

theorem walkLevels_found (walked : walkLevels hw pmp v re levels ptidxbits ptesize addr r base memory = .ok leaf memory') :
    lookupLevels hw pmp v levels ptidxbits ptesize addr memory' (l memory') r base = some leaf := by
  induction r generalizing base memory with
  | zero => cases walked
  | succ r ih =>
    obtain ⟨t, b, pte, hr, reads, hr2⟩ := walkLevels_succ.mp walked
    rcases hr2 with ⟨hk, hn⟩ | ⟨hk, rfl, rfl⟩
    · have ag : Aged b memory' := (walkLevels_ages res b r _).ok hn (.refl b)
      obtain ⟨pte', h', ho⟩ := pteAt_aged ag reads
      obtain rfl := table_aged hw ho hk
      exact lookupLevels_succ.mpr ⟨t, _, res.persists ag (res.found hr), h', .inl ⟨hk, ih hn⟩⟩
    · exact lookupLevels_succ.mpr ⟨t, pte, res.found hr, reads, .inr ⟨hk, rfl⟩⟩

end

theorem lookupLevels_leaf {r1 : W64 → Option W64}
    (hf : lookupLevels hw pmp v levels ptidxbits ptesize addr memory r1 r base = some leaf) :
    pteAt hw pmp v memory leaf.pteAddr = .ok leaf.pte ∧ v.pteKind hw leaf.pte = .leaf := by
  induction r generalizing base with
  | zero => cases hf
  | succ r ih =>
    obtain ⟨t, pte, -, hr, rest⟩ := lookupLevels_succ.mp hf
    rcases rest with ⟨-, hn⟩ | ⟨hk, rfl⟩
    · exact ih hn
    · exact ⟨hr, hk⟩

end

section
variable {hw : Config} {pmp : Pmp.State} {v : View} {ptidxbits : Nat} {addr physical : W64} {type : AccessType} {leaf : Leaf}
  {prot : BitVec 8} {memory m : PageMemory}

theorem accessBits_within (type : AccessType) : Within (pteA ||| pteD) (accessBits type) := by cases type <;> decide

def LeafAt (hw : Config) (pmp : Pmp.State) (v : View) (leaf : Leaf) (memory : PageMemory) : Prop :=
  pteAt hw pmp v memory leaf.pteAddr = .ok leaf.pte ∧ v.pteKind hw leaf.pte = .leaf

theorem updatePte_eq_ok {pte : W64} (hu : updatePte v type leaf memory = .ok pte m) :
    pte = leaf.pte ||| accessBits type ∧
      (pte = leaf.pte ∧ m = memory ∨ m = memory.setBits leaf.pteAddr (accessBits type)) := by
  unfold updatePte at hu
  dsimp only at hu
  split at hu
  case isTrue hh =>
    cases hu
    exact ⟨hh.symm, .inl ⟨rfl, rfl⟩⟩
  case isFalse =>
    split at hu
    · cases hu
      exact ⟨rfl, .inr rfl⟩
    · cases hu

theorem LeafAt.rwx {w : W64} (ha : LeafAt hw pmp v leaf memory) (hs : leaf.pte = v.pteOf w) :
    w &&& (pteR ||| pteW ||| pteX) ≠ 0 := by
  have hg := ((pteKind_leaf_iff hw leaf.pte).mp ha.2).2.2
  rwa [hs, pteOf_rwx] at hg

theorem updatePte_ages {fst : PageMemory} :
    Ensures (fun memory => Aged fst memory ∧ LeafAt hw pmp v leaf memory) (updatePte v type leaf) (fun _ => Aged fst)
      (Aged fst) := by
  rintro memory ⟨ha, at_⟩
  obtain ⟨word, found, hs⟩ := pteAt_ok at_.1
  unfold updatePte
  by_cases hh : leaf.pte ||| accessBits type = leaf.pte
  · rw [if_pos hh]
    exact ha
  · rw [if_neg hh]
    by_cases hu : v.adue ∧ memory.ram leaf.pteAddr
    · rw [if_pos hu]
      exact ha.trans (aged_setBits found (at_.rwx hs) (accessBits_within type))
    · rw [if_neg hu]
      exact ha

theorem updatePte_reads {pte : W64} (at_ : LeafAt hw pmp v leaf memory)
    (hu : updatePte v type leaf memory = .ok pte m) : Aged memory m ∧ pteAt hw pmp v m leaf.pteAddr = .ok pte := by
  obtain ⟨rfl, rest⟩ := updatePte_eq_ok hu
  rcases rest with ⟨hs, rfl⟩ | rfl
  · rw [hs]
    exact ⟨.refl _, at_.1⟩
  · obtain ⟨w, found, hs⟩ := pteAt_ok at_.1
    have ha := aged_setBits found (at_.rwx hs) (accessBits_within type)
    refine ⟨ha, ?_⟩
    obtain ⟨pte', hr, -⟩ := pteAt_aged ha at_.1
    obtain ⟨w', hf, rfl⟩ := pteAt_ok hr
    rw [hr, hs, ← pteOf_or w (accessBits_within type)]
    simp only [PageMemory.setBits, found, if_true, Option.map_some, Option.some.injEq] at hf
    rw [hf]

variable (hw v ptidxbits addr type leaf)

def lookupLeaf : Option (W64 × BitVec 8) :=
  match v.leafProt (leaf.remaining * ptidxbits) leaf.pte with
  | none => none
  | some (prot, _) =>
    if prot &&& type.prot = 0 ∨ leaf.pte ||| accessBits type ≠ leaf.pte then none
    else (v.leafPhysical hw (leaf.remaining * ptidxbits) (leaf.remaining == 0) addr leaf.pte).map
      fun physical => (physical, dropWrite type leaf.pte prot)

variable {hw v ptidxbits addr type leaf}

theorem lookupLeaf_eq_some : lookupLeaf hw v ptidxbits addr type leaf = some (physical, prot) ↔
    ∃ perms sp, v.leafProt (leaf.remaining * ptidxbits) leaf.pte = some (perms, sp) ∧
      perms &&& type.prot ≠ 0 ∧ leaf.pte ||| accessBits type = leaf.pte ∧
      v.leafPhysical hw (leaf.remaining * ptidxbits) (leaf.remaining == 0) addr leaf.pte = some physical ∧
      prot = dropWrite type leaf.pte perms := by
  unfold lookupLeaf
  cases v.leafProt (leaf.remaining * ptidxbits) leaf.pte with
  | none => simp
  | some found =>
    obtain ⟨perms, sp⟩ := found
    simp only [Option.some.injEq, Prod.mk.injEq]
    constructor
    · intro hl
      split at hl
      case isTrue => cases hl
      case isFalse hg =>
        obtain ⟨_, hp, hs⟩ := Option.map_eq_some_iff.mp hl
        cases hs
        exact ⟨perms, sp, ⟨rfl, rfl⟩, fun hr => hg (.inl hr), Decidable.not_not.mp fun lacks => hg (.inr lacks), hp, rfl⟩
    · rintro ⟨_, _, ⟨rfl, rfl⟩, ha, hh, hp, rfl⟩
      rw [if_neg (not_or.mpr ⟨ha, Decidable.not_not.mpr hh⟩), hp]
      rfl

theorem walkLeaf_eq_ok : walkLeaf hw v ptidxbits addr type leaf memory = .ok (physical, prot) m ↔
    ∃ perms sp pte, v.leafProt (leaf.remaining * ptidxbits) leaf.pte = some (perms, sp) ∧
      perms &&& type.prot ≠ 0 ∧ updatePte v type leaf memory = .ok pte m ∧
      v.leafPhysical hw (leaf.remaining * ptidxbits) (leaf.remaining == 0) addr pte = some physical ∧
      prot = dropWrite type pte perms := by
  unfold walkLeaf
  cases v.leafProt (leaf.remaining * ptidxbits) leaf.pte with
  | none =>
    constructor
    · intro walked
      cases walked
    · rintro ⟨_, _, _, ⟨⟩, _⟩
  | some found =>
    obtain ⟨perms, sp⟩ := found
    dsimp only
    by_cases hr : perms &&& type.prot = 0
    · rw [if_pos hr]
      constructor
      · intro walked
        cases walked
      · rintro ⟨_, _, _, ⟨⟩, ha, _⟩
        exact absurd hr ha
    · rw [if_neg hr]
      constructor
      · intro walked
        obtain ⟨pte, b, hu, rest⟩ := bind_eq_ok.mp walked
        cases hp : v.leafPhysical hw (leaf.remaining * ptidxbits) (leaf.remaining == 0) addr pte with
        | none =>
          rw [hp] at rest
          cases rest
        | some found =>
          rw [hp] at rest
          cases rest
          exact ⟨perms, sp, pte, rfl, hr, hu, hp, rfl⟩
      · rintro ⟨_, _, pte, ⟨⟩, _, hu, hp, rfl⟩
        refine bind_eq_ok.mpr ⟨pte, m, hu, ?_⟩
        rw [hp]
        rfl

theorem walkLeaf_ages (pmp : Pmp.State) (fst : PageMemory) :
    Ensures (fun memory => Aged fst memory ∧ LeafAt hw pmp v leaf memory) (walkLeaf hw v ptidxbits addr type leaf)
      (fun _ => Aged fst) (Aged fst) := by
  unfold walkLeaf
  dsimp only
  cases v.leafProt (leaf.remaining * ptidxbits) leaf.pte with
  | none => exact .throw fun _ hs => hs.1
  | some found =>
    dsimp only
    split
    · exact .throw fun _ hs => hs.1
    · refine updatePte_ages.bind fun pte => ?_
      cases v.leafPhysical hw (leaf.remaining * ptidxbits) (leaf.remaining == 0) addr pte with
      | none => exact .throw fun _ ha => ha
      | some physical => exact .pure fun _ ha => ha

end

section
variable (hw : Config) (pmp : Pmp.State) (v : View)

def lookupStage (memory : PageMemory) (resolve : W64 → Option W64) (addr : W64) (type : AccessType) :
    Option (W64 × BitVec 8) :=
  match v.plan hw addr with
  | .refused | .unreachable => none
  | .direct => some (addr, pageRwx)
  | .paged levels ptidxbits ptesize =>
    (lookupLevels hw pmp v levels ptidxbits ptesize addr memory resolve levels v.base).bind
      (lookupLeaf hw v ptidxbits addr type)

variable {hw pmp v} {r : W64 → Walk W64} {l : PageMemory → W64 → Option W64} {memory m : PageMemory}
  {a : W64} {ty : AccessType} {found : W64 × BitVec 8} (re : Resolves r l)

include re

theorem lookupStage_settled (hl : lookupStage hw pmp v memory (l memory) a ty = some found) :
    walkStage hw pmp v r a ty memory = .ok found memory := by
  unfold lookupStage at hl
  unfold walkStage
  cases planned : v.plan hw a with
  | refused =>
    rw [planned] at hl
    cases hl
  | unreachable =>
    rw [planned] at hl
    cases hl
  | direct =>
    rw [planned] at hl
    cases hl
    rfl
  | paged ls ptidxbits sz =>
    rw [planned] at hl
    obtain ⟨leaf, hr, hg⟩ := Option.bind_eq_some_iff.mp hl
    obtain ⟨p, sp, hp, ha, hh, hp2, hs⟩ := lookupLeaf_eq_some.mp hg
    refine bind_eq_ok.mpr ⟨leaf, memory, lookupLevels_settled re hr, ?_⟩
    exact walkLeaf_eq_ok.mpr ⟨p, sp, leaf.pte, hp, ha, if_pos hh, hp2, hs⟩

theorem walkStage_ages (fst : PageMemory) : Keeps (Aged fst) (walkStage hw pmp v r a ty) := by
  unfold walkStage
  cases v.plan hw a with
  | refused => exact Keeps.throw _
  | unreachable => exact Keeps.throw _
  | direct => exact Keeps.pure _
  | paged ls ptidxbits sz =>
    refine Ensures.bind (Keeps.and_ok (walkLevels_ages re fst ls v.base) ?_) fun leaf => walkLeaf_ages pmp fst
    intro memory leaf b h
    exact lookupLevels_leaf (walkLevels_found re h)

theorem walkStage_found (walked : walkStage hw pmp v r a ty memory = .ok found m) :
    lookupStage hw pmp v m (l m) a ty = some found := by
  unfold walkStage at walked
  unfold lookupStage
  cases planned : v.plan hw a with
  | refused =>
    rw [planned] at walked
    cases walked
  | unreachable =>
    rw [planned] at walked
    cases walked
  | direct =>
    rw [planned] at walked
    cases walked
    rfl
  | paged ls ptidxbits sz =>
    rw [planned] at walked
    obtain ⟨leaf, b, hl, he⟩ := bind_eq_ok.mp walked
    obtain ⟨p, sp, pte, hp, ha, hu, hp2, hs⟩ := walkLeaf_eq_ok.mp he
    have hr := walkLevels_found re hl
    obtain ⟨aged, hr2⟩ := updatePte_reads (lookupLevels_leaf hr) hu
    obtain ⟨pte', hr', reads, ho⟩ := lookupLevels_aged re aged hr
    obtain rfl : pte = pte' := by
      rw [hr2] at reads
      exact Except.ok.inj reads
    have hh : pte ||| accessBits ty = pte := by
      rw [(updatePte_eq_ok hu).1, BitVec.or_assoc, BitVec.or_self]
    refine Option.bind_eq_some_iff.mpr ⟨_, hr', ?_⟩
    exact lookupLeaf_eq_some.mpr ⟨p, sp, (leafProt_aged ho _).trans hp, ha, hh, hp2, hs⟩

end

end RiscvEmulators.Qemu.Mmu
