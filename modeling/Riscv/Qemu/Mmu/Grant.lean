import Riscv.Qemu.Mmu.Lookup

namespace RiscvEmulators.Qemu.Mmu
open Word Cpu Pmp Transition BitVec View Option

def accessBit : AccessType → Nat
  | .dataLoad => 0
  | .dataStore => 1
  | .instFetch => 2

theorem prot_has_iff (p : BitVec 8) (t : AccessType) : p &&& t.prot ≠ 0 ↔ p.getLsbD (accessBit t) := by
  revert p
  cases t <;> decide +kernel

def ProtLe (prot more : BitVec 8) : Prop := ∀ type : AccessType, prot &&& type.prot ≠ 0 → more &&& type.prot ≠ 0

theorem ProtLe.refl (prot : BitVec 8) : ProtLe prot prot := fun _ h => h

theorem ProtLe.trans {fst snd third : BitVec 8} (le : ProtLe fst snd) (hl : ProtLe snd third) :
    ProtLe fst third := fun t hh => hl t (le t hh)

theorem and_prot_iff (p p' : BitVec 8) (t : AccessType) :
    p &&& p' &&& t.prot ≠ 0 ↔ p &&& t.prot ≠ 0 ∧ p' &&& t.prot ≠ 0 := by
  rw [prot_has_iff, prot_has_iff, prot_has_iff, getLsbD_and, Bool.and_eq_true]

theorem ProtLe.and {p m p' m' : BitVec 8} (le : ProtLe p m) (hl : ProtLe p' m') : ProtLe (p &&& p') (m &&& m') := by
  intro t hh
  rw [and_prot_iff] at hh ⊢
  exact ⟨le t hh.1, hl t hh.2⟩

theorem dropWrite_le {t : AccessType} {pte p' : W64} (ha : AgedWord pte p') {p m : BitVec 8}
    (le : ProtLe p m) : ProtLe (dropWrite t pte p) (dropWrite t p' m) := by
  have hd : p' &&& pteD = 0 → pte &&& pteD = 0 := by
    rcases ha with rfl | ⟨-, bs, -, rfl⟩
    · exact id
    · intro hc
      by_cases hb : pte &&& pteD = 0
      · exact hb
      · exact absurd hc (or_and_ne_zero hb bs)
  unfold dropWrite
  split
  case isTrue hc =>
    split
    · exact le.and (.refl _)
    · intro a hh
      exact le a ((and_prot_iff _ _ _).mp hh).1
  case isFalse hk =>
    rw [if_neg fun hc => hk ⟨hc.1, hd hc.2⟩]
    exact le

theorem dropWrite_sub {t : AccessType} {pte : W64} {prot : BitVec 8} : ProtLe (dropWrite t pte prot) prot := by
  unfold dropWrite
  split
  · intro a h
    exact ((and_prot_iff _ _ _).mp h).1
  · exact .refl _

structure View.Le (v v' : View) : Prop where
  same : v' = { v with svukte := v'.svukte, mxr := v'.mxr, bcfien := v'.bcfien, probe := v'.probe }
  svukte : v'.svukte → v.svukte
  mxr : v.mxr → v'.mxr
  bcfien : v.bcfien → v'.bcfien
  probe : v'.probe → v.probe

theorem View.Le.refl (v : View) : v.Le v := ⟨rfl, id, id, id, id⟩

structure PmpSame (hw : Config) (pmp pmp' : Pmp.State) : Prop where
  check : getPhysicalAddressPmp hw.pmp pmp' = getPhysicalAddressPmp hw.pmp pmp
  size : getTlbSize hw.pmp pmp' = getTlbSize hw.pmp pmp

theorem PmpSame.refl (hw : Config) (pmp : Pmp.State) : PmpSame hw pmp pmp := ⟨rfl, rfl⟩

section

theorem prot_table {r w x m : Bool} : let p := (if r then pageRead else 0) ||| (if w then pageWrite else 0) |||
    (if x then if m then pageRead ||| pageExec else pageExec else 0)
    p.getLsbD 0 = (r || x && m) ∧ p.getLsbD 1 = w ∧ p.getLsbD 2 = x := by
  revert r w x m
  decide

variable (v : View) (rwx : W64)

theorem rwxProt_eq : v.rwxProt rwx =
    (if decide (rwx &&& pteR ≠ 0) then pageRead else 0) ||| (if decide (rwx &&& pteW ≠ 0) then pageWrite else 0) |||
      (if decide (rwx &&& pteX ≠ 0) then if v.mxr then pageRead ||| pageExec else pageExec else 0) := by
  simp [rwxProt]

theorem rwxProt_read :
    v.rwxProt rwx &&& AccessType.dataLoad.prot ≠ 0 ↔ rwx &&& pteR ≠ 0 ∨ rwx &&& pteX ≠ 0 ∧ v.mxr := by
  rw [prot_has_iff, rwxProt_eq, accessBit, prot_table.1, Bool.or_eq_true, Bool.and_eq_true, decide_eq_true_eq,
    decide_eq_true_eq]

theorem rwxProt_write : v.rwxProt rwx &&& AccessType.dataStore.prot ≠ 0 ↔ rwx &&& pteW ≠ 0 := by
  rw [prot_has_iff, rwxProt_eq, accessBit, prot_table.2.1, decide_eq_true_eq]

theorem rwxProt_exec : v.rwxProt rwx &&& AccessType.instFetch.prot ≠ 0 ↔ rwx &&& pteX ≠ 0 := by
  rw [prot_has_iff, rwxProt_eq, accessBit, prot_table.2.2, decide_eq_true_eq]

end

section
variable {hw : Config} {pmp pm : Pmp.State} {v v' : View} (le : v.Le v') {addr ph : W64} {ty : AccessType}
  {pr : BitVec 8}

include le

theorem pteAt_le (sa : PmpSame hw pmp pm) : pteAt hw pm v' = pteAt hw pmp v := by
  unfold pteAt
  rw [sa.check, le.same]
  rfl

theorem lookupLevels_le (sa : PmpSame hw pmp pm) {ls idx sz n : Nat} {b : W64} {leaf : Leaf}
    {mem : PageMemory} {r r' : W64 → Option W64} (wider : ∀ b t, r b = some t → r' b = some t)
    (hf : lookupLevels hw pmp v ls idx sz addr mem r n b = some leaf) :
    lookupLevels hw pm v' ls idx sz addr mem r' n b = some leaf := by
  have hi : v'.index = v.index := by
    rw [le.same]
    rfl
  have hk : v'.pteKind hw = v.pteKind hw := by
    rw [le.same]
    rfl
  have hp : v'.ppn = v.ppn := by
    rw [le.same]
    rfl
  induction n generalizing b with
  | zero => cases hf
  | succ n ih =>
    obtain ⟨t, pte, hr, reads, hr2⟩ := lookupLevels_succ.mp hf
    refine lookupLevels_succ.mpr ⟨t, pte, wider b t hr, ?_, ?_⟩
    · rw [pteAt_le le sa, hi]
      exact reads
    · rw [hk, hp, hi]
      rcases hr2 with ⟨kind, hn⟩ | he
      · exact .inl ⟨kind, ih hn⟩
      · exact .inr he

theorem leafRwx_le {pte rwx : W64} {sp : Bool} (hf : v.leafRwx pte = some (rwx, sp)) :
    ∃ r', v'.leafRwx pte = some (r', sp) ∧ Within r' rwx := by
  have stack : v'.sstackIdx = v.sstackIdx := by rw [le.same]
  unfold leafRwx at hf ⊢
  dsimp only at hf ⊢
  rw [stack]
  split at hf
  case isTrue => cases hf
  case isFalse hv =>
    rw [if_neg hv]
    split at hf
    case isTrue hs =>
      rw [if_pos hs]
      split at hf
      case isFalse => cases hf
      case isTrue he =>
        rw [if_pos (le.bcfien he)]
        cases hf
        refine ⟨_, rfl, ?_⟩
        cases v.sstackIdx with
        | true => exact within_self _
        | false =>
          cases probe : v'.probe with
          | true =>
            rw [le.probe probe]
            exact within_self _
          | false =>
            cases v.probe with
            | true => exact within_zero _
            | false => exact within_self _
    case isFalse hp =>
      rw [if_neg hp]
      split at hf
      case isTrue => cases hf
      case isFalse hd =>
        rw [if_neg hd]
        cases hf
        exact ⟨_, rfl, within_self _⟩

theorem rwxProt_le {rwx r' : W64} (within : Within r' rwx) : ProtLe (v.rwxProt rwx) (v'.rwxProt r') := by
  intro ty hh
  cases ty with
  | dataLoad =>
    rw [rwxProt_read] at hh ⊢
    rcases hh with hr | ⟨he, hm⟩
    · exact .inl (within.and_ne_zero hr)
    · exact .inr ⟨within.and_ne_zero he, le.mxr hm⟩
  | dataStore =>
    rw [rwxProt_write] at hh ⊢
    exact within.and_ne_zero hh
  | instFetch =>
    rw [rwxProt_exec] at hh ⊢
    exact within.and_ne_zero hh

theorem leafProt_le {p : Nat} {pte : W64} {pe : BitVec 8} {sp : Bool} (hf : v.leafProt p pte = some (pe, sp)) :
    ∃ perms', v'.leafProt p pte = some (perms', sp) ∧ ProtLe pe perms' := by
  have ppn : v'.ppn = v.ppn := by
    rw [le.same]
    rfl
  have fields : v'.pbmte = v.pbmte ∧ v'.mode = v.mode ∧ v'.sum = v.sum := by
    rw [le.same]
    exact ⟨rfl, rfl, rfl⟩
  obtain ⟨pbmt, mode, sum⟩ := fields
  unfold leafProt at hf ⊢
  rw [ppn, pbmt, mode, sum]
  split at hf
  case isTrue => cases hf
  case isFalse ha =>
    rw [if_neg ha]
    split at hf
    case isTrue => cases hf
    case isFalse plain =>
      rw [if_neg plain]
      cases hp : v.leafRwx pte with
      | none =>
        rw [hp] at hf
        cases hf
      | some a =>
        obtain ⟨rwx', hp', within⟩ := leafRwx_le le hp
        have hm := rwxProt_le le within
        rw [hp] at hf
        rw [hp']
        dsimp only at hf ⊢
        split at hf
        case isTrue hu =>
          rw [if_pos hu]
          split at hf
          case isTrue inside =>
            rw [if_pos inside]
            cases hf
            exact ⟨_, rfl, hm⟩
          case isFalse absent =>
            rw [if_neg absent]
            split at hf
            case isFalse => cases hf
            case isTrue hl =>
              rw [if_pos hl]
              cases hf
              exact ⟨_, rfl, hm.and (.refl _)⟩
        case isFalse hs =>
          rw [if_neg hs]
          split at hf
          case isFalse => cases hf
          case isTrue hi =>
            rw [if_pos hi]
            cases hf
            exact ⟨_, rfl, hm⟩

theorem lookupLeaf_le {idx : Nat} {lf : Leaf} {pt' : W64} (ha : AgedWord lf.pte pt')
    (hf : lookupLeaf hw v idx addr ty lf = some (ph, pr)) :
    ∃ prot', lookupLeaf hw v' idx addr ty { lf with pte := pt' } = some (ph, prot') ∧ ProtLe pr prot' := by
  obtain ⟨p, sp, permits, ha2, hh, place, rfl⟩ := lookupLeaf_eq_some.mp hf
  obtain ⟨p', hp, hm⟩ := leafProt_le le permits
  refine ⟨dropWrite ty pt' p', lookupLeaf_eq_some.mpr ⟨p', sp, ?_, hm ty ha2, ha.or_eq hh, ?_, rfl⟩, dropWrite_le ha hm⟩
  · rw [leafProt_aged ha]
    exact hp
  · rw [leafPhysical_aged hw ha, show v'.leafPhysical hw = v.leafPhysical hw by rw [le.same]; rfl]
    exact place

theorem plan_le (hg : v.plan hw addr ≠ .refused) : v'.plan hw addr = v.plan hw addr := by
  have hl : (v.svukte && !v.checkSvukteAddr addr) = false := by
    cases hh : v.svukte && !v.checkSvukteAddr addr with
    | false => rfl
    | true =>
      unfold plan at hg
      rw [hh] at hg
      exact absurd rfl hg
  have hl' : (v'.svukte && !v'.checkSvukteAddr addr) = false := by
    have sa : v'.checkSvukteAddr = v.checkSvukteAddr := by
      rw [le.same]
      rfl
    rw [sa]
    cases hc : v'.svukte with
    | false => rfl
    | true =>
      rw [le.svukte hc] at hl
      exact hl
  unfold plan
  rw [hl, hl', le.same]
  rfl

theorem lookupStage_le (sa : PmpSame hw pmp pm) {mem m' : PageMemory} (ha : Aged mem m')
    {r : W64 → Walk W64} {l : PageMemory → W64 → Option W64} (resolves : Resolves r l)
    {r' : W64 → Option W64} (wider : ∀ b t, l m' b = some t → r' b = some t)
    (hf : lookupStage hw pmp v mem (l mem) addr ty = some (ph, pr)) :
    ∃ prot', lookupStage hw pm v' m' r' addr ty = some (ph, prot') ∧ ProtLe pr prot' := by
  have goes : v.plan hw addr ≠ .refused := by
    intro refused
    unfold lookupStage at hf
    rw [refused] at hf
    cases hf
  unfold lookupStage at hf ⊢
  rw [plan_le le goes]
  cases hp : v.plan hw addr with
  | refused => exact absurd hp goes
  | unreachable =>
    rw [hp] at hf
    cases hf
  | direct =>
    rw [hp] at hf
    cases hf
    exact ⟨pageRwx, rfl, .refl _⟩
  | paged ls idx sz =>
    rw [hp] at hf
    obtain ⟨leaf, hr2, grants⟩ := Option.bind_eq_some_iff.mp hf
    obtain ⟨pte', hr, -, ho⟩ := lookupLevels_aged resolves ha hr2
    obtain ⟨prot', hg, hm⟩ := lookupLeaf_le le ho grants
    have b : v'.base = v.base := by
      rw [le.same]
      rfl
    rw [b]
    exact ⟨prot', Option.bind_eq_some_iff.mpr ⟨_, lookupLevels_le le sa wider hr, hg⟩, hm⟩

end

section
variable {hw : Config} {pmp : Pmp.State} {v : View} {addr a ph : W64} (s : a >>> 12 = addr >>> 12)
  {ty typ : AccessType} {pr : BitVec 8}

include s

theorem shift_same {n : Nat} (h : 12 ≤ n) : a >>> n = addr >>> n := by
  obtain ⟨k, rfl⟩ := Nat.exists_eq_add_of_le h
  rw [shiftRight_add, shiftRight_add, s]

theorem bit_same {n : Nat} (hh : 12 ≤ n) : a.getLsbD n = addr.getLsbD n := by
  have hb := congrArg (fun w => w.getLsbD (n - 12)) s
  simp only [getLsbD_ushiftRight] at hb
  rwa [show 12 + (n - 12) = n by omega] at hb

omit s in
theorem vm_dimensions {ls idx sz : Nat} (vm : v.vm = .paged ls idx sz) :
    ls = 2 ∧ idx = 10 ∨ v.rv32 = false ∧ idx = 9 ∧ 3 ≤ ls ∧ ls ≤ 5 := by
  have hn : getField v.atp satp32Mode = 0 ∨ getField v.atp satp32Mode = 1 := by
    rw [getField_eq_shift _ _ 31 (by decide) (by decide)]
    have hb := BitVec.and_twoPow v.atp 31
    rw [show satp32Mode = BitVec.twoPow 64 31 by decide]
    split at hb
    · rw [hb]
      decide
    · rw [hb]
      decide
  cases hr : v.rv32 with
  | true =>
    left
    simp only [View.vm, hr] at vm
    rcases hn with hz | ho
    · rw [hz] at vm
      cases vm
    · rw [ho] at vm
      cases vm
      exact ⟨rfl, rfl⟩
  | false =>
    simp only [View.vm, hr, Bool.false_eq_true, if_false] at vm
    split at vm
    · cases vm
      exact .inl ⟨rfl, rfl⟩
    split at vm
    · cases vm
      exact .inr ⟨rfl, rfl, by decide, by decide⟩
    split at vm
    · cases vm
      exact .inr ⟨rfl, rfl, by decide, by decide⟩
    split at vm
    · cases vm
      exact .inr ⟨rfl, rfl, by decide, by decide⟩
    split at vm
    · cases vm
    · cases vm

omit s in
theorem vm_paged {ls idx sz : Nat} (vm : v.vm = .paged ls idx sz) : 20 ≤ ls * idx := by
  rcases vm_dimensions vm with ⟨rfl, rfl⟩ | ⟨-, rfl, hl, -⟩ <;> omega

theorem plan_same : v.plan hw a = v.plan hw addr := by
  have hc : v.checkSvukteAddr a = v.checkSvukteAddr addr := by
    unfold checkSvukteAddr sxlen
    rw [bit_same s]
    split <;> decide
  unfold plan
  rw [hc]
  cases vm : v.vm with
  | bare => rfl
  | unreachable => rfl
  | paged ls idx sz =>
    have hl := vm_paged vm
    have hr : v.inRange ls idx a = v.inRange ls idx addr := by
      unfold inRange
      dsimp only
      rw [shift_same s (show 12 ≤ 12 + ls * idx + v.widened - 1 by omega),
        shift_same s (show 12 ≤ 12 + ls * idx + v.widened by omega)]
    dsimp only
    rw [hr]

theorem lookupLevels_same {ls idx sz n : Nat} {b : W64} {leaf : Leaf} {mem : PageMemory} {r : W64 → Option W64}
    (hf : lookupLevels hw pmp v ls idx sz addr mem r n b = some leaf) :
    lookupLevels hw pmp v ls idx sz a mem r n b = some leaf := by
  have hi : ∀ n, v.index ls idx n a = v.index ls idx n addr := by
    intro n
    unfold index
    rw [shift_same s (Nat.le_add_right 12 _)]
  induction n generalizing b with
  | zero => cases hf
  | succ n ih =>
    obtain ⟨t, pte, hr, reads, hr2⟩ := lookupLevels_succ.mp hf
    refine lookupLevels_succ.mpr ⟨t, pte, hr, ?_, ?_⟩
    · rw [hi]
      exact reads
    · rw [hi]
      rcases hr2 with ⟨hk, hn⟩ | he
      · exact .inl ⟨hk, ih hn⟩
      · exact .inr he

theorem leafPhysical_same {p : Nat} {l : Bool} {pte : W64} (hp : v.leafPhysical hw p l addr pte = some ph) :
    ∃ p', v.leafPhysical hw p l a pte = some p' ∧ p' >>> 12 = ph >>> 12 := by
  have ho : ∀ pa addr : W64, (pa <<< 12 ||| addr &&& 0xfff) >>> 12 = pa <<< 12 >>> 12 := by
    intro pa addr
    rw [ushiftRight_or_distrib, ushiftRight_and_distrib]
    simp
  unfold leafPhysical at hp ⊢
  dsimp only at hp ⊢
  split at hp
  case isTrue => cases hp
  case isFalse hv =>
    cases hp
    rw [if_neg hv]
    refine ⟨_, rfl, ?_⟩
    rw [ho, ho, s]

omit s in
theorem accessBits_granted {pte : W64} {perms : BitVec 8} (has : pte ||| accessBits ty = pte)
    (granted : dropWrite ty pte perms &&& typ.prot ≠ 0) :
    pte ||| accessBits typ = pte ∧ perms &&& typ.prot ≠ 0 ∧ dropWrite typ pte perms &&& typ.prot ≠ 0 := by
  have accessed : pte ||| pteA = pte := by
    rw [← has, accessBits, BitVec.or_assoc, BitVec.or_comm _ pteA, ← BitVec.or_assoc pteA, BitVec.or_self]
  have asked : perms &&& typ.prot ≠ 0 := dropWrite_sub typ granted
  by_cases store : typ = .dataStore
  · subst store
    have dirty : pte ||| pteD = pte := by
      by_cases stored : ty = .dataStore
      · rw [← has, accessBits, if_pos stored, BitVec.or_assoc, BitVec.or_assoc, BitVec.or_self]
      · by_cases clean : pte &&& pteD = 0
        · rw [dropWrite, if_pos ⟨stored, clean⟩] at granted
          exact absurd ((and_prot_iff _ _ _).mp granted).2 (by decide)
        · exact or_twoPow_eq (k := 7) (by decide) clean
    refine ⟨?_, asked, ?_⟩
    · rw [accessBits, if_pos rfl, ← BitVec.or_assoc, accessed, dirty]
    · exact asked
  · refine ⟨?_, asked, ?_⟩
    · rw [accessBits, if_neg store, show pteA ||| 0 = pteA by decide, accessed]
    · unfold dropWrite
      split
      · refine (and_prot_iff _ _ _).mpr ⟨asked, ?_⟩
        cases typ <;> first | exact absurd rfl store | decide
      · exact asked

theorem lookupLeaf_same {idx : Nat} {lf : Leaf}
    (hf : lookupLeaf hw v idx addr ty lf = some (ph, pr)) (grants : pr &&& typ.prot ≠ 0) :
    ∃ p' pr', lookupLeaf hw v idx a typ lf = some (p', pr') ∧ p' >>> 12 = ph >>> 12 ∧ pr' &&& typ.prot ≠ 0 := by
  obtain ⟨p, sp, hp, ha2, has, hp2, rfl⟩ := lookupLeaf_eq_some.mp hf
  obtain ⟨hh, ha, hg⟩ := accessBits_granted has grants
  obtain ⟨p', place, page⟩ := leafPhysical_same s hp2
  exact ⟨p', _, lookupLeaf_eq_some.mpr ⟨p, sp, hp, ha, hh, place, rfl⟩, page, hg⟩

theorem lookupStage_same {mem : PageMemory} {r : W64 → Option W64}
    (hf : lookupStage hw pmp v mem r addr ty = some (ph, pr)) (hg : pr &&& typ.prot ≠ 0) :
    ∃ p' pr', lookupStage hw pmp v mem r a typ = some (p', pr') ∧ p' >>> 12 = ph >>> 12 ∧ pr' &&& typ.prot ≠ 0 := by
  unfold lookupStage at hf ⊢
  rw [plan_same s]
  cases hp : v.plan hw addr with
  | refused =>
    rw [hp] at hf
    cases hf
  | unreachable =>
    rw [hp] at hf
    cases hf
  | direct =>
    rw [hp] at hf
    cases hf
    exact ⟨a, pageRwx, rfl, s, hg⟩
  | paged ls idx sz =>
    rw [hp] at hf
    obtain ⟨lf, hr, leaf⟩ := Option.bind_eq_some_iff.mp hf
    obtain ⟨p', pr', hl, page, hg'⟩ := lookupLeaf_same s leaf hg
    exact ⟨p', pr', Option.bind_eq_some_iff.mpr ⟨lf, lookupLevels_same s hr, hl⟩, page, hg'⟩

end

section
variable (hw : Config) (env : Env) (memory : PageMemory)

def lookupGuest (probe : Bool) (addr : W64) (type : AccessType) : Option (W64 × BitVec 8) :=
  lookupStage hw env.pmp (view hw env .user false true probe) memory some addr type

def lookupBase (base : W64) : Option W64 := (lookupGuest hw env memory false base .dataLoad).map Prod.fst
def lookupResolved (idx : MmuIdx) : W64 → Option W64 := if idx.twoStage then lookupBase hw env memory else some

def lookupFirst (idx : MmuIdx) (probe : Bool) (addr : W64) (type : AccessType) : Option (W64 × BitVec 8) :=
  lookupStage hw env.pmp (view hw env idx true idx.twoStage probe) memory (lookupResolved hw env memory idx) addr type

def lookupTranslate (idx : MmuIdx) (probe : Bool) (addr : W64) (type : AccessType) : Option (W64 × BitVec 8) :=
  (lookupFirst hw env memory idx probe addr type).bind fun first =>
    if idx.twoStage then
      (lookupGuest hw env memory probe first.1 type).map fun second => (second.1, first.2 &&& second.2)
    else some first

end

section
variable (hw : Config) (env : Env)

theorem resolves_base : Resolves (resolveBase hw env) (lookupBase hw env) where
  settled := by
    intro memory ba t hl
    obtain ⟨found, ht, rfl⟩ := map_eq_some_iff.mp hl
    have walked : getGuestPhysicalAddress hw env false ba .dataLoad memory = .ok found memory :=
      lookupStage_settled resolves_pure ht
    rw [resolveBase, walked]
  found := by
    intro memory ba t a hr
    unfold resolveBase at hr
    cases walked : getGuestPhysicalAddress hw env false ba .dataLoad memory with
    | ok found b =>
      rw [walked] at hr
      cases hr
      exact map_eq_some_iff.mpr ⟨found, walkStage_found resolves_pure walked, rfl⟩
    | error f b =>
      rw [walked] at hr
      cases f <;> cases hr
  ages := by
    intro fst ba memory ag
    have hw2 : Keeps (Aged fst) (getGuestPhysicalAddress hw env false ba .dataLoad) :=
      walkStage_ages resolves_pure fst
    have hk := hw2 memory ag
    unfold resolveBase
    cases walked : getGuestPhysicalAddress hw env false ba .dataLoad memory with
    | ok found b =>
      rw [walked] at hk
      exact hk
    | error f b =>
      rw [walked] at hk
      cases f <;> exact hk
  persists := by
    intro memory a ba t ag hl
    obtain ⟨⟨_, prot⟩, ht, rfl⟩ := map_eq_some_iff.mp hl
    obtain ⟨p', hs, -⟩ := lookupStage_le (.refl _) (.refl hw env.pmp) ag resolves_pure
      (fun _ _ same => same) ht
    exact map_eq_some_iff.mpr ⟨(_, p'), hs, rfl⟩

theorem resolves_first {idx : MmuIdx} :
    Resolves (if idx.twoStage then resolveBase hw env else pure) (fun memory => lookupResolved hw env memory idx) := by
  unfold lookupResolved
  cases idx.twoStage with
  | true => exact resolves_base hw env
  | false => exact resolves_pure

end

/-- The registers of `env'` grant every translation that those of `env` do. -/
structure Grants (hw : Config) (env env' : Env) : Prop where
  first : ∀ idx probe, (view hw env idx true idx.twoStage probe).Le (view hw env' idx true idx.twoStage false)
  second : ∀ probe, (view hw env .user false true probe).Le (view hw env' .user false true false)
  pmp : PmpSame hw env.pmp env'.pmp

section
variable {hw : Config} {env e : Env} {memory me : PageMemory} {idx : MmuIdx} {p : Bool} {ad addr' : W64}
  {ty typ : AccessType} {ph : W64} {pr : BitVec 8}

theorem Grants.refl (hw : Config) (env : Env) : Grants hw env env where
  first := fun _ _ => ⟨rfl, id, id, id, Bool.noConfusion⟩
  second := fun _ => ⟨rfl, id, id, id, Bool.noConfusion⟩
  pmp := .refl hw env.pmp

section
variable (gr : Grants hw env e) (a : Aged memory me)
include gr a

theorem lookupGuest_le (hf : lookupGuest hw env memory p ad ty = some (ph, pr)) :
    ∃ prot', lookupGuest hw e me false ad ty = some (ph, prot') ∧ ProtLe pr prot' :=
  lookupStage_le (gr.second p) gr.pmp a resolves_pure (fun _ _ hs => hs) hf

theorem lookupBase_le {b table : W64} (hf : lookupBase hw env memory b = some table) :
    lookupBase hw e me b = some table := by
  obtain ⟨⟨_, pr⟩, ht, rfl⟩ := map_eq_some_iff.mp hf
  obtain ⟨p', hs, -⟩ := lookupGuest_le gr a ht
  exact map_eq_some_iff.mpr ⟨(_, p'), hs, rfl⟩

theorem lookupFirst_le (hf : lookupFirst hw env memory idx p ad ty = some (ph, pr)) :
    ∃ prot', lookupFirst hw e me idx false ad ty = some (ph, prot') ∧ ProtLe pr prot' := by
  apply lookupStage_le (gr.first idx p) gr.pmp a (resolves_first hw env) ?_ hf
  unfold lookupResolved
  intro base t hr
  cases hs : idx.twoStage with
  | true =>
    rw [hs] at hr
    exact lookupBase_le gr (.refl me) hr
  | false =>
    rw [hs] at hr
    exact hr

theorem lookupTranslate_le (hf : lookupTranslate hw env memory idx p ad ty = some (ph, pr)) :
    ∃ prot', lookupTranslate hw e me idx false ad ty = some (ph, prot') ∧ ProtLe pr prot' := by
  obtain ⟨⟨m, g⟩, first, hr2⟩ := bind_eq_some_iff.mp hf
  obtain ⟨g', hr, hm⟩ := lookupFirst_le gr a first
  cases hs : idx.twoStage with
  | false =>
    rw [hs] at hr2
    cases hr2
    refine ⟨g', bind_eq_some_iff.mpr ⟨_, hr, ?_⟩, hm⟩
    rw [hs]
    rfl
  | true =>
    rw [hs] at hr2
    obtain ⟨⟨_, gu⟩, then', same⟩ := map_eq_some_iff.mp hr2
    cases same
    obtain ⟨gu', ht, hm'⟩ := lookupGuest_le gr a then'
    refine ⟨g' &&& gu', bind_eq_some_iff.mpr ⟨_, hr, ?_⟩, hm.and hm'⟩
    rw [hs]
    exact map_eq_some_iff.mpr ⟨_, ht, rfl⟩

end

theorem lookupTranslate_same (same : addr' >>> 12 = ad >>> 12)
    (hf : lookupTranslate hw env memory idx p ad ty = some (ph, pr)) (hg : pr &&& typ.prot ≠ 0) :
    ∃ p' pr', lookupTranslate hw env memory idx p addr' typ = some (p', pr') ∧
      p' >>> 12 = ph >>> 12 ∧ pr' &&& typ.prot ≠ 0 := by
  obtain ⟨⟨m, o⟩, first, hr2⟩ := bind_eq_some_iff.mp hf
  cases hs : idx.twoStage with
  | false =>
    rw [hs] at hr2
    cases hr2
    obtain ⟨p', pr', hr, hp, hg'⟩ := lookupStage_same same first hg
    refine ⟨p', pr', bind_eq_some_iff.mpr ⟨_, hr, ?_⟩, hp, hg'⟩
    rw [hs]
    rfl
  | true =>
    rw [hs] at hr2
    obtain ⟨⟨_, i⟩, second, hb⟩ := map_eq_some_iff.mp hr2
    cases hb
    obtain ⟨outer, inner⟩ := (and_prot_iff _ _ _).mp hg
    obtain ⟨m', o', hr, hp, ho⟩ := lookupStage_same same first outer
    obtain ⟨p', i', ht, hp', hi⟩ := lookupStage_same hp second inner
    refine ⟨p', o' &&& i', bind_eq_some_iff.mpr ⟨_, hr, ?_⟩, hp', (and_prot_iff _ _ _).mpr ⟨ho, hi⟩⟩
    rw [hs]
    exact map_eq_some_iff.mpr ⟨_, ht, rfl⟩

theorem lookupTranslate_settled {f : W64 × BitVec 8} (hl : lookupTranslate hw env memory idx p ad ty = some f) :
    translate hw env idx p ad ty memory = .ok f memory := by
  obtain ⟨fst, hr, rest⟩ := bind_eq_some_iff.mp hl
  have hw2 : getPhysicalAddress hw env idx p ad ty memory = .ok fst memory :=
    lookupStage_settled (resolves_first hw env) hr
  apply bind_eq_ok.mpr
  refine ⟨fst, memory, hw2, ?_⟩
  cases hs : idx.twoStage with
  | false =>
    rw [hs] at rest
    cases rest
    rfl
  | true =>
    rw [hs] at rest
    obtain ⟨snd, ht, rfl⟩ := map_eq_some_iff.mp rest
    have walked : getGuestPhysicalAddress hw env p fst.1 ty memory = .ok snd memory :=
      lookupStage_settled resolves_pure ht
    exact bind_eq_ok.mpr ⟨snd, memory, walked, rfl⟩

theorem translate_ages (fst : PageMemory) : Keeps (Aged fst) (translate hw env idx p ad ty) := by
  apply Keeps.bind (walkStage_ages (resolves_first hw env) fst)
  intro f
  apply Keeps.ite
  · intro _
    exact Keeps.bind (walkStage_ages resolves_pure fst) fun snd => Keeps.pure _
  · intro _
    exact Keeps.pure _

theorem translate_found (walked : translate hw env idx p ad ty memory = .ok (ph, pr) me) :
    ∃ prot', lookupTranslate hw env me idx false ad ty = some (ph, prot') ∧ ProtLe pr prot' := by
  obtain ⟨first, b, reads, hr2⟩ := bind_eq_ok.mp walked
  have looks : lookupFirst hw env b idx p ad ty = some first :=
    walkStage_found (resolves_first hw env) reads
  cases hs : idx.twoStage with
  | false =>
    rw [hs] at hr2
    obtain ⟨rfl, rfl⟩ := pure_eq_ok.mp hr2
    obtain ⟨prot', hl, hm⟩ := lookupFirst_le (.refl hw env) (.refl me) looks
    refine ⟨prot', bind_eq_some_iff.mpr ⟨_, hl, ?_⟩, hm⟩
    rw [hs]
    rfl
  | true =>
    rw [hs] at hr2
    obtain ⟨second, a, ht, last⟩ := bind_eq_ok.mp hr2
    obtain ⟨same, rfl⟩ := pure_eq_ok.mp last
    cases same
    have ha : Keeps (Aged b) (getGuestPhysicalAddress hw env p first.1 ty) :=
      walkStage_ages resolves_pure b
    have hl : lookupGuest hw env me p first.1 ty = some second := walkStage_found resolves_pure ht
    -- the second stage ages the memory that the first one was found in
    obtain ⟨o, hr, hm⟩ := lookupFirst_le (.refl hw env) (ha.ok ht (.refl b)) looks
    obtain ⟨i, ht', hm'⟩ := lookupGuest_le (.refl hw env) (.refl me) hl
    refine ⟨o &&& i, bind_eq_some_iff.mpr ⟨_, hr, ?_⟩, hm.and hm'⟩
    rw [hs]
    exact map_eq_some_iff.mpr ⟨_, ht', rfl⟩

end

end RiscvEmulators.Qemu.Mmu
