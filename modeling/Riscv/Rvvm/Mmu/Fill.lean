import Riscv.Rvvm.Mmu.Event

namespace RiscvEmulators.Rvvm
open Word Transition Vm Option BitVec

structure Vm.Coherent (kinds : Access → Prop) (board : Board) (vm : Vm) : Prop where
  placed : Placed vm.mmioDevs
  serves : ∀ (vaddr : Addr) (kind : Access), kinds kind → vm.Hits vaddr kind →
    served board vm vaddr kind = some ((vm.entryOf vaddr).ptr + vaddr)

theorem checkPriv_data {st : W64} {pv : Priv} {bs : W64} (hp : bs ≠ debugAccess)
    (data : bs ≠ mmuExec) : checkPriv st pv bs ↔ pv = privSupervisor ∧ st &&& statusSum ≠ 0 := by
  rw [checkPriv, if_neg hp, if_neg data]
  by_cases hd : pv ≠ privSupervisor ∨ st &&& statusSum = 0
  · rw [if_pos hd]
    refine ⟨fun hi => absurd hi Bool.false_ne_true, fun hb => ?_⟩
    rcases hd with ho | hc
    · exact absurd hb.1 ho
    · exact absurd hc hb.2
  · rw [if_neg hd]
    exact ⟨fun _ => ⟨Classical.not_not.mp fun ho => hd (.inl ho), fun hc => hd (.inr hc)⟩, fun _ => rfl⟩

theorem accessBits_data (vm : Vm) (kind : Access) (h : kind ≠ .exec) :
    vm.accessBits kind ≠ debugAccess ∧ vm.accessBits kind ≠ mmuExec := by
  unfold accessBits
  cases kind with
  | exec => exact absurd rfl h
  | read => split <;> decide
  | write => split <;> decide

theorem accessBits_exec (vm : Vm) : vm.accessBits .exec = mmuExec := by simp [accessBits, Access.bits]

theorem and_or_ne_zero {x a : W64} {b : W64} (hs : x &&& a ≠ 0) : x &&& (a ||| b) ≠ 0 := by
  intro hz
  rw [BitVec.and_or_distrib_left] at hz
  exact hs (BitVec.or_eq_zero_iff.mp hz).1

section
variable {bd : Board} {vm vm' : Vm} {kind : Access}

theorem checkPriv_looser {pv : Priv} (hd : kind ≠ .exec) (sum : vm.sum → vm'.sum)
    (hc : checkPriv vm.status pv (vm.accessBits kind)) : checkPriv vm'.status pv (vm'.accessBits kind) := by
  have bits := accessBits_data vm kind hd
  have hb := accessBits_data vm' kind hd
  rw [checkPriv_data bits.1 bits.2] at hc
  rw [checkPriv_data hb.1 hb.2]
  have hs := sum (decide_eq_true hc.2)
  exact ⟨hc.1, of_decide_eq_true hs⟩

theorem granted_looser (hm : kind = .read → vm.mxr → vm'.mxr) {pte : W64}
    (hg : pte &&& vm.accessBits kind ≠ 0) : pte &&& vm'.accessBits kind ≠ 0 := by
  unfold accessBits at hg ⊢
  by_cases hw : vm.mxr ∧ kind = .read
  · rw [if_pos hw] at hg
    rwa [if_pos ⟨hm hw.2 hw.1, hw.2⟩]
  · rw [if_neg hw] at hg
    split
    · exact and_or_ne_zero hg
    · exact hg

theorem permits_looser (priv : vm'.accessPriv kind = vm.accessPriv kind) (hs : kind ≠ .exec → vm.sum → vm'.sum)
    (hm : kind = .read → vm.mxr → vm'.mxr) {lf : Leaf}
    (hp : lf.Permits vm.status (vm.accessPriv kind) (vm.accessBits kind)) :
    lf.Permits vm'.status (vm'.accessPriv kind) (vm'.accessBits kind) := by
  obtain ⟨ha, hg⟩ := hp
  rw [priv]
  refine ⟨fun hr => ha ⟨hr.1, fun hc => hr.2 ?_⟩, granted_looser hm hg⟩
  by_cases hf : kind = .exec
  · subst hf
    rw [accessBits_exec] at hc
    cases hc
  · exact checkPriv_looser hf (hs hf) hc

theorem paged_congr (hp : vm'.accessPriv kind = vm.accessPriv kind) (hm : vm'.mmuMode = vm.mmuMode) :
    vm'.Paged kind ↔ vm.Paged kind := by rw [Vm.Paged, Vm.Paged, hp, hm]

theorem translation_mono {ki : Access} {va pa : Addr} (hp : vm'.Paged ki ↔ vm.Paged kind)
    (hf : vm.Paged kind → vm'.leafOf bd va = vm.leafOf bd va ∧ ∀ f, vm.leafOf bd va = some f →
      f.2.Permits vm.status (vm.accessPriv kind) (vm.accessBits kind) →
      f.2.Permits vm'.status (vm'.accessPriv ki) (vm'.accessBits ki))
    (ht : translation bd vm va kind = some pa) : translation bd vm' va ki = some pa := by
  rw [translation_eq] at ht ⊢
  by_cases h : vm.Paged kind
  · obtain ⟨hl, hm⟩ := hf h
    rw [if_pos h] at ht
    obtain ⟨f, hh, hr⟩ := bind_eq_some_iff.mp ht
    rw [if_pos (hp.mpr h), hl, hh, bind_some]
    rw [Leaf.resolve, ite_none_right_eq_some] at hr ⊢
    exact ⟨⟨hm f hh hr.1.1, hr.1.2⟩, hr.2⟩
  · rw [if_neg h] at ht
    rw [if_neg (mt hp.mp h), ht]

theorem translation_looser (hl : Looser vm vm' kind) (host : vm'.host = vm.host) {vaddr paddr : Addr}
    (ht : translation bd vm vaddr kind = some paddr) : translation bd vm' vaddr kind = some paddr := by
  rcases hl with ⟨hp, hp'⟩ | ⟨priv, hm, root, hs, mxr⟩
  · exact translation_mono (iff_of_false hp' hp) (fun h => absurd h hp) ht
  · apply translation_mono (paged_congr priv hm) (fun _ => ⟨?_, fun _ _ => permits_looser priv hs mxr⟩) ht
    exact leafOf_congr hm root (by rw [host]; exact fun _ _ _ _ => AgreeOff.refl _ _)

theorem served_looser (hl : Looser vm vm' kind) (hh : vm'.host = vm.host) (regions : vm'.mmioDevs = vm.mmioDevs)
    {va ptr : Addr} (hs : served bd vm va kind = some ptr) : served bd vm' va kind = some ptr := by
  obtain ⟨pa, ht, hb⟩ := bind_eq_some_iff.mp hs
  rw [served, translation_looser hl hh ht, bind_some, regions, hb]

theorem looser_refl (vm : Vm) (kind : Access) : Looser vm vm kind := .inr ⟨rfl, rfl, rfl, fun _ h => h, fun _ h => h⟩

end

/-- Translation looks at the status, the privilege, `satp`, the regions and memory only. -/
structure SameSpace (vm vm' : Vm) : Prop where
  status : vm'.status = vm.status
  privMode : vm'.privMode = vm.privMode
  mmuMode : vm'.mmuMode = vm.mmuMode
  root : vm'.rootPageTable = vm.rootPageTable
  host : vm'.host = vm.host
  regions : vm'.mmioDevs = vm.mmioDevs

theorem SameSpace.served {board : Board} {vm vm' : Vm} (hs : SameSpace vm vm') (addr : Addr) (kind : Access) :
    Rvvm.served board vm' addr kind = Rvvm.served board vm addr kind := by
  have priv : vm'.accessPriv kind = vm.accessPriv kind := by
    unfold accessPriv mprv mpp
    rw [hs.status, hs.privMode]
  have hb : vm'.accessBits kind = vm.accessBits kind := by
    unfold accessBits mxr
    rw [hs.status]
  have hl : vm'.leafOf board addr = vm.leafOf board addr := by
    simp [leafOf, hs.mmuMode, hs.root, hs.host]
  have hp := paged_congr priv hs.mmuMode
  rw [Rvvm.served, Rvvm.served, translation_eq, translation_eq, hl, priv, hb, hs.status, hs.regions]
  simp only [hp]

section
variable {k : Access → Prop} {board : Board} {vm vm' : Vm}

theorem Vm.Coherent.sameSpace (hc : vm.Coherent k board) (hs : SameSpace vm vm') (ht : vm'.tlb = vm.tlb) :
    vm'.Coherent k board := by
  refine ⟨hs.regions ▸ hc.placed, fun vaddr kind hw hh => ?_⟩
  have he : vm'.entryOf vaddr = vm.entryOf vaddr := by rw [entryOf, entryOf, ht]
  rw [Vm.Hits, he] at hh
  rw [hs.served, he]
  exact hc.serves vaddr kind hw hh

theorem coherent_of_empty (placed : Placed vm.mmioDevs) (he : vm.tlb = emptyTlb) : vm.Coherent k board :=
  ⟨placed, fun va kind _ hh => absurd hh (not_hits_emptyTlb he va kind)⟩

theorem Vm.Coherent.looser (hc : vm.Coherent k board) (tlb : vm'.tlb = vm.tlb) (hh : vm'.host = vm.host)
    (regions : vm'.mmioDevs = vm.mmioDevs) (looser : ∀ kind, k kind → Looser vm vm' kind) : vm'.Coherent k board := by
  refine ⟨regions ▸ hc.placed, fun vaddr kind hw hit => ?_⟩
  have he : vm'.entryOf vaddr = vm.entryOf vaddr := by rw [entryOf, entryOf, tlb]
  rw [Vm.Hits, he] at hit
  rw [served_looser (looser kind hw) hh regions (hc.serves vaddr kind hw hit), he]

theorem served_move {bar : Nat} {addr vaddr ptr : Addr} {kind : Access} (placed : Placed vm.mmioDevs)
    (free : Placed (moveRegion vm.mmioDevs bar addr)) (elsewhere : ∀ dev, vm.mmioDevs[bar]? = some dev → ¬dev.Holds ptr)
    (serves : served board vm vaddr kind = some ptr) :
    served board { vm with mmioDevs := moveRegion vm.mmioDevs bar addr } vaddr kind = some ptr := by
  obtain ⟨paddr, translated, behind⟩ := bind_eq_some_iff.mp serves
  exact bind_eq_some_iff.mpr ⟨paddr, translated, hostOf_move placed free elsewhere behind⟩

theorem Vm.Coherent.move {bar : Nat} {addr : Addr} (coherent : vm.Coherent k board)
    (careful : MoveCareful k vm bar addr) :
    ({ vm with mmioDevs := moveRegion vm.mmioDevs bar addr } : Vm).Coherent k board := by
  obtain ⟨free, elsewhere⟩ := careful
  refine ⟨free, fun vaddr kind watched hit => ?_⟩
  apply served_move coherent.placed free _ (coherent.serves vaddr kind watched hit)
  exact fun dev moves => elsewhere dev moves vaddr kind watched hit

theorem sameSpace_tlbFlushPage (vm : Vm) (a : Addr) : SameSpace vm (tlbFlushPage vm a) := by
  unfold tlbFlushPage
  dsimp only
  split <;> exact ⟨rfl, rfl, rfl, rfl, rfl, rfl⟩

theorem Vm.Coherent.flushPage (hc : vm.Coherent k board) (a : Addr) : (tlbFlushPage vm a).Coherent k board := by
  refine ⟨(sameSpace_tlbFlushPage vm a).regions ▸ hc.placed, fun va kind hw hh => ?_⟩
  obtain ⟨hb, hp⟩ := hits_tlbFlushPage hh
  rw [(sameSpace_tlbFlushPage vm a).served, hp, hc.serves va kind hw hb]

theorem leafOf_mark {va pa : Addr} {ac : Access} {host : Addr → BitVec 8}
    (ht : mmuTranslate board vm va ac = some (pa, host)) (other : Addr) :
    ({ vm with host := host } : Vm).leafOf board other = vm.leafOf board other :=
  leafOf_congr rfl rfl fun _ ha => mmuTranslate_sameTables ha ht

theorem served_mark {va pa : Addr} {ac : Access} {host : Addr → BitVec 8}
    (h : mmuTranslate board vm va ac = some (pa, host)) (o : Addr) (kind : Access) :
    served board { vm with host := host } o kind = served board vm o kind := by
  unfold served
  rw [translation_eq, translation_eq, leafOf_mark h]
  rfl

theorem served_unique {va ptr ptr' : Addr} {kind ac : Access} (ha : vm.Paged kind ↔ vm.Paged ac)
    (serves : served board vm va kind = some ptr) (hs : served board vm va ac = some ptr') : ptr = ptr' := by
  obtain ⟨p, ht, hb⟩ := bind_eq_some_iff.mp serves
  obtain ⟨p', ht', hb'⟩ := bind_eq_some_iff.mp hs
  have he : p = p' := by
    rw [translation_eq] at ht ht'
    by_cases hp : vm.Paged kind
    · rw [if_pos hp] at ht
      obtain ⟨f, hl, hr⟩ := bind_eq_some_iff.mp ht
      rw [if_pos (ha.mp hp), hl, bind_some, Leaf.resolve, ite_none_right_eq_some] at ht'
      rw [Leaf.resolve, ite_none_right_eq_some] at hr
      exact Option.some.inj (hr.2.symm.trans ht'.2)
    · rw [if_neg hp] at ht
      rw [if_neg (mt ha.mpr hp)] at ht'
      exact Option.some.inj (ht.symm.trans ht')
  rw [he, hb'] at hb
  exact (Option.some.inj hb).symm

theorem accessPriv_read_write : vm.accessPriv .read = vm.accessPriv .write := by simp [accessPriv]

theorem paged_read_write : vm.Paged .read ↔ vm.Paged .write := by rw [Vm.Paged, Vm.Paged, accessPriv_read_write]

theorem served_read_of_write {va ptr : Addr}
    (hr2 : vm.Paged .read → ∀ f, vm.leafOf board va = some f → f.2.pte &&& vm.accessBits .read ≠ 0)
    (hs : served board vm va .write = some ptr) : served board vm va .read = some ptr := by
  obtain ⟨paddr, ht, back⟩ := bind_eq_some_iff.mp hs
  have hr3 : translation board vm va .read = some paddr := by
    apply translation_mono paged_read_write (fun hp => ⟨rfl, fun f hh hg => ⟨fun read => hg.1 ?_, ?_⟩⟩) ht
    · have bits := accessBits_data vm .read (by decide)
      have hb := accessBits_data vm .write (by decide)
      rw [accessPriv_read_write, checkPriv_data bits.1 bits.2] at read
      rw [checkPriv_data hb.1 hb.2]
      exact read
    · exact hr2 (paged_read_write.mpr hp) f hh
  rw [served, hr3, bind_some, back]

end

def Vm.control (vm : Vm) : Vm := { vm with tlb := emptyTlb, host := fun _ => 0 }

structure Kept (kinds : Access → Prop) (board : Board) (access : Access) (vm vm' : Vm) : Prop where
  coherent : vm.Coherent kinds board → vm'.Coherent kinds board
  careful : ∀ vaddr, FillCareful kinds board vm vaddr access → FillCareful kinds board vm' vaddr access
  control : vm'.control = vm.control

section
variable {k : Access → Prop} {bd : Board} {access : Access} {vm vm' vm'' : Vm}

theorem Kept.refl (vm : Vm) : Kept k bd access vm vm := ⟨id, fun _ => id, rfl⟩

theorem Kept.trans (hf : Kept k bd access vm vm') (hs : Kept k bd access vm' vm'') : Kept k bd access vm vm'' :=
  ⟨hs.coherent ∘ hf.coherent, fun va => hs.careful va ∘ hf.careful va, hs.control.trans hf.control⟩

theorem Kept.op {va : Addr} {sz : Nat} {attr : Attr} (hk : Kept k bd attr.access vm vm')
    (hc : OpCareful k bd vm va sz attr) : OpCareful k bd vm' va sz attr :=
  ⟨hk.careful _ hc.1, fun cross => hk.careful _ (hc.2 cross)⟩

theorem kept_mark {va pa : Addr} {ki : Access} {host : Addr → BitVec 8}
    (ht : mmuTranslate bd vm va ki = some (pa, host)) :
    Kept k bd access vm { vm with host := host } := by
  refine ⟨?_, ?_, rfl⟩
  · intro held
    refine ⟨held.placed, fun o ki hw hit => ?_⟩
    rw [served_mark ht]
    exact held.serves o ki hw hit
  · intro o hc
    refine ⟨hc.1, fun hw writes hp f hh => ?_⟩
    rw [leafOf_mark ht] at hh
    exact hc.2 hw writes hp f hh

def RecordedAs (kind access : Access) : Prop := kind = access ∨ (kind = .read ∧ access = .write)

theorem RecordedAs.paged {ki : Access} (h : RecordedAs ki access) (vm : Vm) : vm.Paged ki ↔ vm.Paged access := by
  rcases h with rfl | ⟨rfl, rfl⟩
  · exact Iff.rfl
  · exact paged_read_write

theorem RecordedAs.filled {ki o : Access} (hr : RecordedAs ki access)
    (filled : o = ki ∨ (o = .read ∧ ki = .write)) : RecordedAs o access := by
  rcases filled with rfl | ⟨rfl, rfl⟩
  · exact hr
  · rcases hr with rfl | ⟨hi, _⟩
    · exact .inr ⟨rfl, rfl⟩
    · cases hi

theorem sameSpace_tlbPut (vm : Vm) (va ptr : Addr) (ki : Access) : SameSpace vm (tlbPut vm va ptr ki) :=
  ⟨rfl, rfl, rfl, rfl, rfl, rfl⟩

theorem kept_put {va ptr : Addr} {ki : Access} (hr : RecordedAs ki access)
    (hs : served bd vm va access = some ptr) (care : FillCareful k bd vm va access) :
    Kept k bd access vm (tlbPut vm va ptr ki) := by
  refine ⟨?_, ?_, rfl⟩
  · intro hc
    refine ⟨hc.placed, fun other watched hk hit => ?_⟩
    rw [(sameSpace_tlbPut vm va ptr ki).served]
    rcases hits_tlbPut hit with ⟨page, hp, hr3⟩ | ⟨hb, he⟩
    · have same : SamePage va other := page.symm
      have hm : served bd vm other access = some (ptr + (other - va)) := served_page hc.placed same hs
      have ht : ptr - va + other = ptr + (other - va) := by
        rw [BitVec.sub_eq_add_neg, BitVec.sub_eq_add_neg, BitVec.add_assoc, BitVec.add_comm (-va)]
      rw [hp, ht]
      have free (recorded : RecordedAs watched access) : served bd vm other watched = some (ptr + (other - va)) := by
        rcases recorded with rfl | ⟨rfl, rfl⟩
        · exact hm
        · have hr2 : vm.Paged .read → ∀ f, vm.leafOf bd other = some f → f.2.pte &&& vm.accessBits .read ≠ 0 := by
            rw [← leafOf_page same]
            exact care.2 hk rfl
          exact served_read_of_write hr2 hm
      rcases hr3 with hf | hf | hb
      · exact free (hr.filled (.inl hf))
      · exact free (hr.filled (.inr hf))
      · have old := hc.serves other watched hk hb
        have hh : vm.Hits va watched := by
          unfold Vm.Hits Vm.entryOf at hb ⊢
          rw [← page]
          exact hb
        rw [old, served_unique (care.1 watched hk hh) old hm]
    · rw [he]
      exact hc.serves other watched hk hb
  · intro other ho
    refine ⟨fun watched hk hit => ?_, ho.2⟩
    rcases hits_tlbPut hit with ⟨_, _, hf | hf | hb⟩ | ⟨hb, _⟩
    · exact (hr.filled (.inl hf)).paged vm
    · exact (hr.filled (.inr hf)).paged vm
    · exact ho.1 watched hk hb
    · exact ho.1 watched hk hb

end

section
variable {k : Access → Prop} {bd : Board} {vm : Vm}

theorem hostOf_ram {devs : List MmioDev} {pa ptr : Addr} (h : physAccess bd pa = some ptr) :
    hostOf bd devs pa = some ptr := by
  rw [hostOf, h]

theorem hostOf_direct {devs : List MmioDev} {pa ptr : Addr} {dev : MmioDev} (ho : physAccess bd pa = none)
    (hf : mmioFind devs pa = some dev) (hd : dev.direct pa = some ptr) : hostOf bd devs pa = some ptr := by
  rw [hostOf, ho]
  rw [hf, Option.bind_some, hd]

theorem served_of_translate {va pa ptr : Addr} {access : Access} {host : Addr → BitVec 8}
    (ht : mmuTranslate bd vm va access = some (pa, host)) (hb : hostOf bd vm.mmioDevs pa = some ptr) :
    served bd { vm with host := host } va access = some ptr := by
  rw [served_mark ht, served, translation, ht]
  exact hb

inductive Fills (bd : Board) (vm : Vm) (va : Addr) (ac : Access) : Vm → Prop where
  | still : Fills bd vm va ac vm
  | marked {pa : Addr} {host : Addr → BitVec 8} (ht : mmuTranslate bd vm va ac = some (pa, host)) :
    Fills bd vm va ac { vm with host := host }
  | filled {pa ptr : Addr} {host : Addr → BitVec 8} {ki : Access} (ht : mmuTranslate bd vm va ac = some (pa, host))
    (hb : hostOf bd vm.mmioDevs pa = some ptr) (hr : RecordedAs ki ac) : Fills bd vm va ac (tlbPut { vm with host := host } va ptr ki)

variable {va : Addr}

theorem mmuOpInPage_does {a : Attr} (hp : a.ptr → a.access ≠ .exec) :
    Fills bd vm va a.access (mmuOpInPage bd vm va a).1 := by
  unfold mmuOpInPage
  cases ht : mmuTranslate bd vm va a.access with
  | none => exact .still
  | some r =>
    obtain ⟨pa, host⟩ := r
    dsimp only
    cases hi : physAccess bd pa with
    | some f => exact .filled ht (hostOf_ram hi) (.inl rfl)
    | none =>
      dsimp only
      split
      · rename_i hs
        split at hs
        · obtain ⟨dev, f, hf⟩ := Option.map_eq_some_iff.mp hs
          subst hf
          split
          · rename_i hd
            refine .filled ht (hostOf_direct hi f hd) ?_
            -- a direct pointer is asked for by loads and read-modify-writes only
            split
            · rename_i ha
              cases hw : a.access with
              | read => exact .inl rfl
              | write => exact .inr ⟨rfl, rfl⟩
              | exec => exact absurd hw (hp ha)
            · exact .inl rfl
          · exact .marked ht
        · cases hs
      · split <;> exact .marked ht

theorem mmuOp_ends {P : Vm → Prop} (h : P vm) {sz : Nat} {a : Attr} (hp : a.ptr → a.access ≠ .exec)
    (hf : ∀ vm', Fills bd vm va a.access vm' → P vm')
    (hs : ¬blockInPage va sz → ∀ vm' vm'', P vm' → Fills bd vm' (secondPart va) a.access vm'' → P vm'') :
    P (mmuOp bd vm va sz a).1 := by
  have first := hf _ (mmuOpInPage_does hp)
  unfold mmuOp
  split
  · exact first
  · rename_i hc
    split
    · exact h
    · split
      · rename_i hr
        rw [hr] at first
        exact hs hc _ _ first (mmuOpInPage_does hp)
      · exact first

theorem fetchInsn_ends {P : Vm → Prop} (h : P vm) {l : Bool}
    (hf : P (mmuOp bd vm va 2 (plainAttr .exec)).1)
    (hs : ∀ vm', P vm' → P (mmuOp bd vm' (va + 2) 2 (plainAttr .exec)).1) : P (fetchInsn bd vm va l).1 := by
  unfold fetchInsn
  split
  · exact h
  · split
    · rename_i hr
      rw [hr] at hf
      split
      · exact hs _ hf
      · exact hf
    · exact hf

theorem kept_fills {vm' : Vm} {ac : Access} (care : FillCareful k bd vm va ac)
    (hf : Fills bd vm va ac vm') : Kept k bd ac vm vm' := by
  cases hf with
  | still => exact Kept.refl vm
  | marked ht => exact kept_mark ht
  | filled ht hb hr =>
    have hm : Kept k bd ac vm _ := kept_mark ht
    exact hm.trans (kept_put hr (served_of_translate ht hb) (hm.careful va care))

theorem mmuOp_kept {sz : Nat} {a : Attr} (hc : OpCareful k bd vm va sz a)
    (hp : a.ptr → a.access ≠ .exec) : Kept k bd a.access vm (mmuOp bd vm va sz a).1 := by
  apply mmuOp_ends (Kept.refl vm) hp
  · exact fun _ => kept_fills hc.1
  · intro cross _ _ hk hf
    exact hk.trans (kept_fills (hk.careful _ (hc.2 cross)) hf)

theorem plainAttr_ptr (access : Access) : (plainAttr access).ptr → (plainAttr access).access ≠ .exec :=
  fun h => absurd h Bool.false_ne_true

theorem fetchInsn_kept (l : Bool) (hf : OpCareful k bd vm va 2 (plainAttr .exec))
    (hs : OpCareful k bd vm (va + 2) 2 (plainAttr .exec)) : Kept k bd .exec vm (fetchInsn bd vm va l).1 := by
  apply fetchInsn_ends (Kept.refl vm) (mmuOp_kept hf (plainAttr_ptr .exec))
  intro vm' hk
  have hc : OpCareful k bd vm' (va + 2) 2 (plainAttr .exec) := hk.op hs
  exact hk.trans (mmuOp_kept hc (plainAttr_ptr .exec))

end

structure Operated (board : Board) (accesses : List (Addr × Access)) (vm vm' : Vm) : Prop where
  control : vm'.control = vm.control
  serves : ∀ addr kind, served board vm' addr kind = served board vm addr kind
  hits : ∀ addr kind, vm'.Hits addr kind → vm.Hits addr kind ∨ ∃ access ∈ accesses, SamePage addr access.1 ∧
    RecordedAs kind access.2 ∧ (served board vm access.1 access.2).isSome

section
variable {bd : Board} {vm vm' vm'' : Vm} {a accesses' : List (Addr × Access)} {va : Addr} {ac : Access}

theorem Operated.refl (vm : Vm) : Operated bd a vm vm := ⟨rfl, fun _ _ => rfl, fun _ _ h => .inl h⟩

theorem Operated.mono (ho : Operated bd a vm vm') (more : a ⊆ accesses') : Operated bd accesses' vm vm' := by
  refine ⟨ho.control, ho.serves, fun addr kind hh => ?_⟩
  rcases ho.hits addr kind hh with old | ⟨ac, hm, hf⟩
  · exact .inl old
  · exact .inr ⟨ac, more hm, hf⟩

theorem Operated.trans (hf : Operated bd a vm vm') (hs : Operated bd a vm' vm'') : Operated bd a vm vm'' := by
  refine ⟨hs.control.trans hf.control, fun addr kind => (hs.serves addr kind).trans (hf.serves addr kind), ?_⟩
  intro addr kind hh
  rcases hs.hits addr kind hh with ho | ⟨ac, hm, hp, hr, hb⟩
  · exact hf.hits addr kind ho
  · rw [hf.serves] at hb
    exact .inr ⟨ac, hm, hp, hr, hb⟩

theorem operated_put {ptr : Addr} {kind : Access} (hr : RecordedAs kind ac)
    (back : (served bd vm va ac).isSome) : Operated bd [(va, ac)] vm (tlbPut vm va ptr kind) := by
  refine ⟨rfl, (sameSpace_tlbPut vm va ptr kind).served, fun addr w hh => ?_⟩
  rcases hits_tlbPut hh with ⟨hp, _, hf | hf | hb⟩ | ⟨hb, _⟩
  · exact .inr ⟨_, List.mem_singleton_self _, hp, hr.filled (.inl hf), back⟩
  · exact .inr ⟨_, List.mem_singleton_self _, hp, hr.filled (.inr hf), back⟩
  · exact .inl hb
  · exact .inl hb

theorem operated_mark {pa : Addr} {host : Addr → BitVec 8} (ht : mmuTranslate bd vm va ac = some (pa, host)) :
    Operated bd a vm { vm with host := host } :=
  ⟨rfl, served_mark ht, fun _ _ hh => .inl hh⟩

theorem operated_fills (hf : Fills bd vm va ac vm') : Operated bd [(va, ac)] vm vm' := by
  cases hf with
  | still => exact Operated.refl vm
  | marked ht => exact operated_mark ht
  | filled ht hb hr =>
    apply (operated_mark ht).trans
    apply operated_put hr
    rw [served_of_translate ht hb]
    rfl

theorem mmuOp_operated {sz : Nat} {att : Attr} (hp : att.ptr → att.access ≠ .exec) :
    Operated bd [(va, att.access), (secondPart va, att.access)] vm (mmuOp bd vm va sz att).1 := by
  apply mmuOp_ends (Operated.refl vm) hp
  · exact fun _ hf => (operated_fills hf).mono (by simp)
  · exact fun _ _ _ ho hf => ho.trans ((operated_fills hf).mono (by simp))

def Event.operate (board : Board) (vm : Vm) : Event → Vm
  | .load vaddr size => (loadOp board vm vaddr size).1
  | .store vaddr size => (storeOp board vm vaddr size).1
  | .fetch vaddr long => (fetchInsn board vm vaddr long).1
  | .roTranslate vaddr size buffer => (ptrTranslate board vm vaddr size .read buffer).1
  | .rmwTranslate vaddr size buffer => (ptrTranslate board vm vaddr size .write buffer).1
  | .rmwCommit vaddr size => (mmuOp board vm vaddr size (plainAttr .write)).1
  | _ => vm

def Event.accesses : Event → List (Addr × Access)
  | .load vaddr _ => [(vaddr, .read), (secondPart vaddr, .read)]
  | .store vaddr _ => [(vaddr, .write), (secondPart vaddr, .write)]
  | .fetch vaddr _ => [(vaddr, .exec), (secondPart vaddr, .exec), (vaddr + 2, .exec), (secondPart (vaddr + 2), .exec)]
  | .roTranslate vaddr _ _ => [(vaddr, .read)]
  | .rmwTranslate vaddr _ _ => [(vaddr, .write)]
  | .rmwCommit vaddr _ => [(vaddr, .write), (secondPart vaddr, .write)]
  | _ => []

theorem fetchInsn_operated {l : Bool} : Operated bd (Event.fetch va l).accesses vm (fetchInsn bd vm va l).1 := by
  apply fetchInsn_ends (Operated.refl vm)
  · exact (mmuOp_operated (plainAttr_ptr .exec)).mono (by simp [Event.accesses, plainAttr])
  · intro vm' ho
    exact ho.trans ((mmuOp_operated (plainAttr_ptr .exec)).mono (by simp [Event.accesses, plainAttr]))

theorem ptrTranslate_operated {sz : Nat} (h : ac ≠ .exec) {b : Bool} :
    Operated bd [(va, ac)] vm (ptrTranslate bd vm va sz ac b).1 := by
  unfold ptrTranslate
  split
  · exact Operated.refl vm
  · unfold mmuOp
    split
    · exact operated_fills (mmuOpInPage_does (a := ⟨ac, true, b⟩) fun _ => h)
    · exact Operated.refl vm

theorem operate_operated {e : Event} : Operated bd e.accesses vm (e.operate bd vm) := by
  cases e with
  | load va sz =>
    show Operated bd _ vm (loadOp bd vm va sz).1
    unfold loadOp
    split
    · exact Operated.refl vm
    · exact mmuOp_operated (plainAttr_ptr .read)
  | store va sz =>
    show Operated bd _ vm (storeOp bd vm va sz).1
    unfold storeOp
    split
    · exact Operated.refl vm
    · exact mmuOp_operated (plainAttr_ptr .write)
  | fetch va long => exact fetchInsn_operated
  | roTranslate va sz b => exact ptrTranslate_operated (by decide)
  | rmwTranslate va sz b => exact ptrTranslate_operated (by decide)
  | rmwCommit va sz => exact mmuOp_operated (plainAttr_ptr .write)
  | _ => exact Operated.refl vm

end

theorem agreeOff_bitReplace (val : W64) (pos bs : Nat) (rep : W64) :
    AgreeOff (bitMask bs <<< pos) (bitReplace val pos bs rep) val := by
  apply agreeOff_merge
  rw [within_iff]
  intro i hb hc
  rw [getElem_shiftLeft] at hc ⊢
  by_cases hl : i < pos
  · simp [hl]
  · simp only [hl, decide_false, Bool.not_false, Bool.true_and, getElem_and] at hc ⊢
    rw [hc, Bool.and_false]

theorem bitCut_getLsbD {val : W64} {pos bs : Nat} (hf : pos + bs ≤ 64) {i : Nat} :
    (bitCut val pos bs).getLsbD i = (decide (i < bs) && val.getLsbD (pos + i)) := by
  rw [bitCut, getLsbD_ushiftRight, getLsbD_shiftLeft]
  have back : 64 - bs + i - (64 - bs - pos) = pos + i := by omega
  have hr : ¬64 - bs + i < 64 - bs - pos := by omega
  by_cases hi : i < bs
  · have hb : 64 - bs + i < 64 := by omega
    simp [back, hr, hi, hb]
  · have hb : ¬64 - bs + i < 64 := by omega
    simp [hi, hb]

theorem bitCut_bitReplace (val rep : W64) {pos bs : Nat} (hf : pos + bs ≤ 64) (hs : bs < 64) (i : Nat) :
    (bitCut (bitReplace val pos bs rep) pos bs).getLsbD i = (decide (i < bs) && rep.getLsbD i) := by
  rw [bitCut_getLsbD hf, bitReplace, getLsbD_or, getLsbD_and, getLsbD_not, getLsbD_shiftLeft,
    getLsbD_shiftLeft, getLsbD_and, bitMask_getLsbD hs]
  by_cases hi : i < bs
  · have hb : pos + i < 64 := by omega
    have hr : ¬pos + i < pos := by omega
    simp [hi, hb, hr]
  · simp [hi]

theorem bitCut_congr {val v' : W64} {pos bits : Nat} (hf : pos + bits ≤ 64) (hs : bits < 64)
    (same : v' &&& (bitMask bits <<< pos) = val &&& (bitMask bits <<< pos)) : bitCut v' pos bits = bitCut val pos bits := by
  apply eq_of_getLsbD_eq
  intro i _
  rw [bitCut_getLsbD hf, bitCut_getLsbD hf]
  by_cases hi : i < bits
  · have bit := congrArg (·.getLsbD (pos + i)) same
    have hb : pos + i < 64 := by omega
    have hr : ¬pos + i < pos := by omega
    simp only [getLsbD_and, getLsbD_shiftLeft, bitMask_getLsbD hs] at bit
    simpa [hi, hb, hr] using bit
  · simp [hi]

def mppMask : W64 := bitMask 2 <<< 11
def flagMask : W64 := statusMprv ||| statusSum ||| statusMxr

section
variable (vm : Vm) {status : W64}

theorem flags_of_agree (hs : status &&& flagMask = vm.status &&& flagMask) :
    ({ vm with status := status } : Vm).mprv = vm.mprv ∧ ({ vm with status := status } : Vm).sum = vm.sum ∧
      ({ vm with status := status } : Vm).mxr = vm.mxr := by
  unfold Vm.mprv Vm.sum Vm.mxr
  have hm : status &&& statusMprv = vm.status &&& statusMprv := and_eq_of_within hs (by decide)
  have sum : status &&& statusSum = vm.status &&& statusSum := and_eq_of_within hs (by decide)
  have mxr : status &&& statusMxr = vm.status &&& statusMxr := and_eq_of_within hs (by decide)
  rw [hm, sum, mxr]
  exact ⟨rfl, rfl, rfl⟩

theorem mpp_of_agree (h : status &&& mppMask = vm.status &&& mppMask) :
    ({ vm with status := status } : Vm).mpp = vm.mpp := by
  unfold Vm.mpp
  rw [bitCut_congr (by decide) (by decide) h]

theorem looser_status (hf : status &&& flagMask = vm.status &&& flagMask)
    (priv : vm.mprv → ({ vm with status := status } : Vm).mpp = vm.mpp ∨ vm.mmuMode = satpModeBare) (kind : Access) :
    Looser vm { vm with status := status } kind := by
  obtain ⟨mprv, sum, mxr⟩ := flags_of_agree vm hf
  have hm (hs : ({ vm with status := status } : Vm).accessPriv kind = vm.accessPriv kind) :
      Looser vm { vm with status := status } kind :=
    .inr ⟨hs, rfl, rfl, fun _ set => sum.trans set, fun _ set => mxr.trans set⟩
  by_cases hl : vm.mprv
  · rcases priv hl with mpp | bare
    · apply hm
      rw [Vm.accessPriv, Vm.accessPriv, mprv, mpp]
    · exact .inl ⟨fun hp => hp.2 bare, fun hp => hp.2 bare⟩
  · apply hm
    rw [Vm.accessPriv, Vm.accessPriv, mprv, if_neg (fun hb => hl hb.1), if_neg (fun hb => hl hb.1)]

theorem looser_exec (status : W64) : Looser vm { vm with status := status } .exec := by
  refine .inr ⟨?_, rfl, rfl, fun hd => absurd rfl hd, fun hi => ?_⟩
  · simp [Vm.accessPriv]
  · cases hi

end

section
variable (bd : Board)

theorem agreeOff_choice {mk x y z : W64} {c : Prop} [Decidable c] (h : c → AgreeOff mk x z)
    (no : ¬c → AgreeOff mk y z) : AgreeOff mk (if c then x else y) z := by
  split
  · exact h ‹_›
  · exact no ‹_›

variable {status : W64}

theorem validXl_agree {pos : Nat} : AgreeOff (bitMask 2 <<< pos) (validXl bd status pos) status :=
  agreeOff_choice (fun _ => AgreeOff.refl _ _) fun _ => agreeOff_bitReplace _ _ _ _

def xlMask : W64 := bitMask 4 <<< 32

theorem widths_agree :
    AgreeOff xlMask (if bd.rv64 then validXl bd (validXl bd status 32) 34 else status) status := by
  apply agreeOff_choice
  · intro _
    have hf : AgreeOff xlMask (validXl bd status 32) status := (validXl_agree bd).mono (by decide)
    have hs : AgreeOff xlMask (validXl bd (validXl bd status 32) 34) (validXl bd status 32) :=
      (validXl_agree bd).mono (by decide)
    exact hs.trans hf
  · intro _
    exact AgreeOff.refl _ _

def legalMask : W64 := xlMask ||| (bitMask 2 <<< 13) ||| (bitMask 2 <<< 9)

theorem units_agree : AgreeOff legalMask
    (if bd.useRvv then (if bd.useFpu then status else bitReplace status 13 2 0)
      else bitReplace (if bd.useFpu then status else bitReplace status 13 2 0) 9 2 0) status := by
  have h : AgreeOff legalMask (if bd.useFpu then status else bitReplace status 13 2 0) status :=
    agreeOff_choice (fun _ => AgreeOff.refl _ _) fun _ => (agreeOff_bitReplace _ _ _ _).mono (by decide)
  exact agreeOff_choice (fun _ => h) fun _ => ((agreeOff_bitReplace _ _ _ _).mono (by decide)).trans h

theorem legalStatus_agree (status : W64) : AgreeOff (legalMask ||| mppMask) (legalStatus bd status) status := by
  have hw : AgreeOff (legalMask ||| mppMask) _ status := (widths_agree bd).mono (by decide)
  have hu (value : W64) : AgreeOff (legalMask ||| mppMask) _ value := (units_agree bd).mono (by decide)
  refine (hu _).trans (AgreeOff.trans (agreeOff_choice (fun _ => ?_) fun _ => AgreeOff.refl _ _) hw)
  exact (agreeOff_bitReplace _ _ _ _).mono (by decide)

theorem legalStatus_agree_mpp (hl : bitCut status 11 2 ≠ 2) :
    AgreeOff legalMask (legalStatus bd status) status := by
  have hw : AgreeOff legalMask _ status := (widths_agree bd).mono (by decide)
  have hf : _ &&& mppMask = status &&& mppMask := (widths_agree bd).and_eq (by decide)
  have hk := bitCut_congr (by decide) (by decide) hf
  unfold legalStatus
  dsimp only
  rw [if_neg (c := bitCut _ 11 2 = 2) (by rw [hk]; exact hl)]
  exact (units_agree bd).trans hw

end

theorem csrSatp_careful {k : Access → Prop} (b : Board) {vm : Vm} {d : W64} {op : CsrOp}
    (hc : SatpCareful k vm d op) :
    (∃ md r, csrSatp b vm d op = { tlbFlush { vm with rootPageTable := r } with mmuMode := md }) ∨
      ∃ r, csrSatp b vm d op = { vm with rootPageTable := r } ∧
        ∀ kind, k kind → Looser vm { vm with rootPageTable := r } kind := by
  unfold csrSatp
  dsimp only
  split
  · exact .inr ⟨vm.rootPageTable, rfl, fun kind _ => looser_refl vm kind⟩
  · split
    · split
      · exact .inl ⟨_, _, rfl⟩
      case isFalse hs =>
        refine .inr ⟨_, rfl, fun kind hw => ?_⟩
        rcases hc with ht | r | hp
        · exact absurd ht hs
        · rw [r]
          exact looser_refl vm kind
        · exact .inl ⟨hp kind hw, hp kind hw⟩
    · exact .inr ⟨vm.rootPageTable, rfl, fun kind _ => looser_refl vm kind⟩

end RiscvEmulators.Rvvm
