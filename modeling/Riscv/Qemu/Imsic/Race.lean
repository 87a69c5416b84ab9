import Riscv.Qemu.Imsic.Exactness

namespace RiscvEmulators.Qemu.Imsic
open Store Interrupt Transition Threads

section

inductive Thread where
  | hart
  | writer (n : Nat)
deriving DecidableEq, Repr

inductive Change (cfg : Config) where
  | eidelivery (newVal wrMask : BitVec 64)
  | eithreshold (newVal wrMask : BitVec 64)
  | topei
  | claim
  | bit (i : Fin cfg.numIrqs) (state : W32) (value : Bool)
deriving DecidableEq, Repr

variable {cfg : Config}

def Change.apply (page : Fin cfg.numPages) (topei : W32) (imsic : Imsic cfg) : Change cfg → W32 × Imsic cfg
  | .eidelivery newVal wrMask => (topei, imsic.storeEidelivery page newVal wrMask)
  | .eithreshold newVal wrMask => (topei, imsic.storeEithreshold page newVal wrMask)
  | .topei => (imsic.topei page, imsic)
  | .claim => (topei, if topei ≠ 0 then imsic.claim page topei else imsic)
  | .bit i state value => (topei, imsic.storeBit page i state value)

def eixChanges (pend : Bool) (newVal wrMask : BitVec 64) {xlen num : Nat} (bound : num < cfg.numIrqs / xlen)
    (i : Fin xlen) : Option (Change cfg) :=
  if num = 0 ∧ i.val = 0 then none
  else if wrMask.getLsbD i then
    some (.bit ⟨num * xlen + i, eix_lt bound i⟩ (if pend then eistatePending else eistateEnabled) (newVal.getLsbD i))
  else none

def eixSteps (xlen num : Nat) (pend : Bool) (newVal wrMask : BitVec 64) : Option (List (Change cfg)) :=
  match eixNum xlen num with
  | none => none
  | some num =>
    if bound : num < cfg.numIrqs / xlen then
      if 64 < xlen then none
      else some ((List.finRange xlen).filterMap (eixChanges pend newVal wrMask bound))
    else none

def rmwSteps (cfg : Config) (reg : W32) (newVal wrMask : BitVec 64) : Option (List (Change cfg)) :=
  let isel := iregIsel reg
  let xlen := (iregXlen reg).toNat
  if isel = iselectEidelivery then some [.eidelivery newVal wrMask]
  else if isel = iselectEithreshold then some [.eithreshold newVal wrMask]
  else if isel = iselectTopei then some (if wrMask ≠ 0 then [.topei, .claim] else [.topei])
  else if iselectEip0 ≤ isel ∧ isel ≤ iselectEip63 then
    eixSteps xlen (isel - iselectEip0).toNat true newVal wrMask
  else if iselectEie0 ≤ isel ∧ isel ≤ iselectEie63 then
    eixSteps xlen (isel - iselectEie0).toNat false newVal wrMask
  else none

inductive Phase (cfg : Config) where
  | idle
  | changing (todo : List (Change cfg)) (topei : W32)
  | lowering (was : Bool)
  | evaluating
  | raising
  | marking
deriving DecidableEq, Repr

def advance (page : Fin cfg.numPages) (imsic : Imsic cfg) : Phase cfg → Option (Imsic cfg × Phase cfg)
  | .idle => none
  | .changing (change :: todo) topei =>
    let (topei, imsic) := change.apply page topei imsic
    some (imsic, .changing todo topei)
  | .changing [] _ =>
    let (was, imsic) := imsic.fetchFlag page
    some (imsic, .lowering was)
  | .lowering was => some (if was then imsic.lower page else imsic, .evaluating)
  | .evaluating => some (imsic, if imsic.due page then .raising else .idle)
  | .raising => some (imsic.raise page, .marking)
  | .marking => some (imsic.markFlag page, .idle)

inductive Act where
  | access (access : Access)
  | message (value : W32)
  | next
deriving DecidableEq, Repr

theorem message_lt {v : W32} (h : v ≠ 0 ∧ v.toNat < cfg.numIrqs) : v.toNat < cfg.numIrqs := h.2

def move (page : Fin cfg.numPages) (thread : Thread) (act : Act) (imsic : Imsic cfg) (phase : Phase cfg) :
    Option (Imsic cfg × Phase cfg) :=
  match thread, act, phase with
  | .hart, .access access, .idle =>
    if cfg.page access.reg = some page then
      (rmwSteps cfg access.reg access.newVal access.wrMask).map fun todo => (imsic, .changing todo 0)
    else none
  | .writer _, .message value, .idle =>
    if bound : value ≠ 0 ∧ value.toNat < cfg.numIrqs then
      some (imsic, .changing [.bit ⟨value.toNat, message_lt bound⟩ eistatePending true] 0)
    else none
  | _, .next, phase => advance page imsic phase
  | _, _, _ => none

def start (cfg : Config) : Threads Thread (Imsic cfg) (Phase cfg) := ⟨init cfg, fun _ => .idle⟩

end

section

/-! A thread that is not interrupted does what the access does in a run of whole accesses. -/

variable {cfg : Config} {page : Fin cfg.numPages} {imsic n : Imsic cfg} {ne w val : BitVec 64}

def Next (page : Fin cfg.numPages) (before after : Imsic cfg × Phase cfg) : Prop :=
  advance page before.1 before.2 = some after

def applyAll (page : Fin cfg.numPages) (todo : List (Change cfg)) (topei : W32) (imsic : Imsic cfg) :
    W32 × Imsic cfg :=
  todo.foldl (fun acc change => change.apply page acc.1 acc.2) (topei, imsic)

theorem update_alone (page : Fin cfg.numPages) (imsic : Imsic cfg) (t : W32) :
    Relation.ReflTransGen (Next page) (imsic, .changing [] t) (imsic.update page, .idle) := by
  let c := imsic.fetchFlag page
  have hf : Next page (imsic, .changing [] t) (c.2, .lowering c.1) :=
    rfl
  refine .head hf ?_
  unfold update
  dsimp only
  generalize hl2 : (if c.1 then c.2.lower page else c.2) =
    l
  have lowers : Next page (c.2, .lowering c.1) (l, .evaluating) := by
    rw [Next, advance, hl2]
  refine .head lowers ?_
  split
  · rename_i hd
    have hl : Next page (l, .evaluating) (l, .raising) := by
      rw [Next, advance, if_pos hd]
    have hr : Next page (l, .raising) (l.raise page, .marking) := rfl
    exact .head hl (.head hr (.single rfl))
  · rename_i hc
    apply Relation.ReflTransGen.single
    rw [Next, advance, if_neg hc]

theorem changes_alone (page : Fin cfg.numPages) (todo : List (Change cfg)) (t : W32) (imsic : Imsic cfg) :
    Relation.ReflTransGen (Next page) (imsic, .changing todo t) ((applyAll page todo t imsic).2.update page, .idle) := by
  induction todo generalizing t imsic with
  | nil => exact update_alone page imsic t
  | cons c todo ih =>
    have h : Next page (imsic, .changing (c :: todo) t)
        ((c.apply page t imsic).2, .changing todo (c.apply page t imsic).1) := rfl
    exact .head h (ih _ _)

theorem eix_applyAll {x num : Nat} (hb : num < cfg.numIrqs / x) (p : Bool) (bs : List (Fin x))
    (t : W32) (acc : BitVec 64 × Imsic cfg) :
    (bs.foldl (eixBit page (if p then eistatePending else eistateEnabled) ne w hb) acc).2 =
      (applyAll page (bs.filterMap (eixChanges p ne w hb)) t acc.2).2 := by
  induction bs generalizing acc with
  | nil => rfl
  | cons i bs ih =>
    rw [List.foldl_cons, ih, List.filterMap_cons]
    obtain ⟨val, imsic⟩ := acc
    unfold eixBit eixChanges
    dsimp only
    by_cases hz : num = 0 ∧ i.val = 0
    · rw [if_pos hz, if_pos hz]
    · rw [if_neg hz, if_neg hz]
      cases hw : w.getLsbD i <;> rfl

theorem eix_alone {x num : Nat} {p : Bool} (ha : imsic.eixRmw x page num p ne w = some (some val, n)) :
    ∃ t, eixSteps x num p ne w = some t ∧ n = (applyAll page t 0 imsic).2.update page := by
  unfold eixRmw at ha
  unfold eixSteps
  cases hk : eixNum x num with
  | none =>
    rw [hk] at ha
    cases ha
  | some low =>
    rw [hk] at ha
    dsimp only at ha ⊢
    by_cases hb : low < cfg.numIrqs / x
    · rw [dif_pos hb] at ha ⊢
      by_cases hw : 64 < x
      · rw [if_pos hw] at ha
        cases ha
      · rw [if_neg hw] at ha ⊢
        refine ⟨_, rfl, ?_⟩
        rw [← eix_applyAll hb p (List.finRange x) 0 (0, imsic)]
        cases ha
        rfl
    · rw [dif_neg hb] at ha
      cases ha

theorem rmw_alone {reg : W32} (hf : cfg.page reg = some page) (ha : imsic.rmw reg ne w = some (some val, n)) :
    ∃ todo, rmwSteps cfg reg ne w = some todo ∧
      Relation.ReflTransGen (Next page) (imsic, .changing todo 0) (n, .idle) := by
  have hs : ∃ todo, rmwSteps cfg reg ne w = some todo ∧ n = (applyAll page todo 0 imsic).2.update page := by
    unfold rmw at ha
    unfold rmwSteps
    rw [hf] at ha
    dsimp only at ha ⊢
    by_cases hd : iregIsel reg = iselectEidelivery
    · rw [if_pos hd] at ha ⊢
      cases ha
      exact ⟨_, rfl, rfl⟩
    rw [if_neg hd] at ha ⊢
    by_cases ht : iregIsel reg = iselectEithreshold
    · rw [if_pos ht] at ha ⊢
      cases ha
      exact ⟨_, rfl, rfl⟩
    rw [if_neg ht] at ha ⊢
    by_cases top : iregIsel reg = iselectTopei
    · rw [if_pos top] at ha ⊢
      cases ha
      refine ⟨_, rfl, ?_⟩
      unfold topeiRmw
      dsimp only
      by_cases hc : w ≠ 0
      · have hs : (applyAll page [.topei, .claim] 0 imsic).2 =
            if imsic.topei page ≠ 0 then imsic.claim page (imsic.topei page) else imsic := rfl
        rw [if_pos hc, hs]
        simp only [ne_eq, hc, not_false_eq_true, and_true]
      · rw [if_neg hc, if_neg fun hb => hc hb.2]
        rfl
    rw [if_neg top] at ha ⊢
    by_cases hp : iselectEip0 ≤ iregIsel reg ∧ iregIsel reg ≤ iselectEip63
    · rw [if_pos hp] at ha ⊢
      exact eix_alone ha
    rw [if_neg hp] at ha ⊢
    by_cases he : iselectEie0 ≤ iregIsel reg ∧ iregIsel reg ≤ iselectEie63
    · rw [if_pos he] at ha ⊢
      exact eix_alone ha
    rw [if_neg he] at ha
    cases ha
  obtain ⟨todo, hk, same⟩ := hs
  rw [same]
  exact ⟨todo, hk, changes_alone page todo 0 imsic⟩

theorem write_alone {addr : Nat} {v : W32} (hk : v ≠ 0 ∧ v.toNat < cfg.numIrqs)
    (hh : addr = page * mmioPageSz) (wrote : imsic.write addr v = some n) :
    Relation.ReflTransGen (Next page) (imsic, .changing [.bit ⟨v.toNat, hk.2⟩ eistatePending true] 0) (n, .idle) := by
  have hi : addr < cfg.numPages * mmioPageSz := by
    rw [hh]
    exact Nat.mul_lt_mul_of_pos_right page.isLt (by decide)
  obtain ⟨n', hw, he⟩ := imsic.write_spec addr v hi
  cases wrote.symm.trans hw
  rcases he with ⟨-, hr⟩ | ⟨p', i, hh', where', -, hs⟩
  · exact absurd ⟨by rw [hh, Nat.mul_mod_left], hk⟩ hr
  · have hp : p' = page :=
      Fin.ext (Nat.eq_of_mul_eq_mul_right (show 0 < mmioPageSz by decide) (hh'.symm.trans hh))
    have hn : i = ⟨v.toNat, hk.2⟩ := Fin.ext where'.symm
    subst hp hn hs
    exact changes_alone p' _ 0 imsic

end

section
variable {cfg : Config} {page : Fin cfg.numPages}

def Phase.Looks : Phase cfg → Prop
  | .changing .. | .lowering _ | .evaluating | .raising => True
  | .idle | .marking => False

theorem advance_attends {imsic i' : Imsic cfg} {p p' : Phase cfg} (hm : advance page imsic p = some (i', p')) :
    p'.Looks ∨ (i'.due page → i'.externalIrqs page) ∨ ¬p.Looks ∧ (i'.due page → imsic.due page) ∧
      (imsic.externalIrqs page → i'.externalIrqs page) := by
  cases p with
  | idle => cases hm
  | changing todo t =>
    left
    cases todo <;> cases hm <;> trivial
  | lowering was =>
    cases hm
    exact .inl trivial
  | evaluating =>
    cases hm
    split
    · exact .inl trivial
    · rename_i hc
      exact .inr (.inl fun hd => absurd hd hc)
  | raising =>
    cases hm
    exact .inr (.inl fun _ => (imsic.raise_line page page).trans (if_pos rfl))
  | marking =>
    cases hm
    refine .inr (.inr ⟨id, fun hd => ?_, id⟩)
    rwa [markFlag, (imsic.setFlag_alike page page _).due] at hd

theorem move_attends {page : Fin cfg.numPages} :
    Threads.Attends (move page) (fun imsic => imsic.due page) (fun imsic => imsic.externalIrqs page) Phase.Looks := by
  intro t act imsic p i' p' hm
  unfold move at hm
  split at hm
  · split at hm
    · rw [Option.map_eq_some_iff] at hm
      obtain ⟨todo, -, hs⟩ := hm
      cases hs
      exact .inl trivial
    · cases hm
  · split at hm
    · cases hm
      exact .inl trivial
    · cases hm
  · exact advance_attends hm
  · cases hm

theorem wakeup_not_lost (page : Fin cfg.numPages) (events : List (Thread × Act))
    (finished : ∀ thread, (run (take (move page)) (start cfg) events).place thread = .idle)
    (delivery : (run (take (move page)) (start cfg) events).shared.eidelivery page = 1)
    (shown : (run (take (move page)) (start cfg) events).shared.topei page ≠ 0) :
    (run (take (move page)) (start cfg) events).shared.externalIrqs page = true := by
  have first : (start cfg).Attended (fun imsic => imsic.due page) (fun imsic => imsic.externalIrqs page)
      Phase.Looks := by
    intro due
    have off : (init cfg).due page = false := by
      rfl
    exact absurd (off.symm.trans due) Bool.false_ne_true
  refine (first.run move_attends events).finished (fun thread looks => ?_) ?_
  · rw [finished thread] at looks
    exact looks
  · rw [Imsic.due, delivery, decide_eq_true shown]
    rfl

def crossing : List (Thread × Act) :=
  (.hart, .access ⟨.s, 0, true, 0x70, 1, 1⟩) :: List.replicate 4 (.hart, .next) ++
  (.hart, .access ⟨.s, 0, true, 0xc0, 2, 2⟩) :: List.replicate 4 (.hart, .next) ++
  [(.writer 0, .message 1), (.writer 0, .next), (.writer 1, .message 1), (.writer 0, .next), (.writer 1, .next),
      (.writer 0, .next), (.writer 0, .next), (.writer 0, .next), (.writer 0, .next)] ++ List.replicate 5 (.writer 1, .next)

theorem crossing_finished (t : Thread) :
    (run (take (move sevenGuests.firstPage)) (start sevenGuests) crossing).place t = .idle := by
  by_cases hart : t = .hart
  · subst hart
    decide +kernel
  by_cases hf : t = .writer 0
  · subst hf
    decide +kernel
  by_cases hs : t = .writer 1
  · subst hs
    decide +kernel
  have hk : ∀ e ∈ crossing, e.1 = .hart ∨ e.1 = .writer 0 ∨ e.1 = .writer 1 := by decide +kernel
  refine run_place fun e hm same => ?_
  rcases hk e hm with hh | hh | hh
  · exact hart (same.symm.trans hh)
  · exact hf (same.symm.trans hh)
  · exact hs (same.symm.trans hh)

theorem crossing_high : (run (take (move sevenGuests.firstPage)) (start sevenGuests) crossing).shared.topei
    sevenGuests.firstPage = report 1 ∧
    (run (take (move sevenGuests.firstPage)) (start sevenGuests) crossing).shared.externalIrqs
      sevenGuests.firstPage = true :=
  ⟨by decide +kernel,
    wakeup_not_lost sevenGuests.firstPage crossing crossing_finished (by decide +kernel) (by decide +kernel)⟩

end
end RiscvEmulators.Qemu.Imsic
