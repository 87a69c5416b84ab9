import Riscv.Qemu.Iommu.Walk

namespace RiscvEmulators.Qemu.Iommu
open Word Transition

structure Leaf where
  stage : Stage
  addr : Reg
  skip : Nat
  pte : Reg
  asked : Perm
  ade : Bool

namespace Leaf

def permits (leaf : Leaf) : Bool := leafPermits leaf.asked leaf.ade leaf.pte
def maps (leaf : Leaf) (addr : Reg) : Bool := leaf.addr >>> leaf.skip == addr >>> leaf.skip

end Leaf

namespace WalkEnv
variable (env : WalkEnv) (w : Walk)

def tableTurn : Turn Walk (Except Cause Translation) := env.turnBy w fun _ _ _ => true

def leafAt : Option Leaf :=
  match env.rangeFault w, env.readPte w with
  | none, some pte =>
    if pteKind (env.vaSkip w) pte = .leaf then some ⟨w.pass, w.addr, env.vaSkip w, pte, w.perm, env.ade w⟩
    else none
  | _, _ => none

def leafGuard : Bool := (env.leafAt w).all Leaf.permits

theorem walkTurn_guarded : env.walkTurn w = guarded env.leafGuard (fun w => .error (pageFault w)) env.tableTurn w := by
  rw [walkTurn, guarded, tableTurn, leafGuard, leafAt, turnBy, turnBy]
  cases env.rangeFault w with
  | some c => rfl
  | none =>
    cases env.readPte w with
    | none => rfl
    | some pte => cases h : pteKind (env.vaSkip w) pte <;> simp [h, Leaf.permits, refuse]

theorem tableTurn_cases : (∃ c, env.tableTurn w = .done (.error c) ∧ env.leafAt w = none) ∨
    (∃ pte, env.tableTurn w = env.innerTurn w pte ∧ env.leafAt w = none) ∨
    ∃ leaf, env.tableTurn w = env.leafTurn w leaf.pte ∧ env.leafAt w = some leaf := by
  rw [tableTurn, turnBy, leafAt]
  cases env.rangeFault w with
  | some c => exact .inl ⟨c, rfl, rfl⟩
  | none =>
    cases env.readPte w with
    | none => exact .inl ⟨_, rfl, rfl⟩
    | some pte =>
      cases h : pteKind (env.vaSkip w) pte with
      | invalid => exact .inl ⟨pageFault w, by simp [h, refuse], by simp [h]⟩
      | inner => exact .inr (.inl ⟨pte, by simp [h], by simp [h]⟩)
      | leaf =>
        refine .inr (.inr ⟨⟨w.pass, w.addr, env.vaSkip w, pte, w.perm, env.ade w⟩, ?_, ?_⟩) <;> simp [h]

def leaves (fuel : Nat) : List Leaf := (visited env.tableTurn fuel w).filterMap env.leafAt
def usedLeaves (fuel : Nat) : List Leaf := (visited env.walkTurn fuel w).filterMap env.leafAt

theorem walk_succeeds_iff (fu : Nat) (fo : Translation) : iterate env.walkTurn fu w = some (.ok fo) ↔
    iterate env.tableTurn fu w = some (.ok fo) ∧ ∀ lf ∈ env.leaves w fu, lf.permits := by
  have h : env.walkTurn = guarded env.leafGuard (fun w => .error (pageFault w)) env.tableTurn :=
    funext env.walkTurn_guarded
  rw [h, iterate_guarded (by intro s; simp)]
  simp only [leaves, leafGuard, Option.all_eq_true]
  grind

def SameSuccess : Except Cause Translation → Except Cause Translation → Prop
  | .ok first, second => second = .ok first
  | .error _, second => ∃ cause, second = .error cause

def SamePlace (w w' : Walk) : Prop := w' = { w with perm := w'.perm }

def SameTurn (first second : Turn Walk (Except Cause Translation)) : Prop :=
  (∃ later later', first = .next later ∧ second = .next later' ∧ SamePlace later later') ∨
    ∃ result result', first = .done result ∧ second = .done result' ∧ SameSuccess result result'

theorem sameTurn_error {c c' : Cause} : SameTurn (.done (.error c)) (.done (.error c')) :=
  .inr ⟨_, _, rfl, rfl, c', rfl⟩

theorem sameTurn_next {l : Walk} {r : Perm} : SameTurn (.next l) (.next { l with perm := r }) :=
  .inl ⟨_, _, rfl, rfl, rfl⟩

theorem sameTurn_done {r : Except Cause Translation} : SameTurn (.done r) (.done r) := by
  cases r with
  | error c => exact sameTurn_error
  | ok found => exact .inr ⟨_, _, rfl, rfl, rfl⟩

theorem SameTurn.ite {c : Prop} [Decidable c] {fst snd f' s' : Turn Walk (Except Cause Translation)}
    (hl : SameTurn fst f') (hr : SameTurn snd s') : SameTurn (if c then fst else snd) (if c then f' else s') := by
  by_cases hh : c
  · rwa [if_pos hh, if_pos hh]
  · rwa [if_neg hh, if_neg hh]

variable (rq : Perm) {f : Translation}

theorem rangeFault_asked : (env.rangeFault { w with perm := rq }).isSome = (env.rangeFault w).isSome := by
  unfold rangeFault
  simp only [step, vaSkip, vaBits]
  grind

variable {pte : Reg}

theorem innerTurn_asked : SameTurn (env.innerTurn w pte) (env.innerTurn { w with perm := rq } pte) := by
  obtain ⟨p, addr, base, s, g, perm, a⟩ := w
  cases p <;>
    exact .ite sameTurn_error (.ite sameTurn_next sameTurn_next)

theorem leafTurn_asked : SameTurn (env.leafTurn w pte) (env.leafTurn { w with perm := rq } pte) := by
  obtain ⟨p, addr, base, ss, gs, perm, a⟩ := w
  cases p with
  | s => exact .ite sameTurn_done (.ite sameTurn_next sameTurn_done)
  | g => exact .ite sameTurn_next sameTurn_done

theorem tableTurn_asked : SameTurn (env.tableTurn w) (env.tableTurn { w with perm := rq }) := by
  have hr := env.rangeFault_asked w rq
  have reads : env.readPte { w with perm := rq } = env.readPte w := rfl
  have hs : env.vaSkip { w with perm := rq } = env.vaSkip w := rfl
  simp only [tableTurn, turnBy, reads, hs]
  cases he : env.rangeFault w with
  | some c =>
    rw [he] at hr
    obtain ⟨c', he'⟩ := Option.isSome_iff_exists.mp hr
    rw [he']
    exact sameTurn_error
  | none =>
    rw [he, Option.isSome_none, Option.isSome_eq_false_iff, Option.isNone_iff_eq_none] at hr
    rw [hr]
    cases env.readPte w with
    | none => exact sameTurn_error
    | some pte =>
      dsimp only
      cases pteKind (env.vaSkip w) pte with
      | invalid => exact sameTurn_error
      | inner => exact env.innerTurn_asked w rq
      | leaf => exact env.leafTurn_asked w rq

theorem table_walk_asked {fu : Nat} (hw : iterate env.tableTurn fu w = some (.ok f)) :
    iterate env.tableTurn fu { w with perm := rq } = some (.ok f) := by
  obtain ⟨re, hr, hs⟩ := iterate_lockstep SamePlace SameSuccess
    (fun l r hp => by rw [hp]; exact env.tableTurn_asked l r.perm)
    (show SamePlace w { w with perm := rq } from rfl) hw
  rw [hr, hs]

theorem leafTurn_returns (hr : env.leafTurn w pte = .done (.ok f)) : f.perm = leafPerm pte := by
  unfold leafTurn at hr
  cases hs : w.pass with
  | s => grind
  | g => grind

theorem innerTurn_never_returns {f : Translation} : env.innerTurn w pte ≠ .done (.ok f) := by
  unfold innerTurn refuse
  grind

theorem table_walk_perm {fu : Nat} (hw : iterate env.tableTurn fu w = some (.ok f)) :
    ∃ lf, (env.leaves w fu).getLast? = some lf ∧ f.perm = leafPerm lf.pte := by
  induction fu generalizing w with
  | zero => cases hw
  | succ fu ih =>
    rw [iterate] at hw
    rw [leaves, visited, List.filterMap_cons]
    cases ht : env.tableTurn w with
    | next l =>
      rw [ht] at hw
      obtain ⟨lf, hl, hp⟩ := ih l hw
      rw [leaves] at hl
      refine ⟨lf, ?_, hp⟩
      cases env.leafAt w with
      | none => exact hl
      | some fst => simp [List.getLast?_cons, hl]
    | done r =>
      rw [ht] at hw
      cases hw
      obtain ⟨c, hf, -⟩ | ⟨pte, hi, -⟩ | ⟨lf, ha, f⟩ := env.tableTurn_cases w
      · rw [ht] at hf; cases hf
      · exact absurd (hi ▸ ht) (env.innerTurn_never_returns w)
      · exact ⟨lf, by simp [f], env.leafTurn_returns w (ha ▸ ht)⟩

end WalkEnv

def tablePath (cfg : Config) (ctx : Context) (mem : Dma) (iova : Reg) (request : Perm) (addrMask : Reg) : List Leaf :=
  match walkEnv cfg ctx mem iova with
  | some env => if ctx.enS || ctx.enG then env.leaves (env.start request addrMask) walkFuel else []
  | none => []

def usedLeaves (cfg : Config) (ctx : Context) (mem : Dma) (iova : Reg) (request : Perm) (addrMask : Reg) : List Leaf :=
  match walkEnv cfg ctx mem iova with
  | some env => if ctx.enS || ctx.enG then env.usedLeaves (env.start request addrMask) walkFuel else []
  | none => []

namespace WalkEnv
variable {env : WalkEnv} {w : Walk}

structure Staged (env : WalkEnv) (w : Walk) : Prop where
  inside : env.InLevels w
  first : w.pass = .s → w.addr = env.iova
  second : w.pass = .g → env.ctx.enG

theorem innerTurn_staged {pte : Reg} {l : Walk} (hs : env.Staged w) (hn : env.innerTurn w pte = .next l) :
    (l.pass = .s → l.addr = env.iova) ∧ (l.pass = .g → env.ctx.enG) := by
  have hf := hs.first
  have second := hs.second
  unfold innerTurn advance enterG refuse at hn
  cases stage : w.pass <;> grind

theorem leafTurn_staged {pte : Reg} {l : Walk} (hn : env.leafTurn w pte = .next l) :
    (l.pass = .s → l.addr = env.iova) ∧ (l.pass = .g → env.ctx.enG) := by
  unfold leafTurn enterG at hn
  cases stage : w.pass <;> grind

theorem start_staged {r : Perm} {a : Reg} (h : env.InLevels (env.start r a)) : env.Staged (env.start r a) := by
  refine ⟨h, ?_, ?_⟩ <;> simp only [start] <;> grind

theorem walkTurn_staged (later : Walk) (staged : env.Staged w) (hn : env.walkTurn w = .next later) : env.Staged later := by
  have hi := (turnBy_next staged.inside hn).1
  obtain ⟨pte, inner | hl⟩ := turnBy_next_cases hn
  · obtain ⟨hf, hs⟩ := innerTurn_staged staged inner
    exact ⟨hi, hf, hs⟩
  · obtain ⟨hf, hs⟩ := leafTurn_staged hl
    exact ⟨hi, hf, hs⟩

theorem leafAt_eq {lf : Leaf} (h : env.leafAt w = some lf) : lf.stage = w.pass ∧ lf.addr = w.addr := by
  unfold leafAt at h
  grind

end WalkEnv

theorem usedLeaves_staged {cfg : Config} {ctx : Context} {mem : Dma} {i : Reg} {r : Perm} {a : Reg}
    {lf : Leaf} (hu : lf ∈ usedLeaves cfg ctx mem i r a) :
    (lf.stage = .s → ctx.enS ∧ lf.addr = i) ∧ (lf.stage = .g → ctx.enG) := by
  unfold usedLeaves at hu
  split at hu
  · rename_i env hc
    split at hu
    · rename_i ht
      obtain ⟨hi, -⟩ := walkEnv_inLevels hc ht r a
      obtain ⟨sp, gp, ofS, ofG, rfl⟩ := walkEnv_eq hc
      obtain ⟨w, hv, found⟩ := List.mem_filterMap.mp hu
      have hr := visited_invariant (fun _ => WalkEnv.walkTurn_staged) (WalkEnv.start_staged hi) w hv
      obtain ⟨hs, ha⟩ := WalkEnv.leafAt_eq found
      rw [hs, ha]
      refine ⟨fun hf => ⟨?_, hr.first hf⟩, hr.second⟩
      have ho := hr.inside.sOpen hf
      exact (stageParams_levels ofS).2.mp (Nat.zero_lt_of_lt ho)
    · cases hu
  · cases hu

inductive TransTag where
  | bypass | singleStage | gStageOnly | nested
  deriving DecidableEq

structure Origin where
  ctx : Context
  iova : Reg
  used : List Leaf

structure IotEntry where
  tag : TransTag
  iova : BitVec 44
  pscid : BitVec 20
  phys : BitVec 44
  gscid : BitVec 16
  perm : Perm
  origin : Origin

namespace Context

def gscid (ctx : Context) : BitVec 16 := (getField ctx.gatp iohgatpGscid).setWidth 16
def pscid (ctx : Context) : BitVec 20 := (getField ctx.ta taPscid).setWidth 20

def getTranstag (ctx : Context) : TransTag :=
  if ctx.satpMode = atpModeBare then
    if ctx.gatpMode = atpModeBare then .bypass else .gStageOnly
  else
    if ctx.gatpMode = atpModeBare then .singleStage else .nested

end Context

structure IotKey where
  tag : TransTag
  gscid : BitVec 16
  pscid : BitVec 20
  iova : BitVec 44
  deriving DecidableEq

def iovaPage (iova : Reg) : BitVec 44 := (ppnDown iova).setWidth 44
def IotEntry.key (iot : IotEntry) : IotKey := ⟨iot.tag, iot.gscid, iot.pscid, iot.iova⟩

def iotLookup (ctx : Context) (iotCache : List IotEntry) (iova : Reg) (transtag : TransTag) : Option IotEntry :=
  iotCache.find? fun iot => iot.key = ⟨transtag, ctx.gscid, ctx.pscid, iovaPage iova⟩

def hashTableAdd (iotCache : List IotEntry) (iot : IotEntry) : List IotEntry :=
  iot :: iotCache.filter fun old => old.key ≠ iot.key

def iotUpdate (iotLimit : Nat) (iotCache : List IotEntry) (iot : IotEntry) : List IotEntry :=
  if iotLimit = 0 then iotCache
  else if iotLimit ≤ iotCache.length then hashTableAdd [] iot
  else hashTableAdd iotCache iot

def matchBy (gscid pscid iova : Bool) (iot : IotEntry) (arg : IotKey) : Bool :=
  iot.tag = arg.tag && (!gscid || iot.gscid = arg.gscid) && (!pscid || iot.pscid = arg.pscid) &&
    (!iova || iot.iova = arg.iova)

def iotInvalAll := matchBy false false false
def iotInvalPscid := matchBy false true false
def iotInvalIova := matchBy false false true
def iotInvalPscidIova := matchBy false true true
def iotInvalGscid := matchBy true false false
def iotInvalGscidPscid := matchBy true true false
def iotInvalGscidIova := matchBy true false true
def iotInvalGscidPscidIova := matchBy true true true

def iotInval (iotCache : List IotEntry) (func : IotEntry → IotKey → Bool) (gscid : BitVec 16) (pscid : BitVec 20)
    (iova : Reg) (transtag : TransTag) : List IotEntry :=
  iotCache.map fun iot =>
    if func iot ⟨transtag, gscid, pscid, iovaPage iova⟩ then { iot with perm := .none } else iot

structure Request where
  ctx : Context
  mem : Dma
  iova : Reg
  perm : Perm
  addrMask : Reg
  enableCache : Bool

namespace Request
variable (cfg : Config) (request : Request)

def fetch : Except Cause Translation :=
  spaFetch cfg request.ctx request.mem request.iova request.perm request.addrMask

def path : List Leaf := tablePath cfg request.ctx request.mem request.iova request.perm request.addrMask
def used : List Leaf := usedLeaves cfg request.ctx request.mem request.iova request.perm request.addrMask

def entry (found : Translation) : IotEntry where
  tag := request.ctx.getTranstag
  iova := iovaPage request.iova
  pscid := request.ctx.pscid
  phys := iovaPage found.translatedAddr
  gscid := request.ctx.gscid
  perm := found.perm
  origin := ⟨request.ctx, request.iova, request.used cfg⟩

end Request

structure Device where
  cfg : Config
  iotLimit : Nat
  iotCache : List IotEntry
  ctxCache : List Context

def translate (s : Device) (request : Request) : Device × Except Cause Translation :=
  if request.perm = .none ∧ request.ctx.tc &&& tcEnAts = 0 then (s, .error .ttypeBlocked)
  else
    let hit := (iotLookup request.ctx s.iotCache request.iova request.ctx.getTranstag).filter (·.perm ≠ .none)
    match hit with
    | some iot => (s, .ok ⟨ppnPhys (iot.phys.setWidth 64), pageOffsetMask, iot.perm, false⟩)
    | none =>
      match request.fetch s.cfg with
      | .error cause => (s, .error cause)
      | .ok found =>
        if !found.trap && found.translatedAddr != request.iova && request.enableCache then
          ({ s with iotCache := iotUpdate s.iotLimit s.iotCache (request.entry s.cfg found) }, .ok found)
        else (s, .ok found)

theorem mem_iotUpdate {i : Nat} {iotCache : List IotEntry} {iot s : IotEntry}
    (h : s ∈ iotUpdate i iotCache iot) : s = iot ∨ s ∈ iotCache := by
  unfold iotUpdate hashTableAdd at h
  grind

theorem mem_translate {s : Device} {request : Request} {iot : IotEntry} (hm : iot ∈ (translate s request).1.iotCache) :
    iot ∈ s.iotCache ∨
      ∃ found, request.fetch s.cfg = .ok found ∧ found.trap = false ∧ iot = request.entry s.cfg found := by
  unfold translate at hm
  split at hm
  · exact .inl hm
  · dsimp only at hm
    split at hm
    · exact .inl hm
    · split at hm
      · exact .inl hm
      · rename_i found hf
        split at hm
        · rename_i hc
          simp only [Bool.and_eq_true, Bool.not_eq_true'] at hc
          exact (mem_iotUpdate hm).symm.imp_right fun ho => ⟨found, hf, hc.1.1, ho⟩
        · exact .inl hm

def idleDevice : Device := ⟨⟨0xf0f00, 0, 0, false, false⟩, 16, [], []⟩
def sv39Context : Context := ⟨0, 0, tcV, 0, 0x8000000000000001, 0, 0, 0, 0⟩

def gigapageRead (pte : Reg) : Request :=
  ⟨sv39Context, ⟨fun _ => none, fun _ => some pte⟩, 0x1000, .only .read, -1, true⟩

def dirtyLeaf : Reg := 0x100000c7
def cleanLeaf : Reg := 0x10000047

namespace Request
variable (cfg : Config) (request : Request)

def alone (kind : Access) : Request := { request with perm := .only kind }

/-- A fetch for `kind` alone succeeds without an MSI trap and yields an address that meets `same`. -/
def GrantedAlone (kind : Access) (same : Reg → Prop) : Prop :=
  ∃ found, (request.alone kind).fetch cfg = .ok found ∧ found.trap = false ∧ same found.translatedAddr

def earlyMsi : Bool := !request.ctx.enS && request.perm.write && msiCheck cfg request.ctx request.iova

def LastAllows (kind : Access) : Prop :=
  ∀ leaf, ((request.alone kind).path cfg).getLast? = some leaf → (WalkEnv.leafPerm leaf.pte).allows kind

/-- Every leaf PTE on the way permits what a request for `kind` alone asks of it. -/
structure TablesPermit (kind : Access) : Prop where
  noMsi : (request.alone kind).earlyMsi cfg = false
  leaves : ∀ leaf ∈ (request.alone kind).path cfg, leaf.permits

variable {cfg request}

theorem fetch_early (h : request.earlyMsi cfg) :
    request.fetch cfg = .ok ⟨request.iova, pageOffsetMask, request.perm, true⟩ := by
  rw [earlyMsi] at h
  rw [fetch, spaFetch, if_pos h]

theorem fetch_bare (he : request.earlyMsi cfg = false) (hb : (request.ctx.enS || request.ctx.enG) = false) :
    request.fetch cfg = .ok ⟨request.iova, pageOffsetMask, .rw, false⟩ := by
  rw [earlyMsi] at he
  rw [fetch, spaFetch, if_neg (by simp [he]), if_pos (by simp [hb])]

theorem path_bare (h : (request.ctx.enS || request.ctx.enG) = false) : request.path cfg = [] := by
  rw [path, tablePath]
  split
  · exact if_neg (by simp [h])
  · rfl

variable {f : Translation}

theorem fetch_walk (he : request.earlyMsi cfg = false) (ht : (request.ctx.enS || request.ctx.enG)) :
    request.fetch cfg = .ok f ↔ (∀ lf ∈ request.path cfg, lf.permits) ∧
      ∃ env, walkEnv cfg request.ctx request.mem request.iova = some env ∧
        iterate env.tableTurn walkFuel (env.start request.perm request.addrMask) = some (.ok f) := by
  rw [earlyMsi] at he
  rw [fetch, spaFetch, if_neg (by simp [he]), if_neg (by simp [ht]), path, tablePath]
  cases hc : walkEnv cfg request.ctx request.mem request.iova with
  | none => simp
  | some env =>
    obtain ⟨r, hr⟩ := walk_returns hc ht request.perm request.addrMask
    have hs := env.walk_succeeds_iff (env.start request.perm request.addrMask) walkFuel f
    simp only [ht, ite_true, Option.some.injEq, exists_eq_left']
    rw [and_comm, ← hs, hr]
    simp

theorem fetch_untrapped_early (hf : request.fetch cfg = .ok f)
    (hu : f.trap = false) : request.earlyMsi cfg = false := by
  cases he : request.earlyMsi cfg with
  | false => rfl
  | true =>
    rw [fetch_early he] at hf
    cases hf
    cases hu

theorem lastAllows_iff (fetched : request.fetch cfg = .ok f)
    (untrapped : f.trap = false) (kind : Access) : f.perm.allows kind ↔ request.LastAllows cfg kind := by
  have early := fetch_untrapped_early fetched untrapped
  cases translates : request.ctx.enS || request.ctx.enG with
  | false =>
    rw [fetch_bare early translates] at fetched
    cases fetched
    have empty : (request.alone kind).path cfg = [] := path_bare translates
    rw [LastAllows, empty]
    cases kind <;> simp [Perm.allows, Perm.rw]
  | true =>
    obtain ⟨-, env, configured, walked⟩ := (fetch_walk early translates).mp fetched
    have asked := env.table_walk_asked _ (.only kind) walked
    obtain ⟨last, isLast, perm⟩ := env.table_walk_perm _ asked
    have path : (request.alone kind).path cfg =
        env.leaves { env.start request.perm request.addrMask with perm := .only kind } walkFuel := by
      simp only [path, tablePath, alone, configured, translates]
      rfl
    rw [LastAllows, path, isLast, perm]
    simp

theorem grantedAlone_iff (fetched : request.fetch cfg = .ok f) (plain : f.trap = false) (kind : Access) :
    request.GrantedAlone cfg kind (· = f.translatedAddr) ↔ request.TablesPermit cfg kind := by
  have ho := fetch_untrapped_early fetched plain
  constructor
  · rintro ⟨g, hf, hu, -⟩
    have he := fetch_untrapped_early hf hu
    refine ⟨he, ?_⟩
    cases ht : request.ctx.enS || request.ctx.enG with
    | false =>
      have empty : (request.alone kind).path cfg = [] := path_bare ht
      simp [empty]
    | true => exact ((fetch_walk he ht).mp hf).1
  · rintro ⟨he, hl⟩
    refine ⟨f, ?_, plain, rfl⟩
    cases ht : request.ctx.enS || request.ctx.enG with
    | false =>
      rw [fetch_bare ho ht] at fetched
      cases fetched
      exact fetch_bare he ht
    | true =>
      obtain ⟨-, env, hc, hw⟩ := (fetch_walk ho ht).mp fetched
      exact (fetch_walk he ht).mpr
        ⟨hl, env, hc, env.table_walk_asked _ (.only kind) hw⟩

end Request

def GrantsOnly (cfg : Config) (request : Request) (found : Translation) : Prop :=
  ∀ kind, found.perm.allows kind → request.GrantedAlone cfg kind (· = found.translatedAddr)

def CachesOnly (s : Device) (request : Request) : Prop :=
  ∀ iot ∈ (translate s request).1.iotCache, iot ∉ s.iotCache → ∀ kind, iot.perm.allows kind →
    iot.iova = iovaPage request.iova ∧ request.GrantedAlone s.cfg kind (iot.phys = iovaPage ·)

theorem cachesOnly_of_grantsOnly {s : Device} {request : Request} {f : Translation}
    (fetched : request.fetch s.cfg = .ok f) (hg : GrantsOnly s.cfg request f) : CachesOnly s request := by
  intro iot hm fresh k ha
  obtain ho | ⟨fi, hf, -, rfl⟩ := mem_translate hm
  · exact absurd ho fresh
  · rw [fetched] at hf
    cases hf
    obtain ⟨g, alone, hu, hs⟩ := hg k ha
    exact ⟨rfl, g, alone, hu, congrArg iovaPage hs.symm⟩

/-- A fetch and the entry cached from it grant no more than the tables exactly when every kind of
  access that the last leaf PTE allows is permitted by all leaf PTEs on the way. -/
theorem fetch_grants_only_iff (s : Device) (request : Request) (found : Translation)
    (fetched : request.fetch s.cfg = .ok found) (untrapped : found.trap = false) :
    GrantsOnly s.cfg request found ∧ CachesOnly s request ↔
      ∀ kind, request.LastAllows s.cfg kind → request.TablesPermit s.cfg kind := by
  have grants : GrantsOnly s.cfg request found ↔
      ∀ kind, request.LastAllows s.cfg kind → request.TablesPermit s.cfg kind := by
    simp [GrantsOnly, Request.lastAllows_iff fetched untrapped, Request.grantedAlone_iff fetched untrapped]
  rw [← grants]
  exact and_iff_left_of_imp (cachesOnly_of_grantsOnly fetched)

theorem dirty_leaf_grants_only : ∃ found, (gigapageRead dirtyLeaf).fetch idleDevice.cfg = .ok found ∧
    GrantsOnly idleDevice.cfg (gigapageRead dirtyLeaf) found ∧ CachesOnly idleDevice (gigapageRead dirtyLeaf) := by
  refine ⟨⟨0x40001000, 0x3fffffff, .rw, false⟩, rfl, ?_⟩
  apply (fetch_grants_only_iff idleDevice (gigapageRead dirtyLeaf) _ rfl rfl).mpr
  intro kind _
  cases kind <;> exact ⟨by decide, by decide⟩

theorem clean_leaf_grants_write :
    ∃ found, (gigapageRead cleanLeaf).fetch idleDevice.cfg = .ok found ∧ found.trap = false ∧
      ¬ GrantsOnly idleDevice.cfg (gigapageRead cleanLeaf) found ∧ ¬ CachesOnly idleDevice (gigapageRead cleanLeaf) := by
  refine ⟨⟨0x40001000, 0x3fffffff, .rw, false⟩, rfl, rfl, ?_, ?_⟩
  · intro grants
    obtain ⟨found, fetched, -⟩ := grants .write rfl
    cases fetched
  · intro caches
    have cached : (translate idleDevice (gigapageRead cleanLeaf)).1.iotCache =
        [(gigapageRead cleanLeaf).entry idleDevice.cfg ⟨0x40001000, 0x3fffffff, .rw, false⟩] := rfl
    obtain ⟨-, found, fetched, -⟩ := caches _ (cached ▸ List.mem_singleton_self _) List.not_mem_nil .write rfl
    cases fetched

end RiscvEmulators.Qemu.Iommu
