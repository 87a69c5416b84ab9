
namespace RiscvEmulators.Transition

section
variable {ε σ α β : Type}

def finalState (result : EStateM.Result ε σ α) : σ :=
  match result with
  | .ok _ state => state
  | .error _ state => state

/-- What a program may do from a state where `held` holds, next to a partial value that it computes: it returns the
  value, or fails where there is none, and keeps `held`; or it spoils the state, only where there is no value. -/
def Follows (held spoiled : σ → Prop) (value : Option α) : EStateM.Result ε σ α → Prop
  | .ok result state => (value = some result ∧ held state) ∨ (value = none ∧ spoiled state)
  | .error _ state => value = none ∧ (held state ∨ spoiled state)

def Stays (spoiled : σ → Prop) (program : EStateM ε σ α) : Prop :=
  ∀ state, spoiled state → spoiled (finalState (program state))

structure Tracks (held spoiled : σ → Prop) (program : EStateM ε σ α) (value : Option α) : Prop where
  follows : ∀ state, held state → Follows held spoiled value (program state)
  stays : Stays spoiled program

variable {he sp : σ → Prop} {p : EStateM ε σ α} {v : Option α}

theorem Stays.pure (r : α) : Stays sp (Pure.pure r : EStateM ε σ α) := fun _ h => h

theorem Stays.throw (f : ε) : Stays sp (MonadExcept.throw f : EStateM ε σ α) := fun _ h => h

variable {ne : α → EStateM ε σ β}

theorem Stays.bind (hf : Stays sp p) (hs : ∀ r, Stays sp (ne r)) : Stays sp (p >>= ne) := by
  intro s hsp
  have hr := hf s hsp
  show sp (finalState (EStateM.bind p ne s))
  unfold EStateM.bind
  cases ho : p s with
  | ok r a =>
    rw [ho] at hr
    exact hs r a hr
  | error f a =>
    rw [ho] at hr
    exact hr

theorem Tracks.pure (r : α) : Tracks he sp (Pure.pure r : EStateM ε σ α) (some r) :=
  ⟨fun _ h => .inl ⟨rfl, h⟩, Stays.pure r⟩

theorem Tracks.throw (f : ε) : Tracks he sp (MonadExcept.throw f : EStateM ε σ α) none :=
  ⟨fun _ h => ⟨rfl, .inl h⟩, Stays.throw f⟩

theorem Tracks.bind {n : α → Option β} (hf : Tracks he sp p v) (hse : ∀ r, v = some r → Tracks he sp (ne r) (n r))
    (hst : ∀ r, Stays sp (ne r)) : Tracks he sp (p >>= ne) (v >>= n) := by
  refine ⟨fun s hh => ?_, hf.stays.bind hst⟩
  have hr := hf.follows s hh
  show Follows he sp _ (EStateM.bind p ne s)
  unfold EStateM.bind
  cases ho : p s with
  | ok r a =>
    rw [ho] at hr
    obtain ⟨hfo, hk⟩ | ⟨hm, hsp⟩ := hr
    · rw [hfo]
      exact (hse r hfo).follows a hk
    · rw [hm]
      have hs := hst r a hsp
      dsimp only
      cases hl : ne r a with
      | ok _ _ => rw [hl] at hs; exact .inr ⟨rfl, hs⟩
      | error _ _ => rw [hl] at hs; exact ⟨rfl, .inr hs⟩
  | error f a =>
    rw [ho] at hr
    rw [hr.1]
    exact ⟨rfl, hr.2⟩

theorem Tracks.bind_map {γ : Type} {s : Option γ} {i : γ → α} {n : γ → Option β} (hf : Tracks he sp p (s.map i))
    (hse : ∀ it, s = some it → Tracks he sp (ne (i it)) (n it))
    (hs : ∀ r, Stays sp (ne r)) : Tracks he sp (p >>= ne) (s >>= n) := by
  cases hfo : s with
  | none =>
    rw [hfo] at hf
    show Tracks he sp (p >>= ne) ((none : Option α) >>= fun _ => none)
    exact hf.bind nofun hs
  | some it =>
    rw [hfo] at hf
    show Tracks he sp (p >>= ne) (some (i it) >>= fun _ => n it)
    refine hf.bind (fun r hsa => ?_) hs
    cases hsa
    exact hse it hfo

theorem Tracks.bind_none (hf : Tracks he sp p v)
    (hs : ∀ r, Tracks he sp (ne r) none) : Tracks he sp (p >>= ne) none := by
  have hb := hf.bind (fun r _ => hs r) fun r => (hs r).stays
  have hm : (v >>= fun _ => (none : Option β)) = none := by cases v <;> rfl
  rwa [hm] at hb

theorem Tracks.returns {r : α} (ht : Tracks he sp p (some r)) {s : σ}
    (hh : he s) : ∃ after, p s = .ok r after ∧ he after := by
  have hr := ht.follows s hh
  cases ho : p s with
  | ok fo after =>
    rw [ho] at hr
    obtain ⟨hs, hk⟩ | ⟨hm, -⟩ := hr
    · cases hs
      exact ⟨after, rfl, hk⟩
    · cases hm
  | error f after =>
    rw [ho] at hr
    cases hr.1

end

variable {ε σ α β : Type}

def Ensures (pre : σ → Prop) (program : EStateM ε σ α) (post : α → σ → Prop) (kept : σ → Prop) : Prop :=
  ∀ state, pre state → match program state with
    | .ok result after => post result after
    | .error _ after => kept after

def Keeps (invariant : σ → Prop) (program : EStateM ε σ α) : Prop :=
  Ensures invariant program (fun _ => invariant) invariant

variable {nx : α → EStateM ε σ β}

theorem bind_eq_ok {program : EStateM ε σ α} {s after : σ} {r : β} :
    (program >>= nx) s = .ok r after ↔ ∃ v b, program s = .ok v b ∧ nx v b = .ok r after := by
  show EStateM.bind program nx s = _ ↔ _
  unfold EStateM.bind
  cases program s with
  | ok v b =>
    constructor
    · intro hr
      exact ⟨v, b, rfl, hr⟩
    · rintro ⟨_, _, hs, hr⟩
      cases hs
      exact hr
  | error f b =>
    constructor
    · intro hr
      cases hr
    · rintro ⟨_, _, hs, -⟩
      cases hs

theorem pure_eq_ok {v r : α} {state a : σ} : (Pure.pure v : EStateM ε σ α) state = .ok r a ↔ r = v ∧ a = state := by
  show EStateM.Result.ok v state = _ ↔ _
  rw [EStateM.Result.ok.injEq]
  exact ⟨fun h => ⟨h.1.symm, h.2.symm⟩, fun h => ⟨h.1.symm, h.2.symm⟩⟩

variable {pre kept invariant : σ → Prop} {program : EStateM ε σ α} {post : α → σ → Prop}

theorem Ensures.bind {l : β → σ → Prop} (hf : Ensures pre program post kept)
    (hs : ∀ r, Ensures (post r) (nx r) l kept) : Ensures pre (program >>= nx) l kept := by
  intro s hh
  have hr := hf s hh
  show match EStateM.bind program nx s with
    | .ok r a => l r a
    | .error _ a => kept a
  unfold EStateM.bind
  cases ho : program s with
  | ok r a =>
    rw [ho] at hr
    exact hs r a hr
  | error f a =>
    rw [ho] at hr
    exact hr

theorem Ensures.pure {r : α} (he : ∀ s, pre s → post r s) :
    Ensures pre (Pure.pure r : EStateM ε σ α) post kept := fun s hh => he s hh

theorem Ensures.throw {f : ε} (he : ∀ s, pre s → kept s) :
    Ensures pre (MonadExcept.throw f : EStateM ε σ α) post kept := fun s hh => he s hh

theorem Ensures.strengthen {st : σ → Prop} (he : Ensures pre program post kept)
    (hen : ∀ s, st s → pre s) : Ensures st program post kept :=
  fun s hh => he s (hen s hh)

theorem Ensures.read {nx : σ → EStateM ε σ β} {l : β → σ → Prop} (hs : ∀ s, pre s → Ensures (· = s) (nx s) l kept) :
    Ensures pre (MonadState.get >>= nx) l kept := fun s hh => hs s hh s rfl

theorem Keeps.pure (r : α) : Keeps invariant (Pure.pure r : EStateM ε σ α) := fun _ h => h

theorem Keeps.throw (f : ε) : Keeps invariant (MonadExcept.throw f : EStateM ε σ α) := fun _ h => h

theorem Keeps.bind (hf : Keeps invariant program)
    (hs : ∀ r, Keeps invariant (nx r)) : Keeps invariant (program >>= nx) :=
  Ensures.bind hf hs

theorem Keeps.read {nx : σ → EStateM ε σ β} (hs : ∀ s, invariant s → Keeps invariant (nx s)) :
    Keeps invariant (MonadState.get >>= nx) := fun s hh => hs s hh s hh

theorem Keeps.ite {c : Prop} [Decidable c] {fst snd : EStateM ε σ α} (hy : c → Keeps invariant fst)
    (no : ¬c → Keeps invariant snd) : Keeps invariant (if c then fst else snd) := by
  split
  case isTrue hh => exact hy hh
  case isFalse hf => exact no hf

theorem Keeps.ok {r : α} {s after : σ} (hk : Keeps invariant program) (hr : program s = .ok r after)
    (hh : invariant s) : invariant after := by
  have kept := hk s hh
  rw [hr] at kept
  exact kept

theorem Keeps.and_ok {e : α → σ → Prop} (hk : Keeps invariant program) (he : ∀ s r a, program s = .ok r a → e r a) :
    Ensures invariant program (fun r a => invariant a ∧ e r a) invariant := by
  intro s hh
  have kept := hk s hh
  cases ho : program s with
  | ok r a =>
    rw [ho] at kept
    exact ⟨kept, he s r a ho⟩
  | error f a =>
    rw [ho] at kept
    exact kept

theorem Ensures.finalState {post : σ → Prop} (he : Ensures pre program (fun _ => post) post) {s : σ}
    (hh : pre s) : post (Transition.finalState (program s)) := by
  have hr := he s hh
  cases ho : program s with
  | ok _ _ => rw [ho] at hr; exact hr
  | error _ _ => rw [ho] at hr; exact hr

theorem Keeps.finalState (hk : Keeps invariant program) {s : σ} (hh : invariant s) :
    invariant (Transition.finalState (program s)) := Ensures.finalState hk hh

def Returns (program : EStateM ε σ α) (post : α → Prop) : Prop :=
  ∀ state result after, program state = .ok result after → post result

theorem Returns.pure {r : α} {post : α → Prop} (hh : post r) : Returns (Pure.pure r : EStateM ε σ α) post := by
  intro s re a hr
  cases hr
  exact hh

theorem Returns.throw {post : α → Prop} (f : ε) : Returns (MonadExcept.throw f : EStateM ε σ α) post := by
  intro s r a h
  cases h

theorem Returns.any : Returns program fun _ => True := fun _ _ _ _ => True.intro

theorem Returns.bind {m : α → Prop} {post : β → Prop} (hf : Returns program m)
    (hs : ∀ r, m r → Returns (nx r) post) : Returns (program >>= nx) post := by
  intro s re a hr
  change EStateM.bind program nx s = _ at hr
  unfold EStateM.bind at hr
  cases ho : program s with
  | ok r b =>
    rw [ho] at hr
    exact hs r (hf s r b ho) b re a hr
  | error f b =>
    rw [ho] at hr
    cases hr

theorem Returns.ite {c : Prop} [Decidable c] {fst snd : EStateM ε σ α} {post : α → Prop}
    (hy : c → Returns fst post) (no : ¬c → Returns snd post) : Returns (if c then fst else snd) post := by
  split
  case isTrue hh => exact hy hh
  case isFalse hf => exact no hf

theorem Ensures.returning {re : α → Prop} (he : Ensures pre program post kept) (hr : Returns program re) :
    Ensures pre program (fun r s => re r ∧ post r s) kept := by
  intro s hh
  have ran := he s hh
  cases ho : program s with
  | ok r a =>
    rw [ho] at ran
    exact ⟨hr s r a ho, ran⟩
  | error f a =>
    rw [ho] at ran
    exact ran

theorem Ensures.assume {f : Prop} (he : f → Ensures pre program post kept) :
    Ensures (fun s => f ∧ pre s) program post kept := fun s hh => he hh.1 s hh.2

end RiscvEmulators.Transition
