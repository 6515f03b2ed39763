import Mathlib.Logic.Basic

/-!
Requests to a store, as trees of atomic calls.

A request either has answered or makes one call next. A call acts on the store at once, and
what it saw of the store decides how the request goes on; between two calls of a request
others may act. `exec` runs a request alone, from its first call to its answer.
-/

namespace CoffeeOs.Requests

/-- A request to a store of type `σ`. A call changes the store by `write`, and goes on
according to the store it found. -/
inductive Request (σ ε α : Type) where
  | done (r : Except ε α)
  | call (write : σ → σ) (rest : σ → Request σ ε α)

namespace Request

variable {σ ε α β : Type}

def bind : Request σ ε α → (α → Request σ ε β) → Request σ ε β
  | .done (.ok a), f => f a
  | .done (.error e), _ => .done (.error e)
  | .call w k, f => .call w fun s => (k s).bind f

instance : Monad (Request σ ε) where
  pure a := .done (.ok a)
  bind := bind

def fail (e : ε) : Request σ ε α := .done (.error e)

/-- Throw `e` if the test holds. -/
def throwIf (c : Prop) [Decidable c] (e : ε) : Request σ ε Unit :=
  if c then fail e else .done (.ok ())

/-- The value, or throw `e` if there is none. -/
def orThrow (e : ε) : Option α → Request σ ε α
  | some a => .done (.ok a)
  | none => fail e

/-- Check the value, if there is one. -/
def checkSome (o : Option α) (check : α → Request σ ε Unit) : Request σ ε Unit :=
  match o with
  | none => .done (.ok ())
  | some a => check a

/-- One atomic call that may fail, and then leaves the store as it is. -/
def atomically (f : σ → Except ε (α × σ)) : Request σ ε α :=
  .call (fun s => match f s with | .ok (_, s') => s' | .error _ => s)
    fun s => .done ((f s).map Prod.fst)

/-- One atomic call that only looks. -/
def look (f : σ → α) : Request σ ε α := .call id fun s => .done (.ok (f s))

/-- The request, with an error it throws as its answer. -/
def attempt : Request σ ε α → Request σ ε (Except ε α)
  | .done r => .done (.ok r)
  | .call w k => .call w fun s => (k s).attempt

/-- Several requests at once: all run to their answers, and if one has thrown, the first error
is thrown then. -/
def all : List (Request σ ε α) → Request σ ε (List α)
  | [] => .done (.ok [])
  | p :: ps => p.attempt >>= fun r => (all ps).attempt >>= fun rs =>
    .done (r.bind fun a => rs.map fun as => a :: as)

/-- The answer of a request that runs alone, and the store it leaves. -/
def exec : Request σ ε α → σ → Except ε α × σ
  | .done r, s => (r, s)
  | .call w k, s => (k s).exec (w s)

/-- The request, run alone, answers without an error. -/
def Accepts (p : Request σ ε α) (s : σ) : Prop := ∃ a, (p.exec s).1 = .ok a

instance (p : Request σ ε α) (s : σ) : Decidable (p.Accepts s) :=
  match h : (p.exec s).1 with
  | .ok _ => isTrue ⟨_, h⟩
  | .error _ => isFalse (by simp [Accepts, h])

/-! ### Going on without a call -/

variable {s : σ} {e : ε}

lemma done_ok_bind (a : α) (f : α → Request σ ε β) : (done (.ok a) >>= f) = f a := rfl

lemma done_error_bind (f : α → Request σ ε β) :
    (done (.error e) >>= f : Request σ ε β) = done (.error e) := rfl

lemma orThrow_some_bind (a : α) (f : α → Request σ ε β) : (orThrow e (some a) >>= f) = f a := rfl

lemma orThrow_none_bind (f : α → Request σ ε β) :
    (orThrow e none >>= f : Request σ ε β) = done (.error e) := rfl

lemma throwIf_bind_pos {c : Prop} [Decidable c] (h : c) (f : Unit → Request σ ε β) :
    (throwIf c e >>= f) = done (.error e) := by
  rw [throwIf, if_pos h]; rfl

lemma throwIf_bind_neg {c : Prop} [Decidable c] (h : ¬ c) (f : Unit → Request σ ε β) :
    (throwIf c e >>= f) = f () := by
  rw [throwIf, if_neg h]; rfl

/-! ### Running alone -/

@[simp] lemma exec_done (r : Except ε α) : (done r : Request σ ε α).exec s = (r, s) := rfl

@[simp] lemma exec_pure (a : α) : (pure a : Request σ ε α).exec s = (.ok a, s) := rfl

@[simp] lemma exec_fail : (fail e : Request σ ε α).exec s = (.error e, s) := rfl

lemma exec_bind (p : Request σ ε α) (f : α → Request σ ε β) :
    (p >>= f).exec s = match p.exec s with
      | (.ok a, s') => (f a).exec s'
      | (.error e, s') => (.error e, s') := by
  induction p generalizing s with
  | done r => cases r <;> rfl
  | call w k ih => exact ih s

@[simp] lemma exec_pure_bind (a : α) (f : α → Request σ ε β) :
    (pure a >>= f : Request σ ε β).exec s = (f a).exec s := rfl

@[simp] lemma exec_fail_bind (f : α → Request σ ε β) :
    (fail e >>= f : Request σ ε β).exec s = (.error e, s) := rfl

@[simp] lemma exec_look (f : σ → α) : (look f : Request σ ε α).exec s = (.ok (f s), s) := rfl

@[simp] lemma exec_look_bind (f : σ → α) (g : α → Request σ ε β) :
    (look f >>= g).exec s = (g (f s)).exec s := rfl

lemma exec_atomically (f : σ → Except ε (α × σ)) :
    (atomically f).exec s = match f s with
      | .ok (a, s') => (.ok a, s')
      | .error e => (.error e, s) := by
  rcases h : f s with e | ⟨a, s'⟩ <;> simp [atomically, exec, h, Except.map]

lemma exec_throwIf {c : Prop} [Decidable c] :
    (throwIf c e : Request σ ε Unit).exec s = (if c then .error e else .ok (), s) := by
  unfold throwIf
  split <;> rfl

lemma exec_throwIf_bind {c : Prop} [Decidable c] (g : Unit → Request σ ε β) :
    (throwIf c e >>= g).exec s = if c then (.error e, s) else (g ()).exec s := by
  unfold throwIf
  split <;> rfl

@[simp] lemma exec_throwIf_bind_pos {c : Prop} [Decidable c] (h : c) (g : Unit → Request σ ε β) :
    (throwIf c e >>= g).exec s = (.error e, s) := by
  rw [throwIf_bind_pos h]; rfl

@[simp] lemma exec_throwIf_bind_neg {c : Prop} [Decidable c] (h : ¬c)
    (g : Unit → Request σ ε β) : (throwIf c e >>= g).exec s = (g ()).exec s := by
  rw [throwIf_bind_neg h]

@[simp] lemma exec_orThrow_some (a : α) (g : α → Request σ ε β) :
    (orThrow e (some a) >>= g).exec s = (g a).exec s := rfl

@[simp] lemma exec_orThrow_none (g : α → Request σ ε β) :
    (orThrow e none >>= g : Request σ ε β).exec s = (.error e, s) := rfl

/-! ### Checks -/

/-- The request goes on if `P` and throws otherwise, and leaves the store as it is. -/
structure Checks (p : Request σ ε Unit) (s : σ) (P : Prop) : Prop where
  pass : P → p.exec s = (.ok (), s)
  refuse : ¬ P → ∃ e, p.exec s = (.error e, s)

section Checks

variable {p q : Request σ ε Unit} {P Q : Prop}

lemma checks_throwIf {c : Prop} [Decidable c] :
    (throwIf c e : Request σ ε Unit).Checks s (¬ c) where
  pass h := by rw [exec_throwIf, if_neg h]
  refuse h := ⟨e, by rw [exec_throwIf, if_pos (not_not.mp h)]⟩

/-- Asking for something that has to be there. -/
lemma checks_look_orThrow (f : σ → Option α) :
    (look f >>= fun found => orThrow e found >>= fun _ => pure ()).Checks s ((f s).isSome) := by
  refine ⟨fun h => ?_, fun h => ⟨e, ?_⟩⟩
  · obtain ⟨a, ha⟩ := Option.isSome_iff_exists.mp h
    rw [exec_look_bind, ha, exec_orThrow_some, exec_pure]
  · rw [exec_look_bind, Option.not_isSome_iff_eq_none.mp h, exec_orThrow_none]

lemma checks_look_throwIf (f : σ → α) (c : α → Prop) [DecidablePred c] :
    (look f >>= fun found => throwIf (c found) e).Checks s (¬ c (f s)) :=
  ⟨fun h => (exec_look_bind _ _).trans (checks_throwIf.pass h),
    fun h => (checks_throwIf.refuse h).imp fun _ he => (exec_look_bind _ _).trans he⟩

lemma checks_checkSome {o : Option α} {check : α → Request σ ε Unit} {P : α → Prop}
    (h : ∀ a ∈ o, (check a).Checks s (P a)) : (checkSome o check).Checks s (∀ a ∈ o, P a) := by
  rcases o with _ | a
  · exact ⟨fun _ => rfl, fun hn => absurd (by simp) hn⟩
  · refine ⟨fun hall => (h a rfl).pass (hall a rfl), fun hn => (h a rfl).refuse fun ha => hn ?_⟩
    intro b hb
    rwa [← Option.some.inj hb]

/-- What a request that begins with a check leaves. -/
lemma Checks.store [Decidable P] (hp : p.Checks s P) (f : Unit → Request σ ε α) :
    ((p >>= f).exec s).2 = if P then ((f ()).exec s).2 else s := by
  rw [exec_bind]
  by_cases h : P
  · rw [hp.pass h, if_pos h]
  · obtain ⟨e, he⟩ := hp.refuse h
    rw [he, if_neg h]

end Checks

/-! ### Requests that are all made -/

lemma exec_attempt {p : Request σ ε α} : p.attempt.exec s = (.ok (p.exec s).1, (p.exec s).2) := by
  induction p generalizing s with
  | done r => rfl
  | call w k ih => exact ih s

lemma exec_all_cons {p : Request σ ε α} {ps : List (Request σ ε α)} : (all (p :: ps)).exec s =
    ((p.exec s).1.bind fun a => ((all ps).exec (p.exec s).2).1.map fun as => a :: as,
      ((all ps).exec (p.exec s).2).2) := by
  rw [all, exec_bind, exec_attempt]
  dsimp only
  rw [exec_bind, exec_attempt]
  rfl

/-! ### Requests that look first and write last -/

/-- The request never writes. -/
inductive OnlyLooks : Request σ ε α → Prop
  | done (r : Except ε α) : OnlyLooks (.done r)
  | call {k : σ → Request σ ε α} (h : ∀ s, OnlyLooks (k s)) : OnlyLooks (.call id k)

/-- The request only looks until its last call, which writes if it does not fail. -/
inductive WritesLast : Request σ ε α → Prop
  | done (r : Except ε α) : WritesLast (.done r)
  | call {k : σ → Request σ ε α} (h : ∀ s, WritesLast (k s)) : WritesLast (.call id k)
  | atomically (f : σ → Except ε (α × σ)) : WritesLast (atomically f)

variable {p : Request σ ε α} {f : α → Request σ ε β}

lemma onlyLooks_look (f : σ → α) : (look f : Request σ ε α).OnlyLooks := .call fun _ => .done _

lemma onlyLooks_throwIf {c : Prop} [Decidable c] : (throwIf c e : Request σ ε Unit).OnlyLooks := by
  unfold throwIf
  split <;> exact .done _

lemma onlyLooks_orThrow {o : Option α} : (orThrow e o : Request σ ε α).OnlyLooks := by
  cases o <;> exact .done _

lemma onlyLooks_checkSome {o : Option α} {check : α → Request σ ε Unit}
    (h : ∀ a, (check a).OnlyLooks) : (checkSome o check).OnlyLooks := by
  cases o with
  | none => exact .done _
  | some a => exact h a

lemma OnlyLooks.bind (hp : p.OnlyLooks) (hf : ∀ a, (f a).OnlyLooks) : (p >>= f).OnlyLooks := by
  induction hp with
  | done r =>
    cases r with
    | ok a => exact hf a
    | error e => exact .done _
  | call _ ih => exact .call ih

lemma OnlyLooks.writesLast (hp : p.OnlyLooks) (hf : ∀ a, (f a).WritesLast) :
    (p >>= f).WritesLast := by
  induction hp with
  | done r =>
    cases r with
    | ok a => exact hf a
    | error e => exact .done _
  | call _ ih => exact .call ih

lemma map_atomically (g : α → β) (f : σ → Except ε (α × σ)) :
    (g <$> atomically f : Request σ ε β) = atomically fun s => (f s).map fun a => (g a.1, a.2) := by
  refine congrArg₂ Request.call (funext fun s => ?_) (funext fun s => ?_)
  · dsimp only
    rcases f s with e | a <;> rfl
  · dsimp only
    rcases f s with e | a <;> rfl

lemma WritesLast.map (hp : p.WritesLast) (g : α → β) : (g <$> p).WritesLast := by
  induction hp with
  | done r => cases r <;> exact .done _
  | call _ ih => exact .call ih
  | atomically f =>
    rw [map_atomically]
    exact .atomically _

/-- A request that writes last leaves the store as it is unless it answers without an error. -/
lemma WritesLast.exec_of_not_accepts (hp : p.WritesLast) (h : ¬ p.Accepts s) :
    (p.exec s).2 = s := by
  induction hp with
  | done r => rfl
  | call _ ih => exact ih s h
  | atomically f =>
    rw [exec_atomically]
    rcases hf : f s with e | ⟨a, s'⟩
    · rfl
    · refine absurd ⟨a, ?_⟩ h
      rw [exec_atomically, hf]

end Request

end CoffeeOs.Requests
