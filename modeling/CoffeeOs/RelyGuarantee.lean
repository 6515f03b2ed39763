import CoffeeOs.Interleaving

/-!
Requests that keep to a contract, whatever the others do.

All requests rely on one invariant of the store, and each guarantees by a contract of its own how
its calls change the store. A request upholds its contract if each of its calls does, made from any
store with the invariant. Requests that do so one by one do so together, in every order of their
calls.
-/

namespace CoffeeOs.RelyGuarantee

open CoffeeOs.Interleaving CoffeeOs.Interleaving.Pool CoffeeOs.Requests CoffeeOs.Requests.Request
open CoffeeOs.Runs

variable {ι σ ε α β : Type} {I : σ → Prop}

/-- How the calls of a request may change the store, as long as it can rely on `I`. -/
structure Contract (I : σ → Prop) where
  allows : σ → σ → Prop
  refl : ∀ s, allows s s
  trans : ∀ {s t u}, allows s t → allows t u → allows s u

variable {C C' : Contract I} {Q : α → Prop} {Q' : β → Prop} {s t : σ} {e : ε}

/-- The store may become `t`. -/
structure Contract.Permits (C : Contract I) (s t : σ) : Prop where
  allows : C.allows s t
  inv : I t

lemma Contract.Permits.trans {u : σ} (h : C.Permits s t) (h' : I t → C.Permits t u) :
    C.Permits s u :=
  ⟨C.trans h.allows (h' h.inv).allows, (h' h.inv).inv⟩

/-- The request upholds the contract, and an answer without an error has the property `Q`. -/
inductive Upholds (C : Contract I) (Q : α → Prop) : Request σ ε α → Prop
  | error (e : ε) : Upholds C Q (.done (.error e))
  | ok {a : α} (h : Q a) : Upholds C Q (.done (.ok a))
  | call {w : σ → σ} {rest : σ → Request σ ε α} (guarantee : ∀ s, I s → C.Permits s (w s))
      (next : ∀ s, I s → Upholds C Q (rest s)) : Upholds C Q (.call w rest)

/-! ### The parts of a request -/

section Parts

variable {p : Request σ ε α} {f : α → Request σ ε β}

lemma Upholds.mono (hC : ∀ s t, C.allows s t → C'.allows s t) (h : Upholds C Q p) :
    Upholds C' Q p := by
  induction h with
  | error e => exact .error e
  | ok h => exact .ok h
  | call guarantee _ ih =>
    exact .call (fun s hs => ⟨hC s _ (guarantee s hs).allows, (guarantee s hs).inv⟩) ih

lemma Upholds.bind (hp : Upholds C Q p) (hf : ∀ a, Q a → Upholds C Q' (f a)) :
    Upholds C Q' (p >>= f) := by
  induction hp with
  | error e => exact .error e
  | ok h => exact hf _ h
  | call guarantee _ ih => exact .call guarantee ih

lemma Upholds.map {g : α → β} (hp : Upholds C Q p) (hg : ∀ a, Q a → Q' (g a)) :
    Upholds C Q' (g <$> p) :=
  hp.bind fun a ha => .ok (hg a ha)

/-- What a request knows of the store that it has read, it knows when it goes on. -/
lemma upholds_look_bind {g : σ → α} (h : ∀ s, I s → Upholds C Q' (f (g s))) :
    Upholds C Q' (look g >>= f) :=
  .call (fun s hs => ⟨C.refl s, hs⟩) h

lemma upholds_orThrow {o : Option α} (h : ∀ a, o = some a → Q a) :
    Upholds C Q (orThrow e o : Request σ ε α) := by
  cases o with
  | none => exact .error e
  | some a => exact .ok (h a rfl)

lemma upholds_atomically {g : σ → Except ε (α × σ)}
    (h : ∀ s a t, I s → g s = .ok (a, t) → Q a ∧ C.Permits s t) : Upholds C Q (atomically g) := by
  refine .call (fun s hs => ?_) fun s hs => ?_
  · rcases hg : g s with e | ⟨a, t⟩
    · exact ⟨C.refl s, hs⟩
    · exact (h s a t hs hg).2
  · rcases hg : g s with e | ⟨a, t⟩
    · exact .error e
    · exact .ok (h s a t hs hg).1

lemma upholds_attempt (h : Upholds C Q p) :
    Upholds C (fun r => ∀ a, r = .ok a → Q a) p.attempt := by
  induction h with
  | error e => exact .ok nofun
  | ok h => exact .ok fun a ha => Except.ok.inj ha ▸ h
  | call guarantee _ ih => exact .call guarantee ih

/-- Requests that are made at once, each of which upholds the contract. -/
lemma upholds_all {ps : List (Request σ ε α)} (h : ∀ p ∈ ps, Upholds C Q p) :
    Upholds C (fun as => ∀ a ∈ as, Q a) (all ps) := by
  induction ps with
  | nil => exact .ok nofun
  | cons p ps ih =>
    obtain ⟨hp, hps⟩ := List.forall_mem_cons.mp h
    refine (upholds_attempt hp).bind fun r hr => (upholds_attempt (ih hps)).bind fun rs hrs => ?_
    rcases r with e | a
    · exact .error e
    rcases rs with e | as
    · exact .error e
    · exact .ok (List.forall_mem_cons.mpr ⟨hr a rfl, hrs as rfl⟩)

/-- Run alone, a request keeps to its contract. -/
lemma Upholds.exec (h : Upholds C Q p) (hinv : I s) : C.Permits s (p.exec s).2 := by
  induction h generalizing s with
  | error e => exact ⟨C.refl s, hinv⟩
  | ok _ => exact ⟨C.refl s, hinv⟩
  | call guarantee _ ih =>
    have hcall := guarantee s hinv
    -- the rest goes on from what the call has left, though with what the call has seen
    exact hcall.trans (ih s hinv)

end Parts

/-! ### Requests whose answers nothing is asked of -/

section Honoured

variable {p : Request σ ε α} {f : α → Request σ ε β}

def Honours (C : Contract I) (p : Request σ ε α) : Prop := Upholds C (fun _ => True) p

lemma honours_pure (a : α) : Honours C (pure a : Request σ ε α) := .ok trivial

lemma Honours.bind (hp : Honours C p) (hf : ∀ a, Honours C (f a)) : Honours C (p >>= f) :=
  Upholds.bind hp fun a _ => hf a

lemma Honours.map (hp : Honours C p) (g : α → β) : Honours C (g <$> p) :=
  hp.bind fun _ => honours_pure _

lemma honours_of_onlyLooks (h : p.OnlyLooks) : Honours C p := by
  induction h with
  | done r =>
    cases r with
    | error e => exact .error e
    | ok a => exact .ok trivial
  | call _ ih => exact .call (fun s hs => ⟨C.refl s, hs⟩) fun s _ => ih s

/-- Going on after a look that nothing is asked of. -/
lemma Honours.after (hp : p.OnlyLooks) (hf : ∀ a, Honours C (f a)) : Honours C (p >>= f) :=
  (honours_of_onlyLooks hp).bind hf

lemma honours_atomically {g : σ → Except ε (α × σ)}
    (h : ∀ s a t, I s → g s = .ok (a, t) → C.Permits s t) : Honours C (atomically g) :=
  upholds_atomically fun s a t hs hg => ⟨trivial, h s a t hs hg⟩

end Honoured

/-! ### Many requests at once -/

section Pools

variable [DecidableEq ι] {p : Pool ι σ ε α} {D : ι → Contract I}

/-- A call is allowed by the contract of its request. -/
lemma upholds_step (h : ∀ i, Upholds (D i) Q (p.requests i)) (hinv : I p.store) (i : ι) :
    (∀ j, Upholds (D j) Q ((p.step i).requests j)) ∧ (D i).Permits p.store (p.step i).store := by
  have hi := h i
  rcases hreq : p.requests i with r | ⟨w, rest⟩
  · -- a request that has answered does nothing more
    rw [step_of_done hreq]
    exact ⟨h, (D i).refl _, hinv⟩
  rw [hreq] at hi
  cases hi with
  | call guarantee next =>
    rw [step_of_call hreq]
    refine ⟨fun j => ?_, guarantee p.store hinv⟩
    by_cases hj : j = i
    · subst hj
      dsimp only
      rw [Function.update_self]
      exact next p.store hinv
    · dsimp only
      rw [Function.update_of_ne hj]
      exact h j

/-- **Contracts.** Requests that uphold their contracts one by one do so together, whatever the
order of their calls. -/
theorem upheld_run (h : ∀ i, Upholds (D i) Q (p.requests i)) (hinv : I p.store) (is : List ι) :
    (∀ i, Upholds (D i) Q ((run Pool.step p is).requests i)) ∧ I (run Pool.step p is).store := by
  induction is generalizing p with
  | nil => exact ⟨h, hinv⟩
  | cons i is ih =>
    obtain ⟨hstep, hpermits⟩ := upholds_step h hinv i
    exact ih hstep hpermits.inv

lemma always_upheld (h : ∀ i, Upholds (D i) Q (p.requests i)) (hinv : I p.store) (is : List ι) :
    Always Pool.step (fun q => I q.store) p is :=
  always_iff.mpr fun pre _ _ => (upheld_run h hinv pre).2

/-- A contract that all requests uphold allows what becomes of the store in a run. -/
lemma permits_run (h : ∀ i, Upholds C Q (p.requests i)) (hinv : I p.store) (is : List ι) :
    C.Permits p.store (run Pool.step p is).store := by
  induction is generalizing p with
  | nil => exact ⟨C.refl _, hinv⟩
  | cons i is ih =>
    obtain ⟨hstep, hpermits⟩ := upholds_step (D := fun _ => C) h hinv i
    exact hpermits.trans (ih hstep)

lemma pending_of_run {i : ι} {is : List ι} (h : (run Pool.step p is).Pending i) : p.Pending i := by
  induction is generalizing p with
  | nil => exact h
  | cons j is ih =>
    rcases hreq : p.requests i with r | ⟨w, rest⟩
    · obtain ⟨w, rest, hcall⟩ := pending_iff.mp (ih h)
      cases (step_requests_of_done hreq).symm.trans hcall
    · exact pending_iff.mpr ⟨w, rest, hreq⟩

/-- **Last calls.** What the other requests leave true is true until a request that writes last has
made its last call. -/
theorem holds_while_pending {A : σ → Prop} {i : ι} {is : List ι}
    (h : ∀ j, Upholds (D j) Q (p.requests j)) (hinv : I p.store)
    (hlast : (p.requests i).WritesLast)
    (hothers : ∀ j, j ≠ i → ∀ s t, (D j).allows s t → A s → A t) (hA : A p.store)
    (hpending : (run Pool.step p is).Pending i) : A (run Pool.step p is).store := by
  induction is generalizing p with
  | nil => exact hA
  | cons j is ih =>
    obtain ⟨hstep, hpermits⟩ := upholds_step h hinv j
    by_cases hj : j = i
    · -- a turn of `i` itself, which is still pending: it has only looked
      subst hj
      obtain ⟨w, rest, hreq⟩ := pending_iff.mp (pending_of_run hpending)
      obtain ⟨w', rest', hnext⟩ := pending_iff.mp (pending_of_run (p := p.step j) hpending)
      rw [hreq] at hlast
      cases hlast with
      | call hrest =>
        have hcalled := step_of_call hreq
        refine ih hstep hpermits.inv ?_ ?_ hpending
        · rw [hcalled]
          dsimp only
          rw [Function.update_self]
          exact hrest p.store
        · rw [hcalled]
          exact hA
      | atomically f =>
        rw [step_of_call hreq] at hnext
        dsimp only at hnext
        rw [Function.update_self] at hnext
        cases hnext
    · -- a turn of another request, which the assertion survives
      refine ih hstep hpermits.inv ?_ (hothers j hj _ _ hpermits.allows hA) hpending
      rwa [step_requests_ne fun he => hj he.symm]

end Pools

end CoffeeOs.RelyGuarantee
