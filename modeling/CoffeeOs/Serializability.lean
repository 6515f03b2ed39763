import CoffeeOs.Footprints

/-!
Requests whose turns overlap only where they leave each other alone.

The store is taken to consist of cells, and a footprint says which of them a request writes and
which else it reads. Two requests are free of each other if neither writes what the other writes or
reads. If requests are wherever their turns overlap, the turns of each can be brought together:
they answer and leave what they answer and leave one after the other.
-/

namespace CoffeeOs.Serializability

open CoffeeOs.Footprints CoffeeOs.Interleaving CoffeeOs.Interleaving.Pool CoffeeOs.Requests
open CoffeeOs.Requests.Request CoffeeOs.Runs

variable {ι σ τ ε α β : Type}

/-- A store that consists of cells. -/
structure Cells (σ τ : Type) where
  same : τ → σ → σ → Prop
  equivalence : ∀ t, Equivalence (same t)
  ext : ∀ {s s'}, (∀ t, same t s s') → s = s'

/-- The cells that a request writes, and others that it reads. -/
structure Footprint (τ : Type) where
  writes : List τ
  reads : List τ := []

def Footprint.cells (F : Footprint τ) : List τ := F.writes ++ F.reads

/-- Neither writes what the other writes or reads. -/
def Footprint.Free (F F' : Footprint τ) : Prop :=
  (∀ t ∈ F.writes, t ∉ F'.cells) ∧ ∀ t ∈ F'.writes, t ∉ F.cells

instance [DecidableEq τ] (F F' : Footprint τ) : Decidable (F.Free F') :=
  inferInstanceAs (Decidable (_ ∧ _))

variable {C : Cells σ τ} {F F' : Footprint τ}

lemma Footprint.Free.symm (h : F.Free F') : F'.Free F := ⟨h.2, h.1⟩

/-! ### Rewrites within a footprint -/

section Rewrites

/-- The stores agree on the cells of the footprint. -/
def Agree (C : Cells σ τ) (F : Footprint τ) (s s' : σ) : Prop := ∀ t ∈ F.cells, C.same t s s'

/-- The rewrite changes no other cells than those the footprint writes, and by nothing but the
cells of the footprint. -/
structure Keeps (C : Cells σ τ) (F : Footprint τ) (f : σ → σ) : Prop where
  frame : ∀ s, ∀ t ∉ F.writes, C.same t s (f s)
  agree : ∀ s s', Agree C F s s' → ∀ t ∈ F.writes, C.same t (f s) (f s')

variable {f g : σ → σ} {s s' : σ}

lemma keeps_id : Keeps C F id where
  frame _ t _ := (C.equivalence t).refl _
  agree _ _ h t ht := h t (List.mem_append_left _ ht)

lemma Keeps.agree_of_free (hf : Keeps C F' f) (h : F.Free F') (s : σ) : Agree C F s (f s) :=
  fun t ht => hf.frame s t fun hw => h.2 t hw ht

/-- Rewrites that are free of each other may be made in either order. -/
lemma Keeps.comm (hf : Keeps C F f) (hg : Keeps C F' g) (h : F.Free F') : f (g s) = g (f s) := by
  refine C.ext fun t => ?_
  have E := C.equivalence t
  by_cases ht : t ∈ F.writes
  · -- `g` shows neither in what `f` writes nor in what it is made of
    have hleft : C.same t (f s) (f (g s)) := hf.agree _ _ (hg.agree_of_free h s) t ht
    have hright := hg.frame (f s) t fun hw => h.2 t hw (List.mem_append_left _ ht)
    exact E.trans (E.symm hleft) hright
  · by_cases ht' : t ∈ F'.writes
    · have hright : C.same t (g s) (g (f s)) := hg.agree _ _ (hf.agree_of_free h.symm s) t ht'
      exact E.trans (E.symm (hf.frame (g s) t ht)) hright
    · have hleft := E.trans (hg.frame s t ht') (hf.frame (g s) t ht)
      exact E.trans (E.symm hleft) (E.trans (hf.frame s t ht) (hg.frame (f s) t ht'))

/-- One rewrite after the other. -/
lemma Keeps.comp (hg : Keeps C F g) (hf : Keeps C F f) : Keeps C F fun s => g (f s) where
  frame s t ht := (C.equivalence t).trans (hf.frame s t ht) (hg.frame (f s) t ht)
  agree s s' h := hg.agree _ _ fun t ht => by
    have E := C.equivalence t
    by_cases hw : t ∈ F.writes
    · exact hf.agree s s' h t hw
    · exact E.trans (E.symm (hf.frame s t hw)) (E.trans (h t ht) (hf.frame s' t hw))

/-- A rewrite that is made under a condition. -/
lemma keeps_ite {c : σ → Prop} [DecidablePred c] (hc : ∀ s s', Agree C F s s' → (c s ↔ c s'))
    (hf : Keeps C F f) : Keeps C F fun s => if c s then f s else s where
  frame s t ht := by
    split
    · exact hf.frame s t ht
    · exact (C.equivalence t).refl _
  agree s s' h t ht := by
    by_cases hs : c s
    · rw [if_pos hs, if_pos ((hc s s' h).mp hs)]
      exact hf.agree s s' h t ht
    · rw [if_neg hs, if_neg fun hs' => hs ((hc s s' h).mpr hs')]
      exact h t (List.mem_append_left _ ht)

end Rewrites

/-! ### Requests within a footprint -/

section Requests

/-- The calls of the request keep to the footprint, and what they see as well. -/
inductive Uses (C : Cells σ τ) (F : Footprint τ) : Request σ ε α → Prop
  | done (r : Except ε α) : Uses C F (.done r)
  | call {w : σ → σ} {k : σ → Request σ ε α} (write : Keeps C F w)
      (sees : ∀ s s', Agree C F s s' → k s = k s') (rest : ∀ s, Uses C F (k s)) :
      Uses C F (.call w k)

variable {p : Request σ ε α} {f : α → Request σ ε β} {e : ε}

lemma Uses.within (h : Uses C F p) : Within (Keeps C F) p := by
  induction h with
  | done r => exact .done r
  | call write _ _ ih => exact .call write ih

lemma Uses.blind (h : Uses C F p) (hfree : F.Free F') : Blind (Keeps C F') p := by
  induction h with
  | done r => exact .done r
  | call write sees _ ih =>
    exact .call (fun g hg s => write.comm hg hfree)
      (fun g hg s => (sees s (g s) (hg.agree_of_free hfree s)).symm) ih

lemma Uses.bind (hp : Uses C F p) (hf : ∀ a, Uses C F (f a)) : Uses C F (p >>= f) := by
  induction hp with
  | done r =>
    cases r with
    | ok a => exact hf a
    | error e => exact .done _
  | call write sees _ ih =>
    exact .call write (fun s s' h => congrArg (Request.bind · f) (sees s s' h)) ih

lemma uses_look {g : σ → α} (h : ∀ s s', Agree C F s s' → g s = g s') :
    Uses C F (look g : Request σ ε α) :=
  .call keeps_id (fun s s' hs => by rw [h s s' hs]) fun _ => .done _

lemma uses_throwIf {c : Prop} [Decidable c] : Uses C F (throwIf c e : Request σ ε Unit) := by
  unfold throwIf
  split <;> exact .done _

lemma uses_orThrow {o : Option α} : Uses C F (orThrow e o : Request σ ε α) := by
  cases o <;> exact .done _

lemma uses_checkSome {o : Option α} {check : α → Request σ ε Unit}
    (h : ∀ a, Uses C F (check a)) : Uses C F (checkSome o check) := by
  cases o with
  | none => exact .done _
  | some a => exact h a

lemma uses_atomically {g : σ → Except ε (α × σ)}
    (hstore : Keeps C F fun s => ((Request.atomically g).exec s).2)
    (hsees : ∀ s s', Agree C F s s' → (g s).map Prod.fst = (g s').map Prod.fst) :
    Uses C F (Request.atomically g) :=
  .call hstore (fun s s' h => congrArg Request.done (hsees s s' h)) fun _ => .done _

lemma Uses.attempt (h : Uses C F p) : Uses C F p.attempt := by
  induction h with
  | done r => exact .done _
  | call write sees _ ih =>
    exact .call write (fun s s' hs => congrArg Request.attempt (sees s s' hs)) ih

lemma uses_all {ps : List (Request σ ε α)} (h : ∀ p ∈ ps, Uses C F p) : Uses C F (all ps) := by
  induction ps with
  | nil => exact .done _
  | cons p ps ih =>
    obtain ⟨hp, hps⟩ := List.forall_mem_cons.mp h
    exact hp.attempt.bind fun _ => (ih hps).attempt.bind fun _ => .done _

/-- The same of a request that nobody waits for: what its last call shows is not seen. -/
def Ends (C : Cells σ τ) (F : Footprint τ) (p : Request σ ε α) : Prop :=
  Uses C F ((fun _ => ()) <$> p)

lemma Uses.ends (h : Uses C F p) : Ends C F p := h.bind fun _ => .done _

lemma Ends.bind (hp : Uses C F p) (hf : ∀ a, Ends C F (f a)) : Ends C F (p >>= f) := by
  induction hp with
  | done r =>
    cases r with
    | ok a => exact hf a
    | error e => exact .done _
  | call write sees _ ih =>
    refine .call write (fun s s' h => ?_) ih
    exact congrArg (fun p => (Request.bind p f).bind _) (sees s s' h)

lemma ends_atomically {g : σ → Except ε (α × σ)}
    (hstore : Keeps C F fun s => ((Request.atomically g).exec s).2)
    (hsees : ∀ s s', Agree C F s s' → (g s).map (fun _ => ()) = (g s').map fun _ => ()) :
    Ends C F (Request.atomically g) := by
  unfold Ends
  rw [map_atomically]
  refine uses_atomically ?_ fun s s' h => ?_
  · have hexec : (fun s => ((Request.atomically fun s =>
        (g s).map fun a => ((), a.2)).exec s).2) = fun s => ((Request.atomically g).exec s).2 := by
      funext s
      rw [exec_atomically, exec_atomically]
      rcases g s with e | a <;> rfl
    rwa [hexec]
  · have hmap (s : σ) : ((g s).map fun a => ((), a.2)).map Prod.fst = (g s).map fun _ => () := by
      rcases g s with e | a <;> rfl
    rw [hmap, hmap, hsees s s' h]

end Requests

/-! ### Runs -/

section Runs

variable [DecidableEq ι] {free : ι → ι → Prop} {T : ι → (σ → σ) → Prop} {p : Pool ι σ ε α}
  {i : ι} {is : List ι}

/-- Each request makes rewrites of its own only, and is blind to those of the requests it is free
of. -/
structure Separate (T : ι → (σ → σ) → Prop) (free : ι → ι → Prop) (p : Pool ι σ ε α) : Prop where
  symm : ∀ i j, free i j → free j i
  within : ∀ i, Within (T i) (p.requests i)
  blind : ∀ i j, free i j → Blind (T j) (p.requests i)

lemma Separate.step (h : Separate T free p) (i : ι) : Separate T free (p.step i) :=
  ⟨h.symm, fun j => within_step (h.within j) i, fun j k hfree => blind_step (h.blind j k hfree) i⟩

lemma Separate.run (h : Separate T free p) (is : List ι) : Separate T free (run Pool.step p is) :=
  run_of_step (fun _ i hp => hp.step i) h

lemma Separate.step_replicate (h : Separate T free p) {j : ι} (hij : j ≠ i) (hfree : free j i)
    (n : ℕ) : (Runs.run Pool.step p (List.replicate n i)).step j =
      Runs.run Pool.step (p.step j) (List.replicate n i) := by
  induction n generalizing p with
  | zero => rfl
  | succ n ih =>
    rw [List.replicate_succ, run_cons, run_cons, ih (h.step i),
      step_comm hij (h.within j) (h.within i) (h.blind j i hfree)
        (h.blind i j (h.symm j i hfree))]

/-- The turns of a request may be brought forward over those of requests it is free of. -/
lemma Separate.run_together (h : Separate T free p)
    (hfree : ∀ j, j ≠ i → [j, i].Sublist is → free j i) :
    Runs.run Pool.step p is = Runs.run Pool.step p
      (List.replicate (is.count i) i ++ is.filter fun j => j ≠ i) := by
  induction is generalizing p with
  | nil => rfl
  | cons j is ih =>
    have hrest := ih (h.step j) fun k hk hsub => hfree k hk (hsub.cons j)
    by_cases hj : j = i
    · subst hj
      rw [List.count_cons_self, List.filter_cons_of_neg (by simp), List.replicate_succ,
        List.cons_append, run_cons, run_cons, hrest]
    rw [List.count_cons_of_ne hj, List.filter_cons_of_pos (by simpa using hj)]
    by_cases hi : i ∈ is
    · -- `j` has a turn before one of `i`, and the two are free of each other
      have hji : free j i := hfree j hj ((List.singleton_sublist.mpr hi).cons_cons j)
      rw [run_cons, hrest, run_append, run_append, run_cons, h.step_replicate hj hji]
    · -- `i` has no turn after this one, and there is nothing to move
      rw [List.count_eq_zero_of_not_mem hi]
      refine congrArg (fun l => Runs.run Pool.step p (j :: l)) (List.filter_eq_self.mpr ?_).symm
      exact fun k hk => by simpa using fun he : k = i => hi (he ▸ hk)

/-- The requests in the order of their first turns. -/
def firsts : List ι → List ι
  | [] => []
  | i :: is => i :: (firsts is).filter fun j => j ≠ i

lemma firsts_filter (P : ι → Bool) (is : List ι) :
    firsts (is.filter P) = (firsts is).filter P := by
  induction is with
  | nil => rfl
  | cons i is ih =>
    by_cases hi : P i
    · rw [List.filter_cons_of_pos hi, firsts, firsts, List.filter_cons_of_pos hi, ih,
        List.filter_comm]
    · rw [List.filter_cons_of_neg hi, firsts, List.filter_cons_of_neg hi, ih, List.filter_filter]
      refine List.filter_congr fun j _ => ?_
      by_cases hj : j = i
      · subst hj
        simpa using hi
      · simp [hj]

lemma mem_firsts {j : ι} : j ∈ firsts is ↔ j ∈ is := by
  induction is with
  | nil => rfl
  | cons i is ih =>
    by_cases hj : j = i <;> simp [firsts, ih, hj]

omit [DecidableEq ι] in
lemma inTurn_congr {requests requests' : ι → Request σ ε α} {js : List ι}
    (h : ∀ j ∈ js, requests j = requests' j) (s : σ) :
    inTurn requests s js = inTurn requests' s js :=
  List.foldl_ext _ _ _ fun s j hj => by rw [h j hj]

/-- **Serializability.** If requests are free of each other wherever a turn of one comes between
two turns of the other, finished requests answer and leave what they answer and leave one after the
other, in the order of their first turns. -/
theorem serial_of_finished (h : Separate T free p)
    (hfree : ∀ i j, i ≠ j → [i, j, i].Sublist is → free i j)
    (hf : ∀ i ∈ is, ¬ (Runs.run Pool.step p is).Pending i) :
    (Runs.run Pool.step p is).store = inTurn p.requests p.store (firsts is) ∧
      ∀ pre i post, firsts is = pre ++ i :: post → (Runs.run Pool.step p is).answer i =
        some ((p.requests i).exec (inTurn p.requests p.store pre)).1 := by
  induction hn : is.length using Nat.strong_induction_on generalizing is p with
  | _ n ih =>
  rcases is with _ | ⟨i, is⟩
  · exact ⟨rfl, fun pre i post he => by simp [firsts] at he⟩
  set rest := is.filter fun j => j ≠ i with hrest
  set alone := Runs.run Pool.step p (List.replicate ((i :: is).count i) i) with halone
  -- the turns of `i`, who comes first, are all moved to the front
  have hsplit : Runs.run Pool.step p (i :: is) = Runs.run Pool.step alone rest := by
    rw [h.run_together (i := i) fun j hj hsub => ?_, run_append,
      List.filter_cons_of_neg (by simp)]
    cases hsub with
    | cons _ hsub => exact h.symm _ _ (hfree i j hj.symm (hsub.cons_cons i))
    | cons_cons _ => exact absurd rfl hj
  have hmem : ∀ j ∈ firsts rest, j ∈ rest := fun j => mem_firsts.mp
  have hrequests : ∀ j ∈ firsts rest, alone.requests j = p.requests j := fun j hj =>
    requests_run_of_notMem fun hj' => by
      simpa [List.eq_of_mem_replicate hj'] using List.mem_filter.mp (hmem j hj)
  -- `i` has no turns among the others, so that it has answered before them
  have hlast : (Runs.run Pool.step alone rest).requests i = alone.requests i :=
    requests_run_of_notMem fun hi => by simpa using (List.mem_filter.mp hi).2
  obtain ⟨r, hr⟩ : ∃ r, alone.requests i = .done r := by
    rcases hreq : alone.requests i with r | ⟨w, k⟩
    · exact ⟨r, rfl⟩
    · refine absurd ?_ (hf i List.mem_cons_self)
      rw [hsplit]
      exact pending_iff.mpr ⟨w, k, hlast.trans hreq⟩
  have hexec : (p.requests i).exec p.store = (r, alone.store) := exec_of_replicate hr
  have hshorter : rest.length < n := by
    rw [← hn]
    exact Nat.lt_succ_of_le (List.length_filter_le _ _)
  -- the others then run from where `i` has left the store
  obtain ⟨hstore, hanswers⟩ := ih rest.length hshorter (h.run _)
    (fun j k hjk hsub => hfree j k hjk ((hsub.trans List.filter_sublist).cons i))
    (fun j hj => by
      rw [← hsplit]
      exact hf j (List.mem_cons_of_mem _ (List.mem_of_mem_filter hj))) rfl
  have hfirsts : firsts (i :: is) = i :: firsts rest := by
    rw [firsts, hrest, firsts_filter]
  rw [hsplit, hfirsts]
  refine ⟨?_, fun pre j post he => ?_⟩
  · rw [hstore, inTurn_congr hrequests]
    exact congrArg (fun s => inTurn p.requests s (firsts rest)) (congrArg Prod.snd hexec).symm
  rcases pre with _ | ⟨k, pre⟩
  · -- the answer of `i` itself
    obtain ⟨rfl, rfl⟩ := List.cons.inj he
    unfold answer
    rw [hlast, hr]
    exact congrArg some (congrArg Prod.fst hexec).symm
  · -- the answer of a later one, by the run of the others
    obtain ⟨rfl, he'⟩ := List.cons.inj he
    have hpre : ∀ k ∈ pre, alone.requests k = p.requests k := fun k hk =>
      hrequests k (by rw [he']; exact List.mem_append_left _ hk)
    rw [hanswers pre j post he', hrequests j (by rw [he']; simp), inTurn_congr hpre]
    refine congrArg (fun s => some ((p.requests j).exec (inTurn p.requests s pre)).1) ?_
    exact (congrArg Prod.snd hexec).symm

end Runs

end CoffeeOs.Serializability
