import CoffeeOs.Interleaving
import CoffeeOs.KeyedTable
import Mathlib.Data.List.TakeWhile

/-!
Requests that look whether something is taken before they take it.

A request that finds its key taken is refused. One that does not takes it by its last call, which
does not look again, so that another request may have taken it since. Which requests succeed is
read off the order of the turns: those whose key no request has taken before their first turn.
-/

namespace CoffeeOs.LookThenStore

open CoffeeOs.Interleaving CoffeeOs.Interleaving.Pool CoffeeOs.KeyedTable CoffeeOs.Requests
open CoffeeOs.Requests.Request CoffeeOs.Runs

variable {ι κ σ ε α : Type} [DecidableEq ι]

/-! ### Who comes first -/

section Turns

variable (is : List ι) (i j k : ι)

/-- The turns before the first one of a request. -/
def headStart : List ι := is.takeWhile (· ≠ i)

/-- Request `k` has had `m` turns when request `i` has its first one. -/
def Before (m : ℕ) : Prop := i ∈ is ∧ m ≤ (headStart is i).count k

variable {is i j k} {m : ℕ}

lemma headStart_append (h : i ∈ is) (js : List ι) : headStart (is ++ js) i = headStart is i := by
  induction is with
  | nil => cases h
  | cons x is ih =>
    by_cases hx : x = i
    · simp [headStart, hx]
    · have hi : i ∈ is := (List.mem_cons.mp h).resolve_left fun he => hx he.symm
      have hrest := ih hi
      unfold headStart at hrest ⊢
      rw [List.cons_append, List.takeWhile_cons_of_pos (by simpa using hx), hrest,
        List.takeWhile_cons_of_pos (by simpa using hx)]

lemma Before.le_count (h : Before is i k m) : m ≤ is.count k :=
  h.2.trans ((List.takeWhile_sublist _).count_le k)

/-- A turn is the first one of its request, or changes nothing about who came first. -/
lemma before_append_iff : Before (is ++ [j]) i k m ↔
    Before is i k m ∨ (j = i ∧ i ∉ is ∧ m ≤ is.count k) := by
  by_cases hi : i ∈ is
  · simp [Before, headStart_append hi, hi]
  by_cases hj : j = i
  · subst hj
    have hself : headStart (is ++ [j]) j = is := by
      rw [headStart, List.takeWhile_append_of_pos fun x hx => by
        simpa using fun he : x = j => hi (he ▸ hx)]
      simp
    simp [Before, hself, hi]
  · simp [Before, hi, hj, Ne.symm hj]

lemma count_append_ne (hij : i ≠ j) : (is ++ [j]).count i = is.count i := by
  rw [count_append_singleton, if_neg (Ne.symm hij), Nat.add_zero]

lemma count_append_self : (is ++ [j]).count j = is.count j + 1 := by
  rw [count_append_singleton, if_pos rfl]

end Turns

/-! ### The requests -/

/-- What requests look for, and what the last call of each of them does to the store. A request is
live as long as its last call has its effect. -/
structure Rules (ι κ σ : Type) where
  key : ι → κ
  taken : κ → σ → Prop
  live : ι → σ → Prop
  effect : ι → (σ → σ) → Prop
  marks : ∀ i w s, effect i w → live i s → ∀ c, taken c (w s) ↔ taken c s ∨ key i = c
  others : ∀ i w s, effect i w → live i s → ∀ j, j ≠ i → live j s → live j (w s)

section Races

variable (R : Rules ι κ σ)

/-- The rest of a request that has found its key free: `n` calls that only look, and one that
takes it. -/
inductive Due (i : ι) : ℕ → Request σ ε α → Prop
  | look {n : ℕ} {rest : σ → Request σ ε α} (h : ∀ s, Due i n (rest s)) :
      Due i (n + 1) (.call id rest)
  | store {w : σ → σ} {rest : σ → Request σ ε α} (effect : R.effect i w)
      (accepts : ∀ s, R.live i s → ∃ a, rest s = .done (.ok a)) : Due i 0 (.call w rest)

/-- A request that looks for its key first. -/
inductive Entry (i : ι) (n : ℕ) : Request σ ε α → Prop
  | mk {rest : σ → Request σ ε α}
      (refuses : ∀ s, R.taken (R.key i) s → ∃ e, rest s = .done (.error e))
      (free : ∀ s, ¬ R.taken (R.key i) s → Due R i n (rest s)) : Entry i n (.call id rest)

variable (stores : ι → Prop) (n : ℕ)

/-- Each request that takes its key looks for it first; the others only look. -/
structure Entries (requests : ι → Request σ ε α) : Prop where
  entry : ∀ i, stores i → Entry R i n (requests i)
  looks : ∀ i, ¬ stores i → (requests i).OnlyLooks

/-- The key of the request is taken when it has its first turn: from the start, or by a request
that has had all of its turns. -/
def Beaten (s₀ : σ) (is : List ι) (i : ι) : Prop :=
  R.taken (R.key i) s₀ ∨ ∃ k, stores k ∧ R.key k = R.key i ∧ Before is i k (n + 2)

/-- The request has had all of its turns and has not been beaten. -/
def Stored (s₀ : σ) (is : List ι) (i : ι) : Prop :=
  stores i ∧ n + 2 ≤ is.count i ∧ ¬ Beaten R stores n s₀ is i

/-- Of any two requests with the same key, at most one has taken it. -/
def OnePerKey (s₀ : σ) (is : List ι) : Prop :=
  ∀ i j, i ≠ j → R.key i = R.key j → Stored R stores n s₀ is i → ¬ Stored R stores n s₀ is j

/-- How far a request has come. -/
inductive Stage (s₀ : σ) (is : List ι) (i : ι) : Request σ ε α → Prop
  | unread {r : Request σ ε α} (first : i ∉ is) (h : Entry R i n r) : Stage s₀ is i r
  | refused {e : ε} (first : i ∈ is) (beaten : Beaten R stores n s₀ is i) :
      Stage s₀ is i (.done (.error e))
  | due {m : ℕ} {r : Request σ ε α} (first : i ∈ is) (free : ¬ Beaten R stores n s₀ is i)
      (h : Due R i m r) (turns : is.count i + m = n + 1) : Stage s₀ is i r
  | accepted {a : α} (stored : Stored R stores n s₀ is i) : Stage s₀ is i (.done (.ok a))

/-- What the store holds after the turns `is`. -/
structure StoreAt (s₀ : σ) (is : List ι) (s : σ) : Prop where
  taken : ∀ c, R.taken c s ↔ R.taken c s₀ ∨ ∃ k, stores k ∧ R.key k = c ∧ n + 2 ≤ is.count k
  live : ∀ i, stores i → ¬ R.taken (R.key i) s₀ → ¬ Stored R stores n s₀ is i → R.live i s

/-- The requests and the store after the turns `is`. -/
structure Reached (s₀ : σ) (is : List ι) (p : Pool ι σ ε α) : Prop where
  stage : ∀ i, stores i → Stage R stores n s₀ is i (p.requests i)
  looks : ∀ i, ¬ stores i → (p.requests i).OnlyLooks
  store : StoreAt R stores n s₀ is p.store

variable {R stores n} {s₀ s : σ} {is : List ι} {i j : ι} {p : Pool ι σ ε α}

/-! ### One more turn -/

lemma beaten_append_iff : Beaten R stores n s₀ (is ++ [j]) i ↔
    Beaten R stores n s₀ is i ∨
      (j = i ∧ i ∉ is ∧ ∃ k, stores k ∧ R.key k = R.key i ∧ n + 2 ≤ is.count k) := by
  simp only [Beaten, before_append_iff]
  refine ⟨?_, ?_⟩
  · rintro (ht | ⟨k, hk, hkey, hb | ⟨hj, hi, hcount⟩⟩)
    · exact Or.inl (Or.inl ht)
    · exact Or.inl (Or.inr ⟨k, hk, hkey, hb⟩)
    · exact Or.inr ⟨hj, hi, k, hk, hkey, hcount⟩
  · rintro ((ht | ⟨k, hk, hkey, hb⟩) | ⟨hj, hi, k, hk, hkey, hcount⟩)
    · exact Or.inl ht
    · exact Or.inr ⟨k, hk, hkey, Or.inl hb⟩
    · exact Or.inr ⟨k, hk, hkey, Or.inr ⟨hj, hi, hcount⟩⟩

lemma beaten_append_of_mem (hi : i ∈ is) :
    Beaten R stores n s₀ (is ++ [j]) i ↔ Beaten R stores n s₀ is i := by
  rw [beaten_append_iff, or_iff_left fun h => h.2.1 hi]

lemma beaten_append_ne (hij : i ≠ j) :
    Beaten R stores n s₀ (is ++ [j]) i ↔ Beaten R stores n s₀ is i := by
  rw [beaten_append_iff, or_iff_left fun h => hij h.1.symm]

lemma stored_append_ne (hij : i ≠ j) :
    Stored R stores n s₀ (is ++ [j]) i ↔ Stored R stores n s₀ is i := by
  rw [Stored, Stored, count_append_ne hij, beaten_append_ne hij]

lemma Stored.mem (h : Stored R stores n s₀ is i) : i ∈ is :=
  List.count_pos_iff.mp (Nat.lt_of_lt_of_le (Nat.succ_pos _) h.2.1)

lemma Stored.append (h : Stored R stores n s₀ is i) (j : ι) :
    Stored R stores n s₀ (is ++ [j]) i := by
  refine ⟨h.1, h.2.1.trans ?_, ?_⟩
  · rw [List.count_append]
    exact Nat.le_add_right _ _
  · rw [beaten_append_of_mem h.mem]
    exact h.2.2

/-- The last turn of a request that has not been beaten. -/
lemma stored_append_of_last (hj : stores j) (hcount : is.count j = n + 1)
    (hfree : ¬ Beaten R stores n s₀ is j) : Stored R stores n s₀ (is ++ [j]) j := by
  refine ⟨hj, ?_, ?_⟩
  · rw [count_append_self, hcount]
  · rwa [beaten_append_of_mem (List.count_pos_iff.mp (by omega))]

lemma enough_append_iff : n + 2 ≤ (is ++ [j]).count i ↔
    n + 2 ≤ is.count i ∨ (i = j ∧ is.count j = n + 1) := by
  by_cases hij : i = j
  · subst hij
    rw [count_append_self, eq_self, true_and]
    omega
  · rw [count_append_ne hij, or_iff_left fun h => hij h.1]

/-- The first turn of a request finds its key taken exactly if it has been beaten. -/
lemma StoreAt.beaten_first_iff (h : StoreAt R stores n s₀ is s) (hj : j ∉ is) :
    Beaten R stores n s₀ (is ++ [j]) j ↔ R.taken (R.key j) s := by
  have hnone : ∀ k, ¬ Before is j k (n + 2) := fun k hb => hj hb.1
  rw [h.taken, beaten_append_iff]
  simp [Beaten, hnone, hj]

lemma StoreAt.taken_of_beaten (h : StoreAt R stores n s₀ is s)
    (hb : Beaten R stores n s₀ is j) : R.taken (R.key j) s :=
  (h.taken _).mpr (hb.imp_right fun ⟨k, hk, hkey, hbefore⟩ => ⟨k, hk, hkey, hbefore.le_count⟩)

/-- A turn that takes no key, since it is not the last one of its request or the key is taken. -/
lemma StoreAt.keep (h : StoreAt R stores n s₀ is s)
    (hturns : stores j → is.count j = n + 1 → R.taken (R.key j) s) :
    StoreAt R stores n s₀ (is ++ [j]) s := by
  refine ⟨fun c => ⟨fun hc => ?_, fun hc => ?_⟩, fun i hi hfree hnot => ?_⟩
  · refine ((h.taken c).mp hc).imp_right ?_
    rintro ⟨k, hk, hkey, hcount⟩
    exact ⟨k, hk, hkey, enough_append_iff.mpr (Or.inl hcount)⟩
  · rcases hc with hc | ⟨k, hk, hkey, hcount⟩
    · exact (h.taken c).mpr (Or.inl hc)
    rcases enough_append_iff.mp hcount with hcount | ⟨rfl, hcount⟩
    · exact (h.taken c).mpr (Or.inr ⟨k, hk, hkey, hcount⟩)
    · exact hkey ▸ hturns hk hcount
  · exact h.live i hi hfree fun hs => hnot (hs.append j)

/-- The turn that takes a key. -/
lemma StoreAt.take {w : σ → σ} (h : StoreAt R stores n s₀ is s) (hj : stores j)
    (hcount : is.count j = n + 1) (hfree : ¬ Beaten R stores n s₀ is j) (hw : R.effect j w)
    (hlive : R.live j s) : StoreAt R stores n s₀ (is ++ [j]) (w s) := by
  refine ⟨fun c => ?_, fun i hi hnone hnot => ?_⟩
  · rw [R.marks j w s hw hlive, h.taken, or_assoc]
    refine or_congr_right ⟨?_, ?_⟩
    · rintro (⟨k, hk, hkey, hk'⟩ | hkey)
      · exact ⟨k, hk, hkey, enough_append_iff.mpr (Or.inl hk')⟩
      · exact ⟨j, hj, hkey, enough_append_iff.mpr (Or.inr ⟨rfl, hcount⟩)⟩
    · rintro ⟨k, hk, hkey, hk'⟩
      rcases enough_append_iff.mp hk' with hk' | ⟨rfl, -⟩
      · exact Or.inl ⟨k, hk, hkey, hk'⟩
      · exact Or.inr hkey
  · by_cases hij : i = j
    · subst hij
      exact absurd (stored_append_of_last hj hcount hfree) hnot
    · rw [stored_append_ne hij] at hnot
      exact R.others j w s hw hlive i hij (h.live i hi hnone hnot)

/-- The turns of one request do not move the others. -/
lemma Stage.append_ne {r : Request σ ε α} (hij : i ≠ j) (h : Stage R stores n s₀ is i r) :
    Stage R stores n s₀ (is ++ [j]) i r := by
  have hmem : i ∈ is → i ∈ is ++ [j] := List.mem_append_left _
  cases h with
  | unread first h => exact .unread (by simp [first, hij]) h
  | refused first beaten => exact .refused (hmem first) ((beaten_append_ne hij).mpr beaten)
  | due first free h turns =>
    refine .due (hmem first) (mt (beaten_append_ne hij).mp free) h ?_
    rwa [count_append_ne hij]
  | accepted stored => exact .accepted (stored.append j)

lemma Reached.next {r : Request σ ε α} (h : Reached R stores n s₀ is p)
    (hstage : stores j → Stage R stores n s₀ (is ++ [j]) j r) (hlooks : ¬ stores j → r.OnlyLooks)
    (hstore : StoreAt R stores n s₀ (is ++ [j]) s) :
    Reached R stores n s₀ (is ++ [j]) ⟨s, Function.update p.requests j r⟩ := by
  refine ⟨fun i hi => ?_, fun i hi => ?_, hstore⟩ <;> by_cases hij : i = j
  · subst hij
    simpa using hstage hi
  · simpa [Function.update_of_ne hij] using (h.stage i hi).append_ne hij
  · subst hij
    simpa using hlooks hi
  · simpa [Function.update_of_ne hij] using h.looks i hi

/-- The turn of a request that has answered. -/
lemma Reached.still {a : Except ε α} (h : Reached R stores n s₀ is p)
    (hj : p.requests j = .done a)
    (hstage : stores j → Stage R stores n s₀ (is ++ [j]) j (.done a : Request σ ε α))
    (hstore : StoreAt R stores n s₀ (is ++ [j]) p.store) :
    Reached R stores n s₀ (is ++ [j]) (p.step j) := by
  have hnext := h.next hstage (fun _ => .done a) hstore
  rw [step_of_done hj]
  rwa [← hj, Function.update_eq_self] at hnext

variable (R stores n s₀ is p) in
/-- A turn leaves the store as it is and no request has taken its key by it, or it is the last
one of a request that takes its key. -/
inductive Turn (j : ι) : σ → Prop
  | kept (same : Stored R stores n s₀ (is ++ [j]) j → Stored R stores n s₀ is j) : Turn j p.store
  | took {w : σ → σ} (effect : R.effect j w) (live : R.live j p.store)
      (stored : Stored R stores n s₀ (is ++ [j]) j) : Turn j (w p.store)

/-- **One turn.** How far each request has come, and what is taken, are read off the turns so
far. -/
lemma reached_step (h : Reached R stores n s₀ is p) (j : ι) :
    Reached R stores n s₀ (is ++ [j]) (p.step j) ∧ Turn R stores n s₀ is p j (p.step j).store := by
  have hlast : j ∈ is ++ [j] := List.mem_append_right _ (List.mem_singleton_self j)
  by_cases hj : stores j
  swap
  · -- a request that takes nothing
    have hstore := h.store.keep fun hs => absurd hs hj
    have hlooks := h.looks j hj
    generalize hreq : p.requests j = r at hlooks
    cases hlooks with
    | done a =>
      refine ⟨h.still hreq (fun hs => absurd hs hj) hstore, ?_⟩
      rw [step_of_done hreq]
      exact .kept fun hs => absurd hs.1 hj
    | call hrest =>
      rw [step_of_call hreq]
      exact ⟨h.next (fun hs => absurd hs hj) (fun _ => hrest _) hstore,
        .kept fun hs => absurd hs.1 hj⟩
  have hstage := h.stage j hj
  generalize hreq : p.requests j = r at hstage
  cases hstage with
  | unread first hentry =>
    -- the first turn looks whether the key is taken
    obtain ⟨hrefuses, hfree⟩ := hentry
    have hcount : is.count j = 0 := List.count_eq_zero.mpr first
    have hstore := h.store.keep (j := j) fun _ hturns => absurd hturns (by omega)
    rw [step_of_call hreq]
    refine ⟨h.next (fun _ => ?_) (fun hs => absurd hj hs) hstore, .kept fun hs => ?_⟩
    · by_cases ht : R.taken (R.key j) p.store
      · obtain ⟨e, he⟩ := hrefuses _ ht
        rw [he]
        exact .refused hlast ((h.store.beaten_first_iff first).mpr ht)
      · refine .due hlast (mt (h.store.beaten_first_iff first).mp ht) (hfree _ ht) ?_
        rw [count_append_self]
        omega
    · have hturns := hs.2.1
      rw [count_append_self] at hturns
      omega
  | refused first beaten =>
    have hbeaten := (beaten_append_of_mem (j := j) first).mpr beaten
    refine ⟨h.still hreq (fun _ => .refused hlast hbeaten)
      (h.store.keep fun _ _ => h.store.taken_of_beaten beaten), ?_⟩
    rw [step_of_done hreq]
    exact .kept fun hs => absurd hbeaten hs.2.2
  | accepted stored =>
    refine ⟨h.still hreq (fun _ => .accepted (stored.append j))
      (h.store.keep fun _ hturns => absurd stored.2.1 (by omega)), ?_⟩
    rw [step_of_done hreq]
    exact .kept fun _ => stored
  | due first free hdue turns =>
    cases hdue with
    | look hrest =>
      rw [step_of_call hreq]
      refine ⟨h.next (fun _ => .due hlast (mt (beaten_append_of_mem first).mp free) (hrest _) ?_)
        (fun hs => absurd hj hs) (h.store.keep fun _ hturns => absurd hturns (by omega)),
        .kept fun hs => ?_⟩
      · rw [count_append_self]
        omega
      · have hturns := hs.2.1
        rw [count_append_self] at hturns
        omega
    | store heffect haccepts =>
      -- the last turn stores: nobody has taken the key, for the request has looked before
      have hlive : R.live j p.store :=
        h.store.live j hj (fun ht => free (Or.inl ht)) fun hs => absurd hs.2.1 (by omega)
      have hstored := stored_append_of_last hj turns free
      obtain ⟨a, ha⟩ := haccepts p.store hlive
      rw [step_of_call hreq, ha]
      exact ⟨h.next (fun _ => .accepted hstored) (fun hs => absurd hj hs)
        (h.store.take hj turns free heffect hlive), .took heffect hlive hstored⟩

/-! ### Many turns -/

lemma reached_nil (hentries : Entries R stores n p.requests)
    (hlive : ∀ i, stores i → ¬ R.taken (R.key i) p.store → R.live i p.store) :
    Reached R stores n p.store [] p := by
  refine ⟨fun i hi => .unread List.not_mem_nil (hentries.entry i hi), hentries.looks, ?_⟩
  exact ⟨fun c => by simp, fun i hi hfree _ => hlive i hi hfree⟩

/-- **Runs.** The same, after any turns. -/
theorem reached_run (h : Reached R stores n s₀ [] p) (is : List ι) :
    Reached R stores n s₀ is (run Pool.step p is) := by
  induction is using List.reverseRecOn with
  | nil => exact h
  | append_singleton is j ih =>
    rw [run_append]
    exact (reached_step ih j).1

/-- **Who succeeds.** A request has been accepted exactly if it has had all of its turns and has
not been beaten. -/
theorem succeeded_iff (h : Reached R stores n s₀ is p) (hi : stores i) :
    p.Succeeded i ↔ Stored R stores n s₀ is i := by
  have hstage := h.stage i hi
  unfold Succeeded
  generalize p.requests i = r at hstage ⊢
  cases hstage with
  | unread first hentry =>
    cases hentry
    refine iff_of_false (by rintro ⟨a, ha⟩; cases ha) fun hs => first hs.mem
  | refused first beaten =>
    exact iff_of_false (by rintro ⟨a, ha⟩; cases ha) fun hs => hs.2.2 beaten
  | accepted stored => exact iff_of_true ⟨_, rfl⟩ stored
  | due first free hdue turns =>
    refine iff_of_false ?_ fun hs => absurd hs.2.1 (by omega)
    rintro ⟨a, ha⟩
    subst ha
    cases hdue

end Races

/-! ### Keys of the rows of a table -/

section Tables

variable {I ρ : Type} [DecidableEq I] {table : σ → Table I ρ} {column : ρ → κ} {ids : ι → I}

/-- Some row has the key. -/
def Taken (column : ρ → κ) (t : Table I ρ) (c : κ) : Prop :=
  ∃ k r, t.find? k = some r ∧ column r = c

lemma taken_put_iff {t : Table I ρ} {k : I} {r : ρ} {c : κ} (h : t.find? k = none) :
    Taken column (t.put k r) c ↔ Taken column t c ∨ column r = c := by
  refine ⟨?_, ?_⟩
  · rintro ⟨k', r', hr, hc⟩
    rcases Table.of_find?_put hr with ⟨-, rfl⟩ | ⟨-, hr⟩
    · exact Or.inr hc
    · exact Or.inl ⟨k', r', hr, hc⟩
  · rintro (⟨k', r', hr, hc⟩ | hc)
    · refine ⟨k', r', ?_, hc⟩
      rwa [Table.find?_put_ne]
      rintro rfl
      cases h.symm.trans hr
    · exact ⟨k, r, Table.find?_put_self, hc⟩

variable (table column) in
/-- Each request stores a row with its key, under an id of its own. -/
def keyRules (key : ι → κ) (hids : Function.Injective ids) : Rules ι κ σ where
  key := key
  taken c s := Taken column (table s) c
  live i s := (table s).find? (ids i) = none
  effect i w := ∀ s, (table s).find? (ids i) = none →
    ∃ r, column r = key i ∧ table (w s) = (table s).put (ids i) r
  marks i w s hw hlive c := by
    obtain ⟨r, hr, hput⟩ := hw s hlive
    rw [hput, taken_put_iff hlive, hr]
  others i w s hw hlive j hj hfree := by
    obtain ⟨r, -, hput⟩ := hw s hlive
    rw [hput, Table.find?_put_ne fun he => hj (hids he)]
    exact hfree

variable {key : ι → κ} {hids : Function.Injective ids} {stores : ι → Prop} {n : ℕ} {s₀ s : σ}
  {is : List ι} {j : ι} {p : Pool ι σ ε α}

variable (table column stores n) in
/-- The rows after the turns `is`. -/
structure RowsAt (key : ι → κ) (hids : Function.Injective ids) (s₀ : σ) (is : List ι) (s : σ) :
    Prop where
  stored : ∀ i, ((table s).find? (ids i)).isSome ↔
    Stored (keyRules table column key hids) stores n s₀ is i
  rows : ∀ k r, (table s).find? k = some r →
    (table s₀).find? k = some r ∨ ∃ i, k = ids i ∧ column r = key i

lemma rowsAt_turn (h : RowsAt table column stores n key hids s₀ is p.store)
    (hturn : Turn (keyRules table column key hids) stores n s₀ is p j s) :
    RowsAt table column stores n key hids s₀ (is ++ [j]) s := by
  cases hturn with
  | kept same =>
    refine ⟨fun i => (h.stored i).trans ?_, h.rows⟩
    by_cases hij : i = j
    · subst hij
      exact ⟨fun hs => hs.append i, same⟩
    · exact (stored_append_ne hij).symm
  | took effect live stored =>
    obtain ⟨r, hr, hput⟩ := effect p.store live
    refine ⟨fun i => ?_, fun k r' hr' => ?_⟩ <;> rw [hput] at *
    · by_cases hij : i = j
      · subst hij
        exact iff_of_true (by rw [Table.find?_put_self]; rfl) stored
      · rw [Table.find?_put_ne fun he => hij (hids he), h.stored, stored_append_ne hij]
    · rcases Table.of_find?_put hr' with ⟨rfl, rfl⟩ | ⟨-, hr'⟩
      · -- the row that has just been stored
        exact Or.inr ⟨j, rfl, hr⟩
      · exact h.rows k r' hr'

/-- **Keys that stay unique.** After any turns no two rows share a key exactly if, of any two
requests with the same key, at most one has had all of its turns without being beaten. -/
theorem unique_run_iff (hentries : Entries (keyRules table column key hids) stores n p.requests)
    (hfresh : ∀ i, (table p.store).find? (ids i) = none)
    (hunique : (table p.store).Unique column) (is : List ι) :
    (table (run Pool.step p is).store).Unique column ↔
      OnePerKey (keyRules table column key hids) stores n p.store is := by
  have hstart := reached_nil hentries fun i _ _ => hfresh i
  have h : RowsAt table column stores n key hids p.store is (run Pool.step p is).store := by
    induction is using List.reverseRecOn with
    | nil => exact ⟨fun i => by simp [hfresh, Stored], fun k r hr => Or.inl hr⟩
    | append_singleton is j ih =>
      rw [run_append]
      exact rowsAt_turn ih (reached_step (reached_run hstart is) j).2
  set t := table (run Pool.step p is).store
  have hrow {i : ι} {r : ρ} (hr : t.find? (ids i) = some r) : column r = key i := by
    rcases h.rows _ _ hr with hold | ⟨j, hj, hc⟩
    · cases (hfresh i).symm.trans hold
    · rwa [hids hj]
  have hown {i : ι} {r : ρ} (hr : t.find? (ids i) = some r) := (h.stored i).mp (by rw [hr]; rfl)
  refine ⟨fun hall i j hij hkey hi hj => ?_, fun hall k k' r r' hr hr' hc => ?_⟩
  · obtain ⟨r, hr⟩ := Option.isSome_iff_exists.mp ((h.stored i).mpr hi)
    obtain ⟨r', hr'⟩ := Option.isSome_iff_exists.mp ((h.stored j).mpr hj)
    exact hij (hids (hall _ _ _ _ hr hr' (by rw [hrow hr, hrow hr']; exact hkey)))
  · rcases h.rows _ _ hr with hold | ⟨i, rfl, hi⟩ <;>
      rcases h.rows _ _ hr' with hold' | ⟨j, rfl, hj⟩
    · -- both rows were there from the start
      exact hunique _ _ _ _ hold hold' hc
    · -- a request that stores a key has found no row with it
      exact absurd (Or.inl ⟨k, r, hold, hc.trans hj⟩) (hown hr').2.2
    · exact absurd (Or.inl ⟨k', r', hold', hc.symm.trans hi⟩) (hown hr).2.2
    · -- both rows are new, so one key was stored twice
      by_contra hne
      exact hall i j (fun he => hne (he ▸ rfl)) (hi.symm.trans (hc.trans hj)) (hown hr) (hown hr')

end Tables

end CoffeeOs.LookThenStore
