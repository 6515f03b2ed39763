import Mathlib.Algebra.BigOperators.Group.List.Basic
import Mathlib.Data.List.Dedup
import Mathlib.Data.List.Nodup
import Mathlib.Data.List.Perm.Subperm

/-!
Tables of rows stored under a key, and totals over their rows.

A table is a list of keyed rows in which no key occurs twice, so that a row is found by its
key. Two operations change it: `put` stores a row under a key, in the place of the row that
was there, and `keep` drops the rows that fail a test. A total adds up a share of each row,
and the lemmas say by how much each operation moves it.
-/

namespace CoffeeOs.KeyedTable

variable {κ ρ : Type*}

/-- Rows under pairwise distinct keys, in the order in which they were first stored. -/
structure Table (κ ρ : Type*) where
  rows : List (κ × ρ)
  nodup : (rows.map Prod.fst).Nodup
  deriving DecidableEq

/-! ### Keyed rows as lists -/

section Rows

variable [DecidableEq κ]

/-- The rows with `r` in the place of the row under `k`, or at the end. -/
def putRows (k : κ) (r : ρ) : List (κ × ρ) → List (κ × ρ)
  | [] => [(k, r)]
  | e :: es => if e.1 = k then (k, r) :: es else e :: putRows k r es

variable {k k' : κ} {r : ρ} {es : List (κ × ρ)}

lemma mem_putRows_self : (k, r) ∈ putRows k r es := by
  induction es with
  | nil => simp [putRows]
  | cons f fs ih => by_cases hf : f.1 = k <;> simp [putRows, hf, ih]

lemma putRows_new (h : ∀ e ∈ es, e.1 ≠ k) : putRows k r es = es ++ [(k, r)] := by
  induction es with
  | nil => rfl
  | cons f fs ih =>
    rw [putRows, if_neg (h f List.mem_cons_self), ih fun e he => h e (List.mem_cons_of_mem _ he),
      List.cons_append]

lemma mem_putRows_of {e : κ × ρ} (h : e ∈ putRows k r es) : e = (k, r) ∨ e ∈ es := by
  induction es with
  | nil => exact Or.inl (by simpa [putRows] using h)
  | cons f fs ih =>
    by_cases hf : f.1 = k
    · rw [putRows, if_pos hf] at h
      rcases List.mem_cons.mp h with rfl | h
      · exact Or.inl rfl
      · exact Or.inr (List.mem_cons_of_mem _ h)
    · rw [putRows, if_neg hf] at h
      rcases List.mem_cons.mp h with rfl | h
      · exact Or.inr (List.mem_cons_self)
      · exact (ih h).imp_right (List.mem_cons_of_mem _)

lemma nodup_putRows (k : κ) (r : ρ) (h : (es.map Prod.fst).Nodup) :
    ((putRows k r es).map Prod.fst).Nodup := by
  induction es with
  | nil => simp [putRows]
  | cons f fs ih =>
    rw [List.map_cons, List.nodup_cons] at h
    by_cases hf : f.1 = k
    · rw [putRows, if_pos hf, List.map_cons, List.nodup_cons, ← hf]
      exact h
    · rw [putRows, if_neg hf, List.map_cons, List.nodup_cons]
      refine ⟨fun hm => ?_, ih h.2⟩
      obtain ⟨e, he, hek⟩ := List.mem_map.mp hm
      rcases mem_putRows_of he with rfl | he
      · exact hf hek.symm
      · exact h.1 (hek ▸ List.mem_map_of_mem he)

lemma find?_putRows_ne (h : k' ≠ k) :
    (putRows k r es).find? (fun e => e.1 = k') = es.find? (fun e => e.1 = k') := by
  induction es with
  | nil => simp [putRows, h.symm]
  | cons f fs ih =>
    by_cases hf : f.1 = k
    · have hf' : f.1 ≠ k' := fun he => h (he.symm.trans hf)
      rw [putRows, if_pos hf, List.find?_cons_of_neg (by simpa using h.symm),
        List.find?_cons_of_neg (by simpa using hf')]
    · rw [putRows, if_neg hf]
      by_cases hf' : f.1 = k'
      · rw [List.find?_cons_of_pos (by simpa using hf'),
          List.find?_cons_of_pos (by simpa using hf')]
      · rw [List.find?_cons_of_neg (by simpa using hf'),
          List.find?_cons_of_neg (by simpa using hf'), ih]

omit [DecidableEq κ] in
/-- The row under a key is the only one with that key. -/
lemma eq_of_nodup_cons {f : κ × ρ} (hn : ((f :: es).map Prod.fst).Nodup)
    (hm : (k, r) ∈ f :: es) (hf : f.1 = k) : f = (k, r) :=
  List.inj_on_of_nodup_map hn List.mem_cons_self hm hf

/-- A row that looks like the one in whose place it is stored leaves all of them looking alike. -/
lemma map_putRows {α : Type*} {f : κ × ρ → α} {r₀ : ρ} (hn : (es.map Prod.fst).Nodup)
    (hm : (k, r₀) ∈ es) (hf : f (k, r) = f (k, r₀)) : (putRows k r es).map f = es.map f := by
  induction es with
  | nil => simp at hm
  | cons e es ih =>
    by_cases he : e.1 = k
    · rw [putRows, if_pos he, eq_of_nodup_cons hn hm he, List.map_cons, List.map_cons, hf]
    · have hm' : (k, r₀) ∈ es := (List.mem_cons.mp hm).resolve_left fun h => he (by rw [← h])
      rw [List.map_cons, List.nodup_cons] at hn
      rw [putRows, if_neg he, List.map_cons, List.map_cons, ih hn.2 hm']

variable {A : Type*} [AddCommMonoid A] {g : κ × ρ → A}

lemma sum_putRows_new (h : ∀ e ∈ es, e.1 ≠ k) :
    ((putRows k r es).map g).sum = (es.map g).sum + g (k, r) := by
  rw [putRows_new h]
  simp

lemma sum_putRows {r₀ : ρ} (hn : (es.map Prod.fst).Nodup) (hm : (k, r₀) ∈ es) :
    ((putRows k r es).map g).sum + g (k, r₀) = (es.map g).sum + g (k, r) := by
  induction es with
  | nil => simp at hm
  | cons f fs ih =>
    by_cases hf : f.1 = k
    · rw [putRows, if_pos hf, eq_of_nodup_cons hn hm hf, List.map_cons, List.sum_cons,
        List.map_cons, List.sum_cons]
      calc g (k, r) + (fs.map g).sum + g (k, r₀)
          = g (k, r) + g (k, r₀) + (fs.map g).sum := add_right_comm _ _ _
        _ = g (k, r₀) + g (k, r) + (fs.map g).sum := by rw [add_comm (g (k, r))]
        _ = g (k, r₀) + (fs.map g).sum + g (k, r) := add_right_comm _ _ _
    · have hm' : (k, r₀) ∈ fs := (List.mem_cons.mp hm).resolve_left fun he => hf (by rw [← he])
      rw [List.map_cons, List.nodup_cons] at hn
      rw [putRows, if_neg hf, List.map_cons, List.sum_cons, List.map_cons, List.sum_cons,
        add_assoc, ih hn.2 hm', add_assoc]

lemma sum_dropped (hn : (es.map Prod.fst).Nodup) (hm : (k, r) ∈ es) :
    ((es.filter fun e => decide (e.1 ≠ k)).map g).sum + g (k, r) = (es.map g).sum := by
  induction es with
  | nil => simp at hm
  | cons f fs ih =>
    by_cases hf : f.1 = k
    · have hk : k ∉ fs.map Prod.fst := hf ▸ (List.nodup_cons.mp hn).1
      have hrest : fs.filter (fun e => decide (e.1 ≠ k)) = fs := by
        refine List.filter_eq_self.mpr fun e he => ?_
        have : e.1 ≠ k := fun hek => hk (hek ▸ List.mem_map_of_mem he)
        simpa using this
      rw [List.filter_cons_of_neg (by simp [hf]), hrest, eq_of_nodup_cons hn hm hf, List.map_cons,
        List.sum_cons, add_comm]
    · have hm' : (k, r) ∈ fs := (List.mem_cons.mp hm).resolve_left fun he => hf (by rw [← he])
      rw [List.map_cons, List.nodup_cons] at hn
      rw [List.filter_cons_of_pos (by simpa using hf), List.map_cons, List.sum_cons, List.map_cons,
        List.sum_cons, add_assoc, ih hn.2 hm']

end Rows

lemma foldl_add_map {α A : Type*} [AddCommMonoid A] (f : α → A) (l : List α) :
    l.foldl (fun sum a => sum + f a) 0 = (l.map f).sum := by
  rw [List.sum_eq_foldl, List.foldl_map]

/-- The sum over selected elements, as a sum over all of them. -/
lemma sum_selected {α A : Type*} [AddCommMonoid A] (q : α → Bool) (f : α → A) (l : List α) :
    ((l.filter q).map f).sum = (l.map fun a => if q a then f a else 0).sum := by
  induction l with
  | nil => rfl
  | cons e es ih => by_cases h : q e <;> simp [h, ih]

namespace Table

instance : EmptyCollection (Table κ ρ) := ⟨⟨[], List.nodup_nil⟩⟩

/-- Drop the rows that fail the test. -/
def keep (p : κ → ρ → Bool) (t : Table κ ρ) : Table κ ρ where
  rows := t.rows.filter fun e => p e.1 e.2
  nodup := (List.filter_sublist.map Prod.fst).nodup t.nodup

/-- The sum of a share of each row. -/
def total {A : Type*} [AddCommMonoid A] (g : κ → ρ → A) (t : Table κ ρ) : A :=
  (t.rows.map fun e => g e.1 e.2).sum

/-- Some row passes the test. -/
def Any (p : κ → ρ → Bool) (t : Table κ ρ) : Prop := (t.rows.find? fun e => p e.1 e.2).isSome

instance (p : κ → ρ → Bool) (t : Table κ ρ) : Decidable (t.Any p) :=
  inferInstanceAs (Decidable (_ = true))

variable [DecidableEq κ]

def find? (t : Table κ ρ) (k : κ) : Option ρ := (t.rows.find? fun e => e.1 = k).map Prod.snd

/-- Store `r` under `k`. -/
def put (k : κ) (r : ρ) (t : Table κ ρ) : Table κ ρ :=
  ⟨putRows k r t.rows, nodup_putRows k r t.nodup⟩

/-- Drop the row under `k`. -/
def erase (k : κ) (t : Table κ ρ) : Table κ ρ := t.keep fun k' _ => k' ≠ k

/-! ### Looking up -/

variable {t : Table κ ρ} {k k' : κ} {r : ρ}

lemma mem_rows_iff : (k, r) ∈ t.rows ↔ t.find? k = some r := by
  refine ⟨fun h => ?_, fun h => ?_⟩
  · obtain ⟨e, he⟩ : ∃ e, t.rows.find? (fun e => e.1 = k) = some e :=
      Option.isSome_iff_exists.mp (List.find?_isSome.mpr ⟨(k, r), h, by simp⟩)
    have hk : e.1 = k := by simpa using List.find?_some he
    have hm : e ∈ t.rows := List.mem_of_find?_eq_some he
    have : e = (k, r) := List.inj_on_of_nodup_map t.nodup hm h hk
    simp [find?, he, this]
  · obtain ⟨e, he, rfl⟩ := Option.map_eq_some_iff.mp h
    have hk : e.1 = k := by simpa using List.find?_some he
    rw [← hk]
    exact List.mem_of_find?_eq_some he

lemma any_iff {p : κ → ρ → Bool} : t.Any p ↔ ∃ k r, t.find? k = some r ∧ p k r := by
  unfold Any
  rw [List.find?_isSome]
  refine ⟨?_, ?_⟩
  · rintro ⟨e, he, hp⟩
    exact ⟨e.1, e.2, mem_rows_iff.mp he, hp⟩
  · rintro ⟨k, r, hr, hp⟩
    exact ⟨(k, r), mem_rows_iff.mpr hr, hp⟩

lemma key_ne_of_find?_eq_none (h : t.find? k = none) : ∀ e ∈ t.rows, e.1 ≠ k := by
  rintro ⟨k', r⟩ he rfl
  rw [mem_rows_iff.mp he] at h
  cases h

@[simp] lemma find?_empty : (∅ : Table κ ρ).find? k = none := rfl

@[simp] lemma find?_put_self : (t.put k r).find? k = some r :=
  mem_rows_iff.mp mem_putRows_self

lemma find?_put_ne (h : k' ≠ k) : (t.put k r).find? k' = t.find? k' :=
  congrArg (Option.map Prod.snd) (find?_putRows_ne h)

/-- A row found after a put is the one put, or was there under another key. -/
lemma of_find?_put (h : (t.put k r).find? k' = some r') :
    (k' = k ∧ r' = r) ∨ (k' ≠ k ∧ t.find? k' = some r') := by
  by_cases hk : k' = k
  · rw [hk, find?_put_self] at h
    exact Or.inl ⟨hk, (Option.some.inj h).symm⟩
  · rw [find?_put_ne hk] at h
    exact Or.inr ⟨hk, h⟩

lemma find?_keep {p : κ → ρ → Bool} : (t.keep p).find? k = (t.find? k).filter (p k) := by
  ext r
  rw [← mem_rows_iff, Option.filter_eq_some_iff, ← mem_rows_iff]
  simp [keep, List.mem_filter]

/-- A row under a new key comes last. -/
lemma rows_put_new (h : t.find? k = none) : (t.put k r).rows = t.rows ++ [(k, r)] :=
  putRows_new (key_ne_of_find?_eq_none h)

lemma map_rows_put {α : Type*} {f : κ × ρ → α} {r₀ : ρ} (h : t.find? k = some r₀)
    (hf : f (k, r) = f (k, r₀)) : (t.put k r).rows.map f = t.rows.map f :=
  map_putRows t.nodup (mem_rows_iff.mpr h) hf

@[simp] lemma find?_erase_self : (t.erase k).find? k = none := by
  simp [erase, find?_keep]

lemma find?_erase_ne (h : k' ≠ k) : (t.erase k).find? k' = t.find? k' := by
  ext r
  simp [erase, find?_keep, h]

lemma of_find?_erase (h : (t.erase k).find? k' = some r) : k' ≠ k ∧ t.find? k' = some r := by
  have hk : k' ≠ k := by
    rintro rfl
    cases find?_erase_self.symm.trans h
  exact ⟨hk, (find?_erase_ne hk).symm.trans h⟩

/-! ### Rewriting one row -/

section Alter

variable {g g' : ρ → Option ρ} {es : List (κ × ρ)}

/-- One row of a table, rewritten by `g` if it is the one under `k`. -/
def alterRow (k : κ) (g : ρ → Option ρ) (e : κ × ρ) : Option (κ × ρ) :=
  if e.1 = k then (g e.2).map (Prod.mk k) else some e

lemma key_alterRow {e e' : κ × ρ} (h : alterRow k g e = some e') : e'.1 = e.1 := by
  unfold alterRow at h
  split at h
  · rename_i hk
    obtain ⟨r, -, rfl⟩ := Option.map_eq_some_iff.mp h
    exact hk.symm
  · rw [Option.some.inj h]

lemma keys_filterMap_sublist :
    ((es.filterMap (alterRow k g)).map Prod.fst).Sublist (es.map Prod.fst) := by
  induction es with
  | nil => exact List.Sublist.slnil
  | cons e es ih =>
    rcases he : alterRow k g e with _ | e'
    · rw [List.filterMap_cons_none he]
      exact ih.cons _
    · rw [List.filterMap_cons_some he, List.map_cons, List.map_cons, key_alterRow he]
      exact ih.cons_cons _

/-- The row under `k`, if there is one, rewritten by `g`, or dropped where `g` has no value. -/
def alter (k : κ) (g : ρ → Option ρ) (t : Table κ ρ) : Table κ ρ where
  rows := t.rows.filterMap (alterRow k g)
  nodup := keys_filterMap_sublist.nodup t.nodup

omit [DecidableEq κ] in
lemma ext_rows {t t' : Table κ ρ} (h : t.rows = t'.rows) : t = t' := by
  cases t
  cases t'
  congr

/-- Rewrites of different rows may be made in either order. -/
lemma alter_comm (h : k ≠ k') : (t.alter k g).alter k' g' = (t.alter k' g').alter k g := by
  refine ext_rows ?_
  simp only [alter, List.filterMap_filterMap]
  refine List.filterMap_congr fun e _ => ?_
  by_cases hk : e.1 = k
  · have hk' : e.1 ≠ k' := fun he => h (hk.symm.trans he)
    rw [alterRow, if_pos hk, alterRow, if_neg hk', Option.bind_some, alterRow, if_pos hk]
    rcases g e.2 with _ | r
    · rfl
    · exact if_neg h
  · rw [alterRow, if_neg hk, Option.bind_some]
    rcases he : alterRow k' g' e with _ | e'
    · rfl
    · rw [Option.bind_some, alterRow, if_neg (key_alterRow he ▸ hk)]

lemma find?_alter_ne (h : k' ≠ k) : (t.alter k g).find? k' = t.find? k' := by
  ext r
  rw [← mem_rows_iff, ← mem_rows_iff, alter, List.mem_filterMap]
  refine ⟨?_, fun hr => ⟨(k', r), hr, if_neg h⟩⟩
  rintro ⟨e, he, hrow⟩
  have hkey : k' = e.1 := key_alterRow hrow
  rw [alterRow, if_neg fun hk => h (hkey.trans hk)] at hrow
  rwa [← Option.some.inj hrow]

lemma alter_of_none (h : t.find? k = none) : t.alter k g = t := by
  refine ext_rows ?_
  calc t.rows.filterMap (alterRow k g)
      = t.rows.filterMap some :=
        List.filterMap_congr fun e he => if_neg (key_ne_of_find?_eq_none h e he)
    _ = t.rows := List.filterMap_some

lemma putRows_eq_filterMap {r₀ : ρ} (hn : (es.map Prod.fst).Nodup) (hm : (k, r₀) ∈ es)
    (hg : g r₀ = some r) : putRows k r es = es.filterMap (alterRow k g) := by
  induction es with
  | nil => simp at hm
  | cons e es ih =>
    have hn' := List.nodup_cons.mp hn
    by_cases hk : e.1 = k
    · have hrest : es.filterMap (alterRow k g) = es := by
        refine (List.filterMap_congr fun f hf => if_neg fun he => hn'.1 ?_).trans
          List.filterMap_some
        rw [hk, ← he]
        exact List.mem_map_of_mem hf
      obtain rfl := eq_of_nodup_cons hn hm hk
      rw [putRows, if_pos rfl, List.filterMap_cons_some (b := (k, r)), hrest]
      rw [alterRow, if_pos rfl, hg]
      rfl
    · have hm' : (k, r₀) ∈ es := (List.mem_cons.mp hm).resolve_left fun he => hk (by rw [← he])
      have hkept : alterRow k g e = some e := if_neg hk
      rw [putRows, if_neg hk, ih hn'.2 hm', List.filterMap_cons_some hkept]

lemma alter_of_some {r₀ : ρ} (h : t.find? k = some r₀) (hg : g r₀ = some r) :
    t.alter k g = t.put k r :=
  ext_rows (putRows_eq_filterMap t.nodup (mem_rows_iff.mpr h) hg).symm

lemma erase_eq_alter : t.erase k = t.alter k fun _ => none := by
  refine ext_rows ?_
  show t.rows.filter (fun e => e.1 ≠ k) = t.rows.filterMap (alterRow k fun _ => none)
  rw [← List.filterMap_eq_filter]
  refine List.filterMap_congr fun e _ => ?_
  by_cases hk : e.1 = k <;> simp [alterRow, Option.guard, hk]

lemma alter_some : t.alter k some = t := by
  have hsame : ∀ e ∈ t.rows, alterRow k some e = some e := by
    intro e _
    unfold alterRow
    split
    · rename_i hk
      rw [← hk]
      rfl
    · rfl
  exact ext_rows ((List.filterMap_congr hsame).trans List.filterMap_some)

/-- A row stored in its own place. -/
lemma put_self (h : t.find? k = some r) : t.put k r = t :=
  (alter_of_some (g := some) h rfl).symm.trans alter_some

end Alter

/-! ### Which keys are stored -/

lemma isSome_find?_put : ((t.put k r).find? k').isSome ↔ k' = k ∨ (t.find? k').isSome := by
  by_cases hk : k' = k
  · simp [hk]
  · rw [find?_put_ne hk]
    simp [hk]

lemma isSome_find?_erase : ((t.erase k).find? k').isSome ↔ k' ≠ k ∧ (t.find? k').isSome := by
  by_cases hk : k' = k
  · simp [hk]
  · rw [find?_erase_ne hk]
    simp [hk]

/-- The table as it is, or with a row stored in it. -/
def Stores (t t' : Table κ ρ) : Prop := t' = t ∨ ∃ k r, t' = t.put k r

lemma stores_refl : t.Stores t := Or.inl rfl

lemma stores_put : t.Stores (t.put k r) := Or.inr ⟨k, r, rfl⟩

lemma Stores.isSome {t' : Table κ ρ} (hs : t.Stores t') (h : (t.find? k).isSome) :
    (t'.find? k).isSome := by
  rcases hs with rfl | ⟨k', r, rfl⟩
  · exact h
  · exact isSome_find?_put.mpr (Or.inr h)

/-- The keys of the rows found by a list of keys. -/
lemma mem_keys_listed_iff {ks : List κ} :
    k ∈ (t.rows.filter fun e => decide (e.1 ∈ ks)).map Prod.fst ↔
      k ∈ ks ∧ (t.find? k).isSome := by
  refine ⟨fun hk => ?_, fun ⟨hk, hs⟩ => ?_⟩
  · obtain ⟨e, he, rfl⟩ := List.mem_map.mp hk
    obtain ⟨hrow, hin⟩ := List.mem_filter.mp he
    exact ⟨of_decide_eq_true hin, by rw [mem_rows_iff.mp hrow]; rfl⟩
  · obtain ⟨r, hr⟩ := Option.isSome_iff_exists.mp hs
    exact List.mem_map.mpr ⟨(k, r),
      List.mem_filter.mpr ⟨mem_rows_iff.mpr hr, decide_eq_true hk⟩, rfl⟩

omit [DecidableEq κ] in
lemma nodup_keys_filter (p : κ × ρ → Bool) : ((t.rows.filter p).map Prod.fst).Nodup :=
  (List.filter_sublist.map Prod.fst).nodup t.nodup

/-- The listed keys that are stored, each once. -/
lemma keys_listed_perm (ks : List κ) :
    ((t.rows.filter fun e => decide (e.1 ∈ ks)).map Prod.fst).Perm
      (ks.dedup.filter fun k => (t.find? k).isSome) := by
  refine (List.perm_ext_iff_of_nodup (nodup_keys_filter _)
    ((List.nodup_dedup ks).filter _)).mpr fun k => ?_
  rw [mem_keys_listed_iff, List.mem_filter, List.mem_dedup]

/-- As many rows as listed keys: the keys are pairwise distinct and all of them stored. -/
lemma length_filter_mem_eq_iff {ks : List κ} :
    (t.rows.filter fun e => decide (e.1 ∈ ks)).length = ks.length ↔
      ks.Nodup ∧ ∀ k ∈ ks, (t.find? k).isSome := by
  set found := (t.rows.filter fun e => decide (e.1 ∈ ks)).map Prod.fst with hfound
  have hnodup : found.Nodup := nodup_keys_filter _
  have hsub : found ⊆ ks := fun k hk => (mem_keys_listed_iff.mp hk).1
  rw [← List.length_map Prod.fst, ← hfound]
  refine ⟨fun hlen => ?_, fun ⟨hks, hall⟩ => ?_⟩
  · have hperm : found.Perm ks := (hnodup.subperm hsub).perm_of_length_le (Nat.le_of_eq hlen.symm)
    exact ⟨hperm.nodup_iff.mp hnodup,
      fun k hk => (mem_keys_listed_iff.mp (hperm.mem_iff.mpr hk)).2⟩
  · have hsub' : ks ⊆ found := fun k hk => mem_keys_listed_iff.mpr ⟨hk, hall k hk⟩
    exact Nat.le_antisymm (hnodup.subperm hsub).length_le (hks.subperm hsub').length_le

/-! ### Rows that differ in a column -/

/-- No two rows agree in the column. -/
def Unique {α : Type*} (column : ρ → α) (t : Table κ ρ) : Prop :=
  ∀ k k' r r', t.find? k = some r → t.find? k' = some r' → column r = column r' → k = k'

section Unique

variable {α : Type*} {column : ρ → α}

lemma unique_empty : (∅ : Table κ ρ).Unique column := fun _ _ _ _ h => by cases h

lemma unique_put (h : t.Unique column)
    (hfree : ∀ k' r', k' ≠ k → t.find? k' = some r' → column r' ≠ column r) :
    (t.put k r).Unique column := by
  intro k₁ k₂ r₁ r₂ h₁ h₂ he
  rcases of_find?_put h₁ with ⟨rfl, rfl⟩ | ⟨hk₁, hr₁⟩ <;>
    rcases of_find?_put h₂ with ⟨rfl, rfl⟩ | ⟨hk₂, hr₂⟩
  · rfl
  · exact absurd he.symm (hfree k₂ r₂ hk₂ hr₂)
  · exact absurd he (hfree k₁ r₁ hk₁ hr₁)
  · exact h k₁ k₂ r₁ r₂ hr₁ hr₂ he

/-- The first row with a value in the column is the only one. -/
lemma Unique.find?_eq_some_iff [DecidableEq α] {c : α} (h : t.Unique column) :
    (t.rows.find? fun e => column e.2 = c) = some (k, r) ↔ t.find? k = some r ∧ column r = c := by
  refine ⟨fun he => ?_, fun ⟨hr, hc⟩ => ?_⟩
  · exact ⟨mem_rows_iff.mp (List.mem_of_find?_eq_some he), by simpa using List.find?_some he⟩
  · have hsome : (t.rows.find? fun e => column e.2 = c).isSome :=
      List.find?_isSome.mpr ⟨(k, r), mem_rows_iff.mpr hr, by simpa using hc⟩
    obtain ⟨e, he⟩ := Option.isSome_iff_exists.mp hsome
    have hcolumn : column e.2 = c := by simpa using List.find?_some he
    have hrow : t.find? e.1 = some e.2 := mem_rows_iff.mp (List.mem_of_find?_eq_some he)
    obtain rfl : e.1 = k := h e.1 k e.2 r hrow hr (hcolumn.trans hc.symm)
    obtain rfl : e.2 = r := Option.some.inj (hrow.symm.trans hr)
    exact he

/-- A row that keeps its column may be stored in the place of the old one. -/
lemma unique_put_of_eq {r₀ : ρ} (h : t.Unique column) (hr : t.find? k = some r₀)
    (he : column r = column r₀) : (t.put k r).Unique column :=
  unique_put h fun k' r' hk hr' hc => hk (h k' k r' r₀ hr' hr (hc.trans he))

lemma unique_erase (h : t.Unique column) : (t.erase k).Unique column :=
  fun k₁ k₂ r₁ r₂ h₁ h₂ => h k₁ k₂ r₁ r₂ (of_find?_erase h₁).2 (of_find?_erase h₂).2

end Unique

/-! ### Rows that refer to other rows -/

omit [DecidableEq κ] in
/-- The rows without their keys. -/
def values (t : Table κ ρ) : List ρ := t.rows.map Prod.snd

lemma mem_values_iff : r ∈ t.values ↔ ∃ k, t.find? k = some r := by
  unfold values
  rw [List.mem_map]
  refine ⟨?_, ?_⟩
  · rintro ⟨e, he, rfl⟩
    exact ⟨e.1, mem_rows_iff.mp he⟩
  · rintro ⟨k, hk⟩
    exact ⟨(k, r), mem_rows_iff.mpr hk, rfl⟩

lemma of_mem_values_put {r' : ρ} (h : r' ∈ (t.put k r).values) : r' = r ∨ r' ∈ t.values := by
  obtain ⟨k', hk'⟩ := mem_values_iff.mp h
  rcases of_find?_put hk' with ⟨-, hr⟩ | ⟨-, hr⟩
  · exact Or.inl hr
  · exact Or.inr (mem_values_iff.mpr ⟨k', hr⟩)

omit [DecidableEq κ] in
lemma of_mem_values_keep {p : κ → ρ → Bool} (h : r ∈ (t.keep p).values) : r ∈ t.values := by
  obtain ⟨e, he, rfl⟩ := List.mem_map.mp h
  exact List.mem_map_of_mem (List.mem_of_mem_filter he)

lemma of_mem_values_erase (h : r ∈ (t.erase k).values) : r ∈ t.values := of_mem_values_keep h

omit [DecidableEq κ] in
/-- Counting rows with a property, there is one. -/
lemma length_filter_pos_iff {p : ρ → Prop} [DecidablePred p] :
    0 < (t.rows.filter fun e => p e.2).length ↔ ∃ r ∈ t.values, p r := by
  simp only [List.length_filter_pos_iff, decide_eq_true_eq, values, List.mem_map]
  refine ⟨?_, ?_⟩
  · rintro ⟨e, he, hp⟩
    exact ⟨e.2, ⟨e, he, rfl⟩, hp⟩
  · rintro ⟨_, ⟨e, he, rfl⟩, hp⟩
    exact ⟨e, he, hp⟩

/-- What each of the rows refers to, if it refers to something, is stored. -/
def Refers {α : Type*} (ref : α → Option κ) (rows : List α) (parents : Table κ ρ) : Prop :=
  ∀ a ∈ rows, ∀ k, ref a = some k → (parents.find? k).isSome

section Refers

variable {α κ' : Type*} [DecidableEq κ'] {ref : α → Option κ} {rows rows' : List α}

lemma refers_nil : Refers ref [] t := fun _ ha => by cases ha

lemma Refers.mono (h : Refers ref rows t) (hsub : ∀ a ∈ rows', a ∈ rows) : Refers ref rows' t :=
  fun a ha => h a (hsub a ha)

lemma Refers.append (h : Refers ref rows t) (h' : Refers ref rows' t) :
    Refers ref (rows ++ rows') t :=
  fun a ha => (List.mem_append.mp ha).elim (h a) (h' a)

lemma Refers.put {children : Table κ' α} {k : κ'} {a : α} (h : Refers ref children.values t)
    (ha : ∀ p, ref a = some p → (t.find? p).isSome) : Refers ref (children.put k a).values t :=
  fun b hb => (of_mem_values_put hb).elim (fun hba => hba ▸ ha) (h b)

lemma Refers.put_iff {children : Table κ' α} {k : κ'} {a : α} (h : Refers ref children.values t) :
    Refers ref (children.put k a).values t ↔ ∀ p, ref a = some p → (t.find? p).isSome :=
  ⟨fun h' => h' a (mem_values_iff.mpr ⟨k, find?_put_self⟩), h.put⟩

lemma Refers.stores {t' : Table κ ρ} (h : Refers ref rows t) (hs : t.Stores t') :
    Refers ref rows t' := fun a ha p hp => hs.isSome (h a ha p hp)

lemma Refers.put_parent (h : Refers ref rows t) : Refers ref rows (t.put k r) :=
  h.stores stores_put

lemma Refers.erase_parent (h : Refers ref rows t) (hk : ∀ a ∈ rows, ref a ≠ some k) :
    Refers ref rows (t.erase k) :=
  fun a ha p hp => isSome_find?_erase.mpr ⟨fun he => hk a ha (he ▸ hp), h a ha p hp⟩

end Refers

/-! ### Rows that belong to an owner -/

section Owned

variable {α : Type*} {owner : α → κ} {rows : List α}

lemma filter_owner_self (h : ∀ a ∈ rows, owner a = k) :
    rows.filter (fun a => owner a = k) = rows :=
  List.filter_eq_self.mpr fun a ha => decide_eq_true (h a ha)

lemma filter_owner_ne (h : ∀ a ∈ rows, owner a = k) (hk : k ≠ k') :
    rows.filter (fun a => owner a = k') = [] :=
  List.filter_eq_nil_iff.mpr fun a ha he => hk ((h a ha).symm.trans (of_decide_eq_true he))

/-- An owner that is not stored has no rows. -/
lemma Refers.filter_owner (h : Refers (fun a => some (owner a)) rows t)
    (hk : t.find? k = none) : rows.filter (fun a => owner a = k) = [] := by
  refine List.filter_eq_nil_iff.mpr fun a ha he => ?_
  have hstored : (t.find? (owner a)).isSome := h a ha _ rfl
  rw [of_decide_eq_true he, hk] at hstored
  cases hstored

/-- The rows of an owner that is stored with them. -/
lemma refers_put_owner (h : ∀ a ∈ rows, owner a = k) :
    Refers (fun a => some (owner a)) rows (t.put k r) := by
  intro a ha p hp
  obtain rfl : k = p := (h a ha).symm.trans (Option.some.inj hp)
  rw [find?_put_self]
  rfl

/-- Dropping an owner along with its rows. -/
lemma Refers.erase_owner (h : Refers (fun a => some (owner a)) rows t) :
    Refers (fun a => some (owner a)) (rows.filter fun a => owner a ≠ k) (t.erase k) := by
  refine (h.mono fun _ ha => List.mem_of_mem_filter ha).erase_parent fun a ha he => ?_
  exact of_decide_eq_true (List.mem_filter.mp ha).2 (Option.some.inj he)

/-- Dropping the rows of an owner leaves it none. -/
lemma filter_dropped_self (rows : List α) :
    (rows.filter fun a => owner a ≠ k).filter (fun a => owner a = k) = [] := by
  rw [List.filter_filter]
  exact List.filter_eq_nil_iff.mpr fun a _ => by simp

/-- Dropping the rows of an owner leaves those of the others. -/
lemma filter_dropped_ne (rows : List α) (hk : k ≠ k') :
    (rows.filter fun a => owner a ≠ k).filter (fun a => owner a = k') =
      rows.filter fun a => owner a = k' := by
  rw [List.filter_filter]
  refine List.filter_congr fun a _ => ?_
  by_cases ha : owner a = k'
  · simp [ha, hk.symm]
  · simp [ha]

end Owned

/-! ### Totals -/

section Totals

variable {A : Type*} [AddCommMonoid A] {g g' : κ → ρ → A}

omit [DecidableEq κ] in
/-- Counting rows adds up a share of one for each. -/
lemma length_filter (p : κ → ρ → Prop) [∀ k r, Decidable (p k r)] :
    (t.rows.filter fun e => p e.1 e.2).length = t.total fun k r => if p k r then 1 else 0 := by
  have hsum := sum_selected (fun e : κ × ρ => decide (p e.1 e.2)) (fun _ => 1) t.rows
  rw [List.map_const', List.sum_replicate_nat, Nat.mul_one] at hsum
  rw [hsum]
  simp only [total, decide_eq_true_eq]

/-- Of two tests, one stronger than the other, as many rows pass the one as the other exactly
if the same rows do. -/
lemma length_filter_eq_iff {p q : κ → ρ → Prop} [∀ k r, Decidable (p k r)]
    [∀ k r, Decidable (q k r)] (h : ∀ k r, t.find? k = some r → p k r → q k r) :
    (t.rows.filter fun e => p e.1 e.2).length = (t.rows.filter fun e => q e.1 e.2).length ↔
      ∀ k r, t.find? k = some r → q k r → p k r := by
  have hsub : t.rows.filter (fun e => p e.1 e.2) =
      (t.rows.filter fun e => q e.1 e.2).filter fun e => p e.1 e.2 := by
    rw [List.filter_filter]
    refine List.filter_congr fun e he => ?_
    have hpq := h e.1 e.2 (mem_rows_iff.mp he)
    by_cases hp : p e.1 e.2
    · simp [hp, hpq hp]
    · simp [hp]
  rw [hsub, List.length_filter_eq_length_iff]
  refine ⟨fun hall k r hr hq => ?_, fun hall e he => ?_⟩
  · simpa using hall (k, r) (List.mem_filter.mpr ⟨mem_rows_iff.mpr hr, by simpa using hq⟩)
  · obtain ⟨hrow, hq⟩ := List.mem_filter.mp he
    simpa using hall e.1 e.2 (mem_rows_iff.mp hrow) (by simpa using hq)

/-- Storing a row under a new key adds its share. -/
lemma total_put_new (h : t.find? k = none) : (t.put k r).total g = t.total g + g k r :=
  sum_putRows_new (key_ne_of_find?_eq_none h)

/-- Storing a row in the place of `r₀` trades the share of `r₀` for its own. -/
lemma total_put {r₀ : ρ} (h : t.find? k = some r₀) :
    (t.put k r).total g + g k r₀ = t.total g + g k r :=
  sum_putRows (g := fun e => g e.1 e.2) t.nodup (mem_rows_iff.mpr h)

lemma total_put_of_eq {r₀ : ρ} [IsRightCancelAdd A] (h : t.find? k = some r₀)
    (hg : g k r = g k r₀) : (t.put k r).total g = t.total g := by
  have hput := total_put (g := g) (r := r) h
  rw [hg] at hput
  exact add_right_cancel hput

/-- Dropping the row under `k` takes its share away. -/
lemma total_erase (h : t.find? k = some r) : (t.erase k).total g + g k r = t.total g :=
  sum_dropped (g := fun e => g e.1 e.2) t.nodup (mem_rows_iff.mpr h)

end Totals

end Table

end CoffeeOs.KeyedTable
