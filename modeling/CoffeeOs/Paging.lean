import Mathlib.Data.List.Sort
import Mathlib.Data.List.Nodup
import Mathlib.Data.List.Perm.Basic

/-!
Reading a list page by page, when each page is cut out of an arrangement of its own.

Each arrangement is sorted by a key, and elements with equal keys may stand in it in any order.
The pages bring every element once, whatever the arrangements, exactly if no page ends between
two elements with equal keys: where a page ends between two different keys, all arrangements
have the same elements before it.
-/

namespace CoffeeOs.Paging

variable {α β : Type*} [LinearOrder β] (key : α → β)

/-- The page `k` of `t` elements. -/
def page (t k : ℕ) (l : List α) : List α := (l.drop (k * t)).take t

/-- How many pages of `t` elements cover `n`. -/
def pageCount (n t : ℕ) : ℕ := (n + t - 1) / t

/-- The elements of `rows`, sorted by the key. -/
structure Sorts (rows l : List α) : Prop where
  perm : l.Perm rows
  sorted : l.Pairwise fun a b => key a ≤ key b

/-- The keys of the elements in order. -/
def sortedKeys (rows : List α) : List β := (rows.map key).insertionSort (· ≤ ·)

/-- No page of `t` elements ends between two equal keys. -/
def Untied (t : ℕ) (rows : List α) : Prop := ∀ m < rows.length, 0 < m → t ∣ m →
  (sortedKeys key rows)[m - 1]? ≠ (sortedKeys key rows)[m]?

instance (t : ℕ) (rows : List α) : Decidable (Untied key t rows) :=
  inferInstanceAs (Decidable (∀ m < rows.length, _))

variable {key} {rows l l' : List α} {t k m : ℕ}

/-! ### Arrangements -/

lemma pairwise_sortedKeys (rows : List α) : (sortedKeys key rows).Pairwise (· ≤ ·) :=
  List.pairwise_insertionSort _ _

lemma length_sortedKeys (rows : List α) : (sortedKeys key rows).length = rows.length := by
  rw [sortedKeys, List.length_insertionSort, List.length_map]

/-- Sorted by the key, the elements have the same keys at the same places. -/
lemma Sorts.map_key (h : Sorts key rows l) : l.map key = sortedKeys key rows :=
  List.Perm.eq_of_pairwise' (List.pairwise_map.mpr h.sorted) (pairwise_sortedKeys rows)
    ((h.perm.map key).trans (List.perm_insertionSort _ _).symm)

lemma sorts_of_map_key (hperm : l.Perm rows) (h : l.map key = sortedKeys key rows) :
    Sorts key rows l :=
  ⟨hperm, List.pairwise_map.mp (h ▸ pairwise_sortedKeys rows)⟩

lemma exists_sorts (key : α → β) (rows : List α) : ∃ l, Sorts key rows l :=
  ⟨rows.insertionSort (Order.Preimage key (· ≤ ·)), List.perm_insertionSort _ _,
    List.pairwise_insertionSort (Order.Preimage key (· ≤ ·)) rows⟩

/-- By pairwise distinct keys, there is one way to sort the elements. -/
lemma Sorts.eq_of_nodup (hkeys : (rows.map key).Nodup) (h : Sorts key rows l)
    (h' : Sorts key rows l') : l = l' := by
  refine List.Perm.eq_of_pairwise (fun a b ha hb hab hba => ?_) h.sorted h'.sorted
    (h.perm.trans h'.perm.symm)
  exact List.inj_on_of_nodup_map hkeys (h.perm.mem_iff.mp ha) (h'.perm.mem_iff.mp hb)
    (le_antisymm hab hba)

lemma Sorts.length_eq (h : Sorts key rows l) : l.length = rows.length := h.perm.length_eq

/-! ### Places between two different keys -/

/-- In a sorted list, a change of keys parts the smaller keys from the rest. -/
lemma parts_of_ne {ks : List β} {b : β} (hks : ks.Pairwise (· ≤ ·)) (hm : 0 < m)
    (hb : ks[m]? = some b) (hne : ks[m - 1]? ≠ ks[m]?) :
    (∀ x ∈ ks.take m, x < b) ∧ ∀ x ∈ ks.drop m, b ≤ x := by
  obtain ⟨hlt, rfl⟩ := List.getElem?_eq_some_iff.mp hb
  have hle {i j : ℕ} (hi : i < ks.length) (hj : j < ks.length) (hij : i ≤ j) : ks[i] ≤ ks[j] := by
    rcases hij.eq_or_lt with rfl | hij
    · exact le_rfl
    · exact List.pairwise_iff_getElem.mp hks i j hi hj hij
  refine ⟨fun x hx => ?_, fun x hx => ?_⟩
  · obtain ⟨i, hi, rfl⟩ := List.mem_take_iff_getElem.mp hx
    have hlast : ks[m - 1] ≠ ks[m] := fun he => hne (by
      rw [List.getElem?_eq_getElem (by omega), List.getElem?_eq_getElem hlt, he])
    calc ks[i] ≤ ks[m - 1] := hle _ _ (by omega)
      _ < ks[m] := lt_of_le_of_ne (hle _ _ (by omega)) hlast
  · obtain ⟨i, hi, rfl⟩ := List.mem_drop_iff_getElem.mp hx
    exact hle _ _ (by omega)

lemma take_eq_filter {b : β} (hbefore : ∀ a ∈ l.take m, key a < b)
    (hafter : ∀ a ∈ l.drop m, b ≤ key a) : l.take m = l.filter fun a => key a < b := by
  have htake : (l.take m).filter (fun a => key a < b) = l.take m :=
    List.filter_eq_self.mpr fun a ha => by simpa using hbefore a ha
  have hdrop : (l.drop m).filter (fun a => key a < b) = [] :=
    List.filter_eq_nil_iff.mpr fun a ha => by simpa using hafter a ha
  calc l.take m
      = (l.take m).filter (fun a => key a < b) ++ (l.drop m).filter fun a => key a < b := by
        rw [htake, hdrop, List.append_nil]
    _ = l.filter fun a => key a < b := by rw [← List.filter_append, List.take_append_drop]

/-- Up to a place between two different keys, all arrangements have the same elements. -/
lemma Sorts.take_perm (h : Sorts key rows l) (h' : Sorts key rows l') (hm : 0 < m)
    (hlt : m < rows.length) (hne : (sortedKeys key rows)[m - 1]? ≠ (sortedKeys key rows)[m]?) :
    (l.take m).Perm (l'.take m) := by
  obtain ⟨b, hb⟩ : ∃ b, (sortedKeys key rows)[m]? = some b :=
    ⟨_, List.getElem?_eq_getElem (by rwa [length_sortedKeys])⟩
  obtain ⟨hbefore, hafter⟩ := parts_of_ne (pairwise_sortedKeys rows) hm hb hne
  have hfilter {s : List α} (hs : Sorts key rows s) : s.take m = s.filter fun a => key a < b := by
    refine take_eq_filter (fun a ha => hbefore _ ?_) fun a ha => hafter _ ?_
    · rw [← hs.map_key, ← List.map_take]
      exact List.mem_map_of_mem ha
    · rw [← hs.map_key, ← List.map_drop]
      exact List.mem_map_of_mem ha
  rw [hfilter h, hfilter h']
  exact (h.perm.trans h'.perm.symm).filter _

/-! ### Pages that bring every element once -/

lemma take_succ_mul : l.take ((k + 1) * t) = l.take (k * t) ++ page t k l := by
  rw [Nat.succ_mul, List.take_add, page]

/-- Pages of one and the same arrangement. -/
lemma flatMap_page (p : ℕ) : ((List.range p).flatMap fun k => page t k l) = l.take (p * t) := by
  induction p with
  | zero => rw [Nat.zero_mul]; rfl
  | succ p ih =>
    rw [List.range_succ, List.flatMap_append, ih, List.flatMap_singleton, take_succ_mul]

lemma le_pageCount_mul (ht : 0 < t) (n : ℕ) : n ≤ pageCount n t * t := by
  have hdiv : t * ((n + t - 1) / t) + (n + t - 1) % t = n + t - 1 := Nat.div_add_mod _ _
  have hmod : (n + t - 1) % t < t := Nat.mod_lt _ ht
  rw [pageCount, Nat.mul_comm]
  omega

/-- Without ties at the ends of pages, all arrangements have the same elements on each page. -/
lemma Sorts.take_mul_perm (h : Sorts key rows l) (h' : Sorts key rows l') (hu : Untied key t rows)
    (k : ℕ) : (l.take (k * t)).Perm (l'.take (k * t)) := by
  rcases Nat.eq_zero_or_pos (k * t) with hzero | hpos
  · rw [hzero]
    exact List.Perm.refl _
  rcases Nat.lt_or_ge (k * t) rows.length with hlt | hge
  · exact h.take_perm h' hpos hlt (hu _ hlt hpos (Nat.dvd_mul_left t k))
  · rw [List.take_of_length_le (h.length_eq.trans_le hge),
      List.take_of_length_le (h'.length_eq.trans_le hge)]
    exact h.perm.trans h'.perm.symm

lemma Sorts.page_perm (h : Sorts key rows l) (h' : Sorts key rows l') (hu : Untied key t rows)
    (k : ℕ) : (page t k l).Perm (page t k l') := by
  have hbefore : (l.take (k * t)).Perm (l'.take (k * t)) := h.take_mul_perm h' hu k
  have hpage : (l.take (k * t) ++ page t k l).Perm (l'.take (k * t) ++ page t k l') := by
    rw [← take_succ_mul, ← take_succ_mul]
    exact h.take_mul_perm h' hu (k + 1)
  exact (List.perm_append_left_iff _).mp ((hbefore.append_right _).symm.trans hpage)

/-! ### Pages with a tie between them -/

lemma exists_split (h : m + 1 < l.length) : ∃ u a b v, l = u ++ a :: b :: v ∧ u.length = m := by
  refine ⟨l.take m, l[m], l[m + 1], l.drop (m + 2), ?_, List.length_take_of_le (by omega)⟩
  rw [← List.drop_eq_getElem_cons, ← List.drop_eq_getElem_cons, List.take_append_drop]

/-- Two neighbours with equal keys may change places. -/
lemma Sorts.exists_swap (h : Sorts key rows l) (hlt : m + 1 < rows.length)
    (htie : (sortedKeys key rows)[m]? = (sortedKeys key rows)[m + 1]?) :
    ∃ a l', Sorts key rows l' ∧ l[m]? = some a ∧ l'[m + 1]? = some a := by
  obtain ⟨u, a, b, v, rfl, rfl⟩ := exists_split (hlt.trans_eq h.length_eq.symm)
  have hkey : key a = key b := by
    rw [← h.map_key] at htie
    simpa using htie
  refine ⟨a, u ++ b :: a :: v, sorts_of_map_key ?_ ?_, by simp, by simp⟩
  · exact ((List.Perm.swap a b v).append_left u).trans h.perm
  · rw [← h.map_key]
    simp [hkey]

lemma mem_page {a : α} {i : ℕ} (h : l[i]? = some a) (hfrom : k * t ≤ i) (hto : i < (k + 1) * t) :
    a ∈ page t k l := by
  rw [Nat.succ_mul] at hto
  refine List.mem_of_getElem? (i := i - k * t) ?_
  rw [page, List.getElem?_take_of_lt (by omega), List.getElem?_drop, Nat.add_sub_cancel' hfrom, h]

/-- With a tie at the end of a page, the element before it may come again on the next page. -/
lemma exists_repeated (ht : 0 < t) (h : ¬ Untied key t rows) : ∃ (arrangement : ℕ → List α) (j : ℕ)
    (a : α), (∀ k, Sorts key rows (arrangement k)) ∧ (j + 1) * t < rows.length ∧
      a ∈ page t j (arrangement j) ∧ a ∈ page t (j + 1) (arrangement (j + 1)) := by
  obtain ⟨m, hlt, hm, hdvd, htie⟩ : ∃ m, m < rows.length ∧ 0 < m ∧ t ∣ m ∧
      (sortedKeys key rows)[m - 1]? = (sortedKeys key rows)[m]? := by
    simpa [Untied] using h
  obtain ⟨j, rfl⟩ : ∃ j, m = (j + 1) * t := by
    obtain ⟨_ | j, rfl⟩ := hdvd
    · cases hm
    · exact ⟨j, Nat.mul_comm _ _⟩
  obtain ⟨l, hl⟩ := exists_sorts key rows
  have hm1 : (j + 1) * t - 1 + 1 = (j + 1) * t := Nat.sub_add_cancel hm
  obtain ⟨a, l', hl', ha, ha'⟩ := hl.exists_swap (hm1.trans_lt hlt) (by rwa [hm1])
  rw [hm1] at ha'
  refine ⟨Function.update (fun _ => l) (j + 1) l', j, a, ?_, hlt, ?_, ?_⟩
  · exact (Function.forall_update_iff _ fun _ s => Sorts key rows s).mpr ⟨hl', fun _ _ => hl⟩
  · rw [Function.update_of_ne (Nat.succ_ne_self j).symm]
    exact mem_page ha (by rw [Nat.succ_mul]; omega) (by omega)
  · rw [Function.update_self]
    exact mem_page ha' le_rfl (by rw [Nat.succ_mul (j + 1)]; omega)

lemma exists_arrange {arrangement : ℕ → List α} (h : ∀ k, Sorts key rows (arrangement k)) :
    ∃ arrange : ℕ → List α → List α, (∀ k s, Sorts key s (arrange k s)) ∧
      ∀ k, arrange k rows = arrangement k := by
  classical
  choose sort hsort using exists_sorts key
  refine ⟨fun k => Function.update sort rows (arrangement k), fun k => ?_, fun k => ?_⟩
  · exact (Function.forall_update_iff _ fun s l => Sorts key s l).mpr ⟨h k, fun s _ => hsort s⟩
  · exact Function.update_self _ _ _

/-- **Pages.** However the elements are arranged for each page, the pages bring every one of them
exactly once, if and only if no page ends between two equal keys. -/
theorem pages_perm_iff (hrows : rows.Nodup) (ht : 0 < t) :
    (∀ arrange : ℕ → List α → List α, (∀ k s, Sorts key s (arrange k s)) →
      ((List.range (pageCount rows.length t)).flatMap fun k => page t k (arrange k rows)).Perm
        rows) ↔ Untied key t rows := by
  refine ⟨fun hpages => ?_, fun hu arrange h => ?_⟩
  · -- a tie at the end of a page lets its row be on the next one too
    by_contra hties
    obtain ⟨arrangement, j, a, h, hlt, ha, ha'⟩ := exists_repeated ht hties
    obtain ⟨arrange, hsorts, harrange⟩ := exists_arrange h
    rw [← harrange] at ha ha'
    have hnodup := (hpages arrange hsorts).nodup_iff.mpr hrows
    have hj : j + 1 < pageCount rows.length t :=
      Nat.lt_of_mul_lt_mul_right (hlt.trans_le (le_pageCount_mul ht _))
    have hdisjoint := List.pairwise_iff_getElem.mp (List.nodup_flatMap.mp hnodup).2 j (j + 1)
      (by rw [List.length_range]; omega) (by rwa [List.length_range]) (Nat.lt_succ_self j)
    simp only [List.getElem_range, Function.onFun] at hdisjoint
    exact hdisjoint ha ha'
  · -- without such ties, each page is that of one and the same order
    have hcover : rows.length ≤ pageCount rows.length t * t := le_pageCount_mul ht _
    refine (List.Perm.flatMap_left _ fun k _ => (h k rows).page_perm (h 0 rows) hu k).trans ?_
    rw [flatMap_page, List.take_of_length_le ((h 0 rows).length_eq.trans_le hcover)]
    exact (h 0 rows).perm

end CoffeeOs.Paging
