import CoffeeOs.Numerals

/-!
The UTC calendar of an instant, and the date as text.

Instants are milliseconds and days are numbered from 1970-01-01. The date of a day is found
year first, then month, then day of the month; the text of a date has its digits only, and
tells which day it is.
-/

namespace CoffeeOs.Calendar

open CoffeeOs.Numerals

/-- The UTC day of an instant. -/
def dayOf (t : ℤ) : ℤ := t / 86400000

/-- The instant a UTC day begins. -/
def dayStart (d : ℤ) : ℤ := d * 86400000

lemma dayStart_le_iff {d t : ℤ} : dayStart d ≤ t ↔ d ≤ dayOf t := by
  unfold dayStart dayOf
  omega

/-! ### The date of a day -/

structure Date where
  year : ℤ
  month : ℕ
  day : ℕ
  deriving DecidableEq

/-- The day a year begins. -/
def dayFromYear (y : ℤ) : ℤ :=
  365 * (y - 1970) + (y - 1969) / 4 - (y - 1901) / 100 + (y - 1601) / 400

/-- The year of a day: a guess by the mean length of a year, put right by at most one. -/
def yearOf (d : ℤ) : ℤ :=
  let y := 1970 + d * 400 / 146097
  if dayFromYear (y + 1) ≤ d then y + 1 else if dayFromYear y ≤ d then y else y - 1

def leap (y : ℤ) : Bool := y % 4 = 0 ∧ (y % 100 ≠ 0 ∨ y % 400 = 0)

/-- The months from December on down, each with the days of the year before it. -/
def months (leap : Bool) : List (ℕ × ℕ) :=
  let l := leap.toNat
  [(12, 334 + l), (11, 304 + l), (10, 273 + l), (9, 243 + l), (8, 212 + l), (7, 181 + l),
   (6, 151 + l), (5, 120 + l), (4, 90 + l), (3, 59 + l), (2, 31), (1, 0)]

/-- The month of the day `n` of a year, with the days of the year before it. -/
def monthOf (leap : Bool) (n : ℕ) : ℕ × ℕ := ((months leap).find? fun e => e.2 ≤ n).getD (1, 0)

def dateOf (d : ℤ) : Date :=
  let year := yearOf d
  let n := (d - dayFromYear year).toNat
  let month := monthOf (leap year) n
  ⟨year, month.1, n - month.2 + 1⟩

lemma dayFromYear_yearOf_le (d : ℤ) : dayFromYear (yearOf d) ≤ d := by
  unfold yearOf dayFromYear
  dsimp only
  split
  · omega
  · split <;> omega

lemma lt_dayFromYear_yearOf_add_one (d : ℤ) : d < dayFromYear (yearOf d + 1) := by
  unfold yearOf
  dsimp only
  split
  · unfold dayFromYear
    omega
  · split
    · omega
    · rw [sub_add_cancel]
      omega

lemma dayInYear_lt (d : ℤ) : (d - dayFromYear (yearOf d)).toNat < 366 := by
  have h := lt_dayFromYear_yearOf_add_one d
  unfold dayFromYear at h ⊢
  omega

/-- January begins no later than any day. -/
lemma find?_months (leap : Bool) (n : ℕ) :
    (months leap).find? (fun e => e.2 ≤ n) = some (monthOf leap n) := by
  obtain ⟨e, he⟩ : ∃ e, (months leap).find? (fun e => e.2 ≤ n) = some e :=
    Option.isSome_iff_exists.mp
      (List.find?_isSome.mpr ⟨(1, 0), by cases leap <;> decide, by simp⟩)
  rw [monthOf, he, Option.getD_some]

lemma monthOf_mem (leap : Bool) (n : ℕ) : monthOf leap n ∈ months leap :=
  List.mem_of_find?_eq_some (find?_months leap n)

lemma monthOf_le (leap : Bool) (n : ℕ) : (monthOf leap n).2 ≤ n := by
  simpa using List.find?_some (find?_months leap n)

lemma months_inj (leap : Bool) :
    ∀ e ∈ months leap, ∀ e' ∈ months leap, e.1 = e'.1 → e = e' := by
  cases leap <;> decide

/-- A date says which day it is. -/
theorem dateOf_injective : Function.Injective dateOf := by
  intro a b h
  have hyear : yearOf a = yearOf b := congrArg Date.year h
  have hmonth := congrArg Date.month h
  have hday := congrArg Date.day h
  unfold dateOf at hmonth hday
  dsimp only at hmonth hday
  rw [hyear] at hmonth hday
  set na := (a - dayFromYear (yearOf b)).toNat with hna
  set nb := (b - dayFromYear (yearOf b)).toNat with hnb
  have hentry : monthOf (leap (yearOf b)) na = monthOf (leap (yearOf b)) nb :=
    months_inj _ _ (monthOf_mem _ _) _ (monthOf_mem _ _) hmonth
  have hla := monthOf_le (leap (yearOf b)) na
  have hlb := monthOf_le (leap (yearOf b)) nb
  rw [hentry] at hday hla
  have ha := hyear ▸ dayFromYear_yearOf_le a
  have hb := dayFromYear_yearOf_le b
  omega

/-- The month and the day of the month have two digits at most. -/
def Date.TwoDigits (d : Date) : Prop := d.month < 100 ∧ d.day < 100

lemma dateOf_lt (d : ℤ) : (dateOf d).TwoDigits := by
  have hsmall : ∀ l : Bool, ∀ n < 366, (monthOf l n).1 < 100 ∧ n - (monthOf l n).2 + 1 < 100 := by
    decide +kernel
  exact hsmall _ _ (dayInYear_lt d)

/-! ### The date as text -/

/-- The year of an ISO date: four digits, or a sign and six. -/
def isoYear (y : ℤ) : List Char :=
  if 0 ≤ y ∧ y ≤ 9999 then padded 4 y.toNat
  else (if y < 0 then '-' else '+') :: padded 6 y.natAbs

def isoDate (d : Date) : List Char :=
  isoYear d.year ++ '-' :: (padded 2 d.month ++ '-' :: padded 2 d.day)

/-- The ISO date without its dashes. -/
def digits (d : Date) : List Char := (isoDate d).filter (· ≠ '-')

/-- The ISO date of an instant without its dashes. -/
def dateDigits (t : ℤ) : List Char := (isoDate (dateOf (dayOf t))).filter (· ≠ '-')

lemma dash_not_mem_padded {w n : ℕ} : '-' ∉ padded w n := by
  intro h
  have hdigit := isDigit_of_mem_padded h
  cases hdigit

lemma filter_padded (w n : ℕ) : (padded w n).filter (· ≠ '-') = padded w n := by
  refine List.filter_eq_self.mpr fun c hc => ?_
  have hne : c ≠ '-' := by
    rintro rfl
    exact dash_not_mem_padded hc
  simpa using hne

/-- The year of an ISO date without the dash. -/
def yearDigits (y : ℤ) : List Char :=
  if 0 ≤ y ∧ y ≤ 9999 then padded 4 y.toNat
  else if y < 0 then padded 6 y.natAbs else '+' :: padded 6 y.natAbs

lemma filter_isoYear (y : ℤ) : (isoYear y).filter (· ≠ '-') = yearDigits y := by
  unfold isoYear yearDigits
  split
  · exact filter_padded 4 _
  · split
    · rw [List.filter_cons_of_neg (by simp), filter_padded]
    · rw [List.filter_cons_of_pos (by decide), filter_padded]

lemma digits_eq (d : Date) :
    digits d = yearDigits d.year ++ (padded 2 d.month ++ padded 2 d.day) := by
  unfold digits isoDate
  rw [List.filter_append, filter_isoYear, List.filter_cons_of_neg (by simp), List.filter_append,
    List.filter_cons_of_neg (by simp), filter_padded, filter_padded]

lemma dash_not_mem_digits {d : Date} : '-' ∉ digits d := by
  intro h
  have hne := (List.mem_filter.mp h).2
  simp at hne

lemma length_yearDigits {y : ℤ} (h : 0 ≤ y ∧ y ≤ 9999) : (yearDigits y).length = 4 := by
  unfold yearDigits
  rw [if_pos h]
  exact length_padded (by omega) (by omega)

lemma plus_ne_padded (m n : ℕ) : '+' :: padded 6 m ≠ padded 6 n := by
  intro h
  have hmem : '+' ∈ padded 6 n := by rw [← h]; exact List.mem_cons_self
  have hdigit := isDigit_of_mem_padded hmem
  cases hdigit

lemma six_le_length_yearDigits {y : ℤ} (h : ¬ (0 ≤ y ∧ y ≤ 9999)) :
    6 ≤ (yearDigits y).length := by
  have hsix : 6 ≤ (padded 6 y.natAbs).length := le_length_padded
  unfold yearDigits
  rw [if_neg h]
  split
  · exact hsix
  · rw [List.length_cons]
    omega

lemma yearDigits_injective : Function.Injective yearDigits := by
  intro x y h
  have hlength := congrArg List.length h
  by_cases hx : 0 ≤ x ∧ x ≤ 9999 <;> by_cases hy : 0 ≤ y ∧ y ≤ 9999
  · rw [yearDigits, yearDigits, if_pos hx, if_pos hy] at h
    have := padded_injective 4 h
    omega
  · -- four digits against the six of an expanded year, and its sign
    have hx' := length_yearDigits hx
    have hy' := six_le_length_yearDigits hy
    omega
  · have hx' := six_le_length_yearDigits hx
    have hy' := length_yearDigits hy
    omega
  · rw [yearDigits, yearDigits, if_neg hx, if_neg hy] at h
    split at h <;> split at h
    · -- two years above 9999, or two below 0
      have := padded_injective 6 h
      omega
    · exact absurd h.symm (plus_ne_padded _ _)
    · exact absurd h (plus_ne_padded _ _)
    · have := padded_injective 6 (List.cons.inj h).2
      omega

/-- The digits of a date tell its year, its month and its day apart. -/
theorem digits_injOn {d e : Date} (hd : d.TwoDigits) (he : e.TwoDigits) (h : digits d = digits e) :
    d = e := by
  rw [digits_eq, digits_eq] at h
  have two {n : ℕ} (hn : n < 100) : (padded 2 n).length = 2 := length_padded (by omega) hn
  obtain ⟨hyear, hrest⟩ := List.append_inj' h
    (by rw [List.length_append, List.length_append, two hd.1, two hd.2, two he.1, two he.2])
  obtain ⟨hmonth, hday⟩ := List.append_inj' hrest (by rw [two hd.2, two he.2])
  rcases d with ⟨year, month, day⟩
  obtain rfl : year = e.year := yearDigits_injective hyear
  obtain rfl : month = e.month := padded_injective 2 hmonth
  obtain rfl : day = e.day := padded_injective 2 hday
  rfl

/-- **Dates.** The digits of the date say which day an instant is on. -/
theorem dateDigits_eq_iff {s t : ℤ} : dateDigits s = dateDigits t ↔ dayOf s = dayOf t := by
  refine ⟨fun h => dateOf_injective ?_, fun h => by rw [dateDigits, h]; rfl⟩
  exact digits_injOn (dateOf_lt (dayOf s)) (dateOf_lt (dayOf t)) h

end CoffeeOs.Calendar
