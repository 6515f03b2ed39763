import CoffeeOs.Discounts
import CoffeeOs.Interleaving
import Mathlib.Data.Set.Card

/-!
Clients that redeem the same discount at the same time.

A client first asks for the amount, which tests the limit against the uses counted so far, and
counts its own use in a second call. What the first call has granted and the second has not yet
counted is in flight; the limit holds as long as each grant leaves room for these as well.
-/

namespace CoffeeOs.UsageRace

open CoffeeOs.KeyedTable CoffeeOs.Requests CoffeeOs.Requests.Request CoffeeOs.Runs
open CoffeeOs.Interleaving CoffeeOs.Interleaving.Pool CoffeeOs.Schema
open CoffeeOs.Discounts hiding step

variable {ι : Type}

structure Client where
  subtotal : ℚ
  now : Instant

/-- `calculateDiscount`, and if it returned an amount, `incrementUsage`. -/
def redeem (id : Id) (client : Client) : Api DiscountView := do
  let _ ← calculateDiscount id client.subtotal client.now
  incrementUsage id

def redemptions (id : Id) (client : ι → Client) (db : Db) : Pool ι Db Error DiscountView :=
  ⟨db, fun i => redeem id (client i)⟩

/-- The discount passes the tests of `calculateDiscount`. -/
def Passes (d : Discount) (client : Client) : Prop :=
  d.isActive ∧
  ¬ (d.validFrom.any fun validFrom => validFrom > client.now) ∧
  ¬ (d.validUntil.any fun validUntil => validUntil < client.now) ∧
  ¬ (d.minPurchaseAmount.any fun least => least ≠ 0 ∧ client.subtotal < least) ∧
  ¬ (d.usageLimit.any fun limit => limit ≠ 0 ∧ d.usageCount ≥ limit)

instance (d : Discount) (client : Client) : Decidable (Passes d client) :=
  inferInstanceAs (Decidable (_ ∧ _))

/-- The clients that have been granted an amount and have not yet counted their use. -/
def inFlight (id : Id) (q : Pool ι Db Error DiscountView) : Set ι :=
  {i | q.requests i = incrementUsage id}

/-- The client is granted an amount by its next call. -/
def Grants (id : Id) (client : ι → Client) (d : Discount) (q : Pool ι Db Error DiscountView)
    (i : ι) : Prop :=
  q.requests i = redeem id (client i) ∧ Passes d (client i)

/-- A client is granted an amount only if the limit has room for its use, beside those that are
counted and those in flight. -/
def LeavesRoom (id : Id) (client : ι → Client) (q : Pool ι Db Error DiscountView) (i : ι) : Prop :=
  ∀ d l, q.store.discounts.find? id = some d → d.usageLimit = some l → Grants id client d q i →
    d.usageCount + (inFlight id q).ncard + 1 ≤ l

/-- The uses counted do not exceed the limit. -/
def WithinLimit (id : Id) (q : Pool ι Db Error DiscountView) : Prop :=
  ∀ d l, q.store.discounts.find? id = some d → d.usageLimit = some l → d.usageCount ≤ l

/-! ### The two calls of a client -/

variable {id : Id} {client : ι → Client} {q : Pool ι Db Error DiscountView} {d : Discount} {i : ι}

/-- The tests let a client through, or turn it away. -/
lemma grant_cases (d : Discount) (c : Client) :
    (Passes d c ∧ ∃ amount, grant d c.subtotal c.now = .done (.ok amount)) ∨
    (¬ Passes d c ∧ ∃ e, grant d c.subtotal c.now = .done (.error e)) := by
  unfold grant Passes
  -- the five checks, in the order in which they throw
  by_cases ha : d.isActive
  swap
  · exact Or.inr ⟨fun h => ha h.1, _, throwIf_bind_pos ha _⟩
  rw [throwIf_bind_neg (not_not.mpr ha)]
  by_cases hf : d.validFrom.any fun validFrom => validFrom > c.now
  · exact Or.inr ⟨fun h => h.2.1 hf, _, throwIf_bind_pos hf _⟩
  rw [throwIf_bind_neg hf]
  by_cases hu : d.validUntil.any fun validUntil => validUntil < c.now
  · exact Or.inr ⟨fun h => h.2.2.1 hu, _, throwIf_bind_pos hu _⟩
  rw [throwIf_bind_neg hu]
  by_cases hm : d.minPurchaseAmount.any fun least => least ≠ 0 ∧ c.subtotal < least
  · exact Or.inr ⟨fun h => h.2.2.2.1 hm, _, throwIf_bind_pos hm _⟩
  rw [throwIf_bind_neg hm]
  by_cases hl : d.usageLimit.any fun limit => limit ≠ 0 ∧ d.usageCount ≥ limit
  · exact Or.inr ⟨fun h => h.2.2.2.2 hl, _, throwIf_bind_pos hl _⟩
  rw [throwIf_bind_neg hl]
  exact Or.inl ⟨⟨ha, hf, hu, hm, hl⟩, _, rfl⟩

variable [DecidableEq ι]

/-- The first call of a client. -/
lemma step_redeem (hi : q.requests i = redeem id (client i))
    (hd : q.store.discounts.find? id = some d) :
    (Passes d (client i) ∧
      q.step i = ⟨q.store, Function.update q.requests i (incrementUsage id)⟩) ∨
    (¬ Passes d (client i) ∧ ∃ e, q.step i =
      ⟨q.store, Function.update q.requests i (.done (.error e))⟩) := by
  have hlook : q.requests i = .look (fun db => db.discounts.find? id) >>= fun found =>
      (orThrow (.notFound s!"Discount with ID \"{id}\" not found") found >>= fun d =>
        grant d (client i).subtotal (client i).now) >>= fun _ => incrementUsage id := hi
  rw [step_look_bind hlook, hd, orThrow_some_bind]
  rcases grant_cases d (client i) with ⟨hp, amount, hg⟩ | ⟨hp, e, hg⟩
  · exact Or.inl ⟨hp, by rw [hg]; rfl⟩
  · exact Or.inr ⟨hp, e, by rw [hg]; rfl⟩

def counted (d : Discount) : Discount := { d with usageCount := d.usageCount + 1 }

/-- The second call of a client. -/
lemma step_increment (hi : q.requests i = incrementUsage id)
    (hd : q.store.discounts.find? id = some d) :
    ∃ view, q.step i = ⟨{ q.store with discounts := q.store.discounts.put id (counted d) },
      Function.update q.requests i (.done (.ok view))⟩ := by
  refine ⟨⟨id, counted d⟩, step_atomically_ok hi ?_⟩
  rw [discount, hd]
  rfl

omit [DecidableEq ι] in
/-- Where the discount is stored, a client that has not begun has not been granted anything: its
next call writes nothing. -/
lemma redeem_ne (hd : q.store.discounts.find? id = some d) (c : Client) :
    redeem id c ≠ incrementUsage id := by
  intro h
  unfold redeem calculateDiscount findOne incrementUsage Delegate.findUnique Delegate.update at h
  injection h with hwrite
  have hstore := congrFun hwrite q.store
  simp only [discount, hd] at hstore
  have hrow : q.store.discounts.find? id = some (counted d) :=
    (congrArg (fun db : Db => db.discounts.find? id) hstore).trans Table.find?_put_self
  have hcount := congrArg Discount.usageCount (Option.some.inj (hd.symm.trans hrow))
  simp [counted] at hcount

/-! ### What is in flight -/

lemma inFlight_granted (s : Db) :
    inFlight id ⟨s, Function.update q.requests i (incrementUsage id)⟩ =
      insert i (inFlight id q) := by
  ext j
  by_cases hij : j = i
  · simp [inFlight, hij]
  · simp [inFlight, hij]

lemma inFlight_answered (s : Db) (r : Except Error DiscountView) :
    inFlight id ⟨s, Function.update q.requests i (.done r)⟩ = inFlight id q \ {i} := by
  ext j
  by_cases hij : j = i
  · have hne : (.done r : Api DiscountView) ≠ incrementUsage id := by
      intro h
      cases h
    simp [inFlight, hij, hne]
  · simp [inFlight, hij]

/-- How far a client has come. -/
inductive Stage (id : Id) (c : Client) : Api DiscountView → Prop
  | fresh : Stage id c (redeem id c)
  | granted : Stage id c (incrementUsage id)
  | answered (r : Except Error DiscountView) : Stage id c (.done r)

/-- The discount is stored with its limit, each client is at one of its stages, and finitely many
are in flight. -/
structure Inv (id : Id) (client : ι → Client) (l : ℚ) (q : Pool ι Db Error DiscountView) :
    Prop where
  stored : ∃ d, q.store.discounts.find? id = some d ∧ d.usageLimit = some l
  stage : ∀ i, Stage id (client i) (q.requests i)
  finite : (inFlight id q).Finite

lemma stage_update {r : Api DiscountView} (h : ∀ i, Stage id (client i) (q.requests i))
    (hr : Stage id (client i) r) (j : ι) :
    Stage id (client j) (Function.update q.requests i r j) :=
  (Function.forall_update_iff q.requests fun j r => Stage id (client j) r).mpr
    ⟨hr, fun j _ => h j⟩ j

/-- What a turn of a client can do: it is granted an amount, or it is answered, or its use is
counted. -/
inductive Turn (id : Id) (client : ι → Client) (d : Discount) (q : Pool ι Db Error DiscountView)
    (i : ι) : Pool ι Db Error DiscountView → Prop
  | granted (grants : Grants id client d q i) (waiting : i ∉ inFlight id q) :
      Turn id client d q i ⟨q.store, Function.update q.requests i (incrementUsage id)⟩
  | answered (refused : ¬ Grants id client d q i) (waiting : i ∉ inFlight id q)
      (r : Except Error DiscountView) :
      Turn id client d q i ⟨q.store, Function.update q.requests i (.done r)⟩
  | counted (counting : ¬ Grants id client d q i) (flying : i ∈ inFlight id q)
      (view : DiscountView) : Turn id client d q i
        ⟨{ q.store with discounts := q.store.discounts.put id (counted d) },
          Function.update q.requests i (.done (.ok view))⟩

lemma step_turn {l : ℚ} (i : ι) (h : Inv id client l q)
    (hd : q.store.discounts.find? id = some d) : Turn id client d q i (q.step i) := by
  have hi : Stage id (client i) (q.requests i) := h.stage i
  generalize hreq : q.requests i = r at hi
  cases hi with
  | fresh =>
    have hnot : i ∉ inFlight id q := fun hin => redeem_ne hd (client i) (hreq.symm.trans hin)
    rcases step_redeem hreq hd with ⟨hp, hstep⟩ | ⟨hp, e, hstep⟩
    · rw [hstep]
      exact .granted ⟨hreq, hp⟩ hnot
    · rw [hstep]
      exact .answered (fun hg => hp hg.2) hnot _
  | granted =>
    obtain ⟨view, hstep⟩ := step_increment hreq hd
    rw [hstep]
    exact .counted (fun hg => redeem_ne hd (client i) (hg.1.symm.trans hreq)) hreq view
  | answered r =>
    -- the turn of a client that has its answer changes nothing
    have hstep : q.step i = ⟨q.store, Function.update q.requests i (.done r)⟩ := by
      rw [step_of_done hreq, ← hreq, Function.update_eq_self]
    rw [hstep]
    refine .answered (fun hg => ?_) (fun hin => ?_) r
    · have hcall := hg.1
      rw [hreq] at hcall
      cases hcall
    · have hcall : q.requests i = incrementUsage id := hin
      rw [hreq] at hcall
      cases hcall

lemma inv_step {l : ℚ} (i : ι) (h : Inv id client l q) : Inv id client l (q.step i) := by
  obtain ⟨d, hd, hl⟩ := h.stored
  have hturn : Turn id client d q i (q.step i) := step_turn i h hd
  generalize q.step i = q' at hturn ⊢
  cases hturn with
  | granted =>
    refine ⟨⟨d, hd, hl⟩, stage_update h.stage .granted, ?_⟩
    rw [inFlight_granted]
    exact h.finite.insert i
  | answered _ _ r =>
    refine ⟨⟨d, hd, hl⟩, stage_update h.stage (.answered r), ?_⟩
    rw [inFlight_answered]
    exact h.finite.sdiff
  | counted _ _ view =>
    refine ⟨⟨counted d, Table.find?_put_self, hl⟩, stage_update h.stage (.answered _), ?_⟩
    rw [inFlight_answered]
    exact h.finite.sdiff

/-- A turn moves the uses counted and in flight, taken together, only by a grant. -/
lemma step_level {l : ℚ} (i : ι) (h : Inv id client l q)
    (hd : q.store.discounts.find? id = some d) :
    ∃ d', (q.step i).store.discounts.find? id = some d' ∧
      (Grants id client d q i → d'.usageCount + (inFlight id (q.step i)).ncard =
        d.usageCount + (inFlight id q).ncard + 1) ∧
      (¬ Grants id client d q i → d'.usageCount + (inFlight id (q.step i)).ncard =
        d.usageCount + (inFlight id q).ncard) := by
  have hturn : Turn id client d q i (q.step i) := step_turn i h hd
  generalize q.step i = q' at hturn ⊢
  cases hturn with
  | granted hg hnot =>
    refine ⟨d, hd, fun _ => ?_, fun hn => absurd hg hn⟩
    rw [inFlight_granted, Set.ncard_insert_of_notMem hnot h.finite]
    push_cast
    exact (add_assoc _ _ _).symm
  | answered hn hnot r =>
    refine ⟨d, hd, fun hg => absurd hg hn, fun _ => ?_⟩
    rw [inFlight_answered, Set.sdiff_singleton_eq_self hnot]
  | counted hn hin view =>
    refine ⟨counted d, Table.find?_put_self, fun hg => absurd hg hn, fun _ => ?_⟩
    rw [inFlight_answered, ← Set.ncard_sdiff_singleton_add_one hin h.finite]
    push_cast
    calc (counted d).usageCount + (inFlight id q \ {i}).ncard
        = d.usageCount + 1 + (inFlight id q \ {i}).ncard := rfl
      _ = d.usageCount + ((inFlight id q \ {i}).ncard + 1) := by
        rw [add_right_comm, add_assoc]

/-! ### Whole runs -/

/-- The uses counted and in flight do not exceed the limit. -/
def RoomFor (id : Id) (l : ℚ) (q : Pool ι Db Error DiscountView) : Prop :=
  ∃ d, q.store.discounts.find? id = some d ∧ d.usageCount + (inFlight id q).ncard ≤ l

lemma roomFor_step_iff {l : ℚ} (i : ι) (h : Inv id client l q) (hroom : RoomFor id l q) :
    RoomFor id l (q.step i) ↔ LeavesRoom id client q i := by
  obtain ⟨d, hd, hle⟩ := hroom
  obtain ⟨d₁, hd₁, hl⟩ := h.stored
  obtain rfl : d₁ = d := Option.some.inj (hd₁.symm.trans hd)
  obtain ⟨d', hd', hgrant, hno⟩ := step_level i h hd
  by_cases hg : Grants id client d₁ q i
  · -- the turn of a client that is granted its use
    have hlevel := hgrant hg
    refine ⟨?_, fun hleaves => ⟨d', hd', ?_⟩⟩
    · rintro ⟨d'', hd'', hle'⟩ e l' he hl' -
      obtain rfl : d'' = d' := Option.some.inj (hd''.symm.trans hd')
      obtain rfl : d₁ = e := Option.some.inj (hd.symm.trans he)
      obtain rfl : l' = l := Option.some.inj (hl'.symm.trans hl)
      rwa [hlevel] at hle'
    · rw [hlevel]
      exact hleaves d₁ l hd hl hg
  · -- any other turn leaves the level where it is
    refine iff_of_true ⟨d', hd', by rwa [hno hg]⟩ fun e l' he _ hg' => ?_
    obtain rfl : d₁ = e := Option.some.inj (hd.symm.trans he)
    exact absurd hg' hg

/-- Once there is no room, there never is again. -/
lemma not_roomFor_step {l : ℚ} (i : ι) (h : Inv id client l q) (hroom : ¬ RoomFor id l q) :
    ¬ RoomFor id l (q.step i) := by
  obtain ⟨d, hd, hl⟩ := h.stored
  obtain ⟨d', hd', hgrant, hno⟩ := step_level i h hd
  rintro ⟨d'', hd'', hle⟩
  obtain rfl : d'' = d' := Option.some.inj (hd''.symm.trans hd')
  refine hroom ⟨d, hd, ?_⟩
  by_cases hg : Grants id client d q i
  · rw [hgrant hg] at hle
    exact (le_add_of_nonneg_right zero_le_one).trans hle
  · rwa [hno hg] at hle

omit [DecidableEq ι] in
lemma withinLimit_of_roomFor {l : ℚ} (h : Inv id client l q) (hroom : RoomFor id l q) :
    WithinLimit id q := by
  obtain ⟨d, hd, hle⟩ := hroom
  obtain ⟨d₁, hd₁, hl⟩ := h.stored
  obtain rfl : d₁ = d := Option.some.inj (hd₁.symm.trans hd)
  intro e l' he hl'
  obtain rfl : d₁ = e := Option.some.inj (hd.symm.trans he)
  obtain rfl : l' = l := Option.some.inj (hl'.symm.trans hl)
  exact (le_add_of_nonneg_right Rat.natCast_nonneg).trans hle

variable {db : Db}

omit [DecidableEq ι] in
lemma inv_redemptions {l : ℚ} (client : ι → Client) (hd : db.discounts.find? id = some d)
    (hl : d.usageLimit = some l) :
    Inv id client l (redemptions id client db) ∧
      inFlight id (redemptions id client db) = ∅ := by
  have hnone : inFlight id (redemptions id client db) = ∅ :=
    Set.eq_empty_of_forall_notMem fun i hi =>
      redeem_ne (q := redemptions id client db) hd (client i) hi
  exact ⟨⟨⟨d, hd, hl⟩, fun _ => .fresh, hnone ▸ Set.finite_empty⟩, hnone⟩

/-- **The limit of a discount.** From a discount within its limit, the limit holds throughout if
each grant leaves room for the uses counted and in flight; once all clients are through, it has
held only then. -/
theorem usage_within_limit (db : Db) (id : Id) (d : Discount) (l : ℚ) (client : ι → Client)
    (is : List ι) (hd : db.discounts.find? id = some d) (hl : d.usageLimit = some l)
    (hle : d.usageCount ≤ l) :
    (Along step (LeavesRoom id client) (redemptions id client db) is →
      Always step (WithinLimit id) (redemptions id client db) is) ∧
    ((run step (redemptions id client db) is).Finished →
      Always step (WithinLimit id) (redemptions id client db) is →
      Along step (LeavesRoom id client) (redemptions id client db) is) := by
  obtain ⟨hinv, hnone⟩ := inv_redemptions client hd hl
  have hroom : RoomFor id l (redemptions id client db) := by
    refine ⟨d, hd, ?_⟩
    rw [hnone, Set.ncard_empty, Nat.cast_zero, add_zero]
    exact hle
  -- step by step there is room if and only if each client has left room
  have hexact : Always step (RoomFor id l) (redemptions id client db) is ↔
      Along step (LeavesRoom id client) (redemptions id client db) is :=
    always_iff_along_of_invariant (fun _ i h => inv_step i h) (fun _ i h => roomFor_step_iff i h)
      hinv hroom
  rw [← hexact]
  refine ⟨fun h => ?_, fun hf h => ?_⟩
  · exact (Always.and (always_of_step (fun _ i h => inv_step i h) hinv) h).imp
      fun q hq => withinLimit_of_roomFor hq.1 hq.2
  · -- without room at some time, the uses in flight are counted by the end
    rw [always_iff]
    rintro pre post rfl
    by_contra hno
    have hpre : Inv id client l (run step (redemptions id client db) pre) :=
      run_of_step (fun _ i h => inv_step i h) hinv
    have hend : Inv id client l (run step (run step (redemptions id client db) pre) post) ∧
        ¬ RoomFor id l (run step (run step (redemptions id client db) pre) post) :=
      run_of_step (P := fun q => Inv id client l q ∧ ¬ RoomFor id l q)
        (fun _ i hs => ⟨inv_step i hs.1, not_roomFor_step i hs.1 hs.2⟩) ⟨hpre, hno⟩
    rw [← run_append] at hend
    obtain ⟨e, he, hlimit⟩ := hend.1.stored
    refine hend.2 ⟨e, he, ?_⟩
    have hempty : inFlight id (run step (redemptions id client db) (pre ++ post)) = ∅ :=
      Set.eq_empty_of_forall_notMem fun i hi => hf i (pending_iff.mpr ⟨_, _, hi⟩)
    rw [hempty, Set.ncard_empty, Nat.cast_zero, add_zero]
    exact h.last e l he hlimit

/-- A discount for one more customer. -/
def lastOne : Discount where
  code := "SUMMER20"
  name := "Verano 20% OFF"
  type := .percentage
  value := 20
  usageLimit := some 1
  organizationId := "org-1"

def withLastOne : Db := { discounts := (∅ : Table Id Discount).put "summer" lastOne }

/-- Two customers with a purchase of 250 each. -/
def customers (_ : Bool) : Client := ⟨250, 0⟩

theorem lastOne_within_limit :
    (Along step (LeavesRoom "summer" customers) (redemptions "summer" customers withLastOne)
        [false, false, true] →
      Always step (WithinLimit "summer") (redemptions "summer" customers withLastOne)
        [false, false, true]) ∧
    ((run step (redemptions "summer" customers withLastOne) [false, false, true]).Finished →
      Always step (WithinLimit "summer") (redemptions "summer" customers withLastOne)
        [false, false, true] →
      Along step (LeavesRoom "summer" customers) (redemptions "summer" customers withLastOne)
        [false, false, true]) :=
  usage_within_limit withLastOne "summer" lastOne 1 customers [false, false, true]
    (by decide +kernel) rfl (by decide +kernel)

/-- Both customers are granted the discount before either use is counted. -/
theorem limit_exceeded :
    withLastOne.discounts.find? "summer" = some lastOne ∧ lastOne.usageLimit = some 1 ∧
    lastOne.usageCount ≤ 1 ∧
    ¬ Always step (WithinLimit "summer") (redemptions "summer" customers withLastOne)
      [false, true, false, true] := by
  refine ⟨by decide +kernel, rfl, by decide +kernel, fun h => ?_⟩
  have hd : (run step (redemptions "summer" customers withLastOne)
      [false, true, false, true]).store.discounts.find? "summer" =
      some { lastOne with usageCount := 2 } := by decide +kernel
  have hle := h.last _ 1 hd rfl
  revert hle
  decide +kernel

end CoffeeOs.UsageRace
