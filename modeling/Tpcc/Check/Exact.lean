import Tpcc.Check.Model
import Tpcc.Store.Totals

/-! What the consistency checks pass on, and where a check passes although its condition fails. -/

namespace Tpcc.Check

open Lib Store Transaction

section Outcome

theorem checkNoRows_ok {α : Type} {rows : List α} {description : String} :
    checkNoRows rows description = .ok () ↔ rows = [] := by
  cases rows with
  | nil => simp [checkNoRows]
  | cons r rows => simp [checkNoRows]

theorem forM_ok {α : Type} {f : α → Outcome} {l : List α} :
    l.forM f = .ok () ↔ ∀ a ∈ l, f a = .ok () := by
  induction l with
  | nil => simp [pure, Except.pure]
  | cons a l ih =>
    rw [List.forall_mem_cons, ← ih]
    change (f a >>= fun _ => l.forM f) = .ok () ↔ _
    cases hfirst : f a with
    | ok u => exact ⟨fun h => ⟨rfl, h⟩, fun h => h.2⟩
    | error e => simp [bind, Except.bind]

theorem checkCount_iff {name : String} {rowCount : Nat} {expectedCount : Int} :
    checkCount name rowCount expectedCount = .ok () ↔ (rowCount : Int) = expectedCount := by
  rw [checkCount, throwIf]
  by_cases h : (rowCount : Int) = expectedCount
  · simp [h]
  · simp [h]

theorem seq_iff {first rest : Outcome} :
    (first >>= fun _ => rest) = .ok () ↔ first = .ok () ∧ rest = .ok () := by
  cases first with
  | ok u => exact ⟨fun h => ⟨rfl, h⟩, fun h => h.2⟩
  | error e => simp [bind, Except.bind]

theorem checkRange_iff {α : Type} [Min α] [Max α] [DecidableEq α] {column : String}
    {values : List α} {low high : α} {message : α → α → String} :
    checkRange column values low high message = .ok () ↔
      values.min? = some low ∧ values.max? = some high := by
  rw [checkRange]
  cases values.min? with
  | none => simp [require, bind, Except.bind]
  | some least =>
    cases values.max? with
    | none => simp [require, bind, Except.bind]
    | some greatest =>
      by_cases h : least ≠ low ∨ greatest ≠ high
      · simp only [require, bind, Except.bind, throwIf, h, decide_true]
        simpa [imp_iff_not_or] using h
      · simp only [not_or, not_not] at h
        simp [require, bind, Except.bind, throwIf, h]

/-- A check that looks only at the `found` ones of the values in `domain` finds every violation if and
only if those it does not look at satisfy the condition, or it finds another violation. -/
theorem exact_iff {α : Type} {domain found condition : α → Prop} :
    ((∀ a, domain a → found a → condition a) ↔ ∀ a, domain a → condition a) ↔
      (∀ a, domain a → ¬found a → condition a) ∨ ∃ a, domain a ∧ found a ∧ ¬condition a := by
  constructor
  · intro hexact
    by_cases hviolation : ∃ a, domain a ∧ found a ∧ ¬condition a
    · exact .inr hviolation
    · refine .inl fun a ha _ => hexact.mp (fun b hb hfound => ?_) a ha
      by_contra hcondition
      exact hviolation ⟨b, hb, hfound, hcondition⟩
  · rintro (hothers | ⟨a, ha, hfound, hcondition⟩)
    · refine ⟨fun h a ha => ?_, fun h a ha _ => h a ha⟩
      by_cases hfound : found a
      · exact h a ha hfound
      · exact hothers a ha hfound
    · exact iff_of_false (fun h => hcondition (h a ha hfound)) fun h => hcondition (h a ha)

end Outcome

section Ranges

variable {kRangeSize warehouseCount : Nat}

theorem mem_rangesFrom {fuel start startWh endWh : Nat}
    (h : (startWh, endWh) ∈ rangesFrom kRangeSize warehouseCount fuel start) :
    start ≤ startWh ∧ startWh ≤ warehouseCount ∧ endWh ≤ warehouseCount := by
  induction fuel generalizing start with
  | zero => cases h
  | succ fuel ih =>
    rw [rangesFrom] at h
    split at h
    · rename_i hstart
      rcases List.mem_cons.mp h with heq | h
      · obtain ⟨rfl, rfl⟩ := Prod.mk.inj heq
        exact ⟨le_rfl, hstart, min_le_right _ _⟩
      · have hrest := ih h
        exact ⟨by omega, hrest.2⟩
    · cases h

/-- The warehouses of the ranges, range after range, are the warehouses from `start` on. -/
theorem flatMap_rangesFrom (hpos : 0 < kRangeSize) {fuel start : Nat}
    (hfuel : warehouseCount + 1 ≤ start + fuel) :
    (rangesFrom kRangeSize warehouseCount fuel start).flatMap
        (fun r => List.range' r.1 (r.2 + 1 - r.1)) =
      List.range' start (warehouseCount + 1 - start) := by
  induction fuel generalizing start with
  | zero =>
    have hlength : warehouseCount + 1 - start = 0 := by omega
    rw [hlength]
    rfl
  | succ fuel ih =>
    rw [rangesFrom]
    split
    · rename_i hstart
      rw [List.flatMap_cons, @ih (start + kRangeSize) (by omega)]
      by_cases hlast : start + kRangeSize ≤ warehouseCount + 1
      · have hend : min (start + kRangeSize - 1) warehouseCount + 1 - start = kRangeSize := by omega
        have hlength : warehouseCount + 1 - start =
            kRangeSize + (warehouseCount + 1 - (start + kRangeSize)) := by omega
        rw [hend, hlength, List.range'_append_1]
      · have hend : min (start + kRangeSize - 1) warehouseCount = warehouseCount := by omega
        have hrest : warehouseCount + 1 - (start + kRangeSize) = 0 := by omega
        rw [hend, hrest]
        exact List.append_nil _
    · have hlength : warehouseCount + 1 - start = 0 := by omega
      rw [hlength]
      rfl

/-- The ranges together hold each warehouse from 1 to `warehouseCount` once. -/
theorem flatMap_ranges (hpos : 0 < kRangeSize) :
    (ranges kRangeSize warehouseCount).flatMap (fun r => List.range' r.1 (r.2 + 1 - r.1)) =
      List.range' 1 warehouseCount :=
  flatMap_rangesFrom hpos (by omega)

/-- The ranges cover the warehouses. -/
theorem exists_rangesFrom (hpos : 0 < kRangeSize) {fuel start w : Nat} (hw : start ≤ w)
    (hcount : w ≤ warehouseCount) (hfuel : warehouseCount + 1 ≤ start + fuel) :
    ∃ startWh endWh, (startWh, endWh) ∈ rangesFrom kRangeSize warehouseCount fuel start ∧
      startWh ≤ w ∧ w ≤ endWh := by
  induction fuel generalizing start with
  | zero => omega
  | succ fuel ih =>
    rw [rangesFrom, if_pos (by omega)]
    by_cases hfirst : w ≤ start + kRangeSize - 1
    · exact ⟨_, _, List.mem_cons_self, hw, le_min hfirst hcount⟩
    · obtain ⟨startWh, endWh, hmem, hin⟩ :=
        @ih (start + kRangeSize) (by omega) (by omega)
      exact ⟨startWh, endWh, List.mem_cons_of_mem _ hmem, hin⟩

theorem mem_ranges (kRangeSize : Nat) (hpos : 0 < kRangeSize) {w : Nat} :
    (1 ≤ w ∧ w ≤ warehouseCount) ↔ ∃ startWh endWh,
      (startWh, endWh) ∈ ranges kRangeSize warehouseCount ∧ within startWh endWh w = true := by
  simp only [within, decide_eq_true_eq]
  constructor
  · rintro ⟨hlow, hhigh⟩
    exact exists_rangesFrom hpos hlow hhigh (by omega)
  · rintro ⟨startWh, endWh, hmem, hin⟩
    have hbounds := mem_rangesFrom hmem
    omega

/-- A check over the ranges passes when no range returns a row. -/
theorem checkRanges_ok {α : Type} {name : String} {query : Nat → Nat → List α} :
    checkRanges name kRangeSize warehouseCount query = .ok () ↔
      ∀ startWh endWh, (startWh, endWh) ∈ ranges kRangeSize warehouseCount →
        query startWh endWh = [] := by
  rw [checkRanges, forM_ok]
  simp only [checkNoRows_ok, Prod.forall]

/-- A check whose query for a range returns no row exactly when `P` holds of the range's
warehouses. -/
theorem checkRanges_iff {α : Type} {name : String} {query : Nat → Nat → List α} {P : Nat → Prop}
    (hpos : 0 < kRangeSize)
    (hquery : ∀ startWh endWh, query startWh endWh = [] ↔
      ∀ w, within startWh endWh w = true → P w) :
    checkRanges name kRangeSize warehouseCount query = .ok () ↔
      ∀ w, 1 ≤ w ∧ w ≤ warehouseCount → P w := by
  rw [checkRanges_ok]
  simp only [hquery]
  constructor
  · intro h w hw
    obtain ⟨startWh, endWh, hrange, hin⟩ := (mem_ranges kRangeSize hpos).mp hw
    exact h startWh endWh hrange w hin
  · intro h startWh endWh hrange w hin
    exact h w ((mem_ranges kRangeSize hpos).mpr ⟨startWh, endWh, hrange, hin⟩)

end Ranges

theorem differs_eq_true {a b : Money} : differs a b = true ↔ a ≠ b := by
  have hzero : (a - b).natAbs = 0 ↔ a = b := by rw [Int.natAbs_eq_zero, Int.sub_eq_zero]
  rw [differs, decide_eq_true_eq, ne_eq, ← hzero]
  omega

section Indicators

variable {α : Type} {condition : α → Bool} {rows : List α}

/-- `MIN` of 0/1 values is 1 when all are. -/
theorem min_indicator :
    (rows.map fun r => indicator (condition r)).min? = some 1 ↔
      rows ≠ [] ∧ ∀ r ∈ rows, condition r = true := by
  rw [List.min?_eq_some_iff]
  constructor
  · rintro ⟨hmem, hleast⟩
    refine ⟨?_, fun r hr => ?_⟩
    · rintro rfl
      cases hmem
    · have hle := hleast _ (List.mem_map_of_mem hr)
      by_contra hfalse
      simp [indicator, hfalse] at hle
  · rintro ⟨hne, hall⟩
    obtain ⟨r, rest, rfl⟩ := List.exists_cons_of_ne_nil hne
    refine ⟨List.mem_map.mpr ⟨r, List.mem_cons_self, ?_⟩, fun b hb => ?_⟩
    · simp [indicator, hall r List.mem_cons_self]
    · obtain ⟨r', hr', rfl⟩ := List.mem_map.mp hb
      simp [indicator, hall r' hr']

/-- `MAX` of 0/1 values is 1 when one is. -/
theorem max_indicator :
    (rows.map fun r => indicator (condition r)).max? = some 1 ↔
      ∃ r ∈ rows, condition r = true := by
  rw [List.max?_eq_some_iff]
  constructor
  · rintro ⟨hmem, -⟩
    obtain ⟨r, hr, hone⟩ := List.mem_map.mp hmem
    refine ⟨r, hr, ?_⟩
    by_contra hfalse
    simp [indicator, hfalse] at hone
  · rintro ⟨r, hr, htrue⟩
    refine ⟨List.mem_map.mpr ⟨r, hr, by simp [indicator, htrue]⟩, fun b hb => ?_⟩
    obtain ⟨r', -, rfl⟩ := List.mem_map.mp hb
    rw [indicator]
    split <;> omega

end Indicators

section Delivery

variable {db : Database} {warehouseCount : Nat}

/-- An order of the warehouses that are checked. -/
def Checked (warehouseCount w : Nat) : Prop := 1 ≤ w ∧ w ≤ warehouseCount

/-- Each line of each order has a delivery date exactly when the order has a carrier. -/
def DeliveryMatchesCarrier (db : Database) (warehouseCount : Nat) : Prop :=
  ∀ o ∈ db.oorder, Checked warehouseCount o.oWId → ∀ l ∈ db.orderLine, l.order = o.key →
    (l.olDeliveryD = none ↔ o.oCarrierId = none)

/-- A violation that the check finds: an order without carrier whose lines, at least one, are all
delivered, or one with a carrier and a line that is not. -/
def Found (db : Database) (o : Oorder) : Prop :=
  (o.oCarrierId = none ∧ (∃ l ∈ db.orderLine, l.order = o.key) ∧
      ∀ l ∈ db.orderLine, l.order = o.key → l.olDeliveryD ≠ none) ∨
    o.oCarrierId ≠ none ∧ ∃ l ∈ db.orderLine, l.order = o.key ∧ l.olDeliveryD = none

/-- An order with lines that are delivered and lines that are not. -/
def PartlyDelivered (db : Database) (o : Oorder) : Prop :=
  (∃ l ∈ db.orderLine, l.order = o.key ∧ l.olDeliveryD ≠ none) ∧
    ∃ l ∈ db.orderLine, l.order = o.key ∧ l.olDeliveryD = none

theorem mem_chunk_lines {startWh endWh : Nat} {o : Oorder}
    (ho : within startWh endWh o.oWId = true) {l : OrderLine} :
    (l ∈ (db.orderLine.filter fun r => within startWh endWh r.olWId).filter
        fun r => r.order = o.key) ↔ l ∈ db.orderLine ∧ l.order = o.key := by
  simp only [List.mem_filter, decide_eq_true_eq]
  constructor
  · rintro ⟨⟨hl, -⟩, horder⟩
    exact ⟨hl, horder⟩
  · rintro ⟨hl, horder⟩
    have hw : l.olWId = o.oWId := congrArg Prod.fst horder
    exact ⟨⟨hl, by rw [hw, ho]⟩, horder⟩

/-- The condition of the check's query for the group of an order's lines. -/
theorem group_found {startWh endWh : Nat} {o : Oorder}
    (ho : within startWh endWh o.oWId = true) :
    let rows := (db.orderLine.filter fun r => within startWh endWh r.olWId).filter
      fun r => r.order = o.key
    ((∃ l ∈ db.orderLine, l.order = o.key) ∧
      ((o.oCarrierId.isNone &&
            (rows.map fun r => indicator r.olDeliveryD.isSome).min? = some 1) ||
          (o.oCarrierId.isSome &&
            (rows.map fun r => indicator r.olDeliveryD.isNone).max? = some 1)) = true) ↔
      Found db o := by
  intro rows
  have hrows : ∀ l, l ∈ rows ↔ l ∈ db.orderLine ∧ l.order = o.key := fun l => mem_chunk_lines ho
  have hne : rows ≠ [] ↔ ∃ l ∈ db.orderLine, l.order = o.key := by
    constructor
    · intro hne
      obtain ⟨l, hl⟩ := List.exists_mem_of_ne_nil rows hne
      exact ⟨l, (hrows l).mp hl⟩
    · rintro ⟨l, hl⟩
      exact List.ne_nil_of_mem ((hrows l).mpr hl)
  simp only [Bool.or_eq_true, Bool.and_eq_true, decide_eq_true_eq, min_indicator, max_indicator,
    hne, hrows, Found, Option.isNone_iff_eq_none, Option.isSome_iff_ne_none, and_imp, and_assoc]
  constructor
  · rintro ⟨hline, ⟨hcarrier, -, hall⟩ | hsome⟩
    · exact .inl ⟨hcarrier, hline, hall⟩
    · exact .inr hsome
  · rintro (⟨hcarrier, hline, hall⟩ | ⟨hcarrier, l, hl, horder, hnull⟩)
    · exact ⟨hline, .inl ⟨hcarrier, hline, hall⟩⟩
    · exact ⟨⟨l, hl, horder⟩, .inr ⟨hcarrier, l, hl, horder, hnull⟩⟩

theorem consistencyCheck3327_ok :
    consistencyCheck3327 db warehouseCount = .ok () ↔
      ∀ o ∈ db.oorder, Checked warehouseCount o.oWId → ¬Found db o := by
  rw [consistencyCheck3327, checkRanges_ok]
  constructor
  · intro h o ho hchecked hfound
    obtain ⟨startWh, endWh, hrange, hin⟩ := (mem_ranges 10 (by decide)).mp hchecked
    obtain ⟨⟨l, hl, horder⟩, hwhere⟩ := (group_found hin).mpr hfound
    refine List.filter_eq_nil_iff.mp (h startWh endWh hrange) (_, o) (Sql.mem_join.mpr
      ⟨List.mem_map.mpr ⟨(o.key, _), Sql.mem_groupBy.mpr ⟨⟨l, ?_, horder⟩, rfl⟩, rfl⟩, ho, ?_⟩)
      hwhere
    · exact (List.mem_filter.mp ((mem_chunk_lines hin).mpr ⟨hl, horder⟩)).1
    · simp
  · intro h startWh endWh hrange
    refine List.filter_eq_nil_iff.mpr ?_
    rintro ⟨⟨k, all, some⟩, o⟩ hmem hwhere
    obtain ⟨hgroup, ho, hon⟩ := Sql.mem_join.mp hmem
    obtain ⟨⟨k', rows⟩, hgroup, heq⟩ := List.mem_map.mp hgroup
    obtain ⟨⟨l, hl, horder⟩, rfl⟩ := Sql.mem_groupBy.mp hgroup
    simp only [Prod.mk.injEq] at heq
    obtain ⟨rfl, rfl, rfl⟩ := heq
    obtain rfl : k' = o.key := by simpa using hon
    obtain ⟨hline, hin⟩ := List.mem_filter.mp hl
    have hw : l.olWId = o.oWId := congrArg Prod.fst horder
    rw [hw] at hin
    refine h o ho ((mem_ranges 10 (by decide)).mpr ⟨_, _, hrange, hin⟩) ?_
    exact (group_found hin).mp ⟨⟨l, hline, horder⟩, hwhere⟩

/-- What the check finds is a violation, and a violation that it does not find is an order without
carrier that is partly delivered. -/
theorem deliveryMatchesCarrier_iff :
    DeliveryMatchesCarrier db warehouseCount ↔
      ∀ o ∈ db.oorder, Checked warehouseCount o.oWId →
        ¬Found db o ∧ ¬(o.oCarrierId = none ∧ PartlyDelivered db o) := by
  refine forall₂_congr fun o ho => forall_congr' fun hchecked => ?_
  constructor
  · intro h
    refine ⟨?_, ?_⟩
    · rintro (⟨hcarrier, ⟨l, hl, horder⟩, hall⟩ | ⟨hcarrier, l, hl, horder, hnull⟩)
      · exact hall l hl horder ((h l hl horder).mpr hcarrier)
      · exact hcarrier ((h l hl horder).mp hnull)
    · rintro ⟨hcarrier, ⟨l, hl, horder, hdate⟩, -⟩
      exact hdate ((h l hl horder).mpr hcarrier)
  · rintro ⟨hfound, hpartly⟩ l hl horder
    constructor
    · intro hnull
      by_contra hcarrier
      exact hfound (.inr ⟨hcarrier, l, hl, horder, hnull⟩)
    · intro hcarrier
      by_contra hdate
      refine hfound (.inl ⟨hcarrier, ⟨l, hl, horder⟩, fun l' hl' horder' hnull => ?_⟩)
      exact hpartly ⟨hcarrier, ⟨l, hl, horder, hdate⟩, l', hl', horder', hnull⟩

/-- For all contents, check 3.3.2.7 passes exactly when its condition holds, if and only if no order
without carrier is partly delivered or the check finds a violation of another order. -/
theorem consistencyCheck3327_exact_iff (db : Database) (warehouseCount : Nat) :
    (consistencyCheck3327 db warehouseCount = .ok () ↔ DeliveryMatchesCarrier db warehouseCount) ↔
      (∀ o ∈ db.oorder, Checked warehouseCount o.oWId → o.oCarrierId = none →
          ¬PartlyDelivered db o) ∨
        ∃ o ∈ db.oorder, Checked warehouseCount o.oWId ∧ Found db o := by
  rw [consistencyCheck3327_ok, deliveryMatchesCarrier_iff]
  constructor
  · intro hexact
    by_cases hfound : ∃ o ∈ db.oorder, Checked warehouseCount o.oWId ∧ Found db o
    · exact .inr hfound
    · refine .inl fun o ho hchecked hcarrier hpartly => ?_
      have hpasses : ∀ o ∈ db.oorder, Checked warehouseCount o.oWId → ¬Found db o :=
        fun o ho hchecked hf => hfound ⟨o, ho, hchecked, hf⟩
      exact (hexact.mp hpasses o ho hchecked).2 ⟨hcarrier, hpartly⟩
  · rintro (hwhole | ⟨o, ho, hchecked, hfound⟩)
    · refine forall₂_congr fun o ho => forall_congr' fun hchecked => ?_
      exact ⟨fun h => ⟨h, fun hpartly => hwhole o ho hchecked hpartly.1 hpartly.2⟩, fun h => h.1⟩
    · refine iff_of_false (fun h => h o ho hchecked hfound) fun h => (h o ho hchecked).1 hfound

/-- An order without carrier with two lines, of which the second is delivered. -/
def partlyDelivered : Database where
  warehouse := []
  district := []
  customer := []
  history := []
  oorder := [⟨1, 1, 1, 1, none, 2, 1⟩]
  newOrder := []
  orderLine := [⟨1, 1, 1, 1, 1, none, 100, 1, 5, ""⟩, ⟨1, 1, 1, 2, 1, some 1, 100, 1, 5, ""⟩]
  item := []
  stock := []

theorem consistencyCheck3327_passes_partlyDelivered :
    (partlyDelivered.oorder.map Oorder.key).Nodup ∧
      (partlyDelivered.orderLine.map OrderLine.key).Nodup ∧
      (∀ l ∈ partlyDelivered.orderLine, ∃ o ∈ partlyDelivered.oorder, l.order = o.key) ∧
      consistencyCheck3327 partlyDelivered 1 = .ok () ∧
      ¬DeliveryMatchesCarrier partlyDelivered 1 := by
  refine ⟨by decide, by decide, by decide, rfl, fun h => ?_⟩
  have hline := h ⟨1, 1, 1, 1, none, 2, 1⟩ (by decide) ⟨by decide, by decide⟩
    ⟨1, 1, 1, 2, 1, some 1, 100, 1, 5, ""⟩ (by decide) rfl
  exact absurd (hline.mpr rfl) (by decide)

end Delivery

section Balance

variable {db : Database} {warehouseCount : Nat}

/-- `C_BALANCE + C_YTD_PAYMENT` is the sum of the delivered lines of the customer's orders. -/
def BalanceMatchesDelivered (db : Database) (warehouseCount : Nat) : Prop :=
  ∀ c ∈ db.customer, Checked warehouseCount c.cWId →
    c.cBalance + c.cYtdPayment = customerDelivered db c.key

/-- A customer with a delivered line. -/
def HasDelivered (db : Database) (customer : Nat × Nat × Nat) : Prop :=
  ∃ o ∈ db.oorder, o.customer = customer ∧
    ∃ l ∈ db.orderLine, l.order = o.key ∧ l.delivered = true

theorem customerDelivered_of_none {customer : Nat × Nat × Nat} (h : ¬HasDelivered db customer) :
    customerDelivered db customer = 0 := by
  refine Table.total_eq_zero fun o ho hcustomer => ?_
  refine Table.total_eq_zero fun l hl hline => absurd ?_ h
  simp only [Bool.and_eq_true, decide_eq_true_eq] at hcustomer hline
  exact ⟨o, ho, hcustomer, l, hl, hline.1, hline.2⟩

/-- The sum of the rows that are joined for a customer of the range. -/
theorem sum_deliveredRows {startWh endWh : Nat} {customer : Nat × Nat × Nat}
    (hin : within startWh endWh customer.1 = true) :
    ((((Sql.join (fun o ol => decide (ol.order = o.key)) db.oorder db.orderLine).filter
      fun r => r.2.olDeliveryD.isSome && within startWh endWh r.1.oWId).filter
        fun r => (r.1.oWId, r.1.oDId, r.1.oCId) = customer).map fun r => r.2.olAmount).sum =
      customerDelivered db customer := by
  rw [List.filter_filter]
  have hcongr : ∀ r : Oorder × OrderLine,
      (decide ((r.1.oWId, r.1.oDId, r.1.oCId) = customer) &&
        (r.2.olDeliveryD.isSome && within startWh endWh r.1.oWId)) =
      (decide (r.1.customer = customer) && r.2.delivered) := by
    rintro ⟨o, l⟩
    by_cases hcustomer : o.customer = customer
    · subst hcustomer
      have hw : within startWh endWh o.oWId = true := hin
      simp [Oorder.customer, OrderLine.delivered, hw]
    · simp only [Oorder.customer] at hcustomer
      simp [Oorder.customer, hcustomer]
  rw [List.filter_congr fun r _ => hcongr r]
  exact Sql.sum_join (p := fun o : Oorder => decide (o.customer = customer))
    (q := OrderLine.delivered) (g := OrderLine.olAmount)

/-- The sums that the query joins with the customers of its range. -/
theorem mem_deliveredSums {startWh endWh : Nat} {customer : Nat × Nat × Nat} {sum : Money}
    (hin : within startWh endWh customer.1 = true) :
    (customer, sum) ∈ deliveredSums db startWh endWh ↔
      HasDelivered db customer ∧ sum = customerDelivered db customer := by
  rw [deliveredSums, List.mem_map]
  constructor
  · rintro ⟨⟨k, rows⟩, hgroup, heq⟩
    obtain ⟨⟨⟨o, l⟩, hmem, rfl⟩, rfl⟩ := Sql.mem_groupBy.mp hgroup
    obtain ⟨rfl, rfl⟩ := Prod.mk.inj heq
    obtain ⟨hjoin, hwhere⟩ := List.mem_filter.mp hmem
    obtain ⟨ho, hl, hon⟩ := Sql.mem_join.mp hjoin
    simp only [Bool.and_eq_true, decide_eq_true_eq] at hwhere hon
    exact ⟨⟨o, ho, rfl, l, hl, hon, hwhere.1⟩, sum_deliveredRows hin⟩
  · rintro ⟨⟨o, ho, rfl, l, hl, horder, hdelivered⟩, rfl⟩
    have hw : within startWh endWh o.oWId = true := hin
    have hjoin : (o, l) ∈ Sql.join (fun o ol => decide (ol.order = o.key)) db.oorder
        db.orderLine := Sql.mem_join.mpr ⟨ho, hl, by simpa using horder⟩
    refine ⟨(o.customer, _), Sql.mem_groupBy.mpr ⟨⟨(o, l), List.mem_filter.mpr ⟨hjoin, ?_⟩, rfl⟩,
      rfl⟩, Prod.ext rfl (sum_deliveredRows hin)⟩
    simpa [hw, OrderLine.delivered] using hdelivered

theorem consistencyCheck33212_ok :
    consistencyCheck33212 db warehouseCount = .ok () ↔
      ∀ c ∈ db.customer, Checked warehouseCount c.cWId → HasDelivered db c.key →
        c.cBalance + c.cYtdPayment = customerDelivered db c.key := by
  rw [consistencyCheck33212, checkRanges_ok]
  constructor
  · intro h c hc hchecked hdelivered
    obtain ⟨startWh, endWh, hrange, hin⟩ := (mem_ranges 10 (by decide)).mp hchecked
    have hnone := List.filter_eq_nil_iff.mp (h startWh endWh hrange)
      (c, (c.key, customerDelivered db c.key)) (Sql.mem_join.mpr ⟨hc,
        (mem_deliveredSums hin).mpr ⟨hdelivered, rfl⟩, by simp⟩)
    by_contra hdiffers
    exact hnone (by simp [hin, differs_eq_true.mpr hdiffers])
  · intro h startWh endWh hrange
    refine List.filter_eq_nil_iff.mpr ?_
    rintro ⟨c, k, sum⟩ hmem hwhere
    obtain ⟨hc, hsum, hon⟩ := Sql.mem_join.mp hmem
    simp only [Bool.and_eq_true] at hwhere
    obtain rfl : c.key = k := by simpa using hon
    obtain ⟨hdelivered, rfl⟩ := (mem_deliveredSums hwhere.1).mp hsum
    refine differs_eq_true.mp hwhere.2 (h c hc ?_ hdelivered)
    exact (mem_ranges 10 (by decide)).mpr ⟨_, _, hrange, hwhere.1⟩

/-- For all contents, check 3.3.2.12 passes exactly when its condition holds, if and only if every
customer without a delivered line has the balance that this asks for, or the check finds another
customer. -/
theorem consistencyCheck33212_exact_iff (db : Database) (warehouseCount : Nat) :
    (consistencyCheck33212 db warehouseCount = .ok () ↔
        BalanceMatchesDelivered db warehouseCount) ↔
      (∀ c ∈ db.customer, Checked warehouseCount c.cWId → ¬HasDelivered db c.key →
          c.cBalance + c.cYtdPayment = 0) ∨
        ∃ c ∈ db.customer, Checked warehouseCount c.cWId ∧ HasDelivered db c.key ∧
          c.cBalance + c.cYtdPayment ≠ customerDelivered db c.key := by
  have hdomain : ∀ condition : Customer → Prop,
      (∀ c ∈ db.customer, Checked warehouseCount c.cWId → condition c) ↔
        ∀ c, (c ∈ db.customer ∧ Checked warehouseCount c.cWId) → condition c :=
    fun condition => forall_congr' fun c => and_imp.symm
  rw [consistencyCheck33212_ok, BalanceMatchesDelivered, hdomain, hdomain, exact_iff, hdomain]
  refine or_congr (forall₂_congr fun c _ => forall_congr' fun hnone => ?_)
    (exists_congr fun c => and_assoc)
  rw [customerDelivered_of_none hnone]

/-- A customer without orders whose balance is not the negative of the payments. -/
def unbalanced : Database where
  warehouse := []
  district := []
  customer := [⟨1, 1, 1, "", "", "GC", 500, 1000, 1, 0, ""⟩]
  history := []
  oorder := []
  newOrder := []
  orderLine := []
  item := []
  stock := []

theorem consistencyCheck33212_passes_unbalanced :
    consistencyCheck33212 unbalanced 1 = .ok () ∧ ¬BalanceMatchesDelivered unbalanced 1 := by
  refine ⟨rfl, fun h => ?_⟩
  have hbalance := h ⟨1, 1, 1, "", "", "GC", 500, 1000, 1, 0, ""⟩ (by simp [unbalanced])
    ⟨by decide, by decide⟩
  exact absurd hbalance (by decide)

end Balance

end Tpcc.Check
