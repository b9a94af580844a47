import Mathlib.Algebra.BigOperators.Group.List.Basic
import Mathlib.Algebra.GroupWithZero.Nat
import Mathlib.Algebra.Ring.Int.Defs
import Mathlib.Data.List.Dedup

/-! Queries over lists of rows: groups, joins, and conditions that may be `NULL`. -/

namespace Tpcc.Lib.Sql

variable {α β κ : Type}

/-- `GROUP BY`, each group with its key. -/
def groupBy [DecidableEq κ] (key : α → κ) (rows : List α) : List (κ × List α) :=
  (rows.map key).dedup.map fun k => (k, rows.filter fun r => key r = k)

/-- `JOIN`. -/
def join (on : α → β → Bool) (rows : List α) (rows' : List β) : List (α × β) :=
  rows.flatMap fun r => (rows'.filter (on r)).map fun r' => (r, r')

/-- `LEFT JOIN`; the columns of a row without a partner are `NULL`. -/
def leftJoin (on : α → β → Bool) (rows : List α) (rows' : List β) : List (α × Option β) :=
  rows.flatMap fun r =>
    match rows'.filter (on r) with
    | [] => [(r, none)]
    | partner :: partners => (partner :: partners).map fun r' => (r, some r')

/-- `<>`, which is `NULL` when a side is. -/
def ne [DecidableEq α] : Option α → Option α → Option Bool
  | some a, some b => some (decide (a ≠ b))
  | _, _ => none

/-- `OR` with `NULL` as a third truth value. -/
def or : Option Bool → Option Bool → Option Bool
  | some true, _ => some true
  | _, some true => some true
  | some false, some false => some false
  | _, _ => none

section Group

variable [DecidableEq κ] {key : α → κ} {rows : List α} {k : κ} {group : List α}

theorem mem_groupBy :
    (k, group) ∈ groupBy key rows ↔
      (∃ r ∈ rows, key r = k) ∧ group = rows.filter fun r => key r = k := by
  simp only [groupBy, List.mem_map, List.mem_dedup, Prod.mk.injEq]
  constructor
  · rintro ⟨k', hk', rfl, rfl⟩
    exact ⟨hk', rfl⟩
  · rintro ⟨hk, rfl⟩
    exact ⟨k, hk, rfl, rfl⟩

/-- A group with what a query selects of it. -/
theorem mem_map_groupBy {f : κ × List α → β} {b : β} :
    b ∈ (groupBy key rows).map f ↔
      ∃ r ∈ rows, b = f (key r, rows.filter fun r' => key r' = key r) := by
  rw [List.mem_map]
  constructor
  · rintro ⟨⟨k, group⟩, hgroup, rfl⟩
    obtain ⟨⟨r, hr, rfl⟩, rfl⟩ := mem_groupBy.mp hgroup
    exact ⟨r, hr, rfl⟩
  · rintro ⟨r, hr, rfl⟩
    exact ⟨_, mem_groupBy.mpr ⟨⟨r, hr, rfl⟩, rfl⟩, rfl⟩

end Group

section Join

variable {on : α → β → Bool} {rows : List α} {rows' : List β}

theorem mem_join {r : α} {r' : β} :
    (r, r') ∈ join on rows rows' ↔ r ∈ rows ∧ r' ∈ rows' ∧ on r r' = true := by
  simp only [join, List.mem_flatMap, List.mem_map, List.mem_filter, Prod.mk.injEq]
  constructor
  · rintro ⟨a, ha, b, hb, rfl, rfl⟩
    exact ⟨ha, hb⟩
  · rintro ⟨hr, hr'⟩
    exact ⟨r, hr, r', hr', rfl, rfl⟩

/-- A row of a left join has a partner, or there is none. -/
theorem mem_leftJoin {r : α} {partner : Option β} :
    (r, partner) ∈ leftJoin on rows rows' ↔ r ∈ rows ∧
      match partner with
      | some r' => r' ∈ rows' ∧ on r r' = true
      | none => ∀ r' ∈ rows', on r r' = false := by
  rw [leftJoin, List.mem_flatMap]
  have hrow : ∀ a, ((r, partner) ∈
      match rows'.filter (on a) with
      | [] => [(a, none)]
      | first :: others => (first :: others).map fun r' => (a, some r')) ↔
      r = a ∧
        match partner with
        | some r' => r' ∈ rows' ∧ on r r' = true
        | none => ∀ r' ∈ rows', on r r' = false := by
    intro a
    cases hpartners : rows'.filter (on a) with
    | nil =>
      have hnone : ∀ r' ∈ rows', on a r' = false := by
        intro r' hr'
        simpa using List.filter_eq_nil_iff.mp hpartners r' hr'
      cases partner with
      | none =>
        simp only [List.mem_singleton, Prod.mk.injEq, and_true]
        exact ⟨fun h => ⟨h, h ▸ hnone⟩, fun h => h.1⟩
      | some r' =>
        simp only [List.mem_singleton, Prod.mk.injEq, reduceCtorEq, and_false, false_iff]
        rintro ⟨rfl, hr', hon⟩
        rw [hnone r' hr'] at hon
        cases hon
    | cons first others =>
      have hmem : ∀ r', r' ∈ first :: others ↔ r' ∈ rows' ∧ on a r' = true := by
        intro r'
        rw [← hpartners, List.mem_filter]
      cases partner with
      | none =>
        simp only [List.mem_map, Prod.mk.injEq, reduceCtorEq, and_false, exists_false, false_iff]
        rintro ⟨rfl, hnone⟩
        obtain ⟨hfirst, hon⟩ := (hmem first).mp List.mem_cons_self
        rw [hnone first hfirst] at hon
        cases hon
      | some r' =>
        simp only [List.mem_map, Prod.mk.injEq, Option.some_inj]
        constructor
        · rintro ⟨b, hb, rfl, rfl⟩
          exact ⟨rfl, (hmem b).mp hb⟩
        · rintro ⟨rfl, hr'⟩
          exact ⟨r', (hmem r').mpr hr', rfl, rfl⟩
  constructor
  · rintro ⟨a, ha, h⟩
    obtain ⟨rfl, hpartner⟩ := (hrow a).mp h
    exact ⟨ha, hpartner⟩
  · rintro ⟨hr, hpartner⟩
    exact ⟨r, hr, (hrow r).mpr ⟨rfl, hpartner⟩⟩

/-- Every row is in its left joins. -/
theorem exists_mem_leftJoin (on : α → β → Bool) (rows' : List β) {r : α} (hr : r ∈ rows) :
    ∃ partner, (r, partner) ∈ leftJoin on rows rows' := by
  by_cases hpartner : ∃ r' ∈ rows', on r r' = true
  · obtain ⟨r', hr', hon⟩ := hpartner
    exact ⟨some r', mem_leftJoin.mpr ⟨hr, hr', hon⟩⟩
  · refine ⟨none, mem_leftJoin.mpr ⟨hr, fun r' hr' => ?_⟩⟩
    by_contra htrue
    exact hpartner ⟨r', hr', by simpa using htrue⟩

/-- A left join of which the rows without a partner are selected. -/
theorem antiJoin_eq_nil (p : α → Bool) :
    ((leftJoin on rows rows').filter fun r => p r.1 && r.2.isNone) = [] ↔
      ∀ r ∈ rows, p r = true → ∃ r' ∈ rows', on r r' = true := by
  rw [List.filter_eq_nil_iff]
  constructor
  · intro h r hr hp
    by_contra hnone
    refine h (r, none) (mem_leftJoin.mpr ⟨hr, fun r' hr' => ?_⟩) (by simp [hp])
    by_contra htrue
    exact hnone ⟨r', hr', by simpa using htrue⟩
  · rintro h ⟨r, partner⟩ hmem hwhere
    simp only [Bool.and_eq_true, Option.isNone_iff_eq_none] at hwhere
    obtain ⟨hp, rfl⟩ := hwhere
    obtain ⟨hr, hnone⟩ := mem_leftJoin.mp hmem
    obtain ⟨r', hr', hon⟩ := h r hr hp
    rw [hnone r' hr'] at hon
    cases hon

/-- The total of a column of the second table over a join, row by row of the first table. -/
theorem sum_join {p : α → Bool} {q : β → Bool} {g : β → Int} :
    (((join on rows rows').filter fun (r, r') => p r && q r').map fun (_, r') => g r').sum =
      ((rows.filter p).map fun r => ((rows'.filter fun r' => on r r' && q r').map g).sum).sum := by
  induction rows with
  | nil => rfl
  | cons r rows ih =>
    have hrow : ((((rows'.filter (on r)).map fun r' => (r, r')).filter
        fun (r, r') => p r && q r').map fun (_, r') => g r').sum =
        if p r then ((rows'.filter fun r' => on r r' && q r').map g).sum else 0 := by
      rw [List.filter_map, List.map_map, List.filter_filter]
      cases hp : p r with
      | true => simp [hp, Function.comp_def, Bool.and_comm]
      | false => simp [hp, Function.comp_def]
    have hcons : join on (r :: rows) rows' =
        (rows'.filter (on r)).map (fun r' => (r, r')) ++ join on rows rows' := rfl
    rw [hcons, List.filter_append, List.map_append, List.sum_append, ih, hrow]
    cases hp : p r with
    | true => simp [hp]
    | false => simp [hp]

end Join

section GroupJoin

variable {γ : Type} [DecidableEq κ] {key : α → κ} {select : List α → γ} {rows : List α}

/-- `GROUP BY` with what is selected of each group. -/
def groups (key : α → κ) (select : List α → γ) (rows : List α) : List (κ × γ) :=
  (groupBy key rows).map fun group => (group.1, select group.2)

/-- What is selected of the group with a key, when there are rows in it. -/
def groupOf (key : α → κ) (select : List α → γ) (rows : List α) (k : κ) : Option (κ × γ) :=
  match rows.filter fun r => key r = k with
  | [] => none
  | r :: group => some (k, select (r :: group))

theorem groupOf_eq_none {k : κ} (h : rows.filter (fun r => key r = k) = []) :
    groupOf key select rows k = none := by
  rw [groupOf, h]

theorem groupOf_eq_some {k : κ} (h : rows.filter (fun r => key r = k) ≠ []) :
    groupOf key select rows k = some (k, select (rows.filter fun r => key r = k)) := by
  rw [groupOf]
  cases hgroup : rows.filter fun r => key r = k with
  | nil => exact absurd hgroup h
  | cons r group => rfl

/-- `COALESCE` of what is selected of a group with what would be selected of no rows. -/
theorem groupOf_getD {k : κ} :
    ((groupOf key select rows k).map Prod.snd).getD (select []) =
      select (rows.filter fun r => key r = k) := by
  by_cases hempty : rows.filter (fun r => key r = k) = []
  · rw [groupOf_eq_none hempty, hempty]
    rfl
  · rw [groupOf_eq_some hempty]
    rfl

/-- The groups with the key of a row. -/
theorem mem_groups {k : κ} {g : κ × γ} :
    g ∈ groups key select rows ∧ k = g.1 ↔ groupOf key select rows k = some g := by
  constructor
  · rintro ⟨hg, rfl⟩
    obtain ⟨r, hr, rfl⟩ := mem_map_groupBy.mp hg
    exact groupOf_eq_some (List.ne_nil_of_mem (List.mem_filter.mpr ⟨hr, by simp⟩))
  · intro hg
    by_cases hempty : rows.filter (fun r => key r = k) = []
    · rw [groupOf_eq_none hempty] at hg
      cases hg
    · rw [groupOf_eq_some hempty] at hg
      obtain ⟨r, hr⟩ := List.exists_mem_of_ne_nil _ hempty
      obtain ⟨hr, hkey⟩ := List.mem_filter.mp hr
      obtain rfl := Option.some.inj hg
      exact ⟨List.mem_map.mpr ⟨_, mem_groupBy.mpr ⟨⟨r, hr, of_decide_eq_true hkey⟩, rfl⟩, rfl⟩, rfl⟩

/-- A left join with the groups takes the group of the row's key, or `NULL` when it is empty. -/
theorem mem_leftJoin_groups {on : β → κ × γ → Bool} {rows' : List β} (of : β → κ)
    (hon : ∀ r g, on r g = true ↔ of r = g.1) {r : β} {partner : Option (κ × γ)} :
    (r, partner) ∈ leftJoin on rows' (groups key select rows) ↔
      r ∈ rows' ∧ partner = groupOf key select rows (of r) := by
  rw [mem_leftJoin]
  refine and_congr_right fun _ => ?_
  cases partner with
  | some g =>
    change g ∈ groups key select rows ∧ on r g = true ↔ some g = groupOf key select rows (of r)
    rw [hon, mem_groups, eq_comm]
  | none =>
    change (∀ g ∈ groups key select rows, on r g = false) ↔ none = groupOf key select rows (of r)
    constructor
    · intro hnone
      cases hgroup : groupOf key select rows (of r) with
      | none => rfl
      | some g =>
        obtain ⟨hmem, hkey⟩ := mem_groups.mpr hgroup
        have hfalse := hnone g hmem
        rw [(hon r g).mpr hkey] at hfalse
        cases hfalse
    · intro hnone g hmem
      by_contra htrue
      have hsome := mem_groups.mp ⟨hmem, (hon r g).mp (by simpa using htrue)⟩
      rw [← hnone] at hsome
      cases hsome

section FullJoin

variable {key' : β → κ} {select' : List β → γ} {rows' : List β} {k : κ}

/-- Two tables select the same of a key, where an absent group counts as an empty one. -/
theorem groupOf_eq_groupOf (hnil : select [] = select' [])
    (h : rows.filter (fun r => key r = k) ≠ [] →
      select (rows.filter fun r => key r = k) ≠ select [])
    (h' : rows'.filter (fun r => key' r = k) ≠ [] →
      select' (rows'.filter fun r => key' r = k) ≠ select' []) :
    groupOf key select rows k = groupOf key' select' rows' k ↔
      select (rows.filter fun r => key r = k) = select' (rows'.filter fun r => key' r = k) := by
  by_cases hempty : rows.filter (fun r => key r = k) = []
  · by_cases hempty' : rows'.filter (fun r => key' r = k) = []
    · rw [groupOf_eq_none hempty, groupOf_eq_none hempty', hempty, hempty', hnil]
      exact iff_of_true rfl rfl
    · rw [groupOf_eq_none hempty, groupOf_eq_some hempty', hempty, hnil]
      exact iff_of_false (by simp) fun heq => h' hempty' heq.symm
  · by_cases hempty' : rows'.filter (fun r => key' r = k) = []
    · rw [groupOf_eq_some hempty, groupOf_eq_none hempty', hempty', ← hnil]
      exact iff_of_false (by simp) (h hempty)
    · rw [groupOf_eq_some hempty, groupOf_eq_some hempty']
      simp

/-- A left join with a sentinel for the absent groups, together with the groups that only the second
table has, is a full join. -/
theorem fullJoin_iff (sentinel : γ) (hsentinel : ∀ group, select group ≠ sentinel) :
    ((∀ g ∈ groups key select rows,
        g.2 = ((groupOf key' select' rows' g.1).map Prod.snd).getD sentinel) ∧
      ∀ g ∈ groups key' select' rows', groupOf key select rows g.1 ≠ none) ↔
      ∀ k, groupOf key select rows k = groupOf key' select' rows' k := by
  constructor
  · rintro ⟨hleft, hright⟩ k
    cases hgroup : groupOf key select rows k with
    | none =>
      cases hgroup' : groupOf key' select' rows' k with
      | none => rfl
      | some g =>
        obtain ⟨hg, rfl⟩ := mem_groups.mpr hgroup'
        exact absurd hgroup (hright g hg)
    | some g =>
      obtain ⟨hg, rfl⟩ := mem_groups.mpr hgroup
      have hvalue := hleft g hg
      cases hgroup' : groupOf key' select' rows' g.1 with
      | none =>
        obtain ⟨group, -, rfl⟩ := List.mem_map.mp hg
        rw [hgroup'] at hvalue
        exact absurd hvalue (hsentinel group.2)
      | some g' =>
        rw [hgroup'] at hvalue
        exact congrArg some (Prod.ext (mem_groups.mpr hgroup').2 hvalue)
  · intro h
    refine ⟨fun g hg => ?_, fun g hg => ?_⟩
    · rw [← h, mem_groups.mp ⟨hg, rfl⟩]
      rfl
    · rw [h, mem_groups.mp ⟨hg, rfl⟩]
      simp

end FullJoin

end GroupJoin

end Tpcc.Lib.Sql
