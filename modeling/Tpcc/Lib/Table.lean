import Mathlib.Algebra.BigOperators.Group.List.Basic
import Mathlib.Algebra.GroupWithZero.Nat
import Mathlib.Algebra.Ring.Int.Defs
import Mathlib.Data.List.Induction
import Mathlib.Data.List.Nodup
import Mathlib.Data.List.Perm.Basic

/-! Tables as lists of rows with keys: update of the rows with a key, insertion of a row with a new
key, totals over the rows of a group, and tables that are built block by block. -/

namespace Tpcc.Lib.Table

variable {α κ ι : Type} [DecidableEq κ]

/-- Changes the rows with key `k`. -/
def update (key : α → κ) (k : κ) (f : α → α) (rows : List α) : List α :=
  rows.map fun r => if key r = k then f r else r

/-- Adds a row unless its key exists. -/
def insert (key : α → κ) (row : α) (rows : List α) : Option (List α) :=
  if rows.any fun r => key r = key row then none else some (rows ++ [row])

/-- The first row with key `k`. -/
def lookup (key : α → κ) (k : κ) (rows : List α) : Option α := rows.find? fun r => key r = k

/-- The total of `g` over the rows of a group. -/
def total (p : α → Bool) (g : α → Int) (rows : List α) : Int := ((rows.filter p).map g).sum

section Update

variable {key : α → κ} {k : κ} {f : α → α} {rows : List α}

theorem mem_update {r : α} :
    r ∈ update key k f rows ↔ ∃ r' ∈ rows, (if key r' = k then f r' else r') = r := List.mem_map

/-- An update that keeps a column keeps the list of its values. -/
theorem map_update {β : Type} {column : α → β} (h : ∀ r, column (f r) = column r) :
    (update key k f rows).map column = rows.map column := by
  rw [update, List.map_map]
  refine List.map_congr_left fun r _ => ?_
  by_cases hk : key r = k
  · simp [hk, h]
  · simp [hk]

/-- An update seen through a column that the update can be told from. -/
theorem map_update_comm {β : Type} {column : α → β} {key' : β → κ} {f' : β → β}
    (hkey : ∀ r, key' (column r) = key r) (hf : ∀ r, column (f r) = f' (column r)) :
    (update key k f rows).map column = update key' k f' (rows.map column) := by
  rw [update, update, List.map_map, List.map_map]
  refine List.map_congr_left fun r _ => ?_
  by_cases hk : key r = k
  · simp [hk, hkey, hf]
  · simp [hk, hkey]

/-- An update that keeps a condition, and the rows that satisfy it. -/
theorem filter_update {p : α → Bool} (h : ∀ r, p (f r) = p r) :
    (update key k f rows).filter p = update key k f (rows.filter p) := by
  rw [update, List.filter_map]
  have hp : (p ∘ fun r => if key r = k then f r else r) = p := by
    funext r
    by_cases hk : key r = k
    · simp [hk, h]
    · simp [hk]
  rw [hp]
  rfl

theorem update_eq_self (h : ∀ r ∈ rows, key r ≠ k) : update key k f rows = rows := by
  rw [update, List.map_congr_left fun r hr => if_neg (h r hr)]
  exact List.map_id rows

/-- What holds of the old rows and is kept by the update holds of the new rows. -/
theorem forall_update {P : α → Prop} (h : ∀ r ∈ rows, if key r = k then P (f r) else P r) :
    ∀ r ∈ update key k f rows, P r := by
  intro r hr
  obtain ⟨r', hr', rfl⟩ := mem_update.1 hr
  have hP := h r' hr'
  by_cases hk : key r' = k
  · simpa [hk] using hP
  · simpa [hk] using hP

theorem insert_eq_some {row : α} {rows' : List α} (h : insert key row rows = some rows') :
    rows' = rows ++ [row] ∧ key row ∉ rows.map key := by
  unfold insert at h
  split at h
  · cases h
  · next hany =>
    refine ⟨(Option.some.inj h).symm, fun hmem => hany ?_⟩
    obtain ⟨r, hr, hkey⟩ := List.mem_map.1 hmem
    exact List.any_eq_true.2 ⟨r, hr, decide_eq_true hkey⟩

theorem insert_of_not_mem {row : α} (h : key row ∉ rows.map key) :
    insert key row rows = some (rows ++ [row]) := by
  unfold insert
  rw [if_neg]
  intro hany
  obtain ⟨r, hr, hkey⟩ := List.any_eq_true.1 hany
  exact h (List.mem_map.2 ⟨r, hr, of_decide_eq_true hkey⟩)

omit [DecidableEq κ] in
theorem nodup_append_of_not_mem {row : α} (hnodup : (rows.map key).Nodup)
    (h : key row ∉ rows.map key) : ((rows ++ [row]).map key).Nodup := by
  rw [List.map_append, List.map_singleton]
  exact hnodup.append (List.nodup_singleton _) (List.disjoint_singleton.2 h)

theorem lookup_eq_some {r : α} (h : lookup key k rows = some r) : r ∈ rows ∧ key r = k :=
  ⟨List.mem_of_find?_eq_some h, by simpa using List.find?_some h⟩

theorem lookup_isSome : (lookup key k rows).isSome ↔ k ∈ rows.map key := by
  simp [lookup, List.find?_isSome]

theorem lookup_eq_none : lookup key k rows = none ↔ k ∉ rows.map key := by
  simp [lookup]

omit [DecidableEq κ] in
/-- Two rows with the same key are one row. -/
theorem eq_of_key {r r' : α} (hnodup : (rows.map key).Nodup) (hr : r ∈ rows) (hr' : r' ∈ rows)
    (h : key r = key r') : r = r' := List.inj_on_of_nodup_map hnodup hr hr' h

theorem lookup_of_mem {r : α} (hnodup : (rows.map key).Nodup) (hr : r ∈ rows) (hk : key r = k) :
    lookup key k rows = some r := by
  obtain ⟨r', hr'⟩ := Option.isSome_iff_exists.1
    (lookup_isSome.2 (List.mem_map.2 ⟨r, hr, hk⟩))
  obtain ⟨hmem, hkey⟩ := lookup_eq_some hr'
  rw [hr', eq_of_key hnodup hmem hr (hkey.trans hk.symm)]

end Update

section Upsert

variable {key : α → κ} {k : κ} {row : α} {rows : List α}

/-- Puts a row in the place of the one with its key, or at the end. -/
def upsert (key : α → κ) (row : α) (rows : List α) : List α :=
  if key row ∈ rows.map key then update key (key row) (fun _ => row) rows else rows ++ [row]

theorem map_key_upsert :
    (upsert key row rows).map key =
      if key row ∈ rows.map key then rows.map key else rows.map key ++ [key row] := by
  unfold upsert
  by_cases hmem : key row ∈ rows.map key
  · rw [if_pos hmem, if_pos hmem, update, List.map_map]
    refine List.map_congr_left fun r _ => ?_
    by_cases hr : key r = key row
    · simp [hr]
    · simp [hr]
  · rw [if_neg hmem, if_neg hmem, List.map_append, List.map_singleton]

theorem nodup_upsert (hnodup : (rows.map key).Nodup) : ((upsert key row rows).map key).Nodup := by
  rw [map_key_upsert]
  split
  · exact hnodup
  · next hmem => exact hnodup.append (List.nodup_singleton _) (List.disjoint_singleton.2 hmem)

/-- A row after an update that keeps its key. -/
theorem lookup_update {κ' : Type} [DecidableEq κ'] {key' : α → κ'} {k' : κ'} {f : α → α}
    (hf : ∀ r, key' r = k' → key (f r) = key r) :
    lookup key k (update key' k' f rows) =
      (lookup key k rows).map fun r => if key' r = k' then f r else r := by
  have hkey : ∀ r, key (if key' r = k' then f r else r) = key r := by
    intro r
    by_cases hr : key' r = k'
    · rw [if_pos hr, hf r hr]
    · rw [if_neg hr]
  rw [lookup, update, List.find?_map, lookup]
  simp only [Function.comp_def, hkey]

theorem lookup_append : lookup key k (rows ++ [row]) =
    (lookup key k rows).or (if key row = k then some row else none) := by
  rw [lookup, List.find?_append, lookup]
  by_cases hk : key row = k
  · simp [hk]
  · simp [hk]

theorem lookup_delete {k' : κ} : lookup key k (rows.filter fun r => key r ≠ k') =
    if k = k' then none else lookup key k rows := by
  by_cases hk : k = k'
  · rw [if_pos hk, lookup_eq_none]
    intro hmem
    obtain ⟨r, hr, hkey⟩ := List.mem_map.1 hmem
    have hne := (List.mem_filter.1 hr).2
    simp [hkey, hk] at hne
  · rw [if_neg hk, lookup, List.find?_filter, lookup]
    congr 1
    funext r
    by_cases hr : key r = k
    · simp [hr, hk]
    · simp [hr]

theorem lookup_upsert :
    lookup key k (upsert key row rows) = if key row = k then some row else lookup key k rows := by
  unfold upsert
  by_cases hmem : key row ∈ rows.map key
  · rw [if_pos hmem, lookup_update fun r hr => hr.symm]
    by_cases hk : key row = k
    · obtain ⟨r, hr⟩ := Option.isSome_iff_exists.1 (lookup_isSome.2 (hk ▸ hmem))
      rw [if_pos hk, hr, Option.map_some, if_pos ((lookup_eq_some hr).2.trans hk.symm)]
    · rw [if_neg hk]
      cases hr : lookup key k rows with
      | none => rfl
      | some r => rw [Option.map_some, if_neg fun hkey => hk (hkey.symm.trans (lookup_eq_some hr).2)]
  · rw [if_neg hmem, lookup_append]
    by_cases hk : key row = k
    · rw [if_pos hk, if_pos hk, lookup_eq_none.2 (hk ▸ hmem), Option.none_or]
    · rw [if_neg hk, if_neg hk, Option.or_none]

/-- An update of the row with a key puts one row. -/
theorem update_eq_upsert {f : α → α} {r : α} (hnodup : (rows.map key).Nodup)
    (hf : key (f r) = key r) (hr : lookup key k rows = some r) :
    update key k f rows = upsert key (f r) rows := by
  obtain ⟨hmem, hk⟩ := lookup_eq_some hr
  rw [upsert, if_pos (List.mem_map.2 ⟨r, hmem, hf.symm⟩), hf, hk]
  refine List.map_congr_left fun r' hr' => ?_
  by_cases hk' : key r' = k
  · rw [if_pos hk', if_pos hk', eq_of_key hnodup hr' hmem (hk'.trans hk.symm)]
  · rw [if_neg hk', if_neg hk']

theorem upsert_of_not_mem (h : key row ∉ rows.map key) : upsert key row rows = rows ++ [row] :=
  if_neg h

/-- The rows of a group, when the key decides the group. -/
theorem filter_upsert {p : α → Bool} (hp : ∀ r r', key r = key r' → p r = p r') :
    (upsert key row rows).filter p =
      if p row then upsert key row (rows.filter p) else rows.filter p := by
  unfold upsert
  by_cases hmem : key row ∈ rows.map key
  · have hupdate : ∀ l : List α, (update key (key row) (fun _ => row) l).filter p =
        update key (key row) (fun _ => row) (l.filter p) := by
      intro l
      rw [update, List.filter_map, update]
      have hsame : (p ∘ fun r => if key r = key row then row else r) = p := by
        funext r
        by_cases hr : key r = key row
        · simp [hr, hp r row hr]
        · simp [hr]
      rw [hsame]
    rw [if_pos hmem, hupdate]
    by_cases hrow : p row = true
    · rw [if_pos hrow, if_pos]
      obtain ⟨r, hr, hkey⟩ := List.mem_map.1 hmem
      exact List.mem_map.2 ⟨r, List.mem_filter.2 ⟨hr, (hp r row hkey).trans hrow⟩, hkey⟩
    · rw [if_neg hrow, update_eq_self]
      intro r hr hkey
      exact hrow ((hp r row hkey).symm.trans (List.mem_filter.1 hr).2)
  · rw [if_neg hmem, List.filter_append]
    by_cases hrow : p row = true
    · rw [if_pos hrow, if_neg]
      · simp [hrow]
      · intro hmem'
        obtain ⟨r, hr, hkey⟩ := List.mem_map.1 hmem'
        exact hmem (List.mem_map.2 ⟨r, List.mem_of_mem_filter hr, hkey⟩)
    · simp [hrow]

/-- An update of rows puts them one after the other. -/
theorem map_eq_foldl_upsert {f : α → α} {changed : List α} (hnodup : (rows.map key).Nodup)
    (hf : ∀ r, key (f r) = key r) (hchanged : changed ⊆ rows) :
    (changed.map f).foldl (fun rows r => upsert key r rows) rows =
      rows.map fun r => if key r ∈ changed.map key then f r else r := by
  induction changed using List.reverseRecOn with
  | nil => simp
  | append_singleton changed row ih =>
    have hrow : row ∈ rows := hchanged (by simp)
    have hkeys : (rows.map fun r => if key r ∈ changed.map key then f r else r).map key =
        rows.map key := by
      rw [List.map_map]
      refine List.map_congr_left fun r _ => ?_
      by_cases hr : key r ∈ changed.map key
      · rw [Function.comp_apply, if_pos hr, hf]
      · rw [Function.comp_apply, if_neg hr]
    rw [List.map_append, List.map_singleton, List.foldl_append,
      ih fun r hr => hchanged (List.mem_append_left _ hr), List.foldl_cons, List.foldl_nil, upsert,
      if_pos (by rw [hkeys, hf]; exact List.mem_map_of_mem hrow), update, List.map_map]
    refine List.map_congr_left fun r hr => ?_
    have hkey : key (if key r ∈ changed.map key then f r else r) = key r := by
      by_cases hr : key r ∈ changed.map key
      · rw [if_pos hr, hf]
      · rw [if_neg hr]
    rw [Function.comp_apply, hkey, hf, List.map_append, List.map_singleton]
    by_cases hsame : key r = key row
    · rw [if_pos hsame, if_pos (List.mem_append_right _ (List.mem_singleton.2 hsame)),
        eq_of_key hnodup hr hrow hsame]
    · simp [hsame]

/-- The rows of a table are told by its keys and what is found with them. -/
theorem eq_of_lookup {rows' : List α} (hnodup : (rows.map key).Nodup)
    (hnodup' : (rows'.map key).Nodup) (hkeys : rows'.map key = rows.map key)
    (h : ∀ k ∈ rows.map key, lookup key k rows' = lookup key k rows) : rows' = rows := by
  have hsome : ∀ l : List α, (l.map key).Nodup →
      l.map some = (l.map key).map fun k => lookup key k l := by
    intro l hl
    rw [List.map_map]
    exact List.map_congr_left fun r hr => (lookup_of_mem hl hr rfl).symm
  refine List.map_injective_iff.2 (fun _ _ heq => Option.some.inj heq) ?_
  rw [hsome rows' hnodup', hsome rows hnodup, hkeys]
  exact List.map_congr_left h

end Upsert

section Total

omit [DecidableEq κ]

variable {p : α → Bool} {g : α → Int} {rows : List α}

@[simp] theorem total_nil : total p g [] = 0 := rfl

theorem total_cons (r : α) :
    total p g (r :: rows) = (if p r then g r else 0) + total p g rows := by
  by_cases h : p r = true
  · simp [total, h]
  · simp [total, h]

theorem total_append (rows' : List α) : total p g (rows ++ rows') = total p g rows + total p g rows' := by
  simp [total]

theorem total_congr {rows' : List α} {p' : α → Bool} {g' : α → Int}
    (h : rows.map (fun r => if p r then g r else 0) =
      rows'.map fun r => if p' r then g' r else 0) : total p g rows = total p' g' rows' := by
  have hsum : ∀ (l : List α) (q : α → Bool) (v : α → Int),
      total q v l = (l.map fun r => if q r then v r else 0).sum := by
    intro l q v
    induction l with
    | nil => rfl
    | cons r l ih => rw [total_cons, List.map_cons, List.sum_cons, ih]
  rw [hsum, hsum, h]

theorem total_eq_zero (h : ∀ r ∈ rows, p r = true → g r = 0) : total p g rows = 0 := by
  induction rows with
  | nil => rfl
  | cons r rows ih =>
    rw [total_cons, ih fun r' hr' => h r' (List.mem_cons_of_mem r hr')]
    by_cases hp : p r = true
    · simp [hp, h r List.mem_cons_self hp]
    · simp [hp]

end Total

/-- Changing the one row with a key changes the total of its group by the difference. -/
theorem total_update {key : α → κ} {k : κ} {f : α → α} {rows : List α} {p : α → Bool}
    {g : α → Int} {delta : Int} (hnodup : (rows.map key).Nodup) {r : α} (hr : r ∈ rows)
    (hk : key r = k) (hp : ∀ r, p (f r) = p r) (hg : g (f r) = g r + delta) :
    total p g (update key k f rows) = total p g rows + if p r then delta else 0 := by
  induction rows with
  | nil => cases hr
  | cons a rows ih =>
    rw [List.map_cons, List.nodup_cons] at hnodup
    simp only [update, List.map_cons, total_cons]
    rcases List.mem_cons.1 hr with rfl | hmem
    · have hrest : List.map (fun r => if key r = k then f r else r) rows = rows :=
        update_eq_self fun a ha hkey => hnodup.1 (List.mem_map.2 ⟨a, ha, hkey.trans hk.symm⟩)
      rw [if_pos hk, hp, hrest]
      by_cases hpr : p r = true
      · simp only [hpr, if_true, hg]
        omega
      · simp [hpr]
    · have hne : ¬key a = k := by
        intro hkey
        exact hnodup.1 (List.mem_map.2 ⟨r, hmem, hk.trans hkey.symm⟩)
      have hrest := ih hnodup.2 hmem
      unfold update at hrest
      rw [if_neg hne, hrest]
      omega

/-- The total over the one row with a key. -/
theorem total_key {key : α → κ} {k : κ} {rows : List α} {g : α → Int}
    (hnodup : (rows.map key).Nodup) {r : α} (hr : r ∈ rows) (hk : key r = k) :
    total (fun r => key r = k) g rows = g r := by
  induction rows with
  | nil => cases hr
  | cons a rows ih =>
    rw [List.map_cons, List.nodup_cons] at hnodup
    rw [total_cons]
    rcases List.mem_cons.1 hr with rfl | hmem
    · have hrest : total (fun r => key r = k) g rows = 0 := total_eq_zero fun a ha hp => by
        have hkey : key a = k := by simpa using hp
        exact absurd (List.mem_map.2 ⟨a, ha, hkey.trans hk.symm⟩) hnodup.1
      simp [hk, hrest]
    · have hne : ¬key a = k := by
        intro hkey
        exact hnodup.1 (List.mem_map.2 ⟨r, hmem, hk.trans hkey.symm⟩)
      rw [ih hnodup.2 hmem]
      simp [hne]

/-- Totals of two columns that differ in the one row with a key. -/
theorem total_add_at {key : α → κ} {k : κ} {rows : List α} {p : α → Bool} {g g' : α → Int}
    {delta : Int} (hnodup : (rows.map key).Nodup) {r : α} (hr : r ∈ rows) (hk : key r = k)
    (hg : ∀ r, g' r = g r + if key r = k then delta else 0) :
    total p g' rows = total p g rows + if p r then delta else 0 := by
  induction rows with
  | nil => cases hr
  | cons a rows ih =>
    rw [List.map_cons, List.nodup_cons] at hnodup
    rw [total_cons, total_cons, hg a]
    rcases List.mem_cons.1 hr with rfl | hmem
    · have hrest : total p g' rows = total p g rows := by
        refine total_congr (List.map_congr_left fun a ha => ?_)
        have hne : ¬key a = k := fun hkey =>
          hnodup.1 (List.mem_map.2 ⟨a, ha, hkey.trans hk.symm⟩)
        have hsame : g' a = g a := by rw [hg a, if_neg hne, Int.add_zero]
        rw [hsame]
      rw [hrest, if_pos hk]
      by_cases hpr : p r = true
      · simp only [hpr, if_true]
        omega
      · simp [hpr]
    · have hne : ¬key a = k := by
        intro hkey
        exact hnodup.1 (List.mem_map.2 ⟨r, hmem, hk.trans hkey.symm⟩)
      rw [ih hnodup.2 hmem, if_neg hne, Int.add_zero]
      omega

section Blocks

variable {block : ι → List α} {key : α → ι} {l : List ι}

/-- The rows with a key, in a table that is built block by block. -/
theorem filter_flatMap [DecidableEq ι] (hnodup : l.Nodup)
    (hkey : ∀ i, ∀ r ∈ block i, key r = i) (i : ι) :
    (l.flatMap block).filter (fun r => key r = i) = if i ∈ l then block i else [] := by
  induction l with
  | nil => rfl
  | cons j l ih =>
    rw [List.nodup_cons] at hnodup
    rw [List.flatMap_cons, List.filter_append, ih hnodup.2]
    by_cases hij : i = j
    · subst hij
      have hall : (block i).filter (fun r => key r = i) = block i :=
        List.filter_eq_self.2 fun r hr => by simpa using hkey i r hr
      rw [hall, if_neg hnodup.1, if_pos List.mem_cons_self, List.append_nil]
    · have hnone : (block j).filter (fun r => key r = i) = [] :=
        List.filter_eq_nil_iff.2 fun r hr => by
          rw [hkey j r hr]
          simpa using Ne.symm hij
      rw [hnone, List.nil_append]
      simp [hij]

theorem mem_blocks (hkey : ∀ i, ∀ r ∈ block i, key r = i) {r : α} :
    r ∈ l.flatMap block ↔ key r ∈ l ∧ r ∈ block (key r) := by
  rw [List.mem_flatMap]
  constructor
  · rintro ⟨i, hi, hr⟩
    rw [hkey i r hr]
    exact ⟨hi, hr⟩
  · rintro ⟨hi, hr⟩
    exact ⟨key r, hi, hr⟩

/-- Keys that extend the keys of the blocks are distinct when they are in each block. -/
theorem nodup_blocks {κ' : Type} {full : α → κ'} (hnodup : l.Nodup)
    (hkey : ∀ i, ∀ r ∈ block i, key r = i) (hfull : ∀ r r', full r = full r' → key r = key r')
    (hblock : ∀ i ∈ l, ((block i).map full).Nodup) : ((l.flatMap block).map full).Nodup := by
  induction l with
  | nil => exact List.nodup_nil
  | cons i l ih =>
    rw [List.nodup_cons] at hnodup
    rw [List.flatMap_cons, List.map_append]
    refine List.Nodup.append (hblock i List.mem_cons_self)
      (ih hnodup.2 fun j hj => hblock j (List.mem_cons_of_mem i hj)) ?_
    intro k hk hk'
    obtain ⟨r, hr, rfl⟩ := List.mem_map.1 hk
    obtain ⟨r', hr', heq⟩ := List.mem_map.1 hk'
    obtain ⟨hmem, -⟩ := (mem_blocks hkey).1 hr'
    rw [hfull r' r heq, hkey i r hr] at hmem
    exact hnodup.1 hmem

end Blocks

/-- The rows whose keys are in a list without duplicates, key by key. -/
theorem flatMap_filter_perm {key : α → κ} {rows : List α} {keys : List κ} (hnodup : keys.Nodup) :
    (keys.flatMap fun k => rows.filter fun r => key r = k).Perm
      (rows.filter fun r => key r ∈ keys) := by
  induction keys with
  | nil => simp
  | cons k keys ih =>
    rw [List.nodup_cons] at hnodup
    have hsplit := List.filter_append_perm (fun r => decide (key r = k))
      (rows.filter fun r => key r ∈ k :: keys)
    have hfirst : ((rows.filter fun r => key r ∈ k :: keys).filter fun r => key r = k) =
        rows.filter fun r => key r = k := by
      rw [List.filter_filter]
      refine List.filter_congr fun r _ => ?_
      by_cases hk : key r = k
      · simp [hk]
      · simp [hk]
    have hrest : ((rows.filter fun r => key r ∈ k :: keys).filter fun r => !decide (key r = k)) =
        rows.filter fun r => key r ∈ keys := by
      rw [List.filter_filter]
      refine List.filter_congr fun r _ => ?_
      by_cases hk : key r = k
      · simp [hk, hnodup.1]
      · simp [hk]
    rw [hfirst, hrest] at hsplit
    rw [List.flatMap_cons]
    exact ((ih hnodup.2).append_left _).trans hsplit

/-- The rows whose keys are in a list without duplicates, counted key by key. -/
theorem sum_length_filter {key : α → κ} {rows : List α} {keys : List κ} (hnodup : keys.Nodup) :
    (keys.map fun k => (rows.filter fun r => key r = k).length).sum =
      (rows.filter fun r => key r ∈ keys).length := by
  rw [← (flatMap_filter_perm hnodup).length_eq, List.length_flatMap]

end Tpcc.Lib.Table
