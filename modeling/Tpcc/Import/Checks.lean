import Tpcc.Check.Passes
import Tpcc.Import.Initial

/-! The tables after an import pass all checks, with sums and counts that do not overflow. -/

namespace Tpcc.Import

open Lib Store Transaction Check

section Base

/-- A column with the given bounds, which are attained. -/
theorem checkRange_ok {α β : Type} [LE β] [Min β] [Max β] [DecidableEq β] [Std.IsLinearOrder β]
    [Std.LawfulOrderMin β] [Std.LawfulOrderMax β] {column : String} {rows : List α} {value : α → β}
    {low high : β} {message : β → β → String} (hlow : ∃ r ∈ rows, value r = low)
    (hhigh : ∃ r ∈ rows, value r = high) (hall : ∀ r ∈ rows, low ≤ value r ∧ value r ≤ high) :
    checkRange column (rows.map value) low high message = .ok () := by
  have hmin : (rows.map value).min? = some low := by
    refine List.min?_eq_some_iff.2 ⟨?_, ?_⟩
    · obtain ⟨r, hr, heq⟩ := hlow
      exact heq ▸ List.mem_map_of_mem hr
    · intro b hb
      obtain ⟨r, hr, rfl⟩ := List.mem_map.1 hb
      exact (hall r hr).1
  have hmax : (rows.map value).max? = some high := by
    refine List.max?_eq_some_iff.2 ⟨?_, ?_⟩
    · obtain ⟨r, hr, heq⟩ := hhigh
      exact heq ▸ List.mem_map_of_mem hr
    · intro b hb
      obtain ⟨r, hr, rfl⟩ := List.mem_map.1 hb
      exact (hall r hr).2
  exact checkRange_iff.2 ⟨hmin, hmax⟩

/-- The number of different values of a column. -/
theorem length_dedup {α : Type} [DecidableEq α] {values expected : List α}
    (hnodup : expected.Nodup) (h : ∀ a, a ∈ values ↔ a ∈ expected) :
    values.dedup.length = expected.length := by
  refine List.Perm.length_eq ((List.perm_ext_iff_of_nodup (List.nodup_dedup values) hnodup).2 ?_)
  exact fun a => List.mem_dedup.trans (h a)

end Base

variable {draws : ImportDraws} {warehouseCount : Nat}

section Lengths

theorem length_grid (warehouseCount : Nat) :
    (grid warehouseCount).length = warehouseCount * districtCount := by
  have hblock : ∀ wh : Nat, (districts.map fun d => (wh, d)).length = districtCount := by
    intro wh
    rw [List.length_map]
    rfl
  rw [grid, List.length_flatMap]
  simp only [hblock, List.map_const', List.sum_const_nat, List.length_range']

theorem length_orderGrid (warehouseCount : Nat) :
    (orderGrid warehouseCount).length = warehouseCount * districtCount * customersPerDistrict := by
  rw [orderGrid, List.length_flatMap]
  simp only [List.length_map, List.length_range', List.map_const', List.sum_const_nat,
    length_grid]

theorem length_newOrder :
    (importTables draws warehouseCount).newOrder.length =
      warehouseCount * districtCount * (customersPerDistrict - firstUnprocessedOId + 1) := by
  have hblock : ∀ p : Nat × Nat, (loadNewOrders p.1 p.2).length =
      customersPerDistrict - firstUnprocessedOId + 1 := by
    intro p
    rw [loadNewOrders, List.length_map, List.length_range']
    rfl
  simp only [importTables, List.length_flatMap, hblock, List.map_const', List.sum_const_nat,
    length_grid]

theorem length_stock :
    (importTables draws warehouseCount).stock.length = warehouseCount * itemCount := by
  have hblock : ∀ w, (loadStock draws w).length = itemCount := by
    intro w
    rw [loadStock, List.length_map, List.length_range']
  simp only [importTables, List.length_flatMap, hblock, List.map_const', List.sum_const_nat,
    List.length_range']

end Lengths

section Rows

/-- Every key of the grid has a row. -/
theorem exists_row {α : Type} {rows : List α} {key : α → Nat × Nat × Nat}
    (hkeys : rows.map key = orderGrid warehouseCount) {w d i : Nat}
    (hw : 1 ≤ w ∧ w ≤ warehouseCount) (hd : 1 ≤ d ∧ d ≤ 10)
    (hi : 1 ≤ i ∧ i ≤ customersPerDistrict) : ∃ r ∈ rows, key r = (w, d, i) := by
  have hmem : (w, d, i) ∈ orderGrid warehouseCount := mem_orderGrid.2 ⟨mem_grid.2 ⟨hw, hd⟩, hi⟩
  rw [← hkeys] at hmem
  exact List.mem_map.1 hmem

theorem row_range {α : Type} {rows : List α} {key : α → Nat × Nat × Nat}
    (hkeys : rows.map key = orderGrid warehouseCount) {r : α} (hr : r ∈ rows) :
    ((1 ≤ (key r).1 ∧ (key r).1 ≤ warehouseCount) ∧ 1 ≤ (key r).2.1 ∧ (key r).2.1 ≤ 10) ∧
      1 ≤ (key r).2.2 ∧ (key r).2.2 ≤ customersPerDistrict := by
  have hmem : key r ∈ orderGrid warehouseCount := by
    rw [← hkeys]
    exact List.mem_map_of_mem hr
  obtain ⟨hgrid, hi⟩ := mem_orderGrid.1 hmem
  exact ⟨mem_grid.1 hgrid, hi⟩

end Rows

section BaseChecks

theorem import_baseCheckWarehouse (hcount : 1 ≤ warehouseCount) :
    baseCheckWarehouseTable (importTables draws warehouseCount) warehouseCount = .ok () := by
  have hids : (importTables draws warehouseCount).warehouse.map Warehouse.wId =
      List.range' 1 warehouseCount := by
    simp only [importTables, loadWarehouses, List.map_map, Nat.add_sub_cancel_right]
    exact List.map_id _
  have hlength := congrArg List.length hids
  rw [List.length_map, List.length_range'] at hlength
  have hmax : 1 + warehouseCount - 1 = warehouseCount := by omega
  simp [baseCheckWarehouseTable, hids, hlength, max?_range' hcount, min?_range' hcount, require,
    throwIf, bind, Except.bind, hmax]

theorem import_baseCheckDistrict (hcount : 1 ≤ warehouseCount) :
    baseCheckDistrictTable id (importTables draws warehouseCount) warehouseCount = .ok () := by
  have hkeys : (importTables draws warehouseCount).district.map District.key =
    grid warehouseCount := map_key_district draws
  have hrow : ∀ w d, (1 ≤ w ∧ w ≤ warehouseCount) → (1 ≤ d ∧ d ≤ 10) →
      ∃ r ∈ (importTables draws warehouseCount).district, r.key = (w, d) := by
    intro w d hw hd
    have hmem : (w, d) ∈ grid warehouseCount := mem_grid.2 ⟨hw, hd⟩
    rw [← hkeys] at hmem
    exact List.mem_map.1 hmem
  have hrange : ∀ r ∈ (importTables draws warehouseCount).district,
      (1 ≤ r.dWId ∧ r.dWId ≤ warehouseCount) ∧ 1 ≤ r.dId ∧ r.dId ≤ 10 := by
    intro r hr
    have hmem : r.key ∈ grid warehouseCount := by
      rw [← hkeys]
      exact List.mem_map_of_mem hr
    exact mem_grid.1 hmem
  obtain ⟨r₁, hr₁, hkey₁⟩ := hrow 1 1 ⟨le_rfl, hcount⟩ ⟨by decide, by decide⟩
  obtain ⟨r₂, hr₂, hkey₂⟩ := hrow warehouseCount 10 ⟨hcount, le_rfl⟩ ⟨by decide, by decide⟩
  obtain ⟨hw₁, hd₁⟩ := Prod.mk.inj hkey₁
  obtain ⟨hw₂, hd₂⟩ := Prod.mk.inj hkey₂
  have hlength := congrArg List.length hkeys
  rw [List.length_map, length_grid] at hlength
  refine seq_iff.2 ⟨checkCount_iff.2 ?_, seq_iff.2 ⟨?_, ?_⟩⟩
  · rw [hlength]
    exact Int.natCast_mul _ _
  · exact checkRange_ok ⟨r₁, hr₁, hw₁⟩ ⟨r₂, hr₂, hw₂⟩ fun r hr => (hrange r hr).1
  · exact checkRange_ok ⟨r₁, hr₁, hd₁⟩ ⟨r₂, hr₂, hd₂⟩ fun r hr => (hrange r hr).2

/-- The expected count of a table with a row for each customer. -/
theorem orderGrid_count (warehouseCount : Nat) :
    ((orderGrid warehouseCount).length : Int) =
      id (id ((warehouseCount : Int) * customersPerDistrict) * districtCount) := by
  rw [length_orderGrid, Int.natCast_mul, Int.natCast_mul]
  exact mul_right_comm _ _ _

theorem import_baseCheckCustomer (hcount : 1 ≤ warehouseCount) :
    baseCheckCustomerTable id (importTables draws warehouseCount) warehouseCount = .ok () := by
  have hkeys : (importTables draws warehouseCount).customer.map Customer.key =
    orderGrid warehouseCount := map_key_customer draws
  obtain ⟨r₁, hr₁, hkey₁⟩ := exists_row hkeys ⟨le_rfl, hcount⟩ ⟨le_rfl, by decide⟩
    ⟨le_rfl, by decide⟩
  obtain ⟨r₂, hr₂, hkey₂⟩ := exists_row hkeys ⟨hcount, le_rfl⟩ ⟨by decide, le_rfl⟩
    ⟨by decide, le_rfl⟩
  simp only [Customer.key, Prod.mk.injEq] at hkey₁ hkey₂
  refine seq_iff.2 ⟨checkCount_iff.2 ?_, seq_iff.2 ⟨?_, seq_iff.2 ⟨?_, ?_⟩⟩⟩
  · rw [← orderGrid_count, ← hkeys, List.length_map]
  · exact checkRange_ok ⟨r₁, hr₁, hkey₁.1⟩ ⟨r₂, hr₂, hkey₂.1⟩ fun r hr => (row_range hkeys hr).1.1
  · exact checkRange_ok ⟨r₁, hr₁, hkey₁.2.1⟩ ⟨r₂, hr₂, hkey₂.2.1⟩
      fun r hr => (row_range hkeys hr).1.2
  · exact checkRange_ok ⟨r₁, hr₁, hkey₁.2.2⟩ ⟨r₂, hr₂, hkey₂.2.2⟩
      fun r hr => (row_range hkeys hr).2

theorem import_baseCheckOorder (hcount : 1 ≤ warehouseCount) :
    baseCheckOorderTable id (importTables draws warehouseCount) warehouseCount = .ok () := by
  have hkeys : (importTables draws warehouseCount).oorder.map Oorder.key =
    orderGrid warehouseCount := map_key_oorder draws
  obtain ⟨r₁, hr₁, hkey₁⟩ := exists_row hkeys ⟨le_rfl, hcount⟩ ⟨le_rfl, by decide⟩
    ⟨le_rfl, by decide⟩
  obtain ⟨r₂, hr₂, hkey₂⟩ := exists_row hkeys ⟨hcount, le_rfl⟩ ⟨by decide, le_rfl⟩
    ⟨by decide, le_rfl⟩
  simp only [Oorder.key, Prod.mk.injEq] at hkey₁ hkey₂
  refine seq_iff.2 ⟨checkCount_iff.2 ?_, seq_iff.2 ⟨?_, seq_iff.2 ⟨?_, ?_⟩⟩⟩
  · rw [← orderGrid_count, ← hkeys, List.length_map]
  · exact checkRange_ok ⟨r₁, hr₁, hkey₁.1⟩ ⟨r₂, hr₂, hkey₂.1⟩ fun r hr => (row_range hkeys hr).1.1
  · exact checkRange_ok ⟨r₁, hr₁, hkey₁.2.1⟩ ⟨r₂, hr₂, hkey₂.2.1⟩
      fun r hr => (row_range hkeys hr).1.2
  · exact checkRange_ok ⟨r₁, hr₁, hkey₁.2.2⟩ ⟨r₂, hr₂, hkey₂.2.2⟩
      fun r hr => (row_range hkeys hr).2

theorem import_baseCheckHistory (hcount : 1 ≤ warehouseCount) :
    baseCheckHistoryTable id (importTables draws warehouseCount) warehouseCount = .ok () := by
  have hkeys : (importTables draws warehouseCount).history.map History.customer =
    orderGrid warehouseCount := map_customer_history draws
  obtain ⟨r₁, hr₁, hkey₁⟩ := exists_row hkeys ⟨le_rfl, hcount⟩ ⟨le_rfl, by decide⟩
    ⟨le_rfl, by decide⟩
  obtain ⟨r₂, hr₂, hkey₂⟩ := exists_row hkeys ⟨hcount, le_rfl⟩ ⟨by decide, le_rfl⟩
    ⟨by decide, le_rfl⟩
  refine seq_iff.2 ⟨checkCount_iff.2 ?_, ?_⟩
  · rw [← orderGrid_count, ← hkeys, List.length_map]
  · exact checkRange_ok ⟨r₁, hr₁, congrArg Prod.fst hkey₁⟩ ⟨r₂, hr₂, congrArg Prod.fst hkey₂⟩
      fun r hr => (row_range hkeys hr).1.1

theorem import_baseCheckItem :
    baseCheckItemTable (importTables draws warehouseCount) = .ok () := by
  have hrow : ∀ i : Nat, 1 ≤ i ∧ i ≤ itemCount →
      ∃ r ∈ (importTables draws warehouseCount).item, r.iId = (i : Int) := fun i hi =>
    ⟨_, List.mem_map_of_mem (List.mem_range'_1.2 ⟨hi.1, Nat.lt_succ_of_le hi.2 |>.trans_le (by
      rw [Nat.add_comm])⟩), rfl⟩
  refine seq_iff.2 ⟨checkCount_iff.2 ?_, checkRange_ok (hrow 1 ⟨le_rfl, by decide⟩)
    (hrow itemCount ⟨by decide, le_rfl⟩) fun r hr => ?_⟩
  · simp only [importTables, loadItems, List.length_map, List.length_range']
  · obtain ⟨i, hi, rfl⟩ := List.mem_map.1 hr
    rw [List.mem_range'_1] at hi
    dsimp only
    omega

theorem import_baseCheckStock (hcount : 1 ≤ warehouseCount) :
    baseCheckStockTable id (importTables draws warehouseCount) warehouseCount = .ok () := by
  have hmem : ∀ w i : Nat, (1 ≤ w ∧ w ≤ warehouseCount) → (1 ≤ i ∧ i ≤ itemCount) →
      ∃ r ∈ (importTables draws warehouseCount).stock, r.sWId = w ∧ r.sIId = (i : Int) := by
    intro w i hw hi
    refine ⟨_, List.mem_flatMap.2 ⟨w, List.mem_range'_1.2 (by omega),
      List.mem_map_of_mem (List.mem_range'_1.2 ⟨hi.1, ?_⟩)⟩, rfl, rfl⟩
    omega
  have hrange : ∀ r ∈ (importTables draws warehouseCount).stock,
      (1 ≤ r.sWId ∧ r.sWId ≤ warehouseCount) ∧ 1 ≤ r.sIId ∧ r.sIId ≤ itemCount := by
    intro r hr
    obtain ⟨w, hw, hr⟩ := List.mem_flatMap.1 hr
    obtain ⟨i, hi, rfl⟩ := List.mem_map.1 hr
    rw [List.mem_range'_1] at hw hi
    dsimp only
    omega
  have hone : 1 ≤ 1 ∧ 1 ≤ itemCount := ⟨le_rfl, by decide⟩
  have hlast : 1 ≤ itemCount ∧ itemCount ≤ itemCount := ⟨by decide, le_rfl⟩
  obtain ⟨r₁, hr₁, hw₁, hi₁⟩ := hmem 1 1 ⟨le_rfl, hcount⟩ hone
  obtain ⟨r₂, hr₂, hw₂, hi₂⟩ := hmem warehouseCount itemCount ⟨hcount, le_rfl⟩ hlast
  refine seq_iff.2 ⟨checkCount_iff.2 ?_, seq_iff.2 ⟨checkCount_iff.2 ?_, seq_iff.2 ⟨?_, ?_⟩⟩⟩
  · rw [length_stock]
    exact Int.natCast_mul _ _
  · have hdedup : ((importTables draws warehouseCount).stock.map Stock.sWId).dedup.length =
        (List.range' 1 warehouseCount).length := by
      refine length_dedup List.nodup_range' fun w => ?_
      rw [List.mem_map, List.mem_range'_1]
      constructor
      · rintro ⟨r, hr, rfl⟩
        have := (hrange r hr).1
        omega
      · intro hw
        obtain ⟨r, hr, hwr, -⟩ := hmem w 1 (by omega) hone
        exact ⟨r, hr, hwr⟩
    rw [hdedup, List.length_range']
  · exact checkRange_ok ⟨r₁, hr₁, hw₁⟩ ⟨r₂, hr₂, hw₂⟩ fun r hr => (hrange r hr).1
  · exact checkRange_ok ⟨r₁, hr₁, hi₁⟩ ⟨r₂, hr₂, hi₂⟩ fun r hr => (hrange r hr).2

theorem import_baseCheckNewOrder (hcount : 1 ≤ warehouseCount) :
    baseCheckNewOrderTable id (importTables draws warehouseCount) warehouseCount = .ok () := by
  have hrow : ∀ w d i, (1 ≤ w ∧ w ≤ warehouseCount) → (1 ≤ d ∧ d ≤ 10) →
      (firstUnprocessedOId ≤ i ∧ i ≤ customersPerDistrict) →
      ∃ r ∈ (importTables draws warehouseCount).newOrder, r.key = (w, d, i) :=
    fun w d i hw hd hi => mem_key_newOrder.2 ⟨mem_grid.2 ⟨hw, hd⟩, hi⟩
  have hrange : ∀ r ∈ (importTables draws warehouseCount).newOrder,
      ((1 ≤ r.noWId ∧ r.noWId ≤ warehouseCount) ∧ 1 ≤ r.noDId ∧ r.noDId ≤ 10) ∧
        firstUnprocessedOId ≤ r.noOId ∧ r.noOId ≤ customersPerDistrict := by
    intro r hr
    obtain ⟨hgrid, hi⟩ := mem_key_newOrder.1 ⟨r, hr, rfl⟩
    exact ⟨mem_grid.1 hgrid, hi⟩
  obtain ⟨r₁, hr₁, hkey₁⟩ := hrow 1 1 firstUnprocessedOId ⟨le_rfl, hcount⟩ ⟨le_rfl, by decide⟩
    ⟨le_rfl, by decide⟩
  obtain ⟨r₂, hr₂, hkey₂⟩ := hrow warehouseCount 10 customersPerDistrict ⟨hcount, le_rfl⟩
    ⟨by decide, le_rfl⟩ ⟨by decide, le_rfl⟩
  simp only [NewOrder.key, Prod.mk.injEq] at hkey₁ hkey₂
  refine seq_iff.2 ⟨checkCount_iff.2 ?_, seq_iff.2 ⟨?_, seq_iff.2 ⟨?_, ?_⟩⟩⟩
  · rw [length_newOrder, Int.natCast_mul, Int.natCast_mul]
    exact mul_right_comm _ _ _
  · exact checkRange_ok ⟨r₁, hr₁, hkey₁.1⟩ ⟨r₂, hr₂, hkey₂.1⟩ fun r hr => (hrange r hr).1.1
  · exact checkRange_ok ⟨r₁, hr₁, hkey₁.2.1⟩ ⟨r₂, hr₂, hkey₂.2.1⟩ fun r hr => (hrange r hr).1.2
  · have hmin : ((importTables draws warehouseCount).newOrder.map NewOrder.noOId).min? =
        some firstUnprocessedOId := by
      refine List.min?_eq_some_iff.2 ⟨hkey₁.2.2 ▸ List.mem_map_of_mem hr₁, fun b hb => ?_⟩
      obtain ⟨r, hr, rfl⟩ := List.mem_map.1 hb
      exact (hrange r hr).2.1
    have hmax : ((importTables draws warehouseCount).newOrder.map NewOrder.noOId).max? =
        some customersPerDistrict := by
      refine List.max?_eq_some_iff.2 ⟨hkey₂.2.2 ▸ List.mem_map_of_mem hr₂, fun b hb => ?_⟩
      obtain ⟨r, hr, rfl⟩ := List.mem_map.1 hb
      exact (hrange r hr).2.2
    simp [hmin, hmax, require, throwIf, bind, Except.bind]

/-- Every order of the import has a first line. -/
theorem exists_line {w d i : Nat} (h : (w, d, i) ∈ orderGrid warehouseCount) :
    ∃ l ∈ (importTables draws warehouseCount).orderLine, l.order = (w, d, i) := by
  have hpos : 1 ≤ getRandomCount draws w i d :=
    Nat.le_trans (by decide) (draws.randomCount (hashCustomer w d i)).property.1
  obtain ⟨l, hl⟩ := List.exists_mem_of_length_pos (l := loadLines draws w d i) (by
    rw [loadLines, List.length_map, List.length_range']
    exact hpos)
  refine ⟨l, ?_, mem_loadLines hl⟩
  rw [orderLine_eq]
  exact List.mem_flatMap.2 ⟨(w, d, i), h, hl⟩

/-- The orders that have lines in a district. -/
theorem length_orderIds_lines {p : Nat × Nat} (hp : p ∈ grid warehouseCount) :
    (((importTables draws warehouseCount).orderLine.filter fun r =>
      (r.olWId, r.olDId) = p).map OrderLine.olOId).dedup.length = customersPerDistrict := by
  refine (length_dedup (List.nodup_range' (s := 1) (n := customersPerDistrict)) fun i => ?_).trans
    List.length_range'
  rw [List.mem_map, List.mem_range'_1]
  constructor
  · rintro ⟨l, hl, rfl⟩
    have hgrid := (mem_orderLine (List.mem_of_mem_filter hl)).1
    have := (mem_orderGrid.1 hgrid).2
    omega
  · intro hi
    obtain ⟨l, hl, horder⟩ := @exists_line draws warehouseCount p.1 p.2 i
      (mem_orderGrid.2 ⟨hp, by omega⟩)
    simp only [OrderLine.order, Prod.mk.injEq] at horder
    refine ⟨l, List.mem_filter.2 ⟨hl, ?_⟩, horder.2.2⟩
    simp [horder.1, horder.2.1]

theorem import_baseCheckOrderLine (hcount : 1 ≤ warehouseCount) :
    baseCheckOrderLineTable id (importTables draws warehouseCount) warehouseCount = .ok () := by
  have hfirst : (1, 1) ∈ grid warehouseCount :=
    mem_grid.2 ⟨⟨le_rfl, hcount⟩, le_rfl, by decide⟩
  have hall : ∀ group ∈ Sql.groupBy (fun r : OrderLine => (r.olWId, r.olDId))
      (importTables draws warehouseCount).orderLine,
      (group.2.map OrderLine.olOId).dedup.length = customersPerDistrict := by
    rintro ⟨k, group⟩ hgroup
    obtain ⟨⟨l, hl, rfl⟩, rfl⟩ := Sql.mem_groupBy.1 hgroup
    exact length_orderIds_lines (mem_orderGrid.1 (mem_orderLine hl).1).1
  have hgroup : ∃ group ∈ Sql.groupBy (fun r : OrderLine => (r.olWId, r.olDId))
      (importTables draws warehouseCount).orderLine,
      (group.2.map OrderLine.olOId).dedup.length = customersPerDistrict := by
    obtain ⟨l, hl, -⟩ := @exists_line draws warehouseCount 1 1 1
      (mem_orderGrid.2 ⟨hfirst, le_rfl, by decide⟩)
    have hmem := (@Sql.mem_groupBy OrderLine (Nat × Nat) _ (fun r => (r.olWId, r.olDId)) _ _ _).2
      ⟨⟨l, hl, rfl⟩, rfl⟩
    exact ⟨_, hmem, hall _ hmem⟩
  refine seq_iff.2 ⟨checkCount_iff.2 ?_, checkRange_ok hgroup hgroup fun group hmem => ?_⟩
  · have hlength : (orderCounts (importTables draws warehouseCount)).length =
        (grid warehouseCount).length := by
      rw [orderCounts, Sql.groupBy, List.length_map, List.length_map]
      refine length_dedup (grid_nodup warehouseCount) fun p => ?_
      rw [List.mem_map]
      constructor
      · rintro ⟨l, hl, rfl⟩
        exact (mem_orderGrid.1 (mem_orderLine hl).1).1
      · intro hp
        obtain ⟨l, hl, horder⟩ := @exists_line draws warehouseCount p.1 p.2 1
          (mem_orderGrid.2 ⟨hp, le_rfl, by decide⟩)
        simp only [OrderLine.order, Prod.mk.injEq] at horder
        exact ⟨l, hl, Prod.ext horder.1 horder.2.1⟩
    rw [hlength, length_grid]
    exact Int.natCast_mul _ _
  · exact ⟨(hall group hmem).ge, (hall group hmem).le⟩

end BaseChecks

section ConsistencyChecks

/-- The orders and the new orders of a district. -/
theorem length_districtOrders {p : Nat × Nat} (hp : p ∈ grid warehouseCount) :
    ((importTables draws warehouseCount).oorder.filter fun r => r.district = p).length =
      customersPerDistrict := by
  have hlength := congrArg List.length (@orderIds_import draws warehouseCount p hp)
  rwa [orderIds, List.length_map, List.length_range'] at hlength

theorem length_districtNewOrders {p : Nat × Nat} (hp : p ∈ grid warehouseCount) :
    ((importTables draws warehouseCount).newOrder.filter fun r => r.district = p).length =
      customersPerDistrict + 1 - firstUnprocessedOId := by
  have hlength := congrArg List.length (@newOrderIds_import draws warehouseCount p hp)
  rwa [newOrderIds, List.length_map, List.length_range'] at hlength

theorem import_consistencyCheck33211 :
    consistencyCheck33211 (importTables draws warehouseCount) warehouseCount = .ok () := by
  rw [consistencyCheck33211, checkRanges_ok]
  intro startWh endWh _
  dsimp only
  rw [List.filter_eq_nil_iff]
  rintro ⟨o, n⟩ hmem
  obtain ⟨ho, hn, -⟩ := Sql.mem_join.1 hmem
  obtain ⟨r, hr, rfl⟩ := Sql.mem_map_groupBy.1 ho
  obtain ⟨r', hr', rfl⟩ := Sql.mem_map_groupBy.1 hn
  obtain ⟨hr, hw⟩ := List.mem_filter.1 hr
  obtain ⟨hr', hw'⟩ := List.mem_filter.1 hr'
  have hp : r.district ∈ grid warehouseCount := (mem_orderGrid.1 (mem_oorder hr).1).1
  have hp' : r'.district ∈ grid warehouseCount := (mem_key_newOrder.1 ⟨r', hr', rfl⟩).1
  have horders : ((importTables draws warehouseCount).oorder.filter
      fun r => within startWh endWh r.oWId).filter
        (fun q => (q.oWId, q.oDId) = (r.oWId, r.oDId)) =
      (importTables draws warehouseCount).oorder.filter fun q => q.district = r.district :=
    filter_within fun q hq => by rwa [(Prod.mk.inj hq).1]
  have hnewOrders : ((importTables draws warehouseCount).newOrder.filter
      fun r => within startWh endWh r.noWId).filter
        (fun q => (q.noWId, q.noDId) = (r'.noWId, r'.noDId)) =
      (importTables draws warehouseCount).newOrder.filter fun q => q.district = r'.district :=
    filter_within fun q hq => by rwa [(Prod.mk.inj hq).1]
  dsimp only
  rw [horders, hnewOrders, length_districtOrders hp, length_districtNewOrders hp',
    decide_eq_true_eq, not_not]
  decide

theorem import_carriersOk : CarriersOk (importTables draws warehouseCount) := by
  intro o ho hzero
  obtain ⟨p, -, ho⟩ := List.mem_flatMap.1 ho
  obtain ⟨oid, -, rfl⟩ := List.mem_map.1 ho
  dsimp only at hzero
  split at hzero
  · have hpos := ((draws.order p.1 p.2).carrierId oid).property.1
    rw [Option.some.inj hzero] at hpos
    exact absurd hpos (by decide)
  · exact nomatch hzero

theorem import_postImportCheckNextOrderId :
    postImportCheckNextOrderId (importTables draws warehouseCount) = .ok () := by
  rw [postImportCheckNextOrderId, checkNoRows_ok, List.filter_eq_nil_iff]
  intro r hr
  rw [decide_eq_true_eq, not_not]
  exact (mem_next (List.mem_map_of_mem hr)).2

theorem import_postImportCheckWarehouseYtd :
    postImportCheckWarehouseYtd (importTables draws warehouseCount) = .ok () := by
  rw [postImportCheckWarehouseYtd, checkNoRows_ok, List.filter_eq_nil_iff]
  intro r hr
  rw [differs_eq_true, not_not]
  exact (mem_warehouseYtd (List.mem_map_of_mem hr)).2

theorem import_postImportCheckDistrictYtd :
    postImportCheckDistrictYtd (importTables draws warehouseCount) = .ok () := by
  rw [postImportCheckDistrictYtd, checkNoRows_ok, List.filter_eq_nil_iff]
  intro r hr
  rw [differs_eq_true, not_not]
  exact (mem_districtYtd (List.mem_map_of_mem hr)).2

theorem import_postImportCheckNoCarriers :
    postImportCheckNoCarriers (importTables draws warehouseCount) = .ok () := by
  rw [postImportCheckNoCarriers, checkNoRows_ok, List.filter_eq_nil_iff]
  intro r hr hwhere
  rw [Bool.and_eq_true, decide_eq_true_eq] at hwhere
  have hnone := (mem_oorder hr).2.1.2 hwhere.1
  simp [hnone] at hwhere

theorem import_postImportCheckNoDeliveryDates :
    postImportCheckNoDeliveryDates (importTables draws warehouseCount) = .ok () := by
  rw [postImportCheckNoDeliveryDates, checkNoRows_ok, List.filter_eq_nil_iff]
  intro r hr hwhere
  rw [Bool.and_eq_true, decide_eq_true_eq] at hwhere
  have hnone := (mem_orderLine hr).2.1.2 hwhere.1
  simp [hnone] at hwhere

end ConsistencyChecks

section CheckSync

theorem failedCount_nil : failedCount [] = 0 := rfl

theorem failedCount_cons {check : Outcome} {checks : List Outcome} (hcheck : check = .ok ())
    (hchecks : failedCount checks = 0) : failedCount (check :: checks) = 0 := by
  subst hcheck
  exact hchecks

theorem import_baseChecks (hcount : 1 ≤ warehouseCount) :
    failedCount (baseChecks id (importTables draws warehouseCount) warehouseCount true) = 0 :=
  failedCount_cons (import_baseCheckWarehouse hcount) <|
    failedCount_cons (import_baseCheckDistrict hcount) <|
    failedCount_cons (import_baseCheckCustomer hcount) <|
    failedCount_cons import_baseCheckItem <|
    failedCount_cons (import_baseCheckStock hcount) <|
    failedCount_cons (import_baseCheckOorder hcount) <|
    failedCount_cons (import_baseCheckNewOrder hcount) <|
    failedCount_cons (import_baseCheckOrderLine hcount) <|
    failedCount_cons (import_baseCheckHistory hcount) failedCount_nil

theorem import_consistencyChecks :
    failedCount (consistencyChecks (importTables draws warehouseCount) warehouseCount true) = 0 :=
  have hsound := importTables_sound draws warehouseCount
  failedCount_cons (consistencyCheck3321_of_sound hsound) <|
    failedCount_cons (consistencyCheck3322_of_sound hsound) <|
    failedCount_cons (consistencyCheck3323_of_sound hsound) <|
    failedCount_cons (consistencyCheck3324_of_sound hsound) <|
    failedCount_cons (consistencyCheck3325_of_sound hsound import_carriersOk) <|
    failedCount_cons (consistencyCheck3326_of_sound hsound) <|
    failedCount_cons (consistencyCheck3327_of_sound hsound) <|
    failedCount_cons (consistencyCheck3328_of_sound hsound) <|
    failedCount_cons (consistencyCheck3329_of_sound hsound) <|
    failedCount_cons (consistencyCheck33210_of_sound hsound) <|
    failedCount_cons (consistencyCheck33212_of_sound hsound) <|
    failedCount_cons import_consistencyCheck33211 <|
    failedCount_cons import_postImportCheckNextOrderId <|
    failedCount_cons import_postImportCheckWarehouseYtd <|
    failedCount_cons import_postImportCheckDistrictYtd <|
    failedCount_cons import_postImportCheckNoCarriers <|
    failedCount_cons import_postImportCheckNoDeliveryDates failedCount_nil

theorem import_checkSync :
    checkSync id (importTables draws warehouseCount) warehouseCount true = .ok () := by
  by_cases hzero : warehouseCount = 0
  · rw [checkSync, if_pos hzero]
  · rw [checkSync, if_neg hzero, import_baseChecks (Nat.pos_of_ne_zero hzero),
      if_neg (Nat.lt_irrefl 0), import_consistencyChecks]
    rfl

/-- The customers of a district's orders are the shuffled ones. -/
theorem map_oCId_import {p : Nat × Nat} (hp : p ∈ grid warehouseCount) :
    (((importTables draws warehouseCount).oorder.filter fun r => r.district = p).map
      Oorder.oCId).Perm (List.range' 1 customersPerDistrict) := by
  have hlength : (draws.order p.1 p.2).customerIds.length = customersPerDistrict := by
    rw [(draws.order p.1 p.2).shuffled.length_eq, List.length_range']
  have hids : (loadOorders draws p.1 p.2).map Oorder.oCId =
      (draws.order p.1 p.2).customerIds := by
    rw [loadOorders, List.map_map]
    refine List.ext_getElem ?_ fun i hi hi' => ?_
    · rw [List.length_map, List.length_range', hlength]
    · simp [List.getElem_range', hi']
  rw [filter_oorder_import hp, hids]
  exact (draws.order p.1 p.2).shuffled

/-- Whatever is drawn, the tables after an import have different keys and pass all checks; the
orders without a carrier, and the lines without a delivery date, are those from
`FIRST_UNPROCESSED_O_ID` on, and the orders of a district have all its customers. -/
theorem importTables_checkSync (draws : ImportDraws) (warehouseCount : Nat) :
    Keyed (importTables draws warehouseCount) ∧
    checkSync id (importTables draws warehouseCount) warehouseCount true = .ok () ∧
    (∀ p ∈ grid warehouseCount,
      (((importTables draws warehouseCount).oorder.filter fun r => r.district = p).length : Int) -
        ((importTables draws warehouseCount).newOrder.filter fun r => r.district = p).length =
          firstUnprocessedOId - 1) ∧
    (∀ o ∈ (importTables draws warehouseCount).oorder,
      o.oCarrierId = none ↔ firstUnprocessedOId ≤ o.oId) ∧
    (∀ l ∈ (importTables draws warehouseCount).orderLine,
      l.olDeliveryD = none ↔ firstUnprocessedOId ≤ l.olOId) ∧
    ∀ p ∈ grid warehouseCount,
      (((importTables draws warehouseCount).oorder.filter fun r => r.district = p).map
        Oorder.oCId).Perm (List.range' 1 customersPerDistrict) := by
  refine ⟨importTables_keyed, import_checkSync, fun p hp => ?_, fun o ho => (mem_oorder ho).2.1,
    fun l hl => (mem_orderLine hl).2.1, fun p hp => map_oCId_import hp⟩
  rw [length_districtOrders hp, length_districtNewOrders hp]
  decide

end CheckSync

end Tpcc.Import
