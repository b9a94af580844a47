import Tpcc.Lib.Grid
import Tpcc.Check.Exact

/-! The base checks of the key columns: the number of rows and the bounds of each column say that the
keys of a table are the full grid.  The columns are signed here, as in the tables. -/

namespace Tpcc.Check

open Lib Store Transaction

/-- The key columns of the tables that the base checks count. -/
structure KeyTables where
  warehouse : List Int
  district : List (Int × Int)
  customer : List (Int × Int × Int)
  item : List Int
  stock : List (Int × Int)
  oorder : List (Int × Int × Int)
  newOrder : List (Int × Int × Int)

/-- The primary keys are keys. -/
structure KeyTables.Unique (tables : KeyTables) : Prop where
  warehouse : tables.warehouse.Nodup
  district : tables.district.Nodup
  customer : tables.customer.Nodup
  item : tables.item.Nodup
  stock : tables.stock.Nodup
  oorder : tables.oorder.Nodup
  newOrder : tables.newOrder.Nodup

def keyTables (db : Database) : KeyTables where
  warehouse := db.warehouse.map fun r => (r.wId : Int)
  district := db.district.map fun r => ((r.dWId : Int), (r.dId : Int))
  customer := db.customer.map fun r => ((r.cWId : Int), (r.cDId : Int), (r.cId : Int))
  item := db.item.map Item.iId
  stock := db.stock.map fun r => ((r.sWId : Int), r.sIId)
  oorder := db.oorder.map fun r => ((r.oWId : Int), (r.oDId : Int), (r.oId : Int))
  newOrder := db.newOrder.map fun r => ((r.noWId : Int), (r.noDId : Int), (r.noOId : Int))

section Model

variable (int : Int → Int) (tables : KeyTables) (expectedWhNumber : Nat)

def signedRangeText (name : String) (expectedLow expectedHigh : Nat) (low high : Int) : String :=
  name ++ " [" ++ toString low ++ ", " ++ toString high ++ "] instead of [" ++
    toString expectedLow ++ ", " ++ toString expectedHigh ++ "]"

def baseCheckWarehouseKeys : Outcome := do
  let rowCount := tables.warehouse.length
  let maxWh ← require "max_id" tables.warehouse.max?
  let minWh ← require "min_id" tables.warehouse.min?
  throwIf (rowCount ≠ expectedWhNumber ∨ minWh ≠ 1 ∨ maxWh ≠ expectedWhNumber)
    ("Inconsistent warehouse: count=" ++ toString rowCount ++ ", min=" ++ toString minWh ++
      ", max=" ++ toString maxWh ++ ", expected=" ++ toString expectedWhNumber)

def baseCheckDistrictKeys : Outcome := do
  checkCount "District count" tables.district.length (int (expectedWhNumber * districtCount))
  checkRange "w_id" (tables.district.map Prod.fst) 1 (expectedWhNumber : Int)
    (signedRangeText "District warehouse range" 1 expectedWhNumber)
  checkRange "d_id" (tables.district.map Prod.snd) (districtLowId : Int) (districtHighId : Int)
    (signedRangeText "District ID range" districtLowId districtHighId)

def baseCheckCustomerKeys : Outcome := do
  checkCount "Customer count" tables.customer.length
    (int (int (expectedWhNumber * customersPerDistrict) * districtCount))
  checkRange "w" (tables.customer.map Prod.fst) 1 (expectedWhNumber : Int)
    (signedRangeText "Customer warehouse range" 1 expectedWhNumber)
  checkRange "d" (tables.customer.map fun k => k.2.1) (districtLowId : Int) (districtHighId : Int)
    fun _ _ => "Customer district range mismatch"
  checkRange "c" (tables.customer.map fun k => k.2.2) 1 (customersPerDistrict : Int)
    fun _ _ => "Customer ID range mismatch"

def baseCheckItemKeys : Outcome := do
  checkCount "Item count" tables.item.length itemCount
  checkRange "id" tables.item 1 (itemCount : Int) fun _ _ => "Item ID range mismatch"

def baseCheckStockKeys : Outcome := do
  checkCount "Stock count" tables.stock.length (int (expectedWhNumber * itemCount))
  checkCount "Stock warehouse count" (tables.stock.map Prod.fst).dedup.length expectedWhNumber
  checkRange "w" (tables.stock.map Prod.fst) 1 (expectedWhNumber : Int)
    fun _ _ => "Stock warehouse range mismatch"
  checkRange "i" (tables.stock.map Prod.snd) 1 (itemCount : Int)
    fun _ _ => "Stock item range mismatch"

def baseCheckOorderKeys : Outcome := do
  checkCount "Order count" tables.oorder.length
    (int (int (expectedWhNumber * customersPerDistrict) * districtCount))
  checkRange "w" (tables.oorder.map Prod.fst) 1 (expectedWhNumber : Int)
    fun _ _ => "Order warehouse range mismatch"
  checkRange "d" (tables.oorder.map fun k => k.2.1) (districtLowId : Int) (districtHighId : Int)
    fun _ _ => "Order district range mismatch"
  checkRange "o" (tables.oorder.map fun k => k.2.2) 1 (customersPerDistrict : Int)
    fun _ _ => "Order ID range mismatch"

def baseCheckNewOrderKeys : Outcome := do
  let newOrdersPerDistrict := customersPerDistrict - firstUnprocessedOId + 1
  checkCount "New order count" tables.newOrder.length
    (int (int (expectedWhNumber * newOrdersPerDistrict) * districtCount))
  checkRange "w" (tables.newOrder.map Prod.fst) 1 (expectedWhNumber : Int)
    fun _ _ => "New order warehouse range mismatch"
  checkRange "d" (tables.newOrder.map fun k => k.2.1) (districtLowId : Int) (districtHighId : Int)
    fun _ _ => "New order district range mismatch"
  let least ← require "min_o" (tables.newOrder.map fun k => k.2.2).min?
  let greatest ← require "max_o" (tables.newOrder.map fun k => k.2.2).max?
  throwIf (least < (firstUnprocessedOId : Int) ∨ greatest ≠ (customersPerDistrict : Int))
    "New order ID range mismatch"

end Model

section Cast

variable {α : Type} {rows : List α} {value : α → Nat}

theorem min?_cast : (rows.map fun r => (value r : Int)).min? = (rows.map value).min?.map Nat.cast := by
  cases hmin : (rows.map value).min? with
  | none =>
    rw [List.min?_eq_none_iff, List.map_eq_nil_iff] at hmin
    rw [hmin]
    rfl
  | some least =>
    obtain ⟨hmem, hleast⟩ := List.min?_eq_some_iff.mp hmin
    refine List.min?_eq_some_iff.mpr ⟨?_, fun v hv => ?_⟩
    · obtain ⟨r, hr, rfl⟩ := List.mem_map.mp hmem
      exact List.mem_map.mpr ⟨r, hr, rfl⟩
    · obtain ⟨r, hr, rfl⟩ := List.mem_map.mp hv
      exact Int.ofNat_le.mpr (hleast _ (List.mem_map_of_mem hr))

theorem max?_cast : (rows.map fun r => (value r : Int)).max? = (rows.map value).max?.map Nat.cast := by
  cases hmax : (rows.map value).max? with
  | none =>
    rw [List.max?_eq_none_iff, List.map_eq_nil_iff] at hmax
    rw [hmax]
    rfl
  | some greatest =>
    obtain ⟨hmem, hgreatest⟩ := List.max?_eq_some_iff.mp hmax
    refine List.max?_eq_some_iff.mpr ⟨?_, fun v hv => ?_⟩
    · obtain ⟨r, hr, rfl⟩ := List.mem_map.mp hmem
      exact List.mem_map.mpr ⟨r, hr, rfl⟩
    · obtain ⟨r, hr, rfl⟩ := List.mem_map.mp hv
      exact Int.ofNat_le.mpr (hgreatest _ (List.mem_map_of_mem hr))

/-- A range check of a column without negative values. -/
theorem checkRange_cast {column : String} (low high : Nat) {message : Int → Int → String} :
    checkRange column (rows.map fun r => (value r : Int)) (low : Int) (high : Int) message =
      checkRange column (rows.map value) low high fun least greatest => message least greatest := by
  rw [checkRange, checkRange, min?_cast, max?_cast]
  cases (rows.map value).min? with
  | none => rfl
  | some least =>
    cases (rows.map value).max? with
    | none => rfl
    | some greatest =>
      change throwIf (decide ((least : Int) ≠ low ∨ (greatest : Int) ≠ high)) _ =
        throwIf (decide (least ≠ low ∨ greatest ≠ high)) _
      simp only [ne_eq, Int.ofNat_inj]

theorem checkRange_one_cast {column : String} (high : Nat) {message : Int → Int → String} :
    checkRange column (rows.map fun r => (value r : Int)) 1 (high : Int) message =
      checkRange column (rows.map value) 1 high fun least greatest => message least greatest :=
  checkRange_cast 1 high

/-- The range check of the new orders' ids, without negative values. -/
theorem lowerRange_cast (low high : Nat) {message : String} :
    (do
      let least ← require "min_o" (rows.map fun r => (value r : Int)).min?
      let greatest ← require "max_o" (rows.map fun r => (value r : Int)).max?
      throwIf (least < (low : Int) ∨ greatest ≠ (high : Int)) message) =
    (do
      let least ← require "min_o" (rows.map value).min?
      let greatest ← require "max_o" (rows.map value).max?
      throwIf (least < low ∨ greatest ≠ high) message) := by
  rw [min?_cast, max?_cast]
  cases (rows.map value).min? with
  | none => rfl
  | some least =>
    cases (rows.map value).max? with
    | none => rfl
    | some greatest =>
      change throwIf (decide ((least : Int) < low ∨ (greatest : Int) ≠ high)) _ =
        throwIf (decide (least < low ∨ greatest ≠ high)) _
      simp only [ne_eq, Int.ofNat_inj, Int.ofNat_lt]

end Cast

section Tables

variable {int : Int → Int} {db : Database} {expectedWhNumber : Nat}

theorem baseCheckWarehouseTable_eq :
    baseCheckWarehouseTable db expectedWhNumber =
      baseCheckWarehouseKeys (keyTables db) expectedWhNumber := by
  rw [baseCheckWarehouseTable, baseCheckWarehouseKeys, keyTables, min?_cast, max?_cast,
    List.length_map]
  cases (db.warehouse.map Warehouse.wId).max? with
  | none => rfl
  | some maxWh =>
    cases (db.warehouse.map Warehouse.wId).min? with
    | none => rfl
    | some minWh =>
      change throwIf (decide (db.warehouse.length ≠ expectedWhNumber ∨ minWh ≠ 1 ∨
          maxWh ≠ expectedWhNumber)) _ =
        throwIf (decide (db.warehouse.length ≠ expectedWhNumber ∨ (minWh : Int) ≠ (1 : Nat) ∨
          (maxWh : Int) ≠ expectedWhNumber)) _
      simp only [ne_eq, Int.ofNat_inj]
      rfl

theorem baseCheckDistrictTable_eq :
    baseCheckDistrictTable int db expectedWhNumber =
      baseCheckDistrictKeys int (keyTables db) expectedWhNumber := by
  simp only [baseCheckDistrictTable, baseCheckDistrictKeys, keyTables, List.length_map,
    List.map_map, Function.comp_def, checkRange_one_cast, checkRange_cast]
  rfl

theorem baseCheckCustomerTable_eq :
    baseCheckCustomerTable int db expectedWhNumber =
      baseCheckCustomerKeys int (keyTables db) expectedWhNumber := by
  simp only [baseCheckCustomerTable, baseCheckCustomerKeys, keyTables, List.length_map,
    List.map_map, Function.comp_def, checkRange_one_cast, checkRange_cast]
  rfl

theorem baseCheckItemTable_eq : baseCheckItemTable db = baseCheckItemKeys (keyTables db) := by
  simp only [baseCheckItemTable, baseCheckItemKeys, keyTables, List.length_map]

theorem baseCheckStockTable_eq :
    baseCheckStockTable int db expectedWhNumber =
      baseCheckStockKeys int (keyTables db) expectedWhNumber := by
  have hdedup : (db.stock.map fun r => (r.sWId : Int)).dedup.length =
      (db.stock.map Stock.sWId).dedup.length := by
    have hmap : (db.stock.map fun r => (r.sWId : Int)) = (db.stock.map Stock.sWId).map Nat.cast :=
      List.map_map.symm
    have hinjective : Function.Injective (Nat.cast : Nat → Int) := fun _ _ => Int.ofNat_inj.mp
    rw [hmap, List.dedup_map_of_injective hinjective, List.length_map]
  simp only [baseCheckStockTable, baseCheckStockKeys, keyTables, List.length_map,
    List.map_map, Function.comp_def, checkRange_one_cast, hdedup]

theorem baseCheckOorderTable_eq :
    baseCheckOorderTable int db expectedWhNumber =
      baseCheckOorderKeys int (keyTables db) expectedWhNumber := by
  simp only [baseCheckOorderTable, baseCheckOorderKeys, keyTables, List.length_map,
    List.map_map, Function.comp_def, checkRange_one_cast, checkRange_cast]

theorem baseCheckNewOrderTable_eq :
    baseCheckNewOrderTable int db expectedWhNumber =
      baseCheckNewOrderKeys int (keyTables db) expectedWhNumber := by
  simp only [baseCheckNewOrderTable, baseCheckNewOrderKeys, keyTables, List.length_map,
    List.map_map, Function.comp_def, checkRange_one_cast, checkRange_cast, lowerRange_cast]

end Tables

section Passes

variable {tables : KeyTables} {expectedWhNumber : Nat}

theorem card_warehouses : (Finset.Icc 1 (expectedWhNumber : Int)).card = expectedWhNumber := by
  rw [Int.card_Icc]
  omega

theorem card_pairs {high : Int} {n : Nat} (h : (high + 1 - 1).toNat = n) :
    (Finset.Icc 1 (expectedWhNumber : Int) ×ˢ Finset.Icc (1 : Int) high).card =
      expectedWhNumber * n := by
  rw [Finset.card_product, card_warehouses, Int.card_Icc, ← h]

theorem card_rows {low : Int} {n : Nat} (h : 10 * (3000 + 1 - low).toNat = n) :
    (Finset.Icc 1 (expectedWhNumber : Int) ×ˢ Finset.Icc (1 : Int) 10 ×ˢ Finset.Icc low 3000).card =
      expectedWhNumber * n := by
  rw [Finset.card_product, card_warehouses, Finset.card_product, Int.card_Icc, Int.card_Icc, ← h]
  rfl

theorem baseCheckWarehouseKeys_iff (hpos : 1 ≤ expectedWhNumber)
    (hnodup : tables.warehouse.Nodup) :
    baseCheckWarehouseKeys tables expectedWhNumber = .ok () ↔
      tables.warehouse.toFinset = Finset.Icc 1 (expectedWhNumber : Int) := by
  rw [← Grid.keys_Icc_iff (by omega) hnodup, card_warehouses, baseCheckWarehouseKeys]
  cases tables.warehouse.max? with
  | none => simp [require, bind, Except.bind]
  | some maxWh =>
    cases tables.warehouse.min? with
    | none => simp [require, bind, Except.bind]
    | some minWh =>
      by_cases h : tables.warehouse.length ≠ expectedWhNumber ∨ minWh ≠ 1 ∨ maxWh ≠ expectedWhNumber
      · simp only [require, bind, Except.bind, throwIf, h, decide_true]
        simp only [ne_eq, ← not_and_or] at h
        simpa using h
      · simp only [ne_eq, ← not_and_or, not_not] at h
        simp [require, bind, Except.bind, throwIf, h]

theorem baseCheckDistrictKeys_iff (hpos : 1 ≤ expectedWhNumber)
    (hnodup : tables.district.Nodup) :
    baseCheckDistrictKeys id tables expectedWhNumber = .ok () ↔
      tables.district.toFinset = Finset.Icc 1 (expectedWhNumber : Int) ×ˢ Finset.Icc 1 10 := by
  rw [← Grid.keys_prod_iff (by omega) (by decide) hnodup, card_pairs (n := 10) rfl,
    baseCheckDistrictKeys, seq_iff, seq_iff, checkCount_iff, checkRange_iff, checkRange_iff]
  refine and_congr ?_ Iff.rfl
  simp only [id, districtCount, districtHighId, districtLowId]
  omega

theorem baseCheckCustomerKeys_iff (hpos : 1 ≤ expectedWhNumber)
    (hnodup : tables.customer.Nodup) :
    baseCheckCustomerKeys id tables expectedWhNumber = .ok () ↔
      tables.customer.toFinset =
        Finset.Icc 1 (expectedWhNumber : Int) ×ˢ Finset.Icc 1 10 ×ˢ Finset.Icc 1 3000 := by
  rw [← Grid.keys_prod₃_iff (by omega) (by decide) (by decide) hnodup, card_rows (n := 30000) rfl,
    baseCheckCustomerKeys, seq_iff, seq_iff, seq_iff, checkCount_iff, checkRange_iff,
    checkRange_iff, checkRange_iff]
  refine and_congr ?_ Iff.rfl
  simp only [id, districtCount, districtHighId, districtLowId, customersPerDistrict]
  omega

theorem baseCheckOorderKeys_iff (hpos : 1 ≤ expectedWhNumber)
    (hnodup : tables.oorder.Nodup) :
    baseCheckOorderKeys id tables expectedWhNumber = .ok () ↔
      tables.oorder.toFinset =
        Finset.Icc 1 (expectedWhNumber : Int) ×ˢ Finset.Icc 1 10 ×ˢ Finset.Icc 1 3000 := by
  rw [← Grid.keys_prod₃_iff (by omega) (by decide) (by decide) hnodup, card_rows (n := 30000) rfl,
    baseCheckOorderKeys, seq_iff, seq_iff, seq_iff, checkCount_iff, checkRange_iff,
    checkRange_iff, checkRange_iff]
  refine and_congr ?_ Iff.rfl
  simp only [id, districtCount, districtHighId, districtLowId, customersPerDistrict]
  omega

theorem baseCheckItemKeys_iff (hnodup : tables.item.Nodup) :
    baseCheckItemKeys tables = .ok () ↔ tables.item.toFinset = Finset.Icc 1 100000 := by
  rw [← Grid.keys_Icc_iff (by decide) hnodup, baseCheckItemKeys, seq_iff, checkCount_iff,
    checkRange_iff, Int.card_Icc]
  refine and_congr ?_ Iff.rfl
  simp only [itemCount]
  omega

/-- The count of the warehouses in the stock says nothing more. -/
theorem baseCheckStockKeys_iff (hpos : 1 ≤ expectedWhNumber) (hnodup : tables.stock.Nodup) :
    baseCheckStockKeys id tables expectedWhNumber = .ok () ↔
      tables.stock.toFinset = Finset.Icc 1 (expectedWhNumber : Int) ×ˢ Finset.Icc 1 100000 := by
  have hdistinct : tables.stock.toFinset = Finset.Icc 1 (expectedWhNumber : Int) ×ˢ
      Finset.Icc 1 100000 → (tables.stock.map Prod.fst).dedup.length = expectedWhNumber := by
    intro hkeys
    have himage : (tables.stock.map Prod.fst).toFinset =
        Finset.Icc 1 (expectedWhNumber : Int) := by
      rw [← Finset.product_image_fst (s := Finset.Icc 1 (expectedWhNumber : Int))
        (t := Finset.Icc (1 : Int) 100000) (Finset.nonempty_Icc.mpr (by decide)), ← hkeys]
      ext w
      simp
    rw [← List.card_toFinset, himage, card_warehouses]
  rw [← Grid.keys_prod_iff (by omega) (by decide) hnodup] at hdistinct ⊢
  rw [baseCheckStockKeys, seq_iff, seq_iff, seq_iff, checkCount_iff, checkCount_iff,
    checkRange_iff, checkRange_iff]
  have hcount : ((tables.stock.length : Int) =
      id ((expectedWhNumber : Int) * (itemCount : Int))) ↔
      tables.stock.length = (Finset.Icc 1 (expectedWhNumber : Int) ×ˢ
        Finset.Icc (1 : Int) 100000).card := by
    rw [card_pairs (n := 100000) rfl]
    simp only [id, itemCount]
    omega
  rw [hcount]
  constructor
  · rintro ⟨hlength, -, hranges⟩
    exact ⟨hlength, hranges⟩
  · rintro ⟨hlength, hranges⟩
    exact ⟨hlength, congrArg Nat.cast (hdistinct ⟨hlength, hranges⟩), hranges⟩

theorem lowerRange_iff {values : List Int} {low high : Int} {message : String} :
    (do
      let least ← require "min_o" values.min?
      let greatest ← require "max_o" values.max?
      throwIf (least < low ∨ greatest ≠ high) message) = .ok () ↔
      ∃ least, values.min? = some least ∧ low ≤ least ∧ values.max? = some high := by
  cases values.min? with
  | none => simp [require, bind, Except.bind]
  | some least =>
    cases values.max? with
    | none => simp [require, bind, Except.bind]
    | some greatest =>
      by_cases h : least < low ∨ greatest ≠ high
      · simp only [require, bind, Except.bind, throwIf, h, decide_true]
        rcases h with h | h
        · simp [h]
        · simp [h]
      · simp only [ne_eq, not_or, not_not, Int.not_lt] at h
        simp [require, bind, Except.bind, throwIf, h]

/-- The least id may be larger in the check, but not with this number of rows. -/
theorem baseCheckNewOrderKeys_iff (hpos : 1 ≤ expectedWhNumber)
    (hnodup : tables.newOrder.Nodup) :
    baseCheckNewOrderKeys id tables expectedWhNumber = .ok () ↔
      tables.newOrder.toFinset =
        Finset.Icc 1 (expectedWhNumber : Int) ×ˢ Finset.Icc 1 10 ×ˢ Finset.Icc 2101 3000 := by
  rw [baseCheckNewOrderKeys, seq_iff, seq_iff, seq_iff, checkCount_iff, checkRange_iff,
    checkRange_iff, lowerRange_iff]
  have hcount : ((tables.newOrder.length : Int) = id (id (expectedWhNumber *
      ((customersPerDistrict - firstUnprocessedOId + 1 : Nat) : Int)) * (districtCount : Int))) ↔
      tables.newOrder.length = (Finset.Icc 1 (expectedWhNumber : Int) ×ˢ Finset.Icc (1 : Int) 10 ×ˢ
        Finset.Icc (2101 : Int) 3000).card := by
    rw [card_rows (n := 9000) rfl]
    simp only [id, districtCount, districtHighId, districtLowId, customersPerDistrict,
      firstUnprocessedOId]
    omega
  rw [hcount]
  constructor
  · rintro ⟨hlength, hw, hd, least, hmin, hleast, hmax⟩
    refine (Grid.toFinset_eq_iff hnodup).mpr ⟨hlength, fun k hk => ?_⟩
    have hwbounds := Grid.Column.Tight.bounds (c := ⟨Prod.fst, 1, expectedWhNumber⟩) hw hk
    have hdbounds := Grid.Column.Tight.bounds (c := ⟨fun k : Int × Int × Int => k.2.1, 1, 10⟩) hd hk
    have hobounds := Grid.Column.Tight.bounds
      (c := ⟨fun k : Int × Int × Int => k.2.2, least, 3000⟩) ⟨hmin, hmax⟩ hk
    simp only [Finset.mem_product, Finset.mem_Icc]
    exact ⟨hwbounds, hdbounds, Int.le_trans hleast hobounds.1, hobounds.2⟩
  · intro hkeys
    obtain ⟨hlength, hw, hd, hmin, hmax⟩ :=
      (Grid.keys_prod₃_iff (by omega) (by decide) (by decide) hnodup).mpr hkeys
    exact ⟨hlength, hw, hd, 2101, hmin, by decide, hmax⟩

end Passes

/-- For every number of warehouses and different keys, a base check passes if and only if the keys of
its table are the full grid. -/
theorem baseChecks_iff_grid (tables : KeyTables) (expectedWhNumber : Nat)
    (hpos : 1 ≤ expectedWhNumber) (hunique : tables.Unique) :
    (baseCheckWarehouseKeys tables expectedWhNumber = .ok () ↔
      tables.warehouse.toFinset = Finset.Icc 1 (expectedWhNumber : Int)) ∧
    (baseCheckDistrictKeys id tables expectedWhNumber = .ok () ↔
      tables.district.toFinset = Finset.Icc 1 (expectedWhNumber : Int) ×ˢ Finset.Icc 1 10) ∧
    (baseCheckCustomerKeys id tables expectedWhNumber = .ok () ↔
      tables.customer.toFinset =
        Finset.Icc 1 (expectedWhNumber : Int) ×ˢ Finset.Icc 1 10 ×ˢ Finset.Icc 1 3000) ∧
    (baseCheckItemKeys tables = .ok () ↔ tables.item.toFinset = Finset.Icc 1 100000) ∧
    (baseCheckStockKeys id tables expectedWhNumber = .ok () ↔
      tables.stock.toFinset = Finset.Icc 1 (expectedWhNumber : Int) ×ˢ Finset.Icc 1 100000) ∧
    (baseCheckOorderKeys id tables expectedWhNumber = .ok () ↔
      tables.oorder.toFinset =
        Finset.Icc 1 (expectedWhNumber : Int) ×ˢ Finset.Icc 1 10 ×ˢ Finset.Icc 1 3000) ∧
    (baseCheckNewOrderKeys id tables expectedWhNumber = .ok () ↔
      tables.newOrder.toFinset =
        Finset.Icc 1 (expectedWhNumber : Int) ×ˢ Finset.Icc 1 10 ×ˢ Finset.Icc 2101 3000) :=
  ⟨baseCheckWarehouseKeys_iff hpos hunique.warehouse,
    baseCheckDistrictKeys_iff hpos hunique.district,
    baseCheckCustomerKeys_iff hpos hunique.customer, baseCheckItemKeys_iff hunique.item,
    baseCheckStockKeys_iff hpos hunique.stock, baseCheckOorderKeys_iff hpos hunique.oorder,
    baseCheckNewOrderKeys_iff hpos hunique.newOrder⟩

/-- One warehouse with its ten districts. -/
def oneWarehouse : KeyTables where
  warehouse := [1]
  district := [(1, 1), (1, 2), (1, 3), (1, 4), (1, 5), (1, 6), (1, 7), (1, 8), (1, 9), (1, 10)]
  customer := []
  item := []
  stock := []
  oorder := []
  newOrder := []

theorem baseChecks_iff_grid_oneWarehouse :
    1 ≤ 1 ∧ oneWarehouse.Unique ∧
      oneWarehouse.district.toFinset = Finset.Icc 1 ((1 : Nat) : Int) ×ˢ Finset.Icc 1 10 ∧
      ¬oneWarehouse.item.toFinset = Finset.Icc 1 100000 := by
  have hunique : oneWarehouse.Unique :=
    ⟨by decide, by decide, by decide, by decide, by decide, by decide, by decide⟩
  have hchecks := baseChecks_iff_grid oneWarehouse 1 le_rfl hunique
  refine ⟨le_rfl, hunique, hchecks.2.1.mp rfl, fun hitem => ?_⟩
  exact nomatch hchecks.2.2.2.1.mpr hitem

end Tpcc.Check
