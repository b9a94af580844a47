import Tpcc.Lib.Sql
import Tpcc.Transaction.Tasks

/-! The checks of `check.cpp`.  A check gets the tables and passes or throws a text.  `int` is what
becomes of the value of an expression of type `int`: itself, or its remainder modulo 2^32. -/

namespace Tpcc.Check

open Lib Store Transaction

/-- `.ok` when the check passes, else the text of the exception. -/
abbrev Outcome := Except String Unit

def districtCount : Nat := districtHighId - districtLowId + 1

def firstUnprocessedOId : Nat := 2101

/-- `DISTRICT_INITIAL_YTD` in cents. -/
def districtInitialYtd : Money := 3000000

/-- `CheckNoRows` with the rows of its query. -/
def checkNoRows {α : Type} (rows : List α) (description : String) : Outcome :=
  if rows.isEmpty then .ok ()
  else .error (if description.isEmpty then "Unexpected rows returned" else description)

/-- `ABS(a - b) > 1e-3` for amounts in cents. -/
def differs (a b : Money) : Bool := decide (10 * (a - b).natAbs > 1)

/-- A column of the result's row that may be `NULL`. -/
def require {α : Type} (column : String) : Option α → Except String α
  | some value => .ok value
  | none => .error ("NULL in column: " ++ column)

/-- Throws `message` when the condition holds. -/
def throwIf (condition : Bool) (message : String) : Outcome :=
  if condition then .error message else .ok ()

/-- The least and the greatest value, in the columns that `column` names, must be `low` and `high`. -/
def checkRange {α : Type} [Min α] [Max α] [DecidableEq α] (column : String) (values : List α)
    (low high : α) (message : α → α → String) : Outcome := do
  let least ← require ("min_" ++ column) values.min?
  let greatest ← require ("max_" ++ column) values.max?
  throwIf (least ≠ low ∨ greatest ≠ high) (message least greatest)

/-- `COUNT(*)` must be the expected number. -/
def checkCount (name : String) (rowCount : Nat) (expectedCount : Int) : Outcome :=
  throwIf ((rowCount : Int) ≠ expectedCount)
    (name ++ " is " ++ toString rowCount ++ " and not " ++ toString expectedCount)

def rangeText (name : String) (expectedLow expectedHigh low high : Nat) : String :=
  name ++ " [" ++ toString low ++ ", " ++ toString high ++ "] instead of [" ++
    toString expectedLow ++ ", " ++ toString expectedHigh ++ "]"

section Base

variable (int : Int → Int)

def baseCheckWarehouseTable (db : Database) (expectedWhNumber : Nat) : Outcome := do
  let rowCount := db.warehouse.length
  let maxWh ← require "max_id" (db.warehouse.map Warehouse.wId).max?
  let minWh ← require "min_id" (db.warehouse.map Warehouse.wId).min?
  throwIf (rowCount ≠ expectedWhNumber ∨ minWh ≠ 1 ∨ maxWh ≠ expectedWhNumber)
    ("Inconsistent warehouse: count=" ++ toString rowCount ++ ", min=" ++ toString minWh ++
      ", max=" ++ toString maxWh ++ ", expected=" ++ toString expectedWhNumber)

def baseCheckDistrictTable (db : Database) (expectedWhNumber : Nat) : Outcome := do
  checkCount "District count" db.district.length (int (expectedWhNumber * districtCount))
  checkRange "w_id" (db.district.map District.dWId) 1 expectedWhNumber
    (rangeText "District warehouse range" 1 expectedWhNumber)
  checkRange "d_id" (db.district.map District.dId) districtLowId districtHighId
    (rangeText "District ID range" districtLowId districtHighId)

def baseCheckCustomerTable (db : Database) (expectedWhNumber : Nat) : Outcome := do
  checkCount "Customer count" db.customer.length
    (int (int (expectedWhNumber * customersPerDistrict) * districtCount))
  checkRange "w" (db.customer.map Customer.cWId) 1 expectedWhNumber
    (rangeText "Customer warehouse range" 1 expectedWhNumber)
  checkRange "d" (db.customer.map Customer.cDId) districtLowId districtHighId
    fun _ _ => "Customer district range mismatch"
  checkRange "c" (db.customer.map Customer.cId) 1 customersPerDistrict
    fun _ _ => "Customer ID range mismatch"

def baseCheckItemTable (db : Database) : Outcome := do
  checkCount "Item count" db.item.length itemCount
  checkRange "id" (db.item.map Item.iId) 1 (itemCount : Int) fun _ _ => "Item ID range mismatch"

def baseCheckStockTable (db : Database) (expectedWhNumber : Nat) : Outcome := do
  checkCount "Stock count" db.stock.length (int (expectedWhNumber * itemCount))
  checkCount "Stock warehouse count" (db.stock.map Stock.sWId).dedup.length expectedWhNumber
  checkRange "w" (db.stock.map Stock.sWId) 1 expectedWhNumber
    fun _ _ => "Stock warehouse range mismatch"
  checkRange "i" (db.stock.map Stock.sIId) 1 (itemCount : Int)
    fun _ _ => "Stock item range mismatch"

def baseCheckOorderTable (db : Database) (expectedWhNumber : Nat) : Outcome := do
  checkCount "Order count" db.oorder.length
    (int (int (expectedWhNumber * customersPerDistrict) * districtCount))
  checkRange "w" (db.oorder.map Oorder.oWId) 1 expectedWhNumber
    fun _ _ => "Order warehouse range mismatch"
  checkRange "d" (db.oorder.map Oorder.oDId) districtLowId districtHighId
    fun _ _ => "Order district range mismatch"
  checkRange "o" (db.oorder.map Oorder.oId) 1 customersPerDistrict
    fun _ _ => "Order ID range mismatch"

/-- The least order id may be larger than `FIRST_UNPROCESSED_O_ID` here. -/
def baseCheckNewOrderTable (db : Database) (expectedWhNumber : Nat) : Outcome := do
  let newOrdersPerDistrict := customersPerDistrict - firstUnprocessedOId + 1
  checkCount "New order count" db.newOrder.length
    (int (int (expectedWhNumber * newOrdersPerDistrict) * districtCount))
  checkRange "w" (db.newOrder.map NewOrder.noWId) 1 expectedWhNumber
    fun _ _ => "New order warehouse range mismatch"
  checkRange "d" (db.newOrder.map NewOrder.noDId) districtLowId districtHighId
    fun _ _ => "New order district range mismatch"
  let least ← require "min_o" (db.newOrder.map NewOrder.noOId).min?
  let greatest ← require "max_o" (db.newOrder.map NewOrder.noOId).max?
  throwIf (least < firstUnprocessedOId ∨ greatest ≠ customersPerDistrict)
    "New order ID range mismatch"

/-- `COUNT(DISTINCT ol_o_id)` for each district. -/
def orderCounts (db : Database) : List Nat :=
  (Sql.groupBy (fun r => (r.olWId, r.olDId)) db.orderLine).map fun group =>
    (group.2.map OrderLine.olOId).dedup.length

def baseCheckOrderLineTable (db : Database) (expectedWhNumber : Nat) : Outcome := do
  checkCount "Order line district count" (orderCounts db).length
    (int (expectedWhNumber * districtCount))
  checkRange "orders" (orderCounts db) customersPerDistrict customersPerDistrict
    (rangeText "Order line orders per district" customersPerDistrict customersPerDistrict)

def baseCheckHistoryTable (db : Database) (expectedWhNumber : Nat) : Outcome := do
  checkCount "History count" db.history.length
    (int (int (expectedWhNumber * customersPerDistrict) * districtCount))
  checkRange "w" (db.history.map History.hCWId) 1 expectedWhNumber
    fun _ _ => "History warehouse range mismatch"

end Base

/-- The loop `for (startWh = 1; startWh <= warehouseCount; startWh += kRangeSize)` from `startWh` on,
with the ranges `[startWh, endWh]`. -/
def rangesFrom (kRangeSize warehouseCount : Nat) : Nat → Nat → List (Nat × Nat)
  | 0, _ => []
  | fuel + 1, startWh =>
    if startWh ≤ warehouseCount then
      (startWh, min (startWh + kRangeSize - 1) warehouseCount) ::
        rangesFrom kRangeSize warehouseCount fuel (startWh + kRangeSize)
    else []

def ranges (kRangeSize warehouseCount : Nat) : List (Nat × Nat) :=
  rangesFrom kRangeSize warehouseCount warehouseCount 1

/-- One query for each range; the first that returns a row throws. -/
def checkRanges {α : Type} (name : String) (kRangeSize warehouseCount : Nat)
    (query : Nat → Nat → List α) : Outcome :=
  (ranges kRangeSize warehouseCount).forM fun (startWh, endWh) =>
    checkNoRows (query startWh endWh)
      (name ++ " w_id [" ++ toString startWh ++ "," ++ toString endWh ++ "]")

/-- `w >= startWh AND w <= endWh`. -/
def within (startWh endWh w : Nat) : Bool := decide (startWh ≤ w ∧ w ≤ endWh)

section Consistency

variable (db : Database)

def consistencyCheck3321 : Outcome :=
  let d := Sql.groupBy District.dWId db.district
  checkNoRows
    ((Sql.join (fun w d => w.wId = d.1) db.warehouse d).filter fun (w, d) =>
      differs w.wYtd (d.2.map District.dYtd).sum) ""

def consistencyCheck3322 : Outcome :=
  let o := (Sql.groupBy (fun r => (r.oWId, r.oDId)) db.oorder).map fun (k, rows) =>
    (k, (rows.map Oorder.oId).max?)
  let n := (Sql.groupBy (fun r => (r.noWId, r.noDId)) db.newOrder).map fun (k, rows) =>
    (k, (rows.map NewOrder.noOId).max?)
  let joined := Sql.leftJoin (fun (r : District × _) n => r.1.key = n.1)
    (Sql.leftJoin (fun d o => d.key = o.1) db.district o) n
  checkNoRows
    (joined.filter fun ((d, o), n) =>
      let maxOId : Option Int := (o.bind Prod.snd).map Int.ofNat
      let maxNoOId : Option Int := (n.bind Prod.snd).map Int.ofNat
      Sql.or (Sql.ne (some ((d.dNextOId : Int) - 1)) maxOId) (Sql.ne maxOId maxNoOId) = some true)
    ""

def consistencyCheck3323 : Outcome :=
  checkNoRows
    ((Sql.groupBy (fun r => (r.noWId, r.noDId)) db.newOrder).filter fun (_, rows) =>
      let ids := rows.map NewOrder.noOId
      Sql.ne (ids.max?.bind fun greatest => ids.min?.map fun least =>
        (rows.length : Int) - ((greatest : Int) - least + 1)) (some 0) = some true) ""

variable (warehouseCount : Nat)

def consistencyCheck3324 : Outcome :=
  checkRanges "3.3.2.4" 50 warehouseCount fun startWh endWh =>
    let o := (Sql.groupBy (fun r => (r.oWId, r.oDId))
      (db.oorder.filter fun r => within startWh endWh r.oWId)).map fun (k, rows) =>
        (k, ((rows.map Oorder.oOlCnt).sum : Int))
    let ol := (Sql.groupBy (fun r => (r.olWId, r.olDId))
      (db.orderLine.filter fun r => within startWh endWh r.olWId)).map fun (k, rows) =>
        (k, (rows.length : Int))
    ((Sql.leftJoin (fun o ol => o.1 = ol.1) o ol).filter fun (o, ol) =>
        o.2 ≠ (ol.map Prod.snd).getD (-1)).map (fun (o, _) => o.1) ++
      ((Sql.leftJoin (fun ol o => o.1 = ol.1) ol o).filter fun (_, o) => o.isNone).map
        fun (ol, _) => ol.1

def consistencyCheck3325 : Outcome :=
  checkRanges "3.3.2.5" 50 warehouseCount fun startWh endWh =>
    ((Sql.leftJoin (fun no o => no.key = o.key) db.newOrder db.oorder).filter fun (no, o) =>
        within startWh endWh no.noWId &&
          (o.isNone || o.any fun r => r.oCarrierId.any fun carrier => carrier ≠ 0)).map
        (fun (no, _) => no.key) ++
      ((Sql.leftJoin (fun o no => o.key = no.key) db.oorder db.newOrder).filter fun (o, no) =>
        within startWh endWh o.oWId && (o.oCarrierId.isNone || o.oCarrierId = some 0) &&
          no.isNone).map fun (o, _) => o.key

def consistencyCheck3326 : Outcome :=
  checkRanges "3.3.2.6" 50 warehouseCount fun startWh endWh =>
    let lines := db.orderLine.filter fun r => within startWh endWh r.olWId
    let l := (Sql.groupBy OrderLine.order lines).map fun (k, rows) => (k, rows.length)
    ((Sql.leftJoin (fun o l => o.key = l.1) db.oorder l).filter fun (o, l) =>
        within startWh endWh o.oWId && o.oOlCnt ≠ (l.map Prod.snd).getD 0).map
        (fun (o, _) => o.key) ++
      ((Sql.leftJoin (fun l o => l = o.key) (lines.map OrderLine.order).dedup db.oorder).filter
        fun (_, o) => o.isNone).map Prod.fst

/-- `CASE WHEN … THEN 1 ELSE 0 END`. -/
def indicator (condition : Bool) : Nat := if condition then 1 else 0

def consistencyCheck3327 : Outcome :=
  checkRanges "3.3.2.7" 10 warehouseCount fun startWh endWh =>
    let l := (Sql.groupBy OrderLine.order
      (db.orderLine.filter fun r => within startWh endWh r.olWId)).map fun (k, rows) =>
        (k, (rows.map fun (r : OrderLine) => indicator r.olDeliveryD.isSome).min?,
          (rows.map fun (r : OrderLine) => indicator r.olDeliveryD.isNone).max?)
    (Sql.join (fun l o => l.1 = o.key) l db.oorder).filter fun ((_, allDelivered, someNull), o) =>
      (o.oCarrierId.isNone && allDelivered = some 1) || (o.oCarrierId.isSome && someNull = some 1)

def consistencyCheck3328 : Outcome :=
  let h := Sql.groupBy History.hWId db.history
  checkNoRows
    ((Sql.join (fun w h => w.wId = h.1) db.warehouse h).filter fun (w, h) =>
      differs w.wYtd (h.2.map History.hAmount).sum) ""

def consistencyCheck3329 : Outcome :=
  let h := Sql.groupBy (fun r => (r.hWId, r.hDId)) db.history
  checkNoRows
    ((Sql.join (fun d h => d.key = h.1) db.district h).filter fun (d, h) =>
      differs d.dYtd (h.2.map History.hAmount).sum) ""

/-- The sums of the delivered lines' amounts for each customer that has any, over the orders of
warehouses `startWh` to `endWh`. -/
def deliveredSums (startWh endWh : Nat) : List ((Nat × Nat × Nat) × Money) :=
  (Sql.groupBy (fun (o, _) => (o.oWId, o.oDId, o.oCId))
    ((Sql.join (fun o ol => ol.order = o.key) db.oorder db.orderLine).filter fun (o, ol) =>
      ol.olDeliveryD.isSome && within startWh endWh o.oWId)).map fun (k, rows) =>
    (k, (rows.map fun (_, ol) => ol.olAmount).sum)

def consistencyCheck33210 : Outcome :=
  checkRanges "3.3.2.10" 10 warehouseCount fun startWh endWh =>
    let hs := (Sql.groupBy (fun r => (r.hCWId, r.hCDId, r.hCId))
      (db.history.filter fun r => within startWh endWh r.hCWId)).map fun (k, rows) =>
        (k, (rows.map History.hAmount).sum)
    let joined := Sql.leftJoin (fun (r : Customer × _) h => r.1.key = h.1)
      (Sql.leftJoin (fun c l => c.key = l.1) db.customer (deliveredSums db startWh endWh)) hs
    joined.filter fun ((c, l), h) =>
      within startWh endWh c.cWId &&
        differs c.cBalance ((l.map Prod.snd).getD 0 - (h.map Prod.snd).getD 0)

def consistencyCheck33211 : Outcome :=
  checkRanges "3.3.2.11" 50 warehouseCount fun startWh endWh =>
    let o := (Sql.groupBy (fun r => (r.oWId, r.oDId))
      (db.oorder.filter fun r => within startWh endWh r.oWId)).map fun (k, rows) =>
        (k, (rows.length : Int))
    let n := (Sql.groupBy (fun r => (r.noWId, r.noDId))
      (db.newOrder.filter fun r => within startWh endWh r.noWId)).map fun (k, rows) =>
        (k, (rows.length : Int))
    (Sql.join (fun o n => o.1 = n.1) o n).filter fun (o, n) =>
      o.2 - n.2 ≠ (firstUnprocessedOId : Int) - 1

def consistencyCheck33212 : Outcome :=
  checkRanges "3.3.2.12" 10 warehouseCount fun startWh endWh =>
    (Sql.join (fun c l => c.key = l.1) db.customer (deliveredSums db startWh endWh)).filter
      fun (c, l) =>
        within startWh endWh c.cWId && differs (c.cBalance + c.cYtdPayment) l.2

end Consistency

section PostImport

variable (db : Database)

def postImportCheckNextOrderId : Outcome :=
  checkNoRows (db.district.filter fun r => r.dNextOId ≠ customersPerDistrict + 1)
    "D_NEXT_O_ID must be 3001 for all districts after import"

def postImportCheckWarehouseYtd : Outcome :=
  checkNoRows (db.warehouse.filter fun r => differs r.wYtd (districtInitialYtd * districtCount))
    "W_YTD must be 300000 after import"

def postImportCheckDistrictYtd : Outcome :=
  checkNoRows (db.district.filter fun r => differs r.dYtd districtInitialYtd)
    "D_YTD must be 30000 after import"

def postImportCheckNoCarriers : Outcome :=
  checkNoRows
    (db.oorder.filter fun r => decide (firstUnprocessedOId ≤ r.oId) && r.oCarrierId.isSome)
    "Unprocessed orders must have NULL O_CARRIER_ID after import"

def postImportCheckNoDeliveryDates : Outcome :=
  checkNoRows
    (db.orderLine.filter fun r => decide (firstUnprocessedOId ≤ r.olOId) && r.olDeliveryD.isSome)
    "Unprocessed order lines must have NULL OL_DELIVERY_D after import"

end PostImport

/-- The first group of `CheckSync`. -/
def baseChecks (int : Int → Int) (db : Database) (warehouseCount : Nat) (afterImport : Bool) :
    List Outcome :=
  [baseCheckWarehouseTable db warehouseCount, baseCheckDistrictTable int db warehouseCount,
    baseCheckCustomerTable int db warehouseCount, baseCheckItemTable db,
    baseCheckStockTable int db warehouseCount] ++
  if afterImport then
    [baseCheckOorderTable int db warehouseCount, baseCheckNewOrderTable int db warehouseCount,
      baseCheckOrderLineTable int db warehouseCount, baseCheckHistoryTable int db warehouseCount]
  else []

/-- The second group of `CheckSync`. -/
def consistencyChecks (db : Database) (warehouseCount : Nat) (afterImport : Bool) : List Outcome :=
  [consistencyCheck3321 db, consistencyCheck3322 db, consistencyCheck3323 db,
    consistencyCheck3324 db warehouseCount, consistencyCheck3325 db warehouseCount,
    consistencyCheck3326 db warehouseCount, consistencyCheck3327 db warehouseCount,
    consistencyCheck3328 db, consistencyCheck3329 db, consistencyCheck33210 db warehouseCount,
    consistencyCheck33212 db warehouseCount] ++
  if afterImport then
    [consistencyCheck33211 db warehouseCount, postImportCheckNextOrderId db,
      postImportCheckWarehouseYtd db, postImportCheckDistrictYtd db, postImportCheckNoCarriers db,
      postImportCheckNoDeliveryDates db]
  else []

/-- The checks that throw. -/
def failedCount (checks : List Outcome) : Nat :=
  checks.countP fun check => match check with
    | .ok _ => false
    | .error _ => true

/-- `CheckSync` over the tables of its connection. -/
def checkSync (int : Int → Int) (db : Database) (warehouseCount : Nat) (afterImport : Bool) :
    Outcome :=
  if warehouseCount = 0 then .ok ()
  else if failedCount (baseChecks int db warehouseCount afterImport) > 0 then
    .error "Base checks failed"
  else
    match failedCount (consistencyChecks db warehouseCount afterImport) with
    | 0 => .ok ()
    | failed => .error (toString failed ++ " checks failed")

end Tpcc.Check
