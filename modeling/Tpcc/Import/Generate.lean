import Tpcc.Check.Model
import Tpcc.Random

/-! The rows that the loaders of `import.cpp` emit, for all results of their random draws. -/

namespace Tpcc.Import

open Store Transaction Check

/-- The draws for one customer.  The last name is drawn for the ids above 1000. -/
structure CustomerDraw where
  lastNum : Draw 0 255
  lastNum2 : Draw 0 999
  credit : Draw 1 100
  first : String
  data : String

/-- The draws for one order line. -/
structure LineDraw where
  itemId : Draw 1 itemCount
  amount : Draw 1 999999
  distInfo : String

/-- The draws for the orders of a district, with the shuffled customer ids and the time. -/
structure OrderDraws where
  customerIds : List Nat
  shuffled : customerIds.Perm (List.range' 1 customersPerDistrict)
  ts : Nat
  carrierId : Nat → Draw 1 10
  line : Nat → Nat → LineDraw

/-- All draws of an import.  `randomCount` is what a generator draws from 5 to 15 as the first number
after it was seeded, which the seed alone decides. -/
structure ImportDraws where
  itemPrice : Nat → Draw 100 10000
  warehouseName : Nat → String
  districtName : Nat → Nat → String
  stockQuantity : Nat → Nat → Draw 10 100
  stockDist : Nat → Nat → List String
  customer : Nat → Nat → Nat → CustomerDraw
  historyData : Nat → Nat → Nat → String
  order : Nat → Nat → OrderDraws
  randomCount : Nat → Draw minItems maxItems

variable (draws : ImportDraws)

def hashCustomer (warehouseId districtId customerId : Nat) : Nat :=
  warehouseId ^^^ (districtId <<< 1) ^^^ (customerId <<< 2)

/-- `GetRandomCount`. -/
def getRandomCount (warehouseId customerId districtId : Nat) : Nat :=
  (draws.randomCount (hashCustomer warehouseId districtId customerId)).val

def loadItems : List Item :=
  (List.range' 1 itemCount).map fun (i : Nat) => ⟨i, (draws.itemPrice i).val⟩

def loadWarehouses (startId lastId : Nat) : List Warehouse :=
  (List.range' startId (lastId + 1 - startId)).map fun wh =>
    ⟨wh, districtInitialYtd * districtCount, draws.warehouseName wh⟩

def loadDistricts (startId lastId : Nat) : List District :=
  (List.range' startId (lastId + 1 - startId)).flatMap fun wh =>
    districts.map fun d =>
      ⟨wh, d, districtInitialYtd, customersPerDistrict + 1, draws.districtName wh d⟩

def loadStock (wh : Nat) : List Stock :=
  (List.range' 1 itemCount).map fun (itemId : Nat) =>
    ⟨wh, itemId, (draws.stockQuantity wh itemId).val, 0, 0, 0, draws.stockDist wh itemId⟩

/-- The last name of customer `cid`, whose index is always in range. -/
def customerLast (draw : CustomerDraw) (cid : Nat) : String :=
  (if cid ≤ 1000 then getLastName (cid - 1)
  else getNonUniformRandomLastNameForLoad draw.lastNum draw.lastNum2).getD ""

def loadCustomers (wh district : Nat) : List Customer :=
  (List.range' 1 customersPerDistrict).map fun cid =>
    let draw := draws.customer wh district cid
    { cWId := wh
      cDId := district
      cId := cid
      cFirst := draw.first
      cLast := customerLast draw cid
      cCredit := if draw.credit.val ≤ 10 then "BC" else "GC"
      cBalance := -1000
      cYtdPayment := 1000
      cPaymentCnt := 1
      cDeliveryCnt := 0
      cData := draw.data }

def loadHistory (wh district : Nat) : List History :=
  (List.range' 1 customersPerDistrict).map fun cid =>
    ⟨cid, district, wh, district, wh, 1000, draws.historyData wh district cid⟩

def loadOorders (wh district : Nat) : List Oorder :=
  (List.range' 1 customersPerDistrict).map fun oid =>
    { oWId := wh
      oDId := district
      oId := oid
      oCId := (draws.order wh district).customerIds.getD (oid - 1) 0
      oCarrierId :=
        if oid < firstUnprocessedOId then some ((draws.order wh district).carrierId oid).val else none
      oOlCnt := getRandomCount draws wh oid district
      oAllLocal := 1 }

def loadNewOrders (wh district : Nat) : List NewOrder :=
  (List.range' firstUnprocessedOId (customersPerDistrict + 1 - firstUnprocessedOId)).map fun oid =>
    ⟨wh, district, oid⟩

/-- The lines of one order. -/
def loadLines (wh district oid : Nat) : List OrderLine :=
  (List.range' 1 (getRandomCount draws wh oid district)).map fun lineNum =>
    let draw := (draws.order wh district).line oid lineNum
    { olWId := wh
      olDId := district
      olOId := oid
      olNumber := lineNum
      olIId := draw.itemId.val
      olDeliveryD := if oid < firstUnprocessedOId then some (draws.order wh district).ts else none
      olAmount := if oid < firstUnprocessedOId then 0 else draw.amount.val
      olSupplyWId := wh
      olQuantity := 5
      olDistInfo := draw.distInfo }

def loadOrderLines (wh district : Nat) : List OrderLine :=
  (List.range' 1 customersPerDistrict).flatMap (loadLines draws wh district)

/-- The warehouses and districts in the order of `LoadWarehouse` for 1 to `warehouseCount`. -/
def grid (warehouseCount : Nat) : List (Nat × Nat) :=
  (List.range' 1 warehouseCount).flatMap fun wh => districts.map fun d => (wh, d)

/-- The tables after an import. -/
def importTables (warehouseCount : Nat) : Database where
  warehouse := loadWarehouses draws 1 warehouseCount
  district := loadDistricts draws 1 warehouseCount
  customer := (grid warehouseCount).flatMap fun (wh, d) => loadCustomers draws wh d
  history := (grid warehouseCount).flatMap fun (wh, d) => loadHistory draws wh d
  oorder := (grid warehouseCount).flatMap fun (wh, d) => loadOorders draws wh d
  newOrder := (grid warehouseCount).flatMap fun (wh, d) => loadNewOrders wh d
  orderLine := (grid warehouseCount).flatMap fun (wh, d) => loadOrderLines draws wh d
  item := loadItems draws
  stock := (List.range' 1 warehouseCount).flatMap (loadStock draws)

end Tpcc.Import
