import Mathlib.Logic.Function.Basic
import Tpcc.Transaction.Statement

/-! The five transactions.  Their random draws are arguments. -/

namespace Tpcc.Transaction

open Lib Db Store

/-- A result of `RandomNumber(lo, hi)`. -/
abbrev Draw (lo hi : Nat) := { n : Nat // lo ≤ n ∧ n ≤ hi }

def districtLowId : Nat := 1

def districtHighId : Nat := 10

def customersPerDistrict : Nat := 3000

def itemCount : Nat := 100000

def invalidItemId : Int := -12345

def minItems : Nat := 5

def maxItems : Nat := 15

/-- The fields of `TTransactionContext` that the transactions read. -/
structure TTransactionContext where
  warehouseID : Nat
  warehouseCount : Nat
  deriving DecidableEq

/-- The warehouse that the loop `do … while (w == warehouseID && WarehouseCount > 1)` ends with. -/
structure OtherWarehouse (context : TTransactionContext) where
  warehouse : Draw 1 context.warehouseCount
  accepted : ¬(warehouse.val = context.warehouseID ∧ context.warehouseCount > 1)

section NewOrder

/-- The draws for one item of an order.  `remote` is drawn when `percent` is 1. -/
structure ItemDraw (context : TTransactionContext) where
  itemID : Draw 1 itemCount
  percent : Draw 1 100
  remote : OtherWarehouse context
  quantity : Draw 1 10

structure NewOrderDraws (context : TTransactionContext) where
  districtID : Draw districtLowId districtHighId
  customerID : Draw 1 customersPerDistrict
  items : List (ItemDraw context)
  invalid : Draw 1 100
  numItems : minItems ≤ items.length ∧ items.length ≤ maxItems

/-- One entry of `itemIDs`, `supplierWarehouseIDs` and `orderQuantities`. -/
structure OrderItem where
  itemID : Int
  supplierWarehouseID : Nat
  orderQuantity : Int
  deriving DecidableEq

variable {context : TTransactionContext}

def ItemDraw.isLocal (draw : ItemDraw context) : Bool := decide (draw.percent.val > 1)

def ItemDraw.orderItem (draw : ItemDraw context) : OrderItem where
  itemID := draw.itemID.val
  supplierWarehouseID :=
    if draw.isLocal then context.warehouseID else draw.remote.warehouse.val
  orderQuantity := draw.quantity.val

namespace NewOrderDraws

variable (draws : NewOrderDraws context)

def hasInvalidItem : Bool := decide (draws.invalid.val = 1)

/-- The items of the order; the last one may be replaced by the invalid item. -/
def orderItems : List OrderItem :=
  let items := draws.items.map ItemDraw.orderItem
  if draws.hasInvalidItem then
    items.modify (items.length - 1) fun item => { item with itemID := invalidItemId }
  else items

def allLocal : Nat := if draws.items.all ItemDraw.isLocal then 1 else 0

end NewOrderDraws

/-- `GetDistInfo`. -/
def getDistInfo (districtID : Nat) (stock : Stock) : String :=
  if 1 ≤ districtID ∧ districtID ≤ 10 then stock.sDist.getD (districtID - 1) "" else ""

/-- The loop that reads the prices. -/
def selectItems : List OrderItem → (Int → Option Money) → Task (Int → Option Money)
  | [], itemPrices => return itemPrices
  | item :: rest, itemPrices => do
    if item.itemID = invalidItemId then
      selectItems rest itemPrices
    else
      let itemResult ← executeQuery (.newOrderSelectItem item.itemID)
      match itemResult with
      | some row => selectItems rest (Function.update itemPrices item.itemID (some row.iPrice))
      | none => selectItems rest itemPrices

/-- The loop that reads and locks the stock. -/
def selectStocks : List OrderItem → (Nat × Int → Option Stock) → Task (Nat × Int → Option Stock)
  | [], stocks => return stocks
  | item :: rest, stocks => do
    let key := (item.supplierWarehouseID, item.itemID)
    if (stocks key).isSome then
      selectStocks rest stocks
    else
      let stockResult ← executeQuery (.newOrderSelectStockForUpdate key.1 key.2)
      match stockResult with
      | some row => selectStocks rest (Function.update stocks key (some row))
      | none => selectStocks rest stocks

/-- The stock's quantity after an order of `qty`. -/
def nextQuantity (quantity qty : Int) : Int :=
  if quantity - qty ≥ 10 then quantity - qty else quantity + (-qty + 91)

/-- The loop over the order lines from `olNum` on; `false` is the early `co_return false`. -/
def insertOrderLines (context : TTransactionContext) (districtID nextOrderID : Nat)
    (itemPrices : Int → Option Money) :
    Nat → List OrderItem → (Nat × Int → Option Stock) → Task Bool
  | _, [], _ => return true
  | olNum, item :: rest, stocks => do
    let key := (item.supplierWarehouseID, item.itemID)
    match itemPrices item.itemID with
    | none =>
      requestStopWithError
      return false
    | some iPrice =>
      match stocks key with
      | none =>
        requestStopWithError
        return false
      | some stock =>
        let stock' := { stock with sQuantity := nextQuantity stock.sQuantity item.orderQuantity }
        executeModify (.newOrderUpdateStock stock'.sQuantity item.orderQuantity
          (if item.supplierWarehouseID = context.warehouseID then 0 else 1) key.1 key.2)
        executeModify (.newOrderInsertOrderLine context.warehouseID districtID nextOrderID olNum
          item.itemID (item.orderQuantity * iPrice) item.supplierWarehouseID item.orderQuantity
          (getDistInfo districtID stock'))
        insertOrderLines context districtID nextOrderID itemPrices (olNum + 1) rest
          (Function.update stocks key (some stock'))

/-- `GetNewOrderTask`. -/
def getNewOrderTask (context : TTransactionContext) (draws : NewOrderDraws context) :
    Task Bool := do
  let w := context.warehouseID
  let d := draws.districtID.val
  let items := draws.orderItems
  let _ ← executeQuery (.newOrderSelectCustomer w d draws.customerID.val)
  let _ ← executeQuery (.newOrderSelectWarehouseTax w)
  let distResult ← executeQuery (.newOrderSelectDistrictForUpdate w d)
  match distResult with
  | none =>
    requestStopWithError
    return false
  | some district =>
    let nextOrderID := district.dNextOId
    executeModify (.newOrderUpdateDistrict w d)
    executeModify (.newOrderInsertOorder w d nextOrderID draws.customerID.val items.length
      draws.allLocal)
    executeModify (.newOrderInsertNewOrder w d nextOrderID)
    let itemPrices ← selectItems items fun _ => none
    if draws.hasInvalidItem then
      rollback
      .throw .userAborted
    else
      let stocks ← selectStocks items fun _ => none
      let done ← insertOrderLines context d nextOrderID itemPrices 1 items stocks
      if done then
        commit
        return true
      else
        return false

end NewOrder

section Customers

/-- `SelectCustomerFromResultSet`. -/
def selectCustomerFromResultSet (customers : List Customer) : Option Customer :=
  let index := customers.length / 2
  let index := if customers.length % 2 = 0 ∧ index > 0 then index - 1 else index
  customers[index]?

/-- The draws that choose a customer. -/
structure CustomerDraws where
  percent : Draw 1 100
  lastName : String
  customerID : Draw 1 customersPerDistrict

/-- The lookup that Payment and OrderStatus share, by last name or by id. -/
def selectCustomer (forUpdate : Bool) (w d : Nat) (draws : CustomerDraws) :
    Task (Option Customer) := do
  if draws.percent.val ≤ 60 then
    let custResult ← executeQuery (.customerSelectByLastName forUpdate w d draws.lastName)
    return selectCustomerFromResultSet custResult
  else
    let custResult ← executeQuery (.customerSelectById forUpdate w d draws.customerID.val)
    return custResult.map fun row => { row with cId := draws.customerID.val }

end Customers

section Payment

structure PaymentDraws (context : TTransactionContext) where
  districtID : Draw districtLowId districtHighId
  paymentAmount : Draw 100 500000
  percent : Draw 1 100
  remoteDistrictID : Draw districtLowId districtHighId
  remote : OtherWarehouse context
  customer : CustomerDraws

variable {context : TTransactionContext}

/-- The customer's warehouse and district. -/
def PaymentDraws.customerHome (draws : PaymentDraws context) : Nat × Nat :=
  if draws.percent.val ≤ 85 then (context.warehouseID, draws.districtID.val)
  else (draws.remote.warehouse.val, draws.remoteDistrictID.val)

/-- An amount as `{:.2f}` prints it. -/
def formatMoney (amount : Nat) : String :=
  let cents := amount % 100
  toString (amount / 100) ++ "." ++ (if cents < 10 then "0" else "") ++ toString cents

/-- The new `C_DATA` of a customer with bad credit. -/
def customerData (c cd cw d w amount : Nat) (cData : String) : String :=
  let newData := toString c ++ " " ++ toString cd ++ " " ++ toString cw ++ " " ++ toString d ++ " " ++
    toString w ++ " " ++ formatMoney amount ++ " | " ++ cData
  if newData.length > 500 then String.ofList (newData.toList.take 500) else newData

/-- `H_DATA`. -/
def historyData (warehouseName districtName : String) : String :=
  let data := warehouseName ++ "    " ++ districtName
  if data.length > 24 then String.ofList (data.toList.take 24) else data

/-- The part of `GetPaymentTask` that updates the customer. -/
def updateCustomer (context : TTransactionContext) (draws : PaymentDraws context)
    (customer : Customer) : Task Unit := do
  let amount := draws.paymentAmount.val
  let (cw, cd) := draws.customerHome
  if customer.cCredit = "BC" then
    let cDataResult ← executeQuery (.paymentSelectCustomerData cw cd customer.cId)
    let cData := match cDataResult with
      | some row => row.cData
      | none => ""
    executeModify (.paymentUpdateCustomerBc amount amount
      (customerData customer.cId cd cw draws.districtID.val context.warehouseID amount cData)
      cw cd customer.cId)
  else
    executeModify (.paymentUpdateCustomer amount amount cw cd customer.cId)

/-- `GetPaymentTask`. -/
def getPaymentTask (context : TTransactionContext) (draws : PaymentDraws context) :
    Task Bool := do
  let w := context.warehouseID
  let d := draws.districtID.val
  let amount := draws.paymentAmount.val
  let whResult ← executeQuery (.paymentSelectWarehouseForUpdate w)
  match whResult with
  | none =>
    requestStopWithError
    return false
  | some warehouse =>
    executeModify (.paymentUpdateWarehouseYtd amount w)
    let distResult ← executeQuery (.paymentSelectDistrictForUpdate w d)
    match distResult with
    | none =>
      requestStopWithError
      return false
    | some district =>
      executeModify (.paymentUpdateDistrictYtd amount w d)
      let (cw, cd) := draws.customerHome
      let selected ← selectCustomer true cw cd draws.customer
      match selected with
      | none =>
        requestStopWithError
        return false
      | some customer =>
        updateCustomer context draws customer
        executeModify (.paymentInsertHistory customer.cId cd cw d w amount
          (historyData warehouse.wName district.dName))
        commit
        return true

end Payment

section Delivery

structure DeliveryDraws where
  carrierID : Draw 1 10

/-- `TOrderData`. -/
structure TOrderData where
  orderID : Nat
  customerId : Nat
  totalAmount : Money
  deriving DecidableEq

/-- The reads of `GetDeliveryTask` for one district: `none` is the early `co_return false`, and
`some none` a district without new orders. -/
def selectOrder (w d : Nat) : Task (Option (Option TOrderData)) := do
  let noResult ← executeQuery (.deliverySelectNewOrderForUpdate d w)
  match noResult with
  | none => return some none
  | some newOrder =>
    let cidResult ← executeQuery (.deliverySelectOrderCustomer w d newOrder.noOId)
    match cidResult with
    | none =>
      requestStopWithError
      return none
    | some order =>
      let olResult ← executeQuery (.deliverySelectOrderLines w d newOrder.noOId)
      if olResult.isEmpty then
        requestStopWithError
        return none
      else
        return some (some ⟨newOrder.noOId, order.oCId, (olResult.map OrderLine.olAmount).sum⟩)

/-- The reads for the districts of the list. -/
def selectOrders (w : Nat) : List Nat → Task (Option (List (Nat × Option TOrderData)))
  | [] => return some []
  | d :: rest => do
    let order ← selectOrder w d
    match order with
    | none => return none
    | some order =>
      let orders ← selectOrders w rest
      return orders.map ((d, order) :: ·)

/-- The writes for one district. -/
def deliverOrder (w d carrierID : Nat) (order : TOrderData) : Task Unit := do
  executeModify (.deliveryDeleteNewOrder w d order.orderID)
  executeModify (.deliveryUpdateCarrier carrierID w d order.orderID)
  executeModify (.deliveryUpdateOrderLineDelivery w d order.orderID)
  executeModify (.deliveryUpdateCustomerBalance order.totalAmount w d order.customerId)

/-- The writes for the orders that were read. -/
def deliverOrders (w carrierID : Nat) : List (Nat × Option TOrderData) → Task Unit
  | [] => return ()
  | (d, some order) :: rest => do
    deliverOrder w d carrierID order
    deliverOrders w carrierID rest
  | (_, none) :: rest => deliverOrders w carrierID rest

/-- The districts in the order of the loops. -/
def districts : List Nat := List.range' districtLowId (districtHighId - districtLowId + 1)

/-- `GetDeliveryTask`. -/
def getDeliveryTask (context : TTransactionContext) (draws : DeliveryDraws) : Task Bool := do
  let orders ← selectOrders context.warehouseID districts
  match orders with
  | none => return false
  | some orders =>
    deliverOrders context.warehouseID draws.carrierID.val orders
    commit
    return true

end Delivery

section OrderStatus

structure OrderStatusDraws where
  districtID : Draw districtLowId districtHighId
  customer : CustomerDraws

/-- `GetOrderStatusTask`. -/
def getOrderStatusTask (context : TTransactionContext) (draws : OrderStatusDraws) :
    Task Bool := do
  let w := context.warehouseID
  let d := draws.districtID.val
  let selected ← selectCustomer false w d draws.customer
  match selected with
  | none =>
    requestStopWithError
    return false
  | some customer =>
    let orderResult ← executeQuery (.orderStatusSelectLatestOrder w d customer.cId)
    match orderResult with
    | none =>
      commit
      return true
    | some order =>
      let _ ← executeQuery (.orderStatusSelectOrderLines w d order.oId)
      commit
      return true

end OrderStatus

section StockLevel

structure StockLevelDraws where
  districtID : Draw districtLowId districtHighId
  threshold : Draw 10 20

/-- `GetStockLevelTask`. -/
def getStockLevelTask (context : TTransactionContext) (draws : StockLevelDraws) : Task Bool := do
  let w := context.warehouseID
  let d := draws.districtID.val
  let distResult ← executeQuery (.stockLevelSelectDistrict w d)
  match distResult with
  | none =>
    requestStopWithError
    return false
  | some district =>
    let _ ← executeQuery (.stockLevelCountStock w d district.dNextOId (district.dNextOId - 20 : Int)
      w draws.threshold.val)
    commit
    return true

end StockLevel

inductive ETransactionType
  | newOrder
  | delivery
  | orderStatus
  | payment
  | stockLevel
  deriving DecidableEq

/-- The draws of one call of a transaction, whichever it is. -/
structure Draws (context : TTransactionContext) where
  newOrder : NewOrderDraws context
  delivery : DeliveryDraws
  orderStatus : OrderStatusDraws
  payment : PaymentDraws context
  stockLevel : StockLevelDraws

/-- The `TaskFunc` of a transaction. -/
def ETransactionType.taskFunc {context : TTransactionContext} (draws : Draws context) :
    ETransactionType → Task Bool
  | .newOrder => getNewOrderTask context draws.newOrder
  | .delivery => getDeliveryTask context draws.delivery
  | .orderStatus => getOrderStatusTask context draws.orderStatus
  | .payment => getPaymentTask context draws.payment
  | .stockLevel => getStockLevelTask context draws.stockLevel

section Sample

/-- A terminal of the only warehouse. -/
def sampleContext : TTransactionContext := ⟨1, 1⟩

def sampleOther : OtherWarehouse sampleContext := ⟨⟨1, by decide⟩, by decide⟩

def sampleCustomer : CustomerDraws := ⟨⟨1, by decide⟩, "ABLEABLEPRI", ⟨1, by decide⟩⟩

def sampleItem : Draw 1 itemCount := ⟨1, by decide⟩

def sampleCarrier : Draw 1 10 := ⟨1, by decide⟩

/-- The draws of a call in which five items are ordered, each with the given percentage. -/
def sampleDraws (percent : Draw 1 100) : Draws sampleContext where
  newOrder := ⟨⟨1, by decide⟩, ⟨1, by decide⟩,
    List.replicate 5 ⟨sampleItem, percent, sampleOther, ⟨1, by decide⟩⟩, ⟨2, by decide⟩,
    by simp [minItems, maxItems]⟩
  delivery := ⟨sampleCarrier⟩
  orderStatus := ⟨⟨1, by decide⟩, sampleCustomer⟩
  payment := ⟨⟨1, by decide⟩, ⟨100, by decide⟩, ⟨1, by decide⟩, ⟨1, by decide⟩, sampleOther,
    sampleCustomer⟩
  stockLevel := ⟨⟨1, by decide⟩, ⟨10, by decide⟩⟩

def samplePercent : Draw 1 100 := ⟨2, by decide⟩

end Sample

end Tpcc.Transaction
