import Tpcc.Store.Consistency
import Tpcc.Transaction.Tasks

/-! What a transaction that commits does to the tables, as operations: a new order, a payment, the
delivery of an order.  The invariant of the tables survives each of them. -/

namespace Tpcc.Transaction

open Lib Store

/-- The stock after an order line that it supplies. -/
def supply (stock : List Stock) (l : OrderLine) : List Stock :=
  Table.update Stock.key (l.olSupplyWId, l.olIId)
    (fun r => { r with
      sQuantity := nextQuantity r.sQuantity l.olQuantity
      sYtd := r.sYtd + l.olQuantity
      sOrderCnt := r.sOrderCnt + 1
      sRemoteCnt := r.sRemoteCnt + if l.olSupplyWId = l.olWId then 0 else 1 })
    stock

/-- An order that is delivered, with what its customer is credited. -/
structure Delivered where
  w : Nat
  d : Nat
  orderId : Nat
  customerId : Nat
  amount : Money
  carrier : Nat
  now : Nat

def Delivered.order (x : Delivered) : Nat × Nat × Nat := (x.w, x.d, x.orderId)

def Delivered.customer (x : Delivered) : Nat × Nat × Nat := (x.w, x.d, x.customerId)

/-- The operations.  The `cData` of a payment is the new `C_DATA`, if there is one. -/
inductive Operation
  | newOrder (order : Oorder) (lines : List OrderLine)
  | payment (row : History) (cData : Option String)
  | deliver (x : Delivered)

def Operation.apply (db : Database) : Operation → Database
  | .newOrder order lines =>
    { db with
      district := Table.update District.key order.district
        (fun r => { r with dNextOId := r.dNextOId + 1 }) db.district
      oorder := db.oorder ++ [order]
      newOrder := db.newOrder ++ [⟨order.oWId, order.oDId, order.oId⟩]
      orderLine := db.orderLine ++ lines
      stock := lines.foldl supply db.stock }
  | .payment row cData =>
    { db with
      warehouse := Table.update Warehouse.key row.hWId
        (fun r => { r with wYtd := r.wYtd + row.hAmount }) db.warehouse
      district := Table.update District.key row.district
        (fun r => { r with dYtd := r.dYtd + row.hAmount }) db.district
      customer := Table.update Customer.key row.customer
        (fun r => { r with
          cBalance := r.cBalance - row.hAmount
          cYtdPayment := r.cYtdPayment + row.hAmount
          cPaymentCnt := r.cPaymentCnt + 1
          cData := cData.getD r.cData })
        db.customer
      history := db.history ++ [row] }
  | .deliver x =>
    { db with
      customer := Table.update Customer.key x.customer
        (fun r => { r with
          cBalance := r.cBalance + x.amount
          cDeliveryCnt := r.cDeliveryCnt + 1 })
        db.customer
      oorder := Table.update Oorder.key x.order (fun r => { r with oCarrierId := some x.carrier })
        db.oorder
      newOrder := db.newOrder.filter fun r => r.key ≠ x.order
      orderLine := Table.update OrderLine.order x.order (fun r => { r with olDeliveryD := some x.now })
        db.orderLine }

/-- A new order has its district's next id, and its lines. -/
structure Placeable (db : Database) (order : Oorder) (lines : List OrderLine) : Prop where
  next : (order.district, order.oId) ∈ db.district.map District.next
  carrier : order.oCarrierId = none
  olCnt : order.oOlCnt = lines.length
  nonempty : lines ≠ []
  lineOrder : ∀ l ∈ lines, l.order = order.key ∧ l.olDeliveryD = none
  numbers : (lines.map OrderLine.olNumber).Nodup
  quantity : ∀ l ∈ lines, 1 ≤ l.olQuantity ∧ l.olQuantity ≤ 10

/-- The order is the oldest new order of its district, and the amount that of its lines. -/
structure Deliverable (db : Database) (x : Delivered) : Prop where
  oldest : ∃ rest, newOrderIds db.newOrder (x.w, x.d) = x.orderId :: rest
  order : ∃ o ∈ db.oorder, o.key = x.order ∧ o.oCId = x.customerId
  total : x.amount = ((linesOf db.orderLine x.order).map OrderLine.olAmount).sum

/-- When an operation can be done. -/
def Operation.Enabled (db : Database) : Operation → Prop
  | .newOrder order lines => Placeable db order lines
  | .payment row _ => row.district ∈ db.district.map District.key
  | .deliver x => Deliverable db x

/-- Operations that can be done one after the other. -/
def EnabledAll (db : Database) : List Operation → Prop
  | [] => True
  | op :: rest => op.Enabled db ∧ EnabledAll (op.apply db) rest

section Records

/-- The order that a statement inserts. -/
def Modify.order? : Modify → Option (Nat × Nat × Nat)
  | .newOrderInsertOorder w d o _ _ _ => some (w, d, o)
  | _ => none

/-- The stock row and the quantity of the order line that a statement inserts. -/
def Modify.supplied? : Modify → Option ((Nat × Int) × Int)
  | .newOrderInsertOrderLine _ _ _ _ i _ supply qty _ => some ((supply, i), qty)
  | _ => none

/-- The new order that a statement deletes. -/
def Modify.removed? : Modify → Option (Nat × Nat × Nat)
  | .deliveryDeleteNewOrder w d o => some (w, d, o)
  | _ => none

/-- The customer and the amount that a delivery credits. -/
def Modify.credit? : Modify → Option ((Nat × Nat × Nat) × Money)
  | .deliveryUpdateCustomerBalance amount w d c => some ((w, d, c), amount)
  | _ => none

/-- An order line as a demand on the stock. -/
def OrderLine.demand (l : OrderLine) : (Nat × Int) × Int := ((l.olSupplyWId, l.olIId), l.olQuantity)

def Operation.orders : Operation → List (Nat × Nat × Nat)
  | .newOrder order _ => [order.key]
  | _ => []

def Operation.supplied : Operation → List ((Nat × Int) × Int)
  | .newOrder _ lines => lines.map OrderLine.demand
  | _ => []

def Operation.removed : Operation → List (Nat × Nat × Nat)
  | .deliver x => [x.order]
  | _ => []

def Operation.credits : Operation → List ((Nat × Nat × Nat) × Money)
  | .deliver x => [(x.customer, x.amount)]
  | _ => []

/-- The statements are those of the operations. -/
structure Records (statements : List Modify) (ops : List Operation) : Prop where
  orders : statements.filterMap Modify.order? = ops.flatMap Operation.orders
  supplied : statements.filterMap Modify.supplied? = ops.flatMap Operation.supplied
  removed : statements.filterMap Modify.removed? = ops.flatMap Operation.removed
  credits : statements.filterMap Modify.credit? = ops.flatMap Operation.credits

end Records

end Tpcc.Transaction
