import Tpcc.Db.Errors
import Tpcc.Lib.Program
import Tpcc.Lib.Table
import Tpcc.Store.Tables

/-! The statements of `db/queries.cpp` with their parameters, what they do to the tables, and the
requests that a transaction makes of its session. -/

namespace Tpcc.Transaction

open Lib Db Store

/-- The `SELECT` statements. -/
inductive Query
  | newOrderSelectCustomer (w d c : Nat)
  | newOrderSelectWarehouseTax (w : Nat)
  | newOrderSelectDistrictForUpdate (w d : Nat)
  | newOrderSelectItem (i : Int)
  | newOrderSelectStockForUpdate (w : Nat) (i : Int)
  | paymentSelectWarehouseForUpdate (w : Nat)
  | paymentSelectDistrictForUpdate (w d : Nat)
  | paymentSelectCustomerData (w d c : Nat)
  | customerSelectById (forUpdate : Bool) (w d c : Nat)
  | customerSelectByLastName (forUpdate : Bool) (w d : Nat) (last : String)
  | deliverySelectNewOrderForUpdate (d w : Nat)
  | deliverySelectOrderCustomer (w d o : Nat)
  | deliverySelectOrderLines (w d o : Nat)
  | orderStatusSelectLatestOrder (w d c : Nat)
  | orderStatusSelectOrderLines (w d o : Nat)
  | stockLevelSelectDistrict (w d : Nat)
  | stockLevelCountStock (w d : Nat) (below least : Int) (stockW : Nat) (threshold : Int)
  deriving DecidableEq

/-- The rows of a result, whole: a statement that selects by primary key or with `LIMIT 1` has at
most one. -/
def Query.Result : Query → Type
  | .newOrderSelectCustomer _ _ _ => Option Customer
  | .newOrderSelectWarehouseTax _ => Option Warehouse
  | .newOrderSelectDistrictForUpdate _ _ => Option District
  | .newOrderSelectItem _ => Option Item
  | .newOrderSelectStockForUpdate _ _ => Option Stock
  | .paymentSelectWarehouseForUpdate _ => Option Warehouse
  | .paymentSelectDistrictForUpdate _ _ => Option District
  | .paymentSelectCustomerData _ _ _ => Option Customer
  | .customerSelectById _ _ _ _ => Option Customer
  | .customerSelectByLastName _ _ _ _ => List Customer
  | .deliverySelectNewOrderForUpdate _ _ => Option NewOrder
  | .deliverySelectOrderCustomer _ _ _ => Option Oorder
  | .deliverySelectOrderLines _ _ _ => List OrderLine
  | .orderStatusSelectLatestOrder _ _ _ => Option Oorder
  | .orderStatusSelectOrderLines _ _ _ => List OrderLine
  | .stockLevelSelectDistrict _ _ => Option District
  | .stockLevelCountStock _ _ _ _ _ _ => Nat

/-- The statements that change the tables. -/
inductive Modify
  | newOrderUpdateDistrict (w d : Nat)
  | newOrderInsertOorder (w d o c olCnt allLocal : Nat)
  | newOrderInsertNewOrder (w d o : Nat)
  | newOrderUpdateStock (quantity qty : Int) (remote w : Nat) (i : Int)
  | newOrderInsertOrderLine (w d o number : Nat) (i : Int) (amount : Money) (supply : Nat)
      (qty : Int) (distInfo : String)
  | paymentUpdateWarehouseYtd (amount : Money) (w : Nat)
  | paymentUpdateDistrictYtd (amount : Money) (w d : Nat)
  | paymentUpdateCustomerBc (amount ytd : Money) (data : String) (w d c : Nat)
  | paymentUpdateCustomer (amount ytd : Money) (w d c : Nat)
  | paymentInsertHistory (c cd cw d w : Nat) (amount : Money) (data : String)
  | deliveryDeleteNewOrder (w d o : Nat)
  | deliveryUpdateCarrier (carrier w d o : Nat)
  | deliveryUpdateOrderLineDelivery (w d o : Nat)
  | deliveryUpdateCustomerBalance (amount : Money) (w d c : Nat)
  deriving DecidableEq

/-- `ORDER BY c_first`. -/
def orderByFirst (rows : List Customer) : List Customer :=
  rows.mergeSort fun r r' => decide (r.cFirst ≤ r'.cFirst)

/-- `ORDER BY no_o_id ASC LIMIT 1`. -/
def first (rows : List NewOrder) : Option NewOrder :=
  (rows.mergeSort fun r r' => decide (r.noOId ≤ r'.noOId)).head?

/-- `ORDER BY o_id DESC LIMIT 1`. -/
def latest (rows : List Oorder) : Option Oorder :=
  (rows.mergeSort fun r r' => decide (r'.oId ≤ r.oId)).head?

/-- The items of the order lines of a district's orders in the given range whose stock is below the
threshold, each once. -/
def stockCount (db : Database) (w d : Nat) (below least : Int) (stockW : Nat) (threshold : Int) :
    Nat :=
  let lines := db.orderLine.filter fun r =>
    r.olWId = w ∧ r.olDId = d ∧ (r.olOId : Int) < below ∧ least ≤ (r.olOId : Int)
  let low := db.stock.filter fun r => r.sWId = stockW ∧ r.sQuantity < threshold
  ((lines.flatMap fun l => low.filter fun r => r.sIId = l.olIId).map Stock.sIId).dedup.length

/-- The result of a `SELECT`. -/
def Query.eval (db : Database) : (q : Query) → q.Result
  | .newOrderSelectCustomer w d c => db.customer.find? fun r => r.key = (w, d, c)
  | .newOrderSelectWarehouseTax w => db.warehouse.find? fun r => r.key = w
  | .newOrderSelectDistrictForUpdate w d => db.district.find? fun r => r.key = (w, d)
  | .newOrderSelectItem i => db.item.find? fun r => r.key = i
  | .newOrderSelectStockForUpdate w i => db.stock.find? fun r => r.key = (w, i)
  | .paymentSelectWarehouseForUpdate w => db.warehouse.find? fun r => r.key = w
  | .paymentSelectDistrictForUpdate w d => db.district.find? fun r => r.key = (w, d)
  | .paymentSelectCustomerData w d c => db.customer.find? fun r => r.key = (w, d, c)
  | .customerSelectById _ w d c => db.customer.find? fun r => r.key = (w, d, c)
  | .customerSelectByLastName _ w d last =>
    orderByFirst (db.customer.filter fun r => r.cWId = w ∧ r.cDId = d ∧ r.cLast = last)
  | .deliverySelectNewOrderForUpdate d w =>
    first (db.newOrder.filter fun r => r.noDId = d ∧ r.noWId = w)
  | .deliverySelectOrderCustomer w d o => db.oorder.find? fun r => r.key = (w, d, o)
  | .deliverySelectOrderLines w d o => db.orderLine.filter fun r => r.order = (w, d, o)
  | .orderStatusSelectLatestOrder w d c =>
    latest (db.oorder.filter fun r => r.oWId = w ∧ r.oDId = d ∧ r.oCId = c)
  | .orderStatusSelectOrderLines w d o => db.orderLine.filter fun r => r.order = (w, d, o)
  | .stockLevelSelectDistrict w d => db.district.find? fun r => r.key = (w, d)
  | .stockLevelCountStock w d below least stockW threshold =>
    stockCount db w d below least stockW threshold

/-- What a statement does to the tables at time `now`; an `INSERT` of a key that exists fails. -/
def Modify.apply (now : Nat) (db : Database) : Modify → Option Database
  | .newOrderUpdateDistrict w d =>
    some { db with
      district := Table.update District.key (w, d) (fun r => { r with dNextOId := r.dNextOId + 1 })
        db.district }
  | .newOrderInsertOorder w d o c olCnt allLocal =>
    (Table.insert Oorder.key ⟨w, d, o, c, none, olCnt, allLocal⟩ db.oorder).map fun rows =>
      { db with oorder := rows }
  | .newOrderInsertNewOrder w d o =>
    (Table.insert NewOrder.key ⟨w, d, o⟩ db.newOrder).map fun rows => { db with newOrder := rows }
  | .newOrderUpdateStock quantity qty remote w i =>
    some { db with
      stock := Table.update Stock.key (w, i)
        (fun r => { r with
          sQuantity := quantity
          sYtd := r.sYtd + qty
          sOrderCnt := r.sOrderCnt + 1
          sRemoteCnt := r.sRemoteCnt + remote })
        db.stock }
  | .newOrderInsertOrderLine w d o number i amount supply qty distInfo =>
    (Table.insert OrderLine.key ⟨w, d, o, number, i, none, amount, supply, qty, distInfo⟩
      db.orderLine).map fun rows => { db with orderLine := rows }
  | .paymentUpdateWarehouseYtd amount w =>
    some { db with
      warehouse := Table.update Warehouse.key w (fun r => { r with wYtd := r.wYtd + amount })
        db.warehouse }
  | .paymentUpdateDistrictYtd amount w d =>
    some { db with
      district := Table.update District.key (w, d) (fun r => { r with dYtd := r.dYtd + amount })
        db.district }
  | .paymentUpdateCustomerBc amount ytd data w d c =>
    some { db with
      customer := Table.update Customer.key (w, d, c)
        (fun r => { r with
          cBalance := r.cBalance - amount
          cYtdPayment := r.cYtdPayment + ytd
          cPaymentCnt := r.cPaymentCnt + 1
          cData := data })
        db.customer }
  | .paymentUpdateCustomer amount ytd w d c =>
    some { db with
      customer := Table.update Customer.key (w, d, c)
        (fun r => { r with
          cBalance := r.cBalance - amount
          cYtdPayment := r.cYtdPayment + ytd
          cPaymentCnt := r.cPaymentCnt + 1 })
        db.customer }
  | .paymentInsertHistory c cd cw d w amount data =>
    some { db with history := db.history ++ [⟨c, cd, cw, d, w, amount, data⟩] }
  | .deliveryDeleteNewOrder w d o =>
    some { db with newOrder := db.newOrder.filter fun r => r.key ≠ (w, d, o) }
  | .deliveryUpdateCarrier carrier w d o =>
    some { db with
      oorder := Table.update Oorder.key (w, d, o) (fun r => { r with oCarrierId := some carrier })
        db.oorder }
  | .deliveryUpdateOrderLineDelivery w d o =>
    some { db with
      orderLine := Table.update OrderLine.order (w, d, o) (fun r => { r with olDeliveryD := some now })
        db.orderLine }
  | .deliveryUpdateCustomerBalance amount w d c =>
    some { db with
      customer := Table.update Customer.key (w, d, c)
        (fun r => { r with
          cBalance := r.cBalance + amount
          cDeliveryCnt := r.cDeliveryCnt + 1 })
        db.customer }

/-- What a transaction asks of its session and of the process. -/
inductive Request
  | query (q : Query)
  | modify (m : Modify)
  | commit
  | rollback
  | requestStopWithError
  deriving DecidableEq

def Request.Reply : Request → Type
  | .query q => q.Result
  | _ => Unit

/-- A transaction's code. -/
abbrev Task (α : Type) := Program Request.Reply Failure α

def executeQuery (q : Query) : Task q.Result := .ask (Request.query q)

def executeModify (m : Modify) : Task Unit := .ask (Request.modify m)

def commit : Task Unit := .ask Request.commit

def rollback : Task Unit := .ask Request.rollback

def requestStopWithError : Task Unit := .ask Request.requestStopWithError

end Tpcc.Transaction
