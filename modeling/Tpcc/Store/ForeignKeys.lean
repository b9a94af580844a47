import Tpcc.Store.Consistency

/-! The foreign keys of `init.cpp`. -/

namespace Tpcc.Store

/-- The columns of the primary keys and of the foreign keys. -/
structure KeyColumns where
  warehouse : List Nat
  district : List (Nat × Nat)
  customer : List (Nat × Nat × Nat)
  historyCustomer : List (Nat × Nat × Nat)
  historyDistrict : List (Nat × Nat)
  oorder : List ((Nat × Nat × Nat) × Nat × Nat × Nat)
  newOrder : List (Nat × Nat × Nat)
  orderLine : List ((Nat × Nat × Nat) × Nat × Int)
  item : List Int
  stock : List (Nat × Int)

def keyColumns (db : Database) : KeyColumns where
  warehouse := db.warehouse.map Warehouse.key
  district := db.district.map District.key
  customer := db.customer.map Customer.key
  historyCustomer := db.history.map History.customer
  historyDistrict := db.history.map History.district
  oorder := db.oorder.map fun r => (r.key, r.customer)
  newOrder := db.newOrder.map NewOrder.key
  orderLine := db.orderLine.map fun r => (r.order, r.olSupplyWId, r.olIId)
  item := db.item.map Item.key
  stock := db.stock.map Stock.key

/-- The `FOREIGN KEY` clauses of `BuildCreateStatements`. -/
structure ForeignKeys (columns : KeyColumns) : Prop where
  stockWarehouse : ∀ k ∈ columns.stock, k.1 ∈ columns.warehouse
  stockItem : ∀ k ∈ columns.stock, k.2 ∈ columns.item
  district : ∀ k ∈ columns.district, k.1 ∈ columns.warehouse
  customer : ∀ k ∈ columns.customer, (k.1, k.2.1) ∈ columns.district
  historyCustomer : ∀ k ∈ columns.historyCustomer, k ∈ columns.customer
  historyDistrict : ∀ k ∈ columns.historyDistrict, k ∈ columns.district
  oorder : ∀ k ∈ columns.oorder, k.2 ∈ columns.customer
  newOrder : ∀ k ∈ columns.newOrder, k ∈ columns.oorder.map Prod.fst
  orderLineOorder : ∀ k ∈ columns.orderLine, k.1 ∈ columns.oorder.map Prod.fst
  orderLineStock : ∀ k ∈ columns.orderLine, k.2 ∈ columns.stock

theorem map_fst_oorder {db : Database} :
    (keyColumns db).oorder.map Prod.fst = db.oorder.map Oorder.key := by
  rw [keyColumns, List.map_map]
  rfl

end Tpcc.Store
