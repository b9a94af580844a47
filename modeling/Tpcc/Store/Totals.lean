import Tpcc.Lib.Table
import Tpcc.Store.Tables

/-! Sums over the rows of a warehouse, a district or a customer. -/

namespace Tpcc.Store

open Lib

/-- The customer of an order. -/
def Oorder.customer (r : Oorder) : Nat × Nat × Nat := (r.oWId, r.oDId, r.oCId)

/-- The customer of a payment. -/
def History.customer (r : History) : Nat × Nat × Nat := (r.hCWId, r.hCDId, r.hCId)

def OrderLine.delivered (r : OrderLine) : Bool := r.olDeliveryD.isSome

variable (db : Database)

/-- The amounts of the delivered lines of an order. -/
def orderDelivered (order : Nat × Nat × Nat) : Money :=
  Table.total (fun r => decide (r.order = order) && r.delivered) OrderLine.olAmount db.orderLine

/-- The amounts of the delivered lines of a customer's orders. -/
def customerDelivered (customer : Nat × Nat × Nat) : Money :=
  Table.total (fun r => r.customer = customer) (fun r => orderDelivered db r.key) db.oorder

/-- The amounts that a customer has paid. -/
def customerPaid (customer : Nat × Nat × Nat) : Money :=
  Table.total (fun r => r.customer = customer) History.hAmount db.history

end Tpcc.Store
