import Mathlib.Data.List.Basic
import Mathlib.Data.Int.Basic

/-! The nine tables of `init.cpp`, with the columns that the transactions and the import use.  Money
is in cents. -/

namespace Tpcc.Store

/-- An amount of money in cents. -/
abbrev Money := Int

structure Warehouse where
  wId : Nat
  wYtd : Money
  wName : String
  deriving DecidableEq

structure District where
  dWId : Nat
  dId : Nat
  dYtd : Money
  dNextOId : Nat
  dName : String
  deriving DecidableEq

structure Customer where
  cWId : Nat
  cDId : Nat
  cId : Nat
  cFirst : String
  cLast : String
  cCredit : String
  cBalance : Money
  cYtdPayment : Money
  cPaymentCnt : Nat
  cDeliveryCnt : Nat
  cData : String
  deriving DecidableEq

structure History where
  hCId : Nat
  hCDId : Nat
  hCWId : Nat
  hDId : Nat
  hWId : Nat
  hAmount : Money
  hData : String
  deriving DecidableEq

structure Oorder where
  oWId : Nat
  oDId : Nat
  oId : Nat
  oCId : Nat
  oCarrierId : Option Nat
  oOlCnt : Nat
  oAllLocal : Nat
  deriving DecidableEq

structure NewOrder where
  noWId : Nat
  noDId : Nat
  noOId : Nat
  deriving DecidableEq

structure OrderLine where
  olWId : Nat
  olDId : Nat
  olOId : Nat
  olNumber : Nat
  olIId : Int
  olDeliveryD : Option Nat
  olAmount : Money
  olSupplyWId : Nat
  olQuantity : Int
  olDistInfo : String
  deriving DecidableEq

structure Item where
  iId : Int
  iPrice : Money
  deriving DecidableEq

/-- `sDist` holds the columns `s_dist_01` to `s_dist_10`. -/
structure Stock where
  sWId : Nat
  sIId : Int
  sQuantity : Int
  sYtd : Int
  sOrderCnt : Nat
  sRemoteCnt : Nat
  sDist : List String
  deriving DecidableEq

/-- The primary keys. -/
def Warehouse.key (r : Warehouse) : Nat := r.wId

def District.key (r : District) : Nat × Nat := (r.dWId, r.dId)

def Customer.key (r : Customer) : Nat × Nat × Nat := (r.cWId, r.cDId, r.cId)

def Oorder.key (r : Oorder) : Nat × Nat × Nat := (r.oWId, r.oDId, r.oId)

def NewOrder.key (r : NewOrder) : Nat × Nat × Nat := (r.noWId, r.noDId, r.noOId)

def OrderLine.key (r : OrderLine) : Nat × Nat × Nat × Nat :=
  (r.olWId, r.olDId, r.olOId, r.olNumber)

/-- The order that a line belongs to. -/
def OrderLine.order (r : OrderLine) : Nat × Nat × Nat := (r.olWId, r.olDId, r.olOId)

def Item.key (r : Item) : Int := r.iId

def Stock.key (r : Stock) : Nat × Int := (r.sWId, r.sIId)

structure Database where
  warehouse : List Warehouse
  district : List District
  customer : List Customer
  history : List History
  oorder : List Oorder
  newOrder : List NewOrder
  orderLine : List OrderLine
  item : List Item
  stock : List Stock

end Tpcc.Store
