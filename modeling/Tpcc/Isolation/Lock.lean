import Tpcc.Transaction.Invariant

/-! Rows with their versions and locks, and what the transactions of others can change while a
transaction holds its locks. -/

namespace Tpcc.Isolation

open Lib Store Transaction

/-- A row that can be locked.  Nothing locks an item, and a payment's history has no key. -/
inductive Row
  | warehouse (k : Nat)
  | district (k : Nat × Nat)
  | customer (k : Nat × Nat × Nat)
  | oorder (k : Nat × Nat × Nat)
  | newOrder (k : Nat × Nat × Nat)
  | orderLine (k : Nat × Nat × Nat × Nat)
  | stock (k : Nat × Int)
  deriving DecidableEq

/-- What a row holds. -/
inductive Version
  | warehouse (r : Warehouse)
  | district (r : District)
  | customer (r : Customer)
  | oorder (r : Oorder)
  | newOrder (r : NewOrder)
  | orderLine (r : OrderLine)
  | stock (r : Stock)
  deriving DecidableEq

def Version.row : Version → Row
  | .warehouse r => .warehouse r.key
  | .district r => .district r.key
  | .customer r => .customer r.key
  | .oorder r => .oorder r.key
  | .newOrder r => .newOrder r.key
  | .orderLine r => .orderLine r.key
  | .stock r => .stock r.key

/-- The version of a row in the tables, if it exists. -/
def version (db : Database) : Row → Option Version
  | .warehouse k => (Table.lookup Warehouse.key k db.warehouse).map .warehouse
  | .district k => (Table.lookup District.key k db.district).map .district
  | .customer k => (Table.lookup Customer.key k db.customer).map .customer
  | .oorder k => (Table.lookup Oorder.key k db.oorder).map .oorder
  | .newOrder k => (Table.lookup NewOrder.key k db.newOrder).map .newOrder
  | .orderLine k => (Table.lookup OrderLine.key k db.orderLine).map .orderLine
  | .stock k => (Table.lookup Stock.key k db.stock).map .stock

end Tpcc.Isolation

namespace Tpcc.Transaction

open Isolation

/-- `FOR UPDATE`. -/
def Query.forUpdate : Query → Bool
  | .newOrderSelectDistrictForUpdate _ _ => true
  | .newOrderSelectStockForUpdate _ _ => true
  | .paymentSelectWarehouseForUpdate _ => true
  | .paymentSelectDistrictForUpdate _ _ => true
  | .customerSelectById forUpdate _ _ _ => forUpdate
  | .customerSelectByLastName forUpdate _ _ _ => forUpdate
  | .deliverySelectNewOrderForUpdate _ _ => true
  | _ => false

/-- The rows that a `SELECT … FOR UPDATE` returns and locks. -/
def Query.rows : (q : Query) → q.Result → List Row
  | .newOrderSelectDistrictForUpdate _ _, result => (Option.toList result).map (.district ·.key)
  | .newOrderSelectStockForUpdate _ _, result => (Option.toList result).map (.stock ·.key)
  | .paymentSelectWarehouseForUpdate _, result => (Option.toList result).map (.warehouse ·.key)
  | .paymentSelectDistrictForUpdate _ _, result => (Option.toList result).map (.district ·.key)
  | .customerSelectById true _ _ _, result => (Option.toList result).map (.customer ·.key)
  | .customerSelectByLastName true _ _ _, result => List.map (.customer ·.key) result
  | .deliverySelectNewOrderForUpdate _ _, result => (Option.toList result).map (.newOrder ·.key)
  | _, _ => []

end Tpcc.Transaction

namespace Tpcc.Isolation

open Lib Store Transaction

/-- The rows of the list are the same. -/
def Agree (locks : List Row) (db db' : Database) : Prop :=
  ∀ row ∈ locks, version db' row = version db row

section Agree

variable {locks : List Row} {db db' db'' : Database}

theorem Agree.refl (locks : List Row) (db : Database) : Agree locks db db := fun _ _ => rfl

theorem Agree.trans (h : Agree locks db db') (h' : Agree locks db' db'') : Agree locks db db'' :=
  fun row hrow => (h' row hrow).trans (h row hrow)

theorem Agree.mono {locks' : List Row} (h : Agree locks db db') (hsub : locks' ⊆ locks) :
    Agree locks' db db' := fun row hrow => h row (hsub hrow)

theorem lookup_of_version {α κ : Type} [DecidableEq κ] {key : α → κ} {k : κ} {rows rows' : List α}
    {make : α → Version} (hmake : Function.Injective make)
    (h : (Table.lookup key k rows').map make = (Table.lookup key k rows).map make) :
    Table.lookup key k rows' = Table.lookup key k rows := Option.map_injective hmake h

theorem Agree.district {k : Nat × Nat} (h : Agree locks db db') (hk : Row.district k ∈ locks) :
    Table.lookup District.key k db'.district = Table.lookup District.key k db.district :=
  lookup_of_version (fun _ _ heq => Version.district.inj heq) (h _ hk)

theorem Agree.stock {k : Nat × Int} (h : Agree locks db db') (hk : Row.stock k ∈ locks) :
    Table.lookup Stock.key k db'.stock = Table.lookup Stock.key k db.stock :=
  lookup_of_version (fun _ _ heq => Version.stock.inj heq) (h _ hk)

theorem Agree.newOrder {k : Nat × Nat × Nat} (h : Agree locks db db')
    (hk : Row.newOrder k ∈ locks) :
    Table.lookup NewOrder.key k db'.newOrder = Table.lookup NewOrder.key k db.newOrder :=
  lookup_of_version (fun _ _ heq => Version.newOrder.inj heq) (h _ hk)

end Agree

/-- What holds between a committed state of the tables and every later one, whatever commits in
between. -/
structure Later (db db' : Database) : Prop where
  orders : ∀ o ∈ db.oorder, ∃ o' ∈ db'.oorder, o'.key = o.key ∧ o'.oCId = o.oCId
  lines : ∀ o ∈ db.oorder,
    (linesOf db'.orderLine o.key).map (fun l => (l.key, l.olAmount)) =
      (linesOf db.orderLine o.key).map fun l => (l.key, l.olAmount)
  newOrders : ∀ n ∈ db'.newOrder, n.key ∈ db.oorder.map Oorder.key →
    n.key ∈ db.newOrder.map NewOrder.key
  warehouse : db'.warehouse.map Warehouse.key = db.warehouse.map Warehouse.key
  district : db'.district.map District.key = db.district.map District.key
  customer : db'.customer.map Customer.key = db.customer.map Customer.key
  stock : db'.stock.map Stock.key = db.stock.map Stock.key

section Later

variable {db db' db'' : Database}

theorem Later.refl (db : Database) : Later db db where
  orders o ho := ⟨o, ho, rfl, rfl⟩
  lines _ _ := rfl
  newOrders _ hn _ := List.mem_map_of_mem hn
  warehouse := rfl
  district := rfl
  customer := rfl
  stock := rfl

theorem Later.trans (h : Later db db') (h' : Later db' db'') : Later db db'' where
  orders o ho := by
    obtain ⟨o', ho', hkey, hcustomer⟩ := h.orders o ho
    obtain ⟨o'', ho'', hkey', hcustomer'⟩ := h'.orders o' ho'
    exact ⟨o'', ho'', hkey'.trans hkey, hcustomer'.trans hcustomer⟩
  lines o ho := by
    obtain ⟨o', ho', hkey, -⟩ := h.orders o ho
    have hlines := h'.lines o' ho'
    rw [hkey] at hlines
    exact hlines.trans (h.lines o ho)
  newOrders n hn hkey := by
    obtain ⟨o, ho, hokey⟩ := List.mem_map.1 hkey
    obtain ⟨o', ho', hkey', -⟩ := h.orders o ho
    have hmem := h'.newOrders n hn (List.mem_map.2 ⟨o', ho', hkey'.trans hokey⟩)
    obtain ⟨n', hn', hnkey⟩ := List.mem_map.1 hmem
    rw [← hnkey] at hkey ⊢
    exact h.newOrders n' hn' hkey
  warehouse := h'.warehouse.trans h.warehouse
  district := h'.district.trans h.district
  customer := h'.customer.trans h.customer
  stock := h'.stock.trans h.stock

/-- Every operation leads to a later state. -/
theorem Later.apply {op : Operation} (h : Sound db) (he : op.Enabled db) :
    Later db (op.apply db) := by
  cases op with
  | newOrder order lines =>
    have hplace : Placeable db order lines := he
    have hfresh := hplace.fresh h
    have hne : ∀ o ∈ db.oorder, o.key ≠ order.key := fun o ho heq =>
      hfresh (List.mem_map.2 ⟨o, ho, heq⟩)
    refine ⟨fun o ho => ⟨o, List.mem_append_left _ ho, rfl, rfl⟩, fun o ho => ?_, ?_, rfl,
      Table.map_update fun _ => rfl, rfl, map_key_supply _ _⟩
    · change (linesOf (db.orderLine ++ lines) o.key).map _ = _
      rw [hplace.linesOf_old (hne o ho)]
    · intro n hn hkey
      rcases List.mem_append.1 hn with hn | hn
      · exact List.mem_map_of_mem hn
      · obtain rfl := List.mem_singleton.1 hn
        exact absurd hkey hfresh
  | payment row cData =>
    exact ⟨fun o ho => ⟨o, ho, rfl, rfl⟩, fun _ _ => rfl, fun n hn _ => List.mem_map_of_mem hn,
      Table.map_update fun _ => rfl, Table.map_update fun _ => rfl, Table.map_update fun _ => rfl,
      rfl⟩
  | deliver x =>
    refine ⟨fun o ho => ?_, fun o ho => ?_, fun n hn _ => ?_, rfl, rfl,
      Table.map_update fun _ => rfl, rfl⟩
    · refine ⟨_, Table.mem_update.2 ⟨o, ho, rfl⟩, ?_⟩
      by_cases hk : o.key = x.order
      · rw [if_pos hk]
        exact ⟨rfl, rfl⟩
      · rw [if_neg hk]
        exact ⟨rfl, rfl⟩
    · change (linesOf (Table.update _ _ _ _) o.key).map _ = _
      rw [linesOf_deliver]
      exact Table.map_update fun _ => rfl
    · exact List.mem_map_of_mem (List.mem_of_mem_filter hn)

end Later

/-- What the others can do to the tables while a transaction holds its locks. -/
structure Rely (locks : List Row) (db db' : Database) : Prop where
  agree : Agree locks db db'
  later : Later db db'
  sound : Sound db'

theorem Rely.refl {db : Database} (locks : List Row) (h : Sound db) : Rely locks db db :=
  ⟨.refl locks db, .refl db, h⟩

theorem Rely.trans {locks : List Row} {db db' db'' : Database} (h : Rely locks db db')
    (h' : Rely locks db' db'') : Rely locks db db'' :=
  ⟨h.agree.trans h'.agree, h.later.trans h'.later, h'.sound⟩

theorem Rely.mono {locks locks' : List Row} {db db' : Database} (h : Rely locks db db')
    (hsub : locks' ⊆ locks) : Rely locks' db db' := ⟨h.agree.mono hsub, h.later, h.sound⟩

end Tpcc.Isolation
