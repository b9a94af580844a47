import Tpcc.Isolation.Lock

/-! The rows that a statement writes, and what becomes of the tables when they are written.  A
transaction keeps its writes until it commits. -/

namespace Tpcc.Isolation

open Lib Store Transaction

/-- A row with its new version, a row that is deleted, or a payment's history, which has no key. -/
inductive Write
  | put (v : Version)
  | delete (row : Row)
  | history (r : History)
  deriving DecidableEq

/-- The row of a write. -/
def Write.row? : Write → Option Row
  | .put v => some v.row
  | .delete row => some row
  | .history _ => none

/-- The write that leaves a row as it is after a statement. -/
def Write.of (row : Row) : Option Version → Write
  | some v => .put v
  | none => .delete row

@[simp] theorem Write.of_some (row : Row) (v : Version) : Write.of row (some v) = .put v := rfl

@[simp] theorem Write.of_none (row : Row) : Write.of row none = .delete row := rfl

def putVersion (db : Database) : Version → Database
  | .warehouse r => { db with warehouse := Table.upsert Warehouse.key r db.warehouse }
  | .district r => { db with district := Table.upsert District.key r db.district }
  | .customer r => { db with customer := Table.upsert Customer.key r db.customer }
  | .oorder r => { db with oorder := Table.upsert Oorder.key r db.oorder }
  | .newOrder r => { db with newOrder := Table.upsert NewOrder.key r db.newOrder }
  | .orderLine r => { db with orderLine := Table.upsert OrderLine.key r db.orderLine }
  | .stock r => { db with stock := Table.upsert Stock.key r db.stock }

def deleteRow (db : Database) : Row → Database
  | .warehouse k => { db with warehouse := db.warehouse.filter fun r => r.key ≠ k }
  | .district k => { db with district := db.district.filter fun r => r.key ≠ k }
  | .customer k => { db with customer := db.customer.filter fun r => r.key ≠ k }
  | .oorder k => { db with oorder := db.oorder.filter fun r => r.key ≠ k }
  | .newOrder k => { db with newOrder := db.newOrder.filter fun r => r.key ≠ k }
  | .orderLine k => { db with orderLine := db.orderLine.filter fun r => r.key ≠ k }
  | .stock k => { db with stock := db.stock.filter fun r => r.key ≠ k }

def Write.apply (db : Database) : Write → Database
  | .put v => putVersion db v
  | .delete row => deleteRow db row
  | .history r => { db with history := db.history ++ [r] }

/-- The tables after writes in a row. -/
def applyWrites (writes : List Write) (db : Database) : Database := writes.foldl Write.apply db

@[simp] theorem applyWrites_nil (db : Database) : applyWrites [] db = db := rfl

@[simp] theorem applyWrites_cons (w : Write) (rest : List Write) (db : Database) :
    applyWrites (w :: rest) db = applyWrites rest (w.apply db) := rfl

theorem applyWrites_append (before after : List Write) (db : Database) :
    applyWrites (before ++ after) db = applyWrites after (applyWrites before db) :=
  List.foldl_append

section Table

/-- One of the tables with keys. -/
structure TableRef (α κ : Type) [DecidableEq κ] where
  get : Database → List α
  set : Database → List α → Database
  key : α → κ
  row : κ → Row
  make : α → Version
  get_set : ∀ db rows, get (set db rows) = rows
  set_get : ∀ db, set db (get db) = db
  set_set : ∀ db rows rows', set (set db rows) rows' = set db rows'
  make_row : ∀ r, (make r).row = row (key r)
  row_injective : Function.Injective row
  make_injective : Function.Injective make
  version_row : ∀ db k, version db (row k) = (Table.lookup key k (get db)).map make
  version_set : ∀ db rows other, (∀ k, other ≠ row k) → version (set db rows) other = version db other
  put_make : ∀ db r, putVersion db (make r) = set db (Table.upsert key r (get db))
  delete_row : ∀ db k, deleteRow db (row k) = set db ((get db).filter fun r => key r ≠ k)
  keyed : ∀ db, Keyed db → ((get db).map key).Nodup
  keyed_set : ∀ db rows, Keyed db → (rows.map key).Nodup → Keyed (set db rows)
  history_set : ∀ db rows, (set db rows).history = db.history

def TableRef.warehouse : TableRef Warehouse Nat where
  get := Database.warehouse
  set db rows := { db with warehouse := rows }
  key := Warehouse.key
  row := .warehouse
  make := .warehouse
  get_set _ _ := rfl
  set_get _ := rfl
  set_set _ _ _ := rfl
  make_row _ := rfl
  row_injective _ _ heq := Row.warehouse.inj heq
  make_injective _ _ heq := Version.warehouse.inj heq
  version_row _ _ := rfl
  version_set _ _ other hother := by
    cases other with
    | warehouse k => exact absurd rfl (hother k)
    | _ => rfl
  put_make _ _ := rfl
  delete_row _ _ := rfl
  keyed _ h := h.warehouse
  keyed_set _ _ h hrows := { h with warehouse := hrows }
  history_set _ _ := rfl

def TableRef.district : TableRef District (Nat × Nat) where
  get := Database.district
  set db rows := { db with district := rows }
  key := District.key
  row := .district
  make := .district
  get_set _ _ := rfl
  set_get _ := rfl
  set_set _ _ _ := rfl
  make_row _ := rfl
  row_injective _ _ heq := Row.district.inj heq
  make_injective _ _ heq := Version.district.inj heq
  version_row _ _ := rfl
  version_set _ _ other hother := by
    cases other with
    | district k => exact absurd rfl (hother k)
    | _ => rfl
  put_make _ _ := rfl
  delete_row _ _ := rfl
  keyed _ h := h.district
  keyed_set _ _ h hrows := { h with district := hrows }
  history_set _ _ := rfl

def TableRef.customer : TableRef Customer (Nat × Nat × Nat) where
  get := Database.customer
  set db rows := { db with customer := rows }
  key := Customer.key
  row := .customer
  make := .customer
  get_set _ _ := rfl
  set_get _ := rfl
  set_set _ _ _ := rfl
  make_row _ := rfl
  row_injective _ _ heq := Row.customer.inj heq
  make_injective _ _ heq := Version.customer.inj heq
  version_row _ _ := rfl
  version_set _ _ other hother := by
    cases other with
    | customer k => exact absurd rfl (hother k)
    | _ => rfl
  put_make _ _ := rfl
  delete_row _ _ := rfl
  keyed _ h := h.customer
  keyed_set _ _ h hrows := { h with customer := hrows }
  history_set _ _ := rfl

def TableRef.oorder : TableRef Oorder (Nat × Nat × Nat) where
  get := Database.oorder
  set db rows := { db with oorder := rows }
  key := Oorder.key
  row := .oorder
  make := .oorder
  get_set _ _ := rfl
  set_get _ := rfl
  set_set _ _ _ := rfl
  make_row _ := rfl
  row_injective _ _ heq := Row.oorder.inj heq
  make_injective _ _ heq := Version.oorder.inj heq
  version_row _ _ := rfl
  version_set _ _ other hother := by
    cases other with
    | oorder k => exact absurd rfl (hother k)
    | _ => rfl
  put_make _ _ := rfl
  delete_row _ _ := rfl
  keyed _ h := h.oorder
  keyed_set _ _ h hrows := { h with oorder := hrows }
  history_set _ _ := rfl

def TableRef.newOrder : TableRef NewOrder (Nat × Nat × Nat) where
  get := Database.newOrder
  set db rows := { db with newOrder := rows }
  key := NewOrder.key
  row := .newOrder
  make := .newOrder
  get_set _ _ := rfl
  set_get _ := rfl
  set_set _ _ _ := rfl
  make_row _ := rfl
  row_injective _ _ heq := Row.newOrder.inj heq
  make_injective _ _ heq := Version.newOrder.inj heq
  version_row _ _ := rfl
  version_set _ _ other hother := by
    cases other with
    | newOrder k => exact absurd rfl (hother k)
    | _ => rfl
  put_make _ _ := rfl
  delete_row _ _ := rfl
  keyed _ h := h.newOrder
  keyed_set _ _ h hrows := { h with newOrder := hrows }
  history_set _ _ := rfl

def TableRef.orderLine : TableRef OrderLine (Nat × Nat × Nat × Nat) where
  get := Database.orderLine
  set db rows := { db with orderLine := rows }
  key := OrderLine.key
  row := .orderLine
  make := .orderLine
  get_set _ _ := rfl
  set_get _ := rfl
  set_set _ _ _ := rfl
  make_row _ := rfl
  row_injective _ _ heq := Row.orderLine.inj heq
  make_injective _ _ heq := Version.orderLine.inj heq
  version_row _ _ := rfl
  version_set _ _ other hother := by
    cases other with
    | orderLine k => exact absurd rfl (hother k)
    | _ => rfl
  put_make _ _ := rfl
  delete_row _ _ := rfl
  keyed _ h := h.orderLine
  keyed_set _ _ h hrows := { h with orderLine := hrows }
  history_set _ _ := rfl

def TableRef.stock : TableRef Stock (Nat × Int) where
  get := Database.stock
  set db rows := { db with stock := rows }
  key := Stock.key
  row := .stock
  make := .stock
  get_set _ _ := rfl
  set_get _ := rfl
  set_set _ _ _ := rfl
  make_row _ := rfl
  row_injective _ _ heq := Row.stock.inj heq
  make_injective _ _ heq := Version.stock.inj heq
  version_row _ _ := rfl
  version_set _ _ other hother := by
    cases other with
    | stock k => exact absurd rfl (hother k)
    | _ => rfl
  put_make _ _ := rfl
  delete_row _ _ := rfl
  keyed _ h := h.stock
  keyed_set _ _ h hrows := { h with stock := hrows }
  history_set _ _ := rfl

end Table

section Version

/-- Every version belongs to a table, and so does every row. -/
theorem Version.exists_ref (v : Version) :
    ∃ (α κ : Type) (_ : DecidableEq κ) (T : TableRef α κ) (r : α), v = T.make r := by
  cases v with
  | warehouse r => exact ⟨_, _, _, .warehouse, r, rfl⟩
  | district r => exact ⟨_, _, _, .district, r, rfl⟩
  | customer r => exact ⟨_, _, _, .customer, r, rfl⟩
  | oorder r => exact ⟨_, _, _, .oorder, r, rfl⟩
  | newOrder r => exact ⟨_, _, _, .newOrder, r, rfl⟩
  | orderLine r => exact ⟨_, _, _, .orderLine, r, rfl⟩
  | stock r => exact ⟨_, _, _, .stock, r, rfl⟩

theorem Row.exists_ref (row : Row) :
    ∃ (α κ : Type) (_ : DecidableEq κ) (T : TableRef α κ) (k : κ), row = T.row k := by
  cases row with
  | warehouse k => exact ⟨_, _, _, .warehouse, k, rfl⟩
  | district k => exact ⟨_, _, _, .district, k, rfl⟩
  | customer k => exact ⟨_, _, _, .customer, k, rfl⟩
  | oorder k => exact ⟨_, _, _, .oorder, k, rfl⟩
  | newOrder k => exact ⟨_, _, _, .newOrder, k, rfl⟩
  | orderLine k => exact ⟨_, _, _, .orderLine, k, rfl⟩
  | stock k => exact ⟨_, _, _, .stock, k, rfl⟩

theorem version_putVersion (db : Database) (v : Version) (row : Row) :
    version (putVersion db v) row = if row = v.row then some v else version db row := by
  obtain ⟨α, κ, _, T, r, rfl⟩ := v.exists_ref
  rw [T.put_make, T.make_row]
  by_cases htable : ∃ k, row = T.row k
  · obtain ⟨k, rfl⟩ := htable
    rw [T.version_row, T.get_set, Table.lookup_upsert, T.version_row]
    by_cases hk : T.key r = k
    · rw [if_pos hk, if_pos (congrArg T.row hk.symm), Option.map_some]
    · rw [if_neg hk, if_neg fun heq => hk (T.row_injective heq).symm]
  · rw [T.version_set _ _ _ fun k heq => htable ⟨k, heq⟩, if_neg fun heq => htable ⟨_, heq⟩]

theorem version_deleteRow (db : Database) (row row' : Row) :
    version (deleteRow db row) row' = if row' = row then none else version db row' := by
  obtain ⟨α, κ, _, T, k, rfl⟩ := row.exists_ref
  rw [T.delete_row]
  by_cases htable : ∃ k', row' = T.row k'
  · obtain ⟨k', rfl⟩ := htable
    rw [T.version_row, T.get_set, Table.lookup_delete, T.version_row]
    by_cases hk : k' = k
    · rw [if_pos hk, if_pos (congrArg T.row hk), Option.map_none]
    · rw [if_neg hk, if_neg fun heq => hk (T.row_injective heq)]
  · rw [T.version_set _ _ _ fun k heq => htable ⟨k, heq⟩, if_neg fun heq => htable ⟨_, heq⟩]

/-- A row of other writes keeps its version. -/
theorem version_apply_of_ne {w : Write} {db : Database} {row : Row} (h : w.row? ≠ some row) :
    version (w.apply db) row = version db row := by
  cases w with
  | put v =>
    exact (version_putVersion db v row).trans (if_neg fun heq => h (congrArg some heq.symm))
  | delete row' =>
    exact (version_deleteRow db row' row).trans (if_neg fun heq => h (congrArg some heq.symm))
  | history r => cases row <;> rfl

/-- The version of a row that is written does not depend on the tables. -/
theorem version_apply_of_eq {w : Write} {row : Row} (h : w.row? = some row) (db db' : Database) :
    version (w.apply db) row = version (w.apply db') row := by
  cases w with
  | put v =>
    obtain rfl : v.row = row := Option.some.inj h
    exact (version_putVersion db v _).trans
      ((if_pos rfl).trans ((version_putVersion db' v _).trans (if_pos rfl)).symm)
  | delete row' =>
    obtain rfl : row' = row := Option.some.inj h
    exact (version_deleteRow db row' _).trans
      ((if_pos rfl).trans ((version_deleteRow db' row' _).trans (if_pos rfl)).symm)
  | history r => exact nomatch h

theorem Keyed.apply {db : Database} (h : Keyed db) (w : Write) : Keyed (w.apply db) := by
  cases w with
  | put v =>
    obtain ⟨α, κ, _, T, r, rfl⟩ := v.exists_ref
    change Keyed (putVersion db (T.make r))
    rw [T.put_make]
    exact T.keyed_set _ _ h (Table.nodup_upsert (T.keyed db h))
  | delete row =>
    obtain ⟨α, κ, _, T, k, rfl⟩ := row.exists_ref
    change Keyed (deleteRow db (T.row k))
    rw [T.delete_row]
    exact T.keyed_set _ _ h ((T.keyed db h).sublist (List.filter_sublist.map _))
  | history r => exact { h with }

theorem Keyed.applyWrites {db : Database} (h : Keyed db) (writes : List Write) :
    Keyed (applyWrites writes db) := by
  induction writes generalizing db with
  | nil => exact h
  | cons w rest ih => exact ih (Keyed.apply h w)

/-- The rows of writes. -/
def writeRows (writes : List Write) : List Row := writes.filterMap Write.row?

theorem version_applyWrites_of_not_mem {writes : List Write} {db : Database} {row : Row}
    (h : row ∉ writeRows writes) : version (applyWrites writes db) row = version db row := by
  induction writes generalizing db with
  | nil => rfl
  | cons w rest ih =>
    have hrest : row ∉ writeRows rest := fun hmem =>
      h (List.mem_filterMap.2 (by
        obtain ⟨w', hw', heq⟩ := List.mem_filterMap.1 hmem
        exact ⟨w', List.mem_cons_of_mem w hw', heq⟩))
    rw [applyWrites_cons, ih hrest]
    exact version_apply_of_ne fun heq => h (List.mem_filterMap.2 ⟨w, List.mem_cons_self, heq⟩)

end Version

section Statement

/-- What a statement addresses: the row with a key, or the lines of an order. -/
inductive Target
  | row (r : Row)
  | lines (order : Nat × Nat × Nat)
  | history
  deriving DecidableEq

def Target.rows (db : Database) : Target → List Row
  | .row r => [r]
  | .lines order => (linesOf db.orderLine order).map (.orderLine ·.key)
  | .history => []

end Statement

end Tpcc.Isolation

namespace Tpcc.Transaction

open Store Isolation

/-- The rows of the `WHERE` clause, or the row that is inserted. -/
def Modify.target : Modify → Target
  | .newOrderUpdateDistrict w d => .row (.district (w, d))
  | .newOrderInsertOorder w d o _ _ _ => .row (.oorder (w, d, o))
  | .newOrderInsertNewOrder w d o => .row (.newOrder (w, d, o))
  | .newOrderUpdateStock _ _ _ w i => .row (.stock (w, i))
  | .newOrderInsertOrderLine w d o number _ _ _ _ _ => .row (.orderLine (w, d, o, number))
  | .paymentUpdateWarehouseYtd _ w => .row (.warehouse w)
  | .paymentUpdateDistrictYtd _ w d => .row (.district (w, d))
  | .paymentUpdateCustomerBc _ _ _ w d c => .row (.customer (w, d, c))
  | .paymentUpdateCustomer _ _ w d c => .row (.customer (w, d, c))
  | .paymentInsertHistory _ _ _ _ _ _ _ => .history
  | .deliveryDeleteNewOrder w d o => .row (.newOrder (w, d, o))
  | .deliveryUpdateCarrier _ w d o => .row (.oorder (w, d, o))
  | .deliveryUpdateOrderLineDelivery w d o => .lines (w, d, o)
  | .deliveryUpdateCustomerBalance _ w d c => .row (.customer (w, d, c))

/-- The writes of a statement: the rows that it addresses and that are there before or after it, as
it leaves them. -/
def Modify.writes (now : Nat) (db : Database) (m : Modify) : Option (List Write) :=
  (m.apply now db).map fun db' =>
    ((m.target.rows db).filter fun r =>
      (version db r).isSome || (version db' r).isSome).map (fun r => .of r (version db' r)) ++
      (db'.history.drop db.history.length).map .history

end Tpcc.Transaction

namespace Tpcc.Isolation

open Lib Store Transaction

section Shape

/-- What a statement does, by the table it changes. -/
inductive Shape (now : Nat) (m : Modify) : Prop
  | update {α κ : Type} [DecidableEq κ] (T : TableRef α κ) (k : κ) (f : α → α)
      (target : m.target = .row (T.row k))
      (apply : ∀ db, m.apply now db = some (T.set db (Table.update T.key k f (T.get db))))
      (key : ∀ r, T.key (f r) = T.key r)
  | insert {α κ : Type} [DecidableEq κ] (T : TableRef α κ) (r : α)
      (target : m.target = .row (T.row (T.key r)))
      (apply : ∀ db, m.apply now db = (Table.insert T.key r (T.get db)).map (T.set db))
  | delete {α κ : Type} [DecidableEq κ] (T : TableRef α κ) (k : κ)
      (target : m.target = .row (T.row k))
      (apply : ∀ db, m.apply now db = some (T.set db ((T.get db).filter fun r => T.key r ≠ k)))
  | lines (order : Nat × Nat × Nat) (target : m.target = .lines order)
      (apply : ∀ db, m.apply now db = some { db with
        orderLine := Table.update OrderLine.order order (fun r => { r with olDeliveryD := some now })
          db.orderLine })
  | history (r : History) (target : m.target = .history)
      (apply : ∀ db, m.apply now db = some { db with history := db.history ++ [r] })

theorem Modify.shape (now : Nat) (m : Modify) : Shape now m := by
  cases m with
  | newOrderUpdateDistrict w d =>
    exact .update .district (w, d) _ rfl (fun _ => rfl) fun _ => rfl
  | newOrderInsertOorder w d o c olCnt allLocal =>
    exact .insert .oorder ⟨w, d, o, c, none, olCnt, allLocal⟩ rfl fun _ => rfl
  | newOrderInsertNewOrder w d o => exact .insert .newOrder ⟨w, d, o⟩ rfl fun _ => rfl
  | newOrderUpdateStock quantity qty remote w i =>
    exact .update .stock (w, i) _ rfl (fun _ => rfl) fun _ => rfl
  | newOrderInsertOrderLine w d o number i amount supply qty distInfo =>
    exact .insert .orderLine ⟨w, d, o, number, i, none, amount, supply, qty, distInfo⟩ rfl
      fun _ => rfl
  | paymentUpdateWarehouseYtd amount w =>
    exact .update .warehouse w _ rfl (fun _ => rfl) fun _ => rfl
  | paymentUpdateDistrictYtd amount w d =>
    exact .update .district (w, d) _ rfl (fun _ => rfl) fun _ => rfl
  | paymentUpdateCustomerBc amount ytd data w d c =>
    exact .update .customer (w, d, c) _ rfl (fun _ => rfl) fun _ => rfl
  | paymentUpdateCustomer amount ytd w d c =>
    exact .update .customer (w, d, c) _ rfl (fun _ => rfl) fun _ => rfl
  | paymentInsertHistory c cd cw d w amount data => exact .history _ rfl fun _ => rfl
  | deliveryDeleteNewOrder w d o => exact .delete .newOrder (w, d, o) rfl fun _ => rfl
  | deliveryUpdateCarrier carrier w d o =>
    exact .update .oorder (w, d, o) _ rfl (fun _ => rfl) fun _ => rfl
  | deliveryUpdateOrderLineDelivery w d o => exact .lines (w, d, o) rfl fun _ => rfl
  | deliveryUpdateCustomerBalance amount w d c =>
    exact .update .customer (w, d, c) _ rfl (fun _ => rfl) fun _ => rfl

end Shape

section Writes

variable {α κ : Type} [DecidableEq κ] {T : TableRef α κ} {now : Nat} {m : Modify} {db : Database}

theorem writes_update {k : κ} {f : α → α} (target : m.target = .row (T.row k))
    (apply : ∀ db, m.apply now db = some (T.set db (Table.update T.key k f (T.get db))))
    (key : ∀ r, T.key (f r) = T.key r) :
    m.writes now db =
      some ((Table.lookup T.key k (T.get db)).toList.map fun r => .put (T.make (f r))) := by
  have hafter : version (T.set db (Table.update T.key k f (T.get db))) (T.row k) =
      (Table.lookup T.key k (T.get db)).map fun r => T.make (f r) := by
    rw [T.version_row, T.get_set, Table.lookup_update fun r _ => key r]
    cases hr : Table.lookup T.key k (T.get db) with
    | none => rfl
    | some r => simp [(Table.lookup_eq_some hr).2]
  rw [Modify.writes, apply, Option.map_some, target]
  simp only [Target.rows, T.history_set, List.drop_length, List.map_nil, List.append_nil]
  cases hr : Table.lookup T.key k (T.get db) with
  | none => simp [hafter, hr, T.version_row]
  | some r => simp [hafter, hr, T.version_row]

theorem writes_insert {r : α} (target : m.target = .row (T.row (T.key r)))
    (apply : ∀ db, m.apply now db = (Table.insert T.key r (T.get db)).map (T.set db)) :
    m.writes now db =
      match Table.lookup T.key (T.key r) (T.get db) with
      | some _ => none
      | none => some [.put (T.make r)] := by
  cases hr : Table.lookup T.key (T.key r) (T.get db) with
  | some r' =>
    have hinsert : Table.insert T.key r (T.get db) = none := by
      obtain ⟨hmem, hkey⟩ := Table.lookup_eq_some hr
      rw [Table.insert, if_pos (List.any_eq_true.2 ⟨r', hmem, decide_eq_true hkey⟩)]
    rw [Modify.writes, apply, hinsert]
    rfl
  | none =>
    have hinsert := Table.insert_of_not_mem (Table.lookup_eq_none.1 hr)
    have hafter : version (T.set db (T.get db ++ [r])) (T.row (T.key r)) = some (T.make r) := by
      rw [T.version_row, T.get_set, Table.lookup_append, hr]
      simp
    rw [Modify.writes, apply, hinsert, Option.map_some, Option.map_some, target]
    simp [Target.rows, T.history_set, hafter]

theorem writes_delete {k : κ} (target : m.target = .row (T.row k))
    (apply : ∀ db, m.apply now db =
      some (T.set db ((T.get db).filter fun r => T.key r ≠ k))) :
    m.writes now db =
      some ((Table.lookup T.key k (T.get db)).toList.map fun _ => .delete (T.row k)) := by
  have hafter : version (T.set db ((T.get db).filter fun r => T.key r ≠ k)) (T.row k) = none := by
    rw [T.version_row, T.get_set, Table.lookup_delete, if_pos rfl, Option.map_none]
  rw [Modify.writes, apply, Option.map_some, target]
  simp only [Target.rows, T.history_set, List.drop_length, List.map_nil, List.append_nil,
    Option.some_inj]
  have hbefore := T.version_row db k
  cases hr : Table.lookup T.key k (T.get db) with
  | none =>
    rw [hr, Option.map_none] at hbefore
    rw [List.filter_cons_of_neg (by simp only [hbefore, hafter]; decide)]
    rfl
  | some r =>
    rw [hr, Option.map_some] at hbefore
    rw [List.filter_cons_of_pos (by simp only [hbefore]; rfl)]
    simp only [List.filter_nil, List.map_cons, List.map_nil, Option.toList_some, hafter,
      Write.of_none]

theorem writes_lines {order : Nat × Nat × Nat} (hkeyed : Keyed db) (target : m.target = .lines order)
    (apply : ∀ db, m.apply now db = some { db with
      orderLine := Table.update OrderLine.order order (fun r => { r with olDeliveryD := some now })
        db.orderLine }) :
    m.writes now db =
      some ((linesOf db.orderLine order).map fun l =>
        .put (.orderLine { l with olDeliveryD := some now })) := by
  have hline : ∀ l ∈ linesOf db.orderLine order,
      Table.lookup OrderLine.key l.key db.orderLine = some l ∧ l.order = order := by
    intro l hl
    obtain ⟨hmem, horder⟩ := List.mem_filter.1 hl
    exact ⟨Table.lookup_of_mem hkeyed.orderLine hmem rfl, of_decide_eq_true horder⟩
  rw [Modify.writes, apply, Option.map_some, target]
  simp only [Target.rows, List.drop_length, List.map_nil, List.append_nil, Option.some_inj]
  rw [List.filter_eq_self.2, List.map_map]
  · refine List.map_congr_left fun l hl => ?_
    obtain ⟨hlookup, horder⟩ := hline l hl
    simp only [Function.comp_apply, version]
    have hafter : Table.lookup OrderLine.key l.key (Table.update OrderLine.order order
        (fun r => { r with olDeliveryD := some now }) db.orderLine) =
        some { l with olDeliveryD := some now } := by
      have hrow := @Table.lookup_update OrderLine _ _ OrderLine.key l.key db.orderLine _ _
        OrderLine.order order (fun r => { r with olDeliveryD := some now }) fun _ _ => rfl
      rw [hrow, hlookup, Option.map_some, if_pos horder]
    rw [hafter, Option.map_some, Write.of_some]
  · intro r hr
    obtain ⟨l, hl, rfl⟩ := List.mem_map.1 hr
    simp [version, (hline l hl).1]

theorem writes_history {r : History} (target : m.target = .history)
    (apply : ∀ db, m.apply now db = some { db with history := db.history ++ [r] }) :
    m.writes now db = some [.history r] := by
  rw [Modify.writes, apply, Option.map_some, target]
  simp [Target.rows]

end Writes

section Replay

variable {now : Nat} {m : Modify} {db db' : Database}

/-- What a statement addresses is the same. -/
def Target.Same (db db' : Database) : Target → Prop
  | .row r => version db' r = version db r
  | .lines order => linesOf db'.orderLine order = linesOf db.orderLine order
  | .history => True

theorem TableRef.lookup_of_same {α κ : Type} [DecidableEq κ] (T : TableRef α κ) {k : κ}
    (h : version db' (T.row k) = version db (T.row k)) :
    Table.lookup T.key k (T.get db') = Table.lookup T.key k (T.get db) := by
  rw [T.version_row, T.version_row] at h
  exact Option.map_injective T.make_injective h

/-- A statement writes the same when what it addresses is the same. -/
theorem Modify.writes_congr (hkeyed : Keyed db) (hkeyed' : Keyed db')
    (h : m.target.Same db db') : m.writes now db' = m.writes now db := by
  cases Modify.shape now m with
  | update T k f target apply key =>
    rw [target] at h
    rw [writes_update target apply key, writes_update target apply key, T.lookup_of_same h]
  | insert T r target apply =>
    rw [target] at h
    rw [writes_insert target apply, writes_insert target apply, T.lookup_of_same h]
  | delete T k target apply =>
    rw [target] at h
    rw [writes_delete target apply, writes_delete target apply, T.lookup_of_same h]
  | lines order target apply =>
    rw [target] at h
    have hlines : linesOf db'.orderLine order = linesOf db.orderLine order := h
    rw [writes_lines hkeyed target apply, writes_lines hkeyed' target apply, hlines]
  | history r target apply => rw [writes_history target apply, writes_history target apply]

theorem applyWrites_orderLines (lines : List OrderLine) (db : Database) :
    applyWrites (lines.map fun l => .put (.orderLine l)) db =
      { db with
        orderLine := lines.foldl (fun rows l => Table.upsert OrderLine.key l rows) db.orderLine } := by
  induction lines generalizing db with
  | nil => rfl
  | cons l lines ih =>
    rw [List.map_cons, applyWrites_cons, ih]
    rfl

/-- A statement is its writes. -/
theorem Modify.apply_of_writes {writes : List Write} (hkeyed : Keyed db)
    (h : m.writes now db = some writes) : m.apply now db = some (applyWrites writes db) := by
  cases Modify.shape now m with
  | update T k f target apply key =>
    rw [writes_update target apply key] at h
    obtain rfl := Option.some.inj h
    rw [apply]
    cases hr : Table.lookup T.key k (T.get db) with
    | none =>
      rw [Table.update_eq_self, T.set_get]
      · rfl
      · intro r hr' hkey
        exact Table.lookup_eq_none.1 hr (List.mem_map.2 ⟨r, hr', hkey⟩)
    | some r =>
      rw [Table.update_eq_upsert (T.keyed db hkeyed) (key r) hr, ← T.put_make]
      rfl
  | insert T r target apply =>
    rw [writes_insert target apply] at h
    cases hr : Table.lookup T.key (T.key r) (T.get db) with
    | none =>
      rw [hr] at h
      obtain rfl := Option.some.inj h
      have hfresh := Table.lookup_eq_none.1 hr
      rw [apply, Table.insert_of_not_mem hfresh, ← Table.upsert_of_not_mem hfresh, Option.map_some,
        ← T.put_make]
      rfl
    | some r' =>
      rw [hr] at h
      exact nomatch h
  | delete T k target apply =>
    rw [writes_delete target apply] at h
    obtain rfl := Option.some.inj h
    rw [apply]
    cases hr : Table.lookup T.key k (T.get db) with
    | none =>
      rw [List.filter_eq_self.2, T.set_get]
      · rfl
      · intro r hr'
        exact decide_eq_true fun hkey =>
          Table.lookup_eq_none.1 hr (List.mem_map.2 ⟨r, hr', hkey⟩)
    | some r =>
      rw [← T.delete_row]
      rfl
  | lines order target apply =>
    rw [writes_lines hkeyed target apply] at h
    obtain rfl := Option.some.inj h
    have hputs : (linesOf db.orderLine order).map (fun l =>
        Write.put (.orderLine { l with olDeliveryD := some now })) =
        ((linesOf db.orderLine order).map fun l => { l with olDeliveryD := some now }).map
          fun l => .put (.orderLine l) := by
      rw [List.map_map]
      rfl
    have hsub : linesOf db.orderLine order ⊆ db.orderLine := fun _ hl => List.mem_of_mem_filter hl
    have hfold := @Table.map_eq_foldl_upsert OrderLine _ _ OrderLine.key db.orderLine
      (fun l => { l with olDeliveryD := some now }) _ hkeyed.orderLine (fun _ => rfl) hsub
    rw [apply, hputs, applyWrites_orderLines, hfold]
    congr 2
    refine List.map_congr_left fun l hl => ?_
    have hiff : l.key ∈ (linesOf db.orderLine order).map OrderLine.key ↔ l.order = order := by
      constructor
      · intro hmem
        obtain ⟨l', hl', hkey⟩ := List.mem_map.1 hmem
        obtain ⟨hmem', horder⟩ := List.mem_filter.1 hl'
        rw [← Table.eq_of_key hkeyed.orderLine hmem' hl hkey]
        exact of_decide_eq_true horder
      · exact fun horder => List.mem_map_of_mem (List.mem_filter.2 ⟨hl, decide_eq_true horder⟩)
    simp only [hiff]
  | history r target apply =>
    rw [writes_history target apply] at h
    obtain rfl := Option.some.inj h
    rw [apply]
    rfl

end Replay

end Tpcc.Isolation
