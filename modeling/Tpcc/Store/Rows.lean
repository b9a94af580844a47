import Mathlib.Data.List.Perm.Basic
import Mathlib.Data.List.Dedup
import Tpcc.Store.ForeignKeys

/-! The rows of all tables in one list, and what an `INSERT` of some of them checks. -/

namespace Tpcc.Store

/-- A row of one of the tables. -/
inductive TableRow
  | warehouse (r : Warehouse)
  | district (r : District)
  | customer (r : Customer)
  | history (r : History)
  | oorder (r : Oorder)
  | newOrder (r : NewOrder)
  | orderLine (r : OrderLine)
  | item (r : Item)
  | stock (r : Stock)
  deriving DecidableEq

/-- The primary key of a row, with the row's table. -/
inductive TableKey
  | warehouse (k : Nat)
  | district (k : Nat × Nat)
  | customer (k : Nat × Nat × Nat)
  | oorder (k : Nat × Nat × Nat)
  | newOrder (k : Nat × Nat × Nat)
  | orderLine (k : Nat × Nat × Nat × Nat)
  | item (k : Int)
  | stock (k : Nat × Int)
  deriving DecidableEq

namespace TableRow

/-- `history` has no primary key. -/
def key : TableRow → Option TableKey
  | warehouse r => some (.warehouse r.key)
  | district r => some (.district r.key)
  | customer r => some (.customer r.key)
  | history _ => none
  | oorder r => some (.oorder r.key)
  | newOrder r => some (.newOrder r.key)
  | orderLine r => some (.orderLine r.key)
  | item r => some (.item r.key)
  | stock r => some (.stock r.key)

/-- The rows that the row's `FOREIGN KEY` clauses ask for. -/
def parents : TableRow → List TableKey
  | warehouse _ => []
  | district r => [.warehouse r.dWId]
  | customer r => [.district (r.cWId, r.cDId)]
  | history r => [.customer r.customer, .district r.district]
  | oorder r => [.customer r.customer]
  | newOrder r => [.oorder r.key]
  | orderLine r => [.oorder r.order, .stock (r.olSupplyWId, r.olIId)]
  | item _ => []
  | stock r => [.warehouse r.sWId, .item r.sIId]

end TableRow

/-- The rows of the tables. -/
def tableRows (db : Database) : List TableRow :=
  db.item.map .item ++ (db.warehouse.map .warehouse ++ (db.district.map .district ++
    (db.stock.map .stock ++ (db.customer.map .customer ++ (db.history.map .history ++
      (db.oorder.map .oorder ++ (db.newOrder.map .newOrder ++ db.orderLine.map .orderLine)))))))

/-- There is a row with the key. -/
def TableKey.In (db : Database) : TableKey → Prop
  | warehouse k => k ∈ (keyColumns db).warehouse
  | district k => k ∈ (keyColumns db).district
  | customer k => k ∈ (keyColumns db).customer
  | oorder k => k ∈ (keyColumns db).oorder.map Prod.fst
  | newOrder k => k ∈ (keyColumns db).newOrder
  | orderLine k => k ∈ db.orderLine.map OrderLine.key
  | item k => k ∈ (keyColumns db).item
  | stock k => k ∈ (keyColumns db).stock

/-- The primary keys that are taken. -/
def keys (rows : List TableRow) : List TableKey := rows.filterMap TableRow.key

/-- An `INSERT` of a row: it fails when the primary key is taken or a foreign key has no row. -/
def insertRow (rows : List TableRow) (row : TableRow) : Option (List TableRow) :=
  if (∀ k ∈ row.key, k ∉ keys rows) ∧ ∀ k ∈ row.parents, k ∈ keys rows then some (rows ++ [row])
  else none

def insertRows (rows batch : List TableRow) : Option (List TableRow) := batch.foldlM insertRow rows

variable {rows batch : List TableRow} {row : TableRow} {db : Database}

section Insert

theorem keys_append : keys (rows ++ batch) = keys rows ++ keys batch := List.filterMap_append

/-- When no key is taken and no row of another table is missing, all rows are inserted. -/
theorem insertRows_eq_some (hnodup : (keys (rows ++ batch)).Nodup)
    (hparents : ∀ r ∈ batch, ∀ k ∈ r.parents, k ∈ keys rows) :
    insertRows rows batch = some (rows ++ batch) := by
  induction batch generalizing rows with
  | nil => simp [insertRows]
  | cons row batch ih =>
    obtain ⟨hfirst, hrest⟩ := List.forall_mem_cons.1 hparents
    have hsplit : rows ++ row :: batch = rows ++ [row] ++ batch := by simp
    have hkey : ∀ k ∈ row.key, k ∉ keys rows := by
      intro k hk hmem
      rw [keys_append, keys, keys, List.filterMap_cons_some hk] at hnodup
      exact List.disjoint_of_nodup_append hnodup hmem List.mem_cons_self
    rw [hsplit] at hnodup ⊢
    rw [insertRows, List.foldlM_cons, insertRow, if_pos ⟨hkey, hfirst⟩]
    refine ih hnodup fun r hr k hk => ?_
    rw [keys_append]
    exact List.mem_append_left _ (hrest r hr k hk)

/-- No rows have the primary key of another one, and each finds what its foreign keys ask for. -/
structure Constrained (rows : List TableRow) : Prop where
  keys : (keys rows).Nodup
  parents : ∀ r ∈ rows, ∀ k ∈ r.parents, k ∈ Store.keys rows

theorem Constrained.perm (h : Constrained rows) (hperm : rows.Perm batch) : Constrained batch where
  keys := (hperm.filterMap TableRow.key).nodup_iff.1 h.keys
  parents r hr k hk :=
    (hperm.filterMap TableRow.key).mem_iff.1 (h.parents r (hperm.mem_iff.2 hr) k hk)

theorem Constrained.insertRow {rows' : List TableRow} (h : Constrained rows)
    (hinsert : insertRow rows row = some rows') : Constrained rows' := by
  rw [Store.insertRow] at hinsert
  split at hinsert
  case isFalse => cases hinsert
  next hchecks =>
    obtain rfl := Option.some.inj hinsert
    refine ⟨?_, fun r hr k hk => ?_⟩
    · rw [keys_append]
      refine h.keys.append ?_ fun k hold hnew => ?_
      · cases hkey : row.key <;> simp [Store.keys, hkey]
      · obtain ⟨r, hr, hkey⟩ := List.mem_filterMap.1 hnew
        obtain rfl := List.mem_singleton.1 hr
        exact hchecks.1 k hkey hold
    · rw [keys_append]
      refine List.mem_append_left _ ?_
      rcases List.mem_append.1 hr with hr | hr
      · exact h.parents r hr k hk
      · obtain rfl := List.mem_singleton.1 hr
        exact hchecks.2 k hk

theorem Constrained.insertRows {rows' : List TableRow} (h : Constrained rows)
    (hinsert : insertRows rows batch = some rows') : Constrained rows' := by
  induction batch generalizing rows with
  | nil =>
    obtain rfl := Option.some.inj hinsert
    exact h
  | cons row batch ih =>
    obtain ⟨next, hfirst, hrest⟩ := Option.bind_eq_some_iff.1 hinsert
    exact ih (h.insertRow hfirst) hrest

end Insert

section Tables

theorem keys_map {α β : Type} {f : α → TableRow} {g : β → TableKey} {k : α → β}
    (h : ∀ r, (f r).key = some (g (k r))) (rs : List α) :
    (rs.map f).filterMap TableRow.key = (rs.map k).map g := by
  have hkey : TableRow.key ∘ f = some ∘ (g ∘ k) := funext h
  rw [List.filterMap_map, hkey, List.filterMap_eq_map, List.map_map]

theorem keys_tableRows (db : Database) : keys (tableRows db) =
    (db.item.map Item.key).map .item ++ ((db.warehouse.map Warehouse.key).map .warehouse ++
      ((db.district.map District.key).map .district ++ ((db.stock.map Stock.key).map .stock ++
        ((db.customer.map Customer.key).map .customer ++ ((db.oorder.map Oorder.key).map .oorder ++
          ((db.newOrder.map NewOrder.key).map .newOrder ++
            (db.orderLine.map OrderLine.key).map .orderLine)))))) := by
  have hhistory : (db.history.map TableRow.history).filterMap TableRow.key = [] := by
    simp [List.filterMap_map, Function.comp_def, TableRow.key]
  simp only [keys, tableRows, List.filterMap_append, hhistory, List.nil_append]
  rw [keys_map (k := Item.key) (fun _ => rfl), keys_map (k := Warehouse.key) (fun _ => rfl),
    keys_map (k := District.key) (fun _ => rfl), keys_map (k := Stock.key) (fun _ => rfl),
    keys_map (k := Customer.key) (fun _ => rfl), keys_map (k := Oorder.key) (fun _ => rfl),
    keys_map (k := NewOrder.key) (fun _ => rfl), keys_map (k := OrderLine.key) (fun _ => rfl)]

theorem nodup_tagged {α : Type} {g : α → TableKey} {ks : List α} {rest : List TableKey}
    (hinj : Function.Injective g) (hks : ks.Nodup) (hother : ∀ k, g k ∉ rest) (hrest : rest.Nodup) :
    (ks.map g ++ rest).Nodup := by
  refine (hks.map hinj).append hrest fun key hkey => ?_
  obtain ⟨k, -, rfl⟩ := List.mem_map.1 hkey
  exact hother k

theorem nodup_keys_tableRows (h : Keyed db) : (keys (tableRows db)).Nodup := by
  rw [keys_tableRows]
  refine nodup_tagged (fun _ _ => TableKey.item.inj) h.item (by simp) ?_
  refine nodup_tagged (fun _ _ => TableKey.warehouse.inj) h.warehouse (by simp) ?_
  refine nodup_tagged (fun _ _ => TableKey.district.inj) h.district (by simp) ?_
  refine nodup_tagged (fun _ _ => TableKey.stock.inj) h.stock (by simp) ?_
  refine nodup_tagged (fun _ _ => TableKey.customer.inj) h.customer (by simp) ?_
  refine nodup_tagged (fun _ _ => TableKey.oorder.inj) h.oorder (by simp) ?_
  refine nodup_tagged (fun _ _ => TableKey.newOrder.inj) h.newOrder (by simp) ?_
  exact h.orderLine.map fun _ _ => TableKey.orderLine.inj

theorem mem_keys_tableRows {k : TableKey} : k ∈ keys (tableRows db) ↔ k.In db := by
  rw [keys_tableRows]
  cases k <;> simp [TableKey.In, keyColumns]

/-- The constraints on the rows are those on the tables. -/
theorem constrained_tableRows (hkeyed : Keyed db) (hforeign : ForeignKeys (keyColumns db)) :
    Constrained (tableRows db) where
  keys := nodup_keys_tableRows hkeyed
  parents r hr k hk := by
    rw [mem_keys_tableRows]
    simp only [tableRows, List.mem_append, List.mem_map] at hr
    rcases hr with ⟨r, hr, rfl⟩ | ⟨r, hr, rfl⟩ | ⟨r, hr, rfl⟩ | ⟨r, hr, rfl⟩ | ⟨r, hr, rfl⟩ |
      ⟨r, hr, rfl⟩ | ⟨r, hr, rfl⟩ | ⟨r, hr, rfl⟩ | ⟨r, hr, rfl⟩
    · cases hk
    · cases hk
    · obtain rfl := List.mem_singleton.1 hk
      exact hforeign.district _ (List.mem_map_of_mem hr)
    · have hkey := List.mem_map_of_mem (f := Stock.key) hr
      rcases List.mem_pair.1 hk with rfl | rfl
      · exact hforeign.stockWarehouse _ hkey
      · exact hforeign.stockItem _ hkey
    · obtain rfl := List.mem_singleton.1 hk
      exact hforeign.customer _ (List.mem_map_of_mem hr)
    · rcases List.mem_pair.1 hk with rfl | rfl
      · exact hforeign.historyCustomer _ (List.mem_map_of_mem hr)
      · exact hforeign.historyDistrict _ (List.mem_map_of_mem hr)
    · obtain rfl := List.mem_singleton.1 hk
      exact hforeign.oorder _ (List.mem_map_of_mem hr)
    · obtain rfl := List.mem_singleton.1 hk
      exact hforeign.newOrder _ (List.mem_map_of_mem hr)
    · have hkey := List.mem_map_of_mem (f := fun r : OrderLine =>
        (r.order, r.olSupplyWId, r.olIId)) hr
      rcases List.mem_pair.1 hk with rfl | rfl
      · exact hforeign.orderLineOorder _ hkey
      · exact hforeign.orderLineStock _ hkey

end Tables

end Tpcc.Store
