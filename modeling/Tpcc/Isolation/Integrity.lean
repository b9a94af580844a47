import Tpcc.Import.ForeignKeys
import Tpcc.Isolation.Emits

/-! The foreign keys of the schema: no statement of a transaction is rejected by one, and every
committed state satisfies them. -/

namespace Tpcc.Transaction

open Isolation

/-- The rows that the foreign keys of an inserted row refer to.  The other statements change no
column of a foreign key, and nothing refers to a row of `new_order`. -/
def Modify.parents : Modify → List Row
  | .newOrderInsertOorder w d _ c _ _ => [.customer (w, d, c)]
  | .newOrderInsertNewOrder w d o => [.oorder (w, d, o)]
  | .newOrderInsertOrderLine w d o _ i _ supply _ _ => [.oorder (w, d, o), .stock (supply, i)]
  | .paymentInsertHistory c cd cw d w _ _ => [.customer (cw, cd, c), .district (w, d)]
  | _ => []

end Tpcc.Transaction

namespace Tpcc.Isolation

open Lib Store Transaction Check Import Serial

variable {db db' : Database} {warehouseCount : Nat}

section Rows

/-- A row exists when its key is in the column. -/
theorem isSome_version {row : Row} :
    (version db row).isSome ↔ match row with
      | .warehouse k => k ∈ (keyColumns db).warehouse
      | .district k => k ∈ (keyColumns db).district
      | .customer k => k ∈ (keyColumns db).customer
      | .oorder k => k ∈ db.oorder.map Oorder.key
      | .newOrder k => k ∈ (keyColumns db).newOrder
      | .orderLine k => k ∈ db.orderLine.map OrderLine.key
      | .stock k => k ∈ (keyColumns db).stock := by
  cases row <;> rw [version, Option.isSome_map, Table.lookup_isSome] <;> rfl

end Rows

section Apply

/-- A statement whose parents exist keeps the foreign keys. -/
theorem foreignKeys_apply {m : Modify} {now : Nat} (h : ForeignKeys (keyColumns db))
    (hparents : ∀ row ∈ m.parents, (version db row).isSome)
    (happly : m.apply now db = some db') : ForeignKeys (keyColumns db') := by
  cases m with
  | newOrderInsertOorder w d orderId c olCnt allLocal =>
    obtain ⟨rows, hrows, rfl⟩ := Option.map_eq_some_iff.1 happly
    obtain ⟨rfl, -⟩ := Table.insert_eq_some hrows
    have hcustomer := isSome_version.1 (hparents _ (List.mem_singleton_self _))
    have hcolumns : keyColumns { db with
        oorder := db.oorder ++ [⟨w, d, orderId, c, none, olCnt, allLocal⟩] } =
      { keyColumns db with
        oorder := (keyColumns db).oorder ++ [((w, d, orderId), w, d, c)] } := by
      simp [keyColumns, Oorder.key, Oorder.customer]
    rw [hcolumns]
    exact { h with
      oorder := List.forall_mem_append.2 ⟨h.oorder, List.forall_mem_singleton.2 hcustomer⟩
      newOrder := fun k hk => by
        rw [List.map_append]
        exact List.mem_append_left _ (h.newOrder k hk)
      orderLineOorder := fun k hk => by
        rw [List.map_append]
        exact List.mem_append_left _ (h.orderLineOorder k hk) }
  | newOrderInsertNewOrder w d orderId =>
    obtain ⟨rows, hrows, rfl⟩ := Option.map_eq_some_iff.1 happly
    obtain ⟨rfl, -⟩ := Table.insert_eq_some hrows
    have horder := isSome_version.1 (hparents _ (List.mem_singleton_self _))
    have hcolumns : keyColumns { db with newOrder := db.newOrder ++ [⟨w, d, orderId⟩] } =
      { keyColumns db with newOrder := (keyColumns db).newOrder ++ [(w, d, orderId)] } := by
      simp [keyColumns, NewOrder.key]
    rw [hcolumns]
    exact { h with
      newOrder := List.forall_mem_append.2 ⟨h.newOrder, List.forall_mem_singleton.2
        (map_fst_oorder ▸ horder)⟩ }
  | newOrderInsertOrderLine w d orderId number i amount supply qty distInfo =>
    obtain ⟨rows, hrows, rfl⟩ := Option.map_eq_some_iff.1 happly
    obtain ⟨rfl, -⟩ := Table.insert_eq_some hrows
    have horder := isSome_version.1 (hparents _ List.mem_cons_self)
    have hstock := isSome_version.1 (hparents _ (List.mem_cons_of_mem _ List.mem_cons_self))
    have hcolumns : keyColumns { db with
        orderLine := db.orderLine ++
          [⟨w, d, orderId, number, i, none, amount, supply, qty, distInfo⟩] } =
      { keyColumns db with
        orderLine := (keyColumns db).orderLine ++ [((w, d, orderId), supply, i)] } := by
      simp [keyColumns, OrderLine.order]
    rw [hcolumns]
    exact { h with
      orderLineOorder := List.forall_mem_append.2 ⟨h.orderLineOorder,
        List.forall_mem_singleton.2 (map_fst_oorder ▸ horder)⟩
      orderLineStock := List.forall_mem_append.2 ⟨h.orderLineStock,
        List.forall_mem_singleton.2 hstock⟩ }
  | paymentInsertHistory c cd cw d w amount data =>
    obtain rfl := Option.some.inj happly
    have hcustomer := isSome_version.1 (hparents _ List.mem_cons_self)
    have hdistrict := isSome_version.1 (hparents _ (List.mem_cons_of_mem _ List.mem_cons_self))
    have hcolumns : keyColumns { db with history := db.history ++ [⟨c, cd, cw, d, w, amount, data⟩] } =
      { keyColumns db with
        historyCustomer := (keyColumns db).historyCustomer ++ [(cw, cd, c)]
        historyDistrict := (keyColumns db).historyDistrict ++ [(w, d)] } := by
      simp [keyColumns, History.customer, History.district]
    rw [hcolumns]
    exact { h with
      historyCustomer := List.forall_mem_append.2 ⟨h.historyCustomer,
        List.forall_mem_singleton.2 hcustomer⟩
      historyDistrict := List.forall_mem_append.2 ⟨h.historyDistrict,
        List.forall_mem_singleton.2 hdistrict⟩ }
  | deliveryDeleteNewOrder w d orderId =>
    obtain rfl := Option.some.inj happly
    exact { h with
      newOrder := fun k hk => by
        obtain ⟨r, hr, rfl⟩ := List.mem_map.1 hk
        exact h.newOrder _ (List.mem_map_of_mem (List.mem_filter.1 hr).1) }
  | _ =>
    obtain rfl := Option.some.inj happly
    refine Eq.mpr (congrArg ForeignKeys ?_) h
    simp only [keyColumns, KeyColumns.mk.injEq, true_and, and_true]
    exact Table.map_update fun _ => rfl

end Apply

section Run

/-- The terminals of a run with the given number of imported warehouses. -/
def Home (warehouseCount : Nat) (context : TTransactionContext) : Prop :=
  1 ≤ context.warehouseID ∧ context.warehouseID ≤ warehouseCount

variable {o : Statics} {before : List Modify} {m : Modify}

/-- What holds of the tables that a transaction sees after its statements. -/
structure Linked (before : List Modify) (db : Database) : Prop where
  foreignKeys : ForeignKeys (keyColumns db)
  inserted : ∀ k ∈ before.filterMap Modify.order?, k ∈ db.oorder.map Oorder.key

theorem Linked.start (h : ForeignKeys (keyColumns db)) : Linked [] db := ⟨h, by simp⟩

theorem parents_of_statement (hpopulated : Populated warehouseCount o.outline)
    (hm : SomeStatement (Home warehouseCount) o before m) (hstatics : statics db = o)
    (h : Linked before db) : ∀ row ∈ m.parents, (version db row).isSome := by
  obtain ⟨context, hhome, hstatement⟩ := hm
  have hcustomer : (keyColumns db).customer = o.outline.customer.map Prod.fst := by
    rw [← hstatics, statics, outline, List.map_map]
    rfl
  have hdistrict : (keyColumns db).district = o.outline.district := by
    rw [← hstatics]
    rfl
  have hstock : (keyColumns db).stock = o.outline.stock := by
    rw [← hstatics]
    rfl
  cases hstatement with
  | insertOorder d orderId c olCnt allLocal =>
    refine List.forall_mem_singleton.2 (isSome_version.2 ?_)
    rw [hcustomer]
    exact hpopulated.customer _ (mem_orderGrid.2 ⟨mem_grid.2 ⟨hhome, d.property⟩, c.property⟩)
  | insertNewOrder d orderId horder =>
    exact List.forall_mem_singleton.2 (isSome_version.2 (h.inserted _ horder))
  | insertOrderLine d orderId number item supply qty distInfo horder _ hin =>
    refine List.forall_mem_cons.2 ⟨isSome_version.2 (h.inserted _ horder),
      List.forall_mem_singleton.2 (isSome_version.2 ?_)⟩
    rw [hstock]
    exact hin
  | updateCustomer amount w d c cData => cases cData <;> exact List.forall_mem_nil _
  | insertHistory c cd cw d amount data hin hin' =>
    refine List.forall_mem_cons.2 ⟨isSome_version.2 ?_,
      List.forall_mem_singleton.2 (isSome_version.2 ?_)⟩
    · rw [hcustomer]
      exact hin
    · rw [hdistrict]
      exact hin'
  | _ => exact List.forall_mem_nil _

/-- The orders are those before, and the one that the statement inserts. -/
theorem mem_oorder_apply {now : Nat} (happly : m.apply now db = some db') (k : Nat × Nat × Nat) :
    k ∈ db'.oorder.map Oorder.key ↔ k ∈ db.oorder.map Oorder.key ∨ m.order? = some k := by
  cases m with
  | newOrderInsertOorder w d orderId c olCnt allLocal =>
    obtain ⟨rows, hrows, rfl⟩ := Option.map_eq_some_iff.1 happly
    obtain ⟨rfl, -⟩ := Table.insert_eq_some hrows
    simp [Modify.order?, Oorder.key, eq_comm]
  | newOrderInsertNewOrder w d orderId =>
    obtain ⟨rows, -, rfl⟩ := Option.map_eq_some_iff.1 happly
    exact (or_iff_left (Option.some_ne_none k).symm).symm
  | newOrderInsertOrderLine w d orderId number i amount supply qty distInfo =>
    obtain ⟨rows, -, rfl⟩ := Option.map_eq_some_iff.1 happly
    exact (or_iff_left (Option.some_ne_none k).symm).symm
  | deliveryUpdateCarrier carrier w d orderId =>
    obtain rfl := Option.some.inj happly
    have hkeys : (Table.update Oorder.key (w, d, orderId)
        (fun r => { r with oCarrierId := some carrier }) db.oorder).map Oorder.key =
      db.oorder.map Oorder.key := Table.map_update fun _ => rfl
    change k ∈ (Table.update Oorder.key _ _ db.oorder).map Oorder.key ↔ _
    rw [hkeys]
    exact (or_iff_left (Option.some_ne_none k).symm).symm
  | _ =>
    obtain rfl := Option.some.inj happly
    exact (or_iff_left (Option.some_ne_none k).symm).symm

theorem Linked.step (hpopulated : Populated warehouseCount o.outline) {now : Nat}
    (hstatics : statics db = o) (h : Linked before db)
    (hm : SomeStatement (Home warehouseCount) o before m) (happly : m.apply now db = some db') :
    Linked (before ++ [m]) db' where
  foreignKeys := foreignKeys_apply h.foreignKeys (parents_of_statement hpopulated hm hstatics h)
    happly
  inserted k hk := by
    rw [mem_oorder_apply happly]
    rw [List.filterMap_append, List.mem_append] at hk
    refine hk.imp (h.inserted k) fun hk => ?_
    simpa using hk

end Run

end Tpcc.Isolation
