import Tpcc.Import.Overflow
import Tpcc.Isolation.Emits

/-! The checks of `CheckSync` pass in every state that concurrent transactions commit. -/

namespace Tpcc.Isolation

open Lib Store Transaction Check Import Serial

section Base

/-- Columns of a column that is the same. -/
theorem map_column_congr {α κ β : Type} {key : α → κ} {rows rows' : List α} (column : κ → β)
    (h : rows'.map key = rows.map key) :
    rows'.map (fun r => column (key r)) = rows.map fun r => column (key r) := by
  have hcolumns := congrArg (List.map column) h
  rw [List.map_map, List.map_map] at hcolumns
  exact hcolumns

theorem length_column_congr {α κ : Type} {key : α → κ} {rows rows' : List α}
    (h : rows'.map key = rows.map key) : rows'.length = rows.length := by
  have hlengths := congrArg List.length h
  rwa [List.length_map, List.length_map] at hlengths

variable {int : Int → Int} {db db' : Database} {warehouseCount : Nat}

/-- The first checks read only what no statement changes. -/
theorem baseChecks_congr (h : statics db' = statics db) :
    baseChecks int db' warehouseCount false = baseChecks int db warehouseCount false := by
  obtain ⟨houtline, hitem⟩ := Statics.mk.inj h
  obtain ⟨hwarehouse, hdistrict, hcustomer, -, hstock⟩ := Outline.mk.inj houtline
  have hids : db'.warehouse.map Warehouse.wId = db.warehouse.map Warehouse.wId := hwarehouse
  have hcustomer' : db'.customer.map Customer.key = db.customer.map Customer.key :=
    map_column_congr Prod.fst hcustomer
  have hdw : db'.district.map District.dWId = db.district.map District.dWId :=
    map_column_congr Prod.fst hdistrict
  have hdd : db'.district.map District.dId = db.district.map District.dId :=
    map_column_congr Prod.snd hdistrict
  have hcw : db'.customer.map Customer.cWId = db.customer.map Customer.cWId :=
    map_column_congr Prod.fst hcustomer'
  have hcd : db'.customer.map Customer.cDId = db.customer.map Customer.cDId :=
    map_column_congr (fun k => k.2.1) hcustomer'
  have hcc : db'.customer.map Customer.cId = db.customer.map Customer.cId :=
    map_column_congr (fun k => k.2.2) hcustomer'
  have hsw : db'.stock.map Stock.sWId = db.stock.map Stock.sWId := map_column_congr Prod.fst hstock
  have hsi : db'.stock.map Stock.sIId = db.stock.map Stock.sIId := map_column_congr Prod.snd hstock
  simp only [baseChecks, baseCheckWarehouseTable, baseCheckDistrictTable, baseCheckCustomerTable,
    baseCheckItemTable, baseCheckStockTable, hids, length_column_congr hwarehouse,
    length_column_congr hdistrict, hdw, hdd, length_column_congr hcustomer', hcw, hcd, hcc, hitem,
    length_column_congr hstock, hsw, hsi, Bool.false_eq_true, if_false]

end Base

section Carriers

variable {terminal : TTransactionContext → Prop} {o : Statics} {db db' : Database}

/-- Orders are inserted without a carrier, and a carrier that is set is at least 1. -/
theorem carriersOk_apply {before : List Modify} {m : Modify} {now : Nat} (h : CarriersOk db)
    (hm : SomeStatement terminal o before m) (happly : m.apply now db = some db') :
    CarriersOk db' := by
  obtain ⟨context, -, hstatement⟩ := hm
  cases hstatement with
  | insertOorder d orderId c olCnt allLocal =>
    obtain ⟨rows, hrows, rfl⟩ := Option.map_eq_some_iff.1 happly
    obtain ⟨rfl, -⟩ := Table.insert_eq_some hrows
    intro r hr
    rcases List.mem_append.1 hr with hr | hr
    · exact h r hr
    · obtain rfl := List.mem_singleton.1 hr
      exact (Option.some_ne_none 0).symm
  | insertNewOrder =>
    obtain ⟨rows, -, rfl⟩ := Option.map_eq_some_iff.1 happly
    exact h
  | insertOrderLine =>
    obtain ⟨rows, -, rfl⟩ := Option.map_eq_some_iff.1 happly
    exact h
  | updateCustomer amount w d c cData =>
    cases cData with
    | none =>
      obtain rfl := Option.some.inj happly
      exact h
    | some data =>
      obtain rfl := Option.some.inj happly
      exact h
  | updateCarrier carrier d orderId =>
    obtain rfl := Option.some.inj happly
    have hcarrier : some carrier.val ≠ some 0 := by
      intro hzero
      have := carrier.property.1
      have := Option.some.inj hzero
      omega
    refine Table.forall_update (P := fun r : Oorder => r.oCarrierId ≠ some 0) fun r hr => ?_
    split
    · exact hcarrier
    · exact h r hr
  | _ =>
    obtain rfl := Option.some.inj happly
    exact h

theorem carriersOk_keeps : Keeps o (SomeStatement terminal o) CarriersOk :=
  Keeps.of_step (R := fun _ => CarriersOk)
    (fun _ _ _ _ _ _ h hm happly => carriersOk_apply h hm happly) (fun _ h => h) fun _ _ h => h

end Carriers

section CheckSync

variable {db : Database} {warehouseCount : Nat}

theorem consistencyChecks_of_sound (h : Sound db) (hcarriers : CarriersOk db) :
    failedCount (consistencyChecks db warehouseCount false) = 0 :=
  failedCount_cons (consistencyCheck3321_of_sound h) <|
    failedCount_cons (consistencyCheck3322_of_sound h) <|
    failedCount_cons (consistencyCheck3323_of_sound h) <|
    failedCount_cons (consistencyCheck3324_of_sound h) <|
    failedCount_cons (consistencyCheck3325_of_sound h hcarriers) <|
    failedCount_cons (consistencyCheck3326_of_sound h) <|
    failedCount_cons (consistencyCheck3327_of_sound h) <|
    failedCount_cons (consistencyCheck3328_of_sound h) <|
    failedCount_cons (consistencyCheck3329_of_sound h) <|
    failedCount_cons (consistencyCheck33210_of_sound h) <|
    failedCount_cons (consistencyCheck33212_of_sound h) failedCount_nil

/-- After an import and any run of concurrent transactions, `CheckSync` passes on the committed
tables, and on every committed state on the way. -/
theorem run_checkSync (int : Int → Int) (hint : IntArithmetic int) (draws : ImportDraws)
    (warehouseCount : Nat) (hsmall : warehouseCount ≤ 21474) (actions : List Action) :
    ((State.start (importTables draws warehouseCount)).run actions).committed ∈
      ((State.start (importTables draws warehouseCount)).run actions).snapshots ∧
    ∀ db ∈ ((State.start (importTables draws warehouseCount)).run actions).snapshots,
      checkSync int db warehouseCount false = .ok () := by
  have hinit := importTables_sound draws warehouseCount
  have hissued := run_issued (fun _ => True) actions hinit import_carriersOk carriersOk_keeps
    fun action _ => by cases action <;> trivial
  refine ⟨hissued.committed, fun db hdb => ?_⟩
  obtain ⟨hstatics, hcarriers⟩ := hissued.snapshots db hdb
  obtain ⟨hsound, -⟩ := ((Inv.start hinit).run actions).snapshots db hdb
  by_cases hzero : warehouseCount = 0
  · rw [checkSync, if_pos hzero]
  · rw [checkSync, if_neg hzero, baseChecks_congr hstatics,
      import_baseChecks_of_fits hint (Nat.pos_of_ne_zero hzero) hsmall,
      if_neg (Nat.lt_irrefl 0), consistencyChecks_of_sound hsound hcarriers]
    rfl

theorem run_checkSync_sample :
    checkSync wrapInt ((State.start (importTables sampleImport 1)).run
      [.start 0 sampleContext .payment (sampleDraws samplePercent), .request 0 0 1]).committed 1
        false = .ok () := by
  obtain ⟨hcommitted, hpass⟩ := run_checkSync wrapInt wrapInt_intArithmetic sampleImport 1
    (by decide) [.start 0 sampleContext .payment (sampleDraws samplePercent), .request 0 0 1]
  exact hpass _ hcommitted

end CheckSync

end Tpcc.Isolation
