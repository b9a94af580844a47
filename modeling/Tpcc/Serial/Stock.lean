import Tpcc.Import.Initial
import Tpcc.Isolation.Serial

/-! The stock over whole runs: it is what the order lines that were inserted since the import make of
the imported stock. -/

namespace Tpcc.Serial

open Lib Store Transaction Import Isolation

section Row

/-- One row of the stock after an order line. -/
def supplyRow (r : Stock) (l : OrderLine) : Stock :=
  if r.key = (l.olSupplyWId, l.olIId) then
    { r with
      sQuantity := nextQuantity r.sQuantity l.olQuantity
      sYtd := r.sYtd + l.olQuantity
      sOrderCnt := r.sOrderCnt + 1
      sRemoteCnt := r.sRemoteCnt + if l.olSupplyWId = l.olWId then 0 else 1 }
  else r

/-- The lines that a row of the stock supplies. -/
def linesFor (key : Nat × Int) (lines : List OrderLine) : List OrderLine :=
  lines.filter fun l => (l.olSupplyWId, l.olIId) = key

theorem foldl_supply (lines : List OrderLine) (stock : List Stock) :
    lines.foldl supply stock = stock.map fun r => lines.foldl supplyRow r := by
  induction lines generalizing stock with
  | nil => simp
  | cons l lines ih =>
    rw [List.foldl_cons, ih, supply, Table.update, List.map_map]
    rfl

theorem supplyRow_key (r : Stock) (l : OrderLine) : (supplyRow r l).key = r.key := by
  unfold supplyRow
  split <;> rfl

/-- What the lines make of a row. -/
theorem foldl_supplyRow (lines : List OrderLine) (r : Stock) :
    (lines.foldl supplyRow r).key = r.key ∧
    (lines.foldl supplyRow r).sQuantity =
      ((linesFor r.key lines).map OrderLine.olQuantity).foldl nextQuantity r.sQuantity ∧
    (lines.foldl supplyRow r).sYtd =
      r.sYtd + ((linesFor r.key lines).map OrderLine.olQuantity).sum ∧
    (lines.foldl supplyRow r).sOrderCnt = r.sOrderCnt + (linesFor r.key lines).length ∧
    (lines.foldl supplyRow r).sRemoteCnt =
      r.sRemoteCnt + (linesFor r.key lines).countP fun l => l.olWId ≠ r.sWId := by
  induction lines generalizing r with
  | nil => simp [linesFor]
  | cons l lines ih =>
    obtain ⟨hkey, hquantity, hytd, hcnt, hremote⟩ := ih (supplyRow r l)
    rw [supplyRow_key] at hkey hquantity hytd hcnt hremote
    rw [List.foldl_cons]
    by_cases hl : (l.olSupplyWId, l.olIId) = r.key
    · have hlines : linesFor r.key (l :: lines) = l :: linesFor r.key lines :=
        List.filter_cons_of_pos (by simpa using hl)
      have hw : l.olSupplyWId = r.sWId := congrArg Prod.fst hl
      have hrow : supplyRow r l = { r with
          sQuantity := nextQuantity r.sQuantity l.olQuantity
          sYtd := r.sYtd + l.olQuantity
          sOrderCnt := r.sOrderCnt + 1
          sRemoteCnt := r.sRemoteCnt + if l.olSupplyWId = l.olWId then 0 else 1 } :=
        if_pos hl.symm
      rw [hlines]
      refine ⟨hkey, ?_, ?_, ?_, ?_⟩
      · rw [hquantity, hrow]
        rfl
      · rw [hytd, hrow, List.map_cons, List.sum_cons]
        exact Int.add_assoc _ _ _
      · rw [hcnt, hrow, List.length_cons]
        dsimp only
        omega
      · rw [hremote, hrow, List.countP_cons, hw]
        dsimp only
        by_cases hlocal : r.sWId = l.olWId
        · simp [hlocal]
        · simp [hlocal, Ne.symm hlocal]
          omega
    · have hlines : linesFor r.key (l :: lines) = linesFor r.key lines :=
        List.filter_cons_of_neg (by simpa using hl)
      have hrow : supplyRow r l = r := if_neg (Ne.symm hl)
      rw [hlines]
      rw [hrow] at hkey hquantity hytd hcnt hremote ⊢
      exact ⟨hkey, hquantity, hytd, hcnt, hremote⟩

theorem nextQuantity_range {quantity qty : Int} (h : 10 ≤ quantity ∧ quantity ≤ 100)
    (hqty : 1 ≤ qty ∧ qty ≤ 10) :
    10 ≤ nextQuantity quantity qty ∧ nextQuantity quantity qty ≤ 100 := by
  unfold nextQuantity
  split <;> omega

theorem foldl_nextQuantity_range {quantities : List Int} {quantity : Int}
    (h : 10 ≤ quantity ∧ quantity ≤ 100) (hqty : ∀ q ∈ quantities, 1 ≤ q ∧ q ≤ 10) :
    10 ≤ quantities.foldl nextQuantity quantity ∧
      quantities.foldl nextQuantity quantity ≤ 100 := by
  induction quantities generalizing quantity with
  | nil => exact h
  | cons q quantities ih =>
    exact ih (nextQuantity_range h (hqty q List.mem_cons_self))
      fun q' hq' => hqty q' (List.mem_cons_of_mem q hq')

end Row

/-- The order lines that were inserted since the tables were `before`. -/
def insertedLines (before db : Database) : List OrderLine :=
  db.orderLine.drop before.orderLine.length

/-- The stock is what the lines that were inserted make of the stock before. -/
structure StockRun (before db : Database) : Prop where
  longer : before.orderLine.length ≤ db.orderLine.length
  stock : db.stock = (insertedLines before db).foldl supply before.stock
  quantity : ∀ l ∈ insertedLines before db, 1 ≤ l.olQuantity ∧ l.olQuantity ≤ 10

section Run

variable {before db : Database}

theorem StockRun.refl (db : Database) : StockRun db db := by
  have hnone : insertedLines db db = [] := List.drop_length
  exact ⟨Nat.le_refl _, by rw [hnone]; rfl, by rw [hnone]; nofun⟩

theorem foldl_supply_deliver (x : Delivered) (lines : List OrderLine) (stock : List Stock) :
    (Table.update OrderLine.order x.order (fun r => { r with olDeliveryD := some x.now })
      lines).foldl supply stock = lines.foldl supply stock := by
  induction lines generalizing stock with
  | nil => rfl
  | cons l lines ih =>
    have hhead : supply stock
        (if l.order = x.order then { l with olDeliveryD := some x.now } else l) =
        supply stock l := by
      split <;> rfl
    change List.foldl supply (supply stock _) _ = _
    rw [hhead]
    exact ih _

theorem StockRun.apply {op : Operation} (h : StockRun before db) (he : op.Enabled db) :
    StockRun before (op.apply db) := by
  cases op with
  | newOrder order lines =>
    have hlines : insertedLines before ((Operation.newOrder order lines).apply db) =
        insertedLines before db ++ lines := List.drop_append_of_le_length h.longer
    refine ⟨?_, ?_, ?_⟩
    · exact Nat.le_trans h.longer (by simp [Operation.apply])
    · rw [hlines, List.foldl_append, ← h.stock]
      rfl
    · rw [hlines]
      intro l hl
      rcases List.mem_append.1 hl with hl | hl
      · exact h.quantity l hl
      · exact he.quantity l hl
  | payment row cData => exact ⟨h.longer, h.stock, h.quantity⟩
  | deliver x =>
    have hlines : insertedLines before ((Operation.deliver x).apply db) =
        Table.update OrderLine.order x.order (fun r => { r with olDeliveryD := some x.now })
          (insertedLines before db) := List.map_drop.symm
    refine ⟨?_, ?_, ?_⟩
    · simpa [Operation.apply, Table.update] using h.longer
    · rw [hlines, foldl_supply_deliver]
      exact h.stock
    · rw [hlines]
      refine Table.forall_update fun l hl => ?_
      have hq := h.quantity l hl
      split
      · exact hq
      · exact hq

theorem StockRun.run (h : StockRun before db) (hsound : Sound db) (call : Call) :
    StockRun before (call.run db).durable := by
  obtain ⟨-, hsame⟩ | ⟨-, statements, ops, hcommits⟩ :=
    Call.run_ends call hsound (taskFunc_safe call.draws call.type hsound)
  · rw [hsame]
    exact h
  · rw [hcommits.result]
    have henabled := hcommits.enabled
    clear hcommits
    induction ops generalizing db with
    | nil => exact h
    | cons op ops ih => exact ih (h.apply henabled.1) (Sound.apply hsound henabled.1) henabled.2

theorem StockRun.runCalls (hsound : Sound db) (h : StockRun before db) (calls : List Call) :
    StockRun before (runCalls calls db) := by
  induction calls generalizing db with
  | nil => exact h
  | cons call calls ih => exact ih (Sound.run hsound call) (h.run hsound call)

end Run

theorem mem_stock_import {draws : ImportDraws} {warehouseCount : Nat} {r : Stock}
    (hr : r ∈ (importTables draws warehouseCount).stock) :
    (10 ≤ r.sQuantity ∧ r.sQuantity ≤ 100) ∧ r.sYtd = 0 ∧ r.sOrderCnt = 0 ∧ r.sRemoteCnt = 0 := by
  obtain ⟨w, -, hr⟩ := List.mem_flatMap.1 hr
  obtain ⟨i, -, rfl⟩ := List.mem_map.1 hr
  have := (draws.stockQuantity w i).property
  exact ⟨by dsimp only; omega, rfl, rfl, rfl⟩

/-- What the stock holds after any calls of the transactions, from the lines that the NewOrders
among them inserted. -/
theorem runCalls_stock (draws : ImportDraws) (warehouseCount : Nat) (calls : List Call) :
    let imported := importTables draws warehouseCount
    let db := runCalls calls imported
    db.stock.map Stock.key = imported.stock.map Stock.key ∧
    ∀ r ∈ db.stock,
      let lines := linesFor r.key (insertedLines imported db)
      (10 ≤ r.sQuantity ∧ r.sQuantity ≤ 100) ∧
      r.sYtd = (lines.map OrderLine.olQuantity).sum ∧
      r.sOrderCnt = lines.length ∧
      r.sRemoteCnt = lines.countP (fun l => l.olWId ≠ r.sWId) ∧
      ∃ r₀ ∈ imported.stock, r₀.key = r.key ∧
        r.sQuantity = (lines.map OrderLine.olQuantity).foldl nextQuantity r₀.sQuantity := by
  intro imported db
  have hrun : StockRun imported db :=
    StockRun.runCalls (importTables_sound draws warehouseCount) (.refl imported) calls
  have hstock : db.stock = _ := hrun.stock.trans (foldl_supply _ _)
  refine ⟨?_, fun r hr => ?_⟩
  · rw [hrun.stock, map_key_supply]
  · rw [hstock] at hr
    obtain ⟨r₀, hr₀, rfl⟩ := List.mem_map.1 hr
    obtain ⟨hkey, hquantity, hytd, hcnt, hremote⟩ :=
      foldl_supplyRow (insertedLines imported db) r₀
    obtain ⟨hrange, hytd₀, hcnt₀, hremote₀⟩ := mem_stock_import hr₀
    have hw : (List.foldl supplyRow r₀ (insertedLines imported db)).sWId = r₀.sWId :=
      congrArg Prod.fst hkey
    dsimp only
    rw [hkey, hytd, hcnt, hremote, hw, hytd₀, hcnt₀, hremote₀]
    refine ⟨?_, by simp, by simp, by simp, r₀, hr₀, rfl, hquantity⟩
    rw [hquantity]
    refine foldl_nextQuantity_range hrange fun q hq => ?_
    obtain ⟨l, hl, rfl⟩ := List.mem_map.1 hq
    exact hrun.quantity l (List.mem_of_mem_filter hl)

end Tpcc.Serial
