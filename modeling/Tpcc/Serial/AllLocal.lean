import Tpcc.Serial.NoStop
import Tpcc.Serial.Stock

/-! `O_ALL_LOCAL` of an order against the suppliers of its lines and the remote counts of the stock.
They agree unless there is one warehouse only and a remote supplier is drawn. -/

namespace Tpcc.Serial

open Lib Store Transaction Import Isolation

/-- Every new order has `O_ALL_LOCAL = 1` if and only if all its lines come from its warehouse, and
`O_ALL_LOCAL = 0` if and only if some row of the stock counts one more remote order. -/
def FlagsLocal (before after : Database) : Prop :=
  ∀ o ∈ after.oorder, o ∉ before.oorder →
    (o.oAllLocal = 1 ↔ ∀ l ∈ linesOf after.orderLine o.key, l.olSupplyWId = o.oWId) ∧
    (o.oAllLocal = 0 ↔ ∃ r ∈ before.stock, ∃ r' ∈ after.stock,
      r'.key = r.key ∧ r.sRemoteCnt < r'.sRemoteCnt)

section Order

variable {context : TTransactionContext} {draws : NewOrderDraws context} {db : Database}
  {order : Oorder} {lines : List OrderLine}

/-- Some row counts more remote orders exactly when a line is remote. -/
theorem remote_iff (hsound : Sound db)
    (hstocked : ∀ l ∈ lines, (l.olSupplyWId, l.olIId) ∈ db.stock.map Stock.key) :
    (∃ r ∈ db.stock, ∃ r' ∈ lines.foldl supply db.stock,
      r'.key = r.key ∧ r.sRemoteCnt < r'.sRemoteCnt) ↔ ∃ l ∈ lines, l.olSupplyWId ≠ l.olWId := by
  rw [foldl_supply]
  constructor
  · rintro ⟨r, hr, r', hr', hkey, hlt⟩
    obtain ⟨r₀, hr₀, rfl⟩ := List.mem_map.1 hr'
    obtain ⟨hkey₀, -, -, -, hremote⟩ := foldl_supplyRow lines r₀
    have hsame : r₀ = r := Table.eq_of_key hsound.keyed.stock hr₀ hr (hkey₀.symm.trans hkey)
    subst hsame
    rw [hremote] at hlt
    have hpos : 0 < (linesFor r₀.key lines).countP fun l => l.olWId ≠ r₀.sWId := by omega
    obtain ⟨l, hl, hne⟩ := List.countP_pos_iff.1 hpos
    obtain ⟨hl, hlkey⟩ := List.mem_filter.1 hl
    refine ⟨l, hl, fun heq => ?_⟩
    have hw : l.olSupplyWId = r₀.sWId := congrArg Prod.fst (of_decide_eq_true hlkey)
    exact of_decide_eq_true hne (heq.symm.trans hw)
  · rintro ⟨l, hl, hne⟩
    obtain ⟨r, hr, hkey⟩ := List.mem_map.1 (hstocked l hl)
    obtain ⟨hkey', -, -, -, hremote⟩ := foldl_supplyRow lines r
    refine ⟨r, hr, _, List.mem_map_of_mem hr, hkey', ?_⟩
    have hpos : 0 < (linesFor r.key lines).countP fun l => l.olWId ≠ r.sWId := by
      refine List.countP_pos_iff.2 ⟨l, List.mem_filter.2 ⟨hl, by simpa using hkey.symm⟩, ?_⟩
      have hw : r.sWId = l.olSupplyWId := congrArg Prod.fst hkey
      simpa [hw] using Ne.symm hne
    rw [hremote]
    omega

theorem allLocal_cases (draws : NewOrderDraws context) :
    (draws.allLocal = 1 ∧ ∀ draw ∈ draws.items, 1 < draw.percent.val) ∨
      (draws.allLocal = 0 ∧ ∃ draw ∈ draws.items, ¬1 < draw.percent.val) := by
  unfold NewOrderDraws.allLocal
  split
  · next hall =>
    refine .inl ⟨rfl, fun draw hdraw => ?_⟩
    exact of_decide_eq_true (List.all_eq_true.1 hall draw hdraw)
  · next hall =>
    refine .inr ⟨rfl, ?_⟩
    by_contra hnone
    push Not at hnone
    exact hall (List.all_eq_true.2 fun draw hdraw => decide_eq_true (hnone draw hdraw))

/-- The lines are local when the suppliers that were drawn are. -/
theorem lines_local_iff (hordered : Ordered context draws db order lines) :
    (∀ l ∈ lines, l.olSupplyWId = order.oWId) ↔
      ∀ draw ∈ draws.items, draw.orderItem.supplierWarehouseID = context.warehouseID := by
  have hitems := hordered.items
  rw [orderItems_of_valid hordered.valid] at hitems
  have hsuppliers := congrArg (List.map OrderItem.supplierWarehouseID) hitems
  rw [List.map_map, List.map_map] at hsuppliers
  have hall : ∀ P : Nat → Prop, (∀ l ∈ lines, P l.olSupplyWId) ↔
      ∀ draw ∈ draws.items, P draw.orderItem.supplierWarehouseID := by
    intro P
    have hl : (∀ l ∈ lines, P l.olSupplyWId) ↔
        ∀ w ∈ lines.map (OrderItem.supplierWarehouseID ∘ orderItem), P w := List.forall_mem_map.symm
    rw [hl, hsuppliers, List.forall_mem_map]
    rfl
  rw [hordered.home]
  exact hall fun w => w = context.warehouseID

theorem supplier_eq_iff (draw : ItemDraw context)
    (hhome : 1 ≤ context.warehouseID ∧ context.warehouseID ≤ context.warehouseCount) :
    draw.orderItem.supplierWarehouseID = context.warehouseID ↔
      1 < draw.percent.val ∨ context.warehouseCount = 1 := by
  unfold ItemDraw.orderItem ItemDraw.isLocal
  dsimp only
  by_cases hlocal : 1 < draw.percent.val
  · simp [hlocal]
  · have hremote := draw.remote.warehouse.property
    have haccepted := draw.remote.accepted
    rw [if_neg (by simpa using hlocal)]
    constructor
    · intro heq
      right
      by_contra hcount
      exact haccepted ⟨heq, by omega⟩
    · rintro (h | h)
      · exact absurd h hlocal
      · omega

/-- The order that a NewOrder adds, and whether its flag is right. -/
theorem flagsLocal_iff (hsound : Sound db) (hordered : Ordered context draws db order lines)
    (hplace : Placeable db order lines)
    (hhome : 1 ≤ context.warehouseID ∧ context.warehouseID ≤ context.warehouseCount) :
    FlagsLocal db ((Operation.newOrder order lines).apply db) ↔
      1 < context.warehouseCount ∨ ∀ draw ∈ draws.items, 1 < draw.percent.val := by
  have hnew : order ∉ db.oorder := fun hmem => hplace.fresh hsound (List.mem_map_of_mem hmem)
  have hflag : FlagsLocal db ((Operation.newOrder order lines).apply db) ↔
      (order.oAllLocal = 1 ↔ ∀ l ∈ lines, l.olSupplyWId = order.oWId) ∧
      (order.oAllLocal = 0 ↔ ∃ l ∈ lines, l.olSupplyWId ≠ l.olWId) := by
    rw [← remote_iff hsound hordered.stocked]
    constructor
    · intro h
      have ho := h order (List.mem_append_right _ List.mem_cons_self) hnew
      change (_ ↔ ∀ l ∈ linesOf (db.orderLine ++ lines) order.key, _) ∧ _ at ho
      rw [hplace.linesOf_new hsound] at ho
      exact ho
    · intro h o ho hold
      rcases List.mem_append.1 ho with ho | ho
      · exact absurd ho hold
      · rw [List.mem_singleton.1 ho]
        change (_ ↔ ∀ l ∈ linesOf (db.orderLine ++ lines) order.key, _) ∧ _
        rw [hplace.linesOf_new hsound]
        exact h
  have hline : (∃ l ∈ lines, l.olSupplyWId ≠ l.olWId) ↔
      ¬∀ l ∈ lines, l.olSupplyWId = order.oWId := by
    push Not
    refine exists_congr fun l => and_congr_right fun hl => ?_
    have hw : l.olWId = order.oWId := congrArg Prod.fst (hplace.lineOrder l hl).1
    rw [hw]
  rw [hflag, hline, hordered.allLocal, lines_local_iff hordered]
  simp only [supplier_eq_iff _ hhome]
  rcases allLocal_cases draws with ⟨hone, hall⟩ | ⟨hzero, draw, hdraw, hnot⟩
  · rw [hone]
    have hsuppliers : ∀ draw ∈ draws.items,
        1 < draw.percent.val ∨ context.warehouseCount = 1 := fun draw hdraw => .inl (hall draw hdraw)
    exact ⟨fun _ => .inr hall, fun _ =>
      ⟨⟨fun _ => hsuppliers, fun _ => rfl⟩, nofun, fun h => absurd hsuppliers h⟩⟩
  · rw [hzero]
    have hcond : (1 < context.warehouseCount ∨ ∀ draw ∈ draws.items, 1 < draw.percent.val) ↔
        1 < context.warehouseCount :=
      or_iff_left fun hall => hnot (hall draw hdraw)
    have hsuppliers : (∀ draw ∈ draws.items,
        1 < draw.percent.val ∨ context.warehouseCount = 1) ↔ context.warehouseCount = 1 :=
      ⟨fun h => (h draw hdraw).resolve_left hnot, fun h _ _ => .inr h⟩
    rw [hcond, hsuppliers]
    constructor
    · rintro ⟨h, -⟩
      have hne : ¬context.warehouseCount = 1 := fun hcount => absurd (h.2 hcount) (by decide)
      omega
    · intro hlt
      have hne : ¬context.warehouseCount = 1 := by omega
      simp [hne]

end Order

section Run

variable {context : TTransactionContext}

/-- The tables after a NewOrder that commits. -/
theorem newOrder_committed {draws : NewOrderDraws context} {env : Env} {db : Database}
    (hsound : Sound db)
    (hcommitted : (exec env (getNewOrderTask context draws) (.start db)).committed = true) :
    ∃ order lines, Ordered context draws db order lines ∧ Placeable db order lines ∧
      (exec env (getNewOrderTask context draws) (.start db)).durable =
        (Operation.newOrder order lines).apply db := by
  have hends := exec_ends env (s := .start db) (getNewOrderTask_closes draws) hsound rfl rfl rfl
    (getNewOrderTask_safe draws db)
  rcases hends with ⟨hnot, -⟩ | ⟨-, statements, order, lines, hordered, hcommits⟩
  · rw [hcommitted] at hnot
    cases hnot
  · exact ⟨order, lines, hordered, hcommits.enabled.1, hcommits.result⟩

/-- In every state that a run from an import leads to, the order that a NewOrder commits has the
right flag exactly when there are several warehouses or no remote supplier was drawn. -/
theorem newOrder_flagsLocal_iff (importDraws : ImportDraws) (warehouseCount : Nat)
    (calls : List Call) (draws : NewOrderDraws context) (env : Env)
    (hhome : 1 ≤ context.warehouseID ∧ context.warehouseID ≤ context.warehouseCount)
    (hcommitted : (exec env (getNewOrderTask context draws)
      (.start (runCalls calls (importTables importDraws warehouseCount)))).committed = true) :
    FlagsLocal (runCalls calls (importTables importDraws warehouseCount))
      (exec env (getNewOrderTask context draws)
        (.start (runCalls calls (importTables importDraws warehouseCount)))).durable ↔
      1 < context.warehouseCount ∨ ∀ draw ∈ draws.items, 1 < draw.percent.val := by
  have hsound := Sound.runCalls (importTables_sound importDraws warehouseCount) calls
  obtain ⟨order, lines, hordered, hplace, hdurable⟩ := newOrder_committed hsound hcommitted
  rw [hdurable]
  exact flagsLocal_iff hsound hordered hplace hhome

/-- The sample NewOrder commits, whatever the percentage. -/
theorem sample_committed (percent : Draw 1 100) :
    (exec ⟨fun _ => false, false, fun _ => 0⟩
      (getNewOrderTask sampleContext (sampleDraws percent).newOrder)
      (.start (importTables sampleImport 1))).committed = true := by
  refine exec_commits (fun _ => rfl) (getNewOrderTask_closes _) ?_
  exact getNewOrderTask_good (importTables_sound sampleImport 1)
    (importTables_populated sampleImport 1) (Nat.le_refl 1) (by decide) nofun

theorem newOrder_flagsLocal_iff_local :
    FlagsLocal (importTables sampleImport 1)
      (exec ⟨fun _ => false, false, fun _ => 0⟩
        (getNewOrderTask sampleContext (sampleDraws ⟨2, by decide⟩).newOrder)
        (.start (importTables sampleImport 1))).durable := by
  have hiff := newOrder_flagsLocal_iff sampleImport 1 []
    (sampleDraws ⟨2, by decide⟩).newOrder ⟨fun _ => false, false, fun _ => 0⟩ (by decide)
    (sample_committed ⟨2, by decide⟩)
  refine hiff.2 (.inr fun draw hdraw => ?_)
  rw [List.eq_of_mem_replicate hdraw]
  decide

/-- With one warehouse and a remote supplier drawn, the order is flagged as remote although all its
lines come from its warehouse. -/
theorem newOrder_flags_local_order_remote :
    ¬∀ (importDraws : ImportDraws) (warehouseCount : Nat) (calls : List Call)
      (context : TTransactionContext) (draws : NewOrderDraws context) (env : Env),
      1 ≤ context.warehouseID ∧ context.warehouseID ≤ context.warehouseCount →
      (exec env (getNewOrderTask context draws)
        (.start (runCalls calls (importTables importDraws warehouseCount)))).committed = true →
      FlagsLocal (runCalls calls (importTables importDraws warehouseCount))
        (exec env (getNewOrderTask context draws)
          (.start (runCalls calls (importTables importDraws warehouseCount)))).durable := by
  intro h
  have hflags := h sampleImport 1 [] sampleContext (sampleDraws ⟨1, by decide⟩).newOrder
    ⟨fun _ => false, false, fun _ => 0⟩ (by decide) (sample_committed ⟨1, by decide⟩)
  obtain ⟨order, lines, hordered, hplace, hdurable⟩ :=
    newOrder_committed (importTables_sound sampleImport 1) (sample_committed ⟨1, by decide⟩)
  rw [show runCalls [] (importTables sampleImport 1) = importTables sampleImport 1 from rfl,
    hdurable] at hflags
  obtain hcount | hpercent := (flagsLocal_iff (importTables_sound sampleImport 1) hordered hplace
    (by decide)).1 hflags
  · exact absurd hcount (by decide)
  · have hone := hpercent _ (List.mem_replicate.2 ⟨by decide, rfl⟩)
    exact absurd hone (by decide)

end Run

end Tpcc.Serial
