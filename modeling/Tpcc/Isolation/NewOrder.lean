import Tpcc.Isolation.Spec

/-! A NewOrder that commits is one new order, whatever the others commit while it runs: the district
and the stock are locked when they are read. -/

namespace Tpcc.Isolation

open Lib Store Transaction

/-- What a line orders. -/
def orderItem (l : OrderLine) : OrderItem := ⟨l.olIId, l.olSupplyWId, l.olQuantity⟩

/-- The statements of `insertOrderLines` and the lines that they insert. -/
inductive LinesFrom (context : TTransactionContext) (d o : Nat) :
    Nat → List OrderItem → (Nat × Int → Option Stock) → List (Nat × Modify) → List OrderLine → Prop
  | nil {olNum : Nat} {stocks : Nat × Int → Option Stock} :
    LinesFrom context d o olNum [] stocks [] []
  | cons {olNum n₁ n₂ : Nat} {item : OrderItem} {rest : List OrderItem}
      {stocks : Nat × Int → Option Stock} {stock : Stock} {amount : Money} {distInfo : String}
      {statements : List (Nat × Modify)} {lines : List OrderLine} :
    stocks (item.supplierWarehouseID, item.itemID) = some stock →
    LinesFrom context d o (olNum + 1) rest
      (Function.update stocks (item.supplierWarehouseID, item.itemID)
        (some { stock with sQuantity := nextQuantity stock.sQuantity item.orderQuantity }))
      statements lines →
    LinesFrom context d o olNum (item :: rest) stocks
      ((n₁, .newOrderUpdateStock (nextQuantity stock.sQuantity item.orderQuantity)
          item.orderQuantity (if item.supplierWarehouseID = context.warehouseID then 0 else 1)
          item.supplierWarehouseID item.itemID) ::
        (n₂, .newOrderInsertOrderLine context.warehouseID d o olNum item.itemID amount
          item.supplierWarehouseID item.orderQuantity distInfo) :: statements)
      (⟨context.warehouseID, d, o, olNum, item.itemID, none, amount, item.supplierWarehouseID,
        item.orderQuantity, distInfo⟩ :: lines)

namespace LinesFrom

variable {context : TTransactionContext} {d o olNum : Nat} {items : List OrderItem}
  {stocks : Nat × Int → Option Stock} {statements : List (Nat × Modify)} {lines : List OrderLine}

theorem lineOrder (h : LinesFrom context d o olNum items stocks statements lines) :
    ∀ l ∈ lines, l.order = (context.warehouseID, d, o) ∧ l.olDeliveryD = none := by
  induction h with
  | nil => simp
  | cons _ _ ih => exact List.forall_mem_cons.2 ⟨⟨rfl, rfl⟩, ih⟩

theorem numbers (h : LinesFrom context d o olNum items stocks statements lines) :
    lines.map OrderLine.olNumber = List.range' olNum items.length := by
  induction h with
  | nil => rfl
  | cons _ _ ih => rw [List.map_cons, ih, List.length_cons, List.range'_succ]

theorem orderItems (h : LinesFrom context d o olNum items stocks statements lines) :
    lines.map orderItem = items := by
  induction h with
  | nil => rfl
  | cons _ _ ih => rw [List.map_cons, ih]; rfl

/-- The statements insert the lines and nothing else that counts. -/
theorem records (h : LinesFrom context d o olNum items stocks statements lines) :
    (statements.map Prod.snd).filterMap Modify.order? = [] ∧
    (statements.map Prod.snd).filterMap Modify.supplied? = lines.map OrderLine.demand ∧
    (statements.map Prod.snd).filterMap Modify.removed? = [] ∧
    (statements.map Prod.snd).filterMap Modify.credit? = [] := by
  induction h with
  | nil => exact ⟨rfl, rfl, rfl, rfl⟩
  | cons _ _ ih =>
    obtain ⟨horders, hsupplied, hremoved, hcredits⟩ := ih
    exact ⟨horders, congrArg (_ :: ·) hsupplied, hremoved, hcredits⟩

theorem stocked (h : LinesFrom context d o olNum items stocks statements lines) :
    ∀ l ∈ lines, (stocks (l.olSupplyWId, l.olIId)).isSome := by
  induction h with
  | nil => simp
  | @cons _ _ _ item _ _ _ _ _ _ _ hstock _ ih =>
    refine List.forall_mem_cons.2 ⟨by simp [hstock], fun l hl => ?_⟩
    have hsome := ih l hl
    by_cases hkey : (l.olSupplyWId, l.olIId) = (item.supplierWarehouseID, item.itemID)
    · rw [hkey, hstock]
      rfl
    · rwa [Function.update_of_ne hkey] at hsome

/-- The client's quantities are those of the stock, so that writing them back is what the order lines
do to the stock one after the other. -/
theorem applyStatements_eq (h : LinesFrom context d o olNum items stocks statements lines)
    {db view : Database} (hview : applyStatements statements db = some view)
    (hquantity : ∀ key stock, stocks key = some stock →
      ∀ r ∈ db.stock, r.key = key → r.sQuantity = stock.sQuantity) :
    view = { db with
      orderLine := db.orderLine ++ lines
      stock := lines.foldl supply db.stock } := by
  induction h generalizing db with
  | nil => simpa using hview.symm
  | @cons olNum n₁ n₂ item rest stocks stock amount distInfo statements lines hstock _ ih =>
    simp only [applyStatements_cons, Modify.apply, Option.bind_some] at hview
    obtain ⟨db', hinsert, hview⟩ := Option.bind_eq_some_iff.1 hview
    obtain ⟨rows, hrows, rfl⟩ := Option.map_eq_some_iff.1 hinsert
    obtain ⟨rfl, -⟩ := Table.insert_eq_some hrows
    have hsupply : Table.update Stock.key (item.supplierWarehouseID, item.itemID)
        (fun r => { r with
          sQuantity := nextQuantity stock.sQuantity item.orderQuantity
          sYtd := r.sYtd + item.orderQuantity
          sOrderCnt := r.sOrderCnt + 1
          sRemoteCnt := r.sRemoteCnt +
            if item.supplierWarehouseID = context.warehouseID then 0 else 1 }) db.stock =
        supply db.stock ⟨context.warehouseID, d, o, olNum, item.itemID, none, amount,
          item.supplierWarehouseID, item.orderQuantity, distInfo⟩ := by
      refine List.map_congr_left fun r hr => ?_
      by_cases hkey : r.key = (item.supplierWarehouseID, item.itemID)
      · rw [if_pos hkey, if_pos hkey]
        simp only [hquantity _ _ hstock r hr hkey]
      · rw [if_neg hkey, if_neg hkey]
    rw [hsupply] at hview
    rw [ih hview]
    · simp
    · intro key stock' hstock' r hr hkey
      obtain ⟨r', hr', rfl⟩ := Table.mem_update.1 hr
      by_cases hitem : key = (item.supplierWarehouseID, item.itemID)
      · subst hitem
        rw [Function.update_self, Option.some_inj] at hstock'
        by_cases hk : r'.key = (item.supplierWarehouseID, item.itemID)
        · rw [if_pos hk, ← hstock', ← hquantity _ _ hstock r' hr' hk]
        · rw [if_neg hk] at hkey
          exact absurd hkey hk
      · rw [Function.update_of_ne hitem] at hstock'
        by_cases hk : r'.key = (item.supplierWarehouseID, item.itemID)
        · rw [if_pos hk] at hkey
          exact absurd (hkey.symm.trans hk) hitem
        · rw [if_neg hk] at hkey ⊢
          exact hquantity _ _ hstock' r' hr' hkey

end LinesFrom

section Parts

variable {onCommit : List (Nat × Modify) → Database → Database → Prop}
  {post : Bool → Progress × Database → Prop} {t : Progress} {db : Database}

theorem Safe.selectItems {items : List OrderItem} {itemPrices : Int → Option Money}
    {f : (Int → Option Money) → Transaction.Task Bool} (hsound : Sound db)
    (h : ∀ itemPrices' db', Rely t.locks db db' → Safe onCommit post (f itemPrices') t db') :
    Safe onCommit post (selectItems items itemPrices >>= f) t db := by
  induction items generalizing itemPrices db with
  | nil => exact h _ db (.refl _ hsound)
  | cons item rest ih =>
    unfold Transaction.selectItems
    split
    · exact ih hsound h
    · rw [Program.bind_assoc]
      refine .select_plain rfl fun db' a hrely _ => ?_
      have hrest := fun itemPrices' db'' (hrely' : Rely t.locks db' db'') =>
        h itemPrices' db'' (hrely.trans hrely')
      cases a with
      | none => exact ih hrely.sound hrest
      | some row => exact ih hrely.sound hrest

/-- The stock that the client holds is locked, and is the stock of the tables. -/
def Held (t : Progress) (db : Database) (stocks : Nat × Int → Option Stock) : Prop :=
  ∀ key stock, stocks key = some stock →
    Row.stock key ∈ t.locks ∧ Table.lookup Stock.key key db.stock = some stock

theorem Held.stable {stocks : Nat × Int → Option Stock} {db' : Database} (h : Held t db stocks)
    (hrely : Rely t.locks db db') : Held t db' stocks := by
  intro key stock hstock
  obtain ⟨hlock, hlookup⟩ := h key stock hstock
  exact ⟨hlock, (hrely.agree.stock hlock).trans hlookup⟩

theorem Held.lock {stocks : Nat × Int → Option Stock} (h : Held t db stocks) (rows : List Row) :
    Held (t.lock rows) db stocks := fun key stock hstock =>
  ⟨List.mem_append_left _ (h key stock hstock).1, (h key stock hstock).2⟩

theorem Safe.selectStocks {items : List OrderItem} {stocks : Nat × Int → Option Stock}
    {f : (Nat × Int → Option Stock) → Transaction.Task Bool} (hsound : Sound db)
    (hheld : Held t db stocks)
    (hview : ∀ db' view, applyStatements t.statements db' = some view → view.stock = db'.stock)
    (h : ∀ stocks' t' db', t'.statements = t.statements → t.locks ⊆ t'.locks →
      Rely t.locks db db' → Held t' db' stocks' → Safe onCommit post (f stocks') t' db') :
    Safe onCommit post (selectStocks items stocks >>= f) t db := by
  induction items generalizing stocks t db with
  | nil => exact h _ t db rfl (List.Subset.refl _) (.refl _ hsound) hheld
  | cons item rest ih =>
    unfold Transaction.selectStocks
    dsimp only
    split
    · exact ih hsound hheld hview h
    · rw [Program.bind_assoc]
      refine .select_forUpdate rfl fun db' view hrely hview' => ?_
      have hstock := hview db' view hview'
      have hrest : ∀ rows stocks' t' db'', t'.statements = t.statements →
          (t.lock rows).locks ⊆ t'.locks → Rely (t.lock rows).locks db' db'' →
          Held t' db'' stocks' → Safe onCommit post (f stocks') t' db'' := by
        intro rows stocks' t' db'' ht hsub hrely' hheld'
        have hsub' := List.subset_append_left t.locks rows
        exact h stocks' t' db'' ht (List.Subset.trans hsub' hsub) (hrely.trans (hrely'.mono hsub')) hheld'
      generalize hresult : Query.eval view (.newOrderSelectStockForUpdate _ _) = stockResult
      cases stockResult with
      | none => exact ih hrely.sound ((hheld.stable hrely).lock _) hview (hrest _)
      | some row =>
        have hlookup : Table.lookup Stock.key (item.supplierWarehouseID, item.itemID) db'.stock =
            some row := by
          rw [← hstock]
          exact hresult
        refine ih hrely.sound ?_ hview (hrest _)
        intro key stock hsome
        by_cases hitem : key = (item.supplierWarehouseID, item.itemID)
        · subst hitem
          rw [Function.update_self, Option.some_inj] at hsome
          subst hsome
          refine ⟨List.mem_append_right _ ?_, hlookup⟩
          rw [← (Table.lookup_eq_some hlookup).2]
          exact List.mem_cons_self
        · rw [Function.update_of_ne hitem] at hsome
          exact (hheld.stable hrely).lock _ key stock hsome

theorem Safe.insertOrderLines {context : TTransactionContext} {d o olNum : Nat}
    {itemPrices : Int → Option Money} {items : List OrderItem}
    {stocks : Nat × Int → Option Stock} {f : Bool → Transaction.Task Bool} (hsound : Sound db)
    (h : ∀ done t' db', t'.locks = t.locks → Rely t.locks db db' →
      (done = true → ∃ statements lines, t'.statements = t.statements ++ statements ∧
        LinesFrom context d o olNum items stocks statements lines) →
      Safe onCommit post (f done) t' db') :
    Safe onCommit post
      (insertOrderLines context d o itemPrices olNum items stocks >>= f) t db := by
  induction items generalizing olNum stocks t db with
  | nil =>
    refine h true t db rfl (.refl _ hsound) fun _ => ⟨[], [], ?_, .nil⟩
    exact (List.append_nil _).symm
  | cons item rest ih =>
    unfold Transaction.insertOrderLines
    dsimp only
    split
    · exact .stop fun db' hrely => h false t db' rfl hrely nofun
    · next iPrice _ =>
      split
      · exact .stop fun db' hrely => h false t db' rfl hrely nofun
      · next stock hstock =>
        refine .modify fun db₁ _ _ n₁ hrely₁ _ _ => ⟨trivial, ?_⟩
        refine .modify fun db₂ _ _ n₂ hrely₂ _ _ => ⟨trivial, ?_⟩
        refine ih hrely₂.sound fun done t' db₃ ht hrely₃ hlines => ?_
        refine h done t' db₃ ht (hrely₁.trans (hrely₂.trans hrely₃)) fun hdone => ?_
        obtain ⟨statements, lines, hstatements, hfrom⟩ := hlines hdone
        refine ⟨_, _, ?_, @LinesFrom.cons context d o olNum n₁ n₂ item rest stocks stock
          (item.orderQuantity * iPrice) (getDistInfo d { stock with
            sQuantity := nextQuantity stock.sQuantity item.orderQuantity })
          statements lines hstock hfrom⟩
        rw [hstatements]
        simp [Progress.execute]

end Parts

/-- The order that a NewOrder commits. -/
structure Ordered (context : TTransactionContext) (draws : NewOrderDraws context) (db : Database)
    (order : Oorder) (lines : List OrderLine) : Prop where
  valid : draws.hasInvalidItem = false
  home : order.oWId = context.warehouseID
  allLocal : order.oAllLocal = draws.allLocal
  items : lines.map orderItem = draws.orderItems
  stocked : ∀ l ∈ lines, (l.olSupplyWId, l.olIId) ∈ db.stock.map Stock.key

variable {context : TTransactionContext} {draws : NewOrderDraws context} {db view : Database}

theorem orderItems_of_valid (hvalid : draws.hasInvalidItem = false) :
    draws.orderItems = draws.items.map ItemDraw.orderItem := by
  simp [NewOrderDraws.orderItems, hvalid]

/-- The statements of a NewOrder that commits are those of one new order. -/
theorem newOrder_commits {district : District} {stocks : Nat × Int → Option Stock}
    {n₁ n₂ n₃ : Nat} {statements : List (Nat × Modify)} {lines : List OrderLine}
    (hvalid : draws.hasInvalidItem = false) (hsound : Sound db)
    (hdistrict : Table.lookup District.key (context.warehouseID, draws.districtID.val) db.district =
      some district)
    (hstocks : ∀ key stock, stocks key = some stock →
      Table.lookup Stock.key key db.stock = some stock)
    (hlines : LinesFrom context draws.districtID.val district.dNextOId 1 draws.orderItems stocks
      statements lines)
    (hview : applyStatements
      ((n₁, .newOrderUpdateDistrict context.warehouseID draws.districtID.val) ::
        (n₂, .newOrderInsertOorder context.warehouseID draws.districtID.val district.dNextOId
          draws.customerID.val draws.orderItems.length draws.allLocal) ::
        (n₃, .newOrderInsertNewOrder context.warehouseID draws.districtID.val district.dNextOId) ::
        statements) db = some view) :
    ∃ order, Ordered context draws db order lines ∧
      Commits
        ((n₁, .newOrderUpdateDistrict context.warehouseID draws.districtID.val) ::
          (n₂, .newOrderInsertOorder context.warehouseID draws.districtID.val district.dNextOId
            draws.customerID.val draws.orderItems.length draws.allLocal) ::
          (n₃, .newOrderInsertNewOrder context.warehouseID draws.districtID.val
            district.dNextOId) :: statements) db view [.newOrder order lines] := by
  obtain ⟨hmem, hkey⟩ := Table.lookup_eq_some hdistrict
  have hlength := congrArg List.length hlines.orderItems
  rw [List.length_map] at hlength
  refine ⟨⟨context.warehouseID, draws.districtID.val, district.dNextOId, draws.customerID.val, none,
    draws.orderItems.length, draws.allLocal⟩, ?_, ?_⟩
  · refine ⟨hvalid, rfl, rfl, hlines.orderItems, fun l hl => ?_⟩
    obtain ⟨stock, hstock⟩ := Option.isSome_iff_exists.1 (hlines.stocked l hl)
    exact Table.lookup_isSome.1 (Option.isSome_iff_exists.2 ⟨stock, hstocks _ _ hstock⟩)
  · refine ⟨⟨⟨?_, rfl, hlength.symm, ?_, hlines.lineOrder, ?_, ?_⟩, trivial⟩, ?_, ?_⟩
    · exact List.mem_map.2 ⟨district, hmem, Prod.ext hkey rfl⟩
    · intro hnil
      rw [hnil, orderItems_of_valid hvalid, List.length_map] at hlength
      have := draws.numItems.1
      simp only [minItems, List.length_nil] at this hlength
      omega
    · rw [hlines.numbers]
      exact List.nodup_range'
    · intro l hl
      have hitem : orderItem l ∈ draws.orderItems := by
        rw [← hlines.orderItems]
        exact List.mem_map_of_mem hl
      rw [orderItems_of_valid hvalid] at hitem
      obtain ⟨draw, -, heq⟩ := List.mem_map.1 hitem
      have hquantity : l.olQuantity = draw.quantity.val :=
        (congrArg OrderItem.orderQuantity heq).symm
      have := draw.quantity.property
      omega
    · simp only [applyStatements_cons, Modify.apply, Option.bind_some] at hview
      obtain ⟨db₂, hinsert₂, hview⟩ := Option.bind_eq_some_iff.1 hview
      obtain ⟨rows₂, hrows₂, rfl⟩ := Option.map_eq_some_iff.1 hinsert₂
      obtain ⟨rfl, -⟩ := Table.insert_eq_some hrows₂
      obtain ⟨db₃, hinsert₃, hview⟩ := Option.bind_eq_some_iff.1 hview
      obtain ⟨rows₃, hrows₃, rfl⟩ := Option.map_eq_some_iff.1 hinsert₃
      obtain ⟨rfl, -⟩ := Table.insert_eq_some hrows₃
      refine hlines.applyStatements_eq hview fun key stock hstock r hr hrkey => ?_
      obtain ⟨hstockmem, hstockkey⟩ := Table.lookup_eq_some (hstocks key stock hstock)
      rw [Table.eq_of_key hsound.keyed.stock hr hstockmem (hrkey.trans hstockkey.symm)]
    · obtain ⟨horders, hsupplied, hremoved, hcredits⟩ := hlines.records
      refine ⟨congrArg (_ :: ·) horders, ?_, hremoved, hcredits⟩
      exact hsupplied.trans (List.append_nil _).symm

theorem getNewOrderTask_safe (draws : NewOrderDraws context) (db : Database) :
    Safe (fun statements db view => ∃ order lines, Ordered context draws db order lines ∧
        Commits statements db view [.newOrder order lines])
      (fun _ _ => True) (getNewOrderTask context draws) .start db := by
  refine .select_plain rfl fun _ _ _ _ => .select_plain rfl fun _ _ _ _ => ?_
  refine .select_forUpdate rfl fun db₁ view₁ hrely₁ hview₁ => ?_
  obtain rfl := Option.some.inj hview₁
  generalize hresult : Query.eval db₁ (.newOrderSelectDistrictForUpdate _ _) = distResult
  cases distResult with
  | none => exact .stop fun _ _ => trivial
  | some district =>
    have hkey := (Table.lookup_eq_some hresult).2
    have hdistrict : ∀ db', Rely [Row.district (context.warehouseID, draws.districtID.val)] db₁ db' →
        Table.lookup District.key (context.warehouseID, draws.districtID.val) db'.district =
          some district := fun db' hrely =>
      (hrely.agree.district List.mem_cons_self).trans hresult
    have hlocks : (Progress.start.lock
        (Query.rows (.newOrderSelectDistrictForUpdate context.warehouseID draws.districtID.val)
          (some district))).locks =
        [Row.district (context.warehouseID, draws.districtID.val)] :=
      congrArg (fun k => [Row.district k]) hkey
    generalize ht : Progress.start.lock _ = t at hlocks ⊢
    have hstart : t.statements = [] := by rw [← ht]; rfl
    refine .modify fun db₂ _ _ n₁ hrely₂ _ _ => ⟨trivial, ?_⟩
    refine .modify fun db₃ _ _ n₂ hrely₃ _ _ => ⟨trivial, ?_⟩
    refine .modify fun db₄ _ _ n₃ hrely₄ _ _ => ⟨trivial, ?_⟩
    refine .selectItems hrely₄.sound fun itemPrices db₅ hrely₅ => ?_
    split
    · trivial
    · next hvalid =>
      refine .selectStocks hrely₅.sound nofun ?_ fun stocks t₆ db₆ ht₆ hsub hrely₆ hheld => ?_
      · intro db' view hview
        simp only [Progress.execute, hstart, List.nil_append, List.cons_append,
          applyStatements_cons, Modify.apply, Option.bind_some] at hview
        obtain ⟨_, hinsert, hview⟩ := Option.bind_eq_some_iff.1 hview
        obtain ⟨_, -, rfl⟩ := Option.map_eq_some_iff.1 hinsert
        obtain ⟨_, hinsert, hview⟩ := Option.bind_eq_some_iff.1 hview
        obtain ⟨_, -, rfl⟩ := Option.map_eq_some_iff.1 hinsert
        rw [← Option.some.inj hview]
      · refine .insertOrderLines hrely₆.sound fun done t₇ db₇ ht₇ hrely₇ hlines => ?_
        split
        · next hdone =>
          refine .commit fun db₈ view hrely₈ hview => ?_
          obtain ⟨statements, lines, hstatements, hfrom⟩ := hlines hdone
          have hrely : Rely t₆.locks db₆ db₈ := hrely₇.trans (ht₇ ▸ hrely₈)
          have hrely₁₈ : Rely t.locks db₁ db₈ := hrely₂.trans (hrely₃.trans (hrely₄.trans
            (hrely₅.trans (hrely₆.trans (hrely.mono hsub)))))
          rw [hlocks] at hrely₁₈
          simp only [hstatements, ht₆, Progress.execute, hstart, List.nil_append,
            List.cons_append] at hview ⊢
          obtain ⟨order, hordered, hcommits⟩ := newOrder_commits (by simpa using hvalid)
            hrely₈.sound (hdistrict db₈ hrely₁₈)
            (fun key stock hstock => ((hheld.stable hrely) key stock hstock).2) hfrom hview
          exact ⟨order, lines, hordered, hcommits⟩
        · trivial

end Tpcc.Isolation
