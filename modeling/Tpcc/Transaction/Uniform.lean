import Tpcc.Transaction.Exec

/-! What the transactions do with the results of their reads: they use some of the columns, and two of
them change nothing. -/

namespace Tpcc.Transaction

open Store

/-- Two results agree in the columns that the transactions use. -/
def Query.Same : (q : Query) → q.Result → q.Result → Prop
  | .newOrderSelectCustomer _ _ _, _, _ => True
  | .newOrderSelectWarehouseTax _, _, _ => True
  | .deliverySelectOrderCustomer _ _ _, a, b => Option.map Oorder.oCId a = Option.map Oorder.oCId b
  | .deliverySelectOrderLines _ _ _, a, b =>
    List.map OrderLine.olAmount a = List.map OrderLine.olAmount b
  | _, a, b => a = b

/-- The program does the same after results that agree. -/
def Uniform {α : Type} : Task α → Prop
  | .pure _ => True
  | .throw _ => True
  | .request (.query q) next => (∀ a b, q.Same a b → next a = next b) ∧ ∀ a, Uniform (next a)
  | .request (.modify _) next => Uniform (next ())
  | .request .commit _ => True
  | .request .rollback _ => True
  | .request .requestStopWithError next => Uniform (next ())

/-- The program changes nothing. -/
def ReadOnly {α : Type} : Task α → Prop
  | .pure _ => True
  | .throw _ => True
  | .request (.query _) next => ∀ a, ReadOnly (next a)
  | .request (.modify _) _ => False
  | .request .commit next => ReadOnly (next ())
  | .request .rollback next => ReadOnly (next ())
  | .request .requestStopWithError next => ReadOnly (next ())

section Uniform

variable {α β : Type} {context : TTransactionContext}

theorem Uniform.bind {p : Task α} {f : α → Task β} (hp : Uniform p) (hf : ∀ a, Uniform (f a)) :
    Uniform (p >>= f) := by
  induction p with
  | pure a => exact hf a
  | throw e => trivial
  | request r next ih =>
    cases r with
    | query q =>
      exact ⟨fun a b hsame => congrArg (· >>= f) (hp.1 a b hsame), fun a => ih a (hp.2 a)⟩
    | modify m => exact ih () hp
    | commit => trivial
    | rollback => trivial
    | requestStopWithError => exact ih () hp

theorem Uniform.executeQuery_bind {q : Query} {f : q.Result → Task β}
    (hsame : ∀ a b, q.Same a b → f a = f b) (hf : ∀ a, Uniform (f a)) :
    Uniform (executeQuery q >>= f) := ⟨hsame, hf⟩

theorem Uniform.executeQuery_eq {q : Query} {f : q.Result → Task β}
    (hsame : ∀ a b, q.Same a b → a = b) (hf : ∀ a, Uniform (f a)) :
    Uniform (executeQuery q >>= f) :=
  ⟨fun a b h => congrArg f (hsame a b h), hf⟩

theorem Uniform.executeModify_bind {m : Modify} {f : Unit → Task β} (hf : Uniform (f ())) :
    Uniform (executeModify m >>= f) := hf

theorem selectItems_uniform (items : List OrderItem) (itemPrices : Int → Option Money) :
    Uniform (selectItems items itemPrices) := by
  induction items generalizing itemPrices with
  | nil => trivial
  | cons item rest ih =>
    unfold selectItems
    split
    · exact ih itemPrices
    · refine .executeQuery_eq (fun _ _ hsame => hsame) fun itemResult => ?_
      cases itemResult with
      | none => exact ih _
      | some row => exact ih _

theorem selectStocks_uniform (items : List OrderItem) (stocks : Nat × Int → Option Stock) :
    Uniform (selectStocks items stocks) := by
  induction items generalizing stocks with
  | nil => trivial
  | cons item rest ih =>
    unfold selectStocks
    dsimp only
    split
    · exact ih stocks
    · refine .executeQuery_eq (fun _ _ hsame => hsame) fun stockResult => ?_
      cases stockResult with
      | none => exact ih _
      | some row => exact ih _

theorem insertOrderLines_uniform (d o : Nat) (itemPrices : Int → Option Money) (olNum : Nat)
    (items : List OrderItem) (stocks : Nat × Int → Option Stock) :
    Uniform (insertOrderLines context d o itemPrices olNum items stocks) := by
  induction items generalizing olNum stocks with
  | nil => trivial
  | cons item rest ih =>
    unfold insertOrderLines
    dsimp only
    split
    · trivial
    · split
      · trivial
      · exact ih _ _

theorem getNewOrderTask_uniform (draws : NewOrderDraws context) :
    Uniform (getNewOrderTask context draws) := by
  unfold getNewOrderTask
  refine .executeQuery_bind (fun _ _ _ => rfl) fun _ => ?_
  refine .executeQuery_bind (fun _ _ _ => rfl) fun _ => ?_
  refine .executeQuery_eq (fun _ _ hsame => hsame) fun distResult => ?_
  cases distResult with
  | none => trivial
  | some district =>
    refine .executeModify_bind (.executeModify_bind (.executeModify_bind ?_))
    refine .bind (selectItems_uniform _ _) fun itemPrices => ?_
    split
    · trivial
    · refine .bind (selectStocks_uniform _ _) fun stocks => ?_
      refine .bind (insertOrderLines_uniform _ _ _ _ _ _) fun done => ?_
      split
      · trivial
      · trivial

theorem selectCustomer_uniform (forUpdate : Bool) (w d : Nat) (draws : CustomerDraws) :
    Uniform (selectCustomer forUpdate w d draws) := by
  unfold selectCustomer
  split
  · exact .executeQuery_eq (fun _ _ hsame => hsame) fun _ => trivial
  · exact .executeQuery_eq (fun _ _ hsame => hsame) fun _ => trivial

theorem getPaymentTask_uniform (draws : PaymentDraws context) :
    Uniform (getPaymentTask context draws) := by
  unfold getPaymentTask
  refine .executeQuery_eq (fun _ _ hsame => hsame) fun whResult => ?_
  cases whResult with
  | none => trivial
  | some warehouse =>
    refine .executeModify_bind (.executeQuery_eq (fun _ _ hsame => hsame) fun distResult => ?_)
    cases distResult with
    | none => trivial
    | some district =>
      refine .executeModify_bind (.bind (selectCustomer_uniform _ _ _ _) fun selected => ?_)
      cases selected with
      | none => trivial
      | some customer =>
        refine .bind ?_ fun _ => trivial
        unfold updateCustomer
        dsimp only
        split
        · exact .executeQuery_eq (fun _ _ hsame => hsame) fun _ => trivial
        · trivial

theorem selectOrder_uniform (w d : Nat) : Uniform (selectOrder w d) := by
  unfold selectOrder
  refine .executeQuery_eq (fun _ _ hsame => hsame) fun noResult => ?_
  cases noResult with
  | none => trivial
  | some n =>
    refine .executeQuery_bind (fun a b hsame => ?_) fun cidResult => ?_
    · cases a <;> cases b <;> simp only [Query.Same, Option.map_some, Option.map_none, reduceCtorEq,
        Option.some_inj] at hsame
      · rfl
      · simp only [hsame]
    · cases cidResult with
      | none => trivial
      | some order =>
        refine .executeQuery_bind (fun a b hsame => ?_) fun olResult => ?_
        · have hamounts : List.map OrderLine.olAmount a = List.map OrderLine.olAmount b := hsame
          have hempty : List.isEmpty a = List.isEmpty b :=
            List.isEmpty_map.symm.trans ((congrArg List.isEmpty hamounts).trans List.isEmpty_map)
          simp only [hempty, hamounts]
        · split
          · trivial
          · trivial

theorem selectOrders_uniform (w : Nat) (ds : List Nat) : Uniform (selectOrders w ds) := by
  induction ds with
  | nil => trivial
  | cons d rest ih =>
    refine .bind (selectOrder_uniform w d) fun order => ?_
    cases order with
    | none => trivial
    | some order => exact .bind ih fun _ => trivial

theorem deliverOrders_uniform (w carrierID : Nat) (orders : List (Nat × Option TOrderData)) :
    Uniform (deliverOrders w carrierID orders) := by
  induction orders with
  | nil => trivial
  | cons entry rest ih =>
    obtain ⟨d, order⟩ := entry
    cases order with
    | none => exact ih
    | some order => exact ih

theorem getDeliveryTask_uniform (draws : DeliveryDraws) :
    Uniform (getDeliveryTask context draws) := by
  refine .bind (selectOrders_uniform _ _) fun orders => ?_
  cases orders with
  | none => trivial
  | some orders => exact .bind (deliverOrders_uniform _ _ _) fun _ => trivial

end Uniform

section ReadOnly

variable {α β : Type} {context : TTransactionContext}

theorem ReadOnly.bind {p : Task α} {f : α → Task β} (hp : ReadOnly p) (hf : ∀ a, ReadOnly (f a)) :
    ReadOnly (p >>= f) := by
  induction p with
  | pure a => exact hf a
  | throw e => trivial
  | request r next ih =>
    cases r with
    | query q => exact fun a => ih a (hp a)
    | modify m => exact hp
    | commit => exact ih () hp
    | rollback => exact ih () hp
    | requestStopWithError => exact ih () hp

theorem ReadOnly.executeQuery_bind {q : Query} {f : q.Result → Task β}
    (hf : ∀ a, ReadOnly (f a)) : ReadOnly (executeQuery q >>= f) := hf

theorem getOrderStatusTask_readOnly (draws : OrderStatusDraws) :
    ReadOnly (getOrderStatusTask context draws) := by
  unfold getOrderStatusTask
  refine .bind ?_ fun selected => ?_
  · unfold selectCustomer
    split
    · exact .executeQuery_bind fun _ => trivial
    · exact .executeQuery_bind fun _ => trivial
  · cases selected with
    | none => trivial
    | some customer =>
      refine .executeQuery_bind fun orderResult => ?_
      cases orderResult with
      | none => trivial
      | some order => exact .executeQuery_bind fun _ => trivial

theorem getStockLevelTask_readOnly (draws : StockLevelDraws) :
    ReadOnly (getStockLevelTask context draws) := by
  unfold getStockLevelTask
  refine .executeQuery_bind fun distResult => ?_
  cases distResult with
  | none => trivial
  | some district => exact .executeQuery_bind fun _ => trivial

/-- Alone, a program that changes nothing leaves the tables as they are. -/
theorem ReadOnly.exec {env : Env} {p : Task Bool} {s : Run} (h : ReadOnly p)
    (hworking : s.working = s.durable) : (exec env p s).durable = s.durable := by
  induction p generalizing s with
  | pure a => rfl
  | throw e => rfl
  | request r next ih =>
    cases r with
    | query q =>
      unfold Transaction.exec
      split
      · rfl
      · exact ih _ (h _) hworking
    | modify m => exact h.elim
    | commit =>
      have hcommit : s.commit.durable = s.durable := hworking
      unfold Transaction.exec
      split
      · split
        · exact hcommit
        · rfl
      · exact (ih () h rfl).trans hcommit
    | rollback =>
      unfold Transaction.exec
      split
      · rfl
      · exact ih () h rfl
    | requestStopWithError => exact ih () h hworking

end ReadOnly

end Tpcc.Transaction
