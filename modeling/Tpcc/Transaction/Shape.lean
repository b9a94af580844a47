import Tpcc.Transaction.Tasks

/-! How the transactions end: a commit comes after a statement and is followed by `true`, and nothing
else returns `true`. -/

namespace Tpcc.Transaction

open Lib Db Store

/-- On every path, where `opened` says whether a statement has been executed before. -/
def Closes : Bool → Task Bool → Prop
  | _, .pure value => value = false
  | _, .throw _ => True
  | _, .request (.query _) next => ∀ a, Closes true (next a)
  | _, .request (.modify _) next => Closes true (next ())
  | opened, .request .commit next => opened = true ∧ next () = .pure true
  | _, .request .rollback next => ∃ e, next () = .throw e
  | opened, .request .requestStopWithError next => Closes opened (next ())

/-- The program only executes statements and asks for the stop. -/
def Plain {α : Type} : Task α → Prop
  | .pure _ => True
  | .throw _ => False
  | .request (.query _) next => ∀ a, Plain (next a)
  | .request (.modify _) next => Plain (next ())
  | .request .commit _ => False
  | .request .rollback _ => False
  | .request .requestStopWithError next => Plain (next ())

theorem Plain.pure {α : Type} (a : α) : Plain (Pure.pure a : Task α) := trivial

theorem Plain.bind {α β : Type} {p : Task α} {f : α → Task β} (hp : Plain p)
    (hf : ∀ a, Plain (f a)) : Plain (p >>= f) := by
  induction p with
  | pure a => exact hf a
  | throw e => exact hp.elim
  | request r next ih =>
    cases r with
    | query q => exact fun a => ih a (hp a)
    | modify m => exact ih () hp
    | commit => exact hp.elim
    | rollback => exact hp.elim
    | requestStopWithError => exact ih () hp

theorem Plain.executeQuery_bind {α : Type} {q : Query} {f : q.Result → Task α}
    (hf : ∀ a, Plain (f a)) : Plain (executeQuery q >>= f) := hf

theorem Plain.executeModify_bind {α : Type} {m : Modify} {f : Unit → Task α}
    (hf : Plain (f ())) : Plain (executeModify m >>= f) := hf

theorem Plain.requestStopWithError_bind {α : Type} {f : Unit → Task α} (hf : Plain (f ())) :
    Plain (requestStopWithError >>= f) := hf

namespace Closes

theorem of_false (opened : Bool) : Closes opened (return false) := rfl

theorem executeQuery_bind {opened : Bool} {q : Query} {f : q.Result → Task Bool}
    (hf : ∀ a, Closes true (f a)) : Closes opened (executeQuery q >>= f) := hf

theorem executeModify_bind {opened : Bool} {m : Modify} {f : Unit → Task Bool}
    (hf : Closes true (f ())) : Closes opened (executeModify m >>= f) := hf

theorem commit_true : Closes true (do commit; return true) := ⟨rfl, rfl⟩

/-- The early `co_return false`. -/
theorem stop_false (opened : Bool) : Closes opened (do requestStopWithError; return false) := rfl

/-- A part that only executes statements, after the first one. -/
theorem plain_bind {α : Type} {p : Task α} {f : α → Task Bool} (hp : Plain p)
    (hf : ∀ a, Closes true (f a)) : Closes true (p >>= f) := by
  induction p with
  | pure a => exact hf a
  | throw e => exact hp.elim
  | request r next ih =>
    cases r with
    | query q => exact fun a => ih a (hp a)
    | modify m => exact ih () hp
    | commit => exact hp.elim
    | rollback => exact hp.elim
    | requestStopWithError => exact ih () hp

/-- A first part that begins with a `SELECT`. -/
theorem query_bind {α : Type} {opened : Bool} {q : Query} {next : q.Result → Task α}
    {f : α → Task Bool} (hp : ∀ a, Plain (next a)) (hf : ∀ a, Closes true (f a)) :
    Closes opened ((executeQuery q >>= next) >>= f) :=
  fun a => plain_bind (hp a) hf

end Closes

section Parts

theorem selectItems_plain (items : List OrderItem) (itemPrices : Int → Option Money) :
    Plain (selectItems items itemPrices) := by
  induction items generalizing itemPrices with
  | nil => exact .pure itemPrices
  | cons item rest ih =>
    unfold selectItems
    split
    · exact ih itemPrices
    · refine .executeQuery_bind fun itemResult => ?_
      cases itemResult with
      | none => exact ih _
      | some row => exact ih _

theorem selectStocks_plain (items : List OrderItem) (stocks : Nat × Int → Option Stock) :
    Plain (selectStocks items stocks) := by
  induction items generalizing stocks with
  | nil => exact .pure stocks
  | cons item rest ih =>
    unfold selectStocks
    dsimp only
    split
    · exact ih stocks
    · refine .executeQuery_bind fun stockResult => ?_
      cases stockResult with
      | none => exact ih _
      | some row => exact ih _

theorem insertOrderLines_plain (context : TTransactionContext) (d o : Nat)
    (itemPrices : Int → Option Money) (olNum : Nat) (items : List OrderItem)
    (stocks : Nat × Int → Option Stock) :
    Plain (insertOrderLines context d o itemPrices olNum items stocks) := by
  induction items generalizing olNum stocks with
  | nil => exact .pure true
  | cons item rest ih =>
    unfold insertOrderLines
    dsimp only
    split
    · exact .requestStopWithError_bind (.pure false)
    · split
      · exact .requestStopWithError_bind (.pure false)
      · exact .executeModify_bind (.executeModify_bind (ih _ _))

theorem updateCustomer_plain (context : TTransactionContext) (draws : PaymentDraws context)
    (customer : Customer) : Plain (updateCustomer context draws customer) := by
  unfold updateCustomer
  dsimp only
  split
  · exact .executeQuery_bind fun _ => trivial
  · trivial

theorem selectCustomer_closes {opened forUpdate : Bool} {w d : Nat} {draws : CustomerDraws}
    {f : Option Customer → Task Bool} (hf : ∀ a, Closes true (f a)) :
    Closes opened (selectCustomer forUpdate w d draws >>= f) := by
  unfold selectCustomer
  split
  · exact Closes.query_bind (fun _ => trivial) hf
  · exact Closes.query_bind (fun _ => trivial) hf

theorem selectOrder_plain (w d : Nat) : Plain (selectOrder w d) := by
  refine .executeQuery_bind fun noResult => ?_
  cases noResult with
  | none => trivial
  | some newOrder =>
    refine .executeQuery_bind fun cidResult => ?_
    cases cidResult with
    | none => trivial
    | some order =>
      refine .executeQuery_bind fun olResult => ?_
      split <;> trivial

theorem selectOrders_plain (w : Nat) (districts : List Nat) : Plain (selectOrders w districts) := by
  induction districts with
  | nil => exact .pure _
  | cons d rest ih =>
    refine (selectOrder_plain w d).bind fun order => ?_
    cases order with
    | none => trivial
    | some order => exact ih.bind fun _ => trivial

theorem deliverOrders_plain (w carrierID : Nat) (orders : List (Nat × Option TOrderData)) :
    Plain (deliverOrders w carrierID orders) := by
  induction orders with
  | nil => trivial
  | cons entry rest ih =>
    obtain ⟨d, order⟩ := entry
    cases order with
    | none => exact ih
    | some order => exact ih

end Parts

section Tasks

variable {context : TTransactionContext}

theorem getNewOrderTask_closes (draws : NewOrderDraws context) :
    Closes false (getNewOrderTask context draws) := by
  refine .executeQuery_bind fun _ => .executeQuery_bind fun _ => .executeQuery_bind fun result => ?_
  cases result with
  | none => exact .stop_false true
  | some district =>
    refine .executeModify_bind (.executeModify_bind (.executeModify_bind ?_))
    refine .plain_bind (selectItems_plain _ _) fun itemPrices => ?_
    split
    · exact ⟨_, rfl⟩
    · refine .plain_bind (selectStocks_plain _ _) fun stocks => ?_
      refine .plain_bind (insertOrderLines_plain _ _ _ _ _ _ _) fun done => ?_
      split
      · exact .commit_true
      · exact .of_false true

theorem getPaymentTask_closes (draws : PaymentDraws context) :
    Closes false (getPaymentTask context draws) := by
  refine .executeQuery_bind fun whResult => ?_
  cases whResult with
  | none => exact .stop_false true
  | some warehouse =>
    refine .executeModify_bind (.executeQuery_bind fun distResult => ?_)
    cases distResult with
    | none => exact .stop_false true
    | some district =>
      refine .executeModify_bind (selectCustomer_closes fun selected => ?_)
      cases selected with
      | none => exact .stop_false true
      | some customer =>
        exact .plain_bind (updateCustomer_plain _ _ _) fun _ => .executeModify_bind .commit_true

theorem getDeliveryTask_closes (draws : DeliveryDraws) :
    Closes false (getDeliveryTask context draws) := by
  have hplain := selectOrders_plain context.warehouseID districts
  refine fun noResult => .plain_bind (hplain noResult) fun orders => ?_
  cases orders with
  | none => exact .of_false true
  | some orders => exact .plain_bind (deliverOrders_plain _ _ _) fun _ => .commit_true

theorem getOrderStatusTask_closes (draws : OrderStatusDraws) :
    Closes false (getOrderStatusTask context draws) := by
  refine selectCustomer_closes fun selected => ?_
  cases selected with
  | none => exact .stop_false true
  | some customer =>
    refine .executeQuery_bind fun orderResult => ?_
    cases orderResult with
    | none => exact .commit_true
    | some order => exact .executeQuery_bind fun _ => .commit_true

theorem getStockLevelTask_closes (draws : StockLevelDraws) :
    Closes false (getStockLevelTask context draws) := by
  refine .executeQuery_bind fun distResult => ?_
  cases distResult with
  | none => exact .stop_false true
  | some district => exact .executeQuery_bind fun _ => .commit_true

theorem taskFunc_closes (draws : Draws context) (type : ETransactionType) :
    Closes false (type.taskFunc draws) := by
  cases type with
  | newOrder => exact getNewOrderTask_closes draws.newOrder
  | delivery => exact getDeliveryTask_closes draws.delivery
  | orderStatus => exact getOrderStatusTask_closes draws.orderStatus
  | payment => exact getPaymentTask_closes draws.payment
  | stockLevel => exact getStockLevelTask_closes draws.stockLevel

end Tasks

end Tpcc.Transaction
