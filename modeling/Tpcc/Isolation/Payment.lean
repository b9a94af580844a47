import Tpcc.Isolation.Spec

/-! A Payment that commits is one payment, whatever the others commit while it runs. -/

namespace Tpcc.Isolation

open Lib Store Transaction

variable {onCommit : List (Nat × Modify) → Database → Database → Prop}
  {post : Bool → Progress × Database → Prop} {t : Progress} {db : Database}

theorem Safe.selectCustomer {forUpdate : Bool} {w d : Nat} {draws : CustomerDraws}
    {f : Option Customer → Transaction.Task Bool}
    (h : ∀ selected t' db', t'.statements = t.statements → Rely t.locks db db' →
      Safe onCommit post (f selected) t' db') :
    Safe onCommit post (selectCustomer forUpdate w d draws >>= f) t db := by
  refine .bind ?_
  unfold Transaction.selectCustomer
  split
  · cases forUpdate with
    | true => exact .select_forUpdate rfl fun db' view hrely _ => h _ _ db' rfl hrely
    | false => exact .select_plain rfl fun db' a hrely _ => h _ _ db' rfl hrely
  · cases forUpdate with
    | true => exact .select_forUpdate rfl fun db' view hrely _ => h _ _ db' rfl hrely
    | false => exact .select_plain rfl fun db' a hrely _ => h _ _ db' rfl hrely

/-- The statement that updates the customer; `cData` is the new `C_DATA` of a customer with bad
credit. -/
def updateStatement (amount : Money) (cw cd c : Nat) : Option String → Modify
  | some cData => .paymentUpdateCustomerBc amount amount cData cw cd c
  | none => .paymentUpdateCustomer amount amount cw cd c

theorem Safe.updateCustomer {context : TTransactionContext} {draws : PaymentDraws context}
    {customer : Customer} {f : Unit → Transaction.Task Bool}
    (h : ∀ cData now db', Rely t.locks db db' →
      Safe onCommit post (f ()) (t.execute now (updateStatement draws.paymentAmount.val
        draws.customerHome.1 draws.customerHome.2 customer.cId cData)) db') :
    Safe onCommit post (updateCustomer context draws customer >>= f) t db := by
  refine .bind ?_
  unfold Transaction.updateCustomer
  dsimp only
  split
  · refine .select_plain rfl fun db' a hrely _ => ?_
    exact fun db'' view view' now hrely' hview happly =>
      ⟨trivial, h (some _) now db'' (hrely.trans hrely')⟩
  · exact fun db'' view view' now hrely' hview happly => ⟨trivial, h none now db'' hrely'⟩

/-- The statements of a Payment that commits are those of one payment. -/
theorem payment_commits {w d c cd cw : Nat} {amount : Money} {hData : String}
    {cData : Option String} {n₁ n₂ n₃ n₄ : Nat} {view : Database}
    (hdistrict : (w, d) ∈ db.district.map District.key)
    (hview : applyStatements
      [(n₁, .paymentUpdateWarehouseYtd amount w), (n₂, .paymentUpdateDistrictYtd amount w d),
        (n₃, updateStatement amount cw cd c cData),
        (n₄, .paymentInsertHistory c cd cw d w amount hData)] db = some view) :
    Commits
      [(n₁, .paymentUpdateWarehouseYtd amount w), (n₂, .paymentUpdateDistrictYtd amount w d),
        (n₃, updateStatement amount cw cd c cData),
        (n₄, .paymentInsertHistory c cd cw d w amount hData)] db view
      [.payment ⟨c, cd, cw, d, w, amount, hData⟩ cData] := by
  cases cData with
  | none =>
    exact ⟨⟨hdistrict, trivial⟩, (Option.some.inj hview).symm, rfl, rfl, rfl, rfl⟩
  | some data =>
    exact ⟨⟨hdistrict, trivial⟩, (Option.some.inj hview).symm, rfl, rfl, rfl, rfl⟩

theorem getPaymentTask_safe {context : TTransactionContext} (draws : PaymentDraws context)
    (db : Database) :
    Safe (fun statements db view => ∃ ops, Commits statements db view ops) (fun _ _ => True)
      (getPaymentTask context draws) .start db := by
  refine .select_forUpdate rfl fun db₁ view₁ _ _ => ?_
  generalize hwarehouse : Query.eval view₁ (.paymentSelectWarehouseForUpdate _) = whResult
  cases whResult with
  | none => exact .stop fun _ _ => trivial
  | some warehouse =>
    refine .modify fun db₂ _ _ n₁ _ _ _ => ⟨trivial, ?_⟩
    refine .select_forUpdate rfl fun db₃ view₃ _ hview₃ => ?_
    generalize hresult : Query.eval view₃ (.paymentSelectDistrictForUpdate _ _) = distResult
    cases distResult with
    | none => exact .stop fun _ _ => trivial
    | some district =>
      have hdistrict : (context.warehouseID, draws.districtID.val) ∈
          db₃.district.map District.key := by
        obtain ⟨hmem, hkey⟩ := Table.lookup_eq_some hresult
        obtain rfl := Option.some.inj hview₃
        exact List.mem_map.2 ⟨district, hmem, hkey⟩
      refine .modify fun db₄ _ _ n₂ hrely₄ _ _ => ⟨trivial, ?_⟩
      refine .selectCustomer fun selected t₅ db₅ ht₅ hrely₅ => ?_
      cases selected with
      | none => exact .stop fun _ _ => trivial
      | some customer =>
        refine .updateCustomer fun cData n₃ db₆ hrely₆ => ?_
        refine .modify fun db₇ _ _ n₄ hrely₇ _ _ => ⟨trivial, ?_⟩
        refine .commit fun db₈ view hrely₈ hview => ?_
        have hkeys := hrely₈.later.district.trans (hrely₇.later.district.trans
          (hrely₆.later.district.trans (hrely₅.later.district.trans hrely₄.later.district)))
        rw [← hkeys] at hdistrict
        have hstatements := ht₅
        simp only [Progress.execute, Progress.lock, hstatements] at hview ⊢
        exact ⟨_, payment_commits hdistrict hview⟩

end Tpcc.Isolation
