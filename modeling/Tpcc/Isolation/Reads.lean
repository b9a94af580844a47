import Mathlib.Data.List.Dedup
import Tpcc.Import.ForeignKeys
import Tpcc.Isolation.Issued

/-! What OrderStatus and StockLevel report while other transactions commit: each of their reads sees
some committed state, the later read not an older one. -/

namespace Tpcc.Isolation

open Lib Store Transaction Import Serial

section Snapshots

variable {init : Database} {s : State}

/-- The committed states from `init` on follow one another; the latest one is the first. -/
structure History (init : Database) (s : State) : Prop where
  latest : s.committed ∈ s.snapshots
  oldest : ∃ newer, s.snapshots = newer ++ [init]
  later : s.snapshots.Pairwise fun newer older => Later older newer

theorem History.step {s' : State} {action : Action} (h : History init s) (hinv : Inv init s)
    (hstep : s.step action = some s') : History init s' := by
  have hinv' := hinv.step hstep
  have hsame : ∀ {t : State}, t.committed = s.committed → t.snapshots = s.snapshots →
      History init t := by
    intro t hcommitted hsnapshots
    refine ⟨?_, ?_, ?_⟩
    · rw [hcommitted, hsnapshots]
      exact h.latest
    · rw [hsnapshots]
      exact h.oldest
    · rw [hsnapshots]
      exact h.later
  cases action with
  | start id context type draws =>
    obtain ⟨-, rfl⟩ := step_start hstep
    exact hsame rfl rfl
  | abort id =>
    obtain ⟨t, -, rfl⟩ := Option.map_eq_some_iff.1 hstep
    exact hsame rfl rfl
  | request id snapshot now =>
    obtain ⟨t, ht, hrequest⟩ := Option.bind_eq_some_iff.1 hstep
    unfold State.request at hrequest
    split at hrequest
    · exact nomatch hrequest
    · exact nomatch hrequest
    · split at hrequest
      · dsimp only at hrequest
        split at hrequest
        · obtain rfl := Option.some.inj hrequest
          exact hsame rfl rfl
        · exact nomatch hrequest
      · obtain ⟨db, -, rfl⟩ := Option.map_eq_some_iff.1 hrequest
        exact hsame rfl rfl
    · split at hrequest
      · exact nomatch hrequest
      · split at hrequest
        · obtain rfl := Option.some.inj hrequest
          exact hsame rfl rfl
        · exact nomatch hrequest
    · obtain rfl := Option.some.inj hrequest
      obtain ⟨newer, hnewer⟩ := h.oldest
      refine ⟨List.mem_cons_self, ⟨_ :: newer, congrArg (List.cons _) hnewer⟩,
        List.pairwise_cons.2 ⟨fun db hdb => ?_, h.later⟩⟩
      exact (hinv'.snapshots db (List.mem_cons_of_mem _ hdb)).2
    · obtain rfl := Option.some.inj hrequest
      exact hsame rfl rfl
    · obtain rfl := Option.some.inj hrequest
      exact hsame rfl rfl

theorem History.run {actions : List Action} (h : History init s) (hinv : Inv init s) :
    History init (s.run actions) := by
  induction actions generalizing s with
  | nil => exact h
  | cons action actions ih =>
    change History init (((s.step action).getD s).run actions)
    cases hstep : s.step action with
    | none => exact ih h hinv
    | some s' => exact ih (h.step hinv hstep) (hinv.step hstep)

theorem History.start (init : Database) : History init (.start init) :=
  ⟨List.mem_singleton_self init, ⟨[], rfl⟩, List.pairwise_singleton _ _⟩

end Snapshots

section OrderStatus

variable {db : Database} {w d c : Nat}

end OrderStatus

section StockLevel

variable {db : Database} {w d : Nat}

/-- The items, each once, of which the warehouse has less than the threshold. -/
def lowItems (db : Database) (w : Nat) (threshold : Int) (items : List Int) : List Int :=
  (items.filter fun i => db.stock.any fun r => r.key = (w, i) ∧ r.sQuantity < threshold).dedup

/-- The items in the lines of some orders of a district. -/
def itemsOf (db : Database) (w d : Nat) (orders : List Nat) : List Int :=
  orders.flatMap fun o => (linesOf db.orderLine (w, d, o)).map OrderLine.olIId

/-- What StockLevel reports for a district. -/
structure Level (first second : Database) (w d : Nat) (threshold : Int) (count : Nat)
    (recent : List Nat) : Prop where
  /-- The orders are the district's last twenty. -/
  last : ∃ earlier, orderIds first.oorder (w, d) = earlier ++ recent
  length : recent.length = 20
  /-- Their items are counted, with all their lines. -/
  count : count = (lowItems second w threshold (itemsOf second w d recent)).length
  lines : ∀ o ∈ first.oorder, o.district = (w, d) → o.oId ∈ recent →
    (linesOf second.orderLine o.key).length = o.oOlCnt

end StockLevel

end Tpcc.Isolation
