import Mathlib.Algebra.Order.BigOperators.Group.List
import Mathlib.Algebra.Order.Floor.Semiring
import Mathlib.Data.Rat.Floor
import Mathlib.Order.Interval.Finset.Nat
import Mathlib.Tactic.FieldSimp
import Mathlib.Tactic.Linarith

/-! `ChooseRandomTransactionIndex`: the scan over running sums of weights, and how many outcomes of
its draw choose each transaction. -/

namespace Tpcc.Terminal

/-- `NEW_ORDER_WEIGHT` and the other weights. -/
def newOrderWeight : Rat := 45

def paymentWeight : Rat := 43

def orderStatusWeight : Rat := 4

def deliveryWeight : Rat := 4

def stockLevelWeight : Rat := 4

/-- The weights of `Transactions`, in the order of `ETransactionType`. -/
def transactionWeights : List Rat :=
  [newOrderWeight, deliveryWeight, orderStatusWeight, paymentWeight, stockLevelWeight]

def totalWeight (weights : List Rat) : Rat := weights.sum

/-- `static_cast<size_t>(totalWeight * 100)`, the largest result of the draw. -/
def drawBound (weights : List Rat) : Nat := ⌊totalWeight weights * 100⌋₊

/-- The loop over the weights that are left, from index `i`; `last` is returned behind it. -/
def scan (randomValue : Rat) (last : Nat) : List Rat → Nat → Rat → Nat
  | [], _, _ => last
  | weight :: weights, i, cumulativeWeight =>
    if randomValue ≤ cumulativeWeight + weight then i
    else scan randomValue last weights (i + 1) (cumulativeWeight + weight)

/-- `ChooseRandomTransactionIndex` with its draw. -/
def chooseRandomTransactionIndex (weights : List Rat) (draw : Nat) : Nat :=
  scan ((draw : Rat) / 100) (weights.length - 1) weights 0 0

/-- The number of outcomes of the draw that choose `index`. -/
def outcomes (weights : List Rat) (index : Nat) : Nat :=
  ((Finset.range (drawBound weights + 1)).filter fun draw =>
    chooseRandomTransactionIndex weights draw = index).card

/-- The mix follows the weights. -/
def Proportional (weights : List Rat) : Prop :=
  ∃ factor : Rat, ∀ index (h : index < weights.length),
    (outcomes weights index : Rat) = factor * weights[index]

/-- A table of weights that are multiples of 0.01. -/
def tableOf (hundredths : List Nat) : List Rat := hundredths.map fun (a : Nat) => (a : Rat) / 100

section Scan

variable {hundredths : List Nat} {draw index : Nat}

theorem sum_tableOf (hundredths : List Nat) :
    totalWeight (tableOf hundredths) = (hundredths.sum : Rat) / 100 := by
  induction hundredths with
  | nil => simp [totalWeight, tableOf]
  | cons a hundredths ih =>
    rw [totalWeight, tableOf] at ih ⊢
    rw [List.map_cons, List.sum_cons, ih, List.sum_cons, Nat.cast_add, add_div]

theorem drawBound_tableOf (hundredths : List Nat) :
    drawBound (tableOf hundredths) = hundredths.sum := by
  rw [drawBound, sum_tableOf, div_mul_cancel₀ _ (by norm_num), Nat.floor_natCast]

theorem getElem_tableOf (h : index < hundredths.length) (h' : index < (tableOf hundredths).length) :
    (tableOf hundredths)[index] = (hundredths[index] : Rat) / 100 := List.getElem_map _

/-- The sum of the weights before an index. -/
def before (hundredths : List Nat) (index : Nat) : Nat := (hundredths.take index).sum

theorem before_succ (h : index < hundredths.length) :
    before hundredths (index + 1) = before hundredths index + hundredths[index] := by
  rw [before, before, List.take_succ_eq_append_getElem h, List.sum_append, List.sum_singleton]

theorem before_mono {i j : Nat} (h : i ≤ j) : before hundredths i ≤ before hundredths j :=
  List.monotone_sum_take hundredths h

/-- A draw above the running sum stops at the weight whose addition makes the sum reach it. -/
theorem scan_tableOf {last i total : Nat} (hlow : total < draw)
    (hhigh : draw ≤ total + hundredths.sum) :
    ∃ j < hundredths.length,
      scan ((draw : Rat) / 100) last (tableOf hundredths) i ((total : Rat) / 100) = i + j ∧
      total + before hundredths j < draw ∧ draw ≤ total + before hundredths (j + 1) := by
  induction hundredths generalizing i total with
  | nil =>
    rw [List.sum_nil] at hhigh
    omega
  | cons a hundredths ih =>
    have hsum : (total : Rat) / 100 + (a : Rat) / 100 = ((total + a : Nat) : Rat) / 100 := by
      rw [Nat.cast_add, add_div]
    have htest : (draw : Rat) / 100 ≤ ((total + a : Nat) : Rat) / 100 ↔ draw ≤ total + a := by
      rw [div_le_div_iff_of_pos_right (by norm_num), Nat.cast_le]
    rw [List.sum_cons] at hhigh
    rw [tableOf, List.map_cons, scan, hsum]
    split
    · next hstop =>
      rw [htest] at hstop
      refine ⟨0, Nat.succ_pos _, rfl, ?_, ?_⟩
      · simpa [before] using hlow
      · simpa [before] using hstop
    · next hgo =>
      rw [htest] at hgo
      obtain ⟨j, hj, hscan, hlow', hhigh'⟩ := @ih (i + 1) _ (Nat.lt_of_not_le hgo) (by omega)
      refine ⟨j + 1, Nat.succ_lt_succ hj, ?_, ?_, ?_⟩
      · rw [tableOf] at hscan
        rw [hscan]
        omega
      · rwa [before, List.take_succ_cons, List.sum_cons, ← Nat.add_assoc]
      · rwa [before, List.take_succ_cons, List.sum_cons, ← Nat.add_assoc]

/-- The draw 0 chooses the first index. -/
theorem chooseRandomTransactionIndex_zero (hne : hundredths ≠ []) :
    chooseRandomTransactionIndex (tableOf hundredths) 0 = 0 := by
  obtain ⟨a, rest, rfl⟩ := List.exists_cons_of_ne_nil hne
  have hfirst : ((0 : Nat) : Rat) / 100 ≤ 0 + (a : Rat) / 100 := by
    rw [Nat.cast_zero, zero_div, zero_add]
    exact div_nonneg (Nat.cast_nonneg a) (by norm_num)
  exact if_pos hfirst

/-- A later draw chooses the index whose weight makes the running sum reach it. -/
theorem chooseRandomTransactionIndex_iff (hpos : 0 < draw) (hdraw : draw ≤ hundredths.sum)
    (hindex : index < hundredths.length) :
    chooseRandomTransactionIndex (tableOf hundredths) draw = index ↔
      before hundredths index < draw ∧ draw ≤ before hundredths (index + 1) := by
  obtain ⟨j, -, hscan, hlow, hhigh⟩ :=
    @scan_tableOf hundredths draw ((tableOf hundredths).length - 1) 0 0 hpos (by omega)
  rw [Nat.cast_zero, zero_div, Nat.zero_add] at hscan
  rw [Nat.zero_add] at hlow hhigh
  rw [chooseRandomTransactionIndex, hscan]
  constructor
  · rintro rfl
    exact ⟨hlow, hhigh⟩
  · rintro ⟨hlow', hhigh'⟩
    rcases Nat.lt_trichotomy j index with hlt | rfl | hgt
    · have hbefore : before hundredths (j + 1) ≤ before hundredths index := before_mono hlt
      omega
    · rfl
    · have hbefore : before hundredths (index + 1) ≤ before hundredths j := before_mono hgt
      omega

/-- The first index has one outcome more than the hundredths of its weight, every other index as
many. -/
theorem outcomes_tableOf (hpos : 0 < hundredths.sum) (hindex : index < hundredths.length) :
    outcomes (tableOf hundredths) index = hundredths[index] + if index = 0 then 1 else 0 := by
  have hne : hundredths ≠ [] := by
    rintro rfl
    exact absurd hindex (Nat.not_lt_zero index)
  have hlast : before hundredths (index + 1) ≤ hundredths.sum := by
    have h : before hundredths (index + 1) ≤ before hundredths hundredths.length := before_mono hindex
    rwa [before, before, List.take_length] at h
  have hsucc := before_succ hindex
  rw [outcomes, drawBound_tableOf]
  split
  · next hzero =>
    subst hzero
    have hset : (Finset.range (hundredths.sum + 1)).filter (fun draw =>
        chooseRandomTransactionIndex (tableOf hundredths) draw = 0) =
        Finset.range (hundredths[0] + 1) := by
      ext draw
      rw [Finset.mem_filter, Finset.mem_range, Finset.mem_range]
      have hbefore : before hundredths 0 = 0 := rfl
      rcases Nat.eq_zero_or_pos draw with rfl | hdraw
      · simp [chooseRandomTransactionIndex_zero hne]
      · constructor
        · rintro ⟨hle, hchoose⟩
          rw [chooseRandomTransactionIndex_iff hdraw (by omega) hindex] at hchoose
          omega
        · intro hle
          refine ⟨by omega, ?_⟩
          rw [chooseRandomTransactionIndex_iff hdraw (by omega) hindex]
          omega
    rw [hset, Finset.card_range]
  · next hlater =>
    have hset : (Finset.range (hundredths.sum + 1)).filter (fun draw =>
        chooseRandomTransactionIndex (tableOf hundredths) draw = index) =
        Finset.Ioc (before hundredths index) (before hundredths (index + 1)) := by
      ext draw
      rw [Finset.mem_filter, Finset.mem_range, Finset.mem_Ioc]
      rcases Nat.eq_zero_or_pos draw with rfl | hdraw
      · rw [chooseRandomTransactionIndex_zero hne]
        omega
      · constructor
        · rintro ⟨hle, hchoose⟩
          rwa [chooseRandomTransactionIndex_iff hdraw (by omega) hindex] at hchoose
        · intro hinside
          refine ⟨by omega, ?_⟩
          rwa [chooseRandomTransactionIndex_iff hdraw (by omega) hindex]
    rw [hset, Nat.card_Ioc]
    omega

end Scan

/-- The total as the first weight and the others. -/
theorem sum_eq_head_iff {a : Nat} {rest : List Nat} :
    (a :: rest).sum = a ↔ ∀ b ∈ rest, b = 0 := by
  rw [List.sum_cons, Nat.add_eq_left, List.sum_eq_zero_iff]

theorem proportional_of_head {a : Nat} {rest : List Nat} (hpos : 0 < (a :: rest).sum)
    (hrest : ∀ b ∈ rest, b = 0) : Proportional (tableOf (a :: rest)) := by
  have ha : (a :: rest).sum = a := sum_eq_head_iff.mpr hrest
  have hne : (a : Rat) ≠ 0 := by
    rw [ha] at hpos
    exact_mod_cast hpos.ne'
  refine ⟨100 * (a + 1) / a, fun index hindex => ?_⟩
  have hindex' : index < (a :: rest).length := by simpa [tableOf] using hindex
  rw [outcomes_tableOf hpos hindex']
  cases index with
  | zero =>
    simp only [tableOf, List.map_cons, List.getElem_cons_zero, if_true]
    push_cast
    field_simp
  | succ index =>
    have hlt : index < rest.length := Nat.lt_of_succ_lt_succ hindex'
    have hzero : rest[index] = 0 := hrest _ (List.getElem_mem hlt)
    simp [tableOf, hzero]

/-- An index with some weight behind the first has as many outcomes as hundredths, and the first has
one more. -/
theorem head_of_proportional {a : Nat} {rest : List Nat} (hpos : 0 < (a :: rest).sum)
    (h : Proportional (tableOf (a :: rest))) : ∀ b ∈ rest, b = 0 := by
  obtain ⟨factor, hfactor⟩ := h
  have hcount : ∀ (index : Nat) (hindex : index < (a :: rest).length),
      (((a :: rest)[index] + if index = 0 then 1 else 0 : Nat) : Rat) =
        factor * (((a :: rest)[index] : Rat) / 100) := by
    intro index hindex
    have hindex' : index < (tableOf (a :: rest)).length := by simpa [tableOf] using hindex
    rw [← outcomes_tableOf hpos hindex, hfactor index hindex', getElem_tableOf hindex hindex']
  intro b hb
  obtain ⟨index, hindex, rfl⟩ := List.getElem_of_mem hb
  have hother := hcount (index + 1) (Nat.succ_lt_succ hindex)
  have hfirst := hcount 0 (Nat.succ_pos _)
  simp only [List.getElem_cons_succ, List.getElem_cons_zero, if_true] at hother hfirst
  by_contra hne
  have hne' : (rest[index] : Rat) ≠ 0 := by exact_mod_cast hne
  have hfactor' : factor = 100 := by
    simp only [Nat.succ_ne_zero, if_false, Nat.add_zero] at hother
    field_simp at hother
    linarith
  rw [hfactor', mul_div_cancel₀ _ (by norm_num)] at hfirst
  push_cast at hfirst
  linarith

/-- For a table of multiples of 0.01, the mix follows the weights exactly when the first weight is
the whole of it. -/
theorem proportional_iff {hundredths : List Nat} (hpos : 0 < hundredths.sum) :
    Proportional (tableOf hundredths) ↔
      (tableOf hundredths)[0]? = some (totalWeight (tableOf hundredths)) := by
  obtain ⟨a, rest, rfl⟩ : ∃ a rest, hundredths = a :: rest := by
    cases hundredths with
    | nil => exact absurd hpos (Nat.lt_irrefl 0)
    | cons a rest => exact ⟨a, rest, rfl⟩
  have hhead : (tableOf (a :: rest))[0]? = some (totalWeight (tableOf (a :: rest))) ↔
      ∀ b ∈ rest, b = 0 := by
    have hfirst : (tableOf (a :: rest))[0]? = some ((a : Rat) / 100) := rfl
    rw [← sum_eq_head_iff, sum_tableOf, hfirst, Option.some_inj, div_left_inj' (by norm_num),
      Nat.cast_inj, eq_comm]
  rw [hhead]
  exact ⟨head_of_proportional hpos, proportional_of_head hpos⟩

theorem proportional_iff_two :
    0 < [100, 0].sum ∧ (Proportional (tableOf [100, 0]) ↔
      (tableOf [100, 0])[0]? = some (totalWeight (tableOf [100, 0]))) :=
  ⟨by decide, proportional_iff (by decide)⟩

/-- The mix of the benchmark: 4501 of 10001 outcomes choose NewOrder and 4300 choose Payment. -/
theorem transactionWeights_not_proportional :
    drawBound transactionWeights + 1 = 10001 ∧ outcomes transactionWeights 0 = 4501 ∧
      outcomes transactionWeights 3 = 4300 ∧ ¬Proportional transactionWeights := by
  have htable : transactionWeights = tableOf [4500, 400, 400, 4300, 400] := by
    norm_num [transactionWeights, tableOf, newOrderWeight, deliveryWeight, orderStatusWeight,
      paymentWeight, stockLevelWeight]
  have hpos : 0 < [4500, 400, 400, 4300, 400].sum := by decide
  rw [htable]
  refine ⟨by rw [drawBound_tableOf]; rfl, outcomes_tableOf hpos (by decide),
    outcomes_tableOf hpos (by decide), fun h => ?_⟩
  exact absurd (head_of_proportional hpos h 400 (by decide)) (by decide)

end Tpcc.Terminal
