import Tpcc.Import.Checks
import Tpcc.Serial.NoStop

/-! The expected counts of the base checks in 32-bit integers. -/

namespace Tpcc.Import

open Lib Store Transaction Check

/-- The values of an `int`. -/
def FitsInt (value : Int) : Prop := -2 ^ 31 ≤ value ∧ value < 2 ^ 31

/-- Arithmetic of the type `int`: a result that fits is exact, and any other result is some value of
the type. -/
structure IntArithmetic (int : Int → Int) : Prop where
  exact : ∀ value, FitsInt value → int value = value
  fits : ∀ value, FitsInt (int value)

/-- The expressions of type `int` in the base checks: the districts, the customers, orders and
payments, the stock, and the new orders. -/
def expectedCounts (warehouseCount : Nat) : List Int :=
  [(warehouseCount : Int) * districtCount, (warehouseCount : Int) * customersPerDistrict,
    (warehouseCount : Int) * customersPerDistrict * districtCount,
    (warehouseCount : Int) * itemCount,
    (warehouseCount : Int) * (customersPerDistrict - firstUnprocessedOId + 1 : Nat),
    (warehouseCount : Int) * (customersPerDistrict - firstUnprocessedOId + 1 : Nat) * districtCount]

variable {int : Int → Int} {db : Database} {draws : ImportDraws} {warehouseCount : Nat}

/-- The stock has the most rows: it is the first count that does not fit. -/
theorem expectedCounts_fit_iff :
    (∀ count ∈ expectedCounts warehouseCount, FitsInt count) ↔ warehouseCount ≤ 21474 := by
  simp only [expectedCounts, List.forall_mem_cons, List.not_mem_nil, false_imp_iff, implies_true,
    and_true, FitsInt, districtCount, districtHighId, districtLowId, customersPerDistrict, itemCount,
    firstUnprocessedOId]
  omega

/-- Counts that fit are the exact ones. -/
theorem baseChecks_int (hint : IntArithmetic int)
    (hfits : ∀ count ∈ expectedCounts warehouseCount, FitsInt count) (afterImport : Bool) :
    baseChecks int db warehouseCount afterImport = baseChecks id db warehouseCount afterImport := by
  have hcount : ∀ count ∈ expectedCounts warehouseCount, int count = count :=
    fun count h => hint.exact count (hfits count h)
  simp only [expectedCounts, List.forall_mem_cons, List.not_mem_nil, false_imp_iff, implies_true,
    and_true] at hcount
  obtain ⟨hdistricts, hcustomers, horders, hstock, hnew, hnewOrders⟩ := hcount
  simp only [baseChecks, baseCheckDistrictTable, baseCheckCustomerTable, baseCheckStockTable,
    baseCheckOorderTable, baseCheckNewOrderTable, baseCheckOrderLineTable, baseCheckHistoryTable,
    hdistricts, hcustomers, horders, hstock, hnew, hnewOrders, id]

/-- A count that does not fit is not the number of rows. -/
theorem stock_int_error (hint : IntArithmetic int) (hlarge : ¬warehouseCount ≤ 21474) :
    baseCheckStockTable int (importTables draws warehouseCount) warehouseCount ≠ .ok () := by
  intro hok
  have hcount := checkCount_iff.mp (seq_iff.mp hok).1
  have hfits := hint.fits ((warehouseCount : Int) * itemCount)
  rw [← hcount, length_stock, FitsInt, itemCount] at hfits
  omega

theorem failedCount_pos {check : Outcome} {checks : List Outcome} (hmem : check ∈ checks)
    (hfail : check ≠ .ok ()) : failedCount checks ≠ 0 := by
  refine Nat.ne_of_gt (List.countP_pos_iff.mpr ⟨check, hmem, ?_⟩)
  cases check with
  | ok u => exact absurd rfl hfail
  | error message => rfl

theorem import_baseChecks_of_large (hint : IntArithmetic int) (hlarge : ¬warehouseCount ≤ 21474)
    (afterImport : Bool) :
    failedCount (baseChecks int (importTables draws warehouseCount) warehouseCount afterImport) ≠
      0 := by
  refine failedCount_pos (List.mem_append_left _ ?_)
    (@stock_int_error int draws warehouseCount hint hlarge)
  simp

theorem import_baseChecks_of_fits (hint : IntArithmetic int) (hpos : 1 ≤ warehouseCount)
    (hsmall : warehouseCount ≤ 21474) (afterImport : Bool) :
    failedCount (baseChecks int (importTables draws warehouseCount) warehouseCount afterImport) =
      0 := by
  rw [baseChecks_int hint (expectedCounts_fit_iff.mpr hsmall)]
  have hall := @import_baseChecks draws warehouseCount hpos
  cases afterImport with
  | true => exact hall
  | false =>
    rw [failedCount, List.countP_eq_zero] at hall ⊢
    intro check hcheck
    refine hall check ?_
    rw [baseChecks, if_pos rfl]
    rw [baseChecks, if_neg (by decide), List.append_nil] at hcheck
    exact List.mem_append_left _ hcheck

/-- For every positive `int` and every import, the expected counts fit the type, and the base checks
pass on the imported tables, if and only if there are at most 21474 warehouses. -/
theorem baseChecks_import_iff (int : Int → Int) (hint : IntArithmetic int) (draws : ImportDraws)
    (warehouseCount : Nat) (hpos : 1 ≤ warehouseCount) (afterImport : Bool) :
    ((∀ count ∈ expectedCounts warehouseCount, FitsInt count) ↔ warehouseCount ≤ 21474) ∧
    (failedCount (baseChecks int (importTables draws warehouseCount) warehouseCount afterImport) = 0 ↔
      warehouseCount ≤ 21474) := by
  refine ⟨expectedCounts_fit_iff, fun hpass => ?_, fun hsmall => ?_⟩
  · by_contra hlarge
    exact import_baseChecks_of_large hint hlarge afterImport hpass
  · exact import_baseChecks_of_fits hint hpos hsmall afterImport

/-- Overflow as a remainder, between `-2^31` and `2^31`. -/
def wrapInt (value : Int) : Int := (value + 2 ^ 31) % 2 ^ 32 - 2 ^ 31

theorem wrapInt_intArithmetic : IntArithmetic wrapInt where
  exact value h := by
    rw [FitsInt] at h
    rw [wrapInt]
    omega
  fits value := by
    rw [FitsInt, wrapInt]
    omega

theorem baseChecks_import_iff_wrapInt :
    IntArithmetic wrapInt ∧
      failedCount (baseChecks wrapInt (importTables Serial.sampleImport 21474) 21474 true) = 0 :=
  ⟨wrapInt_intArithmetic, (baseChecks_import_iff wrapInt wrapInt_intArithmetic Serial.sampleImport
    21474 (by decide) true).2.mpr (by decide)⟩

/-- With 21475 warehouses the expected number of stock rows overflows, and the base checks fail on
correct tables. -/
theorem baseChecks_import_fail :
    21475 < 2 ^ 31 ∧ ¬FitsInt ((21475 : Nat) * itemCount) ∧
      failedCount (baseChecks wrapInt (importTables Serial.sampleImport 21475) 21475 true) ≠ 0 :=
  ⟨by decide, by rw [FitsInt, itemCount]; omega,
    import_baseChecks_of_large wrapInt_intArithmetic (by decide) true⟩

end Tpcc.Import
