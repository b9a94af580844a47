import Tpcc.Import.Initial
import Tpcc.Isolation.Serial

/-! The consistency conditions over whole runs from an import. -/

namespace Tpcc.Serial

open Store Transaction Import

/-- The tables are consistent after any calls of the transactions, whatever fails in between. -/
theorem runCalls_consistent (draws : ImportDraws) (warehouseCount : Nat) (calls : List Call) :
    Consistent (runCalls calls (importTables draws warehouseCount)) := by
  have hsound := Isolation.Sound.runCalls (importTables_sound draws warehouseCount) calls
  exact hsound.consistent

end Tpcc.Serial
