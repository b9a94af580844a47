import Mathlib.Algebra.Ring.Int.Defs
import Mathlib.Data.Int.Order.Basic
import Mathlib.Order.BoundedOrder.Basic
import Mathlib.Order.Lattice

/-! `std::chrono::steady_clock::time_point`: a count of nanoseconds in a signed 64-bit integer. -/

namespace Tpcc

@[ext]
structure TTimePoint where
  count : Int
  lower : -2 ^ 63 ≤ count
  upper : count < 2 ^ 63
deriving DecidableEq, Repr

namespace TTimePoint

theorem count_injective : Function.Injective count := fun _ _ h => TTimePoint.ext h

instance : LinearOrder TTimePoint := LinearOrder.lift' count count_injective

/-- `TTimePoint::max()` and `TTimePoint::min()`. -/
instance : BoundedOrder TTimePoint where
  top := ⟨2 ^ 63 - 1, by decide, by decide⟩
  le_top t := show t.count ≤ 2 ^ 63 - 1 by have := t.upper; omega
  bot := ⟨-2 ^ 63, by decide, by decide⟩
  bot_le t := t.lower

/-- `now + delay` for a delay in microseconds, unless the sum is not representable. -/
def addMicroseconds (now : TTimePoint) (delay : Int) : Option TTimePoint :=
  if h : -2 ^ 63 ≤ now.count + 1000 * delay ∧ now.count + 1000 * delay < 2 ^ 63 then
    some ⟨now.count + 1000 * delay, h.1, h.2⟩
  else none

theorem count_addMicroseconds {now deadline : TTimePoint} {delay : Int}
    (h : now.addMicroseconds delay = some deadline) :
    deadline.count = now.count + 1000 * delay := by
  unfold addMicroseconds at h
  split at h
  · exact (congrArg count (Option.some.inj h)).symm
  · cases h

end TTimePoint

end Tpcc
