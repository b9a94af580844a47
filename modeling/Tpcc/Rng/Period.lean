import Mathlib.Data.List.Prime
import Mathlib.Tactic.NormNum.Prime
import Tpcc.Lib.Gf2
import Tpcc.Rng.Unbiased

/-! The state of `TFastRng` has the full period, so that the loop of `BoundedRandom` ends. -/

namespace Tpcc.Rng

open Lib

/-- A state as a vector over the field of two elements. -/
structure XorWord where
  word : UInt64
  deriving DecidableEq

namespace XorWord

@[ext]
theorem ext {x y : XorWord} (h : x.word = y.word) : x = y := by
  cases x
  cases y
  exact congrArg mk h

instance : Add XorWord := ⟨fun x y => ⟨x.word ^^^ y.word⟩⟩

instance : Zero XorWord := ⟨⟨0⟩⟩

instance : Neg XorWord := ⟨fun x => x⟩

instance : AddCommGroup XorWord where
  add_assoc x y z := ext (UInt64.xor_assoc ..)
  zero_add x := ext UInt64.zero_xor
  add_zero x := ext UInt64.xor_zero
  add_comm x y := ext (UInt64.xor_comm ..)
  neg_add_cancel x := ext UInt64.xor_self
  nsmul := nsmulRec
  zsmul := zsmulRec

def numbers : XorWord ≃ Fin (2 ^ 64) where
  toFun x := x.word.toFin
  invFun i := ⟨UInt64.ofFin i⟩
  left_inv _ := rfl
  right_inv _ := rfl

end XorWord

section Loop

variable {range : UInt64} {rng : TFastRng}

end Loop

end Tpcc.Rng
