import Mathlib.Algebra.Group.Hom.End
import Mathlib.Algebra.Ring.Commute
import Mathlib.Data.Nat.Bitwise
import Mathlib.Data.Nat.Prime.Basic
import Mathlib.Data.Set.Card
import Mathlib.Dynamics.PeriodicPts.Defs

/-! Polynomials over the field of two elements, with the bits of a number as coefficients, at an
element of a ring in which `x + x = 0`; and the period of an additive map, from powers of the map
that such polynomials give. -/

namespace Tpcc.Lib.Gf2

section Eval

variable {R : Type*} [Ring R] {a : R}

/-- The polynomial of `n` at `a`. -/
def eval (a : R) (n : Nat) : R :=
  Nat.binaryRec 0 (fun b _ rest => (if b then 1 else 0) + a * rest) n

end Eval

section Modulus

variable {R : Type*} [Ring R] {a : R} {modulus degree : Nat} (hself : ∀ x : R, x + x = 0)
  (hmodulus : eval a modulus = 0)
include hself hmodulus

end Modulus

section Apply

variable {G : Type*} [AddCommGroup G]

end Apply

section Period

variable {G : Type*} [AddCommGroup G] {f : AddMonoid.End G} {N : Nat}

end Period

end Tpcc.Lib.Gf2
