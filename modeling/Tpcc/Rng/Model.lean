import Mathlib.Data.UInt

/-! The random numbers of `util.h`: `TFastRng`, `BoundedRandom` and `RandomNumber`. -/

namespace Tpcc.Rng

/-- `TFastRng`; the generator of a thread is its state. -/
structure TFastRng where
  state : UInt64
  deriving DecidableEq

/-- The three shifts of `Next`. -/
def xorshift (state : UInt64) : UInt64 :=
  let x := state ^^^ (state >>> 12)
  let x := x ^^^ (x <<< 25)
  x ^^^ (x >>> 27)

def multiplier : UInt64 := 0x2545F4914F6CDD1D

/-- `Next`, with the generator after it. -/
def TFastRng.next (rng : TFastRng) : UInt64 × TFastRng :=
  let x := xorshift rng.state
  (x * multiplier, ⟨x⟩)

/-- The product `m` of a word and the range.  It fits 128 bits. -/
def product (x range : UInt64) : Nat := x.toNat * range.toNat

/-- `static_cast<uint64_t>(m)`. -/
def lowWord (m : Nat) : UInt64 := UInt64.ofNat m

/-- `static_cast<uint64_t>(m >> 64)`. -/
def highWord (m : Nat) : UInt64 := UInt64.ofNat (m >>> 64)

/-- The `while` loop; `none` when it has not ended after `fuel` more words. -/
def resample (range t : UInt64) : Nat → Nat → TFastRng → Option (Nat × TFastRng)
  | 0, m, rng => if lowWord m < t then none else some (m, rng)
  | fuel + 1, m, rng =>
    if lowWord m < t then
      let (x, rng) := rng.next
      resample range t fuel (product x range) rng
    else some (m, rng)

/-- `BoundedRandom`; `none` when its loop has not ended after `fuel` rounds. -/
def boundedRandom (fuel : Nat) (range : UInt64) (rng : TFastRng) : Option (UInt64 × TFastRng) :=
  if range = 0 then some (0, rng)
  else
    let (x, rng) := rng.next
    let m := product x range
    if lowWord m < range then
      (resample range ((0 - range) % range) fuel m rng).map fun (m, rng) => (highWord m, rng)
    else some (highWord m, rng)

/-- `RandomNumber(from, to)`. -/
def randomNumber (fuel : Nat) (low high : UInt64) (rng : TFastRng) : Option (UInt64 × TFastRng) :=
  (boundedRandom fuel (high - low + 1) rng).map fun (n, rng) => (low + n, rng)

end Tpcc.Rng
