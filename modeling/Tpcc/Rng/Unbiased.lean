import Mathlib.SetTheory.Cardinal.Finite
import Tpcc.Lib.Reject
import Tpcc.Rng.Model

/-! `BoundedRandom` gives every result the same number of words, and `RandomNumber` stays in its
interval. -/

namespace Tpcc.Rng

open Lib

/-- The test that a word passes in `BoundedRandom`, before the loop or at its head. -/
def Accepted (range x : UInt64) : Prop :=
  range ≤ lowWord (product x range) ∨ (0 - range) % range ≤ lowWord (product x range)

instance (range x : UInt64) : Decidable (Accepted range x) := inferInstanceAs (Decidable (_ ∨ _))

/-- What `BoundedRandom` makes of an accepted word. -/
def resultOf (range x : UInt64) : UInt64 := highWord (product x range)

/-- The generator after `n` words. -/
def TFastRng.after (rng : TFastRng) : Nat → TFastRng
  | 0 => rng
  | n + 1 => rng.next.2.after n

/-- The word that is drawn after `n` others. -/
def TFastRng.word (rng : TFastRng) (n : Nat) : UInt64 := (rng.after n).next.1

/-- The word that is drawn after `n` others is the first that is accepted. -/
def FirstAccepted (range : UInt64) (rng : TFastRng) (n : Nat) : Prop :=
  Accepted range (rng.word n) ∧ ∀ i < n, ¬Accepted range (rng.word i)

section Words

variable {range x : UInt64}

theorem toNat_pos (hpos : range ≠ 0) : 0 < range.toNat :=
  Nat.pos_of_ne_zero fun hzero => hpos (UInt64.toNat_inj.mp hzero)

theorem toNat_lowWord (m : Nat) : (lowWord m).toNat = m % 2 ^ 64 := UInt64.toNat_ofNat'

theorem toNat_threshold (hpos : range ≠ 0) :
    ((0 - range) % range).toNat = 2 ^ 64 % range.toNat := by
  have hrange := toNat_pos hpos
  have hlt := range.toNat_lt
  have hneg : (0 - range).toNat = 2 ^ 64 - range.toNat := by
    rw [UInt64.toNat_sub, UInt64.toNat_zero]
    omega
  rw [UInt64.toNat_mod, hneg, Reject.sub_mod_range (Nat.le_of_lt hlt)]

/-- The test before the loop accepts nothing that the test of the loop rejects. -/
theorem accepted_iff_threshold (hpos : range ≠ 0) :
    Accepted range x ↔ ¬lowWord (product x range) < (0 - range) % range := by
  have hthreshold : (0 - range) % range < range := UInt64.mod_lt _ (UInt64.pos_iff_ne_zero.mpr hpos)
  rw [Accepted, UInt64.not_lt, or_iff_right_iff_imp]
  exact fun hrange => UInt64.le_of_lt (UInt64.lt_of_lt_of_le hthreshold hrange)

theorem accepted_iff (hpos : range ≠ 0) :
    Accepted range x ↔ 2 ^ 64 % range.toNat ≤ x.toNat * range.toNat % 2 ^ 64 := by
  rw [accepted_iff_threshold hpos, UInt64.not_lt, UInt64.le_iff_toNat_le, toNat_threshold hpos,
    toNat_lowWord, product]

theorem toNat_resultOf (hpos : range ≠ 0) (x : UInt64) :
    (resultOf range x).toNat = x.toNat * range.toNat / 2 ^ 64 := by
  have hlt := Reject.quotient_lt (toNat_pos hpos) x.toNat_lt
  have hrange := range.toNat_lt
  rw [resultOf, highWord, product, UInt64.toNat_ofNat', Nat.shiftRight_eq_div_pow]
  exact Nat.mod_eq_of_lt (Nat.lt_trans hlt hrange)

theorem resultOf_lt (hpos : range ≠ 0) (x : UInt64) : resultOf range x < range := by
  rw [UInt64.lt_iff_toNat_lt, toNat_resultOf hpos]
  exact Reject.quotient_lt (toNat_pos hpos) x.toNat_lt

/-- A word is accepted with result `k` exactly when its number is in the interval of `k`. -/
theorem result_iff (hpos : range ≠ 0) {k : Nat} :
    Accepted range x ∧ (resultOf range x).toNat = k ↔
      2 ^ 64 % range.toNat ≤ x.toNat * range.toNat % 2 ^ 64 ∧
        x.toNat * range.toNat / 2 ^ 64 = k := by
  rw [accepted_iff hpos, toNat_resultOf hpos]

/-- Every value below the range is the result of the same number of accepted words. -/
theorem card_results (hpos : range ≠ 0) {k : Nat} (hk : k < range.toNat) :
    Nat.card { x : UInt64 // Accepted range x ∧ (resultOf range x).toNat = k } =
      2 ^ 64 / range.toNat := by
  let numbers := (Finset.range (2 ^ 64)).filter fun n =>
    2 ^ 64 % range.toNat ≤ n * range.toNat % 2 ^ 64 ∧ n * range.toNat / 2 ^ 64 = k
  have hmem : ∀ x : UInt64, x.toNat ∈ numbers ↔
      Accepted range x ∧ (resultOf range x).toNat = k := by
    intro x
    rw [result_iff hpos, Finset.mem_filter, Finset.mem_range]
    exact and_iff_right x.toNat_lt
  have hnumber : ∀ n ∈ numbers, (UInt64.ofNat n).toNat = n := by
    intro n hn
    exact UInt64.toNat_ofNat_of_lt' (Finset.mem_range.mp (Finset.mem_filter.mp hn).1)
  let words : { x : UInt64 // Accepted range x ∧ (resultOf range x).toNat = k } ≃ numbers :=
    { toFun := fun x => ⟨x.val.toNat, (hmem x.val).mpr x.property⟩
      invFun := fun n => ⟨UInt64.ofNat n.val, (hmem _).mp (by
        rw [hnumber n.val n.property]
        exact n.property)⟩
      left_inv := fun x => Subtype.ext UInt64.ofNat_toNat
      right_inv := fun n => Subtype.ext (hnumber n.val n.property) }
  rw [Nat.card_congr words, Nat.card_eq_fintype_card, Fintype.card_coe]
  exact Reject.card_accepted (toNat_pos hpos) hk

end Words

section Loop

variable {range v : UInt64} {rng rng' : TFastRng}

/-- The loop ends with the first word that passes its test, among the current one and those to
come. -/
theorem resample_eq {t : UInt64} {fuel m m' : Nat} (h : resample range t fuel m rng = some (m', rng')) :
    (¬lowWord m < t ∧ m' = m ∧ rng' = rng) ∨
      lowWord m < t ∧ ∃ n < fuel, m' = product (rng.word n) range ∧ rng' = rng.after (n + 1) ∧
        ¬lowWord m' < t ∧ ∀ i < n, lowWord (product (rng.word i) range) < t := by
  induction fuel generalizing m rng with
  | zero =>
    rw [resample] at h
    split at h
    · cases h
    · next hpass =>
      cases h
      exact .inl ⟨hpass, rfl, rfl⟩
  | succ fuel ih =>
    rw [resample] at h
    split at h
    · next hfail =>
      refine .inr ⟨hfail, ?_⟩
      rcases ih h with ⟨hpass, rfl, rfl⟩ | ⟨hfirst, n, hn, rfl, rfl, hpass, hbefore⟩
      · exact ⟨0, Nat.succ_pos fuel, rfl, rfl, hpass, fun i hi => absurd hi (Nat.not_lt_zero i)⟩
      · refine ⟨n + 1, Nat.succ_lt_succ hn, rfl, rfl, hpass, fun i hi => ?_⟩
        cases i with
        | zero => exact hfirst
        | succ i => exact hbefore i (Nat.lt_of_succ_lt_succ hi)
    · next hpass =>
      cases h
      exact .inl ⟨hpass, rfl, rfl⟩

/-- `BoundedRandom` returns the result of the first word of its generator that is accepted. -/
theorem boundedRandom_eq (hpos : range ≠ 0) {fuel : Nat}
    (h : boundedRandom fuel range rng = some (v, rng')) :
    ∃ n ≤ fuel, Accepted range (rng.word n) ∧ v = resultOf range (rng.word n) ∧
      rng' = rng.after (n + 1) ∧ ∀ i < n, ¬Accepted range (rng.word i) := by
  rw [boundedRandom, if_neg hpos] at h
  dsimp only at h
  split at h
  · obtain ⟨⟨m', last⟩, hloop, heq⟩ := Option.map_eq_some_iff.mp h
    obtain ⟨rfl, rfl⟩ : highWord m' = v ∧ last = rng' := by simpa using heq
    rcases resample_eq hloop with ⟨hpass, rfl, rfl⟩ | ⟨hfirst, n, hn, rfl, rfl, hpass, hbefore⟩
    · exact ⟨0, Nat.zero_le fuel, (accepted_iff_threshold hpos).mpr hpass, rfl, rfl,
        fun i hi => absurd hi (Nat.not_lt_zero i)⟩
    · refine ⟨n + 1, hn, (accepted_iff_threshold hpos).mpr hpass, rfl, rfl, fun i hi => ?_⟩
      rw [accepted_iff_threshold hpos, not_not]
      cases i with
      | zero => exact hfirst
      | succ i => exact hbefore i (Nat.lt_of_succ_lt_succ hi)
  · next hrange =>
    obtain ⟨rfl, rfl⟩ := Prod.mk.inj (Option.some.inj h)
    exact ⟨0, Nat.zero_le fuel, .inl (UInt64.not_lt.mp hrange), rfl, rfl,
      fun i hi => absurd hi (Nat.not_lt_zero i)⟩

theorem resample_isSome {t : UInt64} {fuel m : Nat}
    (h : ¬lowWord m < t ∨ ∃ n < fuel, ¬lowWord (product (rng.word n) range) < t) :
    (resample range t fuel m rng).isSome := by
  induction fuel generalizing m rng with
  | zero =>
    rcases h with hpass | ⟨n, hn, -⟩
    · rw [resample, if_neg hpass]
      rfl
    · exact absurd hn (Nat.not_lt_zero n)
  | succ fuel ih =>
    rw [resample]
    split
    · next hfail =>
      rcases h with hpass | ⟨n, hn, hpass⟩
      · exact absurd hfail hpass
      · refine ih ?_
        cases n with
        | zero => exact .inl hpass
        | succ n => exact .inr ⟨n, Nat.lt_of_succ_lt_succ hn, hpass⟩
    · rfl

/-- `BoundedRandom` returns as soon as its fuel reaches an accepted word. -/
theorem boundedRandom_isSome (hpos : range ≠ 0) {fuel n : Nat} (hn : n ≤ fuel)
    (haccepted : Accepted range (rng.word n)) : (boundedRandom fuel range rng).isSome := by
  rw [accepted_iff_threshold hpos] at haccepted
  rw [boundedRandom, if_neg hpos]
  dsimp only
  split
  · rw [Option.isSome_map]
    refine resample_isSome ?_
    cases n with
    | zero => exact .inl haccepted
    | succ n => exact .inr ⟨n, hn, haccepted⟩
  · rfl

/-- With enough fuel `BoundedRandom` returns, with the result of the first accepted word. -/
theorem boundedRandom_first (hpos : range ≠ 0) {fuel n : Nat} (hn : n ≤ fuel)
    (hfirst : FirstAccepted range rng n) :
    boundedRandom fuel range rng = some (resultOf range (rng.word n), rng.after (n + 1)) := by
  obtain ⟨haccepted, hbefore⟩ := hfirst
  obtain ⟨⟨v, rng'⟩, hrun⟩ := Option.isSome_iff_exists.mp (boundedRandom_isSome hpos hn haccepted)
  obtain ⟨m, -, haccepted', rfl, rfl, hbefore'⟩ := boundedRandom_eq hpos hrun
  have hmn : m ≤ n := Nat.not_lt.mp fun hlt => hbefore' n hlt haccepted
  have hnm : n ≤ m := Nat.not_lt.mp fun hlt => hbefore m hlt haccepted'
  rw [hrun, Nat.le_antisymm hmn hnm]

theorem boundedRandom_lt (hpos : range ≠ 0) {fuel : Nat}
    (h : boundedRandom fuel range rng = some (v, rng')) : v < range := by
  obtain ⟨n, -, -, rfl, -⟩ := boundedRandom_eq hpos h
  exact resultOf_lt hpos _

/-- `RandomNumber` stays in its interval, also when the interval is the whole type. -/
theorem randomNumber_range {low high : UInt64} (hle : low ≤ high) {fuel : Nat}
    (h : randomNumber fuel low high rng = some (v, rng')) : low ≤ v ∧ v ≤ high := by
  obtain ⟨⟨n, last⟩, hbounded, heq⟩ := Option.map_eq_some_iff.mp h
  obtain ⟨rfl, rfl⟩ : low + n = v ∧ last = rng' := by simpa using heq
  rw [UInt64.le_iff_toNat_le] at hle
  have hhigh := high.toNat_lt
  have hsub : (high - low).toNat = high.toNat - low.toNat := UInt64.toNat_sub_of_le _ _ hle
  have hn : n.toNat ≤ high.toNat - low.toNat := by
    by_cases hpos : high - low + 1 = 0
    · rw [boundedRandom, if_pos hpos] at hbounded
      obtain ⟨rfl, -⟩ := Prod.mk.inj (Option.some.inj hbounded)
      exact Nat.zero_le _
    · have hlt := UInt64.lt_iff_toNat_lt.mp (boundedRandom_lt hpos hbounded)
      rw [UInt64.toNat_add, hsub, UInt64.toNat_one] at hlt
      have hmod := Nat.mod_le (high.toNat - low.toNat + 1) (2 ^ 64)
      omega
  rw [UInt64.le_iff_toNat_le, UInt64.le_iff_toNat_le, UInt64.toNat_add]
  omega

/-- With enough fuel `RandomNumber` returns; where its range wraps to 0 it draws no word. -/
theorem randomNumber_first (low high : UInt64) {fuel n : Nat} (hn : n ≤ fuel)
    (hfirst : high - low + 1 ≠ 0 → FirstAccepted (high - low + 1) rng n) :
    randomNumber fuel low high rng =
      if high - low + 1 = 0 then some (low, rng)
      else some (low + resultOf (high - low + 1) (rng.word n), rng.after (n + 1)) := by
  unfold randomNumber
  by_cases hpos : high - low + 1 = 0
  · rw [if_pos hpos, boundedRandom, if_pos hpos, Option.map_some]
    simp only [UInt64.add_zero]
  · rw [if_neg hpos, boundedRandom_first hpos hn (hfirst hpos)]
    rfl

end Loop

/-- The words that are accepted, their results, and what `BoundedRandom` and `RandomNumber` return. -/
theorem boundedRandom_unbiased :
    (∀ range : UInt64, range ≠ 0 →
      (∀ x, Accepted range x ↔ 2 ^ 64 % range.toNat ≤ x.toNat * range.toNat % 2 ^ 64) ∧
      (∀ k < range.toNat,
        Nat.card { x : UInt64 // Accepted range x ∧ (resultOf range x).toNat = k } =
          2 ^ 64 / range.toNat) ∧
      (∀ fuel rng, ∀ n ≤ fuel, FirstAccepted range rng n →
        boundedRandom fuel range rng = some (resultOf range (rng.word n), rng.after (n + 1))) ∧
      ∀ fuel rng v rng', boundedRandom fuel range rng = some (v, rng') →
        v < range ∧ ∃ n ≤ fuel, FirstAccepted range rng n ∧ v = resultOf range (rng.word n) ∧
          rng' = rng.after (n + 1)) ∧
    ∀ low high : UInt64, low ≤ high →
      (∀ fuel rng, ∀ n ≤ fuel, (high - low + 1 ≠ 0 → FirstAccepted (high - low + 1) rng n) →
        randomNumber fuel low high rng =
          if high - low + 1 = 0 then some (low, rng)
          else some (low + resultOf (high - low + 1) (rng.word n), rng.after (n + 1))) ∧
      ∀ fuel rng v rng', randomNumber fuel low high rng = some (v, rng') → low ≤ v ∧ v ≤ high := by
  refine ⟨fun range hpos => ⟨fun _ => accepted_iff hpos, fun _ hk => card_results hpos hk,
    fun _ _ _ hn hfirst => boundedRandom_first hpos hn hfirst, fun fuel rng v rng' h => ?_⟩,
    fun low high hle => ⟨fun _ _ _ hn hfirst => randomNumber_first low high hn hfirst,
      fun _ _ _ _ h => randomNumber_range hle h⟩⟩
  obtain ⟨n, hn, haccepted, hv, hrng, hbefore⟩ := boundedRandom_eq hpos h
  exact ⟨boundedRandom_lt hpos h, n, hn, ⟨haccepted, hbefore⟩, hv, hrng⟩

/-- A draw from 10 to 15 whose first word is accepted. -/
theorem boundedRandom_unbiased_six :
    boundedRandom 3 6 ⟨1⟩ = some (1, ⟨33554433⟩) ∧
      randomNumber 3 10 15 ⟨1⟩ = some (11, ⟨33554433⟩) := by
  have hfirst : FirstAccepted 6 ⟨1⟩ 0 := ⟨by decide, fun i hi => absurd hi (Nat.not_lt_zero i)⟩
  obtain ⟨-, -, hreturns, -⟩ := boundedRandom_unbiased.1 6 (by decide)
  obtain ⟨hnumber, -⟩ := boundedRandom_unbiased.2 10 15 (by decide)
  exact ⟨hreturns 3 ⟨1⟩ 0 (by decide) hfirst, hnumber 3 ⟨1⟩ 0 (by decide) fun _ => hfirst⟩

end Tpcc.Rng
