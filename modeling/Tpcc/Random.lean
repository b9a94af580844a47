import Tpcc.Transaction.Tasks

/-! The random ids and names of `util.h`.  The results of `RandomNumber` are arguments. -/

namespace Tpcc

open Transaction

/-- `NonUniformRandom(A, C, min, max)` with its two draws. -/
def nonUniformRandom {A low high : Nat} (C : Nat) (randomNum : Draw 0 A)
    (randomNum2 : Draw low high) : Nat :=
  ((randomNum.val ||| randomNum2.val) + C) % (high - low + 1) + low

def cIdC : Nat := 259

def olIIdC : Nat := 7911

def cLastLoadC : Nat := 157

def cLastRunC : Nat := 223

def getRandomCustomerID (randomNum : Draw 0 1023) (randomNum2 : Draw 1 customersPerDistrict) :
    Nat := nonUniformRandom cIdC randomNum randomNum2

def getRandomItemID (randomNum : Draw 0 8191) (randomNum2 : Draw 1 itemCount) : Nat :=
  nonUniformRandom olIIdC randomNum randomNum2

def nameTokens : List String :=
  ["BAR", "OUGHT", "ABLE", "PRI", "PRES", "ESE", "ANTI", "CALLY", "ATION", "EING"]

/-- `GetLastName`; `none` is a read behind the end of `NameTokens`. -/
def getLastName (num : Nat) : Option String := do
  let first ← nameTokens[num / 100]?
  let second ← nameTokens[num / 10 % 10]?
  let third ← nameTokens[num % 10]?
  return first ++ second ++ third

def getNonUniformRandomLastNameForRun (randomNum : Draw 0 255) (randomNum2 : Draw 0 999) :
    Option String := getLastName (nonUniformRandom cLastRunC randomNum randomNum2)

def getNonUniformRandomLastNameForLoad (randomNum : Draw 0 255) (randomNum2 : Draw 0 999) :
    Option String := getLastName (nonUniformRandom cLastLoadC randomNum randomNum2)

theorem nonUniformRandom_range {A low high C : Nat} (randomNum : Draw 0 A)
    (randomNum2 : Draw low high) :
    low ≤ nonUniformRandom C randomNum randomNum2 ∧
      nonUniformRandom C randomNum randomNum2 ≤ high := by
  have hlow := randomNum2.property
  have hmod : ((randomNum.val ||| randomNum2.val) + C) % (high - low + 1) < high - low + 1 :=
    Nat.mod_lt _ (Nat.succ_pos _)
  simp only [nonUniformRandom]
  omega

/-- Every index below 1000 has a name. -/
theorem getLastName_isSome {num : Nat} (h : num < 1000) : ∃ name, getLastName num = some name := by
  have htoken : ∀ i < 10, ∃ token, nameTokens[i]? = some token := by
    intro i hi
    exact ⟨_, List.getElem?_eq_getElem hi⟩
  obtain ⟨first, hfirst⟩ := htoken (num / 100) (by omega)
  obtain ⟨second, hsecond⟩ := htoken (num / 10 % 10) (by omega)
  obtain ⟨third, hthird⟩ := htoken (num % 10) (by omega)
  exact ⟨first ++ second ++ third, by simp [getLastName, hfirst, hsecond, hthird]⟩

end Tpcc
