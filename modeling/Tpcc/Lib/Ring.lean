import Mathlib.Data.List.Rotate
import Mathlib.Data.Nat.ModEq

/-! A list as a ring: positions counted from a start `c`, modulo the length, are the positions of
the list rotated by `c`. -/

namespace Tpcc.Lib

variable {α : Type}

/-- The element at position `i` from the start. -/
theorem ring_getElem? {l pre post : List α} {c : Nat} {a : α}
    (h : l.rotate c = pre ++ a :: post) : l[(pre.length + c) % l.length]? = some a := by
  have hlen : pre.length < l.length := by
    rw [← List.length_rotate (l := l) (n := c), h]
    simp
  rw [← List.getElem?_rotate hlen, h]
  simp

theorem ring_set {l : List α} {c i : Nat} {a : α} (hi : i < l.length) :
    (l.set ((i + c) % l.length) a).rotate c = (l.rotate c).set i a := by
  apply List.ext_getElem?
  intro k
  by_cases hk : k < l.length
  · rw [List.getElem?_rotate (by simpa using hk), List.length_set]
    simp only [List.getElem?_set, List.length_rotate]
    by_cases hik : i = k
    · subst hik
      simp [Nat.mod_lt _ (show 0 < l.length by omega), hi]
    · have hne : (i + c) % l.length ≠ (k + c) % l.length := by
        intro he
        have hmod : Nat.ModEq l.length i k := Nat.ModEq.add_right_cancel' c he
        exact hik (Nat.ModEq.eq_of_lt_of_lt hmod hi hk)
      simp only [hne, hik, if_false]
      rw [List.getElem?_rotate hk]
  · rw [List.getElem?_eq_none (by simp; omega), List.getElem?_eq_none (by simp; omega)]

/-- Replacing the element at position `pre.length` from the start. -/
theorem ring_set_append {l pre post : List α} {c : Nat} {a b : α}
    (h : l.rotate c = pre ++ a :: post) :
    (l.set ((pre.length + c) % l.length) b).rotate c = pre ++ b :: post := by
  have hlen : pre.length < l.length := by
    rw [← List.length_rotate (l := l) (n := c), h]
    simp
  rw [ring_set hlen, h]
  simp

/-- Moving the start to the next position moves the first element to the end. -/
theorem ring_succ {l xs : List α} {c : Nat} {x : α} (h : l.rotate c = x :: xs) :
    l.rotate ((c + 1) % l.length) = xs ++ [x] := by
  rw [List.rotate_mod, ← List.rotate_rotate, h]
  simp

/-- A new element takes the place of the first, and the next position becomes the start. -/
theorem ring_push {l xs : List α} {c : Nat} {x a : α} (hc : c < l.length)
    (h : l.rotate c = x :: xs) : (l.set c a).rotate ((c + 1) % l.length) = xs ++ [a] := by
  have hset := @ring_set_append _ l [] xs c x a h
  rw [List.length_nil, Nat.zero_add, Nat.mod_eq_of_lt hc, List.nil_append] at hset
  have hsucc := ring_succ hset
  rwa [List.length_set] at hsucc

/-- A list that is cut off behind the start, and filled up, keeps its first element; the others are
old elements or new ones. -/
theorem ring_take_append {l xs : List α} {c m : Nat} {x : α} (hc : c < l.length) (hm : c < m)
    (h : l.rotate c = x :: xs) (fill : List α) :
    ∃ ys, (l.take m ++ fill).rotate c = x :: ys ∧ ∀ y ∈ ys, y ∈ xs ∨ y ∈ fill := by
  rw [List.rotate_eq_drop_append_take hc.le, List.drop_eq_getElem_cons hc, List.cons_append,
    List.cons.injEq] at h
  obtain ⟨rfl, rfl⟩ := h
  have hlen : c < (l.take m).length := by
    rw [List.length_take]
    omega
  have hbehind : (l.take m).drop c = l[c] :: (l.drop (c + 1)).take (m - (c + 1)) := by
    rw [List.drop_take, List.drop_eq_getElem_cons hc, show m - c = m - (c + 1) + 1 by omega,
      List.take_succ_cons]
  have hbefore : (l.take m).take c = l.take c := by rw [List.take_take, Nat.min_eq_left hm.le]
  refine ⟨(l.drop (c + 1)).take (m - (c + 1)) ++ fill ++ l.take c, ?_, fun y hy => ?_⟩
  · rw [List.rotate_eq_drop_append_take (by rw [List.length_append]; omega),
      List.drop_append_of_le_length hlen.le, List.take_append_of_le_length hlen.le, hbehind,
      hbefore]
    rfl
  · rcases List.mem_append.mp hy with hy | hy
    · rcases List.mem_append.mp hy with hy | hy
      · exact .inl (List.mem_append_left _ (List.mem_of_mem_take hy))
      · exact .inr hy
    · exact .inl (List.mem_append_right _ hy)

end Tpcc.Lib
