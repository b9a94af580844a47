import Mathlib.Data.List.Range
import Mathlib.Data.List.TakeDrop
import Mathlib.Logic.Function.Basic

/-! Lists in which every element comes after those that it needs, and the lists of several threads
as one. -/

namespace Tpcc.Lib

section Ordered

variable {α β : Type} {needs : α → List α} {placed placed' l l' : List α}

/-- What an element of the list needs is in `placed` or stands before it. -/
def Ordered (needs : α → List α) : List α → List α → Prop
  | _, [] => True
  | placed, a :: rest => (∀ b ∈ needs a, b ∈ placed) ∧ Ordered needs (placed ++ [a]) rest

namespace Ordered

theorem mono (hsub : ∀ b ∈ placed, b ∈ placed') (h : Ordered needs placed l) :
    Ordered needs placed' l := by
  induction l generalizing placed placed' with
  | nil => trivial
  | cons a rest ih =>
    refine ⟨fun b hb => hsub b (h.1 b hb), ih (fun b hb => ?_) h.2⟩
    rw [List.mem_append] at hb ⊢
    exact hb.imp_left (hsub b)

theorem append (h : Ordered needs placed l) (h' : Ordered needs (placed ++ l) l') :
    Ordered needs placed (l ++ l') := by
  induction l generalizing placed with
  | nil => rwa [List.append_nil] at h'
  | cons a rest ih =>
    refine ⟨h.1, ih h.2 ?_⟩
    rwa [List.append_assoc, List.singleton_append]

theorem flatMap {blocks : List β} {f : β → List α}
    (h : ∀ b ∈ blocks, Ordered needs placed (f b)) : Ordered needs placed (blocks.flatMap f) := by
  induction blocks with
  | nil => trivial
  | cons b blocks ih =>
    obtain ⟨hfirst, hrest⟩ := List.forall_mem_cons.1 h
    rw [List.flatMap_cons]
    exact hfirst.append ((ih hrest).mono fun _ => List.mem_append_left _)

/-- What the element at a position needs is in `placed` or among those before the position. -/
theorem needs_getElem? {n : Nat} {a : α} (h : Ordered needs placed l) (ha : l[n]? = some a) :
    ∀ b ∈ needs a, b ∈ placed ++ l.take n := by
  induction l generalizing placed n with
  | nil => cases ha
  | cons b rest ih =>
    cases n with
    | zero =>
      obtain rfl := Option.some.inj ha
      exact fun b hb => List.mem_append_left _ (h.1 b hb)
    | succ n =>
      have hrest := ih h.2 ha
      rwa [List.append_assoc, List.singleton_append] at hrest

end Ordered

end Ordered

section Threads

variable {α ι : Type}

/-- One more element of one of several lists. -/
theorem flatMap_push_perm {ids : List ι} {f g : ι → List α} (id : ι) {a : α} (hmem : id ∈ ids)
    (hnodup : ids.Nodup) (hpush : g id = f id ++ [a]) (hother : ∀ j, j ≠ id → g j = f j) :
    (ids.flatMap g).Perm (ids.flatMap f ++ [a]) := by
  induction ids with
  | nil => cases hmem
  | cons j ids ih =>
    obtain ⟨hfresh, hnodup⟩ := List.nodup_cons.1 hnodup
    rw [List.flatMap_cons, List.flatMap_cons]
    by_cases hj : id = j
    · subst hj
      have hsame : ids.flatMap g = ids.flatMap f :=
        List.flatMap_congr fun k hk => hother k fun heq => hfresh (heq ▸ hk)
      rw [hsame, hpush, List.append_assoc, List.append_assoc]
      exact List.Perm.append_left _ List.perm_append_comm
    · have hmem : id ∈ ids := (List.mem_cons.1 hmem).resolve_left hj
      rw [hother j (Ne.symm hj), List.append_assoc]
      exact List.Perm.append_left _ (ih hmem hnodup)

end Threads

end Tpcc.Lib
