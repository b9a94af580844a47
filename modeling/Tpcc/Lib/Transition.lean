import Mathlib.Data.List.Basic

/-! Labelled transition systems: runs with the labels of their steps, and the rules that carry an
invariant or a simulation along a run. -/

namespace Tpcc.Lib

/-- Initial states and a step relation whose labels say what a step did. -/
structure Lts (σ ε : Type) where
  init : σ → Prop
  step : σ → ε → σ → Prop

namespace Lts

variable {σ ε : Type} {L : Lts σ ε}

/-- A finite run, with the labels of its steps in order. -/
inductive Run (L : Lts σ ε) : σ → List ε → σ → Prop
  | nil (s : σ) : Run L s [] s
  | snoc {s t u : σ} {labels : List ε} {e : ε} :
      Run L s labels t → L.step t e u → Run L s (labels ++ [e]) u

/-- What one step preserves, a run preserves. -/
theorem Run.preserves {I : σ → Prop} (hstep : ∀ s e t, I s → L.step s e t → I t) {s t : σ}
    {labels : List ε} (hrun : L.Run s labels t) (hs : I s) : I t := by
  induction hrun with
  | nil => exact hs
  | snoc _ hlast ih => exact hstep _ _ _ ih hlast

/-- A relation that every step keeps, with the same label, turns runs into runs. -/
theorem Run.simulated {τ : Type} {M : Lts τ ε} {R : σ → τ → Prop}
    (hsim : ∀ s a e t, R s a → L.step s e t → ∃ b, M.step a e b ∧ R t b) {s t : σ} {a : τ}
    {labels : List ε} (hrun : L.Run s labels t) (hR : R s a) :
    ∃ b, M.Run a labels b ∧ R t b := by
  induction hrun with
  | nil => exact ⟨a, .nil a, hR⟩
  | snoc _ hlast ih =>
    obtain ⟨b, hb, hRb⟩ := ih
    obtain ⟨c, hc, hRc⟩ := hsim _ _ _ _ hRb hlast
    exact ⟨c, hb.snoc hc, hRc⟩

/-- The runs whose steps all meet a condition on the state before the step and its label. -/
def guard (L : Lts σ ε) (G : σ → ε → Prop) : Lts σ ε where
  init := L.init
  step s e t := L.step s e t ∧ G s e

theorem Run.cons {s t u : σ} {e : ε} {labels : List ε} (hfirst : L.step s e t)
    (hrun : L.Run t labels u) : L.Run s (e :: labels) u := by
  induction hrun with
  | nil => exact (Run.nil s).snoc hfirst
  | snoc _ hlast ih => exact ih.snoc hlast

theorem Run.append {s t u : σ} {labels labels' : List ε} (hrun : L.Run s labels t)
    (hrest : L.Run t labels' u) : L.Run s (labels ++ labels') u := by
  induction hrest with
  | nil => rwa [List.append_nil]
  | snoc _ hlast ih =>
    rw [← List.append_assoc]
    exact ih.snoc hlast

section Executable

variable {κ : Type}

/-- The system of a step function: an action picks one of the steps that a state allows. -/
def ofStep (init : σ → Prop) (step : σ → κ → Option (ε × σ)) : Lts σ ε where
  init := init
  step s e t := ∃ action, step s action = some (e, t)

/-- The labels and the last state of a list of actions. -/
def exec (step : σ → κ → Option (ε × σ)) : σ → List κ → Option (List ε × σ)
  | s, [] => some ([], s)
  | s, action :: actions =>
    match step s action with
    | none => none
    | some (e, t) => (exec step t actions).map fun (labels, u) => (e :: labels, u)

theorem run_of_exec {init : σ → Prop} {step : σ → κ → Option (ε × σ)} {s t : σ}
    {actions : List κ} {labels : List ε} (h : exec step s actions = some (labels, t)) :
    (ofStep init step).Run s labels t := by
  induction actions generalizing s labels with
  | nil =>
    obtain ⟨rfl, rfl⟩ : [] = labels ∧ s = t := by simpa [exec] using h
    exact .nil s
  | cons action actions ih =>
    rw [exec] at h
    split at h
    · cases h
    · next e u hfirst =>
      obtain ⟨⟨rest, v⟩, hrest, heq⟩ := Option.map_eq_some_iff.1 h
      obtain ⟨rfl, rfl⟩ : e :: rest = labels ∧ v = t := by simpa using heq
      exact Run.cons ⟨action, hfirst⟩ (ih hrest)

/-- The system of a step function whose actions are the labels. -/
def ofAction (init : σ → Prop) (step : σ → κ → Option σ) : Lts σ κ where
  init := init
  step s action t := step s action = some t

theorem run_of_foldlM {init : σ → Prop} {step : σ → κ → Option σ} {s t : σ} {actions : List κ}
    (h : actions.foldlM step s = some t) : (ofAction init step).Run s actions t := by
  induction actions generalizing s with
  | nil =>
    obtain rfl : s = t := by simpa using h
    exact .nil s
  | cons action actions ih =>
    rw [List.foldlM_cons] at h
    obtain ⟨u, hfirst, hrest⟩ := Option.bind_eq_some_iff.1 h
    exact Run.cons hfirst (ih hrest)

theorem run_guard_of_foldlM {init : σ → Prop} {step : σ → κ → Option σ} {G : σ → κ → Prop}
    [∀ s a, Decidable (G s a)] {s t : σ} {actions : List κ}
    (h : actions.foldlM (fun s a => if G s a then step s a else none) s = some t) :
    ((ofAction init step).guard G).Run s actions t := by
  induction actions generalizing s with
  | nil =>
    obtain rfl : s = t := by simpa using h
    exact .nil s
  | cons action actions ih =>
    rw [List.foldlM_cons] at h
    obtain ⟨u, hfirst, hrest⟩ := Option.bind_eq_some_iff.1 h
    split at hfirst
    · next hguard => exact Run.cons ⟨hfirst, hguard⟩ (ih hrest)
    · cases hfirst

end Executable

end Lts

end Tpcc.Lib
