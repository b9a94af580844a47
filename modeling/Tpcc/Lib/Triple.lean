import Mathlib.Data.List.Basic

/-! Pre- and postconditions for programs that keep their state when they throw. -/

namespace Tpcc.Lib

variable {ε σ α β : Type}

theorem tryCatch_of_ok {m : EStateM ε σ α} {g : ε → EStateM ε σ α} {s t : σ} {a : α}
    (h : m s = .ok a t) : (tryCatch m g : EStateM ε σ α) s = .ok a t := by
  simp [tryCatch, tryCatchThe, MonadExceptOf.tryCatch, EStateM.tryCatch, h]

theorem tryCatch_of_error {m : EStateM ε σ α} {g : ε → EStateM ε σ α} {s t : σ} {e : ε}
    (h : m s = .error e t) : (tryCatch m g : EStateM ε σ α) s = g e t := by
  simp [tryCatch, tryCatchThe, MonadExceptOf.tryCatch, EStateM.tryCatch, h,
    EStateM.Backtrackable.restore, EStateM.dummyRestore]

theorem bind_of_ok {m : EStateM ε σ α} {f : α → EStateM ε σ β} {s t : σ} {a : α}
    (h : m s = .ok a t) : (m >>= f) s = f a t := by
  change (match m s with | .ok a t => f a t | .error e t => .error e t) = f a t
  rw [h]

theorem bind_of_error {m : EStateM ε σ α} {f : α → EStateM ε σ β} {s t : σ} {e : ε}
    (h : m s = .error e t) : (m >>= f) s = .error e t := by
  change (match m s with | .ok a t => f a t | .error e t => .error e t) = .error e t
  rw [h]

/-- A loop whose body takes the state for some elements to the state for one more. -/
theorem forM_of_append {f : List α → σ} {body : α → EStateM ε σ PUnit}
    (h : ∀ done a, body a (f done) = .ok ⟨⟩ (f (done ++ [a]))) (done l : List α) :
    (l.forM body) (f done) = .ok ⟨⟩ (f (done ++ l)) := by
  induction l generalizing done with
  | nil =>
    rw [List.append_nil]
    rfl
  | cons a l ih =>
    refine (bind_of_ok (h done a)).trans ((ih (done ++ [a])).trans ?_)
    rw [List.append_assoc]
    rfl

/-- From a state of `P`, the program returns in `Q` or throws in `E`. -/
def Triple (P : σ → Prop) (m : EStateM ε σ α) (Q : α → σ → Prop) (E : ε → σ → Prop) : Prop :=
  ∀ s, P s →
    match m s with
    | .ok a t => Q a t
    | .error e t => E e t

namespace Triple

variable {P P' : σ → Prop} {Q Q' : α → σ → Prop} {R : β → σ → Prop} {E E' F : ε → σ → Prop}
  {m : EStateM ε σ α} {f : α → EStateM ε σ β} {g : ε → EStateM ε σ α}

/-- What a triple says of a run that returns. -/
theorem of_ok (h : Triple P m Q E) {s t : σ} {a : α} (hs : P s) (hrun : m s = .ok a t) :
    Q a t := by
  have hm := h s hs
  simpa only [hrun] using hm

/-- What a triple says of a run that throws. -/
theorem of_error (h : Triple P m Q E) {s t : σ} {e : ε} (hs : P s) (hrun : m s = .error e t) :
    E e t := by
  have hm := h s hs
  simpa only [hrun] using hm

theorem intro (hok : ∀ s a t, P s → m s = .ok a t → Q a t)
    (herror : ∀ s e t, P s → m s = .error e t → E e t) : Triple P m Q E := by
  intro s hs
  cases hrun : m s with
  | ok a t => exact hok s a t hs hrun
  | error e t => exact herror s e t hs hrun

theorem conseq (h : Triple P m Q E) (hP : ∀ s, P' s → P s) (hQ : ∀ a s, Q a s → Q' a s)
    (hE : ∀ e s, E e s → E' e s) : Triple P' m Q' E' :=
  intro (fun s a t hs hrun => hQ a t (h.of_ok (hP s hs) hrun))
    (fun s e t hs hrun => hE e t (h.of_error (hP s hs) hrun))

theorem of_pure {a : α} (h : ∀ s, P s → Q a s) : Triple P (pure a : EStateM ε σ α) Q E := h

theorem of_throw {e : ε} (h : ∀ s, P s → E e s) : Triple P (throw e : EStateM ε σ α) Q E := h

theorem of_get {Q : σ → σ → Prop} (h : ∀ s, P s → Q s s) :
    Triple P (get : EStateM ε σ σ) Q E := h

theorem of_modify {update : σ → σ} {Q : PUnit → σ → Prop} (h : ∀ s, P s → Q ⟨⟩ (update s)) :
    Triple P (modify update : EStateM ε σ PUnit) Q E := h

theorem of_bind (hm : Triple P m Q E) (hf : ∀ a, Triple (Q a) (f a) R E) :
    Triple P (m >>= f) R E := by
  intro s hs
  cases hrun : m s with
  | ok a t => simpa only [bind_of_ok hrun] using hf a t (hm.of_ok hs hrun)
  | error e t => simpa only [bind_of_error hrun] using hm.of_error hs hrun

theorem of_tryCatch (hm : Triple P m Q E) (hg : ∀ e, Triple (E e) (g e) Q F) :
    Triple P (tryCatch m g) Q F := by
  intro s hs
  cases hrun : m s with
  | ok a t => simpa only [tryCatch_of_ok hrun] using hm.of_ok hs hrun
  | error e t => simpa only [tryCatch_of_error hrun] using hg e t (hm.of_error hs hrun)

theorem of_ite {c : Prop} [Decidable c] {m' : EStateM ε σ α} (hthen : c → Triple P m Q E)
    (helse : ¬c → Triple P m' Q E) : Triple P (if c then m else m') Q E := by
  split
  · next h => exact hthen h
  · next h => exact helse h

end Triple

end Tpcc.Lib
