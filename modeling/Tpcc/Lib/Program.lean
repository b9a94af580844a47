import Tpcc.Lib.Triple

/-! Programs that make requests and go on with the replies.  A handler that answers the requests over
a state runs them, and `wp` says what a run that does not throw ends with. -/

namespace Tpcc.Lib

/-- A program that makes requests, each with its own type of reply, and ends with a value or an
exception. -/
inductive Program {ρ : Type} (Reply : ρ → Type) (ε α : Type)
  | pure (a : α)
  | throw (e : ε)
  | request (r : ρ) (next : Reply r → Program Reply ε α)

namespace Program

variable {ρ : Type} {Reply : ρ → Type} {ε σ α β : Type}

def bind : Program Reply ε α → (α → Program Reply ε β) → Program Reply ε β
  | .pure a, f => f a
  | .throw e, _ => .throw e
  | .request r next, f => .request r fun a => (next a).bind f

instance : Monad (Program Reply ε) where
  pure := .pure
  bind := .bind

/-- One request, whose reply is the result. -/
def ask (r : ρ) : Program Reply ε (Reply r) := .request r .pure

@[simp] theorem pure_bind (a : α) (f : α → Program Reply ε β) :
    ((Pure.pure a : Program Reply ε α) >>= f) = f a := rfl

@[simp] theorem throw_bind (e : ε) (f : α → Program Reply ε β) :
    ((.throw e : Program Reply ε α) >>= f) = .throw e := rfl

@[simp] theorem ask_bind (r : ρ) (f : Reply r → Program Reply ε β) :
    ((ask r : Program Reply ε (Reply r)) >>= f) = .request r f := rfl

@[simp] theorem request_bind (r : ρ) (next : Reply r → Program Reply ε α)
    (f : α → Program Reply ε β) :
    ((.request r next : Program Reply ε α) >>= f) = .request r fun a => next a >>= f := rfl

theorem bind_assoc {γ : Type} (p : Program Reply ε α) (f : α → Program Reply ε β)
    (g : β → Program Reply ε γ) : (p >>= f) >>= g = p >>= fun a => f a >>= g := by
  induction p with
  | pure a => rfl
  | throw e => rfl
  | request r next ih =>
    simp only [request_bind]
    congr 1
    funext a
    exact ih a

/-- Runs a program, with a handler for its requests. -/
def run (handler : (r : ρ) → EStateM ε σ (Reply r)) : Program Reply ε α → EStateM ε σ α
  | .pure a => Pure.pure a
  | .throw e => MonadExcept.throw e
  | .request r next => handler r >>= fun a => (next a).run handler

/-- What holds after every run that does not throw, where `spec` says it of each request. -/
def wp (spec : (r : ρ) → (Reply r → σ → Prop) → σ → Prop) (post : α → σ → Prop) :
    Program Reply ε α → σ → Prop
  | .pure a, s => post a s
  | .throw _, _ => True
  | .request r next, s => spec r (fun a => (next a).wp spec post) s

section Wp

variable {spec : (r : ρ) → (Reply r → σ → Prop) → σ → Prop} {post post' : α → σ → Prop}

@[simp] theorem wp_pure (a : α) (s : σ) :
    wp spec post (Pure.pure a : Program Reply ε α) s ↔ post a s := Iff.rfl

@[simp] theorem wp_throw (e : ε) (s : σ) :
    wp spec post (.throw e : Program Reply ε α) s ↔ True := Iff.rfl

@[simp] theorem wp_request (r : ρ) (next : Reply r → Program Reply ε α) (s : σ) :
    wp spec post (.request r next) s ↔ spec r (fun a => (next a).wp spec post) s := Iff.rfl

theorem wp_mono
    (hspec : ∀ r (Q Q' : Reply r → σ → Prop), (∀ a s, Q a s → Q' a s) → ∀ s, spec r Q s → spec r Q' s)
    (h : ∀ a s, post a s → post' a s) {p : Program Reply ε α} {s : σ} (hp : p.wp spec post s) :
    p.wp spec post' s := by
  induction p generalizing s with
  | pure a => exact h a s hp
  | throw e => trivial
  | request r next ih => exact hspec r _ _ (fun a t ha => ih a ha) s hp

/-- The rule of composition. -/
theorem wp_bind
    (hspec : ∀ r (Q Q' : Reply r → σ → Prop), (∀ a s, Q a s → Q' a s) → ∀ s, spec r Q s → spec r Q' s)
    {post : β → σ → Prop} {p : Program Reply ε α} {f : α → Program Reply ε β} {s : σ}
    (hp : p.wp spec (fun a => (f a).wp spec post) s) : (p >>= f).wp spec post s := by
  induction p generalizing s with
  | pure a => exact hp
  | throw e => trivial
  | request r next ih => exact hspec r _ _ (fun a t ha => ih a ha) s hp

end Wp

end Program

end Tpcc.Lib
