import Mathlib

/-!
# Runs of a labelled transition system

A `Run step s es t` leads from `s` to `t` through the steps labelled `es`, oldest first. A run
grows at its end, so that an invariant is proved by looking at the last step only.

* `Run.invariant`: what every step keeps, every run keeps.
* `Run.invariant_history`: the same for an invariant that also speaks about the labels
  seen so far.
* `Party`: the two sides of a system of two parties.
-/

namespace SignalGo

variable {σ ε : Type} {step : σ → ε → σ → Prop}

inductive Run (step : σ → ε → σ → Prop) (s : σ) : List ε → σ → Prop where
  | nil : Run step s [] s
  | snoc {t u : σ} {es : List ε} {e : ε} :
      Run step s es t → step t e u → Run step s (es ++ [e]) u

namespace Run

theorem single {s t : σ} {e : ε} (h : step s e t) : Run step s [e] t :=
  Run.nil.snoc h

theorem trans {s t u : σ} {es es' : List ε} (h : Run step s es t) (h' : Run step t es' u) :
    Run step s (es ++ es') u := by
  induction h' with
  | nil => simpa using h
  | snoc _ hstep ih =>
    rw [← List.append_assoc]
    exact ih.snoc hstep

theorem invariant {I : σ → Prop} (hstep : ∀ {s e t}, I s → step s e t → I t)
    {s t : σ} {es : List ε} (h : Run step s es t) (h0 : I s) : I t := by
  induction h with
  | nil => exact h0
  | snoc _ hs ih => exact hstep ih hs

theorem invariant_history {I : List ε → σ → Prop}
    (hstep : ∀ {es s e t}, I es s → step s e t → I (es ++ [e]) t)
    {s t : σ} {es : List ε} (h : Run step s es t) (h0 : I [] s) : I es t := by
  induction h with
  | nil => exact h0
  | snoc _ hs ih => exact hstep ih hs

end Run

/-! ## Two parties -/

inductive Party where
  | initiator
  | responder
  deriving DecidableEq

def Party.other : Party → Party
  | .initiator => .responder
  | .responder => .initiator

@[simp] theorem Party.other_other (x : Party) : x.other.other = x := by
  cases x <;> rfl

theorem Party.other_ne (x : Party) : x.other ≠ x := by
  cases x <;> decide

theorem Party.eq_or_other (x y : Party) : y = x ∨ y = x.other := by
  cases x <;> cases y <;> decide

end SignalGo
