import Mathlib

/-!
# Programs that change a state and can fail

`EStateM ε σ` is a state monad with errors in which an error keeps the changes made before it, as
a Go function does that returns early after it wrote to a store. The lemmas invert a program at
its binds: what it returned says which of its parts ran, and from which state.
-/

namespace SignalGo.Effect

variable {ε ε' σ α β γ : Type} {x : EStateM ε σ α} {f : α → EStateM ε σ β} {s s' s'' : σ} {a : α}
  {b : β} {e : ε} {e' : ε'}

/-- A computation that does not touch the state. -/
def lift (x : Except ε α) : EStateM ε σ α := fun s =>
  match x with
  | .ok a => .ok a s
  | .error e => .error e s

/-- A look at the state. -/
def reads (f : σ → α) : EStateM ε σ α := fun s => .ok (f s) s

/-- A write. -/
def update (f : σ → σ) : EStateM ε σ Unit := fun s => .ok () (f s)

def fail (e : ε) : EStateM ε σ α := fun s => .error e s

@[simp] theorem pure_apply : (pure a : EStateM ε σ α) s = .ok a s := rfl

@[simp] theorem fail_apply : (fail e : EStateM ε σ α) s = .error e s := rfl

@[simp] theorem reads_apply (f : σ → α) : (reads f : EStateM ε σ α) s = .ok (f s) s := rfl

@[simp] theorem update_apply (f : σ → σ) : (update f : EStateM ε σ Unit) s = .ok () (f s) := rfl

@[simp] theorem lift_ok : (lift (.ok a) : EStateM ε σ α) s = .ok a s := rfl

@[simp] theorem lift_error : (lift (.error e) : EStateM ε σ α) s = .error e s := rfl

/-- A part that returns is followed by the rest. -/
theorem bind_of_ok (h : x s = .ok a s') : (x >>= f) s = f a s' := by
  show EStateM.bind x f s = _
  rw [EStateM.bind, h]

/-- A part that fails is the end. -/
theorem bind_of_error (h : x s = .error e s') : (x >>= f) s = .error e s' := by
  show EStateM.bind x f s = _
  rw [EStateM.bind, h]

/-- A program returns exactly if both of its parts do. -/
theorem bind_eq_ok :
    (x >>= f) s = .ok b s'' ↔ ∃ a s', x s = .ok a s' ∧ f a s' = .ok b s'' := by
  cases h : x s with
  | ok a s' =>
    rw [bind_of_ok h]
    exact ⟨fun hf => ⟨a, s', rfl, hf⟩, fun ⟨_, _, heq, hf⟩ => by cases heq; exact hf⟩
  | error e s' =>
    rw [bind_of_error h]
    exact ⟨nofun, fun ⟨_, _, heq, _⟩ => nomatch heq⟩

/-- It fails in its first part, or behind it. -/
theorem bind_eq_error :
    (x >>= f) s = .error e s'' ↔
      x s = .error e s'' ∨ ∃ a s', x s = .ok a s' ∧ f a s' = .error e s'' := by
  cases h : x s with
  | ok a s' =>
    rw [bind_of_ok h]
    constructor
    · exact fun hf => .inr ⟨a, s', rfl, hf⟩
    · rintro (heq | ⟨_, _, heq, hf⟩)
      · cases heq
      · cases heq
        exact hf
  | error e' s' =>
    rw [bind_of_error h]
    constructor
    · intro heq
      cases heq
      exact .inl rfl
    · rintro (heq | ⟨_, _, heq, -⟩)
      · cases heq
        rfl
      · cases heq

theorem lift_eq_ok {v : Except ε α} :
    (lift v : EStateM ε σ α) s = .ok a s' ↔ v = .ok a ∧ s' = s := by
  cases v with
  | ok b => simp [eq_comm]
  | error e => simp

theorem lift_eq_error {v : Except ε α} :
    (lift v : EStateM ε σ α) s = .error e s' ↔ v = .error e ∧ s' = s := by
  cases v with
  | ok b => simp
  | error e => simp [eq_comm]

@[simp] theorem adaptExcept_eq_ok {g : ε → ε'} :
    EStateM.adaptExcept g x s = .ok a s' ↔ x s = .ok a s' := by
  unfold EStateM.adaptExcept
  cases x s <;> simp

theorem adaptExcept_eq_error {g : ε → ε'} :
    EStateM.adaptExcept g x s = .error e' s' ↔ ∃ e, x s = .error e s' ∧ g e = e' := by
  unfold EStateM.adaptExcept
  cases x s <;> simp [and_comm]

/-! ## What a program computes -/

/-- The program is the function `v` of its first state: it returns with the new state, or fails
with the same error. The state behind a failure is left open. -/
def Computes (x : EStateM ε σ α) (s : σ) (v : Except ε (σ × α)) : Prop :=
  (∀ a s', v = .ok (s', a) → x s = .ok a s') ∧ ∀ e, v = .error e → ∃ t, x s = .error e t

namespace Computes

theorem pure (a : α) (s : σ) : Computes (Pure.pure a : EStateM ε σ α) s (.ok (s, a)) :=
  ⟨fun _ _ h => by cases h; rfl, nofun⟩

theorem fail (e : ε) (s : σ) : Computes (Effect.fail e : EStateM ε σ α) s (.error e) :=
  ⟨nofun, fun _ h => by cases h; exact ⟨s, rfl⟩⟩

/-- A part that only changes the state, and what follows it. -/
theorem seq {x : EStateM ε σ Unit} {f : Unit → EStateM ε σ β} {v : Except ε σ}
    {w : σ → Except ε (σ × β)} (hx : Computes x s (v >>= fun t => .ok (t, ())))
    (hf : ∀ t, Computes (f ()) t (w t)) : Computes (x >>= f) s (v >>= w) := by
  cases v with
  | error e =>
    obtain ⟨t, ht⟩ := hx.2 e rfl
    exact ⟨nofun, fun e' h => by cases h; exact ⟨t, bind_of_error ht⟩⟩
  | ok t =>
    have hok := hx.1 () t rfl
    refine ⟨fun b s'' h => ?_, fun e h => ?_⟩
    · rw [bind_of_ok hok]
      exact (hf t).1 b s'' h
    · rw [bind_of_ok hok]
      exact (hf t).2 e h

theorem reads_bind {g : σ → γ} {f : γ → EStateM ε σ β} {w : Except ε (σ × β)}
    (h : Computes (f (g s)) s w) : Computes (reads g >>= f) s w := h

theorem update_bind {u : σ → σ} {f : Unit → EStateM ε σ β} {w : Except ε (σ × β)}
    (h : Computes (f ()) (u s) w) : Computes (update u >>= f) s w := h

theorem lift_bind {v : Except ε γ} {f : γ → EStateM ε σ β} {w : γ → Except ε (σ × β)}
    (h : ∀ c, v = .ok c → Computes (f c) s (w c)) : Computes (lift v >>= f) s (v >>= w) := by
  cases v with
  | ok c => exact h c rfl
  | error e => exact fail e s

end Computes

/-! ## What a program leaves alone -/

/-- The state a program ends in, whether it returns or fails. -/
def after (x : EStateM ε σ α) (s : σ) : σ :=
  match x s with
  | .ok _ s' => s'
  | .error _ s' => s'

theorem after_of_ok (h : x s = .ok a s') : after x s = s' := by rw [after, h]

theorem after_of_error (h : x s = .error e s') : after x s = s' := by rw [after, h]

theorem after_bind_of_ok (h : x s = .ok a s') : after (x >>= f) s = after (f a) s' := by
  rw [after, bind_of_ok h, after]

theorem lift_bind_of_ok {v : Except ε γ} {c : γ} {f : γ → EStateM ε σ β} (h : v = .ok c) :
    (lift v >>= f) s = f c s := by
  rw [h]
  rfl

theorem after_lift_bind {v : Except ε γ} {c : γ} {f : γ → EStateM ε σ β} (h : v = .ok c) :
    after (lift v >>= f) s = after (f c) s := by
  rw [h]
  rfl

/-- The program leaves `f` of the state alone. -/
def Keeps {τ : Type} (f : σ → τ) (x : EStateM ε σ α) : Prop := ∀ s, f (after x s) = f s

namespace Keeps

variable {τ : Type} {g : σ → τ} {x : EStateM ε σ α} {f : α → EStateM ε σ β}

theorem of_ok (h : Keeps g x) (hx : x s = .ok a s') : g s' = g s := by
  have := h s
  rwa [after, hx] at this

theorem of_error (h : Keeps g x) (hx : x s = .error e s') : g s' = g s := by
  have := h s
  rwa [after, hx] at this

theorem pure (a : α) : Keeps g (Pure.pure a : EStateM ε σ α) := fun _ => rfl

theorem fail (e : ε) : Keeps g (Effect.fail e : EStateM ε σ α) := fun _ => rfl

theorem reads (r : σ → α) : Keeps g (Effect.reads r : EStateM ε σ α) := fun _ => rfl

theorem lift (v : Except ε α) : Keeps g (Effect.lift v : EStateM ε σ α) := by
  intro s
  cases v <;> rfl

theorem update {u : σ → σ} (h : ∀ s, g (u s) = g s) :
    Keeps g (Effect.update u : EStateM ε σ Unit) := h

theorem bind (hx : Keeps g x) (hf : ∀ a, Keeps g (f a)) : Keeps g (x >>= f) := by
  intro s
  cases h : x s with
  | ok a s' => rw [after_bind_of_ok h, hf a s', hx.of_ok h]
  | error e s' => rw [after_of_error (bind_of_error h), hx.of_error h]

theorem ite {c : Prop} [Decidable c] {x y : EStateM ε σ α} (hx : c → Keeps g x)
    (hy : ¬ c → Keeps g y) : Keeps g (if c then x else y) := by
  split
  · exact hx ‹_›
  · exact hy ‹_›

end Keeps

/-- The last part that writes says what the state is afterwards. -/
theorem after_bind_of_keeps (hf : ∀ a, Keeps id (f a)) : after (x >>= f) s = after x s := by
  cases h : x s with
  | ok a s' =>
    rw [after_bind_of_ok h, after_of_ok h]
    exact hf a s'
  | error e s' => rw [after_of_error (bind_of_error h), after_of_error h]

/-- The state a program ends in stands in a relation to the one it starts from. -/
def Moves (R : σ → σ → Prop) (x : EStateM ε σ α) : Prop := ∀ s, R s (after x s)

namespace Moves

variable {R : σ → σ → Prop} {x : EStateM ε σ α} {f : α → EStateM ε σ β}

theorem of_keeps (hR : ∀ s, R s s) (h : Keeps id x) : Moves R x := by
  intro s
  rw [show after x s = s from h s]
  exact hR s

theorem of_ok (h : Moves R x) (hx : x s = .ok a s') : R s s' := after_of_ok hx ▸ h s

theorem of_error (h : Moves R x) (hx : x s = .error e s') : R s s' := after_of_error hx ▸ h s

theorem bind (hR : ∀ s t u, R s t → R t u → R s u) (hx : Moves R x) (hf : ∀ a, Moves R (f a)) :
    Moves R (x >>= f) := by
  intro s
  cases h : x s with
  | ok a s' =>
    rw [after_bind_of_ok h]
    exact hR _ _ _ (hx.of_ok h) (hf a s')
  | error e s' =>
    rw [after_of_error (bind_of_error h)]
    exact hx.of_error h

end Moves

/-- The program leaves `g` of the state alone when it fails. -/
def FailKeeps {τ : Type} (g : σ → τ) (x : EStateM ε σ α) : Prop :=
  ∀ s e s', x s = .error e s' → g s' = g s

namespace FailKeeps

variable {τ : Type} {g : σ → τ} {x : EStateM ε σ α} {f : α → EStateM ε σ β}

theorem of_keeps (h : Keeps g x) : FailKeeps g x := fun _ _ _ hx => h.of_error hx

theorem of_ok (h : ∀ s, ∃ a s', x s = .ok a s') : FailKeeps g x := by
  intro s e s' hx
  obtain ⟨a, t, hok⟩ := h s
  rw [hok] at hx
  cases hx

/-- What writes comes last. -/
theorem bind (hx : Keeps g x) (hf : ∀ a, FailKeeps g (f a)) : FailKeeps g (x >>= f) := by
  intro s e s'' h
  rcases bind_eq_error.mp h with herror | ⟨a, s', hok, herror⟩
  · exact hx.of_error herror
  · rw [hf a s' e s'' herror, hx.of_ok hok]

end FailKeeps

/-! ## What a program depends on -/

/-- The outcome of a program without its state. -/
def verdict : EStateM.Result ε σ α → Except ε α
  | .ok a _ => .ok a
  | .error e _ => .error e

theorem verdict_eq_ok {r : EStateM.Result ε σ α} : verdict r = .ok a ↔ ∃ s, r = .ok a s := by
  cases r <;> simp [verdict]

theorem verdict_eq_error {r : EStateM.Result ε σ α} :
    verdict r = .error e ↔ ∃ s, r = .error e s := by
  cases r <;> simp [verdict]

/-- Related states give the same outcome and stay related. -/
def Respects (R : σ → σ → Prop) (x : EStateM ε σ α) : Prop :=
  ∀ s t, R s t → verdict (x s) = verdict (x t) ∧ R (after x s) (after x t)

namespace Respects

variable {R : σ → σ → Prop} {x : EStateM ε σ α} {f : α → EStateM ε σ β}

theorem pure (a : α) : Respects R (Pure.pure a : EStateM ε σ α) := fun _ _ h => ⟨rfl, h⟩

theorem fail (e : ε) : Respects R (Effect.fail e : EStateM ε σ α) := fun _ _ h => ⟨rfl, h⟩

theorem reads {r : σ → α} (h : ∀ s t, R s t → r s = r t) :
    Respects R (Effect.reads r : EStateM ε σ α) :=
  fun s t hR => ⟨congrArg Except.ok (h s t hR), hR⟩

theorem update {u : σ → σ} (h : ∀ s t, R s t → R (u s) (u t)) :
    Respects R (Effect.update u : EStateM ε σ Unit) := fun s t hR => ⟨rfl, h s t hR⟩

theorem lift (v : Except ε α) : Respects R (Effect.lift v : EStateM ε σ α) := by
  intro s t hR
  cases v <;> exact ⟨rfl, hR⟩

/-- From related states both runs return the same value or fail with the same error. -/
theorem cases {t : σ} (hx : Respects R x) (hR : R s t) :
    (∃ a s' t', x s = .ok a s' ∧ x t = .ok a t' ∧ R s' t') ∨
      ∃ e s' t', x s = .error e s' ∧ x t = .error e t' ∧ R s' t' := by
  obtain ⟨hverdict, hafter⟩ := hx s t hR
  cases hs : x s with
  | ok a s' =>
    obtain ⟨t', ht⟩ := verdict_eq_ok.mp (hverdict.symm.trans (by rw [hs]; rfl))
    rw [after_of_ok hs, after_of_ok ht] at hafter
    exact .inl ⟨a, s', t', rfl, ht, hafter⟩
  | error e s' =>
    obtain ⟨t', ht⟩ := verdict_eq_error.mp (hverdict.symm.trans (by rw [hs]; rfl))
    rw [after_of_error hs, after_of_error ht] at hafter
    exact .inr ⟨e, s', t', rfl, ht, hafter⟩

theorem bind (hx : Respects R x) (hf : ∀ a, Respects R (f a)) : Respects R (x >>= f) := by
  intro s t hR
  rcases hx.cases hR with ⟨a, s', t', hs, ht, hR'⟩ | ⟨e, s', t', hs, ht, hR'⟩
  · rw [after_bind_of_ok hs, after_bind_of_ok ht, bind_of_ok hs, bind_of_ok ht]
    exact hf a s' t' hR'
  · rw [after_of_error (bind_of_error hs), after_of_error (bind_of_error ht), bind_of_error hs,
      bind_of_error ht]
    exact ⟨rfl, hR'⟩

theorem ite {c : Prop} [Decidable c] {x y : EStateM ε σ α} (hx : c → Respects R x)
    (hy : ¬ c → Respects R y) : Respects R (if c then x else y) := by
  split
  · exact hx ‹_›
  · exact hy ‹_›

end Respects

end SignalGo.Effect
