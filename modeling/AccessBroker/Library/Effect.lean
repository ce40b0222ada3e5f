import Mathlib.Data.List.Basic
import Mathlib.Order.Defs.Unbundled

/-! # Computations with state and exceptions

A computation maps a state to a result or a raised exception together with the
state it leaves. What was written before an exception stays written, so "a
failed call changes nothing" is a theorem about a computation, not part of its
type.
-/

/-- A computation over the state `σ` that returns an `α` or raises an `ε`. -/
structure Effect (σ ε α : Type) where
  run : σ → Except ε α × σ

namespace Effect
set_option autoImplicit false

variable {σ ε α β : Type}

def bind (m : Effect σ ε α) (f : α → Effect σ ε β) : Effect σ ε β :=
  ⟨fun s => match m.run s with
    | (.ok a, s') => (f a).run s'
    | (.error e, s') => (.error e, s')⟩

instance : Monad (Effect σ ε) where
  pure a := ⟨fun s => (.ok a, s)⟩
  bind := bind

def raise (e : ε) : Effect σ ε α := ⟨fun s => (.error e, s)⟩

def get : Effect σ ε σ := ⟨fun s => (.ok s, s)⟩

def modify (f : σ → σ) : Effect σ ε Unit := ⟨fun s => (.ok (), f s)⟩

/-- `try: m` with the handler `h` for what `m` raises. -/
def handle (m : Effect σ ε α) (h : ε → Effect σ ε α) : Effect σ ε α :=
  ⟨fun s => match m.run s with
    | (.ok a, s') => (.ok a, s')
    | (.error e, s') => (h e).run s'⟩

/-- `try: m` that keeps what `m` raises as a value. -/
def attempt {ε' : Type} (m : Effect σ ε α) : Effect σ ε' (Except ε α) :=
  ⟨fun s => let (result, s') := m.run s; (.ok result, s')⟩

/-- A computation on a part of the state. -/
def zoom {τ ε' : Type} (part : τ → σ) (put : τ → σ → τ) (wrap : ε → ε') (m : Effect σ ε α) :
    Effect τ ε' α :=
  ⟨fun t => let (result, s') := m.run (part t); (result.mapError wrap, put t s')⟩

@[simp] theorem pure_run (a : α) (s : σ) : (pure a : Effect σ ε α).run s = (.ok a, s) := rfl

@[simp] theorem raise_run (e : ε) (s : σ) : (raise e : Effect σ ε α).run s = (.error e, s) := rfl

@[simp] theorem get_run (s : σ) : (get : Effect σ ε σ).run s = (.ok s, s) := rfl

@[simp] theorem modify_run (f : σ → σ) (s : σ) :
    (modify f : Effect σ ε Unit).run s = (.ok (), f s) := rfl

theorem bind_run (m : Effect σ ε α) (f : α → Effect σ ε β) (s : σ) :
    (m >>= f).run s = match m.run s with
      | (.ok a, s') => (f a).run s'
      | (.error e, s') => (.error e, s') := rfl

theorem bind_ok {m : Effect σ ε α} {f : α → Effect σ ε β} {s s' : σ} {a : α}
    (h : m.run s = (.ok a, s')) : (m >>= f).run s = (f a).run s' := by rw [bind_run, h]

theorem bind_error {m : Effect σ ε α} {f : α → Effect σ ε β} {s s' : σ} {e : ε}
    (h : m.run s = (.error e, s')) : (m >>= f).run s = (.error e, s') := by rw [bind_run, h]

theorem bind_assoc {γ : Type} (m : Effect σ ε α) (f : α → Effect σ ε β) (g : β → Effect σ ε γ) :
    m >>= f >>= g = m >>= fun a => f a >>= g := by
  refine congrArg Effect.mk (funext fun s => ?_)
  rw [bind_run]
  rcases m.run s with ⟨e | a, s'⟩ <;> rfl

/-- What returns has gone through both of its parts. -/
theorem of_bind {m : Effect σ ε α} {f : α → Effect σ ε β} {s s'' : σ} {b : β}
    (h : (m >>= f).run s = (.ok b, s'')) :
    ∃ a s', m.run s = (.ok a, s') ∧ (f a).run s' = (.ok b, s'') := by
  rcases hRun : m.run s with ⟨e | a, s'⟩
  · rw [bind_error hRun] at h
    cases h
  · rw [bind_ok hRun] at h
    exact ⟨a, s', rfl, h⟩

/-- A continuation that only returns gives the value of the computation before it. -/
theorem of_bind_pure {m : Effect σ ε α} {f : α → β} {s s' : σ} {b : β}
    (h : (m >>= fun a => pure (f a)).run s = (.ok b, s')) :
    ∃ a, m.run s = (.ok a, s') ∧ f a = b := by
  rcases hRun : m.run s with ⟨e | a, s''⟩
  · rw [bind_error hRun] at h
    cases h
  · rw [bind_ok hRun] at h
    cases h
    exact ⟨a, rfl, rfl⟩

/-- A continuation that only returns leaves the state of the computation before it. -/
theorem bind_state {m : Effect σ ε α} {f : α → Effect σ ε β}
    (h : ∀ a s, ((f a).run s).2 = s) (s : σ) : ((m >>= f).run s).2 = (m.run s).2 := by
  rw [bind_run]
  split
  · rename_i a s' hRun
    rw [h, hRun]
  · rename_i e s' hRun
    rw [hRun]

theorem handle_ok {m : Effect σ ε α} {h : ε → Effect σ ε α} {s s' : σ} {a : α}
    (hm : m.run s = (.ok a, s')) : (handle m h).run s = (.ok a, s') := by simp only [handle, hm]

theorem handle_error {m : Effect σ ε α} {h : ε → Effect σ ε α} {s s' : σ} {e : ε}
    (hm : m.run s = (.error e, s')) : (handle m h).run s = (h e).run s' := by simp only [handle, hm]

theorem attempt_run {ε' : Type} {m : Effect σ ε α} {s s' : σ} {result : Except ε α}
    (hm : m.run s = (result, s')) :
    (attempt m : Effect σ ε' (Except ε α)).run s = (.ok result, s') := by simp only [attempt, hm]

/-- The returned result satisfies `Q`, the raised exception satisfies `E`. -/
def Post (Q : α → σ → Prop) (E : ε → σ → Prop) : Except ε α × σ → Prop
  | (.ok a, s) => Q a s
  | (.error e, s) => E e s

/-- From a state satisfying `P`, the computation returns in `Q` or raises in `E`. -/
def Triple (P : σ → Prop) (m : Effect σ ε α) (Q : α → σ → Prop) (E : ε → σ → Prop) : Prop :=
  ∀ s, P s → Post Q E (m.run s)

namespace Triple

variable {P : σ → Prop} {Q : α → σ → Prop} {E : ε → σ → Prop}

theorem pure {a : α} (h : ∀ s, P s → Q a s) :
    Triple P (Pure.pure a : Effect σ ε α) Q E := fun s hs => h s hs

theorem raise {e : ε} (h : ∀ s, P s → E e s) :
    Triple P (Effect.raise e : Effect σ ε α) Q E := fun s hs => h s hs

theorem bind {m : Effect σ ε α} {f : α → Effect σ ε β} {R : β → σ → Prop}
    (hm : Triple P m Q E) (hf : ∀ a, Triple (Q a) (f a) R E) : Triple P (m >>= f) R E := by
  intro s hs
  have h := hm s hs
  rcases hRun : m.run s with ⟨e | a, s'⟩
  · rw [hRun] at h
    rw [bind_error hRun]
    exact h
  · rw [hRun] at h
    rw [bind_ok hRun]
    exact hf a s' h

theorem handle {m : Effect σ ε α} {h : ε → Effect σ ε α} {F : ε → σ → Prop}
    (hm : Triple P m Q F) (hh : ∀ e, Triple (F e) (h e) Q E) :
    Triple P (Effect.handle m h) Q E := by
  intro s hs
  have hBody := hm s hs
  rcases hRun : m.run s with ⟨e | a, s'⟩ <;> rw [hRun] at hBody
  · rw [handle_error hRun]
    exact hh e s' hBody
  · rw [handle_ok hRun]
    exact hBody

theorem get {Q : σ → σ → Prop} (h : ∀ s, P s → Q s s) :
    Triple P (Effect.get : Effect σ ε σ) Q E :=
  fun s hs => h s hs

theorem modify {f : σ → σ} {Q : Unit → σ → Prop} (h : ∀ s, P s → Q () (f s)) :
    Triple P (Effect.modify f : Effect σ ε Unit) Q E := fun s hs => h s hs

theorem attempt {ε' : Type} {m : Effect σ ε α} (hm : Triple P m Q E) {E' : ε' → σ → Prop} :
    Triple P (Effect.attempt m) (fun result s => Post Q E (result, s)) E' := by
  intro s hs
  have h := hm s hs
  rcases hRun : m.run s with ⟨result, s'⟩
  rw [hRun] at h
  rw [attempt_run hRun]
  exact h

theorem zoom {τ ε' : Type} {part : τ → σ} {put : τ → σ → τ} {wrap : ε → ε'} {P' : τ → Prop}
    {Q' : α → τ → Prop} {E' : ε' → τ → Prop} {m : Effect σ ε α} (hm : Triple P m Q E)
    (hP : ∀ t, P' t → P (part t)) (hQ : ∀ t a s, Q a s → Q' a (put t s))
    (hE : ∀ t e s, E e s → E' (wrap e) (put t s)) :
    Triple P' (Effect.zoom part put wrap m) Q' E' := by
  intro t ht
  have h := hm (part t) (hP t ht)
  have hZoom : (Effect.zoom part put wrap m).run t =
      ((m.run (part t)).1.mapError wrap, put t (m.run (part t)).2) := rfl
  rw [hZoom]
  rcases hRun : m.run (part t) with ⟨e | a, s'⟩ <;> rw [hRun] at h
  · exact hE t e s' h
  · exact hQ t a s' h

theorem consequence {m : Effect σ ε α} {P' : σ → Prop} {Q' : α → σ → Prop} {E' : ε → σ → Prop}
    (hm : Triple P m Q E) (hP : ∀ s, P' s → P s) (hQ : ∀ a s, Q a s → Q' a s)
    (hE : ∀ e s, E e s → E' e s) : Triple P' m Q' E' := by
  intro s hs
  have h := hm s (hP s hs)
  rcases hRun : m.run s with ⟨e | a, s'⟩ <;> rw [hRun] at h
  · exact hE e s' h
  · exact hQ a s' h

end Triple

/-! ## Moving along a preorder -/

/-- However the computation ends, it leaves a state the relation reaches. -/
def Along (R : σ → σ → Prop) (m : Effect σ ε α) : Prop := ∀ s, R s (m.run s).2

namespace Along

variable {R : σ → σ → Prop}

theorem pure [Std.Refl R] (a : α) : Along R (Pure.pure a : Effect σ ε α) := Std.Refl.refl

theorem raise [Std.Refl R] (e : ε) : Along R (Effect.raise e : Effect σ ε α) := Std.Refl.refl

theorem get [Std.Refl R] : Along R (Effect.get : Effect σ ε σ) := Std.Refl.refl

theorem bind [IsTrans σ R] {m : Effect σ ε α} {f : α → Effect σ ε β} (hm : Along R m)
    (hf : ∀ a, Along R (f a)) : Along R (m >>= f) := by
  intro s
  have h := hm s
  rcases hRun : m.run s with ⟨e | a, s'⟩ <;> rw [hRun] at h
  · rw [bind_error hRun]
    exact h
  · rw [bind_ok hRun]
    exact IsTrans.trans _ _ _ h (hf a s')

theorem handle [IsTrans σ R] {m : Effect σ ε α} {h : ε → Effect σ ε α} (hm : Along R m)
    (hh : ∀ e, Along R (h e)) : Along R (Effect.handle m h) := by
  intro s
  have hBody := hm s
  rcases hRun : m.run s with ⟨e | a, s'⟩ <;> rw [hRun] at hBody
  · rw [handle_error hRun]
    exact IsTrans.trans _ _ _ hBody (hh e s')
  · rw [handle_ok hRun]
    exact hBody

theorem mono {R' : σ → σ → Prop} (hR : ∀ s s', R s s' → R' s s') {m : Effect σ ε α}
    (hm : Along R m) : Along R' m := fun s => hR s _ (hm s)

theorem attempt {ε' : Type} {m : Effect σ ε α} (hm : Along R m) :
    Along R (Effect.attempt m : Effect σ ε' (Except ε α)) := hm

theorem zoom {τ ε' : Type} {part : τ → σ} {put : τ → σ → τ} {wrap : ε → ε'} {Q : τ → τ → Prop}
    (hPut : ∀ t s, R (part t) s → Q t (put t s)) {m : Effect σ ε α} (hm : Along R m) :
    Along Q (Effect.zoom part put wrap m) := fun t => hPut t _ (hm (part t))

end Along

/-! ## What is returned -/

/-- Whatever the computation returns satisfies `Q`. -/
def Yields (Q : α → Prop) (m : Effect σ ε α) : Prop := ∀ s a, (m.run s).1 = .ok a → Q a

namespace Yields

variable {Q : α → Prop}

theorem pure {a : α} (h : Q a) : Yields Q (Pure.pure a : Effect σ ε α) := by
  intro s b hRun
  cases hRun
  exact h

theorem raise {e : ε} : Yields Q (Effect.raise e : Effect σ ε α) := by
  intro s a hRun
  cases hRun

theorem mono {Q' : α → Prop} (hQ : ∀ a, Q a → Q' a) {m : Effect σ ε α} (hm : Yields Q m) :
    Yields Q' m := fun s a hRun => hQ a (hm s a hRun)

theorem bind {m : Effect σ ε β} {f : β → Effect σ ε α} (hf : ∀ b, Yields Q (f b)) :
    Yields Q (m >>= f) := by
  intro s a hRun
  rcases hBody : m.run s with ⟨e | b, s'⟩
  · rw [bind_error hBody] at hRun
    cases hRun
  · rw [bind_ok hBody] at hRun
    exact hf b s' a hRun

theorem handle {m : Effect σ ε α} {h : ε → Effect σ ε α} (hm : Yields Q m)
    (hh : ∀ e, Yields Q (h e)) : Yields Q (Effect.handle m h) := by
  intro s a hRun
  rcases hBody : m.run s with ⟨e | b, s'⟩
  · rw [handle_error hBody] at hRun
    exact hh e s' a hRun
  · rw [handle_ok hBody] at hRun
    exact hm s a (by rw [hBody]; exact hRun)

end Yields

end Effect
