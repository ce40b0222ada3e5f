import AccessBroker.Library.Effect
import AccessBroker.Library.Machine

/-! # Simulations

A machine refines another when each of its steps, from related states, is matched by a run of
the other to related states. Its runs are then matched by runs. A computation simulates another
when, from related states, both end alike and in related states.
-/

namespace Machine
set_option autoImplicit false

variable {σ α τ β : Type}

/-- Each step is matched by a run whose acts meet `C`. -/
def Refines (step : σ → α → σ) (step' : τ → β → τ) (C : β → Prop) (R : σ → τ → Prop) : Prop :=
  ∀ s t a, R s t → ∃ acts, (∀ b ∈ acts, C b) ∧ R (step s a) (run step' t acts)

variable {step : σ → α → σ} {step' : τ → β → τ} {C : β → Prop} {R : σ → τ → Prop}

theorem Refines.run (h : Refines step step' C R) {s : σ} {t : τ} (hs : R s t) (acts : List α) :
    ∃ acts', (∀ b ∈ acts', C b) ∧ R (run step s acts) (run step' t acts') := by
  induction acts generalizing s t with
  | nil => exact ⟨[], by simp, hs⟩
  | cons a acts ih =>
    obtain ⟨first, hFirst, hNext⟩ := h s t a hs
    obtain ⟨rest, hRest, hEnd⟩ := ih hNext
    refine ⟨first ++ rest, fun b hb => ?_, ?_⟩
    · exact (List.mem_append.mp hb).elim (hFirst b) (hRest b)
    · rw [run_append]
      exact hEnd

end Machine

/-! ## Computations -/

namespace Effect
set_option autoImplicit false

variable {σ τ ε ε' α α' β β' : Type}

/-- Both return related values, or both raise related errors. -/
inductive Alike (F : α → α' → Prop) (E : ε → ε' → Prop) : Except ε α → Except ε' α' → Prop where
  | ok {a : α} {a' : α'} : F a a' → Alike F E (.ok a) (.ok a')
  | error {e : ε} {e' : ε'} : E e e' → Alike F E (.error e) (.error e')

def Simulates (R : σ → τ → Prop) (E : ε → ε' → Prop) (F : α → α' → Prop) (m : Effect σ ε α)
    (m' : Effect τ ε' α') : Prop :=
  ∀ s t, R s t → Alike F E (m.run s).1 (m'.run t).1 ∧ R (m.run s).2 (m'.run t).2

namespace Simulates

variable {R : σ → τ → Prop} {E : ε → ε' → Prop} {F : α → α' → Prop} {G : β → β' → Prop}

theorem pure {a : α} {a' : α'} (h : F a a') :
    Simulates R E F (Pure.pure a : Effect σ ε α) (Pure.pure a' : Effect τ ε' α') :=
  fun _ _ hR => ⟨.ok h, hR⟩

theorem raise {e : ε} {e' : ε'} (h : E e e') :
    Simulates R E F (Effect.raise e : Effect σ ε α) (Effect.raise e' : Effect τ ε' α') :=
  fun _ _ hR => ⟨.error h, hR⟩

theorem get : Simulates R E R (Effect.get : Effect σ ε σ) (Effect.get : Effect τ ε' τ) :=
  fun _ _ hR => ⟨.ok hR, hR⟩

theorem modify {f : σ → σ} {g : τ → τ} (h : ∀ s t, R s t → R (f s) (g t)) :
    Simulates R E (fun _ _ => True) (Effect.modify f : Effect σ ε Unit)
      (Effect.modify g : Effect τ ε' Unit) :=
  fun s t hR => ⟨.ok trivial, h s t hR⟩

theorem bind {m : Effect σ ε α} {m' : Effect τ ε' α'} {f : α → Effect σ ε β}
    {g : α' → Effect τ ε' β'} (hm : Simulates R E F m m')
    (hf : ∀ a a', F a a' → Simulates R E G (f a) (g a')) :
    Simulates R E G (m >>= f) (m' >>= g) := by
  intro s t hR
  obtain ⟨hAlike, hLeft⟩ := hm s t hR
  rcases hRun : m.run s with ⟨r, s₁⟩
  rcases hRun' : m'.run t with ⟨r', t₁⟩
  rw [hRun, hRun'] at hAlike hLeft
  cases hAlike with
  | ok hF =>
    rw [bind_ok hRun, bind_ok hRun']
    exact hf _ _ hF s₁ t₁ hLeft
  | error hE =>
    rw [bind_error hRun, bind_error hRun']
    exact ⟨.error hE, hLeft⟩

theorem attempt {ε₀ ε₀' : Type} {E' : ε₀ → ε₀' → Prop} {m : Effect σ ε α} {m' : Effect τ ε' α'}
    (h : Simulates R E F m m') :
    Simulates R E' (Alike F E) (Effect.attempt m : Effect σ ε₀ (Except ε α))
      (Effect.attempt m' : Effect τ ε₀' (Except ε' α')) :=
  fun s t hR => ⟨.ok (h s t hR).1, (h s t hR).2⟩

end Simulates

/-! ## Lockstep -/

/-- What is known of two runs that start together, `Q start end end'`, is known of each part that
both go through; `R` relates the state before a part to the state after it. -/
structure Splits (R : σ → σ → Prop) (Q : σ → σ → σ → Prop) : Prop where
  first : ∀ {s t t' u u'}, R t u → R t' u' → Q s u u' → Q s t t'
  rest : ∀ {s t u u'}, R s t → Q s u u' → Q t u u'

/-- Both computations go along the relation, and they run alike wherever `Q` is known. -/
structure Lockstep (R : σ → σ → Prop) (Q : σ → σ → σ → Prop) (m m' : Effect σ ε α) : Prop where
  along : Along R m
  along' : Along R m'
  agree : ∀ s, Q s (m.run s).2 (m'.run s).2 → m.run s = m'.run s

namespace Lockstep

variable {R : σ → σ → Prop} {Q : σ → σ → σ → Prop} {m m' : Effect σ ε α}

theorem refl (h : Along R m) : Lockstep R Q m m := ⟨h, h, fun _ _ => rfl⟩

theorem bind [Std.Refl R] [IsTrans σ R] (hSplits : Splits R Q) {f f' : α → Effect σ ε β}
    (hm : Lockstep R Q m m') (hf : ∀ a, Lockstep R Q (f a) (f' a)) :
    Lockstep R Q (m >>= f) (m' >>= f') := by
  refine ⟨.bind hm.along fun a => (hf a).along, .bind hm.along' fun a => (hf a).along', ?_⟩
  intro s hQ
  have hRest {n : Effect σ ε α} {g : α → Effect σ ε β} (hReach : ∀ a, Along R (g a)) :
      R (n.run s).2 ((n >>= g).run s).2 := by
    rcases hRun : n.run s with ⟨e | a, t⟩
    · rw [bind_error hRun]
      exact Std.Refl.refl t
    · rw [bind_ok hRun]
      exact hReach a t
  have hFirst : m.run s = m'.run s := by
    apply hm.agree s
    exact hSplits.first (hRest fun a => (hf a).along) (hRest fun a => (hf a).along') hQ
  rcases hRun : m.run s with ⟨e | a, t⟩
  · rw [bind_error hRun, bind_error (hFirst ▸ hRun)]
  · have hReach : R s t := by
      have hAlong := hm.along s
      rwa [hRun] at hAlong
    rw [bind_ok hRun, bind_ok (hFirst ▸ hRun)] at hQ ⊢
    exact (hf a).agree t (hSplits.rest hReach hQ)

theorem handle [Std.Refl R] [IsTrans σ R] (hSplits : Splits R Q) {h h' : ε → Effect σ ε α}
    (hm : Lockstep R Q m m') (hh : ∀ e, Lockstep R Q (h e) (h' e)) :
    Lockstep R Q (Effect.handle m h) (Effect.handle m' h') := by
  refine ⟨.handle hm.along fun e => (hh e).along, .handle hm.along' fun e => (hh e).along', ?_⟩
  intro s hQ
  have hRest {n : Effect σ ε α} {g : ε → Effect σ ε α} (hReach : ∀ e, Along R (g e)) :
      R (n.run s).2 ((Effect.handle n g).run s).2 := by
    rcases hRun : n.run s with ⟨e | a, t⟩
    · rw [handle_error hRun]
      exact hReach e t
    · rw [handle_ok hRun]
      exact Std.Refl.refl t
  have hFirst : m.run s = m'.run s := by
    apply hm.agree s
    exact hSplits.first (hRest fun e => (hh e).along) (hRest fun e => (hh e).along') hQ
  rcases hRun : m.run s with ⟨e | a, t⟩
  · have hReach : R s t := by
      have hAlong := hm.along s
      rwa [hRun] at hAlong
    rw [handle_error hRun, handle_error (hFirst ▸ hRun)] at hQ ⊢
    exact (hh e).agree t (hSplits.rest hReach hQ)
  · rw [handle_ok hRun, handle_ok (hFirst ▸ hRun)]

end Lockstep

end Effect
