import Mathlib.Data.List.Basic

/-! # Runs of a deterministic machine

A machine is a step function on states. The rules lift what one step does to
what a whole run does: an invariant holds at the end, a preorder relates the
ends, and a property of steps holds at every step of the run. A log is read the
same way: each entry against the entries before it.
-/

namespace Machine
set_option autoImplicit false

variable {σ α : Type} (step : σ → α → σ)

def run (s : σ) (acts : List α) : σ := acts.foldl step s

@[simp] theorem run_nil (s : σ) : run step s [] = s := rfl

@[simp] theorem run_cons (s : σ) (a : α) (acts : List α) :
    run step s (a :: acts) = run step (step s a) acts := rfl

theorem run_append (s : σ) (acts later : List α) :
    run step s (acts ++ later) = run step (run step s acts) later := List.foldl_append

variable {step}

theorem run_invariant {I : σ → Prop} (hStep : ∀ s a, I s → I (step s a)) {s : σ} (hs : I s)
    (acts : List α) : I (run step s acts) := by
  induction acts generalizing s with
  | nil => exact hs
  | cons a acts ih => exact ih (hStep s a hs)

theorem run_invariant_of_mem {I : σ → Prop} {acts : List α}
    (hStep : ∀ a ∈ acts, ∀ s, I s → I (step s a)) {s : σ} (hs : I s) : I (run step s acts) := by
  induction acts generalizing s with
  | nil => exact hs
  | cons a acts ih =>
    exact ih (fun b hb => hStep b (List.mem_cons_of_mem _ hb)) (hStep a List.mem_cons_self s hs)

theorem run_relation {R : σ → σ → Prop} (hRefl : ∀ s, R s s)
    (hTrans : ∀ s t u, R s t → R t u → R s u) (hStep : ∀ s a, R s (step s a)) (s : σ)
    (acts : List α) : R s (run step s acts) := by
  induction acts generalizing s with
  | nil => exact hRefl s
  | cons a acts ih => exact hTrans _ _ _ (hStep s a) (ih (step s a))

variable (step)

/-- `P` holds of the state before every act of the run, and of that act. -/
def EveryStep (P : σ → α → Prop) (s : σ) (acts : List α) : Prop :=
  ∀ pre a post, acts = pre ++ a :: post → P (run step s pre) a

/-- `P` holds of every state the run goes through. -/
def EveryState (P : σ → Prop) (s : σ) (acts : List α) : Prop :=
  ∀ pre post, acts = pre ++ post → P (run step s pre)

@[simp] theorem everyStep_nil {P : σ → α → Prop} {s : σ} : EveryStep step P s [] := by
  intro pre a post h
  exact absurd h (by simp)

theorem everyStep_cons {P : σ → α → Prop} {s : σ} {a : α} {acts : List α} :
    EveryStep step P s (a :: acts) ↔ P s a ∧ EveryStep step P (step s a) acts := by
  constructor
  · intro h
    refine ⟨h [] a acts rfl, ?_⟩
    intro pre b post hActs
    exact h (a :: pre) b post (by rw [hActs, List.cons_append])
  · rintro ⟨hHead, hTail⟩ pre b post hActs
    cases pre with
    | nil =>
      cases hActs
      exact hHead
    | cons c pre =>
      cases hActs
      exact hTail pre b post rfl

/-- A run is checked step by step. -/
def decideEveryStep {P : σ → α → Prop} (dec : ∀ s a, Decidable (P s a)) :
    ∀ s acts, Decidable (EveryStep step P s acts)
  | _, [] => .isTrue (everyStep_nil step)
  | s, a :: acts =>
    have : Decidable (EveryStep step P (step s a) acts) := decideEveryStep dec (step s a) acts
    have := dec s a
    decidable_of_iff _ (everyStep_cons step).symm

instance {P : σ → α → Prop} [dec : ∀ s a, Decidable (P s a)] (s : σ) (acts : List α) :
    Decidable (EveryStep step P s acts) := decideEveryStep step dec s acts

@[simp] theorem everyState_nil {P : σ → Prop} {s : σ} : EveryState step P s [] ↔ P s := by
  constructor
  · intro h
    exact h [] [] rfl
  · intro hs pre post hActs
    obtain ⟨rfl, _⟩ := List.append_eq_nil_iff.mp hActs.symm
    exact hs

theorem everyState_cons {P : σ → Prop} {s : σ} {a : α} {acts : List α} :
    EveryState step P s (a :: acts) ↔ P s ∧ EveryState step P (step s a) acts := by
  constructor
  · intro h
    refine ⟨h [] (a :: acts) rfl, ?_⟩
    intro pre post hActs
    exact h (a :: pre) post (by rw [hActs, List.cons_append])
  · rintro ⟨hHead, hTail⟩ pre post hActs
    cases pre with
    | nil => exact hHead
    | cons b pre =>
      cases hActs
      exact hTail pre post rfl

def decideEveryState {P : σ → Prop} (dec : ∀ s, Decidable (P s)) :
    ∀ s acts, Decidable (EveryState step P s acts)
  | s, [] =>
    have := dec s
    decidable_of_iff _ (everyState_nil step).symm
  | s, a :: acts =>
    have : Decidable (EveryState step P (step s a) acts) := decideEveryState dec (step s a) acts
    have := dec s
    decidable_of_iff _ (everyState_cons step).symm

instance {P : σ → Prop} [dec : ∀ s, Decidable (P s)] (s : σ) (acts : List α) :
    Decidable (EveryState step P s acts) := decideEveryState step dec s acts

variable {step}

theorem EveryStep.drop {P : σ → α → Prop} {s : σ} {acts later : List α}
    (h : EveryStep step P s (acts ++ later)) : EveryStep step P (run step s acts) later := by
  rintro pre a post rfl
  rw [← run_append]
  exact h (acts ++ pre) a post (by simp)

theorem EveryState.mono {P Q : σ → Prop} (hPQ : ∀ s, P s → Q s) {s : σ} {acts : List α}
    (h : EveryState step P s acts) : EveryState step Q s acts :=
  fun pre post hActs => hPQ _ (h pre post hActs)

/-- An invariant that the steps meeting a condition preserve holds in every state of a run
whose steps all meet it. -/
theorem everyState_of_everyStep {I : σ → Prop} {C : σ → α → Prop}
    (hStep : ∀ s a, I s → C s a → I (step s a)) {s : σ} {acts : List α} (hs : I s)
    (hC : EveryStep step C s acts) : EveryState step I s acts := by
  induction acts generalizing s with
  | nil => exact (everyState_nil step).mpr hs
  | cons a acts ih =>
    rw [everyStep_cons] at hC
    rw [everyState_cons]
    exact ⟨hs, ih (hStep s a hs hC.1) hC.2⟩

/-- Two properties that agree on every step from an invariant state agree on every run. -/
theorem everyStep_congr {I : σ → Prop} (hStep : ∀ s a, I s → I (step s a))
    {P Q : σ → α → Prop} (h : ∀ s a, I s → (P s a ↔ Q s a)) {s : σ} (hs : I s) (acts : List α) :
    EveryStep step P s acts ↔ EveryStep step Q s acts := by
  induction acts generalizing s with
  | nil => exact ⟨fun _ => everyStep_nil step, fun _ => everyStep_nil step⟩
  | cons a acts ih =>
    rw [everyStep_cons, everyStep_cons, h s a hs, ih (hStep s a hs)]

theorem EveryState.everyStep_congr {I : σ → Prop} {P Q : σ → α → Prop} {s : σ} {acts : List α}
    (hI : EveryState step I s acts) (h : ∀ s, I s → ∀ a ∈ acts, (P s a ↔ Q s a)) :
    EveryStep step P s acts ↔ EveryStep step Q s acts := by
  have hEach : ∀ pre a post, acts = pre ++ a :: post →
      (P (run step s pre) a ↔ Q (run step s pre) a) := by
    intro pre a post hActs
    exact h _ (hI pre (a :: post) hActs) a (by simp [hActs])
  constructor
  · intro hP pre a post hActs
    exact (hEach pre a post hActs).mp (hP pre a post hActs)
  · intro hQ pre a post hActs
    exact (hEach pre a post hActs).mpr (hQ pre a post hActs)

/-- What each step keeps exactly under a condition holds all along a run exactly if every step
meets the condition. -/
theorem everyState_iff_everyStep {I J : σ → Prop} {Q : σ → α → Prop}
    (h : ∀ s a, I s → J s → (J (step s a) ↔ Q s a)) {s : σ} {acts : List α}
    (hI : EveryState step I s acts) (hs : J s) :
    EveryState step J s acts ↔ EveryStep step Q s acts := by
  induction acts generalizing s with
  | nil => exact iff_of_true ((everyState_nil step).mpr hs) (everyStep_nil step)
  | cons a acts ih =>
    rw [everyState_cons] at hI
    rw [everyState_cons, everyStep_cons, and_iff_right hs]
    have hHead : J (step s a) ↔ Q s a := h s a hI.1 hs
    constructor
    · intro hJ
      have hNext : J (step s a) := hJ [] acts rfl
      exact ⟨hHead.mp hNext, (ih hI.2 hNext).mp hJ⟩
    · rintro ⟨hQ, hRest⟩
      exact (ih hI.2 (hHead.mpr hQ)).mpr hRest

/-- What each step adds to a property of the states, a run has added by its end. -/
theorem run_iff_exists_step {P : σ → Prop} {Q : σ → α → Prop} {s : σ} {acts : List α}
    (h : EveryStep step (fun s a => P (step s a) ↔ P s ∨ Q s a) s acts) :
    P (run step s acts) ↔ P s ∨ ∃ pre a post, acts = pre ++ a :: post ∧ Q (run step s pre) a := by
  induction acts generalizing s with
  | nil =>
    refine (or_iff_left ?_).symm
    rintro ⟨pre, a, post, hActs, _⟩
    exact absurd hActs (by simp)
  | cons a acts ih =>
    rw [everyStep_cons] at h
    rw [run_cons, ih h.2, h.1, or_assoc]
    refine or_congr_right ?_
    constructor
    · rintro (hHead | ⟨pre, b, post, rfl, hLater⟩)
      · exact ⟨[], a, acts, rfl, hHead⟩
      · exact ⟨a :: pre, b, post, rfl, hLater⟩
    · rintro ⟨pre, b, post, hActs, hQ⟩
      cases pre with
      | nil =>
        cases hActs
        exact Or.inl hQ
      | cons c pre =>
        cases hActs
        exact Or.inr ⟨pre, b, post, rfl, hQ⟩

/-! ## Since -/

variable (step) in
/-- A step that met `Q` lies behind, and `P` has held in every state since. -/
def Since (Q : σ → α → Prop) (P : σ → Prop) (s : σ) (acts : List α) : Prop :=
  ∃ pre a post, acts = pre ++ a :: post ∧ Q (run step s pre) a ∧
    EveryState step P (run step s (pre ++ [a])) post

theorem Since.cons {Q : σ → α → Prop} {P : σ → Prop} {s : σ} {a : α} {acts : List α}
    (h : Since step Q P (step s a) acts) : Since step Q P s (a :: acts) := by
  obtain ⟨pre, b, post, rfl, hQ, hP⟩ := h
  exact ⟨a :: pre, b, post, rfl, hQ, hP⟩

theorem Since.holds {Q : σ → α → Prop} {P : σ → Prop} {s : σ} {acts : List α}
    (h : Since step Q P s acts) : P (run step s acts) := by
  obtain ⟨pre, a, post, rfl, _, hP⟩ := h
  rw [← List.singleton_append, ← List.append_assoc, run_append]
  exact hP post [] (List.append_nil post).symm

/-- What only the steps that meet `Q` can bring about has held all along, or since such a step. -/
theorem everyState_or_since {Q : σ → α → Prop} {P : σ → Prop} {acts : List α} :
    ∀ {s : σ}, EveryStep step (fun s a => P (step s a) → P s ∨ Q s a) s acts →
      P (run step s acts) → EveryState step P s acts ∨ Since step Q P s acts := by
  induction acts with
  | nil =>
    intro s _ hEnd
    exact Or.inl ((everyState_nil step).mpr hEnd)
  | cons a acts ih =>
    intro s hGain hEnd
    rw [everyStep_cons] at hGain
    rcases ih hGain.2 hEnd with hAll | hSince
    · have hNext : P (step s a) := hAll [] acts rfl
      rcases hGain.1 hNext with hs | hQ
      · exact Or.inl ((everyState_cons step).mpr ⟨hs, hAll⟩)
      · exact Or.inr ⟨[], a, acts, rfl, hQ, hAll⟩
    · exact Or.inr hSince.cons

/-- What did not hold at the start has held since a step that brought it about. -/
theorem since_of_not {Q : σ → α → Prop} {P : σ → Prop} {s : σ} {acts : List α}
    (hGain : EveryStep step (fun s a => P (step s a) → P s ∨ Q s a) s acts)
    (hs : ¬ P s) (hEnd : P (run step s acts)) : Since step Q P s acts := by
  rcases everyState_or_since hGain hEnd with hAll | hSince
  · exact absurd (hAll [] acts rfl) hs
  · exact hSince

/-! ## Logs -/

/-- Every entry of the log is justified by the entries before it. -/
def Justified (ok : List α → α → Prop) (log : List α) : Prop :=
  ∀ before a after, log = before ++ a :: after → ok before a

theorem justified_nil {ok : List α → α → Prop} : Justified ok [] := by
  intro before a after h
  exact absurd h (by simp)

theorem Justified.concat {ok : List α → α → Prop} {log : List α} (h : Justified ok log) {a : α}
    (ha : ok log a) : Justified ok (log ++ [a]) := by
  intro before b after hLog
  rcases List.eq_nil_or_concat after with rfl | ⟨after', c, rfl⟩
  · obtain ⟨rfl, hEq⟩ := List.append_inj' hLog rfl
    cases hEq
    exact ha
  · rw [List.concat_eq_append, ← List.cons_append, ← List.append_assoc] at hLog
    exact h before b after' (List.append_inj' hLog rfl).1

/-! ## Answers to causal questions

Questions are put one after another, numbered, and which question has a number depends only on the
answers to the numbers before it. Then every way of answering is the way of some answers.
-/

section Causal

variable {ρ ι : Type} {asks : (Nat → ρ) → Nat → ι → Prop}

/-- `asks answers n i`: to these answers, the question with the number `n` is `i`. -/
structure Causal (asks : (Nat → ρ) → Nat → ι → Prop) : Prop where
  earlier : ∀ {answers answers' : Nat → ρ} {n : Nat} {i : ι}, (∀ k < n, answers k = answers' k) →
    asks answers n i → asks answers' n i
  once : ∀ {answers : Nat → ρ} {n : Nat} {i j : ι}, asks answers n i → asks answers n j → i = j

open Classical in
/-- Each answer is given to the question that the answers before it lead to. -/
noncomputable def given (asks : (Nat → ρ) → Nat → ι → Prop) (answer : ι → ρ) (unasked : ρ)
    (n : Nat) : ρ :=
  if h : ∃ i, asks (fun k => if _ : k < n then given asks answer unasked k else unasked) n i then
    answer h.choose
  else unasked

/-- To the given answers, every question is answered as it should be. -/
theorem Causal.given_eq (hCausal : Causal asks) (answer : ι → ρ) (unasked : ρ) {n : Nat} {i : ι}
    (h : asks (given asks answer unasked) n i) : given asks answer unasked n = answer i := by
  have hEarlier : asks (fun k => if _ : k < n then given asks answer unasked k else unasked) n i :=
    hCausal.earlier (fun k hk => by rw [dif_pos hk]) h
  have hAsked : ∃ i, asks (fun k => if _ : k < n then given asks answer unasked k else unasked) n i :=
    ⟨i, hEarlier⟩
  rw [given, dif_pos hAsked]
  exact congrArg answer (hCausal.once hAsked.choose_spec hEarlier)

end Causal

end Machine
