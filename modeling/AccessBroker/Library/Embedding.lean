import Mathlib.Data.List.Forall2

/-! # Embeddings of one list in another

One list embeds in another when its elements find partners there, in order and each a partner of
its own. A log in which every request comes right after its permission has the requests embedded
in the permissions.
-/

namespace Embedding
open List (SublistForall₂)
set_option autoImplicit false

variable {α β γ ε : Type} {R : α → β → Prop} {S : β → γ → Prop}

theorem trans {as : List α} {bs : List β} {cs : List γ} (h : SublistForall₂ R as bs)
    (h' : SublistForall₂ S bs cs) : SublistForall₂ (fun a c => ∃ b, R a b ∧ S b c) as cs := by
  induction h' generalizing as with
  | nil =>
    cases h
    exact .nil
  | cons hHead _ ih =>
    cases h with
    | nil => exact .nil
    | cons hFirst hRest => exact .cons ⟨_, hFirst, hHead⟩ (ih hRest)
    | cons_right hRest => exact .cons_right (ih hRest)
  | cons_right _ ih => exact .cons_right (ih h)

theorem append {as as' : List α} {bs bs' : List β} (h : SublistForall₂ R as bs)
    (h' : SublistForall₂ R as' bs') : SublistForall₂ R (as ++ as') (bs ++ bs') := by
  have hLater : ∀ bs : List β, SublistForall₂ R as' (bs ++ bs') := by
    intro bs
    induction bs with
    | nil => exact h'
    | cons b bs ih => exact .cons_right ih
  induction h with
  | nil => exact hLater _
  | cons hHead _ ih => exact .cons hHead ih
  | cons_right _ ih => exact .cons_right ih

theorem concat {as : List α} {bs : List β} (h : SublistForall₂ R as bs) {a : α} {b : β}
    (hR : R a b) : SublistForall₂ R (as ++ [a]) (bs ++ [b]) := append h (.cons hR .nil)

theorem concat_right {as : List α} {bs : List β} (h : SublistForall₂ R as bs) (b : β) :
    SublistForall₂ R as (bs ++ [b]) := by
  have hMore := append h (SublistForall₂.nil : SublistForall₂ R [] [b])
  rwa [List.append_nil] at hMore

/-! ## Logs -/

/-- Every event that is an `α` comes right after one that is a `β` related to it. -/
def Preceded (f : ε → Option α) (g : ε → Option β) (R : α → β → Prop) (log : List ε) : Prop :=
  ∀ before event after a, log = before ++ event :: after → f event = some a →
    ∃ earlier event' b, before = earlier ++ [event'] ∧ g event' = some b ∧ R a b

variable {f : ε → Option α} {g : ε → Option β}

theorem preceded_nil : Preceded f g R [] := by
  intro before event after a h
  exact absurd h (by simp)

theorem Preceded.append {log more : List ε} (h : Preceded f g R log) (h' : Preceded f g R more) :
    Preceded f g R (log ++ more) := by
  intro before event after a hLog hEvent
  rcases List.append_eq_append_iff.mp hLog with ⟨later, rfl, hMore⟩ | ⟨later, rfl, hMore⟩
  · obtain ⟨earlier, event', b, rfl, hFound⟩ := h' later event after a hMore hEvent
    exact ⟨log ++ earlier, event', b, (List.append_assoc _ _ _).symm, hFound⟩
  · cases later with
    | nil =>
      obtain ⟨earlier, event', b, hEmpty, _⟩ := h' [] event after a hMore.symm hEvent
      exact absurd hEmpty (by simp)
    | cons event'' later =>
      cases hMore
      exact h before event later a rfl hEvent

theorem Preceded.left {log more : List ε} (h : Preceded f g R (log ++ more)) :
    Preceded f g R log := by
  rintro before event after a rfl hEvent
  exact h before event (after ++ more) a (by simp) hEvent

/-- The events that are an `α` embed in those that are a `β`. -/
theorem Preceded.embeds (hApart : ∀ event b, g event = some b → f event = none) {log : List ε}
    (h : Preceded f g R log) : SublistForall₂ R (log.filterMap f) (log.filterMap g) := by
  induction hLength : log.length using Nat.strongRecOn generalizing log with
  | ind n ih =>
    subst hLength
    rcases List.eq_nil_or_concat log with rfl | ⟨before, event, rfl⟩
    · exact .nil
    rw [List.concat_eq_append] at h ih ⊢
    rw [List.filterMap_append, List.filterMap_append]
    have hBefore := ih before.length (by simp) h.left rfl
    cases hEvent : f event with
    | none =>
      rw [List.filterMap_cons_none hEvent, List.filterMap_nil, List.append_nil]
      cases hOther : g event with
      | none => rwa [List.filterMap_cons_none hOther, List.filterMap_nil, List.append_nil]
      | some b =>
        rw [List.filterMap_cons_some hOther]
        exact concat_right hBefore b
    | some a =>
      -- the partner is the event before, so the embedding is extended from before that one
      obtain ⟨earlier, event', b, rfl, hFound, hR⟩ := h before event [] a rfl hEvent
      have hEarlier := ih earlier.length (by simp) h.left.left rfl
      have hOther : g event = none := by
        cases hOther : g event with
        | none => rfl
        | some b' => exact absurd (hEvent.symm.trans (hApart event b' hOther)) (by simp)
      rw [List.filterMap_append, List.filterMap_append,
        List.filterMap_cons_none (hApart event' b hFound), List.filterMap_cons_some hEvent,
        List.filterMap_cons_some hFound, List.filterMap_cons_none hOther]
      simp only [List.filterMap_nil, List.append_nil]
      exact concat hEarlier hR

end Embedding
