import AccessBroker.Library.Json

/-! # Dictionaries of the decoder

Setting a key keeps the members sorted, and changes that key alone.
-/

namespace Json.Dict
open Py
set_option autoImplicit false

def Sorted (dict : Dict) : Prop := dict.Pairwise fun a b => a.1 < b.1

theorem mem_set {key : Str} {value : Value} {dict : Dict} {member : Str × Value}
    (h : member ∈ dict.set key value) : member = (key, value) ∨ member ∈ dict := by
  induction dict with
  | nil => exact Or.inl (List.mem_singleton.mp h)
  | cons first rest ih =>
    rw [Dict.set] at h
    split at h
    · exact List.mem_cons.mp h
    split at h
    · rcases List.mem_cons.mp h with h | h
      · exact Or.inl h
      · exact Or.inr (List.mem_cons_of_mem _ h)
    · rcases List.mem_cons.mp h with h | h
      · exact Or.inr (by rw [h]; exact List.mem_cons_self)
      · exact (ih h).imp_right (List.mem_cons_of_mem _)

theorem sorted_set {dict : Dict} (h : dict.Sorted) (key : Str) (value : Value) :
    (dict.set key value).Sorted := by
  induction dict with
  | nil => exact List.pairwise_singleton _ _
  | cons first rest ih =>
    obtain ⟨hFirst, hRest⟩ := List.pairwise_cons.mp h
    rw [Dict.set]
    split
    · rename_i hBefore
      refine List.pairwise_cons.mpr ⟨fun member hMem => ?_, h⟩
      rcases List.mem_cons.mp hMem with rfl | hMem
      · exact hBefore
      · exact lt_trans hBefore (hFirst member hMem)
    split
    · rename_i hEq
      refine List.pairwise_cons.mpr ⟨fun member hMem => ?_, hRest⟩
      rw [hEq]
      exact hFirst member hMem
    · rename_i hBefore hEq
      refine List.pairwise_cons.mpr ⟨fun member hMem => ?_, ih hRest⟩
      rcases mem_set hMem with rfl | hMem
      · exact lt_of_le_of_ne (not_lt.mp hBefore) (Ne.symm hEq)
      · exact hFirst member hMem

theorem set_eq_append {dict : Dict} {key : Str} (h : ∀ member ∈ dict, member.1 < key)
    (value : Value) : dict.set key value = dict ++ [(key, value)] := by
  induction dict with
  | nil => rfl
  | cons first rest ih =>
    have hFirst := h first List.mem_cons_self
    rw [Dict.set, if_neg (not_lt.mpr (le_of_lt hFirst)), if_neg (ne_of_gt hFirst),
      ih fun member hMem => h member (List.mem_cons_of_mem _ hMem)]
    rfl

theorem lookup_cons_ne {key : Str} {first : Str × Value} (hNe : key ≠ first.1) (rest : Dict) :
    List.lookup key (first :: rest) = List.lookup key rest := by
  rw [List.lookup_cons, beq_false_of_ne hNe]

theorem lookup_set_self (key : Str) (value : Value) (dict : Dict) :
    (dict.set key value).lookup key = some value := by
  induction dict with
  | nil => simp [Dict.set]
  | cons first rest ih =>
    rw [Dict.set]
    split
    · simp
    split
    · simp
    · rename_i hNe
      rw [lookup_cons_ne hNe]
      exact ih

theorem lookup_set_of_ne {key other : Str} (hNe : other ≠ key) (value : Value) (dict : Dict) :
    (dict.set key value).lookup other = dict.lookup other := by
  induction dict with
  | nil => exact lookup_cons_ne hNe []
  | cons first rest ih =>
    rw [Dict.set]
    split
    · exact lookup_cons_ne hNe (first :: rest)
    split
    · rename_i hEq
      rw [lookup_cons_ne hNe, lookup_cons_ne (by rw [← hEq]; exact hNe)]
    · rw [List.lookup_cons, List.lookup_cons, ih]

@[simp] theorem get?_set_self (key : Text) (value : Value) (dict : Dict) :
    Dict.get? (dict.set (codes key) value) key = some value := lookup_set_self _ value dict

theorem get?_set_of_ne {key other : Text} (hNe : codes other ≠ codes key) (value : Value)
    (dict : Dict) : Dict.get? (dict.set (codes key) value) other = dict.get? other :=
  lookup_set_of_ne hNe value dict

/-- Setting a key outside the kept ones does not show after the restriction. -/
theorem restrict_set {key : Str} {keys : List Text} (hOut : key ∉ keys.map codes) (value : Value)
    (dict : Dict) : restrict keys (dict.set key value) = restrict keys dict := by
  have hSkip : ∀ (v : Value) (rest : Dict), restrict keys ((key, v) :: rest) = restrict keys rest :=
    fun v rest => List.filter_cons_of_neg (by simpa using hOut)
  induction dict with
  | nil => exact hSkip value []
  | cons first rest ih =>
    rw [Dict.set]
    split
    · exact hSkip value _
    split
    · rename_i hEq
      obtain ⟨key', value'⟩ := first
      cases hEq
      rw [hSkip, hSkip]
    · simp only [restrict, List.filter_cons] at ih ⊢
      rw [ih]

theorem Sorted.restrict {dict : Dict} (h : dict.Sorted) (keys : List Text) :
    (dict.restrict keys).Sorted := List.Pairwise.filter _ h

theorem foldl_set_eq_append {pairs : List (Str × Value)} {dict : Dict}
    (h : Sorted (dict ++ pairs)) :
    pairs.foldl (fun dict pair => Dict.set pair.1 pair.2 dict) dict = dict ++ pairs := by
  induction pairs generalizing dict with
  | nil => rw [List.append_nil]; rfl
  | cons pair pairs ih =>
    have hBefore : ∀ member ∈ dict, member.1 < pair.1 := fun member hMem =>
      (List.pairwise_append.mp h).2.2 member hMem pair List.mem_cons_self
    rw [List.foldl_cons, set_eq_append hBefore]
    have hSplit : dict ++ pair :: pairs = dict ++ [(pair.1, pair.2)] ++ pairs := by simp
    rw [hSplit] at h ⊢
    exact ih h

theorem ofPairs_sorted {pairs : List (Str × Value)} (h : Sorted pairs) : ofPairs pairs = pairs :=
  foldl_set_eq_append h

/-- What holds of all pairs holds of all members. -/
theorem ofPairs_induction {P : Dict → Prop} {pairs : List (Str × Value)} (hNil : P [])
    (hSet : ∀ pair ∈ pairs, ∀ dict, P dict → P (Dict.set pair.1 pair.2 dict)) :
    P (ofPairs pairs) := by
  have hFold : ∀ dict, P dict → P (pairs.foldl (fun d pair => Dict.set pair.1 pair.2 d) dict) := by
    clear hNil
    induction pairs with
    | nil => exact fun dict h => h
    | cons pair pairs ih =>
      exact fun dict h => ih (fun p hp => hSet p (List.mem_cons_of_mem _ hp)) _
        (hSet pair List.mem_cons_self dict h)
  exact hFold [] hNil

theorem sorted_ofPairs (pairs : List (Str × Value)) : Sorted (ofPairs pairs) :=
  ofPairs_induction List.Pairwise.nil fun pair _ _ h => sorted_set h pair.1 pair.2

end Json.Dict
