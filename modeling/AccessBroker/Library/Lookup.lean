import Mathlib.Data.List.Nodup
import Mathlib.Data.List.Sort

/-! # Looking up an entry of a list

The entry of a key, where the keys are distinct, and the first entry with some
property, in an order the list is sorted by.
-/

namespace Lookup
set_option autoImplicit false

variable {α κ : Type} {entries : List α} {found : α}

theorem find?_key_eq_some_iff [BEq κ] [LawfulBEq κ] {key : α → κ} (hKeys : (entries.map key).Nodup)
    (k : κ) :
    (entries.find? fun entry => key entry == k) = some found ↔ found ∈ entries ∧ key found = k := by
  constructor
  · intro hFind
    exact ⟨List.mem_of_find?_eq_some hFind, by simpa using List.find?_some hFind⟩
  · rintro ⟨hMem, hKey⟩
    cases hFind : entries.find? fun entry => key entry == k with
    | none => exact absurd hKey (by simpa using List.find?_eq_none.mp hFind found hMem)
    | some other =>
      have hOther : key other = k := by simpa using List.find?_some hFind
      rw [List.inj_on_of_nodup_map hKeys (List.mem_of_find?_eq_some hFind) hMem
        (hOther.trans hKey.symm)]

theorem find?_sorted_eq_some_iff {r : α → α → Prop} [Std.Refl r] {p : α → Bool}
    (hSorted : entries.Pairwise r)
    (hOne : ∀ a ∈ entries, ∀ b ∈ entries, r a b → r b a → a = b) :
    entries.find? p = some found ↔
      found ∈ entries ∧ p found = true ∧ ∀ other ∈ entries, p other = true → r found other := by
  constructor
  · intro hFind
    refine ⟨List.mem_of_find?_eq_some hFind, List.find?_some hFind, ?_⟩
    intro other hOther hp
    obtain ⟨_, before, after, rfl, hBefore⟩ := List.find?_eq_some_iff_append.mp hFind
    rcases List.mem_append.mp hOther with hOther | hOther
    · exact absurd hp (by simpa using hBefore other hOther)
    rcases List.mem_cons.mp hOther with rfl | hOther
    · exact Std.Refl.refl other
    · exact List.rel_of_pairwise_cons (List.pairwise_append.mp hSorted).2.1 hOther
  · rintro ⟨hMem, hp, hFirst⟩
    cases hFind : entries.find? p with
    | none => exact absurd hp (by simpa using List.find?_eq_none.mp hFind found hMem)
    | some other =>
      obtain ⟨hOther, before, after, rfl, hBefore⟩ := List.find?_eq_some_iff_append.mp hFind
      have hFound : r found other := hFirst other (List.mem_of_find?_eq_some hFind) hOther
      rcases List.mem_append.mp hMem with hMem | hMem
      · exact absurd hp (by simpa using hBefore found hMem)
      rcases List.mem_cons.mp hMem with rfl | hMem'
      · rfl
      · have hBack : r other found :=
          List.rel_of_pairwise_cons (List.pairwise_append.mp hSorted).2.1 hMem'
        rw [hOne found (by simp [hMem']) other (by simp) hFound hBack]

theorem find?_insertionSort_eq_some_iff {r : α → α → Prop} [DecidableRel r] [Std.Refl r]
    [Std.Total r] [IsTrans α r] {p : α → Bool}
    (hOne : ∀ a ∈ entries, ∀ b ∈ entries, r a b → r b a → a = b) :
    (entries.insertionSort r).find? p = some found ↔
      found ∈ entries ∧ p found = true ∧ ∀ other ∈ entries, p other = true → r found other := by
  have hSame (entry : α) : entry ∈ entries.insertionSort r ↔ entry ∈ entries :=
    (List.perm_insertionSort r entries).mem_iff
  have hFind : (entries.insertionSort r).find? p = some found ↔ _ :=
    find?_sorted_eq_some_iff (List.pairwise_insertionSort r entries)
      fun a ha b hb => hOne a ((hSame a).mp ha) b ((hSame b).mp hb)
  simpa only [hSame] using hFind

end Lookup
