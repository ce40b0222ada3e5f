import AccessBroker.Library.Json.Documents

/-! # Flat objects print on one ASCII line

An object whose values are null, integers and texts is printed with printable
ASCII characters alone, from its opening to its closing brace.
-/

namespace Json
open Py
set_option autoImplicit false

def Printable (c : Char) : Prop := 0x20 ≤ c.toNat ∧ c.toNat ≤ 0x7E

instance (c : Char) : Decidable (Printable c) :=
  inferInstanceAs (Decidable (0x20 ≤ c.toNat ∧ c.toNat ≤ 0x7E))

theorem Printable.not_isLineBreak {c : Char} (h : Printable c) : isLineBreak c = false := by
  unfold Printable at h
  simp only [isLineBreak, Bool.or_eq_false_iff, Bool.and_eq_false_iff, decide_eq_false_iff_not,
    beq_eq_false_iff_ne]
  omega

theorem printable_of_all {text : Text} (h : (text.all fun c => decide (Printable c)) = true) :
    ∀ c ∈ text, Printable c := fun c hc => of_decide_eq_true (List.all_eq_true.mp h c hc)

theorem isWs_isSpace {c : Char} (h : isWs c = true) : isSpace c = true := by
  simp only [isWs, Bool.or_eq_true, decide_eq_true_eq] at h
  rcases h with ((rfl | rfl) | rfl) | rfl <;> rfl

theorem digitChar_printable (d : Nat) : Printable d.digitChar := by
  by_cases h : d < 16
  · exact (show ∀ d < 16, Printable d.digitChar by decide) d h
  · have hStar : d.digitChar = '*' := by
      unfold Nat.digitChar
      rw [if_neg (by omega), if_neg (by omega), if_neg (by omega), if_neg (by omega),
        if_neg (by omega), if_neg (by omega), if_neg (by omega), if_neg (by omega),
        if_neg (by omega), if_neg (by omega), if_neg (by omega), if_neg (by omega),
        if_neg (by omega), if_neg (by omega), if_neg (by omega), if_neg (by omega)]
    rw [hStar]
    decide

theorem escapeUnit_printable (u : Nat) : ∀ c ∈ escapeUnit u, Printable c := by
  simp only [escapeUnit, List.forall_mem_cons, List.not_mem_nil, false_implies, implies_true,
    and_true]
  exact ⟨by decide, by decide, digitChar_printable _, digitChar_printable _, digitChar_printable _,
    digitChar_printable _⟩

theorem escapeCode_printable (code : Nat) : ∀ c ∈ escapeCode code, Printable c := by
  rw [escapeCode]
  split
  · exact printable_of_all rfl
  split
  · exact printable_of_all rfl
  split
  · rename_i hPrintable
    intro c hc
    rw [List.mem_singleton.mp hc, Printable, toNat_ofNat (by omega)]
    exact hPrintable
  split
  · exact printable_of_all rfl
  split
  · exact printable_of_all rfl
  split
  · exact printable_of_all rfl
  split
  · exact printable_of_all rfl
  split
  · exact printable_of_all rfl
  split
  · exact escapeUnit_printable code
  · exact List.forall_mem_append.mpr ⟨escapeUnit_printable _, escapeUnit_printable _⟩

theorem quote_printable (s : Str) : ∀ c ∈ quote s, Printable c := by
  refine List.forall_mem_cons.mpr
    ⟨by decide, List.forall_mem_append.mpr ⟨?_, printable_of_all rfl⟩⟩
  intro c hc
  obtain ⟨code, _, hCode⟩ := List.mem_flatMap.mp hc
  exact escapeCode_printable code c hCode

/-- Null, an integer or a text. -/
inductive Plain : Value → Prop where
  | null : Plain .null
  | int (n : Int) : Plain (.int n)
  | str (s : Str) : Plain (.str s)

theorem Plain.printable {v : Value} (h : Plain v) : ∀ c ∈ dumps v, Printable c := by
  cases h with
  | null =>
    rw [dumps]
    exact printable_of_all rfl
  | int n =>
    have hDigits : ∀ c ∈ Nat.toDigits 10 n.natAbs, Printable c := by
      intro c hc
      have hDigit := Nat.isDigit_of_mem_toDigits (by decide) (by decide) hc
      rw [Char.isDigit, Bool.and_eq_true, decide_eq_true_eq, decide_eq_true_eq] at hDigit
      have hLow : 48 ≤ c.toNat := hDigit.1
      have hHigh : c.toNat ≤ 57 := hDigit.2
      unfold Printable
      omega
    rw [dumps, dumpInt]
    split
    · exact List.forall_mem_cons.mpr ⟨by decide, hDigits⟩
    · exact hDigits
  | str s =>
    rw [dumps]
    exact quote_printable s

def Flat (dict : Dict) : Prop := ∀ member ∈ dict, Plain member.2

theorem Flat.set {dict : Dict} (h : Flat dict) (key : Str) {value : Value} (hValue : Plain value) :
    Flat (dict.set key value) := by
  intro member hMem
  rcases Dict.mem_set hMem with rfl | hMem
  · exact hValue
  · exact h member hMem

theorem Flat.ofPairs {pairs : List (Str × Value)} (h : ∀ pair ∈ pairs, Plain pair.2) :
    Flat (Dict.ofPairs pairs) :=
  Dict.ofPairs_induction (by simp [Flat]) fun pair hPair _ hDict => hDict.set pair.1 (h pair hPair)

theorem dumpMembers_printable {members : List (Str × Value)} (h : Flat members) :
    ∀ c ∈ dumpMembers members, Printable c := by
  induction members with
  | nil =>
    rw [dumpMembers]
    exact printable_of_all rfl
  | cons member members ih =>
    obtain ⟨hHead, hTail⟩ := List.forall_mem_cons.mp h
    rw [dumpMembers]
    refine List.forall_mem_cons.mpr ⟨by decide, List.forall_mem_cons.mpr ⟨by decide, ?_⟩⟩
    refine List.forall_mem_append.mpr ⟨quote_printable _, List.forall_mem_cons.mpr ⟨by decide, ?_⟩⟩
    refine List.forall_mem_cons.mpr ⟨by decide, List.forall_mem_append.mpr ⟨?_, ih hTail⟩⟩
    exact hHead.printable

theorem Flat.printable {dict : Dict} (h : Flat dict) : ∀ c ∈ dumps (.obj dict), Printable c := by
  cases dict with
  | nil =>
    rw [dumps]
    exact printable_of_all rfl
  | cons member members =>
    obtain ⟨hHead, hTail⟩ := List.forall_mem_cons.mp h
    rw [dumps]
    refine List.forall_mem_cons.mpr ⟨by decide, List.forall_mem_append.mpr ⟨quote_printable _, ?_⟩⟩
    refine List.forall_mem_cons.mpr ⟨by decide, List.forall_mem_cons.mpr ⟨by decide, ?_⟩⟩
    exact List.forall_mem_append.mpr ⟨hHead.printable, dumpMembers_printable hTail⟩

theorem dumps_obj_eq_cons (dict : Dict) : ∃ rest, dumps (.obj dict) = '{' :: rest := by
  cases dict with
  | nil => exact ⟨_, by rw [dumps]⟩
  | cons member members => exact ⟨_, by rw [dumps]⟩

theorem dumpMembers_eq_concat (members : List (Str × Value)) :
    ∃ init, dumpMembers members = init ++ ['}'] := by
  induction members with
  | nil => exact ⟨[], by rw [dumpMembers]; rfl⟩
  | cons member members ih =>
    obtain ⟨init, hInit⟩ := ih
    exact ⟨',' :: ' ' :: (quote member.1 ++ ':' :: ' ' :: (dumps member.2 ++ init)),
      by simp [dumpMembers, hInit]⟩

theorem dumps_obj_eq_concat (dict : Dict) : ∃ init, dumps (.obj dict) = init ++ ['}'] := by
  cases dict with
  | nil => exact ⟨['{'], by rw [dumps]; rfl⟩
  | cons member members =>
    obtain ⟨init, hInit⟩ := dumpMembers_eq_concat members
    exact ⟨'{' :: (quote member.1 ++ ':' :: ' ' :: (dumps member.2 ++ init)),
      by simp [dumps, hInit]⟩

theorem canonical_set {format : FloatFormat} {dict : Dict} {key : Str} {value : Value}
    (h : Canonical format (.obj dict)) (hKey : WellFormed key) (hValue : Canonical format value) :
    Canonical format (.obj (dict.set key value)) := by
  refine ⟨canonicalMembers_iff.mpr fun member hMem => ?_, Dict.sorted_set h.2 key value⟩
  rcases Dict.mem_set hMem with rfl | hMem
  · exact ⟨hKey, hValue⟩
  · exact canonicalMembers_iff.mp h.1 member hMem

end Json
