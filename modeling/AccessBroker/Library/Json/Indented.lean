import AccessBroker.Library.Json

/-! # `json.dumps(value, indent=1)`

The encoder that puts each item and each member on a line of its own. A dict is printed in the
order of its members.
-/

namespace Json
open Py
set_option autoImplicit false

def newline (level : Nat) : Text := '\n' :: List.replicate level ' '

mutual

/-- `level` is the depth of what stands around the value. -/
def dumpIndented (level : Nat) : Value → Text
  | .arr [] => ['[', ']']
  | .arr (item :: items) =>
    '[' :: (newline (level + 1) ++ (dumpIndented (level + 1) item ++ indentedItems level items))
  | .obj [] => ['{', '}']
  | .obj ((key, value) :: members) =>
    '{' :: (newline (level + 1) ++ (quote key ++ (':' :: ' ' ::
      (dumpIndented (level + 1) value ++ indentedMembers level members))))
  | value => dumps value

def indentedItems (level : Nat) : List Value → Text
  | [] => newline level ++ [']']
  | item :: items =>
    ',' :: (newline (level + 1) ++ (dumpIndented (level + 1) item ++ indentedItems level items))

def indentedMembers (level : Nat) : List (Str × Value) → Text
  | [] => newline level ++ ['}']
  | (key, value) :: members =>
    ',' :: (newline (level + 1) ++ (quote key ++ (':' :: ' ' ::
      (dumpIndented (level + 1) value ++ indentedMembers level members))))

end

/-- A `str` as it stands between its quotes. -/
def escaped (s : Str) : Text := s.flatMap escapeCode

example : dumpIndented 0 (.obj [(codes "a".toList, .arr [.int 1]), (codes "b".toList, .obj [])]) =
    "\x7b\n \"a\": [\n  1\n ],\n \"b\": \x7b\x7d\n\x7d".toList := by decide +kernel

/-! ## What a value is printed in -/

theorem infix_indentedItems {item : Value} {items : List Value} (h : item ∈ items) (level : Nat) :
    dumpIndented (level + 1) item <:+: indentedItems level items := by
  induction items with
  | nil => cases h
  | cons first items ih =>
    rw [indentedItems]
    rcases List.mem_cons.mp h with rfl | h
    · exact ⟨',' :: newline (level + 1), indentedItems level items, by simp⟩
    · exact (ih h).trans ⟨',' :: (newline (level + 1) ++ dumpIndented (level + 1) first), [], by simp⟩

theorem infix_items {item : Value} {items : List Value} (h : item ∈ items) (level : Nat) :
    dumpIndented (level + 1) item <:+: dumpIndented level (.arr items) := by
  cases items with
  | nil => cases h
  | cons first items =>
    rw [dumpIndented]
    rcases List.mem_cons.mp h with rfl | h
    · exact ⟨'[' :: newline (level + 1), indentedItems level items, by simp⟩
    · exact (infix_indentedItems h level).trans
        ⟨'[' :: (newline (level + 1) ++ dumpIndented (level + 1) first), [], by simp⟩

theorem infix_indentedMembers {member : Str × Value} {members : List (Str × Value)}
    (h : member ∈ members) (level : Nat) :
    dumpIndented (level + 1) member.2 <:+: indentedMembers level members := by
  induction members with
  | nil => cases h
  | cons first members ih =>
    obtain ⟨key, value⟩ := first
    rw [indentedMembers]
    rcases List.mem_cons.mp h with rfl | h
    · exact ⟨',' :: (newline (level + 1) ++ (quote key ++ [':', ' '])), indentedMembers level members,
        by simp⟩
    · exact (ih h).trans ⟨',' :: (newline (level + 1) ++ (quote key ++ (':' :: ' ' ::
        dumpIndented (level + 1) value))), [], by simp⟩

theorem infix_members {member : Str × Value} {members : List (Str × Value)}
    (h : member ∈ members) (level : Nat) :
    dumpIndented (level + 1) member.2 <:+: dumpIndented level (.obj members) := by
  cases members with
  | nil => cases h
  | cons first members =>
    obtain ⟨key, value⟩ := first
    rw [dumpIndented]
    rcases List.mem_cons.mp h with rfl | h
    · exact ⟨'{' :: (newline (level + 1) ++ (quote key ++ [':', ' '])),
        indentedMembers level members, by simp⟩
    · exact (infix_indentedMembers h level).trans ⟨'{' :: (newline (level + 1) ++ (quote key ++
        (':' :: ' ' :: dumpIndented (level + 1) value))), [], by simp⟩

theorem dumpIndented_str (level : Nat) (s : Str) : dumpIndented level (.str s) = quote s := by
  rw [dumpIndented, dumps]
  all_goals simp

theorem infix_quote (s : Str) : escaped s <:+: quote s := ⟨['"'], ['"'], by simp [quote, escaped]⟩

end Json
