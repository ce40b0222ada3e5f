import AccessBroker.Library.Json.Extension

/-! # Printed values are read back

The canonical values are those the decoder gives; each is read back from its printed text,
whatever follows that text. A value whose members stand in another order is read in order.
-/

namespace Json
open Py
set_option autoImplicit false

variable {format : FloatFormat}

/-! ## Canonical values -/

def CanonicalFloat (format : FloatFormat) (repr : Text) : Prop :=
  repr ∈ floatConstants ∨ (IsFloat repr ∧ format.repr repr = repr)

mutual

/-- The values the decoder gives. -/
def Canonical (format : FloatFormat) : Value → Prop
  | .null | .bool _ => True
  | .int n => (Nat.toDigits 10 n.natAbs).length ≤ maxIntDigits
  | .float repr => CanonicalFloat format repr
  | .str s => WellFormed s
  | .arr items => CanonicalItems format items
  | .obj members => CanonicalMembers format members ∧ Dict.Sorted members

def CanonicalItems (format : FloatFormat) : List Value → Prop
  | [] => True
  | value :: items => Canonical format value ∧ CanonicalItems format items

def CanonicalMembers (format : FloatFormat) : List (Str × Value) → Prop
  | [] => True
  | (key, value) :: members =>
    (WellFormed key ∧ Canonical format value) ∧ CanonicalMembers format members

end

theorem canonicalMembers_iff {members : List (Str × Value)} :
    CanonicalMembers format members ↔
      ∀ member ∈ members, WellFormed member.1 ∧ Canonical format member.2 := by
  induction members with
  | nil => simp [CanonicalMembers]
  | cons member members ih => simp [CanonicalMembers, ih]

theorem canonical_ofPairs {pairs : List (Str × Value)} (h : CanonicalMembers format pairs) :
    Canonical format (.obj (Dict.ofPairs pairs)) := by
  rw [canonicalMembers_iff] at h
  refine ⟨canonicalMembers_iff.mpr ?_, Dict.sorted_ofPairs pairs⟩
  refine Dict.ofPairs_induction (P := fun dict => ∀ member ∈ dict, WellFormed member.1 ∧
    Canonical format member.2) (by simp) fun pair hPair dict hDict member hMem => ?_
  rcases Dict.mem_set hMem with rfl | hMem
  · exact h pair hPair
  · exact hDict member hMem

/-! ## Values in any order -/

mutual

/-- The values that are printed as JSON, whatever the order of their members. -/
def Dumpable (format : FloatFormat) : Value → Prop
  | .null | .bool _ => True
  | .int n => (Nat.toDigits 10 n.natAbs).length ≤ maxIntDigits
  | .float repr => CanonicalFloat format repr
  | .str s => WellFormed s
  | .arr items => DumpableItems format items
  | .obj members => DumpableMembers format members

def DumpableItems (format : FloatFormat) : List Value → Prop
  | [] => True
  | value :: items => Dumpable format value ∧ DumpableItems format items

def DumpableMembers (format : FloatFormat) : List (Str × Value) → Prop
  | [] => True
  | (key, value) :: members =>
    (WellFormed key ∧ Dumpable format value) ∧ DumpableMembers format members

end

mutual

/-- The value with the members of its objects in the decoder's order. -/
def Value.ordered : Value → Value
  | .null => .null
  | .bool b => .bool b
  | .int n => .int n
  | .float repr => .float repr
  | .str s => .str s
  | .arr items => .arr (orderedItems items)
  | .obj members => .obj (Dict.ofPairs (orderedMembers members))

def orderedItems : List Value → List Value
  | [] => []
  | value :: items => value.ordered :: orderedItems items

def orderedMembers : List (Str × Value) → List (Str × Value)
  | [] => []
  | (key, value) :: members => (key, value.ordered) :: orderedMembers members

end

mutual

theorem Canonical.dumpable : (v : Value) → Canonical format v → Dumpable format v
  | .null, h | .bool _, h | .int _, h | .float _, h | .str _, h => h
  | .arr items, h => CanonicalItems.dumpable items h
  | .obj members, h => CanonicalMembers.dumpable members h.1

theorem CanonicalItems.dumpable :
    (items : List Value) → CanonicalItems format items → DumpableItems format items
  | [], h => h
  | value :: items, h => ⟨Canonical.dumpable value h.1, CanonicalItems.dumpable items h.2⟩

theorem CanonicalMembers.dumpable : (members : List (Str × Value)) →
    CanonicalMembers format members → DumpableMembers format members
  | [], h => h
  | (_, value) :: members, h =>
    ⟨⟨h.1.1, Canonical.dumpable value h.1.2⟩, CanonicalMembers.dumpable members h.2⟩

end

mutual

theorem Canonical.ordered : (v : Value) → Canonical format v → v.ordered = v
  | .null, _ | .bool _, _ | .int _, _ | .float _, _ | .str _, _ => rfl
  | .arr items, h => congrArg Value.arr (CanonicalItems.ordered items h)
  | .obj members, h => by
    rw [Value.ordered, CanonicalMembers.ordered members h.1, Dict.ofPairs_sorted h.2]

theorem CanonicalItems.ordered :
    (items : List Value) → CanonicalItems format items → orderedItems items = items
  | [], _ => rfl
  | value :: items, h =>
    congrArg₂ List.cons (Canonical.ordered value h.1) (CanonicalItems.ordered items h.2)

theorem CanonicalMembers.ordered : (members : List (Str × Value)) →
    CanonicalMembers format members → orderedMembers members = members
  | [], _ => rfl
  | (key, value) :: members, h =>
    congrArg₂ List.cons (congrArg (key, ·) (Canonical.ordered value h.1.2))
      (CanonicalMembers.ordered members h.2)

end

/-! ## Printed values are read back -/

theorem parseValue_scalar {c : Char} {fuel : Nat} {text : Text} (hQuote : c ≠ '"')
    (hBracket : c ≠ '[') (hBrace : c ≠ '{') :
    parseValue format (fuel + 1) (c :: text) = parseScalar format c (c :: text) := by
  rw [parseValue, if_neg hQuote, if_neg hBracket, if_neg hBrace]

theorem scanNumber_head {c : Char} {text rest : Text} {n : Number}
    (h : scanNumber (c :: text) = some (n, rest)) : c = '-' ∨ c.isDigit = true := by
  by_cases hMinus : c = '-'
  · exact Or.inl hMinus
  · right
    rw [scanNumber, scanSign, if_neg hMinus] at h
    cases hDigit : c.isDigit with
    | true => rfl
    | false =>
      have hZero : c ≠ '0' := by
        rintro rfl
        cases hDigit
      simp [scanWhole, hDigit, hZero] at h

theorem parseValue_number {text w : Text} {n : Number} {v : Value} {fuel : Nat}
    (hScan : scanNumber text = some (n, [])) (hValue : n.value format = some v) (hw : Stops w) :
    parseValue format (fuel + 1) (text ++ w) = some (v, w) := by
  have hParse : parseNumber format text = some (v, []) := by
    rw [parseNumber, hScan]
    simp only [hValue, Option.map_some]
  obtain ⟨hNumber, hNoWord⟩ := parseNumber_append hw hParse
  cases text with
  | nil => cases hScan
  | cons c text =>
    have hNe : ∀ d : Char, d ≠ '-' → d.isDigit = false → c ≠ d := by
      rintro d hMinus hDigit rfl
      rcases scanNumber_head hScan with h | h
      · exact hMinus h
      · rw [hDigit] at h
        cases h
    rw [List.cons_append] at hNumber hNoWord ⊢
    rw [parseValue_scalar (hNe _ (by decide) (by decide)) (hNe _ (by decide) (by decide))
      (hNe _ (by decide) (by decide)), parseScalar, if_neg (hNe _ (by decide) (by decide)),
      if_neg (hNe _ (by decide) (by decide)), if_neg (hNe _ (by decide) (by decide)),
      if_neg (hNe _ (by decide) (by decide)), if_neg (hNe _ (by decide) (by decide)), hNoWord]
    exact hNumber

theorem scanWord_self (word w : Text) (value : Value) :
    scanWord word value (word ++ w) = some (value, w) := by
  rw [scanWord, if_pos (by simp)]
  simp

theorem parseValue_float {repr w : Text} {fuel : Nat} (h : CanonicalFloat format repr)
    (hw : Stops w) : parseValue format (fuel + 1) (repr ++ w) = some (.float repr, w) := by
  rcases h with hConstant | ⟨⟨n, hScan, hTail, hText⟩, hRepr⟩
  · simp only [floatConstants, List.mem_cons, List.not_mem_nil, or_false] at hConstant
    rcases hConstant with rfl | rfl | rfl
    · exact scanWord_self "NaN".toList w (.float "NaN".toList)
    · exact scanWord_self "Infinity".toList w (.float "Infinity".toList)
    · have hWord := scanWord_self "-Infinity".toList w (.float "-Infinity".toList)
      have hHead : "-Infinity".toList ++ w = '-' :: ("Infinity".toList ++ w) := rfl
      rw [hHead] at hWord ⊢
      rw [parseValue_scalar (by decide) (by decide) (by decide), parseScalar, if_neg (by decide),
        if_neg (by decide), if_neg (by decide), if_neg (by decide), if_neg (by decide), hWord]
      rfl
  · refine parseValue_number hScan ?_ hw
    rw [Number.value, if_pos hTail, hText, hRepr]

theorem parseValue_quote {s : Str} (h : WellFormed s) (fuel : Nat) (w : Text) :
    parseValue format (fuel + 1) (quote s ++ w) = some (.str s, w) := by
  have hScan := scanString_body h.bounded w
  rw [quote, List.cons_append, List.append_assoc, List.singleton_append, parseValue, if_pos rfl,
    hScan, Option.map_some, joinSurrogates_units h]

/-- The characters a value starts with. -/
def Starts (c : Char) : Prop :=
  c ∈ ['"', '[', '{', 'n', 't', 'f', 'N', 'I', '-'] ∨ c.isDigit = true

theorem parseValue_head {fuel : Nat} {c : Char} {text : Text} {r : Value × Text}
    (h : parseValue format fuel (c :: text) = some r) : Starts c := by
  cases fuel with
  | zero => cases h
  | succ fuel =>
    by_contra hNot
    obtain ⟨hMark, hDigit⟩ := not_or.mp hNot
    simp only [List.mem_cons, List.not_mem_nil, or_false, not_or] at hMark
    obtain ⟨hQuote, hBracket, hBrace, hn, ht, hf, hN, hI, hMinus⟩ := hMark
    rw [parseValue_scalar hQuote hBracket hBrace, parseScalar, if_neg hn, if_neg ht, if_neg hf,
      if_neg hN, if_neg hI] at h
    rcases Option.or_eq_some_iff.mp h with hWord | ⟨_, hNumber⟩
    · rw [scanWord] at hWord
      split at hWord
      · rename_i hPrefix
        obtain ⟨after, hText⟩ := List.isPrefixOf_iff_prefix.mp hPrefix
        injection hText with hHead _
        exact hMinus hHead.symm
      · cases hWord
    · rw [parseNumber] at hNumber
      split at hNumber
      · cases hNumber
      · rename_i hScan
        rcases scanNumber_head hScan with h | h
        · exact hMinus h
        · exact hDigit h

theorem not_isWs_of_starts {c : Char} (h : Starts c) : isWs c = false := by
  rcases h with h | h
  · simp only [List.mem_cons, List.not_mem_nil, or_false] at h
    rcases h with rfl | rfl | rfl | rfl | rfl | rfl | rfl | rfl | rfl <;> rfl
  · cases hWs : isWs c with
    | false => rfl
    | true =>
      simp only [isWs, Bool.or_eq_true, decide_eq_true_eq] at hWs
      rcases hWs with ((rfl | rfl) | rfl) | rfl <;> cases h

theorem skipWs_of_not_isWs {c : Char} (h : isWs c = false) (text : Text) :
    skipWs (c :: text) = c :: text := List.dropWhile_cons_of_neg (by simp [h])

theorem skipWs_parseValue {fuel : Nat} {text : Text} {r : Value × Text}
    (h : parseValue format fuel text = some r) : skipWs text = text := by
  cases text with
  | nil => rfl
  | cons c text => exact skipWs_of_not_isWs (not_isWs_of_starts (parseValue_head h)) text

theorem skipWs_space (text : Text) : skipWs (' ' :: text) = skipWs text :=
  List.dropWhile_cons_of_pos rfl

/-- The printed value is read as `v'`, whatever follows it. -/
def ReadsAs (format : FloatFormat) (v v' : Value) : Prop :=
  ∀ fuel w, 2 * (dumps v).length ≤ fuel → Stops w →
    parseValue format fuel (dumps v ++ w) = some (v', w)

/-- The next value stands right after the separator's blank. -/
theorem ReadsAs.skipWs_space {v v' : Value} (h : ReadsAs format v v') {w : Text} (hw : Stops w) :
    skipWs (' ' :: (dumps v ++ w)) = dumps v ++ w := by
  rw [Json.skipWs_space]
  exact skipWs_parseValue (h _ w (Nat.le_refl _) hw)

theorem stops_dumpItems (items : List Value) (w : Text) : Stops (dumpItems items ++ w) := by
  cases items <;> exact stops_cons (by decide) (by decide)

theorem stops_dumpMembers (members : List (Str × Value)) (w : Text) :
    Stops (dumpMembers members ++ w) := by
  cases members with
  | nil => exact stops_cons (by decide) (by decide)
  | cons member members => exact stops_cons (by decide) (by decide)

theorem parseItems_dumps {item : Value} {items : List Value}
    (hReads : ∀ v ∈ item :: items, ReadsAs format v v.ordered) (fuel : Nat) (w : Text)
    (hFuel : 2 * ((dumps item).length + (dumpItems items).length) ≤ fuel) :
    parseItems format (fuel + 1) (dumps item ++ (dumpItems items ++ w)) =
      some (orderedItems (item :: items), w) := by
  induction items generalizing item fuel with
  | nil =>
    have hValue := hReads item List.mem_cons_self fuel (dumpItems [] ++ w) (by omega)
      (stops_dumpItems [] w)
    rw [parseItems, hValue]
    rfl
  | cons next items ih =>
    have hValue := hReads item List.mem_cons_self fuel (dumpItems (next :: items) ++ w)
      (by omega) (stops_dumpItems _ w)
    have hNext := (hReads next (by simp)).skipWs_space (stops_dumpItems items w)
    rw [parseItems, hValue]
    rw [dumpItems, List.length_cons, List.length_cons, List.length_append] at hFuel
    obtain ⟨fuel, rfl⟩ : ∃ f, fuel = f + 1 := ⟨fuel - 1, by omega⟩
    have hTail := ih (fun v hv => hReads v (List.mem_cons_of_mem _ hv)) fuel (by omega)
    rw [dumpItems, List.cons_append, List.cons_append, List.append_assoc]
    dsimp only
    rw [skipWs_of_not_isWs (by decide)]
    dsimp only
    rw [if_neg (by decide), if_pos rfl, hNext, hTail]
    rfl

theorem parseMembers_dumps {key : Str} {value : Value} {members : List (Str × Value)}
    (hReads : ∀ member ∈ (key, value) :: members, ReadsAs format member.2 member.2.ordered)
    (hKeys : ∀ member ∈ (key, value) :: members, WellFormed member.1) (fuel : Nat) (w : Text)
    (hFuel : 2 * ((dumps value).length + (dumpMembers members).length) ≤ fuel) :
    parseMembers format (fuel + 1)
      (quote key ++ ':' :: ' ' :: (dumps value ++ (dumpMembers members ++ w))) =
        some (orderedMembers ((key, value) :: members), w) := by
  induction members generalizing key value fuel with
  | nil =>
    have hKey : WellFormed key := hKeys (key, value) List.mem_cons_self
    have hRead : ReadsAs format value value.ordered := hReads (key, value) List.mem_cons_self
    have hValue := hRead fuel (dumpMembers [] ++ w) (by omega) (stops_dumpMembers [] w)
    have hBlank := hRead.skipWs_space (stops_dumpMembers [] w)
    rw [quote, List.cons_append, List.append_assoc, List.singleton_append, parseMembers,
      if_neg (not_not_intro rfl), scanString_body hKey.bounded]
    dsimp only
    rw [skipWs_of_not_isWs (by decide)]
    dsimp only
    rw [if_neg (not_not_intro rfl), hBlank, hValue, joinSurrogates_units hKey]
    rfl
  | cons next members ih =>
    obtain ⟨nextKey, nextValue⟩ := next
    have hKey : WellFormed key := hKeys (key, value) List.mem_cons_self
    have hRead : ReadsAs format value value.ordered := hReads (key, value) List.mem_cons_self
    have hValue := hRead fuel (dumpMembers ((nextKey, nextValue) :: members) ++ w) (by omega)
      (stops_dumpMembers _ w)
    have hBlank := hRead.skipWs_space
      (stops_dumpMembers ((nextKey, nextValue) :: members) w)
    rw [quote, List.cons_append, List.append_assoc, List.singleton_append, parseMembers,
      if_neg (not_not_intro rfl), scanString_body hKey.bounded]
    dsimp only
    rw [skipWs_of_not_isWs (by decide)]
    dsimp only
    rw [if_neg (not_not_intro rfl), hBlank, hValue, joinSurrogates_units hKey]
    simp only [dumpMembers, List.length_cons, List.length_append] at hFuel
    obtain ⟨fuel, rfl⟩ : ∃ f, fuel = f + 1 := ⟨fuel - 1, by omega⟩
    have hTail := ih (fun m hm => hReads m (List.mem_cons_of_mem _ hm))
      (fun m hm => hKeys m (List.mem_cons_of_mem _ hm)) fuel (by omega)
    rw [dumpMembers]
    simp only [List.cons_append, List.append_assoc] at hTail ⊢
    rw [skipWs_of_not_isWs (by decide)]
    dsimp only
    rw [if_neg (by decide), if_pos rfl, Json.skipWs_space]
    rw [quote, List.cons_append] at hTail ⊢
    rw [skipWs_of_not_isWs (by decide), hTail]
    rfl

theorem reads_arr {items : List Value} (h : ∀ item ∈ items, ReadsAs format item item.ordered) :
    ReadsAs format (.arr items) (Value.arr items).ordered := by
  intro fuel w hFuel hw
  cases items with
  | nil =>
    obtain ⟨fuel, rfl⟩ : ∃ f, fuel = f + 1 := ⟨fuel - 1, by simp [dumps] at hFuel; omega⟩
    rfl
  | cons item items =>
    simp only [dumps, List.length_cons, List.length_append] at hFuel
    obtain ⟨fuel, rfl⟩ : ∃ f, fuel = f + 2 := ⟨fuel - 2, by omega⟩
    have hItems := parseItems_dumps h fuel w (by omega)
    have hRead := h item List.mem_cons_self _ _ (Nat.le_refl _) (stops_dumpItems items w)
    rw [dumps, List.cons_append, List.append_assoc, parseValue, if_neg (by decide), if_pos rfl,
      skipWs_parseValue hRead]
    obtain ⟨c, after, hText⟩ := List.exists_cons_of_ne_nil (parseValue_ne_nil hRead)
    rw [hText] at hRead hItems ⊢
    have hClose : c ≠ ']' := by
      rintro rfl
      exact absurd (parseValue_head hRead) (by unfold Starts; decide)
    dsimp only
    rw [if_neg hClose, hItems]
    rfl

theorem reads_obj {members : List (Str × Value)}
    (h : ∀ member ∈ members, ReadsAs format member.2 member.2.ordered)
    (hKeys : ∀ member ∈ members, WellFormed member.1) :
    ReadsAs format (.obj members) (Value.obj members).ordered := by
  intro fuel w hFuel hw
  cases members with
  | nil =>
    obtain ⟨fuel, rfl⟩ : ∃ f, fuel = f + 1 := ⟨fuel - 1, by simp [dumps] at hFuel; omega⟩
    rfl
  | cons member members =>
    obtain ⟨key, value⟩ := member
    simp only [dumps, List.length_cons, List.length_append] at hFuel
    obtain ⟨fuel, rfl⟩ : ∃ f, fuel = f + 2 := ⟨fuel - 2, by omega⟩
    have hMembers := parseMembers_dumps h hKeys fuel w (by omega)
    rw [dumps, List.cons_append, List.append_assoc, List.cons_append, List.cons_append,
      List.append_assoc, parseValue, if_neg (by decide), if_neg (by decide), if_pos rfl]
    rw [quote, List.cons_append] at hMembers ⊢
    rw [skipWs_of_not_isWs (by decide)]
    dsimp only
    rw [if_neg (by decide), hMembers]
    rfl

theorem reads_int {n : Int} (h : Dumpable format (.int n)) : ReadsAs format (.int n) (.int n) := by
  intro fuel w hFuel hw
  have hNonempty : 0 < (dumpInt n).length := by
    rw [dumpInt]
    split
    · simp
    · exact Nat.length_toDigits_pos
  simp only [dumps] at hFuel
  obtain ⟨fuel, rfl⟩ : ∃ f, fuel = f + 1 := ⟨fuel - 1, by omega⟩
  exact parseValue_number (scanNumber_dumpInt n) (value_dumpInt format h) hw

theorem reads_float {repr : Text} (h : Dumpable format (.float repr)) :
    ReadsAs format (.float repr) (.float repr) := by
  intro fuel w hFuel hw
  have hNonempty : 0 < repr.length := by
    rw [List.length_pos_iff]
    rintro rfl
    rcases h with h | ⟨⟨n, hScan, _⟩, _⟩
    · exact absurd h (by decide)
    · cases hScan
  simp only [dumps] at hFuel
  obtain ⟨fuel, rfl⟩ : ∃ f, fuel = f + 1 := ⟨fuel - 1, by omega⟩
  exact parseValue_float h hw

theorem reads_str {s : Str} (h : Dumpable format (.str s)) :
    ReadsAs format (.str s) (.str s) := by
  intro fuel w hFuel _
  simp only [dumps, quote, List.length_cons] at hFuel
  obtain ⟨fuel, rfl⟩ : ∃ f, fuel = f + 1 := ⟨fuel - 1, by omega⟩
  exact parseValue_quote h fuel w

theorem reads_word {word : Text} {v : Value} (hDumps : dumps v = word)
    (hParse : ∀ fuel w, parseValue format (fuel + 1) (word ++ w) = some (v, w))
    (hWord : 0 < word.length) : ReadsAs format v v := by
  intro fuel w hFuel _
  rw [hDumps] at hFuel ⊢
  obtain ⟨fuel, rfl⟩ : ∃ f, fuel = f + 1 := ⟨fuel - 1, by omega⟩
  exact hParse fuel w

mutual

theorem readsOrdered : (v : Value) → Dumpable format v → ReadsAs format v v.ordered
  | .null, _ => reads_word rfl (fun _ w => scanWord_self "null".toList w .null) (by decide)
  | .bool true, _ =>
    reads_word rfl (fun _ w => scanWord_self "true".toList w (.bool true)) (by decide)
  | .bool false, _ =>
    reads_word rfl (fun _ w => scanWord_self "false".toList w (.bool false)) (by decide)
  | .int _, h => reads_int h
  | .float _, h => reads_float h
  | .str _, h => reads_str h
  | .arr items, h => reads_arr (reads_items items h)
  | .obj members, h => reads_obj (fun member hMem => (reads_members members h member hMem).2)
      fun member hMem => (reads_members members h member hMem).1

theorem reads_items : (items : List Value) → DumpableItems format items →
    ∀ item ∈ items, ReadsAs format item item.ordered
  | [], _ => by simp
  | item :: items, h => List.forall_mem_cons.mpr ⟨readsOrdered item h.1, reads_items items h.2⟩

theorem reads_members : (members : List (Str × Value)) → DumpableMembers format members →
    ∀ member ∈ members, WellFormed member.1 ∧ ReadsAs format member.2 member.2.ordered
  | [], _ => by simp
  | (_, value) :: members, h =>
    List.forall_mem_cons.mpr ⟨⟨h.1.1, readsOrdered value h.1.2⟩, reads_members members h.2⟩

end

end Json
