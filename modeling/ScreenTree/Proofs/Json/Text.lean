import ScreenTree.Json.Writer
import ScreenTree.Proofs.Json.NumberText
import Mathlib.Data.List.DropRight

/-! # Reading written text

The form of a value is what reading its text gives. The pretty text of a value whose numbers are
legible reads back as its form, whatever comes behind it. -/

namespace ScreenTree

namespace Number

/-- The parts of the text of a number. -/
def written (n : Number) : NumberText :=
  match Json.readNumber n.jsonText with
  | some (t, _) => t
  | none => ⟨false, [], none, none⟩

/-- The text of the number begins like one, and is read to its end and no further. -/
structure Legible (n : Number) : Prop where
  starts : ∃ c cs, n.jsonText = c :: cs ∧ (c = '-' ∨ c.isDigit = true)
  reads : ∀ rest, EndsNumber rest →
    Json.readNumber (n.jsonText ++ rest) = some (n.written, rest)

def isInteger : Number → Bool
  | .integer .. => true
  | .double _ => false

end Number

/-! ## Numbers -/

namespace NumberText

/-- The text of an integer. -/
def ofInt (i : Int) : NumberText :=
  ⟨decide (i < 0), Numeral.digits 10 i.natAbs, none, none⟩

theorem proper_ofInt (i : Int) : (ofInt i).Proper := by
  refine ⟨areDigits_digits _, fun hzero => ?_, nofun⟩
  by_cases hi : i.natAbs = 0
  · simp only [ofInt, hi]
    exact Numeral.digits_zero (by decide : 2 ≤ 10)
  · exact absurd hzero (head?_digits_ne (by omega))

theorem value?_ofInt (i : Int) (h : -0x8000000000000000 ≤ i ∧ i ≤ 0xffffffffffffffff) :
    (ofInt i).value? = some (.integer i h) := by
  have hvalue : Numeral.value 10 (Numeral.digits 10 i.natAbs) = i.natAbs :=
    Numeral.value_digits (by decide) _
  have hofInt : Number.ofInt? i = some (.integer i h) := by rw [Number.ofInt?, dif_pos h]
  have hinteger : (ofInt i).integer? = some (.integer i h) := by
    simp only [integer?, ofInt, hvalue]
    by_cases hneg : i < 0
    · have habs : -(i.natAbs : Int) = i := by omega
      simp only [hneg, decide_true, if_true]
      rw [if_neg (by omega), if_pos (by omega), habs, hofInt]
    · have habs : (i.natAbs : Int) = i := by omega
      simp only [hneg, decide_false, Bool.false_eq_true, if_false]
      rw [habs, hofInt]
  rw [value?, hinteger]

end NumberText

namespace Number

section Parts

variable {n : Number} {t : NumberText} (ht : t.Proper) (h : n.jsonText = t.chars)

include ht h

/-- A number that is written by its parts is read as these parts. -/
theorem written_eq : n.written = t := by
  have hread := Json.readNumber_chars ht (nofun : EndsNumber [])
  rw [List.append_nil] at hread
  rw [written, h, hread]

theorem legible_of_parts : n.Legible := by
  refine ⟨?_, fun rest hrest => ?_⟩
  · rw [h]
    exact Json.exists_chars_eq_cons ht
  · rw [written_eq ht h, h]
    exact Json.readNumber_chars ht hrest

end Parts

theorem jsonText_integer (i : Int) (h : -0x8000000000000000 ≤ i ∧ i ≤ 0xffffffffffffffff) :
    (integer i h).jsonText = (NumberText.ofInt i).chars := by
  rw [jsonText, Numeral.intText]
  split <;>
    simp [*, Numeral.text, Numeral.chars, NumberText.chars, NumberText.ofInt,
      NumberText.fractionChars, NumberText.exponentChars]

theorem written_integer (i : Int) (h : -0x8000000000000000 ≤ i ∧ i ≤ 0xffffffffffffffff) :
    (integer i h).written = NumberText.ofInt i :=
  written_eq (NumberText.proper_ofInt i) (jsonText_integer i h)

theorem legible_of_isInteger {n : Number} (h : n.isInteger = true) : n.Legible := by
  cases n with
  | double x => cases h
  | integer i range => exact legible_of_parts (NumberText.proper_ofInt i) (jsonText_integer i range)

theorem value?_written {n : Number} (h : n.isInteger = true) : n.written.value? = some n := by
  cases n with
  | double x => cases h
  | integer i range => rw [written_integer, NumberText.value?_ofInt]

end Number

namespace Json

/-! ## Strings -/

theorem hexUnit?_symbol : ∀ n < 0x20,
    hexUnit? '0' '0' (Numeral.symbol (n / 16)) (Numeral.symbol (n % 16)) = some n := by
  decide

theorem readItems_plain {c : Char} (hquote : c ≠ '"') (hbackslash : c ≠ '\\')
    (hplain : ¬(c = '\\' ∨ c.toNat < 0x20)) (rest : List Char) :
    readItems (c :: rest) =
      (readItems rest).map fun (items, rest) => (.char c :: items, rest) := by
  rw [readItems.eq_def]
  split
  · next h => cases h
  · next h => cases h; exact absurd rfl hquote
  · next h => cases h; exact absurd rfl hbackslash
  · next h => cases h; exact absurd rfl hbackslash
  · next h => cases h; rw [if_neg hplain]

/-- A character of a string is read as one item, which stands for it. -/
theorem readItems_escape (c : Char) (rest : List Char) :
    ∃ item, readItems (escape c ++ rest) =
        ((readItems rest).map fun (items, rest) => (item :: items, rest)) ∧
      ∀ items, joinItems (item :: items) = (joinItems items).map (c :: ·) := by
  by_cases hshort : c = '"' ∨ c = '\\' ∨ c = '\x08' ∨ c = '\x0c' ∨ c = '\n' ∨ c = '\r' ∨ c = '\t'
  · refine ⟨.char c, ?_, fun _ => rfl⟩
    rcases hshort with rfl | rfl | rfl | rfl | rfl | rfl | rfl <;>
      simp [escape, readItems, escaped?]
  · simp only [not_or] at hshort
    obtain ⟨hquote, hbackslash, hb, hf, hn, hr, ht⟩ := hshort
    by_cases hcontrol : c.toNat < 0x20
    · refine ⟨.unit c.toNat, ?_, ?_⟩
      · simp [escape, *, readItems, hexUnit?_symbol]
      · intro items
        have hlow : isLowSurrogate c.toNat = false := by
          simp only [isLowSurrogate, Bool.and_eq_false_iff, decide_eq_false_iff_not]
          omega
        have hhigh : isHighSurrogate c.toNat = false := by
          simp only [isHighSurrogate, Bool.and_eq_false_iff, decide_eq_false_iff_not]
          omega
        rw [joinItems.eq_def]
        simp [hlow, hhigh]
    · refine ⟨.char c, ?_, fun _ => rfl⟩
      have hescape : escape c = [c] := by simp [escape, *]
      have hplain : ¬(c = '\\' ∨ c.toNat < 0x20) := by
        rintro (h | h)
        · exact hbackslash h
        · exact hcontrol h
      rw [hescape, List.singleton_append]
      exact readItems_plain hquote hbackslash hplain rest

/-- The characters of a string, up to its closing quote. -/
theorem readItems_flatMap_escape (cs rest : List Char) :
    ∃ items, readItems (cs.flatMap escape ++ '"' :: rest) = some (items, rest) ∧
      joinItems items = some cs := by
  induction cs with
  | nil => exact ⟨[], by simp [readItems], rfl⟩
  | cons c cs ih =>
    obtain ⟨items, hitems, hjoin⟩ := ih
    obtain ⟨item, hitem, hcons⟩ := readItems_escape c (cs.flatMap escape ++ '"' :: rest)
    refine ⟨item :: items, ?_, ?_⟩
    · rw [List.flatMap_cons, List.append_assoc, hitem, hitems]
      rfl
    · rw [hcons, hjoin]
      rfl

/-- A quoted string is read back behind its opening quote. -/
theorem readString_quote (s : String) (rest : List Char) :
    readString (s.toList.flatMap escape ++ '"' :: rest) = some (some s, rest) := by
  obtain ⟨items, hitems, hjoin⟩ := readItems_flatMap_escape s.toList rest
  simp [readString, hitems, hjoin]

/-! ## Blanks -/

theorem skipSpace_cons {c : Char} (h : isSpace c = false) (cs : List Char) :
    skipSpace (c :: cs) = c :: cs := by
  rw [skipSpace, List.dropWhile_cons_of_neg (by simp [h])]

theorem skipSpace_newLine (level : Nat) (cs : List Char) :
    skipSpace (newLine level ++ cs) = skipSpace cs := by
  have hspace : ∀ c ∈ newLine level, isSpace c = true := by
    intro c hc
    rcases List.mem_cons.1 hc with rfl | hc
    · rfl
    · rw [List.eq_of_mem_replicate hc]
      rfl
  exact List.dropWhile_append_of_pos hspace

theorem skipSpace_skipSpace (cs : List Char) : skipSpace (skipSpace cs) = skipSpace cs :=
  List.dropWhile_idempotent _ _

theorem readValue_skipSpace (fuel : Nat) (cs : List Char) :
    readValue fuel (skipSpace cs) = readValue fuel cs := by
  cases fuel with
  | zero => rfl
  | succ fuel => simp only [readValue, skipSpace_skipSpace]

theorem readElements_skipSpace (fuel : Nat) (cs : List Char) :
    readElements fuel (skipSpace cs) = readElements fuel cs := by
  cases fuel with
  | zero => rfl
  | succ fuel => simp only [readElements, readValue_skipSpace]

theorem readMembers_skipSpace (fuel : Nat) (cs : List Char) :
    readMembers fuel (skipSpace cs) = readMembers fuel cs := by
  cases fuel with
  | zero => rfl
  | succ fuel => simp only [readMembers, skipSpace_skipSpace]

/-! ## Values -/

mutual

/-- The numbers of a value, from front to back. -/
def numbers : Json → List Number
  | .number n => [n]
  | .array items => itemNumbers items
  | .object members => memberNumbers members
  | .null | .bool _ | .string _ => []

def itemNumbers : List Json → List Number
  | [] => []
  | v :: vs => v.numbers ++ itemNumbers vs

def memberNumbers : List (String × Json) → List Number
  | [] => []
  | (_, v) :: ms => v.numbers ++ memberNumbers ms

end

mutual

/-- What reading the text of a value gives. -/
def form : Json → Form
  | .null => .null
  | .bool b => .bool b
  | .number n => .number n.written
  | .string s => .string (some s)
  | .array items => .array (itemForms items)
  | .object members => .object (memberForms members)

def itemForms : List Json → List Form
  | [] => []
  | v :: vs => v.form :: itemForms vs

def memberForms : List (String × Json) → List (Option String × Form)
  | [] => []
  | (k, v) :: ms => (some k, v.form) :: memberForms ms

end

theorem itemForms_eq_map (vs : List Json) : itemForms vs = vs.map form := by
  induction vs with
  | nil => rfl
  | cons v vs ih => rw [itemForms, ih, List.map_cons]

theorem isSpace_eq_false {c : Char} (hc : c = '-' ∨ c.isDigit = true) : isSpace c = false := by
  rcases hc with rfl | hc
  · rfl
  · simp only [isSpace, Bool.or_eq_false_iff, beq_eq_false_iff_ne]
    refine ⟨⟨⟨?_, ?_⟩, ?_⟩, ?_⟩ <;> rintro rfl <;> cases hc

/-- The text of a value begins with a character that ends neither a blank nor an array. -/
theorem prettyChars_head (level : Nat) (v : Json) (h : ∀ n ∈ v.numbers, n.Legible) :
    ∃ c cs, prettyChars level v = c :: cs ∧ isSpace c = false ∧ c ≠ ']' := by
  cases v with
  | null => exact ⟨'n', "ull".toList, rfl, rfl, by decide⟩
  | bool b =>
    cases b with
    | false => exact ⟨'f', "alse".toList, rfl, rfl, by decide⟩
    | true => exact ⟨'t', "rue".toList, rfl, rfl, by decide⟩
  | number n =>
    obtain ⟨c, cs, htext, hc⟩ := (h n (by simp [numbers])).starts
    refine ⟨c, cs, htext, ?_, ?_⟩
    · exact isSpace_eq_false hc
    · rintro rfl
      rcases hc with hc | hc <;> cases hc
  | string s => exact ⟨'"', _, rfl, rfl, by decide⟩
  | array items => cases items <;> exact ⟨'[', _, rfl, rfl, by decide⟩
  | object members => cases members <;> exact ⟨'\x7b', _, rfl, rfl, by decide⟩

theorem endsNumber_newLine (level : Nat) (cs : List Char) : EndsNumber (newLine level ++ cs) := by
  intro c hc
  cases hc
  decide

theorem endsNumber_cons {c : Char} (h : c = ',' ∨ c = ']' ∨ c = '\x7d') (cs : List Char) :
    EndsNumber (c :: cs) := by
  intro d hd
  cases hd
  rcases h with rfl | rfl | rfl <;> decide

/-- What begins like a number is read as one. -/
theorem readValue_of_readNumber {c : Char} (hc : c = '-' ∨ c.isDigit = true) {cs rest : List Char}
    {t : NumberText} (h : readNumber (c :: cs) = some (t, rest)) (fuel : Nat) :
    readValue (fuel + 1) (c :: cs) = some (.number t, rest) := by
  rw [readValue, skipSpace_cons (isSpace_eq_false hc)]
  split
  case h_7 => rw [h, Option.map_some]
  all_goals
    next hhead =>
      simp only [List.cons.injEq] at hhead
      obtain ⟨rfl, -⟩ := hhead
      rcases hc with hc | hc <;> cases hc

theorem readValue_number {n : Number} (h : n.Legible) (fuel : Nat) {rest : List Char}
    (hrest : EndsNumber rest) :
    readValue (fuel + 1) (n.jsonText ++ rest) = some (.number n.written, rest) := by
  have hread := h.reads rest hrest
  obtain ⟨c, cs, htext, hc⟩ := h.starts
  rw [htext, List.cons_append] at hread ⊢
  exact readValue_of_readNumber hc hread fuel

theorem quote_append (s : String) (cs : List Char) :
    quote s ++ cs = '"' :: (s.toList.flatMap escape ++ '"' :: cs) := by
  simp [quote]

theorem readValue_string (s : String) (fuel : Nat) (rest : List Char) :
    readValue (fuel + 1) (quote s ++ rest) = some (.string (some s), rest) := by
  rw [quote_append, readValue, skipSpace_cons rfl]
  simp only [readString_quote, Option.map_some]

theorem readValue_bracket {fuel : Nat} {cs : List Char}
    (h : ∀ rest, skipSpace cs ≠ ']' :: rest) :
    readValue (fuel + 1) ('[' :: cs) =
      (readElements fuel cs).map fun (items, rest) => (.array items, rest) := by
  rw [readValue, skipSpace_cons rfl]
  simp only [readElements_skipSpace]

theorem readValue_brace {fuel : Nat} {cs : List Char}
    (h : ∀ rest, skipSpace cs ≠ '\x7d' :: rest) :
    readValue (fuel + 1) ('\x7b' :: cs) =
      (readMembers fuel cs).map fun (members, rest) => (.object members, rest) := by
  rw [readValue, skipSpace_cons rfl]
  simp only [readMembers_skipSpace]

theorem readValue_newLine (fuel level : Nat) (cs : List Char) :
    readValue fuel (newLine level ++ cs) = readValue fuel cs := by
  rw [← readValue_skipSpace, skipSpace_newLine, readValue_skipSpace]

theorem readElements_last {fuel level : Nat} {cs tail rest : List Char} {form : Form}
    (hread : readValue fuel cs = some (form, tail)) (hclose : skipSpace tail = ']' :: rest) :
    readElements (fuel + 1) (newLine level ++ cs) = some ([form], rest) := by
  rw [readElements, readValue_newLine, hread]
  simp only [Option.bind_some, hclose]

theorem readElements_more {fuel level : Nat} {cs tail : List Char} {form : Form}
    (hread : readValue fuel cs = some (form, ',' :: tail)) :
    readElements (fuel + 1) (newLine level ++ cs) =
      (readElements fuel tail).map fun (forms, rest) => (form :: forms, rest) := by
  have hcomma : skipSpace (',' :: tail) = ',' :: tail := skipSpace_cons rfl tail
  rw [readElements, readValue_newLine, hread]
  simp only [Option.bind_some, hcomma]

theorem readValue_blank (fuel : Nat) (cs : List Char) :
    readValue fuel (' ' :: cs) = readValue fuel cs := by
  rw [← readValue_skipSpace fuel (' ' :: cs), ← readValue_skipSpace fuel cs]
  rfl

theorem readMembers_last {fuel level : Nat} {k : String} {cs tail rest : List Char} {form : Form}
    (hread : readValue fuel cs = some (form, tail)) (hclose : skipSpace tail = '\x7d' :: rest) :
    readMembers (fuel + 1) (newLine level ++ (quote k ++ ':' :: ' ' :: cs)) =
      some ([(some k, form)], rest) := by
  have hcolon : skipSpace (':' :: ' ' :: cs) = ':' :: ' ' :: cs := skipSpace_cons rfl _
  rw [readMembers, skipSpace_newLine, quote_append, skipSpace_cons rfl]
  simp only [readString_quote, Option.bind_some, hcolon, readValue_blank, hread, hclose]

theorem readMembers_more {fuel level : Nat} {k : String} {cs tail : List Char} {form : Form}
    (hread : readValue fuel cs = some (form, ',' :: tail)) :
    readMembers (fuel + 1) (newLine level ++ (quote k ++ ':' :: ' ' :: cs)) =
      (readMembers fuel tail).map fun (ms, rest) => ((some k, form) :: ms, rest) := by
  have hcolon : skipSpace (':' :: ' ' :: cs) = ':' :: ' ' :: cs := skipSpace_cons rfl _
  have hcomma : skipSpace (',' :: tail) = ',' :: tail := skipSpace_cons rfl tail
  rw [readMembers, skipSpace_newLine, quote_append, skipSpace_cons rfl]
  simp only [readString_quote, Option.bind_some, hcolon, readValue_blank, hread, hcomma]

theorem skipSpace_prettyItems_ne (level : Nat) (v : Json) (vs : List Json)
    (h : ∀ n ∈ v.numbers, n.Legible) (tail rest : List Char) :
    skipSpace (prettyItems level (v :: vs) ++ tail) ≠ ']' :: rest := by
  obtain ⟨c, cs, htext, hspace, hbracket⟩ := prettyChars_head level v h
  have hitems : ∃ more, prettyItems level (v :: vs) ++ tail = newLine level ++ (c :: more) := by
    cases vs with
    | nil => exact ⟨cs ++ tail, by simp [prettyItems, htext]⟩
    | cons w vs =>
      exact ⟨cs ++ ',' :: (prettyItems level (w :: vs) ++ tail), by simp [prettyItems, htext]⟩
  obtain ⟨more, hmore⟩ := hitems
  rw [hmore, skipSpace_newLine, skipSpace_cons hspace]
  intro heq
  injection heq with hc
  exact hbracket hc

theorem skipSpace_prettyMembers_ne (level : Nat) (k : String) (v : Json)
    (ms : List (String × Json)) (tail rest : List Char) :
    skipSpace (prettyMembers level ((k, v) :: ms) ++ tail) ≠ '\x7d' :: rest := by
  have hmembers : ∃ more,
      prettyMembers level ((k, v) :: ms) ++ tail = newLine level ++ ('"' :: more) := by
    cases ms <;> simp [prettyMembers, quote]
  obtain ⟨more, hmore⟩ := hmembers
  rw [hmore, skipSpace_newLine, skipSpace_cons rfl]
  intro heq
  injection heq with hc
  cases hc

mutual

/-- The pretty text of a value is read back as its form, with what comes behind it left over. -/
theorem readValue_pretty (fuel level : Nat) (rest : List Char) (hrest : EndsNumber rest) :
    (v : Json) → (∀ n ∈ v.numbers, n.Legible) → (prettyChars level v).length ≤ fuel →
      readValue fuel (prettyChars level v ++ rest) = some (v.form, rest) := by
  intro v hnumbers hfuel
  obtain ⟨c, cs, hhead, -, -⟩ := prettyChars_head level v hnumbers
  obtain ⟨fuel, rfl⟩ : ∃ k, fuel = k + 1 := by
    refine ⟨fuel - 1, ?_⟩
    rw [hhead, List.length_cons] at hfuel
    omega
  match v with
  | .null => rfl
  | .bool false => rfl
  | .bool true => rfl
  | .number n => exact readValue_number (hnumbers n (by simp [numbers])) fuel hrest
  | .string s => exact readValue_string s fuel rest
  | .array [] => rfl
  | .object [] => rfl
  | .array (v :: vs) =>
    have htext : prettyChars level (.array (v :: vs)) ++ rest =
        '[' :: (prettyItems (level + 1) (v :: vs) ++ (newLine level ++ ']' :: rest)) := by
      simp [prettyChars]
    have hlength : (prettyItems (level + 1) (v :: vs)).length ≤ fuel := by
      simp only [prettyChars, List.length_append, List.length_cons] at hfuel
      omega
    have hclose : skipSpace (newLine level ++ ']' :: rest) = ']' :: rest := by
      rw [skipSpace_newLine, skipSpace_cons rfl]
    have hitems := readElements_pretty fuel (level + 1) (newLine level ++ ']' :: rest) rest
      (endsNumber_newLine level _) hclose v vs hnumbers hlength
    have hfirst : ∀ n ∈ v.numbers, n.Legible := fun n hn => hnumbers n (List.mem_append_left _ hn)
    rw [htext, readValue_bracket (skipSpace_prettyItems_ne _ _ _ hfirst _), hitems]
    rfl
  | .object ((k, v) :: ms) =>
    have htext : prettyChars level (.object ((k, v) :: ms)) ++ rest =
        '\x7b' :: (prettyMembers (level + 1) ((k, v) :: ms) ++
          (newLine level ++ '\x7d' :: rest)) := by
      simp [prettyChars]
    have hlength : (prettyMembers (level + 1) ((k, v) :: ms)).length ≤ fuel := by
      simp only [prettyChars, List.length_append, List.length_cons] at hfuel
      omega
    have hclose : skipSpace (newLine level ++ '\x7d' :: rest) = '\x7d' :: rest := by
      rw [skipSpace_newLine, skipSpace_cons rfl]
    have hmembers := readMembers_pretty fuel (level + 1) (newLine level ++ '\x7d' :: rest) rest
      (endsNumber_newLine level _) hclose k v ms hnumbers hlength
    rw [htext, readValue_brace (skipSpace_prettyMembers_ne _ _ _ _ _), hmembers]
    rfl

theorem readElements_pretty (fuel level : Nat) (tail rest : List Char) (htail : EndsNumber tail)
    (hclose : skipSpace tail = ']' :: rest) :
    (v : Json) → (vs : List Json) → (∀ n ∈ itemNumbers (v :: vs), n.Legible) →
      (prettyItems level (v :: vs)).length ≤ fuel →
        readElements fuel (prettyItems level (v :: vs) ++ tail) =
          some (itemForms (v :: vs), rest) := by
  intro v vs hnumbers hfuel
  have hfirst : ∀ n ∈ v.numbers, n.Legible := fun n hn => hnumbers n (List.mem_append_left _ hn)
  match vs with
  | [] =>
    simp only [prettyItems, newLine, List.length_append, List.length_cons] at hfuel
    obtain ⟨fuel, rfl⟩ : ∃ k, fuel = k + 1 := ⟨fuel - 1, by omega⟩
    have hread := readValue_pretty fuel level tail htail v hfirst (by omega)
    rw [prettyItems, List.append_assoc, readElements_last hread hclose]
    rfl
  | w :: vs =>
    have htext : prettyItems level (v :: w :: vs) ++ tail =
        newLine level ++ (prettyChars level v ++ ',' :: (prettyItems level (w :: vs) ++ tail)) := by
      simp [prettyItems]
    simp only [prettyItems, newLine, List.length_append, List.length_cons] at hfuel
    obtain ⟨fuel, rfl⟩ : ∃ k, fuel = k + 1 := ⟨fuel - 1, by omega⟩
    have hread := readValue_pretty fuel level (',' :: (prettyItems level (w :: vs) ++ tail))
      (endsNumber_cons (.inl rfl) _) v hfirst (by omega)
    have hmore := readElements_pretty fuel level tail rest htail hclose w vs
      (fun n hn => hnumbers n (List.mem_append_right _ hn)) (by omega)
    rw [htext, readElements_more hread, hmore]
    rfl

theorem readMembers_pretty (fuel level : Nat) (tail rest : List Char) (htail : EndsNumber tail)
    (hclose : skipSpace tail = '\x7d' :: rest) :
    (k : String) → (v : Json) → (ms : List (String × Json)) →
      (∀ n ∈ memberNumbers ((k, v) :: ms), n.Legible) →
        (prettyMembers level ((k, v) :: ms)).length ≤ fuel →
          readMembers fuel (prettyMembers level ((k, v) :: ms) ++ tail) =
            some (memberForms ((k, v) :: ms), rest) := by
  intro k v ms hnumbers hfuel
  have hfirst : ∀ n ∈ v.numbers, n.Legible := fun n hn => hnumbers n (List.mem_append_left _ hn)
  match ms with
  | [] =>
    have htext : prettyMembers level [(k, v)] ++ tail =
        newLine level ++ (quote k ++ ':' :: ' ' :: (prettyChars level v ++ tail)) := by
      simp [prettyMembers]
    simp only [prettyMembers, newLine, List.length_append, List.length_cons] at hfuel
    obtain ⟨fuel, rfl⟩ : ∃ k, fuel = k + 1 := ⟨fuel - 1, by omega⟩
    have hread := readValue_pretty fuel level tail htail v hfirst (by omega)
    rw [htext, readMembers_last hread hclose]
    rfl
  | (l, w) :: ms =>
    have htext : prettyMembers level ((k, v) :: (l, w) :: ms) ++ tail =
        newLine level ++ (quote k ++ ':' :: ' ' ::
          (prettyChars level v ++ ',' :: (prettyMembers level ((l, w) :: ms) ++ tail))) := by
      simp [prettyMembers]
    simp only [prettyMembers, newLine, List.length_append, List.length_cons] at hfuel
    obtain ⟨fuel, rfl⟩ : ∃ k, fuel = k + 1 := ⟨fuel - 1, by omega⟩
    have hread := readValue_pretty fuel level (',' :: (prettyMembers level ((l, w) :: ms) ++ tail))
      (endsNumber_cons (.inl rfl) _) v hfirst (by omega)
    have hmore := readMembers_pretty fuel level tail rest htail hclose l w ms
      (fun n hn => hnumbers n (List.mem_append_right _ hn)) (by omega)
    rw [htext, readMembers_more hread, hmore]
    rfl

end

/-- The pretty text of a value has the value's form. -/
theorem ofText?_pretty (v : Json) (h : ∀ n ∈ v.numbers, n.Legible) :
    Form.ofText? v.pretty = some v.form := by
  have hread := readValue_pretty (2 * (prettyChars 0 v).length + 2) 0 [] nofun v h (by omega)
  have htext : v.pretty.toList = prettyChars 0 v := String.toList_ofList
  rw [List.append_nil] at hread
  rw [Form.ofText?, htext]
  simp only [hread, Option.bind_some]
  rfl

end Json
end ScreenTree
