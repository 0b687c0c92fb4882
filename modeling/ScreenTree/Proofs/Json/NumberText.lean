import ScreenTree.Json.Reader
import ScreenTree.Proofs.Numeral

/-! # Written numbers

The characters of a number in parts: digits before the point, after it, and an exponent with its
sign. They are read back as these parts, whatever comes behind them. -/

namespace ScreenTree

/-- A text that does not carry on a number. -/
def EndsNumber (rest : List Char) : Prop :=
  ∀ c ∈ rest.head?, c.isDigit = false ∧ c ≠ '.' ∧ c ≠ 'e' ∧ c ≠ 'E'

namespace NumberText

/-- Digits of a decimal numeral. -/
def AreDigits (ds : List Nat) : Prop :=
  ds ≠ [] ∧ ∀ d ∈ ds, d < 10

theorem areDigits_zero : AreDigits [0] :=
  ⟨by decide, by decide⟩

theorem areDigits_digits (n : Nat) : AreDigits (Numeral.digits 10 n) := by
  refine ⟨?_, Numeral.digits_lt (by decide) n⟩
  obtain ⟨ds, hds⟩ := @Numeral.exists_digits_eq_append 10 (by decide) n
  simp [hds]

/-- The digits of a positive number do not begin with a zero. -/
theorem head?_digits_ne {n : Nat} (hn : 0 < n) : (Numeral.digits 10 n).head? ≠ some 0 := by
  obtain ⟨d, ds, hds, hd⟩ := Numeral.digits_head (by decide : 2 ≤ 10) (by omega : n ≠ 0)
  rw [hds]
  simpa using hd

namespace AreDigits

variable {ds es : List Nat}

theorem take (h : AreDigits ds) {k : Nat} (hk : 0 < k) : AreDigits (ds.take k) :=
  ⟨by simp [h.1, Nat.ne_of_gt hk], fun d hd => h.2 d (List.mem_of_mem_take hd)⟩

theorem drop (h : AreDigits ds) {k : Nat} (hk : k < ds.length) : AreDigits (ds.drop k) :=
  ⟨by simpa using hk, fun d hd => h.2 d (List.mem_of_mem_drop hd)⟩

theorem append_zeros (h : AreDigits ds) (k : Nat) : AreDigits (ds ++ List.replicate k 0) := by
  refine ⟨by simp [h.1], fun d hd => ?_⟩
  rcases List.mem_append.1 hd with hd | hd
  · exact h.2 d hd
  · rw [List.eq_of_mem_replicate hd]
    decide

theorem zeros_append (h : AreDigits ds) (k : Nat) : AreDigits (List.replicate k 0 ++ ds) := by
  refine ⟨by simp [h.1], fun d hd => ?_⟩
  rcases List.mem_append.1 hd with hd | hd
  · rw [List.eq_of_mem_replicate hd]
    decide
  · exact h.2 d hd

end AreDigits

/-- The digits that a number may be written with: there is no needless zero before the others. -/
structure Proper (t : NumberText) : Prop where
  whole : AreDigits t.whole
  leading : t.whole.head? = some 0 → t.whole = [0]
  fraction : ∀ ds ∈ t.fraction, AreDigits ds

def fractionChars : Option (List Nat) → List Char
  | none => []
  | some ds => '.' :: ds.map Numeral.symbol

def exponentChars : Option Int → List Char
  | none => []
  | some e => 'e' :: (if e < 0 then '-' else '+') :: Numeral.chars 10 e.natAbs

/-- The characters of a number in which an exponent always has a sign. -/
def chars (t : NumberText) : List Char :=
  (if t.negative then ['-'] else []) ++
    (t.whole.map Numeral.symbol ++ (fractionChars t.fraction ++ exponentChars t.exponent))

end NumberText

namespace Json

open NumberText

theorem takeDigits_append {ds rest : List Char} (hds : ∀ c ∈ ds, c.isDigit = true)
    (hrest : ∀ c ∈ rest.head?, c.isDigit = false) :
    takeDigits (ds ++ rest) = (ds.map (fun c => c.toNat - '0'.toNat), rest) := by
  have htake : rest.takeWhile Char.isDigit = [] := by
    cases rest with
    | nil => rfl
    | cons c cs => simp [hrest c rfl]
  have hdrop : rest.dropWhile Char.isDigit = rest := by
    cases rest with
    | nil => rfl
    | cons c cs => simp [hrest c rfl]
  rw [takeDigits, List.takeWhile_append_of_pos hds, List.dropWhile_append_of_pos hds, htake, hdrop,
    List.append_nil]

theorem map_symbol_toNat {ds : List Nat} (h : ∀ d ∈ ds, d < 10) :
    (ds.map Numeral.symbol).map (fun c => c.toNat - '0'.toNat) = ds := by
  rw [List.map_map, List.map_congr_left (g := id), List.map_id]
  exact fun d hd => Numeral.toNat_symbol d (h d hd)

theorem readDigits_map_symbol {ds : List Nat} (h : AreDigits ds) {rest : List Char}
    (hrest : ∀ c ∈ rest.head?, c.isDigit = false) :
    readDigits (ds.map Numeral.symbol ++ rest) = some (ds, rest) := by
  have hdigits : ∀ c ∈ ds.map Numeral.symbol, c.isDigit = true := by
    intro c hc
    obtain ⟨d, hd, rfl⟩ := List.mem_map.1 hc
    exact Numeral.isDigit_symbol d (h.2 d hd)
  rw [readDigits, takeDigits_append hdigits hrest, map_symbol_toNat h.2]
  split
  · next heq => exact absurd (congrArg Prod.fst heq) h.1
  · next heq => rw [heq]

theorem readExponent_of_ends {rest : List Char} (h : EndsNumber rest) :
    readExponent rest = some (none, rest) := by
  rw [readExponent.eq_def]
  split
  · exact absurd rfl (h _ rfl).2.2.1
  · exact absurd rfl (h _ rfl).2.2.2
  · rfl

theorem readExponent_exponentChars (e : Option Int) {rest : List Char} (h : EndsNumber rest) :
    readExponent (exponentChars e ++ rest) = some (e, rest) := by
  cases e with
  | none => exact readExponent_of_ends h
  | some e =>
    have hdigits := readDigits_map_symbol (areDigits_digits e.natAbs) fun c hc => (h c hc).1
    have hvalue : Numeral.value 10 (Numeral.digits 10 e.natAbs) = e.natAbs :=
      Numeral.value_digits (by decide) _
    rw [← Numeral.chars] at hdigits
    by_cases hneg : e < 0
    · have habs : -(e.natAbs : Int) = e := by omega
      simp only [exponentChars, if_pos hneg, List.cons_append, readExponent, readPower, hdigits,
        Option.map_some, hvalue, habs]
    · have habs : (e.natAbs : Int) = e := by omega
      simp only [exponentChars, if_neg hneg, List.cons_append, readExponent, readPower, hdigits,
        Option.map_some, hvalue, habs]

/-- An exponent or the end of a number stops its digits. -/
theorem exponentChars_head (e : Option Int) {rest : List Char} (h : EndsNumber rest) :
    ∀ c ∈ (exponentChars e ++ rest).head?, c.isDigit = false ∧ c ≠ '.' := by
  cases e with
  | none => exact fun c hc => ⟨(h c hc).1, (h c hc).2.1⟩
  | some e =>
    intro c hc
    cases hc
    exact ⟨rfl, by decide⟩

theorem readFraction_fractionChars {fraction : Option (List Nat)}
    (hdigits : ∀ ds ∈ fraction, AreDigits ds) {rest : List Char}
    (hrest : ∀ c ∈ rest.head?, c.isDigit = false ∧ c ≠ '.') :
    readFraction (fractionChars fraction ++ rest) = some (fraction, rest) := by
  cases fraction with
  | none =>
    rw [fractionChars, List.nil_append, readFraction.eq_def]
    split
    · exact absurd rfl (hrest _ rfl).2
    · rfl
  | some ds =>
    have hread := readDigits_map_symbol (hdigits ds rfl) fun c hc => (hrest c hc).1
    rw [fractionChars, List.cons_append, readFraction, hread]
    rfl

theorem fractionChars_head (fraction : Option (List Nat)) {rest : List Char}
    (hrest : ∀ c ∈ rest.head?, c.isDigit = false) :
    ∀ c ∈ (fractionChars fraction ++ rest).head?, c.isDigit = false := by
  cases fraction with
  | none => exact hrest
  | some ds =>
    intro c hc
    cases hc
    rfl

theorem readWhole_map_symbol {ds : List Nat} (h : AreDigits ds)
    (hleading : ds.head? = some 0 → ds = [0]) {rest : List Char}
    (hrest : ∀ c ∈ rest.head?, c.isDigit = false) :
    readWhole (ds.map Numeral.symbol ++ rest) = some (ds, rest) := by
  rw [readWhole, readDigits_map_symbol h hrest]
  split
  · next heq =>
    cases heq
    cases hleading rfl
  · rfl

theorem readUnsigned_proper {t : NumberText} (h : t.Proper) {rest : List Char}
    (hrest : EndsNumber rest) :
    readUnsigned t.negative (t.whole.map Numeral.symbol ++
      (fractionChars t.fraction ++ (exponentChars t.exponent ++ rest))) = some (t, rest) := by
  have hexponent := readExponent_exponentChars t.exponent hrest
  have hstop := exponentChars_head t.exponent hrest
  have hfraction := readFraction_fractionChars h.fraction hstop
  have hwhole := readWhole_map_symbol h.whole h.leading
    (fractionChars_head t.fraction fun c hc => (hstop c hc).1)
  simp [readUnsigned, hwhole, hfraction, hexponent]

theorem chars_head {t : NumberText} (h : t.Proper) :
    ∃ c cs, t.whole.map Numeral.symbol = c :: cs ∧ c.isDigit = true := by
  obtain ⟨hne, hlt⟩ := h.whole
  obtain ⟨d, ds, hds⟩ := List.exists_cons_of_ne_nil hne
  refine ⟨Numeral.symbol d, ds.map Numeral.symbol, by rw [hds, List.map_cons], ?_⟩
  exact Numeral.isDigit_symbol d (hlt d (hds ▸ List.mem_cons_self))

/-- A number that is properly written begins like one. -/
theorem exists_chars_eq_cons {t : NumberText} (h : t.Proper) :
    ∃ c cs, t.chars = c :: cs ∧ (c = '-' ∨ c.isDigit = true) := by
  obtain ⟨c, cs, hchars, hc⟩ := chars_head h
  rw [chars, hchars]
  split
  · exact ⟨'-', _, rfl, .inl rfl⟩
  · exact ⟨c, _, rfl, .inr hc⟩

/-- A number that is properly written is read back. -/
theorem readNumber_chars {t : NumberText} (h : t.Proper) {rest : List Char}
    (hrest : EndsNumber rest) : readNumber (t.chars ++ rest) = some (t, rest) := by
  have hread := readUnsigned_proper h hrest
  cases hneg : t.negative with
  | true =>
    rw [hneg] at hread
    simp only [chars, hneg, if_true, List.append_assoc, List.cons_append]
    rw [readNumber]
    exact hread
  | false =>
    obtain ⟨c, cs, hchars, hc⟩ := chars_head h
    rw [hneg] at hread
    simp only [chars, hneg, Bool.false_eq_true, if_false, List.nil_append, List.append_assoc]
    rw [readNumber.eq_def]
    split
    · next hminus =>
      rw [hchars] at hminus
      cases hminus
      cases hc
    · exact hread

end Json

end ScreenTree
