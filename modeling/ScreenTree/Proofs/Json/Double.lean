import ScreenTree.Proofs.Decimal.Shortest
import ScreenTree.Proofs.Json.Text

/-! # Doubles in JSON text

The text of a double is a number of the grammar, and a finite double is read from it. So the text of
every number is legible, and no number is too large for it. -/

namespace ScreenTree

namespace NumberText

/-! ## Doubles that are read -/

theorem collect_eq {acc : Nat} {ds : List Nat}
    (h : acc * 10 ^ ds.length + Numeral.value 10 ds ≤ maxSignificand) :
    collect acc ds = (acc * 10 ^ ds.length + Numeral.value 10 ds, ds.length) := by
  induction ds generalizing acc with
  | nil => simp [collect, Numeral.value]
  | cons d ds ih =>
    have hvalue : acc * 10 ^ (d :: ds).length + Numeral.value 10 (d :: ds) =
        (acc * 10 + d) * 10 ^ ds.length + Numeral.value 10 ds := by
      rw [← Numeral.foldl_eq_value, ← Numeral.foldl_eq_value]
      rfl
    rw [hvalue] at h ⊢
    have hnext : acc * 10 + d ≤ maxSignificand :=
      (Nat.le_mul_of_pos_right _ (Nat.pow_pos (by decide))).trans ((Nat.le_add_right _ _).trans h)
    simp only [collect, if_pos hnext, ih h, List.length_cons]

/-- A number whose digits all fit is the double of the digits, scaled by the exponent and the place
of the point. -/
theorem double?_eq {t : NumberText}
    (h : Numeral.value 10 (t.whole ++ t.fraction.getD []) ≤ maxSignificand) :
    t.double? = Double.ofScientific? t.negative
      (Numeral.value 10 (t.whole ++ t.fraction.getD []))
      (t.exponent.getD 0 - (t.fraction.getD []).length) := by
  rw [Numeral.value_append] at h ⊢
  have hwhole : collect 0 t.whole = (Numeral.value 10 t.whole, t.whole.length) := by
    rw [collect_eq] <;> rw [Nat.zero_mul, Nat.zero_add]
    exact (Nat.le_mul_of_pos_right _ (Nat.pow_pos (by decide))).trans
      ((Nat.le_add_right _ _).trans h)
  simp only [double?, hwhole, collect_eq h, Nat.sub_self]
  congr 1
  omega

/-- The text of a decimal as a number of JSON. -/
def ofDecimal (negative : Bool) (d : Decimal) : NumberText :=
  if d.exponent < -5 ∨ 15 < d.exponent then
    ⟨negative, d.digits.take 1, if d.digits.length ≤ 1 then none else some (d.digits.drop 1),
      some d.exponent⟩
  else if d.point ≤ 0 then
    ⟨negative, [0], some (List.replicate (-d.point).toNat 0 ++ d.digits), none⟩
  else if d.digits.length ≤ d.point.toNat then
    ⟨negative, d.digits ++ List.replicate (d.point.toNat - d.digits.length) 0, some [0], none⟩
  else
    ⟨negative, d.digits.take d.point.toNat, some (d.digits.drop d.point.toNat), none⟩

/-- The decimal that a double is written as. -/
def decimal (x : Double) : Decimal :=
  if x.isZero then ⟨[], 1⟩ else Decimal.shortest .toEven x

theorem readable_decimal (x : Double) : (decimal x).Readable := by
  cases hx : x.isZero with
  | true => rw [decimal, if_pos hx]; exact .zero
  | false => rw [decimal, if_neg (by simp [hx])]; exact Decimal.readable_shortest .toEven hx

theorem scientific_eq (d : Decimal) :
    d.scientific = (d.digits.take 1).map Numeral.symbol ++
      (fractionChars (if d.digits.length ≤ 1 then none else some (d.digits.drop 1)) ++
        exponentChars (some d.exponent)) := by
  obtain ⟨digits, point⟩ := d
  match digits with
  | [] => rfl
  | [_] => rfl
  | _ :: _ :: _ => simp [Decimal.scientific, Decimal.symbols, fractionChars, exponentChars]

/-- The characters of a decimal are those of its parts. -/
theorem chars_ofDecimal (negative : Bool) {d : Decimal} (hd : d.digits ≠ [] ∨ 0 < d.point) :
    (ofDecimal negative d).chars = (if negative then ['-'] else []) ++
      if d.exponent < -5 ∨ 15 < d.exponent then d.scientific
      else d.positional ++ if (d.digits.length : Int) ≤ d.point then ['.', '0'] else [] := by
  have hzero : Numeral.symbol 0 = '0' := by decide
  rw [ofDecimal]
  split
  · rw [scientific_eq]
    rfl
  · split
    · next hpoint =>
      have hlength : ¬ (d.digits.length : Int) ≤ d.point := by
        have hpos := List.length_pos_iff.2 (hd.resolve_right (by omega))
        omega
      simp [chars, fractionChars, exponentChars, Decimal.positional, Decimal.symbols, hpoint,
        hlength, hzero]
    · next hpoint =>
      split
      · next hlength =>
        have hlength' : (d.digits.length : Int) ≤ d.point := by omega
        simp [chars, fractionChars, exponentChars, Decimal.positional, Decimal.symbols, hpoint,
          hlength, hlength', hzero]
      · next hlength =>
        have hlength' : ¬ (d.digits.length : Int) ≤ d.point := by omega
        simp [chars, fractionChars, exponentChars, Decimal.positional, Decimal.symbols, hpoint,
          hlength, hlength', List.map_take, List.map_drop]

theorem hasDigits {d : Decimal} (h : d.Readable) : d.digits ≠ [] ∨ 0 < d.point := by
  cases h with
  | zero => exact .inr Int.one_pos
  | positive => exact .inl (areDigits_digits _).1

theorem doubleText_eq (x : Double) :
    Number.doubleText x = (ofDecimal x.negative (decimal x)).chars := by
  rw [chars_ofDecimal x.negative (hasDigits (readable_decimal x))]
  cases hx : x.isZero with
  | true =>
    simp only [Number.doubleText, decimal, hx, if_true]
    rfl
  | false =>
    simp only [Number.doubleText, decimal, hx, Bool.false_eq_true, if_false]
    split <;> simp

theorem ofDecimal_zero (negative : Bool) :
    ofDecimal negative ⟨[], 1⟩ = ⟨negative, [0], some [0], none⟩ :=
  rfl

theorem proper_ofDecimal (negative : Bool) {d : Decimal} (h : d.Readable) :
    (ofDecimal negative d).Proper := by
  cases h with
  | zero =>
    rw [ofDecimal_zero]
    exact ⟨areDigits_zero, fun _ => rfl, by simpa using areDigits_zero⟩
  | @positive s e hpos =>
    have hdigits := areDigits_digits s
    have hhead := head?_digits_ne hpos
    generalize Numeral.digits 10 s = ds at *
    rw [ofDecimal]
    split
    · refine ⟨hdigits.take Nat.one_pos, fun hzero => ?_, fun fraction hfraction => ?_⟩
      · rw [List.head?_take, if_neg Nat.one_ne_zero] at hzero
        exact absurd hzero hhead
      · split at hfraction
        · cases hfraction
        · next hlength =>
          cases hfraction
          exact hdigits.drop (Nat.lt_of_not_le hlength)
    · split
      · refine ⟨areDigits_zero, fun _ => rfl, fun fraction hfraction => ?_⟩
        cases hfraction
        exact hdigits.zeros_append _
      · next hpoint =>
        have hwhole : 0 < ((ds.length : Int) + e).toNat := by
          change ¬ (ds.length : Int) + e ≤ 0 at hpoint
          omega
        split
        · refine ⟨hdigits.append_zeros _, fun hzero => ?_, fun fraction hfraction => ?_⟩
          · rw [List.head?_append_of_ne_nil _ hdigits.1] at hzero
            exact absurd hzero hhead
          · cases hfraction
            exact areDigits_zero
        · next hlength =>
          refine ⟨hdigits.take hwhole, fun hzero => ?_, fun fraction hfraction => ?_⟩
          · rw [List.head?_take, if_neg (Nat.ne_of_gt hwhole)] at hzero
            exact absurd hzero hhead
          · cases hfraction
            exact hdigits.drop (Nat.lt_of_not_le hlength)

/-- A number whose digits have seventeen places at most is read if the point stands before the last
of them. -/
theorem isSome_double?_of_neg {t : NumberText} {s : Nat}
    (hvalue : Numeral.value 10 (t.whole ++ t.fraction.getD []) = s) (hs : s ≤ 10 ^ 17)
    (he : t.exponent.getD 0 - ((t.fraction.getD []).length : Int) < 0) : t.double?.isSome := by
  have hfits : s ≤ maxSignificand := hs.trans (by decide)
  subst hvalue
  rw [double?_eq hfits]
  exact Double.isSome_ofScientific?_of_neg _ hs he

theorem isSome_double?_scientific {t : NumberText} {s : Nat} {e : Int}
    (hvalue : Numeral.value 10 (t.whole ++ t.fraction.getD []) = s)
    (hexponent : t.exponent.getD 0 - ((t.fraction.getD []).length : Int) = e)
    (hpos : 0 < s) (hs : s ≤ 10 ^ 17) (hfits : Decimal.Fits s e) : t.double?.isSome := by
  by_cases he : e < 0
  · exact isSome_double?_of_neg hvalue hs (hexponent ▸ he)
  · have hmax : s ≤ maxSignificand := hs.trans (by decide)
    obtain ⟨k, rfl⟩ := Int.eq_ofNat_of_zero_le (Int.not_lt.1 he)
    have hlimit : s * 10 ^ k < Double.limit := by
      simpa [Decimal.Fits] using hfits
    subst hvalue
    rw [double?_eq hmax, hexponent]
    exact Double.isSome_ofScientific?_of_lt_limit _ hpos hs hlimit

/-- The text of a decimal that is below the limit is read as a double. -/
theorem isSome_double?_ofDecimal (negative : Bool) {d : Decimal} (h : d.Readable) :
    (ofDecimal negative d).double?.isSome := by
  cases h with
  | zero =>
    rw [ofDecimal_zero]
    exact isSome_double?_of_neg (s := 0) rfl (Nat.zero_le _) (Int.negSucc_lt_zero 0)
  | @positive s e hpos hs hfits =>
    have hvalue : Numeral.value 10 (Numeral.digits 10 s) = s := Numeral.value_digits (by decide) s
    have hlt := Numeral.lt_pow_length (by decide : 2 ≤ 10) s
    have hne := List.length_pos_iff.2 (areDigits_digits s).1
    generalize Numeral.digits 10 s = ds at *
    rw [ofDecimal]
    split
    · have hfraction : (if ds.length ≤ 1 then none else some (ds.drop 1)).getD [] = ds.drop 1 := by
        split
        · next hle => exact (List.drop_of_length_le hle).symm
        · rfl
      refine isSome_double?_scientific (s := s) (e := e) ?_ ?_ hpos hs hfits
      · simp only [hfraction, List.take_append_drop, hvalue]
      · simp only [hfraction, Decimal.exponent, Option.getD_some, List.length_drop]
        omega
    · next hplain =>
      simp only [Decimal.exponent] at hplain
      split
      · refine isSome_double?_of_neg (s := s) ?_ hs ?_
        · simp only [Option.getD_some, Numeral.value_append, Numeral.value_replicate_zero, hvalue]
          simp [Numeral.value]
        · simp only [Option.getD_none, Option.getD_some, List.length_append]
          omega
      · split
        · next hwhole =>
          simp only at hwhole
          have hzeros : ∀ k : Nat,
              ds ++ List.replicate k 0 ++ [0] = ds ++ List.replicate (k + 1) 0 :=
            fun k => by rw [List.append_assoc, List.replicate_succ']
          refine isSome_double?_of_neg
            (by simp only [Option.getD_some, hzeros, Numeral.value_append_zeros, hvalue]; rfl) ?_ ?_
          · calc s * 10 ^ (((ds.length : Int) + e).toNat - ds.length + 1)
                ≤ 10 ^ ds.length * 10 ^ (((ds.length : Int) + e).toNat - ds.length + 1) :=
                  Nat.mul_le_mul_right _ hlt.le
              _ = 10 ^ (ds.length + (((ds.length : Int) + e).toNat - ds.length + 1)) :=
                  (pow_add _ _ _).symm
              _ ≤ 10 ^ 17 := pow_le_pow_right₀ (by decide) (by omega)
          · simp
        · next hwhole =>
          simp only at hwhole
          refine isSome_double?_of_neg (s := s) ?_ hs ?_
          · simp only [Option.getD_some, List.take_append_drop, hvalue]
          · simp only [Option.getD_none, Option.getD_some, List.length_drop]
            omega

end NumberText

namespace Number

/-! ## All numbers -/

section Double

variable (x : Double)

theorem proper_double : (NumberText.ofDecimal x.negative (NumberText.decimal x)).Proper :=
  NumberText.proper_ofDecimal x.negative (NumberText.readable_decimal x)

theorem jsonText_double :
    (double x).jsonText = (NumberText.ofDecimal x.negative (NumberText.decimal x)).chars :=
  NumberText.doubleText_eq x

end Double

/-- The text of every number is read to its end and no further. -/
theorem legible (n : Number) : n.Legible := by
  cases n with
  | integer i range => exact legible_of_isInteger rfl
  | double x => exact legible_of_parts (proper_double x) (jsonText_double x)

/-- The text of every number is within the range of numbers. -/
theorem isSome_value?_written (n : Number) : n.written.value?.isSome := by
  cases n with
  | integer i range => rw [value?_written rfl]; rfl
  | double x =>
    have hdouble := NumberText.isSome_double?_ofDecimal x.negative (NumberText.readable_decimal x)
    rw [written_eq (proper_double x) (jsonText_double x), NumberText.value?]
    split
    · rfl
    · rw [Option.isSome_map]
      exact hdouble

end Number
end ScreenTree
