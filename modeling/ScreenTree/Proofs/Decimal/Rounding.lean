import ScreenTree.Decimal.Double
import Mathlib.Algebra.Order.Ring.Nat
import Mathlib.Tactic.Ring

/-! # Range of rounded numbers

The double nearest to a quotient exists unless the quotient lies beyond the largest double by half a
step, and it is off by at most one part in `2 ^ 53`. So a decimal that is divided by a power of ten
is always read, and so is one whose product with a power of ten stays below the largest double. -/

namespace ScreenTree.Double

/-! ## Quotients -/

theorem roundQuotient_le_succ (num den : Nat) : roundQuotient num den ≤ num / den + 1 := by
  simp only [roundQuotient]
  split
  · omega
  · split <;> omega

theorem div_le_roundQuotient (num den : Nat) : num / den ≤ roundQuotient num den := by
  simp only [roundQuotient]
  split
  · omega
  · split <;> omega

/-- Rounding adds half a unit at most. -/
theorem roundQuotient_le (num den : Nat) :
    2 * (den * roundQuotient num den) ≤ 2 * num + den := by
  have hdiv := Nat.div_add_mod num den
  simp only [roundQuotient]
  split
  · omega
  · have hnext : den * (num / den + 1) = den * (num / den) + den := Nat.mul_succ _ _
    split
    · omega
    · have heven : den * (num / den + num / den % 2) ≤ den * (num / den + 1) :=
        Nat.mul_le_mul_left _ (by omega)
      omega

/-- The exponent at which a quotient of smallest doubles is rounded. -/
def shift (num den : Nat) : Nat :=
  Nat.log2 (num / den) - 52

/-- The significand of a quotient of smallest doubles, or the first one that is too large. -/
def rounded (num den : Nat) : Nat :=
  roundQuotient num (den * 2 ^ shift num den)

theorem div_lt_two_pow (num den : Nat) : num / (den * 2 ^ shift num den) < 2 ^ 53 := by
  rw [← Nat.div_div_eq_div_mul]
  apply Nat.div_lt_of_lt_mul
  calc num / den < 2 ^ (Nat.log2 (num / den) + 1) := Nat.lt_log2_self
    _ ≤ 2 ^ (shift num den + 53) := Nat.pow_le_pow_right (by decide) (by unfold shift; omega)
    _ = 2 ^ shift num den * 2 ^ 53 := Nat.pow_add 2 _ _

theorem two_pow_le_div {num den : Nat} (h : shift num den ≠ 0) :
    2 ^ 52 ≤ num / (den * 2 ^ shift num den) := by
  have hlog : 52 + shift num den = Nat.log2 (num / den) := by
    unfold shift at h ⊢
    omega
  have hne : num / den ≠ 0 := by
    intro hzero
    rw [shift, hzero] at h
    exact h (by decide)
  rw [← Nat.div_div_eq_div_mul, Nat.le_div_iff_mul_le (Nat.two_pow_pos _), ← Nat.pow_add, hlog]
  exact Nat.log2_self_le hne

theorem rounded_le (num den : Nat) : rounded num den ≤ 2 ^ 53 :=
  (roundQuotient_le_succ _ _).trans (div_lt_two_pow num den)

theorem le_rounded {num den : Nat} (h : shift num den ≠ 0) : 2 ^ 52 ≤ rounded num den :=
  (two_pow_le_div h).trans (div_le_roundQuotient _ _)

/-! ## The nearest double -/

theorem exists_scale_eq : ∃ k, scale = 2 ^ k := by
  unfold scale
  generalize 1074 = k
  exact ⟨k, rfl⟩

theorem scale_pos : 0 < scale := by
  obtain ⟨k, hk⟩ := exists_scale_eq
  rw [hk]
  exact Nat.two_pow_pos k

/-- Half the distance between the largest doubles, in smallest ones. -/
def halfStep : Nat := 2 ^ 2044

theorem two_mul_halfStep : 2 ^ (2044 + 1) = 2 * halfStep := by
  rw [halfStep, pow_succ']

theorem halfStep_pos : 0 < halfStep :=
  pow_pos (by decide) _

/-- From here on a number of smallest doubles is not rounded to the largest one any more. -/
def overflow : Nat := (2 ^ 54 - 1) * halfStep

theorem units_of_ofParts? {negative : Bool} {significand exponent : Nat} {x : Double}
    (h : ofParts? negative significand exponent = some x) :
    x.units = significand * 2 ^ exponent := by
  rw [ofParts?] at h
  split at h
  · cases h
    rfl
  · cases h

theorem ofQuotient?_eq (negative : Bool) (num den : Nat) :
    ofQuotient? negative num den =
      if rounded (num * scale) den = 2 ^ 53 then
        ofParts? negative (2 ^ 52) (shift (num * scale) den + 1)
      else ofParts? negative (rounded (num * scale) den) (shift (num * scale) den) := by
  simp only [ofQuotient?, rounded, shift, Nat.pow_eq]
  rfl

theorem units_of_ofQuotient? {negative : Bool} {num den : Nat} {x : Double}
    (h : ofQuotient? negative num den = some x) :
    x.units = rounded (num * scale) den * 2 ^ shift (num * scale) den := by
  rw [ofQuotient?_eq] at h
  split at h
  · next hcarry =>
    rw [units_of_ofParts? h, hcarry, Nat.pow_succ']
    ring
  · exact units_of_ofParts? h

/-- Rounding does not pass a power of two. -/
theorem two_pow_le_units {negative : Bool} {num den k : Nat} {x : Double}
    (h : ofQuotient? negative num den = some x) (hden : 0 < den)
    (hle : 2 ^ k * den ≤ num * scale) : 2 ^ k ≤ x.units := by
  rw [units_of_ofQuotient? h]
  by_cases hk : shift (num * scale) den ≤ k
  · have hsplit : 2 ^ k = 2 ^ (k - shift (num * scale) den) * 2 ^ shift (num * scale) den :=
      (pow_sub_mul_pow 2 hk).symm
    rw [hsplit] at hle ⊢
    refine Nat.mul_le_mul_right _ (le_trans ?_ (div_le_roundQuotient _ _))
    rw [Nat.le_div_iff_mul_le (Nat.mul_pos hden (Nat.two_pow_pos _))]
    calc 2 ^ (k - shift (num * scale) den) * (den * 2 ^ shift (num * scale) den)
        = 2 ^ (k - shift (num * scale) den) * 2 ^ shift (num * scale) den * den := by ring
      _ ≤ num * scale := hle
  · have hrounded : 1 ≤ rounded (num * scale) den := le_trans (by decide) (le_rounded (by omega))
    calc 2 ^ k ≤ 2 ^ shift (num * scale) den := pow_le_pow_right₀ (by decide) (by omega)
      _ ≤ rounded (num * scale) den * 2 ^ shift (num * scale) den :=
        Nat.le_mul_of_pos_left _ hrounded

/-- Rounding a quotient that is not subnormal makes it larger by one part in `2 ^ 53` at most. -/
theorem units_le_of_ofQuotient? {negative : Bool} {num den : Nat} {x : Double}
    (h : ofQuotient? negative num den = some x) (hnormal : 2 ^ 52 * den ≤ num * scale) :
    x.units * (2 ^ 53 * den) ≤ num * scale * (2 ^ 53 + 1) := by
  have hround := roundQuotient_le (num * scale) (den * 2 ^ shift (num * scale) den)
  have hstep : 2 ^ 52 * (den * 2 ^ shift (num * scale) den) ≤ num * scale := by
    by_cases hshift : shift (num * scale) den = 0
    · rw [hshift, Nat.pow_zero, Nat.mul_one]
      exact hnormal
    · exact Nat.mul_le_of_le_div _ _ _ (two_pow_le_div hshift)
  rw [units_of_ofQuotient? h]
  calc rounded (num * scale) den * 2 ^ shift (num * scale) den * (2 ^ 53 * den)
      = 2 ^ 52 * (2 * (den * 2 ^ shift (num * scale) den *
          roundQuotient (num * scale) (den * 2 ^ shift (num * scale) den))) := by
        rw [rounded]
        ring
    _ ≤ 2 ^ 52 * (2 * (num * scale) + den * 2 ^ shift (num * scale) den) :=
        Nat.mul_le_mul_left _ hround
    _ = num * scale * 2 ^ 53 + 2 ^ 52 * (den * 2 ^ shift (num * scale) den) := by ring
    _ ≤ num * scale * 2 ^ 53 + num * scale := Nat.add_le_add_left hstep _
    _ = num * scale * (2 ^ 53 + 1) := by ring

theorem isSome_ofParts? (negative : Bool) {significand exponent : Nat}
    (hsignificand : significand < 2 ^ 53) (hexponent : exponent ≤ 2045)
    (hnormal : exponent ≠ 0 → 2 ^ 52 ≤ significand) :
    (ofParts? negative significand exponent).isSome := by
  rw [ofParts?, dif_pos ⟨hsignificand, hexponent, Decidable.or_iff_not_imp_left.2 hnormal⟩]
  rfl

/-- A quotient has a nearest double unless it is larger than the largest one by half a step. -/
theorem isSome_ofQuotient? (negative : Bool) {num den : Nat}
    (h : num * scale < den * overflow) :
    (ofQuotient? negative num den).isSome := by
  have hquotient : num * scale / den < 2 ^ (54 + 2044) :=
    calc num * scale / den < overflow := Nat.div_lt_of_lt_mul h
      _ ≤ 2 ^ 54 * halfStep := Nat.mul_le_mul_right _ (Nat.sub_le _ _)
      _ = 2 ^ (54 + 2044) := by rw [halfStep, pow_add]
  have hshift : shift (num * scale) den ≤ 2045 := by
    by_cases hzero : num * scale / den = 0
    · rw [shift, hzero]
      decide
    · have hlog := (Nat.log2_lt hzero).2 hquotient
      unfold shift
      omega
  -- At the largest exponent the significand is not rounded up to the next one.
  have hcarry : rounded (num * scale) den = 2 ^ 53 → shift (num * scale) den ≠ 2044 + 1 := by
    intro hrounded htop
    have hround := roundQuotient_le (num * scale) (den * 2 ^ shift (num * scale) den)
    rw [← rounded, hrounded, htop, two_mul_halfStep] at hround
    have hbound : den * overflow = (2 ^ 54 - 1) * (den * halfStep) := by
      rw [overflow]
      ring
    have hdouble : den * (2 * halfStep) = 2 * (den * halfStep) := by ring
    rw [hbound] at h
    rw [hdouble] at hround
    omega
  rw [ofQuotient?_eq]
  split
  · next hrounded =>
    have hne := hcarry hrounded
    exact isSome_ofParts? negative (by decide) (by omega) fun _ => Nat.le_refl _
  · next hrounded =>
    exact isSome_ofParts? negative (Nat.lt_of_le_of_ne (rounded_le _ _) hrounded) hshift
      fun hne => le_rounded hne


theorem units_lt (x : Double) : x.units < overflow := by
  obtain ⟨hsignificand, hexponent, -⟩ := x.canonical
  have hpow : 2 ^ x.exponent ≤ 2 ^ (2044 + 1) :=
    pow_le_pow_right₀ (by decide) hexponent
  have hpos := halfStep_pos
  rw [two_mul_halfStep] at hpow
  calc x.units ≤ (2 ^ 53 - 1) * (2 * halfStep) :=
        Nat.mul_le_mul (Nat.le_sub_one_of_lt hsignificand) hpow
    _ < overflow := by
      unfold overflow
      omega

/-! ## Whole numbers -/

/-- The double nearest to a whole number is one at least, and exceeds the number by one part in
`2 ^ 53` at most. -/
theorem exists_ofQuotient?_one (negative : Bool) {n : Nat} (hpos : 0 < n)
    (hn : n * scale < overflow) :
    ∃ x, ofQuotient? negative n 1 = some x ∧ scale ≤ x.units ∧
      x.units * 2 ^ 53 ≤ n * scale * (2 ^ 53 + 1) := by
  have hone : scale ≤ n * scale := Nat.le_mul_of_pos_left _ hpos
  have hnormal : 2 ^ 52 * 1 ≤ n * scale := le_trans (by decide +kernel) hone
  rw [← Nat.one_mul overflow] at hn
  obtain ⟨x, hx⟩ := Option.isSome_iff_exists.1 (isSome_ofQuotient? negative hn)
  have hle := units_le_of_ofQuotient? hx hnormal
  rw [Nat.mul_one] at hle
  obtain ⟨k, hk⟩ := exists_scale_eq
  refine ⟨x, hx, ?_, hle⟩
  rw [hk] at hone ⊢
  refine two_pow_le_units hx Nat.one_pos ?_
  rw [hk, Nat.mul_one]
  exact hone

theorem exists_powerOfTen? {e : Nat} (h : e ≤ maxPower) :
    ∃ p, powerOfTen? e = some p ∧ scale ≤ p.units ∧
      p.units * 2 ^ 53 ≤ 10 ^ e * scale * (2 ^ 53 + 1) := by
  have hrange : 10 ^ e * scale < overflow :=
    calc 10 ^ e * scale ≤ 10 ^ maxPower * scale :=
          Nat.mul_le_mul_right _ (pow_le_pow_right₀ (by decide) h)
      _ < overflow := by decide +kernel
  exact exists_ofQuotient?_one false (Nat.pow_pos (by decide)) hrange

/-! ## Scaled numbers -/

/-- The quotient of a double and one that is not below one is in range. -/
theorem isSome_div? {x y : Double} (h : scale ≤ y.units) : (div? x y).isSome := by
  apply isSome_ofQuotient?
  calc x.units * scale < overflow * scale := Nat.mul_lt_mul_of_pos_right x.units_lt scale_pos
    _ ≤ overflow * y.units := Nat.mul_le_mul_left _ h
    _ = y.units * overflow := Nat.mul_comm _ _

/-- Every double can be divided by a power of ten. -/
theorem isSome_scaleByTen?_of_neg (fuel : Nat) (x : Double) {e : Int} (he : e < 0) :
    (scaleByTen? fuel x e).isSome := by
  induction fuel generalizing x e with
  | zero => rfl
  | succ fuel ih =>
    rw [scaleByTen?]
    split
    · rfl
    · split
      · next hpower =>
        obtain ⟨p, hp, hone, -⟩ := exists_powerOfTen? hpower
        rw [hp, Option.bind_some, if_neg (by omega)]
        exact isSome_div? hone
      · next hpower =>
        obtain ⟨p, hp, hone, -⟩ := exists_powerOfTen? (Nat.le_refl maxPower)
        obtain ⟨y, hy⟩ := Option.isSome_iff_exists.1 (isSome_div? (x := x) hone)
        rw [if_neg (by omega), hp, Option.bind_some, hy, Option.bind_some]
        refine ih y ?_
        unfold maxPower at hpower ⊢
        omega

/-- So far below the largest double that two roundings cannot pass it. -/
def safe : Nat := 1797693134862315 * 10 ^ 293

/-- The product of a rounded number and a rounded power of ten is in range, unless the exact product
comes close to the largest double. -/
theorem isSome_mul? {x p : Double} {s e : Nat} (hx : x.units * 2 ^ 53 ≤ s * scale * (2 ^ 53 + 1))
    (hp : p.units * 2 ^ 53 ≤ 10 ^ e * scale * (2 ^ 53 + 1)) (hsafe : s * 10 ^ e ≤ safe) :
    (mul? x p).isSome := by
  have hmargin : safe * scale * ((2 ^ 53 + 1) * (2 ^ 53 + 1)) < 2 ^ 53 * 2 ^ 53 * overflow := by
    decide +kernel
  apply isSome_ofQuotient?
  apply Nat.lt_of_mul_lt_mul_left (a := 2 ^ 53 * 2 ^ 53)
  calc 2 ^ 53 * 2 ^ 53 * (x.units * p.units * scale)
      = x.units * 2 ^ 53 * (p.units * 2 ^ 53) * scale := by ring
    _ ≤ s * scale * (2 ^ 53 + 1) * (10 ^ e * scale * (2 ^ 53 + 1)) * scale :=
        Nat.mul_le_mul_right _ (Nat.mul_le_mul hx hp)
    _ = s * 10 ^ e * (scale * ((2 ^ 53 + 1) * (2 ^ 53 + 1)) * (scale * scale)) := by ring
    _ ≤ safe * (scale * ((2 ^ 53 + 1) * (2 ^ 53 + 1)) * (scale * scale)) :=
        Nat.mul_le_mul_right _ hsafe
    _ = safe * scale * ((2 ^ 53 + 1) * (2 ^ 53 + 1)) * (scale * scale) := by ring
    _ < 2 ^ 53 * 2 ^ 53 * overflow * (scale * scale) :=
        Nat.mul_lt_mul_of_pos_right hmargin (Nat.mul_pos scale_pos scale_pos)
    _ = 2 ^ 53 * 2 ^ 53 * (scale * scale * overflow) := by ring

/-! ## Decimals -/

/-- The smallest decimal of seventeen digits that is not read as a double. -/
def limit : Nat := 17976931348623158 * 10 ^ 292

theorem isSome_ofScientific?_near_limit : ∀ negative : Bool, ∀ k < 7,
    (ofScientific? negative (17976931348623151 + k) 292).isSome := by
  decide +kernel

/-- A decimal of seventeen digits between the safe range and the limit has its last digit there. -/
theorem near_limit {s e : Nat} (hdigits : s ≤ 10 ^ 17) (hlimit : s * 10 ^ e < limit)
    (hsafe : safe < s * 10 ^ e) : e = 292 ∧ ∃ k < 7, s = 17976931348623151 + k := by
  rcases Nat.lt_trichotomy e 292 with hlt | rfl | hgt
  · have hle : s * 10 ^ e ≤ safe :=
      calc s * 10 ^ e ≤ 10 ^ 17 * 10 ^ 291 :=
            Nat.mul_le_mul hdigits (pow_le_pow_right₀ (by decide) (by omega))
        _ ≤ safe := by decide +kernel
    omega
  · have hsafe' : safe = 17976931348623150 * 10 ^ 292 := by decide +kernel
    rw [hsafe'] at hsafe
    have hlow := Nat.lt_of_mul_lt_mul_right hsafe
    rw [limit] at hlimit
    have hhigh := Nat.lt_of_mul_lt_mul_right hlimit
    exact ⟨rfl, s - 17976931348623151, by omega, by omega⟩
  · obtain ⟨j, rfl⟩ := Nat.exists_eq_add_of_lt hgt
    have hsplit : s * 10 ^ (292 + j + 1) = s * 10 ^ j * 10 ^ 293 := by
      rw [Nat.mul_assoc, ← pow_add, show 292 + j + 1 = j + 293 by omega]
    have hlimit' : limit ≤ 1797693134862316 * 10 ^ 293 := by decide +kernel
    rw [hsplit] at hlimit hsafe
    have hhigh := Nat.lt_of_mul_lt_mul_right (hlimit.trans_le hlimit')
    have hlow := Nat.lt_of_mul_lt_mul_right hsafe
    omega

theorem isSome_ofScientific?_of_neg (negative : Bool) {s : Nat} {e : Int} (hs : s ≤ 10 ^ 17)
    (he : e < 0) : (ofScientific? negative s e).isSome := by
  have hrange : s * scale < 1 * overflow :=
    calc s * scale ≤ 10 ^ 17 * scale := Nat.mul_le_mul_right _ hs
      _ < 1 * overflow := by decide +kernel
  obtain ⟨x, hx⟩ := Option.isSome_iff_exists.1 (isSome_ofQuotient? negative hrange)
  rw [ofScientific?, hx, Option.bind_some]
  exact isSome_scaleByTen?_of_neg _ x he

theorem isSome_ofScientific?_of_safe (negative : Bool) {s e : Nat} (hs : 0 < s)
    (hsafe : s * 10 ^ e ≤ safe) : (ofScientific? negative s e).isSome := by
  have hpow : 0 < 10 ^ e := Nat.pow_pos (by decide)
  have hpower : e ≤ maxPower := by
    by_contra hlarge
    have hle : 10 ^ (maxPower + 1) ≤ 10 ^ e := pow_le_pow_right₀ (by decide) (by omega)
    have hmul : 10 ^ e ≤ s * 10 ^ e := Nat.le_mul_of_pos_left _ hs
    have habove : safe < 10 ^ (maxPower + 1) := by decide +kernel
    omega
  have hrange : s * scale < overflow :=
    calc s * scale ≤ safe * scale :=
          Nat.mul_le_mul_right _ ((Nat.le_mul_of_pos_right s hpow).trans hsafe)
      _ < overflow := by decide +kernel
  obtain ⟨x, hx, -, hxle⟩ := exists_ofQuotient?_one negative hs hrange
  obtain ⟨p, hp, -, hple⟩ := exists_powerOfTen? hpower
  rw [ofScientific?, hx, Option.bind_some, scaleByTen?]
  split
  · rfl
  · rw [Int.natAbs_natCast, if_pos hpower, hp, Option.bind_some, if_pos (Int.natCast_nonneg e)]
    exact isSome_mul? hxle hple hsafe

/-- A decimal of seventeen digits below the limit is read. -/
theorem isSome_ofScientific?_of_lt_limit (negative : Bool) {s e : Nat} (hs : 0 < s)
    (hdigits : s ≤ 10 ^ 17) (hlimit : s * 10 ^ e < limit) :
    (ofScientific? negative s e).isSome := by
  by_cases hsafe : s * 10 ^ e ≤ safe
  · exact isSome_ofScientific?_of_safe negative hs hsafe
  · obtain ⟨rfl, k, hk, rfl⟩ := near_limit hdigits hlimit (Nat.lt_of_not_le hsafe)
    exact isSome_ofScientific?_near_limit negative k hk

example : ofScientific? false 17976931348623158 292 = none := by decide +kernel

end ScreenTree.Double
