import ScreenTree.Decimal.Shortest
import ScreenTree.Proofs.Decimal.Rounding
import ScreenTree.Proofs.Numeral
import Mathlib.Algebra.Order.Ring.Nat
import Mathlib.Tactic.Ring

/-! # Size of shortest decimals

The shortest decimal of a double has at most seventeen digits, and none of them is too large to be
read as a double. -/

namespace ScreenTree.Decimal

/-! ## Comparisons with powers of ten -/

theorem ten_pow_toNat (e : Int) (k : Nat) :
    10 ^ (e + k).toNat * 10 ^ (-e).toNat = 10 ^ k * 10 ^ e.toNat * 10 ^ (-(e + k)).toNat := by
  simp only [← pow_add]
  congr 1
  omega

section Scaling

variable {a b : Nat} (e : Int) (k : Nat)

/-- Both sides of a comparison with a power of ten change by the same factors where a part of the
power goes over to a number. -/
theorem exists_scaling : ∃ c d : Nat, 0 < c ∧ 0 < d ∧
    a * 10 ^ (-(e + k)).toNat * d = a * 10 ^ (-e).toNat * c ∧
      b * 10 ^ (e + k).toNat * d = b * 10 ^ k * 10 ^ e.toNat * c := by
  refine ⟨10 ^ (-(e + k)).toNat, 10 ^ (-e).toNat, Nat.pow_pos (by decide), Nat.pow_pos (by decide),
    Nat.mul_right_comm _ _ _, ?_⟩
  rw [Nat.mul_assoc, ten_pow_toNat]
  ring

theorem lt_mul_pow_iff : a * 10 ^ (-(e + k)).toNat < b * 10 ^ (e + k).toNat ↔
    a * 10 ^ (-e).toNat < b * 10 ^ k * 10 ^ e.toNat := by
  obtain ⟨c, d, hc, hd, ha, hb⟩ := @exists_scaling a b e k
  rw [← Nat.mul_lt_mul_right hd, ha, hb, Nat.mul_lt_mul_right hc]

theorem mul_pow_lt_iff : b * 10 ^ (e + k).toNat < a * 10 ^ (-(e + k)).toNat ↔
    b * 10 ^ k * 10 ^ e.toNat < a * 10 ^ (-e).toNat := by
  obtain ⟨c, d, hc, hd, ha, hb⟩ := @exists_scaling a b e k
  rw [← Nat.mul_lt_mul_right hd, ha, hb, Nat.mul_lt_mul_right hc]

end Scaling

/-! ## Digits -/

theorem ofNat_of_dvd {n : Nat} (hten : 10 ≤ n) (hlast : n % 10 = 0) (e : Int) :
    ofNat n e = ofNat (n / 10) (e + 1) := by
  have hdigits := Numeral.digits_of_le (by decide) hten
  rw [hlast] at hdigits
  simp only [ofNat, hdigits, List.reverse_append, List.reverse_singleton, List.singleton_append,
    List.length_append, List.length_singleton, mk.injEq]
  refine ⟨?_, by omega⟩
  rw [List.dropWhile_cons_of_pos rfl]

theorem ofNat_of_not_dvd {n : Nat} (hlast : n % 10 ≠ 0) (e : Int) :
    ofNat n e = ⟨Numeral.digits 10 n, (Numeral.digits 10 n).length + e⟩ := by
  obtain ⟨ds, hds⟩ := @Numeral.exists_digits_eq_append 10 (by decide) n
  simp only [ofNat, hds, List.reverse_append, List.reverse_singleton, List.singleton_append]
  rw [List.dropWhile_cons_of_neg (by simpa using hlast)]
  simp

/-- A decimal has the digits of its whole number without the zeros at the end. -/
theorem exists_ofNat_eq {n : Nat} (hn : 0 < n) (e : Int) :
    ∃ s z : Nat, n = s * 10 ^ z ∧
      ofNat n e = ⟨Numeral.digits 10 s, (Numeral.digits 10 s).length + (e + z)⟩ := by
  induction n using Nat.strongRecOn generalizing e with
  | ind n ih =>
    by_cases hlast : n % 10 = 0
    · obtain ⟨s, z, hs, heq⟩ := ih (n / 10) (by omega) (by omega) (e + 1)
      refine ⟨s, z + 1, ?_, ?_⟩
      · rw [pow_succ, ← Nat.mul_assoc, ← hs]
        omega
      · rw [ofNat_of_dvd (by omega) hlast, heq, mk.injEq]
        exact ⟨rfl, by push_cast; ring⟩
    · exact ⟨n, 0, by simp, by rw [ofNat_of_not_dvd hlast]; simp⟩

/-! ## The interval of a double -/

namespace Interval

theorem le_high_of_holds {i : Interval} {n : Nat} (h : i.holds n = true) :
    n * i.den ≤ i.high := by
  rw [holds] at h
  split at h <;> simp only [Bool.and_eq_true, decide_eq_true_eq] at h <;> omega

theorem pos_of_holds {i : Interval} {n : Nat} (hlow : 0 < i.low) (h : i.holds n = true) :
    0 < n := by
  refine Nat.pos_of_ne_zero ?_
  rintro rfl
  rw [holds] at h
  split at h <;> simp only [Bool.and_eq_true, decide_eq_true_eq] at h <;> omega

/-- What is chosen lies in the interval, and is one of the two neighbours of the value. -/
theorem holds_of_nearest? {tie : Tie} {i : Interval} {n : Nat} (h : i.nearest? tie = some n) :
    i.holds n = true ∧ n ≤ i.value / i.den + 1 := by
  simp only [nearest?] at h
  split at h
  · cases h
  · next hbelow _ =>
    cases h
    exact ⟨hbelow, Nat.le_succ _⟩
  · next _ habove =>
    cases h
    exact ⟨habove, Nat.le_refl _⟩
  · next hbelow habove =>
    have hn : n = i.value / i.den ∨ n = i.value / i.den + 1 := by
      split at h
      · exact .inl (Option.some.inj h).symm
      · split at h
        · exact .inr (Option.some.inj h).symm
        · split at h
          · exact .inr (Option.some.inj h).symm
          · split at h
            · exact .inl (Option.some.inj h).symm
            · exact .inr (Option.some.inj h).symm
    rcases hn with rfl | rfl
    · exact ⟨hbelow, Nat.le_succ _⟩
    · exact ⟨habove, Nat.le_refl _⟩

theorem den_ofDouble_pos (x : Double) : 0 < (ofDouble x).den := by
  have hscale := Double.scale_pos
  simp only [ofDouble]
  omega

/-- Zero is below every number that rounds to a double other than zero. -/
theorem low_ofDouble_pos {x : Double} (hx : x.isZero = false) : 0 < (ofDouble x).low := by
  have hsignificand : 1 ≤ x.significand := by
    refine Nat.one_le_iff_ne_zero.2 fun hzero => ?_
    rw [Double.isZero, hzero] at hx
    cases hx
  have hgap : 0 < Nat.pow 2 x.exponent := Nat.two_pow_pos _
  have hunits : Nat.pow 2 x.exponent ≤ x.units := Nat.le_mul_of_pos_left _ hsignificand
  simp only [ofDouble]
  split <;> omega

end Interval

/-! ## The leading digit -/

theorem leadingExponent_of_lt {num den : Nat} (h : num < den) :
    ∃ j : Nat, leadingExponent num den + 1 = -j ∧ num * 10 ^ j < den := by
  rw [leadingExponent, if_neg (by omega)]
  split
  · next j hfind =>
    obtain ⟨hj, -, hbefore⟩ := List.find?_range_eq_some.1 hfind
    cases j with
    | zero => simp at hj; omega
    | succ j =>
      refine ⟨j, by omega, ?_⟩
      simpa using hbefore j (Nat.lt_succ_self j)
  · next hfind =>
    have hnone : ∀ j < 326, num * 10 ^ j < den := fun j hj => by
      simpa using List.find?_eq_none.1 hfind j (List.mem_range.2 hj)
    exact ⟨325, rfl, hnone 325 (by decide)⟩

/-- A quotient lies below the power of ten behind its leading digit. -/
theorem lt_of_leadingExponent {num den : Nat} (hden : 0 < den) :
    num * 10 ^ (-(leadingExponent num den + 1)).toNat <
      den * 10 ^ (leadingExponent num den + 1).toNat := by
  by_cases h : den ≤ num
  · have hlead : leadingExponent num den + 1 = (Numeral.digits 10 (num / den)).length := by
      rw [leadingExponent, if_pos h]
      omega
    have hlt := Numeral.lt_pow_length (by decide : 2 ≤ 10) (num / den)
    rw [hlead, Int.toNat_natCast, Int.toNat_neg_natCast, pow_zero, Nat.mul_one]
    rw [Nat.div_lt_iff_lt_mul hden, Nat.mul_comm] at hlt
    exact hlt
  · obtain ⟨j, hlead, hlt⟩ := leadingExponent_of_lt (Nat.lt_of_not_le h)
    rw [hlead, neg_neg, Int.toNat_natCast, Int.toNat_neg_natCast, pow_zero, Nat.mul_one]
    exact hlt

/-! ## The shortest decimal -/

/-- A decimal below the limit of what is read as a double. -/
def Fits (n : Nat) (e : Int) : Prop :=
  n * 10 ^ e.toNat < Double.limit * 10 ^ (-e).toNat

theorem shortest_cases (tie : Tie) (x : Double) :
    shortest tie x = ofNat 0 0 ∨ ∃ k < maxDigits, ∃ n : Nat, ∃ e : Int,
      e = leadingExponent (Interval.ofDouble x).value (Interval.ofDouble x).den - k ∧
        ((Interval.ofDouble x).inUnits e).nearest? tie = some n ∧ shortest tie x = ofNat n e := by
  simp only [shortest]
  cases hfound : List.findSome? _ (List.range maxDigits) with
  | none => exact .inl rfl
  | some d =>
    obtain ⟨k, hk, hd⟩ := List.exists_of_findSome?_eq_some hfound
    obtain ⟨n, hn, rfl⟩ := Option.map_eq_some_iff.1 hd
    exact .inr ⟨k, List.mem_range.1 hk, n, _, rfl, hn, rfl⟩

/-- The decimal that is chosen has seventeen digits at most. -/
theorem le_of_nearest? {tie : Tie} {i : Interval} (hden : 0 < i.den) {k n : Nat} {e : Int}
    (he : e = leadingExponent i.value i.den - k) (hk : k < maxDigits)
    (h : (i.inUnits e).nearest? tie = some n) : n ≤ 10 ^ 17 := by
  have hlead : leadingExponent i.value i.den + 1 = e + (k + 1 : Nat) := by omega
  have hvalue := @lt_of_leadingExponent i.value _ hden
  rw [hlead, lt_mul_pow_iff] at hvalue
  have hpos : 0 < (i.inUnits e).den := Nat.mul_pos hden (Nat.pow_pos (by decide))
  have hbelow : (i.inUnits e).value / (i.inUnits e).den < 10 ^ (k + 1) := by
    rw [Nat.div_lt_iff_lt_mul hpos]
    calc (i.inUnits e).value < i.den * 10 ^ (k + 1) * 10 ^ e.toNat := hvalue
      _ = 10 ^ (k + 1) * (i.den * 10 ^ e.toNat) := by ring
  have hdigits : 10 ^ (k + 1) ≤ 10 ^ 17 := pow_le_pow_right₀ (by decide) hk
  have hn := (Interval.holds_of_nearest? h).2
  omega

theorem fits_of_le {n high den : Nat} {e : Int}
    (hle : n * (den * 10 ^ e.toNat) ≤ high * 10 ^ (-e).toNat)
    (hhigh : high < Double.limit * den) : Fits n e := by
  apply Nat.lt_of_mul_lt_mul_right (a := den)
  calc n * 10 ^ e.toNat * den = n * (den * 10 ^ e.toNat) := by ring
    _ ≤ high * 10 ^ (-e).toNat := hle
    _ < Double.limit * den * 10 ^ (-e).toNat :=
      Nat.mul_lt_mul_of_pos_right hhigh (Nat.pow_pos (by decide))
    _ = Double.limit * 10 ^ (-e).toNat * den := by ring

open Double in
/-- What rounds to a double other than the largest one is below the limit. -/
theorem high_lt_of_not_largest {x : Double}
    (hx : x.significand = 2 ^ 53 - 1 → x.exponent ≠ 2045) :
    (Interval.ofDouble x).high < limit * (Interval.ofDouble x).den := by
  obtain ⟨hsignificand, hexponent, -⟩ := x.canonical
  have hlimit : 4 * ((2 ^ 54 - 3) * halfStep) < limit * (4 * scale) := by decide +kernel
  have hpos := halfStep_pos
  refine Nat.lt_of_le_of_lt ?_ hlimit
  change 4 * (x.significand * 2 ^ x.exponent) + 2 * 2 ^ x.exponent ≤ _
  by_cases htop : x.exponent = 2044 + 1
  · have hbelow : x.significand ≤ 2 ^ 53 - 2 := by
      have hne : x.significand ≠ 2 ^ 53 - 1 := fun hlast => hx hlast htop
      change x.significand < 2 ^ 53 at hsignificand
      omega
    have hunits := Nat.mul_le_mul_right (2 * halfStep) hbelow
    rw [htop, two_mul_halfStep]
    omega
  · have hpow : 2 ^ x.exponent ≤ halfStep := pow_le_pow_right₀ (by decide) (by omega)
    have hunits : x.significand * 2 ^ x.exponent ≤ (2 ^ 53 - 1) * halfStep :=
      Nat.mul_le_mul (Nat.le_sub_one_of_lt hsignificand) hpow
    omega

theorem shortest_largest (tie : Tie) (negative : Bool) :
    shortest tie ⟨negative, 2 ^ 53 - 1, 2045, by decide⟩ = ofNat 17976931348623157 292 := by
  cases tie <;> cases negative <;> decide +kernel

theorem shortest_eq (tie : Tie) {x : Double} (hx : x.isZero = false) :
    shortest tie x = ofNat 0 0 ∨
      ∃ (n : Nat) (e : Int), shortest tie x = ofNat n e ∧ 0 < n ∧ n ≤ 10 ^ 17 ∧ Fits n e := by
  by_cases hlargest : x.significand = 2 ^ 53 - 1 ∧ x.exponent = 2045
  · obtain ⟨negative, significand, exponent, canonical⟩ := x
    obtain ⟨rfl, rfl⟩ := hlargest
    refine .inr ⟨_, _, shortest_largest tie negative, by decide, by decide, ?_⟩
    unfold Fits
    decide +kernel
  · obtain hnone | ⟨k, hk, n, e, he, hn, hshortest⟩ := shortest_cases tie x
    · exact .inl hnone
    · have hholds := (Interval.holds_of_nearest? hn).1
      have hlow : 0 < ((Interval.ofDouble x).inUnits e).low :=
        Nat.mul_pos (Interval.low_ofDouble_pos hx) (Nat.pow_pos (by decide))
      refine .inr ⟨n, e, hshortest, Interval.pos_of_holds hlow hholds, ?_, ?_⟩
      · exact le_of_nearest? (Interval.den_ofDouble_pos x) he hk hn
      · exact fits_of_le (Interval.le_high_of_holds hholds)
          (high_lt_of_not_largest (not_and.1 hlargest))

/-- Decimals that can be read as doubles: zero, and those of seventeen digits at most that are below
the limit. -/
inductive Readable : Decimal → Prop
  | zero : Readable ⟨[], 1⟩
  | positive {s : Nat} {e : Int} (hpos : 0 < s) (hdigits : s ≤ 10 ^ 17) (hfits : Fits s e) :
    Readable ⟨Numeral.digits 10 s, (Numeral.digits 10 s).length + e⟩

theorem readable_shortest (tie : Tie) {x : Double} (hx : x.isZero = false) :
    Readable (shortest tie x) := by
  obtain hzero | ⟨n, e, hn, hpos, hdigits, hfits⟩ := shortest_eq tie hx
  · rw [hzero]
    exact .zero
  · obtain ⟨s, z, rfl, hs⟩ := exists_ofNat_eq hpos e
    rw [hn, hs]
    refine .positive (Nat.pos_of_mul_pos_right hpos) ?_ ((mul_pow_lt_iff e z).2 hfits)
    exact (Nat.le_mul_of_pos_right s (Nat.pow_pos (by decide))).trans hdigits

end ScreenTree.Decimal
