import ScreenTree.Text.Numeral
import Mathlib.Data.List.Induction
import Mathlib.Tactic.Ring

/-! # Digits of a numeral

The digits of a number are below the base, and the first one is zero only for zero itself. A numeral
is written in one round a digit, and it is read back as its number. -/

namespace ScreenTree.Numeral

theorem digitsOnto_lt {base : Nat} (hbase : 2 ≤ base) (fuel n : Nat) (acc : List Nat)
    (hacc : ∀ d ∈ acc, d < base) : ∀ d ∈ digitsOnto base fuel n acc, d < base := by
  induction fuel generalizing n acc with
  | zero => exact hacc
  | succ fuel ih =>
    rw [digitsOnto]
    split
    · next h => exact List.forall_mem_cons.2 ⟨h, hacc⟩
    · have hlast : n % base < base := Nat.mod_lt _ (by omega)
      exact ih _ _ (List.forall_mem_cons.2 ⟨hlast, hacc⟩)

theorem digits_lt {base : Nat} (hbase : 2 ≤ base) (n : Nat) : ∀ d ∈ digits base n, d < base :=
  digitsOnto_lt hbase (n + 1) n [] (by simp)

theorem digitsOnto_head {base : Nat} (hbase : 2 ≤ base) (fuel n : Nat) (acc : List Nat)
    (hn : n ≠ 0) (hfuel : n < fuel) :
    ∃ d ds, digitsOnto base fuel n acc = d :: ds ∧ d ≠ 0 := by
  induction fuel generalizing n acc with
  | zero => omega
  | succ fuel ih =>
    rw [digitsOnto]
    split
    · exact ⟨n, acc, rfl, hn⟩
    · next h =>
      have hlt : n / base < n := Nat.div_lt_self (by omega) (by omega)
      have hpos : 0 < n / base := Nat.div_pos (by omega) (by omega)
      exact ih _ _ (by omega) (by omega)

/-- The first digit is not zero unless the number is. -/
theorem digits_head {base : Nat} (hbase : 2 ≤ base) {n : Nat} (hn : n ≠ 0) :
    ∃ d ds, digits base n = d :: ds ∧ d ≠ 0 :=
  digitsOnto_head hbase (n + 1) n [] hn (Nat.lt_succ_self n)

theorem digits_zero {base : Nat} (hbase : 2 ≤ base) : digits base 0 = [0] := by
  rw [digits, digitsOnto, if_pos (by omega)]

theorem digitsOnto_append (base fuel n : Nat) (acc : List Nat) :
    digitsOnto base fuel n acc = digitsOnto base fuel n [] ++ acc := by
  induction fuel generalizing n acc with
  | zero => rfl
  | succ fuel ih =>
    rw [digitsOnto, digitsOnto]
    split
    · rfl
    · rw [ih _ (_ :: acc), ih _ [_], List.append_assoc, List.singleton_append]

/-- Fuel that is enough makes no difference. -/
theorem digitsOnto_fuel {base : Nat} (hbase : 2 ≤ base) {fuel more n : Nat} (acc : List Nat)
    (hfuel : n < fuel) (hmore : n < more) :
    digitsOnto base fuel n acc = digitsOnto base more n acc := by
  induction fuel generalizing more n acc with
  | zero => omega
  | succ fuel ih =>
    obtain ⟨more, rfl⟩ : ∃ m, more = m + 1 := ⟨more - 1, by omega⟩
    rw [digitsOnto, digitsOnto]
    split
    · rfl
    · next h =>
      have hlt : n / base < n := Nat.div_lt_self (by omega) (by omega)
      exact ih _ (by omega) (by omega)

theorem digits_of_lt {base n : Nat} (h : n < base) : digits base n = [n] := by
  rw [digits, digitsOnto, if_pos h]

/-- The last digit is the remainder. -/
theorem digits_of_le {base n : Nat} (hbase : 2 ≤ base) (h : base ≤ n) :
    digits base n = digits base (n / base) ++ [n % base] := by
  have hlt : n / base < n := Nat.div_lt_self (by omega) (by omega)
  rw [digits, digitsOnto, if_neg (by omega), digitsOnto_append,
    digitsOnto_fuel hbase [] hlt (Nat.lt_succ_self _), ← digits]

theorem exists_digits_eq_append {base : Nat} (hbase : 2 ≤ base) (n : Nat) :
    ∃ ds, digits base n = ds ++ [n % base] := by
  by_cases h : n < base
  · exact ⟨[], by rw [digits_of_lt h, Nat.mod_eq_of_lt h, List.nil_append]⟩
  · exact ⟨digits base (n / base), digits_of_le hbase (by omega)⟩

theorem foldl_eq_value (base n : Nat) (ds : List Nat) :
    ds.foldl (fun acc d => acc * base + d) n = n * base ^ ds.length + value base ds := by
  induction ds generalizing n with
  | nil => simp [value]
  | cons d ds ih =>
    have hcons : value base (d :: ds) = (0 * base + d) * base ^ ds.length + value base ds := ih _
    rw [List.foldl_cons, ih, hcons, List.length_cons, Nat.pow_succ]
    ring

theorem value_append (base : Nat) (ds es : List Nat) :
    value base (ds ++ es) = value base ds * base ^ es.length + value base es := by
  rw [value, List.foldl_append, ← value, foldl_eq_value]

theorem value_replicate_zero (base k : Nat) : value base (List.replicate k 0) = 0 := by
  induction k with
  | zero => rfl
  | succ k ih => rw [List.replicate_succ', value_append, ih]; simp [value]

theorem value_append_zeros (base : Nat) (ds : List Nat) (k : Nat) :
    value base (ds ++ List.replicate k 0) = value base ds * base ^ k := by
  rw [value_append, value_replicate_zero, List.length_replicate, Nat.add_zero]

theorem value_lt {base : Nat} {ds : List Nat} (h : ∀ d ∈ ds, d < base) :
    value base ds < base ^ ds.length := by
  induction ds using List.reverseRecOn with
  | nil => simp [value]
  | append_singleton ds d ih =>
    have hlast : d < base := h d (by simp)
    have hinit : value base ds + 1 ≤ base ^ ds.length := ih fun d hd => h d (by simp [hd])
    calc value base (ds ++ [d]) = value base ds * base + d := by
          rw [value_append]
          simp [value]
      _ < (value base ds + 1) * base := by rw [Nat.add_mul]; omega
      _ ≤ base ^ ds.length * base := Nat.mul_le_mul_right _ hinit
      _ = base ^ (ds ++ [d]).length := by simp [Nat.pow_succ]

theorem lt_pow_length {base : Nat} (hbase : 2 ≤ base) (n : Nat) :
    n < base ^ (digits base n).length := by
  have h := value_lt (digits_lt hbase n)
  rwa [value_digits hbase] at h

theorem isDigit_symbol : ∀ d < 10, (symbol d).isDigit = true := by
  decide

theorem toNat_symbol : ∀ d < 10, (symbol d).toNat - '0'.toNat = d := by
  decide

/-! ## Writing and reading back -/

/-- From `left` and the digits in `done`, so many rounds lead to `written`. A round puts the last
digit of what is left in front, and there are rounds as long as something is left. -/
inductive Rounds (base : Nat) : Nat → List Nat → Nat → List Nat → Prop
  | stop (done : List Nat) : Rounds base 0 done 0 done
  | round {left count : Nat} {done written : List Nat} : left ≠ 0 →
      Rounds base (left / base) (left % base :: done) count written →
      Rounds base left done (count + 1) written

/-- There is one round for each digit. -/
theorem rounds_digits {base : Nat} (hbase : 2 ≤ base) {n : Nat} (hn : n ≠ 0) (done : List Nat) :
    Rounds base n done (digits base n).length (digits base n ++ done) := by
  induction n using Nat.strong_induction_on generalizing done with
  | h n ih =>
    by_cases h : n < base
    · rw [digits_of_lt h]
      refine .round hn ?_
      rw [Nat.div_eq_of_lt h, Nat.mod_eq_of_lt h]
      exact .stop (n :: done)
    · have hpos : 0 < n / base := Nat.div_pos (by omega) (by omega)
      have hlt : n / base < n := Nat.div_lt_self (by omega) (by omega)
      rw [digits_of_le hbase (by omega), List.length_append, List.length_singleton,
        List.append_assoc, List.singleton_append]
      exact .round hn (ih _ hlt (by omega) _)

theorem length_digits_le {base : Nat} (hbase : 2 ≤ base) {n k : Nat} (hk : k ≠ 0)
    (h : n < base ^ k) : (digits base n).length ≤ k := by
  induction k generalizing n with
  | zero => exact absurd rfl hk
  | succ k ih =>
    by_cases hn : n < base
    · rw [digits_of_lt hn, List.length_singleton]
      omega
    · have hk : k ≠ 0 := by
        rintro rfl
        rw [Nat.zero_add, Nat.pow_one] at h
        exact hn h
      have hdiv : n / base < base ^ k := Nat.div_lt_of_lt_mul (by rwa [← Nat.pow_succ'])
      rw [digits_of_le hbase (by omega), List.length_append, List.length_singleton]
      exact Nat.succ_le_succ (ih hk hdiv)

/-- The digit that one of the symbols `0-9a-z` stands for. -/
def ofSymbol? (c : Char) : Option Nat :=
  if '0' ≤ c ∧ c ≤ '9' then some (c.toNat - '0'.toNat)
  else if 'a' ≤ c ∧ c ≤ 'z' then some (c.toNat - 'a'.toNat + 10)
  else none

/-- The number that a text stands for. There is none without symbols or with one that is no digit
of the base. -/
def read? (base : Nat) (s : String) : Option Nat :=
  if s.isEmpty then none
  else (s.toList.mapM fun c => (ofSymbol? c).filter (· < base)).map (value base)

theorem ofSymbol?_symbol : ∀ d < 36, ofSymbol? (symbol d) = some d := by
  decide

theorem symbol_eq_zero_iff : ∀ d < 36, symbol d = '0' ↔ d = 0 := by
  decide

theorem symbol_range :
    ∀ d < 36, ('0' ≤ symbol d ∧ symbol d ≤ '9') ∨ ('a' ≤ symbol d ∧ symbol d ≤ 'z') := by
  decide

theorem mapM_ofSymbol? {base : Nat} (hsymbols : base ≤ 36) {ds : List Nat}
    (h : ∀ d ∈ ds, d < base) :
    (ds.map symbol).mapM (fun c => (ofSymbol? c).filter (· < base)) = some ds := by
  induction ds with
  | nil => rfl
  | cons d ds ih =>
    obtain ⟨hd, hds⟩ := List.forall_mem_cons.1 h
    have hsome : (ofSymbol? (symbol d)).filter (· < base) = some d := by
      rw [ofSymbol?_symbol d (by omega), Option.filter_some_pos (by simpa using hd)]
    rw [List.map_cons, List.mapM_cons, ih hds, hsome]
    rfl

section

variable {base : Nat} (hbase : 2 ≤ base)

include hbase

theorem digits_ne_nil (n : Nat) : digits base n ≠ [] := by
  obtain ⟨ds, hds⟩ := exists_digits_eq_append hbase n
  rw [hds]
  exact List.append_ne_nil_of_right_ne_nil _ (List.cons_ne_nil _ _)

variable (hsymbols : base ≤ 36)

include hsymbols

/-- A numeral is read back as its number. -/
theorem read?_text (n : Nat) : read? base (text base n) = some n := by
  have hne : (text base n).isEmpty = false := by
    simp [text, chars, digits_ne_nil hbase n]
  rw [read?, hne, text, String.toList_ofList, chars,
    mapM_ofSymbol? hsymbols (digits_lt hbase n)]
  simp [value_digits hbase]

theorem text_inj {n m : Nat} : text base n = text base m ↔ n = m := by
  refine ⟨fun h => ?_, congrArg _⟩
  have hread := read?_text hbase hsymbols n
  rw [h, read?_text hbase hsymbols m] at hread
  exact (Option.some.inj hread).symm

theorem symbols_of_text (n : Nat) : ∀ c ∈ (text base n).toList,
    ('0' ≤ c ∧ c ≤ '9') ∨ ('a' ≤ c ∧ c ≤ 'z') := by
  intro c hc
  rw [text, String.toList_ofList, chars] at hc
  obtain ⟨d, hd, rfl⟩ := List.mem_map.1 hc
  exact symbol_range d (Nat.lt_of_lt_of_le (digits_lt hbase n d hd) hsymbols)

/-- Only zero is written with the digit zero in front. -/
theorem head?_text_eq_zero_iff (n : Nat) : (text base n).toList.head? = some '0' ↔ n = 0 := by
  rw [text, String.toList_ofList, chars]
  by_cases hn : n = 0
  · subst hn
    rw [digits_zero hbase]
    exact iff_of_true rfl rfl
  · obtain ⟨d, ds, hdigits, hd⟩ := digits_head hbase hn
    have hlt : d < base := digits_lt hbase n d (by simp [hdigits])
    have hsymbol : symbol d ≠ '0' := mt (symbol_eq_zero_iff d (by omega)).1 hd
    simp [hdigits, hsymbol, hn]

end

end ScreenTree.Numeral
