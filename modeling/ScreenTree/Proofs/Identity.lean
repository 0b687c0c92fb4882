import ScreenTree.Identity
import ScreenTree.Proofs.Numeral

/-! # Ids of different times

The time in an id is a numeral, which is written in one round a digit and read back as its number.
Behind it come as many random digits in every id, so ids of different times differ. -/

namespace ScreenTree

namespace Identity

/-- What a random text looks like: 32 lower-case hexadecimal digits. -/
structure IsRandom (random : String) : Prop where
  length_eq : random.length = 32
  hexadecimal : ∀ c ∈ random.toList, ('0' ≤ c ∧ c ≤ '9') ∨ ('a' ≤ c ∧ c ≤ 'f')

theorem toList_make (milliseconds : Nat) (random : String) :
    (make milliseconds random).toList =
      (Numeral.text 36 milliseconds).toList ++ random.toList.take suffixLength := by
  rw [make, String.toList_append, String.toList_ofList]

theorem IsRandom.length_take {random : String} (h : IsRandom random) :
    (random.toList.take suffixLength).length = suffixLength := by
  rw [List.length_take, String.length_toList, h.length_eq]
  rfl

/-- An id determines its time and the random digits in it. -/
theorem make_eq_make_iff {time time' : Nat} {random random' : String} (h : IsRandom random)
    (h' : IsRandom random') : make time random = make time' random' ↔
      time = time' ∧ random.toList.take suffixLength = random'.toList.take suffixLength := by
  rw [← String.toList_inj, toList_make, toList_make]
  constructor
  · intro heq
    -- The random digits are as many in both ids, so the ids part at the same place.
    obtain ⟨htime, hrandom⟩ := List.append_inj' heq (by rw [h.length_take, h'.length_take])
    exact ⟨(Numeral.text_inj (by decide) le_rfl).1 (String.toList_inj.1 htime), hrandom⟩
  · rintro ⟨rfl, hrandom⟩
    rw [hrandom]

theorem isDigit_iff {c : Char} : c.isDigit = true ↔ '0' ≤ c ∧ c ≤ '9' := by
  delta Char.isDigit
  simp [Char.le_def]

theorem isLower_iff {c : Char} : c.isLower = true ↔ 'a' ≤ c ∧ c ≤ 'z' := by
  delta Char.isLower
  simp [Char.le_def]

/-- Every id is made of digits and lower-case letters and ends in hexadecimal digits. -/
theorem shape_of_make {random : String} (h : IsRandom random) (time : Nat) :
    isLowerAlphanumeric (make time random) = true ∧ hasRandomSuffix (make time random) = true := by
  have hrandom : ∀ c ∈ random.toList.take suffixLength,
      ('0' ≤ c ∧ c ≤ '9') ∨ ('a' ≤ c ∧ c ≤ 'f') :=
    fun c hc => h.hexadecimal c (List.mem_of_mem_take hc)
  constructor
  · rw [isLowerAlphanumeric, toList_make, List.all_eq_true]
    intro c hc
    rw [Bool.or_eq_true, isDigit_iff, isLower_iff]
    rcases List.mem_append.1 hc with hc | hc
    · exact Numeral.symbols_of_text (by decide) le_rfl time c hc
    · have hz : 'f' ≤ 'z' := by decide
      exact (hrandom c hc).imp_right fun hletter => ⟨hletter.1, Char.le_trans hletter.2 hz⟩
  · have hdrop : (make time random).toList.drop ((make time random).length - suffixLength) =
        random.toList.take suffixLength := by
      rw [← String.length_toList, toList_make, List.length_append, h.length_take,
        Nat.add_sub_cancel, List.drop_left]
    rw [hasRandomSuffix, hdrop, h.length_take]
    simpa [isDigit_iff] using hrandom

/-- The times in 128 bits are written in at most 25 digits. -/
theorem length_digits_time {time : Nat} (h : time < 2 ^ 128) :
    (Numeral.digits 36 time).length ≤ 25 :=
  Numeral.length_digits_le (by decide) (by decide) (h.trans (by decide))

/-- Ids of different times differ, whatever their random texts. The numeral of a time is written in
at most 25 rounds, it consists of the symbols `0-9a-z`, only zero begins with the digit zero, and it
is read back as the time. -/
theorem ids_tell_times_apart :
    (∀ time time' : Nat, time < 2 ^ 128 → time' < 2 ^ 128 → time ≠ time' →
      ∀ random random' : String, IsRandom random → IsRandom random' →
        make time random ≠ make time' random') ∧
      ∀ time < 2 ^ 128,
        (∃ count ≤ 25, ∃ written, Numeral.Rounds 36 time [] count written ∧
          Numeral.text 36 time =
            if time = 0 then "0" else String.ofList (written.map Numeral.symbol)) ∧
        (∀ c ∈ (Numeral.text 36 time).toList, ('0' ≤ c ∧ c ≤ '9') ∨ ('a' ≤ c ∧ c ≤ 'z')) ∧
        ((Numeral.text 36 time).toList.head? = some '0' ↔ time = 0) ∧
        Numeral.read? 36 (Numeral.text 36 time) = some time := by
  have hbase : 2 ≤ 36 := by decide
  constructor
  · intro time time' _ _ hne random random' h h' heq
    exact hne ((make_eq_make_iff h h').1 heq).1
  · intro time htime
    refine ⟨?_, Numeral.symbols_of_text hbase le_rfl time,
      Numeral.head?_text_eq_zero_iff hbase le_rfl time, Numeral.read?_text hbase le_rfl time⟩
    by_cases hzero : time = 0
    · subst hzero
      exact ⟨0, by decide, [], .stop [], by decide⟩
    · refine ⟨_, length_digits_time htime, Numeral.digits 36 time, ?_, by rw [if_neg hzero]; rfl⟩
      simpa using Numeral.rounds_digits hbase hzero []

/-- The times 35 and 36 are written with one digit and with two. -/
theorem ids_tell_times_apart_at_carry :
    let random := "00000000000aaaaaaaaaaaaaaaaaaaaa"
    let random' := "0000000000aaaaaaaaaaaaaaaaaaaaaa"
    make 35 random = "z00000000000" ∧ make 36 random' = "100000000000a" ∧
      make 35 random ≠ make 36 random' ∧ Numeral.read? 36 "10" = some 36 := by
  intro random random'
  obtain ⟨hids, htimes⟩ := ids_tell_times_apart
  have hrandom : IsRandom random := ⟨by decide, by simp [random]⟩
  have hrandom' : IsRandom random' := ⟨by decide, by simp [random']⟩
  obtain ⟨-, -, -, hread⟩ := htimes 36 (by decide)
  exact ⟨by decide, by decide,
    hids 35 36 (by decide) (by decide) (by decide) random random' hrandom hrandom', hread⟩

end Identity

end ScreenTree
