import Mathlib.Data.List.Lex
import Mathlib.Data.String.Basic
import Mathlib.Order.Monotone.Basic

/-! # Bytes of a text

A text is sorted by its characters as it is by the bytes of its UTF-8 form: the first byte of a
character tells how many follow, and a longer form has the greater first byte. -/

namespace ScreenTree.Text

/-- The bytes of the UTF-8 form, as numbers. -/
def bytes (s : String) : List Nat :=
  s.toByteArray.data.toList.map UInt8.toNat

/-- The bytes of a character. -/
def charBytes (c : Char) : List Nat :=
  (String.utf8EncodeChar c).map UInt8.toNat

/-- The bytes of a character with this number. -/
def codeBytes (n : Nat) : List Nat :=
  if n ≤ 0x7f then [n]
  else if n ≤ 0x7ff then [n / 64 + 192, n % 64 + 128]
  else if n ≤ 0xffff then [n / 4096 + 224, n / 64 % 64 + 128, n % 64 + 128]
  else [n / 262144 + 240, n / 4096 % 64 + 128, n / 64 % 64 + 128, n % 64 + 128]

theorem bytes_eq (s : String) : bytes s = s.toList.flatMap charBytes := by
  have htext : s.toByteArray = s.toList.utf8Encode := by
    rw [← String.toByteArray_ofList, String.ofList_toList]
  rw [bytes, htext, List.utf8Encode, List.toList_data_toByteArray, List.map_flatMap]
  rfl

theorem toNat_lt (c : Char) : c.toNat < 0x110000 := by
  have hvalid : c.toNat < 0xd800 ∨ 0xdfff < c.toNat ∧ c.toNat < 0x110000 := c.valid
  omega

theorem charBytes_eq (c : Char) : charBytes c = codeBytes c.toNat := by
  have hlt := toNat_lt c
  have hval : c.val.toNat = c.toNat := rfl
  rw [charBytes, String.utf8EncodeChar.eq_1, hval, codeBytes]
  split
  · simp only [List.map_cons, List.map_nil, UInt8.toNat_ofNat', List.cons.injEq, and_true]
    omega
  split
  · simp only [List.map_cons, List.map_nil, UInt8.toNat_ofNat', List.cons.injEq, and_true]
    omega
  split
  · simp only [List.map_cons, List.map_nil, UInt8.toNat_ofNat', List.cons.injEq, and_true]
    omega
  · simp only [List.map_cons, List.map_nil, UInt8.toNat_ofNat', List.cons.injEq, and_true]
    omega

/-- The lower of two characters has the lower bytes, whatever comes behind them. -/
theorem codeBytes_lt {m n : Nat} (h : m < n) (hn : n < 0x110000) (front back : List Nat) :
    codeBytes m ++ front < codeBytes n ++ back := by
  rw [codeBytes, codeBytes]
  split_ifs <;> simp only [List.cons_append, List.nil_append, List.cons_lt_cons_iff] <;> omega

theorem bytes_strictMono : StrictMono bytes := by
  have hchars : ∀ cs ds : List Char, cs < ds → cs.flatMap charBytes < ds.flatMap charBytes := by
    intro cs
    induction cs with
    | nil =>
      intro ds h
      cases ds with
      | nil => exact absurd h (lt_irrefl _)
      | cons d ds =>
        have hne : charBytes d ≠ [] := by
          rw [charBytes_eq, codeBytes]
          split_ifs <;> simp
        obtain ⟨b, bs, hbytes⟩ := List.exists_cons_of_ne_nil hne
        rw [List.flatMap_nil, List.flatMap_cons, hbytes]
        exact List.nil_lt_cons ..
    | cons c cs ih =>
      intro ds h
      cases ds with
      | nil => exact absurd h (List.not_lt_nil _)
      | cons d ds =>
        rw [List.flatMap_cons, List.flatMap_cons]
        rcases List.cons_lt_cons_iff.1 h with hlt | ⟨rfl, hlt⟩
        · rw [charBytes_eq, charBytes_eq]
          exact codeBytes_lt hlt (toNat_lt d) _ _
        · exact List.append_left_lt (ih ds hlt)
  intro s t h
  rw [bytes_eq, bytes_eq]
  exact hchars _ _ (String.lt_iff_toList_lt.1 h)

/-- Texts are in the order of their bytes. -/
theorem bytes_lt_bytes_iff {s t : String} : bytes s < bytes t ↔ s < t :=
  bytes_strictMono.lt_iff_lt

theorem bytes_inj {s t : String} : bytes s = bytes t ↔ s = t :=
  bytes_strictMono.injective.eq_iff

end ScreenTree.Text
