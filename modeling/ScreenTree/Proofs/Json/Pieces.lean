import ScreenTree.Proofs.Json.Text

/-! # Pieces of a text

Strings and numbers end where they are read to: the same characters in front of another text are
read as the same string or number, if that text does not carry on a number. -/

namespace ScreenTree.Json

/-- No digit comes first. -/
def EndsDigits (rest : List Char) : Prop :=
  ∀ c ∈ rest.head?, c.isDigit = false

theorem forall_head?_append {P : Char → Prop} {cs ds : List Char} (hcs : ∀ c ∈ cs.head?, P c)
    (hds : ∀ c ∈ ds.head?, P c) : ∀ c ∈ (cs ++ ds).head?, P c := by
  cases cs with
  | nil => exact hds
  | cons c cs => exact hcs

/-! ## Strings -/

theorem readItems_escaped {c d : Char} (h : escaped? c = some d) (cs : List Char) :
    readItems ('\\' :: c :: cs) =
      (readItems cs).map fun (items, rest) => (.char d :: items, rest) := by
  have hu : c ≠ 'u' := by
    rintro rfl
    cases h
  rw [readItems.eq_def]
  split
  · next heq => cases heq
  · next heq => cases heq
  · next heq => cases heq; exact absurd rfl hu
  · next heq => cases heq; rw [h, Option.bind_some]
  · next hne heq => cases heq; exact (hne _ _ rfl rfl).elim

theorem readItems_front {cs rest : List Char} {items : List StringItem}
    (h : readItems cs = some (items, rest)) :
    ∃ front, cs = front ++ rest ∧ ∀ more, readItems (front ++ more) = some (items, more) := by
  fun_induction readItems cs generalizing items rest with
  | case1 => cases h
  | case2 cs => cases h; exact ⟨['"'], rfl, fun _ => rfl⟩
  | case3 a b c d cs ih =>
    obtain ⟨n, hn, h⟩ := Option.bind_eq_some_iff.1 h
    obtain ⟨⟨items, tail⟩, hitems, heq⟩ := Option.map_eq_some_iff.1 h
    cases heq
    obtain ⟨front, rfl, hfront⟩ := ih hitems
    refine ⟨'\\' :: 'u' :: a :: b :: c :: d :: front, rfl, fun more => ?_⟩
    simp only [List.cons_append, readItems, hn, hfront, Option.bind_some, Option.map_some]
  | case4 c cs _ ih =>
    obtain ⟨d, hd, h⟩ := Option.bind_eq_some_iff.1 h
    obtain ⟨⟨items, tail⟩, hitems, heq⟩ := Option.map_eq_some_iff.1 h
    cases heq
    obtain ⟨front, rfl, hfront⟩ := ih hitems
    refine ⟨'\\' :: c :: front, rfl, fun more => ?_⟩
    rw [List.cons_append, List.cons_append, readItems_escaped hd, hfront, Option.map_some]
  | case5 => cases h
  | case6 c cs hquote _ _ hplain ih =>
    obtain ⟨⟨items, tail⟩, hitems, heq⟩ := Option.map_eq_some_iff.1 h
    cases heq
    obtain ⟨front, rfl, hfront⟩ := ih hitems
    refine ⟨c :: front, rfl, fun more => ?_⟩
    have hbackslash : c ≠ '\\' := fun heq => hplain (.inl heq)
    rw [List.cons_append, readItems_plain hquote hbackslash hplain, hfront, Option.map_some]

theorem readString_front {cs rest : List Char} {s : Option String}
    (h : readString cs = some (s, rest)) :
    ∃ front, cs = front ++ rest ∧ ∀ more, readString (front ++ more) = some (s, more) := by
  obtain ⟨⟨items, tail⟩, hitems, heq⟩ := Option.map_eq_some_iff.1 h
  cases heq
  obtain ⟨front, hcs, hfront⟩ := readItems_front hitems
  exact ⟨front, hcs, fun more => by rw [readString, hfront, Option.map_some]⟩

/-! ## Numbers -/

theorem readDigits_front {cs rest : List Char} {ds : List Nat}
    (h : readDigits cs = some (ds, rest)) :
    ∃ c front, c.isDigit = true ∧ cs = c :: front ++ rest ∧
      ∀ more, EndsDigits more → readDigits (c :: front ++ more) = some (ds, more) := by
  cases hfront : cs.takeWhile Char.isDigit with
  | nil =>
    rw [readDigits, takeDigits, hfront] at h
    cases h
  | cons c front =>
    have hdigits : ∀ d ∈ c :: front, d.isDigit = true := by
      intro d hd
      rw [← hfront] at hd
      exact List.mem_takeWhile_imp hd
    have htext := List.takeWhile_append_dropWhile (p := Char.isDigit) (l := cs)
    rw [readDigits, takeDigits, hfront] at h
    cases h
    rw [hfront] at htext
    refine ⟨c, front, hdigits c List.mem_cons_self, htext.symm, fun more hmore => ?_⟩
    rw [readDigits, takeDigits_append hdigits hmore]
    rfl

theorem readWhole_front {cs rest : List Char} {ds : List Nat}
    (h : readWhole cs = some (ds, rest)) :
    ∃ c front, c.isDigit = true ∧ cs = c :: front ++ rest ∧
      ∀ more, EndsDigits more → readWhole (c :: front ++ more) = some (ds, more) := by
  rw [readWhole.eq_def] at h
  split at h
  · cases h
  · next hne =>
    obtain ⟨c, front, hc, hcs, hfront⟩ := readDigits_front h
    refine ⟨c, front, hc, hcs, fun more hmore => ?_⟩
    rw [readWhole.eq_def, hfront more hmore]
    split
    · next heq =>
      cases heq
      exact absurd h (hne _ _ _)
    · rfl

theorem readFraction_front {cs rest : List Char} {fraction : Option (List Nat)}
    (h : readFraction cs = some (fraction, rest)) :
    ∃ front, (∀ c ∈ front.head?, c = '.') ∧ cs = front ++ rest ∧
      ∀ more, (∀ c ∈ more.head?, c.isDigit = false ∧ c ≠ '.') →
        readFraction (front ++ more) = some (fraction, more) := by
  rw [readFraction.eq_def] at h
  split at h
  · obtain ⟨⟨ds, tail⟩, hdigits, heq⟩ := Option.map_eq_some_iff.1 h
    cases heq
    obtain ⟨c, front, -, rfl, hfront⟩ := readDigits_front hdigits
    refine ⟨'.' :: c :: front, by simp, rfl, fun more hmore => ?_⟩
    rw [List.cons_append, readFraction, hfront more fun d hd => (hmore d hd).1, Option.map_some]
  · cases h
    refine ⟨[], by simp, rfl, fun more hmore => ?_⟩
    rw [List.nil_append, readFraction.eq_def]
    split
    · exact absurd rfl (hmore _ rfl).2
    · rfl

theorem readPower_front {cs rest : List Char} {e : Int} (h : readPower cs = some (e, rest)) :
    ∃ front, cs = front ++ rest ∧
      ∀ more, EndsDigits more → readPower (front ++ more) = some (e, more) := by
  rw [readPower.eq_def] at h
  split at h
  all_goals
    obtain ⟨⟨ds, tail⟩, hdigits, heq⟩ := Option.map_eq_some_iff.1 h
    cases heq
    obtain ⟨c, front, hc, rfl, hfront⟩ := readDigits_front hdigits
  · refine ⟨'+' :: c :: front, rfl, fun more hmore => ?_⟩
    rw [List.cons_append, readPower, hfront more hmore, Option.map_some]
  · refine ⟨'-' :: c :: front, rfl, fun more hmore => ?_⟩
    rw [List.cons_append, readPower, hfront more hmore, Option.map_some]
  · refine ⟨c :: front, rfl, fun more hmore => ?_⟩
    rw [readPower.eq_def]
    split
    · next heq => cases heq; cases hc
    · next heq => cases heq; cases hc
    · rw [hfront more hmore, Option.map_some]

theorem readExponent_front {cs rest : List Char} {exponent : Option Int}
    (h : readExponent cs = some (exponent, rest)) :
    ∃ front, (∀ c ∈ front.head?, c = 'e' ∨ c = 'E') ∧ cs = front ++ rest ∧
      ∀ more, EndsNumber more → readExponent (front ++ more) = some (exponent, more) := by
  rw [readExponent.eq_def] at h
  split at h
  · obtain ⟨⟨e, tail⟩, hpower, heq⟩ := Option.map_eq_some_iff.1 h
    cases heq
    obtain ⟨front, rfl, hfront⟩ := readPower_front hpower
    refine ⟨'e' :: front, by simp, rfl, fun more hmore => ?_⟩
    rw [List.cons_append, readExponent, hfront more fun d hd => (hmore d hd).1, Option.map_some]
  · obtain ⟨⟨e, tail⟩, hpower, heq⟩ := Option.map_eq_some_iff.1 h
    cases heq
    obtain ⟨front, rfl, hfront⟩ := readPower_front hpower
    refine ⟨'E' :: front, by simp, rfl, fun more hmore => ?_⟩
    rw [List.cons_append, readExponent, hfront more fun d hd => (hmore d hd).1, Option.map_some]
  · cases h
    exact ⟨[], by simp, rfl, fun more hmore => readExponent_of_ends hmore⟩

theorem readUnsigned_front {negative : Bool} {cs rest : List Char} {t : NumberText}
    (h : readUnsigned negative cs = some (t, rest)) :
    ∃ c front, c.isDigit = true ∧ cs = c :: front ++ rest ∧
      ∀ more, EndsNumber more → readUnsigned negative (c :: front ++ more) = some (t, more) := by
  obtain ⟨⟨whole, cs₁⟩, hwhole, h⟩ := Option.bind_eq_some_iff.1 h
  obtain ⟨⟨fraction, cs₂⟩, hfraction, h⟩ := Option.bind_eq_some_iff.1 h
  obtain ⟨⟨exponent, cs₃⟩, hexponent, h⟩ := Option.bind_eq_some_iff.1 h
  cases h
  obtain ⟨c, front, hc, rfl, hreadWhole⟩ := readWhole_front hwhole
  obtain ⟨point, hpoint, rfl, hreadFraction⟩ := readFraction_front hfraction
  obtain ⟨power, hpower, rfl, hreadExponent⟩ := readExponent_front hexponent
  refine ⟨c, front ++ (point ++ power), hc, by simp, fun more hmore => ?_⟩
  -- What ends the number also ends its parts, or else the next part does.
  have hafter : ∀ d ∈ (power ++ more).head?, d.isDigit = false ∧ d ≠ '.' := by
    refine forall_head?_append (fun d hd => ?_) fun d hd => ⟨(hmore d hd).1, (hmore d hd).2.1⟩
    rcases hpower d hd with rfl | rfl <;> decide
  have hbefore : EndsDigits (point ++ (power ++ more)) := by
    refine forall_head?_append (fun d hd => ?_) fun d hd => (hafter d hd).1
    rw [hpoint d hd]
    rfl
  have htext : c :: (front ++ (point ++ power)) ++ more =
      c :: front ++ (point ++ (power ++ more)) := by simp
  rw [htext, readUnsigned, hreadWhole _ hbefore]
  simp [hreadFraction _ hafter, hreadExponent more hmore]

theorem readNumber_front {cs rest : List Char} {t : NumberText}
    (h : readNumber cs = some (t, rest)) :
    ∃ c front, (c = '-' ∨ c.isDigit = true) ∧ cs = c :: front ++ rest ∧
      ∀ more, EndsNumber more → readNumber (c :: front ++ more) = some (t, more) := by
  rw [readNumber.eq_def] at h
  split at h
  · obtain ⟨c, front, -, rfl, hfront⟩ := readUnsigned_front h
    exact ⟨'-', c :: front, .inl rfl, rfl, hfront⟩
  · obtain ⟨c, front, hc, rfl, hfront⟩ := readUnsigned_front h
    refine ⟨c, front, .inr hc, rfl, fun more hmore => ?_⟩
    rw [readNumber.eq_def]
    split
    · next heq => cases heq; cases hc
    · exact hfront more hmore

end ScreenTree.Json
