import ScreenTree.Script.Transform

/-! # Reading the text of an import

What the readers of blanks, signs, words and strings take from the front of a text. Together they
read the text of an import as this import, if a variable can have its name, and fail if not. -/

namespace ScreenTree.Script

/-! ## Characters of names -/

theorem lt_of_isNamePart {c : Char} (h : isNamePart c = true) : c.toNat < 128 := by
  simp only [isNamePart, Bool.or_eq_true, beq_iff_eq] at h
  rcases h with (h | rfl) | rfl
  · exact Text.lt_of_isAlphanum h
  all_goals decide

/-- A property of the characters of names, checked one by one. -/
theorem namePart_forall {P : Char → Prop}
    (hall : ∀ n < 128, isNamePart (Char.ofNat n) = true → P (Char.ofNat n)) {c : Char}
    (h : isNamePart c = true) : P c :=
  Text.ascii_forall (P := fun c => isNamePart c = true → P c) hall (lt_of_isNamePart h) h

theorem isNamePart_of_isNameStart {c : Char} (h : isNameStart c = true) : isNamePart c = true := by
  rw [isNameStart, Bool.or_assoc, Bool.or_eq_true] at h
  rw [isNamePart, Bool.or_assoc, Bool.or_eq_true]
  exact h.imp_left fun halpha => by rw [Char.isAlphanum, halpha, Bool.true_or]

theorem isStart_of_isNameStart {c : Char} (h : isNameStart c = true) :
    Identifier.isStart c = true :=
  namePart_forall (P := fun c => isNameStart c = true → Identifier.isStart c = true)
    (by decide) (isNamePart_of_isNameStart h) h

theorem isPart_of_isNamePart {c : Char} (h : isNamePart c = true) : Identifier.isPart c = true :=
  namePart_forall (P := fun c => Identifier.isPart c = true) (by decide) h

theorem isBlank_of_isNamePart {c : Char} (h : isNamePart c = true) : Scan.isBlank c = false :=
  namePart_forall (P := fun c => Scan.isBlank c = false) (by decide) h

theorem isSimpleName_iff {name : String} : isSimpleName name = true ↔
    ∃ c cs, name.toList = c :: cs ∧ isNameStart c = true ∧ ∀ d ∈ cs, isNamePart d = true := by
  rw [isSimpleName]
  split
  case h_1 hnil =>
    rw [hnil]
    exact iff_of_false nofun nofun
  case h_2 c cs hcons =>
    rw [hcons, Bool.and_eq_true, List.all_eq_true]
    constructor
    · exact fun h => ⟨c, cs, rfl, h⟩
    · rintro ⟨_, _, heq, h⟩
      cases heq
      exact h

theorem isNamePart_of_mem {name : String} (hname : isSimpleName name = true) :
    ∀ d ∈ name.toList, isNamePart d = true := by
  obtain ⟨c, cs, hcons, hc, hcs⟩ := isSimpleName_iff.1 hname
  rw [hcons, List.forall_mem_cons]
  exact ⟨isNamePart_of_isNameStart hc, hcs⟩

namespace Scan

variable {α β : Type} {p : Place} {cs left : List Char}

/-! ## Readers one after another -/

theorem bind_apply (x : Scan α) (f : α → Scan β) :
    (x >>= f) p cs = (x p cs).bind fun r => f r.1 p r.2 :=
  rfl

theorem bind_of_some {x : Scan α} {f : α → Scan β} {a : α} (h : x p cs = some (a, left)) :
    (x >>= f) p cs = f a p left := by
  rw [bind_apply, h, Option.bind_some]

theorem bind_of_none {x : Scan α} {f : α → Scan β} (h : x p cs = none) :
    (x >>= f) p cs = none := by
  rw [bind_apply, h, Option.bind_none]

theorem bind_congr_left {x : Scan α} {f : α → Scan β} (h : x p cs = x p left) :
    (x >>= f) p cs = (x >>= f) p left := by
  rw [bind_apply, bind_apply, h]

theorem rest_apply : rest p cs = some (cs, cs) :=
  rfl

theorem orElse_of_some {x y : Scan α} {a : α} (h : x p cs = some (a, left)) :
    (x <|> y) p cs = some (a, left) :=
  congrArg (· <|> y p cs) h

theorem orElse_of_none {x y : Scan α} (h : x p cs = none) : (x <|> y) p cs = y p cs :=
  congrArg (· <|> y p cs) h

theorem maybe_of_some {x : Scan α} {a : α} (h : x p cs = some (a, left)) :
    maybe x p cs = some (some a, left) := by
  rw [maybe, h]

theorem maybe_of_none {x : Scan α} (h : x p cs = none) : maybe x p cs = some (none, cs) := by
  rw [maybe, h]

theorem many_of_none {x : Scan α} (h : x p cs = none) : many x p cs = some ([], cs) := by
  rw [many, h]

/-- Nothing is left for a second item. -/
theorem many_of_all {x : Scan α} {a : α} (h : x p cs = some (a, [])) :
    many x p cs = some ([a], []) := by
  rw [many, h]
  rfl

/-! ## Blanks and signs -/

theorem blanks_cons {c : Char} (h : isBlank c = false) :
    blanks p (c :: cs) = some (false, c :: cs) := by
  simp [blanks, taking, h]

theorem blanks_space : blanks p (' ' :: cs) = blanks p cs := by
  have hblank : isBlank ' ' = true := by decide
  have hend : Text.isLineEnd ' ' = false := by decide
  simp [blanks, taking, hblank, hend]

theorem sign_space (ds : List Char) : sign ds p (' ' :: cs) = sign ds p cs :=
  bind_congr_left blanks_space

theorem sign_of_ne {c d : Char} {ds : List Char} (hblank : isBlank c = false) (hne : d ≠ c) :
    sign (d :: ds) p (c :: cs) = none := by
  rw [sign, bind_of_some (blanks_cons hblank)]
  exact if_neg hne

/-! ## Words -/

/-- What comes behind a word does not go on with it. -/
def EndsWord (rest : List Char) : Prop :=
  ∀ c ∈ rest.head?, Identifier.isPart c = false ∧ c ≠ '\\'

theorem endsWord_space : EndsWord (' ' :: cs) := by
  intro c hc
  cases hc
  decide

theorem EndsWord.escapedCharIn (h : EndsWord cs) (isIn : Char → Bool) :
    escapedCharIn isIn p cs = none := by
  refine bind_of_none ?_
  cases cs with
  | nil => rfl
  | cons c cs => exact if_neg (h c rfl).2.symm

theorem charsIn_append {isIn : Char → Bool} {ds : List Char} (hds : ∀ d ∈ ds, isIn d = true)
    (hcs : ∀ c ∈ cs.head?, isIn c = false) :
    charsIn isIn p (ds ++ cs) = some (ds, cs) := by
  have htake : cs.takeWhile isIn = [] := by
    cases cs with
    | nil => rfl
    | cons c cs => exact List.takeWhile_cons_of_neg (by rw [hcs c rfl]; nofun)
  have hdrop : cs.dropWhile isIn = cs := by
    cases cs with
    | nil => rfl
    | cons c cs => exact List.dropWhile_cons_of_neg (by rw [hcs c rfl]; nofun)
  rw [charsIn, taking, List.takeWhile_append_of_pos hds, List.dropWhile_append_of_pos hds, htake,
    hdrop, List.append_nil]

theorem word_space : word p (' ' :: cs) = word p cs :=
  bind_congr_left blanks_space

theorem word_append {name : String} (hname : isSimpleName name = true) (hends : EndsWord cs) :
    word p (name.toList ++ cs) = some (name, cs) := by
  obtain ⟨c, ds, hcons, hc, hds⟩ := isSimpleName_iff.1 hname
  have hblank := isBlank_of_isNamePart (isNamePart_of_isNameStart hc)
  have hfirst : (charIn Identifier.isStart <|> escapedCharIn Identifier.isStart) p
      (c :: (ds ++ cs)) = some (c, ds ++ cs) :=
    orElse_of_some (if_pos (isStart_of_isNameStart hc))
  have hmore : charsIn Identifier.isPart p (ds ++ cs) = some (ds, cs) :=
    charsIn_append (fun d hd => isPart_of_isNamePart (hds d hd)) fun c hc => (hends c hc).1
  rw [hcons, List.cons_append, word, bind_of_some (blanks_cons hblank), bind_of_some hfirst,
    bind_of_some hmore, bind_of_some (many_of_none (bind_of_none (hends.escapedCharIn _)))]
  show some (String.ofList (c :: ds ++ [].flatten), cs) = some (name, cs)
  rw [List.flatten_nil, List.append_nil, ← hcons, String.ofList_toList]

theorem unescapedWord_append {name : String} (hname : isSimpleName name = true)
    (hends : EndsWord cs) : unescapedWord p (name.toList ++ cs) = some (name, cs) := by
  have hword := word_append (p := p) hname hends
  have hlength : (name.toList ++ cs).length = name.length + cs.length := by
    rw [List.length_append, String.length_toList]
  obtain ⟨c, ds, hcons, hc, -⟩ := isSimpleName_iff.1 hname
  rw [hcons, List.cons_append] at hword hlength ⊢
  rw [unescapedWord,
    bind_of_some (blanks_cons (isBlank_of_isNamePart (isNamePart_of_isNameStart hc))),
    bind_of_some rest_apply, bind_of_some hword, bind_of_some rest_apply, if_pos hlength]
  rfl

theorem keyword_append {text : String} (htext : isSimpleName text = true) (hends : EndsWord cs) :
    keyword text p (text.toList ++ cs) = some ((), cs) := by
  rw [keyword, bind_of_some (unescapedWord_append htext hends), if_pos rfl]
  rfl

theorem keyword_space (text : String) : keyword text p (' ' :: cs) = keyword text p cs :=
  bind_congr_left (bind_congr_left blanks_space)

theorem isReserved_top (w : String) : Place.top.isReserved w = reservedWords.contains w := by
  rw [Place.isReserved]
  split
  case isTrue h => rw [h]; decide
  case isFalse => rfl

theorem variableName_append {name : String} (hname : isSimpleName name = true)
    (hends : EndsWord cs) : variableName .top (name.toList ++ cs) =
      if name ∈ reservedWords then none else some (name, cs) := by
  rw [variableName, bind_of_some (word_append hname hends)]
  show (if Place.top.isReserved name then fail else pure name : Scan String) .top cs = _
  simp only [isReserved_top, List.contains_iff_mem]
  split <;> rfl

/-! ## Strings -/

/-- A letter that stands for itself between double quotes. -/
def IsUnescaped (c : Char) : Prop :=
  c ≠ '"' ∧ c ≠ '\\' ∧ c ≠ '\n' ∧ c ≠ '\r'

instance (c : Char) : Decidable (IsUnescaped c) :=
  inferInstanceAs (Decidable (_ ∧ _))

theorem upTo?_append {ds : List Char} (hds : ∀ d ∈ ds, IsUnescaped d) {bound : Nat}
    (hbound : ds.length < bound) :
    Literal.upTo? '"' bound (ds ++ '"' :: cs) = some (ds.map .char, cs) := by
  induction ds generalizing bound with
  | nil =>
    obtain ⟨n, rfl⟩ := Nat.exists_eq_succ_of_ne_zero (Nat.ne_of_gt hbound)
    rfl
  | cons d ds ih =>
    obtain ⟨n, rfl⟩ := Nat.exists_eq_succ_of_ne_zero (Nat.ne_of_gt (Nat.zero_lt_of_lt hbound))
    obtain ⟨hquote, hescape, hfeed, hreturn⟩ := hds d List.mem_cons_self
    have hrest := ih (fun e he => hds e (List.mem_cons_of_mem d he)) (Nat.lt_of_succ_lt_succ hbound)
    simp [Literal.upTo?, hquote, hfeed, hreturn, hrest]

theorem string_append {ds : List Char} (hds : ∀ d ∈ ds, IsUnescaped d) :
    string p ('"' :: (ds ++ '"' :: cs)) = some (ds.map .char, cs) := by
  have hbound : ds.length < (ds ++ '"' :: cs).length + 1 := by
    rw [List.length_append]
    omega
  exact upTo?_append hds hbound

theorem string_space : string p (' ' :: cs) = string p cs :=
  bind_congr_left blanks_space

theorem string_of_ne {c : Char} (hblank : isBlank c = false) (hdouble : c ≠ '"')
    (hsingle : c ≠ '\x27') : string p (c :: cs) = none := by
  rw [string, bind_of_some (blanks_cons hblank)]
  exact bind_of_none (if_neg (not_or.2 ⟨hdouble, hsingle⟩))

end Scan

/-! ## The text of an import -/

open Scan

theorem toList_importText (name : String) (kind : ImportKind) :
    (importText name kind).toList =
      "import".toList ++ ' ' :: (name.toList ++ ' ' :: ("from".toList ++ ' ' :: '"' ::
        ((kind.path name).toList ++ ['"', ';']))) := by
  simp [importText]

variable {name : String} {cs : List Char}

theorem sign_append_eq_none (hname : isSimpleName name = true) {p : Place} {d : Char}
    (hd : isNamePart d = false) : sign [d] p (' ' :: (name.toList ++ cs)) = none := by
  obtain ⟨c, ds, hcons, hc, -⟩ := isSimpleName_iff.1 hname
  have hpart := isNamePart_of_isNameStart hc
  rw [sign_space, hcons]
  refine sign_of_ne (isBlank_of_isNamePart hpart) ?_
  rintro rfl
  rw [hpart] at hd
  cases hd

theorem string_name_eq_none (hname : isSimpleName name = true) {p : Place} :
    string p (' ' :: (name.toList ++ cs)) = none := by
  obtain ⟨c, ds, hcons, hc, -⟩ := isSimpleName_iff.1 hname
  have hpart := isNamePart_of_isNameStart hc
  have hquotes : c ≠ '"' ∧ c ≠ '\x27' :=
    namePart_forall (P := fun c => c ≠ '"' ∧ c ≠ '\x27') (by decide) hpart
  rw [string_space, hcons]
  exact string_of_ne (isBlank_of_isNamePart hpart) hquotes.1 hquotes.2

theorem isUnescaped_of_isNamePart {c : Char} (h : isNamePart c = true) : IsUnescaped c :=
  namePart_forall (P := IsUnescaped) (by decide) h

theorem isUnescaped_path (hname : isSimpleName name = true) (kind : ImportKind) :
    ∀ d ∈ (kind.path name).toList, IsUnescaped d := by
  have hdirectory : ∀ d ∈ (kind.directory ++ "/").toList, IsUnescaped d := by
    cases kind <;> simp [ImportKind.directory, IsUnescaped]
  intro d hd
  rw [ImportKind.path, String.toList_append, List.mem_append] at hd
  rcases hd with hd | hd
  · exact hdirectory d hd
  · exact isUnescaped_of_isNamePart (isNamePart_of_mem hname d hd)

namespace Rules

theorem bindings_append (hname : isSimpleName name = true) :
    bindings .top (' ' :: (name.toList ++ ' ' :: ("from".toList ++ cs))) =
      if name ∈ reservedWords then none
      else some ([.default name], ' ' :: ("from".toList ++ cs)) := by
  have hvariable : variableName .top (' ' :: (name.toList ++ ' ' :: ("from".toList ++ cs))) =
      if name ∈ reservedWords then none else some (name, ' ' :: ("from".toList ++ cs)) := by
    rw [← variableName_append hname endsWord_space]
    exact bind_congr_left word_space
  have hcomma : maybe (sign [',']) .top (' ' :: ("from".toList ++ cs)) =
      some (none, ' ' :: ("from".toList ++ cs)) :=
    maybe_of_none (sign_append_eq_none (by decide) (by decide))
  have hspace : spaceBinding .top (' ' :: (name.toList ++ ' ' :: ("from".toList ++ cs))) = none :=
    bind_of_none (sign_append_eq_none hname (by decide))
  have hnamed : namedBindings .top (' ' :: (name.toList ++ ' ' :: ("from".toList ++ cs))) = none :=
    bind_of_none (sign_append_eq_none hname (by decide))
  rw [bindings, orElse_of_none (bind_of_none hspace), orElse_of_none hnamed]
  split
  case isTrue hreserved =>
    rw [if_pos hreserved] at hvariable
    exact bind_of_none hvariable
  case isFalse hreserved =>
    rw [if_neg hreserved] at hvariable
    rw [bind_of_some hvariable, bind_of_some hcomma]
    rfl

theorem importTerm_append (hname : isSimpleName name = true) {ds : List Char}
    (hds : ∀ d ∈ ds, IsUnescaped d) :
    importTerm .top ("import".toList ++ ' ' :: (name.toList ++ ' ' ::
        ("from".toList ++ ' ' :: '"' :: (ds ++ ['"', ';'])))) =
      if name ∈ reservedWords then none
      else some (.importing ⟨some [.default name], ds.map .char, none⟩, []) := by
  rw [importTerm, bind_of_some (keyword_append (by decide) endsWord_space)]
  have hbindings := @bindings_append name (' ' :: '"' :: (ds ++ ['"', ';'])) hname
  split
  case isTrue hreserved =>
    -- Without bindings the name stands where the source should be.
    rw [if_pos hreserved] at hbindings
    rw [bind_of_some (maybe_of_none (bind_of_none hbindings))]
    exact bind_of_none (bind_of_none (string_name_eq_none hname))
  case isFalse hreserved =>
    rw [if_neg hreserved] at hbindings
    have hfrom : keyword "from" .top (' ' :: ("from".toList ++ ' ' :: '"' :: (ds ++ ['"', ';']))) =
        some ((), ' ' :: '"' :: (ds ++ ['"', ';'])) := by
      rw [keyword_space, keyword_append (by decide) endsWord_space]
    have hbound : (bindings >>= fun bs => keyword "from" >>= fun _ => pure bs) .top
        (' ' :: (name.toList ++ ' ' :: ("from".toList ++ ' ' :: '"' :: (ds ++ ['"', ';'])))) =
        some ([.default name], ' ' :: '"' :: (ds ++ ['"', ';'])) := by
      rw [bind_of_some hbindings, bind_of_some hfrom]
      rfl
    have hsource : source .top (' ' :: '"' :: (ds ++ ['"', ';'])) =
        some ((ds.map .char, none), [';']) := by
      rw [source, bind_of_some ((string_space).trans (string_append hds))]
      rfl
    rw [bind_of_some (maybe_of_some hbound), bind_of_some hsource]
    rfl

theorem statementStep_of_import (r : Rules) {left : List Char}
    (hword : unescapedWord .top ('i' :: cs) = some ("import", left)) :
    r.statementStep .top ('i' :: cs) = importTerm .top ('i' :: cs) := by
  have hpeek : peek .top ('i' :: cs) = some (some 'i', 'i' :: cs) := rfl
  have hset : (set ('i' :: cs) : Scan PUnit) .top left = some (⟨⟩, 'i' :: cs) := rfl
  rw [statementStep, bind_of_some (blanks_cons (by decide)), bind_of_some hpeek]
  show (rest >>= _) .top ('i' :: cs) = _
  rw [bind_of_some rest_apply, bind_of_some (maybe_of_some hword)]
  show ((set ('i' :: cs) : Scan PUnit) >>= _) .top left = _
  rw [bind_of_some hset]
  rfl

theorem directive_eq_none (r : Rules) {c : Char} (hblank : isBlank c = false) (hdouble : c ≠ '"')
    (hsingle : c ≠ '\x27') : r.directive .top (c :: cs) = none := by
  have hsource : stringSource .top (c :: cs) = none := by
    rw [stringSource, bind_of_some (blanks_cons hblank), bind_of_some rest_apply]
    exact bind_of_none (string_of_ne hblank hdouble hsingle)
  rw [directive, bind_of_some rest_apply]
  exact bind_of_none hsource

end Rules

namespace Module

/-- A text that begins with the word for imports holds this one statement if an import is all of it,
and cannot be read if it is none. -/
theorem ofText?_of_import {text : String} {left : List Char} (htext : text.toList = 'i' :: cs)
    (hword : unescapedWord .top ('i' :: cs) = some ("import", left)) {i : Option Import}
    (himport : Rules.importTerm .top ('i' :: cs) = i.map fun i => (.importing i, [])) :
    ofText? text = i.map fun i => ⟨[], [.importing i]⟩ := by
  have hdirectives : many (Rules.level (('i' :: cs).length + 1)).directive .top ('i' :: cs) =
      some ([], 'i' :: cs) :=
    many_of_none (Rules.directive_eq_none _ (by decide) (by decide) (by decide))
  have hstatement : (Rules.level (('i' :: cs).length + 1)).statement .top ('i' :: cs) =
      i.map fun i => (.importing i, []) :=
    (Rules.statementStep_of_import _ hword).trans himport
  rw [ofText?, htext]
  cases i with
  | none =>
    have hmodule : module (Rules.level (('i' :: cs).length + 1)) .top ('i' :: cs) =
        some (⟨[], []⟩, 'i' :: cs) := by
      rw [module, bind_of_some hdirectives, bind_of_some (many_of_none hstatement),
        bind_of_some (blanks_cons (by decide))]
      rfl
    simp only [hmodule, Option.map_none]
  | some i =>
    have hmodule : module (Rules.level (('i' :: cs).length + 1)) .top ('i' :: cs) =
        some (⟨[], [.importing i]⟩, []) := by
      rw [module, bind_of_some hdirectives, bind_of_some (many_of_all hstatement)]
      rfl
    have honce : (Module.mk [] [.importing i]).exportsOnce = true := rfl
    simp only [hmodule, honce, if_true, Option.map_some]

/-- The text of an import is read as this import if its name is not reserved, and not at all if it
is. -/
theorem read_importText (hname : isSimpleName name = true) (kind : ImportKind) :
    Module.read (importText name kind) =
      if name ∈ reservedWords then .error (.unreadable .script)
      else .ok ⟨[], [.importing (.ofComponent name kind)]⟩ := by
  have htext := toList_importText name kind
  have hletters : "import".toList = 'i' :: "mport".toList := by decide
  have hword : unescapedWord .top ("import".toList ++ ' ' :: (name.toList ++ ' ' ::
        ("from".toList ++ ' ' :: '"' :: ((kind.path name).toList ++ ['"', ';'])))) =
      some ("import", _) :=
    unescapedWord_append (by decide) endsWord_space
  have himport := Rules.importTerm_append hname (isUnescaped_path hname kind)
  rw [hletters, List.cons_append] at htext hword himport
  by_cases hreserved : name ∈ reservedWords
  · rw [if_pos hreserved] at himport ⊢
    rw [read, ofText?_of_import (i := none) htext hword himport]
    rfl
  · rw [if_neg hreserved] at himport ⊢
    rw [read, ofText?_of_import (i := some (.ofComponent name kind)) htext hword himport]
    rfl

end Module
end ScreenTree.Script
