import Mathlib.Data.List.Chain
import PropertySets.Proofs.Naming.Routines

/-!
# Words in snake case

The snake case of a name is written from left to right. Each step either writes the small form of a
letter or digit or puts an underscore behind a word, and an underscore is put only where a word has
just ended. So the words are those of the name with single underscores between them, and nothing but
underscores comes in or goes out. At the end an underscore may be put in front of a digit. Names of
ASCII characters that are words in this form already are left as they are.

* `snakeFrom_preserves` — what both steps keep, a whole run keeps.
* `Separated`, `separated_snakeFrom` — words with single underscores between them.
* `filter_snakeFrom` — the characters of the words.
* `IsWords`, `isWords_wordsOf` — what stands before the digit is guarded.
* `snakeCase_of_isWords` — what snake case leaves as it is.
* `snakeCase_spells_words` — the words of a name.
-/

namespace PropertySets.Naming

open Text

/-! ## Small forms -/

/-- The small form of a letter or digit holds no underscore. -/
theorem underscore_notMem_lowerChar {c : Char} (h : isAlphanumeric c = true) :
    '_' ∉ lowerChar c := by
  by_cases hAscii : c.toNat < 128
  · rw [isAlphanumeric_of_ascii hAscii] at h
    have hSmall := isAlphanum_toLower h
    rw [lowerChar_of_ascii hAscii, List.mem_singleton]
    intro hSame
    rw [← hSame] at hSmall
    exact absurd hSmall (by decide)
  · rw [lowerChar, if_neg hAscii]
    split
    · decide
    · -- beyond ASCII the small forms come from a table, whose targets lie behind the underscore
      rw [List.mem_singleton, mapThrough]
      split
      · rename_i r hRun
        have hTable : ∀ r ∈ lowerMap, '_'.toNat < r.2.2.2 := by decide +kernel
        have hTarget := hTable r (List.mem_of_find?_eq_some hRun)
        exact (ofNat_ne (by decide) (by omega)).symm
      · rintro rfl
        exact hAscii (by decide)

/-! ## One step and a whole run -/

section

variable {before : Option Char} {out cs : List Char} {c : Char}

theorem snakeFrom_letter (h : isAlphanumeric c = true) : snakeFrom before out (c :: cs) =
    snakeFrom (some c) ((lowerChar c).reverse ++
      if (startsWord before c cs && separable out) = true then '_' :: out else out) cs := by
  rw [snakeFrom, if_pos h]

theorem snakeFrom_other (h : isAlphanumeric c = false) : snakeFrom before out (c :: cs) =
    snakeFrom (some c) (if separable out = true then '_' :: out else out) cs := by
  rw [snakeFrom, h]
  exact if_neg Bool.false_ne_true

/-- What is kept when a word is ended and when a character is written is kept by a whole run. -/
theorem snakeFrom_preserves {P : List Char → Prop}
    (hEnd : ∀ out, separable out = true → P out → P ('_' :: out))
    (hWrite : ∀ out, ∀ c ∈ cs, isAlphanumeric c = true → P out → P ((lowerChar c).reverse ++ out))
    (h : P out) : P (snakeFrom before out cs) := by
  induction cs generalizing before out with
  | nil => exact h
  | cons c cs ih =>
    have hRest := fun out d (hMem : d ∈ cs) => hWrite out d (List.mem_cons_of_mem c hMem)
    cases hLetter : isAlphanumeric c with
    | true =>
      rw [snakeFrom_letter hLetter]
      -- a letter may end the word before it, and is then written
      refine ih hRest (hWrite _ c List.mem_cons_self hLetter ?_)
      split
      · rename_i hStart
        exact hEnd out (Bool.and_eq_true_iff.1 hStart).2 h
      · exact h
    | false =>
      rw [snakeFrom_other hLetter]
      -- any other character ends the word, and is dropped
      refine ih hRest ?_
      split
      · rename_i hSeparable
        exact hEnd out hSeparable h
      · exact h

end

/-! ## Single underscores -/

/-- No two underscores in a row. -/
def Single (cs : List Char) : Prop := cs.IsChain fun c d => c ≠ '_' ∨ d ≠ '_'

theorem Single.not_infix {cs : List Char} (h : Single cs) : ¬ ['_', '_'] <:+: cs := by
  intro hTwo
  have hChain := List.IsChain.infix h hTwo
  rw [List.isChain_cons_cons] at hChain
  exact hChain.1.elim (· rfl) (· rfl)

/-- What has been written, last character first: single underscores, none of them at the start. -/
structure Separated (out : List Char) : Prop where
  single : Single out
  start : out.getLast? ≠ some '_'

theorem separated_nil : Separated [] := ⟨List.isChain_nil, nofun⟩

theorem Separated.ended {out : List Char} (h : Separated out) (hSeparable : separable out = true) :
    Separated ('_' :: out) := by
  cases out with
  | nil => cases hSeparable
  | cons c out =>
    have hOther : c ≠ '_' := by simpa [separable] using hSeparable
    refine ⟨List.isChain_cons_cons.2 ⟨.inr hOther, h.single⟩, ?_⟩
    rw [List.getLast?_cons_cons]
    exact h.start

theorem Separated.written {out cs : List Char} (h : Separated out) (hPlain : '_' ∉ cs) :
    Separated (cs ++ out) := by
  have hOther : ∀ c ∈ cs, c ≠ '_' := fun c hMem hSame => hPlain (hSame ▸ hMem)
  constructor
  · refine List.isChain_append.2 ⟨?_, h.single, fun c hLast d _ => ?_⟩
    · refine List.Pairwise.isChain (List.pairwise_of_forall_mem_list fun c hMem d _ => ?_)
      exact .inl (hOther c hMem)
    · exact .inl (hOther c (List.mem_of_getLast? hLast))
  · rw [List.getLast?_append]
    cases hEnd : out.getLast? with
    | none => exact fun hLast => hPlain (List.mem_of_getLast? hLast)
    | some c =>
      have hStart := h.start
      rw [hEnd] at hStart
      exact hStart

theorem separated_snakeFrom (before : Option Char) (cs : List Char) :
    Separated (snakeFrom before [] cs) := by
  refine snakeFrom_preserves (fun out hSeparable h => h.ended hSeparable) ?_ separated_nil
  intro out c _ hLetter h
  refine h.written ?_
  rw [List.mem_reverse]
  exact underscore_notMem_lowerChar hLetter

/-! ## The characters of the words -/

/-- The characters that are no underscores. -/
def lettersOf (cs : List Char) : List Char := cs.filter (· ≠ '_')

theorem lettersOf_of_notMem {cs : List Char} (h : '_' ∉ cs) : lettersOf cs = cs := by
  refine List.filter_eq_self.2 fun c hMem => ?_
  exact decide_eq_true fun hSame : c = '_' => h (hSame ▸ hMem)

theorem lettersOf_separated (out : List Char) (start : Bool) :
    lettersOf (if start = true then '_' :: out else out) = lettersOf out := by
  cases start with
  | true => exact List.filter_cons_of_neg (by decide)
  | false => rfl

/-- A run writes the small forms of the letters and digits in their order. -/
theorem filter_snakeFrom (before : Option Char) (out cs : List Char) :
    (lettersOf (snakeFrom before out cs)).reverse =
      (lettersOf out).reverse ++ (cs.filter isAlphanumeric).flatMap lowerChar := by
  -- on the text, for whatever has been written: the underscores that end words do not count
  induction cs generalizing before out with
  | nil => rw [snakeFrom, List.filter_nil, List.flatMap_nil, List.append_nil]
  | cons c cs ih =>
    cases hLetter : isAlphanumeric c with
    | true =>
      have hPlain : '_' ∉ (lowerChar c).reverse := by
        rw [List.mem_reverse]
        exact underscore_notMem_lowerChar hLetter
      rw [snakeFrom_letter hLetter, ih, lettersOf, List.filter_append, ← lettersOf, ← lettersOf,
        lettersOf_of_notMem hPlain, lettersOf_separated, List.reverse_append, List.reverse_reverse,
        List.filter_cons_of_pos hLetter, List.flatMap_cons, List.append_assoc]
    | false =>
      rw [snakeFrom_other hLetter, ih, lettersOf_separated,
        List.filter_cons_of_neg (by rw [hLetter]; exact Bool.false_ne_true)]

/-! ## Words before the digit is guarded -/

/-- Words with single underscores between them and none at the ends. -/
structure IsWords (cs : List Char) : Prop where
  single : Single cs
  start : cs.head? ≠ some '_'
  ending : cs.getLast? ≠ some '_'

/-- The words of a name, first character first. -/
def wordsOf (s : String) : List Char :=
  ((snakeFrom none [] s.toList).dropWhile (· == '_')).reverse

theorem toList_snakeCase (s : String) : (snakeCase s).toList = guardDigit (wordsOf s) :=
  String.toList_ofList

theorem isWords_wordsOf (s : String) : IsWords (wordsOf s) := by
  have hRun := separated_snakeFrom none s.toList
  generalize hOut : snakeFrom none [] s.toList = out at hRun
  have hSuffix := List.dropWhile_suffix (· == '_') (l := out)
  rw [wordsOf, hOut]
  refine ⟨?_, ?_, ?_⟩
  · refine List.isChain_reverse.2 ((hRun.single.suffix hSuffix).imp fun c d => Or.symm)
  · -- the start of the words is the end of what was written, unless nothing is left of that
    rw [List.head?_reverse]
    intro hLast
    obtain ⟨dropped, hAll⟩ := hSuffix
    refine hRun.start ?_
    rw [← hAll, List.getLast?_append, hLast]
    rfl
  · have hKept := List.head?_dropWhile_not (· == '_') out
    rw [List.getLast?_reverse]
    intro hHead
    rw [hHead] at hKept
    exact absurd hKept (by decide)

theorem lettersOf_dropWhile (cs : List Char) :
    lettersOf (cs.dropWhile (· == '_')) = lettersOf cs := by
  induction cs with
  | nil => rfl
  | cons c cs ih =>
    by_cases hUnderscore : c = '_'
    · subst hUnderscore
      exact ih
    · rw [List.dropWhile_cons_of_neg (by simpa using hUnderscore)]

theorem lettersOf_wordsOf (s : String) :
    lettersOf (wordsOf s) = (s.toList.filter isAlphanumeric).flatMap lowerChar := by
  have hRun := filter_snakeFrom none [] s.toList
  rw [wordsOf, lettersOf, List.filter_reverse, ← lettersOf, lettersOf_dropWhile, hRun]
  rfl

/-- A digit at the start gets an underscore before it, and nothing else does. -/
theorem guardDigit_cases (cs : List Char) :
    (guardDigit cs = cs ∧ ∀ c, cs.head? = some c → c.isDigit = false) ∨
    (guardDigit cs = '_' :: cs ∧ ∃ d rest, cs = d :: rest ∧ d.isDigit = true) := by
  cases cs with
  | nil => exact .inl ⟨rfl, nofun⟩
  | cons c rest =>
    cases hDigit : c.isDigit with
    | true =>
      refine .inr ⟨?_, c, rest, rfl, hDigit⟩
      rw [guardDigit, if_pos hDigit]
    | false =>
      refine .inl ⟨?_, fun d hHead => ?_⟩
      · rw [guardDigit, if_neg (by rw [hDigit]; exact Bool.false_ne_true)]
      · obtain rfl : c = d := Option.some.inj hHead
        exact hDigit

namespace IsWords

variable {cs : List Char}

theorem single_guardDigit (h : IsWords cs) : Single (guardDigit cs) := by
  rcases guardDigit_cases cs with ⟨hSame, -⟩ | ⟨hGuarded, d, rest, rfl, hDigit⟩
  · rw [hSame]
    exact h.single
  · rw [hGuarded]
    refine List.isChain_cons_cons.2 ⟨.inr ?_, h.single⟩
    rintro rfl
    exact absurd hDigit (by decide)

theorem getLast?_guardDigit (h : IsWords cs) : (guardDigit cs).getLast? ≠ some '_' := by
  rcases guardDigit_cases cs with ⟨hSame, -⟩ | ⟨hGuarded, d, rest, rfl, -⟩
  · rw [hSame]
    exact h.ending
  · rw [hGuarded, List.getLast?_cons_cons]
    exact h.ending

theorem digit_of_guardDigit (h : IsWords cs) {rest : List Char}
    (hStart : guardDigit cs = '_' :: rest) : rest.head?.any Char.isDigit = true := by
  rcases guardDigit_cases cs with ⟨hSame, -⟩ | ⟨hGuarded, d, rest', rfl, hDigit⟩
  · refine absurd ?_ h.start
    rw [← hSame, hStart]
    rfl
  · obtain ⟨-, rfl⟩ := List.cons.inj (hGuarded.symm.trans hStart)
    exact hDigit

end IsWords

theorem lettersOf_guardDigit (cs : List Char) : lettersOf (guardDigit cs) = lettersOf cs := by
  rcases guardDigit_cases cs with ⟨hSame, -⟩ | ⟨hGuarded, -⟩
  · rw [hSame]
  · rw [hGuarded]
    exact lettersOf_separated cs true

/-! ## Names of ASCII characters -/

/-- A small letter or a digit of ASCII, or an underscore. -/
def IsSmall (c : Char) : Prop := c.isLower = true ∨ c.isDigit = true ∨ c = '_'

instance : DecidablePred IsSmall := fun _ => inferInstanceAs (Decidable (_ ∨ _))

/-- What is known of a small character that is no underscore. -/
theorem of_isSmall {c : Char} (h : IsSmall c) (hOther : c ≠ '_') :
    c.toNat < 128 ∧ c.isAlphanum = true ∧ c.isUpper = false ∧ c.toLower = c := by
  have hAlphanum : c.isAlphanum = true := by
    rw [Char.isAlphanum, Bool.or_eq_true, isAlpha_iff]
    rcases h with hLower | hDigit | hSame
    · exact .inl (.inr hLower)
    · exact .inr hDigit
    · exact absurd hSame hOther
  have hAscii := toNat_lt_of_isAlphanum hAlphanum
  refine ⟨hAscii, hAlphanum, ?_⟩
  exact forall_of_ascii
    (P := fun c => IsSmall c → c ≠ '_' → c.isUpper = false ∧ c.toLower = c) (by decide)
    hAscii h hOther

theorem isSmall_toLower {c : Char} (h : c.isAlphanum = true) : IsSmall c.toLower :=
  forall_of_ascii (P := fun c => c.isAlphanum = true → IsSmall c.toLower) (by decide)
    (toNat_lt_of_isAlphanum h) h

theorem isSmall_wordsOf {s : String} (h : IsAscii s) : ∀ c ∈ wordsOf s, IsSmall c := by
  have hRun : ∀ c ∈ snakeFrom none [] s.toList, IsSmall c := by
    refine snakeFrom_preserves (P := fun out => ∀ c ∈ out, IsSmall c) ?_ ?_ nofun
    · intro out _ hOut
      exact List.forall_mem_cons.2 ⟨.inr (.inr rfl), hOut⟩
    · intro out c hMem hLetter hOut
      have hAscii := h c hMem
      rw [isAlphanumeric_of_ascii hAscii] at hLetter
      rw [lowerChar_of_ascii hAscii]
      exact List.forall_mem_cons.2 ⟨isSmall_toLower hLetter, hOut⟩
  intro c hMem
  exact hRun c ((List.dropWhile_sublist _).subset (List.mem_reverse.1 hMem))

/-- Small characters with single underscores are written as they are, as long as an underscore at
their start comes behind a word. -/
theorem snakeFrom_of_small {cs : List Char} (hSmall : ∀ c ∈ cs, IsSmall c) (hSingle : Single cs)
    {before : Option Char} {out : List Char}
    (hStart : cs.head? = some '_' → separable out = true) :
    snakeFrom before out cs = cs.reverse ++ out := by
  -- a small letter starts no word, so each character is written and nothing is put before it
  induction cs generalizing before out with
  | nil => rfl
  | cons c cs ih =>
    have hRest : Single cs := List.IsChain.tail hSingle
    rw [List.forall_mem_cons] at hSmall
    rw [List.reverse_cons, List.append_assoc, List.singleton_append]
    by_cases hUnderscore : c = '_'
    · subst hUnderscore
      rw [snakeFrom_other (by decide +kernel), if_pos (hStart rfl)]
      refine ih hSmall.2 hRest fun hHead => ?_
      -- no second underscore follows the first
      rw [Single, List.isChain_cons, hHead] at hSingle
      exact absurd (hSingle.1 '_' rfl) (by decide)
    · obtain ⟨hAscii, hAlphanum, hUpper, hLower⟩ := of_isSmall hSmall.1 hUnderscore
      have hLetter : isAlphanumeric c = true := by rw [isAlphanumeric_of_ascii hAscii, hAlphanum]
      have hWord : startsWord before c cs = false := by
        unfold startsWord
        rw [isUppercase_of_ascii hAscii, hUpper, Bool.false_and]
      rw [snakeFrom_letter hLetter, hWord, Bool.false_and, if_neg Bool.false_ne_true,
        lowerChar_of_ascii hAscii, hLower]
      refine ih hSmall.2 hRest fun _ => ?_
      simpa [separable] using hUnderscore

/-- Words of small characters, with a digit at their start guarded, are in snake case already. -/
theorem snakeCase_of_isWords {cs : List Char} (h : IsWords cs) (hSmall : ∀ c ∈ cs, IsSmall c) :
    snakeCase (String.ofList (guardDigit cs)) = String.ofList (guardDigit cs) := by
  have hRun (before : Option Char) : snakeFrom before [] cs = cs.reverse := by
    rw [snakeFrom_of_small hSmall h.single fun hHead => absurd hHead h.start, List.append_nil]
  have hWords : wordsOf (String.ofList (guardDigit cs)) = cs := by
    have hGuarded : snakeFrom none [] (guardDigit cs) = cs.reverse := by
      rcases guardDigit_cases cs with ⟨hSame, -⟩ | ⟨hUnderscore, -⟩
      · rw [hSame, hRun]
      · -- an underscore at the start is not written
        rw [hUnderscore, snakeFrom_other (by decide +kernel)]
        exact hRun _
    have hEnd : cs.reverse.dropWhile (· == '_') = cs.reverse := by
      cases hChars : cs.reverse with
      | nil => rfl
      | cons c rest =>
        refine List.dropWhile_cons_of_neg fun hSame => h.ending ?_
        rw [← List.head?_reverse, hChars, beq_iff_eq.1 hSame]
        rfl
    rw [wordsOf, String.toList_ofList, hGuarded, hEnd, List.reverse_reverse]
  apply String.toList_inj.1
  rw [toList_snakeCase, hWords, String.toList_ofList]

/-! ## The words of a name -/

/-- **The words of a name.** In snake case no two underscores stand next to each other and none
stands at the end; one at the start has a digit behind it. Without the underscores there remain the
small forms of the letters and digits of the name, in their order. If the name is of ASCII
characters, there are only small letters, digits and underscores, and the snake case of the result
is the result itself. -/
theorem snakeCase_spells_words (s : String) :
    ¬ ['_', '_'] <:+: (snakeCase s).toList ∧
    (snakeCase s).toList.getLast? ≠ some '_' ∧
    (∀ rest, (snakeCase s).toList = '_' :: rest → rest.head?.any Char.isDigit = true) ∧
    (snakeCase s).toList.filter (· ≠ '_') = (s.toList.filter isAlphanumeric).flatMap lowerChar ∧
    (IsAscii s → (∀ c ∈ (snakeCase s).toList, c.isLower = true ∨ c.isDigit = true ∨ c = '_') ∧
      snakeCase (snakeCase s) = snakeCase s) := by
  have hWords := isWords_wordsOf s
  rw [toList_snakeCase]
  refine ⟨hWords.single_guardDigit.not_infix, hWords.getLast?_guardDigit,
    fun rest => hWords.digit_of_guardDigit, ?_, fun hAscii => ⟨?_, ?_⟩⟩
  · exact (lettersOf_guardDigit _).trans (lettersOf_wordsOf s)
  · have hSmall := isSmall_wordsOf hAscii
    -- an underscore that guards a digit is a character of the allowed ones
    rcases guardDigit_cases (wordsOf s) with ⟨hSame, -⟩ | ⟨hGuarded, -⟩
    · rw [hSame]
      exact hSmall
    · rw [hGuarded]
      exact List.forall_mem_cons.2 ⟨.inr (.inr rfl), hSmall⟩
  · -- the result consists of words already
    have hText : snakeCase s = String.ofList (guardDigit (wordsOf s)) := rfl
    rw [hText]
    exact snakeCase_of_isWords hWords (isSmall_wordsOf hAscii)

/-- A name with a digit at its start, capitals in a row, separators in a row and one at its end. -/
theorem mixedName_spelled :
    (IsAscii "2ndIFCWall--Type_b7 " ∧ snakeCase "2ndIFCWall--Type_b7 " = "_2nd_ifc_wall_type_b7") ∧
    "2nd_ifc_wall_type_b7".toList.head?.any Char.isDigit = true ∧
    (∀ c ∈ (snakeCase "2ndIFCWall--Type_b7 ").toList,
      c.isLower = true ∨ c.isDigit = true ∨ c = '_') ∧
    snakeCase (snakeCase "2ndIFCWall--Type_b7 ") = snakeCase "2ndIFCWall--Type_b7 " := by
  have hAscii : IsAscii "2ndIFCWall--Type_b7 " := by decide +kernel
  have hSnake : snakeCase "2ndIFCWall--Type_b7 " = "_2nd_ifc_wall_type_b7" := by decide +kernel
  obtain ⟨-, -, hDigit, -, hSmall⟩ := snakeCase_spells_words "2ndIFCWall--Type_b7 "
  exact ⟨⟨hAscii, hSnake⟩, hDigit _ (by rw [hSnake]; decide), hSmall hAscii⟩

end PropertySets.Naming
