import PropertySets.Proofs.Naming.Routines

/-!
# Declarations of literals

The literals of enumerations are words of ASCII letters, digits and underscores, with dots and
dashes in them. What is declared for a literal is an identifier, with the literal as its value if it
is a number, and sanitizing the declaration again changes nothing. There is one exception: digits
are looked for before dots and dashes are dropped, so a digit that only dots and dashes stand in
front of gets no underscore. Then the declaration starts with a digit: it is no identifier, and
sanitizing it again puts the underscore there.

* `IsLiteral`, `IsNumber`, `HidesDigit` — the literals, the numbers and the exceptions among them.
* `sanitizeLiteral_of_number`, `sanitizeLiteral_of_digit`, `sanitizeLiteral_of_other` — what is
  declared for a literal.
* `sanitizeLiteral_of_settled` — what sanitizing leaves as it is.
* `declaration_of_literal` — declarations are identifiers, and stay as they are.
* `dashed_number_undeclared` — a number behind a dash.
-/

namespace PropertySets.Naming

open Text

/-- A character of a literal. -/
def isLiteralChar (c : Char) : Bool := isWordChar c || c == '.' || c == '-'

/-- Words of ASCII with dots and dashes, and at least one letter or digit. -/
def IsLiteral (s : String) : Prop :=
  s.toList.all isLiteralChar = true ∧ s.toList.any Char.isAlphanum = true

instance (s : String) : Decidable (IsLiteral s) := inferInstanceAs (Decidable (_ ∧ _))

/-- Digits only. -/
def IsNumber (s : String) : Prop := s ≠ "" ∧ s.toList.all Char.isDigit = true

instance (s : String) : Decidable (IsNumber s) := inferInstanceAs (Decidable (_ ∧ _))

/-- The characters of a literal that are not dropped. -/
def kept (s : String) : List Char := s.toList.filter fun c => c ≠ '.' && c ≠ '-'

/-- Does a text start with a digit? -/
def startsWithDigit (s : List Char) : Bool := s.head?.any Char.isDigit

/-- Dots and dashes stand in front of the digit that starts what is kept. -/
def HidesDigit (s : String) : Prop :=
  startsWithDigit s.toList = false ∧ startsWithDigit (kept s) = true

instance (s : String) : Decidable (HidesDigit s) := inferInstanceAs (Decidable (_ ∧ _))

/-! ## Digits of literals -/

/-- The only decimal digits of ASCII are the usual ones. -/
theorem isDecimalDigit_of_ascii {c : Char} (h : c.toNat < 128) : isDecimalDigit c = c.isDigit :=
  forall_of_ascii (P := fun c => isDecimalDigit c = c.isDigit) (by decide +kernel) h

theorem toNat_lt_of_isLiteralChar {c : Char} (h : isLiteralChar c = true) : c.toNat < 128 := by
  simp only [isLiteralChar, isWordChar, Bool.or_eq_true, beq_iff_eq] at h
  rcases h with ((h | rfl) | rfl) | rfl
  · exact toNat_lt_of_isAlphanum h
  all_goals decide

section

variable {s : String}

/-- In a literal, digits of other scripts need not be looked for. -/
theorem isDecimalDigit_of_mem (h : IsLiteral s) {c : Char} (hMem : c ∈ s.toList) :
    isDecimalDigit c = c.isDigit :=
  isDecimalDigit_of_ascii (toNat_lt_of_isLiteralChar (List.all_eq_true.1 h.1 c hMem))

theorem head?_any_isDecimalDigit (h : IsLiteral s) :
    s.toList.head?.any isDecimalDigit = startsWithDigit s.toList := by
  rw [startsWithDigit]
  cases hHead : s.toList.head? with
  | none => rfl
  | some c => exact isDecimalDigit_of_mem h (List.mem_of_mem_head? hHead)

theorem all_isDecimalDigit_iff (h : IsLiteral s) :
    (!s.toList.isEmpty && s.toList.all isDecimalDigit) = true ↔ IsNumber s := by
  have hAll : s.toList.all isDecimalDigit = s.toList.all Char.isDigit := by
    rw [Bool.eq_iff_iff, List.all_eq_true, List.all_eq_true]
    exact forall₂_congr fun c hMem => by rw [isDecimalDigit_of_mem h hMem]
  simp [IsNumber, hAll]

theorem startsWithDigit_of_isNumber (h : IsNumber s) : startsWithDigit s.toList = true := by
  obtain ⟨hSome, hAll⟩ := h
  rw [startsWithDigit]
  cases hChars : s.toList with
  | nil => exact absurd (by simpa using hChars) hSome
  | cons c rest =>
    rw [hChars, List.all_cons, Bool.and_eq_true] at hAll
    exact hAll.1

/-! ## What is kept -/

theorem mem_kept_iff {c : Char} : c ∈ kept s ↔ c ∈ s.toList ∧ c ≠ '.' ∧ c ≠ '-' := by
  simp [kept]

/-- Letters and digits are kept. -/
theorem kept_ne_nil (h : IsLiteral s) : kept s ≠ [] := by
  obtain ⟨c, hMem, hAlphanum⟩ := List.any_eq_true.1 h.2
  refine List.ne_nil_of_mem (a := c) (mem_kept_iff.2 ⟨hMem, ?_, ?_⟩)
  all_goals
    rintro rfl
    exact absurd hAlphanum (by decide)

/-- Only word characters are kept. -/
theorem all_isWordChar_kept (h : IsLiteral s) : (kept s).all isWordChar = true := by
  refine List.all_eq_true.2 fun c hMem => ?_
  obtain ⟨hMem, hDot, hDash⟩ := mem_kept_iff.1 hMem
  have hChar := List.all_eq_true.1 h.1 c hMem
  simpa [isLiteralChar, hDot, hDash] using hChar

/-- Nothing is dropped from a number. -/
theorem kept_of_isNumber (h : IsNumber s) : kept s = s.toList := by
  refine List.filter_eq_self.2 fun c hMem => ?_
  have hDigit := List.all_eq_true.1 h.2 c hMem
  have hDot : c ≠ '.' := by rintro rfl; exact absurd hDigit (by decide)
  have hDash : c ≠ '-' := by rintro rfl; exact absurd hDigit (by decide)
  simp [hDot, hDash]

theorem kept_ofList_kept : kept (String.ofList (kept s)) = kept s := by
  rw [kept, String.toList_ofList, kept, List.filter_filter]
  simp

/-! ## What is declared -/

/-- A number is declared with an underscore before it, and with itself as its value. -/
theorem sanitizeLiteral_of_number (hLiteral : IsLiteral s) (h : IsNumber s) :
    sanitizeLiteral s = String.ofList ('_' :: kept s) ++ " = " ++ s := by
  have hValue := (all_isDecimalDigit_iff hLiteral).2 h
  have hStart := (head?_any_isDecimalDigit hLiteral).trans (startsWithDigit_of_isNumber h)
  -- neither the digits nor the sign between them have anything to drop
  have hSign : " = ".toList.filter (fun c => c ≠ '.' && c ≠ '-') = " = ".toList := by decide
  have hDigits : s.toList.filter (fun c => c ≠ '.' && c ≠ '-') = s.toList := kept_of_isNumber h
  apply String.toList_inj.1
  rw [sanitizeLiteral, if_pos hValue, if_pos hStart, String.toList_ofList, List.filter_append,
    List.filter_cons_of_pos (by decide), List.filter_append, hSign, hDigits, kept_of_isNumber h]
  simp

/-- A literal that starts with a digit is declared with an underscore before it. -/
theorem sanitizeLiteral_of_digit (hLiteral : IsLiteral s) (hNumber : ¬ IsNumber s)
    (h : startsWithDigit s.toList = true) :
    sanitizeLiteral s = String.ofList ('_' :: kept s) := by
  have hValue := mt (all_isDecimalDigit_iff hLiteral).1 hNumber
  rw [sanitizeLiteral, if_neg hValue, if_pos ((head?_any_isDecimalDigit hLiteral).trans h),
    List.append_nil, List.filter_cons_of_pos (by decide)]
  rfl

/-- Any other literal is declared as what is kept of it. -/
theorem sanitizeLiteral_of_other (h : s.toList.head?.any isDecimalDigit = false) :
    sanitizeLiteral s = String.ofList (kept s) := by
  rw [sanitizeLiteral, if_neg (by rw [h]; exact Bool.false_ne_true)]
  rfl

/-- What starts with no digit, and has nothing to drop, stays as it is. -/
theorem sanitizeLiteral_of_settled (hStart : s.toList.head?.any isDecimalDigit = false)
    (hKept : kept s = s.toList) : sanitizeLiteral s = s := by
  rw [sanitizeLiteral_of_other hStart, hKept, String.ofList_toList]

/-! ## Identifiers that stay -/

theorem isIdentifier_underscore (h : IsLiteral s) :
    isIdentifier (String.ofList ('_' :: kept s)) = true := by
  rw [isIdentifier, String.toList_ofList, isIdentifierChars, all_isWordChar_kept h]
  rfl

/-- What is kept is an identifier, unless a digit starts it. -/
theorem isIdentifier_kept_iff (h : IsLiteral s) :
    isIdentifier (String.ofList (kept s)) = true ↔ startsWithDigit (kept s) = false := by
  -- everything that is kept may stand in a word, so only the start is in question
  have hWord := all_isWordChar_kept h
  rw [isIdentifier, String.toList_ofList, startsWithDigit]
  cases hKept : kept s with
  | nil => exact absurd hKept (kept_ne_nil h)
  | cons c rest =>
    rw [hKept, List.all_cons, Bool.and_eq_true] at hWord
    rw [isIdentifierChars, hWord.2, Bool.and_true]
    show (c.isAlpha || c == '_') = true ↔ c.isDigit = false
    constructor
    · intro hStart
      rcases Bool.or_eq_true_iff.1 hStart with hAlpha | hUnderscore
      · exact isDigit_eq_false_of_isAlpha hAlpha
      · rw [beq_iff_eq.1 hUnderscore]
        rfl
    · intro hDigit
      have hChar : ((c.isAlpha || c.isDigit) || c == '_') = true := hWord.1
      rwa [hDigit, Bool.or_false] at hChar

/-- A text that starts with an underscore stays if nothing in it is dropped. -/
theorem sanitizeLiteral_underscore {rest : List Char}
    (h : ∀ c ∈ rest, c ≠ '.' ∧ c ≠ '-') :
    sanitizeLiteral (String.ofList ('_' :: rest)) = String.ofList ('_' :: rest) := by
  refine sanitizeLiteral_of_settled ?_ ?_
  · rw [String.toList_ofList]
    rfl
  · rw [kept, String.toList_ofList, List.filter_cons_of_pos (by decide)]
    exact congrArg ('_' :: ·) (List.filter_eq_self.2 fun c hMem => by simpa using h c hMem)

theorem not_isNumber_of_other (h : startsWithDigit s.toList = false) : ¬ IsNumber s := by
  intro hNumber
  rw [startsWithDigit_of_isNumber hNumber] at h
  cases h

theorem ne_of_mem_sign {c : Char} (h : c ∈ " = ".toList) : c ≠ '.' ∧ c ≠ '-' := by
  have hAll : " = ".toList.all (fun c => c ≠ '.' && c ≠ '-') = true := by decide
  simpa using List.all_eq_true.1 hAll c h

/-- The declaration of a literal that starts with a digit starts with an underscore, and has nothing
to drop. -/
theorem exists_declared_of_digit (h : IsLiteral s) (hStart : startsWithDigit s.toList = true) :
    ∃ rest, (∀ c ∈ rest, c ≠ '.' ∧ c ≠ '-') ∧
      sanitizeLiteral s = String.ofList ('_' :: rest) := by
  have hPlain : ∀ c ∈ kept s, c ≠ '.' ∧ c ≠ '-' := fun c hMem => (mem_kept_iff.1 hMem).2
  by_cases hNumber : IsNumber s
  · refine ⟨kept s ++ (" = ".toList ++ s.toList), fun c hMem => ?_, ?_⟩
    · rw [← kept_of_isNumber hNumber, List.mem_append, List.mem_append] at hMem
      rcases hMem with hMem | hMem | hMem
      · exact hPlain c hMem
      · exact ne_of_mem_sign hMem
      · exact hPlain c hMem
    · rw [sanitizeLiteral_of_number h hNumber]
      apply String.toList_inj.1
      simp
  · exact ⟨kept s, hPlain, sanitizeLiteral_of_digit h hNumber hStart⟩

/-- What is kept is sanitized to itself, unless a digit starts it. -/
theorem sanitizeLiteral_kept_iff (h : IsLiteral s) :
    sanitizeLiteral (String.ofList (kept s)) = String.ofList (kept s) ↔
      startsWithDigit (kept s) = false := by
  have hLiteral : startsWithDigit (kept s) = true → IsLiteral (String.ofList (kept s)) := by
    intro hStart
    rw [IsLiteral, String.toList_ofList]
    refine ⟨List.all_eq_true.2 fun c hMem => ?_, ?_⟩
    · exact List.all_eq_true.1 h.1 c (mem_kept_iff.1 hMem).1
    · obtain ⟨c, hHead, hDigit⟩ := Option.any_eq_true _ _ |>.1 hStart
      refine List.any_eq_true.2 ⟨c, List.mem_of_mem_head? hHead, ?_⟩
      rw [Char.isAlphanum, hDigit, Bool.or_true]
  constructor
  · -- a digit at the start would be seen now, and get the underscore
    intro hSame
    by_contra hStart
    rw [Bool.not_eq_false] at hStart
    obtain ⟨rest, -, hText⟩ := exists_declared_of_digit (hLiteral hStart)
      (by rwa [String.toList_ofList])
    have hKept : kept s = '_' :: rest := String.ofList_inj.1 (hSame.symm.trans hText)
    rw [hKept] at hStart
    exact absurd hStart (by simp [startsWithDigit])
  · intro hStart
    refine sanitizeLiteral_of_settled ?_ ?_
    · rw [String.toList_ofList]
      cases hKept : kept s with
      | nil => rfl
      | cons c rest =>
        have hMem : c ∈ s.toList := (mem_kept_iff.1 (hKept ▸ List.mem_cons_self)).1
        rw [hKept] at hStart
        exact (isDecimalDigit_of_mem h hMem).trans hStart
    · rw [kept_ofList_kept, String.toList_ofList]

/-- A literal that starts with a digit is declared as an identifier, with its value if it is a
number. -/
theorem exists_identifier_of_digit (h : IsLiteral s) (hStart : startsWithDigit s.toList = true) :
    ∃ name, isIdentifier name = true ∧
      sanitizeLiteral s = name ++ if IsNumber s then " = " ++ s else "" := by
  refine ⟨_, isIdentifier_underscore h, ?_⟩
  by_cases hNumber : IsNumber s
  · rw [sanitizeLiteral_of_number h hNumber, if_pos hNumber, String.append_assoc]
  · rw [sanitizeLiteral_of_digit h hNumber hStart, if_neg hNumber, String.append_empty]

end

/-- **Declarations.** What is declared for a literal is an identifier, with the literal as its value
exactly if that is a number, unless the literal hides a digit; and with the same exception
sanitizing the declaration again leaves it as it is. -/
theorem declaration_of_literal {literal : String} (h : IsLiteral literal) :
    ((∃ name, isIdentifier name = true ∧ sanitizeLiteral literal =
        name ++ if IsNumber literal then " = " ++ literal else "") ↔ ¬ HidesDigit literal) ∧
    (sanitizeLiteral (sanitizeLiteral literal) = sanitizeLiteral literal ↔
      ¬ HidesDigit literal) := by
  by_cases hStart : startsWithDigit literal.toList = true
  · -- a digit that is seen gets an underscore, whatever is dropped
    have hSeen : ¬ HidesDigit literal := fun hHidden => by
      rw [hHidden.1] at hStart
      cases hStart
    obtain ⟨rest, hPlain, hText⟩ := exists_declared_of_digit h hStart
    refine ⟨iff_of_true (exists_identifier_of_digit h hStart) hSeen, iff_of_true ?_ hSeen⟩
    rw [hText]
    exact sanitizeLiteral_underscore hPlain
  · have hStart : startsWithDigit literal.toList = false := Bool.eq_false_iff.2 hStart
    have hText : sanitizeLiteral literal = String.ofList (kept literal) :=
      sanitizeLiteral_of_other ((head?_any_isDecimalDigit h).trans hStart)
    have hSeen : ¬ HidesDigit literal ↔ startsWithDigit (kept literal) = false := by
      simp [HidesDigit, hStart]
    have hName : (∃ name, isIdentifier name = true ∧ String.ofList (kept literal) =
        name ++ if IsNumber literal then " = " ++ literal else "") ↔
        isIdentifier (String.ofList (kept literal)) = true := by
      simp [not_isNumber_of_other hStart]
    rw [hText, hSeen, hName]
    exact ⟨isIdentifier_kept_iff h, sanitizeLiteral_kept_iff h⟩

/-- A literal with dots and dashes, in front of digits too, and with one at its start. -/
theorem mixedLiteral_declared :
    (IsLiteral "2.5-K_.3" ∧ ¬ HidesDigit "2.5-K_.3" ∧ sanitizeLiteral "2.5-K_.3" = "_25K_3") ∧
    (∃ name, isIdentifier name = true ∧ sanitizeLiteral "2.5-K_.3" =
      name ++ if IsNumber "2.5-K_.3" then " = " ++ "2.5-K_.3" else "") ∧
    sanitizeLiteral (sanitizeLiteral "2.5-K_.3") = sanitizeLiteral "2.5-K_.3" := by
  have hLiteral : IsLiteral "2.5-K_.3" := by decide +kernel
  have hSeen : ¬ HidesDigit "2.5-K_.3" := by decide +kernel
  obtain ⟨hName, hStays⟩ := declaration_of_literal hLiteral
  exact ⟨⟨hLiteral, hSeen, by decide +kernel⟩, hName.2 hSeen, hStays.2 hSeen⟩

/-- A number behind a dash is a literal. It is declared as a digit, which is no identifier, and
sanitizing that again makes it a number with a value. -/
theorem dashed_number_undeclared :
    IsLiteral "-7" ∧ sanitizeLiteral "-7" = "7" ∧
    (¬ ∃ name, isIdentifier name = true ∧ sanitizeLiteral "-7" =
      name ++ if IsNumber "-7" then " = " ++ "-7" else "") ∧
    sanitizeLiteral (sanitizeLiteral "-7") = "_7 = 7" := by
  have hDeclared : sanitizeLiteral "-7" = "7" := by decide +kernel
  refine ⟨by decide +kernel, hDeclared, ?_, by decide +kernel⟩
  rintro ⟨name, hName, hSame⟩
  rw [hDeclared, if_neg (by decide +kernel), String.append_empty] at hSame
  rw [← hSame] at hName
  exact absurd hName (by decide +kernel)

end PropertySets.Naming
