import PropertySets.Proofs.Code.Scanner

/-!
# String literals

What a string literal denotes by the rules of the language: it runs from a double quote to the next
one that no backslash protects, may go over several lines, and has escapes for single characters,
for bytes, for code points and for the end of a line. A text that is quoted uses few of these, but
whatever the text, its literal stands on one line, and the rules give the text back.

* `Place.step`, `readLiteral?` — the rules.
* `IsSpelling`, `isSpelling_escape` — what is written for a character.
* `foldlM_hexDigits` — the digits of a code point, for whatever follows them.
* `isOnOneLine_quote`, `readLiteral?_quote` — quoted texts.
-/

namespace PropertySets.Code

open Text Text.Quoted

/-! ## The rules -/

/-- A place in a literal, with the text that was read, last character first. -/
inductive Place where
  | inside (read : List Char)
  /-- Behind a backslash. -/
  | escaped (read : List Char)
  /-- Before the first digit of a byte. -/
  | inByte (read : List Char)
  /-- Before the second digit of a byte. -/
  | lowDigit (read : List Char) (high : Nat)
  /-- Behind the start of a code point, before its brace. -/
  | beforeCode (read : List Char)
  /-- In a code point of which `count` digits were read; they denote `value`. -/
  | inCode (read : List Char) (count value : Nat)
  /-- Behind the end of a line that a backslash takes out of the text. -/
  | continued (read : List Char)
  | closed (read : List Char)
  deriving DecidableEq, Repr

/-- The place behind a character that no backslash stands in front of. -/
def readPlain? (read : List Char) (c : Char) : Option Place :=
  if c = '"' then some (.closed read)
  else if c = '\\' then some (.escaped read)
  else if c = '\r' then none
  else some (.inside (c :: read))

/-- Read a character of a literal. -/
def Place.step : Place → Char → Option Place
  | inside read, c => readPlain? read c
  | escaped read, c =>
    if c = 'x' then some (.inByte read)
    else if c = 'u' then some (.beforeCode read)
    else if c = '\n' then some (.continued read)
    else (shortEscape? c).map fun denoted => .inside (denoted :: read)
  | inByte read, c =>
    (hexValue? c).bind fun high => if high < 8 then some (.lowDigit read high) else none
  | lowDigit read high, c =>
    (hexValue? c).map fun low => .inside (Char.ofNat (high * 16 + low) :: read)
  | beforeCode read, c => if c = '\x7b' then some (.inCode read 0 0) else none
  | inCode read count value, c =>
    if c = '\x7d' then
      if 0 < count ∧ value.isValidChar then some (.inside (Char.ofNat value :: read)) else none
    else if c = '_' then if 0 < count then some (.inCode read count value) else none
    else if count < 6 then
      (hexValue? c).map fun digit => .inCode read (count + 1) (value * 16 + digit)
    else none
  -- a line that ends in a backslash is joined with the first character of the next that is no space
  | continued read, c =>
    if c = ' ' ∨ c = '\t' ∨ c = '\n' then some (.continued read) else readPlain? read c
  | closed _, _ => none

/-- Read a literal from a place in it up to its end: the text that it denotes, and what follows. -/
def readFrom : Place → List Char → Option (String × String)
  | .closed read, rest => some (String.ofList read.reverse, String.ofList rest)
  | _, [] => none
  | p, c :: rest => (p.step c).bind fun p' => readFrom p' rest

/-- Read the literal in front of a text: what it denotes, and what follows its closing quote. -/
def readLiteral? (s : String) : Option (String × String) :=
  match s.toList with
  | '"' :: rest => readFrom (.inside []) rest
  | _ => none

/-- What follows is read from the place where the characters in front of it lead. -/
theorem readFrom_append {p p' : Place} {cs : List Char} (h : cs.foldlM Place.step p = some p')
    (rest : List Char) : readFrom p (cs ++ rest) = readFrom p' rest := by
  induction cs generalizing p with
  | nil =>
    cases Option.some.inj h
    rfl
  | cons c cs ih =>
    rw [List.foldlM_cons] at h
    obtain ⟨next, hStep, hRest⟩ := Option.bind_eq_some_iff.1 h
    -- nothing is read behind the end
    have hOpen : ∀ read, p ≠ .closed read := by
      rintro read rfl
      cases hStep
    rw [List.cons_append, readFrom, hStep]
    · exact ih hRest
    · exact hOpen

/-! ## Digits -/

theorem hexValue?_digitChar {d : Nat} (h : d < 16) : hexValue? d.digitChar = some d := by
  have : ∀ d : Fin 16, hexValue? d.val.digitChar = some d.val := by decide
  exact this ⟨d, h⟩

/-- The digit is no other character than one that has a value. -/
theorem digitChar_ne {d : Nat} (h : d < 16) {c : Char} (hOther : hexValue? c = none) :
    d.digitChar ≠ c := by
  intro hSame
  rw [← hSame, hexValue?_digitChar h] at hOther
  cases hOther

/-- Digits are read one by one, each one raising the count and being put behind the value so far. -/
theorem foldlM_hexDigits {σ : Type} {step : σ → Char → Option σ} (state : Nat → Nat → σ)
    {limit : Nat} (hStep : ∀ {count value d : Nat}, d < 16 → count < limit →
      step (state count value) d.digitChar = some (state (count + 1) (value * 16 + d)))
    (n : Nat) (hLimit : (Nat.toDigits 16 n).length ≤ limit) :
    (Nat.toDigits 16 n).foldlM step (state 0 0) =
      some (state (Nat.toDigits 16 n).length n) := by
  -- the digits but the last one are those of `n / 16`
  induction n using Nat.strongRecOn with
  | ind n ih =>
    by_cases hSmall : n < 16
    · rw [Nat.toDigits_of_lt_base hSmall] at hLimit ⊢
      have hRoom : 0 < limit := hLimit
      rw [List.foldlM_cons, hStep hSmall hRoom]
      simp
    · rw [Nat.toDigits_of_base_le (by omega) (by omega)] at hLimit ⊢
      rw [List.length_append, List.length_singleton] at hLimit ⊢
      rw [List.foldlM_append, ih (n / 16) (by omega) (by omega)]
      show [(n % 16).digitChar].foldlM step (state _ (n / 16)) = _
      rw [List.foldlM_cons, hStep (Nat.mod_lt n (by omega)) (by omega), Nat.div_add_mod' n 16]
      rfl

/-- Digits can be shown as they are. -/
theorem isVisible_of_mem_toDigits {n : Nat} {c : Char} (h : c ∈ Nat.toDigits 16 n) :
    isVisible c = true := by
  have hDigit : ∀ d : Fin 16, isVisible d.val.digitChar = true := by decide +kernel
  induction n using Nat.strongRecOn with
  | ind n ih =>
    by_cases hSmall : n < 16
    · rw [Nat.toDigits_of_lt_base hSmall, List.mem_singleton] at h
      exact h ▸ hDigit ⟨n, hSmall⟩
    · rw [Nat.toDigits_of_base_le (by omega) (by omega), List.mem_append,
        List.mem_singleton] at h
      rcases h with hMem | rfl
      · exact ih (n / 16) (by omega) hMem
      · exact hDigit ⟨n % 16, Nat.mod_lt n (by omega)⟩

/-- The code point of a character has at most six digits. -/
theorem length_toDigits_toNat_le (c : Char) : (Nat.toDigits 16 c.toNat).length ≤ 6 := by
  have hBound : c.toNat < 0x110000 := by
    have := c.valid
    unfold UInt32.isValidChar Nat.isValidChar at this
    show c.val.toNat < 0x110000
    omega
  rw [Nat.length_toDigits_le_iff (by omega) (by omega)]
  omega

/-! ## Quoted texts -/

/-- What is written in a literal for a character. -/
inductive IsSpelling (c : Char) : List Char → Prop
  | short (e : Char) (h : shortEscape? e = some c) (hShown : isVisible e = true) :
    IsSpelling c ['\\', e]
  | shown (hShown : isVisible c = true) (hQuote : c ≠ '"') (hBackslash : c ≠ '\\') :
      IsSpelling c [c]
  | code : IsSpelling c (['\\', 'u', '\x7b'] ++ Nat.toDigits 16 c.toNat ++ ['\x7d'])

theorem isSpelling_escape (c : Char) : IsSpelling c (escape c) := by
  -- in the order of the quoting function
  unfold escape
  split
  · subst c; exact .short '0' rfl (by decide +kernel)
  split
  · subst c; exact .short 't' rfl (by decide +kernel)
  split
  · subst c; exact .short 'r' rfl (by decide +kernel)
  split
  · subst c; exact .short 'n' rfl (by decide +kernel)
  split
  · subst c; exact .short '"' rfl (by decide +kernel)
  split
  · subst c; exact .short '\\' rfl (by decide +kernel)
  split
  · exact .shown ‹_› ‹_› ‹_›
  · exact .code

/-- Whatever is written for a character can be shown. -/
theorem IsSpelling.isVisible {c d : Char} {cs : List Char} (h : IsSpelling c cs) (hMem : d ∈ cs) :
    isVisible d = true := by
  -- the signs of an escape can all be shown
  have hAll : ['\\', 'u', '\x7b', '\x7d'].all Text.isVisible = true := by decide +kernel
  have hFixed := List.all_eq_true.1 hAll
  cases h with
  | short e _ hShown =>
    rcases List.mem_cons.1 hMem with rfl | hShort
    · exact hFixed _ List.mem_cons_self
    · exact List.mem_singleton.1 hShort ▸ hShown
  | shown hShown =>
    rw [List.mem_singleton.1 hMem]
    exact hShown
  | code =>
    rw [List.mem_append, List.mem_append] at hMem
    rcases hMem with (hOpen | hDigit) | hClose
    · exact hFixed d (List.mem_append_left ['\x7d'] hOpen)
    · exact isVisible_of_mem_toDigits hDigit
    · exact hFixed d (List.mem_append_right ['\\', 'u', '\x7b'] hClose)

/-- The characters that end a line. -/
def lineBreaks : List Char :=
  ['\n', '\x0b', '\x0c', '\r', '\u0085', '\u2028', '\u2029']

/-- A text on one line. -/
def IsOnOneLine (s : String) : Prop := ∀ c ∈ s.toList, c ∉ lineBreaks

/-- A quoted text is on one line. -/
theorem isOnOneLine_quote (s : String) : IsOnOneLine (quote s) := by
  have hHidden : lineBreaks.all (fun c => !isVisible c) = true := by decide +kernel
  have hQuote : isVisible '"' = true := by decide +kernel
  intro c hMem hBreak
  -- whatever is written in a literal can be shown, and the end of a line cannot
  have hShown : isVisible c = true := by
    rw [quote, String.toList_ofList, encode, List.mem_cons, List.mem_append,
      List.mem_singleton, List.mem_flatMap] at hMem
    rcases hMem with rfl | ⟨d, -, hMem⟩ | rfl
    · exact hQuote
    · exact (isSpelling_escape d).isVisible hMem
    · exact hQuote
  have hNot := List.all_eq_true.1 hHidden c hBreak
  rw [hShown] at hNot
  cases hNot

/-- What is written for a character denotes it. -/
theorem IsSpelling.foldlM_step {c : Char} {cs : List Char} (h : IsSpelling c cs)
    (read : List Char) :
    cs.foldlM Place.step (.inside read) = some (.inside (c :: read)) := by
  cases h with
  | short e hDenotes =>
    -- the escapes that are not for a single character are none of these
    have hByte : e ≠ 'x' := by rintro rfl; cases hDenotes
    have hCode : e ≠ 'u' := by rintro rfl; cases hDenotes
    have hLine : e ≠ '\n' := by rintro rfl; cases hDenotes
    simp [Place.step, readPlain?, hByte, hCode, hLine, hDenotes]
  | shown hShown hQuote hBackslash =>
    have hReturn : c ≠ '\r' := by
      rintro rfl
      exact absurd hShown (by decide +kernel)
    simp [Place.step, readPlain?, hQuote, hBackslash, hReturn]
  | code =>
    rw [List.foldlM_append, List.foldlM_append]
    have hOpen : ['\\', 'u', '\x7b'].foldlM Place.step (.inside read) =
        some (.inCode read 0 0) := rfl
    have hDigit : ∀ {count value d : Nat}, d < 16 → count < 6 →
        Place.step (.inCode read count value) d.digitChar =
          some (.inCode read (count + 1) (value * 16 + d)) := by
      intro count value d hSmall hCount
      simp [Place.step, digitChar_ne hSmall (c := '\x7d') (by decide),
        digitChar_ne hSmall (c := '_') (by decide), hCount, hexValue?_digitChar hSmall]
    have hDigits := foldlM_hexDigits (Place.inCode read) hDigit c.toNat
      (length_toDigits_toNat_le c)
    have hSome : 0 < (Nat.toDigits 16 c.toNat).length := Nat.length_toDigits_pos
    have hValid : c.toNat.isValidChar := c.valid
    rw [hOpen]
    refine (congrArg (· >>= _) hDigits).trans ?_
    simp [Place.step, hSome, hValid]

/-- **Quoted texts.** By the rules, the literal of a text ends with its own closing quote, whatever
follows, and denotes the text. -/
theorem readLiteral?_quote (s rest : String) : readLiteral? (quote s ++ rest) = some (s, rest) := by
  -- inside the quotes each character is read back from what is written for it
  have hInside : ∀ cs read : List Char,
      (cs.flatMap escape).foldlM Place.step (.inside read) =
        some (.inside (cs.reverse ++ read)) := by
    intro cs
    induction cs with
    | nil => intro read; rfl
    | cons c cs ih =>
      intro read
      rw [List.flatMap_cons, List.foldlM_append, (isSpelling_escape c).foldlM_step,
        List.reverse_cons, List.append_assoc]
      exact ih (c :: read)
  have hText : (quote s ++ rest).toList =
      '"' :: (s.toList.flatMap escape ++ ('"' :: rest.toList)) := by
    rw [String.toList_append, quote, String.toList_ofList, encode, List.cons_append,
      List.append_assoc]
    rfl
  rw [readLiteral?, hText]
  show readFrom (.inside []) _ = _
  rw [readFrom_append (hInside s.toList [])]
  simp [readFrom, Place.step, readPlain?]

end PropertySets.Code
