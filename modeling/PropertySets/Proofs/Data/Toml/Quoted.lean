import PropertySets.Data.Toml.Printer
import PropertySets.Data.Toml.Quoted

/-!
# Reading written TOML texts

Whichever form a text is written in, it is read as the text again. The reader first cuts the inside
of a string from what stands behind it, and then decodes the inside. A written inside can be cut
because it holds the mark only where the reader takes it for a part of the inside: protected by a
backslash, or fewer than three of them in a row between tripled marks.

* `Cut`, `cutLine_of_cut`, `cutLines_of_cut` — insides that are cut from what stands behind them.
* `cut_escapeFrom`, `decode_escapeFrom` — the inside that is written with escapes.
* `readString_writeText` — a written text is read as the text.
-/

namespace PropertySets.Data.Toml

/-! ## Cutting -/

/-- The inside of a string between marks. With `escapes` a backslash protects the character behind
it; with `marks` up to two marks in a row stand for themselves. -/
inductive Cut (escapes marks : Bool) (mark : Char) : List Char → Prop
  | nil : Cut escapes marks mark []
  | plain {c : Char} {rest : List Char} (hMark : c ≠ mark)
      (hEscape : ¬ (escapes = true ∧ c = '\\')) (hRest : Cut escapes marks mark rest) :
      Cut escapes marks mark (c :: rest)
  | escaped {d : Char} {rest : List Char} (hEscapes : escapes = true)
      (hRest : Cut escapes marks mark rest) : Cut escapes marks mark ('\\' :: d :: rest)
  | mark {rest : List Char} (hMarks : marks = true) (hFew : ¬ [mark, mark] <+: rest)
      (hRest : Cut escapes marks mark rest) : Cut escapes marks mark (mark :: rest)

section

variable {escapes marks : Bool} {mark c d : Char} {inside rest : List Char}

theorem cutLine_plain (hMark : c ≠ mark) (hEscape : ¬ (escapes = true ∧ c = '\\')) :
    cutLine escapes mark (c :: rest) =
      (cutLine escapes mark rest).map fun (inside, tail) => (c :: inside, tail) := by
  rw [cutLine.eq_def]
  exact (if_neg hMark).trans (if_neg (by simpa using hEscape))

theorem cutLine_escaped (hMark : mark ≠ '\\') :
    cutLine true mark ('\\' :: d :: rest) =
      (cutLine true mark rest).map fun (inside, tail) => ('\\' :: d :: inside, tail) := by
  rw [cutLine.eq_def]
  exact (if_neg (Ne.symm hMark)).trans (if_pos rfl)

/-- An inside without a bare mark is cut from the mark behind it. -/
theorem cutLine_of_cut (hMark : mark ≠ '\\') (h : Cut escapes false mark inside)
    (rest : List Char) : cutLine escapes mark (inside ++ mark :: rest) = some (inside, rest) := by
  induction h with
  | nil =>
    rw [List.nil_append, cutLine.eq_def]
    exact if_pos rfl
  | plain hOther hEscape _ ih =>
    rw [List.cons_append, cutLine_plain hOther hEscape, ih]
    rfl
  | escaped hEscapes _ ih =>
    subst hEscapes
    rw [List.cons_append, List.cons_append, cutLine_escaped hMark, ih]
    rfl
  | mark hMarks => cases hMarks

theorem cutLines_plain (hFew : ¬ [c, c] <+: rest ∨ c ≠ mark)
    (hEscape : ¬ (escapes = true ∧ c = '\\')) :
    cutLines escapes mark (c :: rest) =
      (cutLines escapes mark rest).map fun (inside, tail) => (c :: inside, tail) := by
  rw [cutLines.eq_def]
  refine (if_neg ?_).trans (if_neg (by simpa using hEscape))
  simp only [Bool.and_eq_true, List.isPrefixOf_iff_prefix, decide_eq_true_eq,
    List.cons_prefix_cons, true_and]
  rintro ⟨hMany, hSame⟩
  exact hFew.elim (fun hNot => hNot hMany) fun hOther => hOther hSame

theorem cutLines_escaped (hMark : mark ≠ '\\') :
    cutLines true mark ('\\' :: d :: rest) =
      (cutLines true mark rest).map fun (inside, tail) => ('\\' :: d :: inside, tail) := by
  rw [cutLines.eq_def]
  exact (if_neg (by simp [Ne.symm hMark])).trans (if_pos rfl)

/-- Three marks close, and up to two more in a row belong to the inside. -/
theorem cutLines_close :
    cutLines escapes mark (mark :: mark :: mark :: rest) =
      some ((rest.takeWhile (· = mark)).take 2,
        rest.drop ((rest.takeWhile (· = mark)).take 2).length) := by
  rw [cutLines.eq_def]
  refine (if_pos (by simp)).trans ?_
  simp only [List.drop_succ_cons, List.drop_zero]
  rw [Nat.add_comm, List.drop_succ_cons, List.drop_succ_cons]

/-- An inside with at most two marks in a row is cut from the three marks behind it. -/
theorem cutLines_of_cut (hMark : mark ≠ '\\') (h : Cut escapes marks mark inside)
    (hNext : d ≠ mark) (rest : List Char) :
    cutLines escapes mark (inside ++ mark :: mark :: mark :: d :: rest) =
      some (inside, d :: rest) := by
  induction h with
  | nil =>
    rw [List.nil_append, cutLines_close]
    simp [hNext]
  | plain hOther hEscape _ ih =>
    rw [List.cons_append, cutLines_plain (.inr hOther) hEscape, ih]
    rfl
  | escaped hEscapes _ ih =>
    subst hEscapes
    rw [List.cons_append, List.cons_append, cutLines_escaped hMark, ih]
    rfl
  | @mark inside hMarks hFew hRest ih =>
    -- marks at the end of the inside are counted together with the closing ones
    rcases inside with _ | ⟨a, _ | ⟨b, inside⟩⟩
    · rw [List.cons_append, List.nil_append, cutLines_close]
      simp [hNext]
    · by_cases hSame : a = mark
      · subst hSame
        rw [List.cons_append, List.cons_append, List.nil_append, cutLines_close]
        simp [hNext]
      · rw [List.cons_append, cutLines_plain (.inl (by simp [Ne.symm hSame])) (by simp [hMark]), ih]
        rfl
    · have hNot : ¬ [mark, mark] <+: (a :: b :: inside) ++ mark :: mark :: mark :: d :: rest := by
        simpa [List.cons_prefix_cons] using hFew
      rw [List.cons_append, cutLines_plain (.inl hNot) (by simp [hMark]), ih]
      rfl

end

/-! ## Insides without escapes -/

theorem cut_of_notMem {mark : Char} {s : List Char} (h : mark ∉ s) : Cut false false mark s := by
  induction s with
  | nil => exact .nil
  | cons c rest ih =>
    rw [List.mem_cons, not_or] at h
    exact .plain (Ne.symm h.1) (by simp) (ih h.2)

theorem cut_of_holdsRun {mark : Char} {s : List Char} (h : holdsRun mark 3 s = false) :
    Cut false true mark s := by
  induction s with
  | nil => exact .nil
  | cons c rest ih =>
    rw [holdsRun, Bool.or_eq_false_iff] at h
    obtain ⟨hHere, hRest⟩ := h
    by_cases hMark : c = mark
    · subst hMark
      refine .mark rfl (fun hMany => ?_) (ih hRest)
      have hPrefix : List.replicate 3 c <+: c :: rest := List.cons_prefix_cons.2 ⟨rfl, hMany⟩
      rw [List.isPrefixOf_iff_prefix.2 hPrefix] at hHere
      cases hHere
    · exact .plain hMark (by simp) (ih hRest)

theorem isPlain_of_isControl {c : Char} (h : isControl c = false) (hBreak : c ≠ '\n') :
    isPlain c = true := by
  by_cases hTab : c = '\t'
  · rw [hTab]
    rfl
  · have hOther : (decide (c.toNat < 0x20) || decide (c.toNat = 0x7F)) = false := by
      simpa [isControl, hTab, hBreak] using h
    simp only [Bool.or_eq_false_iff, decide_eq_false_iff_not] at hOther
    simp only [isPlain, beq_eq_false_iff_ne.2 hTab, Bool.false_or, Bool.and_eq_true,
      decide_eq_true_eq, bne_iff_ne, ne_eq]
    omega

/-- A text without controls is a literal inside. -/
theorem literal?_of_plain {lines : Bool} {s : List Char} (hPlain : s.any isControl = false)
    (hLines : lines = true ∨ '\n' ∉ s) : literal? lines s = some s := by
  rw [literal?, if_pos]
  rw [List.all_eq_true]
  intro c hMem
  have hControl := (List.any_eq_false.1 hPlain) c hMem
  by_cases hBreak : c = '\n'
  · subst hBreak
    rcases hLines with rfl | hNone
    · rfl
    · exact absurd hMem hNone
  · rw [isPlain_of_isControl (Bool.not_eq_true _ ▸ hControl) hBreak, Bool.true_or]

/-! ## Insides with escapes -/

/-- The written forms of a character other than the quote. -/
inductive Escaped (lines : Bool) (c : Char) : List Char → Prop
  | short {e : Char} (hLetter : e ≠ 'u' ∧ e ≠ 'U') (hShort : shortEscape? e = some c) :
      Escaped lines c ['\\', e]
  | code {a b : Char} (hCode : codePoint? ['0', '0', a, b] = some c)
      (hDigits : ∀ x ∈ [a, b], isPlain x = true ∧ x ≠ '"' ∧ x ≠ '\\') :
      Escaped lines c ['\\', 'u', '0', '0', a, b]
  | plain (hQuote : c ≠ '"') (hSlash : c ≠ '\\')
      (hPlain : isPlain c = true ∨ (lines = true ∧ c = '\n')) : Escaped lines c [c]

/-- The code point of a control is read from the digits that it is written with. -/
theorem codePoint?_upperDigit : ∀ n < 128,
    codePoint? ['0', '0', upperDigit (n / 16), upperDigit (n % 16)] = some (Char.ofNat n) := by
  decide

theorem isPlain_upperDigit : ∀ n < 16,
    isPlain (upperDigit n) = true ∧ upperDigit n ≠ '"' ∧ upperDigit n ≠ '\\' := by
  decide

theorem escaped_escapeChar (lines : Bool) {c : Char} (hQuote : c ≠ '"') :
    Escaped lines c (escapeChar lines c) := by
  -- in the order of the writer: the short escapes first, then controls by their code
  unfold escapeChar
  split
  · rename_i hChar
    subst hChar
    exact .short (by decide) rfl
  split
  · rename_i hChar
    subst hChar
    exact .short (by decide) rfl
  split
  · rename_i hChar
    subst hChar
    cases lines with
    | true => exact .plain (by decide) (by decide) (.inr ⟨rfl, rfl⟩)
    | false => exact .short (by decide) rfl
  rename_i hBreak
  split
  · rename_i hChar
    subst hChar
    exact .short (by decide) rfl
  split
  · rename_i hChar
    subst hChar
    exact .short (by decide) rfl
  split
  · rename_i hChar
    subst hChar
    exact .short (by decide) rfl
  rename_i hSlash
  split
  · rename_i hControl
    -- all controls have a code of two digits
    have hSmall : c.toNat < 128 := by
      simp only [isControl, Bool.and_eq_true, Bool.or_eq_true, decide_eq_true_eq] at hControl
      omega
    refine .code ?_ fun x hMem => ?_
    · rw [codePoint?_upperDigit _ hSmall, Char.ofNat_toNat]
    · simp only [List.mem_cons, List.not_mem_nil, or_false] at hMem
      rcases hMem with rfl | rfl
      · exact isPlain_upperDigit _ (by omega)
      · exact isPlain_upperDigit _ (by omega)
  · rename_i hControl
    exact .plain hQuote hSlash (.inl (isPlain_of_isControl (Bool.not_eq_true _ ▸ hControl) hBreak))

section

variable {lines : Bool} {rest : List Char}

theorem Escaped.cut {marks : Bool} {c : Char} {written : List Char} (h : Escaped lines c written)
    (hRest : Cut true marks '"' rest) : Cut true marks '"' (written ++ rest) := by
  cases h with
  | short => exact .escaped rfl hRest
  | @code a b _ hDigits =>
    obtain ⟨-, hQuote, hSlash⟩ := hDigits a List.mem_cons_self
    obtain ⟨-, hQuote', hSlash'⟩ := hDigits b (List.mem_cons_of_mem _ List.mem_cons_self)
    exact .escaped rfl (.plain (by decide) (by decide) (.plain (by decide) (by decide)
      (.plain hQuote (by simp [hSlash]) (.plain hQuote' (by simp [hSlash']) hRest))))
  | plain hQuote hSlash => exact .plain hQuote (by simp [hSlash]) hRest

theorem decode_short {joining : Bool} {e x : Char} (hLetter : e ≠ 'u' ∧ e ≠ 'U')
    (hShort : shortEscape? e = some x) :
    decode lines joining ('\\' :: e :: rest) = (decode lines false rest).map (x :: ·) := by
  rw [decode, hShort]
  · rintro _ _ _ _ _ rfl -
    exact hLetter.1 rfl
  · rintro _ _ _ _ _ _ _ _ _ rfl -
    exact hLetter.2 rfl

theorem decode_code {joining : Bool} {a b c d x : Char} (hCode : codePoint? [a, b, c, d] = some x) :
    decode lines joining ('\\' :: 'u' :: a :: b :: c :: d :: rest) =
      (decode lines false rest).map (x :: ·) := by
  rw [decode, hCode]
  cases decode lines false rest <;> rfl

theorem decode_plain {c : Char} (hSlash : c ≠ '\\')
    (hPlain : isPlain c = true ∨ (lines = true ∧ c = '\n')) :
    decode lines false (c :: rest) = (decode lines false rest).map (c :: ·) := by
  rw [decode]
  · refine (if_neg (by simp)).trans (if_pos ?_)
    rcases hPlain with hPlain | ⟨rfl, rfl⟩
    · simp [hPlain, hSlash]
    · rfl
  · exact fun _ _ _ _ _ hSame => absurd hSame hSlash
  · exact fun _ _ _ _ _ _ _ _ _ hSame => absurd hSame hSlash
  · exact fun _ _ hSame => absurd hSame hSlash

theorem Escaped.decode {c : Char} {written : List Char} (h : Escaped lines c written) :
    Toml.decode lines false (written ++ rest) = (Toml.decode lines false rest).map (c :: ·) := by
  cases h with
  | short hLetter hShort => exact decode_short hLetter hShort
  | code hCode => exact decode_code hCode
  | plain _ hSlash hPlain => exact decode_plain hSlash hPlain

end

/-- A character is written with a backslash or itself in front. -/
theorem Escaped.not_starts {lines : Bool} {c x : Char} {written : List Char}
    (h : Escaped lines c written) (hSlash : x ≠ '\\') (hOther : x ≠ c) (rest : List Char) :
    ¬ [x] <+: written ++ rest := by
  cases h with
  | short => simp [List.cons_prefix_cons, hSlash]
  | code => simp [List.cons_prefix_cons, hSlash]
  | plain => simp [List.cons_prefix_cons, hOther]

/-- With escapes for all quotes, or behind two that stand for themselves, no quote comes first. -/
theorem not_quote_escapeFrom {lines : Bool} {run : Nat} (hRun : lines = false ∨ 2 ≤ run)
    (s : List Char) : ¬ ['"'] <+: escapeFrom lines run s := by
  cases s with
  | nil => simp [escapeFrom]
  | cons c rest =>
    have hBare : ¬ (lines && decide (run < 2)) = true := by
      rcases hRun with rfl | hRun
      · simp
      · simp [Nat.not_lt.2 hRun]
    rw [escapeFrom]
    split
    · simp
    · rename_i hQuote
      exact (escaped_escapeChar lines hQuote).not_starts (by decide) (Ne.symm hQuote) _

/-- Behind a quote that stands for itself at most one more does. -/
theorem few_escapeFrom {lines : Bool} {run : Nat} (hRun : 0 < run) (s : List Char) :
    ¬ ['"', '"'] <+: escapeFrom lines run s := by
  cases s with
  | nil => simp [escapeFrom]
  | cons c rest =>
    rw [escapeFrom]
    split
    · split
      · rw [List.cons_prefix_cons]
        exact fun hMany => not_quote_escapeFrom (.inr (by omega)) rest hMany.2
      · simp
    · rename_i hQuote
      exact fun hMany => (escaped_escapeChar lines hQuote).not_starts (by decide) (Ne.symm hQuote) _
        ((List.prefix_append ['"'] ['"']).trans hMany)

/-- The inside that is written with escapes can be cut. -/
theorem cut_escapeFrom (lines : Bool) (run : Nat) (s : List Char) :
    Cut true lines '"' (escapeFrom lines run s) := by
  induction s generalizing run with
  | nil => exact .nil
  | cons c rest ih =>
    rw [escapeFrom]
    split
    · split
      · rename_i hBare
        simp only [Bool.and_eq_true] at hBare
        exact .mark hBare.1 (few_escapeFrom (Nat.succ_pos run) rest) (ih _)
      · exact .escaped rfl (ih 0)
    · rename_i hQuote
      exact (escaped_escapeChar lines hQuote).cut (ih 0)

/-- The inside that is written with escapes is decoded as the text. -/
theorem decode_escapeFrom (lines : Bool) (run : Nat) (s : List Char) :
    decode lines false (escapeFrom lines run s) = some s := by
  -- the run of quotes in front decides only how the next quote is written
  induction s generalizing run with
  | nil => rfl
  | cons c rest ih =>
    rw [escapeFrom]
    split
    · rename_i hQuote
      subst hQuote
      split
      · rw [decode_plain (by decide) (.inl rfl), ih]
        rfl
      · rw [decode_short (by decide) rfl, ih]
        rfl
    · rename_i hQuote
      rw [(escaped_escapeChar lines hQuote).decode, ih]
      rfl

/-! ## Strings -/

/-- What can stand behind a written text: a character other than the quotes. -/
def Closes (s : List Char) : Prop := ∃ d rest, s = d :: rest ∧ d ≠ '"' ∧ d ≠ '\''

/-- A string that is not opened by three marks is one on a line. -/
theorem readString_of_few {s : List Char} (hDouble : ¬ ['"', '"', '"'] <+: s)
    (hSingle : ¬ ['\'', '\'', '\''] <+: s) : readString s = readLine s := by
  unfold readString
  split
  · exact absurd (List.prefix_append ['"', '"', '"'] _) hDouble
  · exact absurd (List.prefix_append ['\'', '\'', '\''] _) hSingle
  · rfl

theorem dropBreak_openBreak {s inside : List Char} (h : '\n' ∉ s → ¬ ['\n'] <+: inside) :
    dropBreak (openBreak s ++ inside) = inside := by
  unfold openBreak
  split
  · rfl
  · rename_i hNone
    rw [List.nil_append]
    unfold dropBreak
    split
    · rename_i rest
      have hBreak : '\n' ∉ s := by simpa using hNone
      exact absurd (List.prefix_append ['\n'] rest) (h hBreak)
    · rfl

theorem cut_openBreak {escapes marks : Bool} {mark : Char} (hMark : mark ≠ '\n') (s : List Char)
    {inside : List Char} (h : Cut escapes marks mark inside) :
    Cut escapes marks mark (openBreak s ++ inside) := by
  unfold openBreak
  split
  · exact .plain (Ne.symm hMark) (by simp) h
  · exact h

theorem not_break_escapeFrom {lines : Bool} {run : Nat} {s : List Char} (h : '\n' ∉ s) :
    ¬ ['\n'] <+: escapeFrom lines run s := by
  cases s with
  | nil => simp [escapeFrom]
  | cons c rest =>
    have hBreak : c ≠ '\n' := fun hSame => h (hSame ▸ List.mem_cons_self)
    rw [escapeFrom]
    split
    · split <;> simp
    · rename_i hQuote
      exact (escaped_escapeChar lines hQuote).not_starts (by decide) (Ne.symm hBreak) _

/-- A text between double quotes, with escapes. -/
theorem readString_basic (s : List Char) {rest : List Char} (hRest : Closes rest) :
    readString (('"' :: escapeFrom false 0 s ++ ['"']) ++ rest) = some (s, rest) := by
  obtain ⟨d, tail, rfl, hQuote, -⟩ := hRest
  rw [List.cons_append, List.cons_append, List.append_assoc, List.singleton_append]
  -- with three quotes the text would be one of several lines; what stands behind the text is no
  -- quote
  have hFew : ¬ ['"', '"', '"'] <+: '"' :: (escapeFrom false 0 s ++ '"' :: d :: tail) := by
    have hFirst : ¬ ['"'] <+: escapeFrom false 0 s := not_quote_escapeFrom (.inl rfl) s
    cases hInside : escapeFrom false 0 s with
    | nil => simp [List.cons_prefix_cons, Ne.symm hQuote]
    | cons c more =>
      rw [hInside, List.cons_prefix_cons, not_and] at hFirst
      rw [List.cons_append, List.cons_prefix_cons, List.cons_prefix_cons]
      exact fun hMany => hFirst hMany.2.1 List.nil_prefix
  rw [readString_of_few hFew (by simp [List.cons_prefix_cons]), readLine,
    cutLine_of_cut (by decide) (cut_escapeFrom false 0 s)]
  dsimp only [Option.bind_eq_bind, Option.bind_some]
  rw [decode_escapeFrom]
  rfl

/-- A text between single quotes. -/
theorem readString_literal {s : List Char} (hPlain : s.any isControl = false) (hBreak : '\n' ∉ s)
    (hMark : '\'' ∉ s) {rest : List Char} (hRest : Closes rest) :
    readString (('\'' :: s ++ ['\'']) ++ rest) = some (s, rest) := by
  obtain ⟨d, tail, rfl, -, hQuote⟩ := hRest
  rw [List.cons_append, List.cons_append, List.append_assoc, List.singleton_append]
  -- three marks would begin a text of several lines
  have hFew : ¬ ['\'', '\'', '\''] <+: '\'' :: (s ++ '\'' :: d :: tail) := by
    cases s with
    | nil => simp [List.cons_prefix_cons, Ne.symm hQuote]
    | cons c more =>
      rw [List.cons_append, List.cons_prefix_cons, List.cons_prefix_cons]
      exact fun hMany => hMark (hMany.2.1 ▸ List.mem_cons_self)
  rw [readString_of_few (by simp [List.cons_prefix_cons]) hFew, readLine,
    cutLine_of_cut (by decide) (cut_of_notMem hMark)]
  dsimp only [Option.bind_eq_bind, Option.bind_some]
  rw [literal?_of_plain hPlain (.inr hBreak)]
  rfl

/-- A text between tripled double quotes, with escapes. -/
theorem readString_basicLines (s : List Char) {rest : List Char} (hRest : Closes rest) :
    readString ((['"', '"', '"'] ++ openBreak s ++ escapeFrom true 0 s ++ ['"', '"', '"']) ++
      rest) = some (s, rest) := by
  obtain ⟨d, tail, rfl, hQuote, -⟩ := hRest
  have hCut := cut_openBreak (by decide) s (cut_escapeFrom true 0 s)
  have hInside := cutLines_of_cut (by decide) hCut hQuote tail
  simp only [List.cons_append, List.nil_append, List.append_assoc] at hInside ⊢
  rw [readString, hInside]
  dsimp only [Option.bind_eq_bind, Option.bind_some]
  rw [dropBreak_openBreak not_break_escapeFrom, decode_escapeFrom]
  rfl

/-- A text between tripled single quotes. -/
theorem readString_literalLines {s : List Char} (hPlain : s.any isControl = false)
    (hFew : holdsRun '\'' 3 s = false) {rest : List Char} (hRest : Closes rest) :
    readString ((['\'', '\'', '\''] ++ openBreak s ++ s ++ ['\'', '\'', '\'']) ++ rest) =
      some (s, rest) := by
  obtain ⟨d, tail, rfl, -, hQuote⟩ := hRest
  have hCut := cut_openBreak (by decide) s (cut_of_holdsRun hFew)
  have hInside := cutLines_of_cut (by decide) hCut hQuote tail
  simp only [List.cons_append, List.nil_append, List.append_assoc] at hInside ⊢
  rw [readString, hInside]
  dsimp only [Option.bind_eq_bind, Option.bind_some]
  rw [dropBreak_openBreak fun hNone hBreak => hNone (hBreak.subset List.mem_cons_self),
    literal?_of_plain hPlain (.inl rfl)]
  rfl

/-- A text that is put between single quotes has no controls, line breaks or single quotes. -/
theorem formOf_literal {s : List Char} (h : formOf s = .literal) :
    s.any isControl = false ∧ '\n' ∉ s ∧ '\'' ∉ s := by
  dsimp only [formOf] at h
  split at h
  · cases h
  split at h
  · rename_i hForm
    simpa [and_assoc] using hForm
  split at h
  · cases h
  split at h
  · cases h
  · split at h <;> cases h

/-- A text that is put between tripled single quotes has no controls, and no such quotes itself. -/
theorem formOf_literalLines {s : List Char} (h : formOf s = .literalLines) :
    s.any isControl = false ∧ holdsRun '\'' 3 s = false := by
  dsimp only [formOf] at h
  split at h
  · cases h
  split at h
  · cases h
  split at h
  · cases h
  split at h
  · rename_i hForm
    simpa using hForm
  · split at h <;> cases h

/-- **Texts.** A written text is read as the text, whatever stands behind it but a quote. -/
theorem readString_writeText (s : List Char) {rest : List Char} (hRest : Closes rest) :
    readString (writeText s ++ rest) = some (s, rest) := by
  unfold writeText
  cases hForm : formOf s with
  | basic => exact readString_basic s hRest
  | literal =>
    obtain ⟨hPlain, hBreak, hMark⟩ := formOf_literal hForm
    exact readString_literal hPlain hBreak hMark hRest
  | basicLines => exact readString_basicLines s hRest
  | literalLines =>
    obtain ⟨hPlain, hFew⟩ := formOf_literalLines hForm
    exact readString_literalLines hPlain hFew hRest

/-- A written text starts with a quote. -/
theorem exists_writeText_eq_cons (s : List Char) :
    ∃ q rest, writeText s = q :: rest ∧ (q = '"' ∨ q = '\'') := by
  unfold writeText
  cases formOf s with
  | basic => exact ⟨_, _, rfl, .inl rfl⟩
  | literal => exact ⟨_, _, rfl, .inr rfl⟩
  | basicLines => exact ⟨_, _, rfl, .inl rfl⟩
  | literalLines => exact ⟨_, _, rfl, .inr rfl⟩

/-! ## No carriage returns -/

theorem Escaped.return_notMem {lines : Bool} {c : Char} {written : List Char}
    (h : Escaped lines c written) : '\r' ∉ written := by
  -- no way to write a character has a return in it
  cases h with
  | @short e _ hShort =>
    have hOther : e ≠ '\r' := by
      rintro rfl
      cases hShort
    simp [Ne.symm hOther]
  | @code a b _ hDigits =>
    have hOther : ∀ x ∈ [a, b], x ≠ '\r' := by
      rintro x hMem rfl
      cases (hDigits _ hMem).1
    simp only [List.mem_cons, List.not_mem_nil, or_false, forall_eq_or_imp, forall_eq] at hOther
    simp [Ne.symm hOther.1, Ne.symm hOther.2]
  | plain _ _ hPlain =>
    rw [List.mem_singleton]
    rintro rfl
    rcases hPlain with hPlain | ⟨-, hBreak⟩
    · cases hPlain
    · cases hBreak

theorem return_notMem_escapeFrom (lines : Bool) (run : Nat) (s : List Char) :
    '\r' ∉ escapeFrom lines run s := by
  induction s generalizing run with
  | nil => exact List.not_mem_nil
  | cons c rest ih =>
    rw [escapeFrom]
    split
    · split
      · simp [ih]
      · simp [ih]
    · rename_i hQuote
      rw [List.mem_append, not_or]
      exact ⟨(escaped_escapeChar lines hQuote).return_notMem, ih 0⟩

theorem return_notMem_of_plain {s : List Char} (hPlain : s.any isControl = false) : '\r' ∉ s :=
  fun hMem => List.any_eq_false.1 hPlain _ hMem rfl

theorem return_notMem_openBreak (s : List Char) : '\r' ∉ openBreak s := by
  unfold openBreak
  split <;> decide

/-- A written text has no carriage return. -/
theorem return_notMem_writeText (s : List Char) : '\r' ∉ writeText s := by
  unfold writeText
  cases hForm : formOf s with
  | basic => simp [return_notMem_escapeFrom]
  | literal => simp [return_notMem_of_plain (formOf_literal hForm).1]
  | basicLines => simp [return_notMem_openBreak, return_notMem_escapeFrom]
  | literalLines =>
    simp [return_notMem_openBreak, return_notMem_of_plain (formOf_literalLines hForm).1]

end PropertySets.Data.Toml
