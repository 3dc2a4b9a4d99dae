import Mathlib.Data.List.DropRight
import PropertySets.Data.Json.Printer
import PropertySets.Data.Json.Reader

/-!
# Reading written JSON

The printer's text of a value is read as the value again, whatever stands behind it: the text says
itself where it ends. This is shown for values without numbers and truth values, such as the model
is written as; keys of a table have to be different, since of fields with one key the reader keeps
the last. The reader is given as many levels as the value has.

* `readString_quote` — a quoted string is read as the string.
* `Readable` — the values that are read back at a number of levels.
* `readsBack` — they are.
* `Plain`, `eq_of_render_eq` — so the text of a value determines it.
-/

namespace PropertySets.Data

/-! ## Tables with different keys -/

section

variable {α : Type}

theorem putField_of_notMem {key : String} {fields : List (String × α)}
    (h : key ∉ fields.map (·.1)) (v : α) : putField key v fields = fields ++ [(key, v)] := by
  induction fields with
  | nil => rfl
  | cons f rest ih =>
    rw [List.map_cons, List.mem_cons, not_or] at h
    rw [putField, if_neg (Ne.symm h.1), ih h.2, List.cons_append]

/-- Of fields with different keys all count. -/
theorem lastFields_of_nodup {fields : List (String × α)} (h : (fields.map (·.1)).Nodup) :
    lastFields fields = fields := by
  -- the fields so far are kept, and a field with another key goes behind them
  suffices ∀ kept : List (String × α), ((kept ++ fields).map (·.1)).Nodup →
      fields.foldl (fun kept f => putField f.1 f.2 kept) kept = kept ++ fields from
    this [] h
  induction fields with
  | nil => exact fun kept _ => (List.append_nil kept).symm
  | cons f rest ih =>
    intro kept hAll
    have hNew : f.1 ∉ kept.map (·.1) := by
      rw [List.map_append, List.map_cons, List.nodup_append] at hAll
      exact fun hMem => hAll.2.2 f.1 hMem f.1 List.mem_cons_self rfl
    have hRest : (rest.map (·.1)).Nodup := (List.nodup_cons.1 h).2
    have hStep : (kept ++ [f] ++ rest).map (·.1) = (kept ++ f :: rest).map (·.1) := by simp
    show rest.foldl _ (putField f.1 f.2 kept) = _
    rw [putField_of_notMem hNew, ih hRest _ (hStep ▸ hAll), List.append_assoc,
      List.singleton_append]

end

namespace Json

/-! ## Strings -/

/-- A short escape is read as its character. -/
theorem readPieces_short {e c : Char} (h : e ≠ 'u') (hShort : shortEscape? e = some c)
    (rest : List Char) :
    readPieces ('\\' :: e :: rest) =
      (readPieces rest).map fun read => (.character c :: read.1, read.2) := by
  rw [readPieces, hShort]
  · cases readPieces rest <;> rfl
  · rintro _ _ _ _ _ rfl -
    exact h rfl

/-- Four hexadecimal digits are read as their value. -/
theorem readPieces_code {a b c d : Char}
    (h : [a, b, c, d].all (fun x => (Text.hexValue? x).isSome) = true) (rest : List Char) :
    readPieces ('\\' :: 'u' :: a :: b :: c :: d :: rest) =
      (readPieces rest).map fun read =>
        (.code (Integer.ofDigits 16 [a, b, c, d]) :: read.1, read.2) := by
  rw [readPieces]
  simp only [h]
  cases readPieces rest <;> rfl

/-- A character that is neither a quote nor a backslash nor a control is read as it is. -/
theorem readPieces_plain {c : Char} (hQuote : c ≠ '"') (hBackslash : c ≠ '\\')
    (hPlain : ¬ c.toNat < 0x20) (rest : List Char) :
    readPieces (c :: rest) =
      (readPieces rest).map fun read => (.character c :: read.1, read.2) := by
  rw [readPieces]
  · simp only [hPlain, if_false]
    cases readPieces rest <;> rfl
  · exact fun hSame => hQuote hSame
  · exact fun _ _ _ _ _ hSame => absurd hSame hBackslash
  · exact fun _ _ hSame => absurd hSame hBackslash

/-- The digits that a control is written with. -/
theorem controlDigits : ∀ n < 0x20,
    ['0', '0', Nat.digitChar (n / 16), Nat.digitChar (n % 16)].all
        (fun x => (Text.hexValue? x).isSome) = true ∧
      Integer.ofDigits 16 ['0', '0', Nat.digitChar (n / 16), Nat.digitChar (n % 16)] = n := by
  decide

/-- The characters that have a short escape when they are written. -/
def shortlyEscaped : List Char := ['"', '\\', '\x08', '\x0c', '\n', '\r', '\t']

theorem exists_shortEscape {c : Char} (h : c ∈ shortlyEscaped) :
    ∃ e, escape c = ['\\', e] ∧ e ≠ 'u' ∧ shortEscape? e = some c := by
  simp only [shortlyEscaped, List.mem_cons, List.not_mem_nil, or_false] at h
  rcases h with rfl | rfl | rfl | rfl | rfl | rfl | rfl <;> exact ⟨_, rfl, by decide, rfl⟩

theorem escape_of_notMem {c : Char} (h : c ∉ shortlyEscaped) :
    escape c = if c.toNat < 0x20 then
      ['\\', 'u', '0', '0', Nat.digitChar (c.toNat / 16), Nat.digitChar (c.toNat % 16)]
    else [c] := by
  simp only [shortlyEscaped, List.mem_cons, List.not_mem_nil, or_false, not_or] at h
  simp only [escape, h, if_false]

/-- A code that is no surrogate is a character by itself. -/
theorem joinPieces_code {n : Nat} (hPlain : ¬ (0xD800 ≤ n ∧ n < 0xDC00)) (hValid : n.isValidChar)
    (pieces : List Piece) :
    joinPieces (.code n :: pieces) = (joinPieces pieces).map (Char.ofNat n :: ·) := by
  rw [joinPieces.eq_def]
  dsimp only
  rw [if_neg hPlain, if_pos hValid]

/-- A character that is written is read as a piece that denotes it. -/
theorem exists_piece (c : Char) :
    ∃ piece : Piece,
      (∀ rest, readPieces (escape c ++ rest) =
        (readPieces rest).map fun read => (piece :: read.1, read.2)) ∧
      ∀ pieces, joinPieces (piece :: pieces) = (joinPieces pieces).map (c :: ·) := by
  -- a character has a short escape, is a control that is written by its code, or stands for itself
  by_cases hShortly : c ∈ shortlyEscaped
  · obtain ⟨e, hEscape, hOther, hShort⟩ := exists_shortEscape hShortly
    rw [hEscape]
    exact ⟨.character c, readPieces_short hOther hShort, fun _ => rfl⟩
  · rw [escape_of_notMem hShortly]
    split
    · rename_i hControl
      obtain ⟨hDigits, hValue⟩ := controlDigits c.toNat hControl
      refine ⟨.code c.toNat, fun rest => ?_, fun pieces => ?_⟩
      · have hRead := readPieces_code hDigits rest
        rwa [hValue] at hRead
      · have hCode := joinPieces_code (n := c.toNat) (by omega) c.valid pieces
        rwa [Char.ofNat_toNat] at hCode
    · rename_i hPlain
      have hQuote : c ≠ '"' := fun hSame => hShortly (by rw [hSame]; decide)
      have hBackslash : c ≠ '\\' := fun hSame => hShortly (by rw [hSame]; decide)
      exact ⟨.character c, readPieces_plain hQuote hBackslash hPlain, fun _ => rfl⟩

/-- A quoted string is read as the string. -/
theorem readString_quote (s : String) (rest : List Char) :
    ∃ inner, quote s ++ rest = '"' :: inner ∧ readString inner = some (s, rest) := by
  -- character by character; the closing quote is none of the pieces
  have hPieces : ∀ cs : List Char, ∃ pieces,
      readPieces (cs.flatMap escape ++ '"' :: rest) = some (pieces, rest) ∧
        joinPieces pieces = some cs := by
    intro cs
    induction cs with
    | nil => exact ⟨[], rfl, rfl⟩
    | cons c cs ih =>
      obtain ⟨pieces, hRead, hJoin⟩ := ih
      obtain ⟨piece, hPiece, hDenoted⟩ := exists_piece c
      refine ⟨piece :: pieces, ?_, by rw [hDenoted, hJoin]; rfl⟩
      rw [List.flatMap_cons, List.append_assoc, hPiece, hRead]
      rfl
  obtain ⟨pieces, hRead, hJoin⟩ := hPieces s.toList
  refine ⟨s.toList.flatMap escape ++ '"' :: rest, by simp [quote], ?_⟩
  rw [readString, hRead]
  simp only [Option.bind_eq_bind, Option.bind_some, hJoin, String.ofList_toList]
  rfl

/-! ## Values -/

/-- The values that are read back at a number of levels: missing values and texts at any number,
lists and tables of such values at one more, the keys of a table being different. -/
inductive Readable : Nat → Value → Prop
  | null (n : Nat) : Readable n .null
  | text (n : Nat) (s : String) : Readable n (.text s)
  | list {n : Nat} {items : List Value} (items_readable : ∀ v ∈ items, Readable n v) :
    Readable (n + 1) (.list items)
  | table {n : Nat} {fields : List (String × Value)} (distinct : (fields.map (·.1)).Nodup)
    (fields_readable : ∀ f ∈ fields, Readable n f.2) : Readable (n + 1) (.table fields)

theorem Readable.mono {m n : Nat} {v : Value} (h : Readable m v) (hMore : m ≤ n) :
    Readable n v := by
  induction h generalizing n with
  | null => exact .null n
  | text m s => exact .text n s
  | list _ ih =>
    obtain ⟨k, rfl⟩ : ∃ k, n = k + 1 := ⟨n - 1, by omega⟩
    exact .list fun v hMem => ih v hMem (by omega)
  | table distinct _ ih =>
    obtain ⟨k, rfl⟩ : ∃ k, n = k + 1 := ⟨n - 1, by omega⟩
    exact .table distinct fun f hMem => ih f hMem (by omega)

/-- A value starts with a sign or a letter, and does not end a list. -/
theorem exists_write_eq_cons {n : Nat} {v : Value} (h : Readable n v) (level : Nat) :
    ∃ c rest, write level v = c :: rest ∧ isSpace c = false ∧ c ≠ ']' := by
  cases h with
  | null => exact ⟨'n', _, rfl, rfl, by decide⟩
  | text n s => exact ⟨'"', _, rfl, rfl, by decide⟩
  | @list n items => cases items <;> exact ⟨'[', _, rfl, rfl, by decide⟩
  | @table n fields => cases fields <;> exact ⟨'\x7b', _, rfl, rfl, by decide⟩

theorem dropWhile_newLine (level : Nat) (s : List Char) :
    (newLine level ++ s).dropWhile isSpace = s.dropWhile isSpace := by
  have hSpaces : ∀ k, (List.replicate k ' ' ++ s).dropWhile isSpace = s.dropWhile isSpace := by
    intro k
    induction k with
    | zero => rfl
    | succ k ih => exact ih
  exact hSpaces (2 * level)

theorem dropWhile_write {n : Nat} {v : Value} (h : Readable n v) (level : Nat)
    (rest : List Char) : (write level v ++ rest).dropWhile isSpace = write level v ++ rest := by
  obtain ⟨c, tail, hWrite, hSpace, -⟩ := exists_write_eq_cons h level
  rw [hWrite, List.cons_append, List.dropWhile_cons_of_neg (by simp [hSpace])]

theorem separated_cons (piece : List Char) (pieces : List (List Char)) :
    separated (piece :: pieces) = piece ++ pieces.flatMap (',' :: ·) := by
  induction pieces generalizing piece with
  | nil => exact (List.append_nil piece).symm
  | cons next pieces ih =>
    rw [separated, ih, List.flatMap_cons, List.cons_append]
    exact nofun

/-- Behind the first, each piece takes at least one character. -/
theorem length_le_flatMap_comma (pieces : List (List Char)) :
    pieces.length ≤ (pieces.flatMap (',' :: ·)).length := by
  induction pieces with
  | nil => exact Nat.le_refl 0
  | cons piece pieces ih =>
    rw [List.flatMap_cons, List.length_append, List.length_cons, List.length_cons]
    omega

theorem length_writeItems (level : Nat) (vs : List Value) :
    (writeItems level vs).length = vs.length := by
  induction vs with
  | nil => rfl
  | cons v vs ih => rw [writeItems, List.length_cons, ih, List.length_cons]

theorem length_writeFields (level : Nat) (fs : List (String × Value)) :
    (writeFields level fs).length = fs.length := by
  induction fs with
  | nil => rfl
  | cons f fs ih => rw [writeFields, List.length_cons, ih, List.length_cons]

section

variable {item : List Char → Option (Value × List Char)} {n level : Nat}

/-- A value is read by `item` as itself, whatever stands behind it. -/
def ReadsBack (item : List Char → Option (Value × List Char)) (v : Value) : Prop :=
  ∀ level rest, item (write level v ++ rest) = some (v, rest)

/-- White space in front of items is skipped. -/
theorem readItems_dropWhile (fuel : Nat) (s : List Char) :
    readItems item fuel (s.dropWhile isSpace) = readItems item fuel s := by
  cases fuel with
  | zero => rfl
  | succ fuel => rw [readItems, readItems, List.dropWhile_idempotent]

theorem readFields_dropWhile (fuel : Nat) (s : List Char) :
    readFields item fuel (s.dropWhile isSpace) = readFields item fuel s := by
  cases fuel with
  | zero => rfl
  | succ fuel => rw [readFields, readFields, List.dropWhile_idempotent]

/-- The items of a list are read up to the closing bracket. -/
theorem readItems_write {v : Value} {vs : List Value} {fuel : Nat} (hFuel : vs.length < fuel)
    (hReadable : ∀ w ∈ v :: vs, Readable n w) (hBack : ∀ w ∈ v :: vs, ReadsBack item w)
    (outer : Nat) (rest : List Char) :
    readItems item fuel (separated (writeItems level (v :: vs)) ++ newLine outer ++ ']' :: rest) =
      some (v :: vs, rest) := by
  -- each item takes one step of fuel, and the items behind it are read from the comma on
  induction vs generalizing v fuel with
  | nil =>
    obtain ⟨fuel, rfl⟩ : ∃ k, fuel = k + 1 := ⟨fuel - 1, by simp at hFuel; omega⟩
    rw [writeItems, writeItems, separated, readItems, List.append_assoc, List.append_assoc,
      dropWhile_newLine, dropWhile_write (hReadable v List.mem_cons_self),
      hBack v List.mem_cons_self]
    simp only [Option.bind_eq_bind, Option.bind_some, dropWhile_newLine]
    rfl
  | cons w ws ih =>
    obtain ⟨fuel, rfl⟩ : ∃ k, fuel = k + 1 := ⟨fuel - 1, by simp at hFuel; omega⟩
    have hRest : readItems item fuel (separated (writeItems level (w :: ws)) ++ newLine outer ++
        ']' :: rest) = some (w :: ws, rest) :=
      ih (by simpa using hFuel) (fun u hMem => hReadable u (List.mem_cons_of_mem _ hMem))
        fun u hMem => hBack u (List.mem_cons_of_mem _ hMem)
    have hText : separated (writeItems level (v :: w :: ws)) ++ newLine outer ++ ']' :: rest =
        newLine level ++ (write level v ++
          ',' :: (separated (writeItems level (w :: ws)) ++ newLine outer ++ ']' :: rest)) := by
      simp [writeItems, separated]
    rw [hText, readItems, dropWhile_newLine, dropWhile_write (hReadable v List.mem_cons_self),
      hBack v List.mem_cons_self]
    simp only [Option.bind_eq_bind, Option.bind_some]
    have hComma : ∀ s : List Char, (',' :: s).dropWhile isSpace = ',' :: s := fun _ => rfl
    simp only [hComma, hRest]
    rfl

/-- A field is read up to what stands behind its value. -/
theorem readFields_field {key : String} {v : Value} (hReadable : Readable n v)
    (hBack : ReadsBack item v) (fuel : Nat) (tail : List Char) :
    readFields item (fuel + 1)
        (newLine level ++ quote key ++ ": ".toList ++ write level v ++ tail) =
      match tail.dropWhile isSpace with
      | '\x7d' :: rest => some ([(key, v)], rest)
      | ',' :: rest => do
        let (fields, rest) ← readFields item fuel rest
        return ((key, v) :: fields, rest)
      | _ => none := by
  obtain ⟨inner, hQuote, hRead⟩ := readString_quote key (':' :: ' ' :: (write level v ++ tail))
  -- behind the white space stands the quoted key, then a colon and one blank
  have hText : newLine level ++ quote key ++ ": ".toList ++ write level v ++ tail =
      newLine level ++ '"' :: inner := by
    rw [← hQuote]
    simp
  have hKey : ('"' :: inner).dropWhile isSpace = '"' :: inner := rfl
  have hColon : ∀ s : List Char, (':' :: s).dropWhile isSpace = ':' :: s := fun _ => rfl
  have hValue : (' ' :: (write level v ++ tail)).dropWhile isSpace = write level v ++ tail :=
    dropWhile_write hReadable level tail
  rw [hText, readFields, dropWhile_newLine, hKey]
  simp only [hRead, Option.bind_eq_bind, Option.bind_some, hColon, hValue, hBack level tail]
  rfl

/-- The fields of a table are read up to the closing brace. -/
theorem readFields_write {f : String × Value} {fs : List (String × Value)} {fuel : Nat}
    (hFuel : fs.length < fuel) (hReadable : ∀ g ∈ f :: fs, Readable n g.2)
    (hBack : ∀ g ∈ f :: fs, ReadsBack item g.2) (outer : Nat) (rest : List Char) :
    readFields item fuel
        (separated (writeFields level (f :: fs)) ++ newLine outer ++ '\x7d' :: rest) =
      some (f :: fs, rest) := by
  -- each field takes one step of fuel, and the fields behind it are read from the comma on
  induction fs generalizing f fuel with
  | nil =>
    obtain ⟨fuel, rfl⟩ : ∃ k, fuel = k + 1 := ⟨fuel - 1, by simp at hFuel; omega⟩
    rw [writeFields, writeFields, separated, List.append_assoc,
      readFields_field (hReadable f List.mem_cons_self) (hBack f List.mem_cons_self),
      dropWhile_newLine]
    rfl
  | cons g gs ih =>
    obtain ⟨fuel, rfl⟩ : ∃ k, fuel = k + 1 := ⟨fuel - 1, by simp at hFuel; omega⟩
    have hRest : readFields item fuel (separated (writeFields level (g :: gs)) ++ newLine outer ++
        '\x7d' :: rest) = some (g :: gs, rest) :=
      ih (by simpa using hFuel) (fun u hMem => hReadable u (List.mem_cons_of_mem _ hMem))
        fun u hMem => hBack u (List.mem_cons_of_mem _ hMem)
    have hText : separated (writeFields level (f :: g :: gs)) ++ newLine outer ++ '\x7d' :: rest =
        newLine level ++ quote f.1 ++ ": ".toList ++ write level f.2 ++
          ',' :: (separated (writeFields level (g :: gs)) ++ newLine outer ++ '\x7d' :: rest) := by
      simp [writeFields, separated]
    have hComma : ∀ s : List Char, (',' :: s).dropWhile isSpace = ',' :: s := fun _ => rfl
    rw [hText, readFields_field (hReadable f List.mem_cons_self) (hBack f List.mem_cons_self),
      hComma]
    simp only [hRest]
    rfl

end

/-- A list of values that are read back is read back: there is fuel for all of its items, since the
text left to read has more characters than items. -/
theorem readsBack_list {n : Nat} {items : List Value} (hItems : ∀ v ∈ items, Readable n v)
    (hBack : ∀ v ∈ items, ReadsBack (readValue n) v) :
    ReadsBack (readValue (n + 1)) (.list items) := by
  intro level rest
  cases items with
  | nil => rfl
  | cons v vs =>
    have hText : write level (.list (v :: vs)) ++ rest =
        '[' :: (separated (writeItems (level + 1) (v :: vs)) ++ newLine level ++ ']' :: rest) := by
      simp [write]
    obtain ⟨behind, hBehind, hFuel⟩ : ∃ behind : List Char,
        (separated (writeItems (level + 1) (v :: vs)) ++ newLine level ++
          ']' :: rest).dropWhile isSpace = write (level + 1) v ++ behind ∧
        vs.length < behind.length := by
      refine ⟨(writeItems (level + 1) vs).flatMap (',' :: ·) ++ (newLine level ++ ']' :: rest),
        ?_, ?_⟩
      · rw [writeItems, separated_cons, List.append_assoc, List.append_assoc, List.append_assoc,
          dropWhile_newLine, dropWhile_write (hItems v List.mem_cons_self)]
      · have hLength := length_le_flatMap_comma (writeItems (level + 1) vs)
        rw [length_writeItems] at hLength
        simp only [List.length_append, List.length_cons]
        omega
    have hRead : readItems (readValue n) (write (level + 1) v ++ behind).length
        (separated (writeItems (level + 1) (v :: vs)) ++ newLine level ++ ']' :: rest) =
          some (v :: vs, rest) :=
      readItems_write (by rw [List.length_append]; omega) hItems hBack level rest
    rw [← readItems_dropWhile, hBehind] at hRead
    rw [hText, readValue, hBehind]
    -- the first item does not start as the end of an empty list does
    split
    · rename_i hClosed
      obtain ⟨c, tail, hWrite, -, hOpen⟩ :=
        exists_write_eq_cons (hItems v List.mem_cons_self) (level + 1)
      rw [hWrite, List.cons_append] at hClosed
      exact absurd (List.cons.inj hClosed).1 hOpen
    · rw [hRead]
      rfl

/-- A table of values that are read back is read back if its keys are different. -/
theorem readsBack_table {n : Nat} {fields : List (String × Value)}
    (hDistinct : (fields.map (·.1)).Nodup) (hFields : ∀ f ∈ fields, Readable n f.2)
    (hBack : ∀ f ∈ fields, ReadsBack (readValue n) f.2) :
    ReadsBack (readValue (n + 1)) (.table fields) := by
  intro level rest
  cases fields with
  | nil => rfl
  | cons f fs =>
    have hText : write level (.table (f :: fs)) ++ rest =
        '\x7b' :: (separated (writeFields (level + 1) (f :: fs)) ++ newLine level ++
          '\x7d' :: rest) := by
      simp [write]
    -- the reader is given as much fuel as there are characters, and each field has one of them at
    -- least
    obtain ⟨behind, hBehind, hFuel⟩ : ∃ behind : List Char,
        (separated (writeFields (level + 1) (f :: fs)) ++ newLine level ++
          '\x7d' :: rest).dropWhile isSpace = '"' :: behind ∧ fs.length < behind.length := by
      refine ⟨f.1.toList.flatMap escape ++ '"' :: (": ".toList ++ write (level + 1) f.2 ++
        ((writeFields (level + 1) fs).flatMap (',' :: ·) ++ (newLine level ++ '\x7d' :: rest))),
        ?_, ?_⟩
      · have hKey : ∀ s : List Char, ('"' :: s).dropWhile isSpace = '"' :: s := fun _ => rfl
        rw [writeFields, separated_cons]
        simp only [List.append_assoc, dropWhile_newLine, quote, List.cons_append, hKey]
        rfl
      · have hLength := length_le_flatMap_comma (writeFields (level + 1) fs)
        rw [length_writeFields] at hLength
        simp only [List.length_append, List.length_cons]
        omega
    have hRead : readFields (readValue n) ('"' :: behind).length
        (separated (writeFields (level + 1) (f :: fs)) ++ newLine level ++ '\x7d' :: rest) =
          some (f :: fs, rest) :=
      readFields_write (by rw [List.length_cons]; omega) hFields hBack level rest
    rw [← readFields_dropWhile, hBehind] at hRead
    rw [hText, readValue, hBehind]
    show (readFields (readValue n) ('"' :: behind).length ('"' :: behind)).map _ = _
    rw [hRead, Option.map_some]
    dsimp only
    -- of fields with one key the last would count
    rw [lastFields_of_nodup hDistinct]

/-- **Reading a written value.** A value is read back from its text, at whatever level it was
written and whatever stands behind it. -/
theorem readsBack {n : Nat} {v : Value} (h : Readable n v) : ReadsBack (readValue n) v := by
  induction h with
  | null n =>
    intro level rest
    cases n <;> rfl
  | text n s =>
    intro level rest
    obtain ⟨inner, hQuote, hRead⟩ := readString_quote s rest
    have hScalar : readScalar ('"' :: inner) = some (.text s, rest) := by
      rw [readScalar, hRead]
      rfl
    rw [write, hQuote]
    cases n <;> exact hScalar
  | list hItems ih => exact readsBack_list hItems ih
  | table hDistinct hFields ih => exact readsBack_table hDistinct hFields ih

/-- Values that are written alike are the same. -/
theorem eq_of_write_eq {m n : Nat} {v w : Value} (hv : Readable m v) (hw : Readable n w)
    {level : Nat} (h : write level v = write level w) : v = w := by
  -- both are read at the levels of the deeper one
  have hv' := readsBack (hv.mono (Nat.le_max_left m n)) level []
  have hw' := readsBack (hw.mono (Nat.le_max_right m n)) level []
  rw [h, hw'] at hv'
  exact (congrArg Prod.fst (Option.some.inj hv')).symm

/-! ## Plain values -/

/-- The values that are read back when enough levels are allowed. -/
def Plain (v : Value) : Prop := ∃ n, Readable n v

namespace Plain

theorem null : Plain .null := ⟨0, .null 0⟩

theorem text (s : String) : Plain (.text s) := ⟨0, .text 0 s⟩

/-- Finitely many plain values are read back at a common level. -/
theorem exists_level {α : Type} {f : α → Value} {xs : List α} (h : ∀ x ∈ xs, Plain (f x)) :
    ∃ n, ∀ x ∈ xs, Readable n (f x) := by
  induction xs with
  | nil => exact ⟨0, nofun⟩
  | cons x xs ih =>
    obtain ⟨m, hx⟩ := h x List.mem_cons_self
    obtain ⟨n, hxs⟩ := ih fun y hMem => h y (List.mem_cons_of_mem _ hMem)
    refine ⟨max m n, fun y hMem => ?_⟩
    rcases List.mem_cons.1 hMem with rfl | hMem
    · exact hx.mono (Nat.le_max_left m n)
    · exact (hxs y hMem).mono (Nat.le_max_right m n)

theorem list {items : List Value} (h : ∀ v ∈ items, Plain v) : Plain (.list items) := by
  obtain ⟨n, hItems⟩ := exists_level h
  exact ⟨n + 1, .list hItems⟩

theorem list_map {α : Type} {f : α → Value} (h : ∀ x, Plain (f x)) (xs : List α) :
    Plain (.list (xs.map f)) :=
  list fun _ hMem => by
    obtain ⟨x, -, rfl⟩ := List.mem_map.1 hMem
    exact h x

theorem table {fields : List (String × Value)} (hDistinct : (fields.map (·.1)).Nodup)
    (h : ∀ f ∈ fields, Plain f.2) : Plain (.table fields) := by
  obtain ⟨n, hFields⟩ := exists_level h
  exact ⟨n + 1, .table hDistinct hFields⟩

end Plain

/-- The text of a plain value determines it. -/
theorem eq_of_render_eq {v w : Value} (hv : Plain v) (hw : Plain w) (h : render v = render w) :
    v = w := by
  obtain ⟨m, hv⟩ := hv
  obtain ⟨n, hw⟩ := hw
  exact eq_of_write_eq hv hw (String.ofList_inj.1 h)

end Json

end PropertySets.Data
