import PropertySets.Data.Toml.Reader
import PropertySets.Proofs.Data.Toml.Quoted

/-!
# Reading written TOML values

A value is read from its written text, and what stands behind the text is left over. That holds of
texts in lists too: in a list of several each stands on a line of its own, with a comma behind it.

* `Writes` — texts that values are read from.
* `writes_text`, `writes_flag`, `writes_texts` — the written texts of texts, truth values, and
  lists of texts.
-/

namespace PropertySets.Data.Toml

/-! ## Values -/

/-- A value that is read as it stands, without moments. -/
def Settled (v : Value) : Prop := settle v = some v

/-- The text of a value: the value is read from it on a line of its own, or behind a key. -/
structure Writes (w : List Char) (v : Value) : Prop where
  start : ∃ c rest, w = c :: rest ∧ isBlank c = false
  reads : ∀ depth rest, Closes rest → readValue (depth + 1) (w ++ rest) = some (v, rest)
  unbroken : '\r' ∉ w
  settled : Settled v

theorem closes_cons (c : Char) (rest : List Char) (h : c ≠ '"' ∧ c ≠ '\'') : Closes (c :: rest) :=
  ⟨c, rest, rfl, h⟩

theorem readValue_quote {q : Char} (hQuote : q = '"' ∨ q = '\'') (depth : Nat) (s : List Char) :
    readValue depth (q :: s) =
      (readString (q :: s)).map fun (text, rest) => (.text (String.ofList text), rest) := by
  rcases hQuote with rfl | rfl
  · cases depth <;> rfl
  · cases depth <;> rfl

/-- A text is read however deep it stands. -/
theorem readValue_text (depth : Nat) (s : List Char) {rest : List Char} (hRest : Closes rest) :
    readValue depth (writeText s ++ rest) = some (.text (String.ofList s), rest) := by
  obtain ⟨q, more, hStart, hQuote⟩ := exists_writeText_eq_cons s
  have hString := readString_writeText s hRest
  rw [hStart, List.cons_append] at hString ⊢
  rw [readValue_quote hQuote, hString]
  rfl

theorem writes_text (s : List Char) : Writes (writeText s) (.text (String.ofList s)) := by
  obtain ⟨q, rest, hStart, hQuote⟩ := exists_writeText_eq_cons s
  exact {
    start := ⟨q, rest, hStart, by rcases hQuote with rfl | rfl <;> rfl⟩
    reads := fun depth rest hRest => readValue_text (depth + 1) s hRest
    unbroken := return_notMem_writeText s
    settled := rfl }

theorem writes_flag (b : Bool) : Writes (writeFlag b) (.boolean b) := by
  cases b with
  | true => exact ⟨⟨_, _, rfl, rfl⟩, fun _ _ _ => rfl, by decide, rfl⟩
  | false => exact ⟨⟨_, _, rfl, rfl⟩, fun _ _ _ => rfl, by decide, rfl⟩

/-! ## Lists of texts -/

theorem skipFiller_of_start {c : Char} (hBreak : c ≠ '\n') (hComment : c ≠ '#')
    (hBlank : isBlank c = false) (rest : List Char) :
    skipFiller false (c :: rest) = some (c :: rest) := by
  rw [skipFiller, if_neg hBreak, if_neg Bool.false_ne_true, if_neg hComment,
    if_neg (by simp [hBlank])]

/-- What follows an item: the bracket, or a comma and more items. -/
def readBehind (item : List Char → Option (Value × List Char)) (fuel : Nat) (v : Value) :
    List Char → Option (List Value × List Char)
  | ']' :: rest => some ([v], rest)
  | ',' :: rest => (readItems item fuel rest).bind fun (vs, rest) => some (v :: vs, rest)
  | _ => none

/-- A value is one more item, and what stands behind it tells whether it is the last one. -/
theorem readItems_item {item : List Char → Option (Value × List Char)} {fuel : Nat} {c : Char}
    {s behind : List Char} {v : Value} (hSkip : skipFiller false (c :: s) = some (c :: s))
    (hOpen : c ≠ ']') (hItem : item (c :: s) = some (v, behind))
    (hBehind : skipFiller false behind = some behind) :
    readItems item (fuel + 1) (c :: s) = readBehind item fuel v behind := by
  rw [readItems, hSkip]
  simp only [Option.bind_eq_bind, Option.bind_some]
  split
  · rename_i hClosed
    exact absurd (List.cons.inj hClosed).1 hOpen
  · rw [hItem]
    simp only [Option.bind_some, hBehind]
    rfl

/-- Breaks and blanks in front of an item do not count. -/
theorem readItems_filler {item : List Char → Option (Value × List Char)} {c : Char}
    (hFiller : c = '\n' ∨ c = ' ') (fuel : Nat) (s : List Char) :
    readItems item fuel (c :: s) = readItems item fuel s := by
  have hSkip : skipFiller false (c :: s) = skipFiller false s := by
    rcases hFiller with rfl | rfl <;> rfl
  cases fuel with
  | zero => rfl
  | succ fuel => rw [readItems, readItems, hSkip]

theorem exists_written_item (s : List Char) : ∃ c rest, writeText s = c :: rest ∧ c ≠ ']' ∧
    ∀ rest, skipFiller false (c :: rest) = some (c :: rest) := by
  obtain ⟨q, more, hStart, hQuote⟩ := exists_writeText_eq_cons s
  refine ⟨q, more, hStart, ?_⟩
  rcases hQuote with rfl | rfl
  · exact ⟨by decide, skipFiller_of_start (by decide) (by decide) rfl⟩
  · exact ⟨by decide, skipFiller_of_start (by decide) (by decide) rfl⟩

/-- An item of a list of several, on a line of its own. -/
def writeItem (s : List Char) : List Char := "    ".toList ++ writeText s ++ ",\n".toList

/-- Items on lines of their own are read up to the bracket behind the last one. -/
theorem readItems_lines (depth : Nat) (texts : List (List Char)) (rest : List Char) {fuel : Nat}
    (hFuel : texts.length < fuel) :
    readItems (readValue depth) fuel ('\n' :: (texts.flatMap writeItem ++ ']' :: rest)) =
      some (texts.map fun s => .text (String.ofList s), rest) := by
  induction texts generalizing fuel with
  | nil =>
    obtain ⟨fuel, rfl⟩ := Nat.exists_eq_add_one_of_ne_zero (Nat.ne_zero_of_lt hFuel)
    rfl
  | cons s texts ih =>
    obtain ⟨fuel, rfl⟩ := Nat.exists_eq_add_one_of_ne_zero (Nat.ne_zero_of_lt hFuel)
    have hRest := ih (Nat.lt_of_succ_lt_succ hFuel)
    obtain ⟨c, more, hStart, hOpen, hSkip⟩ := exists_written_item s
    -- an item ends with its comma; the break and the blanks in front are filler
    have hItem := readValue_text depth s
      (closes_cons ',' ('\n' :: (texts.flatMap writeItem ++ ']' :: rest)) (by decide))
    have hWritten : writeItem s ++ (texts.flatMap writeItem ++ ']' :: rest) =
        ' ' :: ' ' :: ' ' :: ' ' ::
          (writeText s ++ ',' :: '\n' :: (texts.flatMap writeItem ++ ']' :: rest)) := by
      rw [writeItem, List.append_assoc, List.append_assoc]
      rfl
    rw [hStart, List.cons_append] at hItem hWritten
    rw [List.flatMap_cons, List.append_assoc, hWritten, readItems_filler (.inl rfl),
      readItems_filler (.inr rfl), readItems_filler (.inr rfl), readItems_filler (.inr rfl),
      readItems_filler (.inr rfl), readItems_item (hSkip _) hOpen hItem rfl, readBehind, hRest]
    rfl

theorem readValue_list {depth : Nat} {s rest : List Char} {items : List Value}
    (h : readItems (readValue depth) (s.length + 1) s = some (items, rest)) :
    readValue (depth + 1) ('[' :: s) = some (.list items, rest) := by
  rw [readValue, h]
  rfl

theorem length_le_flatMap_writeItem (texts : List (List Char)) :
    texts.length ≤ (texts.flatMap writeItem).length := by
  induction texts with
  | nil => exact Nat.le_refl 0
  | cons s texts ih =>
    have hItem : 1 ≤ (writeItem s).length := by
      rw [writeItem, List.append_assoc, List.length_append]
      exact Nat.le_add_right_of_le (by decide)
    rw [List.flatMap_cons, List.length_append, List.length_cons]
    omega

theorem writeList_of_two (s t : List Char) (texts : List (List Char)) :
    writeList ((s :: t :: texts).map writeText) =
      '[' :: '\n' :: ((s :: t :: texts).flatMap writeItem ++ [']']) := by
  have hItems : ((s :: t :: texts).map writeText).flatMap
      (fun item => "    ".toList ++ item ++ ",\n".toList) = (s :: t :: texts).flatMap writeItem :=
    List.flatMap_map writeText _ _
  exact congrArg (fun items => '[' :: '\n' :: (items ++ [']'])) hItems

theorem settled_texts (texts : List (List Char)) :
    Settled (.list (texts.map fun s => .text (String.ofList s))) := by
  have hItems : settleItems (texts.map fun s => .text (String.ofList s)) =
      some (texts.map fun s => .text (String.ofList s)) := by
    induction texts with
    | nil => rfl
    | cons s texts ih =>
      rw [List.map_cons, settleItems, ih]
      rfl
  rw [Settled, settle, hItems]
  rfl

theorem writes_texts (texts : List (List Char)) : Writes (writeList (texts.map writeText))
    (.list (texts.map fun s => .text (String.ofList s))) where
  start := by
    match texts with
    | [] | [_] | _ :: _ :: _ => exact ⟨'[', _, rfl, rfl⟩
  reads depth rest _ := by
    match texts with
    | [] => rfl
    -- one item stands on the line of the brackets
    | [s] =>
      obtain ⟨c, more, hStart, hOpen, hSkip⟩ := exists_written_item s
      have hItem := readValue_text depth s (closes_cons ']' rest (by decide))
      have hWritten : writeList [writeText s] ++ rest = '[' :: (writeText s ++ ']' :: rest) := by
        simp [writeList]
      rw [hStart, List.cons_append] at hItem hWritten
      rw [List.map_singleton, hStart, hWritten]
      exact readValue_list (readItems_item (hSkip _) hOpen hItem rfl)
    | s :: t :: texts =>
      have hWritten : writeList ((s :: t :: texts).map writeText) ++ rest =
          '[' :: '\n' :: ((s :: t :: texts).flatMap writeItem ++ ']' :: rest) := by
        rw [writeList_of_two, List.cons_append, List.cons_append, List.append_assoc,
          List.singleton_append]
      have hLength := length_le_flatMap_writeItem (s :: t :: texts)
      rw [hWritten]
      refine readValue_list (readItems_lines depth (s :: t :: texts) rest ?_)
      simp only [List.length_cons, List.length_append] at hLength ⊢
      omega
  unbroken := by
    match texts with
    | [] => decide
    | [s] => simp [writeList, return_notMem_writeText]
    | s :: t :: texts => simp [writeList, return_notMem_writeText]
  settled := settled_texts texts

end PropertySets.Data.Toml
