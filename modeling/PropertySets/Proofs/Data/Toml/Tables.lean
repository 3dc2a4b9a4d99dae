import PropertySets.Proofs.Data.Toml.Values

/-!
# Reading written TOML tables

A document of tables with bare keys, as it is written, is read as these tables. Each line of it
reads by itself and leaves the lines behind it. What the lines say is then put together: as no key
comes twice, every entry and every section only adds to what is there.

* `Entry`, `Table` — what is written: keys that need no quotes, no key twice, and written values.
* `ReadsLines` — texts that lines are read from.
* `read?_writeTables` — a document of tables, and what it is read as.
-/

namespace PropertySets.Data.Toml

/-! ## Keys -/

/-- A key that needs no quotes. -/
def Bare (key : String) : Prop := key.toList ≠ [] ∧ key.toList.all isBareChar = true

instance (key : String) : Decidable (Bare key) := inferInstanceAs (Decidable (_ ∧ _))

theorem Bare.chars {key : String} (h : Bare key) :
    ∀ c ∈ key.toList, isBareChar c = true :=
  List.all_eq_true.1 h.2

theorem ne_of_isBareChar {c d : Char} (h : isBareChar c = true) (hOther : isBareChar d = false) :
    c ≠ d := by
  rintro rfl
  rw [h] at hOther
  cases hOther

theorem isBlank_of_isBareChar {c : Char} (h : isBareChar c = true) : isBlank c = false := by
  have hSpace : c ≠ ' ' := ne_of_isBareChar h (by decide)
  have hTab : c ≠ '\t' := ne_of_isBareChar h (by decide)
  simp [isBlank, hSpace, hTab]

section

variable {key : String} {d : Char} {rest : List Char}

theorem Bare.exists_cons (h : Bare key) :
    ∃ c more, key.toList = c :: more ∧ isBareChar c = true := by
  obtain ⟨c, more, hKey⟩ := List.exists_cons_of_ne_nil h.1
  exact ⟨c, more, hKey, h.chars c (hKey ▸ List.mem_cons_self)⟩

theorem Bare.skipFiller (h : Bare key) (rest : List Char) :
    Toml.skipFiller false (key.toList ++ rest) = some (key.toList ++ rest) := by
  obtain ⟨c, more, hKey, hBare⟩ := h.exists_cons
  rw [hKey, List.cons_append]
  exact skipFiller_of_start (ne_of_isBareChar hBare (by decide))
    (ne_of_isBareChar hBare (by decide)) (isBlank_of_isBareChar hBare) _

/-- A bare key is read up to what is not a part of one. -/
theorem readKey_bare (hKey : Bare key) (hEnd : isBareChar d = false) :
    readKey (key.toList ++ d :: rest) = some (key, d :: rest) := by
  have hTake : (key.toList ++ d :: rest).takeWhile isBareChar = key.toList := by
    rw [List.takeWhile_append_of_pos hKey.chars, List.takeWhile_cons_of_neg (by simp [hEnd]),
      List.append_nil]
  have hDrop : (key.toList ++ d :: rest).drop key.toList.length = d :: rest := List.drop_left
  obtain ⟨c, more, hCons, hBare⟩ := hKey.exists_cons
  have hQuote : ¬ (c = '"' ∨ c = '\'') :=
    not_or.2 ⟨ne_of_isBareChar hBare (by decide), ne_of_isBareChar hBare (by decide)⟩
  unfold readKey
  -- a bare key is not empty, and does not start with a quote
  split
  · rename_i hNil
    exact absurd (List.append_eq_nil_iff.1 hNil).1 hKey.1
  · rename_i c' more' hSame
    rw [hCons, List.cons_append] at hSame
    obtain ⟨rfl, -⟩ := List.cons.inj hSame
    rw [if_neg hQuote, hTake]
    dsimp only
    rw [hDrop, String.ofList_toList, hCons]
    rfl

/-- A bare key is read as the only one if no point comes next. -/
theorem readKeys_bare (hKey : Bare key) (hEnd : isBareChar d = false) {c : Char}
    {behind : List Char} (hBehind : (d :: rest).dropWhile isBlank = c :: behind) (hDot : c ≠ '.') :
    readKeys (key.toList ++ d :: rest) = some ([key], c :: behind) := by
  -- no blank stands before a bare key
  have hStart : (key.toList ++ d :: rest).dropWhile isBlank = key.toList ++ d :: rest := by
    obtain ⟨c, more, hCons, hBare⟩ := hKey.exists_cons
    rw [hCons, List.cons_append, List.dropWhile_cons_of_neg (by simp [isBlank_of_isBareChar hBare])]
  -- the first key is the last one, so one unit of fuel is enough
  have hFrom : ∀ fuel, readKeysFrom (fuel + 1) (key.toList ++ d :: rest) =
      some ([key], c :: behind) := by
    intro fuel
    rw [readKeysFrom, hStart, readKey_bare hKey hEnd]
    simp only [Option.bind_eq_bind, Option.bind_some, hBehind]
    split
    · rename_i hPoint
      exact absurd (List.cons.inj hPoint).1 hDot
    · rfl
  rw [readKeys, hFrom]
  rfl

end

/-! ## Lines -/

/-- The text of a line: the line is read from it, whatever stands behind it. -/
def ReadsLine (w : List Char) (line : Line) : Prop :=
  ∀ rest, ∃ s, skipFiller false (w ++ rest) = some s ∧ s ≠ [] ∧ readContent s = some (line, rest)

theorem readsLine_heading {key : String} (hKey : Bare key) :
    ReadsLine (writeHeading key) (.heading (.table [key])) := by
  intro rest
  have hWritten : writeHeading key ++ rest = '[' :: (key.toList ++ ']' :: '\n' :: rest) := by
    rw [writeHeading, List.cons_append, List.cons_append, List.append_assoc]
    rfl
  have hKeys : readKeys (key.toList ++ ']' :: '\n' :: rest) = some ([key], ']' :: '\n' :: rest) :=
    readKeys_bare hKey rfl rfl (by decide)
  refine ⟨_, ?_, List.cons_ne_nil '[' (key.toList ++ ']' :: '\n' :: rest), ?_⟩
  · rw [hWritten]
    exact skipFiller_of_start (by decide) (by decide) rfl _
  · obtain ⟨c, more, hCons, hBare⟩ := hKey.exists_cons
    have hHeading : readHeading (key.toList ++ ']' :: '\n' :: rest) =
        some (.table [key], '\n' :: rest) := by
      -- a second bracket would open an array of tables
      unfold readHeading
      split
      · rename_i hBracket
        rw [hCons, List.cons_append] at hBracket
        exact absurd (List.cons.inj hBracket).1 (ne_of_isBareChar hBare (by decide))
      · rw [hKeys]
        rfl
    rw [readContent, hHeading]
    rfl

theorem readsLine_entry {key : String} (hKey : Bare key) {w : List Char} {v : Value}
    (hValue : Writes w v) : ReadsLine (writeEntry key w) (.entry [key] v) := by
  intro rest
  have hWritten : writeEntry key w ++ rest =
      key.toList ++ ' ' :: '=' :: ' ' :: (w ++ '\n' :: rest) := by
    simp [writeEntry]
  have hKeys : readKeys (key.toList ++ ' ' :: '=' :: ' ' :: (w ++ '\n' :: rest)) =
      some ([key], '=' :: ' ' :: (w ++ '\n' :: rest)) :=
    readKeys_bare hKey rfl rfl (by decide)
  -- one blank stands before the value, and none at its start
  have hStart : (' ' :: (w ++ '\n' :: rest)).dropWhile isBlank = w ++ '\n' :: rest := by
    obtain ⟨c, more, rfl, hBlank⟩ := hValue.start
    rw [List.dropWhile_cons_of_pos rfl, List.cons_append,
      List.dropWhile_cons_of_neg (by simp [hBlank])]
  have hRead : readValue (depthLimit - 1) (w ++ '\n' :: rest) = some (v, '\n' :: rest) :=
    hValue.reads 78 _ (closes_cons '\n' rest (by decide))
  have hEntry : readEntry (key.toList ++ ' ' :: '=' :: ' ' :: (w ++ '\n' :: rest)) =
      some (([key], v), '\n' :: rest) := by
    rw [readEntry, readEntryWith, hKeys]
    simp only [Option.bind_eq_bind, Option.bind_some, skip, if_true, hStart]
    rw [hRead]
    rfl
  obtain ⟨c, more, hCons, hBare⟩ := hKey.exists_cons
  refine ⟨key.toList ++ ' ' :: '=' :: ' ' :: (w ++ '\n' :: rest), ?_, by simp, ?_⟩
  · rw [hWritten]
    exact hKey.skipFiller _
  unfold readContent
  -- an entry starts with its key, so the line is no heading
  split
  · rename_i hBracket
    rw [hCons, List.cons_append] at hBracket
    exact absurd (List.cons.inj hBracket).1 (ne_of_isBareChar hBare (by decide))
  · rw [hEntry]
    rfl

/-- A blank line in front of a line does not count. -/
theorem ReadsLine.behind_blank {w : List Char} {line : Line} (h : ReadsLine w line) :
    ReadsLine ('\n' :: w) line := by
  intro rest
  obtain ⟨s, hSkip, hContent⟩ := h rest
  exact ⟨s, hSkip, hContent⟩

/-- The texts of lines, one behind the other. -/
inductive ReadsLines : List Char → List Line → Prop
  | nil : ReadsLines [] []
  | cons {w rest : List Char} {line : Line} {lines : List Line} (hLine : ReadsLine w line)
      (hRest : ReadsLines rest lines) : ReadsLines (w ++ rest) (line :: lines)

theorem ReadsLines.behind_blank {w : List Char} {line : Line} {lines : List Line}
    (h : ReadsLines w (line :: lines)) : ReadsLines ('\n' :: w) (line :: lines) := by
  cases h with
  | cons hLine hRest => exact .cons hLine.behind_blank hRest

theorem ReadsLines.append {w w' : List Char} {lines lines' : List Line} (h : ReadsLines w lines)
    (h' : ReadsLines w' lines') : ReadsLines (w ++ w') (lines ++ lines') := by
  induction h with
  | nil => exact h'
  | cons hLine _ ih =>
    rw [List.append_assoc]
    exact .cons hLine ih

theorem ReadsLines.readLinesFrom {w : List Char} {lines : List Line} (h : ReadsLines w lines)
    {fuel : Nat} (hFuel : lines.length < fuel) :
    Toml.readLinesFrom fuel w = some lines := by
  induction h generalizing fuel with
  | nil =>
    obtain ⟨fuel, rfl⟩ := Nat.exists_eq_add_one_of_ne_zero (Nat.ne_zero_of_lt hFuel)
    rfl
  | @cons w rest line lines hLine _ ih =>
    obtain ⟨fuel, rfl⟩ := Nat.exists_eq_add_one_of_ne_zero (Nat.ne_zero_of_lt hFuel)
    obtain ⟨s, hSkip, hSome, hContent⟩ := hLine rest
    obtain ⟨c, s, rfl⟩ := List.exists_cons_of_ne_nil hSome
    rw [Toml.readLinesFrom, hSkip]
    simp only [Option.bind_eq_bind, Option.bind_some, hContent,
      ih (Nat.lt_of_succ_lt_succ hFuel)]
    rfl

theorem ReadsLines.length_le {w : List Char} {lines : List Line} (h : ReadsLines w lines) :
    lines.length ≤ w.length := by
  induction h with
  | nil => exact Nat.le_refl 0
  | @cons w rest line lines hLine _ ih =>
    have hSome : w ≠ [] := by
      rintro rfl
      obtain ⟨s, hSkip, hSome, -⟩ := hLine []
      exact hSome (Option.some.inj hSkip).symm
    have hLength := List.length_pos_iff.2 hSome
    rw [List.length_append, List.length_cons]
    omega

theorem ReadsLines.readLines? {w : List Char} {lines : List Line} (h : ReadsLines w lines) :
    Toml.readLines? w = some lines :=
  h.readLinesFrom (Nat.lt_succ_of_le h.length_le)

/-! ## Tables -/

/-- An entry: its key, and the written text of its value. -/
structure Entry where
  key : String
  text : List Char
  value : Value
  bare : Bare key
  writes : Writes text value

/-- A table: its key, and its entries, no two with the same key. -/
structure Table where
  key : String
  entries : List Entry
  bare : Bare key
  distinct : (entries.map Entry.key).Nodup

namespace Table

/-- The value of a table. -/
def value (t : Table) : Value := .table (t.entries.map fun e => (e.key, e.value))

/-- The text of a table. -/
def write (t : Table) : List Char :=
  writeHeading t.key ++ t.entries.flatMap fun e => writeEntry e.key e.text

/-- The lines of a table. -/
def lines (t : Table) : List Line :=
  .heading (.table [t.key]) :: t.entries.map fun e => .entry [e.key] e.value

end Table

/-- The text of tables, a blank line between them. -/
def writeTables : List Table → List Char
  | [] => []
  | [t] => t.write
  | t :: rest => t.write ++ '\n' :: writeTables rest

theorem writeTables_cons (t t' : Table) (rest : List Table) :
    writeTables (t :: t' :: rest) = t.write ++ '\n' :: writeTables (t' :: rest) := rfl

theorem readsLines_entries (entries : List Entry) :
    ReadsLines (entries.flatMap fun e => writeEntry e.key e.text)
      (entries.map fun e => .entry [e.key] e.value) := by
  induction entries with
  | nil => exact .nil
  | cons e entries ih => exact .cons (readsLine_entry e.bare e.writes) ih

theorem Table.readsLines (t : Table) : ReadsLines t.write t.lines :=
  .cons (readsLine_heading t.bare) (readsLines_entries t.entries)

theorem readsLines_writeTables (tables : List Table) :
    ReadsLines (writeTables tables) (tables.flatMap Table.lines) := by
  induction tables with
  | nil => exact .nil
  | cons t tables ih =>
    rw [List.flatMap_cons]
    cases tables with
    | nil =>
      rw [writeTables, List.flatMap_nil, List.append_nil]
      exact t.readsLines
    | cons t' tables =>
      rw [writeTables_cons]
      rw [List.flatMap_cons, Table.lines, List.cons_append] at ih ⊢
      exact t.readsLines.append ih.behind_blank

/-! ## What the lines say -/

/-- The entry as it counts in a section. -/
def Entry.assignment (e : Entry) : List String × Value := ([e.key], e.value)

/-- The section of a table. -/
def Table.toSection (t : Table) : Section := ⟨.table [t.key], t.entries.map Entry.assignment⟩

theorem sectionsOf_entries (entries : List Entry) (lines : List Line) :
    sectionsOf (entries.map (fun e => .entry [e.key] e.value) ++ lines) =
      (entries.map Entry.assignment ++ (sectionsOf lines).1, (sectionsOf lines).2) := by
  induction entries with
  | nil => rfl
  | cons e entries ih =>
    rw [List.map_cons, List.cons_append, sectionsOf, ih]
    rfl

theorem sectionsOf_tables (tables : List Table) :
    sectionsOf (tables.flatMap Table.lines) = ([], tables.map Table.toSection) := by
  induction tables with
  | nil => rfl
  | cons t tables ih =>
    rw [List.flatMap_cons, Table.lines, List.cons_append, sectionsOf, sectionsOf_entries, ih,
      List.append_nil]
    rfl

/-- Steps that add a field each, under a key that is not there, add all fields. -/
theorem foldlM_add {α β : Type} {step : List (String × β) → α → Option (List (String × β))}
    {key : α → String} {node : α → β} {items : List α} {fields : List (String × β)}
    (hStep : ∀ a ∈ items, ∀ fields, fields.lookup (key a) = none →
      step fields a = some (fields ++ [(key a, node a)]))
    (hNodup : (items.map key).Nodup) (hNew : ∀ a ∈ items, fields.lookup (key a) = none) :
    items.foldlM step fields = some (fields ++ items.map fun a => (key a, node a)) := by
  -- the fields that were added so far are in `fields`, so the keys that follow must differ from
  -- those
  induction items generalizing fields with
  | nil =>
    rw [List.map_nil, List.append_nil]
    rfl
  | cons a items ih =>
    obtain ⟨hHere, hLater⟩ := List.forall_mem_cons.1 hStep
    obtain ⟨hFree, hOthers⟩ := List.forall_mem_cons.1 hNew
    rw [List.map_cons, List.nodup_cons] at hNodup
    have hStill : ∀ b ∈ items, (fields ++ [(key a, node a)]).lookup (key b) = none := by
      intro b hMem
      have hOther : key b ≠ key a := fun hSame => hNodup.1 (hSame ▸ List.mem_map_of_mem hMem)
      rw [List.lookup_append, hOthers b hMem, Option.none_or, lookup_cons_eq, if_neg hOther]
      rfl
    rw [List.foldlM_cons, hHere fields hFree, Option.bind_eq_bind, Option.bind_some,
      ih hLater hNodup.2 hStill, List.append_assoc]
    rfl

theorem insertEntries_table (t : Table) : insertEntries (t.entries.map Entry.assignment) [] =
    some (t.entries.map fun e => (e.key, .value e.value)) := by
  rw [insertEntries, List.foldlM_map]
  refine foldlM_add (fun e _ fields hNew => ?_) t.distinct fun _ _ => rfl
  rw [insertEntry, Entry.assignment, insertAlong, hNew]
  rfl

/-- The node of a table. -/
def Table.node (t : Table) : Node :=
  .table .heading (t.entries.map fun e => (e.key, .value e.value))

theorem insertSection_table (t : Table) {fields : Fields} (hNew : fields.lookup t.key = none) :
    insertSection fields t.toSection = some (fields ++ [(t.key, t.node)]) := by
  have hDefined : defineTable (t.entries.map Entry.assignment) t.key fields =
      some (fields ++ [(t.key, t.node)]) := by
    rw [defineTable, hNew]
    dsimp only
    rw [insertEntries_table]
    rfl
  rw [← hDefined]
  rfl

theorem valuesOf_eq_map (fields : Fields) :
    valuesOf fields = fields.map fun f => (f.1, f.2.toValue) := by
  induction fields with
  | nil => rfl
  | cons f fields ih =>
    rw [valuesOf, ih]
    rfl

theorem Table.toValue_node (t : Table) : t.node.toValue = t.value := by
  rw [Table.node, Node.toValue, valuesOf_eq_map, List.map_map]
  rfl

theorem ofSections?_tables {tables : List Table} (hNodup : (tables.map Table.key).Nodup) :
    ofSections? [] (tables.map Table.toSection) =
      some (.table (tables.map fun t => (t.key, t.value))) := by
  have hSections : (tables.map Table.toSection).foldlM insertSection [] =
      some (tables.map fun t => (t.key, t.node)) := by
    rw [List.foldlM_map]
    exact foldlM_add (fun t _ _ hNew => insertSection_table t hNew) hNodup fun _ _ => rfl
  have hTop : insertEntries [] [] = some [] := rfl
  rw [ofSections?, hTop]
  simp only [Option.bind_eq_bind, Option.bind_some, hSections, valuesOf_eq_map, List.map_map]
  refine congrArg (fun fields => some (Value.table fields)) (List.map_congr_left fun t _ => ?_)
  exact congrArg (Prod.mk t.key) t.toValue_node

/-! ## The whole -/

/-- A bare key is not the reserved one. -/
theorem Bare.ne_momentKey {key : String} (h : Bare key) : key ≠ momentKey := by
  rintro rfl
  exact absurd (h.chars '$' (by decide)) (by decide)

theorem settled_table {fields : List (String × Value)}
    (h : ∀ f ∈ fields, Bare f.1 ∧ Settled f.2) : Settled (.table fields) := by
  have hFields : ∀ fields : List (String × Value), (∀ f ∈ fields, Settled f.2) →
      settleFields fields = some fields := by
    intro fields hAll
    induction fields with
    | nil => rfl
    | cons f fields ih =>
      obtain ⟨hHere, hLater⟩ := List.forall_mem_cons.1 hAll
      rw [settleFields, hHere, ih hLater]
      rfl
  -- the first key decides whether a table stands for a moment
  cases fields with
  | nil => rfl
  | cons f fields =>
    obtain ⟨⟨hBare, hHere⟩, hLater⟩ := List.forall_mem_cons.1 h
    rw [Settled, settle, if_neg hBare.ne_momentKey, hHere,
      hFields fields fun f hMem => (hLater f hMem).2]
    rfl

theorem Table.settled (t : Table) : Settled t.value := by
  refine settled_table fun f hMem => ?_
  obtain ⟨e, -, rfl⟩ := List.mem_map.1 hMem
  exact ⟨e.bare, e.writes.settled⟩

theorem Bare.return_notMem {key : String} (h : Bare key) : '\r' ∉ key.toList :=
  fun hMem => ne_of_isBareChar (h.chars '\r' hMem) rfl rfl

theorem Table.return_notMem (t : Table) : '\r' ∉ t.write := by
  have hEntries : ∀ e ∈ t.entries, '\r' ∉ writeEntry e.key e.text := fun e _ => by
    simp [writeEntry, e.bare.return_notMem, e.writes.unbroken]
  simp only [Table.write, writeHeading, List.mem_append, List.mem_cons, List.mem_flatMap, not_or]
  exact ⟨⟨⟨by decide, t.bare.return_notMem⟩, by decide⟩, fun ⟨e, hMem, hIn⟩ => hEntries e hMem hIn⟩

theorem return_notMem_writeTables (tables : List Table) : '\r' ∉ writeTables tables := by
  induction tables with
  | nil => exact List.not_mem_nil
  | cons t tables ih =>
    cases tables with
    | nil => exact t.return_notMem
    | cons t' tables =>
      rw [writeTables_cons]
      simpa [t.return_notMem] using ih

/-- Without carriage returns there are no breaks to unify. -/
theorem unifyBreaks_of_notMem {s : List Char} (h : '\r' ∉ s) : unifyBreaks s = s := by
  fun_induction unifyBreaks s with
  | case1 => rfl
  | case2 => exact absurd List.mem_cons_self h
  | case3 c rest _ ih => rw [ih fun hMem => h (List.mem_cons_of_mem c hMem)]

theorem head?_writeTables (tables : List Table) : (writeTables tables).head? ≠ some '\ufeff' := by
  match tables with
  | [] => exact nofun
  | [t] => simp [writeTables, Table.write, writeHeading]
  | t :: t' :: tables => simp [writeTables_cons, Table.write, writeHeading]

/-- **Tables.** A document of tables, no two with the same key, is read as these tables. -/
theorem read?_writeTables {tables : List Table} (hNodup : (tables.map Table.key).Nodup) :
    read? (writeTables tables) = some (.table (tables.map fun t => (t.key, t.value))) := by
  have hLines := (readsLines_writeTables tables).readLines?
  have hSettled : Settled (.table (tables.map fun t => (t.key, t.value))) := by
    refine settled_table fun f hMem => ?_
    obtain ⟨t, -, rfl⟩ := List.mem_map.1 hMem
    exact ⟨t.bare, t.settled⟩
  rw [read?, if_neg (head?_writeTables tables)]
  rw [unifyBreaks_of_notMem (return_notMem_writeTables tables), hLines]
  simp only [Option.bind_eq_bind, Option.bind_some, sectionsOf_tables, ofSections?_tables hNodup]
  exact hSettled

end PropertySets.Data.Toml
