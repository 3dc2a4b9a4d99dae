import Mathlib.Data.List.Nodup
import PropertySets.Naming.Identifier
import PropertySets.Naming.Routine
import PropertySets.Naming.Tokens

/-!
# Names of routines

Different sets are given different stems, and the stem that a set name of ASCII characters is given
is made of word characters. So no routine is taken for another, and the names made from the stems
are identifiers.

* `isWord_snakeCase` — the snake case of an ASCII name.
* `NameTable.Apart`, `NameTable.apart_assign` — what holds of the names after any list of sets.
* `NameTable.Sound`, `NameTable.sound_assign` — what holds besides if the sets have ASCII names.
* `NameTable.exists_find?`, `NameTable.Apart.name_eq` — every set has names of its own.
* `isIdentifier_versionModule` — the module of a version tag.
-/

namespace PropertySets.Naming

open Text

/-! ## Word characters -/

/-- Only word characters. -/
def IsWord (s : String) : Prop := s.toList.all isWordChar = true

theorem IsWord.append {s t : String} (hs : IsWord s) (ht : IsWord t) : IsWord (s ++ t) := by
  rw [IsWord, String.toList_append, List.all_append, Bool.and_eq_true]
  exact ⟨hs, ht⟩

/-- There are only so many ASCII characters. -/
theorem forall_of_ascii {P : Char → Prop} (h : ∀ n < 128, P (Char.ofNat n)) {c : Char}
    (hAscii : c.toNat < 128) : P c := by
  have hChar := h c.toNat hAscii
  rwa [Char.ofNat_toNat] at hChar

/-- A code point behind that of a character is another character, if it is one at all. -/
theorem ofNat_ne {c : Char} {n : Nat} (hSome : c ≠ '\x00') (h : c.toNat < n) :
    Char.ofNat n ≠ c := by
  intro hSame
  by_cases hValid : n.isValidChar
  · have hCode := congrArg Char.toNat hSame
    rw [Char.ofNat, dif_pos hValid] at hCode
    change n = c.toNat at hCode
    omega
  · -- what is no code point stands for the character of code zero
    rw [Char.ofNat, dif_neg hValid] at hSame
    exact hSome hSame.symm

theorem isAlphanum_toLower {c : Char} (h : c.isAlphanum = true) : c.toLower.isAlphanum = true :=
  forall_of_ascii (P := fun c => c.isAlphanum = true → c.toLower.isAlphanum = true) (by decide)
    (toNat_lt_of_isAlphanum h) h

/-- An identifier that starts with a letter or an underscore. -/
theorem isIdentifier_append {start s : String} (hStart : isIdentifier start = true)
    (h : IsWord s) : isIdentifier (start ++ s) = true := by
  rw [isIdentifier] at hStart ⊢
  rw [String.toList_append]
  cases hChars : start.toList with
  | nil => rw [hChars] at hStart; cases hStart
  | cons c rest =>
    rw [hChars, isIdentifierChars, Bool.and_eq_true] at hStart
    rw [List.cons_append, isIdentifierChars, List.all_append, Bool.and_eq_true, Bool.and_eq_true]
    exact ⟨hStart.1, hStart.2, h⟩

/-! ## Snake case -/

/-- Only ASCII characters. -/
def IsAscii (s : String) : Prop := ∀ c ∈ s.toList, c.toNat < 128

instance (s : String) : Decidable (IsAscii s) :=
  List.decidableBAll (fun c : Char => c.toNat < 128) s.toList

/-- A separator is a word character. -/
theorem all_isWordChar_separated {out : List Char} (h : out.all isWordChar = true) (start : Bool) :
    (if start then '_' :: out else out).all isWordChar = true := by
  cases start with
  | false => exact h
  | true => exact (List.all_cons ..).trans ((Bool.true_and _).trans h)

theorem all_isWordChar_snakeFrom {before : Option Char} {out s : List Char}
    (hOut : out.all isWordChar = true) (hAscii : ∀ c ∈ s, c.toNat < 128) :
    (snakeFrom before out s).all isWordChar = true := by
  -- `out` is what has been written so far, and stays in the result
  induction s generalizing before out with
  | nil => exact hOut
  | cons c rest ih =>
    have hRest : ∀ d ∈ rest, d.toNat < 128 := fun d hMem => hAscii d (List.mem_cons_of_mem _ hMem)
    have hSmall := hAscii c List.mem_cons_self
    rw [snakeFrom]
    split
    · rename_i hAlphanumeric
      rw [isAlphanumeric_of_ascii hSmall] at hAlphanumeric
      have hLower : isWordChar c.toLower = true := by
        rw [isWordChar, isAlphanum_toLower hAlphanumeric, Bool.true_or]
      refine ih ?_ hRest
      rw [lowerChar_of_ascii hSmall, List.reverse_singleton, List.singleton_append, List.all_cons,
        hLower, Bool.true_and]
      exact all_isWordChar_separated hOut _
    · exact ih (all_isWordChar_separated hOut _) hRest

theorem isWord_snakeCase {s : String} (h : IsAscii s) : IsWord (snakeCase s) := by
  have hSnake : (snakeFrom none [] s.toList).all isWordChar = true :=
    all_isWordChar_snakeFrom rfl h
  have hTrimmed : ((snakeFrom none [] s.toList).dropWhile (· == '_')).reverse.all isWordChar =
      true := by
    rw [List.all_reverse, List.all_eq_true]
    exact fun c hMem => List.all_eq_true.1 hSnake c (List.dropWhile_sublist _ |>.subset hMem)
  rw [IsWord, snakeCase, String.toList_ofList]
  -- an underscore may be put in front, and nothing becomes a word of its own
  unfold guardDigit
  split
  · split
    · exact (List.all_cons ..).trans ((Bool.true_and _).trans hTrimmed)
    · exact hTrimmed
  · rfl

/-! ## Stems -/

theorem isWord_baseStem {setName : String} (h : IsAscii setName) : IsWord (baseStem setName) := by
  refine isWord_snakeCase fun c hMem => h c ?_
  rw [String.toList_ofList] at hMem
  cases hStart : stripStart? "Pset_".toList setName.toList with
  | none => rwa [hStart] at hMem
  | some rest =>
    rw [hStart] at hMem
    rw [stripStart?_eq_some_iff.1 hStart]
    exact List.mem_append_right _ hMem

theorem isWord_numbered {base : String} (h : IsWord base) (n : Nat) : IsWord (numbered base n) := by
  refine (h.append (t := "_") rfl).append ?_
  rw [IsWord, Nat.toString_eq_repr, Nat.toList_repr, List.all_eq_true]
  intro c hMem
  have hDigit : c.isDigit = true := Nat.isDigit_of_mem_toDigits (by decide) (by decide) hMem
  rw [isWordChar, Char.isAlphanum, hDigit, Bool.or_true, Bool.true_or]

theorem isWord_freeStem (used : List String) {base : String} (h : IsWord base) :
    IsWord (freeStem used base) := by
  rw [freeStem]
  split
  · exact isWord_numbered h _
  · exact h

/-! ## Tables -/

theorem SetNames.eq_of_routine_eq {stem stem' : String}
    (h : (ofStem stem).routine = (ofStem stem').routine) : stem = stem' :=
  (String.append_right_inj _).1 h

/-- The routine that calls all others is named otherwise than those of sets. -/
theorem SetNames.routine_ne_main (stem : String) :
    (ofStem stem).routine ≠ "init_common_property_sets" := by
  intro hSame
  have hStart : "init_pset_".toList <+: "init_common_property_sets".toList := by
    rw [← hSame, ofStem, String.toList_append]
    exact List.prefix_append _ _
  exact absurd hStart (by decide)

namespace NameTable

/-- The names in a table are made from stems that are in use, and no two sets share a routine. -/
structure Apart (t : NameTable) : Prop where
  stems : ∀ entry ∈ t.entries, ∃ stem ∈ t.stems, entry.2 = .ofStem stem
  distinct : (t.entries.map (·.2.routine)).Nodup

theorem apart_empty : empty.Apart := ⟨nofun, List.nodup_nil⟩

theorem Apart.add {t : NameTable} (h : t.Apart) (setName : String) : (t.add setName).Apart := by
  let stem : String := freeStem t.stems (baseStem setName)
  have hFree : stem ∉ t.stems := freeStem_notMem _ _
  refine ⟨fun entry hMem => ?_, List.nodup_cons.2 ⟨fun hMem => ?_, h.distinct⟩⟩
  · rcases List.mem_cons.1 hMem with rfl | hMem
    · exact ⟨stem, List.mem_cons_self, rfl⟩
    · obtain ⟨stem', hUsed, hNames⟩ := h.stems entry hMem
      exact ⟨stem', List.mem_cons_of_mem _ hUsed, hNames⟩
  · -- a routine that is taken would have a stem in use, and the new stem is not
    obtain ⟨entry, hMem, hSame⟩ := List.mem_map.1 hMem
    obtain ⟨stem', hUsed, hNames⟩ := h.stems entry hMem
    rw [hNames] at hSame
    have hStem : stem = stem' := SetNames.eq_of_routine_eq hSame.symm
    exact hFree (hStem ▸ hUsed)

/-- Whatever the sets are called, their names are apart. -/
theorem apart_assign (setNames : List String) : (assign setNames).Apart :=
  List.foldlRecOn setNames NameTable.add apart_empty fun _ h n _ => h.add n

/-- The names in a table are made from words that are in use, and no two sets share a routine. -/
structure Sound (t : NameTable) : Prop where
  stems : ∀ entry ∈ t.entries, ∃ stem ∈ t.stems, entry.2 = .ofStem stem ∧ IsWord stem
  distinct : (t.entries.map (·.2.routine)).Nodup

theorem sound_empty : empty.Sound := ⟨nofun, List.nodup_nil⟩

theorem Sound.apart {t : NameTable} (h : t.Sound) : t.Apart := by
  refine ⟨fun entry hMem => ?_, h.distinct⟩
  obtain ⟨stem, hUsed, hNames, -⟩ := h.stems entry hMem
  exact ⟨stem, hUsed, hNames⟩

theorem Sound.add {t : NameTable} (h : t.Sound) {setName : String} (hAscii : IsAscii setName) :
    (t.add setName).Sound := by
  refine ⟨fun entry hMem => ?_, (h.apart.add setName).distinct⟩
  rcases List.mem_cons.1 hMem with rfl | hMem
  · exact ⟨_, List.mem_cons_self, rfl, isWord_freeStem _ (isWord_baseStem hAscii)⟩
  · obtain ⟨stem, hUsed, hNames⟩ := h.stems entry hMem
    exact ⟨stem, List.mem_cons_of_mem _ hUsed, hNames⟩

theorem sound_assign {setNames : List String} (h : ∀ n ∈ setNames, IsAscii n) :
    (assign setNames).Sound :=
  List.foldlRecOn setNames NameTable.add sound_empty fun _ hSound n hMem => hSound.add (h n hMem)

theorem mem_of_find? {t : NameTable} {n : String} {names : SetNames} (h : t.find? n = some names) :
    (n, names) ∈ t.entries := by
  obtain ⟨before, after, hEntries, -⟩ := List.lookup_eq_some_iff.1 h
  rw [hEntries]
  exact List.mem_append_right _ List.mem_cons_self

theorem mem_keys_foldl {setNames : List String} {n : String} {t : NameTable}
    (h : n ∈ setNames ∨ n ∈ t.entries.map (·.1)) :
    n ∈ (setNames.foldl NameTable.add t).entries.map (·.1) := by
  induction setNames generalizing t with
  | nil => exact h.resolve_left List.not_mem_nil
  | cons m rest ih =>
    refine ih ?_
    rcases h with hMem | hMem
    · rcases List.mem_cons.1 hMem with rfl | hMem
      · exact .inr List.mem_cons_self
      · exact .inl hMem
    · exact .inr (List.mem_cons_of_mem _ hMem)

/-- Every set of the list has names. -/
theorem exists_find? {setNames : List String} {n : String} (h : n ∈ setNames) :
    ∃ names, (assign setNames).find? n = some names := by
  obtain ⟨entry, hMem, rfl⟩ := List.mem_map.1 (mem_keys_foldl (t := empty) (.inl h))
  exact Option.isSome_iff_exists.1 (List.lookup_isSome_iff.2 ⟨entry, hMem, beq_self_eq_true _⟩)

/-- Different sets have different routines. -/
theorem Apart.name_eq {t : NameTable} (h : t.Apart) {n n' : String} {names names' : SetNames}
    (hFound : t.find? n = some names) (hFound' : t.find? n' = some names')
    (hRoutine : names.routine = names'.routine) : n = n' :=
  congrArg Prod.fst (List.inj_on_of_nodup_map h.distinct (mem_of_find? hFound)
    (mem_of_find? hFound') hRoutine)

end NameTable

/-! ## Modules of version tags -/

/-- The module of a version tag is an identifier, whatever the tag is. -/
theorem isIdentifier_versionModule (tag : String) : isIdentifier (versionModule tag) = true := by
  have hWord : (tag.toList.map fun c => if c.isAlphanum then c.toLower else '_').all isWordChar =
      true := by
    rw [List.all_map, List.all_eq_true]
    intro c _
    by_cases hAlphanumeric : c.isAlphanum = true
    · simp [isWordChar, hAlphanumeric, isAlphanum_toLower hAlphanumeric]
    · simp [hAlphanumeric, isWordChar]
  rw [versionModule]
  cases hChars : tag.toList.map fun c => if c.isAlphanum then c.toLower else '_' with
  | nil => rfl
  | cons c rest =>
    rw [hChars] at hWord
    rw [List.all_cons, Bool.and_eq_true] at hWord
    dsimp only
    split
    · rw [isIdentifier, String.toList_ofList, isIdentifierChars, List.all_cons, hWord.1, hWord.2]
      rfl
    · -- a word character that is no digit can start an identifier
      rename_i hDigit
      have hStart : (c.isAlpha || c == '_') = true := by
        have hChar := hWord.1
        rw [isWordChar, Char.isAlphanum, Bool.eq_false_iff.2 hDigit, Bool.or_false] at hChar
        exact hChar
      rw [isIdentifier, String.toList_ofList, isIdentifierChars, hStart, hWord.2]
      rfl

end PropertySets.Naming
