import PropertySets.Naming.Identifier
import PropertySets.Proofs.Code.Literals
import PropertySets.Proofs.Code.Reader

/-!
# How texts are read

A text is read part by part: what the reader makes of a text depends on the rest only through the
state in which it leaves the reader. Fixed parts are read by computation; here is how the parts are
read that come from a model.

* `Reads`, `Reads.append` — reading a part.
* `reads_name`, `Reads.afterName` — a name is taken when something comes behind it.
* `reads_quote` — a quoted literal denotes the text that was quoted.
* `ReadsAs` — reading the statements of a block.
* `reads_modulePath` — a module path and the `::` behind it.
-/

namespace PropertySets.Code

open Text Text.Quoted

variable {letters : Char → Bool}

/-- Reading `text` takes the reader from `r` to `r'`. -/
def Reads (letters : Char → Bool) (r : Reader) (text : String) (r' : Reader) : Prop :=
  r.read letters text = some r'

namespace Reads

variable {r r' r'' : Reader} {s t : String}

theorem append (h : Reads letters r s r') (h' : Reads letters r' t r'') :
    Reads letters r (s ++ t) r'' := by
  rw [Reads, Reader.read, String.toList_append, List.foldlM_append]
  exact (congrArg (· >>= _) h).trans h'

/-- A fixed text is read character by character. -/
theorem fixed {cs : List Char} (h : cs.foldlM (Reader.step letters) r = some r') :
    Reads letters r (String.ofList cs) r' := by
  rw [Reads, Reader.read, String.toList_ofList]
  exact h

end Reads

/-! ## Names -/

/-- The characters of a word. -/
theorem foldlM_step_word {fs : List Frame} {read cs : List Char}
    (h : cs.all (isNameChar letters) = true) :
    cs.foldlM (Reader.step letters) ⟨.inWord read, fs⟩ =
      some ⟨.inWord (cs.reverse ++ read), fs⟩ := by
  induction cs generalizing read with
  | nil => rfl
  | cons c rest ih =>
    rw [List.all_cons, Bool.and_eq_true] at h
    have hStep : Reader.step letters ⟨.inWord read, fs⟩ c = some ⟨.inWord (c :: read), fs⟩ := by
      simp [Reader.step, Mode.step, h.1]
    rw [List.foldlM_cons, hStep]
    exact (ih h.2).trans (by rw [List.reverse_cons, List.append_assoc]; rfl)

/-- A name between other tokens. -/
theorem reads_name {w : String} (h : IsName letters w) (fs : List Frame) :
    Reads letters ⟨.between, fs⟩ w ⟨.inWord w.toList.reverse, fs⟩ := by
  obtain ⟨hAll, hStart⟩ := h
  rw [Reads, Reader.read]
  cases hChars : w.toList with
  | nil => rw [hChars] at hStart; cases hStart
  | cons c rest =>
    rw [hChars] at hAll hStart
    rw [List.all_cons, Bool.and_eq_true] at hAll
    have hStep : Reader.step letters ⟨.between, fs⟩ c = some ⟨.inWord [c], fs⟩ := by
      have : isNameStart letters c = true := hStart
      simp [Reader.step, Mode.step, startToken?, this]
    rw [List.foldlM_cons, hStep, List.reverse_cons]
    exact foldlM_step_word hAll.2

/-- A name is complete when something comes that it cannot have, which is then read as it would be
between tokens. -/
theorem Reads.afterName {w text : String} {fs fs' : List Frame} {r : Reader}
    (hBoundary : text.toList.head?.any (fun c => !isNameChar letters c) = true)
    (hTake : take fs (.word w) = some fs') (h : Reads letters ⟨.between, fs'⟩ text r) :
    Reads letters ⟨.inWord w.toList.reverse, fs⟩ text r := by
  rw [Reads, Reader.read] at h ⊢
  cases hChars : text.toList with
  | nil => rw [hChars] at hBoundary; cases hBoundary
  | cons c rest =>
    rw [hChars] at hBoundary h
    -- the step that completes the word and the one that starts `text` differ by that word only
    have hOther : isNameChar letters c = false := by simpa using hBoundary
    rw [List.foldlM_cons] at h ⊢
    rw [← h]
    refine congrArg (· >>= _) ?_
    cases hToken : startToken? letters c <;>
      simp [Reader.step, Mode.step, hOther, hToken, hTake]

/-! ## Quoted literals -/

/-- The digits of a code point. -/
theorem foldlM_step_digits {fs : List Frame} {read : List Char} (n : Nat) :
    (Nat.toDigits 16 n).foldlM (Reader.step letters) ⟨.inCode read 0, fs⟩ =
      some ⟨.inCode read n, fs⟩ := by
  -- the scanner does not count them
  refine foldlM_hexDigits (fun _ value => (⟨.inCode read value, fs⟩ : Reader))
    (fun {_ value d} hDigit _ => ?_) n (Nat.le_refl _)
  simp [Reader.step, Mode.step, digitChar_ne hDigit (c := '\x7d') (by decide),
    hexValue?_digitChar hDigit]

/-- The written form of a character in a literal. -/
theorem foldlM_step_escape {fs : List Frame} {read : List Char} (c : Char) :
    (escape c).foldlM (Reader.step letters) ⟨.inText read, fs⟩ =
      some ⟨.inText (c :: read), fs⟩ := by
  -- a character is written in one of three ways, and the reader knows them all
  have hSpelling := isSpelling_escape c
  generalize escape c = cs at hSpelling ⊢
  cases hSpelling with
  | short e hDenotes =>
    -- a short escape is not mistaken for a code
    have hCode : e ≠ 'u' := by
      rintro rfl
      cases hDenotes
    simp [Reader.step, Mode.step, hCode, hDenotes]
  | shown _ hQuote hBackslash => simp [Reader.step, Mode.step, hQuote, hBackslash]
  | code =>
    rw [List.foldlM_append, List.foldlM_append]
    have hOpen : ['\\', 'u', '\x7b'].foldlM (Reader.step letters) ⟨.inText read, fs⟩ =
        some ⟨.inCode read 0, fs⟩ := rfl
    rw [hOpen]
    refine (congrArg (· >>= _) (foldlM_step_digits c.toNat)).trans ?_
    have hValid : c.toNat.isValidChar := c.valid
    simp [Reader.step, Mode.step, hValid]

/-- A quoted literal denotes the text that was quoted. -/
theorem reads_quote (s : String) {fs fs' : List Frame} (hTake : take fs (.text s) = some fs') :
    Reads letters ⟨.between, fs⟩ (quote s) ⟨.between, fs'⟩ := by
  -- inside the quotes, character by character; what was read is kept in reverse
  have hInside : ∀ (cs read : List Char),
      (cs.flatMap escape).foldlM (Reader.step letters) ⟨.inText read, fs⟩ =
        some ⟨.inText (cs.reverse ++ read), fs⟩ := by
    intro cs
    induction cs with
    | nil => intro read; rfl
    | cons c rest ih =>
      intro read
      rw [List.flatMap_cons, List.foldlM_append, foldlM_step_escape, List.reverse_cons,
        List.append_assoc]
      exact ih (c :: read)
  rw [Reads, Reader.read, quote, String.toList_ofList, encode, List.foldlM_cons]
  have hOpen : Reader.step letters ⟨.between, fs⟩ '"' = some ⟨.inText [], fs⟩ := rfl
  rw [hOpen]
  refine (List.foldlM_append ..).trans ((congrArg (· >>= _) (hInside s.toList [])).trans ?_)
  simp [Reader.step, Mode.step, hTake]

/-! ## Module paths -/

theorem IsName.ofIdentifier {s : String} (h : Naming.isIdentifier s = true) :
    IsName letters s := by
  rw [Naming.isIdentifier] at h
  rw [IsName]
  cases hChars : s.toList with
  | nil => rw [hChars] at h; cases h
  | cons c rest =>
    rw [hChars, Naming.isIdentifierChars, Bool.and_eq_true] at h
    obtain ⟨hStart, hRest⟩ := h
    -- a start of an identifier is a letter or an underscore, so it is part of a word and no digit
    have hWord : isWordChar c = true := by
      simp only [isWordChar, Char.isAlphanum, Bool.or_eq_true] at hStart ⊢
      exact hStart.imp_left .inl
    have hDigit : c.isDigit = false := by
      rw [Bool.or_eq_true, beq_iff_eq] at hStart
      rcases hStart with hAlpha | rfl
      · exact isDigit_eq_false_of_isAlpha hAlpha
      · rfl
    refine ⟨?_, ?_⟩
    · rw [List.all_cons, isNameChar, hWord]
      exact List.all_eq_true.2 fun d hMem => by
        rw [isNameChar, List.all_eq_true.1 hRest d hMem, Bool.true_or]
    · simp [isNameStart, isNameChar, hWord, hDigit]

/-- The segments of a path, `name` being the characters of the current one so far. -/
def segmentsFrom (name : List Char) : List Char → List String
  | [] => [String.ofList name]
  | ':' :: ':' :: rest => String.ofList name :: segmentsFrom [] rest
  | c :: rest => segmentsFrom (name ++ [c]) rest

/-- The segments of a path. -/
def pathSegments (s : String) : List String := segmentsFrom [] s.toList

theorem segmentsFrom_ne_nil (name cs : List Char) : segmentsFrom name cs ≠ [] := by
  induction name, cs using segmentsFrom.induct with
  | case1 => simp [segmentsFrom]
  | case2 => simp [segmentsFrom]
  | case3 name c rest hOther ih =>
    rw [segmentsFrom]
    · exact ih
    · exact hOther

theorem intercalate_segmentsFrom (name cs : List Char) :
    "::".intercalate (segmentsFrom name cs) = String.ofList (name ++ cs) := by
  induction name, cs using segmentsFrom.induct with
  | case1 name => rw [segmentsFrom, String.intercalate_singleton, List.append_nil]
  | case2 name rest ih =>
    rw [segmentsFrom, String.intercalate_cons_of_ne_nil (segmentsFrom_ne_nil [] rest), ih]
    exact String.toList_inj.1 (by simp)
  | case3 name c rest hOther ih =>
    rw [segmentsFrom]
    · rw [ih, List.append_assoc]
      rfl
    · exact hOther

theorem intercalate_pathSegments (s : String) : "::".intercalate (pathSegments s) = s := by
  rw [pathSegments, intercalate_segmentsFrom, List.nil_append, String.ofList_toList]

theorem isIdentifier_of_mem_segmentsFrom {name cs : List Char}
    (h : Naming.isModulePathFrom name cs = true) :
    ∀ w ∈ segmentsFrom name cs, Naming.isIdentifier w = true := by
  -- along the scan, which keeps the characters of the current segment in `name`
  induction name, cs using segmentsFrom.induct with
  | case1 name =>
    rw [segmentsFrom, List.forall_mem_singleton, Naming.isIdentifier, String.toList_ofList]
    exact h
  | case2 name rest ih =>
    rw [Naming.isModulePathFrom, Bool.and_eq_true] at h
    rw [segmentsFrom, List.forall_mem_cons, Naming.isIdentifier, String.toList_ofList]
    exact ⟨h.1, ih h.2⟩
  | case3 name c rest hOther ih =>
    rw [Naming.isModulePathFrom] at h
    · rw [segmentsFrom]
      · exact ih h
      · exact hOther
    · exact hOther

/-- The nodes of a path with `::` behind each of its segments. -/
def pathNodes (segments : List String) : List Node :=
  segments.flatMap fun w => [.word w, .sign ':', .sign ':']

/-- A path is complete when `::` comes behind it. -/
theorem reads_path {w : String} {ws : List String} (h : ∀ x ∈ w :: ws, IsName letters x)
    (f : Frame) (fs : List Frame) :
    ∃ r, Reads letters ⟨.between, f :: fs⟩ ("::".intercalate (w :: ws)) r ∧
      Reads letters r "::"
        ⟨.between, ⟨f.group, (pathNodes (w :: ws)).reverse ++ f.piece⟩ :: fs⟩ := by
  -- the last word is still being read when the path is over, so the state between is left open
  induction ws generalizing w f with
  | nil =>
    rw [String.intercalate_singleton]
    exact ⟨_, reads_name (h w List.mem_cons_self) _, .afterName rfl rfl rfl⟩
  | cons w' ws ih =>
    obtain ⟨r, hPath, hEnd⟩ := ih (fun x hMem => h x (List.mem_cons_of_mem _ hMem))
      ⟨f.group, .sign ':' :: .sign ':' :: .word w :: f.piece⟩
    have hFirst : Reads letters ⟨.between, f :: fs⟩ (w ++ "::")
        ⟨.between, ⟨f.group, .sign ':' :: .sign ':' :: .word w :: f.piece⟩ :: fs⟩ :=
      (reads_name (h w List.mem_cons_self) _).append (.afterName rfl rfl rfl)
    rw [String.intercalate_cons_cons]
    refine ⟨r, hFirst.append hPath, ?_⟩
    rw [pathNodes, List.flatMap_cons, List.reverse_append, List.append_assoc]
    exact hEnd

/-- A module path is complete when `::` comes behind it. -/
theorem reads_modulePath {s : String} (h : Naming.isModulePath s = true) (f : Frame)
    (fs : List Frame) :
    ∃ r, Reads letters ⟨.between, f :: fs⟩ s r ∧ Reads letters r "::"
      ⟨.between, ⟨f.group, (pathNodes (pathSegments s)).reverse ++ f.piece⟩ :: fs⟩ := by
  have hNames : ∀ w ∈ pathSegments s, IsName letters w := fun w hMem =>
    .ofIdentifier (isIdentifier_of_mem_segmentsFrom h w hMem)
  have hText := intercalate_pathSegments s
  cases hSegments : pathSegments s with
  | nil => exact absurd hSegments (segmentsFrom_ne_nil _ _)
  | cons w ws =>
    rw [hSegments] at hNames hText
    have hReads := reads_path hNames f fs
    rwa [hText] at hReads

/-- A path ends with the first word that no `::` comes behind. -/
theorem path?_pathNodes (segments : List String) (w : String) {c : Char} (rest : List Node)
    (h : c ≠ ':') : path? (pathNodes segments ++ .word w :: .sign c :: rest) =
      some (segments ++ [w], .sign c :: rest) := by
  -- behind each segment stand two colons, so the path goes on up to the last word
  induction segments with
  | nil =>
    rw [pathNodes, List.flatMap_nil, List.nil_append, path?]
    · rfl
    all_goals
      rintro more hSame
      cases hSame
      exact h rfl
  | cons s segments ih =>
    have hNodes : pathNodes (s :: segments) ++ .word w :: .sign c :: rest =
        .word s :: .sign ':' :: .sign ':' ::
          (pathNodes segments ++ .word w :: .sign c :: rest) := rfl
    rw [hNodes, path?, ih]
    · rfl
    · rintro more hSame
      cases segments <;> cases hSame

/-! ## Arguments -/

theorem splitBoth_of_notMem {nodes : List Node} (h : Node.sign '&' ∉ nodes) :
    splitBoth nodes = (nodes, none) := by
  induction nodes with
  | nil => rfl
  | cons n rest ih =>
    rw [splitBoth, ih fun hMem => h (List.mem_cons_of_mem _ hMem)]
    rintro more rfl
    exact absurd List.mem_cons_self h

/-- A call that asks for the name of a type. -/
def typeNameNodes (segments : List String) (module name : String) : List Node :=
  [.word "std", .sign ':', .sign ':', .word "any", .sign ':', .sign ':', .word "type_name",
      .sign ':', .sign ':', .sign '<'] ++ pathNodes segments ++
    [.word module, .sign ':', .sign ':', .word name, .sign '>', .arguments []]

theorem ofNodes?_typeNameNodes (segments : List String) (module name : String) :
    Expr.ofNodes? (typeNameNodes segments module name) =
      some (.ofType ["std", "any", "type_name"] (segments ++ [module, name])) := by
  -- the segment before the last one belongs to the path, too
  have hNodes : pathNodes segments ++
      [.word module, .sign ':', .sign ':', .word name, .sign '>', .arguments []] =
      pathNodes (segments ++ [module]) ++ .word name :: .sign '>' :: [.arguments []] := by
    rw [pathNodes, pathNodes, List.flatMap_append, List.append_assoc]
    rfl
  have hNoBoth : Node.sign '&' ∉
      pathNodes (segments ++ [module]) ++ .word name :: .sign '>' :: [.arguments []] := by
    simp [pathNodes]
  have hPath : path? (pathNodes (segments ++ [module]) ++
      .word name :: .sign '>' :: [.arguments []]) =
      some (segments ++ [module] ++ [name], [.sign '>', .arguments []]) :=
    path?_pathNodes _ name _ (by decide)
  rw [typeNameNodes, List.append_assoc, hNodes, Expr.ofNodes?,
    splitBoth_of_notMem (by simpa using hNoBoth)]
  simp [Expr.operand?, Expr.start?, path?, hPath, Expr.then?]

/-- A sign is a token of its own. -/
theorem reads_sign {text : String} {c : Char} {fs fs' : List Frame} (hText : text.toList = [c])
    (hSign : startToken? letters c = some ([.sign c], .between))
    (hTake : take fs (.sign c) = some fs') :
    Reads letters ⟨.between, fs⟩ text ⟨.between, fs'⟩ := by
  have hStep : Reader.step letters ⟨.between, fs⟩ c = some ⟨.between, fs'⟩ := by
    simp [Reader.step, Mode.step, hSign, hTake]
  rw [Reads, Reader.read, hText, List.foldlM_cons, hStep]
  rfl

/-- The last argument is read when the parenthesis closes. -/
theorem reads_close {nodes : List Node} {es : List Expr} {e : Expr} (hNodes : nodes ≠ [])
    (h : Expr.ofNodes? nodes = some e) (g : Frame) (fs : List Frame) :
    Reads letters ⟨.between, ⟨.arguments es, nodes.reverse⟩ :: g :: fs⟩ ")"
      ⟨.between, g.add (.arguments (e :: es).reverse) :: fs⟩ := by
  have hEnd : (Frame.mk (.arguments es) nodes.reverse).endLast? =
      some ⟨.arguments (e :: es), []⟩ := by
    rw [Frame.endLast?, if_neg (by simpa using hNodes), Frame.endPiece?]
    simp [h]
  refine reads_sign (c := ')') rfl rfl ?_
  rw [take, hEnd]
  rfl

/-- What is not executed leaves nothing behind. -/
theorem reads_semicolon {nodes : List Node} {functions : List Function} {fs : List Frame}
    (h : Function.ofNodes? nodes = some none) :
    Reads letters ⟨.between, ⟨.file functions, nodes.reverse⟩ :: fs⟩ ";"
      ⟨.between, ⟨.file functions, []⟩ :: fs⟩ := by
  refine reads_sign (c := ';') rfl rfl ?_
  have hEnd : (Frame.mk (.file functions) nodes.reverse).endPiece? =
      some ⟨.file functions, []⟩ := by
    rw [Frame.endPiece?]
    simp [h]
  exact congrArg (Option.map fun f => f :: fs) hEnd

/-! ## Parts of a text -/

namespace Reads

variable {r r' : Reader} {s w t : String} {fs fs' : List Frame}

theorem congr (h : Reads letters r s r') (hText : t = s) : Reads letters r t r' := by rwa [hText]

/-- A name between two other parts. -/
theorem name (h : Reads letters r s ⟨.between, fs⟩) (hName : IsName letters w)
    (hBoundary : t.toList.head?.any (fun c => !isNameChar letters c) = true)
    (hTake : take fs (.word w) = some fs') (h' : Reads letters ⟨.between, fs'⟩ t r') :
    Reads letters r (s ++ w ++ t) r' :=
  (h.append (reads_name hName _)).append (.afterName hBoundary hTake h')

/-- A quoted literal between two other parts. -/
theorem text (h : Reads letters r s ⟨.between, fs⟩) (hTake : take fs (.text w) = some fs')
    (h' : Reads letters ⟨.between, fs'⟩ t r') : Reads letters r (s ++ quote w ++ t) r' :=
  (h.append (reads_quote w hTake)).append h'

end Reads

/-- In a block, `text` is read as the statements. -/
def ReadsAs (letters : Char → Bool) (text : String) (statements : List Statement) : Prop :=
  ∀ done fs, Reads letters ⟨.between, ⟨.block done, []⟩ :: fs⟩ text
    ⟨.between, ⟨.block (statements.reverse ++ done), []⟩ :: fs⟩

namespace ReadsAs

theorem congr {s t : String} {ss ts : List Statement} (h : ReadsAs letters s ss) (hText : t = s)
    (hStatements : ts = ss) : ReadsAs letters t ts := by
  rwa [hText, hStatements]

theorem nil : ReadsAs letters "" [] := fun _ _ => rfl

theorem append {s t : String} {ss ts : List Statement} (h : ReadsAs letters s ss)
    (h' : ReadsAs letters t ts) : ReadsAs letters (s ++ t) (ss ++ ts) := by
  intro done fs
  rw [List.reverse_append, List.append_assoc]
  exact (h done fs).append (h' _ fs)

theorem join {α : Type} {f : α → String} {g : α → List Statement} {items : List α}
    (h : ∀ a ∈ items, ReadsAs letters (f a) (g a)) :
    ReadsAs letters (String.join (items.map f)) (items.flatMap g) := by
  induction items with
  | nil => exact nil
  | cons a rest ih =>
    rw [List.map_cons, String.join_cons, List.flatMap_cons]
    exact (h a List.mem_cons_self).append (ih fun b hMem => h b (List.mem_cons_of_mem _ hMem))

/-- The statements of a block that has just been opened. -/
theorem inside {s : String} {ss : List Statement} (h : ReadsAs letters s ss) (fs : List Frame) :
    ∃ read, read.reverse = ss ∧ Reads letters ⟨.between, ⟨.block [], []⟩ :: fs⟩ s
      ⟨.between, ⟨.block read, []⟩ :: fs⟩ :=
  ⟨ss.reverse ++ [], by simp, h [] fs⟩

end ReadsAs

end PropertySets.Code
