import PropertySets.Xml.CharacterData

/-!
# The tokens of an XML text

A text is a sequence of tags, comments, processing instructions, character sections and plain
characters. Each token is read off the front of what is left; how tokens fit together is not
decided here.

* `Token` — the tokens; `Token.read` reads the next one, after which less is left.
* `Token.list` — all tokens of a text, its XML declaration left out.
-/

namespace PropertySets.Xml

/-- A token of an XML text. -/
inductive Token where
  /-- A tag that opens an element; `closed` tells that it closes it as well. -/
  | start (name : QName) (attributes : List (QName × String)) (closed : Bool)
  /-- A tag that closes an element. -/
  | finish (name : QName)
  /-- Characters as they are written, references not yet resolved. -/
  | characters (raw : List Char)
  /-- The characters of a section in which markup does not count. -/
  | unmarked (text : List Char)
  | comment (text : List Char)
  | instruction (target : String) (content : List Char)
  deriving DecidableEq, Repr

theorem bind_eq_ok {ε α β : Type} {x : Except ε α} {f : α → Except ε β} {b : β} :
    (x >>= f) = .ok b ↔ ∃ a, x = .ok a ∧ f a = .ok b := by
  cases x with
  | error e => exact ⟨nofun, nofun⟩
  | ok a => exact ⟨fun h => ⟨a, rfl, h⟩, fun ⟨_, h, found⟩ => by cases h; exact found⟩

/-- The text up to `stop`, all of it admitted, and what follows. -/
def readUntil (stop : List Char) (s : List Char) : Except Fault (List Char × List Char) :=
  match Text.cutAt? stop s with
  | none => .error .unterminated
  | some (body, rest) => if body.all isAdmitted then .ok (body, rest) else .error .badCharacter

theorem length_readUntil {stop s body rest : List Char}
    (h : readUntil stop s = .ok (body, rest)) : rest.length ≤ s.length := by
  unfold readUntil at h
  split at h
  · cases h
  · rename_i cut
    split at h
    · cases h
      rw [Text.cutAt?_eq_some cut, List.length_append, List.length_append]
      omega
    · cases h

/-- Does a text hold a pattern? -/
def holds (pattern s : List Char) : Bool := (Text.cutAt? pattern s).isSome

/-- The comment whose opening has been read. -/
def readComment (s : List Char) : Except Fault (Token × List Char) := do
  let (body, rest) ← readUntil "-->".toList s
  if holds "--".toList body || body.getLast? == some '-' then throw .dashesInComment
  return (.comment body, rest)

theorem length_readComment {s rest : List Char} {token : Token}
    (h : readComment s = .ok (token, rest)) : rest.length ≤ s.length := by
  obtain ⟨⟨body, after⟩, found, h⟩ := bind_eq_ok.1 h
  dsimp only at h
  split at h
  · cases h
  · cases h
    exact length_readUntil found

/-- The instruction whose opening has been read. -/
def readInstruction (s : List Char) : Except Fault (Token × List Char) := do
  if "xml ".toList.isPrefixOf s then throw .misplacedDeclaration
  let (target, rest) ← readName s
  let (content, rest) ← readUntil "?>".toList (rest.dropWhile isSpace)
  return (.instruction target content, rest)

theorem length_readInstruction {s rest : List Char} {token : Token}
    (h : readInstruction s = .ok (token, rest)) : rest.length ≤ s.length := by
  unfold readInstruction at h
  split at h
  · cases h
  · obtain ⟨⟨target, behind⟩, named, h⟩ := bind_eq_ok.1 h
    obtain ⟨⟨content, after⟩, found, h⟩ := bind_eq_ok.1 h
    cases h
    have := length_readName named
    have := length_dropWhile_le isSpace behind
    have := length_readUntil found
    omega

/-- The closing tag whose opening has been read. -/
def readFinish (s : List Char) : Except Fault (Token × List Char) := do
  let (name, rest) ← readQName s
  match rest.dropWhile isSpace with
  | '>' :: rest => return (.finish name, rest)
  | _ => throw .badMarkup

theorem length_readFinish {s rest : List Char} {token : Token}
    (h : readFinish s = .ok (token, rest)) : rest.length ≤ s.length := by
  obtain ⟨⟨name, behind⟩, named, h⟩ := bind_eq_ok.1 h
  dsimp only at h
  split at h
  · rename_i closing
    cases h
    have := length_readQName named
    have := length_dropWhile_le isSpace behind
    rw [closing, List.length_cons] at this
    omega
  · cases h

/-- An attribute as it is written, and what follows it. -/
def readAttribute (s : List Char) : Except Fault ((QName × List Char) × List Char) := do
  let (name, rest) ← readQName s
  match rest.dropWhile isSpace with
  | '=' :: rest =>
    match rest.dropWhile isSpace with
    | quote :: rest =>
      if quote ≠ '"' ∧ quote ≠ '\'' then throw .badMarkup
      let inside (c : Char) : Bool := c ≠ quote && c ≠ '<'
      if !(rest.takeWhile inside).all isAdmitted then throw .badCharacter
      match rest.dropWhile inside with
      | c :: after =>
        if c = quote then return ((name, rest.takeWhile inside), after) else throw .badMarkup
      | [] => throw .unterminated
    | [] => throw .unterminated
  | _ => throw .badMarkup

theorem length_readAttribute {s rest raw : List Char} {name : QName}
    (h : readAttribute s = .ok ((name, raw), rest)) : rest.length < s.length := by
  obtain ⟨⟨name, behind⟩, named, h⟩ := bind_eq_ok.1 h
  -- the name takes a character at least, and nothing behind it makes the rest longer
  have shorter := length_readQName named
  have := length_dropWhile_le isSpace behind
  dsimp only at h
  split at h
  · rename_i value equals
    rw [equals, List.length_cons] at this
    have := length_dropWhile_le isSpace value
    split at h
    · rename_i quote quoted opened
      rw [opened, List.length_cons] at this
      split at h
      · cases h
      · split at h
        · cases h
        · split at h
          · rename_i after closed
            split at h
            · cases h
              have := length_dropWhile_le (fun c => c ≠ quote && c ≠ '<') quoted
              rw [closed, List.length_cons] at this
              omega
            · cases h
          · cases h
    · cases h
  · cases h

/-- The attributes of an opening tag, whether it closes its element, and what follows it. -/
def readAttributes (s : List Char) :
    Except Fault (List (QName × String) × Bool × List Char) :=
  match s.dropWhile isSpace with
  | [] => .error .unterminated
  | '>' :: rest => .ok ([], false, rest)
  | '/' :: '>' :: rest => .ok ([], true, rest)
  | _ =>
    -- white space stands before every attribute
    if !s.head?.any isSpace then .error .badMarkup
    else
      match h : readAttribute (s.dropWhile isSpace) with
      | .error fault => .error fault
      | .ok ((name, raw), after) => do
        -- what follows an attribute is shorter, so reading on ends
        have : after.length < s.length :=
          Nat.lt_of_lt_of_le (length_readAttribute h) (length_dropWhile_le isSpace s)
        let value ← decodeAttribute raw
        let (attributes, closed, tail) ← readAttributes after
        return ((name, String.ofList value) :: attributes, closed, tail)
termination_by s.length

theorem length_readAttributes {s rest : List Char} {attributes : List (QName × String)}
    {closed : Bool} (h : readAttributes s = .ok (attributes, closed, rest)) :
    rest.length ≤ s.length := by
  have := length_dropWhile_le isSpace s
  unfold readAttributes at h
  split at h
  · cases h
  · rename_i ended
    cases h
    rw [ended, List.length_cons] at this
    omega
  · rename_i ended
    cases h
    rw [ended, List.length_cons, List.length_cons] at this
    omega
  · split at h
    · cases h
    · split at h
      · cases h
      · rename_i read
        obtain ⟨value, decoded, h⟩ := bind_eq_ok.1 h
        obtain ⟨⟨more, closed, tail⟩, others, h⟩ := bind_eq_ok.1 h
        cases h
        -- an attribute shortens the rest, so the others are read from less
        have shorter := length_readAttribute read
        have := length_readAttributes others
        omega
termination_by s.length

/-- The opening tag whose first character has been read. -/
def readStart (s : List Char) : Except Fault (Token × List Char) := do
  let (name, rest) ← readQName s
  let (attributes, closed, rest) ← readAttributes rest
  return (.start name attributes closed, rest)

theorem length_readStart {s rest : List Char} {token : Token}
    (h : readStart s = .ok (token, rest)) : rest.length ≤ s.length := by
  obtain ⟨⟨name, behind⟩, named, h⟩ := bind_eq_ok.1 h
  obtain ⟨⟨attributes, closed, after⟩, found, h⟩ := bind_eq_ok.1 h
  cases h
  have := length_readQName named
  have := length_readAttributes found
  omega

/-- The markup whose opening angle bracket has been read. -/
def readMarkup (s : List Char) : Except Fault (Token × List Char) :=
  match s with
  | '!' :: '-' :: '-' :: rest => readComment rest
  | '!' :: '[' :: 'C' :: 'D' :: 'A' :: 'T' :: 'A' :: '[' :: rest => do
    let (body, rest) ← readUntil "]]>".toList rest
    return (.unmarked body, rest)
  | '!' :: 'D' :: 'O' :: 'C' :: 'T' :: 'Y' :: 'P' :: 'E' :: _ => .error .documentType
  | '!' :: _ => .error .badMarkup
  | '?' :: rest => readInstruction rest
  | '/' :: rest => readFinish rest
  | _ => readStart s

theorem length_readMarkup {s rest : List Char} {token : Token}
    (h : readMarkup s = .ok (token, rest)) : rest.length ≤ s.length := by
  unfold readMarkup at h
  split at h
  · exact Nat.le_trans (length_readComment h) (by simp only [List.length_cons]; omega)
  · obtain ⟨⟨body, after⟩, found, h⟩ := bind_eq_ok.1 h
    cases h
    exact Nat.le_trans (length_readUntil found) (by simp only [List.length_cons]; omega)
  · cases h
  · cases h
  · exact Nat.le_succ_of_le (length_readInstruction h)
  · exact Nat.le_succ_of_le (length_readFinish h)
  · exact length_readStart h

/-- The token at the front of a text that starts with `c`. -/
def Token.read (c : Char) (s : List Char) : Except Fault (Token × List Char) :=
  if c = '<' then readMarkup s
  else
    let raw := c :: s.takeWhile (· ≠ '<')
    if !raw.all isAdmitted then .error .badCharacter
    else if holds "]]>".toList raw then .error .sectionEnd
    else .ok (.characters raw, s.dropWhile (· ≠ '<'))

theorem Token.length_read {c : Char} {s rest : List Char} {token : Token}
    (h : Token.read c s = .ok (token, rest)) : rest.length ≤ s.length := by
  unfold Token.read at h
  split at h
  · exact length_readMarkup h
  · dsimp only at h
    split at h
    · cases h
    · split at h
      · cases h
      · cases h
        exact length_dropWhile_le _ s

/-- The tokens of what is left of a text. -/
def Token.listFrom (s : List Char) : Except Fault (List Token) :=
  match s with
  | [] => .ok []
  | c :: rest =>
    match h : Token.read c rest with
    | .error fault => .error fault
    | .ok (token, after) => do
      have : after.length ≤ rest.length := Token.length_read h
      return token :: (← Token.listFrom after)
termination_by s.length

/-- What follows the white space at the front of a declaration, which has to be there unless the
declaration ends. -/
def declarationSpace (s : List Char) : Except Fault (List Char) :=
  if s.head?.any isSpace then .ok (s.dropWhile isSpace)
  else if "?>".toList.isPrefixOf s || s.isEmpty then .ok s
  else .error .badMarkup

/-- What follows the XML declaration whose first five characters have been read: a version and,
if given, an encoding and a standalone mark, whose values do not count. -/
def skipDeclaration (s : List Char) : Except Fault (List Char) := do
  let optional (word : String) (s : List Char) : Except Fault (List Char) := do
    if word.toList.isPrefixOf s then
      let (_, rest) ← readAttribute s
      return rest
    else return s
  let s ← declarationSpace s
  if !"version".toList.isPrefixOf s then throw .badMarkup
  let (_, s) ← readAttribute s
  let s ← declarationSpace s
  let s ← if "encoding".toList.isPrefixOf s then
      optional "encoding" s >>= declarationSpace
    else pure s
  let s ← optional "standalone" s
  match s.dropWhile isSpace with
  | '?' :: '>' :: rest => return rest
  | _ => throw .badMarkup

/-- The tokens of a text, its XML declaration left out. -/
def Token.list (s : List Char) : Except Fault (List Token) := do
  if "<?xml ".toList.isPrefixOf s then Token.listFrom (← skipDeclaration (s.drop 5))
  else Token.listFrom s

end PropertySets.Xml
