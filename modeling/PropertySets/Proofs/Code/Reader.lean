import PropertySets.Proofs.Code.Scanner

/-!
# Reading generated code

The reader keeps a stack of open groups, the text itself being the outermost one. What a group
holds is read piece by piece: a piece of a block ends at a semicolon or with a block of its own, a
piece in parentheses at a comma. When a group closes, it becomes a node of the piece around it.

* `Expr`, `Statement`, `Function` — what code consists of.
* `Expr.ofNodes?`, `Statement.ofNodes?`, `Function.ofNodes?` — reading a piece.
* `Reader.step` — reading a character, the scanner and the stack together.
* `functions?` — the functions of a text.
-/

namespace PropertySets.Code

/-- An expression. -/
inductive Expr where
  | text (content : String)
  /-- A variable, or a constant with the path to it. -/
  | name (segments : List String)
  /-- A call of a function without arguments that is given a type: `f::<t>()`. -/
  | ofType (function type : List String)
  | field (e : Expr) (name : String)
  | call (function : List String) (arguments : List Expr)
  | method (e : Expr) (name : String) (arguments : List Expr)
  | borrow (mutable : Bool) (e : Expr)
  | both (left right : Expr)
  | cast (e : Expr) (type : String)
  deriving Repr

/-- A statement. -/
inductive Statement where
  | declare (name : String) (value : Expr)
  | assign (target value : Expr)
  | evaluate (e : Expr)
  | when (condition : Expr) (body : List Statement)
  deriving Repr

/-- A function with its parameters and its body. -/
structure Function where
  name : String
  parameters : List String
  body : List Statement
  deriving Repr

/-- A token of a piece, or a group that has been read. -/
inductive Node where
  | word (name : String)
  | text (content : String)
  | sign (c : Char)
  | arguments (read : List Expr)
  | parameters (names : List String)
  | block (statements : List Statement)
  /-- What stands in brackets is not looked at. -/
  | attribute
  deriving Repr

/-! ## Pieces -/

/-- The path in front of a piece, and what follows it. -/
def path? : List Node → Option (List String × List Node)
  | .word w :: .sign ':' :: .sign ':' :: .sign '<' :: rest => some ([w], .sign '<' :: rest)
  | .word w :: .sign ':' :: .sign ':' :: rest =>
    (path? rest).map fun (segments, rest) => (w :: segments, rest)
  | .word w :: rest => some ([w], rest)
  | _ => none

/-- The literal, path or call in front of a piece, and what follows it. -/
def Expr.start? : List Node → Option (Expr × List Node)
  | .text s :: rest => some (.text s, rest)
  | nodes => do
    match ← path? nodes with
    | (function, .sign '<' :: rest) =>
      match ← path? rest with
      | (type, .sign '>' :: .arguments [] :: rest) => return (.ofType function type, rest)
      | _ => none
    | (function, .arguments es :: rest) => return (.call function es, rest)
    | (segments, rest) => return (.name segments, rest)

/-- An expression with the fields, methods and types that follow it. -/
def Expr.then? : Expr → List Node → Option Expr
  | e, [] => some e
  | e, .sign '.' :: .word w :: .arguments es :: rest => then? (.method e w es) rest
  | e, .sign '.' :: .word w :: rest => then? (.field e w) rest
  | e, [.word keyword, .word type] => if keyword = "as" then some (.cast e type) else none
  | _, _ => none

/-- An expression without `&&`. -/
def Expr.operand? : List Node → Option Expr
  | .sign '&' :: .word keyword :: .word w :: rest => do
    if keyword ≠ "mut" then none
    let (e, rest) ← start? (.word w :: rest)
    return .borrow true (← e.then? rest)
  | .sign '&' :: nodes => do
    let (e, rest) ← start? nodes
    return .borrow false (← e.then? rest)
  | nodes => do
    let (e, rest) ← start? nodes
    e.then? rest

/-- What comes before the first `&&` and what comes behind it. -/
def splitBoth : List Node → List Node × Option (List Node)
  | .sign '&' :: .sign '&' :: rest => ([], some rest)
  | n :: rest => (n :: (splitBoth rest).1, (splitBoth rest).2)
  | [] => ([], none)

/-- An expression. -/
def Expr.ofNodes? (nodes : List Node) : Option Expr :=
  match splitBoth nodes with
  | (left, none) => operand? left
  | (left, some right) => do return .both (← operand? left) (← operand? right)

/-- What comes before the first `=` and what comes behind it. -/
def splitEquals : List Node → List Node × Option (List Node)
  | .sign '=' :: rest => ([], some rest)
  | n :: rest => (n :: (splitEquals rest).1, (splitEquals rest).2)
  | [] => ([], none)

/-- The declaration of a variable, what follows its name being `rest`; its type is not looked at. -/
def Statement.declaration? (name : String) (rest : List Node) : Option Statement :=
  match splitEquals rest with
  | (_, some value) => return .declare name (← Expr.ofNodes? value)
  | (_, none) => none

/-- The condition and the block behind it. -/
def Statement.conditional? : List Node → List Node → Option Statement
  | condition, [.block body] => return .when (← Expr.ofNodes? condition.reverse) body
  | condition, n :: rest => conditional? (n :: condition) rest
  | _, [] => none

/-- A statement. Only a statement with a keyword starts with two words. -/
def Statement.ofNodes? : List Node → Option Statement
  | .word keyword :: .word w :: rest =>
    if keyword = "if" then conditional? [] (.word w :: rest)
    else if keyword ≠ "let" then none
    else if w ≠ "mut" then declaration? w rest
    else match rest with
      | .word name :: rest => declaration? name rest
      | _ => none
  | nodes =>
    match splitEquals nodes with
    | (left, none) => return .evaluate (← Expr.ofNodes? left)
    | (left, some right) => return .assign (← Expr.ofNodes? left) (← Expr.ofNodes? right)

/-- A parameter; its type is not looked at. -/
def parameter? : List Node → Option String
  | .word name :: .sign ':' :: _ => some name
  | _ => none

/-- A piece of the text itself: a function, or something that is not executed. -/
def Function.ofNodes? : List Node → Option (Option Function)
  | .sign '#' :: .attribute :: rest => ofNodes? rest
  | [.word "fn", .word name, .parameters names, .block body] => some (some ⟨name, names, body⟩)
  | [.word "pub", .word "fn", .word name, .parameters names, .block body] =>
    some (some ⟨name, names, body⟩)
  | .word "use" :: _ => some none
  | _ => none

/-! ## Groups -/

/-- What a group is read as, with what it holds so far, last first. -/
inductive Group where
  | file (functions : List Function)
  | block (statements : List Statement)
  | arguments (es : List Expr)
  | parameters (names : List String)
  | attribute
  deriving Repr

/-- A group that has not been closed. -/
structure Frame where
  group : Group
  /-- The nodes of the current piece, last first. -/
  piece : List Node
  deriving Repr

namespace Frame

/-- The frame with a node behind its current piece. -/
def add (f : Frame) (n : Node) : Frame := { f with piece := n :: f.piece }

/-- The frame with its current piece read. -/
def endPiece? (f : Frame) : Option Frame :=
  let nodes := f.piece.reverse
  match f.group with
  | .file functions => (Function.ofNodes? nodes).map fun g? => ⟨.file (g?.toList ++ functions), []⟩
  | .block statements => (Statement.ofNodes? nodes).map fun s => ⟨.block (s :: statements), []⟩
  | .arguments es => (Expr.ofNodes? nodes).map fun e => ⟨.arguments (e :: es), []⟩
  | .parameters names => (parameter? nodes).map fun name => ⟨.parameters (name :: names), []⟩
  | .attribute => some ⟨.attribute, []⟩

/-- The frame with its last piece read, if there is one. -/
def endLast? (f : Frame) : Option Frame := if f.piece.isEmpty then some f else f.endPiece?

/-- The group that a parenthesis opens: parameters come behind the name of a function. -/
def parenthesis (f : Frame) : Frame :=
  match f.piece with
  | .word _ :: .word "fn" :: _ => ⟨.parameters [], []⟩
  | _ => ⟨.arguments [], []⟩

end Frame

/-- Take a token. -/
def take : List Frame → Token → Option (List Frame)
  | f :: rest, .word name => some (f.add (.word name) :: rest)
  | f :: rest, .text content => some (f.add (.text content) :: rest)
  | f :: rest, .sign '(' => some (f.parenthesis :: f :: rest)
  | f :: rest, .sign '[' => some (⟨.attribute, []⟩ :: f :: rest)
  | f :: rest, .sign '\x7b' => some (⟨.block [], []⟩ :: f :: rest)
  | f :: g :: rest, .sign ')' => do
    let f ← f.endLast?
    match f.group with
    | .arguments es => some (g.add (.arguments es.reverse) :: rest)
    | .parameters names => some (g.add (.parameters names.reverse) :: rest)
    | _ => none
  | ⟨.attribute, _⟩ :: g :: rest, .sign ']' => some (g.add .attribute :: rest)
  -- a block ends the piece that it stands in
  | ⟨.block statements, []⟩ :: g :: rest, .sign '\x7d' =>
    ((g.add (.block statements.reverse)).endPiece?).map fun g => g :: rest
  | f :: rest, .sign ',' =>
    match f.group with
    | .arguments _ | .parameters _ | .attribute => f.endPiece?.map fun f => f :: rest
    | _ => none
  | f :: rest, .sign ';' =>
    match f.group with
    | .file _ | .block _ => f.endPiece?.map fun f => f :: rest
    | _ => none
  | f :: rest, .sign c => if c ∈ [')', ']', '\x7d'] then none else some (f.add (.sign c) :: rest)
  | [], _ => none

/-! ## Texts -/

/-- What the reader is in the middle of. -/
structure Reader where
  mode : Mode
  frames : List Frame
  deriving Repr

namespace Reader

variable (letters : Char → Bool)

/-- Nothing read yet. -/
def start : Reader := ⟨.between, [⟨.file [], []⟩]⟩

/-- Read a character. -/
def step (r : Reader) (c : Char) : Option Reader := do
  let (tokens, mode) ← r.mode.step letters c
  return ⟨mode, ← tokens.foldlM take r.frames⟩

/-- Read a text. -/
def read (r : Reader) (text : String) : Option Reader := text.toList.foldlM (step letters) r

/-- The functions that have been read, if nothing is left open. -/
def functions? : Reader → Option (List Function)
  | ⟨.between, [⟨.file functions, []⟩]⟩ => some functions.reverse
  | _ => none

end Reader

/-- The functions of a text. -/
def functions? (letters : Char → Bool) (text : String) : Option (List Function) :=
  (Reader.start.read letters text).bind Reader.functions?

end PropertySets.Code
