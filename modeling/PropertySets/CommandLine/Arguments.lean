import PropertySets.Text.Pieces

/-!
# Command line arguments

An option goes by a word behind two dashes, and perhaps by a letter behind one. Letters may share
one argument. A value follows its option as the next argument, behind an equals sign, or right
behind the letter; a next argument that looks like an option is no value. Two dashes alone end the
options.

* `Rule` — an option that a command knows.
* `readOptions` — the options at the front of the arguments, and what follows them.
* `UsageFault` — why arguments are refused.
-/

namespace PropertySets.CommandLine

/-- An option that a command knows. -/
structure Rule where
  word : String
  letter? : Option Char
  takesValue : Bool
  deriving DecidableEq, Repr

/-- An option that was given. -/
structure Choice where
  word : String
  value? : Option String
  deriving DecidableEq, Repr

/-- Why arguments are refused. -/
inductive UsageFault where
  | unknownOption (text : String)
  | missingValue (word : String)
  | unwantedValue (word : String)
  | badValue (word value : String)
  | repeated (word : String)
  | unexpected (text : String)
  | missingCommand
  | unknownCommand (name : String)
  deriving DecidableEq, Repr

/-- The wording of a fault. -/
def UsageFault.message : UsageFault → String
  | unknownOption text => "unexpected argument '" ++ text ++ "' found"
  | missingValue word => "a value is required for '--" ++ word ++ "' but none was supplied"
  | unwantedValue word => "unexpected value for '--" ++ word ++ "' found; no more were expected"
  | badValue word value => "invalid value '" ++ value ++ "' for '--" ++ word ++ "'"
  | repeated word => "the argument '--" ++ word ++ "' cannot be used multiple times"
  | unexpected text => "unexpected argument '" ++ text ++ "' found"
  | missingCommand => "a subcommand is required but one was not provided"
  | unknownCommand name => "unrecognized subcommand '" ++ name ++ "'"

/-- Does an argument look like an option? A dash alone does not. -/
def looksLikeOption (arg : String) : Bool :=
  match arg.toList with
  | '-' :: _ :: _ => true
  | _ => false

/-- The options that one argument holds, and the word of a last one that still wants a value. -/
abbrev Held := List Choice × Option String

/-- The option that goes by a word, with what stands behind an equals sign. -/
def readWord (rules : List Rule) (text : List Char) : Except UsageFault Held :=
  let (word, value?) : String × Option String :=
    match Text.cutAt? ['='] text with
    | none => (String.ofList text, none)
    | some (word, value) => (String.ofList word, some (String.ofList value))
  match rules.find? fun r => r.word == word with
  | none => .error (.unknownOption ("--" ++ word))
  | some r =>
    match r.takesValue, value? with
    | true, none => .ok ([], some word)
    | false, some _ => .error (.unwantedValue word)
    | _, value? => .ok ([⟨word, value?⟩], none)

/-- The options that go by letters; the first one that takes a value takes what is left, less an
equals sign. -/
def readLetters (rules : List Rule) : List Char → Except UsageFault Held
  | [] => .ok ([], none)
  | c :: rest =>
    match rules.find? fun r => r.letter? == some c with
    | none => .error (.unknownOption (String.ofList ['-', c]))
    | some r =>
      if r.takesValue then
        match rest with
        | [] => .ok ([], some r.word)
        | '=' :: value => .ok ([⟨r.word, some (String.ofList value)⟩], none)
        | value => .ok ([⟨r.word, some (String.ofList value)⟩], none)
      else (readLetters rules rest).map fun (choices, wanting?) =>
        (⟨r.word, none⟩ :: choices, wanting?)

/-- The options of an argument that looks like one. -/
def readOption (rules : List Rule) (arg : String) : Except UsageFault Held :=
  match arg.toList with
  | '-' :: '-' :: text => readWord rules text
  | '-' :: letters => readLetters rules letters
  | _ => .error (.unexpected arg)

/-- What was read of the arguments. -/
structure Arguments where
  choices : List Choice
  /-- Were the options ended by two dashes? -/
  ended : Bool
  rest : List String
  deriving DecidableEq, Repr

/-- The options at the front of the arguments. -/
def readOptions (rules : List Rule) : List String → Except UsageFault Arguments
  | [] => .ok ⟨[], false, []⟩
  | arg :: rest => do
    if arg = "--" then return ⟨[], true, rest⟩
    if !looksLikeOption arg then return ⟨[], false, arg :: rest⟩
    let (choices, wanting?) ← readOption rules arg
    match wanting?, rest with
    | none, rest =>
      let more ← readOptions rules rest
      return ⟨choices ++ more.choices, more.ended, more.rest⟩
    | some word, [] => throw (.missingValue word)
    -- a value that looks like an option is none
    | some word, value :: rest =>
      if looksLikeOption value then throw (.missingValue word)
      let more ← readOptions rules rest
      return ⟨choices ++ ⟨word, some value⟩ :: more.choices, more.ended, more.rest⟩

/-- Refuse an option that was given twice. -/
def checkRepeats : List Choice → Except UsageFault Unit
  | [] => .ok ()
  | c :: rest =>
    if rest.any fun d => d.word == c.word then .error (.repeated c.word) else checkRepeats rest

/-- Refuse arguments that are left. -/
def checkNoRest : List String → Except UsageFault Unit
  | [] => .ok ()
  | arg :: _ => .error (.unexpected arg)

/-- Was an option given? -/
def isChosen (word : String) (choices : List Choice) : Bool := choices.any fun c => c.word == word

/-- The value of an option. -/
def valueOf? (word : String) (choices : List Choice) : Option String :=
  (choices.find? fun c => c.word == word).bind (·.value?)

/-- The path that an option names; it has to name one. -/
def pathOf? (word : String) (choices : List Choice) : Except UsageFault (Option String) :=
  match valueOf? word choices with
  | some "" => .error (.badValue word "")
  | path? => .ok path?

/-- How a command ends: its exit code, and what it says on either channel. -/
structure Outcome where
  code : Nat
  output : String
  errors : String
  deriving DecidableEq, Repr

/-- The outcome of refused arguments. -/
def Outcome.ofUsage (fault : UsageFault) : Outcome := ⟨2, "", "error: " ++ fault.message ++ "\n"⟩

/-- The outcome of a command that fails after some output. -/
def Outcome.failed (output reason : String) : Outcome := ⟨1, output, "Error: " ++ reason ++ "\n"⟩

end PropertySets.CommandLine
