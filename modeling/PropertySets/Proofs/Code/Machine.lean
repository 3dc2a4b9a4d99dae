import PropertySets.Calculator
import PropertySets.Proofs.Code.Reader
import PropertySets.Text.CaseMap

/-!
# Executing generated code

Code is executed statement by statement. A block sees the variables around it, and those that it
declares are gone behind it. A function has its arguments as variables; what it does to an argument
that is borrowed mutably is done to the variable of the caller.

Of the exporter's library there is what generated code uses: records for descriptions, entries and
the export context, and the functions and methods that make, change and look at them.

* `Value`, `Env` — values and variables.
* `construct?`, `inspect?`, `update?` — the library.
* `Expr.eval`, `Statement.exec` — expressions and statements.
* `call` — calling a function of a text, up to a depth of calls.
-/

namespace PropertySets.Code

/-! ## Values -/

/-- A value. -/
inductive Value where
  | text (content : String)
  | flag (b : Bool)
  | constant (segments : List String)
  /-- The number of a constant. -/
  | number (segments : List String)
  | absent
  | present (v : Value)
  | list (items : List Value)
  | record (type : String) (fields : List (String × Value))
  | calculator (c : Calculator)
  | calculators (cs : Calculators)
  /-- Which sets are allowed in which version of the file. -/
  | allowList (allows : String → String → Bool)

namespace Value

/-- A field of a record. -/
def field? : Value → String → Option Value
  | record _ fields, name => fields.lookup name
  | _, _ => none

/-- The record with a value in place of that of a field it has. -/
def withField? : Value → String → Value → Option Value
  | record type fields, name, v =>
    if (fields.lookup name).isSome then
      some (record type (fields.map fun (k, old) => (k, if k = name then v else old)))
    else none
  | _, _, _ => none

/-- The list with a value behind it. -/
def push? : Value → Value → Option Value
  | list items, v => some (list (items ++ [v]))
  | _, _ => none

/-- The record with a value behind the list in one of its fields. -/
def pushTo? (r : Value) (name : String) (v : Value) : Option Value := do
  r.withField? name (← (← r.field? name).push? v)

/-- What may be there. -/
def ofOption {α : Type} (f : α → Value) : Option α → Value
  | none => absent
  | some a => present (f a)

end Value

/-! ## The library -/

/-- A description without entries. -/
def newDescription : Value :=
  .record "PropertySetDescription"
    [("name", .text ""), ("sub_element_index", .absent), ("entity_types", .list []),
      ("entries", .list [])]

/-- An entry that only has the name of its parameter. -/
def newEntry (name : String) : Value :=
  .record "PropertySetEntry"
    [("parameter_name", .text name), ("property_name", .text ""), ("property_type", .absent),
      ("property_value_type", .absent), ("property_enumeration_type", .absent),
      ("localized_parameter_names", .list []), ("property_calculator", .absent)]

/-- Functions of the library. -/
def construct? : List String → List Value → Option Value
  | ["Vec", "new"], [] => some (.list [])
  | ["Some"], [v] => some (.present v)
  | ["PropertySetDescription", "default"], [] => some newDescription
  | ["PropertySetEntry", "new"], [.text name] => some (newEntry name)
  | _, _ => none

/-- Methods that leave their value as it is. -/
def inspect? : Value → String → List Value → Option Value
  | .text s, "to_string", [] => some (.text s)
  | .text s, "to_uppercase", [] => some (.text (Text.uppercase s))
  | .allowList allows, "allow_pset_to_be_created", [.text version, .text setName] =>
    some (.flag (allows version setName))
  | .calculators cs, "lookup", [.text key] => some (.ofOption .calculator (cs.find? key))
  | _, _, _ => none

/-- Methods that change their value. -/
def update? : Value → String → List Value → Option Value
  | .list items, "push", [v] => (Value.list items).push? v
  | .record "PropertySetDescription" fields, "add_entry", [entry] =>
    (Value.record "PropertySetDescription" fields).pushTo? "entries" entry
  | .record "PropertySetEntry" fields, "add_localized_parameter_name", [language, name] =>
    (Value.record "PropertySetEntry" fields).pushTo? "localized_parameter_names"
      (.list [language, name])
  | _, _, _ => none

/-! ## Expressions -/

/-- Variables with their values, latest first. -/
abbrev Env := List (String × Value)

/-- The variables with a value in place of that of the latest variable of a name. -/
def Env.set? : Env → String → Value → Option Env
  | [], _, _ => none
  | (y, w) :: rest, x, v =>
    if x = y then some ((y, v) :: rest) else (set? rest x v).map fun rest => (y, w) :: rest

mutual

/-- The value of an expression that changes nothing. -/
def Expr.eval (env : Env) : Expr → Option Value
  | .text s => some (.text s)
  | .name ["true"] => some (.flag true)
  | .name ["false"] => some (.flag false)
  | .name [x] => env.lookup x
  | .name segments => some (.constant segments)
  | .ofType ["std", "any", "type_name"] type => some (.text ("::".intercalate type))
  | .ofType _ _ => none
  | .field e f => do (← e.eval env).field? f
  | .call f es => do construct? f (← evalAll env es)
  | .method e m es => do inspect? (← e.eval env) m (← evalAll env es)
  -- a borrowed value is the value itself, as nothing is changed while it is borrowed
  | .borrow _ e => e.eval env
  | .both left right => do
    match ← left.eval env with
    | .flag false => return .flag false
    | .flag true => right.eval env
    | _ => none
  | .cast e "i32" => do
    match ← e.eval env with
    | .constant segments => return .number segments
    | _ => none
  | .cast _ _ => none

/-- The values of expressions. -/
def evalAll (env : Env) : List Expr → Option (List Value)
  | [] => some []
  | e :: es => do return (← e.eval env) :: (← evalAll env es)

end

/-- Put a value into a variable or a field. -/
def Env.store? (env : Env) : Expr → Value → Option Env
  | .name [x], v => env.set? x v
  | .field e f, v => do env.store? e (← (← e.eval env).withField? f v)
  | _, _ => none

/-- Put back what a function has made of an argument. -/
def Env.putBack? (env : Env) : Expr × Value → Option Env
  | (.borrow true e, v) => env.store? e v
  | _ => some env

/-! ## Statements -/

section

-- what a function makes of its arguments
variable (call : String → List Value → Option (List Value))

mutual

/-- The variables after a statement. -/
def Statement.exec (env : Env) : Statement → Option Env
  | .declare x e => do return (x, ← e.eval env) :: env
  | .assign target e => do env.store? target (← e.eval env)
  | .evaluate (.method target m es) => do
    env.store? target (← update? (← target.eval env) m (← evalAll env es))
  | .evaluate (.call [f] es) => do
    (es.zip (← call f (← evalAll env es))).foldlM Env.putBack? env
  | .evaluate _ => none
  | .when condition body => do
    match ← condition.eval env with
    | .flag false => return env
    | .flag true =>
      let inner ← execAll env body
      -- what the body declared is gone behind it
      return inner.drop (inner.length - env.length)
    | _ => none

/-- The variables after statements. -/
def execAll (env : Env) : List Statement → Option Env
  | [] => some env
  | s :: rest => do execAll (← s.exec env) rest

end

end

/-- What a function of a text makes of its arguments, with at most `depth` calls under way. -/
def call (functions : List Function) (depth : Nat) (name : String) (values : List Value) :
    Option (List Value) :=
  match depth with
  | 0 => none
  | depth + 1 => do
    let f ← functions.find? (·.name = name)
    if f.parameters.length ≠ values.length then none
    let env ← execAll (call functions depth) (f.parameters.zip values) f.body
    return (env.drop (env.length - values.length)).map (·.2)

end PropertySets.Code
