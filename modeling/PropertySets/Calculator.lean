import PropertySets.Naming.Tokens
import PropertySets.Text.Quoted

/-!
# Calculators

The exporter binds calculators to the properties whose values it computes. Generated code looks a
calculator up under the key of its property; the last one filed under a key counts.

* `CalculatorInput` — what a calculator is given.
* `Calculators` — calculators by key, with `register`, `registerFor`, `find?`.
-/

namespace PropertySets

/-- What a calculator is given. -/
structure CalculatorInput where
  setName : String
  propertyName : String
  entityType : String
  /-- Raw parameter values, latest first. -/
  parameters : List (String × String)
  deriving Repr

namespace CalculatorInput

/-- The input with a parameter set. -/
def withParameter (i : CalculatorInput) (name value : String) : CalculatorInput :=
  ⟨i.setName, i.propertyName, i.entityType, (name, value) :: i.parameters⟩

/-- The value of a parameter. -/
def parameter? (i : CalculatorInput) (name : String) : Option String := i.parameters.lookup name

end CalculatorInput

/-- Computes the value of a property; none when the input does not determine one. -/
abbrev Calculator := CalculatorInput → Option String

/-- Calculators by key, in ascending order of the keys. -/
structure Calculators where
  entries : List (String × Calculator)

namespace Calculators

/-- No calculators. -/
def empty : Calculators := ⟨[]⟩

/-- Set the calculator of a key. -/
def registerIn (key : String) (c : Calculator) : List (String × Calculator) →
    List (String × Calculator)
  | [] => [(key, c)]
  | (k, d) :: rest =>
    if key = k then (key, c) :: rest
    else if key < k then (key, c) :: (k, d) :: rest
    else (k, d) :: registerIn key c rest

/-- File a calculator under a key in place of any earlier one. -/
def register (cs : Calculators) (key : String) (c : Calculator) : Calculators :=
  ⟨registerIn key c cs.entries⟩

/-- File a calculator under the key of a property. -/
def registerFor (cs : Calculators) (propertyName : String) (c : Calculator) : Calculators :=
  cs.register (Naming.calculatorKey propertyName) c

/-- The calculator of a key. -/
def find? (cs : Calculators) (key : String) : Option Calculator := cs.entries.lookup key

/-- The keys, in ascending order. -/
def keys (cs : Calculators) : List String := cs.entries.map (·.1)

/-- The keys as they are shown. -/
def render (cs : Calculators) : String :=
  "CalculatorRegistry \x7b keys: [" ++ ", ".intercalate (cs.keys.map Text.Quoted.quote) ++ "] \x7d"

end Calculators

end PropertySets
