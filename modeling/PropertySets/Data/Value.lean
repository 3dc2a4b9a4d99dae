/-!
# Structured data

The values that data formats carry: scalars, lists, and tables whose fields keep their order.
Settings are read from them, and the model is written as one.

* `Value.field?` — a field of a table.
* `putField`, `lastFields` — fields with one of them set, and without those set again later.
-/

namespace PropertySets.Data

/-- A value of structured data. -/
inductive Value where
  | null
  | boolean (b : Bool)
  | integer (n : Int)
  | real (x : Float)
  | text (s : String)
  | list (items : List Value)
  | table (fields : List (String × Value))
  deriving Repr, Inhabited

namespace Value

/-- The fields of a table, none for any other value. -/
def fields : Value → List (String × Value)
  | table fs => fs
  | _ => []

/-- The value of a field. -/
def field? (v : Value) (key : String) : Option Value := v.fields.lookup key

end Value

section

variable {α : Type}

/-- The fields with the one of `key` set to `v`, at the end if it is new. -/
def putField (key : String) (v : α) : List (String × α) → List (String × α)
  | [] => [(key, v)]
  | (k, old) :: rest => if k = key then (k, v) :: rest else (k, old) :: putField key v rest

/-- The fields with the last value of each key. -/
def lastFields (fields : List (String × α)) : List (String × α) :=
  fields.foldl (fun kept (key, v) => putField key v kept) []

theorem lookup_cons_eq (k j : String) (v : α) (fields : List (String × α)) :
    ((j, v) :: fields).lookup k = if k = j then some v else fields.lookup k := by
  rw [List.lookup_cons]
  by_cases h : k = j
  · rw [if_pos h, beq_iff_eq.2 h]
  · rw [if_neg h, beq_eq_false_iff_ne.2 h]

theorem lookup_putField (key k : String) (v : α) (fields : List (String × α)) :
    (putField key v fields).lookup k = if k = key then some v else fields.lookup k := by
  induction fields with
  | nil => rw [putField, lookup_cons_eq]
  | cons f rest ih =>
    obtain ⟨j, old⟩ := f
    rw [putField]
    -- the value takes the place of the first field with its key, or is put at the end
    split
    · rename_i hj
      subst hj
      rw [lookup_cons_eq, lookup_cons_eq]
      split <;> rfl
    · rename_i hj
      rw [lookup_cons_eq, lookup_cons_eq, ih]
      split
      · rename_i hk
        rw [if_neg (hk ▸ hj)]
      · rfl

end

end PropertySets.Data
