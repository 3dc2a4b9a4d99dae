/-!
# The ledger of enumerations

Enumerations are filed under a version tag and a name. The first one filed under a key stays;
later ones are compared with it.

* `Ledger.register` — file an enumeration, and learn whether its key was new.
* `Ledger.find?` — the literals filed under a key.
* `Ledger.find?_register` — what is filed first stays, and other keys keep theirs.
-/

namespace PropertySets.Enumeration

/-- What happened when an enumeration was filed. -/
inductive Registration where
  /-- It is the first one under its key. -/
  | first
  /-- The same literals were filed before. -/
  | duplicate
  /-- Other literals were filed before; they stay. -/
  | conflict
  deriving DecidableEq, Repr

/-- A version tag and the name of an enumeration. -/
structure Key where
  tag : String
  name : String
  deriving DecidableEq, Repr

/-- The literals filed under each key, latest key first. -/
structure Ledger where
  entries : List (Key × List String)
  /-- No key comes twice. -/
  distinct : (entries.map (·.1)).Nodup
  deriving Repr

namespace Ledger

/-- Nothing filed. -/
def empty : Ledger := ⟨[], .nil⟩

theorem notMem_of_lookup_eq_none {key : Key} {entries : List (Key × List String)}
    (h : entries.lookup key = none) : key ∉ entries.map (·.1) := by
  intro member
  obtain ⟨entry, inside, rfl⟩ := List.mem_map.1 member
  simpa using List.lookup_eq_none_iff.1 h entry inside

/-- The literals filed under a key. -/
def find? (l : Ledger) (key : Key) : Option (List String) := l.entries.lookup key

/-- File literals under a key that nothing is filed under. -/
def add (l : Ledger) (key : Key) (items : List String) (h : l.find? key = none) : Ledger :=
  ⟨(key, items) :: l.entries, List.nodup_cons.2 ⟨notMem_of_lookup_eq_none h, l.distinct⟩⟩

/-- File literals under a key, unless something is filed there. -/
def register (l : Ledger) (key : Key) (items : List String) : Registration × Ledger :=
  match h : l.find? key with
  | some kept => (if kept = items then .duplicate else .conflict, l)
  | none => (.first, l.add key items h)

theorem find?_add {l : Ledger} {key : Key} {items : List String} (h : l.find? key = none)
    (k : Key) : (l.add key items h).find? k = if k = key then some items else l.find? k := by
  rw [add, find?, find?, List.lookup_cons]
  by_cases same : k = key
  · rw [if_pos same, same, beq_self_eq_true]
  · rw [if_neg same, beq_eq_false_iff_ne.2 same]

/-- What is filed first stays, and other keys keep theirs. -/
theorem find?_register (l : Ledger) (key : Key) (items : List String) (k : Key) :
    (l.register key items).2.find? k =
      if k = key then some ((l.find? key).getD items) else l.find? k := by
  unfold register
  split
  · rename_i kept found
    show l.find? k = _
    by_cases same : k = key
    · rw [if_pos same, same, found, Option.getD_some]
    · rw [if_neg same]
  · rename_i missing
    show (l.add key items missing).find? k = _
    rw [find?_add, missing, Option.getD_none]

/-- How many keys there are. -/
def size (l : Ledger) : Nat := l.entries.length

end Ledger

end PropertySets.Enumeration
