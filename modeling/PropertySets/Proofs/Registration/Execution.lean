import PropertySets.Proofs.Code.Execution
import PropertySets.Proofs.Registration.Code
import PropertySets.Proofs.Registration.Description

/-!
# How a registration module is executed

The code of a module is executed from the inside out. While a routine runs, its variables are those
of `routineEnv`: the description grows, and a flag tells whether it has an entry. What a block
declares comes in front of them and is gone behind the block.

* `Description.extend` — what a block adds to a description.
* `runs_entry`, `runs_entries` — the statements of entries.
* `exec_block`, `runs_blocks` — blocks, of which only those count that are entered.
* `call_routine` — a routine pushes the description of its set if there is an entry.
* `call_module` — the routines of a module push one list.
-/

namespace PropertySets.Registration

open Code

variable {call : String → List Value → Option (List Value)} {x : ExportContext}

/-! ## Descriptions while they are filled -/

namespace Description

/-- The description with more entity types and entries behind the others. -/
def extend (d : Description) (entityTypes : List String) (entries : List ExportedEntry) :
    Description :=
  ⟨d.setName, d.subIndex, d.entityTypes ++ entityTypes, d.entries ++ entries⟩

@[simp] theorem extend_nil (d : Description) : d.extend [] [] = d := by simp [extend]

@[simp] theorem extend_extend (d : Description) (types types' : List String)
    (es es' : List ExportedEntry) :
    (d.extend types es).extend types' es' = d.extend (types ++ types') (es ++ es') := by
  simp [extend]

end Description

/-! ## Entries -/

/-- What the exporter knows of a property whose entry is executed. -/
def PropertyEntry.exported (x : ExportContext) (e : PropertyEntry) : ExportedEntry :=
  ⟨e.name, e.backingType, e.kind, e.enumeration.map EnumReference.path, e.localizedNames,
    x.calculators.find? e.calculatorKey⟩

theorem intercalate_segments (r : EnumReference) : "::".intercalate r.segments = r.path := by
  have hSegments : pathSegments r.enumModule ≠ [] := segmentsFrom_ne_nil _ _
  rw [EnumReference.segments, String.intercalate_append_of_ne_nil hSegments (List.cons_ne_nil _ _),
    intercalate_pathSegments, String.intercalate_cons_cons, String.intercalate_singleton,
    EnumReference.path]
  simp only [String.append_assoc]

/-- An entry while it is being filled. -/
def entryValue (name type kind : String) (enumeration : Option String)
    (localizedNames : List LocalizedName) (calculator : Value) : Value :=
  .record "PropertySetEntry"
    [("parameter_name", .text name), ("property_name", .text name),
      ("property_type", .constant ["PropertyType", type]),
      ("property_value_type", .constant ["PropertyValueType", kind]),
      ("property_enumeration_type", .ofOption .text enumeration),
      ("localized_parameter_names", .list (localizedNames.map LocalizedName.value)),
      ("property_calculator", calculator)]

theorem runs_enumeration (env : Env) (name type kind : String) (r? : Option EnumReference) :
    Runs call (("entry", entryValue name type kind none [] .absent) :: env)
      (r?.toList.map EnumReference.statement)
      (("entry", entryValue name type kind (r?.map EnumReference.path) [] .absent) :: env) := by
  cases r? with
  | none => exact .nil
  | some r =>
    rw [Option.map_some, ← intercalate_segments]
    exact .single rfl

theorem runs_localizedNames (env : Env) (name type kind : String) (enumeration : Option String)
    (done ls : List LocalizedName) :
    Runs call (("entry", entryValue name type kind enumeration done .absent) :: env)
      (ls.flatMap fun l => [l.statement])
      (("entry", entryValue name type kind enumeration (done ++ ls) .absent) :: env) := by
  induction ls generalizing done with
  | nil => rw [List.append_nil]; exact .nil
  | cons l rest ih =>
    have hRest := ih (done ++ [l])
    rw [List.append_assoc] at hRest
    rw [List.flatMap_cons]
    refine Runs.append (.single ?_) hRest
    rw [entryValue, entryValue, List.map_append]
    rfl

/-- The calculator is looked up in the export context. -/
theorem exec_calculator {env : Env} (hCtx : env.lookup "ctx" = some x.value)
    (name type kind : String) (enumeration : Option String) (ls : List LocalizedName)
    (key : String) :
    Statement.exec call (("entry", entryValue name type kind enumeration ls .absent) :: env)
      (.assign (.field (.name ["entry"]) "property_calculator")
        (.method (.field (.name ["ctx"]) "calculators") "lookup" [.text key])) =
      some (("entry", entryValue name type kind enumeration ls
        (.ofOption .calculator (x.calculators.find? key))) :: env) := by
  have hValue : (Expr.method (.field (.name ["ctx"]) "calculators") "lookup" [.text key]).eval
      (("entry", entryValue name type kind enumeration ls .absent) :: env) =
      some (.ofOption .calculator (x.calculators.find? key)) := by
    -- the entry that was just declared does not hide the context
    have hNotEntry : "ctx" ≠ "entry" := by decide
    rw [Expr.eval, Expr.eval, IsVariable.eval ⟨by decide, by decide⟩, lookup_cons_of_ne hNotEntry,
      hCtx]
    rfl
  rw [Statement.exec, hValue]
  rfl

/-- **An entry.** It is put behind the others of the description, and the routine notes that there
is one. -/
theorem runs_entry {env env₁ env₂ : Env} {v : String} {d : Description} (e : PropertyEntry)
    (hVariable : IsVariable v) (hName : v ≠ "entry") (hCtx : env.lookup "ctx" = some x.value)
    (hDescription : env.lookup v = some d.value)
    (hAdded : env.set? v (d.extend [] [e.exported x]).value = some env₁)
    (hNoted : env₁.set? "entry_added" (.flag true) = some env₂) :
    Runs call env (e.statements v) (("entry", (e.exported x).value) :: env₂) := by
  -- the first four statements run whatever the environment is, so they are evaluated
  have hNew : Runs call env
      [.declare "entry" (.call ["PropertySetEntry", "new"] [.text e.name]),
        .assign (.field (.name ["entry"]) "property_name") (.method (.text e.name) "to_string" []),
        .assign (.field (.name ["entry"]) "property_type") (.name ["PropertyType", e.backingType]),
        .assign (.field (.name ["entry"]) "property_value_type")
          (.name ["PropertyValueType", e.kind.name])]
      (("entry", entryValue e.name e.backingType e.kind.name none [] .absent) :: env) := rfl
  -- the description is looked up behind the entry, and changed where it stands
  have hAdd : Statement.exec call (("entry", (e.exported x).value) :: env)
      (.evaluate (.method (.name [v]) "add_entry" [.name ["entry"]])) =
      some (("entry", (e.exported x).value) :: env₁) := by
    have hPushed : update? d.value "add_entry" [(e.exported x).value] =
        some (d.extend [] [e.exported x]).value := by
      rw [Description.value, Description.value, Description.extend, List.append_nil,
        List.map_append]
      rfl
    have hEntry : evalAll (("entry", (e.exported x).value) :: env) [.name ["entry"]] =
        some [(e.exported x).value] := rfl
    rw [Statement.exec, hVariable.eval, lookup_cons_of_ne hName, hDescription, hEntry]
    simp only [Option.bind_eq_bind, Option.bind_some, hPushed]
    exact set?_cons_of_ne hName hAdded
  have hNote : Statement.exec call (("entry", (e.exported x).value) :: env₁)
      (.assign (.name ["entry_added"]) (.name ["true"])) =
      some (("entry", (e.exported x).value) :: env₂) := by
    have hNotEntry : "entry_added" ≠ "entry" := by decide
    exact set?_cons_of_ne hNotEntry hNoted
  -- between these steps, the loops over literals and names only extend the entry
  exact hNew.append ((runs_enumeration env _ _ _ e.enumeration).append
    ((runs_localizedNames env _ _ _ _ [] e.localizedNames).append
      (.cons (exec_calculator hCtx _ _ _ _ _ e.calculatorKey) (.cons hAdd (.single hNote)))))

/-! ## Blocks -/

/-- A word that none of the variables of a routine has but the one of its description. -/
structure IsLocal (v : String) : Prop extends IsVariable v where
  ne_entry : v ≠ "entry"
  ne_version : v ≠ "file_version"
  ne_added : v ≠ "entry_added"
  ne_sets : v ≠ "common_property_sets"
  ne_ctx : v ≠ "ctx"

/-- The variables of a routine that has described its set as `d`. -/
def routineEnv (x : ExportContext) (v : String) (d : Description) (added : Bool)
    (sets : List Value) : Env :=
  [("file_version", .text (Text.uppercase x.fileVersion)), ("entry_added", .flag added),
    (v, d.value), ("common_property_sets", .list sets), ("ctx", x.value)]

section

variable {v : String} {d : Description} {added : Bool} {sets : List Value}

theorem lookup_local (h : IsLocal v) : (routineEnv x v d added sets).lookup v = some d.value := by
  rw [routineEnv, lookup_cons_of_ne h.ne_version, lookup_cons_of_ne h.ne_added,
    List.lookup_cons_self]

theorem lookup_ctx (h : IsLocal v) :
    (routineEnv x v d added sets).lookup "ctx" = some x.value := by
  have hOther : List.lookup "ctx" ((v, d.value) :: [("common_property_sets", .list sets),
      ("ctx", x.value)]) = some x.value := lookup_cons_of_ne h.ne_ctx.symm
  exact hOther

theorem set?_local (h : IsLocal v) (d' : Description) :
    (routineEnv x v d added sets).set? v d'.value = some (routineEnv x v d' added sets) := by
  refine set?_cons_of_ne h.ne_version (set?_cons_of_ne h.ne_added ?_)
  rw [Env.set?, if_pos rfl]

theorem lookup_sets (h : IsLocal v) :
    (routineEnv x v d added sets).lookup "common_property_sets" = some (.list sets) := by
  have hOther : List.lookup "common_property_sets" ((v, d.value) ::
      [("common_property_sets", .list sets), ("ctx", x.value)]) = some (.list sets) :=
    lookup_cons_of_ne h.ne_sets.symm
  exact hOther

theorem set?_sets (h : IsLocal v) (sets' : List Value) :
    (routineEnv x v d added sets).set? "common_property_sets" (.list sets') =
      some (routineEnv x v d added sets') := by
  have hVersion : "common_property_sets" ≠ "file_version" := by decide
  have hAdded : "common_property_sets" ≠ "entry_added" := by decide
  exact set?_cons_of_ne hVersion (set?_cons_of_ne hAdded (set?_cons_of_ne h.ne_sets.symm rfl))

theorem set?_added (b : Bool) :
    (routineEnv x v d added sets).set? "entry_added" (.flag b) = some (routineEnv x v d b sets) :=
  rfl

theorem exec_entity (h : IsLocal v) (entity : String) :
    (entityStatement v entity).exec call (routineEnv x v d added sets) =
      some (routineEnv x v (d.extend [entity] []) added sets) := by
  have hTypes : d.value.field? "entity_types" = some (.list (d.entityTypes.map fun entity =>
      .constant ["IfcEntityType", entity])) := rfl
  -- the list of entity types is a field of the description: it is read, and written back
  have hPushed : d.value.withField? "entity_types"
      (.list ((d.entityTypes.map fun entity => .constant ["IfcEntityType", entity]) ++
        [.constant ["IfcEntityType", entity]])) = some (d.extend [entity] []).value := by
    rw [Description.value, Description.value, Description.extend, List.append_nil, List.map_append]
    rfl
  have hDescription : (Expr.name [v]).eval (routineEnv x v d added sets) = some d.value :=
    (h.eval _).trans (lookup_local h)
  have hEntity : evalAll (routineEnv x v d added sets) [.name ["IfcEntityType", entity]] =
      some [.constant ["IfcEntityType", entity]] := rfl
  simp only [entityStatement, Statement.exec, Expr.eval, hDescription, hTypes, hEntity,
    Option.bind_eq_bind, Option.bind_some]
  exact store?_field h.toIsVariable (lookup_local h) hPushed (set?_local h _)

theorem runs_entities (h : IsLocal v) (entities : List String) :
    Runs call (routineEnv x v d added sets)
      (entities.flatMap fun entity => [entityStatement v entity])
      (routineEnv x v (d.extend entities []) added sets) := by
  induction entities generalizing d with
  | nil =>
    rw [Description.extend_nil]
    exact .nil
  | cons entity rest ih =>
    have hRest := ih (d := d.extend [entity] [])
    rw [Description.extend_extend] at hRest
    exact .cons (exec_entity h entity) hRest

/-- The entries of a block hide nothing but earlier entries. -/
theorem runs_entries (h : IsLocal v) (entries : List PropertyEntry) {inner : Env}
    (hInner : ∀ p ∈ inner, p.1 = "entry") :
    ∃ inner' : Env, (∀ p ∈ inner', p.1 = "entry") ∧
      Runs call (inner ++ routineEnv x v d added sets)
        (entries.flatMap (PropertyEntry.statements v))
        (inner' ++ routineEnv x v (d.extend [] (entries.map (PropertyEntry.exported x)))
          (added || !entries.isEmpty) sets) := by
  -- every entry declares its variable anew, in front of those of the entries before it
  induction entries generalizing inner d added with
  | nil =>
    rw [List.map_nil, Description.extend_nil]
    exact ⟨inner, hInner, by simpa using Runs.nil⟩
  | cons e rest ih =>
    have hLocal : ∀ p ∈ inner, v ≠ p.1 := fun p hMem hSame =>
      h.ne_entry (hSame.trans (hInner p hMem))
    have hCtx : ∀ p ∈ inner, "ctx" ≠ p.1 := fun p hMem => by rw [hInner p hMem]; decide
    have hAdded : ∀ p ∈ inner, "entry_added" ≠ p.1 := fun p hMem => by
      rw [hInner p hMem]
      decide
    have hFirst : Runs call (inner ++ routineEnv x v d added sets) (e.statements v)
        (("entry", (e.exported x).value) ::
          (inner ++ routineEnv x v (d.extend [] [e.exported x]) true sets)) :=
      runs_entry e h.toIsVariable h.ne_entry ((lookup_behind hCtx).trans (lookup_ctx h))
        ((lookup_behind hLocal).trans (lookup_local h)) (set?_behind hLocal (set?_local h _))
        (set?_behind hAdded (set?_added true))
    have hBehind : ∀ p ∈ ("entry", (e.exported x).value) :: inner, p.1 = "entry" := by
      intro p hMem
      rcases List.mem_cons.1 hMem with rfl | hMem
      · rfl
      · exact hInner p hMem
    obtain ⟨inner', hInner', hRest⟩ := @ih (d.extend [] [e.exported x]) true _ hBehind
    refine ⟨inner', hInner', ?_⟩
    rw [Description.extend_extend] at hRest
    have hFlag : (added || !(e :: rest).isEmpty) = (true || !rest.isEmpty) := by simp
    rw [hFlag]
    exact hFirst.append hRest

/-- Is a block entered? -/
def entered (x : ExportContext) (setName : String) (b : Block) : Bool :=
  x.exports b.revision && x.allowsSet setName

theorem eval_condition (h : IsLocal v) (setName : String) (b : Block) :
    (b.condition setName).eval (routineEnv x v d added sets) =
      some (.flag (entered x setName b)) := by
  have hCtx : (Expr.name ["ctx"]).eval (routineEnv x v d added sets) = some x.value :=
    lookup_ctx h
  have hFlag : (Expr.field (.field (.name ["ctx"]) "options") b.revision.exportFlag).eval
      (routineEnv x v d added sets) = some (.flag (x.exports b.revision)) := by
    simp only [Expr.eval, hCtx, Option.bind_eq_bind, Option.bind_some]
    cases b.revision <;> rfl
  have hAllowed : (Expr.method (.field (.name ["ctx"]) "certified_psets")
      "allow_pset_to_be_created" [.borrow false (.name ["file_version"]), .text setName]).eval
      (routineEnv x v d added sets) = some (.flag (x.allowsSet setName)) := by
    have hArguments : evalAll (routineEnv x v d added sets)
        [.borrow false (.name ["file_version"]), .text setName] =
        some [.text (Text.uppercase x.fileVersion), .text setName] := rfl
    simp only [Expr.eval, hCtx, hArguments, Option.bind_eq_bind, Option.bind_some]
    rfl
  rw [Block.condition, Expr.eval, hFlag]
  -- the right-hand side of the conjunction is evaluated only if the revision is exported
  cases hExported : x.exports b.revision with
  | false => simp [entered, hExported]
  | true => simpa [entered, hExported] using hAllowed

/-- The body of a block. What its entries declare is in front of the variables of the routine. -/
theorem runs_body (h : IsLocal v) (b : Block) :
    ∃ inner : Env, Runs call (routineEnv x v d added sets) (b.body v)
      (inner ++ routineEnv x v
        (d.extend b.entityTypes (b.entries.map (PropertyEntry.exported x)))
        (added || !b.entries.isEmpty) sets) := by
  have hNone : ∀ p ∈ ([] : Env), p.1 = "entry" := nofun
  have hEntries : ∃ inner : Env, (∀ p ∈ inner, p.1 = "entry") ∧
      Runs call ([] ++ routineEnv x v (d.extend b.entityTypes []) added sets)
        (b.entries.flatMap (PropertyEntry.statements v))
        (inner ++ routineEnv x v ((d.extend b.entityTypes []).extend []
          (b.entries.map (PropertyEntry.exported x))) (added || !b.entries.isEmpty) sets) :=
    runs_entries h b.entries hNone
  obtain ⟨inner, -, hEntries⟩ := hEntries
  rw [Description.extend_extend, List.append_nil, List.nil_append] at hEntries
  exact ⟨inner, (runs_entities h b.entityTypes).append hEntries⟩

/-- **A block.** If it is entered, its entity types and entries go behind the others of the
description; else nothing happens. -/
theorem exec_block (h : IsLocal v) (setName : String) (b : Block) :
    (b.statement setName v).exec call (routineEnv x v d added sets) = some
      (if entered x setName b then
        routineEnv x v (d.extend b.entityTypes (b.entries.map (PropertyEntry.exported x)))
          (added || !b.entries.isEmpty) sets
      else routineEnv x v d added sets) := by
  rw [Block.statement, Statement.exec, eval_condition h]
  cases entered x setName b with
  | false => rfl
  | true =>
    obtain ⟨inner, hBody⟩ : ∃ inner : Env, Runs call (routineEnv x v d added sets) (b.body v) _ :=
      runs_body h b
    simp only [Option.bind_eq_bind, Option.bind_some]
    rw [show execAll call _ _ = _ from hBody]
    simp [routineEnv]

/-- The entries of blocks. -/
def entriesOf (x : ExportContext) (blocks : List Block) : List ExportedEntry :=
  blocks.flatMap fun b => b.entries.map (PropertyEntry.exported x)

/-- **The blocks of a routine.** Those that are entered count, in their order. -/
theorem runs_blocks (h : IsLocal v) (setName : String) (blocks : List Block) :
    Runs call (routineEnv x v d added sets) (blocks.flatMap fun b => [b.statement setName v])
      (routineEnv x v
        (d.extend ((blocks.filter (entered x setName)).flatMap Block.entityTypes)
          (entriesOf x (blocks.filter (entered x setName))))
        (added || !(entriesOf x (blocks.filter (entered x setName))).isEmpty) sets) := by
  -- what was pushed before is in `d` and `added`, which the induction is for all of
  induction blocks generalizing d added with
  | nil => simpa [entriesOf] using Runs.nil
  | cons b rest ih =>
    refine .cons (exec_block h setName b) ?_
    cases hEntered : entered x setName b with
    | false =>
      rw [List.filter_cons_of_neg (by simp [hEntered])]
      -- a block that is not entered is passed over, and is not in the filtered list either
      exact ih
    | true =>
      have hRest := @ih (d.extend b.entityTypes (b.entries.map (PropertyEntry.exported x)))
        (added || !b.entries.isEmpty)
      -- to extend twice is to extend by both lists
      rw [Description.extend_extend] at hRest
      rw [List.filter_cons_of_pos (by simp [hEntered])]
      have hFlag : (added || !(entriesOf x (b :: rest.filter (entered x setName))).isEmpty) =
          ((added || !b.entries.isEmpty) ||
            !(entriesOf x (rest.filter (entered x setName))).isEmpty) := by
        cases hEntries : b.entries <;> simp [entriesOf, hEntries]
      rw [hFlag]
      exact hRest

end

/-! ## Routines -/

/-- What is known of the set of a routine, if there is an entry. -/
def Routine.description? (x : ExportContext) (r : Routine) : Option Description :=
  let blocks := r.blocks.filter (entered x r.setName)
  if (entriesOf x blocks).isEmpty then none
  else some ⟨r.setName, r.subIndex, blocks.flatMap Block.entityTypes, entriesOf x blocks⟩

/-- The descriptions with that of a routine behind them. -/
def Routine.pushTo (x : ExportContext) (r : Routine) (sets : List Value) : List Value :=
  sets ++ ((r.description? x).map Description.value).toList

section

variable {r : Routine} {sets : List Value}

/-- Before its blocks, a routine describes its set without entity types and entries. -/
theorem runs_routineStart (h : IsLocal r.localName) :
    Runs call [("common_property_sets", .list sets), ("ctx", x.value)]
      ([.declare r.localName (.call ["PropertySetDescription", "default"] []),
        .assign (.field (.name [r.localName]) "name") (.method (.text r.setName) "to_string" [])] ++
      (r.subIndex.toList.map (Routine.indexStatement r.localName) ++
      [.declare "entry_added" (.name ["false"]),
        .declare "file_version" (.method (.method (.field (.field (.name ["ctx"]) "options")
          "file_version") "to_string" []) "to_uppercase" [])]))
      (routineEnv x r.localName ⟨r.setName, r.subIndex, [], []⟩ false sets) := by
  -- the description is declared in front of the parameters and filled where it is
  let parameters : Env := [("common_property_sets", .list sets), ("ctx", x.value)]
  let described (setName : String) (subIndex : Option String) : Env :=
    (r.localName, (Description.mk setName subIndex [] []).value) :: parameters
  have hSet : ∀ (d d' : Description), Env.set? ((r.localName, d.value) :: parameters) r.localName
      d'.value = some ((r.localName, d'.value) :: parameters) := fun d d' => by
    rw [Env.set?, if_pos rfl]
  have hName : Statement.exec call (described "" none)
      (.assign (.field (.name [r.localName]) "name") (.method (.text r.setName) "to_string" [])) =
      some (described r.setName none) :=
    store?_field h.toIsVariable List.lookup_cons_self rfl (hSet _ ⟨r.setName, none, [], []⟩)
  have hIndex : Runs call (described r.setName none)
      (r.subIndex.toList.map (Routine.indexStatement r.localName))
      (described r.setName r.subIndex) := by
    cases r.subIndex with
    | none => exact .nil
    | some identifier =>
      have hField : (Description.mk r.setName none [] []).value.withField? "sub_element_index"
          (.number ["IfcCommonPSets", identifier]) =
          some (Description.mk r.setName (some identifier) [] []).value := rfl
      exact .single (store?_field h.toIsVariable List.lookup_cons_self hField (hSet _ _))
  have hVersion : Statement.exec call
      (("entry_added", .flag false) :: described r.setName r.subIndex)
      (.declare "file_version" (.method (.method (.field (.field (.name ["ctx"]) "options")
        "file_version") "to_string" []) "to_uppercase" [])) =
      some (routineEnv x r.localName ⟨r.setName, r.subIndex, [], []⟩ false sets) := by
    have hCtx : (Expr.name ["ctx"]).eval
        (("entry_added", .flag false) :: described r.setName r.subIndex) = some x.value := by
      have hBehind : List.lookup "ctx" parameters = some x.value := rfl
      exact (lookup_cons_of_ne h.ne_ctx.symm).trans hBehind
    simp only [Statement.exec, Expr.eval, evalAll, hCtx, Option.bind_eq_bind, Option.bind_some]
    rfl
  exact (Runs.cons rfl (.single hName)).append (hIndex.append (.cons rfl (.single hVersion)))

/-- In the end, the description is pushed if there is an entry. -/
theorem exec_pushDescription {v : String} (h : IsLocal v) (d : Description) (added : Bool) :
    Statement.exec call (routineEnv x v d added sets)
      (.when (.name ["entry_added"])
        [.evaluate (.method (.name ["common_property_sets"]) "push" [.name [v]])]) =
      some (routineEnv x v d added (if added then sets ++ [d.value] else sets)) := by
  -- without an entry the condition is false, and the statement does nothing
  cases added with
  | false => rfl
  | true =>
    have hPush : Statement.exec call (routineEnv x v d true sets)
        (.evaluate (.method (.name ["common_property_sets"]) "push" [.name [v]])) =
        some (routineEnv x v d true (sets ++ [d.value])) := by
      have hSets : (Expr.name ["common_property_sets"]).eval (routineEnv x v d true sets) =
          some (.list sets) := lookup_sets h
      have hDescription : evalAll (routineEnv x v d true sets) [.name [v]] = some [d.value] := by
        rw [evalAll, h.eval, lookup_local h]
        rfl
      rw [Statement.exec, hSets, hDescription]
      exact set?_sets h _
    have hBody : execAll call (routineEnv x v d true sets)
        [.evaluate (.method (.name ["common_property_sets"]) "push" [.name [v]])] =
        some (routineEnv x v d true (sets ++ [d.value])) := Runs.single hPush
    have hCondition : (Expr.name ["entry_added"]).eval (routineEnv x v d true sets) =
        some (.flag true) := rfl
    rw [Statement.exec, hCondition]
    simp only [Option.bind_eq_bind, Option.bind_some, hBody]
    rfl

/-- **A routine.** It pushes the description of its set if there is an entry. -/
theorem runs_routine (h : IsLocal r.localName) :
    ∃ d added, Runs call [("common_property_sets", .list sets), ("ctx", x.value)] r.body
      (routineEnv x r.localName d added (r.pushTo x sets)) := by
  let blocks : List Block := r.blocks.filter (entered x r.setName)
  let d : Description :=
    ⟨r.setName, r.subIndex, blocks.flatMap Block.entityTypes, entriesOf x blocks⟩
  have hBlocks : Runs call (routineEnv x r.localName ⟨r.setName, r.subIndex, [], []⟩ false sets)
      (r.blocks.flatMap fun b => [b.statement r.setName r.localName])
      (routineEnv x r.localName d (!(entriesOf x blocks).isEmpty) sets) :=
    runs_blocks h r.setName r.blocks
  -- the flag says whether there are entries, which is what `description?` asks
  have hPushed : (if (!(entriesOf x blocks).isEmpty) = true then sets ++ [d.value] else sets) =
      r.pushTo x sets := by
    rw [Routine.pushTo, Routine.description?]
    change _ = sets ++ ((if (entriesOf x blocks).isEmpty = true then none else some d).map
      Description.value).toList
    cases (entriesOf x blocks).isEmpty with
    | false => rfl
    | true => exact (List.append_nil _).symm
  have hEnd : Statement.exec call (routineEnv x r.localName d (!(entriesOf x blocks).isEmpty) sets)
      (.when (.name ["entry_added"])
        [.evaluate (.method (.name ["common_property_sets"]) "push" [.name [r.localName]])]) = _ :=
    exec_pushDescription h d (!(entriesOf x blocks).isEmpty)
  rw [hPushed] at hEnd
  refine ⟨d, !(entriesOf x blocks).isEmpty, ?_⟩
  have hAll := (runs_routineStart h).append (hBlocks.append (.single hEnd))
  simpa only [Routine.body, List.append_assoc] using hAll

/-- **A call of a routine.** It leaves the descriptions with that of its set behind them. -/
theorem call_routine {functions : List Function} (h : IsLocal r.localName)
    (hFound : functions.find? (·.name = r.routineName) = some r.function) (depth : Nat) :
    Code.call functions (depth + 1) r.routineName [.list sets, x.value] =
      some [.list (r.pushTo x sets), x.value] := by
  -- the parameters of a routine are the list and the context, in this order
  have hBody : ∃ d added, Runs (Code.call functions depth)
      (r.function.parameters.zip [.list sets, x.value]) r.function.body
      (routineEnv x r.localName d added (r.pushTo x sets)) := runs_routine h
  obtain ⟨d, added, hBody⟩ := hBody
  rw [Code.call, hFound]
  have hRun : execAll (Code.call functions depth)
      (r.function.parameters.zip [.list sets, x.value]) r.function.body =
      some (routineEnv x r.localName d added (r.pushTo x sets)) := hBody
  change (execAll (Code.call functions depth) (r.function.parameters.zip _)
    r.function.body).bind _ = _
  rw [hRun]
  rfl

end

/-! ## Modules -/

/-- The variables of the routine that calls all others. -/
def callsEnv (x : ExportContext) (before sets : List Value) : Env :=
  [("common_property_sets", .list sets), ("property_sets", .list before), ("ctx", x.value)]

theorem exec_call {before sets sets' : List Value} {name : String}
    (h : call name [.list sets, x.value] = some [.list sets', x.value]) :
    (Module.callStatement name).exec call (callsEnv x before sets) =
      some (callsEnv x before sets') := by
  have hArguments : evalAll (callsEnv x before sets)
      [.borrow true (.name ["common_property_sets"]), .name ["ctx"]] =
      some [.list sets, x.value] := rfl
  rw [Module.callStatement, Statement.exec, hArguments]
  simp only [Option.bind_eq_bind, Option.bind_some, h]
  rfl

theorem runs_calls {before : List Value} {routines : List Routine}
    (h : ∀ r ∈ routines, ∀ sets,
      call r.routineName [.list sets, x.value] = some [.list (r.pushTo x sets), x.value])
    (sets : List Value) :
    Runs call (callsEnv x before sets)
      ((routines.map Routine.routineName).flatMap fun name => [Module.callStatement name])
      (callsEnv x before
        (sets ++ (routines.filterMap (Routine.description? x)).map Description.value)) := by
  induction routines generalizing sets with
  | nil =>
    rw [List.filterMap_nil, List.map_nil (f := Description.value), List.append_nil]
    exact .nil
  | cons r rest ih =>
    -- the first call pushes one description or none, and the others go on behind it
    have hRest := ih (fun r' hMem => h r' (List.mem_cons_of_mem _ hMem)) (r.pushTo x sets)
    have hSets : r.pushTo x sets ++
        (rest.filterMap (Routine.description? x)).map Description.value =
        sets ++ ((r :: rest).filterMap (Routine.description? x)).map Description.value := by
      rw [Routine.pushTo, List.filterMap_cons]
      cases r.description? x <;> simp
    rw [hSets] at hRest
    exact .cons (exec_call (h r List.mem_cons_self sets)) hRest

/-- A function is found under its name if no function before it has that name. -/
theorem find?_function {routines : List Routine}
    (hDistinct : (routines.map Routine.routineName).Nodup) {r : Routine} (hMem : r ∈ routines) :
    (routines.map Routine.function).find? (·.name = r.routineName) = some r.function := by
  induction routines with
  | nil => cases hMem
  | cons r' rest ih =>
    rw [List.map_cons, List.nodup_cons] at hDistinct
    rw [List.map_cons]
    rcases List.mem_cons.1 hMem with rfl | hMem
    · exact List.find?_cons_of_pos (by simp [Routine.function])
    · have hOther : r'.routineName ≠ r.routineName := fun hSame =>
        hDistinct.1 (hSame ▸ List.mem_map_of_mem hMem)
      rw [List.find?_cons_of_neg (by simp [Routine.function, hOther])]
      exact ih hDistinct.2 hMem

/-- What a module needs for its routines to be told apart. -/
structure Module.Callable (m : Module) : Prop where
  calls : m.calls = m.routines.map Routine.routineName
  distinct : (m.routines.map Routine.routineName).Nodup
  ne_main : ∀ r ∈ m.routines, r.routineName ≠ "init_common_property_sets"
  locals : ∀ r ∈ m.routines, IsLocal r.localName

/-- **A module.** Its routines push one list, of the descriptions of their sets in order. -/
theorem call_module {m : Module} (h : m.Callable) (before : List Value) (depth : Nat) :
    Code.call m.functions (depth + 2) "init_common_property_sets" [.list before, x.value] =
      some [.list (before ++
        [.list ((m.routines.filterMap (Routine.description? x)).map Description.value)]),
        x.value] := by
  let sets : List Value := (m.routines.filterMap (Routine.description? x)).map Description.value
  have hRoutines : ∀ r ∈ m.routines, ∀ sets, Code.call m.functions (depth + 1) r.routineName
      [.list sets, x.value] = some [.list (r.pushTo x sets), x.value] := by
    -- a call finds the routine itself: its name is not that of the main function, and no other
    -- routine has it
    intro r hMem sets
    refine call_routine (h.locals r hMem) ?_ depth
    rw [Module.functions, List.find?_cons_of_neg
      (by simp [Module.callsFunction, (h.ne_main r hMem).symm])]
    exact find?_function h.distinct hMem
  have hCalls : Runs (Code.call m.functions (depth + 1)) (callsEnv x before [])
      (m.calls.flatMap fun name => [Module.callStatement name]) (callsEnv x before sets) := by
    rw [h.calls]
    exact runs_calls hRoutines []
  -- the list of the module starts out empty, and is itself pushed at the end
  have hBody : Runs (Code.call m.functions (depth + 1))
      [("property_sets", .list before), ("ctx", x.value)] (Module.callsFunction m.calls).body
      (callsEnv x (before ++ [.list sets]) sets) := .cons rfl (hCalls.append (.single rfl))
  have hFound : m.functions.find? (·.name = "init_common_property_sets") =
      some (Module.callsFunction m.calls) := List.find?_cons_of_pos rfl
  have hRun : execAll (Code.call m.functions (depth + 1))
      ((Module.callsFunction m.calls).parameters.zip [.list before, x.value])
      (Module.callsFunction m.calls).body = some (callsEnv x (before ++ [.list sets]) sets) := hBody
  rw [Code.call, hFound]
  change (execAll (Code.call m.functions (depth + 1))
    ((Module.callsFunction m.calls).parameters.zip _)
    (Module.callsFunction m.calls).body).bind _ = _
  rw [hRun]
  rfl

end PropertySets.Registration
