import PropertySets.Proofs.Enumeration.Steps
import PropertySets.Proofs.Generation.Success
import PropertySets.Proofs.Registration.Assignment

/-!
# Composing a module while it is emitted

Instead of all events first and the text at their end, a module can be composed from its parts while
the events happen: the entry of an enumeration is composed with the answer of the reconciler, and
everything that was reported, counted and filed so far goes on to the next part. The module and the
state at the end are the same, since the reconciler answers every request alike, be it new, known
or in conflict with what it knows.

* `Composing`, `composeEntry`, `composeSet`, `composeModule` — composing the parts of a module.
* `Performs` — a composition that carries out some events and, if they go through, has an answer.
* `performs_file` — an enumeration is answered with the tag that it is filed under.
* `performs_composeSet` — the text of a set depends on the state of the emission in no other way.
* `composeModule_eq` — composing a module renders it.
* `exists_rendered` — a run that succeeds does.
-/

namespace PropertySets.Registration

open Enumeration FileTree Naming

/-! ## Composing -/

/-- Composing code while events are carried out, up to the first failure. -/
abbrev Composing (m : Type → Type) [Disk m] (α : Type) : Type :=
  ExceptT Failure (StateT (Emitted (Disk.Handle m)) m) α

/-- What is answered when events have been carried out: their failure, or else `a`. -/
def answering {H α : Type} (a : α) (x : Emitted H × Option Failure) :
    Except Failure α × Emitted H :=
  match x.2 with
  | some failure => (.error failure, x.1)
  | none => (.ok a, x.1)

/-- What happens when a set is looked up among the known sub-element identifiers. -/
def lookupEvents (c : Configuration) (setName : String) : List Event :=
  match subIndex? c setName with
  | some _ => []
  | none => [.report (.of setName .subIndexNotFound
      (subIndexCandidate setName ++ " is not a known IfcCommonPSets identifier"))]

/-- The text of a module from the texts of its sets. -/
def moduleText (c : Configuration) (r : Registry) (texts : List String) : String :=
  Module.renderHead c.output.runtimeModule ++
    Module.renderCalls (r.names.filterMap fun name =>
      ((NameTable.assign r.names).find? name).map (·.routine)) ++
    String.join (texts.map ("\n" ++ ·))

section

variable {m : Type → Type} [Monad m] [Disk m]

/-- Carry out events. -/
def carryOut (events : List Event) : Composing m Unit :=
  ExceptT.mk fun s => answering () <$> emit s events

/-- Deal with an enumeration; what it is answered with. -/
def file (q : Request) : Composing m (Option String) := ExceptT.mk fun s => do
  let (outcome, reconciler) ← s.reconciler.reconcile q
  return (outcome.result, ⟨reconciler, s.flaws ++ outcome.flaws, s.counts⟩)

/-- Compose the parts that the members of a list have. -/
def composeParts {α β : Type} (f : α → Composing m (Option β)) (xs : List α) :
    Composing m (List β) :=
  List.filterMap id <$> xs.mapM f

/-- The reference to the enumeration of a shape, under the tag that was answered. -/
def composeReference (c : Configuration) (e : Edition) (shape : Shape) :
    Composing m (Option EnumReference) :=
  match requestOf e shape with
  | none => return none
  | some q => do
    let filedUnder ← file q
    return filedUnder.map fun tag => ⟨c.output.enumModule, versionModule tag, q.name⟩

/-- The entry of a property. -/
def composeEntry (c : Configuration) (e : Edition) :
    Property → Composing m (Option PropertyEntry)
  | .valued l shape => do
    let enumeration ← composeReference c e shape
    carryOut (l.aliases.flatMap (languageFlaws (sourceOf e) l.name) ++ [.entry])
    return some {
      name := l.name
      backingType := backingTypeOf shape
      kind := .ofShape shape
      enumeration := enumeration
      localizedNames := l.aliases.map fun a => ⟨.ofTag a.language, a.text⟩
      calculatorKey := Naming.calculatorKey l.name }
  | p => do
    carryOut (propertyEvents e p)
    return none

/-- The block of an edition. -/
def composeBlock (c : Configuration) (setName : String) (e : Edition) :
    Composing m (Option Block) :=
  match revision? e with
  | none => do
    carryOut (editionEvents setName e)
    return none
  | some revision => do
    let entries ← composeParts (composeEntry c e) (flattened e.definition)
    carryOut [.block]
    return some {
      revision := revision
      entityTypes := e.definition.applicableClasses.map (entityType c)
      entries := entries }

/-- The routine of a set. -/
def composeRoutine (c : Configuration) (names : SetNames) (group : String × List Edition) :
    Composing m Routine := do
  carryOut (lookupEvents c group.1)
  let blocks ← composeParts (composeBlock c group.1) group.2
  carryOut [.routine]
  return {
    setName := group.1
    routineName := names.routine
    localName := names.localName
    subIndex := subIndex? c group.1
    blocks := blocks }

/-- The text of a set: nothing if it has no names. -/
def composeSet (c : Configuration) (table : NameTable) (group : String × List Edition) :
    Composing m String :=
  match table.find? group.1 with
  | none => return ""
  | some names => Routine.render <$> composeRoutine c names group

/-- The texts of the sets of a registry, under their names. -/
def composeSets (c : Configuration) (r : Registry) : Composing m (List (String × String)) :=
  r.groups.mapM fun group =>
    (group.1, ·) <$> composeSet c (NameTable.assign r.names) group

/-- The text of the module of a registry. -/
def composeModule (c : Configuration) (r : Registry) : Composing m String :=
  (fun texts => moduleText c r (texts.map (·.2))) <$> composeSets c r

end

/-! ## Performing events -/

section

variable {α β : Type} {x : Composing (StateM FileTree) α} {a : α} {events : List Event}

/-- Whatever the state of the emission and the tree are, the events are carried out as an emission
carries them out, and the answer is `a` unless one fails. -/
def Performs (x : Composing (StateM FileTree) α) (events : List Event) (a : α) : Prop :=
  ∀ s t, (x.run.run s : StateM FileTree _) t =
    (answering a ((emit s events : StateM FileTree _) t).1,
      ((emit s events : StateM FileTree _) t).2)

/-- Events one after the other: the later ones are carried out unless an earlier one fails. -/
theorem emit_append (events later : List Event) (s : Emitted Handle) (t : FileTree) :
    (emit s (events ++ later) : StateM FileTree _) t =
      match (emit s events : StateM FileTree _) t with
      | ((s', some failure), t') => ((s', some failure), t')
      | ((s', none), t') => (emit s' later : StateM FileTree _) t' := by
  induction events generalizing s t with
  | nil => rfl
  | cons event rest ih =>
    -- only a request can fail, and then nothing behind it is carried out
    cases event with
    | report flaw => exact ih _ t
    | entry => exact ih _ t
    | block => exact ih _ t
    | routine => exact ih _ t
    | enumeration q =>
      rcases hAnswer : (s.reconciler.reconcile q : StateM FileTree _) t with ⟨⟨outcome, r⟩, t₁⟩
      have hEmit : ∀ events, (emit s (.enumeration q :: events) : StateM FileTree _) t = _ :=
        fun events => bind_apply hAnswer
      rw [List.cons_append, hEmit, hEmit]
      cases hResult : outcome.result with
      | error failure => simp only [hResult]; rfl
      | ok filed => simp only [hResult]; exact ih _ t₁

namespace Performs

theorem pure (a : α) : Performs (Pure.pure a) [] a := fun _ _ => rfl

theorem carryOut (events : List Event) : Performs (carryOut events) events () := fun _ _ => rfl

/-- Two compositions one after the other carry out the events of both. -/
theorem bind {f : α → Composing (StateM FileTree) β} {later : List Event} {b : β}
    (h : Performs x events a) (hNext : Performs (f a) later b) :
    Performs (x >>= f) (events ++ later) b := by
  intro s t
  have hBind : ((x >>= f).run.run s : StateM FileTree _) t =
      match (x.run.run s : StateM FileTree _) t with
      | ((.ok a, s'), t') => ((f a).run.run s' : StateM FileTree _) t'
      | ((.error failure, s'), t') => ((.error failure, s'), t') := by
    show ((x.run.run s : StateM FileTree _) >>= fun (result, s') =>
      ExceptT.bindCont f result s') t = _
    rcases hFirst : (x.run.run s : StateM FileTree _) t with ⟨⟨_ | a, s'⟩, t'⟩
    · exact bind_apply hFirst
    · exact bind_apply hFirst
  -- both sides go on from the state and the tree that the first events leave
  rw [hBind, h s t, emit_append]
  rcases (emit s events : StateM FileTree _) t with ⟨⟨s', _ | failure⟩, t'⟩
  · exact hNext s' t'
  · rfl

theorem andReturn (f : α → β) (h : Performs x events a) :
    Performs (x >>= fun a => Pure.pure (f a)) events (f a) := by
  rw [← List.append_nil events]
  exact h.bind (.pure (f a))

theorem map (f : α → β) (h : Performs x events a) : Performs (f <$> x) events (f a) := by
  rw [map_eq_pure_bind]
  exact h.andReturn f

/-- Compositions over a list carry out the events of all of its members. -/
theorem mapM {γ : Type} {f : γ → Composing (StateM FileTree) α} {eventsOf : γ → List Event}
    {answer : γ → α} {xs : List γ} (h : ∀ y ∈ xs, Performs (f y) (eventsOf y) (answer y)) :
    Performs (xs.mapM f) (xs.flatMap eventsOf) (xs.map answer) := by
  induction xs with
  | nil => exact .pure []
  | cons y ys ih =>
    rw [List.mapM_cons, List.flatMap_cons, List.map_cons]
    have hRest := ih fun z hMem => h z (List.mem_cons_of_mem _ hMem)
    exact (h y List.mem_cons_self).bind (hRest.map (answer y :: ·))

theorem composeParts {γ : Type} {f : γ → Composing (StateM FileTree) (Option α)}
    {eventsOf : γ → List Event} {answer : γ → Option α} {xs : List γ}
    (h : ∀ y ∈ xs, Performs (f y) (eventsOf y) (answer y)) :
    Performs (composeParts f xs) (xs.flatMap eventsOf) (xs.filterMap answer) := by
  -- the parts that are missing are dropped from the answers as they are from what was composed
  have hParts : (xs.map answer).filterMap id = xs.filterMap answer := List.filterMap_map
  rw [← hParts]
  exact (mapM h).map _

/-- A composition that gets through has carried out its events, and its answer is the one that it
has in every state. -/
theorem answer_of_run {s s' : Emitted Handle} {t t' : FileTree} {b : α}
    (h : Performs x events a) (hRun : (x.run.run s : StateM FileTree _) t = ((.ok b, s'), t')) :
    b = a ∧ (emit s events : StateM FileTree _) t = ((s', none), t') := by
  rw [h s t] at hRun
  rcases hEmit : (emit s events : StateM FileTree _) t with ⟨⟨s₁, _ | failure⟩, t₁⟩
  · rw [hEmit] at hRun
    cases hRun
    exact ⟨rfl, rfl⟩
  · rw [hEmit] at hRun
    cases hRun

/-- A composition whose events get through does so. -/
theorem run_of_emit {s s' : Emitted Handle} {t t' : FileTree} (h : Performs x events a)
    (hEmit : (emit s events : StateM FileTree _) t = ((s', none), t')) :
    (x.run.run s : StateM FileTree _) t = ((.ok a, s'), t') := by
  rw [h s t, hEmit]
  rfl

end Performs

/-- **The answer of the reconciler.** A request that gets through is answered with the tag that it
is filed under, whether it is new, known, or in conflict with what is known. -/
theorem performs_file (q : Request) : Performs (file q) [.enumeration q] q.filingTag? := by
  intro s t
  rcases hAnswer : (s.reconciler.reconcile q : StateM FileTree _) t with ⟨⟨outcome, r⟩, t₁⟩
  have hFile : ((file q).run.run s : StateM FileTree _) t =
      ((outcome.result, ⟨r, s.flaws ++ outcome.flaws, s.counts⟩), t₁) :=
    (bind_apply hAnswer).trans rfl
  have hEmit : (emit s [.enumeration q] : StateM FileTree _) t = _ := bind_apply hAnswer
  rw [hFile, hEmit]
  -- what the ledger holds decides what is written and reported, but not the tag that is answered
  cases reconciled_of_run hAnswer with
  | unfiled hFiled => rw [hFiled]; rfl
  | known hFiled => rw [hFiled]; rfl
  | opened hFiled => rw [hFiled]; rfl
  | endless | failed => rfl

/-! ## Composing performs the emission -/

theorem performs_composeReference (c : Configuration) (e : Edition) (shape : Shape) :
    Performs (composeReference c e shape) ((requestOf e shape).map Event.enumeration).toList
      (enumReference? c e shape) := by
  rw [composeReference, enumReference?]
  cases requestOf e shape with
  | none => exact .pure none
  | some q =>
    show Performs _ [.enumeration q] _
    rw [Option.bind_eq_bind, Option.bind_some, bind_pure_comp]
    exact (performs_file q).andReturn _

theorem performs_composeEntry (c : Configuration) (e : Edition) (p : Property) :
    Performs (composeEntry c e p) (propertyEvents e p) (PropertyEntry.ofProperty? c e p) := by
  cases p with
  | typeless l => exact (Performs.carryOut _).andReturn _
  | complex l name properties => exact (Performs.carryOut _).andReturn _
  | valued l shape =>
    rw [propertyEvents, List.append_assoc]
    exact (performs_composeReference c e shape).bind ((Performs.carryOut _).andReturn _)

theorem performs_composeBlock (c : Configuration) (setName : String) (e : Edition) :
    Performs (composeBlock c setName e) (editionEvents setName e) (Block.ofEdition? c e) := by
  cases hRevision : revision? e with
  | none =>
    rw [composeBlock, Block.ofEdition?, hRevision]
    exact (Performs.carryOut _).andReturn _
  | some revision =>
    rw [composeBlock, Block.ofEdition?, editionEvents, hRevision]
    exact (Performs.composeParts fun p _ => performs_composeEntry c e p).bind
      ((Performs.carryOut _).andReturn _)

theorem groupEvents_eq (c : Configuration) (group : String × List Edition) :
    groupEvents c group =
      lookupEvents c group.1 ++ (group.2.flatMap (editionEvents group.1) ++ [.routine]) :=
  List.append_assoc ..

theorem performs_composeRoutine (c : Configuration) (names : SetNames)
    (group : String × List Edition) :
    Performs (composeRoutine c names group) (groupEvents c group)
      (Routine.ofGroup c names group.1 group.2) := by
  rw [groupEvents_eq]
  exact (Performs.carryOut _).bind
    ((Performs.composeParts fun e _ => performs_composeBlock c group.1 e).bind
      ((Performs.carryOut _).andReturn _))

/-- The text of a set with the names that a table has for it. -/
theorem performs_composeSet (c : Configuration) {table : NameTable} {names : SetNames}
    {group : String × List Edition} (h : table.find? group.1 = some names) :
    Performs (composeSet c table group) (groupEvents c group)
      (Routine.ofGroup c names group.1 group.2).render := by
  rw [composeSet, h]
  exact (performs_composeRoutine c names group).map _

/-- The text of a set in the module of a registry. -/
def setText (c : Configuration) (r : Registry) (group : String × List Edition) : String :=
  (Routine.ofGroup c (assignedNames r group.1) group.1 group.2).render

theorem performs_composeSets (c : Configuration) (r : Registry) :
    Performs (composeSets c r) (emission c r)
      (r.groups.map fun group => (group.1, setText c r group)) :=
  Performs.mapM fun _ hMem =>
    (performs_composeSet c (find?_assign (List.mem_map_of_mem hMem))).map _

theorem moduleText_setText (c : Configuration) (r : Registry) :
    moduleText c r (r.groups.map (setText c r)) = (Module.ofRegistry c r).render := by
  rw [moduleText, Module.render, routines_ofRegistry, List.map_map, List.map_map]
  rfl

theorem performs_composeModule (c : Configuration) (r : Registry) :
    Performs (composeModule c r) (emission c r) (Module.ofRegistry c r).render := by
  have hModule := (performs_composeSets c r).map fun texts => moduleText c r (texts.map (·.2))
  rw [List.map_map] at hModule
  rw [← moduleText_setText]
  exact hModule

/-- Rendering a module carries out its events. -/
theorem renderModule_apply (c : Configuration) (r : Registry) (reconciler : Reconciler Handle)
    (t : FileTree) :
    (renderModule c r reconciler : StateM FileTree _) t =
      (answering (Module.ofRegistry c r).render
        ((emit (.start reconciler) (emission c r) : StateM FileTree _) t).1,
        ((emit (.start reconciler) (emission c r) : StateM FileTree _) t).2) := by
  rcases hEmit : (emit (.start reconciler) (emission c r) : StateM FileTree _) t with
    ⟨⟨s, failure?⟩, t'⟩
  have hRender : (renderModule c r reconciler : StateM FileTree _) t = _ := bind_apply hEmit
  rw [hRender]
  cases failure? <;> rfl

/-- **Composing a module** while its events happen renders it: the text, or the failure that came
up, the state of the emission and the tree are the same. -/
theorem composeModule_eq (c : Configuration) (r : Registry) (reconciler : Reconciler Handle) :
    ((composeModule c r).run.run (.start reconciler) : StateM FileTree _) =
      renderModule c r reconciler := by
  funext t
  rw [performs_composeModule, renderModule_apply]

/-- A module that is rendered has its text, and its events have been carried out. -/
theorem emit_of_renderModule {c : Configuration} {r : Registry} {reconciler : Reconciler Handle}
    {s : Emitted Handle} {t t' : FileTree} {text : String}
    (h : (renderModule c r reconciler : StateM FileTree _) t = ((.ok text, s), t')) :
    text = (Module.ofRegistry c r).render ∧
      (emit (.start reconciler) (emission c r) : StateM FileTree _) t = ((s, none), t') := by
  rw [← composeModule_eq] at h
  exact (performs_composeModule c r).answer_of_run h

/-- A run that succeeds renders the module. -/
theorem exists_rendered {c : Configuration} {r : Registry} {t t' : FileTree} {report : Report}
    (h : (generate c r : ExceptT Failure (StateM FileTree) Report).run t = (.ok report, t')) :
    ∃ reconciler begun s filed, (renderModule c r reconciler : StateM FileTree _) begun =
      ((.ok (Module.ofRegistry c r).render, s), filed) := by
  obtain ⟨course⟩ := exists_course h
  refine ⟨course.reconciler, course.begun, course.emitted, course.filed, ?_⟩
  rw [renderModule_apply, course.emits]
  rfl

end

end PropertySets.Registration
