import PropertySets.Registration.OfRegistry

/-!
# Emitting a registration module

While the module is emitted, flaws are reported, enumerations come up, and blocks and entries are
counted. `emission` lists these events in the order in which they happen; `emit` carries them out
and stops at the first failure.

* `Event`, `emission` — what happens, as a list.
* `emit` — carrying it out.
-/

namespace PropertySets.Registration

open Naming

/-- What happens while a module is emitted. -/
inductive Event where
  /-- A flaw is reported. -/
  | report (flaw : Diagnostic)
  /-- An enumeration comes up. -/
  | enumeration (request : Enumeration.Request)
  /-- An entry is complete. -/
  | entry
  /-- A block is complete. -/
  | block
  /-- A routine is complete. -/
  | routine
  deriving DecidableEq, Repr

/-- The flaw of a locale tag that is not known. -/
def languageFlaws (source propertyName : String) (a : Alias) : List Event :=
  if (Language.ofTag a.language).isKnown then []
  else [.report (.of source .unknownLanguage
    ("alias language '" ++ a.language ++ "' of " ++ propertyName ++ " is not recognized"))]

/-- What happens for a property. -/
def propertyEvents (e : Edition) : Property → List Event
  | .typeless l =>
    [.report (.of (sourceOf e) .typelessProperty (l.name ++ " has no property type, skipped"))]
  | .complex l _ _ =>
    [.report (.of (sourceOf e) .nestedComplexProperty
      (l.name ++ " is a complex property inside a complex property, skipped"))]
  | .valued l shape =>
    ((requestOf e shape).map Event.enumeration).toList ++
      l.aliases.flatMap (languageFlaws (sourceOf e) l.name) ++ [.entry]

/-- What happens for an edition. -/
def editionEvents (setName : String) (e : Edition) : List Event :=
  match revision? e with
  | none =>
    [.report (.of setName .unknownRevision ("IfcVersion " ++ e.version ++ " in " ++ e.folder ++
      " matches no export revision, definition skipped"))]
  | some _ => (flattened e.definition).flatMap (propertyEvents e) ++ [.block]

/-- What happens for a set. -/
def groupEvents (c : Configuration) (group : String × List Edition) : List Event :=
  let lookup : List Event := match subIndex? c group.1 with
    | some _ => []
    | none => [.report (.of group.1 .subIndexNotFound
        (subIndexCandidate group.1 ++ " is not a known IfcCommonPSets identifier"))]
  lookup ++ group.2.flatMap (editionEvents group.1) ++ [.routine]

/-- What happens for a registry. -/
def emission (c : Configuration) (r : Registry) : List Event := r.groups.flatMap (groupEvents c)

/-- How many routines, blocks and entries are complete. -/
structure Counts where
  routines : Nat
  blocks : Nat
  entries : Nat
  deriving DecidableEq, Repr

/-- How far an emission got. -/
structure Emitted (H : Type) where
  reconciler : Enumeration.Reconciler H
  flaws : Diagnostics
  counts : Counts

namespace Emitted

variable {H : Type}

/-- Nothing emitted yet. -/
def start (reconciler : Enumeration.Reconciler H) : Emitted H := ⟨reconciler, [], ⟨0, 0, 0⟩⟩

end Emitted

section

variable {m : Type → Type} [Monad m] [Disk m]

/-- Carry out events up to the first failure. -/
def emit (s : Emitted (Disk.Handle m)) : List Event → m (Emitted (Disk.Handle m) × Option Failure)
  | [] => return (s, none)
  | event :: rest => do
    let n := s.counts
    match event with
    | .report flaw => emit ⟨s.reconciler, s.flaws ++ [flaw], n⟩ rest
    | .entry => emit ⟨s.reconciler, s.flaws, ⟨n.routines, n.blocks, n.entries + 1⟩⟩ rest
    | .block => emit ⟨s.reconciler, s.flaws, ⟨n.routines, n.blocks + 1, n.entries⟩⟩ rest
    | .routine => emit ⟨s.reconciler, s.flaws, ⟨n.routines + 1, n.blocks, n.entries⟩⟩ rest
    | .enumeration request =>
      let (outcome, reconciler) ← s.reconciler.reconcile request
      -- the flaws of a request are kept, even if it fails
      let after : Emitted (Disk.Handle m) := ⟨reconciler, s.flaws ++ outcome.flaws, n⟩
      match outcome.result with
      | .error failure => return (after, some failure)
      | .ok _ => emit after rest

end

end PropertySets.Registration
