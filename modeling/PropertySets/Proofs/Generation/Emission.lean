import Mathlib.Data.List.Basic
import PropertySets.Proofs.Enumeration.Run
import PropertySets.Registration.Emission

/-!
# The enumerations of an emission

Among the events of an emission are the enumerations of the registry, in the order of its sets,
their editions and their properties. Carrying out the events files them one after the other.

* `Registry.requests`, `Registry.filedTags` — the enumerations of a registry and their tags.
* `requests_emission` — they are those that come up in its emission.
* `EmitOutcome`, `emit_run` — the emission goes through, or stops at the first tag whose file cannot
  be opened, or goes on for ever at the first enumeration that cannot be numbered.
* `emit_of_reconcileAll` — it goes through if its enumerations do so by themselves.
-/

namespace PropertySets

open Enumeration FileTree Registration

/-! ## The enumerations of a registry -/

/-- The enumeration that comes up with a property of an edition. -/
def Edition.request? (e : Edition) : Property → Option Request
  | .valued _ shape => requestOf e shape
  | _ => none

/-- The enumerations of an edition: those of its properties if its revision is known. -/
def Edition.requests (e : Edition) : List Request :=
  if (revision? e).isSome then (flattened e.definition).filterMap e.request? else []

/-- The enumerations of a registry, in the order in which they come up. -/
def Registry.requests (r : Registry) : List Request :=
  r.groups.flatMap fun group => group.2.flatMap Edition.requests

/-- The tags that the enumerations of a registry are filed under. -/
def Registry.filedTags (r : Registry) : List String := r.requests.filterMap Request.filingTag?

/-! ## The enumerations of an emission -/

/-- The enumeration that comes up in an event. -/
def Registration.Event.request? : Event → Option Request
  | .enumeration request => some request
  | _ => none

namespace Registration

theorem requests_languageFlaws (source name : String) (aliases : List Alias) :
    (aliases.flatMap (languageFlaws source name)).filterMap Event.request? = [] := by
  rw [List.filterMap_eq_nil_iff]
  intro event hMem
  obtain ⟨a, -, hMem⟩ := List.mem_flatMap.1 hMem
  rw [languageFlaws] at hMem
  split at hMem
  · cases hMem
  · rw [List.mem_singleton.1 hMem]
    rfl

theorem requests_propertyEvents (e : Edition) (p : Property) :
    (propertyEvents e p).filterMap Event.request? = (e.request? p).toList := by
  cases p with
  | typeless l => rfl
  | complex l name properties => rfl
  | valued l shape =>
    rw [propertyEvents, List.filterMap_append, List.filterMap_append, requests_languageFlaws,
      Edition.request?]
    cases requestOf e shape <;> rfl

theorem requests_editionEvents (setName : String) (e : Edition) :
    (editionEvents setName e).filterMap Event.request? = e.requests := by
  rw [editionEvents, Edition.requests]
  cases revision? e with
  | none => rfl
  | some revision =>
    show ((flattened e.definition).flatMap (propertyEvents e) ++ [Event.block]).filterMap _ =
      (flattened e.definition).filterMap e.request?
    rw [List.filterMap_append, List.filterMap_flatMap, List.filterMap_eq_flatMap_toList e.request?]
    simp only [requests_propertyEvents]
    exact List.append_nil _

theorem requests_groupEvents (c : Configuration) (group : String × List Edition) :
    (groupEvents c group).filterMap Event.request? = group.2.flatMap Edition.requests := by
  rw [groupEvents, List.filterMap_append, List.filterMap_append, List.filterMap_flatMap]
  simp only [requests_editionEvents]
  cases subIndex? c group.1 <;> exact List.append_nil _

theorem requests_emission (c : Configuration) (r : Registry) :
    (emission c r).filterMap Event.request? = r.requests := by
  rw [emission, List.filterMap_flatMap, Registry.requests]
  simp only [requests_groupEvents]

/-! ## Carrying out an emission -/

section

variable {σ : Site} {done : List Request} {s : Emitted Handle} {t : FileTree}

/-- What can come of an emission behind the requests `done`: all events are carried out, and the
files are as their requests have it; or it stops at the path of a tag that does not fit; or it goes
on for ever at an enumeration that cannot be numbered. -/
inductive EmitOutcome (σ : Site) (done : List Request) (s : Emitted Handle) (events : List Event)
    (t : FileTree) : Prop
  | done (s' : Emitted Handle) (t' : FileTree)
    (run : (emit s events : StateM FileTree _) t = ((s', none), t'))
    (filled : Filled σ (done ++ events.filterMap Event.request?) s'.reconciler t')
    (keeps : KeepsFiles t t')
  | misfit (s' : Emitted Handle) (t' : FileTree) (tag : String) (e : DiskError)
    (run : (emit s events : StateM FileTree _) t =
      ((s', some (.onDisk (σ.reconciler.pathFor tag) e)), t'))
    (filed : ∃ q ∈ events.filterMap Event.request?, q.filingTag? = some tag)
    (unfit : ¬ σ.Fits tag) (reached : e ≠ .unreached)
  | endless (s' : Emitted Handle) (t' : FileTree) (k : Key) (literals : List String)
    (run : (emit s events : StateM FileTree _) t =
      ((s', some (.onDisk (σ.reconciler.pathFor k.tag) .unreached)), t'))
    (first : firstLiterals? (done ++ events.filterMap Event.request?) k = some literals)
    (unnumbered : assign? literals = none)

/-- **An emission.** There are three things that can come of it. -/
theorem emit_run (events : List Event) (h : Filled σ done s.reconciler t)
    (hSafe : ∀ q ∈ events.filterMap Event.request?, ∀ tag, q.filingTag? = some tag →
      σ.reconciler.TagSafe tag) : EmitOutcome σ done s events t := by
  -- only enumerations touch the reconciler and the tree; the other events count or report
  induction events generalizing done s t with
  | nil => exact .done s t rfl (by rwa [List.filterMap_nil, List.append_nil]) (.refl t)
  | cons event rest ih =>
    -- what comes of the rest behind an event without a request comes of both
    have hQuiet : ∀ s₁ : Emitted Handle,
        (emit s (event :: rest) : StateM FileTree _) t = (emit s₁ rest : StateM FileTree _) t →
        s₁.reconciler = s.reconciler → event.request? = none →
        EmitOutcome σ done s (event :: rest) t := by
      intro s₁ hEmit hReconciler hNone
      rw [List.filterMap_cons_none hNone] at hSafe
      cases ih (s := s₁) (hReconciler ▸ h) hSafe with
      | done s' t' hRun hFilled hKeeps =>
        exact .done s' t' (hEmit.trans hRun) (by rwa [List.filterMap_cons_none hNone]) hKeeps
      | misfit s' t' tag e hRun hFiled hMisfit hReached =>
        exact .misfit s' t' tag e (hEmit.trans hRun)
          (by rwa [List.filterMap_cons_none hNone]) hMisfit hReached
      | endless s' t' k literals hRun hFirst hEndless =>
        exact .endless s' t' k literals (hEmit.trans hRun)
          (by rwa [List.filterMap_cons_none hNone]) hEndless
    cases event with
    | report flaw => exact hQuiet _ rfl rfl rfl
    | entry => exact hQuiet _ rfl rfl rfl
    | block => exact hQuiet _ rfl rfl rfl
    | routine => exact hQuiet _ rfl rfl rfl
    | enumeration q =>
      have hRequests : (Event.enumeration q :: rest).filterMap Event.request? =
          q :: rest.filterMap Event.request? := rfl
      rw [hRequests] at hSafe
      cases reconcile_step h q (hSafe q List.mem_cons_self) with
      | done r t₁ hStep hFilled hKeeps =>
        -- the answer is no failure, so the emission goes on
        obtain ⟨filed, hResult⟩ : ∃ filed, (expectedOutcome done q).result = .ok filed := by
          have hOk := expectedOutcome_isOk done q
          cases hResult : (expectedOutcome done q).result with
          | ok filed => exact ⟨filed, rfl⟩
          | error failure =>
            rw [hResult] at hOk
            cases hOk
        let s₁ : Emitted Handle := ⟨r, s.flaws ++ (expectedOutcome done q).flaws, s.counts⟩
        have hEmit : (emit s (Event.enumeration q :: rest) : StateM FileTree _) t =
            (emit s₁ rest : StateM FileTree _) t₁ := by
          refine (bind_apply hStep).trans ?_
          simp only [hResult]
          rfl
        have hDone : done ++ [q] ++ rest.filterMap Event.request? =
            done ++ (Event.enumeration q :: rest).filterMap Event.request? := by
          rw [List.append_assoc]
          rfl
        cases ih (s := s₁) hFilled fun q' hMem => hSafe q' (List.mem_cons_of_mem _ hMem) with
        | done s' t' hRun hFilled' hKeeps' =>
          exact .done s' t' (hEmit.trans hRun) (hDone ▸ hFilled') (hKeeps.trans hKeeps')
        | misfit s' t' tag e hRun hFiled hMisfit hReached =>
          obtain ⟨q', hMem, hFiled⟩ := hFiled
          exact .misfit s' t' tag e (hEmit.trans hRun)
            ⟨q', List.mem_cons_of_mem _ hMem, hFiled⟩ hMisfit hReached
        | endless s' t' k literals hRun hFirst hEndless =>
          exact .endless s' t' k literals (hEmit.trans hRun) (hDone ▸ hFirst) hEndless
      | misfit tag e flaws r hFiled hMisfit hReached hStep =>
        exact .misfit _ t tag e ((bind_apply hStep).trans rfl) ⟨q, List.mem_cons_self, hFiled⟩
          hMisfit hReached
      | endless tag r hFiled hNew hEndless hStep =>
        exact .endless _ t ⟨tag, q.name⟩ q.literals ((bind_apply hStep).trans rfl)
          (firstLiterals?_append_cons hNew (key?_of_filingTag? hFiled)) hEndless

/-- Requests that all go through by themselves go through in an emission. -/
theorem emit_of_reconcileAll {r : Reconciler Handle} {t' : FileTree} (events : List Event)
    {outcomes : List Outcome}
    (hRun : (s.reconciler.reconcileAll (events.filterMap Event.request?) : StateM FileTree _) t =
      ((outcomes, r), t'))
    (hOk : ∀ outcome ∈ outcomes, outcome.result.isOk = true) :
    ∃ s', (emit s events : StateM FileTree _) t = ((s', none), t') ∧ s'.reconciler = r := by
  induction events generalizing s t outcomes with
  | nil =>
    have hEnd : (([], s.reconciler), t) = ((outcomes, r), t') := hRun
    cases hEnd
    exact ⟨s, rfl, rfl⟩
  | cons event rest ih =>
    -- events other than requests leave the reconciler as it is
    cases event with
    | report flaw => exact ih (s := ⟨s.reconciler, s.flaws ++ [flaw], s.counts⟩) hRun hOk
    | entry => exact ih (s := ⟨s.reconciler, s.flaws, _⟩) hRun hOk
    | block => exact ih (s := ⟨s.reconciler, s.flaws, _⟩) hRun hOk
    | routine => exact ih (s := ⟨s.reconciler, s.flaws, _⟩) hRun hOk
    | enumeration q =>
      rcases hStep : (s.reconciler.reconcile q : StateM FileTree _) t with ⟨⟨outcome, r₁⟩, t₁⟩
      have hAll : (s.reconciler.reconcileAll (q :: rest.filterMap Event.request?) :
          StateM FileTree _) t = ((outcomes, r), t') := hRun
      rw [reconcileAll_cons hStep] at hAll
      cases hAll
      -- the request went through, so the emission goes on behind it
      obtain ⟨filed, hResult⟩ : ∃ filed, outcome.result = .ok filed := by
        have hFirst := hOk outcome List.mem_cons_self
        cases hResult : outcome.result with
        | ok filed => exact ⟨filed, rfl⟩
        | error failure =>
          rw [hResult] at hFirst
          cases hFirst
      have hEmit : (emit s (Event.enumeration q :: rest) : StateM FileTree _) t =
          (emit ⟨r₁, s.flaws ++ outcome.flaws, s.counts⟩ rest : StateM FileTree _) t₁ := by
        refine (bind_apply hStep).trans ?_
        simp only [hResult]
      rw [hEmit]
      exact ih (s := ⟨r₁, s.flaws ++ outcome.flaws, s.counts⟩) rfl fun outcome' hMem =>
        hOk outcome' (List.mem_cons_of_mem _ hMem)

end

end Registration

end PropertySets
