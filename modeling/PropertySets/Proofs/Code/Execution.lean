import PropertySets.Proofs.Code.Machine

/-!
# How statements are executed

Statements are executed one after the other. Fixed statements are executed by computation; here is
what is needed for those whose variables come from a model.

* `Runs`, `Runs.append` — executing statements.
* `IsVariable` — the words that are variables.
* `lookup_behind`, `set?_behind` — variables declared later do not hide others.
-/

namespace PropertySets.Code

variable {call : String → List Value → Option (List Value)} {env env' env'' : Env}

/-- The statements take the variables from `env` to `env'`. -/
def Runs (call : String → List Value → Option (List Value)) (env : Env)
    (statements : List Statement) (env' : Env) : Prop :=
  execAll call env statements = some env'

namespace Runs

theorem nil : Runs call env [] env := rfl

theorem cons {s : Statement} {rest : List Statement} (h : s.exec call env = some env')
    (h' : Runs call env' rest env'') : Runs call env (s :: rest) env'' := by
  rw [Runs, execAll, h]
  exact h'

theorem single {s : Statement} (h : s.exec call env = some env') : Runs call env [s] env' :=
  cons h nil

theorem append {ss ts : List Statement} (h : Runs call env ss env') (h' : Runs call env' ts env'') :
    Runs call env (ss ++ ts) env'' := by
  induction ss generalizing env with
  | nil =>
    cases Option.some.inj h
    exact h'
  | cons s rest ih =>
    rw [Runs, execAll] at h
    cases hFirst : s.exec call env with
    | none =>
      rw [hFirst] at h
      cases h
    | some next =>
      rw [hFirst] at h
      exact cons hFirst (ih h)

end Runs

/-! ## Variables -/

/-- A word that is not a value. -/
structure IsVariable (x : String) : Prop where
  ne_true : x ≠ "true"
  ne_false : x ≠ "false"

theorem IsVariable.eval {x : String} (h : IsVariable x) (env : Env) :
    (Expr.name [x]).eval env = env.lookup x := by
  rw [Expr.eval]
  · exact h.ne_true
  · exact h.ne_false

theorem lookup_cons_of_ne {x y : String} {v : Value} (h : x ≠ y) :
    List.lookup x ((y, v) :: env) = env.lookup x := by
  rw [List.lookup_cons, beq_eq_false_iff_ne.2 h]

theorem set?_cons_of_ne {x y : String} {v w : Value} (h : x ≠ y) (hSet : env.set? x v = some env') :
    Env.set? ((y, w) :: env) x v = some ((y, w) :: env') := by
  rw [Env.set?, if_neg h, hSet]
  rfl

/-- Variables of other names do not hide a variable. -/
theorem lookup_behind {inner : Env} {x : String} (h : ∀ p ∈ inner, x ≠ p.1) :
    (inner ++ env).lookup x = env.lookup x := by
  induction inner with
  | nil => rfl
  | cons p rest ih =>
    rw [List.cons_append, lookup_cons_of_ne (h p List.mem_cons_self)]
    exact ih fun q hMem => h q (List.mem_cons_of_mem _ hMem)

theorem set?_behind {inner : Env} {x : String} {v : Value} (h : ∀ p ∈ inner, x ≠ p.1)
    (hSet : env.set? x v = some env') : (inner ++ env).set? x v = some (inner ++ env') := by
  induction inner with
  | nil => exact hSet
  | cons p rest ih =>
    have hRest := ih fun q hMem => h q (List.mem_cons_of_mem _ hMem)
    exact set?_cons_of_ne (h p List.mem_cons_self) hRest

/-- A value is put into a field of a record in a variable. -/
theorem store?_field {x field : String} {r r' v : Value} (h : IsVariable x)
    (hRecord : env.lookup x = some r) (hField : r.withField? field v = some r')
    (hSet : env.set? x r' = some env') : env.store? (.field (.name [x]) field) v = some env' := by
  rw [Env.store?, h.eval, hRecord]
  simp only [Option.bind_eq_bind, Option.bind_some, hField]
  exact hSet

end PropertySets.Code
