import Onair.Lib.Json.Value

/-!
# Paths into JSON values

* `Step`, `Value.lookup`: the value that a path leads to;
* `lookup_append`: a path in two parts.
-/

namespace Json

/-- A step into a value: to a field of an object or to an element of an array. -/
inductive Step where
  | key (k : String)
  | index (i : ℕ)
  deriving DecidableEq, Repr

namespace Value

/-- The value that one step leads to. -/
def step : Step → Value → Option Value
  | .key k, .object m => OrdMap.get k m
  | .index i, .array vs => vs[i]?
  | _, _ => none

/-- The value that a path leads to. -/
def lookup : List Step → Value → Option Value
  | [], v => some v
  | s :: p, v => (v.step s).bind (lookup p)

@[simp] theorem lookup_nil (v : Value) : v.lookup [] = some v := rfl

theorem lookup_cons (s : Step) (p : List Step) (v : Value) :
    v.lookup (s :: p) = (v.step s).bind (Value.lookup p) := rfl

theorem lookup_append (p q : List Step) (v : Value) :
    v.lookup (p ++ q) = (v.lookup p).bind (Value.lookup q) := by
  induction p generalizing v with
  | nil => rfl
  | cons s p ih =>
    rw [List.cons_append, lookup_cons, lookup_cons, Option.bind_assoc]
    exact Option.bind_congr fun w _ => ih w

end Value

end Json
