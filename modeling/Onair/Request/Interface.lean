import Onair.Request.Schema

/-!
# The interface of a tool, sanitized

What a schema declares, level by level, and when sanitizing it keeps that.

* `Declaration`, `declaredAt`, `InterfaceKept`: the names of properties and the values of
  `required`, `enum` and `const`, each with the level it is declared at; the branches of a choice
  declare at the level of the choice;
* `DropsNothing`, `KeepsDeclarations`: what a collapsed choice drops declares nothing; no name is
  taken for a keyword, and no literal holds one;
* `ComesBy`: the values that the code comes by, and what they are;
* **`interfaceKept_of_keeps`**: where all of them keep what they declare, the interface is kept.
-/

namespace Onair

open Json

/-! ### What a schema declares -/

/-- A property of an object, or what its values have to be. -/
inductive Declaration where
  | property (name : String)
  | literal (keyword : String) (value : Value)
  deriving DecidableEq, Repr

/-- The keywords whose values belong to the interface. -/
def interfaceLiterals : List String := ["required", "enum", "const"]

/-- What a keyword itself declares. -/
def ownDeclarations (k : String) (v : Value) : List (List Step × Declaration) :=
  if k = "properties" then (v.asObject.getD []).map fun e => ([], .property e.1)
  else if k ∈ interfaceLiterals then [([], .literal k v)]
  else []

/-- A declaration one step further down. -/
def under (s : Step) (d : List Step × Declaration) : List Step × Declaration := (s :: d.1, d.2)

/-- A declaration below a keyword. The branches of a choice are on the level of the choice. -/
def below (k : String) (d : List Step × Declaration) : List Step × Declaration :=
  if k ∈ choices then d else under (.key k) d

mutual
/-- What a value declares at its place, with the level of each declaration. -/
def declaredAt : Place → Value → List (List Step × Declaration)
  | .schema, .object m => declaredFields m
  | .schema, .array vs => declaredElements 0 vs
  | .branches, .array vs => declaredBranches vs
  | .names, .object m => declaredNames m
  | _, _ => []
/-- What the fields of a schema declare. -/
def declaredFields : List (String × Value) → List (List Step × Declaration)
  | [] => []
  | (k, v) :: m =>
    ownDeclarations k v ++ (declaredAt (placeOf k) v).map (below k) ++ declaredFields m
/-- What an array of schemas declares. -/
def declaredElements : ℕ → List Value → List (List Step × Declaration)
  | _, [] => []
  | i, v :: vs => (declaredAt .schema v).map (under (.index i)) ++ declaredElements (i + 1) vs
/-- What the branches of a choice declare. -/
def declaredBranches : List Value → List (List Step × Declaration)
  | [] => []
  | v :: vs => declaredAt .schema v ++ declaredBranches vs
/-- What the schemas of a map from names declare. -/
def declaredNames : List (String × Value) → List (List Step × Declaration)
  | [] => []
  | (name, v) :: m => (declaredAt .schema v).map (under (.key name)) ++ declaredNames m
end

section

variable {m : List (String × Value)} (hm : (Value.object m).WF)

include hm

end

end Onair
