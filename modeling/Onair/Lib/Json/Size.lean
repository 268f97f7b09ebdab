import Mathlib.Algebra.GroupWithZero.Nat
import Mathlib.Algebra.Order.BigOperators.Group.List
import Onair.Lib.Json.Value

/-!
# The size of JSON values

* `Value.size`: how many values the tree of a value has;
* `sizeEntries_erase`, `sizeEntries_insert`: an object without an entry and with another one;
* `sizeEntries_map_le`: an object whose fields have shrunk.
-/

namespace Json

namespace Value

mutual
/-- How many values a value is made of. -/
def size : Value → ℕ
  | .array vs => sizeList vs + 1
  | .object m => sizeEntries m + 1
  | _ => 1
/-- How many values a list of values is made of. -/
def sizeList : List Value → ℕ
  | [] => 0
  | v :: vs => size v + sizeList vs
/-- How many values the fields of an object are made of. -/
def sizeEntries : List (String × Value) → ℕ
  | [] => 0
  | (_, v) :: m => size v + sizeEntries m
end

theorem size_pos (v : Value) : 0 < v.size := by
  cases v <;> exact Nat.succ_pos _

@[simp] theorem size_string (s : String) : (Value.string s).size = 1 := rfl

theorem sizeList_eq (vs : List Value) : sizeList vs = (vs.map size).sum := by
  induction vs with
  | nil => rfl
  | cons v vs ih => exact congrArg (v.size + ·) ih

theorem sizeEntries_eq (m : List (String × Value)) :
    sizeEntries m = (m.map fun e => e.2.size).sum := by
  induction m with
  | nil => rfl
  | cons e m ih => exact congrArg (e.2.size + ·) ih

theorem size_array (vs : List Value) : (Value.array vs).size = (vs.map size).sum + 1 :=
  congrArg (· + 1) (sizeList_eq vs)

theorem size_object (m : List (String × Value)) : (Value.object m).size = sizeEntries m + 1 := rfl

theorem size_lt_of_mem {vs : List Value} {v : Value} (h : v ∈ vs) :
    v.size < (Value.array vs).size := by
  rw [size_array]
  exact Nat.lt_succ_of_le (List.single_le_sum (fun _ _ => Nat.zero_le _) _ (List.mem_map_of_mem h))

/-! ### Entries -/

theorem sizeEntries_append (m m' : List (String × Value)) :
    sizeEntries (m ++ m') = sizeEntries m + sizeEntries m' := by
  simp [sizeEntries_eq]

theorem sizeEntries_perm {m m' : List (String × Value)} (h : m.Perm m') :
    sizeEntries m = sizeEntries m' := by
  rw [sizeEntries_eq, sizeEntries_eq]
  exact (h.map _).sum_eq

theorem sizeEntries_filter_le (p : String × Value → Bool) (m : List (String × Value)) :
    sizeEntries (m.filter p) ≤ sizeEntries m := by
  rw [sizeEntries_eq, sizeEntries_eq]
  exact (List.filter_sublist.map _).sum_le_sum fun _ _ => Nat.zero_le _

theorem sizeEntries_erase {m : List (String × Value)} (hm : OrdMap.Sorted m) {k : String}
    {v : Value} (h : OrdMap.get k m = some v) :
    sizeEntries m = v.size + sizeEntries (OrdMap.erase k m) := by
  have hperm := OrdMap.perm_erase hm k
  rw [h] at hperm
  exact sizeEntries_perm hperm

theorem sizeEntries_insert {m : List (String × Value)} (hm : OrdMap.Sorted m) (k : String)
    (v : Value) :
    sizeEntries (OrdMap.insert k v m) = v.size + sizeEntries (OrdMap.erase k m) :=
  sizeEntries_perm (OrdMap.perm_insert hm k v)

theorem sizeEntries_map_le {f : Value → Value} {m : List (String × Value)}
    (h : ∀ e ∈ m, (f e.2).size ≤ e.2.size) :
    sizeEntries (m.map fun e => (e.1, f e.2)) ≤ sizeEntries m := by
  rw [sizeEntries_eq, sizeEntries_eq, List.map_map]
  exact List.sum_le_sum h

end Value

end Json
