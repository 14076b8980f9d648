import CatalogPress.Text.Basic

/-!
Tables: keyed values in the order in which their keys were first written. Writing to a key that is
there keeps its place; a new key goes to the end.
-/
namespace CatalogPress

abbrev Table (κ α : Type) := List (κ × α)

abbrev Fields (α : Type) := Table Text α

namespace Table
variable {κ α : Type} [DecidableEq κ]

def get? (key : κ) : Table κ α → Option α
  | [] => none
  | (k, value) :: rest => if k = key then some value else get? key rest

def has (key : κ) (table : Table κ α) : Bool :=
  (get? key table).isSome

def put (key : κ) (value : α) : Table κ α → Table κ α
  | [] => [(key, value)]
  | (k, old) :: rest => if k = key then (k, value) :: rest else (k, old) :: put key value rest

def putIfSome (key : κ) (value : Option α) (table : Table κ α) : Table κ α :=
  value.elim table (put key · table)

def erase (key : κ) (table : Table κ α) : Table κ α :=
  table.filter (·.1 ≠ key)

def keys (table : Table κ α) : List κ :=
  table.map (·.1)

/-- The table of a list of bindings: a repeated key keeps its first place and takes its last
value. -/
def ofList (bindings : List (κ × α)) : Table κ α :=
  bindings.foldl (fun table binding => put binding.1 binding.2 table) []

@[simp] theorem get?_nil (key : κ) : get? key ([] : Table κ α) = none := rfl

@[simp] theorem get?_put_self (key : κ) (value : α) (table : Table κ α) :
    get? key (put key value table) = some value := by
  induction table with
  | nil => simp [put, get?]
  | cons binding rest ih =>
    by_cases h : binding.1 = key <;> simp [put, get?, h, ih]

theorem get?_put_of_ne {key other : κ} (h : other ≠ key) (value : α) (table : Table κ α) :
    get? other (put key value table) = get? other table := by
  fun_induction put key value table with
  | case1 => simp [get?, h.symm]
  | case2 => simp [get?, h.symm]
  | case3 k old rest _ ih => simp [get?, ih]

theorem keys_put (key : κ) (value : α) (table : Table κ α) :
    keys (put key value table) =
      if key ∈ keys table then keys table else keys table ++ [key] := by
  unfold keys
  fun_induction put key value table with
  | case1 => simp
  | case2 => simp
  | case3 k old rest here ih =>
    simp only [List.map_cons, List.mem_cons, Ne.symm here, false_or, ih]
    split <;> rfl

end Table

namespace Fields

abbrev get? (name : Text) (fields : Fields α) : Option α :=
  Table.get? name fields

abbrev put (name : Text) (value : α) (fields : Fields α) : Fields α :=
  Table.put name value fields

abbrev putIfSome (name : Text) (value : Option α) (fields : Fields α) : Fields α :=
  Table.putIfSome name value fields

end Fields
end CatalogPress
