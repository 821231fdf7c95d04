/-
  MarathiScript.Table — what names stand for.

  A table is read by `get?` and changed by `insert`; a name stands for what was inserted for
  it last (`get?_insert`). The names keep the order in which they were first inserted.
-/

namespace MarathiScript

structure Table (α : Type) where
  entries : List (String × α)
  deriving Repr, DecidableEq

namespace Table

variable {α : Type}

def empty : Table α := ⟨[]⟩

def lookup (x : String) : List (String × α) → Option α
  | [] => none
  | (y, a) :: rest => if y = x then some a else lookup x rest

def put (x : String) (a : α) : List (String × α) → List (String × α)
  | [] => [(x, a)]
  | (y, b) :: rest => if y = x then (x, a) :: rest else (y, b) :: put x a rest

def get? (t : Table α) (x : String) : Option α := lookup x t.entries

def insert (t : Table α) (x : String) (a : α) : Table α := ⟨put x a t.entries⟩

/-- The entries inserted one after the other into an empty table. -/
def ofList (entries : List (String × α)) : Table α :=
  entries.foldl (fun t entry => t.insert entry.1 entry.2) empty

theorem lookup_put (x y : String) (a : α) (entries : List (String × α)) :
    lookup y (put x a entries) = if x = y then some a else lookup y entries := by
  induction entries with
  | nil => simp [put, lookup]
  | cons entry rest ih => grind [put, lookup]

theorem get?_insert (t : Table α) (x y : String) (a : α) :
    (t.insert x a).get? y = if x = y then some a else t.get? y := lookup_put x y a t.entries

@[simp] theorem get?_insert_self (t : Table α) (x : String) (a : α) :
    (t.insert x a).get? x = some a := by simp [get?_insert]

theorem get?_insert_of_ne {x y : String} (h : x ≠ y) (t : Table α) (a : α) :
    (t.insert x a).get? y = t.get? y := by simp [get?_insert, h]

end Table

end MarathiScript
