/-!
# Bindings

Scopes and records bind names to values. Both are kept as lists in strictly
increasing order of their names, so that equal bindings are equal lists. Names are
ordered by code points.
-/

set_option autoImplicit false

namespace WindowScript.Bindings

variable {α : Type}

def find? (name : String) : List (String × α) → Option α
  | [] => none
  | (key, value) :: rest => if key = name then some value else find? name rest

/-- Binds a name, in place of an earlier binding of it. -/
def insert (name : String) (value : α) : List (String × α) → List (String × α)
  | [] => [(name, value)]
  | (key, held) :: rest =>
      if name = key then (name, value) :: rest
      else if name < key then (name, value) :: (key, held) :: rest
      else (key, held) :: insert name value rest

def erase (name : String) : List (String × α) → List (String × α)
  | [] => []
  | (key, held) :: rest => if name = key then erase name rest else (key, held) :: erase name rest

def insertAll (entries bindings : List (String × α)) : List (String × α) :=
  entries.foldl (fun bound entry => insert entry.1 entry.2 bound) bindings

def Sorted (bindings : List (String × α)) : Prop :=
  bindings.Pairwise fun left right => left.1 < right.1

end WindowScript.Bindings
