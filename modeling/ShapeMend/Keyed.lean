/-!
# Keyed lists

A keyed list is a list of values with their keys, in order.  Putting a value
under a key keeps the place of the key, and a new key goes to the end.
-/

namespace ShapeMend.Keyed

variable {α : Type}

def keys (entries : List (String × α)) : List String := entries.map (·.1)

def lookup (key : String) : List (String × α) → Option α
  | [] => none
  | (name, value) :: entries =>
    if name = key then some value else lookup key entries

def put (key : String) (value : α) : List (String × α) → List (String × α)
  | [] => [(key, value)]
  | (name, old) :: entries =>
    if name = key then (name, value) :: entries
    else (name, old) :: put key value entries

def ofEntries (entries : List (String × α)) : List (String × α) :=
  entries.foldl (fun kept entry => put entry.1 entry.2 kept) []

def erase (key : String) : List (String × α) → List (String × α)
  | [] => []
  | (name, value) :: entries =>
    if name = key then entries else (name, value) :: erase key entries

theorem lookup_put_self (key : String) (value : α)
    (entries : List (String × α)) :
    lookup key (put key value entries) = some value := by
  induction entries with
  | nil => simp [put, lookup]
  | cons entry entries ih =>
    simp only [put]
    split
    · simp [lookup, *]
    · simp [lookup, *]

theorem lookup_put_of_ne {key other : String} (ne : other ≠ key) (value : α)
    (entries : List (String × α)) :
    lookup other (put key value entries) = lookup other entries := by
  induction entries with
  | nil => simp [put, lookup, Ne.symm ne]
  | cons entry entries ih =>
    simp only [put]
    split
    · next same => simp [lookup, same, Ne.symm ne]
    · simp only [lookup, ih]

end ShapeMend.Keyed
