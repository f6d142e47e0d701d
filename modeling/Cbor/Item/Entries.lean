import Cbor.Item

/-!
# Map entries

The entries of a map, kept in strictly ascending order of their keys.  Inserting a key again
replaces its value, so of repeated keys the last one stands.
-/

namespace Cbor.Entries

variable {κ α : Type} [LT κ] [DecidableLT κ]

/-- Puts a value under a key, replacing the one that is there. -/
def insert (key : κ) (value : α) : List (κ × α) → List (κ × α)
  | [] => [(key, value)]
  | (k, v) :: rest =>
      if key < k then (key, value) :: (k, v) :: rest
      else if k < key then (k, v) :: insert key value rest
      else (key, value) :: rest

def ofPairs (pairs : List (κ × α)) : List (κ × α) :=
  pairs.foldl (fun entries pair => insert pair.1 pair.2 entries) []

def Ascending (entries : List (κ × α)) : Prop :=
  entries.Pairwise fun first second => first.1 < second.1

end Cbor.Entries
