/-!
# Ordered keys

Maps and rows are lists of keys with what belongs to them, in the order in which
the keys first came. Writing to a key that is there already keeps its place.
-/

namespace SqlText

/-- Keys in order, each with what belongs to it. -/
abbrev Keyed (α : Type) := List (String × α)

namespace Keyed

variable {α : Type}

/-- Writes to a key: in its place if it is there, at the end otherwise. -/
def insert (m : Keyed α) (key : String) (a : α) : Keyed α :=
  match m with
  | [] => [(key, a)]
  | (k, b) :: rest => if k = key then (key, a) :: rest else (k, b) :: insert rest key a

/-- Writes the pairs one after another: every key stands where it first came and
holds what came last. -/
def ofPairs (pairs : List (String × α)) : Keyed α :=
  pairs.foldl (fun m (key, a) => insert m key a) []

/-- Writes to a key of a map whose keys are in increasing order. -/
def insertSorted (m : Keyed α) (key : String) (a : α) : Keyed α :=
  match m with
  | [] => [(key, a)]
  | (k, b) :: rest =>
    if k < key then (k, b) :: insertSorted rest key a
    else if k = key then (key, a) :: rest
    else (key, a) :: (k, b) :: rest

/-- Writes the pairs one after another, the keys in increasing order of their code
points: every key holds what came last. -/
def sortedOfPairs (pairs : List (String × α)) : Keyed α :=
  pairs.foldl (fun m (key, a) => insertSorted m key a) []

/-- The entries whose keys are allowed, in the order of the map. -/
def filterKeys (m : Keyed α) (allowed : List String) : Keyed α :=
  m.filter fun (key, _) => allowed.contains key

end Keyed

/-- The input if it is one of the allowed texts, and the default otherwise. -/
def whiteListed (input : String) (allowed : List String) (default : String) : String :=
  if allowed.contains input then input else default

end SqlText
