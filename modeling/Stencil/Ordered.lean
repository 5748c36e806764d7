/-! Entries and names in ascending order, each key once. -/

namespace Stencil

def insertEntry {α : Type} (key : String) (value : α) : List (String × α) → List (String × α)
  | [] => [(key, value)]
  | (k, v) :: later =>
    if key < k then (key, value) :: (k, v) :: later
    else if key = k then (key, value) :: later
    else (k, v) :: insertEntry key value later

/-- Entries in ascending order of their keys; of several with one key the last stays. -/
def sortEntries {α : Type} (entries : List (String × α)) : List (String × α) :=
  entries.foldl (fun sorted (key, value) => insertEntry key value sorted) []

def insertName (name : String) : List String → List String
  | [] => [name]
  | n :: later =>
    if name < n then name :: n :: later
    else if name = n then n :: later
    else n :: insertName name later

def sortNames (names : List String) : List String :=
  names.foldl (fun sorted name => insertName name sorted) []

/-- Elements in descending order of rank with one more, behind all of equal or higher rank. -/
def insertRanked {α : Type} (rank : α → Int32) (element : α) : List α → List α
  | [] => [element]
  | a :: later =>
    if rank a ≥ rank element then a :: insertRanked rank element later
    else element :: a :: later

/-- Elements in descending order of rank, those of equal rank in the order given. -/
def sortRanked {α : Type} (rank : α → Int32) (elements : List α) : List α :=
  elements.foldl (fun sorted element => insertRanked rank element sorted) []

end Stencil
