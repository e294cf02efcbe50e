/-!
Values by name, as a list of pairs in ascending order of the names, so that two maps with the same
entries are equal.
-/

set_option autoImplicit false

namespace DocDrift

abbrev NameMap (α : Type) := List (String × α)

namespace NameMap

variable {α : Type}

/-- Sets the value of a name; an earlier value of the name gives way. -/
def insert (name : String) (value : α) : NameMap α → NameMap α
  | [] => [(name, value)]
  | (other, kept) :: rest =>
      if name < other then (name, value) :: (other, kept) :: rest
      else if name = other then (name, value) :: rest
      else (other, kept) :: insert name value rest

/-- The map with these entries; of a repeated name the last value counts. -/
def ofList (entries : List (String × α)) : NameMap α :=
  entries.foldl (fun map entry => insert entry.1 entry.2 map) []

def erase (map : NameMap α) (name : String) : NameMap α :=
  map.filter (fun entry => entry.1 != name)

def names (map : NameMap α) : List String :=
  map.map Prod.fst

def values (map : NameMap α) : List α :=
  map.map Prod.snd

def find? (map : NameMap α) (name : String) : Option α :=
  (List.find? (fun entry => entry.1 == name) map).map Prod.snd

end NameMap

/-- A set of strings in ascending order. -/
def sortedSet (items : List String) : List String :=
  (NameMap.ofList (items.map (fun item => (item, ())))).names

end DocDrift
