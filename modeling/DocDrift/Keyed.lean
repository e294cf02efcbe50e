/-!
Tables of values with unique keys. A value that is put under a key takes the place of the value
there; a new key comes last.
-/

set_option autoImplicit false

namespace DocDrift

/-- Values with their keys, in the order in which the keys came. -/
abbrev Keyed (κ α : Type) := List (κ × α)

namespace Keyed

variable {κ α : Type} [DecidableEq κ]

def find? (table : Keyed κ α) (key : κ) : Option α :=
  (List.find? (fun row => decide (row.1 = key)) table).map Prod.snd

def put (key : κ) (value : α) : Keyed κ α → Keyed κ α
  | [] => [(key, value)]
  | row :: rest => if row.1 = key then (key, value) :: rest else row :: put key value rest

def without (gone : κ → Bool) (table : Keyed κ α) : Keyed κ α :=
  table.filter (fun row => !gone row.1)

end Keyed

end DocDrift
