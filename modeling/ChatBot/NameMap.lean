import Std.Data.ExtTreeMap

/-!
# Maps from names

A finite map from texts. Two maps are equal when they hold the same values under the same names,
and a map is listed in the order of its names.
-/

set_option autoImplicit false

namespace ChatBot

/-- A finite map from names to values. -/
abbrev NameMap (α : Type) := Std.ExtTreeMap String α

namespace NameMap

variable {α : Type}

/-- A map holding the given values; of several values of one name the last one counts. -/
def ofList (entries : List (String × α)) : NameMap α :=
  entries.foldl (fun m entry => m.insert entry.1 entry.2) ∅

/-- The values in the order of their names. -/
def values (m : NameMap α) : List α :=
  m.toList.map (·.2)

end NameMap

end ChatBot
