/-!
Values by name: lists of names and values, in the order of the names, each name once.
-/

namespace Attest

abbrev ByName (α : Type) := List (String × α)

namespace ByName

variable {α : Type}

def get? (m : ByName α) (name : String) : Option α := m.lookup name

/-- Set the value of a name, replacing one that is there. -/
def set (name : String) (a : α) : ByName α → ByName α
  | [] => [(name, a)]
  | (k, b) :: rest =>
    if name == k then (k, a) :: rest
    else if name < k then (name, a) :: (k, b) :: rest
    else (k, b) :: set name a rest

def setAll (m : ByName α) (entries : List (String × α)) : ByName α :=
  entries.foldl (fun m (n, a) => set n a m) m

/-- The last value of each name. -/
def ofList (entries : List (String × α)) : ByName α := setAll [] entries

def erase (m : ByName α) (name : String) : ByName α := m.filter (·.1 != name)

def names (m : ByName α) : List String := m.map (·.1)

end ByName
end Attest
