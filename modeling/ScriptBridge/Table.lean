/-!
# Tables

A table binds names to values and lists them in increasing order of the names. What a lookup
finds after an insertion or a removal is stated once here (`get?_insert`, `get?_erase`).
-/

namespace ScriptBridge

/-- Names with their values, in increasing order of the names. -/
structure Table (α : Type) where
  entries : List (String × α) := []

namespace Table

variable {α : Type}

instance : Inhabited (Table α) := ⟨{}⟩

/-- Puts a binding before the first larger name; an equal name is replaced. -/
def insertEntry (key : String) (value : α) : List (String × α) → List (String × α)
  | [] => [(key, value)]
  | (k, v) :: rest =>
    if k = key then (key, value) :: rest
    else if key < k then (key, value) :: (k, v) :: rest
    else (k, v) :: insertEntry key value rest

/-- The value that a list binds first. -/
def findEntry (key : String) : List (String × α) → Option α
  | [] => none
  | (k, v) :: rest => if k = key then some v else findEntry key rest

def get? (t : Table α) (key : String) : Option α := findEntry key t.entries

def contains (t : Table α) (key : String) : Bool := (t.get? key).isSome

def insert (t : Table α) (key : String) (value : α) : Table α :=
  ⟨insertEntry key value t.entries⟩

def erase (t : Table α) (key : String) : Table α := ⟨t.entries.filter (·.1 ≠ key)⟩

def names (t : Table α) : List String := t.entries.map (·.1)

def values (t : Table α) : List α := t.entries.map (·.2)

def size (t : Table α) : Nat := t.entries.length

/-- The table of a list of bindings; a later one replaces an earlier one. -/
def ofList (bindings : List (String × α)) : Table α :=
  bindings.foldl (fun t (key, value) => t.insert key value) {}

@[simp] theorem get?_empty (key : String) : (({} : Table α)).get? key = none := rfl

theorem findEntry_insertEntry (key other : String) (value : α) (entries : List (String × α)) :
    findEntry other (insertEntry key value entries) =
      if key = other then some value else findEntry other entries := by
  induction entries with
  | nil => simp [insertEntry, findEntry]
  | cons e rest ih => grind [insertEntry, findEntry]

theorem get?_insert (t : Table α) (key other : String) (value : α) :
    (t.insert key value).get? other = if key = other then some value else t.get? other :=
  findEntry_insertEntry key other value t.entries

theorem findEntry_filter (key other : String) (entries : List (String × α)) :
    findEntry other (entries.filter (·.1 ≠ key)) =
      if key = other then none else findEntry other entries := by
  induction entries with
  | nil => simp [findEntry]
  | cons e rest ih => grind [findEntry]

theorem get?_erase (t : Table α) (key other : String) :
    (t.erase key).get? other = if key = other then none else t.get? other :=
  findEntry_filter key other t.entries

end Table
end ScriptBridge
