/-!
# Identities of the Host

Classes and objects of the Host are known by numbers, which nothing but their equality is read
from.
-/

namespace ScriptBridge.Host

/-- A Host class. -/
structure ClassId where
  index : Nat
deriving DecidableEq, Repr, Inhabited

/-- A Host object. -/
structure ObjectId where
  index : Nat
deriving DecidableEq, Repr, Inhabited

/-- The field at a place in the list that a class declares. -/
structure FieldId where
  owner : ClassId
  place : Nat
deriving DecidableEq, Repr, Inhabited

end ScriptBridge.Host
