import ScriptBridge.Proofs.Conversions.Unboxing

/-!
# What script values become in the Host

Numbers and truth values are wrapped by the constructors of the library, a text becomes a string,
and a view becomes the object that it shows.
-/

namespace ScriptBridge.Bridge

open Host (ClassId ObjectId Realm Primitive Method HostM BodyM Bodies onRealm)
open Script (InterpreterId Foreign)

variable {ε α : Type} {s r : Realm} {w v : World} {c : ClassId} {o : ObjectId} {p : Primitive}
  (ts : InterpreterId)

/-! ### Constructors -/

/-- The library has the boxing constructors. -/
theorem Stocked.boxing (stocked : Stocked s) :
    ∃ table, boxingIn? s = some table ∧ Boxes s .boolean table.boolean ∧ Boxes s .int table.int ∧
      Boxes s .long table.long ∧ Boxes s .double table.double := by
  obtain ⟨boolean, hboolean, boxes_boolean⟩ := stocked.boxes .boolean
  obtain ⟨int, hint, boxes_int⟩ := stocked.boxes .int
  obtain ⟨long, hlong, boxes_long⟩ := stocked.boxes .long
  obtain ⟨double, hdouble, boxes_double⟩ := stocked.boxes .double
  refine ⟨⟨boolean, int, long, double⟩, ?_, boxes_boolean, boxes_int, boxes_long, boxes_double⟩
  simp only [boxingIn?, hboolean, hint, hlong, hdouble]
  rfl

/-- The object wraps the value. -/
structure Wraps (s r : Realm) (o : ObjectId) (p : Primitive) (value : Host.Value) : Prop where
  held : r.Holds o
  ofClass : r.classIdOf o = wrapperOf s p
  payload : r.payload o = .boxed value

end ScriptBridge.Bridge
