import ScriptBridge.Installation
import ScriptBridge.Proofs.Boundary.Slots

/-!
# A Host with the class library

Every method of the class library returns without leaving a throwable. A bridge over a Host that has
nothing but this library, with one open context, is what examples are run on.
-/

namespace ScriptBridge

open Host (Realm Body)
open Bridge (World)

namespace Host

/-- Checks that no method leaves a throwable while it returns. -/
def Realm.isClean (r : Realm) : Bool :=
  r.classes.all fun c => c.methods.all fun m => match m.body with
    | .inl (.leak _ _ _) => false
    | _ => true

theorem Realm.permitted_of_isClean {r : Realm} (clean : r.isClean = true) :
    r.Permitted Boundary.Clean := by
  intro c m hm body runs name message value leaks
  by_cases listed : c.index < r.classes.size
  · have found : r.classOf c = r.classes[c.index] := by simp [Realm.classOf, listed]
    have checked := Array.all_eq_true.1 clean c.index listed
    rw [found] at hm
    have passed := List.all_eq_true.1 checked m hm
    rw [runs, leaks] at passed
    cases passed
  · have absent : r.classes[c.index]? = none := by simpa using listed
    rw [Realm.classOf, absent] at hm
    cases hm

theorem standard_clean : Realm.standard.Permitted Boundary.Clean :=
  Realm.permitted_of_isClean (by decide +kernel)

end Host

/-- A bridge over the class library. -/
def Bridge.World.started : World := .after (Context.start {} .fresh)

/-- The bridge with a context that sees every class. -/
def Bridge.World.opened : World := .after (Context.openSystem .started)

theorem started_eq : Context.start {} World.fresh = .ok () World.started := rfl

end ScriptBridge
