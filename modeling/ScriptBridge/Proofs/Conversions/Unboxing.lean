import ScriptBridge.Proofs.Conversions.Intact
import ScriptBridge.Proofs.Overloads.Fitting

/-!
# What scripts see of Host objects

A wrapper is read by its accessor and becomes a number, a truth value or a text; a string becomes a
text; every other object becomes a view that shows the object itself.
-/

namespace ScriptBridge.Bridge

open Host (ClassId ObjectId Realm Primitive Method HostM BodyM Bodies onRealm)
open Script (InterpreterId Foreign ForeignKind)

variable {ε α : Type} {s r : Realm} {w v : World} {c : ClassId} {o : ObjectId} {p : Primitive}
  (ts : InterpreterId)

/-! ### Views -/

/-- The state with one more view. -/
def World.showing (w : World) (proxy : Proxy) : World :=
  ⟨w.memory, { w.outside with proxies := w.outside.proxies.push proxy }⟩

theorem World.viewAt_showing_new (w : World) (proxy : Proxy) :
    (w.showing proxy).viewAt w.outside.proxies.size = proxy.view := by
  simp [viewAt, showing]

theorem World.viewAt_showing_old {place : Nat} (proxy : Proxy)
    (other : place ≠ w.outside.proxies.size) : (w.showing proxy).viewAt place = w.viewAt place := by
  simp [viewAt, showing, Array.getElem?_push, other]

/-- A view may be added of an object that exists. -/
theorem Along.showing (intact : w.Intact s) (proxy : Proxy)
    (sound : ∀ o, proxy.view.object? = some o →
      w.outside.realm.Holds o ∧ w.outside.realm.Has (w.outside.realm.classIdOf o)) :
    Along s w (w.showing proxy) where
  realm := .refl _
  views place made := by
    rw [World.viewAt_showing_old proxy (Nat.ne_of_lt made)]
    exact .refl _
  shown := by simp [World.showing]
  intact := by
    have formed := intact.formed
    refine ⟨⟨formed.coherent, formed.statics, formed.tokens, fun place o shows => ?_⟩,
      intact.classes, intact.names, intact.tokens, intact.boxing, intact.accessors⟩
    by_cases new : place = w.outside.proxies.size
    · rw [new, World.viewAt_showing_new] at shows
      exact sound o shows
    · rw [World.viewAt_showing_old proxy new] at shows
      exact formed.views place o shows

/-- A name without brackets and slashes is looked up as it stands. -/
def PlainName (name : String) : Prop :=
  ∀ r : Realm, Realm.lookupClass? name r = (r.registry.get? name, r)

theorem findClass_plain (intact : w.Intact s) {name : String} (plain : PlainName name)
    (known : s.registry.get? name = some c) :
    (Host.findClass name : HostM World ClassId) w = .ok c w := by
  have found := plain w.outside.realm
  rw [intact.names name c known] at found
  unfold Host.findClass
  rw [bind_ok (onRealm_run found)]
  rfl

theorem findMember_run {candidates : List Method} {name : String} {params : List String}
    {m : Method} (found : (candidates.find? fun m => m.name == name && m.params == params) = some m) :
    (Host.findMember candidates c name params : HostM World Method) w = .ok m w := by
  simp only [Host.findMember, found]
  rfl

/-- An object of a kind that is no wrapper's is shown as it is viewed. -/
theorem unboxWithin_viewed {bodies : Bodies World} {kind : Kind} {value : Script.Value}
    (viewed : viewAs bodies ts o kind w = .ok (some value) v) (steps : Nat) :
    unboxWithin bodies ts (steps + 1) o kind w = .ok value v := by
  unfold unboxWithin
  rw [bind_ok viewed]
  rfl

section

variable (stocked : Stocked s) (intact : w.Intact s) (proper : Proper s w.outside.realm o)

include stocked intact proper

end

end ScriptBridge.Bridge
