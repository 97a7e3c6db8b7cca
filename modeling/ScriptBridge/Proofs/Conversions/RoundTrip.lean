import Mathlib
import ScriptBridge.Context.Machine
import ScriptBridge.Installation
import ScriptBridge.Proofs.Conversions.Boxing

/-!
# Conversions there and back

An object that is shown to a script and handed back is the object itself, or a wrapper or a string
that says the same. A script value that is handed to the Host and shown again equals what it was
and is of the same type, unless it was an int that needs more than 32 bits.
-/

namespace ScriptBridge.Bridge

open Host (ClassId ObjectId Realm Primitive HostM BodyM Bodies)
open Script (InterpreterId Foreign)

variable {s r r' : Realm} {w v : World} {c : ClassId} {o : ObjectId} {p : Primitive}
  (ts : InterpreterId)

/-- What a view that shows an object becomes in a later state. -/
theorem Along.viewAt (h : Along s w v) {place : Nat}
    (shows : (w.viewAt place).object? = some o) : (w.viewAt place).Released (v.viewAt place) := by
  refine h.views place ?_
  by_cases made : place < w.outside.proxies.size
  · exact made
  · have missing : w.outside.proxies[place]? = none := by simpa using made
    rw [World.viewAt, missing] at shows
    cases shows

/-- Two views show the same, one of an array maybe through another pin. -/
inductive View.Same : View → View → Prop
  | object (o : ObjectId) : Same (.object o) (.object o)
  | type (c : ClassId) (o o' : ObjectId) : Same (.type c o) (.type c o')
  | array (o : ObjectId) (component component' : Option (ClassId × Kind)) (pin pin' : Option Pin) :
    Same (.array o component pin) (.array o component' pin')

theorem View.Same.released {view view' : View} {o : ObjectId} (shows : view.object? = some o)
    (released : view.Released view') : view.Same view' := by
  cases view with
  | object o =>
    cases released
    exact .object o
  | type c o =>
    cases released
    exact .type c o o
  | array o component pin => rcases released with rfl | rfl <;> exact .array o _ _ _ _
  | method => cases shows

theorem View.Same.trans {view view' view'' : View} (h : view.Same view') (h' : view'.Same view'') :
    view.Same view'' := by
  cases h <;> cases h' <;> constructor

section

variable (stocked : Stocked s) (intact : w.Intact s)
  (body : InterpreterId → Script.Scope → Syntax.Expr → BridgeM Script.Value)
  (callback : Host.Callback → BodyM World Host.Value) (below : Unit → Bodies World)

include stocked intact

end

/-! ### Both directions -/

/-- A bridge over a Host, before anything was asked of it. -/
def World.over (s : Realm) : World := ⟨{}, { realm := s }⟩

/-- Checks that an object is the class object of a class. -/
def isMirror (s r : Realm) (o : ObjectId) : Bool :=
  r.classIdOf o == s.require Host.className &&
    (r.mirrored? o).any fun c => r.mirrors.lookup c == some o

/-- A class object is as the Host makes them. -/
theorem Proper.of_isMirror (stocked : Stocked s) (intact : w.Intact s)
    (reference : (s.classOf (s.require Host.className)).isPrimitive = false)
    (held : w.outside.realm.Holds o) (h : isMirror s w.outside.realm o = true) :
    Proper s w.outside.realm o := by
  rw [isMirror, Bool.and_eq_true, beq_iff_eq, Option.any_eq_true] at h
  obtain ⟨type, c, mirrored, known⟩ := h
  have has : s.Has (s.require Host.className) :=
    stocked.coherent.registered _ _ (stocked.registered .type)
  have same := intact.classes.classes _ has
  refine ⟨held, ?_, ?_, fun p wraps => ?_, fun string => ?_, fun array => ?_, fun d describes => ?_⟩
  · rw [type]
    exact intact.classes.kept _ has
  · rw [type, same, reference]
  · exact absurd (wraps.symm.trans type) (stocked.wrapper_ne_type p)
  · exact absurd (string.symm.trans type) stocked.string_ne_type
  · rw [type, same, Host.Class.isArray, stocked.plain _ has] at array
    cases array
  · rw [mirrored] at describes
    cases describes
    exact ⟨type, beq_iff_eq.mp known⟩

/-- Checks that a Host has class objects and nothing else. -/
def isUntouched (s : Realm) : Bool :=
  (World.over s).isFormed && !(s.classOf (s.require Host.className)).isPrimitive &&
    (List.range s.objects.size).all fun i => isMirror s s ⟨i⟩

/-- What is known of a bridge that has not begun. -/
structure Untouched (s : Realm) : Prop where
  intact : (World.over s).Intact s
  proper : ∀ o, (World.over s).outside.realm.Holds o → Proper s (World.over s).outside.realm o
  mirror : ∀ o, (World.over s).outside.realm.Holds o → (s.mirrored? o).isSome = true

theorem Untouched.of_isUntouched (stocked : Stocked s) (h : isUntouched s = true) :
    Untouched s := by
  rw [isUntouched, Bool.and_eq_true, Bool.and_eq_true, Bool.not_eq_true'] at h
  obtain ⟨⟨isFormed, reference⟩, mirrors⟩ := h
  have intact : (World.over s).Intact s := by
    refine ⟨World.formed_of_isFormed isFormed, ⟨fun _ has => has, fun _ _ => rfl⟩,
      fun _ _ known => known, fun _ => rfl, fun b known => ?_, fun a known => ?_⟩
    · cases (show none = some b from known)
    · cases (show none = some a from known)
  have each : ∀ o, s.Holds o → isMirror s s o = true := fun o held =>
    List.all_eq_true.mp mirrors o.index (List.mem_range.mpr held)
  refine ⟨intact, fun o held => ?_, fun o held => ?_⟩
  · exact .of_isMirror (w := .over s) stocked intact reference held (each o held)
  · have mirror := each o held
    rw [isMirror, Bool.and_eq_true] at mirror
    cases described : s.mirrored? o with
    | some c => rfl
    | none =>
      rw [described] at mirror
      cases mirror.2

theorem standard_untouched : Untouched Realm.standard :=
  .of_isUntouched standard_stocked (by decide +kernel)

end ScriptBridge.Bridge
