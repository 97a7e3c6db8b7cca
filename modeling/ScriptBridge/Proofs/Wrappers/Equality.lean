import ScriptBridge.Proofs.Containers.Stock
import ScriptBridge.Proofs.Hierarchy.Dispatch

/-!
# Equality of wrappers

Wrappers are equal if their classes are the same and what they wrap looks the same. Truth values and
whole numbers look the same only if they are, and so do characters, except that every half of a pair
looks like a question mark.
-/

namespace ScriptBridge

namespace Text

variable {u v : UInt16}

/-- A unit that is no half of a pair is the number of its character. -/
theorem toNat_charOfUnitD (whole : isSurrogate u = false) (fallback : Char) :
    (charOfUnitD u fallback).toNat = u.toNat := by
  have valid : u.toNat.isValidChar := by
    have bound := u.toNat_lt
    simp only [isSurrogate, Bool.and_eq_false_iff, decide_eq_false_iff_not,
      UInt16.le_iff_toNat_le] at whole
    unfold Nat.isValidChar
    simp at whole
    omega
  rw [charOfUnitD, whole, if_neg Bool.false_ne_true, Char.toNat_ofNat, if_pos valid]

theorem unitText_inj (whole : isSurrogate u = false) (whole' : isSurrogate v = false) :
    unitText u = unitText v ↔ u = v := by
  rw [unitText, unitText, String.singleton_inj]
  refine ⟨fun same => UInt16.toNat_inj.mp ?_, fun same => by rw [same]⟩
  rw [← toNat_charOfUnitD whole replacement, same, toNat_charOfUnitD whole' replacement]

end Text

namespace Host

variable {r : Realm} {a b : Value} {p q : Primitive}

/-! ### What values look like -/

/-- The primitive types without those of floating point. -/
def Primitive.isExact : Primitive → Bool
  | .float | .double => false
  | _ => true

namespace Value

/-- What a value looks like in a comparison. -/
def shown : Value → Value
  | .char unit => .char (if Text.isSurrogate unit then 0x3F else unit)
  | value => value

/-- A character that looks like a question mark. -/
def isBlurred : Value → Bool
  | .char unit => Text.isSurrogate unit || unit == 0x3F
  | _ => false

theorem primitive?_shown (a : Value) : a.shown.primitive? = a.primitive? := by
  cases a <;> rfl

theorem shown_of_not_blurred (clear : a.isBlurred = false) : a.shown = a := by
  cases a with
  | char unit =>
    simp only [isBlurred, Bool.or_eq_false_iff] at clear
    simp [shown, clear.1]
  | _ => rfl

theorem shown_of_blurred (blurred : a.isBlurred = true) : a.shown = .char 0x3F := by
  cases a with
  | char unit =>
    simp only [isBlurred, Bool.or_eq_true, beq_iff_eq] at blurred
    rcases blurred with half | mark
    · simp [shown, half]
    · simp [shown, mark]
  | _ => cases blurred

/-- Two values that look the same are the same, or both look like a question mark. -/
theorem shown_eq_iff (a b : Value) :
    a.shown = b.shown ↔ a = b ∨ a.isBlurred = true ∧ b.isBlurred = true := by
  have clear : ∀ {c d : Value}, c.isBlurred = false → c.shown = d.shown → c = d := by
    intro c d clear same
    rw [shown_of_not_blurred clear] at same
    cases blurred : d.isBlurred with
    | true =>
      rw [shown_of_blurred blurred] at same
      rw [same] at clear
      cases clear
    | false => rwa [shown_of_not_blurred blurred] at same
  constructor
  · intro same
    cases left : a.isBlurred with
    | false => exact .inl (clear left same)
    | true =>
      cases right : b.isBlurred with
      | false => exact .inl (clear right same.symm).symm
      | true => exact .inr ⟨rfl, rfl⟩
  · rintro (rfl | ⟨left, right⟩)
    · rfl
    · rw [shown_of_blurred left, shown_of_blurred right]

end Value

/-! ### Sketches -/

theorem toString_append_inj {i j : Int} (suffix : String) :
    toString i ++ suffix = toString j ++ suffix ↔ i = j := by
  rw [String.append_left_inj, Int.toString_eq_repr, Int.toString_eq_repr, Int.repr_inj]

theorem quoted_inj (s t : String) : "'" ++ s ++ "'" = "'" ++ t ++ "'" ↔ s = t := by
  rw [String.append_left_inj, String.append_right_inj]

/-- What stands between the quotes in the sketch of a character. -/
theorem shownUnit_eq (unit : UInt16) :
    (if Text.isSurrogate unit then "?" else Text.unitText unit) =
      Text.unitText (if Text.isSurrogate unit then 0x3F else unit) := by
  split
  · decide
  · rfl

theorem isSurrogate_shownUnit (unit : UInt16) :
    Text.isSurrogate (if Text.isSurrogate unit then 0x3F else unit) = false := by
  cases half : Text.isSurrogate unit with
  | true => rfl
  | false => simpa using half

/-- Values of one type have one sketch if they look the same. -/
theorem Realm.sketch_eq_iff (r : Realm) (depth : Nat) (exact : p.isExact = true)
    (left : a.primitive? = some p) (right : b.primitive? = some p) :
    r.sketch depth a = r.sketch depth b ↔ a.shown = b.shown := by
  cases p with
  | float | double => cases exact
  | boolean =>
    cases a <;> cases left
    cases b <;> cases right
    rename_i x y
    cases x <;> cases y <;> simp [Realm.sketch, Value.shown]
  | char =>
    cases a <;> cases left
    cases b <;> cases right
    simp only [Realm.sketch, Value.shown, quoted_inj, shownUnit_eq, Value.char.injEq]
    exact Text.unitText_inj (isSurrogate_shownUnit _) (isSurrogate_shownUnit _)
  | byte =>
    cases a <;> cases left
    cases b <;> cases right
    simp only [Realm.sketch, Value.shown, toString_append_inj, Int8.toInt_inj, Value.byte.injEq]
  | short =>
    cases a <;> cases left
    cases b <;> cases right
    simp only [Realm.sketch, Value.shown, toString_append_inj, Int16.toInt_inj, Value.short.injEq]
  | int =>
    cases a <;> cases left
    cases b <;> cases right
    simp only [Realm.sketch, Value.shown, Int.toString_eq_repr, Int.repr_inj, Int32.toInt_inj,
      Value.int.injEq]
  | long =>
    cases a <;> cases left
    cases b <;> cases right
    simp only [Realm.sketch, Value.shown, toString_append_inj, Int64.toInt_inj, Value.long.injEq]

/-! ### Methods of the library -/

/-- Whichever method of the signature a call on an object of the class is made through, it runs the
method of the library. -/
def Realm.Performs (s : Realm) (c : ClassId) (name : String) (params : List String)
    (run : LibraryMethod) : Prop :=
  ∃ m, ((s.methods c).find? fun l => l.name == name && l.params == params && !l.isStatic) = some m ∧
    m.body = .inl (.library run)

theorem Realm.Performs.resolve {s : Realm} {c : ClassId} {name : String} {params : List String}
    {run : LibraryMethod} (h : s.Performs c name params run) {n : Method} (named : n.name = name)
    (takes : n.params = params) : (s.resolveVirtual c n).body = .inl (.library run) := by
  obtain ⟨m, found, runs⟩ := h
  subst named takes
  have first : ((s.methods c).find? fun l => l.sameSignature n && !l.isStatic) = some m := found
  rw [Realm.resolveVirtual, first]
  exact runs

/-- The Host can be asked whether two objects are equal. -/
def Realm.Compares (r : Realm) : Prop :=
  ∃ m, ((r.methods (r.require objectName)).find? fun m =>
    m.name == "equals" && m.params == [objectName]) = some m ∧ m.isStatic = false

theorem Realm.Compares.congr {v : Realm} (compares : r.Compares) (same : v.classOf = r.classOf)
    (named : v.require objectName = r.require objectName) : v.Compares := by
  obtain ⟨m, found, member⟩ := compares
  refine ⟨m, ?_, member⟩
  rw [Realm.methods_congr same, named]
  exact found

end Host

namespace Bridge

open Host (ClassId ObjectId Realm Primitive Method LibraryMethod HostM BodyM Bodies)

variable {s r : Realm} {w : World} {x y : ObjectId} {a b : Host.Value} {n : Method}

/-- The object is the wrapper of a value that is no float. -/
def Wrapper (s r : Realm) (x : ObjectId) (a : Host.Value) : Prop :=
  ∃ p : Primitive, p.isExact = true ∧ a.primitive? = some p ∧ Wraps s r x p a

/-- What comparing wrappers needs of the library. -/
structure Comparing (s : Realm) : Prop where
  stocked : Stocked s
  equals : ∀ p : Primitive, p.isExact = true →
    s.Performs (wrapperOf s p) "equals" [Host.objectName] .wrapperEquals

/-- Wrappers of one class are the same if what they wrap looks the same. -/
theorem sameWrapped_eq (stocked : Stocked s) (left : Wrapper s r x a) (right : Wrapper s r y b) :
    r.sameWrapped y x = (a.shown == b.shown) := by
  obtain ⟨p, exact, type, wraps⟩ := left
  obtain ⟨q, -, type', wraps'⟩ := right
  rw [Realm.sameWrapped, wraps.ofClass, wraps'.ofClass, Realm.boxed?, Realm.boxed?, wraps.payload,
    wraps'.payload, Bool.eq_iff_iff, Bool.and_eq_true, beq_iff_eq, beq_iff_eq, beq_iff_eq]
  constructor
  · rintro ⟨same, sketches⟩
    obtain rfl := stocked.wrapper_injective same
    exact ((r.sketch_eq_iff _ exact type' type).mp sketches).symm
  · intro same
    have types : some p = some q := by
      rw [← type, ← type', ← Host.Value.primitive?_shown a, same, Host.Value.primitive?_shown]
    obtain rfl := Option.some.inj types
    exact ⟨rfl, (r.sketch_eq_iff _ exact type' type).mpr same.symm⟩

section

variable (comparing : Comparing s) (includes : s.Includes w.outside.realm)
  (callback : Host.Callback → BodyM World Host.Value) (below : Unit → Bodies World)

include comparing includes

/-- A call on an object of a class of the library. -/
theorem callMethod_performs {c : ClassId} {o : ObjectId} {name : String} {params : List String}
    {run : LibraryMethod} (performs : s.Performs c name params run) (has : s.Has c)
    (ofClass : w.outside.realm.classIdOf o = c) (named : n.name = name) (takes : n.params = params)
    (member : n.isStatic = false) {args : List Host.Value} (arity : args.length = params.length) :
    Host.callMethod (.over callback below) (some o) n args w =
      Host.running (run.run (below ()) (some o) args) w := by
  have runs : (w.outside.realm.resolveVirtual (w.outside.realm.classIdOf o) n).body =
      .inl (.library run) := by
    rw [ofClass, includes.resolveVirtual comparing.stocked.coherent has n]
    exact performs.resolve named takes
  have fits : args.length = n.arity := by rw [arity, Method.arity, takes]
  exact Host.callMethod_instance (.over callback below) member fits rfl runs

/-- A wrapper is equal to another one if they look the same. -/
theorem wrapperEquals_run (left : Wrapper s w.outside.realm x a)
    (right : Wrapper s w.outside.realm y b) (named : n.name = "equals")
    (takes : n.params = [Host.objectName]) (member : n.isStatic = false) :
    Host.callMethod (.over callback below) (some x) n [.ref y] w =
      .ok (.boolean (a.shown == b.shown)) w := by
  have same := sameWrapped_eq comparing.stocked left right
  obtain ⟨p, exact, type, wraps⟩ := left
  rw [callMethod_performs comparing includes callback below (comparing.equals p exact)
    (comparing.stocked.wrapper_has p) wraps.ofClass named takes member rfl, ← same]
  rfl

theorem sameObjects_wrappers (compares : w.outside.realm.Compares)
    (left : Wrapper s w.outside.realm x a) (right : Wrapper s w.outside.realm y b) :
    Host.sameObjects (.over callback below) x y w = .ok (a.shown == b.shown) w := by
  obtain ⟨m, found, member⟩ := compares
  have got : (Host.getMethod (w.outside.realm.require Host.objectName) "equals"
      [Host.objectName] : HostM World Method) w = .ok m w := by
    unfold Host.getMethod
    rw [bind_ok (getRealm_run w)]
    exact findMember_run found
  have signature := List.find?_some found
  rw [Bool.and_eq_true, beq_iff_eq, beq_iff_eq] at signature
  have called := wrapperEquals_run comparing includes callback below left right signature.1
    signature.2 member
  unfold Host.sameObjects
  rw [bind_ok (getRealm_run w), bind_ok got, bind_ok called]
  rfl

/-- The Host's equality tells wrappers apart by what they look like. -/
theorem sameItem_wrappers (compares : w.outside.realm.Compares)
    (left : Wrapper s w.outside.realm x a) (right : Wrapper s w.outside.realm y b) :
    Host.sameItem (.over callback below) (.ref x) (.ref y) w = .ok (a.shown == b.shown) w := by
  show Host.calling _ w = _
  rw [Host.calling, sameObjects_wrappers comparing includes callback below compares left right]

end

end Bridge
end ScriptBridge
