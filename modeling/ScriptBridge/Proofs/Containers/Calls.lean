import Mathlib.Data.List.Forall2
import ScriptBridge.Proofs.Containers.Items
import ScriptBridge.Proofs.Overloads.Selection

/-!
# Calls that drive containers

A container is driven through methods of interfaces, which take items and positions. A call turns
the arguments into values of the Host, runs what the container's own class declares, and turns the
answer back.
-/

namespace ScriptBridge.Bridge

open Host (ClassId ObjectId Realm Method HostM BodyM Bodies LibraryMethod)
open Script (InterpreterId)

variable {s r : Realm} {w v : World} {c : ClassId} {o : ObjectId} {m : Method}
  (ts : InterpreterId)

/-! ### Arguments -/

/-- An argument of a method that drives a container. -/
inductive Argument where
  | item (item : Option String)
  | place (place : Nat)

namespace Argument

def value : Argument → Script.Value
  | item i => scriptItem i
  | place n => .int (.ofNat n)

def typeName : Argument → String
  | item _ => Host.objectName
  | place _ => "int"

end Argument

/-- The value that an argument becomes in the Host. -/
inductive Passed (s r : Realm) : Argument → Host.Value → Prop where
  | item {item : Option String} {x : Host.Value} (stores : Stores s r item x) :
    Passed s r (.item item) x
  | place (place : Nat) : Passed s r (.place place) (.int (Int64.ofNat place).toInt32)

theorem Passed.grows {a : Argument} {x : Host.Value} (h : Passed s r a x) {r' : Realm}
    (grows : r.Grows r') : Passed s r' a x := by
  cases h with
  | item stores => exact .item (stores.grows grows)
  | place place => exact .place place

/-- The class of an argument's parameter. -/
def Argument.paramIn (s : Realm) (a : Argument) : ClassId := s.require a.typeName

theorem findClasses_run (passing : Passing s) (equipped : w.Equipped s) (args : List Argument) :
    (Host.findClasses (args.map Argument.typeName) : HostM World (List ClassId)) w =
      .ok (args.map (Argument.paramIn s)) w := by
  induction args with
  | nil => rfl
  | cons a rest ih =>
    have found : (Host.findClass a.typeName : HostM World ClassId) w = .ok (a.paramIn s) w := by
      cases a with
      | item item => exact passing.object.findClass_run equipped
      | place place => exact passing.int.findClass_run equipped
    simp only [List.map_cons, Host.findClasses]
    rw [bind_ok found, bind_ok ih]
    rfl

/-- The kind of an argument's parameter. -/
def Argument.kind : Argument → Kind
  | item _ => .object
  | place _ => .int

theorem kindOf_param (passing : Passing s) (equipped : w.Equipped s) (a : Argument) :
    ∃ v, kindOf ts (a.paramIn s) w = .ok a.kind v ∧ Serves s w v := by
  cases a with
  | item item => exact passing.object.kindOf_run ts passing.stocked equipped
  | place place => exact passing.int.kindOf_run ts passing.stocked equipped

theorem coerce_argument (passing : Passing s) (equipped : w.Equipped s) (a : Argument)
    (position : Nat) : ∃ x v,
      (∀ bodies, coerce bodies ts a.value (a.paramIn s) a.kind position w = .ok x v) ∧
        Serves s w v ∧ Passed s v.outside.realm a x := by
  cases a with
  | item item =>
    obtain ⟨x, v, coerced, later, stores⟩ := coerce_item ts passing equipped item position
    exact ⟨x, v, coerced, later, .item stores⟩
  | place place => exact ⟨_, w, fun _ => rfl, .refl equipped, .place place⟩

/-- By induction on the arguments: what became of the earlier ones is kept while the later ones are
converted. -/
theorem coerceAll_run (passing : Passing s) (equipped : w.Equipped s) (args : List Argument)
    (position : Nat) : ∃ xs v,
      (∀ bodies, coerceAll bodies ts position
        (args.map fun a => (a.value, a.paramIn s)) w = .ok xs v) ∧
        Serves s w v ∧ List.Forall₂ (Passed s v.outside.realm) args xs := by
  induction args generalizing w position with
  | nil => exact ⟨[], w, fun _ => rfl, .refl equipped, .nil⟩
  | cons a rest ih =>
    obtain ⟨w₁, classified, first⟩ := kindOf_param ts passing equipped a
    obtain ⟨x, w₂, coerced, second, passed⟩ := coerce_argument ts passing first.equipped a position
    obtain ⟨xs, v, others, last, all⟩ := ih second.equipped (position + 1)
    refine ⟨x :: xs, v, fun bodies => ?_, (first.trans second).trans last,
      .cons (passed.grows last.realm) all⟩
    simp only [List.map_cons, coerceAll]
    rw [bind_ok classified, bind_ok (coerced bodies), bind_ok (others bodies)]
    rfl

/-! ### Methods -/

/-- A method by which containers of a class are driven, and what of the library it runs. -/
structure Call where
  name : String
  run : LibraryMethod
  params : List String
  returns : String

/-- On objects of the class the method runs what the call says. -/
structure Drives (s : Realm) (c : ClassId) (call : Call) (m : Method) : Prop where
  instance_method : m.isStatic = false
  exceptions : m.exceptions = []
  params : m.params = call.params
  returns : m.returnType = call.returns
  resolved : (s.resolveVirtual c m).body = .inl (.library call.run)

/-- The object is one of a class of the library. -/
structure Belongs (s r : Realm) (c : ClassId) (o : ObjectId) : Prop where
  has : s.Has c
  held : r.Holds o
  ofClass : r.classIdOf o = c

theorem Belongs.grows (h : Belongs s r c o) {r' : Realm} (grows : r.Grows r') :
    Belongs s r' c o :=
  ⟨h.has, grows.held o h.held, (grows.objects o h.held).trans h.ofClass⟩

/-- The call of a method on arguments that were converted. -/
theorem callMethod_library (passing : Passing s) (equipped : w.Equipped s)
    (belongs : Belongs s w.outside.realm c o) {call : Call} (drives : Drives s c call m)
    {args : List Argument} (params : call.params = args.map Argument.typeName)
    (callback : Host.Callback → BodyM World Host.Value) (below : Unit → Bodies World)
    {xs : List Host.Value} (passed : List.Forall₂ (Passed s w.outside.realm) args xs)
    {answer : Host.Value} (ran : call.run.run (below ()) (some o) xs w = .ok answer v) :
    Host.callMethod (.over callback below) (some o) m xs w = .ok answer v := by
  have arity : xs.length = m.arity := by
    rw [Method.arity, drives.params, params, List.length_map, passed.length_eq]
  have chosen : w.chosen (some o) m = some (some o, s.resolveVirtual c m) := by
    rw [World.chosen, if_neg (Bool.eq_false_iff.mp drives.instance_method), Option.map_some,
      belongs.ofClass,
      equipped.classes.resolveVirtual passing.stocked.coherent belongs.has m]
  have body : (Bodies.over callback below).method (.library call.run) (some o) xs w = .ok answer v := ran
  rw [callMethod_run arity chosen drives.resolved, Host.running, body]

/-- A method is called on converted arguments, and what it answers is shown by the kind of its
return type. -/
theorem invoke_run (passing : Passing s) (equipped : w.Equipped s)
    (belongs : Belongs s w.outside.realm c o) {call : Call} (drives : Drives s c call m)
    {args : List Argument} (params : call.params = args.map Argument.typeName)
    {kind : Kind} (typed : Typed s call.returns kind) (something : kind ≠ .void)
    (callback : Host.Callback → BodyM World Host.Value) (below : Unit → Bodies World)
    {R : Host.Value → World → Prop}
    (runs : ∀ xs (v : World), Serves s w v → List.Forall₂ (Passed s v.outside.realm) args xs →
      ∃ answer u, call.run.run (below ()) (some o) xs v = .ok answer u ∧ u.Equipped s ∧ R answer u) :
    ∃ answer u u', R answer u ∧ Serves s u u' ∧
      invoke (.over callback below) ts (some o) m (args.map Argument.value) w =
        toScript (.over callback below) ts answer kind u' := by
  obtain ⟨xs, v, coerced, later, passed⟩ := coerceAll_run ts passing equipped args 1
  obtain ⟨answer, u, ran, equipped', holds⟩ := runs xs v later passed
  obtain ⟨u', classified, last⟩ := typed.kindOf_run ts passing.stocked equipped'
  refine ⟨answer, u, u', holds, last, ?_⟩
  have called := hostCall_ok (callMethod_library passing later.equipped (belongs.grows later.realm)
    drives params callback below passed ran) (.over callback below) ts
  have returned := hostCall_ok (typed.findClass_run equipped') (.over callback below) ts
  have zipped : (args.map Argument.value).zip (args.map (Argument.paramIn s)) =
      args.map fun a => (a.value, a.paramIn s) := List.zip_map'
  have arity : m.arity = (args.map Argument.value).length := by
    rw [Method.arity, drives.params, params, List.length_map, List.length_map]
  have found : (Host.findClasses m.params : HostM World _) w =
      .ok (args.map (Argument.paramIn s)) w := by
    rw [drives.params, params]
    exact findClasses_run passing equipped args
  have converted : coerceArguments (.over callback below) ts m (args.map Argument.value) w =
      .ok xs v := by
    rw [coerceArguments_found arity found, zipped]
    exact coerced _
  unfold invoke
  rw [bind_ok (registerExceptions_none drives.exceptions ts w), bind_ok converted, bind_ok called,
    drives.returns, bind_ok returned, bind_ok classified, if_neg something]

section

variable (passing : Passing s) (equipped : w.Equipped s) (belongs : Belongs s w.outside.realm c o)
  {call : Call} (drives : Drives s c call m) {args : List Argument}
  (params : call.params = args.map Argument.typeName)
  (callback : Host.Callback → BodyM World Host.Value) (below : Unit → Bodies World)
  {R : World → Prop}

include passing equipped belongs drives params

/-- A method that answers an item. -/
theorem invoke_item (returns : call.returns = Host.objectName) {item : Option String}
    (runs : ∀ xs (v : World), Serves s w v → List.Forall₂ (Passed s v.outside.realm) args xs →
      ∃ answer u, call.run.run (below ()) (some o) xs v = .ok answer u ∧ u.Equipped s ∧
        Stores s u.outside.realm item answer ∧ R u) :
    ∃ u v, R u ∧ Serves s u v ∧
      invoke (.over callback below) ts (some o) m (args.map Argument.value) w =
        .ok (scriptItem item) v := by
  have typed : Typed s call.returns .object := by
    rw [returns]
    exact passing.object
  obtain ⟨answer, u, u', ⟨equipped', stores, holds⟩, later, invoked⟩ :=
    invoke_run ts passing equipped belongs drives params typed nofun callback
      below (R := fun answer u => u.Equipped s ∧ Stores s u.outside.realm item answer ∧ R u)
      fun xs v later passed => by
        obtain ⟨answer, u, ran, equipped', stores, holds⟩ := runs xs v later passed
        exact ⟨answer, u, ran, equipped', equipped', stores, holds⟩
  obtain ⟨v, shown, last⟩ := toScript_item ts passing.stocked later.equipped
    (stores.grows later.realm)
  exact ⟨u, v, holds, later.trans last, invoked.trans (shown _)⟩

/-- A method that answers a primitive. -/
theorem invoke_primitive {kind : Kind} (typed : Typed s call.returns kind)
    (something : kind ≠ .void) {answer : Host.Value} (plain : answer.ref? = none)
    (runs : ∀ xs (v : World), Serves s w v → List.Forall₂ (Passed s v.outside.realm) args xs →
      ∃ u, call.run.run (below ()) (some o) xs v = .ok answer u ∧ u.Equipped s ∧ R u) :
    ∃ u v, R u ∧ Serves s u v ∧
      invoke (.over callback below) ts (some o) m (args.map Argument.value) w =
        .ok (ofPrimitive answer) v := by
  obtain ⟨given, u, v, ⟨rfl, holds⟩, later, invoked⟩ :=
    invoke_run ts passing equipped belongs drives params typed something callback below
      (R := fun given u => given = answer ∧ R u) fun xs v later passed => by
        obtain ⟨u, ran, equipped', holds⟩ := runs xs v later passed
        exact ⟨answer, u, ran, equipped', rfl, holds⟩
  refine ⟨u, v, holds, later, invoked.trans ?_⟩
  cases given with
  | ref => cases plain
  | _ => rfl

end

end ScriptBridge.Bridge
