import ScriptBridge.Proofs.Containers.Holding
import ScriptBridge.Proofs.Containers.Maps

/-!
# Containers of the class library

The class library has what it takes to drive its lists and maps from scripts. This is checked by
computation.
-/

/-! ## Making a container

A script makes a container by calling its class. The container is empty, and the script holds a view
of it.
-/

namespace ScriptBridge.Bridge

open Host (ClassId ObjectId Realm Method HostM BodyM Bodies Payload onRealm)
open Script (InterpreterId Foreign)

variable {ε : Type} {s : Realm} {w : World} {o : ObjectId} {name : String} {ts : InterpreterId}
  {g : Foreign} {payload : Payload}

/-- Objects of a class of the library are made without arguments, and hold this at first. -/
structure Makes (s : Realm) (name : String) (payload : Payload) : Prop where
  known : s.registry.get? name = some (s.require name)
  concrete : (s.classOf (s.require name)).kind = .concrete
  constructor : ∃ k construction, s.constructors (s.require name) = [k] ∧ k.params = [] ∧
    k.body = .inr construction ∧
    ∀ (bodies : Bodies World) c, construction.run bodies c [] = pure payload
  items : Items payload = true

/-- The view of an object keeps it, and is a new one. -/
theorem viewObject_serves (equipped : w.Equipped s) (held : w.outside.realm.Holds o)
    (has : w.outside.realm.Has (w.outside.realm.classIdOf o)) :
    ∃ f v, (viewObject o : EStateM ε World Script.Value) w = .ok (.foreign f) v ∧
      Serves s w v ∧ f.place < v.outside.proxies.size ∧ v.viewAt f.place = .object o := by
  obtain ⟨ref, r, taken⟩ : ∃ ref r, Realm.newGlobalRef o w.outside.realm = (ref, r) := ⟨_, _, rfl⟩
  have grows : w.outside.realm.Grows r := by
    have grown := Realm.Grows.newGlobalRef o w.outside.realm
    rwa [taken] at grown
  have kept := Serves.of_grows equipped grows
  have shown : Serves s (w.onRealm r) ((w.onRealm r).showing ⟨.object o, some ref⟩) := by
    refine .showing kept.equipped _ fun o' shows => ?_
    cases shows
    refine ⟨grows.held o held, ?_⟩
    show r.Has (r.classIdOf o)
    rw [grows.objects o held]
    exact grows.kept _ has
  refine ⟨⟨.object, w.outside.proxies.size⟩, _, ?_, kept.trans shown, ?_,
    World.viewAt_showing_new _ _⟩
  · unfold viewObject
    rw [bind_ok (onRealm_run taken)]
    rfl
  · simp [World.showing, World.onRealm]

/-- The constructor without arguments fills a new object. -/
theorem Makes.newObject_run (makes : Makes s name payload)
    (same : w.outside.realm.classOf (s.require name) = s.classOf (s.require name))
    (callback : Host.Callback → BodyM World Host.Value) (below : Unit → Bodies World) :
    ∃ (k : Host.Method) (o : ObjectId) (r : Realm), s.constructors (s.require name) = [k] ∧
      k.params = [] ∧ w.outside.realm.Grows r ∧ r.Holds o ∧ r.classIdOf o = s.require name ∧
      r.payload o = payload ∧
      Host.newObject (.over callback below) (s.require name) k [] w = .ok o (w.onRealm r) := by
  obtain ⟨k, construction, only, arity, body, fills⟩ := makes.constructor
  obtain ⟨o, r, allocated, grows, held, ofClass, holds, -⟩ :=
    Realm.allocated (s.require name) payload w.outside.realm
  refine ⟨k, o, r, only, arity, grows, held, ofClass, holds, ?_⟩
  have concrete : ¬(w.outside.realm.classOf (s.require name)).kind ≠ .concrete := by
    rw [same]
    exact not_not_intro makes.concrete
  have fits : ¬([] : List Host.Value).length ≠ k.arity := by simp [Method.arity, arity]
  have ran : (Host.running ((Bodies.over callback below).construct construction
      (s.require name) []) : HostM World Payload) w = .ok payload w := by
    simp only [Host.running, Bodies.over, fills]
    rfl
  unfold Host.newObject
  rw [bind_ok (getRealm_run w)]
  dsimp only
  rw [if_neg concrete, if_neg fits]
  simp only [body]
  rw [bind_ok ran]
  exact onRealm_run allocated

/-- A class with one constructor, which takes no arguments, is called by making an object. -/
theorem call_class_run {bodies : Bodies World} {c : ClassId} {mirror : ObjectId} {k : Host.Method}
    {v : World} (view : w.viewAt g.place = .type c mirror)
    (only : w.outside.realm.constructors c = [k]) (arity : k.params = [])
    (built : Host.newObject bodies c k [] w = .ok o v) :
    Bridge.call bodies ts g [] w = (viewObject o : BridgeM Script.Value) v := by
  have place : (getProxy g.place : BridgeM Proxy) w =
      .ok ((w.outside.proxies[g.place]?).getD default) w := rfl
  have converted : coerceArguments bodies ts k [] w = .ok [] w := by
    rw [coerceArguments, arity]
    simp only [Method.arity, arity]
    rfl
  unfold Bridge.call
  rw [bind_ok place, ← World.viewAt, view]
  dsimp only
  unfold instantiate
  rw [bind_ok (getRealm_run w)]
  simp only [only, List.isEmpty_cons, Bool.false_eq_true, if_false, pure_bind, selectOverload]
  rw [bind_ok converted, bind_ok (hostCall_ok built bodies ts)]

/-- The call of a class makes an object of the class. -/
theorem makes_run (passing : Passing s) (makes : Makes s name payload) (equipped : w.Equipped s)
    (made : ts.place < w.memory.interpreters.size) {mirror : ObjectId}
    (view : w.viewAt g.place = .type (s.require name) mirror)
    (callback : Host.Callback → BodyM World Host.Value) (below : Unit → Bodies World) :
    ∃ (f : Foreign) (o : ObjectId) (v : World),
      Bridge.call (.over callback below) ts g [] w = .ok (.foreign f) v ∧
      v.Holding s name ts f o ∧ v.outside.realm.payload o = payload := by
  have has := passing.stocked.coherent.registered _ _ makes.known
  have same := equipped.classes.classes _ has
  obtain ⟨k, o, r, only, arity, grows, held, ofClass, holds, built⟩ :=
    makes.newObject_run same callback below
  have first := Serves.of_grows equipped grows
  have there : (w.onRealm r).outside.realm.Has ((w.onRealm r).outside.realm.classIdOf o) := by
    show r.Has (r.classIdOf o)
    rw [ofClass]
    exact first.intact.classes.kept _ has
  obtain ⟨f, v, viewed, last, shown, shows⟩ :=
    viewObject_serves (ε := Script.Raised) first.equipped held there
  have belongs : Belongs s (w.onRealm r).outside.realm (s.require name) o := ⟨has, held, ofClass⟩
  refine ⟨f, o, v, ?_, ⟨last.equipped, ?_, shown, shows, belongs.grows last.realm⟩, ?_⟩
  · have constructors : w.outside.realm.constructors (s.require name) = [k] := by
      rw [Realm.constructors, same]
      exact only
    exact (call_class_run view constructors arity built).trans viewed
  · rw [last.made]
    exact made
  · have kept := last.realm.payloads o held
    rw [show (w.onRealm r).outside.realm.payload o = payload from holds] at kept
    exact rewritten_items makes.items kept

end ScriptBridge.Bridge

namespace ScriptBridge.Bridge

open Host (ClassId Realm Method LibraryMethod Construction BodyM Bodies Payload)

variable {s : Realm} {name : String} {kind : Kind} {calls : List Call} {own : Call}
  {protocol : Protocol}

/-! ### Types -/

def typedChecks (s : Realm) (name : String) (kind : Kind) : Bool :=
  s.registry.get? name == some (s.require name) &&
    match tokenFor? s (s.require name) with
    | some token => token.kind == kind
    | none => kind == .object && !s.isAssignable (s.require name) (s.require Host.className)

theorem Typed.of_checks (plain : PlainName name) (h : typedChecks s name kind = true) :
    Typed s name kind := by
  rw [typedChecks, Bool.and_eq_true, beq_iff_eq] at h
  refine ⟨plain, h.1, ?_⟩
  cases known : tokenFor? s (s.require name) with
  | some token =>
    rw [known] at h
    exact .inl ⟨token, rfl, beq_iff_eq.mp h.2⟩
  | none =>
    rw [known, Bool.and_eq_true, beq_iff_eq, Bool.not_eq_true'] at h
    exact .inr ⟨h.2.1, rfl, h.2.2⟩

/-! ### Methods -/

/-- The method of the library that a method runs. -/
def libraryOf? (m : Method) : Option LibraryMethod :=
  match m.body with
  | .inl (.library run) => some run
  | _ => none

theorem body_of_libraryOf? {m : Method} {run : LibraryMethod} (h : libraryOf? m = some run) :
    m.body = .inl (.library run) := by
  unfold libraryOf? at h
  split at h
  · rename_i body
    cases h
    exact body
  · cases h

def drivesChecks (s : Realm) (c : ClassId) (call : Call) (m : Method) : Bool :=
  !m.isStatic && m.exceptions == [] && m.params == call.params && m.returnType == call.returns &&
    libraryOf? (s.resolveVirtual c m) == some call.run

theorem Drives.of_checks {c : ClassId} {call : Call} {m : Method}
    (h : drivesChecks s c call m = true) : Drives s c call m := by
  simp only [drivesChecks, Bool.and_eq_true, Bool.not_eq_true', beq_iff_eq] at h
  obtain ⟨⟨⟨⟨instance_method, exceptions⟩, params⟩, returns⟩, runs⟩ := h
  exact ⟨instance_method, exceptions, params, returns, body_of_libraryOf? runs⟩

/-! ### Passing texts -/

/-- Checks that texts, positions and truth values can be passed. -/
def isPassing (s : Realm) : Bool :=
  typedChecks s Host.objectName .object && typedChecks s "int" .int &&
    typedChecks s "boolean" .boolean &&
    s.isAssignable (s.require Host.stringName) (s.require Host.objectName) &&
    ((s.methods (s.require Host.objectName)).find? fun m =>
      m.name == "equals" && m.params == [Host.objectName]).any fun m => !m.isStatic &&
        libraryOf? (s.resolveVirtual (s.require Host.stringName) m) == some .stringEquals

theorem Passing.of_isPassing (stocked : Stocked s) (h : isPassing s = true) : Passing s := by
  simp only [isPassing, Bool.and_eq_true] at h
  obtain ⟨⟨⟨⟨object, int⟩, boolean⟩, string⟩, equals⟩ := h
  refine ⟨stocked, .of_checks (fun _ => rfl) object, .of_checks (fun _ => rfl) int,
    .of_checks (fun _ => rfl) boolean, string, ?_⟩
  obtain ⟨m, found, checked⟩ := (Option.any_eq_true _ _).mp equals
  rw [Bool.and_eq_true, Bool.not_eq_true', beq_iff_eq] at checked
  exact ⟨m, found, checked.1, body_of_libraryOf? checked.2⟩

/-! ### Containers -/

/-- The entry of the protocol that drives objects of a class. -/
def entryOf? (s : Realm) (name : String) : Option ProtocolEntry :=
  (entriesIn? s Protocol.all).bind
    (·.find? fun e => s.isAssignable (s.require name) e.interface)

def containerChecks (s : Realm) (name : String) (calls : List Call) (own : Call)
    (protocol : Protocol) : Bool :=
  s.registry.get? name == some (s.require name) &&
    ((entryOf? s name).any fun entry => entry.protocol == protocol && calls.all fun call =>
      (entry.methods.find? (·.name == call.name)).any (drivesChecks s (s.require name) call)) &&
    (((membersOf s (s.require name) false).methods.get? own.name).any fun overloads =>
      overloads.length == 1 && overloads.all (drivesChecks s (s.require name) own)) &&
    ((membersOf s (s.require name) false).fields.get? own.name).isNone

theorem ContainerOf.of_checks (h : containerChecks s name calls own protocol = true) :
    ∃ entry, ContainerOf s name calls own entry ∧ entry.protocol = protocol := by
  simp only [containerChecks, Bool.and_eq_true, beq_iff_eq, Option.isNone_iff_eq_none] at h
  obtain ⟨⟨⟨known, offers⟩, member⟩, unshadowed⟩ := h
  obtain ⟨entry, chosen, checked⟩ := (Option.any_eq_true _ _).mp offers
  rw [Bool.and_eq_true, beq_iff_eq] at checked
  obtain ⟨overloads, listed, sole⟩ := (Option.any_eq_true _ _).mp member
  rw [Bool.and_eq_true, beq_iff_eq] at sole
  obtain ⟨m, rfl⟩ := List.length_eq_one_iff.mp sole.1
  refine ⟨entry, ⟨known, Option.bind_eq_some_iff.mp chosen, fun call mem => ?_, ⟨m, listed, ?_⟩,
    unshadowed⟩, checked.1⟩
  · obtain ⟨m, found, drives⟩ :=
      (Option.any_eq_true _ _).mp (List.all_eq_true.mp checked.2 call mem)
    exact ⟨m, found, .of_checks drives⟩
  · exact .of_checks (List.all_eq_true.mp sole.2 m List.mem_cons_self)

/-- What a container of a protocol holds at first. -/
def Protocol.empty : Protocol → Payload
  | .map => .map []
  | _ => .list []

/-- Checks that a constructor leaves an object empty. -/
def empties (protocol : Protocol) (k : Method) : Bool :=
  k.params == [] &&
    match k.body with
    | .inr .emptyList => protocol == .list
    | .inr .emptyMap => protocol == .map
    | _ => false

def makesChecks (s : Realm) (name : String) (protocol : Protocol) : Bool :=
  s.registry.get? name == some (s.require name) &&
    (s.classOf (s.require name)).kind == .concrete &&
    (s.constructors (s.require name)).length == 1 &&
    (s.constructors (s.require name)).all (empties protocol)

theorem fills_of_empties {k : Method} (h : empties protocol k = true) :
    k.params = [] ∧ ∃ construction, k.body = .inr construction ∧
      ∀ (bodies : Bodies World) c, construction.run bodies c [] = pure protocol.empty := by
  rw [empties, Bool.and_eq_true, beq_iff_eq] at h
  refine ⟨h.1, ?_⟩
  have fills := h.2
  split at fills
  · rename_i body
    rw [beq_iff_eq.mp fills]
    exact ⟨.emptyList, body, fun _ _ => rfl⟩
  · rename_i body
    rw [beq_iff_eq.mp fills]
    exact ⟨.emptyMap, body, fun _ _ => rfl⟩
  · cases fills

theorem Makes.of_checks (h : makesChecks s name protocol = true) :
    Makes s name protocol.empty := by
  simp only [makesChecks, Bool.and_eq_true, beq_iff_eq] at h
  obtain ⟨⟨⟨known, concrete⟩, one⟩, all⟩ := h
  obtain ⟨k, only⟩ := List.length_eq_one_iff.mp one
  rw [only] at all
  obtain ⟨arity, construction, body, fills⟩ :=
    fills_of_empties (List.all_eq_true.mp all k List.mem_cons_self)
  exact ⟨known, concrete, ⟨k, construction, only, arity, body, fills⟩, by cases protocol <;> rfl⟩

/-! ### The class library -/

/-- What a Host has whose lists and maps scripts can make and drive. -/
structure Outfitted (s : Realm) : Prop where
  passing : Passing s
  lists : ∃ entry, ContainerOf s arrayListName listCalls listOwn entry ∧ entry.protocol = .list
  maps : ∃ entry, ContainerOf s hashMapName mapCalls mapOwn entry ∧ entry.protocol = .map
  makesLists : Makes s arrayListName (.list [])
  makesMaps : Makes s hashMapName (.map [])

def isOutfitted (s : Realm) : Bool :=
  isPassing s && containerChecks s arrayListName listCalls listOwn .list &&
    containerChecks s hashMapName mapCalls mapOwn .map && makesChecks s arrayListName .list &&
    makesChecks s hashMapName .map

theorem Outfitted.of_isOutfitted (stocked : Stocked s) (h : isOutfitted s = true) :
    Outfitted s := by
  simp only [isOutfitted, Bool.and_eq_true] at h
  obtain ⟨⟨⟨⟨passing, lists⟩, maps⟩, makesLists⟩, makesMaps⟩ := h
  exact ⟨.of_isPassing stocked passing, ContainerOf.of_checks lists, ContainerOf.of_checks maps,
    Makes.of_checks makesLists, Makes.of_checks makesMaps⟩

theorem standard_outfitted : Outfitted Realm.standard :=
  .of_isOutfitted standard_stocked (by decide +kernel)

end ScriptBridge.Bridge
