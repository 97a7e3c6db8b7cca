import Mathlib.Data.List.Find
import ScriptBridge.Proofs.Containers.Calls

/-!
# How a container is driven

The first protocol whose interface a class implements drives its objects, and the methods of the
interface run what the class itself declares. A method that no protocol offers is called through
the attribute of its name.
-/

namespace ScriptBridge.Bridge

open Host (ClassId ObjectId Realm Method HostM BodyM Bodies LibraryMethod)
open Script (InterpreterId Foreign)

variable {ε : Type} {s : Realm} {w v : World} {o : ObjectId} {name : String}
  {entry : ProtocolEntry} {calls : List Call} {own : Call} (ts : InterpreterId)

/-! ### Finding protocols -/

theorem findMethods_run (coherent : s.Coherent) (equipped : w.Equipped s) {c : ClassId}
    (has : s.Has c) {wanted : List (String × List String)} {methods : List Method}
    (found : methodsIn? s c wanted = some methods) : findMethods c wanted w = .ok methods w := by
  induction wanted generalizing methods with
  | nil =>
    cases found
    rfl
  | cons signature rest ih =>
    obtain ⟨name, params⟩ := signature
    simp only [methodsIn?, Option.bind_eq_bind, Option.bind_eq_some_iff, Option.pure_def,
      Option.some.injEq] at found
    obtain ⟨m, first, later, others, rfl⟩ := found
    have got : (Host.getMethod c name params : HostM World Method) w = .ok m w := by
      unfold Host.getMethod
      rw [bind_ok (getRealm_run w), equipped.methods coherent has]
      exact findMember_run first
    unfold findMethods
    rw [bind_ok got, bind_ok (ih others)]
    rfl

theorem interfaceName_plain (p : Protocol) : PlainName p.interfaceName := by
  cases p <;> exact fun r => rfl

/-- By induction on the protocols, which are all in the library. -/
theorem findProtocols_run (coherent : s.Coherent) (equipped : w.Equipped s) {wanted : List Protocol}
    {entries : List ProtocolEntry} (found : entriesIn? s wanted = some entries) :
    (findProtocols wanted : EStateM ε World _) w = .ok entries w := by
  induction wanted generalizing entries with
  | nil =>
    cases found
    rfl
  | cons p rest ih =>
    simp only [entriesIn?, entryIn?, Option.bind_eq_bind, Option.bind_eq_some_iff, Option.pure_def,
      Option.some.injEq] at found
    obtain ⟨_, ⟨interface, known, methods, listed, rfl⟩, later, others, rfl⟩ := found
    have has := coherent.registered _ _ known
    have sought : findProtocol p w = .ok ⟨p, interface, methods⟩ w := by
      unfold findProtocol
      rw [bind_ok (findClass_plain equipped.toIntact (interfaceName_plain p) known),
        bind_ok (findMethods_run coherent equipped has listed)]
      rfl
    have quiet : (quietly (findProtocol p) : EStateM ε World _) w =
        .ok (some ⟨p, interface, methods⟩) w := bind_ok (attempt_ok sought)
    unfold findProtocols
    rw [bind_ok quiet, bind_ok (ih others)]
    rfl

/-- The protocols are those of the library, whether they were looked up before or not. -/
theorem protocols_run (coherent : s.Coherent) (equipped : w.Equipped s)
    {entries : List ProtocolEntry} (found : entriesIn? s Protocol.all = some entries) :
    ∃ v, (protocols : EStateM ε World _) w = .ok entries v ∧ Serves s w v := by
  have state : (getState : EStateM ε World State) w = .ok w.outside w := rfl
  unfold protocols
  rw [bind_ok state]
  cases remembered : w.outside.protocols with
  | some known =>
    have same := equipped.protocols known remembered
    rw [found] at same
    cases same
    exact ⟨w, rfl, .refl equipped⟩
  | none =>
    dsimp only
    rw [bind_ok (findProtocols_run coherent equipped found)]
    have formed := equipped.formed
    refine ⟨⟨w.memory, { w.outside with protocols := some entries }⟩, rfl,
      ⟨.refl _, fun _ _ => .refl _, Nat.le_refl _, ?_⟩, rfl, ?_⟩
    · exact ⟨⟨formed.coherent, formed.statics, formed.tokens, formed.views⟩, equipped.classes,
        equipped.names, equipped.tokens, equipped.boxing, equipped.accessors⟩
    · rintro _ ⟨⟩
      exact found

/-! ### Containers of the library -/

/-- Objects of a class are driven by the methods of a protocol, and by a method of their own. -/
structure ContainerOf (s : Realm) (name : String) (calls : List Call) (own : Call)
    (entry : ProtocolEntry) : Prop where
  known : s.registry.get? name = some (s.require name)
  chosen : ∃ entries, entriesIn? s Protocol.all = some entries ∧
    entries.find? (fun e => s.isAssignable (s.require name) e.interface) = some entry
  offers : ∀ call ∈ calls, ∃ m, entry.methods.find? (·.name == call.name) = some m ∧
    Drives s (s.require name) call m
  member : ∃ m, (membersOf s (s.require name) false).methods.get? own.name = some [m] ∧
    Drives s (s.require name) own m
  unshadowed : (membersOf s (s.require name) false).fields.get? own.name = none

theorem protocolOf?_run (passing : Passing s) (equipped : w.Equipped s)
    (container : ContainerOf s name calls own entry)
    (belongs : Belongs s w.outside.realm (s.require name) o) :
    ∃ v, (protocolOf? o : EStateM ε World _) w = .ok (some entry) v ∧ Serves s w v := by
  obtain ⟨entries, found, first⟩ := container.chosen
  have coherent := passing.stocked.coherent
  obtain ⟨v, listed, later⟩ := protocols_run (ε := ε) coherent equipped found
  refine ⟨v, ?_, later⟩
  have ofClass := (belongs.grows later.realm).ofClass
  have same : entries.find? (fun e => v.outside.realm.isAssignable (v.outside.realm.classIdOf o)
      e.interface) = some entry := by
    rw [← first, ofClass]
    refine List.find?_congr fun e mem => ?_
    exact later.intact.classes.isAssignable coherent belongs.has
      (has_of_entries coherent found e mem) (passing.stocked.plain _ belongs.has)
  unfold protocolOf?
  rw [bind_ok listed, bind_ok (getRealm_run v), same]
  rfl

/-- What a protocol does with an object is done through the entry of its class. -/
theorem withProtocol_run {α : Type} (passing : Passing s) (equipped : w.Equipped s)
    (container : ContainerOf s name calls own entry)
    (belongs : Belongs s w.outside.realm (s.require name) o) :
    ∃ v, Serves s w v ∧ ∀ use : ProtocolEntry → BridgeM (Option α),
      withProtocol o use w = use entry v := by
  obtain ⟨v, found, later⟩ := protocolOf?_run (ε := Script.Raised) passing equipped container belongs
  exact ⟨v, later, fun use => bind_ok found⟩

/-- A call of a protocol calls a method that runs what the call says. -/
theorem ContainerOf.call (container : ContainerOf s name calls own entry) {call : Call}
    (mem : call ∈ calls) : ∃ m, Drives s (s.require name) call m ∧
      ∀ bodies args, entry.call bodies ts o call.name args =
        (do return some (← invoke bodies ts (some o) m args)) := by
  obtain ⟨m, found, drives⟩ := container.offers call mem
  refine ⟨m, drives, fun bodies args => ?_⟩
  unfold ProtocolEntry.call
  rw [found]

/-- A method of the container's own is the attribute of its name. -/
theorem getAttr_own (passing : Passing s) (equipped : w.Equipped s)
    (container : ContainerOf s name calls own entry)
    (belongs : Belongs s w.outside.realm (s.require name) o) {f : Foreign}
    (view : w.viewAt f.place = .object o) (uncommon : ∀ className members,
      commonAttr? className members own.name = none) :
    ∃ m g v, Drives s (s.require name) own m ∧ Serves s w v ∧
      v.viewAt g.place = .method own.name (some o) [m] ∧
      ∀ bodies, getAttr bodies ts f own.name w = .ok (.foreign g) v := by
  obtain ⟨m, listed, drives⟩ := container.member
  have coherent := passing.stocked.coherent
  have members : membersOf w.outside.realm (s.require name) false =
      membersOf s (s.require name) false := by
    rw [membersOf, membersOf, equipped.methods coherent belongs.has,
      equipped.classes.fields belongs.has]
  have shown : (getProxy f.place : BridgeM Proxy) w =
      .ok ((w.outside.proxies[f.place]?).getD default) w := rfl
  refine ⟨m, ⟨.method, w.outside.proxies.size⟩,
    w.showing ⟨.method own.name (some o) [m], none⟩, drives, ?_, ?_, fun bodies => ?_⟩
  · refine .showing equipped _ ?_
    rintro _ ⟨⟩
  · exact World.viewAt_showing_new _ _
  · have offered : memberAttr? bodies ts (w.outside.realm.nameOf (s.require name))
        (membersOf w.outside.realm (s.require name) false) (some o) own.name w =
        .ok (some (.foreign ⟨.method, w.outside.proxies.size⟩))
          (w.showing ⟨.method own.name (some o) [m], none⟩) := by
      unfold memberAttr?
      rw [uncommon, members, container.unshadowed, listed]
      rfl
    unfold getAttr
    rw [bind_ok shown, ← World.viewAt, view]
    dsimp only
    unfold getObjectAttr
    rw [bind_ok (getRealm_run w), belongs.ofClass, bind_ok offered]
    rfl

/-- The method is called on the object that it was taken from. -/
theorem call_own {m : Method} {g : Foreign} (view : w.viewAt g.place = .method name (some o) [m])
    (bodies : Bodies World) (args : List Script.Value) :
    Bridge.call bodies ts g args w = invoke bodies ts (some o) m args w := by
  have shown : (getProxy g.place : BridgeM Proxy) w =
      .ok ((w.outside.proxies[g.place]?).getD default) w := rfl
  unfold Bridge.call
  rw [bind_ok shown, ← World.viewAt, view]
  dsimp only
  unfold callOverloads
  simp only [selectOverload, pure_bind, Option.isNone_some, Bool.and_false, Bool.false_eq_true,
    if_false]

end ScriptBridge.Bridge
