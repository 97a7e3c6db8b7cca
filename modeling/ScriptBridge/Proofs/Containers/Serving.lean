import ScriptBridge.Bridge.Engine
import ScriptBridge.Proofs.Causality.Calls
import ScriptBridge.Proofs.Conversions.Boxing

/-!
# Protocols of the library

While a script drives a container, strings come into being, tokens are resolved and the protocols
are looked up once. None of this changes what the library says about its protocols, so a container
is driven by the same methods every time.
-/

namespace ScriptBridge.Host.Realm.Includes

variable {r v : Realm} {c d : ClassId}

/-- A class keeps its fields. -/
theorem fields (h : r.Includes v) (hc : r.Has c) : v.fields c = r.fields c := by
  unfold Realm.fields
  rw [h.ancestry hc]
  congr 1
  exact List.flatMap_congr fun a ha => by rw [h.classes a (Realm.ancestry_has hc a ha)]

/-- What objects of a class that is no array class can stand for. -/
theorem isAssignable (h : r.Includes v) (coherent : r.Coherent) (hc : r.Has c) (hd : r.Has d)
    (plain : (r.classOf c).component? = none) : v.isAssignable c d = r.isAssignable c d := by
  rw [Realm.isAssignable, Realm.isAssignable]
  simp only [h.classes c hc, h.classes d hd, plain, Realm.nameOf, h.ancestry hc,
    h.interfacesOf coherent hc]

end ScriptBridge.Host.Realm.Includes

namespace ScriptBridge.Bridge

open Host (ClassId ObjectId Realm Method HostM onRealm)
open Script (InterpreterId)

variable {ε α β : Type} {s r : Realm} {w v u : World} {c : ClassId} {ts : InterpreterId}

/-! ### What the library says -/

/-- The methods of a class with these names and parameters. -/
def methodsIn? (r : Realm) (c : ClassId) : List (String × List String) → Option (List Method)
  | [] => some []
  | (name, params) :: rest => do
    let method ← (r.methods c).find? fun m => m.name == name && m.params == params
    let methods ← methodsIn? r c rest
    return method :: methods

/-- The entry of a protocol that is found in a Host. -/
def entryIn? (s : Realm) (p : Protocol) : Option ProtocolEntry := do
  let interface ← s.registry.get? p.interfaceName
  let methods ← methodsIn? s interface p.methodNames
  return ⟨p, interface, methods⟩

/-- The entries of protocols that are found in a Host. -/
def entriesIn? (s : Realm) : List Protocol → Option (List ProtocolEntry)
  | [] => some []
  | p :: rest => do
    let entry ← entryIn? s p
    let entries ← entriesIn? s rest
    return entry :: entries

theorem has_of_entries (coherent : s.Coherent) {wanted : List Protocol}
    {entries : List ProtocolEntry} (found : entriesIn? s wanted = some entries) :
    ∀ entry ∈ entries, s.Has entry.interface := by
  induction wanted generalizing entries with
  | nil =>
    cases found
    exact nofun
  | cons p rest ih =>
    simp only [entriesIn?, entryIn?, Option.bind_eq_bind, Option.bind_eq_some_iff, Option.pure_def,
      Option.some.injEq] at found
    obtain ⟨_, ⟨interface, known, _, _, rfl⟩, later, others, rfl⟩ := found
    intro entry mem
    rcases List.mem_cons.mp mem with rfl | mem
    · exact coherent.registered _ _ known
    · exact ih others entry mem

/-! ### Later states -/

/-- The library is intact, and the protocols are remembered as it has them. -/
structure World.Equipped (s : Realm) (w : World) : Prop extends World.Intact s w where
  protocols : ∀ entries, w.outside.protocols = some entries →
    entriesIn? s Protocol.all = some entries

/-- A later state in which what there was is still what it was. -/
structure Serves (s : Realm) (w v : World) : Prop extends Along s w v where
  made : v.memory.interpreters.size = w.memory.interpreters.size
  protocols : ∀ entries, v.outside.protocols = some entries →
    entriesIn? s Protocol.all = some entries

namespace Serves

theorem equipped (h : Serves s w v) : v.Equipped s := ⟨h.intact, h.protocols⟩

theorem refl (equipped : w.Equipped s) : Serves s w w :=
  ⟨.refl equipped.toIntact, rfl, equipped.protocols⟩

theorem trans (h : Serves s w v) (h' : Serves s v u) : Serves s w u :=
  ⟨h.toAlong.trans h'.toAlong, h'.made.trans h.made, h'.protocols⟩

theorem of_descends (equipped : w.Equipped s) (h : Descends w v)
    (protocols : v.outside.protocols = w.outside.protocols) : Serves s w v :=
  ⟨.of_descends equipped.toIntact h, h.made,
    fun entries known => equipped.protocols entries (protocols ▸ known)⟩

theorem of_grows (equipped : w.Equipped s) (h : w.outside.realm.Grows r) :
    Serves s w (w.onRealm r) :=
  of_descends equipped (.of_grows equipped.formed h) rfl

/-- A view may be added of an object that exists. -/
theorem showing (equipped : w.Equipped s) (proxy : Proxy)
    (sound : ∀ o, proxy.view.object? = some o →
      w.outside.realm.Holds o ∧ w.outside.realm.Has (w.outside.realm.classIdOf o)) :
    Serves s w (w.showing proxy) :=
  ⟨.showing equipped.toIntact proxy sound, rfl, equipped.protocols⟩

/-- An error may become pending, or cease to be. -/
theorem withError (equipped : w.Equipped s) (ts : InterpreterId) (e : Option Script.Exception) :
    Serves s w (w.withError ts fun _ => e) := by
  have formed := equipped.formed
  refine ⟨⟨.refl _, fun _ _ => .refl _, Nat.le_refl _, ?_⟩, ?_, equipped.protocols⟩
  · exact ⟨⟨formed.coherent, formed.statics, formed.tokens, formed.views⟩, equipped.classes,
      equipped.names, equipped.tokens, equipped.boxing, equipped.accessors⟩
  · simp [World.withError, Script.World.onMemory, Script.Memory.onInterpreter]

/-- A view of an object shows it as long as scripts can reach it. -/
theorem viewAt (h : Serves s w v) {place : Nat} {o : ObjectId}
    (made : place < w.outside.proxies.size) (view : w.viewAt place = .object o) :
    v.viewAt place = .object o := by
  have kept := h.views place made
  rw [view] at kept
  exact kept

end Serves

/-! ### Steps that leave the protocols alone -/

/-- The state after a step. -/
def afterwards : EStateM.Result ε World α → World
  | .ok _ v | .error _ v => v

/-- The step does not touch what is remembered about protocols. -/
def Leaves (step : EStateM ε World α) : Prop :=
  ∀ w, (afterwards (step w)).outside.protocols = w.outside.protocols

namespace Leaves

theorem pure (a : α) : Leaves (Pure.pure a : EStateM ε World α) := fun _ => rfl

theorem throw (e : ε) : Leaves (MonadExceptOf.throw e : EStateM ε World α) := fun _ => rfl

theorem bind {step : EStateM ε World α} {next : α → EStateM ε World β} (h : Leaves step)
    (h' : ∀ a, Leaves (next a)) : Leaves (step >>= next) := by
  intro w
  have first := h w
  simp only [Bind.bind, EStateM.bind]
  cases ran : step w with
  | error e v =>
    rw [ran] at first
    exact first
  | ok a v =>
    rw [ran] at first
    exact (h' a v).trans first

theorem ite {c : Prop} [Decidable c] {step other : EStateM ε World α} (h : Leaves step)
    (h' : Leaves other) : Leaves (if c then step else other) := by
  split
  · exact h
  · exact h'

theorem getRealm : Leaves (Host.getRealm : EStateM ε World Realm) := fun _ => rfl

theorem getTypes : Leaves (Bridge.getTypes : EStateM ε World TypeCache) := fun _ => rfl

theorem modifyTypes (f : TypeCache → TypeCache) :
    Leaves (Bridge.modifyTypes f : EStateM ε World Unit) := fun _ => rfl

theorem onRealm (step : StateM Realm α) : Leaves (Host.onRealm step : EStateM ε World α) :=
  fun _ => rfl

theorem attempt {step : EStateM ε World α} (h : Leaves step) {ε' : Type} :
    Leaves (Script.attempt step : EStateM ε' World (Except ε α)) := by
  intro w
  have first := h w
  unfold Script.attempt
  cases ran : step w <;> (rw [ran] at first; exact first)

theorem publishedPrimitive (c : ClassId) :
    Leaves (Bridge.publishedPrimitive c : EStateM ε World _) := by
  intro w
  rw [publishedPrimitive_eq]
  rfl

theorem load (name : TokenName) : Leaves (name.load : EStateM ε World _) := by
  refine .bind (.onRealm _) fun found => ?_
  cases found with
  | none => exact .bind (.onRealm _) fun _ => .pure _
  | some c =>
    refine .bind (.onRealm _) fun mirror => .bind (.onRealm _) fun first => .ite ?_ (.pure _)
    refine .bind (.publishedPrimitive c) fun published => ?_
    cases published with
    | error reason => exact .pure _
    | ok found => exact .bind (.onRealm _) fun _ => .pure _

theorem resolve (name : TokenName) : Leaves (Bridge.resolve name : EStateM Unavailable World _) := by
  refine .bind .getTypes fun types => ?_
  cases types.lookup name with
  | some slot =>
    refine .bind (.pure slot) fun slot => ?_
    cases slot with
    | error reason => exact .throw _
    | ok token => exact .pure token
  | none =>
    refine .bind (.load name) fun slot => .bind (.modifyTypes _) fun _ =>
      .bind (.pure slot) fun slot => ?_
    cases slot with
    | error reason => exact .throw _
    | ok token => exact .pure token

theorem identify (c : ClassId) (names : List TokenName) :
    Leaves (Bridge.identify c names : EStateM Unavailable World _) := by
  induction names with
  | nil => exact .pure _
  | cons name rest ih => exact .bind (.resolve name) fun _ => .ite (.pure _) ih

theorem classify (c : ClassId) : Leaves (Bridge.classify c : EStateM Unavailable World _) := by
  refine .bind (.identify c _) fun found => ?_
  cases found with
  | some name => exact .pure _
  | none =>
    refine .bind .getRealm fun r => .ite (.pure _) (.bind (.resolve .type) fun type => ?_)
    exact .bind .getRealm fun r => .ite (.pure _) (.bind (.resolve .object) fun _ => .pure _)

theorem kindOf (ts : InterpreterId) (c : ClassId) : Leaves (Bridge.kindOf ts c) := by
  refine .bind (.attempt (.classify c)) fun found => ?_
  cases found with
  | ok kind => exact .pure kind
  | error unavailable => exact .bind (fun _ => rfl) fun _ => .throw _

end Leaves

/-- A class is classified as the kind that its shape has. -/
theorem kindOf_serves (equipped : w.Equipped s) (has : w.outside.realm.Has c) {kind : Kind}
    (kinds : w.kindAt (w.outside.realm.shape c) = .ok kind) (ts : InterpreterId) :
    ∃ v, kindOf ts c w = .ok kind v ∧ Serves s w v := by
  obtain ⟨v, later, classified⟩ := kindOf_eq equipped.formed has kinds ts
  refine ⟨v, classified, .of_descends equipped later ?_⟩
  have left := Leaves.kindOf ts c w
  rwa [classified] at left

end ScriptBridge.Bridge
