import ScriptBridge.Proofs.Containers.Protocols
import ScriptBridge.Proofs.Imports.Entry

/-!
# A container in a script's hands

A script holds a view of a container. What the container holds may be replaced, which touches
nothing else in the Host. What a script sees of an operation is its value, or the type of the error
that it raises; the error is then taken away.
-/

namespace ScriptBridge.Bridge

open Host (ClassId ObjectId Realm Method HostM BodyM Bodies LibraryMethod Payload onRealm)
open Script (InterpreterId Foreign ErrorType Exception)

variable {ε α β : Type} {s r : Realm} {w v u : World} {o : ObjectId} {name : String}
  {ts : InterpreterId} {f : Foreign} {payload : Payload}

/-! ### Containers -/

/-- The script of an interpreter holds a view of an object of a class of the library. -/
structure World.Holding (s : Realm) (name : String) (ts : InterpreterId) (f : Foreign)
    (o : ObjectId) (w : World) : Prop extends World.Equipped s w where
  made : ts.place < w.memory.interpreters.size
  shown : f.place < w.outside.proxies.size
  view : w.viewAt f.place = .object o
  belongs : Belongs s w.outside.realm (s.require name) o

theorem World.Holding.serves (h : w.Holding s name ts f o) (later : Serves s w v) :
    v.Holding s name ts f o :=
  ⟨later.equipped, later.made ▸ h.made, Nat.lt_of_lt_of_le h.shown later.shown,
    later.viewAt h.shown h.view, h.belongs.grows later.realm⟩

/-! ### Replacing what a container holds -/

/-- What lists and maps hold. -/
def Items : Payload → Bool
  | .list _ | .map _ => true
  | _ => false

theorem rewritten_items {payload' : Payload} (items : Items payload = true)
    (h : payload.Rewritten payload') : payload' = payload := by
  cases payload with
  | list _ => exact h
  | map _ => exact h
  | _ => cases items

/-- The state in which an object holds something else. -/
def World.storing (w : World) (o : ObjectId) (payload : Payload) : World :=
  w.onRealm (Realm.setPayload o payload w.outside.realm).2

section

variable (before : Items (w.outside.realm.payload o) = true) (after : Items payload = true)

include before after

/-- A container is no class object, and does not become one. -/
theorem mirrored?_storing {q : ObjectId} (held : w.outside.realm.Holds q) :
    (w.storing o payload).outside.realm.mirrored? q = w.outside.realm.mirrored? q := by
  show (Realm.setPayload o payload w.outside.realm).2.mirrored? q = _
  by_cases self : q = o
  · subst self
    rw [Realm.mirrored?, Realm.mirrored?, Realm.payload,
      Realm.object_setPayload_self payload held]
    revert before after
    cases payload <;> cases w.outside.realm.payload q <;> simp [Items]
  · rw [Realm.mirrored?, Realm.mirrored?, Realm.payload,
      Realm.object_setPayload_other payload self, Realm.payload]

theorem published_storing (formed : w.Formed) {c : ClassId} (has : w.outside.realm.Has c) :
    published (w.storing o payload).outside.realm c = published w.outside.realm c := by
  have includes : w.outside.realm.Includes (w.storing o payload).outside.realm :=
    ⟨fun _ has => has, fun _ _ => rfl⟩
  have fields := includes.fields has
  have statics : (w.storing o payload).outside.realm.staticValue = w.outside.realm.staticValue := rfl
  have names : (w.storing o payload).outside.realm.nameOf c = w.outside.realm.nameOf c := rfl
  unfold published
  rw [fields, statics, names]
  cases (w.outside.realm.fields c).find? fun f => f.isStatic && f.name == "TYPE" with
  | none => rfl
  | some field =>
    dsimp only
    cases value : w.outside.realm.staticValue field.id with
    | ref q =>
      simp only [Host.Value.ref?, Option.bind_some,
        mirrored?_storing before after (formed.statics field.id q value).1]
    | _ => rfl

theorem tokenOf_storing (formed : w.Formed) (name : TokenName) :
    (w.storing o payload).tokenOf name = w.tokenOf name := by
  have found : name.found (w.storing o payload).outside.realm = name.found w.outside.realm := by
    have registry : (w.storing o payload).outside.realm.registry = w.outside.realm.registry := rfl
    unfold TokenName.found
    rw [registry]
    cases known : w.outside.realm.registry.get? name.className with
    | none => rfl
    | some c =>
      dsimp only
      rw [published_storing before after formed (formed.coherent.registered _ c known)]
  unfold World.tokenOf
  rw [found]
  rfl

theorem World.Equipped.storing (equipped : w.Equipped s) : (w.storing o payload).Equipped s := by
  have formed := equipped.formed
  have coherent := formed.coherent
  refine ⟨⟨⟨?_, fun field q value => ?_, formed.tokens, fun place q shows => ?_⟩, ?_,
    equipped.names, fun name => ?_, equipped.boxing, equipped.accessors⟩, equipped.protocols⟩
  · exact ⟨coherent.registered, coherent.interfaces, coherent.component, coherent.array,
      coherent.named⟩
  · obtain ⟨held, describes⟩ := formed.statics field q value
    rw [mirrored?_storing before after held]
    exact ⟨(Realm.holds_setPayload payload).mpr held, describes⟩
  · obtain ⟨held, has⟩ := formed.views place q shows
    refine ⟨(Realm.holds_setPayload payload).mpr held, ?_⟩
    show Realm.Has _ ((Realm.setPayload o payload w.outside.realm).2.classIdOf q)
    rw [Realm.classIdOf_setPayload payload held]
    exact has
  · exact ⟨equipped.classes.kept, equipped.classes.classes⟩
  · rw [tokenOf_storing before after formed, equipped.tokens]

theorem World.Holding.storing (h : w.Holding s name ts f o) :
    (w.storing o payload).Holding s name ts f o :=
  ⟨h.toEquipped.storing before after, h.made, h.shown, h.view, h.belongs.has,
    (Realm.holds_setPayload payload).mpr h.belongs.held,
    (Realm.classIdOf_setPayload payload h.belongs.held).trans h.belongs.ofClass⟩

end

theorem World.Holding.payload_storing (h : w.Holding s name ts f o) :
    (w.storing o payload).outside.realm.payload o = payload := by
  show ((Realm.setPayload o payload w.outside.realm).2.object o).payload = payload
  rw [Realm.object_setPayload_self payload h.belongs.held]

/-- Texts are stored in strings, which stay as they are when a container is written to. -/
theorem Stores.storing {item : Option String} {x : Host.Value}
    (h : Stores s w.outside.realm item x) (before : Items (w.outside.realm.payload o) = true) :
    Stores s (w.storing o payload).outside.realm item x := by
  cases h with
  | nothing => exact .nothing
  | @text q text held ofClass holds =>
    have other : q ≠ o := by
      rintro rfl
      rw [holds] at before
      cases before
    refine .text ((Realm.holds_setPayload payload).mpr held)
      ((Realm.classIdOf_setPayload payload held).trans ofClass) ?_
    show ((Realm.setPayload o payload w.outside.realm).2.object q).payload = _
    rw [Realm.object_setPayload_other payload other]
    exact holds

/-- A method that works on a part of what an object holds is given that part. -/
theorem contents_run {read : Payload → Option α} {a : α}
    (holds : read (w.outside.realm.payload o) = some a) :
    (Host.contents read (some o) : BodyM World (ObjectId × α)) w = .ok (o, a) w := by
  have received : (Host.receiver (some o) : BodyM World _) w = .ok o w := rfl
  have realm : (Host.getRealm : BodyM World Realm) w = .ok w.outside.realm w := rfl
  unfold Host.contents
  rw [bind_ok received, bind_ok realm, holds]
  rfl

/-! ### What a script sees -/

/-- The value of a step, or the type of the error that it raises, which is taken away. -/
def observe (ts : InterpreterId) (step : BridgeM Script.Value) :
    BridgeM (Except ErrorType Script.Value) := do
  match ← Script.attempt step with
  | .ok value => return .ok value
  | .error _ =>
    match ← Script.takeError ts with
    | some e => return .error e.type
    | none => Script.giveUp

/-- A script sees the answer of a step, which leads to a state. -/
def Gives (ts : InterpreterId) (step : BridgeM α) (w : World) (answer : Except ErrorType α)
    (v : World) : Prop :=
  match answer with
  | .ok a => step w = .ok a v
  | .error type => ∃ (u : World) (e : Exception),
      step w = .error {} (u.withError ts fun _ => some e) ∧ e.type = type ∧
      ts.place < u.memory.interpreters.size ∧ v = u.withError ts fun _ => none

namespace Gives

variable {step : BridgeM α} {next : α → BridgeM β} {answer : Except ErrorType α}
  {answer' : Except ErrorType β} {a : α}

theorem raise (made : ts.place < w.memory.interpreters.size) (e : Exception) :
    Gives ts (Script.raiseException ts e : BridgeM α) w (.error e.type)
      (w.withError ts fun _ => none) :=
  ⟨w, e, rfl, rfl, made, rfl⟩

theorem of_eq {step' : BridgeM α} (same : step w = step' u) (h : Gives ts step' u answer v) :
    Gives ts step w answer v := by
  unfold Gives at h ⊢
  rwa [same]

/-- What comes first succeeds. -/
theorem after (ran : step w = .ok a u) (h : Gives ts (next a) u answer' v) :
    Gives ts (step >>= next) w answer' v := by
  cases answer' with
  | ok b => exact (bind_ok ran).trans h
  | error type =>
    obtain ⟨x, e, raised, rest⟩ := h
    exact ⟨x, e, (bind_ok ran).trans raised, rest⟩

/-- What comes last only passes the answer on. -/
theorem before {γ : Type} {given : α → β} {shown : α → γ} {step : BridgeM β}
    {next : β → BridgeM γ} (h : Gives ts step w (answer.map given) v)
    (ran : ∀ a, next (given a) v = .ok (shown a) v) :
    Gives ts (step >>= next) w (answer.map shown) v := by
  cases answer with
  | ok a => exact (bind_ok h).trans (ran a)
  | error type =>
    obtain ⟨x, e, raised, rest⟩ := h
    exact ⟨x, e, bind_error raised, rest⟩

/-- An error is passed on. -/
theorem fails {type : ErrorType} (h : Gives ts step w (.error type) v) :
    Gives ts (step >>= next) w (.error type) v := by
  obtain ⟨x, e, raised, rest⟩ := h
  exact ⟨x, e, bind_error raised, rest⟩

end Gives

/-- What is seen of a step is its answer. -/
theorem observe_run {step : BridgeM Script.Value} {answer : Except ErrorType Script.Value}
    (h : Gives ts step w answer v) : observe ts step w = .ok answer v := by
  cases answer with
  | ok value => exact bind_ok (attempt_ok h)
  | error type =>
    obtain ⟨u, e, raised, rfl, made, rfl⟩ := h
    have pending : ((u.withError ts fun _ => some e).memory.interpreter ts).error = some e := by
      rw [withError_interpreter made, if_pos rfl]
    have read : (Script.getInterpreter ts : BridgeM Script.Interpreter)
        (u.withError ts fun _ => some e) = .ok ((u.withError ts fun _ => some e).memory.interpreter ts)
          (u.withError ts fun _ => some e) := rfl
    have taken : (Script.takeError ts : BridgeM (Option Exception))
        (u.withError ts fun _ => some e) = .ok (some e) (u.withError ts fun _ => none) := by
      unfold Script.takeError
      rw [bind_ok read, pending]
      exact bind_ok clearError_run
    exact (bind_ok (attempt_error raised)).trans (bind_ok taken)

end ScriptBridge.Bridge
