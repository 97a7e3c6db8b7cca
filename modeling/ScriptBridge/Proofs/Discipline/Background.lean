import ScriptBridge.Context.Machine
import ScriptBridge.Proofs.Typing.Growth

/-!
# Background changes

Most of what a step does to the world matters only to the script or the Host that asked for it:
namespaces, objects, views, counters, what was written. A change of the world is a background
change if it leaves alone what the bridge answers for: which interpreters there are and what is
pending in them, the runtimes, and the contexts with their registry and links. It may take and
drop references of views, but never one that keeps a class loader, and it brings no new code into
the Host.

While an error is on its way out even less happens: no name is bound and no context changes.
-/

namespace ScriptBridge

open Host (ClassId ObjectId Realm GlobalRef Body)
open Bridge (World State)
open Script (InterpreterId Memory Interpreter)

/-! ### Code of the Host -/

namespace Host

variable (allowed : Body → Prop)

/-- What the method runs is allowed. -/
def Method.Permitted (m : Method) : Prop := ∀ body, m.body = .inl body → allowed body

/-- What every method of the realm runs is allowed. -/
def Realm.Permitted (r : Realm) : Prop := ∀ c, ∀ m ∈ (r.classOf c).methods, m.Permitted allowed

/-- A realm with more in it: nothing is pending, kept or runnable that was not. -/
structure Realm.Extends (r r' : Realm) : Prop where
  pending : r'.pending = r.pending
  globals : r'.globals = r.globals
  created : r'.created = r.created
  methods : ∀ c, ∀ m ∈ (r'.classOf c).methods, ∃ d, m ∈ (r.classOf d).methods

namespace Realm.Extends

theorem refl (r : Realm) : r.Extends r := ⟨rfl, rfl, rfl, fun c _ hm => ⟨c, hm⟩⟩

theorem trans {r r' r'' : Realm} (h : r.Extends r') (h' : r'.Extends r'') : r.Extends r'' := by
  refine ⟨h'.pending.trans h.pending, h'.globals.trans h.globals, h'.created.trans h.created, ?_⟩
  intro c m hm
  obtain ⟨d, hd⟩ := h'.methods c m hm
  exact h.methods d m hd

theorem of_classes {r r' : Realm} (classes : r'.classes = r.classes) (pending : r'.pending = r.pending)
    (globals : r'.globals = r.globals) (created : r'.created = r.created) : r.Extends r' := by
  refine ⟨pending, globals, created, fun c m hm => ⟨c, ?_⟩⟩
  rwa [Realm.classOf, classes] at hm

theorem permitted {allowed : Body → Prop} {r r' : Realm} (h : r.Extends r')
    (hr : r.Permitted allowed) : r'.Permitted allowed := by
  intro c m hm
  obtain ⟨d, hd⟩ := h.methods c m hm
  exact hr d m hd

end Realm.Extends

/-- A step on the realm only extends it. -/
def Extending {α : Type} (step : StateM Realm α) : Prop := ∀ r : Realm, r.Extends (step r).2

namespace Extending

variable {α β : Type}

theorem pure (a : α) : Extending (Pure.pure a : StateM Realm α) := fun r => .refl r

theorem bind {step : StateM Realm α} {next : α → StateM Realm β} (h : Extending step)
    (h' : ∀ a, Extending (next a)) : Extending (step >>= next) := fun r =>
  (h r).trans (h' _ _)

theorem get : Extending (MonadState.get : StateM Realm Realm) := fun r => .refl r

theorem modifying {f : Realm → Realm} (h : ∀ r : Realm, r.Extends (f r)) :
    Extending (modify f : StateM Realm PUnit) := h

theorem allocate (c : ClassId) (payload : Payload) : Extending (Realm.allocate c payload) :=
  fun _ => .of_classes rfl rfl rfl rfl

theorem setPayload (o : ObjectId) (payload : Payload) : Extending (Realm.setPayload o payload) :=
  fun _ => .of_classes rfl rfl rfl rfl

theorem setStatic (field : FieldId) (value : Value) : Extending (Realm.setStatic field value) :=
  fun _ => .of_classes rfl rfl rfl rfl

theorem describe : Extending Realm.describe := by
  intro r
  simp only [Realm.describe, Bind.bind, StateT.bind, MonadState.get, getThe, MonadStateOf.get,
    StateT.get, Pure.pure]
  cases pending : r.pending with
  | none => exact .refl r
  | some throwable => exact .of_classes rfl pending.symm rfl rfl

theorem mirror (c : ClassId) : Extending (Realm.mirror c) := by
  refine .bind .get fun r => ?_
  split
  · exact .pure _
  · exact .bind (allocate _ _) fun o =>
      .bind (.modifying fun r => .of_classes rfl rfl rfl rfl) fun _ => .pure _

/-- A class without methods brings nothing to run. -/
theorem allocateClass {cls : Class} (h : cls.methods = []) : Extending (Realm.allocateClass cls) := by
  intro r
  refine ⟨rfl, rfl, rfl, fun c m hm => ?_⟩
  simp only [Realm.allocateClass, Realm.classOf, Array.getElem?_push] at hm
  split at hm
  · simp [h] at hm
  · exact ⟨c, hm⟩

theorem arrayClass (component : ClassId) : Extending (Realm.arrayClass component) := by
  refine .bind .get fun r => ?_
  split
  · exact .pure _
  · exact .bind (allocateClass rfl) fun c =>
      .bind (.modifying fun r => .of_classes rfl rfl rfl rfl) fun _ => .pure _

theorem lookupReversed? (name : List Char) : Extending (Realm.lookupReversed? name) := by
  induction name using Realm.lookupReversed?.induct with
  | case1 rest ih =>
    unfold Realm.lookupReversed?
    refine .bind ih fun found => ?_
    cases found with
    | none => exact .pure _
    | some component => exact .bind (arrayClass component) fun _ => .pure _
  | case2 name h =>
    unfold Realm.lookupReversed?
    split
    · exact absurd rfl (h _)
    · exact .bind .get fun _ => .pure _

theorem lookupClass? (name : String) : Extending (Realm.lookupClass? name) := lookupReversed? _

theorem newText (text : String) : Extending (Realm.newText text) :=
  .bind .get fun _ => allocate _ _

theorem newArray (component : ClassId) (items : List Value) :
    Extending (Realm.newArray component items) :=
  .bind (arrayClass component) fun _ => allocate _ _

theorem newBoxed? (value : Value) : Extending (Realm.newBoxed? value) := by
  unfold Realm.newBoxed?
  split
  · exact .bind .get fun _ => .bind (allocate _ _) fun _ => .pure _
  · exact .pure _

theorem newThrowable (name : String) (message : Option String) (cause : Option ObjectId) :
    Extending (Realm.newThrowable name message cause) :=
  .bind (lookupClass? name) fun _ => .bind .get fun _ => allocate _ _

theorem newLoader (packages : Option (List String)) : Extending (Realm.newLoader packages) :=
  .bind .get fun _ => allocate _ _

end Extending
end Host

/-! ### Durable references -/

/-- The numbers of the references that views, tokens and looked-up members keep. -/
def Bridge.State.viewRefs (s : State) : List Nat :=
  s.proxies.toList.filterMap (fun p => p.held.map (·.number)) ++
    s.conversionRefs.map (·.number) ++
    s.types.flatMap fun (_, slot) =>
      match slot with
      | .ok token => token.held.map (·.number)
      | .error _ => []

/-- The references by which contexts keep their class loaders. -/
def Bridge.State.loaderRefs (s : State) : List GlobalRef :=
  s.contexts.toList.filterMap (·.loaderRef)

/-- Every reference of a context is kept by the Host and is nobody else's. -/
structure Bridge.State.Apart (s : State) : Prop where
  kept : ∀ g ∈ s.loaderRefs, g ∈ s.realm.globals
  distinct : (s.loaderRefs.map (·.number)).Nodup
  others : ∀ g ∈ s.loaderRefs, g.number ∉ s.viewRefs
  loaders : ∀ g ∈ s.loaderRefs, g.number ≤ s.realm.created
  views : ∀ n ∈ s.viewRefs, n ≤ s.realm.created

/-! ### Background changes -/

variable (allowed : Body → Prop)

/-- What the methods run that the Host has or that the bridge remembers is allowed. -/
structure Bridge.State.Permitted (s : State) : Prop where
  realm : s.realm.Permitted allowed
  accessors : ∀ table ∈ s.accessors, ∀ entry ∈ table, entry.2.Permitted allowed
  loadClass : ∀ m ∈ s.loadClass, m.Permitted allowed
  protocols : ∀ entries ∈ s.protocols, ∀ entry ∈ entries, ∀ m ∈ entry.methods, m.Permitted allowed
  listings : ∀ entry ∈ s.listings, entry.2.Permitted allowed
  overloads : ∀ p ∈ s.proxies, ∀ name target methods, p.view = .method name target methods →
    ∀ m ∈ methods, m.Permitted allowed

/-- What the bridge answers for. -/
structure Tracked where
  runtimes : Array Script.Runtime
  interpreters : Array (Nat × Script.RuntimeId × Option Script.Exception)
  contexts : Array (InterpreterId × Option GlobalRef × Bool)
  registry : List Bridge.ContextId
  links : List (Nat × Bridge.ContextId)
  runtime : Script.RuntimeId

def Script.Memory.tracked (m : Memory) : Array (Nat × Script.RuntimeId × Option Script.Exception) :=
  m.interpreters.map fun i => (i.number, i.runtime, i.error)

def Bridge.State.tracked (s : State) : Array (InterpreterId × Option GlobalRef × Bool) :=
  s.contexts.map fun c => (c.state, c.loaderRef, c.closed)

def Bridge.tracked (w : World) : Tracked where
  runtimes := w.memory.runtimes
  interpreters := w.memory.tracked
  contexts := w.outside.tracked
  registry := w.outside.registry
  links := w.outside.links
  runtime := w.outside.runtime

/-- The contexts, which of them are registered, and the runtime that they belong to. -/
def Bridge.State.charted (s : State) :
    Array (InterpreterId × Option GlobalRef × Bool) × List Bridge.ContextId × Script.RuntimeId :=
  (s.tracked, s.registry, s.runtime)

/-- A change that leaves alone what the bridge answers for. -/
structure Background (w w' : World) : Prop where
  tracked : Bridge.tracked w' = Bridge.tracked w
  pending : w'.outside.realm.pending = none ∨
    w'.outside.realm.pending = w.outside.realm.pending
  apart : w.outside.Apart → w'.outside.Apart
  permitted : w.outside.Permitted allowed → w'.outside.Permitted allowed

namespace Background

variable {allowed} {w w' w'' : World}

theorem refl (w : World) : Background allowed w w := ⟨rfl, .inr rfl, id, id⟩

theorem charted (h : Background allowed w w') : w'.outside.charted = w.outside.charted := by
  have same := h.tracked
  simp only [Bridge.tracked, Tracked.mk.injEq] at same
  simp only [State.charted, same]

theorem trans (h : Background allowed w w') (h' : Background allowed w' w'') :
    Background allowed w w'' := by
  refine ⟨h'.tracked.trans h.tracked, ?_, h'.apart ∘ h.apart, h'.permitted ∘ h.permitted⟩
  rcases h'.pending with none_left | same
  · exact .inl none_left
  · rw [same]
    exact h.pending

/-- A change of the script side that leaves interpreters and runtimes alone. -/
theorem of_memory {m : Memory} (runtimes : m.runtimes = w.memory.runtimes)
    (interpreters : m.tracked = w.memory.tracked) : Background allowed w ⟨m, w.outside⟩ := by
  refine ⟨?_, .inr rfl, id, id⟩
  simp only [Bridge.tracked, runtimes, interpreters]

theorem loaderRefs_eq (s : State) :
    s.loaderRefs = s.tracked.toList.filterMap (·.2.1) := by
  simp [State.loaderRefs, State.tracked, List.filterMap_map, Function.comp_def]

theorem loaderRefs (h : Background allowed w w') :
    w'.outside.loaderRefs = w.outside.loaderRefs := by
  have contexts : w'.outside.tracked = w.outside.tracked := congrArg Tracked.contexts h.tracked
  rw [loaderRefs_eq, loaderRefs_eq, contexts]

/-- A change outside the script side that may take new references for views. -/
theorem of_outside {s : State} (contexts : s.tracked = w.outside.tracked)
    (registry : s.registry = w.outside.registry) (links : s.links = w.outside.links)
    (runtime : s.runtime = w.outside.runtime)
    (pending : s.realm.pending = none ∨ s.realm.pending = w.outside.realm.pending)
    (globals : ∀ g ∈ w.outside.realm.globals, g ∈ s.realm.globals)
    (created : w.outside.realm.created ≤ s.realm.created)
    (fresh : ∀ n ∈ s.viewRefs,
      n ∈ w.outside.viewRefs ∨ w.outside.realm.created < n ∧ n ≤ s.realm.created)
    (permitted : w.outside.Permitted allowed → s.Permitted allowed) :
    Background allowed w ⟨w.memory, s⟩ := by
  refine ⟨?_, pending, fun apart => ?_, permitted⟩
  · simp only [Bridge.tracked, contexts, registry, links, runtime]
  have loaders : s.loaderRefs = w.outside.loaderRefs := by
    rw [loaderRefs_eq, loaderRefs_eq, contexts]
  refine ⟨?_, ?_, ?_, ?_, ?_⟩
  · intro g hg
    exact globals g (apart.kept g (loaders ▸ hg))
  · rw [loaders]
    exact apart.distinct
  · intro g hg hn
    rw [loaders] at hg
    rcases fresh _ hn with old | new
    · exact apart.others g hg old
    · have := apart.loaders g hg
      omega
  · intro g hg
    exact Nat.le_trans (apart.loaders g (loaders ▸ hg)) created
  · intro n hn
    rcases fresh n hn with old | new
    · exact Nat.le_trans (apart.views n old) created
    · exact new.2

/-- A change of the Host that only extends it. -/
theorem of_extends {r : Realm} (h : w.outside.realm.Extends r) :
    Background allowed w ⟨w.memory, { w.outside with realm := r }⟩ := by
  refine of_outside rfl rfl rfl rfl (.inr h.pending) ?_ (Nat.le_of_eq h.created.symm) ?_ ?_
  · intro g hg
    rwa [h.globals]
  · exact fun n hn => .inl hn
  · exact fun p => { p with realm := h.permitted p.realm }

end Background

/-! ### While an error is on its way -/

namespace Bridge

/-- A later state in which names, interpreters, links and contexts are what they were. -/
structure Aftermath (w v : World) : Prop where
  realm : w.outside.realm.Grows v.outside.realm
  namespaces : v.memory.namespaces = w.memory.namespaces
  interpreters : v.memory.interpreters.size = w.memory.interpreters.size
  numbers : ∀ ts, (v.memory.interpreter ts).number = (w.memory.interpreter ts).number
  links : v.outside.links = w.outside.links
  contexts : v.outside.contexts = w.outside.contexts
  mapped : v.outside.mapped = w.outside.mapped

namespace Aftermath

variable {w v u : World}

theorem refl (w : World) : Aftermath w w :=
  ⟨.refl _, rfl, rfl, fun _ => rfl, rfl, rfl, rfl⟩

theorem trans (h : Aftermath w v) (h' : Aftermath v u) : Aftermath w u where
  realm := h.realm.trans h'.realm
  namespaces := h'.namespaces.trans h.namespaces
  interpreters := h'.interpreters.trans h.interpreters
  numbers ts := (h'.numbers ts).trans (h.numbers ts)
  links := h'.links.trans h.links
  contexts := h'.contexts.trans h.contexts
  mapped := h'.mapped.trans h.mapped

/-- A change of the script side that leaves names and interpreters alone. -/
theorem of_memory {m : Memory} (namespaces : m.namespaces = w.memory.namespaces)
    (interpreters : m.interpreters = w.memory.interpreters) : Aftermath w ⟨m, w.outside⟩ :=
  ⟨.refl _, namespaces, congrArg Array.size interpreters,
    fun ts => by simp only [Memory.interpreter, interpreters], rfl, rfl, rfl⟩

end Aftermath
end Bridge
end ScriptBridge
