import ScriptBridge.Proofs.Boundary.Slots

/-!
# Opening and closing leaves the slots alone

Opening a context makes an interpreter without an error, closing one clears its error. Either way
what was running before is running after, and no code of the Host is run.
-/

namespace ScriptBridge.Boundary

open Host (ObjectId Realm GlobalRef Body)
open Bridge (World State ContextId)
open Script (InterpreterId RuntimeId)
open Context (Operation)

/-- A change that leaves the slots alone. -/
structure Harmless (allowed : Body → Prop) (w w' : World) : Prop where
  settled : ∀ current, Settled allowed current w → Settled allowed current w'
  silent : SilentBut none w → SilentBut none w'
  pending : w.outside.realm.pending = none → w'.outside.realm.pending = none
  onward : course.onward w w'

variable {allowed : Body → Prop} {w w' w'' : World} {ε α β : Type}

namespace Harmless

theorem refl (w : World) : Harmless allowed w w := ⟨fun _ h => h, id, id, course.same rfl⟩

theorem trans (h : Harmless allowed w w') (h' : Harmless allowed w' w'') : Harmless allowed w w'' :=
  ⟨fun current hw => h'.settled current (h.settled current hw), h'.silent ∘ h.silent,
    h'.pending ∘ h.pending, course.trans h.onward h'.onward⟩

theorem of_background (changed : Background allowed w w') : Harmless allowed w w' :=
  ⟨fun _ h => h.of_background changed, fun h => h.of_background changed,
    pending_of_background changed, course.same changed.charted⟩

/-- A change of the Host that brings no new code. -/
theorem onRealm {r : Realm} (classes : r.classes = w.outside.realm.classes)
    (pending : r.pending = w.outside.realm.pending) :
    Harmless allowed w ⟨w.memory, { w.outside with realm := r }⟩ := by
  refine ⟨fun current h => h.onRealm fun c m hm => ?_, id, fun h => pending.trans h, course.same rfl⟩
  rw [Realm.classOf, classes] at hm
  exact h.permitted.realm c m hm

/-- A change of the contexts that leaves their interpreters alone and registers none. -/
theorem onContexts {contexts : Array Bridge.Context} {links : List (Nat × ContextId)}
    {registry : List ContextId}
    (same : contexts.toList.map (·.state) = w.outside.contexts.toList.map (·.state))
    (fewer : ∀ c ∈ registry, c ∈ w.outside.registry) :
    Harmless allowed w ⟨w.memory, { w.outside with contexts, links, registry }⟩ := by
  have size : contexts.size = w.outside.contexts.size := by
    simpa using congrArg List.length same
  refine ⟨fun current h => ⟨h.current, h.runtime, fun c hc => ?_,
    { h.permitted with realm := h.permitted.realm }⟩, id, id, rfl, ?_⟩
  · show c.number - 1 < contexts.size
    rw [size]
    exact h.registered c (fewer c hc)
  · rw [states_eq, states_eq]
    show _ <+: contexts.toList.map (·.state)
    simp only [same, List.prefix_refl]

/-- A change of a runtime that leaves its current interpreter alone. -/
theorem onRuntime {f : Script.Runtime → Script.Runtime} (current : ∀ r, (f r).current = r.current)
    (rt : RuntimeId) :
    Harmless allowed w (w.onMemory fun m => { m with runtimes := m.runtimes.modify rt.place f }) := by
  refine ⟨fun now h => ⟨?_, ?_, h.registered, h.permitted⟩, id, id, course.same rfl⟩
  · rw [← h.current]
    simp only [World.current, Script.World.onMemory, Script.Memory.runtime, Array.getElem?_modify]
    split
    · cases w.memory.runtimes[w.outside.runtime.place]? with
      | none => rfl
      | some r => exact current r
    · rfl
  · simpa [Script.World.onMemory] using h.runtime

/-- A new interpreter has no error. -/
theorem addInterpreter {i : Script.Interpreter} (silent : i.error = none) :
    Harmless allowed w (w.onMemory fun m => { m with interpreters := m.interpreters.push i }) := by
  refine ⟨fun now h => ⟨h.current, h.runtime, h.registered, h.permitted⟩, fun h other hother => ?_,
    id, course.same rfl⟩
  have old := h other hother
  simp only [Script.World.onMemory, Script.Memory.interpreter, Array.getElem?_push]
  split
  · exact silent
  · exact old

/-- An error is taken away. -/
theorem clearError (ts : InterpreterId) : Harmless allowed w (w.withError ts fun _ => none) := by
  refine ⟨fun _ h => h.withError ts _, fun h => ?_, id, course.same rfl⟩
  exact SilentBut.cleared fun other _ => h other (by simp)

end Harmless

/-! ### Steps -/

/-- The step leaves the slots alone, whether it fails or not. -/
def Steady (allowed : Body → Prop) (m : EStateM ε World α) : Prop :=
  ∀ w, Harmless allowed w (World.after (m w))

namespace Steady

variable {m : EStateM ε World α} {next : α → EStateM ε World β}

theorem mild (h : Mild allowed m) : Steady allowed m := by
  intro w
  have changed := h w
  cases hm : m w with
  | ok a w' =>
    rw [hm] at changed
    exact .of_background changed
  | error e w' =>
    rw [hm] at changed
    exact .of_background changed

theorem quiet (h : Quiet allowed m) : Steady allowed m := .mild (.of_quiet h)

theorem bind (h : Steady allowed m) (h' : ∀ a, Steady allowed (next a)) : Steady allowed (m >>= next) := by
  intro w
  have first := h w
  cases hm : m w with
  | ok a w' =>
    rw [bind_ok hm]
    rw [hm] at first
    exact first.trans (h' a w')
  | error e w' =>
    rw [bind_error hm]
    rwa [hm] at first

/-- What follows on a quiet step sees the same contexts. -/
theorem bind_quiet (h : Quiet allowed m)
    (h' : ∀ a w', Background allowed w w' → Harmless allowed w' (World.after (next a w'))) :
    Harmless allowed w (World.after ((m >>= next) w)) := by
  obtain ⟨a, w', hm, changed⟩ := h w
  rw [bind_ok hm]
  exact (Harmless.of_background changed).trans (h' a w' changed)

/-- What follows on a look at the state sees that state. -/
theorem bind_state {next : State → EStateM ε World β}
    (h : Harmless allowed w (World.after (next w.outside w))) :
    Harmless allowed w (World.after ((Bridge.getState >>= next) w)) := h

theorem attempt {ε' : Type} (h : Steady allowed m) :
    Steady allowed (Script.attempt m : EStateM ε' World (Except ε α)) := by
  intro w
  have tried := h w
  simp only [Script.attempt]
  cases hm : m w with
  | ok a w' => rwa [hm] at tried
  | error e w' => rwa [hm] at tried

theorem entering {step : Operation α} (h : Steady allowed step) (ts : InterpreterId) :
    Steady allowed (Context.entering ts step) := by
  intro w
  cases busy : w.current.filter (· != ts) with
  | some other =>
    obtain ⟨f, refused⟩ := entering_busy (α := α) busy
    rw [refused]
    exact .refl w
  | none =>
    have inside := h (w.withCurrent (some ts))
    have ended : World.after (Context.entering ts step w) =
        (World.after (step (w.withCurrent (some ts)))).withCurrent w.current := by
      rw [entering_free busy]
      cases step (w.withCurrent (some ts)) with
      | ok a w' => rfl
      | error f w' => rfl
    rw [ended]
    refine ⟨fun current hw => ?_, inside.silent, inside.pending, ?_⟩
    · rw [hw.current]
      exact (inside.settled _ (hw.withCurrent _)).withCurrent current
    · exact course.trans (course.trans (course.same rfl) inside.onward) (course.same rfl)

/-- What held between operations holds after the step. -/
theorem between (h : Steady Clean m) (clear : Bool) (current : Option InterpreterId) :
    Agree course (regime.between clear current) m m (fun _ => regime.between clear current)
      fun _ => regime.between clear current := by
  intro w hw
  have changed := h w
  have kept : regime.between clear current (World.after (m w)) := by
    cases clear with
    | true =>
      exact ⟨changed.settled _ hw.1, changed.silent hw.2.1, changed.pending hw.2.2⟩
    | false => exact ⟨changed.settled _ hw.1, changed.silent hw.2⟩
  refine ⟨fun _ => rfl, changed.onward, ?_⟩
  cases hm : m w with
  | ok a w' => rwa [hm] at kept
  | error e w' => rwa [hm] at kept

theorem serves {m : Operation α} (h : Steady Clean m) : regime.Serves m m := fun clear current =>
  Agree.weaken (h.between clear current) (fun _ hw => hw) (fun _ _ hw => hw)
    fun _ _ hw => ⟨hw, trivial⟩

theorem keeps (h : Steady Clean m) {err : ε → World → Prop} {current : Option InterpreterId}
    (failed : ∀ e w, (discipline current).calm w → err e w) :
    (discipline current).Keeps err m m fun _ => True :=
  Agree.weaken (h.between true current) (fun _ hw => hw) (fun _ _ hw => ⟨trivial, hw⟩) failed

end Steady

/-! ### The life of contexts -/

theorem modifyRuntime_steady {f : Script.Runtime → Script.Runtime}
    (current : ∀ r, (f r).current = r.current) (rt : RuntimeId) :
    Steady allowed (Script.modifyRuntime rt f : EStateM ε World Unit) :=
  fun _ => .onRuntime current rt

theorem deleteGlobalRef_steady (g : GlobalRef) :
    Steady allowed (Host.onRealm (Realm.deleteGlobalRef g) : EStateM ε World Unit) := by
  intro w
  obtain ⟨pending, -, classes, -⟩ := deleted_realm g w.outside.realm
  exact .onRealm classes pending

theorem modifyContext_steady {f : Bridge.Context → Bridge.Context}
    (state : ∀ x, (f x).state = x.state) (c : ContextId) :
    Steady allowed (Bridge.modifyContext c f : EStateM ε World Unit) := by
  intro w
  refine .onContexts ?_ fun _ hc => hc
  simpa using congrArg Array.toList (map_modify state w.outside.contexts (c.number - 1))

theorem newInterpreter_steady (rt : RuntimeId) :
    Steady allowed (Script.newInterpreter rt : EStateM ε World InterpreterId) := by
  refine .bind (.quiet (.bind .getMemory fun _ => .pure _)) fun r => ?_
  refine .bind (.quiet (.newModule _ _)) fun builtins => .bind (.quiet (.bindAll _ _)) fun _ => ?_
  refine .bind (.quiet (.newModule _ _)) fun main => .bind (.quiet (.bindName _ _ _)) fun _ => ?_
  refine .bind (.quiet .getMemory) fun m => .bind (fun w => .addInterpreter rfl) fun _ => ?_
  refine .bind (modifyRuntime_steady ?_ rt) fun _ => .quiet (.pure _)
  exact fun _ => rfl

theorem endInterpreter_steady (ts : InterpreterId) :
    Steady allowed (Script.endInterpreter ts : EStateM ε World Unit) := by
  refine .bind (.quiet (.getInterpreter ts)) fun i => .bind (.quiet (.modifyInterpreter ?_ ts)) ?_
  · exact fun _ => rfl
  refine fun _ => .bind (.quiet (.clearAll _)) fun _ => .bind (.quiet (.clearAll _)) fun _ => ?_
  refine .bind (fun w => .clearError ts) fun _ => modifyRuntime_steady ?_ _
  exact fun _ => rfl

theorem dissolve_steady (c : ContextId) (context : Bridge.Context) :
    Steady allowed (Context.dissolve c context : EStateM ε World Unit) := by
  refine .bind (modifyContext_steady ?_ c) fun _ => ?_
  · exact fun _ => rfl
  refine .bind (.quiet (.releaseValues _)) fun _ => .bind (.quiet (.getInterpreter _)) fun i => ?_
  refine .bind (fun w => .onContexts rfl fun _ hc => hc) fun _ => ?_
  have rest : Steady allowed ((do
      Script.endInterpreter context.state
      Bridge.reclaim false) : EStateM ε World Unit) :=
    .bind (endInterpreter_steady _) fun _ => .quiet (.reclaim false)
  cases context.loaderRef with
  | some g => exact .bind (deleteGlobalRef_steady g) fun _ => rest
  | none => exact rest

theorem teardown_steady (c : ContextId) :
    Steady allowed (Context.teardown c : EStateM ε World Unit) := by
  refine .bind (.quiet (.getContext c)) fun context => ?_
  by_cases open' : (!context.closed) = true
  · rw [if_pos open']
    exact dissolve_steady c context
  · rw [if_neg open']
    exact .quiet (.pure ())

theorem close_steady (c : ContextId) : Steady allowed (Context.close c) := by
  refine .bind (.mild ((Prepares.lookup c).mild _)) fun context =>
    .entering (.bind ?_ fun _ => teardown_steady c) _
  exact fun w => .onContexts rfl fun _ hc => (List.mem_filter.1 hc).1

theorem closeEach_steady (drained : List ContextId) :
    Steady allowed (Context.closeEach drained : EStateM ε World Unit) := by
  induction drained with
  | nil => exact .quiet (.pure ())
  | cons c rest ih =>
    refine .bind (.quiet (.getContext c)) fun context => ?_
    refine .bind (.attempt (.entering (teardown_steady c) _)) fun outcome => ?_
    cases outcome with
    | ok => exact .bind (.quiet (.pure ())) fun _ => ih
    | error => exact .bind (.quiet (.letGo context)) fun _ => ih

theorem closeAll_steady : Steady allowed (Context.closeAll : EStateM ε World Unit) := by
  refine .bind (.quiet .getState) fun s => .bind ?_ fun _ => closeEach_steady _
  exact fun w => .onContexts rfl fun _ hc => nomatch hc

theorem keepLoader_steady (c : ContextId) (loader : ObjectId) :
    Steady allowed (Context.keepLoader c loader : EStateM ε World Unit) := by
  refine .bind (.quiet (.newGlobalRef _)) fun fresh => .bind (.quiet (.getContext c)) ?_
  intro context
  have kept : Steady allowed ((Bridge.modifyContext c fun context =>
      { context with loaderRef := some fresh, link := { context.link with loader } }) :
      EStateM ε World Unit) := by
    refine modifyContext_steady ?_ c
    exact fun _ => rfl
  cases context.loaderRef with
  | some old => exact .bind (deleteGlobalRef_steady old) fun _ => kept
  | none => exact .bind (.quiet (.pure ())) fun _ => kept

/-- A new context is registered under a number that it has. -/
theorem addContext_harmless {s : State} (context : Bridge.Context) (number : Nat)
    (same : s.contexts.size = w.outside.contexts.size) :
    Harmless allowed w ⟨w.memory, { w.outside with
      contexts := w.outside.contexts.push context
      links := (number, ⟨s.contexts.size + 1⟩) :: w.outside.links.filter (·.1 != number)
      registry := w.outside.registry ++ [⟨s.contexts.size + 1⟩] }⟩ := by
  refine ⟨fun current h => ⟨h.current, h.runtime, fun c hc => ?_,
    { h.permitted with realm := h.permitted.realm }⟩, id, id, rfl, ?_⟩
  · show c.number - 1 < (w.outside.contexts.push context).size
    rw [Array.size_push]
    rcases List.mem_append.1 hc with old | new
    · exact Nat.lt_succ_of_lt (h.registered c old)
    · rw [List.mem_singleton.1 new]
      simp [same]
  · rw [states_eq, states_eq]
    simp

theorem openOver_steady (loader : ObjectId) :
    Steady allowed (Context.openOver loader : EStateM ε World ContextId) := by
  refine .bind (.quiet .getState) fun s => .bind (newInterpreter_steady _) fun state v => ?_
  refine Steady.bind_state ?_
  refine Steady.bind_quiet (.newBridgeModule _) fun module v₁ h₁ => ?_
  refine Steady.bind_quiet (.addModule _ _) fun _ v₂ h₂ => ?_
  refine Steady.bind_quiet .installImport fun _ v₃ h₃ => ?_
  refine Steady.bind_quiet (.newGlobalRef _) fun g v₄ h₄ => ?_
  refine Steady.bind_quiet (.getInterpreter _) fun i v₅ h₅ => ?_
  have charted := (h₁.trans (h₂.trans (h₃.trans (h₄.trans h₅)))).charted
  have same : v.outside.contexts.size = v₅.outside.contexts.size := by
    simpa [State.charted, State.tracked] using congrArg (fun x => x.1.size) charted.symm
  exact addContext_harmless
    { state, link := ⟨v₅.outside.printStack, module, loader⟩, loaderRef := some g } i.number same

theorem create_steady (loader : Option ObjectId) : Steady allowed (Context.create loader) := by
  refine .bind (.mild ((Prepares.checkLoader loader).mild _)) fun loader =>
    .bind (.quiet .getState) fun s => ?_
  refine .bind (.quiet (.bind .getMemory fun _ => .pure _)) fun rt => ?_
  by_cases finalized : rt.finalized
  · rw [if_pos finalized]
    exact .bind (.mild (.throw _)) fun (_ : PUnit) => openOver_steady loader
  · rw [if_neg finalized]
    exact openOver_steady loader

theorem lifecycle : regime.Lifecycle where
  create loader := (create_steady loader).serves
  close c := (close_steady c).serves
  keepLoader current _ c loader :=
    Agree.weaken ((keepLoader_steady c loader).between true current) (fun _ hw => hw.1)
      (fun _ _ hw => hw) fun _ _ hw => (discipline current).raised_of_calm hw

end ScriptBridge.Boundary
