import ScriptBridge.Proofs.Discipline.Background

/-!
# Quiet steps

A quiet step always succeeds and makes a background change. The steps on namespaces, tables and
views are of this kind, and so is letting go of views: a copy of an array that cannot be stored
leaves no throwable behind.
-/

namespace ScriptBridge

open Host (ClassId ObjectId Realm GlobalRef Body onRealm getRealm)
open Bridge (World State getState modifyState)
open Script (InterpreterId ModuleRef Memory Interpreter modifyMemory getMemory)

variable {allowed : Body → Prop} {ε α β : Type}

/-- The step succeeds and changes the background only. -/
def Quiet (allowed : Body → Prop) (step : EStateM ε World α) : Prop :=
  ∀ w, ∃ a w', step w = .ok a w' ∧ Background allowed w w'

namespace Quiet

theorem pure (a : α) : Quiet allowed (Pure.pure a : EStateM ε World α) :=
  fun w => ⟨a, w, rfl, .refl w⟩

theorem bind {step : EStateM ε World α} {next : α → EStateM ε World β} (h : Quiet allowed step)
    (h' : ∀ a, Quiet allowed (next a)) : Quiet allowed (step >>= next) := by
  intro w
  obtain ⟨a, w', ha, first⟩ := h w
  obtain ⟨b, w'', hb, second⟩ := h' a w'
  refine ⟨b, w'', ?_, first.trans second⟩
  simp only [Bind.bind, EStateM.bind, ha, hb]

theorem get : Quiet allowed (MonadState.get : EStateM ε World World) :=
  fun w => ⟨w, w, rfl, .refl w⟩

theorem of_modify {f : World → World} (h : ∀ w, Background allowed w (f w)) :
    Quiet allowed (modify f : EStateM ε World PUnit) :=
  fun w => ⟨⟨⟩, f w, rfl, h w⟩

theorem getMemory : Quiet allowed (Script.getMemory : EStateM ε World Memory) :=
  .bind .get fun _ => .pure _

theorem getState : Quiet allowed (Bridge.getState : EStateM ε World State) :=
  .bind .get fun _ => .pure _

theorem getRealm : Quiet allowed (Host.getRealm : EStateM ε World Realm) :=
  .bind .get fun _ => .pure _

theorem modifyMemory {f : Memory → Memory} (runtimes : ∀ m, (f m).runtimes = m.runtimes)
    (interpreters : ∀ m, (f m).tracked = m.tracked) :
    Quiet allowed (Script.modifyMemory f : EStateM ε World Unit) :=
  .of_modify fun _ => .of_memory (runtimes _) (interpreters _)

/-- A change of the script side outside interpreters and runtimes. -/
theorem elsewhere {f : Memory → Memory} (runtimes : ∀ m, (f m).runtimes = m.runtimes)
    (interpreters : ∀ m, (f m).interpreters = m.interpreters) :
    Quiet allowed (Script.modifyMemory f : EStateM ε World Unit) :=
  .modifyMemory runtimes fun m => by rw [Memory.tracked, interpreters, Memory.tracked]

theorem onRealm {step : StateM Realm α} (h : Host.Extending step) :
    Quiet allowed (Host.onRealm step : EStateM ε World α) :=
  fun w => ⟨_, _, rfl, .of_extends (h w.outside.realm)⟩

/-! ### Namespaces -/

theorem printText (text : String) : Quiet allowed (Script.printText text : EStateM ε World Unit) :=
  .elsewhere (fun _ => rfl) fun _ => rfl

theorem reportLine (line : String) :
    Quiet allowed (Script.reportLine line : EStateM ε World Unit) :=
  .elsewhere (fun _ => rfl) fun _ => rfl

theorem newModule (name : String) (origin : Script.Origin) :
    Quiet allowed (Script.newModule name origin : EStateM ε World ModuleRef) :=
  .bind .getMemory fun _ => .bind (.elsewhere (fun _ => rfl) fun _ => rfl) fun _ => .pure _

theorem lookup? (module : ModuleRef) (name : String) :
    Quiet allowed (Script.lookup? module name : EStateM ε World (Option Script.Value)) :=
  .bind .getMemory fun _ => .pure _

end Quiet

theorem release_same (value : Option Script.Value) (m : Memory) :
    (m.release value).runtimes = m.runtimes ∧ (m.release value).interpreters = m.interpreters := by
  unfold Memory.release
  split
  · split <;> exact ⟨rfl, rfl⟩
  · exact ⟨rfl, rfl⟩

theorem releaseAll_same (values : List Script.Value) (m : Memory) :
    (values.foldl (fun m v => m.release (some v)) m).runtimes = m.runtimes ∧
      (values.foldl (fun m v => m.release (some v)) m).interpreters = m.interpreters := by
  induction values generalizing m with
  | nil => exact ⟨rfl, rfl⟩
  | cons value rest ih =>
    obtain ⟨runtimes, interpreters⟩ := ih (m.release (some value))
    obtain ⟨runtimes', interpreters'⟩ := release_same (some value) m
    exact ⟨runtimes.trans runtimes', interpreters.trans interpreters'⟩

namespace Quiet

theorem release (value : Option Script.Value) :
    Quiet allowed (Script.modifyMemory (·.release value) : EStateM ε World Unit) :=
  .elsewhere (fun m => (release_same value m).1) fun m => (release_same value m).2

theorem bindName (module : ModuleRef) (name : String) (value : Script.Value) :
    Quiet allowed (Script.bindName module name value : EStateM ε World Unit) :=
  .elsewhere (fun m => (release_same _ m).1) fun m => (release_same _ m).2

theorem clearModule (module : ModuleRef) :
    Quiet allowed (Script.clearModule module : EStateM ε World Unit) :=
  .elsewhere (fun m => (releaseAll_same _ m).1) fun m => (releaseAll_same _ m).2

theorem clearAll (modules : List ModuleRef) :
    Quiet allowed (Script.clearAll modules : EStateM ε World Unit) := by
  induction modules with
  | nil => exact .pure ()
  | cons module rest ih => exact .bind (.clearModule module) fun _ => ih

theorem bindAll (module : ModuleRef) (entries : List (String × Script.Value)) :
    Quiet allowed (Script.bindAll module entries : EStateM ε World Unit) := by
  induction entries with
  | nil => exact .pure ()
  | cons entry rest ih => exact .bind (.bindName _ _ _) fun _ => ih

theorem publicEntries (module : ModuleRef) :
    Quiet allowed
      (Script.publicEntries module : EStateM ε World (List (String × Script.Value))) :=
  .bind .getMemory fun _ => .pure _

/-! ### Interpreters -/

theorem getInterpreter (ts : InterpreterId) :
    Quiet allowed (Script.getInterpreter ts : EStateM ε World Interpreter) :=
  .bind .getMemory fun _ => .pure _

end Quiet

/-- What a change of one place keeps is kept of the whole array. -/
theorem map_modify {f : α → α} {g : α → β} (h : ∀ a, g (f a) = g a) (xs : Array α) (i : Nat) :
    (xs.modify i f).map g = xs.map g := by
  refine Array.ext (by simp) fun j _ _ => ?_
  simp only [Array.getElem_map, Array.getElem_modify]
  split
  · exact h _
  · rfl

theorem tracked_onInterpreter {f : Interpreter → Interpreter}
    (h : ∀ i, ((f i).number, (f i).runtime, (f i).error) = (i.number, i.runtime, i.error))
    (ts : InterpreterId) (m : Memory) : (m.onInterpreter ts f).tracked = m.tracked :=
  map_modify h m.interpreters ts.place

namespace Quiet

theorem modifyInterpreter {f : Interpreter → Interpreter}
    (h : ∀ i, ((f i).number, (f i).runtime, (f i).error) = (i.number, i.runtime, i.error))
    (ts : InterpreterId) :
    Quiet allowed (Script.modifyInterpreter ts f : EStateM ε World Unit) :=
  .modifyMemory (fun _ => rfl) (tracked_onInterpreter h ts)

theorem errorIsA (ts : InterpreterId) (family : Script.Family) :
    Quiet allowed (Script.errorIsA ts family : EStateM ε World Bool) :=
  .bind (.getInterpreter ts) fun _ => .pure _

theorem addModule (ts : InterpreterId) (module : ModuleRef) :
    Quiet allowed (Script.addModule ts module : EStateM ε World Unit) := by
  refine .modifyInterpreter ?_ ts
  exact fun _ => rfl

theorem moduleOrNew (ts : InterpreterId) (name : String) (origin : Script.Origin) :
    Quiet allowed (Script.moduleOrNew ts name origin : EStateM ε World ModuleRef) := by
  refine .bind (.bind (.getInterpreter ts) fun _ => .pure _) fun found => ?_
  cases found with
  | some module => exact .pure _
  | none =>
    exact .bind (.newModule _ _) fun _ => .bind (.addModule ts _) fun _ => .pure _

/-! ### Views -/

/-- A change of what the bridge remembers, with the Host left as it is. -/
theorem remember {f : State → State} (realm : ∀ s, (f s).realm = s.realm)
    (contexts : ∀ s, (f s).tracked = s.tracked) (registry : ∀ s, (f s).registry = s.registry)
    (links : ∀ s, (f s).links = s.links) (runtime : ∀ s, (f s).runtime = s.runtime)
    (views : ∀ s, ∀ n ∈ (f s).viewRefs, n ∈ s.viewRefs)
    (permitted : ∀ s : State, s.Permitted allowed → (f s).Permitted allowed) :
    Quiet allowed (modifyState f : EStateM ε World Unit) := by
  refine .of_modify fun w => .of_outside (contexts _) (registry _) (links _) (runtime _)
    (.inr ?_) ?_ ?_ (fun n hn => .inl (views _ n hn)) (permitted _)
  · rw [realm]
  · intro g hg
    rwa [realm]
  · simp only [realm, Nat.le_refl]

theorem getProxy (place : Nat) :
    Quiet allowed (Bridge.getProxy place : EStateM ε World Bridge.Proxy) :=
  .bind .getState fun _ => .pure _

theorem viewOf? (value : Script.Value) :
    Quiet allowed (Bridge.viewOf? value : EStateM ε World (Option Bridge.View)) := by
  unfold Bridge.viewOf?
  split
  · exact .bind (.getProxy _) fun _ => .pure _
  · exact .pure _

theorem linkedContext? (ts : InterpreterId) :
    Quiet allowed (Bridge.linkedContext? ts : EStateM ε World (Option Bridge.ContextId)) :=
  .bind .getState fun _ => .bind (.getInterpreter ts) fun _ => .pure _

theorem link? (ts : InterpreterId) :
    Quiet allowed (Bridge.link? ts : EStateM ε World (Option Bridge.Link)) :=
  .bind .getState fun _ => .bind (.linkedContext? ts) fun _ => .pure _

end Quiet
end ScriptBridge
