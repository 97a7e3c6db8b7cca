import ScriptBridge.Bridge.Member
import ScriptBridge.Host.Bodies
import ScriptBridge.Host.Declaration
import ScriptBridge.Host.Standard
import ScriptBridge.Proofs.Pins.Showing

/-!
# The copy of an array is transparent

A script reads, writes and shows an array through a view and hands it to the Host. As long as
nothing else looks at the array, each operation has the result and the error that it has when it
acts on the array itself, and once the copy is given back the array holds what the writes that
succeeded have assigned.
-/

namespace ScriptBridge.Bridge

open Host (ClassId ObjectId)
open Script (InterpreterId Exception)

variable {V : Viewpoint} {α : Type} {items : List Host.Value} {w v u : World}
  {bodies : Host.Bodies World} {ts : InterpreterId} {f : Script.Foreign}

/-! ### Operations -/

/-- What a script does with an array. -/
inductive ArrayOperation where
  | read (index : Script.Value)
  | write (index value : Script.Value)
  | length
  | text
  /-- The array is an argument of a call. -/
  | pass (param : ClassId) (kind : Kind) (position : Nat)
  | box
  | release

/-- What an operation results in. -/
inductive ArrayAnswer where
  | element (value : Script.Value)
  | length (length : Nat)
  | text (text : String)
  | argument (value : Host.Value)
  | boxed (object : Option ObjectId)
  | done

namespace ArrayOperation

/-- The operation through a view. -/
def run (bodies : Host.Bodies World) (ts : InterpreterId) (f : Script.Foreign) :
    ArrayOperation → BridgeM ArrayAnswer
  | read index => do return .element (← getItem bodies ts f index)
  | write index value => do
    setItem bodies ts f index value
    return .done
  | length => do return .length (← Bridge.length bodies ts f)
  | text => do return .text (← viewText bodies ts f)
  | pass param kind position => do return .argument (← coerce bodies ts (.foreign f) param kind position)
  | box => do return .boxed (← Bridge.box bodies ts (.foreign f))
  | release => do
    releasePin bodies ts f.place true
    return .done

/-- The operation on the array itself, of which the view has no copy. -/
def direct (bodies : Host.Bodies World) (ts : InterpreterId) (f : Script.Foreign) (o : ObjectId) :
    ArrayOperation → BridgeM ArrayAnswer
  | read index => do return .element (← fetchElement bodies ts o f.place index)
  | write index value => do
    storeElement bodies ts o f.place index value
    return .done
  | length => do return .length (← hostCall bodies ts (Host.arrayLength o))
  | text => do return .text (← directText bodies ts o f.place)
  | pass param kind position => do return .argument (← coerce bodies ts (.foreign f) param kind position)
  | box => return .boxed (some o)
  | release => return .done

/-- What the operation assigns to which element, if it succeeds. -/
def assigned? (bodies : Host.Bodies World) (ts : InterpreterId) (place length : Nat) (w : World) :
    ArrayOperation → Option (Nat × Host.Value)
  | write index value => Bridge.assigned? bodies ts place length index value w
  | _ => none

end ArrayOperation

/-- What a step results in, or the error, which is then handled. -/
def handled (ts : InterpreterId) (step : BridgeM α) : BridgeM (Except (Option Exception) α) := do
  match ← Script.attempt step with
  | .ok a => return .ok a
  | .error _ => return .error (← Script.takeError ts)

/-- The elements after assignments. -/
def assign (items : List Host.Value) (assigned : List (Nat × Host.Value)) : List Host.Value :=
  assigned.foldl (fun items (i, value) => items.set i value) items

theorem handled_ok {step : BridgeM α} {a : α} (ended : step w = .ok a v) :
    handled ts step w = .ok (.ok a) v := by
  unfold handled
  rw [bind_ok (attempt_ok ended)]
  rfl

theorem handled_error {step : BridgeM α} {e : Script.Raised} (ended : step w = .error e v) :
    handled ts step w = .ok (.error (v.memory.interpreter ts).error)
      (World.after ((Script.clearError ts : BridgeM Unit) v)) := by
  unfold handled
  rw [bind_ok (attempt_error ended)]
  rfl

namespace Viewpoint

/-- A step that fails changes nothing, and its error is the same. -/
theorem Mirrors.handled (ts : InterpreterId) {step step' : BridgeM α} {P : α → List Host.Value → Prop}
    (h : V.Mirrors step step' P items w) :
    ∃ tried v items', Bridge.handled ts step w = .ok tried v ∧
      Bridge.handled ts step' (V.direct items w) = .ok tried (V.direct items' v) ∧
      V.Reaches items' w v ∧
      ((∃ a u, step w = .ok a u ∧ P a items') ∨ (∃ e u, step w = .error e u) ∧ items' = items) := by
  cases h with
  | @ok a v items' ended same reaches ha =>
    exact ⟨_, v, items', handled_ok ended, handled_ok same, reaches, .inl ⟨a, v, ended, ha⟩⟩
  | @error e v ended same reaches =>
    have clears : V.Blind (Script.clearError ts : BridgeM Unit) fun _ => True := .setError none
    have cleared := clears items v reaches.shows
    have direct : World.after ((Script.clearError ts : BridgeM Unit) (V.direct items v)) =
        V.direct items (World.after ((Script.clearError ts : BridgeM Unit) v)) := rfl
    refine ⟨_, _, items, handled_error ended, (handled_error same).trans ?_,
      reaches.trans cleared.reaches, .inr ⟨⟨e, v, ended⟩, rfl⟩⟩
    rw [direct]
    rfl

/-- The view of an array is treated as one, with or without a copy. -/
theorem view_run {β : Type} (here : w.Views V.array f.place) (k : Proxy → BridgeM β) :
    ∃ component pin held, (getProxy f.place >>= k) w = k ⟨.array V.array component pin, held⟩ w := by
  obtain ⟨component, pin, view⟩ := here
  have shown : (getProxy f.place : BridgeM Proxy) w =
      .ok ((w.outside.proxies[f.place]?).getD default) w := rfl
  rw [World.viewAt] at view
  refine ⟨component, pin, ((w.outside.proxies[f.place]?).getD default).held, ?_⟩
  rw [bind_ok shown, ← view]

theorem length_eq (here : w.Views V.array f.place) :
    Bridge.length bodies ts f w = arrayLength bodies ts f.place w := by
  unfold Bridge.length
  obtain ⟨component, pin, held, same⟩ := view_run here _
  exact same

/-- What a step results in may be given another form. -/
theorem Mirrors.answer {β : Type} {step step' : BridgeM α} {P Q : List Host.Value → Prop}
    (h : V.Mirrors step step' (fun _ items' => P items') items w) (g : α → β)
    (weaker : ∀ items', P items' → Q items') :
    V.Mirrors (do return g (← step)) (do return g (← step')) (fun _ items' => Q items') items w := by
  cases h with
  | ok ended same reaches ha =>
    exact .ok ((bind_ok ended).trans rfl) ((bind_ok same).trans rfl) reaches (weaker _ ha)
  | error ended same reaches =>
    exact .error ((bind_error ended).trans rfl) ((bind_error same).trans rfl) reaches

end Viewpoint

/-! ### Transparency -/

/-- An array of two numbers with a view. -/
def numbers : World :=
  ⟨{}, { realm := { objects := #[⟨⟨0⟩, .array [.int 1, .int 2]⟩] }
         proxies := #[⟨.array ⟨0⟩ (some (⟨0⟩, .int)) none, none⟩] }⟩

/-- A class whose objects describe a certain array when they are asked for their text. -/
def watcherClasses : List Host.Declaration :=
  [{ name := "demo.Note", superclass := some Host.objectName,
     constructors := [([Host.objectName], .describe "sees")] },
   { name := "demo.Watcher", superclass := some Host.objectName, constructors := [([], .sealed)],
     methods := [{ name := "toString", returns := Host.stringName,
                   body := .constant (.object "demo.Note" [Host.objectName] [.named "watched"]) }] }]

/-- Makes an array of an object that describes it and of a string, with a view of it. -/
def openWatched (bodies : Host.Bodies World) : Host.HostM World Script.Value := do
  Host.Declaration.declareAll bodies watcherClasses
  let array ← (Host.Recipe.array Host.objectName [.object "demo.Watcher" [] [], .string "old"]).make bodies
  match array with
  | .ref o =>
    Host.onRealm (modify fun r : Host.Realm => { r with named := r.named.insert "watched" o })
    viewArray o
  | _ => return .none

def watched : World := World.after (openWatched (.alone 5) ⟨{}, { realm := .standard }⟩)

end ScriptBridge.Bridge
