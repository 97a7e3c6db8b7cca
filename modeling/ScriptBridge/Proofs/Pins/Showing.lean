import ScriptBridge.Proofs.Pins.Direct

/-!
# The text of an array

The text of an array shows its elements, and those that are arrays again show theirs. If the array
is shown inside itself, a second view of it is opened there, which sees the elements that are
stored. Otherwise nothing else looks at the array, and the text is that of the elements that the
script sees.
-/

namespace ScriptBridge.Bridge

open Host (ClassId ObjectId HostM)
open Script (InterpreterId)

variable {V : Viewpoint} {ε α β : Type} {items : List Host.Value} {w v u : World}
  {bodies : Host.Bodies World} {ts : InterpreterId} {place : Nat}

/-! ### The direct text -/

/-- Shows elements, which are fetched by their indices, in turn. -/
def showEach (fetch : Script.Value → BridgeM Script.Value) (showOne : Script.Value → BridgeM String) :
    (count first : Nat) → BridgeM (List String)
  | 0, _ => pure []
  | count + 1, i => do
    let element ← fetch (.int (.ofNat i))
    let text ← showOne element
    return text :: (← showEach fetch showOne count (i + 1))

/-- The text of the array itself; what it contains is shown as ever. -/
def directText (bodies : Host.Bodies World) (ts : InterpreterId) (o : ObjectId) (place : Nat) :
    BridgeM String := do
  let depth := (← Host.getRealm).objects.size
  let length ← hostCall bodies ts (Host.arrayLength o)
  let texts ← showEach (fetchElement bodies ts o place) (shownWithin bodies ts depth) length 0
  return "[" ++ String.intercalate ", " texts ++ "]"

namespace Viewpoint

/-! ### Steps that may look at the array -/

/-- Whether or not the step looks at the array, the script sees the same elements afterwards. -/
def Keeps (V : Viewpoint) (step : EStateM ε World α) : Prop :=
  ∀ items w, V.Shows items w → V.Reaches items w (World.after (step w))

namespace Keeps

variable {P : α → Prop}

theorem of_blind {step : EStateM ε World α} (h : V.Blind step P) : V.Keeps step :=
  fun items w shows => (h items w shows).reaches

theorem bind {step : EStateM ε World α} {next : α → EStateM ε World β} (h : V.Keeps step)
    (h' : ∀ a, V.Keeps (next a)) : V.Keeps (step >>= next) := by
  intro items w shows
  have first := h items w shows
  cases ended : step w with
  | ok a v =>
    rw [ended] at first
    rw [bind_ok ended]
    exact first.trans (h' a items v first.shows)
  | error e v =>
    rw [ended] at first
    rwa [bind_error ended]

theorem getProxy {k : Proxy → EStateM ε World β} (h : ∀ p, V.Keeps (k p)) :
    V.Keeps (Bridge.getProxy place >>= k) :=
  fun items w shows => h (w.outside.proxies[place]?.getD default) items w shows

end Keeps

/-- Nothing has opened another view of the array. -/
def Single (V : Viewpoint) (w v : World) : Prop :=
  ∀ other, v.Views V.array other → w.Views V.array other

theorem Single.before (h : V.Single w u) (last : V.Reaches items v u) : V.Single w v :=
  fun other here => h other ((last.views other (lt_of_views here)).mpr here)

theorem Single.later (h : V.Single w u) (first : V.Reaches items w v) : V.Single v u :=
  fun other here => (first.views other (lt_of_views (h other here))).mpr (h other here)

/-- If neither of two steps opens a view of the array, the first one does not. -/
theorem Single.first {step : EStateM ε World α} {next : α → EStateM ε World β}
    (single : V.Single w (World.after ((step >>= next) w))) (h : V.Shows items w)
    (keeps : V.Keeps step) (later : ∀ a, V.Keeps (next a)) : V.Single w (World.after (step w)) := by
  have reached := keeps items w h
  cases ended : step w with
  | error e v => rwa [bind_error ended] at single
  | ok a v =>
    rw [bind_ok ended] at single
    rw [ended] at reached
    exact single.before (later a items v reached.shows)

theorem Single.second {step : EStateM ε World α} {next : α → EStateM ε World β} {a : α}
    (single : V.Single w (World.after ((step >>= next) w))) (ended : step w = .ok a v)
    (reached : V.Reaches items w v) : V.Single v (World.after (next a v)) := by
  rw [bind_ok ended] at single
  exact single.later reached

variable (discreet : V.Discreet bodies)

include discreet

end Viewpoint
end ScriptBridge.Bridge
