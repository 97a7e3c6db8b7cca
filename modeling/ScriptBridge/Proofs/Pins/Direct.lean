import ScriptBridge.Proofs.Pins.Errands
import ScriptBridge.Proofs.Pins.Leases

/-!
# Reading and writing an array directly

The accesses of a script to an array without a copy in between: elements are read from the array
each time, and what is written is stored at once. An access through a view does the same in its
state as the direct one does in the direct state, and afterwards the states correspond again.
-/

namespace ScriptBridge.Bridge

open Host (ClassId ObjectId HostM)
open Script (InterpreterId)

variable {V : Viewpoint} {ε α β : Type} {items : List Host.Value} {w v : World}
  {bodies : Host.Bodies World} {ts : InterpreterId}

/-! ### Direct accesses -/

/-- Reads an element of the array itself; the view only knows the class of the elements. -/
def fetchElement (bodies : Host.Bodies World) (ts : InterpreterId) (o : ObjectId) (place : Nat)
    (index : Script.Value) : BridgeM Script.Value := do
  let (_, kind) ← component ts place
  let items ← hostCall bodies ts (Host.arrayElements o)
  let i ← elementIndex ts index items.length
  toScript bodies ts (items.getD i .null) kind

/-- Writes an element of the array itself. -/
def storeElement (bodies : Host.Bodies World) (ts : InterpreterId) (o : ObjectId) (place : Nat)
    (index value : Script.Value) : BridgeM Unit := do
  let (c, kind) ← component ts place
  let converted ← coerce bodies ts value c kind 1
  let items ← hostCall bodies ts (Host.arrayElements o)
  let i ← elementIndex ts index items.length
  hostCall bodies ts (Host.releaseArrayElements o (items.set i converted) true)

/-- What a write would assign, if it succeeds. -/
def assigned? (bodies : Host.Bodies World) (ts : InterpreterId) (place : Nat) (length : Nat)
    (index value : Script.Value) (w : World) : Option (Nat × Host.Value) :=
  match component ts place w with
  | .error _ _ => none
  | .ok (c, kind) v =>
    match coerce bodies ts value c kind 1 v with
    | .error _ _ => none
    | .ok converted _ =>
      ((Script.wholeIndex? index).bind (Script.position? · length)).map fun i => (i, converted)

namespace Viewpoint

/-! ### Corresponding steps -/

/-- From this state the one step does what the other one does from the direct state. If they
succeed, the script may see other elements afterwards. -/
inductive Mirrors (V : Viewpoint) (step step' : EStateM ε World α)
    (P : α → List Host.Value → Prop) (items : List Host.Value) (w : World) : Prop
  | ok {a : α} {v : World} {items' : List Host.Value} : step w = .ok a v →
    step' (V.direct items w) = .ok a (V.direct items' v) → V.Reaches items' w v → P a items' →
    Mirrors V step step' P items w
  | error {e : ε} {v : World} : step w = .error e v →
    step' (V.direct items w) = .error e (V.direct items v) → V.Reaches items w v →
    Mirrors V step step' P items w

namespace Mirrors

variable {P : α → Prop} {Q : β → List Host.Value → Prop}

theorem of_blind {step : EStateM ε World α} (h : V.BlindAt step P items w) :
    V.Mirrors step step (fun a items' => items' = items ∧ P a) items w := by
  cases h with
  | ok ended same reaches ha => exact .ok ended same reaches ⟨rfl, ha⟩
  | error ended same reaches => exact .error ended same reaches

theorem mono {step step' : EStateM ε World α} {P P' : α → List Host.Value → Prop}
    (h : V.Mirrors step step' P items w) (weaker : ∀ a items', P a items' → P' a items') :
    V.Mirrors step step' P' items w := by
  cases h with
  | ok ended same reaches ha => exact .ok ended same reaches (weaker _ _ ha)
  | error ended same reaches => exact .error ended same reaches

theorem congr {step step' other other' : EStateM ε World α} {P : α → List Host.Value → Prop}
    (h : V.Mirrors step step' P items w) (here : other w = step w)
    (direct : other' (V.direct items w) = step' (V.direct items w)) :
    V.Mirrors other other' P items w := by
  cases h with
  | ok ended same reaches ha => exact .ok (here.trans ended) (direct.trans same) reaches ha
  | error ended same reaches => exact .error (here.trans ended) (direct.trans same) reaches

/-- Steps that correspond one after the other. -/
theorem seq {step step' : EStateM ε World α} {next next' : α → EStateM ε World β}
    (h : V.Mirrors step step' (fun a items' => items' = items ∧ P a) items w)
    (h' : ∀ a v, step w = .ok a v → P a → V.Reaches items w v →
      V.Mirrors (next a) (next' a) Q items v) :
    V.Mirrors (step >>= next) (step' >>= next') Q items w := by
  cases h with
  | error ended same reaches =>
    exact .error ((bind_error ended).trans rfl) ((bind_error same).trans rfl) reaches
  | ok ended same reaches ha =>
    obtain ⟨rfl, ha⟩ := ha
    cases h' _ _ ended ha reaches with
    | ok ended' same' reaches' hb =>
      exact .ok ((bind_ok ended).trans ended') ((bind_ok same).trans same') (reaches.onto reaches') hb
    | error ended' same' reaches' =>
      exact .error ((bind_ok ended).trans ended') ((bind_ok same).trans same') (reaches.trans reaches')

theorem after {step : EStateM ε World α} {next next' : α → EStateM ε World β}
    (h : V.BlindAt step P items w)
    (h' : ∀ a v, step w = .ok a v → V.Reaches items w v → V.Mirrors (next a) (next' a) Q items v) :
    V.Mirrors (step >>= next) (step >>= next') Q items w :=
  .seq (.of_blind h) fun a v ended _ => h' a v ended

end Mirrors

/-! ### Copies and elements -/

theorem elements?_direct (h : V.Shows items w) :
    (V.direct items w).elements? V.array = some items := by
  obtain ⟨stored, known, -⟩ := h.stored
  exact elements?_filling (show (w.repinned V.place none).elements? V.array = _ from known) items

theorem elements_run (bodies : Host.Bodies World) (ts : InterpreterId) (h : V.Shows items w) :
    hostCall bodies ts (Host.arrayElements V.array) (V.direct items w) =
      .ok items (V.direct items w) :=
  hostCall_ok (arrayElements_run (elements?_direct h)) bodies ts

/-- Only the last pin counts. -/
theorem repinned_repinned (w : World) (place : Nat) (pin pin' : Option Pin) :
    (w.repinned place pin).repinned place pin' = w.repinned place pin' := by
  have proxies : ((w.repinned place pin).repinned place pin').outside.proxies =
      (w.repinned place pin').outside.proxies := by
    rw [proxies_repinned, proxies_repinned, proxies_repinned]
    refine Host.modify_modify fun p => ?_
    obtain ⟨view, held⟩ := p
    cases view <;> rfl
  show w.viewing ((w.repinned place pin).repinned place pin').outside.proxies =
    w.viewing (w.repinned place pin').outside.proxies
  rw [proxies]

theorem filling_filling (w : World) (o : ObjectId) (items items' : List Host.Value) :
    (w.filling o items).filling o items' = w.filling o items' := by
  have objects : ((w.outside.realm.holding o items).holding o items').objects =
      (w.outside.realm.holding o items').objects := by
    rw [Host.Realm.objects_holding, Host.Realm.objects_holding, Host.Realm.objects_holding]
    exact Host.modify_modify fun _ => rfl
  show w.onRealm { w.outside.realm with
      objects := ((w.outside.realm.holding o items).holding o items').objects } =
    w.onRealm { w.outside.realm with objects := (w.outside.realm.holding o items').objects }
  rw [objects]

theorem direct_repinned (V : Viewpoint) (items : List Host.Value) (w : World) (pin : Option Pin) :
    V.direct items (w.repinned V.place pin) = V.direct items w := by
  rw [direct, direct, repinned_repinned]

/-- A copy of the same elements shows them, and so does one of which an element was changed. -/
theorem shows_repinned (h : V.Shows items w) (pin : Pin)
    (length : pin.items.length = items.length)
    (unchanged : pin.changed = false → w.elements? V.array = some pin.items) :
    V.Reaches pin.items w (w.repinned V.place (some pin)) := by
  have pins := pinAt_repinned h.views (some pin)
  obtain ⟨stored, known, size⟩ := h.stored
  refine ⟨⟨views_repinned h.views _ _, ⟨stored, known, size.trans length.symm⟩, fun other here => ?_,
    fun clean => unchanged (clean pin ((pins _).trans (if_pos rfl))), fun other pin' apart here => ?_,
    h.answers, h.accessors⟩, Nat.le_of_eq Array.size_modify.symm, fun other _ => ?_⟩
  · cases here.symm.trans ((pins V.place).trans (if_pos rfl))
    rfl
  · exact h.others other pin' apart (here ▸ ((pins other).trans (if_neg apart.symm)).symm)
  · rw [views_iff, views_iff, viewAt_repinned]
    split
    · rename_i mine
      subst mine
      cases w.viewAt V.place <;> rfl
    · rfl

/-- The first access takes a copy, and nothing else changes. -/
theorem pinned_run (bodies : Host.Bodies World) (ts : InterpreterId) (h : V.Shows items w) :
    ∃ (pin : Pin) (v : World), pinned bodies ts V.place w = .ok pin v ∧ pin.items = items ∧
      v.pinAt V.array V.place = some pin ∧ V.Reaches items w v ∧
      V.direct items v = V.direct items w := by
  obtain ⟨component, old, view⟩ := h.views
  cases old with
  | some pin =>
    have here := pinAt_of_view view
    exact ⟨pin, w, pinned_again view, h.copied pin here, here, .refl h, rfl⟩
  | none =>
    have unpinned : w.pinAt V.array V.place = none := by simp [World.pinAt, view]
    have known := h.unchanged (by simp [unpinned])
    have reaches := shows_repinned h { items } rfl fun _ => known
    exact ⟨_, _, pinned_first view known, rfl, (pinAt_repinned h.views _ _).trans (if_pos rfl),
      reaches, direct_repinned V items w _⟩

namespace Mirrors

variable {Q : β → List Host.Value → Prop}

/-- What the pin holds is what the array holds in the direct state. -/
theorem access (h : V.Shows items w) {next : Pin → BridgeM β}
    {next' : List Host.Value → BridgeM β}
    (h' : ∀ pin v, pin.items = items → v.pinAt V.array V.place = some pin → V.Reaches items w v →
      V.Mirrors (next pin) (next' items) Q items v) :
    V.Mirrors (pinned bodies ts V.place >>= next)
      (hostCall bodies ts (Host.arrayElements V.array) >>= next') Q items w := by
  obtain ⟨pin, v, taken, copied, here, reaches, direct⟩ := pinned_run bodies ts h
  have read := elements_run bodies ts h
  cases h' pin v copied here reaches with
  | ok ended same reaches' hb =>
    exact .ok ((bind_ok taken).trans ended) ((bind_ok read).trans (direct ▸ same)) (reaches.onto reaches') hb
  | error ended same reaches' =>
    exact .error ((bind_ok taken).trans ended) ((bind_ok read).trans (direct ▸ same))
      (reaches.trans reaches')

/-- What is written to the copy is what is stored in the direct state. -/
theorem store (h : V.Shows items w) {items' : List Host.Value}
    (length : items'.length = items.length) :
    V.Mirrors (setPin V.place (some { items := items', changed := true }))
      (hostCall bodies ts (Host.releaseArrayElements V.array items' true))
      (fun _ last => last = items') items w := by
  have stored : hostCall bodies ts (Host.releaseArrayElements V.array items' true)
      (V.direct items w) = .ok () ((V.direct items w).filling V.array items') :=
    hostCall_ok (releaseArrayElements_run (elements?_direct h) items' fun _ => length.symm) bodies ts
  have same : (V.direct items w).filling V.array items' =
      V.direct items' (w.repinned V.place (some { items := items', changed := true })) := by
    rw [direct_repinned, direct, filling_filling, direct]
  have set : (setPin V.place (some { items := items', changed := true }) : BridgeM Unit) w =
      .ok () (w.repinned V.place (some { items := items', changed := true })) := rfl
  exact .ok set (stored.trans (congrArg _ same)) (shows_repinned h ⟨items', true⟩ length Bool.noConfusion)
    rfl

end Mirrors

/-! ### Accesses -/

variable (discreet : V.Discreet bodies) (h : V.Shows items w)

include discreet h

end Viewpoint
end ScriptBridge.Bridge
