import ScriptBridge.Bridge.ArrayView
import ScriptBridge.Proofs.Overloads.Coercion

/-!
# What happens to an array and its pins

Of an array, the elements that the Host has stored matter here, and the pins of its views. Taking a
pin copies the elements, writing changes the pin alone, and giving the pin back stores the whole
copy if an element was written.
-/

namespace ScriptBridge.Bridge

open Host (ClassId ObjectId Realm Bodies HostM)
open Script (InterpreterId)

variable {ε α β : Type} {w v : World} {o : ObjectId} {place other : Nat} {pin : Pin}
  {component : Option (ClassId × Kind)} {items stored : List Host.Value} {bodies : Bodies World}
  {ts : InterpreterId}

/-- The elements that are stored in an array. -/
def World.elements? (w : World) (o : ObjectId) : Option (List Host.Value) :=
  match w.outside.realm.payload o with
  | .array items => some items
  | _ => none

/-- There is a view of the array at the place. -/
def World.Views (w : World) (o : ObjectId) (place : Nat) : Prop :=
  ∃ component pin, w.viewAt place = .array o component pin

/-- The pin of the view at a place, if it is one of the array. -/
def World.pinAt (w : World) (o : ObjectId) (place : Nat) : Option Pin :=
  match w.viewAt place with
  | .array o' _ pin => if o' = o then pin else none
  | _ => none

/-- The state with another pin at a place. -/
def World.repinned (w : World) (place : Nat) (pin : Option Pin) : World :=
  World.after ((setPin place pin : EStateM Unit World Unit) w)

/-- The state with other elements in an array. -/
def World.filling (w : World) (o : ObjectId) (items : List Host.Value) : World :=
  w.onRealm (Realm.setPayload o (.array items) w.outside.realm).2

/-- The view with another pin. -/
def View.repinned (pin : Option Pin) : View → View
  | .array o component _ => .array o component pin
  | view => view

theorem elements?_eq_some : w.elements? o = some items ↔ w.outside.realm.payload o = .array items := by
  unfold World.elements?
  cases w.outside.realm.payload o <;> simp

theorem elements?_of_objects (same : v.outside.realm.objects = w.outside.realm.objects) :
    v.elements? = w.elements? := by
  funext o
  simp only [World.elements?, Realm.payload, Realm.object, same]

theorem objects_deleteGlobalRef (g : Host.GlobalRef) (r : Realm) :
    (Realm.deleteGlobalRef g r).2.objects = r.objects := by
  show (if _ then _ else r : Realm).objects = r.objects
  split <;> rfl

theorem pinAt_of_view (view : w.viewAt place = .array o component (some pin)) :
    w.pinAt o place = some pin := by
  simp [World.pinAt, view]

theorem view_of_pinAt (here : w.pinAt o place = some pin) :
    ∃ component, w.viewAt place = .array o component (some pin) := by
  unfold World.pinAt at here
  split at here
  · rename_i o' component pin' view
    split at here
    · rename_i same
      subst same here
      exact ⟨component, view⟩
    · cases here
  · cases here

/-! ### Other pins and other elements -/

theorem viewAt_repinned (place other : Nat) (pin : Option Pin) :
    (w.repinned place pin).viewAt other =
      if place = other then (w.viewAt place).repinned pin else w.viewAt other := by
  show (((w.outside.proxies.modify place _)[other]?).getD default : Proxy).view = _
  rw [Array.getElem?_modify]
  by_cases same : place = other
  · subst same
    rw [if_pos rfl, if_pos rfl]
    unfold World.viewAt
    cases w.outside.proxies[place]? with
    | none => rfl
    | some p =>
      obtain ⟨view, held⟩ := p
      cases view <;> rfl
  · rw [if_neg same, if_neg same]
    rfl

theorem pinAt_repinned (here : w.Views o place) (pin : Option Pin) (other : Nat) :
    (w.repinned place pin).pinAt o other = if place = other then pin else w.pinAt o other := by
  obtain ⟨component, old, view⟩ := here
  unfold World.pinAt
  rw [viewAt_repinned]
  by_cases same : place = other
  · rw [if_pos same, if_pos same, view]
    simp [View.repinned]
  · rw [if_neg same, if_neg same]

theorem views_repinned (here : w.Views o other) (place : Nat) (pin : Option Pin) :
    (w.repinned place pin).Views o other := by
  obtain ⟨component, old, view⟩ := here
  unfold World.Views
  rw [viewAt_repinned]
  by_cases same : place = other
  · subst same
    rw [if_pos rfl, view]
    exact ⟨component, pin, rfl⟩
  · rw [if_neg same]
    exact ⟨component, old, view⟩

theorem holds_of_elements? (known : w.elements? o = some stored) : w.outside.realm.Holds o := by
  by_contra missing
  have other : w.outside.realm.payload o = .sealed := by
    have none : w.outside.realm.objects[o.index]? = none := by
      simpa [Realm.Holds] using missing
    rw [Realm.payload, Realm.object, none]
    rfl
  rw [World.elements?, other] at known
  cases known

theorem elements?_filling (known : w.elements? o = some stored) (items : List Host.Value) :
    (w.filling o items).elements? o = some items := by
  rw [elements?_eq_some]
  show ((Realm.setPayload o _ w.outside.realm).2.object o).payload = _
  rw [Realm.object_setPayload_self _ (holds_of_elements? known)]

theorem viewAt_filling (items : List Host.Value) (place : Nat) :
    (w.filling o items).viewAt place = w.viewAt place := rfl

/-! ### Taking a pin -/

theorem arrayElements_run (known : w.elements? o = some stored) :
    (Host.arrayElements o : HostM World _) w = .ok stored w := by
  have array := elements?_eq_some.mp known
  unfold Host.arrayElements
  simp only [Bind.bind, EStateM.bind, getRealm_run, array]
  rfl

theorem pinned_again (view : w.viewAt place = .array o component (some pin)) :
    pinned bodies ts place w = .ok pin w := by
  have shown : (getProxy place : BridgeM Proxy) w =
      .ok ((w.outside.proxies[place]?).getD default) w := rfl
  unfold pinned
  rw [bind_ok shown, ← World.viewAt, view]
  rfl

theorem pinned_first (view : w.viewAt place = .array o component none)
    (known : w.elements? o = some stored) :
    pinned bodies ts place w = .ok { items := stored } (w.repinned place (some { items := stored })) := by
  have shown : (getProxy place : BridgeM Proxy) w =
      .ok ((w.outside.proxies[place]?).getD default) w := rfl
  unfold pinned
  rw [bind_ok shown, ← World.viewAt, view]
  dsimp only
  rw [bind_ok (hostCall_ok (arrayElements_run known) bodies ts)]
  rfl

/-! ### Giving a pin back -/

/-- The state once the pin is gone and what was written is stored. -/
def World.committed (w : World) (o : ObjectId) (place : Nat) (pin : Pin) : World :=
  if pin.changed then (w.repinned place none).filling o pin.items else w.repinned place none

theorem releaseArrayElements_run (known : w.elements? o = some stored) (items : List Host.Value)
    {commit : Bool} (fits : commit = true → stored.length = items.length) :
    (Host.releaseArrayElements o items commit : HostM World Unit) w =
      .ok () (if commit then w.filling o items else w) := by
  have length : (Host.arrayLength o : HostM World Nat) w = .ok stored.length w := by
    unfold Host.arrayLength
    rw [bind_ok (arrayElements_run known)]
    rfl
  unfold Host.releaseArrayElements
  rw [bind_ok length]
  by_cases committed : commit = true
  · rw [if_pos committed, if_pos committed, if_pos (fits committed)]
    rfl
  · rw [if_neg committed, if_neg committed]
    rfl

theorem takePin_run (view : w.viewAt place = .array o component (some pin)) :
    (takePin place : EStateM ε World _) w = .ok (some (o, pin)) (w.repinned place none) := by
  rw [takePin_eq, view]
  rfl

theorem takePin_none (view : w.viewAt place = .array o component none) :
    (takePin place : EStateM ε World _) w = .ok none w := by
  rw [takePin_eq, view]
  rfl

theorem releasePin_run (view : w.viewAt place = .array o component (some pin))
    (known : w.elements? o = some stored) (fits : pin.changed = true → stored.length = pin.items.length) :
    releasePin bodies ts place true w = .ok () (w.committed o place pin) := by
  have gone : (w.repinned place none).elements? o = some stored := known
  have released := releaseArrayElements_run gone pin.items fits
  unfold releasePin
  rw [bind_ok (takePin_run view)]
  exact hostCall_ok released bodies ts

theorem releasePin_none (view : w.viewAt place = .array o component none) (commit : Bool) :
    releasePin bodies ts place commit w = .ok () w := by
  unfold releasePin
  rw [bind_ok (takePin_none view)]
  rfl

/-- To let go of the Host object changes neither elements nor views. -/
theorem letGo_run (place : Nat) (w : World) :
    ∃ v, (do
      match (← getProxy place).held with
      | none => pure ()
      | some g =>
        Host.onRealm (Realm.deleteGlobalRef g)
        modifyProxy place fun p => { p with held := none } : EStateM ε World Unit) w = .ok () v ∧
      v.elements? = w.elements? ∧ v.viewAt = w.viewAt := by
  have shown : (getProxy place : EStateM ε World Proxy) w =
      .ok ((w.outside.proxies[place]?).getD default) w := rfl
  rw [bind_ok shown]
  cases ((w.outside.proxies[place]?).getD default).held with
  | none => exact ⟨w, rfl, rfl, rfl⟩
  | some g =>
    refine ⟨_, rfl, elements?_of_objects (objects_deleteGlobalRef g _), ?_⟩
    funext other
    show (((w.outside.proxies.modify place _)[other]?).getD default : Proxy).view = _
    rw [Array.getElem?_modify, World.viewAt]
    split
    · cases w.outside.proxies[other]? <;> rfl
    · rfl

/-- A view that is dropped gives its pin back like one that is released, and no longer keeps the
array. -/
theorem retire_run (view : w.viewAt place = .array o component (some pin))
    (known : w.elements? o = some stored) (fits : pin.changed = true → stored.length = pin.items.length) :
    ∃ v, (retire place : EStateM ε World Unit) w = .ok () v ∧
      v.elements? o = (w.committed o place pin).elements? o ∧
      v.viewAt = (w.committed o place pin).viewAt := by
  have gone : (w.repinned place none).elements? o = some stored := known
  have released := releaseArrayElements_run gone pin.items fits
  have quiet : (quietly (Host.releaseArrayElements o pin.items pin.changed) : EStateM ε World _)
      (w.repinned place none) = .ok (some ()) (w.committed o place pin) := by
    unfold quietly
    rw [bind_ok (attempt_ok released)]
    rfl
  obtain ⟨v, run, elements, views⟩ := letGo_run (ε := ε) place (w.committed o place pin)
  refine ⟨v, ?_, congrFun elements o, views⟩
  unfold retire
  rw [bind_ok (takePin_run view)]
  dsimp only
  rw [bind_ok quiet]
  exact run

theorem elements?_committed (known : w.elements? o = some stored) (place : Nat) (pin : Pin) :
    (w.committed o place pin).elements? o = some (if pin.changed then pin.items else stored) := by
  unfold World.committed
  split
  · exact elements?_filling known pin.items
  · exact known

theorem pinAt_committed (here : w.Views o place) (pin : Pin) (other : Nat) :
    (w.committed o place pin).pinAt o other = if place = other then none else w.pinAt o other := by
  unfold World.committed
  split <;> exact pinAt_repinned here none other

end ScriptBridge.Bridge
