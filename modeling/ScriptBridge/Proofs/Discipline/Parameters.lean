import ScriptBridge.Proofs.Discipline.Conversions

/-!
# Arguments and elements keep the discipline

What scripts hand to the Host: boxed values, arguments for parameters, and elements of arrays, which
are read and written in the pin.
-/

namespace ScriptBridge

open Host (ClassId ObjectId Realm Body HostM Method)
open Bridge (World State BridgeM Kind)
open Script (InterpreterId Raised)

namespace Discipline

variable {C : Course} {D : Discipline C} {ε α β : Type} {Q : α → Prop} {b b' : Host.Bodies World}
  {ts : InterpreterId}

/-! ### Steps without bodies -/

theorem standInText_keeps (value : Script.Value) :
    D.Keeps (D.raises ts) (Bridge.standInText value) (Bridge.standInText value) fun _ => True := by
  refine .quiet (.viewOf? value) fun view => ?_
  split
  · exact .pure trivial
  · split
    · exact .pure trivial
    · exact .giveUp

theorem mismatch_keeps (position : Nat) (message : String) :
    D.Keeps (D.raises ts) (Bridge.mismatch ts position message : BridgeM α)
      (Bridge.mismatch ts position message) Q :=
  .raiseException (.inr rfl)

theorem textValue_keeps (text : String) :
    D.Keeps (D.raises ts) (Bridge.textValue text) (Bridge.textValue text) fun _ => True :=
  .quiet (.onRealm (.newText text)) fun _ => .pure trivial

theorem coerceToString_keeps (value : Script.Value) (position : Nat) :
    D.Keeps (D.raises ts) (Bridge.coerceToString ts value position)
      (Bridge.coerceToString ts value position) fun _ => True := by
  unfold Bridge.coerceToString
  split
  · exact textValue_keeps _
  · refine .quiet (.shownObject? value) fun object => .quiet .stringClass? fun string => ?_
    split
    · refine .quiet (.assignable _ _) fun fits => .ite (fun _ => .pure trivial) fun _ => ?_
      exact mismatch_keeps _ _
    · exact mismatch_keeps _ _

variable (h : D.Bodies b b')

include h

theorem releasePin_keeps (place : Nat) (commit : Bool) :
    D.Keeps (D.raises ts) (Bridge.releasePin b ts place commit)
      (Bridge.releasePin b' ts place commit) fun _ => True := by
  refine .quiet (.takePin place) fun pin => ?_
  cases pin with
  | none => exact .pure trivial
  | some pin => exact hostCall_keeps h (Contained.releaseArrayElements _ _ _).keeps

theorem wrap_keeps (boxer : Bridge.Boxer) (value : Host.Value) :
    D.Keeps (D.raises ts) (Bridge.wrap b ts boxer value) (Bridge.wrap b' ts boxer value)
      fun _ => True :=
  hostCall_keeps h (newObject_keeps h _ _ _)

theorem box_keeps (value : Script.Value) :
    D.Keeps (D.raises ts) (Bridge.box b ts value) (Bridge.box b' ts value) fun _ => True := by
  refine .ite (fun _ => .pure trivial) fun _ => .quiet (.viewOf? value) fun view => ?_
  split
  · exact .seq (releasePin_keeps h _ _) fun _ => .pure trivial
  · exact .pure trivial
  · exact .pure trivial
  · refine .seq (hostCall_keeps h boxing_keeps) fun table => ?_
    split
    · exact .quiet (.onRealm (.newText _)) fun _ => .pure trivial
    · exact .seq (wrap_keeps h _ _) fun _ => .pure trivial
    · refine .ite (fun _ => .seq (wrap_keeps h _ _) fun _ => .pure trivial) fun _ => ?_
      exact .seq (wrap_keeps h _ _) fun _ => .pure trivial
    · exact .seq (wrap_keeps h _ _) fun _ => .pure trivial
    · exact .seq (wrap_keeps h _ _) fun _ => .pure trivial
    · exact .seq (standInText_keeps _) fun _ => .quiet (.onRealm (.newText _)) fun _ =>
        .pure trivial

theorem coerceToArray_keeps (value : Script.Value) (param : ClassId) (position : Nat) :
    D.Keeps (D.raises ts) (Bridge.coerceToArray b ts value param position)
      (Bridge.coerceToArray b' ts value param position) fun _ => True := by
  refine .quiet (.viewOf? value) fun view => ?_
  split
  · refine .getRealm fun r _ => .quiet (.assignable _ _) fun fits => .ite (fun _ => ?_) fun _ => ?_
    · exact .seq (releasePin_keeps h _ _) fun _ => .pure trivial
    · exact mismatch_keeps _ _
  · exact mismatch_keeps _ _

theorem coerceToObject_keeps (value : Script.Value) (param : ClassId) (position : Nat) :
    D.Keeps (D.raises ts) (Bridge.coerceToObject b ts value param position)
      (Bridge.coerceToObject b' ts value param position) fun _ => True := by
  unfold Bridge.coerceToObject
  split
  · refine .quiet (.stringFits _) fun fits => .ite (fun _ => textValue_keeps _) fun _ => ?_
    exact mismatch_keeps _ _
  · refine .quiet (.shownObject? value) fun object => ?_
    split
    · exact mismatch_keeps _ _
    · refine .quiet (.assignable _ _) fun fits => .ite (fun _ => ?_) fun _ => mismatch_keeps _ _
      split
      · exact .seq (releasePin_keeps h _ _) fun _ => .pure trivial
      · exact .pure trivial

theorem coerce_keeps (value : Script.Value) (param : ClassId) (kind : Kind) (position : Nat) :
    D.Keeps (D.raises ts) (Bridge.coerce b ts value param kind position)
      (Bridge.coerce b' ts value param kind position) fun _ => True := by
  cases kind with
  | string => exact .ite (fun _ => .pure trivial) fun _ => coerceToString_keeps _ _
  | array => exact .ite (fun _ => .pure trivial) fun _ => coerceToArray_keeps h _ _ _
  | object => exact .ite (fun _ => .pure trivial) fun _ => coerceToObject_keeps h _ _ _
  | type =>
    refine .quiet (.viewOf? value) fun view => ?_
    split
    · exact .pure trivial
    · exact .pure trivial
    · exact mismatch_keeps _ _
  | void => exact mismatch_keeps _ _
  | byte | short | int | long | float | double | boolean | char =>
    unfold Bridge.coerce
    dsimp only
    split
    · exact .pure trivial
    · exact mismatch_keeps _ _

/-! ### Elements of arrays -/

omit h in
theorem component_keeps (place : Nat) :
    D.Keeps (D.raises ts) (Bridge.component ts place) (Bridge.component ts place)
      fun _ => True := by
  refine .quiet (.getProxy place) fun p => ?_
  split
  · exact .pure trivial
  · refine .getRealm fun r _ => ?_
    split
    · exact .complain _ _
    · refine .seq (kindOf_keeps _) fun kind => .quiet (.modifyProxy ?_ ?_ place) fun _ =>
        .pure trivial
      · intro p g hg
        split at hg <;> exact hg
      · intro p hp
        split
        · rintro _ _ _ ⟨⟩
        · exact hp
  · exact .complain _ _

theorem pinned_keeps (place : Nat) :
    D.Keeps (D.raises ts) (Bridge.pinned b ts place) (Bridge.pinned b' ts place)
      fun _ => True := by
  refine .quiet (.getProxy place) fun p => ?_
  split
  · exact .pure trivial
  · exact .hostCall h (Contained.arrayElements _) fun _ => .quiet (.setPin _ _) fun _ =>
      .pure trivial
  · exact .complain _ _

omit h in
theorem elementIndex_keeps (index : Script.Value) (length : Nat) :
    D.Keeps (D.raises ts) (Bridge.elementIndex ts index length)
      (Bridge.elementIndex ts index length) fun _ => True := by
  unfold Bridge.elementIndex
  split
  · exact .complain _ _
  · split
    · exact .pure trivial
    · exact .complain _ _

theorem getElement_keeps (place : Nat) (index : Script.Value) :
    D.Keeps (D.raises ts) (Bridge.getElement b ts place index) (Bridge.getElement b' ts place index)
      fun _ => True :=
  .seq (component_keeps _) fun _ => .seq (pinned_keeps h _) fun _ =>
    .seq (elementIndex_keeps _ _) fun _ => toScript_keeps h _ _

theorem setElement_keeps (place : Nat) (index value : Script.Value) :
    D.Keeps (D.raises ts) (Bridge.setElement b ts place index value)
      (Bridge.setElement b' ts place index value) fun _ => True :=
  .seq (component_keeps _) fun _ => .seq (coerce_keeps h _ _ _ _) fun _ =>
    .seq (pinned_keeps h _) fun _ => .seq (elementIndex_keeps _ _) fun _ =>
      .of_quiet (.setPin _ _)

theorem arrayLength_keeps (place : Nat) :
    D.Keeps (D.raises ts) (Bridge.arrayLength b ts place) (Bridge.arrayLength b' ts place)
      fun _ => True := by
  refine .quiet (.getProxy place) fun p => ?_
  split
  · exact .pure trivial
  · exact hostCall_keeps h (Contained.arrayLength _).keeps
  · exact .complain _ _

/-! ### Texts -/

theorem showElements_keeps (place : Nat) {shown shown' : Script.Value → BridgeM String}
    (one : ∀ value, D.Keeps (D.raises ts) (shown value) (shown' value) fun _ => True)
    (count : Nat) : ∀ first,
    D.Keeps (D.raises ts) (Bridge.showElements b ts place shown count first)
      (Bridge.showElements b' ts place shown' count first) fun _ => True := by
  induction count with
  | zero => exact fun _ => .pure trivial
  | succ count ih =>
    exact fun first => .seq (getElement_keeps h _ _) fun _ => .seq (one _) fun _ =>
      .seq (ih _) fun _ => .pure trivial

omit h in
/-- The text of something that is not foreign. -/
theorem ownText_keeps (text : Option String) :
    D.Keeps (D.raises ts)
      (match text with
        | some text => Pure.pure text
        | none => Script.giveUp : BridgeM String)
      (match text with
        | some text => Pure.pure text
        | none => Script.giveUp) fun _ => True := by
  cases text with
  | some text => exact .pure trivial
  | none => exact .giveUp

theorem shown_keeps {showArray showArray' : Nat → BridgeM String}
    (array : ∀ place, D.Keeps (D.raises ts) (showArray place) (showArray' place) fun _ => True)
    (value : Script.Value) :
    D.Keeps (D.raises ts) (Bridge.shown b ts showArray value) (Bridge.shown b' ts showArray' value)
      fun _ => True := by
  unfold Bridge.shown
  split
  · refine .quiet (.getProxy _) fun p => ?_
    split
    · exact hostCall_keeps h (toText_keeps h _)
    · exact .getRealm fun _ _ => .pure trivial
    · exact .pure trivial
    · exact array _
  · exact ownText_keeps _

theorem shownWithin_keeps (depth : Nat) : ∀ value : Script.Value,
    D.Keeps (D.raises ts) (Bridge.shownWithin b ts depth value) (Bridge.shownWithin b' ts depth value)
      fun _ => True := by
  induction depth with
  | zero => exact shown_keeps h fun _ => .giveUp
  | succ depth ih =>
    refine shown_keeps h fun place => .seq (arrayLength_keeps h _) fun _ => ?_
    exact .seq (showElements_keeps h _ ih _ _) fun _ => .pure trivial

theorem viewText_keeps (f : Script.Foreign) :
    D.Keeps (D.raises ts) (Bridge.viewText b ts f) (Bridge.viewText b' ts f) fun _ => True :=
  .getRealm fun _ _ => shownWithin_keeps h _ _

theorem printedText_keeps (value : Script.Value) :
    D.Keeps (D.raises ts) (Bridge.printedText b ts value) (Bridge.printedText b' ts value)
      fun _ => True := by
  unfold Bridge.printedText
  split
  · exact viewText_keeps h _
  · exact ownText_keeps _

end Discipline
end ScriptBridge
