import ScriptBridge.Proofs.Discipline.HostCalls

/-!
# Bodies keep the discipline

What methods of the class library, recipes, constructors and methods do, over the bodies that are
given from below. What a body asks of the script side is a parameter.
-/

namespace ScriptBridge

open Host (ClassId ObjectId Realm Body Bodies Thrown Throw HostM BodyM Method LibraryMethod
  Construction Recipe Callback)
open Bridge (World)

theorem Host.Extending.appendElement (array : ObjectId) (value : Host.Value) :
    Host.Extending (Host.appendElement array value) := by
  refine .bind .get fun r => ?_
  split
  · exact .setPayload _ _
  · exact .pure _

namespace Discipline

variable {C : Course} {D : Discipline C} {ε α β : Type} {Q : α → Prop} {b b' : Host.Bodies World}

/-! ### Arguments -/

theorem receiver_keeps (target : Option ObjectId) :
    D.Keeps D.fails (Host.receiver target (ω := World)) (Host.receiver target) fun _ => True := by
  cases target with
  | none => exact .throw (by simp [Host.nullPointer])
  | some o => exact .pure trivial

theorem objectArgument_keeps (args : List Host.Value) (index : Nat) :
    D.Keeps D.fails (Host.objectArgument args index (ω := World)) (Host.objectArgument args index)
      fun _ => True := by
  unfold Host.objectArgument
  split
  · exact .pure trivial
  · exact .throw (by simp [Host.nullPointer])

theorem Keeps.chars (o : ObjectId) :
    D.Keeps D.fails (Host.calling (Host.stringChars o : HostM World String))
      (Host.calling (Host.stringChars o)) fun _ => True :=
  .calling (Contained.stringChars o).keeps

theorem textArgument_keeps (args : List Host.Value) (index : Nat) :
    D.Keeps D.fails (Host.textArgument args index (ω := World)) (Host.textArgument args index)
      fun _ => True :=
  .seq (objectArgument_keeps args index) fun o => .chars o

theorem textResult_keeps (text : String) :
    D.Keeps D.fails (Host.textResult text (ω := World)) (Host.textResult text) fun _ => True :=
  .quiet (.onRealm (.newText text)) fun _ => .pure trivial

theorem narrowed_keeps (target : Host.Primitive) (value : Host.Value) :
    D.Keeps D.fails (Host.narrowed target value (ω := World)) (Host.narrowed target value)
      fun _ => True := by
  unfold Host.narrowed
  split
  · exact .pure trivial
  · exact .throw (by simp)

theorem contents_keeps (read : Host.Payload → Option α) (target : Option ObjectId) :
    D.Keeps D.fails (Host.contents read target (ω := World)) (Host.contents read target)
      fun _ => True := by
  refine .seq (receiver_keeps target) fun o => .getRealm fun r _ => ?_
  split
  · exact .pure trivial
  · exact .throw (by simp [Host.badCast])

theorem wrapped_keeps (target : Option ObjectId) :
    D.Keeps D.fails (Host.wrapped target (ω := World)) (Host.wrapped target) fun _ => True :=
  .seq (receiver_keeps target) fun _ => .getRealm fun _ _ => .pure trivial

theorem placeIn_keeps (index : Int64) (size : Nat) :
    D.Keeps D.fails (Host.placeIn index size (ω := World)) (Host.placeIn index size)
      fun _ => True :=
  .ite (fun _ => .pure trivial) fun _ => .throw (by simp [Host.outOfBounds])

/-! ### Collections -/

theorem texts_keeps (names : List String) :
    D.Keeps D.fails (names.mapM fun name => (Host.textResult name : BodyM World Host.Value))
      (names.mapM fun name => Host.textResult name) fun _ => True := by
  induction names with
  | nil => exact .pure trivial
  | cons name rest ih =>
    rw [List.mapM_cons]
    exact .seq (textResult_keeps name) fun _ => .seq ih fun _ => .pure trivial

section Below

variable (h : D.Bodies b b')

include h

theorem sameItem_keeps (x y : Host.Value) :
    D.Keeps D.fails (Host.sameItem b x y) (Host.sameItem b' x y) fun _ => True := by
  unfold Host.sameItem
  split <;> first
    | exact .calling (sameObjects_keeps h _ _)
    | exact .pure trivial

theorem itemText_keeps (value : Host.Value) :
    D.Keeps D.fails (Host.itemText b value) (Host.itemText b' value) fun _ => True := by
  unfold Host.itemText
  split
  · exact .calling (toText_keeps h _)
  · exact .pure trivial

theorem itemTexts_keeps (items : List Host.Value) :
    D.Keeps D.fails (Host.itemTexts b items) (Host.itemTexts b' items) fun _ => True := by
  induction items with
  | nil => exact .pure trivial
  | cons item rest ih =>
    exact .seq (itemText_keeps h item) fun _ => .seq ih fun _ => .pure trivial

theorem entryTexts_keeps (entries : List (Host.Value × Host.Value)) :
    D.Keeps D.fails (Host.entryTexts b entries) (Host.entryTexts b' entries) fun _ => True := by
  induction entries with
  | nil => exact .pure trivial
  | cons entry rest ih =>
    exact .seq (itemText_keeps h _) fun _ => .seq (itemText_keeps h _) fun _ =>
      .seq ih fun _ => .pure trivial

theorem findItem_keeps (wanted : Host.Value) (items : List Host.Value) : ∀ place : Nat,
    D.Keeps D.fails (Host.findItem b wanted place items) (Host.findItem b' wanted place items)
      fun _ => True := by
  induction items with
  | nil => exact fun _ => .pure trivial
  | cons item rest ih =>
    exact fun place => .seq (sameItem_keeps h _ _) fun _ =>
      .ite (fun _ => .pure trivial) fun _ => ih (place + 1)

theorem slot_keeps (target : Option ObjectId) (key : Host.Value) :
    D.Keeps D.fails (Host.slot b target key) (Host.slot b' target key) fun _ => True :=
  .seq (contents_keeps _ target) fun _ => .seq (findItem_keeps h _ _ 0) fun _ =>
    .seq (contents_keeps _ target) fun _ => .pure trivial

/-! ### The class library -/

theorem library_keeps (method : LibraryMethod) (target : Option ObjectId)
    (args : List Host.Value) :
    D.Keeps D.fails (method.run b target args) (method.run b' target args) fun _ => True := by
  cases method with
  | objectText | throwableText =>
    exact .seq (receiver_keeps target) fun _ => .getRealm fun _ _ => textResult_keeps _
  | objectEquals | objectHash | stringText =>
    exact .seq (receiver_keeps target) fun _ => .pure trivial
  | objectClass =>
    exact .getRealm fun _ _ => .seq (receiver_keeps target) fun _ =>
      .quiet (.onRealm (.mirror _)) fun _ => .pure trivial
  | className | classText =>
    exact .seq (contents_keeps _ target) fun _ => .getRealm fun _ _ => textResult_keeps _
  | classIsArray | classEquals =>
    exact .seq (contents_keeps _ target) fun _ => .getRealm fun _ _ => .pure trivial
  | stringLength | stringIsEmpty =>
    exact .seq (receiver_keeps target) fun o => .seq (.chars o) fun _ => .pure trivial
  | stringCharAt =>
    refine .seq (receiver_keeps target) fun o => .seq (.chars o) fun text => ?_
    refine .ite (fun _ => ?_) fun _ => .throw (by simp)
    split
    · exact .pure trivial
    · exact .throw (by simp)
  | stringUpperCase =>
    exact .seq (receiver_keeps target) fun o => .seq (.chars o) fun _ => textResult_keeps _
  | stringConcat =>
    exact .seq (receiver_keeps target) fun o => .seq (.chars o) fun _ =>
      .seq (textArgument_keeps args 0) fun _ => textResult_keeps _
  | stringEquals | wrapperEquals =>
    exact .seq (receiver_keeps target) fun _ => .getRealm fun _ _ => .pure trivial
  | numberValue p =>
    exact .seq (contents_keeps _ target) fun _ => narrowed_keeps p _
  | wrapperText => exact .seq (wrapped_keeps target) fun _ => textResult_keeps _
  | wrappedBoolean | wrappedChar =>
    exact .seq (wrapped_keeps target) fun _ => narrowed_keeps _ _
  | parseInt =>
    refine .seq (textArgument_keeps args 0) fun text => ?_
    split
    · exact .pure trivial
    · exact .throw (by simp)
  | maxInt | maxLong | maxDouble | absInt => exact .pure trivial
  | throwableMessage =>
    refine .getRealm fun r _ => .seq (receiver_keeps target) fun o => ?_
    split
    · exact textResult_keeps _
    · exact .pure trivial
  | throwableCause =>
    exact .getRealm fun _ _ => .seq (receiver_keeps target) fun _ => .pure trivial
  | loadClass =>
    refine .seq (contents_keeps _ target) fun found => .seq (textArgument_keeps args 0) fun name =>
      .quiet (.onRealm (.lookupClass? name)) fun c => ?_
    split
    · exact .getRealm fun _ _ => .ite
        (fun _ => .quiet (.onRealm (.mirror _)) fun _ => .pure trivial) fun _ => .throw (by simp)
    · exact .throw (by simp)
  | listClasses =>
    exact .seq (textArgument_keeps args 0) fun _ => .getRealm fun _ _ =>
      .seq (texts_keeps _) fun _ => .seq (.calling (Contained.findClass _).keeps) fun _ =>
        .quiet (.onRealm (.newArray _ _)) fun _ => .pure trivial
  | listAdd =>
    exact .seq (contents_keeps _ target) fun _ => .quiet (.onRealm (.setPayload _ _)) fun _ =>
      .pure trivial
  | listGet =>
    exact .seq (contents_keeps _ target) fun _ => .seq (placeIn_keeps _ _) fun _ => .pure trivial
  | listSet =>
    exact .seq (contents_keeps _ target) fun _ => .seq (placeIn_keeps _ _) fun _ =>
      .quiet (.onRealm (.setPayload _ _)) fun _ => .pure trivial
  | listContains | mapContainsKey =>
    exact .seq (contents_keeps _ target) fun _ => .seq (findItem_keeps h _ _ 0) fun _ =>
      .pure trivial
  | listSize | listIsEmpty | mapSize | mapIsEmpty =>
    exact .seq (contents_keeps _ target) fun _ => .pure trivial
  | listText =>
    exact .seq (contents_keeps _ target) fun _ => .seq (itemTexts_keeps h _) fun _ =>
      textResult_keeps _
  | mapGet => exact .seq (slot_keeps h target _) fun _ => .pure trivial
  | mapPut =>
    refine .seq (slot_keeps h target _) fun (found, o, entries) => ?_
    dsimp only
    split
    · exact .quiet (.onRealm (.setPayload _ _)) fun _ => .pure trivial
    · exact .quiet (.onRealm (.setPayload _ _)) fun _ => .pure trivial
  | mapRemove =>
    refine .seq (slot_keeps h target _) fun (found, o, entries) => ?_
    dsimp only
    split
    · exact .quiet (.onRealm (.setPayload _ _)) fun _ => .pure trivial
    · exact .pure trivial
  | mapText =>
    exact .seq (contents_keeps _ target) fun _ => .seq (entryTexts_keeps h _) fun _ =>
      textResult_keeps _

end Below

/-! ### Recipes -/

mutual

theorem make_keeps (h : D.Bodies b b') : ∀ recipe : Recipe,
    D.Keeps D.throws (recipe.make b) (recipe.make b') fun _ => True
  | .plain _ => .pure trivial
  | .string _ => .quiet (.onRealm (.newText _)) fun _ => .pure trivial
  | .boxed recipe => .seq (make_keeps h recipe) fun _ =>
    .quiet (.onRealm (.newBoxed? _)) fun _ => .pure trivial
  | .array _ items => .seq (makeAll_keeps h items) fun _ => .contained (Contained.findClass _) fun _ =>
    .quiet (.onRealm (.newArray _ _)) fun _ => .pure trivial
  | .mirror _ => .contained (Contained.findClass _) fun _ =>
    .quiet (.onRealm (.mirror _)) fun _ => .pure trivial
  | .throwable _ _ none => .quiet (.onRealm (.newThrowable _ _ _)) fun _ => .pure trivial
  | .throwable _ _ (some cause) => .seq (make_keeps h cause) fun _ =>
    .quiet (.onRealm (.newThrowable _ _ _)) fun _ => .pure trivial
  | .object _ _ args => .contained (Contained.findClass _) fun _ =>
    .contained (Contained.getConstructor _ _) fun _ => .seq (makeAll_keeps h args) fun _ =>
      .seq (newObject_keeps h _ _ _) fun _ => .pure trivial
  | .loader _ => .quiet (.onRealm (.newLoader _)) fun _ => .pure trivial
  | .named _ => .getRealm fun _ _ => .pure trivial

theorem makeAll_keeps (h : D.Bodies b b') : ∀ recipes : List Recipe,
    D.Keeps D.throws (Recipe.makeAll b recipes) (Recipe.makeAll b' recipes) fun _ => True
  | [] => .pure trivial
  | recipe :: rest => .seq (make_keeps h recipe) fun _ => .seq (makeAll_keeps h rest) fun _ =>
    .pure trivial

end

/-! ### Constructors and methods -/

theorem throwWith_keeps (h : D.Bodies b b') (name : String) (message : Option String) (cause : Recipe) :
    D.Keeps D.fails (Host.throwWith b name message cause : BodyM World α)
      (Host.throwWith b' name message cause) Q :=
  .seq (.calling (make_keeps h cause)) fun _ => .quiet (.onRealm (.newThrowable _ _ _)) fun _ =>
    .throw (by simp)

theorem messageArgument_keeps (args : List Host.Value) :
    D.Keeps D.fails (Host.messageArgument args (ω := World)) (Host.messageArgument args)
      fun _ => True := by
  unfold Host.messageArgument
  split
  · exact .seq (.chars _) fun _ => .pure trivial
  · exact .pure trivial

section Below

variable (h : D.Bodies b b')

include h

theorem construction_keeps (construction : Construction) (c : ClassId) (args : List Host.Value) :
    D.Keeps D.fails (construction.run b c args) (construction.run b' c args) fun _ => True := by
  cases construction with
  | fields | assigned | describe => exact .getRealm fun _ _ => .pure trivial
  | emptyText | wrapAny | emptyList | emptyMap | «sealed» => exact .pure trivial
  | copyText => exact .seq (textArgument_keeps args 0) fun _ => .pure trivial
  | wrap p => exact .seq (narrowed_keeps p _) fun _ => .pure trivial
  | throwable | causedThrowable => exact .seq (messageArgument_keeps args) fun _ => .pure trivial
  | fail => exact .throw (by simp)
  | failWith => exact throwWith_keeps h _ _ _
  | failPending => exact .throwPending

theorem body_keeps {ask ask' : Callback → BodyM World Host.Value}
    (asked : ∀ request, D.Keeps D.fails (ask request) (ask' request) fun _ => True) {body : Body}
    (permitted : D.allowed body) (target : Option ObjectId) (args : List Host.Value) :
    D.Keeps D.fails (body.run ask b target args) (body.run ask' b' target args) fun _ => True := by
  cases body with
  | library method => exact library_keeps h method target args
  | missing | fail => exact .throw (by simp)
  | constant recipe => exact .calling (make_keeps h recipe)
  | describe => exact .getRealm fun _ _ => textResult_keeps _
  | argument | receiver | sum => exact .pure trivial
  | poke index recipe =>
    exact .seq (objectArgument_keeps args 0) fun _ => .seq (.calling (make_keeps h recipe)) fun _ =>
      .calling (.contained (Contained.arrayElements _) fun _ =>
        .contained (Contained.releaseArrayElements _ _ _) fun _ => .pure trivial)
  | grow name recipe =>
    refine .seq (.calling (make_keeps h recipe)) fun value => .getRealm fun r _ => ?_
    split
    · exact .quiet (.onRealm (.appendElement _ _)) fun _ => .pure trivial
    · exact .pure trivial
  | failWith => exact throwWith_keeps h _ _ _
  | failPending => exact .throwPending
  | leak name message value =>
    refine .seq (.calling (make_keeps h value)) fun v =>
      .seq (.calling (Contained.findClass name).keeps) fun c w hw => .still rfl ⟨trivial, ?_⟩
    have made : Background D.allowed w _ :=
      .of_extends (Host.Extending.allocate c (.throwable (some message) none) w.outside.realm)
    exact D.leaks permitted (D.setPending _ (D.thrown_of_calm (D.calm_of_background made hw)))
  | evaluate | closeContext | closeContexts => exact asked _

end Below
end Discipline
end ScriptBridge
