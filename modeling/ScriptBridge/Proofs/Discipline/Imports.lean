import ScriptBridge.Proofs.Causality.Aftermath
import ScriptBridge.Proofs.Discipline.Attributes

/-!
# Imports keep the discipline

An import entry that finds no module of its own clears the error that says so before it looks into
the Host, and a package that cannot be listed leaves its throwable as the error of the import.
-/

namespace ScriptBridge

open Host (ClassId ObjectId Realm Body HostM Method)
open Bridge (World State BridgeM ContextId)
open Script (InterpreterId Raised ModuleRef Exception)

/-! ### Quiet steps on the way -/

theorem tracked_modifyContext {f : Bridge.Context → Bridge.Context}
    (state : ∀ x, (f x).state = x.state) (loaderRef : ∀ x, (f x).loaderRef = x.loaderRef)
    (closed : ∀ x, (f x).closed = x.closed) (c : ContextId) (s : State) :
    { s with contexts := s.contexts.modify (c.number - 1) f : State }.tracked = s.tracked := by
  refine map_modify (fun x => ?_) _ _
  rw [state, loaderRef, closed]

namespace Quiet

variable {allowed : Body → Prop} {ε : Type} {ts : InterpreterId}

/-- A change of a context that leaves its interpreter, its loader and its end alone. -/
theorem modifyContext {f : Bridge.Context → Bridge.Context} (state : ∀ x, (f x).state = x.state)
    (loaderRef : ∀ x, (f x).loaderRef = x.loaderRef) (closed : ∀ x, (f x).closed = x.closed)
    (c : ContextId) : Quiet allowed (Bridge.modifyContext c f : EStateM ε World Unit) :=
  .remember (fun _ => rfl) (tracked_modifyContext state loaderRef closed c) (fun _ => rfl)
    (fun _ => rfl) (fun _ => rfl) (fun _ _ hn => hn) fun _ hs => { hs with realm := hs.realm }

theorem setLinkPrintStack (c : ContextId) (flag : Bool) :
    Quiet allowed (Bridge.setLinkPrintStack c flag : EStateM ε World Unit) := by
  refine .modifyContext ?_ ?_ ?_ c <;> exact fun _ => rfl

theorem newBridgeModule (name : String) :
    Quiet allowed (Bridge.newBridgeModule name : EStateM ε World ModuleRef) :=
  .bind (.newModule _ _) fun _ => .bind (.bindAll _ _) fun _ => .pure _

theorem installImport : Quiet allowed (Bridge.installImport ts : EStateM ε World Unit) :=
  .bind (.getInterpreter ts) fun _ => .bindName _ _ _

theorem bindClasses (module : ModuleRef) (classes : List (String × ClassId)) :
    Quiet allowed (Bridge.bindClasses module classes) := by
  induction classes with
  | nil => exact .pure ()
  | cons entry rest ih =>
    refine .bind (.lookup? _ _) fun found => ?_
    have bound : Quiet allowed ((do
        Script.bindName module entry.1 (← Bridge.viewClass entry.2)
        Bridge.bindClasses module rest) : BridgeM Unit) :=
      .bind (.viewClass _) fun _ => .bind (.bindName _ _ _) fun _ => ih
    exact .ite bound ih

end Quiet

namespace Discipline

variable {C : Course} {D : Discipline C} {ε α β : Type} {Q : α → Prop} {b b' : Host.Bodies World}
  {ts : InterpreterId}

/-! ### Errors on the way -/

theorem raised_throw (e : Raised) :
    Agree C (D.raised ts) (MonadExcept.throw e : BridgeM α) (MonadExcept.throw e)
      (fun a w => Q a ∧ D.calm w) (D.raises ts) :=
  Agree.throw fun _ hw => hw

/-- A quiet step while an error is pending, which binds no names. -/
theorem raised_quiet {step : BridgeM α} {next next' : α → BridgeM β} {Q : β → Prop}
    (h : Quiet D.allowed step) (tidies : Bridge.Tidies step)
    (h' : ∀ a, Agree C (D.raised ts) (next a) (next' a) (fun b w => Q b ∧ D.calm w) (D.raises ts)) :
    Agree C (D.raised ts) (step >>= next) (step >>= next') (fun b w => Q b ∧ D.calm w)
      (D.raises ts) := by
  have kept : Agree C (D.raised ts) step step (fun _ => D.raised ts) (D.raises ts) := by
    intro w hw
    obtain ⟨a, v, ran, changed⟩ := h w
    obtain ⟨_, _, same, after, -⟩ := tidies w
    rw [ran] at same ⊢
    cases same
    exact .still changed.charted (D.raised_of_background changed after hw)
  exact Agree.bind kept h'

theorem errorIsA_tidies (family : Script.Family) :
    Bridge.Tidies (Script.errorIsA ts family : BridgeM Bool) := fun w => ⟨_, w, rfl, .refl w, rfl⟩

/-- After the pending error is cleared, the script goes on. -/
theorem raised_clear {next next' : Unit → BridgeM β} {Q : β → Prop}
    (h : D.Keeps (D.raises ts) (next ()) (next' ()) Q) :
    Agree C (D.raised ts) (Script.clearError ts >>= next) (Script.clearError ts >>= next')
      (fun b w => Q b ∧ D.calm w) (D.raises ts) := by
  intro w hw
  have rest := h (w.withError ts fun _ => none) (D.clearError hw)
  exact rest.after (C.same rfl)

/-! ### Without the Host -/

theorem nativeImport_keeps (path : String) :
    D.Keeps (D.raises ts) (Script.nativeImport ts path : BridgeM Script.Value)
      (Script.nativeImport ts path) fun _ => True := by
  refine .quiet (.getInterpreter ts) fun i => .quiet .getMemory fun m => ?_
  dsimp only
  split
  · exact .pure trivial
  · refine .quiet (.modifyInterpreter ?_ ts) fun _ => .pure trivial
    exact fun _ => rfl
  · exact .raise _

theorem defaultImport_keeps (args : List Script.Value) :
    D.Keeps (D.raises ts) (Script.defaultImport ts args : BridgeM Script.Value)
      (Script.defaultImport ts args) fun _ => True :=
  .seq .orRaise fun _ => nativeImport_keeps _

theorem nameArgument_keeps (function : String) (args : List Script.Value) :
    D.Keeps (D.raises ts) (Bridge.nameArgument ts function args)
      (Bridge.nameArgument ts function args) fun _ => True := by
  unfold Bridge.nameArgument
  split
  · exact .pure trivial
  · exact .complain _ _

theorem printStack_keeps (args : List Script.Value) :
    D.Keeps (D.raises ts) (Bridge.printStack ts args) (Bridge.printStack ts args)
      fun _ => True := by
  unfold Bridge.printStack
  split
  · refine .quiet (.linkedContext? ts) fun c => ?_
    cases c with
    | some c => exact .quiet (.setLinkPrintStack c _) fun _ => .pure trivial
    | none => exact .quiet (.pure ()) fun _ => .pure trivial
  · exact .complain _ _

/-! ### Packages -/

theorem listingMethod_keeps :
    D.Keeps D.throws (Bridge.listingMethod ts) (Bridge.listingMethod ts)
      (·.Permitted D.allowed) := by
  refine .quiet (.getInterpreter ts) fun i => .getState fun s hs => ?_
  cases known : s.listings.lookup i.runtime with
  | some m =>
    obtain ⟨rt, hm⟩ := mem_of_lookup known
    exact .pure (hs.listings _ hm)
  | none =>
    refine .contained (Contained.findClass _) fun c => .bind (getMethod_keeps _ _ _) fun m hm =>
      .quiet ?_ fun _ => .pure hm
    refine .remember (fun _ => rfl) (fun _ => rfl) (fun _ => rfl) (fun _ => rfl) (fun _ => rfl)
      (fun _ _ hn => hn) fun s hs => { hs with listings := ?_ }
    exact List.forall_mem_cons.2 ⟨hm, hs.listings⟩

theorem namesAmong_contained {allowed : Body → Prop} (items : List Host.Value) :
    Contained allowed (Bridge.namesAmong items) := by
  induction items with
  | nil => exact .pure []
  | cons item rest ih =>
    cases item with
    | ref o => exact .bind (.stringChars o) fun _ => .bind ih fun _ => .pure _
    | _ => exact ih

variable (h : D.Bodies b b')

include h

theorem findClass_keeps (args : List Script.Value) :
    D.Keeps (D.raises ts) (Bridge.findClass b ts args) (Bridge.findClass b' ts args)
      fun _ => True := by
  refine .seq (nameArgument_keeps _ _) fun name => .quiet (.link? ts) fun link => ?_
  cases link with
  | none => exact .complain _ _
  | some link =>
    exact .seq (hostCall_keeps h (loadClass_keeps h _ _)) fun _ => .of_quiet (.viewClass _)

theorem forName_keeps (args : List Script.Value) :
    D.Keeps (D.raises ts) (Bridge.forName b ts args) (Bridge.forName b' ts args)
      fun _ => True :=
  .seq (nameArgument_keeps _ _) fun _ => .hostCall h (Contained.findClass _) fun _ =>
    .of_quiet (.viewClass _)

theorem listMembers_keeps (package : String) :
    D.Keeps D.throws (Bridge.listMembers b ts package) (Bridge.listMembers b' ts package)
      fun _ => True := by
  refine .bind listingMethod_keeps fun m hm => .quiet (.onRealm (.newText _)) fun _ =>
    .seq (callMethod_keeps h _ hm _) fun listed => ?_
  split
  · exact .contained (Contained.arrayElements _) fun _ => (namesAmong_contained _).keeps
  · exact .pure trivial

/-- A throwable that was received is the pending error of the import. -/
theorem receiveImportThrowable_thrown :
    Agree C D.thrown
      (Bridge.receiveImportThrowable b ts : BridgeM Bool)
      (Bridge.receiveImportThrowable b' ts)
      (fun received w => if received then D.raised ts w else D.calm w) (D.raises ts) := by
  refine Agree.bind (capture_recovers h) fun found => ?_
  cases found with
  | none => exact Agree.pure fun _ hw => hw.2
  | some found =>
    exact fun w hw => .still rfl (D.raise (.inl rfl) (D.raised_of_calm hw.2))

theorem membersOrRaise_keeps (package path : String) :
    D.Keeps (D.raises ts) (Bridge.membersOrRaise b ts package path)
      (Bridge.membersOrRaise b' ts package path) fun _ => True := by
  refine .tried (listMembers_keeps h package) (fun _ _ => .pure trivial) fun e => ?_
  refine Agree.bind (receiveImportThrowable_thrown h) fun received => ?_
  cases received with
  | true => exact raised_throw _
  | false => exact Keeps.raiseException (.inr rfl)

theorem loadable_keeps (loader : ObjectId) (names : List String) :
    D.Keeps (D.raises ts) (Bridge.loadable b loader names) (Bridge.loadable b' loader names)
      fun _ => True := by
  induction names with
  | nil => exact .pure trivial
  | cons name rest ih =>
    exact .bind (quietly_keeps (loadClass_keeps h _ _)) fun _ _ => .seq ih fun _ => .pure trivial

theorem listedClass?_keeps (loader : ObjectId) (path : String) :
    D.Keeps (D.raises ts) (Bridge.listedClass? b ts loader path)
      (Bridge.listedClass? b' ts loader path) fun _ => True := by
  unfold Bridge.listedClass?
  split
  · exact .pure trivial
  · refine .seq (membersOrRaise_keeps h _ _) fun members => .ite (fun _ => ?_) fun _ =>
      .pure trivial
    exact .mono (quietly_keeps (loadClass_keeps h _ _)) fun _ _ => trivial

theorem importHostPath_keeps (loader : ObjectId) (path : String)
    (wanted : Option (List String)) :
    D.Keeps (D.raises ts) (Bridge.importHostPath b ts loader path wanted)
      (Bridge.importHostPath b' ts loader path wanted) fun _ => True := by
  refine .seq (membersOrRaise_keeps h _ _) fun members => .seq (loadable_keeps h _ _) ?_
  refine fun found => .ite (fun _ => .seq (listedClass?_keeps h _ _) fun c => ?_) fun _ => ?_
  · cases c with
    | some c => exact .of_quiet (.viewClass c)
    | none => exact .raiseException (.inr rfl)
  · exact .quiet (.moduleOrNew _ _ _) fun _ => .quiet (.bindClasses _ _) fun _ => .pure trivial

theorem importEntry_keeps (args : List Script.Value) :
    D.Keeps (D.raises ts) (Bridge.importEntry b ts args) (Bridge.importEntry b' ts args)
      fun _ => True := by
  refine .attempt (defaultImport_keeps args) (fun _ _ => .pure trivial) fun raised => ?_
  refine raised_quiet (.errorIsA ts _) (errorIsA_tidies _) fun importing => ?_
  cases importing with
  | false => exact raised_throw raised
  | true =>
    refine raised_clear (.seq .orRaise fun path => .quiet (.link? ts) fun link => ?_)
    cases link with
    | none => exact .raiseException (.inr rfl)
    | some link => exact importHostPath_keeps h _ _ _

theorem callExtension_keeps (function : Script.Extension) (args : List Script.Value) :
    D.Keeps (D.raises ts) (Bridge.callExtension b ts function args)
      (Bridge.callExtension b' ts function args) fun _ => True := by
  cases function with
  | importHook => exact importEntry_keeps h args
  | findClass => exact findClass_keeps h args
  | forName => exact forName_keeps h args
  | printStack => exact printStack_keeps args

end Discipline
end ScriptBridge
