import ScriptBridge.Proofs.Discipline.Tokens

/-!
# Errors cross the bridge in good order

A throwable is taken away before any code of the Host may run again, and the error that it becomes
is set last.
-/

namespace ScriptBridge

open Host (ClassId ObjectId Realm Body Thrown HostM BodyM Method)
open Bridge (World State BridgeM Kind Failure)
open Script (InterpreterId Raised Family Exception)

/-! ### Quiet steps on the way -/

namespace Quiet

variable {allowed : Body → Prop} {ε : Type} {ts : InterpreterId}

theorem reportLines (lines : List String) :
    Quiet allowed (Bridge.reportLines lines : EStateM ε World Unit) := by
  induction lines with
  | nil => exact .pure ()
  | cons line rest ih => exact .bind (.reportLine line) fun _ => ih

theorem mappedType? (text : String) :
    Quiet allowed (Bridge.mappedType? ts text : EStateM ε World (Option Script.ErrorType)) := by
  refine .bind .getState fun s => .ite (.pure none) (.bind (.link? ts) fun link => ?_)
  cases link with
  | none => exact .pure none
  | some link =>
    refine .bind (.lookup? _ _) fun found => ?_
    split <;> exact .pure _

theorem errorFor (o : ObjectId) (text : String) :
    Quiet allowed (Bridge.errorFor ts o text : EStateM ε World Exception) := by
  refine .bind .getRealm fun r => ?_
  exact .ite (.pure _) (.bind (.mappedType? text) fun _ => .pure _)

theorem newMappedType (hostClass module : String) :
    Quiet allowed (Bridge.newMappedType hostClass module : EStateM ε World Script.ErrorType) :=
  .bind .getMemory fun _ => .bind (.elsewhere (fun _ => rfl) fun _ => rfl) fun _ => .pure _

theorem registerAll (module : Script.ModuleRef) (names : List String) :
    Quiet allowed (Bridge.registerAll module names : EStateM ε World Unit) := by
  induction names with
  | nil => exact .pure ()
  | cons name rest ih =>
    refine .bind (.lookup? _ _) fun found => ?_
    exact .ite (.bind (.newMappedType _ _) fun _ => .bind (.bindName _ _ _) fun _ => ih) ih

end Quiet

/-- An error that stands for a failure of the bridge has no cause. -/
theorem Bridge.Failure.exception_unmapped (f : Failure) : f.exception.Unmapped := by
  cases f <;> exact .inr rfl

/-- The failure does not name a Host class while it has a throwable as its cause. -/
def Bridge.Failure.Unmapped (f : Failure) : Prop :=
  ∀ kind message c t, f ≠ .script kind message (some c) (some t)

theorem Bridge.Failure.Unmapped.of_cause {f : Failure} (h : f.cause? = none) : f.Unmapped := by
  rintro kind message c t rfl
  cases h

namespace Discipline

variable {C : Course} {D : Discipline C} {ε α β : Type} {Q : α → Prop} {b b' : Host.Bodies World}
  {ts : InterpreterId}

/-! ### Raising -/

/-- An error may be raised over another one. -/
theorem raiseException_raised {e : Exception} (unmapped : e.Unmapped) :
    Agree C (D.raised ts) (Script.raiseException ts e : BridgeM α)
      (Script.raiseException ts e) (fun a w => Q a ∧ D.calm w) (D.raises ts) :=
  fun _ hw => .still rfl (D.raise unmapped hw)

theorem Keeps.raiseException {e : Exception} (unmapped : e.Unmapped) :
    D.Keeps (D.raises ts) (Script.raiseException ts e : BridgeM α) (Script.raiseException ts e) Q :=
  Agree.weaken (raiseException_raised unmapped) (fun _ => D.raised_of_calm) (fun _ _ h => h)
    fun _ _ h => h

theorem Keeps.raise (fault : Script.Fault) :
    D.Keeps (D.raises ts) (Script.raise ts fault : BridgeM α) (Script.raise ts fault) Q :=
  .raiseException (.inr rfl)

theorem Keeps.complain (family : Family) (message : String) :
    D.Keeps (D.raises ts) (Bridge.complain ts family message : BridgeM α)
      (Bridge.complain ts family message) Q :=
  .raiseException (.inr rfl)

theorem Keeps.giveUp :
    D.Keeps (D.raises ts) (Script.giveUp : BridgeM α) Script.giveUp Q :=
  .quiet (.elsewhere (fun _ => rfl) fun _ => rfl) fun _ => Agree.throw fun _ => D.raised_of_calm

theorem Keeps.orRaise {a : Except Script.Fault α} :
    D.Keeps (D.raises ts) (Script.orRaise ts a : BridgeM α) (Script.orRaise ts a)
      fun _ => True := by
  cases a with
  | ok a => exact .pure trivial
  | error fault => exact .raise fault

theorem kindOf_keeps (c : ClassId) :
    D.Keeps (D.raises ts) (Bridge.kindOf ts c) (Bridge.kindOf ts c) fun _ => True := by
  refine .quiet (Mild.classify c).attempt fun found => ?_
  cases found with
  | ok kind => exact .pure trivial
  | error u => exact .raiseException u.failure.exception_unmapped

/-! ### From the Host to a script -/

/-- A throwable that was taken away has been asked for its text last. -/
theorem capture_asked {o : ObjectId} {text : String} {w v : World}
    (captured : (Bridge.capture b ts : EStateM ε World _) w = .ok (some (o, text)) v) :
    ∃ u, (Bridge.throwableText b o : EStateM ε World String) u = .ok text v := by
  obtain ⟨r, w, -, captured⟩ := ok_of_bind captured
  have last : ∀ {throwable : ObjectId} {w : World}, (do
      Host.onRealm (Realm.setPending none)
      return some (throwable, ← Bridge.throwableText b throwable) :
        EStateM ε World (Option (ObjectId × String))) w = .ok (some (o, text)) v →
      ∃ u, (Bridge.throwableText b o : EStateM ε World String) u = .ok text v := by
    intro throwable w captured
    obtain ⟨_, u, -, captured⟩ := ok_of_bind captured
    obtain ⟨said, v, asked, captured⟩ := ok_of_bind captured
    cases captured
    exact ⟨u, asked⟩
  cases pending : r.pending with
  | none =>
    rw [pending] at captured
    cases captured
  | some throwable =>
    rw [pending] at captured
    obtain ⟨link, w, -, captured⟩ := ok_of_bind captured
    dsimp only at captured
    split at captured
    · obtain ⟨lines, w, -, captured⟩ := ok_of_bind captured
      obtain ⟨_, w, -, captured⟩ := ok_of_bind captured
      exact last captured
    · exact last captured

/-- A tried call into the Host. -/
theorem Keeps.tried {err : ε → World → Prop} {call call' : HostM World α}
    {next next' : Except Thrown α → EStateM ε World β} {Q : β → Prop} {P : α → Prop}
    (h : D.Keeps D.throws call call' P)
    (success : ∀ a, P a → D.Keeps err (next (.ok a)) (next' (.ok a)) Q)
    (failure : ∀ e, D.Recovers err (next (.error e)) (next' (.error e)) Q) :
    D.Keeps err (Script.attempt call >>= next) (Script.attempt call' >>= next') Q :=
  .attempt h success failure

theorem quietly_keeps {err : ε → World → Prop} {call call' : HostM World α} {P : α → Prop}
    (called : D.Keeps D.throws call call' P) :
    D.Keeps err (Bridge.quietly call : EStateM ε World (Option α)) (Bridge.quietly call')
      fun found => ∀ a ∈ found, P a :=
  .tried called (fun a ha => .pure (by simpa using ha)) fun _ => .clear (.pure (by simp))

variable (h : D.Bodies b b')

include h

theorem throwableText_keeps {err : ε → World → Prop} (o : ObjectId) :
    D.Keeps err (Bridge.throwableText b o : EStateM ε World String) (Bridge.throwableText b' o)
      fun _ => True :=
  .tried (toText_keeps h o) (fun _ _ => .pure trivial) fun _ => .clear
    (.getRealm fun _ _ => .pure trivial)

/-- The pending throwable is gone when its text is asked for. -/
theorem capture_recovers {err : ε → World → Prop} :
    D.Recovers err (Bridge.capture b ts : EStateM ε World (Option (ObjectId × String)))
      (Bridge.capture b' ts) fun _ => True := by
  refine .getRealm (fun r pending => ?_) fun r o pending => ?_
  · simp only [pending]
    exact .pure trivial
  · simp only [pending]
    have taken : D.Recovers err
        ((do
          Host.onRealm (Realm.setPending none)
          return some (o, ← Bridge.throwableText b o)) :
            EStateM ε World (Option (ObjectId × String)))
        (do
          Host.onRealm (Realm.setPending none)
          return some (o, ← Bridge.throwableText b' o)) fun _ => True :=
      .clear (.map (throwableText_keeps h o) fun _ _ => trivial)
    refine .quiet (.link? ts) fun link => ?_
    split
    · exact .quiet (.onRealm .describe) fun _ => .quiet (.reportLines _) fun _ => taken
    · exact taken

/-- A throwable that was received is the pending error of the script. -/
theorem receiveThrowable_thrown :
    Agree C D.thrown (Bridge.receiveThrowable b ts : BridgeM Bool) (Bridge.receiveThrowable b' ts)
      (fun received w => if received then D.raised ts w else D.calm w) (D.raises ts) := by
  refine Agree.bind (Agree.stepped (capture_recovers h)) fun found => ?_
  cases found with
  | none => exact Agree.pure fun _ hw => hw.1.2
  | some found =>
    rintro w ⟨⟨-, hw⟩, u, captured⟩
    obtain ⟨asked, text⟩ := capture_asked captured
    have quiet : Quiet D.allowed (Bridge.errorFor ts found.1 found.2 : BridgeM Exception) :=
      .errorFor found.1 found.2
    obtain ⟨e, v, made, changed⟩ := quiet w
    dsimp only
    rw [bind_ok made]
    exact .still changed.charted
      (D.receive h.serving text hw made (D.calm_of_background changed hw))

theorem hostCall_keeps {call call' : HostM World α} (called : D.Keeps D.throws call call' Q) :
    D.Keeps (D.raises ts) (Bridge.hostCall b ts call) (Bridge.hostCall b' ts call') Q := by
  refine .tried called (fun a ha => .pure ha) fun e => ?_
  refine Agree.bind (receiveThrowable_thrown h) fun received => ?_
  cases received with
  | true => exact Agree.throw fun _ hw => hw
  | false => exact Keeps.complain _ _

theorem Keeps.hostCall {call : HostM World α} {next next' : α → BridgeM β} {Q : β → Prop}
    (called : Contained D.allowed call)
    (h' : ∀ a, D.Keeps (D.raises ts) (next a) (next' a) Q) :
    D.Keeps (D.raises ts) (Bridge.hostCall b ts call >>= next) (Bridge.hostCall b' ts call >>= next')
      Q :=
  .seq (hostCall_keeps h called.keeps) h'

/-- A throwable that no script receives is taken away. If there is none, nothing happens. -/
theorem pendingFailure?_recovers {err : ε → World → Prop} {kept : World → Prop} :
    Agree C (fun w => D.thrown w ∧ kept w)
      (Bridge.pendingFailure? b : EStateM ε World (Option Failure)) (Bridge.pendingFailure? b')
      (fun failure w => D.calm w ∧ (∀ f ∈ failure, f.Unmapped) ∧ (failure = none → kept w)) err := by
  rintro w ⟨hw, still⟩
  have read : Agree C (fun v => v = w) (Host.getRealm : EStateM ε World Realm) Host.getRealm
      (fun r v => v = w ∧ r = w.outside.realm) err := by
    rintro v rfl
    exact .still rfl ⟨rfl, rfl⟩
  refine Agree.bind read (fun r => ?_) w rfl
  rintro v ⟨rfl, rfl⟩
  cases pending : v.outside.realm.pending with
  | none => exact .still rfl ⟨D.calm_of_thrown hw pending, by simp, fun _ => still⟩
  | some o =>
    have taken : D.Recovers err
        (do
          Host.onRealm (Realm.setPending none)
          let name := (← Host.getRealm).classNameOf o
          return some (.host name (← Bridge.throwableText b o)) : EStateM ε World (Option Failure))
        (do
          Host.onRealm (Realm.setPending none)
          let name := (← Host.getRealm).classNameOf o
          return some (.host name (← Bridge.throwableText b' o)))
        fun failure => ∃ name text, failure = some (.host name text) :=
      .clear (.getRealm fun _ _ => .map (throwableText_keeps h o) fun text _ => ⟨_, text, rfl⟩)
    refine Agree.weaken taken (fun _ hv => hv) ?_ (fun _ _ he => he) v hw
    rintro _ u ⟨⟨name, text, rfl⟩, hu⟩
    refine ⟨hu, fun f made => ?_, nofun⟩
    cases made
    exact nofun

/-! ### Declared exceptions -/

omit h in
theorem registerExceptions_keeps (method : Method) :
    D.Keeps (D.raises ts) (Bridge.registerExceptions ts method)
      (Bridge.registerExceptions ts method) fun _ => True := by
  refine .getState fun s _ => .ite (fun _ => .quiet (.link? ts) fun link => ?_) fun _ =>
    .pure trivial
  cases link with
  | none => exact .pure trivial
  | some link =>
    refine .seq (.mono (quietly_keeps (Contained.findClasses _).keeps) fun _ _ => trivial)
      fun found => ?_
    cases found with
    | none => exact .pure trivial
    | some classes => exact .getRealm fun _ _ => .of_quiet (.registerAll _ _)

/-! ### From a script to the Host -/

theorem throwInto_keeps (f : Failure) :
    D.Keeps D.throws (f.throwInto b : HostM World α) (f.throwInto b') Q :=
  .seq (.contained (Contained.findClass _) fun _ => .contained (Contained.getConstructor _ _)
    fun _ => .quiet (.onRealm (.newText _)) fun _ => newObject_keeps h _ _ _) fun o => .throwObject o

end Discipline
end ScriptBridge
