import ScriptBridge.Proofs.Discipline.Agreement

/-!
# Calls into the Host keep the discipline

A call agrees with the same call over other bodies if the bodies agree. A failing call leaves a
throwable, a failing body either leaves one or says which one to make.
-/

namespace ScriptBridge

open Host (ClassId ObjectId Realm Body Bodies Thrown Throw HostM BodyM Method)
open Bridge (World)

variable {C : Course} {D : Discipline C} {ε α β : Type} {Q : α → Prop}

/-- The bodies do the same in calm states, and keep the discipline. -/
structure Discipline.Bodies (D : Discipline C) (b b' : Host.Bodies World) : Prop where
  serving : D.serving b
  method : ∀ body, D.allowed body → ∀ target args,
    D.Keeps D.fails (b.method body target args) (b'.method body target args) fun _ => True
  construct : ∀ construction c args,
    D.Keeps D.fails (b.construct construction c args) (b'.construct construction c args)
      fun _ => True

/-! ### Methods of the realm -/

namespace Host

theorem mem_of_mem_firstOfEach {same : α → α → Bool} {members : List α} {m : α}
    (h : m ∈ firstOfEach same members) : m ∈ members := by
  have all : ∀ (rest seen : List α),
      m ∈ rest.foldl (fun seen m => if seen.any (same · m) then seen else seen ++ [m]) seen →
      m ∈ seen ∨ m ∈ rest := by
    intro rest
    induction rest with
    | nil => exact fun seen hm => .inl hm
    | cons first rest ih =>
      intro seen hm
      rcases ih _ hm with hm | hm
      · dsimp only at hm
        split at hm
        · exact .inl hm
        · rcases List.mem_append.1 hm with hm | hm
          · exact .inl hm
          · exact .inr (List.mem_cons.2 (.inl (List.mem_singleton.1 hm)))
      · exact .inr (List.mem_cons_of_mem _ hm)
  simpa using all members [] h

variable {allowed : Body → Prop} {r : Realm}

theorem Realm.Permitted.methods (h : r.Permitted allowed) {c : ClassId} {m : Method}
    (hm : m ∈ r.methods c) : m.Permitted allowed := by
  obtain ⟨d, _, hd⟩ := List.mem_flatMap.1 (mem_of_mem_firstOfEach hm)
  exact h d m hd

theorem Realm.Permitted.resolveVirtual (h : r.Permitted allowed) (c : ClassId) {m : Method}
    (hm : m.Permitted allowed) : (r.resolveVirtual c m).Permitted allowed := by
  unfold Realm.resolveVirtual
  cases found : (r.methods c).find? fun n => n.sameSignature m && !n.isStatic with
  | none => exact hm
  | some n => exact h.methods (List.mem_of_find?_eq_some found)

end Host

/-! ### Failing -/

namespace Contained

variable {allowed : Body → Prop}

theorem keeps {call : HostM World α} (h : Contained D.allowed call) :
    D.Keeps D.throws call call fun _ => True := by
  intro w hw
  have called := h w
  cases hm : call w with
  | ok a w' =>
    rw [hm] at called
    exact .still called.charted ⟨trivial, D.calm_of_background called hw⟩
  | error e w' =>
    rw [hm] at called
    refine .still called.charted ?_
    have hushed : D.thrown w'.hushed := D.thrown_of_calm (D.calm_of_background called hw)
    show D.thrown w'
    cases pending : w'.outside.realm.pending with
    | none =>
      have same : w'.hushed = w' := by
        rw [Bridge.World.hushed, ← pending]
      rwa [same] at hushed
    | some o =>
      have same : w'.hushed.withPending o = w' := by
        rw [Bridge.World.withPending, Bridge.World.hushed, ← pending]
      exact same ▸ D.setPending o hushed

theorem throwObject (o : ObjectId) : Contained allowed (Host.throwObject o : HostM World α) :=
  fun w => .hush w

theorem badArgument (message : String) :
    Contained allowed (Host.badArgument message : HostM World α) :=
  throwNew _ _

theorem quiet {call : HostM World α} {next : α → HostM World β} (h : Quiet allowed call)
    (h' : ∀ a, Contained allowed (next a)) : Contained allowed (call >>= next) :=
  .bind (.of_quiet h) h'

theorem pure (a : α) : Contained allowed (Pure.pure a : HostM World α) := .of_quiet (.pure a)

/-! ### Classes, members and fields -/

theorem findClass (name : String) : Contained allowed (Host.findClass name (ω := World)) := by
  refine .quiet (.onRealm (.lookupClass? name)) fun found => ?_
  cases found with
  | none => exact throwNew _ _
  | some c => exact .pure c

theorem findClasses (names : List String) :
    Contained allowed (Host.findClasses names (ω := World)) := by
  induction names with
  | nil => exact .pure []
  | cons name rest ih => exact .bind (findClass name) fun _ => .bind ih fun _ => .pure _

theorem findMember (candidates : List Method) (c : ClassId) (name : String)
    (params : List String) :
    Contained allowed (Host.findMember candidates c name params (ω := World)) := by
  unfold Host.findMember
  split
  · exact .pure _
  · exact .quiet .getRealm fun _ => throwNew _ _

theorem getConstructor (c : ClassId) (params : List String) :
    Contained allowed (Host.getConstructor c params (ω := World)) :=
  .quiet .getRealm fun _ => findMember _ _ _ _

theorem fieldsOf (target : Option ObjectId) (field : Host.Field) :
    Contained allowed (Host.fieldsOf target field (ω := World)) := by
  unfold Host.fieldsOf
  cases target with
  | none => exact throwNew _ _
  | some o =>
    refine .quiet .getRealm fun r => ?_
    split
    · exact .pure _
    · exact badArgument _

theorem getField (target : Option ObjectId) (field : Host.Field) :
    Contained allowed (Host.getField target field (ω := World)) := by
  unfold Host.getField
  split
  · exact .quiet .getRealm fun _ => .pure _
  · exact .bind (fieldsOf target field) fun _ => .pure _

theorem setField (target : Option ObjectId) (field : Host.Field) (value : Host.Value) :
    Contained allowed (Host.setField target field value (ω := World)) := by
  unfold Host.setField
  split
  · exact .of_quiet (.onRealm (.setStatic _ _))
  · exact .bind (fieldsOf target field) fun _ => .of_quiet (.onRealm (.setPayload _ _))

theorem stringChars (o : ObjectId) : Contained allowed (Host.stringChars o (ω := World)) := by
  refine .quiet .getRealm fun r => ?_
  split
  · exact .pure _
  · exact throwNew _ _

theorem arrayLength (o : ObjectId) : Contained allowed (Host.arrayLength o (ω := World)) :=
  .bind (arrayElements o) fun _ => .pure _

end Contained

/-! ### Calls -/

namespace Discipline

variable {b b' : Host.Bodies World} {P : α → Prop}

/-- What follows on a step that leaves at most a throwable. -/
theorem Keeps.contained {call : HostM World α} {next next' : α → HostM World β} {Q : β → Prop}
    (h : Contained D.allowed call) (h' : ∀ a, D.Keeps D.throws (next a) (next' a) Q) :
    D.Keeps D.throws (call >>= next) (call >>= next') Q :=
  .seq h.keeps h'

theorem Keeps.throwObject (o : ObjectId) :
    D.Keeps D.throws (Host.throwObject o : HostM World α) (Host.throwObject o) Q :=
  fun _ hw => .still rfl (D.setPending o (D.thrown_of_calm hw))

theorem Keeps.throwNew (name : String) (message : Option String) :
    D.Keeps D.throws (Host.throwNew name message : HostM World α) (Host.throwNew name message) Q :=
  .quiet (.onRealm (.newThrowable _ _ _)) fun o => .throwObject o

theorem Keeps.badArgument (message : String) :
    D.Keeps D.throws (Host.badArgument message : HostM World α) (Host.badArgument message) Q :=
  .throwNew _ _

/-- The failure of a body becomes a pending throwable. -/
theorem raise_fails (failure : Throw) :
    Agree C (D.fails failure) (Host.raise failure : HostM World α) (Host.raise failure)
      (fun a w => Q a ∧ D.calm w) D.throws := by
  cases failure with
  | new name message => exact Keeps.throwNew name message
  | object o => exact Keeps.throwObject o
  | pending =>
    intro w hw
    have step : (Host.raise .pending : HostM World α) w =
        (if w.outside.realm.pending.isSome then MonadExcept.throw {}
          else Host.throwNew Host.runtimeExceptionName
            (some "method failed without a pending exception")) w := rfl
    rw [step]
    by_cases pending : w.outside.realm.pending.isSome
    · rw [if_pos pending]
      exact .still rfl hw
    · rw [if_neg pending]
      exact Keeps.throwNew (Q := Q) _ _ w (D.calm_of_thrown hw (by simpa using pending))

theorem Keeps.running {body body' : BodyM World α} (h : D.Keeps D.fails body body' Q) :
    D.Keeps D.throws (Host.running body) (Host.running body') Q := by
  intro w hw
  obtain ⟨same, onward, reached⟩ := h w hw
  simp only [Host.running]
  cases hm : body w with
  | ok a w' =>
    rw [hm] at same onward reached
    exact ⟨fun left => by rw [← same left], onward, reached⟩
  | error failure w' =>
    rw [hm] at same onward reached
    have raised := raise_fails (Q := Q) failure w' reached
    refine ⟨fun left => ?_, C.trans onward raised.onward, raised.reached⟩
    rw [← same (left ∘ C.gone raised.onward)]

theorem Keeps.calling {call call' : HostM World α} (h : D.Keeps D.throws call call' Q) :
    D.Keeps D.fails (Host.calling call) (Host.calling call') Q := by
  intro w hw
  obtain ⟨same, onward, reached⟩ := h w hw
  simp only [Host.calling]
  cases hm : call w with
  | ok a w' =>
    rw [hm] at same onward reached
    exact ⟨fun left => by rw [← same left], onward, reached⟩
  | error e w' =>
    rw [hm] at same onward reached
    exact ⟨fun left => by rw [← same left], onward, reached⟩

/-- A body that says which throwable to make. -/
theorem Keeps.throw {failure : Throw} (h : failure ≠ .pending) :
    D.Keeps D.fails (MonadExcept.throw failure : BodyM World α) (MonadExcept.throw failure) Q := by
  refine Agree.throw fun w hw => ?_
  cases failure with
  | pending => exact absurd rfl h
  | new | object => exact hw

theorem Keeps.throwPending :
    D.Keeps D.fails (MonadExcept.throw Throw.pending : BodyM World α) (MonadExcept.throw .pending)
      Q :=
  Agree.throw fun _ hw => D.thrown_of_calm hw

theorem getMethod_keeps (c : ClassId) (name : String) (params : List String) :
    D.Keeps D.throws (Host.getMethod c name params) (Host.getMethod c name params)
      (·.Permitted D.allowed) := by
  refine .getRealm fun r hr => ?_
  unfold Host.findMember
  split
  · rename_i m found
    exact .pure (hr.methods (List.mem_of_find?_eq_some found))
  · exact .quiet .getRealm fun _ => .throwNew _ _

variable (h : D.Bodies b b')

include h

theorem runChosen_keeps (chosen : Option ObjectId × Method)
    (permitted : chosen.2.Permitted D.allowed) (args : List Host.Value) :
    D.Keeps D.throws
      (match chosen.2.body with
        | .inl body => Host.running (b.method body chosen.1 args)
        | .inr _ => Host.badArgument "constructors are invoked through new_object")
      (match chosen.2.body with
        | .inl body => Host.running (b'.method body chosen.1 args)
        | .inr _ => Host.badArgument "constructors are invoked through new_object")
      fun _ => True := by
  cases body : chosen.2.body with
  | inl body' => exact .running (h.method body' (permitted body' body) _ _)
  | inr => exact .badArgument _

theorem callMethod_keeps (target : Option ObjectId) {method : Method}
    (hm : method.Permitted D.allowed) (args : List Host.Value) :
    D.Keeps D.throws (Host.callMethod b target method args) (Host.callMethod b' target method args)
      fun _ => True := by
  refine .ite (fun _ => .abort (.badArgument _)) fun _ => .ite (fun _ =>
    runChosen_keeps h (none, method) hm args) ?_
  intro _
  cases target with
  | none => exact .abort (.throwNew _ _)
  | some o => exact .getRealm fun r hr => runChosen_keeps h _ (hr.resolveVirtual _ hm) args

theorem newObject_keeps (c : ClassId) (constructor : Method) (args : List Host.Value) :
    D.Keeps D.throws (Host.newObject b c constructor args) (Host.newObject b' c constructor args)
      fun _ => True := by
  refine .getRealm fun r _ => .ite (fun _ => .abort (.throwNew _ _)) fun _ =>
    .ite (fun _ => .abort (.badArgument _)) fun _ => ?_
  cases constructor.body with
  | inl => exact .badArgument _
  | inr construction =>
    exact .seq (.running (h.construct construction c args)) fun _ =>
      .of_quiet (.onRealm (.allocate _ _))

theorem toText_keeps (o : ObjectId) :
    D.Keeps D.throws (Host.toText b o) (Host.toText b' o) fun _ => True := by
  refine .getRealm fun r _ => ?_
  cases r.text? o with
  | some text => exact .pure trivial
  | none =>
    refine .bind (getMethod_keeps _ _ _) fun method hm =>
      .seq (callMethod_keeps h _ hm _) fun found => ?_
    split
    · exact (Contained.stringChars _).keeps
    · exact .pure trivial

theorem sameObjects_keeps (o p : ObjectId) :
    D.Keeps D.throws (Host.sameObjects b o p) (Host.sameObjects b' o p) fun _ => True := by
  refine .getRealm fun r _ => .bind (getMethod_keeps _ _ _) fun method hm =>
    .seq (callMethod_keeps h _ hm _) fun found => ?_
  split
  · exact .pure trivial
  · exact .pure trivial

end Discipline
end ScriptBridge
