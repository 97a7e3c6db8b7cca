import ScriptBridge.Bridge.Reclaim
import ScriptBridge.Proofs.Typing.Classification

/-!
# The aftermath of an error

While an error is on its way out, no name is bound and no context changes. Counters go back, lines
are added to the trace, texts are written, and views that nothing refers to any more are retired,
which may store elements of arrays. The Host gets new objects at most.
-/

namespace ScriptBridge.Host

variable {r v : Realm} {c : ClassId} {o : ObjectId}

/-- A throwable of a class, with what has caused it. -/
structure Realm.ThrowableOf (r : Realm) (c : ClassId) (o : ObjectId)
    (cause : Option ObjectId) : Prop where
  held : r.Holds o
  ofClass : r.classIdOf o = c
  payload : ∃ message, r.payload o = .throwable message cause

theorem Realm.ThrowableOf.grows {cause : Option ObjectId} (h : r.ThrowableOf c o cause)
    (grows : r.Grows v) : v.ThrowableOf c o cause := by
  obtain ⟨message, payload⟩ := h.payload
  refine ⟨grows.held o h.held, (grows.objects o h.held).trans h.ofClass, message, ?_⟩
  have kept := grows.payloads o h.held
  rw [payload] at kept
  exact kept

theorem Realm.ThrowableOf.cause? {cause : Option ObjectId} (h : r.ThrowableOf c o cause) :
    r.cause? o = cause := by
  obtain ⟨message, payload⟩ := h.payload
  rw [Realm.cause?, payload]

/-- Only a throwable that exists has a cause. -/
theorem Realm.throwable_of_cause {cause : ObjectId} (caused : r.cause? o = some cause) :
    r.ThrowableOf (r.classIdOf o) o (some cause) := by
  refine ⟨?_, rfl, ?_⟩
  · by_contra missing
    have nothing : r.object o = default := by
      rw [object, Array.getElem?_eq_none (Nat.le_of_not_lt missing), Option.getD_none]
    rw [Realm.cause?, payload, nothing] at caused
    cases caused
  · unfold Realm.cause? at caused
    split at caused
    · rename_i message behind payload
      exact ⟨message, by rw [payload, caused]⟩
    · cases caused

/-- A class whose name is looked up as it stands is not made for a new throwable. -/
theorem Realm.newThrowable_plain {name : String} {found : Option ClassId}
    (looked : Realm.lookupClass? name r = (found, r)) (message : Option String)
    (cause : Option ObjectId) :
    Realm.newThrowable name message cause r =
      Realm.allocate (found.getD (r.require runtimeExceptionName)) (.throwable message cause) r := by
  simp only [newThrowable, Bind.bind, StateT.bind, looked]
  rfl

end ScriptBridge.Host

namespace ScriptBridge.Bridge

open Host (ClassId ObjectId Realm GlobalRef HostM onRealm)
open Script (InterpreterId Interpreter Memory Exception)

variable {ε α β : Type} {w v u : World} {r : Realm} {o : ObjectId} {ts : InterpreterId}

/-- The Host may have got more objects. -/
theorem Aftermath.of_grows (h : w.outside.realm.Grows r) : Aftermath w (w.onRealm r) :=
  ⟨h, rfl, rfl, fun _ => rfl, rfl, rfl, rfl⟩

/-! ### Interpreters -/

theorem interpreter_onInterpreter_self {f : Interpreter → Interpreter} {m : Memory}
    (runs : ts.place < m.interpreters.size) :
    (m.onInterpreter ts f).interpreter ts = f (m.interpreter ts) := by
  simp [Memory.interpreter, Memory.onInterpreter, Array.getElem_modify, runs]

theorem interpreter_onInterpreter_other {other : InterpreterId} {f : Interpreter → Interpreter}
    {m : Memory} (differs : other ≠ ts) :
    (m.onInterpreter ts f).interpreter other = m.interpreter other := by
  have places : ts.place ≠ other.place := by
    intro same
    cases ts
    cases other
    exact differs (by simp_all)
  simp [Memory.interpreter, Memory.onInterpreter, Array.getElem?_modify, places]

/-- There is nothing to change where there is no interpreter. -/
theorem interpreter_missing {m : Memory} (missing : ¬ts.place < m.interpreters.size) :
    m.interpreter ts = default := by
  simp [Memory.interpreter, Array.getElem?_eq_none (Nat.le_of_not_lt missing)]

theorem interpreter_onInterpreter {P : Interpreter → Interpreter → Prop}
    {f : Interpreter → Interpreter} {m : Memory} (same : ∀ i, P i i) (changed : ∀ i, P i (f i))
    (ts other : InterpreterId) :
    P (m.interpreter other) ((m.onInterpreter ts f).interpreter other) := by
  by_cases self : other = ts
  · subst self
    by_cases runs : other.place < m.interpreters.size
    · rw [interpreter_onInterpreter_self runs]
      exact changed _
    · have still : ¬other.place < (m.onInterpreter other f).interpreters.size := by
        rwa [Memory.onInterpreter, Array.size_modify]
      rw [interpreter_missing runs, interpreter_missing still]
      exact same _
  · rw [interpreter_onInterpreter_other self]
    exact same _

/-- An interpreter may change in all but its number. -/
theorem Aftermath.onInterpreter (ts : InterpreterId) {f : Interpreter → Interpreter}
    (number : ∀ i, (f i).number = i.number) (w : World) :
    Aftermath w (w.onMemory (·.onInterpreter ts f)) where
  realm := .refl _
  namespaces := rfl
  interpreters := Array.size_modify
  numbers other :=
    interpreter_onInterpreter (P := fun i j => j.number = i.number) (fun _ => rfl) number ts other
  links := rfl
  contexts := rfl
  mapped := rfl

theorem Aftermath.withError (ts : InterpreterId) (f : Option Exception → Option Exception)
    (w : World) : Aftermath w (w.withError ts f) :=
  .onInterpreter ts (f := fun i => { i with error := f i.error }) (fun _ => rfl) w

/-! ### Retiring views -/

/-- The step succeeds, and interpreters are not touched at all. -/
def Tidies (step : EStateM ε World α) : Prop :=
  ∀ w, ∃ a v, step w = .ok a v ∧ Aftermath w v ∧ v.memory.interpreters = w.memory.interpreters

namespace Tidies

theorem pure (a : α) : Tidies (Pure.pure a : EStateM ε World α) :=
  fun w => ⟨a, w, rfl, .refl w, rfl⟩

theorem bind {step : EStateM ε World α} {next : α → EStateM ε World β} (h : Tidies step)
    (h' : ∀ a, Tidies (next a)) : Tidies (step >>= next) := by
  intro w
  obtain ⟨a, v, ran, after, same⟩ := h w
  obtain ⟨b, u, ran', after', same'⟩ := h' a v
  exact ⟨b, u, (bind_ok ran).trans ran', after.trans after', same'.trans same⟩

theorem getState : Tidies (Bridge.getState : EStateM ε World State) :=
  fun w => ⟨_, w, rfl, .refl w, rfl⟩

theorem getMemory : Tidies (Script.getMemory : EStateM ε World Memory) :=
  fun w => ⟨_, w, rfl, .refl w, rfl⟩

theorem modifyProxy (place : Nat) (f : Proxy → Proxy) :
    Tidies (Bridge.modifyProxy place f : EStateM ε World Unit) :=
  fun _ => ⟨_, _, rfl, ⟨.refl _, rfl, rfl, fun _ => rfl, rfl, rfl, rfl⟩, rfl⟩

theorem getProxy (place : Nat) : Tidies (Bridge.getProxy place : EStateM ε World Proxy) :=
  .bind .getState fun _ => .pure _

theorem deleteGlobalRef (g : GlobalRef) :
    Tidies (onRealm (Realm.deleteGlobalRef g) : EStateM ε World Unit) := by
  refine fun w => ⟨_, _, rfl, .of_grows ?_, rfl⟩
  show w.outside.realm.Grows (if _ then _ else _)
  split
  · exact .of_same rfl rfl rfl rfl rfl fun _ _ known => known
  · exact .refl _

/-- A call whose throwable is of no interest, if it only makes new objects and writes to arrays. -/
theorem quietly {call : HostM World α}
    (grows : ∀ w, ∃ r, World.after (call w) = w.onRealm r ∧ w.outside.realm.Grows r) :
    Tidies (Bridge.quietly call : EStateM ε World (Option α)) := by
  intro w
  obtain ⟨r, reached, grown⟩ := grows w
  unfold Bridge.quietly
  cases called : call w with
  | ok a v =>
    rw [called] at reached
    cases reached
    refine ⟨some a, _, ?_, .of_grows grown, rfl⟩
    simp only [Bind.bind, EStateM.bind, Script.attempt, called]
    rfl
  | error e v =>
    rw [called] at reached
    cases reached
    refine ⟨none, _, ?_, .of_grows (grown.trans (.setPending none r)), rfl⟩
    simp only [Bind.bind, EStateM.bind, Script.attempt, called]
    rfl

end Tidies

/-- A throwable of a class whose name is looked up as it stands is made and becomes pending. -/
theorem throwNew_plain (name : String) {found : Option ClassId}
    (looked : Realm.lookupClass? name w.outside.realm = (found, w.outside.realm))
    (message : Option String) :
    ∃ o r, (Host.throwNew name message : HostM World α) w = .error {} (w.onRealm r) ∧
      w.outside.realm.Grows r ∧ r.pending = some o ∧
      r.ThrowableOf (found.getD (w.outside.realm.require Host.runtimeExceptionName)) o none := by
  have plain := Realm.newThrowable_plain looked message none
  obtain ⟨o, r, made, grows, held, ofClass, payload, -⟩ := Realm.allocated
    (found.getD (w.outside.realm.require Host.runtimeExceptionName)) (.throwable message none)
    w.outside.realm
  refine ⟨o, (Realm.setPending (some o) r).2, ?_, grows.trans (.setPending _ r), rfl,
    held, ofClass, message, payload⟩
  unfold Host.throwNew
  exact bind_ok (onRealm_run (plain.trans made))

/-- Only an array has elements. -/
theorem arrayElements_cases (o : ObjectId) (w : World) :
    (∃ stored, w.outside.realm.payload o = .array stored ∧
      (Host.arrayElements o : HostM World _) w = .ok stored w) ∨
    ∃ r, (Host.arrayElements o : HostM World _) w = .error {} (w.onRealm r) ∧
      w.outside.realm.Grows r := by
  unfold Host.arrayElements
  rw [bind_ok (getRealm_run w)]
  cases payload : w.outside.realm.payload o with
  | array stored => exact .inl ⟨stored, rfl, rfl⟩
  | _ =>
    obtain ⟨-, r, thrown, grows, -, -⟩ := throwNew_plain (α := List Host.Value) (w := w)
      "java.lang.IllegalArgumentException" rfl (some "Argument is not an array")
    exact .inr ⟨r, thrown, grows⟩

theorem releaseArrayElements_grows (o : ObjectId) (items : List Host.Value) (commit : Bool)
    (w : World) :
    ∃ r, World.after ((Host.releaseArrayElements o items commit : HostM World Unit) w) =
      w.onRealm r ∧ w.outside.realm.Grows r := by
  unfold Host.releaseArrayElements Host.arrayLength
  rcases arrayElements_cases o w with ⟨stored, payload, read⟩ | ⟨r, thrown, grows⟩
  · have length : (do return (← Host.arrayElements o).length : HostM World Nat) w =
        .ok stored.length w := bind_ok read
    rw [bind_ok length]
    by_cases commits : commit = true
    · rw [if_pos commits]
      by_cases same : stored.length = items.length
      · rw [if_pos same]
        refine ⟨_, rfl, .setPayload ?_⟩
        rw [payload]
        exact same.symm
      · rw [if_neg same]
        obtain ⟨-, r, thrown, grows, -, -⟩ := throwNew_plain (α := Unit) (w := w)
          "java.lang.IndexOutOfBoundsException" rfl
          (some "array length changed while pinned")
        exact ⟨r, congrArg World.after thrown, grows⟩
    · rw [if_neg commits]
      exact ⟨_, rfl, .refl _⟩
  · have failed : (do return (← Host.arrayElements o).length : HostM World Nat) w =
        .error {} (w.onRealm r) := bind_error thrown
    rw [bind_error failed]
    exact ⟨r, rfl, grows⟩

namespace Tidies

theorem setPin (place : Nat) (pin : Option Pin) :
    Tidies (Bridge.setPin place pin : EStateM ε World Unit) := .modifyProxy place _

theorem takePin (place : Nat) : Tidies (Bridge.takePin place : EStateM ε World _) := by
  refine .bind (.getProxy place) fun p => ?_
  split
  · exact .bind (.setPin place none) fun _ => .pure _
  · exact .pure _

/-- Drops the reference of a view, if it has one. -/
theorem dropHeld (place : Nat) :
    Tidies ((do
      match (← Bridge.getProxy place).held with
      | none => Pure.pure ()
      | some g =>
        onRealm (Realm.deleteGlobalRef g)
        Bridge.modifyProxy place fun p => { p with held := none }) : EStateM ε World Unit) := by
  refine .bind (.getProxy place) fun p => ?_
  cases p.held with
  | none => exact .pure _
  | some g => exact .bind (.deleteGlobalRef g) fun _ => .modifyProxy place _

theorem retire (place : Nat) : Tidies (Bridge.retire place : EStateM ε World Unit) := by
  refine .bind (.takePin place) fun pin => ?_
  cases pin with
  | none => exact dropHeld place
  | some pin =>
    exact .bind (.quietly (releaseArrayElements_grows _ _ _)) fun _ => dropHeld place

theorem retireAll (places : List Nat) : Tidies (Bridge.retireAll places : EStateM ε World Unit) := by
  induction places with
  | nil => exact .pure ()
  | cons place rest ih => exact .bind (.retire place) fun _ => ih

theorem reclaim (all : Bool) : Tidies (Bridge.reclaim all : EStateM ε World Unit) := by
  refine .bind .getState fun s => .bind .getMemory fun m => ?_
  have settled : Tidies
      (Script.modifyMemory fun m => { m with released := [] } : EStateM ε World Unit) :=
    fun _ => ⟨_, _, rfl, .of_memory rfl rfl, rfl⟩
  split
  · exact .bind (retireAll _) fun _ => settled
  · exact settled

end Tidies
end ScriptBridge.Bridge
