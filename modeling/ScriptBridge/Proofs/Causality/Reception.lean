import ScriptBridge.Proofs.Causality.HandingOn

/-!
# Receiving a throwable

A throwable that a call of the Host has left becomes an error of the script with the throwable as
its cause. Its type is the general one, or one that stands for a class of the Host; as long as no
script has put a type of its own into the bridge module of the context, none of them belongs to a
family whose errors leave without a cause.
-/

namespace ScriptBridge.Script

/-- A type that an error may have which a throwable has caused. -/
def ErrorType.OfThrowable (t : ErrorType) : Prop :=
  t = .builtin .runtime ∨
    ∃ serial hostClass module, t = .mapped serial hostClass module (.builtin .runtime)

/-- Errors of throwables are errors at run time, and no others. -/
theorem ErrorType.OfThrowable.isA {t : ErrorType} (h : t.OfThrowable) (family : Family) :
    t.isA family = (family == .runtime || family == .exception) := by
  rcases h with rfl | ⟨serial, hostClass, module, rfl⟩ <;> cases family <;> rfl

end ScriptBridge.Script

namespace ScriptBridge.Bridge

open Host (ObjectId Realm HostM Bodies onRealm)
open Script (InterpreterId Exception ErrorType ModuleRef)

variable {ε α : Type} {w v u : World} {ts : InterpreterId} {o : ObjectId}

/-- An error that a throwable has caused leaves as an error of the script, with its cause. -/
theorem Failure.ofException_caused {e : Exception} (type : e.type.OfThrowable)
    (plain : e.detail = none) :
    Failure.ofException e = .script e.type.qualifiedName e.render e.type.hostClass? e.cause := by
  have parsing : e.isA .parsing = false := type.isA .parsing
  have memory : e.isA .memory = false := type.isA .memory
  have importing : e.isA .importing = false := type.isA .importing
  simp [Failure.ofException, parsing, memory, importing, plain]

/-! ### The bridge module -/

/-- The link of the context that an interpreter belongs to. -/
def World.linkOf (w : World) (ts : InterpreterId) : Option Link :=
  (w.outside.links.lookup (w.memory.interpreter ts).number).map fun c => (w.outside.context c).link

theorem link?_run (ts : InterpreterId) (w : World) :
    (link? ts : EStateM ε World (Option Link)) w = .ok (w.linkOf ts) w := rfl

/-- The error types of the module all stand for classes of the Host. -/
def World.Unspoiled (w : World) (module : ModuleRef) : Prop :=
  ∀ name type, (w.memory.namespaceOf module).get? name = some (.errorType type) → type.OfThrowable

/-- The bridge module of an interpreter's context is as the bridge has made it. -/
def World.Unassigned (w : World) (ts : InterpreterId) : Prop :=
  ∀ link, w.linkOf ts = some link → w.Unspoiled link.bridgeModule

theorem Aftermath.linkOf (h : Aftermath w v) (ts : InterpreterId) : v.linkOf ts = w.linkOf ts := by
  simp only [World.linkOf, h.links, h.numbers, State.context, h.contexts]

theorem World.Unassigned.aftermath (h : w.Unassigned ts) (later : Aftermath w v) :
    v.Unassigned ts := by
  intro link linked name type bound
  rw [later.linkOf ts] at linked
  rw [Script.Memory.namespaceOf, later.namespaces] at bound
  exact h link linked name type bound

/-- The bridge module of the interpreter's context has the error type under the simple name that
the text begins with. -/
def World.Finds (w : World) (ts : InterpreterId) (text : String) (type : ErrorType) : Prop :=
  ∃ link, w.linkOf ts = some link ∧
    (w.memory.namespaceOf link.bridgeModule).get? (namedBy text) = some (.errorType type)

theorem World.Finds.aftermath {type : ErrorType} {text : String} (h : w.Finds ts text type)
    (later : Aftermath w v) : v.Finds ts text type := by
  obtain ⟨link, linked, bound⟩ := h
  refine ⟨link, (later.linkOf ts).trans linked, ?_⟩
  rw [Script.Memory.namespaceOf, later.namespaces]
  exact bound

/-- A throwable is mapped to the type that its text leads to. -/
theorem mappedType?_finds (ts : InterpreterId) (text : String) (w : World) :
    ∃ found, (mappedType? ts text : EStateM ε World _) w = .ok found w ∧
      ∀ type ∈ found, w.Finds ts text type := by
  have unknown : ∀ type ∈ (none : Option ErrorType), w.Finds ts text type := fun _ h => by cases h
  have state : (getState : EStateM ε World State) w = .ok w.outside w := rfl
  unfold mappedType?
  rw [bind_ok state]
  by_cases off : (!w.outside.mapped) = true
  · rw [if_pos off]
    exact ⟨none, rfl, unknown⟩
  rw [if_neg off, bind_ok (link?_run ts w)]
  cases linked : w.linkOf ts with
  | none => exact ⟨none, rfl, unknown⟩
  | some link =>
    have read : (Script.lookup? link.bridgeModule (namedBy text) : EStateM ε World _) w =
        .ok ((w.memory.namespaceOf link.bridgeModule).get? (namedBy text)) w := rfl
    dsimp only
    rw [bind_ok read]
    cases bound : (w.memory.namespaceOf link.bridgeModule).get? (namedBy text) with
    | none => exact ⟨none, rfl, unknown⟩
    | some value =>
      cases value with
      | errorType type =>
        refine ⟨some type, rfl, fun other found => ?_⟩
        cases found
        exact ⟨link, linked, bound⟩
      | _ => exact ⟨none, rfl, unknown⟩

/-- The type that a throwable is mapped to stands for a class of the Host. -/
theorem mappedType?_run (unassigned : w.Unassigned ts) (text : String) :
    ∃ found, (mappedType? ts text : EStateM ε World _) w = .ok found w ∧
      ∀ type ∈ found, type.OfThrowable := by
  obtain ⟨found, ran, finds⟩ := mappedType?_finds (ε := ε) ts text w
  refine ⟨found, ran, fun type known => ?_⟩
  obtain ⟨link, linked, bound⟩ := finds type known
  exact unassigned link linked _ type bound

/-- Any throwable but the one of an exhausted memory becomes an error that it is the cause of. -/
theorem errorFor_run (unassigned : w.Unassigned ts) (text : String)
    (memory : w.outside.realm.classNameOf o ≠ "java.lang.OutOfMemoryError") :
    ∃ type : ErrorType, (errorFor ts o text : EStateM ε World Exception) w =
        .ok { type, message := some text, cause := some o } w ∧ type.OfThrowable := by
  obtain ⟨found, ran, standing⟩ := mappedType?_run (ε := ε) unassigned text
  unfold errorFor
  rw [bind_ok (getRealm_run w)]
  simp only [if_neg memory]
  refine ⟨found.getD (.builtin .runtime), bind_ok ran, ?_⟩
  cases found with
  | none => exact .inl rfl
  | some type => exact standing type rfl

/-! ### Taking a throwable away -/

theorem Tidies.reportLines (lines : List String) :
    Tidies (Bridge.reportLines lines : EStateM ε World Unit) := by
  induction lines with
  | nil => exact .pure ()
  | cons line rest ih =>
    exact .bind (fun _ => ⟨_, _, rfl, .of_memory rfl rfl, rfl⟩) fun _ => ih

theorem Tidies.describe : Tidies (onRealm Realm.describe : EStateM ε World (List String)) := by
  refine fun w => ⟨_, _, rfl, .of_grows ?_, rfl⟩
  show w.outside.realm.Grows (Realm.describe w.outside.realm).2
  simp only [Realm.describe, Bind.bind, StateT.bind, MonadState.get, getThe, MonadStateOf.get,
    StateT.get, Pure.pure]
  cases w.outside.realm.pending with
  | none => exact .refl _
  | some throwable => exact .of_same rfl rfl rfl rfl rfl fun _ _ known => known

/-- A throwable that is pending is described, if the context wants it, and taken away before it is
asked for its text. -/
theorem capture_run (bodies : Bodies World) (ts : InterpreterId)
    (pending : w.outside.realm.pending = some o) :
    ∃ v, Aftermath w v ∧ (capture bodies ts : EStateM ε World _) w =
      (do return some (o, ← throwableText bodies o)) v := by
  unfold capture
  rw [bind_ok (getRealm_run w)]
  simp only [pending]
  rw [bind_ok (link?_run ts w)]
  have taken : ∀ x : World, (onRealm (Realm.setPending none) : EStateM ε World Unit) x =
      .ok () (x.onRealm (Realm.setPending none x.outside.realm).2) := fun _ => rfl
  have after : ∀ x : World, Aftermath x (x.onRealm (Realm.setPending none x.outside.realm).2) :=
    fun x => .of_grows (.setPending none _)
  by_cases wanted : ((w.linkOf ts).map (·.printStack)).getD false = true
  · rw [if_pos wanted]
    obtain ⟨lines, x, described, first, -⟩ := Tidies.describe (ε := ε) w
    obtain ⟨_, y, written, second, -⟩ := Tidies.reportLines (ε := ε) lines x
    refine ⟨_, (first.trans second).trans (after y), ?_⟩
    rw [bind_ok described]
    exact (bind_ok written).trans (bind_ok (taken y))
  · rw [if_neg wanted]
    exact ⟨_, after w, bind_ok (taken w)⟩

/-- There is always a text. -/
theorem throwableText_total (bodies : Bodies World) (o : ObjectId) (w : World) :
    ∃ text v, (throwableText bodies o : EStateM ε World String) w = .ok text v := by
  unfold throwableText
  cases asked : Host.toText bodies o w with
  | ok text v => exact ⟨text, v, bind_ok (attempt_ok asked)⟩
  | error e v => exact ⟨_, _, bind_ok (attempt_error asked)⟩

theorem capture_total (bodies : Bodies World) (ts : InterpreterId)
    (pending : w.outside.realm.pending = some o) :
    ∃ text v, (capture bodies ts : EStateM ε World _) w = .ok (some (o, text)) v := by
  obtain ⟨v, -, captured⟩ := capture_run (ε := ε) bodies ts pending
  obtain ⟨text, u, asked⟩ := throwableText_total (ε := ε) bodies o v
  exact ⟨text, u, captured.trans (bind_ok asked)⟩

/-- What a call leaves that has thrown: the throwable is the cause of the pending error. -/
theorem hostCall_throws {bodies : Bodies World} {call : HostM World α} {text : String}
    (thrown : call w = .error {} v)
    (captured : (capture bodies ts : BridgeM _) v = .ok (some (o, text)) u)
    (unassigned : u.Unassigned ts)
    (memory : u.outside.realm.classNameOf o ≠ "java.lang.OutOfMemoryError") :
    ∃ type : ErrorType, type.OfThrowable ∧ hostCall bodies ts call w =
      .error {} (u.withError ts fun _ => some { type, message := some text, cause := some o }) := by
  obtain ⟨type, made, standing⟩ := errorFor_run (ε := Script.Raised) unassigned text memory
  refine ⟨type, standing, ?_⟩
  have received : (receiveThrowable bodies ts : BridgeM Bool) v =
      .ok true (u.withError ts fun _ => some { type, message := some text, cause := some o }) := by
    unfold receiveThrowable
    rw [bind_ok captured]
    exact bind_ok made
  unfold hostCall
  rw [bind_ok (attempt_error thrown)]
  exact bind_ok received

/-! ### Leaving a script -/

/-- The pending error is taken away as a failure, maybe after its trace was written. -/
theorem takeFailure?_run {e : Exception} (pending : (w.memory.interpreter ts).error = some e)
    (printStack : Bool) :
    ∃ v, (takeFailure? ts printStack : EStateM ε World _) w = .ok (some (.ofException e)) v ∧
      Aftermath w v := by
  have taken : (Script.takeError ts : EStateM ε World (Option Exception)) w =
      .ok (some e) (w.withError ts fun _ => none) := by
    rw [← pending]
    rfl
  have cleared := Aftermath.withError ts (fun _ => none) w
  unfold takeFailure?
  rw [bind_ok taken]
  cases printStack with
  | false => exact ⟨_, rfl, cleared⟩
  | true => exact ⟨_, rfl, cleared.trans (.of_memory rfl rfl)⟩

end ScriptBridge.Bridge
