import ScriptBridge.Proofs.Discipline.Views

/-!
# Disciplines

A discipline says in which states of the world a script goes on, what holds when it has raised an
error, and what holds when a call into the Host has left a throwable. It is a matter of a few
changes only: the pending error and the pending throwable are set and cleared, and all else that
steps do is background.

Two steps agree under a discipline if from every calm state they do the same and end as the
discipline asks. That two machines agree whenever their callbacks do on calm states says at once
that a machine keeps the discipline and that it asks its callbacks for something in calm states
only. States may be given up for lost: then nothing is said about what the other step does, but
whatever follows is lost too.
-/

namespace ScriptBridge

open Host (ObjectId Realm Body Thrown Throw HostM BodyM)
open Bridge (World State BridgeM)
open Script (InterpreterId Raised Exception)

variable {ε α β : Type}

/-- A step in two parts succeeds only if its first part does. -/
theorem ok_of_bind {step : EStateM ε World α} {next : α → EStateM ε World β} {b : β} {w u : World}
    (h : (step >>= next) w = .ok b u) : ∃ a v, step w = .ok a v ∧ next a v = .ok b u := by
  cases ended : step w with
  | ok a v => exact ⟨a, v, rfl, by rwa [bind_ok ended] at h⟩
  | error e v =>
    rw [bind_error ended] at h
    cases h

/-! ### Agreement -/

/-- The world that a step ends in. -/
def Bridge.World.after : EStateM.Result ε World α → World
  | .ok _ w => w
  | .error _ w => w

/-- How contexts and registry may go on, and what is then given up for lost. -/
structure Course where
  onward : World → World → Prop
  lost : World → Prop
  same {w w' : World} : w'.outside.charted = w.outside.charted → onward w w'
  trans {w w' w'' : World} : onward w w' → onward w' w'' → onward w w''
  gone {w w' : World} : onward w w' → lost w → lost w'

/-- What a result is and where it was reached is as stated. -/
def Meets (ok : α → World → Prop) (err : ε → World → Prop) : EStateM.Result ε World α → Prop
  | .ok a w => ok a w
  | .error e w => err e w

/-- From a state, one outcome is as stated, and the other one is the same unless all is lost. -/
structure AgreeAt (C : Course) (ok : α → World → Prop) (err : ε → World → Prop) (w : World)
    (r r' : EStateM.Result ε World α) : Prop where
  same : ¬C.lost (World.after r) → r = r'
  onward : C.onward w (World.after r)
  reached : Meets ok err r

namespace AgreeAt

variable {C : Course} {ok : α → World → Prop} {err : ε → World → Prop} {w w' : World}
  {r r' : EStateM.Result ε World α}

/-- A step that leaves the contexts alone. -/
theorem still (charted : (World.after r).outside.charted = w.outside.charted)
    (reached : Meets ok err r) : AgreeAt C ok err w r r :=
  ⟨fun _ => rfl, C.same charted, reached⟩

/-- What holds however the step ends. -/
theorem settled {P : World → Prop} (h : AgreeAt C (fun _ => P) (fun _ => P) w r r') :
    P (World.after r) := by
  cases r with
  | ok => exact h.reached
  | error => exact h.reached

theorem weaken {ok' : α → World → Prop} {err' : ε → World → Prop} (h : AgreeAt C ok err w r r')
    (success : ∀ a w, ok a w → ok' a w) (failure : ∀ e w, err e w → err' e w) :
    AgreeAt C ok' err' w r r' := by
  refine ⟨h.same, h.onward, ?_⟩
  have reached := h.reached
  cases r with
  | ok a w' => exact success a w' reached
  | error e w' => exact failure e w' reached

/-- What follows on a step. -/
theorem after (h : AgreeAt C ok err w' r r') (onward : C.onward w w') : AgreeAt C ok err w r r' :=
  ⟨h.same, C.trans onward h.onward, h.reached⟩

end AgreeAt

/-- From every state of one kind the steps do the same, and what they reach is as stated. -/
def Agree (C : Course) (pre : World → Prop) (m m' : EStateM ε World α) (ok : α → World → Prop)
    (err : ε → World → Prop) : Prop :=
  ∀ w, pre w → AgreeAt C ok err w (m w) (m' w)

namespace Agree

variable {C : Course} {pre pre' : World → Prop} {m m' : EStateM ε World α}
  {ok ok' : α → World → Prop} {err err' : ε → World → Prop}

theorem pure {a : α} (h : ∀ w, pre w → ok a w) :
    Agree C pre (Pure.pure a) (Pure.pure a : EStateM ε World α) ok err :=
  fun w hw => .still rfl (h w hw)

theorem throw {e : ε} (h : ∀ w, pre w → err e w) :
    Agree C pre (MonadExcept.throw e) (MonadExcept.throw e : EStateM ε World α) ok err :=
  fun w hw => .still rfl (h w hw)

theorem bind {mid : α → World → Prop} {next next' : α → EStateM ε World β}
    {ok : β → World → Prop} (h : Agree C pre m m' mid err)
    (h' : ∀ a, Agree C (mid a) (next a) (next' a) ok err) :
    Agree C pre (m >>= next) (m' >>= next') ok err := by
  intro w hw
  obtain ⟨same, onward, reached⟩ := h w hw
  simp only [Bind.bind, EStateM.bind]
  cases hm : m w with
  | error e w' =>
    rw [hm] at same onward reached
    exact ⟨fun left => by rw [← same left], onward, reached⟩
  | ok a w' =>
    rw [hm] at same onward reached
    have rest := h' a w' reached
    refine ⟨fun left => ?_, C.trans onward rest.onward, rest.reached⟩
    rw [← same (left ∘ C.gone rest.onward)]
    exact rest.same left

/-- A step that is tried: what comes next may depend on whether it failed. -/
theorem attempt {ε' : Type} {mid : α → World → Prop} {bad : ε' → World → Prop}
    {m m' : EStateM ε' World α} {next next' : Except ε' α → EStateM ε World β}
    {ok : β → World → Prop} (h : Agree C pre m m' mid bad)
    (success : ∀ a, Agree C (mid a) (next (.ok a)) (next' (.ok a)) ok err)
    (failure : ∀ e, Agree C (bad e) (next (.error e)) (next' (.error e)) ok err) :
    Agree C pre (Script.attempt m >>= next) (Script.attempt m' >>= next') ok err := by
  intro w hw
  obtain ⟨same, onward, reached⟩ := h w hw
  simp only [Bind.bind, EStateM.bind, Script.attempt]
  cases hm : m w with
  | error e w' =>
    rw [hm] at same onward reached
    have rest := failure e w' reached
    refine ⟨fun left => ?_, C.trans onward rest.onward, rest.reached⟩
    rw [← same (left ∘ C.gone rest.onward)]
    exact rest.same left
  | ok a w' =>
    rw [hm] at same onward reached
    have rest := success a w' reached
    refine ⟨fun left => ?_, C.trans onward rest.onward, rest.reached⟩
    rw [← same (left ∘ C.gone rest.onward)]
    exact rest.same left

theorem weaken (h : Agree C pre m m' ok err) (before : ∀ w, pre' w → pre w)
    (success : ∀ a w, ok a w → ok' a w) (failure : ∀ e w, err e w → err' e w) :
    Agree C pre' m m' ok' err' :=
  fun w hw => (h w (before w hw)).weaken success failure

/-- The step has led from some state to the one that it has reached. -/
theorem stepped (h : Agree C pre m m' ok err) :
    Agree C pre m m' (fun a w => ok a w ∧ ∃ u, m u = .ok a w) err := by
  intro w hw
  obtain ⟨same, onward, reached⟩ := h w hw
  refine ⟨same, onward, ?_⟩
  cases hm : m w with
  | error e w' =>
    rw [hm] at reached
    exact reached
  | ok a w' =>
    rw [hm] at reached
    exact ⟨reached, w, hm⟩

/-- What was on its way since an earlier state still is. -/
theorem since (h : Agree C pre m m' ok err) (w₀ : World) :
    Agree C (fun w => pre w ∧ C.onward w₀ w) m m' (fun a w => ok a w ∧ C.onward w₀ w)
      fun e w => err e w ∧ C.onward w₀ w := by
  rintro w ⟨hw, before⟩
  obtain ⟨same, onward, reached⟩ := h w hw
  refine ⟨same, onward, ?_⟩
  cases hm : m w with
  | error e w' =>
    rw [hm] at onward reached
    exact ⟨reached, C.trans before onward⟩
  | ok a w' =>
    rw [hm] at onward reached
    exact ⟨reached, C.trans before onward⟩

end Agree

/-! ### Disciplines -/

/-- The world with another pending error of an interpreter. -/
def Bridge.World.withError (ts : InterpreterId) (f : Option Exception → Option Exception)
    (w : World) : World :=
  w.onMemory (·.onInterpreter ts fun i => { i with error := f i.error })

/-- The world with a pending throwable. -/
def Bridge.World.withPending (o : ObjectId) (w : World) : World :=
  ⟨w.memory, { w.outside with realm := { w.outside.realm with pending := some o } }⟩

/-- The error does not stand for a Host class while it has a throwable as its cause. -/
def Script.Exception.Unmapped (e : Exception) : Prop := e.type.hostClass? = none ∨ e.cause = none

structure Discipline (C : Course) where
  /-- What methods may run. -/
  allowed : Body → Prop
  /-- What may run them. -/
  serving : Host.Bodies World → Prop
  /-- What holds between steps. -/
  calm : World → Prop
  /-- What holds when an interpreter has raised an error. -/
  raised : InterpreterId → World → Prop
  /-- What holds when a call into the Host has failed. -/
  thrown : World → Prop
  permitted {w : World} : calm w → w.outside.Permitted allowed
  calm_of_background {w w' : World} : Background allowed w w' → calm w → calm w'
  raised_of_background {ts : InterpreterId} {w w' : World} :
    Background allowed w w' → Bridge.Aftermath w w' → raised ts w → raised ts w'
  thrown_of_background {w w' : World} : Background allowed w w' → thrown w → thrown w'
  raised_of_calm {ts : InterpreterId} {w : World} : calm w → raised ts w
  thrown_of_calm {w : World} : calm w → thrown w
  calm_of_thrown {w : World} : thrown w → w.outside.realm.pending = none → calm w
  /-- A script may raise an error of its own over another one. -/
  raise {ts : InterpreterId} {e : Exception} {w : World} :
    e.Unmapped → raised ts w → raised ts (w.withError ts fun _ => some e)
  trace {ts : InterpreterId} {w : World} (file : String) (line : Nat) :
    raised ts w → raised ts (w.withError ts (·.map (·.pushTrace file line)))
  /-- A throwable that has been asked for its text becomes an error. -/
  receive {ts : InterpreterId} {b : Host.Bodies World} {o : ObjectId} {text : String}
    {e : Exception} {u w w' : World} :
    serving b → (Bridge.throwableText b o : BridgeM String) u = .ok text w → calm w →
      (Bridge.errorFor ts o text : BridgeM Exception) w = .ok e w' → calm w' →
      raised ts (w'.withError ts fun _ => some e)
  clearError {ts : InterpreterId} {w : World} : raised ts w → calm (w.withError ts fun _ => none)
  setPending {w : World} (o : ObjectId) : thrown w → thrown (w.withPending o)
  clearPending {w : World} : thrown w → calm w.hushed
  /-- A body may leave a throwable and return only where throwables do not matter. -/
  leaks {name message : String} {value : Host.Recipe} {w : World} :
    allowed (.leak name message value) → thrown w → calm w

namespace Discipline

variable {C : Course} (D : Discipline C)

/-- A step of a script may fail by raising an error. -/
def raises (ts : InterpreterId) : Raised → World → Prop := fun _ => D.raised ts

/-- A call into the Host may fail by leaving a throwable. -/
def throws : Thrown → World → Prop := fun _ => D.thrown

/-- A body may fail in either way. -/
def fails : Throw → World → Prop
  | .pending => D.thrown
  | _ => D.calm

/-- A step may fail without leaving anything. -/
def stays : ε → World → Prop := fun _ => D.calm

/-- From every calm state the steps do the same; they end in a calm state with a result as stated,
or fail as stated. -/
def Keeps (err : ε → World → Prop) (m m' : EStateM ε World α) (result : α → Prop) : Prop :=
  Agree C D.calm m m' (fun a w => result a ∧ D.calm w) err

variable {D} in
/-- What a quiet step cannot change still holds after it. -/
theorem agree_quiet {pre : World → Prop} {m : EStateM ε World α} {err : ε → World → Prop}
    (h : Quiet D.allowed m) (kept : ∀ w w', Background D.allowed w w' → pre w → pre w') :
    Agree C pre m m (fun _ => pre) err := by
  intro w hw
  obtain ⟨a, w', hm, changed⟩ := h w
  rw [hm]
  exact .still changed.charted (kept w w' changed hw)

namespace Keeps

variable {D} {err err' : ε → World → Prop} {m m' : EStateM ε World α} {P Q : α → Prop}

theorem pure {a : α} (h : Q a) : D.Keeps err (Pure.pure a) (Pure.pure a) Q :=
  Agree.pure fun _ hw => ⟨h, hw⟩

theorem bind {next next' : α → EStateM ε World β} {Q : β → Prop} (h : D.Keeps err m m' P)
    (h' : ∀ a, P a → D.Keeps err (next a) (next' a) Q) :
    D.Keeps err (m >>= next) (m' >>= next') Q :=
  Agree.bind h fun a w hw => h' a hw.1 w hw.2

/-- A step whose result does not matter. -/
theorem seq {next next' : α → EStateM ε World β} {Q : β → Prop}
    (h : D.Keeps err m m' fun _ => True) (h' : ∀ a, D.Keeps err (next a) (next' a) Q) :
    D.Keeps err (m >>= next) (m' >>= next') Q :=
  .bind h fun a _ => h' a

theorem mono (h : D.Keeps err m m' P) (h' : ∀ a, P a → Q a) : D.Keeps err m m' Q :=
  Agree.weaken h (fun _ hw => hw) (fun a _ hw => ⟨h' a hw.1, hw.2⟩) fun _ _ he => he

/-- What follows on a step that cannot succeed is never reached. -/
theorem abort {next next' : α → EStateM ε World β} {Q : β → Prop}
    (h : D.Keeps err m m' fun _ => False) : D.Keeps err (m >>= next) (m' >>= next') Q :=
  .bind h fun _ never => never.elim

theorem ite {c : Prop} [Decidable c] {n n' : EStateM ε World α} (h : c → D.Keeps err m m' Q)
    (h' : ¬c → D.Keeps err n n' Q) :
    D.Keeps err (if c then m else n) (if c then m' else n') Q := by
  by_cases hc : c
  · rw [if_pos hc, if_pos hc]
    exact h hc
  · rw [if_neg hc, if_neg hc]
    exact h' hc

theorem map {Q : β → Prop} {f : α → β} (h : D.Keeps err m m' P) (h' : ∀ a, P a → Q (f a)) :
    D.Keeps err (do return f (← m)) (do return f (← m')) Q :=
  .bind h fun a ha => .pure (h' a ha)

theorem of_quiet (h : Quiet D.allowed m) : D.Keeps err m m fun _ => True :=
  Agree.weaken (agree_quiet h fun _ _ => D.calm_of_background) (fun _ hw => hw)
    (fun _ _ hw => ⟨trivial, hw⟩) fun _ _ he => he

/-- A quiet step first. -/
theorem quiet {next next' : α → EStateM ε World β} {Q : β → Prop} (h : Quiet D.allowed m)
    (h' : ∀ a, D.Keeps err (next a) (next' a) Q) : D.Keeps err (m >>= next) (m >>= next') Q :=
  .seq (.of_quiet h) h'

theorem attempt {ε' : Type} {bad : ε' → World → Prop} {m m' : EStateM ε' World α}
    {next next' : Except ε' α → EStateM ε World β} {Q : β → Prop} (h : D.Keeps bad m m' P)
    (success : ∀ a, P a → D.Keeps err (next (.ok a)) (next' (.ok a)) Q)
    (failure : ∀ e, Agree C (bad e) (next (.error e)) (next' (.error e))
      (fun b w => Q b ∧ D.calm w) err) :
    D.Keeps err (Script.attempt m >>= next) (Script.attempt m' >>= next') Q :=
  Agree.attempt h (fun a w hw => success a hw.1 w hw.2) failure

/-- The realm between steps has nothing to run that is not allowed. -/
theorem getRealm {next next' : Realm → EStateM ε World β} {Q : β → Prop}
    (h : ∀ r : Realm, r.Permitted D.allowed → D.Keeps err (next r) (next' r) Q) :
    D.Keeps err (Host.getRealm >>= next) (Host.getRealm >>= next') Q :=
  fun w hw => h w.outside.realm (D.permitted hw).realm w hw

/-- What the bridge remembers between steps has nothing to run that is not allowed. -/
theorem getState {next next' : State → EStateM ε World β} {Q : β → Prop}
    (h : ∀ s : State, s.Permitted D.allowed → D.Keeps err (next s) (next' s) Q) :
    D.Keeps err (Bridge.getState >>= next) (Bridge.getState >>= next') Q :=
  fun w hw => h w.outside (D.permitted hw) w hw

end Keeps

/-- From every state that a failing call has left the steps do the same, and they end in a calm
one. -/
def Recovers (err : ε → World → Prop) (m m' : EStateM ε World α) (result : α → Prop) : Prop :=
  Agree C D.thrown m m' (fun a w => result a ∧ D.calm w) err

namespace Recovers

variable {D} {err : ε → World → Prop} {m m' : EStateM ε World α} {Q : β → Prop}
  {next next' : α → EStateM ε World β}

theorem quiet (h : Quiet D.allowed m) (h' : ∀ a, D.Recovers err (next a) (next' a) Q) :
    D.Recovers err (m >>= next) (m >>= next') Q :=
  Agree.bind (agree_quiet h fun _ _ => D.thrown_of_background) h'

/-- The throwable is taken away. -/
theorem clear {next next' : Unit → EStateM ε World β} (h : D.Keeps err (next ()) (next' ()) Q) :
    D.Recovers err (Host.onRealm (Realm.setPending none) >>= next)
      (Host.onRealm (Realm.setPending none) >>= next') Q := by
  intro w hw
  show AgreeAt C _ err w (next () w.hushed) (next' () w.hushed)
  exact (h w.hushed (D.clearPending hw)).after (C.same rfl)

/-- Whether there is a throwable at all. -/
theorem getRealm {next next' : Realm → EStateM ε World β}
    (calm : ∀ r : Realm, r.pending = none → D.Keeps err (next r) (next' r) Q)
    (pending : ∀ (r : Realm) (o : ObjectId), r.pending = some o →
      D.Recovers err (next r) (next' r) Q) :
    D.Recovers err (Host.getRealm >>= next) (Host.getRealm >>= next') Q := by
  intro w hw
  cases h : w.outside.realm.pending with
  | none => exact calm w.outside.realm h w (D.calm_of_thrown hw h)
  | some o => exact pending w.outside.realm o h w hw

end Recovers
end Discipline
end ScriptBridge
