import ScriptBridge.Proofs.Discipline.Statements

/-!
# Operations keep a regime

While an operation runs, the interpreter of its context is the current one, so what holds between
the steps of a script depends on which interpreter that is. A regime has a discipline for each.
Operations keep a regime whether a throwable is pending at first or not: they take it away before
they run anything.
-/

/-! ## Machines keep the discipline

A machine is put together level by level, so it keeps a discipline if all that its bodies ask for
does. What bodies ask for is left open here: machines agree if their answers do.
-/

namespace ScriptBridge

open Host (Body Callback BodyM)
open Bridge (World State BridgeM Machine)
open Script (InterpreterId Scope)

/-- The machine with so many levels whose bodies get the given answers, which may depend on the
level. -/
def Context.machineAsking (ask : Nat → Callback → BodyM World Host.Value) : Nat → Machine
  | 0 => noMachine
  | level + 1 =>
    let bodies : Host.Bodies World :=
      .over (ask level) fun _ => (machineAsking ask level).bodies
    { bodies
      engine := Bridge.engine bodies fun ts scope body =>
        Script.eval (machineAsking ask level).engine ts scope body }

namespace Discipline

variable {C : Course} {D : Discipline C} {b b' : Host.Bodies World}

/-- The machines do the same in calm states, and keep the discipline. -/
structure Machines (D : Discipline C) (x x' : Machine) : Prop where
  bodies : D.Bodies x.bodies x'.bodies
  engine : D.Engines x.engine x'.engine

theorem engine_keeps (h : D.Bodies b b')
    {body body' : InterpreterId → Scope → Syntax.Expr → BridgeM Script.Value}
    (bodies : ∀ ts scope expr,
      D.Keeps (D.raises ts) (body ts scope expr) (body' ts scope expr) fun _ => True) :
    D.Engines (Bridge.engine b body) (Bridge.engine b' body') where
  body := bodies
  getAttr _ := getAttr_keeps h
  setAttr _ := setAttr_keeps h
  getItem _ := getItem_keeps h
  setItem _ := setItem_keeps h
  length _ := length_keeps h
  contains _ := contains_keeps h
  call _ := call_keeps h
  number _ := number_keeps h
  text _ := viewText_keeps h
  equals _ := equals_keeps h
  attrNames f := ⟨rfl, attrNames_quiet f⟩
  extension _ := callExtension_keeps h
  settle := ⟨rfl, .reclaim true, .reclaim true⟩

/-- The bodies of the machines that get the given answers may all run methods. -/
structure Covers (D : Discipline C) (ask : Nat → Callback → BodyM World Host.Value) : Prop where
  none : D.serving .none
  levels : ∀ level, D.serving (Context.machineAsking ask level).bodies

theorem noMachine_keeps (none : D.serving .none) (nothing : D.serving Context.noMachine.bodies) :
    D.Machines Context.noMachine Context.noMachine where
  bodies :=
    { serving := nothing
      method := fun _ _ _ _ => .quiet (.elsewhere (fun _ => rfl) fun _ => rfl) fun _ =>
        .throwPending
      construct := fun _ _ _ => .quiet (.elsewhere (fun _ => rfl) fun _ => rfl) fun _ =>
        .throwPending }
  engine := by
    have none : D.Bodies Host.Bodies.none Host.Bodies.none :=
      ⟨none, fun _ _ _ _ => .throwPending, fun _ _ _ => .throwPending⟩
    exact engine_keeps none fun _ _ _ => .giveUp

theorem machineAsking_keeps {ask ask' : Nat → Callback → BodyM World Host.Value} {levels : Nat}
    (covers : D.Covers ask) (asked : ∀ level < levels, ∀ request,
      D.Keeps D.fails (ask level request) (ask' level request) fun _ => True) :
    D.Machines (Context.machineAsking ask levels) (Context.machineAsking ask' levels) := by
  induction levels with
  | zero => exact noMachine_keeps covers.none (covers.levels 0)
  | succ levels ih =>
    have below := ih fun level hlevel => asked level (Nat.lt_succ_of_lt hlevel)
    have bodies : D.Bodies (.over (ask levels) fun _ => (Context.machineAsking ask levels).bodies)
        (.over (ask' levels) fun _ => (Context.machineAsking ask' levels).bodies) :=
      ⟨covers.levels (levels + 1),
        fun body permitted =>
          body_keeps below.bodies (asked levels (Nat.lt_succ_self _)) permitted,
        construction_keeps below.bodies⟩
    exact ⟨bodies, engine_keeps bodies fun _ scope expr => eval_keeps below.engine scope expr⟩

end Discipline
end ScriptBridge

namespace ScriptBridge

open Host (ObjectId Realm Body Callback BodyM)
open Bridge (World State BridgeM ContextId Machine Failure)
open Script (InterpreterId Raised ModuleRef)
open Context (Operation)

variable {ε α β : Type}

/-! ### The current interpreter -/

/-- The interpreter that is running on the runtime of the bridge. -/
def Bridge.World.current (w : World) : Option InterpreterId :=
  (w.memory.runtime w.outside.runtime).current

/-- The world with another interpreter running. -/
def Bridge.World.withCurrent (current : Option InterpreterId) (w : World) : World :=
  w.onMemory fun m =>
    { m with runtimes := m.runtimes.modify w.outside.runtime.place fun r => { r with current } }

theorem withCurrent_withCurrent (w : World) (current current' : Option InterpreterId) :
    (w.withCurrent current).withCurrent current' = w.withCurrent current' := by
  have same : ∀ (runtimes : Array Script.Runtime) (i : Nat),
      (runtimes.modify i fun r => { r with current }).modify i
        (fun r => { r with current := current' }) =
      runtimes.modify i fun r => { r with current := current' } := by
    intro runtimes i
    refine Array.ext (by simp) fun j _ _ => ?_
    simp only [Array.getElem_modify]
    split <;> rfl
  simp only [World.withCurrent, Script.World.onMemory, same]

theorem withCurrent_current (w : World) : w.withCurrent w.current = w := by
  have same : w.memory.runtimes.modify w.outside.runtime.place
      (fun r => { r with current := w.current }) = w.memory.runtimes := by
    refine Array.ext (by simp) fun j _ _ => ?_
    simp only [Array.getElem_modify]
    split
    · rename_i _ place here
      subst here
      simp [World.current, Script.Memory.runtime, place]
    · rfl
  simp only [World.withCurrent, Script.World.onMemory, same]

theorem getState_run (w : World) :
    (Bridge.getState : EStateM ε World _) w = .ok w.outside w := rfl

theorem getRuntime_run (rt : Script.RuntimeId) (w : World) :
    (Script.getRuntime rt : EStateM ε World _) w = .ok (w.memory.runtime rt) w := rfl

/-- An interpreter cannot be entered while another one is running. -/
theorem entering_refused {ts other : InterpreterId} {w : World}
    (busy : w.current.filter (· != ts) = some other) (step : Operation α) :
    Context.entering ts step w = .error (.unavailable
      s!"interpreter state {(w.memory.interpreter other).number} is active on this thread; cannot enter {(w.memory.interpreter ts).number}") w := by
  rw [World.current] at busy
  unfold Context.entering
  rw [bind_ok (getState_run w), bind_ok (getRuntime_run _ w), busy]
  rfl

theorem entering_busy {ts other : InterpreterId} {w : World}
    (busy : w.current.filter (· != ts) = some other) :
    ∃ f, ∀ step : Operation α, Context.entering ts step w = .error f w :=
  ⟨_, entering_refused busy⟩

/-- What was running before is running again when the step has ended. -/
theorem entering_free {ts : InterpreterId} {w : World}
    (free : w.current.filter (· != ts) = none) (step : Operation α) :
    Context.entering ts step w =
      match step (w.withCurrent (some ts)) with
      | .ok a w' => .ok a (w'.withCurrent w.current)
      | .error f w' => .error f (w'.withCurrent w.current) := by
  have read : Context.entering ts step w =
      (do
        let previous ← Context.swap (some ts)
        let outcome ← Script.attempt step
        let _ ← Context.swap previous
        Context.orFail outcome : Operation α) w := by
    rw [World.current] at free
    unfold Context.entering
    rw [bind_ok (getState_run w), bind_ok (getRuntime_run _ w), free]
  have swapped : ∀ (current : Option InterpreterId) (v : World),
      (Context.swap current : Operation _) v = .ok v.current (v.withCurrent current) :=
    fun _ _ => rfl
  rw [read]
  simp only [Bind.bind, EStateM.bind, swapped, Script.attempt]
  cases step (w.withCurrent (some ts)) with
  | ok a w' => rfl
  | error f w' => rfl

/-! ### The interpreters of contexts -/

/-- The interpreters of all contexts that were ever made. -/
def Bridge.State.states (s : State) : List InterpreterId := s.tracked.toList.map (·.1)

theorem states_eq (s : State) : s.states = s.contexts.toList.map (·.state) := by
  simp [State.states, State.tracked, Function.comp_def]

theorem context_state {s : State} {c : ContextId} (made : c.number - 1 < s.contexts.size) :
    s.states[c.number - 1]? = some (s.context c).state := by
  rw [states_eq, List.getElem?_map]
  simp [State.context, made]

/-- A context keeps its interpreter when others are made. -/
theorem Bridge.State.state_stays {s s' : State} {c : ContextId}
    (made : c.number - 1 < s.contexts.size) (longer : s.states <+: s'.states) :
    (s'.context c).state = (s.context c).state := by
  have before := context_state made
  obtain ⟨later, longer⟩ := longer
  have reach : c.number - 1 < s.states.length := by
    rw [states_eq]
    simpa using made
  have after : s'.states[c.number - 1]? = some (s.context c).state := by
    rw [← longer, List.getElem?_append_left reach, before]
  have made' : c.number - 1 < s'.contexts.size := by
    have reached := (List.getElem?_eq_some_iff.1 after).1
    rw [states_eq] at reached
    simpa using reached
  rw [context_state made'] at after
  exact Option.some.inj after

/-! ### Refusals -/

/-- No failure of the operation names a Host class while it has a throwable as its cause. -/
def FailsUnmapped (m : Operation α) : Prop := ∀ w f v, m w = .error f v → f.Unmapped

theorem FailsUnmapped.bind {m : Operation α} {next : α → Operation β} (h : FailsUnmapped m)
    (h' : ∀ a, FailsUnmapped (next a)) : FailsUnmapped (m >>= next) := by
  intro w f v failed
  cases ran : m w with
  | ok a u =>
    rw [bind_ok ran] at failed
    exact h' a u f v failed
  | error f' u =>
    rw [bind_error ran] at failed
    cases failed
    exact h w f v ran

/-- The operation changes the background only, and does not fail with an error of a script. -/
structure Prepares (m : Operation α) : Prop where
  mild : ∀ allowed, Mild allowed m
  unmapped : FailsUnmapped m

namespace Prepares

theorem of_quiet {m : Operation α} (h : ∀ allowed, Quiet allowed m) : Prepares m where
  mild allowed := .of_quiet (h allowed)
  unmapped w f v failed := by
    obtain ⟨a, u, ran, -⟩ := h (fun _ => True) w
    rw [ran] at failed
    cases failed

theorem pure (a : α) : Prepares (Pure.pure a : Operation α) := .of_quiet fun _ => .pure a

theorem throw {f : Failure} (h : f.Unmapped) : Prepares (MonadExcept.throw f : Operation α) where
  mild _ := .throw f
  unmapped _ _ _ failed := by
    cases failed
    exact h

theorem bind {m : Operation α} {next : α → Operation β} (h : Prepares m)
    (h' : ∀ a, Prepares (next a)) : Prepares (m >>= next) where
  mild allowed := .bind (h.mild allowed) fun a => (h' a).mild allowed
  unmapped := .bind h.unmapped fun a => (h' a).unmapped

end Prepares

/-! ### Regimes -/

/-- A discipline for every interpreter that may be running. -/
structure Regime (C : Course) where
  of : Option InterpreterId → Discipline C
  /-- What is known of a failure where it ends an operation. -/
  reports : Failure → World → Prop
  reports_unmapped {f : Failure} {w : World} : f.Unmapped → reports f w
  reports_raised {current : Option InterpreterId} {ts : InterpreterId} {e : Script.Exception}
    {w : World} : (of current).raised ts w → (w.memory.interpreter ts).error = some e →
      reports (.ofException e) w
  reports_later {f : Failure} {w w' : World} : Bridge.Aftermath w w' → reports f w → reports f w'
  /-- An interpreter is entered only while no other one is running. -/
  enter {current : Option InterpreterId} {ts : InterpreterId} {w : World} :
    w.current.filter (· != ts) = none → (of current).calm w →
      (of (some ts)).calm (w.withCurrent (some ts))
  enterThrown {current : Option InterpreterId} {ts : InterpreterId} {w : World} :
    w.current.filter (· != ts) = none → (of current).thrown w →
      (of (some ts)).thrown (w.withCurrent (some ts))
  leave {current inner : Option InterpreterId} {w w' : World} :
    (of current).thrown w → (of inner).calm w' → (of current).calm (w'.withCurrent w.current)
  leaveThrown {current inner : Option InterpreterId} {w w' : World} :
    (of current).thrown w → (of inner).thrown w' → (of current).thrown (w'.withCurrent w.current)
  /-- A context that was open keeps its interpreter. -/
  stays {current : Option InterpreterId} {c : ContextId} {w w' : World} :
    (of current).thrown w → c ∈ w.outside.registry → C.onward w w' →
      (w'.outside.context c).state = (w.outside.context c).state

namespace Regime

variable {C : Course} (R : Regime C)

/-- What holds between operations: there may be a throwable pending or not. -/
def between (clear : Bool) (current : Option InterpreterId) : World → Prop :=
  if clear then (R.of current).calm else (R.of current).thrown

variable {R} {clear : Bool} {current inner : Option InterpreterId} {ts : InterpreterId}
  {w w' : World}

theorem between_of_calm (h : (R.of current).calm w) : R.between clear current w := by
  cases clear with
  | true => exact h
  | false => exact (R.of current).thrown_of_calm h

theorem thrown_of_between (h : R.between clear current w) : (R.of current).thrown w := by
  cases clear with
  | true => exact (R.of current).thrown_of_calm h
  | false => exact h

theorem between_of_background (changed : Background (R.of current).allowed w w')
    (h : R.between clear current w) : R.between clear current w' := by
  cases clear with
  | true => exact (R.of current).calm_of_background changed h
  | false => exact (R.of current).thrown_of_background changed h

theorem between_enter (free : w.current.filter (· != ts) = none) (h : R.between clear current w) :
    R.between clear (some ts) (w.withCurrent (some ts)) := by
  cases clear with
  | true => exact R.enter free h
  | false => exact R.enterThrown free h

theorem between_leave (h : R.between clear current w) (h' : R.between clear inner w') :
    R.between clear current (w'.withCurrent w.current) := by
  cases clear with
  | true => exact R.leave (thrown_of_between h) h'
  | false => exact R.leaveThrown h h'

variable (R) in
/-- How an operation fails: what held before holds, and the failure is as is known. -/
def refuses (clear : Bool) (current : Option InterpreterId) (f : Failure) (w : World) : Prop :=
  R.between clear current w ∧ R.reports f w

variable (R) in
/-- Between operations the two do the same, and what held before holds after. -/
def Serves (m m' : Operation α) : Prop :=
  ∀ clear current, Agree C (R.between clear current) m m' (fun _ => R.between clear current)
    (R.refuses clear current)

namespace Serves

variable {m m' : Operation α}

/-- What held before holds however the operation ends. -/
theorem agree (h : R.Serves m m') (clear : Bool) (current : Option InterpreterId) :
    Agree C (R.between clear current) m m' (fun _ => R.between clear current)
      fun _ => R.between clear current :=
  Agree.weaken (h clear current) (fun _ hw => hw) (fun _ _ hw => hw) fun _ _ hw => hw.1

theorem bind {next next' : α → Operation β} (h : R.Serves m m')
    (h' : ∀ a, R.Serves (next a) (next' a)) : R.Serves (m >>= next) (m' >>= next') :=
  fun clear current => Agree.bind (h clear current) fun a => h' a clear current

/-- A step that may refuse to go on, and runs nothing. -/
theorem prepares (h : Prepares m) : R.Serves m m := by
  intro clear current w hw
  have changed := h.mild (R.of current).allowed w
  cases hm : m w with
  | ok a w' =>
    rw [hm] at changed
    exact .still changed.charted (between_of_background changed hw)
  | error f w' =>
    rw [hm] at changed
    exact .still changed.charted
      ⟨between_of_background changed hw, R.reports_unmapped (h.unmapped w f w' hm)⟩

theorem pure (a : α) : R.Serves (Pure.pure a) (Pure.pure a : Operation α) := .prepares (.pure a)

end Serves

/-! ### Entering -/

/-- The step runs with the interpreter as the current one. -/
theorem entering_between {step step' : Operation α} (hw : R.between clear current w)
    (h : w.current.filter (· != ts) = none →
      AgreeAt C (fun _ => R.between clear (some ts)) (R.refuses clear (some ts))
        (w.withCurrent (some ts)) (step (w.withCurrent (some ts)))
        (step' (w.withCurrent (some ts)))) :
    AgreeAt C (fun _ => R.between clear current) (R.refuses clear current) w
      (Context.entering ts step w) (Context.entering ts step' w) := by
  cases busy : w.current.filter (· != ts) with
  | some other =>
    rw [entering_refused busy, entering_refused busy]
    exact .still rfl ⟨hw, R.reports_unmapped nofun⟩
  | none =>
    rw [entering_free busy, entering_free busy]
    obtain ⟨same, onward, reached⟩ := h busy
    have still : ∀ (now : Option InterpreterId) (v : World), C.onward v (v.withCurrent now) :=
      fun _ _ => C.same rfl
    cases hm : step (w.withCurrent (some ts)) with
    | ok a w' =>
      rw [hm] at same onward reached
      refine ⟨fun left => ?_, C.trans (C.trans (still _ w) onward) (still _ w'),
        between_leave hw reached⟩
      rw [← same (left ∘ C.gone (still _ w'))]
    | error f w' =>
      rw [hm] at same onward reached
      refine ⟨fun left => ?_, C.trans (C.trans (still _ w) onward) (still _ w'),
        between_leave hw reached.1, R.reports_later (.of_memory rfl rfl) reached.2⟩
      rw [← same (left ∘ C.gone (still _ w'))]

/-! ### Working inside a context -/

/-- The machines do the same whatever interpreter is running. -/
def Machines (R : Regime C) (x x' : Machine) : Prop := ∀ current, (R.of current).Machines x x'

/-- The pending error of an interpreter is taken away as it becomes a failure. -/
theorem takeFailure?_calm {err : ε → World → Prop} (printStack : Bool) :
    Agree C ((R.of current).raised ts) (Bridge.takeFailure? ts printStack)
      (Bridge.takeFailure? ts printStack)
      (fun failure v => (R.of current).calm v ∧ ∀ f ∈ failure, R.reports f v) err := by
  let kept (failure : Option Failure) (v : World) : Prop :=
    (R.of current).calm v ∧ ∀ f ∈ failure, R.reports f v
  have taken : Agree C ((R.of current).raised ts) (Script.takeError ts) (Script.takeError ts)
      (fun e => kept (e.map .ofException)) err := by
    refine fun w hw => .still rfl ⟨(R.of current).clearError hw, fun f made => ?_⟩
    obtain ⟨e, pending, rfl⟩ := Option.map_eq_some_iff.1 made
    exact R.reports_later (.withError ts (fun _ => none) w) (R.reports_raised hw pending)
  refine Agree.bind taken fun e => ?_
  cases e with
  | none => exact Agree.pure fun _ hw => hw
  | some e =>
    have written : Agree C (kept (some (.ofException e))) (Script.reportLine e.renderTrace)
        (Script.reportLine e.renderTrace) (fun _ => kept (some (.ofException e))) err := by
      intro v hv
      have quiet : Quiet (R.of current).allowed (Script.reportLine e.renderTrace :
          EStateM ε World Unit) := .reportLine e.renderTrace
      obtain ⟨_, u, ran, changed⟩ := quiet v
      cases ran
      exact .still rfl ⟨(R.of current).calm_of_background changed hv.1,
        fun f made => R.reports_later (.of_memory rfl rfl) (hv.2 f made)⟩
    cases printStack with
    | false => exact Agree.pure fun _ hv => hv
    | true => exact Agree.bind written fun _ => Agree.pure fun _ hv => hv

/-- The pending error of a context is taken away as it becomes a failure. -/
theorem failureOf_calm {c : ContextId} {err : ε → World → Prop}
    (hw : (R.of current).raised ts w) (state : (w.outside.context c).state = ts) :
    AgreeAt C (fun f v => (R.of current).calm v ∧ R.reports f v) err w (Context.failureOf c w)
      (Context.failureOf c w) := by
  show AgreeAt C _ err w ((Bridge.takeFailure? (w.outside.context c).state _ >>= _) w)
    ((Bridge.takeFailure? (w.outside.context c).state _ >>= _) w)
  rw [state]
  refine Agree.bind (takeFailure?_calm _) (fun failure => ?_) w hw
  cases failure with
  | some failure => exact Agree.pure fun _ hw => ⟨hw.1, hw.2 failure rfl⟩
  | none => exact Agree.pure fun _ hw => ⟨hw.1, R.reports_unmapped (.of_cause rfl)⟩

/-- What is looked up is an open context. -/
theorem lookup_open {c : ContextId} :
    (c ∈ w.outside.registry ∧ Context.lookup c w = .ok (w.outside.context c) w) ∨
      ∃ f, f.Unmapped ∧ Context.lookup c w = .error f w := by
  have read : Context.lookup c w =
      (if w.outside.registry.contains c then return w.outside.context c
        else throw (.unavailable s!"context {c.number} is not open") : Operation _) w := rfl
  rw [read]
  by_cases opened : w.outside.registry.contains c
  · rw [if_pos opened]
    exact .inl ⟨by simpa using opened, rfl⟩
  · rw [if_neg opened]
    exact .inr ⟨.unavailable _, nofun, rfl⟩

section Within

variable {x x' : Machine} {work work' : BridgeM α}

/-- Nothing runs while a throwable is pending, and an error that ends the work leaves as a
failure. -/
theorem work_between (hx : R.Machines x x') {c : ContextId}
    (registered : c ∈ w.outside.registry) (hw : R.between clear current w)
    (state : (w.outside.context c).state = ts)
    (h : Agree C (fun v => (R.of (some ts)).calm v ∧ c ∈ v.outside.registry) work work'
      (fun _ => (R.of (some ts)).calm) ((R.of (some ts)).raises ts)) :
    Agree C (fun v => R.between clear (some ts) v ∧ C.onward w v ∧ c ∈ v.outside.registry)
      (do
        match ← Bridge.pendingFailure? x.bodies with
        | some failure => throw failure
        | none =>
          match ← Script.attempt work with
          | .ok a => Pure.pure a
          | .error _ => throw (← Context.failureOf c) : Operation α)
      (do
        match ← Bridge.pendingFailure? x'.bodies with
        | some failure => throw failure
        | none =>
          match ← Script.attempt work' with
          | .ok a => Pure.pure a
          | .error _ => throw (← Context.failureOf c))
      (fun _ => R.between clear (some ts)) (R.refuses clear (some ts)) := by
  let D := R.of (some ts)
  have bodies : D.Bodies x.bodies x'.bodies := (hx (some ts)).bodies
  refine Agree.bind (Agree.weaken (Discipline.pendingFailure?_recovers bodies)
    (fun v hv => ⟨thrown_of_between hv.1, hv.2⟩) (fun _ _ hv => hv) fun _ _ hv => hv) fun failure => ?_
  cases failure with
  | some failure =>
    exact Agree.throw fun v hv => ⟨between_of_calm hv.1, R.reports_unmapped (hv.2.1 failure rfl)⟩
  | none =>
    refine Agree.weaken (Agree.attempt (Agree.since h w) (fun a => Agree.pure fun v hv => ?_)
      fun e v hv => ?_) (fun v hv => ?_) (fun _ _ hv => hv) fun _ _ hv => hv
    · exact between_of_calm hv.1
    · have named : (v.outside.context c).state = ts :=
        (R.stays (thrown_of_between hw) registered hv.2).trans state
      have failed : Agree C (fun u => u = v) (Context.failureOf c) (Context.failureOf c)
          (fun f u => D.calm u ∧ R.reports f u) (R.refuses clear (some ts)) := by
        rintro u rfl
        exact failureOf_calm hv.1 named
      exact Agree.bind failed (fun _ => Agree.throw fun _ hu => ⟨between_of_calm hu.1, hu.2⟩) v rfl
    · obtain ⟨before, open'⟩ := hv.2.2 rfl
      exact ⟨⟨hv.1, open'⟩, before⟩

end Within

/-- Work that starts while the context is open. -/
theorem within_open {x x' : Machine} (hx : R.Machines x x') (c : ContextId)
    {work work' : InterpreterId → BridgeM α}
    (h : ∀ current ts, Agree C (fun v => (R.of current).calm v ∧ c ∈ v.outside.registry) (work ts)
      (work' ts) (fun _ => (R.of current).calm) ((R.of current).raises ts)) :
    R.Serves (Context.within x c work) (Context.within x' c work') := by
  intro clear current w hw
  unfold Context.within
  rcases lookup_open (w := w) (c := c) with ⟨registered, found⟩ | ⟨f, unmapped, refused⟩
  · rw [bind_ok found, bind_ok found]
    refine entering_between hw fun free => ?_
    let ts := (w.outside.context c).state
    have inside : R.between clear (some ts) (w.withCurrent (some ts)) ∧
        C.onward w (w.withCurrent (some ts)) ∧ c ∈ w.outside.registry :=
      ⟨between_enter free hw, C.same rfl, registered⟩
    have read : Agree C
        (fun v => R.between clear (some ts) v ∧ C.onward w v ∧ c ∈ v.outside.registry)
        (Bridge.getContext c) (Bridge.getContext c)
        (fun _ v => R.between clear (some ts) v ∧ C.onward w v ∧ c ∈ v.outside.registry)
        (R.refuses clear (some ts)) := fun _ hv => .still rfl hv
    refine Agree.bind read (fun context => ?_) _ inside
    by_cases closed : context.closed
    · rw [if_pos closed, if_pos closed]
      have refused : Agree C
          (fun v => R.between clear (some ts) v ∧ C.onward w v ∧ c ∈ v.outside.registry)
          (throw (.unavailable s!"context {c.number} is closed") : Operation PUnit)
          (throw (.unavailable s!"context {c.number} is closed")) (fun _ _ => False)
          (R.refuses clear (some ts)) := Agree.throw fun _ hv => ⟨hv.1, R.reports_unmapped nofun⟩
      exact Agree.bind refused fun _ _ never => never.elim
    · rw [if_neg closed, if_neg closed]
      exact work_between hx registered hw rfl (h (some ts) ts)
  · rw [bind_error refused, bind_error refused]
    exact .still rfl ⟨hw, R.reports_unmapped unmapped⟩

theorem within_serves {x x' : Machine} (hx : R.Machines x x') (c : ContextId)
    {work work' : InterpreterId → BridgeM α}
    (h : ∀ current ts, (R.of current).Keeps ((R.of current).raises ts) (work ts) (work' ts)
      fun _ => True) :
    R.Serves (Context.within x c work) (Context.within x' c work') :=
  within_open hx c fun current ts =>
    Agree.weaken (h current ts) (fun _ hv => hv.1) (fun _ _ hv => hv.2) fun _ _ he => he

end Regime
end ScriptBridge
