import ScriptBridge.Installation
import ScriptBridge.Proofs.Boundary.Lifecycle
import ScriptBridge.Proofs.Discipline.Sessions

/-!
# Operations leave the boundary clean

Whatever an operation does, and whether it succeeds or fails: when it returns, the interpreter that
was running before is running again, no interpreter has a pending error, and no throwable is
pending. This holds of every state that a session comes to, and of every state in which a body of
the Host asks for something while a script waits for it.
-/

namespace ScriptBridge.Boundary

open Host (Realm Body Callback BodyM)
open Bridge (World State ContextId Machine)
open Script (InterpreterId)
open Context (Operation Offered Procedures Asks machineRunning)

variable {allowed : Body → Prop} {procedures : Procedures} {ε α β : Type}
  {op : Machine → Operation α} {w w' : World}
  {levels level : Nat} {request : Callback}

/-! ### Machines -/

theorem covers {current : Option InterpreterId}
    {ask : Nat → Callback → BodyM World Host.Value} : (discipline current).Covers ask :=
  ⟨trivial, fun _ => trivial⟩

theorem closeAll_keeps (current : Option InterpreterId) :
    (discipline current).Keeps (discipline current).fails (Context.closeAll : BodyM World Unit)
      Context.closeAll fun _ => True := by
  refine closeAll_steady.keeps fun failure w hw => ?_
  cases failure with
  | pending => exact (discipline current).thrown_of_calm hw
  | new | object => exact hw

theorem machines_keep (procedures : Procedures) (levels : Nat) :
    regime.Machines (machineRunning Context.closeAll procedures levels)
      (machineRunning Context.closeAll procedures levels) :=
  Regime.machineRunning_agree lifecycle (fun _ => covers) closeAll_keeps levels

/-- Answers in states that are not calm would make no difference. -/
theorem asks_calm (offered : Offered op) {current : Option InterpreterId}
    (settled : (discipline current).thrown w)
    (asks : Asks (Context.answering Context.closeAll procedures) levels op w level request w') :
    ∃ current, (discipline current).calm w' :=
  Regime.asks_calm lifecycle (fun _ => covers) closeAll_keeps offered false settled id asks

/-! ### Sessions -/

/-- The states that a session comes to, with bodies that run the given procedures. The Host may do
as it likes between operations, as long as no method of it is unclean. -/
inductive Reached (procedures : Procedures) : World → Prop
  | start {r : Realm} {config : Config} {w : World} : r.Permitted Clean →
    Context.start config ⟨{}, { realm := r }⟩ = .ok () w → Reached procedures w
  | performed {α : Type} {op : Machine → Operation α} {w : World} (levels : Nat) :
    Reached procedures w → Offered op →
      Reached procedures (World.after (op (machineRunning Context.closeAll procedures levels) w))
  | asked {α : Type} {op : Machine → Operation α} {w w' : World} {levels level : Nat}
    {request : Callback} :
    Reached procedures w → Offered op →
      Asks (Context.answering Context.closeAll procedures) levels op w level request w' →
      Reached procedures w'
  | closedAll {w : World} :
    Reached procedures w → Reached procedures (World.after ((Context.closeAll : Operation Unit) w))
  | traced {w : World} (c : ContextId) (flag : Bool) :
    Reached procedures w → Reached procedures (World.after (Context.setPrintStack c flag w))
  | shutDown {w : World} :
    Reached procedures w → Reached procedures (World.after ((Context.shutDown : Operation Unit) w))
  | host {w : World} {r : Realm} : Reached procedures w → r.Permitted Clean →
    Reached procedures ⟨w.memory, { w.outside with realm := r }⟩
  | named {w : World} (names : Table ContextId) :
    Reached procedures w → Reached procedures ⟨w.memory, { w.outside with contextNames := names }⟩
  | read {w : World} : Reached procedures w →
    Reached procedures (World.after ((Script.takeWritten : Operation (String × String)) w))

theorem start_settled {r : Realm} (clean : r.Permitted allowed) {config : Config}
    (started : Context.start config ⟨{}, { realm := r }⟩ = .ok () w) : Ordered allowed none w := by
  obtain ⟨v, rt, changed, idle, -, made⟩ := newRuntime_eq allowed ⟨{}, { realm := r }⟩
  have tracked := changed.tracked
  simp only [Bridge.tracked, Tracked.mk.injEq] at tracked
  obtain ⟨runtimes, interpreters, contexts, registry, -, -⟩ := tracked
  have permitted : v.outside.Permitted allowed := by
    refine changed.permitted ⟨clean, ?_, ?_, ?_, ?_, ?_⟩
    all_goals simp
  simp only [Context.start] at started
  cases valid : config.validate with
  | error e =>
    rw [valid] at started
    cases started
  | ok =>
    rw [valid] at started
    simp only [bind_ok made] at started
    cases started
    refine ⟨⟨?_, ?_, ?_, { permitted with }⟩, fun other _ => ?_⟩
    · simp [World.current, Script.World.onMemory, Script.Memory.runtime, idle]
    · simp [Script.World.onMemory]
    · intro c hc
      have none : c ∈ v.outside.registry := hc
      rw [registry] at none
      cases none
    · show (v.memory.interpreter other).error = none
      rw [error_eq, interpreters]
      simp [Script.Memory.tracked]

theorem Steady.ordered {m : EStateM ε World α} (h : Steady allowed m) {current : Option InterpreterId}
    (hw : Ordered allowed current w) : Ordered allowed current (World.after (m w)) :=
  ⟨(h w).settled _ hw.1, (h w).silent hw.2⟩

/-- Whoever is running after the step, everything but throwables is in order. -/
def Orderly (allowed : Body → Prop) (m : EStateM ε World α) : Prop :=
  ∀ current w, Ordered allowed current w → ∃ now, Ordered allowed now (World.after (m w))

theorem Orderly.steady {m : EStateM ε World α} (h : Steady allowed m) : Orderly allowed m :=
  fun current _ hw => ⟨current, h.ordered hw⟩

theorem Orderly.after {m : EStateM ε World α} {next : α → EStateM ε World β} (h : Steady allowed m)
    (h' : ∀ a, Orderly allowed (next a)) : Orderly allowed (m >>= next) := by
  intro current w hw
  have first := h.ordered hw
  cases hm : m w with
  | ok a w' =>
    rw [hm] at first
    rw [bind_ok hm]
    exact h' a current w' first
  | error e w' =>
    rw [hm] at first
    rw [bind_error hm]
    exact ⟨current, first⟩

/-- Nothing runs on a runtime that is dropped now. -/
theorem finalize_orderly (rt : Script.RuntimeId) :
    Orderly allowed (Script.finalize rt : EStateM ε World Unit) := by
  intro current w hw
  refine ⟨World.current _, ⟨rfl, ?_, hw.1.registered, hw.1.permitted⟩, hw.2⟩
  show w.outside.runtime.place < (w.memory.runtimes.modify _ _).size
  rw [Array.size_modify]
  exact hw.1.runtime

theorem deleteRefs_steady (refs : List Host.GlobalRef) :
    Steady allowed (Host.onRealm (Bridge.deleteRefs refs) : EStateM ε World Unit) := by
  have left : ∀ r : Realm, (Bridge.deleteRefs refs r).2.classes = r.classes ∧
      (Bridge.deleteRefs refs r).2.pending = r.pending := by
    induction refs with
    | nil => exact fun r => ⟨rfl, rfl⟩
    | cons g rest ih =>
      intro r
      obtain ⟨pending, -, classes, -⟩ := deleted_realm g r
      have after := ih (Realm.deleteGlobalRef g r).2
      exact ⟨after.1.trans classes, after.2.trans pending⟩
  exact fun w => .onRealm (left _).1 (left _).2

theorem releaseTypes_steady : Steady allowed (Bridge.releaseTypes : EStateM ε World Unit) := by
  have emptied : Steady allowed (Bridge.modifyTypes fun _ => [] : EStateM ε World Unit) := fun w =>
    ⟨fun _ h => ⟨h.current, h.runtime, h.registered, { h.permitted with }⟩, id, id, course.same rfl⟩
  exact .bind (.quiet (.bind .get fun _ => .pure _)) fun _ => .bind emptied fun _ =>
    deleteRefs_steady _

theorem forget_orderly : Orderly allowed (Context.forget : EStateM ε World Unit) := by
  have emptied : Steady allowed (Bridge.modifyState fun s => { s with conversionRefs := [] } :
      EStateM ε World Unit) := fun w =>
    ⟨fun _ h => ⟨h.current, h.runtime, h.registered, { h.permitted with }⟩, id, id, course.same rfl⟩
  refine .after (.quiet .getState) fun s => .after emptied fun _ => ?_
  refine .after (deleteRefs_steady _) fun _ => .after releaseTypes_steady fun _ => ?_
  exact .after (.quiet .getState) fun _ => finalize_orderly _

theorem shutDown_orderly : Orderly allowed (Context.shutDown : EStateM ε World Unit) := by
  refine .after (.quiet .getState) fun s => ?_
  by_cases down : (!s.shutDown) = true
  · rw [if_pos down]
    have marked : Steady allowed (Bridge.modifyState fun s => { s with shutDown := true } :
        EStateM ε World Unit) := fun w =>
      ⟨fun _ h => ⟨h.current, h.runtime, h.registered, { h.permitted with }⟩, id, id,
        course.same rfl⟩
    exact .after marked fun _ => .after closeAll_steady fun _ => forget_orderly
  · rw [if_neg down]
    exact .steady (.quiet (.pure ()))

/-- Whatever is pending, everything else is in order. -/
theorem Reached.settled (reached : Reached procedures w) : ∃ current, (discipline current).thrown w := by
  induction reached with
  | start clean started => exact ⟨none, start_settled clean started⟩
  | @performed _ op w levels _ offered ih =>
    obtain ⟨current, h⟩ := ih
    have served := (Regime.offered_serves lifecycle (machines_keep procedures levels) offered).agree
      false current _ h
    exact ⟨current, served.settled⟩
  | asked _ offered asks ih =>
    obtain ⟨current, h⟩ := ih
    obtain ⟨now, calm⟩ := asks_calm offered h asks
    exact ⟨now, (discipline now).thrown_of_calm calm⟩
  | closedAll _ ih =>
    obtain ⟨current, h⟩ := ih
    exact ⟨current, closeAll_steady.ordered h⟩
  | traced c flag _ ih =>
    obtain ⟨current, h⟩ := ih
    refine ⟨current, Steady.ordered ?_ h⟩
    exact .bind (.mild ((Prepares.lookup c).mild _)) fun _ => .quiet (.setLinkPrintStack c flag)
  | shutDown _ ih =>
    obtain ⟨current, h⟩ := ih
    exact shutDown_orderly current _ h
  | host _ clean ih =>
    obtain ⟨current, h⟩ := ih
    exact ⟨current, h.1.onRealm clean, h.2⟩
  | named names _ ih =>
    obtain ⟨current, h⟩ := ih
    exact ⟨current, ⟨h.1.current, h.1.runtime, h.1.registered, { h.1.permitted with }⟩, h.2⟩
  | read _ ih =>
    obtain ⟨current, h⟩ := ih
    exact ⟨current, ⟨h.1.current, h.1.runtime, h.1.registered, h.1.permitted⟩, h.2⟩

/-! ### Cleanliness -/

/-- What was running is running again, and nothing is pending. -/
structure LeftClean (w w' : World) : Prop where
  runtime : w'.outside.runtime = w.outside.runtime
  current : w'.current = w.current
  errors : ∀ ts, (w'.memory.interpreter ts).error = none
  pending : w'.outside.realm.pending = none

/-- However an operation ends that was asked for while no throwable was pending. -/
theorem offered_leftClean (reached : Reached procedures w) (clear : w.outside.realm.pending = none)
    (offered : Offered op) (levels : Nat) :
    LeftClean w (World.after (op (machineRunning Context.closeAll procedures levels) w)) := by
  obtain ⟨current, settled⟩ := reached.settled
  have calm := (discipline current).calm_of_thrown settled clear
  have served := (Regime.offered_serves lifecycle (machines_keep procedures levels) offered).agree
    true current w calm
  have after : (discipline current).calm
      (World.after (op (machineRunning Context.closeAll procedures levels) w)) := served.settled
  refine ⟨served.onward.1, ?_, fun ts => after.2.1 ts (by simp), after.2.2⟩
  rw [after.1.current, settled.1.current]

/-- A Host with nothing but a class loader. -/
def loaderOnly : Realm :=
  { classes := #[{ name := Host.loaderName }]
    registry := ({} : Table Host.ClassId).insert Host.loaderName ⟨0⟩
    objects := #[⟨⟨0⟩, .loader none⟩] }

/-- A session on it with one context. -/
def opened : World :=
  World.after ((Context.create (some ⟨0⟩))
    (World.after (Context.start {} ⟨{}, { realm := loaderOnly }⟩)))

theorem loaderOnly_permitted : loaderOnly.Permitted Clean := by
  intro c m hm
  have none : ∀ n, (loaderOnly.classOf ⟨n⟩).methods = []
    | 0 => rfl
    | n + 1 => rfl
  rw [none c.index] at hm
  cases hm

/-- A script that names what is not there fails and leaves nothing behind. -/
theorem offered_leftClean_undefined :
    (match Context.eval (Context.machine 2) ⟨1⟩ "missing" opened with
      | .ok _ _ => true
      | .error _ _ => false) = false ∧
    LeftClean opened (World.after (Context.eval (Context.machine 2) ⟨1⟩ "missing" opened)) := by
  refine ⟨by decide +kernel, ?_⟩
  have started : Context.start {} ⟨{}, { realm := loaderOnly }⟩ =
      .ok () (World.after (Context.start {} ⟨{}, { realm := loaderOnly }⟩)) := rfl
  have reached : Reached Context.own opened :=
    .performed 2 (.start loaderOnly_permitted started) (.create (some ⟨0⟩))
  rw [Context.machine_eq]
  exact offered_leftClean reached (by decide +kernel) (.eval ⟨1⟩ "missing") 2

end ScriptBridge.Boundary
