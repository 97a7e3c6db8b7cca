import ScriptBridge.Proofs.Bookkeeping.Sessions
import ScriptBridge.Proofs.Boundary.Cleanliness
import ScriptBridge.Proofs.Causality.Reception

/-!
# What failures tell of throwables

A throwable that a script receives becomes an error whose type the bridge module of the context has
under the simple name that the text of the throwable begins with. From then until the operation
fails no name is bound and no object changes its class, so the failure can still be traced to that
text and to that name.
-/

namespace ScriptBridge.Boundary

open Host (ObjectId Realm Callback BodyM)
open Bridge (World BridgeM ContextId Machine Aftermath Failure)
open Script (InterpreterId ErrorType Exception)
open Context (Operation Offered Procedures machineRunning)
open Bookkeeping (Any Session)

variable {procedures : Procedures} {ε α β : Type} {w v u : World} {ts : InterpreterId}
  {t : ObjectId} {c text : String} {e : Exception}

/-! ### What is known of an error -/

/-- The bodies that some machine of the session has, or none at all. -/
def Attending (procedures : Procedures) (b : Host.Bodies World) : Prop :=
  b = .none ∨ ∃ levels, b = (machineRunning Context.closeAll procedures levels).bodies

/-- The Host has been asked for the text of the throwable and has said so; since then no name has
been bound, and no object has changed its class. -/
def Said (procedures : Procedures) (t : ObjectId) (text : String) (w : World) : Prop :=
  ∃ b u v, Attending procedures b ∧
    (Bridge.throwableText b t : BridgeM String) u = .ok text v ∧ Aftermath v w

/-- The error type was found by the text of the throwable. -/
structure Attributed (procedures : Procedures) (ts : InterpreterId) (type : ErrorType)
    (text : String) (t : ObjectId) (w : World) : Prop where
  said : Said procedures t text w
  finds : w.Finds ts text type

theorem Attributed.later {type : ErrorType} (h : Attributed procedures ts type text t w)
    (after : Aftermath w v) : Attributed procedures ts type text t v := by
  obtain ⟨b, u, x, attending, asked, since⟩ := h.said
  exact ⟨⟨b, u, x, attending, asked, since.trans after⟩, h.finds.aftermath after⟩

/-- An error that stands for a Host class was found by the text of its cause. -/
def Explained (procedures : Procedures) (ts : InterpreterId) (e : Exception) (w : World) : Prop :=
  ∀ c t, e.type.hostClass? = some c → e.cause = some t →
    ∃ text, e.message = some text ∧ Attributed procedures ts e.type text t w

theorem Explained.of_unmapped (h : e.Unmapped) : Explained procedures ts e w := by
  intro c t mapped caused
  rcases h with none | none
  · rw [none] at mapped
    cases mapped
  · rw [none] at caused
    cases caused

/-- The error that is pending in the interpreter, if there is one, is explained. -/
def Accounted (procedures : Procedures) (ts : InterpreterId) (w : World) : Prop :=
  ∀ e, (w.memory.interpreter ts).error = some e → Explained procedures ts e w

theorem Accounted.of_silent (h : SilentBut none w) : Accounted procedures ts w := by
  intro e pending
  rw [h ts (by simp)] at pending
  cases pending

/-- What is pending after the error of the interpreter was changed. -/
theorem error_withError {f : Option Exception → Option Exception}
    (pending : ((w.withError ts f).memory.interpreter ts).error = some e) :
    f (w.memory.interpreter ts).error = some e := by
  by_cases runs : ts.place < w.memory.interpreters.size
  · rw [World.withError, Script.World.onMemory, Bridge.interpreter_onInterpreter_self runs] at pending
    exact pending
  · have missing : ¬ts.place < (w.withError ts f).memory.interpreters.size := by
      rwa [World.withError, Script.World.onMemory, Script.Memory.onInterpreter, Array.size_modify]
    rw [Bridge.interpreter_missing missing] at pending
    cases pending

theorem Accounted.withError {f : Option Exception → Option Exception}
    (h : ∀ e, f (w.memory.interpreter ts).error = some e → Explained procedures ts e w) :
    Accounted procedures ts (w.withError ts f) := by
  intro e pending c t mapped caused
  obtain ⟨text, message, attributed⟩ := h e (error_withError pending) c t mapped caused
  exact ⟨text, message, attributed.later (.withError ts f w)⟩

/-- The error that a throwable becomes has the type that its text leads to. -/
theorem errorFor_finds {o : ObjectId}
    (made : (Bridge.errorFor ts o text : EStateM ε World Exception) w = .ok e v) :
    v = w ∧ e.message = some text ∧ e.cause = some o ∧
      ∀ c, e.type.hostClass? = some c → w.Finds ts text e.type := by
  obtain ⟨found, ran, finds⟩ := Bridge.mappedType?_finds (ε := ε) ts text w
  unfold Bridge.errorFor at made
  rw [bind_ok (Bridge.getRealm_run w)] at made
  dsimp only at made
  split at made
  · cases made
    exact ⟨rfl, rfl, rfl, nofun⟩
  · rw [bind_ok ran] at made
    cases made
    refine ⟨rfl, rfl, rfl, fun c stands => ?_⟩
    cases found with
    | none => cases stands
    | some type => exact finds type rfl

/-! ### The regime -/

/-- Whatever throwable is pending, no error is between the steps of a script, and every error that a
script has raised is explained. -/
def explaining (procedures : Procedures) (current : Option InterpreterId) : Discipline course where
  allowed := Any
  serving := Attending procedures
  calm := Ordered Any current
  raised ts w := Settled Any current w ∧ SilentBut (some ts) w ∧ Accounted procedures ts w
  thrown := Ordered Any current
  permitted h := h.1.permitted
  calm_of_background changed h := ⟨h.1.of_background changed, h.2.of_background changed⟩
  raised_of_background {ts w w'} changed later h := by
    refine ⟨h.1.of_background changed, h.2.1.of_background changed, fun e pending c t => ?_⟩
    have tracked : w'.memory.tracked = w.memory.tracked :=
      congrArg Tracked.interpreters changed.tracked
    rw [error_eq, tracked, ← error_eq] at pending
    intro mapped caused
    obtain ⟨text, message, attributed⟩ := h.2.2 e pending c t mapped caused
    exact ⟨text, message, attributed.later later⟩
  thrown_of_background changed h := ⟨h.1.of_background changed, h.2.of_background changed⟩
  raised_of_calm h := ⟨h.1, h.2.but _, .of_silent h.2⟩
  thrown_of_calm h := h
  calm_of_thrown h _ := h
  raise unmapped h := by
    refine ⟨h.1.withError _ _, h.2.1.withError _, .withError fun e same => ?_⟩
    cases same
    exact .of_unmapped unmapped
  trace file line h := by
    refine ⟨h.1.withError _ _, h.2.1.withError _, .withError fun e traced => ?_⟩
    obtain ⟨before, pending, rfl⟩ := Option.map_eq_some_iff.1 traced
    exact h.2.2 before pending
  receive {ts b o text e u w w'} attending asked _ made h := by
    refine ⟨h.1.withError _ _, (h.2.but _).withError _, .withError fun e' same => ?_⟩
    cases same
    obtain ⟨rfl, message, cause, finds⟩ := errorFor_finds made
    intro c t mapped caused
    rw [cause] at caused
    cases caused
    exact ⟨text, message, ⟨b, u, w', attending, asked, .refl _⟩, finds c mapped⟩
  clearError h := ⟨h.1.withError _ _, h.2.1.cleared⟩
  setPending _ h := ⟨h.1.onRealm h.1.permitted.realm, h.2⟩
  clearPending h := ⟨h.1.onRealm h.1.permitted.realm, h.2⟩
  leaks _ h := h

/-- A failure that names a Host class and has a throwable as its cause tells the text of the
throwable, and the bridge module has the error type of the class under the name that it begins
with. -/
def Reports (procedures : Procedures) (f : Failure) (w : World) : Prop :=
  ∀ kind message c t, f = .script kind message (some c) (some t) →
    ∃ ts type text, kind = type.qualifiedName ∧ type.hostClass? = some c ∧
      message = kind ++ ": " ++ text ∧ Attributed procedures ts type text t w

theorem ofException_script {kind message : String} {mapped : Option String}
    {cause : Option ObjectId} (h : Failure.ofException e = .script kind message mapped cause) :
    e.type.qualifiedName = kind ∧ e.render = message ∧ e.type.hostClass? = mapped ∧
      e.cause = cause := by
  unfold Failure.ofException at h
  split at h
  · cases h
  split at h
  · cases h
  split at h
  · split at h <;> cases h
  split at h
  · cases h
  · simpa using h

theorem reports_ofException (explained : Explained procedures ts e w) :
    Reports procedures (.ofException e) w := by
  intro kind message c t same
  obtain ⟨rfl, rfl, mapped, caused⟩ := ofException_script same
  obtain ⟨text, told, attributed⟩ := explained c t mapped caused
  refine ⟨ts, e.type, text, rfl, mapped, ?_, attributed⟩
  rw [Exception.render, told]

/-- The discipline that goes with each running interpreter. -/
def explanations (procedures : Procedures) : Regime course where
  of := explaining procedures
  reports := Reports procedures
  reports_unmapped unmapped kind message c t same := (unmapped kind message c t same).elim
  reports_raised raised pending := reports_ofException (raised.2.2 _ pending)
  reports_later after reported kind message c t same := by
    obtain ⟨ts, type, text, named, mapped, told, attributed⟩ := reported kind message c t same
    exact ⟨ts, type, text, named, mapped, told, attributed.later after⟩
  enter _ h := ⟨h.1.withCurrent _, h.2⟩
  enterThrown _ h := ⟨h.1.withCurrent _, h.2⟩
  leave h h' := ⟨h.1.current ▸ h'.1.withCurrent _, h'.2⟩
  leaveThrown h h' := ⟨h.1.current ▸ h'.1.withCurrent _, h'.2⟩
  stays h registered onward := Bridge.State.state_stays (h.1.registered _ registered) onward.2

/-! ### Opening and closing -/

/-- The step always succeeds. -/
def Unfailing (m : EStateM ε World α) : Prop := ∀ w, ∃ a v, m w = .ok a v

namespace Unfailing

theorem quiet {m : EStateM ε World α} (h : Quiet Clean m) : Unfailing m := fun w => by
  obtain ⟨a, v, ran, -⟩ := h w
  exact ⟨a, v, ran⟩

theorem bind {m : EStateM ε World α} {next : α → EStateM ε World β} (h : Unfailing m)
    (h' : ∀ a, Unfailing (next a)) : Unfailing (m >>= next) := by
  intro w
  obtain ⟨a, v, ran⟩ := h w
  rw [bind_ok ran]
  exact h' a v

theorem modifying {f : World → World} : Unfailing (modify f : EStateM ε World PUnit) :=
  fun _ => ⟨_, _, rfl⟩

theorem failsUnmapped {m : Operation α} (h : Unfailing m) : FailsUnmapped m := by
  intro w f v failed
  obtain ⟨a, u, ran⟩ := h w
  rw [ran] at failed
  cases failed

end Unfailing

theorem newInterpreter_unfailing (rt : Script.RuntimeId) :
    Unfailing (Script.newInterpreter rt : EStateM ε World InterpreterId) := by
  refine .bind (.quiet (.bind .getMemory fun _ => .pure _)) fun r => ?_
  refine .bind (.quiet (.newModule _ _)) fun builtins => .bind (.quiet (.bindAll _ _)) fun _ => ?_
  refine .bind (.quiet (.newModule _ _)) fun main => .bind (.quiet (.bindName _ _ _)) fun _ => ?_
  exact .bind (.quiet .getMemory) fun m => .bind .modifying fun _ => .bind .modifying fun _ =>
    .quiet (.pure _)

theorem openOver_unfailing (loader : ObjectId) :
    Unfailing (Context.openOver loader : EStateM ε World ContextId) := by
  refine .bind (.quiet .getState) fun s => .bind (newInterpreter_unfailing _) fun state => ?_
  refine .bind (.quiet .getState) fun s => .bind (.quiet (.newBridgeModule _)) fun module => ?_
  refine .bind (.quiet (.addModule _ _)) fun _ => .bind (.quiet .installImport) fun _ => ?_
  refine .bind (.quiet (.newGlobalRef _)) fun g => .bind (.quiet (.getInterpreter _)) fun i => ?_
  exact .bind .modifying fun _ => .quiet (.pure _)

theorem teardown_unfailing (c : ContextId) :
    Unfailing (Context.teardown c : EStateM ε World Unit) := by
  refine .bind (.quiet (.getContext c)) fun context => ?_
  have dissolved : Unfailing (Context.dissolve c context : EStateM ε World Unit) := by
    refine .bind .modifying fun _ => .bind (.quiet (.releaseValues _)) fun _ => ?_
    refine .bind (.quiet (.getInterpreter _)) fun i => .bind .modifying fun _ => ?_
    have ended : Unfailing ((do
        Script.endInterpreter context.state
        Bridge.reclaim false) : EStateM ε World Unit) := by
      refine .bind (.bind (.quiet (.getInterpreter _)) fun i => .bind .modifying fun _ => ?_)
        fun _ => .quiet (.reclaim false)
      exact .bind (.quiet (.clearAll _)) fun _ => .bind (.quiet (.clearAll _)) fun _ =>
        .bind .modifying fun _ => .modifying
    cases context.loaderRef with
    | some g => exact .bind .modifying fun _ => ended
    | none => exact ended
  by_cases open' : (!context.closed) = true
  · rw [if_pos open']
    exact dissolved
  · rw [if_neg open']
    exact .quiet (.pure ())

theorem create_unmapped (loader : Option ObjectId) : FailsUnmapped (Context.create loader) := by
  refine .bind (Prepares.checkLoader loader).unmapped fun loader => ?_
  refine .bind (Unfailing.quiet .getState).failsUnmapped fun s => ?_
  refine .bind (Unfailing.quiet (.bind .getMemory fun _ => .pure _)).failsUnmapped fun rt => ?_
  by_cases finalized : rt.finalized
  · rw [if_pos finalized]
    have refused : (Failure.unavailable "script runtime is finalized").Unmapped := nofun
    exact .bind (Prepares.throw refused).unmapped fun (_ : PUnit) =>
      (openOver_unfailing loader).failsUnmapped
  · rw [if_neg finalized]
    exact (openOver_unfailing loader).failsUnmapped

theorem close_unmapped (c : ContextId) : FailsUnmapped (Context.close c) := by
  refine .bind (Prepares.lookup c).unmapped fun context => fun w f v failed => ?_
  cases busy : w.current.filter (· != context.state) with
  | some other =>
    rw [entering_refused busy] at failed
    cases failed
    exact nofun
  | none =>
    have closed : Unfailing (do
        Context.unregister c
        Context.teardown c : Operation Unit) := .bind .modifying fun _ => teardown_unfailing c
    obtain ⟨_, u, ran⟩ := closed (w.withCurrent (some context.state))
    rw [entering_free busy, ran] at failed
    cases failed

theorem between_iff {clear : Bool} {current : Option InterpreterId} :
    (explanations procedures).between clear current w ↔ Ordered Any current w := by
  cases clear <;> rfl

/-- A step that leaves the slots alone ends as the regime asks. -/
theorem Steady.explains {m : EStateM ε World α} (h : Steady Any m) {current : Option InterpreterId}
    (hw : Ordered Any current w) {err : ε → World → Prop}
    (failed : ∀ f v, m w = .error f v → Ordered Any current v → err f v) :
    AgreeAt course (fun _ => Ordered Any current) err w (m w) (m w) := by
  have after := h.ordered hw
  refine ⟨fun _ => rfl, (h w).onward, ?_⟩
  cases ended : m w with
  | ok a v =>
    rw [ended] at after
    exact after
  | error f v =>
    rw [ended] at after
    exact failed f v ended after

theorem Steady.explained {m : Operation α} (h : Steady Any m) (unmapped : FailsUnmapped m) :
    (explanations procedures).Serves m m := by
  intro clear current w hw
  refine (h.explains (between_iff.mp hw) fun f v failed hv => ?_).weaken
    (fun _ _ hv => between_iff.mpr hv) fun _ _ hv => hv
  exact ⟨between_iff.mpr hv, fun _ _ _ _ same => (unmapped w f v failed _ _ _ _ same).elim⟩

theorem explanations_lifecycle (procedures : Procedures) : (explanations procedures).Lifecycle where
  create loader := (create_steady loader).explained (create_unmapped loader)
  close c := (close_steady c).explained (close_unmapped c)
  keepLoader current _ c loader _ hw := (keepLoader_steady c loader).explains hw.1 fun _ _ _ hv =>
    (explaining procedures current).raised_of_calm hv

/-! ### Sessions -/

theorem explaining_covers (procedures : Procedures) (current : Option InterpreterId) :
    (explaining procedures current).Covers (Context.answering Context.closeAll procedures) where
  none := .inl rfl
  levels level := .inr ⟨level, by rw [Context.machineRunning_eq]⟩

theorem closeAll_explained (procedures : Procedures) (current : Option InterpreterId) :
    (explaining procedures current).Keeps (explaining procedures current).fails
      (Context.closeAll : BodyM World Unit) Context.closeAll fun _ => True := by
  intro w hw
  refine (closeAll_steady.explains hw fun failure v _ hv => ?_).weaken
    (fun _ _ hv => ⟨trivial, hv⟩) fun _ _ hv => hv
  cases failure <;> exact hv

theorem machines_explain (procedures : Procedures) (levels : Nat) :
    (explanations procedures).Machines (machineRunning Context.closeAll procedures levels)
      (machineRunning Context.closeAll procedures levels) :=
  Regime.machineRunning_agree (explanations_lifecycle procedures)
    (explaining_covers procedures) (closeAll_explained procedures) levels

theorem offered_explained {op : Machine → Operation α} (offered : Offered op)
    (procedures : Procedures) (levels : Nat) :
    (explanations procedures).Serves (op (machineRunning Context.closeAll procedures levels))
      (op (machineRunning Context.closeAll procedures levels)) :=
  Regime.offered_serves (explanations_lifecycle procedures) (machines_explain procedures levels)
    offered

/-- Everything but throwables is in order after an operation if it was before. -/
theorem offered_ordered {op : Machine → Operation α} {current : Option InterpreterId}
    (ordered : Ordered Any current w) (offered : Offered op) (procedures : Procedures)
    (levels : Nat) : Ordered Any current
      (World.after (op (machineRunning Context.closeAll procedures levels) w)) :=
  ((offered_explained offered procedures levels).agree true current w ordered).settled

/-- In a session everything but throwables is in order. -/
theorem session_ordered {loose : Prop} {w₀ : World} {current : Option InterpreterId}
    (begun : Ordered Any current w₀) (session : Session procedures w₀ loose w) :
    ∃ current, Ordered Any current w := by
  induction session with
  | here => exact ⟨current, begun⟩
  | performed levels _ offered ih =>
    obtain ⟨current, h⟩ := ih
    exact ⟨current, offered_ordered h offered procedures levels⟩
  | asked _ offered asks ih =>
    obtain ⟨current, h⟩ := ih
    exact Regime.asks_calm (explanations_lifecycle procedures) (explaining_covers procedures)
      (closeAll_explained procedures) offered true (between_iff.mpr h) id asks
  | closedAll _ ih =>
    obtain ⟨current, h⟩ := ih
    exact ⟨current, closeAll_steady.ordered h⟩
  | shutDown _ ih =>
    obtain ⟨current, h⟩ := ih
    exact shutDown_orderly current _ h
  | traced c flag _ ih =>
    obtain ⟨current, h⟩ := ih
    refine ⟨current, Steady.ordered ?_ h⟩
    exact .bind (.mild ((Prepares.lookup c).mild _)) fun _ => .quiet (.setLinkPrintStack c flag)
  | host _ _ _ ih =>
    obtain ⟨current, h⟩ := ih
    exact ⟨current, h.1.onRealm (Bookkeeping.any_permitted { realm := _ }).realm, h.2⟩
  | named names _ ih =>
    obtain ⟨current, h⟩ := ih
    exact ⟨current, ⟨h.1.current, h.1.runtime, h.1.registered, { h.1.permitted with }⟩, h.2⟩
  | read _ ih =>
    obtain ⟨current, h⟩ := ih
    exact ⟨current, ⟨h.1.current, h.1.runtime, h.1.registered, h.1.permitted⟩, h.2⟩

end ScriptBridge.Boundary
