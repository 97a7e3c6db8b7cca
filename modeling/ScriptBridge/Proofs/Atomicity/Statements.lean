import ScriptBridge.Proofs.Atomicity.Expressions
import ScriptBridge.Proofs.Isolation.Memory

/-!
# Statements that fail

A statement computes whatever it needs before it binds anything, so one that fails leaves every
namespace as it was. The one exception is a from-import with a list of names: it looks each name up
and binds it before it looks up the next, so it leaves those bound that stand before the name at
which it failed.
-/

namespace ScriptBridge.Script

open Syntax (Expr Statement Target ImportNames)

variable {σ ε α β : Type} {e : Engine σ} {ts : InterpreterId} {globals : ModuleRef} {w v : World σ}

/-- The step changes no binding if it fails. -/
def FailsAtomically (step : ScriptM σ α) : Prop :=
  ∀ w raised v, step w = .error raised v → v.memory.namespaces = w.memory.namespaces

/-- The step does not fail. -/
def Succeeds (step : ScriptM σ α) : Prop := ∀ w, ∃ a v, step w = .ok a v

theorem BindsNothing.of_ok {step : EStateM ε (World σ) α} (h : BindsNothing step) {a : α}
    (ended : step w = .ok a v) : v.memory.namespaces = w.memory.namespaces := by
  have here := h w
  rwa [ended] at here

theorem BindsNothing.of_error {step : EStateM ε (World σ) α} (h : BindsNothing step) {raised : ε}
    (ended : step w = .error raised v) : v.memory.namespaces = w.memory.namespaces := by
  have here := h w
  rwa [ended] at here

namespace FailsAtomically

theorem of_bindsNothing {step : ScriptM σ α} (h : BindsNothing step) : FailsAtomically step :=
  fun _ _ _ failed => h.of_error failed

theorem of_succeeds {step : ScriptM σ α} (h : Succeeds step) : FailsAtomically step := by
  intro w raised v failed
  obtain ⟨a, u, ended⟩ := h w
  rw [ended] at failed
  cases failed

theorem bind {step : ScriptM σ α} {next : α → ScriptM σ β} (first : BindsNothing step)
    (second : ∀ a, FailsAtomically (next a)) : FailsAtomically (step >>= next) := by
  intro w raised v failed
  cases ended : step w with
  | ok a u =>
    rw [bind_ok ended] at failed
    rw [second a u raised v failed]
    exact first.of_ok ended
  | error raised' u =>
    rw [bind_error ended] at failed
    cases failed
    exact first.of_error ended

end FailsAtomically

theorem bindName_succeeds (m : ModuleRef) (name : String) (value : Value) :
    Succeeds (bindName m name value : ScriptM σ Unit) := fun _ => ⟨_, _, rfl⟩

theorem bindAll_succeeds (m : ModuleRef) (entries : List (String × Value)) :
    Succeeds (bindAll m entries : ScriptM σ Unit) := by
  induction entries with
  | nil => exact fun _ => ⟨_, _, rfl⟩
  | cons entry rest ih => exact fun w => ih _

/-! ### Imports -/

namespace BindsNothing

theorem importModule (he : e.BindsNothing) (path : String) (wanted : Value) :
    BindsNothing (importModule e ts globals path wanted) := by
  refine .bind .interpreter fun i => .bind (.lookup _ _) fun found => ?_
  cases found with
  | some entry => exact .call he entry _
  | none => exact .raise _

theorem foreignEntries (he : e.BindsNothing) (f : Foreign) (names : List String) :
    BindsNothing (foreignEntries e ts f names) := by
  induction names with
  | nil => exact .pure _
  | cons name rest ih => exact .bind (he.getAttr ts f name) fun _ => .bind ih fun _ => .pure _

theorem starEntries (he : e.BindsNothing) (module : Value) :
    BindsNothing (starEntries e ts module) := by
  unfold Script.starEntries
  split
  · exact .read _
  · exact .bind (he.attrNames _) fun names => .foreignEntries he _ names
  · exact .raise _

theorem importedName (he : e.BindsNothing) (module : Value) (name : String) :
    BindsNothing (importedName e ts module name) := by
  refine .bind (.attempt (.getAttr he module name)) fun outcome => ?_
  cases outcome with
  | ok value => exact .pure value
  | error raised =>
    refine .bind (.bind .interpreter fun _ => .pure _) fun missing => ?_
    split
    · exact .raise _
    · exact .throw raised

end BindsNothing

/-- The attribute that a value has where nothing is foreign. -/
def attributeIn? (namespaces : Array (Table Value)) : Value → String → Option Value
  | .module m, name => (namespaces[m.place]?.getD {}).get? name
  | .errorType type, name => if name = "__name__" then some (.text type.name) else none
  | .errorInstance _ message, name =>
    if name = "message" then some ((message.map .text).getD .none) else none
  | _, _ => none

/-- Binds names to the attributes of a value one after the other, each under its alias if it has
one. A name may be an attribute only because one before it was bound. -/
def bindListed (globals : ModuleRef) (module : Value) :
    List (String × Option String) → Array (Table Value) → Option (Array (Table Value))
  | [], namespaces => some namespaces
  | (name, newName) :: rest, namespaces =>
    match attributeIn? namespaces module name with
    | some value =>
      bindListed globals module rest
        (namespaces.modify globals.place (·.insert (newName.getD name) value))
    | none => none

theorem bindName_namespaces (m : ModuleRef) (name : String) (value : Value) (w : World σ) :
    endBindings (bindName m name value w : EStateM.Result Raised _ Unit) =
      w.memory.namespaces.modify m.place (·.insert name value) := by
  show ((w.memory.release _).onNamespace _ m).namespaces = _
  rw [Memory.onNamespace, (Isolation.Pairing.release_namespaces _ w.memory).1]

section

variable {body : InterpreterId → Scope → Expr → ScriptM σ Value}

variable (ts body) in
/-- Where nothing is foreign, an attribute is found exactly if the value has it. -/
theorem getAttr_closed (module : Value) (name : String) (w : World σ) :
    match getAttr (Engine.closed body) ts module name w with
    | .ok value _ => attributeIn? w.memory.namespaces module name = some value
    | .error _ _ => attributeIn? w.memory.namespaces module name = none := by
  cases module with
  | module m =>
    have found : (lookup? m name : ScriptM σ (Option Value)) w =
        .ok ((w.memory.namespaceOf m).get? name) w := rfl
    simp only [getAttr, attributeIn?]
    rw [bind_ok found, Memory.namespaceOf]
    cases (w.memory.namespaces[m.place]?.getD {}).get? name <;> rfl
  | errorType type =>
    simp only [getAttr, attributeIn?]
    by_cases named : name = "__name__"
    · rw [if_pos named, if_pos named]
      rfl
    · rw [if_neg named, if_neg named]
      rfl
  | errorInstance type message =>
    simp only [getAttr, attributeIn?]
    by_cases named : name = "message"
    · rw [if_pos named, if_pos named]
      rfl
    · rw [if_neg named, if_neg named]
      rfl
  | _ => rfl

variable (ts body) in
/-- A name can be imported exactly if it is an attribute. -/
theorem importedName_closed (module : Value) (name : String) (w : World σ) :
    match importedName (Engine.closed body) ts module name w with
    | .ok value _ => attributeIn? w.memory.namespaces module name = some value
    | .error _ _ => attributeIn? w.memory.namespaces module name = none := by
  have asked := getAttr_closed ts body module name w
  unfold importedName
  cases ended : getAttr (Engine.closed body) ts module name w with
  | ok value u =>
    have tried : (attempt (getAttr (Engine.closed body) ts module name) : ScriptM σ _) w =
        .ok (.ok value) u := by simp only [attempt, ended]
    rw [ended] at asked
    rw [bind_ok tried]
    exact asked
  | error raised u =>
    have tried : (attempt (getAttr (Engine.closed body) ts module name) : ScriptM σ _) w =
        .ok (.error raised) u := by simp only [attempt, ended]
    have read : (errorIsA ts .attr : ScriptM σ Bool) u =
        .ok ((u.memory.interpreter ts).error.any (·.isA .attr)) u := rfl
    rw [ended] at asked
    rw [bind_ok tried]
    dsimp only
    rw [bind_ok read]
    split <;> rename_i same <;> split at same <;> cases same
    · exact asked
    · exact asked

/-- By induction on the names: those before the one at which it fails are bound, and no others. -/
theorem bindImported_error (bodies : ∀ ts scope expr, BindsNothing (body ts scope expr))
    {module : Value} {names : List (String × Option String)} {raised : Raised}
    (failed : bindImported (Engine.closed body) ts globals module names w = .error raised v) :
    ∃ done name newName rest, names = done ++ (name, newName) :: rest ∧
      bindListed globals module done w.memory.namespaces = some v.memory.namespaces ∧
      attributeIn? v.memory.namespaces module name = none := by
  induction names generalizing w with
  | nil => cases failed
  | cons entry rest ih =>
    obtain ⟨name, newName⟩ := entry
    have asked := importedName_closed ts body module name w
    have binds : BindsNothing (importedName (Engine.closed body) ts module name) :=
      .importedName (Engine.closed_bindsNothing bodies) module name
    rw [bindImported] at failed
    cases ended : importedName (Engine.closed body) ts module name w with
    | ok value u =>
      rw [ended] at asked
      rw [bind_ok ended] at failed
      obtain ⟨_, x, bound⟩ := bindName_succeeds globals (newName.getD name) value u
      rw [bind_ok bound] at failed
      have here := bindName_namespaces globals (newName.getD name) value u
      rw [bound, binds.of_ok ended] at here
      obtain ⟨done, last, lastName, more, split, listed, missing⟩ := ih failed
      refine ⟨(name, newName) :: done, last, lastName, more, by rw [split]; rfl, ?_, missing⟩
      simp only [bindListed, asked]
      rw [← here]
      exact listed
    | error raised' u =>
      rw [ended] at asked
      rw [bind_error ended] at failed
      cases failed
      have here := binds.of_error ended
      exact ⟨[], name, newName, rest, rfl, congrArg some here.symm, by rwa [here]⟩

end

/-! ### Statements -/

/-- The bindings that a statement leaves behind which fails: those there were, and where a
from-import failed at one of its names, those before it as well. -/
def LeavesBehind (e : Engine σ) (ts : InterpreterId) (globals : ModuleRef) (w : World σ)
    (left : Array (Table Value)) : Statement → Prop
  | .fromImport path (.listed names) =>
    match importModule e ts globals path (fromList (.listed names)) w with
    | .ok module _ => ∃ done name newName rest, names = done ++ (name, newName) :: rest ∧
        bindListed globals module done w.memory.namespaces = some left ∧
        attributeIn? left module name = none
    | .error _ _ => left = w.memory.namespaces
  | _ => left = w.memory.namespaces

namespace FailsAtomically

theorem assign (he : e.BindsNothing) (target : Target) (value : Value) :
    FailsAtomically (assign e ts globals target value) := by
  cases target with
  | name word => exact .of_succeeds (bindName_succeeds globals word value)
  | attr object member =>
    refine .bind (.eval he _ object) fun object => ?_
    unfold setAttr
    split
    · exact .of_succeeds (bindName_succeeds _ member value)
    · exact .of_bindsNothing (he.setAttr ts _ member value)
    · exact .of_bindsNothing (.raise _)
  | index object key =>
    refine .bind (.eval he _ object) fun object => .bind (.eval he _ key) fun key => ?_
    unfold setItem
    split
    · exact .of_bindsNothing (he.setItem ts _ key value)
    · exact .of_bindsNothing (.raise _)

theorem raiseValue (value : Value) : FailsAtomically (raiseValue ts value : ScriptM σ Unit) := by
  unfold Script.raiseValue
  split
  · exact .of_bindsNothing (.raiseException _)
  · exact .of_bindsNothing (.raiseException _)
  · exact .of_bindsNothing (.raise _)

theorem importStar (he : e.BindsNothing) (path : String) :
    FailsAtomically (fromImport e ts globals path .all) := by
  refine .bind (.importModule he path _) fun module => .bind (.starEntries he module) fun entries => ?_
  exact .of_succeeds (bindAll_succeeds globals entries)

theorem execute (he : e.BindsNothing) (mode : Mode) {statement : Statement}
    (other : ∀ path names, statement ≠ .fromImport path (.listed names)) :
    FailsAtomically (execute e ts globals mode statement) := by
  cases statement with
  | expr value =>
    refine .bind (.eval he _ value) fun value => ?_
    split
    · exact .of_bindsNothing (.bind (.repr he value) fun _ => .printLine _)
    · exact .of_bindsNothing (.pure _)
  | assign target value => exact .bind (.eval he _ value) fun value => .assign he target value
  | imports path newName =>
    exact .bind (.importModule he path _) fun module => .of_succeeds (bindName_succeeds _ _ module)
  | fromImport path names =>
    cases names with
    | all => exact .importStar he path
    | listed names => exact absurd rfl (other path names)
  | raise value =>
    cases value with
    | none => exact .of_bindsNothing (.raise _)
    | some value => exact .bind (.eval he _ value) fun value => .raiseValue value
  | pass => exact .of_bindsNothing (.pure _)

end FailsAtomically

theorem execute_leavesBehind {body : InterpreterId → Scope → Expr → ScriptM σ Value}
    (bodies : ∀ ts scope expr, BindsNothing (body ts scope expr)) {mode : Mode}
    {statement : Statement} {raised : Raised}
    (failed : execute (Engine.closed body) ts globals mode statement w = .error raised v) :
    LeavesBehind (Engine.closed body) ts globals w v.memory.namespaces statement := by
  have he := Engine.closed_bindsNothing bodies
  by_cases listed : ∃ path names, statement = .fromImport path (.listed names)
  · obtain ⟨path, names, rfl⟩ := listed
    have binds : BindsNothing (importModule (Engine.closed body) ts globals path
        (fromList (.listed names))) := .importModule he path _
    rw [execute, fromImport] at failed
    simp only [LeavesBehind]
    cases ended : importModule (Engine.closed body) ts globals path (fromList (.listed names)) w with
    | ok module u =>
      rw [bind_ok ended] at failed
      have left := bindImported_error bodies failed
      rwa [binds.of_ok ended] at left
    | error raised' u =>
      rw [bind_error ended] at failed
      cases failed
      exact binds.of_error ended
  · have other : ∀ path names, statement ≠ .fromImport path (.listed names) :=
      fun path names same => listed ⟨path, names, same⟩
    have same := FailsAtomically.execute he mode other w raised v failed
    unfold LeavesBehind
    split
    · exact absurd rfl (other _ _)
    · exact same

/-! ### Programs -/

/-- By induction on the program: it fails at one of its statements, with the bindings that the
statements before it have made and what that one leaves behind. -/
theorem executeAll_leavesBehind {body : InterpreterId → Scope → Expr → ScriptM σ Value}
    (bodies : ∀ ts scope expr, BindsNothing (body ts scope expr)) {mode : Mode} {file : String}
    {program : Syntax.Program} {raised : Raised}
    (failed : executeAll (Engine.closed body) ts globals mode file program w = .error raised v) :
    ∃ done line statement rest u, program = done ++ (line, statement) :: rest ∧
      executeAll (Engine.closed body) ts globals mode file done w = .ok () u ∧
      LeavesBehind (Engine.closed body) ts globals u v.memory.namespaces statement := by
  induction program generalizing w with
  | nil => cases failed
  | cons entry rest ih =>
    obtain ⟨line, statement⟩ := entry
    have settles : ∀ u : World σ, (Engine.closed body).settle u =
        .ok () (u.onMemory fun m => { m with released := [] }) := fun _ => rfl
    cases ended : execute (Engine.closed body) ts globals mode statement w with
    | ok done u =>
      have tried : (attempt (execute (Engine.closed body) ts globals mode statement) :
          ScriptM σ _) w = .ok (.ok ()) u := by simp only [attempt, ended]
      rw [executeAll, bind_ok tried, bind_ok (settles u)] at failed
      obtain ⟨done, line', statement', more, x, split, before, left⟩ := ih failed
      refine ⟨(line, statement) :: done, line', statement', more, x, by rw [split]; rfl, ?_, left⟩
      rw [executeAll, bind_ok tried, bind_ok (settles u)]
      exact before
    | error raised' u =>
      have tried : (attempt (execute (Engine.closed body) ts globals mode statement) :
          ScriptM σ _) w = .ok (.error raised') u := by simp only [attempt, ended]
      rw [executeAll, bind_ok tried, bind_ok (settles u)] at failed
      cases failed
      have left := execute_leavesBehind bodies ended
      exact ⟨[], line, statement, rest, w, rfl, rfl, left⟩

/-- Whatever the depth of calls, the engine for scripts that meet nothing foreign is closed. -/
theorem alone_closed (calls : Nat) :
    ∃ body : InterpreterId → Scope → Expr → ScriptM σ Value,
      Engine.alone calls = Engine.closed body ∧ ∀ ts scope expr, BindsNothing (body ts scope expr) := by
  have he : (Engine.alone calls : Engine σ).BindsNothing := Engine.alone_bindsNothing calls
  cases calls with
  | zero => exact ⟨_, rfl, he.body⟩
  | succ calls => exact ⟨_, rfl, he.body⟩

/-- A statement that fails leaves every binding as it was, but for the names that a from-import has
bound before the one at which it failed; and an expression changes no binding at all. -/
theorem failures_leave_bindings (calls : Nat) (ts : InterpreterId) :
    (∀ globals mode statement (w v : World σ) raised,
      execute (Engine.alone calls) ts globals mode statement w = .error raised v →
      LeavesBehind (Engine.alone calls) ts globals w v.memory.namespaces statement) ∧
    ∀ scope expr, BindsNothing (eval (Engine.alone calls : Engine σ) ts scope expr) := by
  obtain ⟨body, closed, bodies⟩ := alone_closed (σ := σ) calls
  rw [closed]
  refine ⟨fun globals mode statement w v raised failed => ?_, fun scope expr => ?_⟩
  · exact execute_leavesBehind bodies failed
  · exact .eval (Engine.closed_bindsNothing bodies) scope expr

/-- A world with a runtime and its first interpreter. -/
def firstInterpreter : World Unit :=
  match (do newInterpreter (← newRuntime) : ScriptM Unit InterpreterId) ⟨{}, ()⟩ with
  | .ok _ w => w
  | .error _ w => w

/-- The second name is no attribute of the module. -/
def fromMath : Statement := .fromImport "math" (.listed [("pi", some "p"), ("tau", none)])

theorem failures_leave_bindings_tau : ∃ v, execute (Engine.alone 0) ⟨0⟩
      (firstInterpreter.memory.interpreter ⟨0⟩).main .file fromMath firstInterpreter = .error {} v ∧
    LeavesBehind (Engine.alone 0) ⟨0⟩ (firstInterpreter.memory.interpreter ⟨0⟩).main firstInterpreter
      v.memory.namespaces fromMath ∧
    (v.memory.namespaceOf (firstInterpreter.memory.interpreter ⟨0⟩).main).names =
      ["__name__", "p"] := by
  have ends : (match execute (Engine.alone 0) ⟨0⟩ (firstInterpreter.memory.interpreter ⟨0⟩).main
      .file fromMath firstInterpreter with
    | .ok _ _ => false
    | .error _ v => (v.memory.namespaceOf (firstInterpreter.memory.interpreter ⟨0⟩).main).names ==
        ["__name__", "p"]) = true := by decide +kernel
  generalize firstInterpreter = w at ends ⊢
  split at ends
  · cases ends
  · rename_i raised v failed
    exact ⟨v, failed, (failures_leave_bindings 0 ⟨0⟩).1 _ _ _ _ _ _ failed, beq_iff_eq.mp ends⟩

end ScriptBridge.Script
