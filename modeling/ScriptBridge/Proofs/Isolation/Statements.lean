import ScriptBridge.Proofs.Isolation.Evaluation

/-!
# Statements keep pace

Imports and assignments bind what is held in modules that are held, so running a source text in a
held module keeps pace.
-/

namespace ScriptBridge.Isolation.Pairing

open Script (Value ModuleRef Interpreter InterpreterId RuntimeId Memory World ScriptM Exception
  Fault Raised Scope Engine Mode Code)
open Syntax (Expr Statement Target ImportNames)

variable {σ : Type} {π : Pairing} {ts : InterpreterId} {v : Value} {globals : ModuleRef}
  {body : InterpreterId → Scope → Expr → ScriptM σ Value}

theorem same_fromList (names : ImportNames) :
    π.Same (Script.fromList names) (Script.fromList names) := by
  cases names with
  | all => exact same_tuple (.text π ["*"])
  | listed names =>
    have spelled : Script.fromList (.listed names) = .tuple ((names.map (·.1)).map Value.text) := by
      rw [List.map_map]
      rfl
    rw [spelled]
    exact same_tuple (.text π _)

namespace Lockstep

/-! ### Imports -/

theorem importModule (mine : π.compared ts) (steady : π.Steady ts body) (held : π.held globals)
    (path : String) (hv : π.Holds v) :
    π.Lockstep ts π.Same (Script.importModule (Engine.closed body) ts globals path v)
      (Script.importModule (Engine.closed body) ts (globals.rename π.move) path
        (v.rename π.move)) := by
  refine .bind (.interpreter mine) fun i _ ⟨moves, rooted⟩ => ?_
  subst moves
  refine .bind (.lookup rooted.builtins "__import__") fun entry _ ⟨same, holds⟩ => ?_
  subst same
  cases entry with
  | none => exact .raise mine _
  | some entry =>
    refine call mine steady (holds entry rfl) (fun item mem => ?_ :
      ∀ item ∈ [.text path, .module globals, .none, v], π.Holds item)
    simp only [List.mem_cons, List.not_mem_nil, or_false] at mem
    rcases mem with rfl | rfl | rfl | rfl
    · exact holds_bare rfl
    · exact holds_module.2 held
    · exact holds_bare rfl
    · exact hv

theorem starEntries (mine : π.compared ts) (hv : π.Holds v) :
    π.Lockstep ts π.SameEntries (Script.starEntries (Engine.closed body) ts v)
      (Script.starEntries (Engine.closed body) ts (v.rename π.move)) := by
  cases v with
  | module m => exact .publicEntries (holds_module.1 hv)
  | foreign object => exact .bind (R := fun _ _ => False) .giveUp fun _ _ never => never.elim
  | _ => exact .raise mine _

theorem importedName (mine : π.compared ts) (hv : π.Holds v) (name : String) :
    π.Lockstep ts π.Same (Script.importedName (Engine.closed body) ts v name)
      (Script.importedName (Engine.closed body) ts (v.rename π.move) name) := by
  refine .bind (.attempt (.getAttr mine hv name)) fun outcome outcome' same => ?_
  match outcome, outcome', same with
  | .ok u, .ok u', same => exact .pure same
  | .error raised, .error raised', _ =>
    refine .bindEq (.errorIsA mine .attr) fun missing => ?_
    cases missing with
    | true => exact .raise mine _
    | false => exact .throw raised raised'

theorem bindImported (mine : π.compared ts) (held : π.held globals) (hv : π.Holds v) :
    ∀ names : List (String × Option String),
      π.Lockstep ts Eq (Script.bindImported (Engine.closed body) ts globals v names)
        (Script.bindImported (Engine.closed body) ts (globals.rename π.move) (v.rename π.move)
          names)
  | [] => .pure rfl
  | (name, newName) :: rest =>
    .bindSame (.importedName mine hv name) fun _ hu =>
      .bindEq (.bindName held (newName.getD name) hu) fun _ => bindImported mine held hv rest

theorem fromImport (mine : π.compared ts) (steady : π.Steady ts body) (held : π.held globals)
    (path : String) (names : ImportNames) :
    π.Lockstep ts Eq (Script.fromImport (Engine.closed body) ts globals path names)
      (Script.fromImport (Engine.closed body) ts (globals.rename π.move) path names) := by
  obtain ⟨same, holds⟩ := same_fromList (π := π) names
  have entry := importModule mine steady held path holds
  rw [← same] at entry
  refine .bindSame entry fun module hm => ?_
  cases names with
  | all => exact .bind (.starEntries mine hm) fun _ _ same => .bindAll held same
  | listed names => exact .bindImported mine held hm names

/-! ### Statements -/

theorem raiseValue (mine : π.compared ts) (v : Value) :
    π.Lockstep ts Eq (Script.raiseValue ts v : ScriptM σ Unit)
      (Script.raiseValue ts (v.rename π.move)) := by
  cases v with
  | errorType type => exact .raiseException mine _
  | errorInstance type message => exact .raiseException mine _
  | _ => exact .raise mine _

/-- An expression outside any lambda. -/
theorem evalIn (mine : π.compared ts) (steady : π.Steady ts body) (held : π.held globals)
    (expr : Expr) :
    π.Lockstep ts π.Same (Script.eval (Engine.closed body) ts ⟨[], globals⟩ expr)
      (Script.eval (Engine.closed body) ts ⟨[], globals.rename π.move⟩ expr) :=
  eval mine steady ⟨List.forall_mem_nil _, held⟩ expr

theorem assign (mine : π.compared ts) (steady : π.Steady ts body) (held : π.held globals)
    (target : Target) (hv : π.Holds v) :
    π.Lockstep ts Eq (Script.assign (Engine.closed body) ts globals target v)
      (Script.assign (Engine.closed body) ts (globals.rename π.move) target
        (v.rename π.move)) := by
  cases target with
  | name word => exact .bindName held word hv
  | attr object member =>
    exact .bindSame (.evalIn mine steady held object) fun _ hu => .setAttr mine hu member hv
  | index object key =>
    exact .bindSame (.evalIn mine steady held object) fun u _ =>
      .bindSame (.evalIn mine steady held key) fun k _ => .setItem mine u k v

theorem execute (mine : π.compared ts) (steady : π.Steady ts body) (held : π.held globals)
    (mode : Mode) (statement : Statement) :
    π.Lockstep ts Eq (Script.execute (Engine.closed body) ts globals mode statement)
      (Script.execute (Engine.closed body) ts (globals.rename π.move) mode statement) := by
  cases statement with
  | expr expr =>
    refine .bindSame (.evalIn mine steady held expr) fun v _ => ?_
    rw [Value.isNone_rename]
    split
    · exact .bindEq (.repr v) fun text => .printLine text
    · exact .pure rfl
  | assign target value =>
    exact .bindSame (.evalIn mine steady held value) fun _ hv =>
      .assign mine steady held target hv
  | imports path newName =>
    exact .bindSame (.importModule mine steady held path (v := .none) (holds_bare rfl)) fun _ hm =>
      .bindName held _ hm
  | fromImport path names => exact .fromImport mine steady held path names
  | raise value =>
    cases value with
    | none => exact .raise mine _
    | some value =>
      exact .bindSame (.evalIn mine steady held value) fun v _ => .raiseValue mine v
  | pass => exact .pure rfl

theorem settle : π.Lockstep ts Eq (Engine.closed body).settle (Engine.closed body).settle := by
  refine .write (fun m m' h => ⟨?_, ?_⟩) (fun _ => rfl) fun _ => rfl
  · exact h.of_same rfl rfl rfl rfl rfl rfl
  · exact .of_same ts rfl rfl rfl

theorem executeAll (mine : π.compared ts) (steady : π.Steady ts body) (held : π.held globals)
    (mode : Mode) (file : String) : ∀ program : Syntax.Program,
    π.Lockstep ts Eq (Script.executeAll (Engine.closed body) ts globals mode file program)
      (Script.executeAll (Engine.closed body) ts (globals.rename π.move) mode file program)
  | [] => .pure rfl
  | (line, statement) :: rest => by
    refine .bind (.attempt (.execute mine steady held mode statement)) fun outcome outcome' same => ?_
    refine .bindEq .settle fun _ => ?_
    match outcome, outcome', same with
    | .ok _, .ok _, _ => exact executeAll mine steady held mode file rest
    | .error raised, .error raised', _ =>
      exact .bindEq (.pushTrace mine file line) fun _ => .throw raised raised'

/-! ### Source texts -/

theorem raiseSyntax {α : Type} {R : α → α → Prop} (mine : π.compared ts) (file : String)
    (error : Syntax.SyntaxError) :
    π.Lockstep ts R (Script.raiseSyntax ts file error : ScriptM σ α)
      (Script.raiseSyntax ts file error) := .raiseException mine _

theorem compile (mine : π.compared ts) (source : String) (mode : Mode) (file : String) :
    π.Lockstep ts Eq (Script.compile ts source mode file : ScriptM σ Code)
      (Script.compile ts source mode file) := by
  unfold Script.compile
  split
  · split
    · exact .pure rfl
    · exact .raiseSyntax mine file _
  · split
    · exact .pure rfl
    · exact .raiseSyntax mine file _

theorem run (mine : π.compared ts) (steady : π.Steady ts body) (held : π.held globals)
    (code : Code) :
    π.Lockstep ts π.Same (code.run (Engine.closed body) ts globals)
      (code.run (Engine.closed body) ts (globals.rename π.move)) := by
  cases code with
  | expression value => exact .evalIn mine steady held value
  | statements mode file program =>
    exact .bindEq (.executeAll mine steady held mode file program) fun _ => .pure (same_bare rfl)

/-- A source text does the same in a module and in what the module is in the other memory. -/
theorem execSource (mine : π.compared ts) (calls : Nat) (held : π.held globals) (source : String)
    (mode : Mode) (file : String) :
    π.Lockstep ts π.Same
      (Script.execSource (Engine.alone calls) ts source mode file globals : ScriptM σ Value)
      (Script.execSource (Engine.alone calls) ts source mode file (globals.rename π.move)) := by
  obtain ⟨body, alone, steady⟩ := steady_alone (σ := σ) mine calls
  rw [alone]
  exact .bindEq (.compile mine source mode file) fun code => .run mine steady held code

end Lockstep
end ScriptBridge.Isolation.Pairing
