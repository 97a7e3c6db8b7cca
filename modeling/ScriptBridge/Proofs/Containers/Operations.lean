import Mathlib
import ScriptBridge.Context.Machine
import ScriptBridge.Proofs.Containers.Holding

/-!
# Operations on containers

What scripts do with a container: they fetch an item, store one, look for one, count the items, and
call a method that is the container's own. Counting and looking for an item are the same for all
containers; they differ in the method that answers.
-/

namespace ScriptBridge.Bridge

open Host (ClassId ObjectId Realm Method HostM BodyM Bodies LibraryMethod)
open Script (InterpreterId Foreign ErrorType)

/-! ### Operations -/

/-- An operation on a container that is indexed by keys of a type. -/
inductive Operation (κ : Type) where
  | fetch (key : κ)
  | store (key : κ) (item : Option String)
  | member (item : Option String)
  | count
  /-- The call of the container's own method. -/
  | own (item : Option String)

/-- Performs an operation as the evaluator does. -/
def Operation.perform {κ : Type} (spelled : κ → Script.Value) (method : String)
    (e : Script.Engine State) (ts : InterpreterId) (container : Script.Value) :
    Operation κ → BridgeM Script.Value
  | fetch key => Script.getItem e ts container (spelled key)
  | store key item => do
    Script.setItem e ts container (spelled key) (scriptItem item)
    return .none
  | member item => Script.applyBinary e ts .within (scriptItem item) container
  | count => Script.callNative e ts .len [container]
  | own item => do
    let function ← Script.getAttr e ts container method
    Script.call e ts function [scriptItem item]

/-- What a script sees of an operation. -/
abbrev Answer := Except ErrorType Script.Value

/-- A value that a script may index a list with: a whole number. -/
structure Index where
  value : Script.Value
  whole : Int
  reads : Script.wholeIndex? value = some whole

/-! ### Counting -/

/-- How many items a script is told that there are: the Host counts them in an int of 32 bits. -/
def counted (n : Nat) : Nat := (Int32.ofNat n).toInt64.toInt.toNat

theorem counted_eq {n : Nat} (small : n < 2 ^ 31) : counted n = n := by
  rw [counted, Int32.toInt_toInt64, Int32.toInt_ofNat_of_lt small, Int.toNat_natCast]

theorem counted_le (n : Nat) : counted n ≤ n := by
  have size : Int32.size = 2 ^ 32 := rfl
  rw [counted, Int32.toInt_toInt64, Int32.toInt_ofNat', Int.bmod_def, size]
  split <;> omega

theorem counted_lt (n : Nat) : counted n < 2 ^ 31 := by
  have bound := (Int32.ofNat n).toInt_lt
  rw [counted, Int32.toInt_toInt64]
  omega

/-! ### Depth -/

/-- Bodies may call bodies, which may call bodies again. -/
def Answering (bodies : Bodies World) : Prop :=
  ∃ callback callback' below, bodies = .over callback fun _ => .over callback' below

theorem machine_answering (levels : Nat) : Answering (Context.machine (levels + 2)).bodies :=
  ⟨fun request => Context.callback (Context.machine (levels + 1)) request,
    fun request => Context.callback (Context.machine levels) request,
    fun _ => (Context.machine levels).bodies, rfl⟩

/-! ### What all containers do -/

section

variable {s : Realm} {w v : World} {o : ObjectId} {name : String} {ts : InterpreterId}
  {f : Foreign} {calls : List Call} {own : Call} {entry : ProtocolEntry} {bodies : Bodies World}

variable (passing : Passing s) (container : ContainerOf s name calls own entry)
  (held : w.Holding s name ts f o) (answering : Answering bodies)

include passing container held answering

/-- The items are counted by the size that the Host reports. -/
theorem length_run {n : Nat} {call : Call} (mem : call ∈ calls) (named : call.name = "size")
    (params : call.params = List.map Argument.typeName []) (returns : call.returns = "int")
    (runs : ∀ (below : Bodies World) (v : World), Serves s w v →
      call.run.run below (some o) [] v = .ok (.int (.ofNat n)) v) :
    ∃ v, entry.length bodies ts o w = .ok (some (counted n)) v ∧ Serves s w v := by
  obtain ⟨callback, callback', below, rfl⟩ := answering
  obtain ⟨m, drives, calls⟩ := container.call ts mem
  have typed : Typed s call.returns .int := by
    rw [returns]
    exact passing.int
  obtain ⟨u, v, along, later, invoked⟩ := invoke_primitive ts passing held.toEquipped held.belongs
    drives params callback (fun _ => .over callback' below) (R := Serves s w)
    typed nofun rfl fun xs v later passed => by
      cases passed
      exact ⟨v, runs _ v later, later.equipped, later⟩
  have sized : entry.call (.over callback fun _ => .over callback' below) ts o "size" [] w =
      .ok (some (ofPrimitive (.int (.ofNat n)))) v := by
    rw [← named, calls]
    exact bind_ok invoked
  refine ⟨v, ?_, along.trans later⟩
  unfold ProtocolEntry.length
  rw [bind_ok sized]
  rfl

/-- An item is looked for by the method that searches. -/
theorem contains_run {item : Option String} {found : Bool} {call : Call} (mem : call ∈ calls)
    (named : call.name = entry.protocol.searchName)
    (params : call.params = [.item item].map Argument.typeName)
    (returns : call.returns = "boolean")
    (runs : ∀ callback (below : Unit → Bodies World) x (v : World), Serves s w v →
      Stores s v.outside.realm item x →
      call.run.run (.over callback below) (some o) [x] v = .ok (.boolean found) v) :
    ∃ v, entry.contains bodies ts o (scriptItem item) w = .ok (some found) v ∧ Serves s w v := by
  obtain ⟨callback, callback', below, rfl⟩ := answering
  obtain ⟨m, drives, calls⟩ := container.call ts mem
  have typed : Typed s call.returns .boolean := by
    rw [returns]
    exact passing.boolean
  obtain ⟨u, v, along, later, invoked⟩ := invoke_primitive ts passing held.toEquipped held.belongs
    drives params callback (fun _ => .over callback' below) (R := Serves s w)
    typed nofun rfl fun xs v later passed => by
      cases passed with
      | cons first rest =>
      cases first with
      | item stores =>
      cases rest
      exact ⟨v, runs _ _ _ v later stores, later.equipped, later⟩
  have searched : entry.call (.over callback fun _ => .over callback' below) ts o
      entry.protocol.searchName [scriptItem item] w = .ok (some (.bool found)) v := by
    rw [← named, calls]
    exact bind_ok invoked
  refine ⟨v, ?_, along.trans later⟩
  unfold ProtocolEntry.contains
  exact bind_ok searched

end

/-! ### Through a view -/

section

variable {s : Realm} {w : World} {o : ObjectId} {name : String} {ts : InterpreterId}
  {f : Foreign} {calls : List Call} {own : Call} {entry : ProtocolEntry} {bodies : Bodies World}
  {κ : Type} {spelled : κ → Script.Value} {key : κ} {item : Option String}
  {body : InterpreterId → Script.Scope → Syntax.Expr → BridgeM Script.Value}
  {R : World → Prop}

theorem getProxy_run : (getProxy f.place : BridgeM Proxy) w =
    .ok ((w.outside.proxies[f.place]?).getD default) w := rfl

variable (passing : Passing s) (container : ContainerOf s name calls own entry)
  (held : w.Holding s name ts f o)

include passing container held

/-- What the protocol fetches is what the script gets. -/
theorem fetch_gives {answer : Answer}
    (each : ∀ u, Serves s w u → ∃ v,
      Gives ts (entry.getItem bodies ts o (spelled key)) u (answer.map some) v ∧ R v) :
    ∃ v, Gives ts (Operation.perform spelled own.name (engine bodies body) ts (.foreign f)
      (.fetch key)) w answer v ∧ R v := by
  obtain ⟨u, later, used⟩ := withProtocol_run passing held.toEquipped container held.belongs
  obtain ⟨v, gives, holds⟩ := each u later
  refine ⟨v, ?_, holds⟩
  have same : answer.map id = answer := by cases answer <;> rfl
  rw [← same]
  show Gives ts (Bridge.getItem bodies ts f (spelled key)) w (answer.map id) v
  refine .after getProxy_run ?_
  rw [← World.viewAt, held.view]
  exact .before (.of_eq (used _) gives) fun value => rfl

/-- What the protocol does to store an item is what the script sees. -/
theorem store_gives {answer : Answer} (silent : answer.map (fun _ => .none) = answer)
    (each : ∀ u, Serves s w u → ∃ v,
      Gives ts (entry.setItem bodies ts o (spelled key) (scriptItem item)) u
        (answer.map fun _ => true) v ∧ R v) :
    ∃ v, Gives ts (Operation.perform spelled own.name (engine bodies body) ts (.foreign f)
      (.store key item)) w answer v ∧ R v := by
  obtain ⟨u, later, used⟩ := withProtocol_run passing held.toEquipped container held.belongs
  obtain ⟨v, gives, holds⟩ := each u later
  refine ⟨v, ?_, holds⟩
  have answered : Gives ts (do
      return some (← entry.setItem bodies ts o (spelled key) (scriptItem item))) u
      (answer.map fun _ => some true) v := .before gives fun _ => rfl
  have stored : Gives ts (Bridge.setItem bodies ts f (spelled key) (scriptItem item)) w
      (answer.map fun _ => ()) v := by
    refine .after getProxy_run ?_
    rw [← World.viewAt, held.view]
    exact .before (.of_eq (used _) answered) fun _ => rfl
  rw [← silent]
  exact .before stored fun _ => rfl

/-- What the protocol finds is what the script is told. -/
theorem member_run {found : Bool}
    (each : ∀ u, Serves s w u → ∃ v,
      entry.contains bodies ts o (scriptItem item) u = .ok (some found) v ∧ R v) :
    ∃ v, Gives ts (Operation.perform spelled own.name (engine bodies body) ts (.foreign f)
      (.member item)) w (.ok (.bool found)) v ∧ R v := by
  obtain ⟨u, later, used⟩ := withProtocol_run passing held.toEquipped container held.belongs
  obtain ⟨v, ran, holds⟩ := each u later
  refine ⟨v, ?_, holds⟩
  have asked := used fun entry => entry.contains bodies ts o (scriptItem item)
  have contains : Bridge.contains bodies ts f (scriptItem item) w = .ok found v := by
    refine (bind_ok getProxy_run).trans ?_
    rw [← World.viewAt, held.view]
    exact bind_ok (asked.trans ran)
  exact bind_ok contains

/-- What the protocol counts is what the script is told. -/
theorem count_run {n : Nat}
    (each : ∀ u, Serves s w u → ∃ v, entry.length bodies ts o u = .ok (some n) v ∧ R v) :
    ∃ v, Gives ts (Operation.perform spelled own.name (engine bodies body) ts (.foreign f)
      .count) w (.ok (.int (.ofNat n))) v ∧ R v := by
  obtain ⟨u, later, used⟩ := withProtocol_run passing held.toEquipped container held.belongs
  obtain ⟨v, ran, holds⟩ := each u later
  refine ⟨v, ?_, holds⟩
  have asked := used fun entry => entry.length bodies ts o
  have counted : Bridge.length bodies ts f w = .ok n v := by
    refine (bind_ok getProxy_run).trans ?_
    rw [← World.viewAt, held.view]
    exact bind_ok (asked.trans ran)
  have single : (Script.orRaise ts (Script.single "len" [.foreign f]) : BridgeM _) w =
      .ok (.foreign f) w := rfl
  exact (bind_ok single).trans (bind_ok counted)

/-- What the container's own method answers is what the script gets. -/
theorem own_run (uncommon : ∀ className members, commonAttr? className members own.name = none)
    {value : Script.Value}
    (each : ∀ m u, Drives s (s.require name) own m → Serves s w u → ∃ v,
      invoke bodies ts (some o) m [scriptItem item] u = .ok value v ∧ R v) :
    ∃ v, Gives ts (Operation.perform spelled own.name (engine bodies body) ts (.foreign f)
      (.own item)) w (.ok value) v ∧ R v := by
  obtain ⟨m, g, u, drives, later, view, taken⟩ :=
    getAttr_own ts passing held.toEquipped container held.belongs held.view uncommon
  obtain ⟨v, ran, holds⟩ := each m u drives later
  refine ⟨v, ?_, holds⟩
  exact (bind_ok (taken bodies)).trans ((call_own ts view bodies _).trans ran)

end

end ScriptBridge.Bridge
