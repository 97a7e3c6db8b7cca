import ScriptBridge.Proofs.Flight.Directed
import ScriptBridge.Proofs.Bookkeeping.Sessions
import ScriptBridge.Proofs.Causality.Striking
import ScriptBridge.Proofs.Library.Standard

/-!
# One flight at a time

A thread runs scripts of one context only. While an operation of a context waits for the Host, the
Host can ask the same context again, at any depth. Every other context refuses, and a refusal leaves
no trace, so the script that waits cannot tell it from any other error.
-/

namespace ScriptBridge.Flight

open Host (ObjectId Realm Callback BodyM HostM)
open Bridge (World State BridgeM ContextId Machine Failure)
open Script (InterpreterId)
open Context (Operation Offered Procedure Procedures Asks machineAsking machineRunning answering)
open Bookkeeping (Kept Session Created created_entry)

variable {α β : Type} {procedures : Procedures} {w w' w₀ : World} {a b : ContextId}
  {op body : Machine → Operation α} {levels level : Nat} {request : Callback}

/-! ### What happens while an operation waits -/

/-- Operations of the context wait in the state for the Host, the first of which was asked for in
the other state. -/
inductive Waiting (procedures : Procedures) (a : ContextId) (w : World) : World → Prop
  | asked {α : Type} {op body : Machine → Operation α} {levels level : Nat} {request : Callback}
    {v : World} : Directed a w op body →
    Asks (answering Context.closeAll procedures) levels op w level request v →
    Waiting procedures a w v
  /-- The Host has gone on, and may have asked for any operations. -/
  | did {β : Type} {v : World} (step : Procedure β) (levels : Nat) : Waiting procedures a w v →
    Waiting procedures a w (World.after
      (step.run Context.closeAll (machineRunning Context.closeAll procedures levels) v))
  | traced {v : World} (c : ContextId) (flag : Bool) : Waiting procedures a w v →
    Waiting procedures a w (World.after (Context.setPrintStack c flag v))
  /-- An operation that the Host has asked for waits in its turn. -/
  | nested {β : Type} {op : Machine → Operation β} {levels level : Nat} {request : Callback}
    {v v' : World} : Waiting procedures a w v → Offered op →
    Asks (answering Context.closeAll procedures) levels op v level request v' →
    Waiting procedures a w v'

/-! ### The first operation -/

theorem leaving_leaving (current current' : Option InterpreterId)
    (r : EStateM.Result Failure World α) :
    leaving current' (leaving current r) = leaving current' r := by
  cases r with
  | ok a v => simp only [leaving, withCurrent_withCurrent]
  | error f v => simp only [leaving, withCurrent_withCurrent]

/-- On its own context an operation does the same if the interpreter was already running. -/
theorem Directed.aboard (directed : Directed a w op body) (kept : Kept w)
    (registered : a ∈ w.outside.registry) (idle : w.current = none) (x : Machine) :
    op x w = leaving none (op x (w.withCurrent (some (w.outside.context a).state))) := by
  let ts := (w.outside.context a).state
  let u := w.withCurrent (some ts)
  have running : u.current = some ts := Boundary.current_withCurrent kept.sound.runtime
  have again : op x u = Context.entering ts (body x) u :=
    (directed.withCurrent (some ts)).enters (kept.withCurrent _) registered x
  have inner : Context.entering ts (body x) u =
      leaving (some ts) (body x (u.withCurrent (some ts))) := by
    rw [entering_leaving (by simp [running, Option.filter]), running]
  have first : op x w = leaving none (body x u) := by
    rw [directed.enters kept registered x, entering_leaving (by simp [idle]), idle]
  rw [first, again, inner, leaving_leaving, withCurrent_withCurrent]

theorem Directed.waits (directed : Directed a w op body) (kept : Kept w)
    (registered : a ∈ w.outside.registry) (idle : w.current = none)
    (asks : Asks (answering Context.closeAll procedures) levels op w level request w') :
    Asks (answering Context.closeAll procedures) levels op
      (w.withCurrent (some (w.outside.context a).state)) level request w' := by
  obtain ⟨ask', same, different⟩ := asks
  refine ⟨ask', same, fun equal => different ?_⟩
  rw [directed.aboard kept registered idle, directed.aboard kept registered idle, equal]

/-- The first operation takes its context aboard. -/
theorem held_aboard (kept : Kept w) (registered : a ∈ w.outside.registry) :
    Held a (w.outside.context a).state w (w.withCurrent (some (w.outside.context a).state)) where
  begun := by
    obtain ⟨ts, ref, found⟩ := kept.sound.registered a registered
    obtain ⟨x, -, context, rfl, -⟩ := Bookkeeping.entry_context found
    exact ⟨ref, false, context ▸ found⟩
  sober := .still (.begin kept False.elim) (kept.withCurrent _) rfl
  listed := fun _ => registered
  current := Boundary.current_withCurrent kept.sound.runtime

/-! ### A text that is a request -/

variable {ask : Nat → Callback → BodyM World Host.Value} {v : World} {o : ObjectId}

/-- What the object runs to tell its text. -/
def textBody? (r : Realm) (o : ObjectId) : Option Host.Body := do
  let m ← (r.methods (r.require Host.objectName)).find? fun m =>
    m.name == "toString" && m.params == []
  if m.isStatic then none else (r.resolveVirtual (r.classIdOf o) m).body.getLeft?

theorem toText_asked (plain : w.outside.realm.text? o = none)
    (runs : textBody? w.outside.realm o = some .closeContexts)
    (answer : ask level .closeContexts w = .ok .null v) :
    Host.toText (machineAsking ask (level + 1)).bodies o w = .ok "null" v := by
  obtain ⟨m, found, runs⟩ := Option.bind_eq_some_iff.1 runs
  have virtual : m.isStatic = false := by
    cases static : m.isStatic with
    | false => rfl
    | true => simp [static] at runs
  have body : (w.outside.realm.resolveVirtual (w.outside.realm.classIdOf o) m).body =
      .inl .closeContexts := by
    simpa [virtual, Sum.getLeft?_eq_some_iff] using runs
  have params := List.find?_some found
  simp only [Bool.and_eq_true, beq_iff_eq] at params
  have got : (Host.getMethod (w.outside.realm.require Host.objectName) "toString" [] :
      HostM World Host.Method) w = .ok m w := by
    unfold Host.getMethod
    rw [bind_ok (Bridge.getRealm_run w)]
    exact Bridge.findMember_run found
  have ran : Host.callMethod (machineAsking ask (level + 1)).bodies (some o) m [] w =
      .ok .null v := by
    have chosen : w.chosen (some o) m =
        some (some o, w.outside.realm.resolveVirtual (w.outside.realm.classIdOf o) m) := by
      simp [Bridge.World.chosen, virtual]
    rw [Bridge.callMethod_run (by simp [Host.Method.arity, params.2]) chosen body]
    have asked : (machineAsking ask (level + 1)).bodies.method .closeContexts (some o) [] w =
        .ok .null v := answer
    simp only [Host.running, asked]
  unfold Host.toText
  rw [bind_ok (Bridge.getRealm_run w)]
  simp only [plain]
  rw [bind_ok got, bind_ok ran]
  rfl

/-- Inside the context, the text of the object is asked for before anything else is done. -/
theorem handleText_asked {h : Context.Handle} {f : Script.Foreign} (kept : Kept w)
    (registered : a ∈ w.outside.registry) (idle : w.current = none)
    (calm : w.outside.realm.pending = none)
    (held : Context.handleValue? (w.outside.context a) h = some (.foreign f))
    (view : w.viewAt f.place = .object o) (plain : w.outside.realm.text? o = none)
    (runs : textBody? w.outside.realm o = some .closeContexts)
    (answer : ask level .closeContexts (w.withCurrent (some (w.outside.context a).state)) =
      .ok .null v) :
    Context.handleText (machineAsking ask (level + 1)) a h w = .ok "null" (v.withCurrent none) := by
  let u := w.withCurrent (some (w.outside.context a).state)
  have text := toText_asked (w := u) plain runs answer
  have told : Script.toText (machineAsking ask (level + 1)).engine (w.outside.context a).state
      (.foreign f) u = .ok "null" v := by
    have proxy : (Bridge.getProxy f.place : BridgeM _) u = .ok _ u := rfl
    refine (bind_ok (Bridge.getRealm_run u)).trans ((bind_ok proxy).trans ?_)
    have same : (u.outside.proxies[f.place]?.getD default).view = .object o := view
    rw [same]
    exact Bridge.hostCall_ok text _ _
  have still : (Bridge.pendingFailure? (machineAsking ask (level + 1)).bodies : Operation _) u =
      .ok none u := by
    refine (bind_ok (Bridge.getRealm_run u)).trans ?_
    have none : u.outside.realm.pending = none := calm
    simp only [none]
    rfl
  have got : (Bridge.getContext a : BridgeM _) u = .ok (w.outside.context a) u := rfl
  have tried {next : Bridge.Context → BridgeM String}
      (reads : next (w.outside.context a) u = .ok "null" v) :
      (Script.attempt ((Bridge.getContext a : BridgeM _) >>= next) : Operation _) u =
        .ok (.ok "null") v := by
    simp only [Script.attempt]
    rw [bind_ok got, reads]
  refine (within_enters kept registered _ _).trans ?_
  rw [entering_leaving (by simp [idle]), idle]
  unfold inside
  rw [bind_ok still]
  refine congrArg (leaving none) (bind_ok (tried ?_))
  rw [held]
  exact told

/-- The operation would go another way if nothing were done at the request. -/
theorem handleText_asks {h : Context.Handle} {f : Script.Foreign} (kept : Kept w)
    (registered : a ∈ w.outside.registry) (idle : w.current = none)
    (calm : w.outside.realm.pending = none)
    (held : Context.handleValue? (w.outside.context a) h = some (.foreign f))
    (view : w.viewAt f.place = .object o) (plain : w.outside.realm.text? o = none)
    (runs : textBody? w.outside.realm o = some .closeContexts) :
    Asks (answering Context.closeAll Context.own) (level + 1)
      (fun x => Context.handleText x a h) w level .closeContexts
      (w.withCurrent (some (w.outside.context a).state)) := by
  classical
  let u := w.withCurrent (some (w.outside.context a).state)
  let ask' : Nat → Callback → BodyM World Host.Value := fun l r v =>
    if (l, r, v) = (level, .closeContexts, u) then .ok .null u
    else answering Context.closeAll Context.own l r v
  refine ⟨ask', fun l r v elsewhere => if_neg elsewhere, ?_⟩
  obtain ⟨⟨⟩, v, closed, -, registry, -⟩ :=
    Bookkeeping.closeAll_ended (ε := Host.Throw) (kept.withCurrent _)
  have answer : answering Context.closeAll Context.own level .closeContexts u = .ok .null v := by
    rw [answering, Context.own_run]
    exact bind_ok closed
  dsimp only
  rw [handleText_asked kept registered idle calm held view plain runs (if_pos rfl),
    handleText_asked kept registered idle calm held view plain runs answer]
  intro same
  have cleared : w.outside.registry = v.outside.registry :=
    congrArg (fun r => (World.after r).outside.registry) same
  rw [cleared, registry] at registered
  cases registered

/-! ### The run -/

/-- Throughout the interpreter of the context is the one that is running. -/
theorem waiting_held (kept : Kept w) (registered : a ∈ w.outside.registry) (idle : w.current = none)
    (waiting : Waiting procedures a w w') : Held a (w.outside.context a).state w w' := by
  induction waiting with
  | asked directed asks =>
    exact asks_held (held_aboard kept registered) directed.offered
      (directed.waits kept registered idle asks)
  | did step levels _ ih => exact procedure_held ih step procedures levels
  | traced c flag _ ih =>
    have quiet : Mild Bookkeeping.Any (Context.setPrintStack c flag) :=
      .bind ((Prepares.lookup c).mild _) fun _ => .of_quiet (.setLinkPrintStack c flag)
    exact ih.steady (Steadfast.mild quiet _ ih.sober.kept)
  | nested _ offered asks ih => exact asks_held ih offered asks

/-- Only the context whose interpreter is running takes operations. The others refuse, nothing
changes, and the Host goes on with the failure. -/
structure Exclusive (procedures : Procedures) (a : ContextId) (ts : InterpreterId) (w : World) :
    Prop where
  current : w.current = some ts
  refused {b : ContextId} {α : Type} {op body : Machine → Operation α} (other : b ≠ a)
    (directed : Directed b w op body) : ∃ reason,
      (∀ x, op x w = .error (.unavailable reason) w) ∧
      ∀ {β : Type} (next : Except Failure α → Procedure β) (closing : BodyM World Unit)
        (x : Machine),
        ((Procedure.perform op directed.offered).bind next).run closing x w =
          (next (.error (.unavailable reason))).run closing x w
  executed {α : Type} {op body : Machine → Operation α} (opened : Bookkeeping.IsOpen w a)
    (directed : Directed a w op body) (x : Machine) : op x w = leaving (some ts) (body x w)
  resumed {α : Type} {op : Machine → Operation α} (offered : Offered op) (levels : Nat) :
    (World.after (op (machineRunning Context.closeAll procedures levels) w)).current = some ts

variable {ts : InterpreterId} {since : World}

/-- The other contexts have other interpreters, which cannot be entered. -/
theorem Held.refuses (h : Held a ts since w) (other : b ≠ a) (directed : Directed b w op body) :
    ∃ reason, ∀ x, op x w = .error (.unavailable reason) w := by
  by_cases registered : b ∈ w.outside.registry
  · obtain ⟨_, ref, found⟩ := h.sober.kept.sound.registered b registered
    obtain ⟨_, -, rfl, rfl, -⟩ := Bookkeeping.entry_context found
    obtain ⟨ref', closed, own⟩ := h.row
    have apart : ts ≠ (w.outside.context b).state := fun same =>
      other (h.sober.kept.sound.distinct found own (congrArg _ same.symm))
    have busy : w.current.filter (· != (w.outside.context b).state) = some ts := by
      simp [h.current, Option.filter, apart]
    exact ⟨_, fun x => (directed.enters h.sober.kept registered x).trans (entering_refused busy _)⟩
  · exact ⟨_, directed.unlisted registered⟩

/-- The context itself is entered once more. -/
theorem Held.executes (h : Held a ts since w) (opened : Bookkeeping.IsOpen w a)
    (directed : Directed a w op body) (x : Machine) : op x w = leaving (some ts) (body x w) := by
  obtain ⟨ref, closed, found⟩ := h.row
  have created := Bookkeeping.entry_created found
  have registered := h.listed ((Bookkeeping.open_tracked created).2 opened)
  obtain ⟨_, -, rfl, rfl, -⟩ := Bookkeeping.entry_context found
  have aboard : w.withCurrent (some (w.outside.context a).state) = w := by
    rw [← h.current, withCurrent_current]
  rw [directed.enters h.sober.kept registered, entering_leaving (by simp [h.current, Option.filter]),
    aboard, h.current]

theorem Held.exclusive (h : Held a ts since w) (procedures : Procedures) :
    Exclusive procedures a ts w where
  current := h.current
  refused other directed := by
    obtain ⟨reason, fails⟩ := h.refuses other directed
    refine ⟨reason, fails, fun next closing x => ?_⟩
    have tried : (Procedure.perform _ directed.offered).run closing x w =
        .ok (.error (.unavailable reason)) w := by
      simp only [Procedure.run, Script.attempt, fails]
    exact bind_ok tried
  executed opened directed x := h.executes opened directed x
  resumed offered levels := (offered_held h offered procedures levels).current

/-- A context that is asked for something while no script is running has its thread to itself
until it is done. -/
theorem single_flight {r : Realm} {config : Config} {loose : Prop}
    (started : Context.start config ⟨{}, { realm := r }⟩ = .ok () w₀)
    (session : Session procedures w₀ loose w) (idle : w.current = none)
    (registered : a ∈ w.outside.registry) (waiting : Waiting procedures a w w') :
    Exclusive procedures a (w.outside.context a).state w' := by
  have kept := (Bookkeeping.session_kept (Bookkeeping.start_kept started).1 session).1.kept
  exact (waiting_held kept registered idle waiting).exclusive procedures

/-- A Host with a loader and an object whose text closes every context. -/
def closer (r : Realm) : Realm :=
  let (c, r) := Realm.allocateClass
    { name := "Closer", superclass := r.registry.get? Host.objectName
      methods := [{ name := "toString", declaringClass := "Closer", params := []
                    returnType := Host.stringName, body := .inl .closeContexts }] } r
  (Realm.allocate c (.fields {}) (Realm.newLoader none r).2).2

/-- The first of two contexts keeps the object. -/
def keep (w : World) : World :=
  let furnished : World := ⟨w.memory, { w.outside with realm := closer w.outside.realm }⟩
  let paired := World.after (Context.create (some ⟨9⟩)
    (World.after (Context.create (some ⟨9⟩) furnished)))
  World.after (Context.evalForHandle (Context.machine 1) ⟨1⟩ "x"
    (World.after (Context.setGlobal (Context.machine 1) ⟨1⟩ "x" (.object (some ⟨10⟩)) none paired)))

theorem keep_session (kept : Kept w) : ∃ loose, Session Context.own w loose (keep w) := by
  have furnished : Session Context.own w False
      ⟨w.memory, { w.outside with realm := closer w.outside.realm }⟩ :=
    .host .here kept.apart.kept (Nat.le_refl _)
  have paired := (furnished.performed 0 (.create (some ⟨9⟩))).performed 0 (.create (some ⟨9⟩))
  have bound := paired.performed 1 (.setGlobal ⟨1⟩ "x" (.object (some ⟨10⟩)) none)
  have kept := bound.performed 1 (.evalForHandle ⟨1⟩ "x")
  rw [← Context.machine_eq] at kept
  exact ⟨_, kept⟩

/-- Nothing is going on, and the object is behind a handle of the first context. -/
def isKeeping (w : World) : Bool :=
  w.current.isNone && w.outside.registry == [⟨1⟩, ⟨2⟩] && w.outside.realm.pending.isNone &&
    (w.outside.context ⟨1⟩).state == ⟨0⟩ &&
    (match Context.handleValue? (w.outside.context ⟨1⟩) ⟨1⟩ with
      | some (.foreign f) => f.place == 0
      | _ => false) &&
    (match w.viewAt 0 with | .object o => o == ⟨10⟩ | _ => false) &&
    (w.outside.realm.text? ⟨10⟩).isNone &&
    (match textBody? w.outside.realm ⟨10⟩ with | some .closeContexts => true | _ => false)

theorem isKeeping_waits (kept : Kept w) (keeping : isKeeping w = true) :
    w.current = none ∧ ⟨1⟩ ∈ w.outside.registry ∧ (w.outside.context ⟨1⟩).state = ⟨0⟩ ∧
      ∃ v, Waiting Context.own ⟨1⟩ w v ∧ v.outside.registry = [⟨1⟩, ⟨2⟩] := by
  simp only [isKeeping, Bool.and_eq_true, Option.isNone_iff_eq_none, beq_iff_eq] at keeping
  obtain ⟨⟨⟨⟨⟨⟨⟨idle, registry⟩, calm⟩, state⟩, held⟩, shown⟩, plain⟩, runs⟩ := keeping
  have registered : (⟨1⟩ : ContextId) ∈ w.outside.registry := by simp [registry]
  have body : textBody? w.outside.realm ⟨10⟩ = some .closeContexts := by
    split at runs <;> simp_all
  have view : w.viewAt 0 = .object ⟨10⟩ := by
    split at shown <;> simp_all
  obtain ⟨f, value, place⟩ : ∃ f : Script.Foreign,
      Context.handleValue? (w.outside.context ⟨1⟩) ⟨1⟩ = some (.foreign f) ∧ f.place = 0 := by
    split at held <;> simp_all
  have asks : Asks (answering Context.closeAll Context.own) 1
      (fun x => Context.handleText x ⟨1⟩ ⟨1⟩) w 0 .closeContexts (w.withCurrent (some ⟨0⟩)) := by
    rw [← state]
    exact handleText_asks kept registered idle calm value (place.symm ▸ view) plain body
  exact ⟨idle, registered, state, _, .asked (.handleText ⟨1⟩) asks, registry⟩

theorem isKeeping_started : isKeeping (keep .started) = true := by decide +kernel

/-- While the first context waits for the text, it is the only one that takes operations. -/
theorem single_flight_closer :
    ∃ v, Waiting Context.own ⟨1⟩ (keep .started) v ∧ v.outside.registry = [⟨1⟩, ⟨2⟩] ∧
      Exclusive Context.own ⟨1⟩ ⟨0⟩ v := by
  have kept := (Bookkeeping.start_kept started_eq).1
  obtain ⟨loose, session⟩ := keep_session kept
  obtain ⟨idle, registered, state, v, waiting, registry⟩ :=
    isKeeping_waits (Bookkeeping.session_kept kept session).1.kept isKeeping_started
  have exclusive := single_flight started_eq session idle registered waiting
  rw [state] at exclusive
  exact ⟨v, waiting, registry, exclusive⟩

end ScriptBridge.Flight
