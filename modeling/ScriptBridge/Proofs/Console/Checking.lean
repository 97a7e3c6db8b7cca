import ScriptBridge.Proofs.Causality.Striking
import ScriptBridge.Proofs.Limits.Counters

/-!
# Whether source is complete

In an open context the check of a source text tells whether the text can be read, and leaves no
trace. Conversely an operation of a script that succeeds has found its context open.
-/

namespace ScriptBridge

open Bridge (World State BridgeM ContextId Machine)
open Script (InterpreterId)
open Syntax (Program SyntaxError readProgram)

variable {α : Type} {x : Machine} {c : ContextId} {ts : InterpreterId} {w v : World}
  {source : String}

namespace Context

/-! ### Operations in an open context -/

theorem calm_of_pendingFailure? {bodies : Host.Bodies World}
    (none_pending : (Bridge.pendingFailure? bodies : Operation _) w = .ok none v) :
    w.outside.realm.pending = none ∧ v = w := by
  unfold Bridge.pendingFailure? at none_pending
  have realm : (Host.getRealm : Operation Host.Realm) w = .ok w.outside.realm w := rfl
  rw [bind_ok realm] at none_pending
  cases pending : w.outside.realm.pending with
  | none =>
    rw [pending] at none_pending
    cases none_pending
    exact ⟨rfl, rfl⟩
  | some throwable =>
    rw [pending] at none_pending
    obtain ⟨_, w₁, -, none_pending⟩ := ok_of_bind none_pending
    obtain ⟨_, w₂, -, none_pending⟩ := ok_of_bind none_pending
    obtain ⟨_, w₃, -, none_pending⟩ := ok_of_bind none_pending
    cases none_pending

theorem of_lookup {context : Bridge.Context} (found : lookup c w = .ok context v) :
    w.outside.registry.contains c = true ∧ context = w.outside.context c ∧ w = v := by
  have state : (Bridge.getState : Operation State) w = .ok w.outside w := rfl
  unfold lookup at found
  rw [bind_ok state] at found
  split at found
  · rename_i registered
    cases found
    exact ⟨registered, rfl, rfl⟩
  · cases found

theorem of_entering {step : Operation α} {a : α} (done : entering ts step w = .ok a v) :
    w.current.filter (· != ts) = none ∧
      ∃ u : World, step (w.withCurrent (some ts)) = .ok a u ∧ v = u.withCurrent w.current := by
  cases free : w.current.filter (· != ts) with
  | some other =>
    rw [entering_refused free] at done
    cases done
  | none =>
    rw [entering_free free] at done
    cases ran : step (w.withCurrent (some ts)) with
    | ok b u =>
      rw [ran] at done
      cases done
      exact ⟨rfl, u, rfl, rfl⟩
    | error f u =>
      rw [ran] at done
      cases done

/-- What succeeds in a context has found it open, and is what its script has done there. -/
theorem of_within {work : InterpreterId → BridgeM α} {a : α} (done : within x c work w = .ok a v) :
    ∃ ts, ∃ u : World, w.Admits c ts ∧ work ts (w.withCurrent (some ts)) = .ok a u ∧
      v = u.withCurrent w.current := by
  unfold within at done
  obtain ⟨context, w₁, looked, entered⟩ := ok_of_bind done
  obtain ⟨registered, rfl, rfl⟩ := of_lookup looked
  obtain ⟨free, u, inside, rfl⟩ := of_entering entered
  generalize own : (w.outside.context c).state = ts at inside free
  have context : (Bridge.getContext c : Operation _) (w.withCurrent (some ts)) =
    .ok (w.outside.context c) (w.withCurrent (some ts)) := rfl
  rw [bind_ok context] at inside
  cases opened : (w.outside.context c).closed with
  | true =>
    rw [opened] at inside
    cases inside
  | false =>
    rw [opened] at inside
    obtain ⟨pending, w₁, asked, ran⟩ := ok_of_bind inside
    cases pending with
    | some failure => cases ran
    | none =>
      obtain ⟨calm, rfl⟩ := calm_of_pendingFailure? asked
      refine ⟨ts, u, ⟨registered, own, opened, free, calm⟩, ?_, rfl⟩
      obtain ⟨outcome, w₂, worked, left⟩ := ok_of_bind ran
      simp only [Script.attempt] at worked
      cases step : work ts (w.withCurrent (some ts)) with
      | ok b u' =>
        rw [step] at worked
        cases worked
        cases left
        rfl
      | error raised u' =>
        rw [step] at worked
        cases worked
        obtain ⟨f, u'', -, thrown⟩ := ok_of_bind left
        cases thrown

/-! ### Whether source is complete -/

theorem withCurrent_back (w : World) (current : Option InterpreterId) :
    (w.withCurrent current).withCurrent w.current = w := by
  rw [withCurrent_withCurrent, withCurrent_current]

theorem check_complete {p : Program} (admits : w.Admits c ts) (read : readProgram source = .ok p) :
    check x c source w = .ok .complete w := by
  have compiled : (Script.compile ts source .single "<stdin>" : BridgeM _)
      (w.withCurrent (some ts)) =
    .ok (.statements .single "<stdin>" p) (w.withCurrent (some ts)) := by
    unfold Script.compile
    simp only [read]
    rfl
  have checked : check x c source w =
      .ok .complete ((w.withCurrent (some ts)).withCurrent w.current) :=
    within_done admits (bind_ok (Bridge.attempt_ok compiled))
  rw [checked, withCurrent_back]

/-- An error that is raised and cleared leaves no trace if none was pending. -/
theorem withError_cleared (made : ts.place < w.memory.interpreters.size)
    (silent : (w.memory.interpreter ts).error = none) (e : Script.Exception) :
    (w.withError ts fun _ => some e).withError ts (fun _ => none) = w := by
  have same : (w.memory.onInterpreter ts fun i => { i with error := some e }).onInterpreter ts
      (fun i => { i with error := none }) = w.memory := by
    rw [Script.Memory.onInterpreter_onInterpreter]
    refine Script.Memory.onInterpreter_fixed made ?_
    generalize w.memory.interpreter ts = i at silent ⊢
    cases i
    cases silent
    rfl
  exact congrArg (fun m => { w with memory := m }) same

theorem check_incomplete {e : SyntaxError} (admits : w.Admits c ts)
    (made : ts.place < w.memory.interpreters.size) (silent : (w.memory.interpreter ts).error = none)
    (read : readProgram source = .error e) (mistake : e.isSyntax = true) :
    check x c source w = .ok .incomplete w := by
  let w₀ := w.withCurrent (some ts)
  let exception := (Script.Fault.syntaxError e).exception.pushTrace "<stdin>" e.position.line
  let v := w₀.withError ts fun _ => some exception
  have compiled : (Script.compile ts source .single "<stdin>" : BridgeM _) w₀ = .error {} v := by
    unfold Script.compile
    simp only [read, Script.raiseSyntax, mistake, if_true]
    rfl
  have raised : (v.memory.interpreter ts).error = some exception :=
    congrArg Script.Interpreter.error (Bridge.interpreter_onInterpreter_self made)
  have parsing : exception.isA .parsing = true := by
    have family : (Script.Fault.syntaxError e).family = .parsing := if_pos mistake
    show (Script.ErrorType.builtin (Script.Fault.syntaxError e).family).isA .parsing = true
    rw [family]
    rfl
  have asked : (Script.errorIsA ts .parsing : BridgeM Bool) v = .ok true v := by
    show EStateM.Result.ok ((v.memory.interpreter ts).error.any (·.isA .parsing)) v = _
    rw [raised, Option.any_some, parsing]
  have checked : check x c source w =
      .ok .incomplete ((v.withError ts fun _ => none).withCurrent w.current) := by
    refine within_done admits ((bind_ok (Bridge.attempt_error compiled)).trans ?_)
    exact (bind_ok asked).trans rfl
  have cleared : v.withError ts (fun _ => none) = w₀ :=
    withError_cleared (w := w₀) made silent exception
  rw [checked, cleared, withCurrent_back]

end Context
end ScriptBridge
