import ScriptBridge.Proofs.Bookkeeping.Upkeep

/-!
# How contexts get lost

An operation loses a context exactly if it matters what closing all of them does while some cannot
be entered. What is lost stays lost, and what is closed stays closed.
-/

namespace ScriptBridge.Bookkeeping

open Host (Callback BodyM)
open Bridge (World State ContextId Machine)
open Script (InterpreterId)
open Context (Operation Offered Procedures Asks machineRunning answering)

variable {w w' since : World} {α : Type} {lossy strict : Prop}

/-! ### Closing every context -/

/-- Closing every context, or nothing if some cannot be entered. -/
noncomputable def guarded : BodyM World Unit := fun w =>
  open Classical in if Free w then Context.closeAll w else .ok () w

/-- Whoever closes every context does the same while all of them can be entered. -/
def Obeys (closing : BodyM World Unit) : Prop := ∀ w, Free w → closing w = Context.closeAll w

theorem guarded_obeys : Obeys guarded := fun _ free => if_pos free

theorem closeAll_keeps (lossy : Prop) (since : World) (current : Option InterpreterId) :
    ((regime lossy False since).of current).Keeps ((regime lossy False since).of current).fails
      Context.closeAll Context.closeAll fun _ => True := by
  intro w hw
  obtain ⟨⟨⟩, v, hv, kept, -, onward, lost⟩ := closeAll_succeeds (ε := Host.Throw) hw.kept
  have later : Later w v := ⟨onward, fun h => lost.2 (.inl h)⟩
  rw [hv]
  exact ⟨fun _ => rfl, later, trivial, kept, False.elim, hw.later.trans later⟩

/-- Whoever obeys does the same unless a context gets lost. -/
theorem closeAll_agrees {closing : BodyM World Unit} (obeys : Obeys closing) (since : World)
    (current : Option InterpreterId) :
    ((regime True False since).of current).Keeps ((regime True False since).of current).fails
      Context.closeAll closing fun _ => True := by
  intro w hw
  have kept := closeAll_keeps True since current w hw
  refine ⟨fun found => ?_, kept.onward, kept.reached⟩
  obtain ⟨⟨⟩, v, hv, -, -, -, lost⟩ := closeAll_succeeds (ε := Host.Throw) hw.kept
  rw [hv] at found
  have free : Free w := Classical.byContradiction fun busy => found ⟨trivial, lost.2 (.inr busy)⟩
  exact (obeys w free).symm

theorem guarded_keeps (since : World) (current : Option InterpreterId) :
    ((regime True True since).of current).Keeps ((regime True True since).of current).fails
      guarded guarded fun _ => True := by
  intro w hw
  by_cases free : Free w
  · have same : guarded w = Context.closeAll w := if_pos free
    obtain ⟨⟨⟩, v, hv, kept, -, onward, lost⟩ := closeAll_succeeds (ε := Host.Throw) hw.kept
    have later : Later w v := ⟨onward, fun h => lost.2 (.inl h)⟩
    have found : ¬Lost v := fun h => (lost.1 h).elim (hw.found trivial) fun busy => busy free
    rw [same, hv]
    exact ⟨fun _ => rfl, later, trivial, kept, fun _ => found, hw.later.trans later⟩
  · have same : guarded w = .ok () w := if_neg free
    rw [same]
    exact .still rfl ⟨trivial, hw⟩

/-! ### Operations -/

variable {op : Machine → Operation α} {procedures : Procedures} {levels level : Nat}
  {request : Callback}

/-- The operation does not depend on what closing every context does while some of them cannot be
entered. -/
def Careful (procedures : Procedures) (op : Machine → Operation α) (levels : Nat) (w : World) :
    Prop :=
  ∀ closing, Obeys closing → op (machineRunning closing procedures levels) w =
    op (machineRunning Context.closeAll procedures levels) w

theorem covers {lossy strict : Prop} {since : World}
    {ask : Nat → Callback → BodyM World Host.Value} : (discipline lossy strict since).Covers ask :=
  ⟨trivial, fun _ => trivial⟩

theorem machines_keep (lossy : Prop) (since : World) (procedures : Procedures) (levels : Nat) :
    (regime lossy False since).Machines (machineRunning Context.closeAll procedures levels)
      (machineRunning Context.closeAll procedures levels) :=
  Regime.machineRunning_agree (lifecycle lossy False since) (fun _ => covers)
    (closeAll_keeps lossy since) levels

/-- Whatever an operation does, the books are kept and what was lost stays lost. -/
theorem offered_sober (h : Kept w) (offered : Offered op) (procedures : Procedures) (levels : Nat) :
    Sober False w (World.after (op (machineRunning Context.closeAll procedures levels) w)) := by
  have served := (Regime.offered_serves (lifecycle True False w)
    (machines_keep True w procedures levels) offered).agree true none w (.begin h False.elim)
  exact served.settled

/-- An operation loses a context exactly if it is not careful. -/
theorem offered_lost (h : Kept w) (found : ¬Lost w) (offered : Offered op) (procedures : Procedures)
    (levels : Nat) :
    Lost (World.after (op (machineRunning Context.closeAll procedures levels) w)) ↔
      ¬Careful procedures op levels w := by
  constructor
  · intro lost careful
    have agree : (regime True True w).Machines (machineRunning guarded procedures levels)
        (machineRunning guarded procedures levels) :=
      Regime.machineRunning_agree (lifecycle True True w) (fun _ => covers) (guarded_keeps w) levels
    have served := (Regime.offered_serves (lifecycle True True w) agree offered).agree true none w
      (.begin h fun _ => found)
    have after : Sober True w (World.after (op (machineRunning guarded procedures levels) w)) :=
      served.settled
    rw [careful guarded guarded_obeys] at after
    exact after.found trivial lost
  · intro careless
    refine Classical.byContradiction fun kept => careless fun closing obeys => ?_
    have agree : (regime True False w).Machines (machineRunning Context.closeAll procedures levels)
        (machineRunning closing procedures levels) :=
      Regime.machineRunning_agree (lifecycle True False w) (fun _ => covers)
        (closeAll_agrees obeys w) levels
    have served := Regime.offered_serves (lifecycle True False w) agree offered true none w
      (.begin h False.elim)
    exact (served.same fun lost => kept lost.2).symm

/-! ### Requests -/

/-- A request in a state where the answer does not have to be the same is one of a run that ends
with a loss. -/
theorem asks_lost (h : Kept w) (offered : Offered op)
    (asks : Asks (answering Context.closeAll procedures) levels op w level request w')
    (excused : Sober False w w' → lossy ∧ Lost w') :
    lossy ∧ Lost (World.after (op (machineRunning Context.closeAll procedures levels) w)) := by
  refine Classical.byContradiction fun found => ?_
  obtain ⟨ask', same, different⟩ := asks
  have agree : (regime lossy False w).Machines
      (Context.machineAsking (answering Context.closeAll procedures) levels)
      (Context.machineAsking ask' levels) := by
    intro current
    refine Discipline.machineAsking_keeps covers fun l _ r v hv => ?_
    have answered := Regime.procedure_keeps (lifecycle lossy False w)
      (closeAll_keeps lossy w current) (machines_keep lossy w procedures l) (procedures l r) v hv
    by_cases here : (l, r, v) = (level, request, w')
    · simp only [Prod.mk.injEq] at here
      obtain ⟨rfl, rfl, rfl⟩ := here
      have lost := excused hv
      exact ⟨fun left => (left ((course lossy).gone answered.onward lost)).elim, answered.onward,
        answered.reached⟩
    · rw [same l r v here]
      exact answered
  rw [Context.machineRunning_eq] at found
  have served := Regime.offered_serves (lifecycle lossy False w) agree offered true none w
    (.begin h False.elim)
  exact different (served.same found).symm

/-- A body asks for something while the books are kept. -/
theorem asks_sober (h : Kept w) (offered : Offered op)
    (asks : Asks (answering Context.closeAll procedures) levels op w level request w') :
    Sober False w w' := by
  refine Classical.byContradiction fun never => ?_
  exact (asks_lost h offered asks fun sober => (never sober).elim).1

/-- In a careful run no body asks for anything while a context is lost. -/
theorem asks_found (h : Kept w) (found : ¬Lost w) (offered : Offered op)
    (asks : Asks (answering Context.closeAll procedures) levels op w level request w')
    (careful : Careful procedures op levels w) : ¬Lost w' := by
  intro lost
  have ends := asks_lost h offered asks fun _ => ⟨trivial, lost⟩
  exact (offered_lost h found offered procedures levels).1 ends.2 careful

end ScriptBridge.Bookkeeping
