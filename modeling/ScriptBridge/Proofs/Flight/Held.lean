import ScriptBridge.Proofs.Bookkeeping.Loss
import ScriptBridge.Proofs.Boundary.Slots

/-!
# The interpreter that is running goes on running

While an interpreter is running, operations on its own context enter it again and those on other
contexts are refused, so whatever is asked for, it is running again afterwards. Contexts may come
and go meanwhile, the interpreter's own context included.
-/

namespace ScriptBridge.Flight

open Host (ObjectId)
open Bridge (World State ContextId)
open Script (InterpreterId)
open Bookkeeping (Any Kept Faithful Faithfully Sober course)

variable {ε α β : Type} {w w' since : World} {a c : ContextId} {ts : InterpreterId}

/-! ### What holds while an interpreter is running -/

/-- The context is registered if it is open. -/
def Listed (w : World) (c : ContextId) : Prop :=
  (Bridge.tracked w).Open c → c ∈ w.outside.registry

theorem Listed.still (h : Listed w c) (same : w'.outside.charted = w.outside.charted) :
    Listed w' c := by
  simp only [State.charted, Prod.mk.injEq] at same
  rintro ⟨ts, ref, found⟩
  rw [same.2.1]
  exact h ⟨ts, ref, (Tracked.entry_congr same.1.symm c).trans found⟩

/-- The books are kept, and the interpreter of the context is the one that is running. -/
structure Held (a : ContextId) (ts : InterpreterId) (since w : World) : Prop where
  begun : ∃ ref closed, (Bridge.tracked since).row? a = some (ts, ref, closed)
  sober : Sober False since w
  listed : Listed w a
  current : w.current = some ts

theorem current_of_tracked (same : Bridge.tracked w' = Bridge.tracked w) :
    w'.current = w.current := by
  rw [Bookkeeping.current_tracked, same, ← Bookkeeping.current_tracked]

theorem Held.of_background {allowed : Host.Body → Prop} (changed : Background allowed w w')
    (h : Held a ts since w) : Held a ts since w' :=
  ⟨h.begun, h.sober.of_background changed, h.listed.still changed.charted,
    (current_of_tracked changed.tracked).trans h.current⟩

theorem Held.still (h : Held a ts since w) (kept : Kept w')
    (same : w'.outside.charted = w.outside.charted) (current : w'.current = w.current) :
    Held a ts since w' :=
  ⟨h.begun, h.sober.still kept same, h.listed.still same, current.trans h.current⟩

theorem Held.withCurrent (h : Held a ts since w) : Held a ts since (w.withCurrent (some ts)) where
  begun := h.begun
  sober := h.sober.still (h.sober.kept.withCurrent _) rfl
  listed := h.listed
  current := Boundary.current_withCurrent h.sober.kept.sound.runtime

/-- No other interpreter is ever the current one. -/
def discipline (a : ContextId) (ts : InterpreterId) (since : World)
    (current : Option InterpreterId) : Discipline (course False) where
  allowed := Any
  serving _ := True
  calm w := current = some ts ∧ Held a ts since w
  raised _ w := current = some ts ∧ Held a ts since w
  thrown w := current = some ts ∧ Held a ts since w
  permitted _ := Bookkeeping.any_permitted _
  calm_of_background changed h := ⟨h.1, h.2.of_background changed⟩
  raised_of_background changed _ h := ⟨h.1, h.2.of_background changed⟩
  thrown_of_background changed h := ⟨h.1, h.2.of_background changed⟩
  raised_of_calm h := h
  thrown_of_calm h := h
  calm_of_thrown h _ := h
  raise _ h := ⟨h.1, h.2.still (h.2.sober.kept.withError _ _) rfl rfl⟩
  trace _ _ h := ⟨h.1, h.2.still (h.2.sober.kept.withError _ _) rfl rfl⟩
  receive _ _ _ _ h := ⟨h.1, h.2.still (h.2.sober.kept.withError _ _) rfl rfl⟩
  clearError h := ⟨h.1, h.2.still (h.2.sober.kept.withError _ _) rfl rfl⟩
  setPending _ h := ⟨h.1, h.2.still ⟨h.2.sober.kept.sound, { h.2.sober.kept.apart with }⟩ rfl rfl⟩
  clearPending h := ⟨h.1, h.2.still ⟨h.2.sober.kept.sound, { h.2.sober.kept.apart with }⟩ rfl rfl⟩
  leaks _ h := h

/-- Only the interpreter itself can be entered. -/
theorem entered_eq {other : InterpreterId} (current : w.current = some ts)
    (free : w.current.filter (· != other) = none) : other = ts := by
  rw [current] at free
  refine Classical.byContradiction fun differs => ?_
  simp [Option.filter, Ne.symm differs] at free

theorem entered {current : Option InterpreterId} {other : InterpreterId}
    (free : w.current.filter (· != other) = none) (h : current = some ts ∧ Held a ts since w) :
    some other = some ts ∧ Held a ts since (w.withCurrent (some other)) := by
  obtain rfl := entered_eq h.2.current free
  exact ⟨rfl, h.2.withCurrent⟩

theorem left {current inner : Option InterpreterId} (h : current = some ts ∧ Held a ts since w)
    (h' : inner = some ts ∧ Held a ts since w') :
    current = some ts ∧ Held a ts since (w'.withCurrent w.current) := by
  rw [h.2.current]
  exact ⟨h.1, h'.2.withCurrent⟩

def regime (a : ContextId) (ts : InterpreterId) (since : World) : Regime (course False) where
  of := discipline a ts since
  reports _ _ := True
  reports_unmapped _ := trivial
  reports_raised _ _ := trivial
  reports_later _ _ := trivial
  enter := entered
  enterThrown := entered
  leave := left
  leaveThrown := left
  stays h registered onward :=
    State.state_stays (Bookkeeping.registered_made h.2.sober.kept registered) onward.onward.states

theorem between_iff {clear : Bool} {current : Option InterpreterId} :
    (regime a ts since).between clear current w ↔ current = some ts ∧ Held a ts since w := by
  cases clear <;> rfl

/-! ### Contexts that come and go -/

/-- The books are kept, the same interpreter is running, and contexts do not get lost. -/
structure Steady (w w' : World) : Prop where
  faithful : Faithful w w'
  current : w'.current = w.current
  listed (c : ContextId) : Listed w c → Listed w' c

theorem Steady.trans {w'' : World} (h : Steady w w') (h' : Steady w' w'') : Steady w w'' :=
  ⟨h.faithful.trans h'.faithful, h'.current.trans h.current, fun c => h'.listed c ∘ h.listed c⟩

theorem Held.steady (h : Held a ts since w) (changed : Steady w w') : Held a ts since w' where
  begun := h.begun
  sober := ⟨changed.faithful.kept, False.elim,
    h.sober.later.trans ⟨changed.faithful.onward, changed.faithful.lost.2⟩⟩
  listed := changed.listed a h.listed
  current := changed.current.trans h.current

/-- The step is steady however it ends. -/
def Steadfast (m : EStateM ε World α) : Prop := ∀ w, Kept w → Steady w (World.after (m w))

namespace Steadfast

theorem mild {m : EStateM ε World α} (h : Mild Any m) : Steadfast m := by
  intro w kept
  have faithful := Faithfully.mild h w kept
  have changed := h w
  cases ended : m w with
  | ok a w' =>
    rw [ended] at changed faithful
    exact ⟨faithful, current_of_tracked changed.tracked, fun c => (·.still changed.charted)⟩
  | error e w' =>
    rw [ended] at changed faithful
    exact ⟨faithful, current_of_tracked changed.tracked, fun c => (·.still changed.charted)⟩

theorem bind {m : EStateM ε World α} {next : α → EStateM ε World β} (h : Steadfast m)
    (h' : ∀ a, Steadfast (next a)) : Steadfast (m >>= next) := by
  intro w kept
  have first := h w kept
  cases ended : m w with
  | ok a v =>
    rw [ended] at first
    rw [bind_ok ended]
    exact first.trans (h' a v first.faithful.kept)
  | error e v =>
    rw [ended] at first
    rw [bind_error ended]
    exact first

theorem openOver (loader : ObjectId) :
    Steadfast (Context.openOver loader : EStateM ε World ContextId) := by
  intro w kept
  have faithful := Bookkeeping.openOver_faithfully (ε := ε) loader w kept
  obtain ⟨new, v, opened, g, books, -⟩ := Bookkeeping.openOver_succeeds (ε := ε) kept loader
  rw [opened] at faithful ⊢
  refine ⟨faithful, ?_, fun c listed => ?_⟩
  · rw [World.after, Bookkeeping.current_tracked, books, Tracked.opened_own kept.sound.runtime]
    rfl
  · show (Bridge.tracked v).Open c → c ∈ (Bridge.tracked v).registry
    rw [books, Tracked.opened_open]
    rintro (before | rfl)
    · exact List.mem_append_left _ (listed before)
    · exact List.mem_append_right _ List.mem_cons_self

theorem create (loader : Option ObjectId) : Steadfast (Context.create loader) := by
  refine .bind (.mild ((Prepares.checkLoader loader).mild _)) fun loader => ?_
  refine .bind (.mild (.of_quiet .getState)) fun s => ?_
  refine .bind (.mild (.of_quiet (.bind .getMemory fun _ => .pure _))) fun rt => ?_
  by_cases finalized : rt.finalized
  · rw [if_pos finalized]
    exact .bind (.mild (.throw _)) fun (_ : PUnit) => openOver loader
  · rw [if_neg finalized]
    exact openOver loader

theorem close (c : ContextId) : Steadfast (Context.close c) := by
  intro w kept
  have faithful := Bookkeeping.close_faithfully c w kept
  rcases Bookkeeping.close_ended kept c with ⟨f, refused⟩ | ⟨ts, ref, v, found, -, closed, books, -⟩
  · rw [refused] at faithful ⊢
    exact ⟨faithful, rfl, fun _ => id⟩
  · rw [closed] at faithful ⊢
    refine ⟨faithful, ?_, fun other listed => ?_⟩
    · have placed : ((Bridge.tracked w).unlisted c).runtime.place <
          ((Bridge.tracked w).unlisted c).runtimes.size := kept.sound.runtime
      rw [World.after, Bookkeeping.current_tracked, books, Tracked.ended_own placed]
      rfl
    · have found' : ((Bridge.tracked w).unlisted c).row? c = some (ts, ref, false) :=
        (Tracked.entry_congr rfl c).trans found
      show (Bridge.tracked v).Open other → other ∈ (Bridge.tracked v).registry
      rw [books, Tracked.ended_open found']
      rintro ⟨⟨ts', ref', opened⟩, differs⟩
      have before := listed ⟨ts', ref', (Tracked.entry_congr rfl other).trans opened⟩
      exact List.mem_filter.2 ⟨before, by simpa using Ne.symm differs⟩

end Steadfast

theorem keepLoader_steady (h : Kept w) (registered : c ∈ w.outside.registry) (loader : ObjectId) :
    Steady w (World.after ((Context.keepLoader c loader : EStateM ε World Unit) w)) := by
  have faithful := Bookkeeping.keepLoader_faithful (ε := ε) h registered loader
  obtain ⟨ts, ref, found⟩ := h.sound.registered c registered
  obtain ⟨⟨⟩, v, relet, g, books, -⟩ := Bookkeeping.keepLoader_succeeds (ε := ε) h found loader
  rw [relet] at faithful ⊢
  refine ⟨faithful, ?_, fun other listed => ?_⟩
  · rw [World.after, Bookkeeping.current_tracked, books]
    rfl
  · show (Bridge.tracked v).Open other → other ∈ (Bridge.tracked v).registry
    rw [books, Tracked.relet_open found]
    exact listed

/-- A steady step ends as the regime asks. -/
theorem Held.step {m : EStateM ε World α} (h : Held a ts since w)
    (changed : Steady w (World.after (m w))) {ok : α → World → Prop} {err : ε → World → Prop}
    (success : ∀ r v, Held a ts since v → ok r v) (failure : ∀ e v, Held a ts since v → err e v) :
    AgreeAt (course False) ok err w (m w) (m w) := by
  refine ⟨fun _ => rfl, ⟨changed.faithful.onward, changed.faithful.lost.2⟩, ?_⟩
  have reached := h.steady changed
  cases ended : m w with
  | ok r v =>
    rw [ended] at reached
    exact success r v reached
  | error e v =>
    rw [ended] at reached
    exact failure e v reached

theorem Steadfast.serves {m : Context.Operation α} (h : Steadfast m) :
    (regime a ts since).Serves m m := by
  intro clear current w hw
  obtain ⟨running, held⟩ := between_iff.mp hw
  exact held.step (h w held.sober.kept) (fun _ _ hv => between_iff.mpr ⟨running, hv⟩)
    fun _ _ hv => ⟨between_iff.mpr ⟨running, hv⟩, trivial⟩

theorem lifecycle (a : ContextId) (ts : InterpreterId) (since : World) :
    (regime a ts since).Lifecycle where
  create loader := (Steadfast.create loader).serves
  close c := (Steadfast.close c).serves
  keepLoader current _ c loader w hw := by
    obtain ⟨⟨running, held⟩, registered⟩ := hw
    exact held.step (keepLoader_steady held.sober.kept registered loader)
      (fun _ _ hv => ⟨running, hv⟩) fun _ _ hv => ⟨running, hv⟩

/-- The interpreter is still that of the context. -/
theorem Held.row (h : Held a ts since w) :
    ∃ ref closed, (Bridge.tracked w).row? a = some (ts, ref, closed) := by
  obtain ⟨ref, closed, found⟩ := h.begun
  exact h.sober.later.onward.entry found

theorem Held.admits (h : Held a ts since w) : (Bridge.tracked w).Admits a := by
  obtain ⟨ref, closed, found⟩ := h.row
  rw [Tracked.admits_iff found, ← Bookkeeping.current_tracked, h.current]
  simp [Option.filter]

/-- Closing every context leaves the interpreter running, whose context is closed then. -/
theorem closeAll_keeps (a : ContextId) (ts : InterpreterId) (since : World)
    (current : Option InterpreterId) :
    (discipline a ts since current).Keeps (discipline a ts since current).fails
      (Context.closeAll : Host.BodyM World Unit) Context.closeAll fun _ => True := by
  rintro w ⟨running, held⟩
  obtain ⟨same, onward, reached⟩ := Bookkeeping.closeAll_keeps False since current w held.sober
  obtain ⟨⟨⟩, v, closed, -, -, now, -, still⟩ :=
    Bookkeeping.closeAll_ended (ε := Host.Throw) held.sober.kept
  rw [closed] at same onward reached ⊢
  have listed : Listed v a := fun opened => by
    obtain ⟨before, never⟩ := (still a).1 opened
    exact (never ⟨held.listed before, held.admits⟩).elim
  exact ⟨same, onward, trivial, running, held.begun, reached.2, listed, now.trans held.current⟩

/-! ### Operations -/

variable {procedures : Context.Procedures} {op : Bridge.Machine → Context.Operation α}
  {levels level : Nat} {request : Host.Callback}

theorem covers {current : Option InterpreterId}
    {ask : Nat → Host.Callback → Host.BodyM World Host.Value} :
    (discipline a ts since current).Covers ask :=
  ⟨trivial, fun _ => trivial⟩

theorem machines_keep (a : ContextId) (ts : InterpreterId) (since : World)
    (procedures : Context.Procedures) (levels : Nat) :
    (regime a ts since).Machines (Context.machineRunning Context.closeAll procedures levels)
      (Context.machineRunning Context.closeAll procedures levels) :=
  Regime.machineRunning_agree (lifecycle a ts since) (fun _ => covers) (closeAll_keeps a ts since)
    levels

/-- Whatever is asked for, the interpreter is running afterwards. -/
theorem offered_held (h : Held a ts since w) (offered : Context.Offered op)
    (procedures : Context.Procedures) (levels : Nat) :
    Held a ts since
      (World.after (op (Context.machineRunning Context.closeAll procedures levels) w)) := by
  have served := (Regime.offered_serves (lifecycle a ts since)
    (machines_keep a ts since procedures levels) offered).agree true (some ts) w
    (between_iff.mpr ⟨rfl, h⟩)
  exact (between_iff.mp served.settled).2

/-- A body of the Host may do what it likes. -/
theorem procedure_held (h : Held a ts since w) (step : Context.Procedure α)
    (procedures : Context.Procedures) (levels : Nat) :
    Held a ts since (World.after (step.run Context.closeAll
      (Context.machineRunning Context.closeAll procedures levels) w)) := by
  have reached := (Regime.procedure_keeps (lifecycle a ts since) (closeAll_keeps a ts since (some ts))
    (machines_keep a ts since procedures levels) step w ⟨rfl, h⟩).reached
  cases ended : step.run Context.closeAll
      (Context.machineRunning Context.closeAll procedures levels) w with
  | ok a v =>
    rw [ended] at reached
    exact reached.2.2
  | error failure v =>
    rw [ended] at reached
    cases failure <;> exact reached.2

/-- What the Host answers in states where another interpreter is running makes no difference. -/
theorem asks_held (h : Held a ts since w) (offered : Context.Offered op)
    (asks : Context.Asks (Context.answering Context.closeAll procedures) levels op w level request
      w') :
    Held a ts since w' := by
  obtain ⟨current, -, held⟩ := Regime.asks_calm (lifecycle a ts since) (fun _ => covers)
    (closeAll_keeps a ts since) offered true (between_iff.mpr ⟨rfl, h⟩) (fun lost => lost.1) asks
  exact held

end ScriptBridge.Flight
