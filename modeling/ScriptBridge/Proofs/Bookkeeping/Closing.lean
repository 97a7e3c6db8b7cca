import ScriptBridge.Proofs.Bookkeeping.Lifecycle

/-!
# Closing contexts

A context is closed by its own interpreter, so it cannot be closed while another one is running.
Closing one context refuses that before it touches the books. Closing all of them takes every context
off the registry first: those that cannot be entered are then open and lost.
-/

namespace ScriptBridge

open Host (GlobalRef)
open Bridge (World State ContextId)
open Script (InterpreterId)
open Context (Operation)

variable {ε α β : Type} {c c' : ContextId} {ts : InterpreterId} {ref : Option GlobalRef}
  {closed : Bool}

namespace Tracked

variable {t : Tracked}

/-- No other interpreter is running than that of the context. -/
def Admits (t : Tracked) (c : ContextId) : Prop :=
  ∀ ts ref closed, t.row? c = some (ts, ref, closed) → t.own.current.filter (· != ts) = none

/-- The books while an interpreter is running. -/
def running (current : Option InterpreterId) (t : Tracked) : Tracked :=
  { t with runtimes := t.runtimes.modify t.runtime.place fun r => { r with current } }

/-- A context ends as if its interpreter had not been entered. -/
theorem running_ended (placed : t.runtime.place < t.runtimes.size) (current : Option InterpreterId)
    (c : ContextId) (ts : InterpreterId) :
    ((t.running current).ended c ts).running t.own.current = t.ended c ts := by
  have runtimes : ((t.running current).ended c ts).runtimes.modify t.runtime.place
      (fun r => { r with current := t.own.current }) = (t.ended c ts).runtimes := by
    refine Array.ext (by simp [ended, running]) fun i _ _ => ?_
    simp only [ended, running, own, Array.getElem_modify]
    split
    · rename_i here
      subst here
      simp [placed]
    · rfl
  have left : ((t.running current).ended c ts).running t.own.current =
      { t.ended c ts with
        runtimes := ((t.running current).ended c ts).runtimes.modify t.runtime.place
          fun r => { r with current := t.own.current } } := rfl
  rw [left, runtimes]

theorem admits_iff (found : t.row? c = some (ts, ref, closed)) :
    t.Admits c ↔ t.own.current.filter (· != ts) = none := by
  constructor
  · exact fun h => h ts ref closed found
  · intro h ts' ref' closed' found'
    rw [found] at found'
    cases found'
    exact h

theorem ended_admits (placed : t.runtime.place < t.runtimes.size)
    (found : t.row? c = some (ts, ref, closed)) :
    (t.ended c ts).Admits c' ↔ t.Admits c' := by
  have current : (t.ended c ts).own.current = t.own.current := by
    rw [ended_own placed]
  have same : ∀ {ts' ref' closed'}, t.row? c' = some (ts', ref', closed') →
      ∃ ref'' closed'', (t.ended c ts).row? c' = some (ts', ref'', closed'') := by
    intro ts' ref' closed' entry
    by_cases same : c = c'
    · subst same
      rw [found] at entry
      cases entry
      exact ⟨none, true, by rw [ended_entry found, if_pos rfl]⟩
    · exact ⟨ref', closed', by rw [ended_entry found, if_neg same, entry]⟩
  constructor
  · intro h ts' ref' closed' entry
    obtain ⟨ref'', closed'', entry'⟩ := same entry
    rw [← current]
    exact h ts' ref'' closed'' entry'
  · intro h ts' ref' closed' entry
    rw [current]
    rcases ended_found found entry with ⟨rfl, rfl, -, -⟩ | ⟨-, old⟩
    · exact h ts' ref closed found
    · exact h ts' ref' closed' old

end Tracked

namespace Bookkeeping

variable {w : World}

theorem current_tracked (w : World) : w.current = (Bridge.tracked w).own.current := rfl

/-- What ends a context has the same effect inside it. -/
theorem entering_ended {step : Operation Unit} {t : Tracked} (placed : t.runtime.place < t.runtimes.size)
    (current : t.own.current = w.current) (free : w.current.filter (· != ts) = none)
    (inside : Succeeds step (w.withCurrent (some ts)) fun _ v =>
      Bridge.tracked v = (t.running (some ts)).ended c ts ∧ v.outside.Apart) :
    ∃ v, Context.entering ts step w = .ok () v ∧ Bridge.tracked v = t.ended c ts ∧
      v.outside.Apart := by
  obtain ⟨⟨⟩, v, hv, books, apart⟩ := inside
  refine ⟨v.withCurrent w.current, ?_, ?_, { apart with }⟩
  · rw [entering_free free, hv]
  · have left : Bridge.tracked (v.withCurrent w.current) =
        (Bridge.tracked v).running w.current := rfl
    rw [left, books, ← current]
    exact Tracked.running_ended placed (some ts) c ts

/-- One that cannot be entered stays as it is. -/
theorem closeEach_busy {other : InterpreterId}
    (busy : w.current.filter (· != (w.outside.context c).state) = some other)
    (rest : List ContextId) :
    ∃ v, Background Any w v ∧
      (Context.closeEach (c :: rest) : EStateM ε World Unit) w = Context.closeEach rest v := by
  obtain ⟨f, refused⟩ := entering_busy (α := Unit) busy
  have left : Quiet Any (Context.letGo (w.outside.context c) : EStateM ε World Unit) := .letGo _
  obtain ⟨⟨⟩, v, hv, changed⟩ := left w
  have tried : (Script.attempt (Context.entering (w.outside.context c).state
      (Context.teardown c : Operation Unit)) : EStateM ε World _) w = .ok (.error f) w := by
    simp only [Script.attempt, refused]
  exact ⟨v, changed, (bind_ok tried).trans (bind_ok hv)⟩

theorem closeEach_free {v : World}
    (entered : Context.entering (w.outside.context c).state (Context.teardown c : Operation Unit) w =
      .ok () v) (rest : List ContextId) :
    (Context.closeEach (c :: rest) : EStateM ε World Unit) w = Context.closeEach rest v := by
  have tried : (Script.attempt (Context.entering (w.outside.context c).state
      (Context.teardown c : Operation Unit)) : EStateM ε World _) w = .ok (.ok ()) v := by
    simp only [Script.attempt, entered]
  exact bind_ok tried

/-- What comes of the contexts that are to be closed. -/
structure ClosedEach (drained : List ContextId) (w v : World) : Prop where
  kept : Kept v
  registry : v.outside.registry = w.outside.registry
  current : v.current = w.current
  onward : Tracked.Onward (Bridge.tracked w) (Bridge.tracked v)
  still : ∀ c, (Bridge.tracked v).Open c ↔
    (Bridge.tracked w).Open c ∧ ¬(c ∈ drained ∧ (Bridge.tracked w).Admits c)

/-- One that cannot be entered is passed over. -/
theorem ClosedEach.busy {v u : World} {rest : List ContextId} (books : Bridge.tracked v = Bridge.tracked w)
    (never : ¬(Bridge.tracked w).Admits c) (later : ClosedEach rest v u) :
    ClosedEach (c :: rest) w u where
  kept := later.kept
  registry := later.registry.trans (congrArg Tracked.registry books)
  current := by rw [later.current, current_tracked, books, ← current_tracked]
  onward := books ▸ later.onward
  still c' := by
    rw [later.still, books]
    refine and_congr_right fun _ => not_congr ⟨?_, ?_⟩
    · exact fun ⟨mem, can⟩ => ⟨List.mem_cons_of_mem _ mem, can⟩
    · rintro ⟨mem, can⟩
      rcases List.mem_cons.1 mem with rfl | mem
      · exact (never can).elim
      · exact ⟨mem, can⟩

/-- One that can be entered ends, and nothing else does. -/
theorem ClosedEach.free {v u : World} {rest : List ContextId} (sound : (Bridge.tracked w).Sound)
    (found : (Bridge.tracked w).row? c = some (ts, ref, false))
    (admits : (Bridge.tracked w).Admits c)
    (books : Bridge.tracked v = (Bridge.tracked w).ended c ts) (later : ClosedEach rest v u) :
    ClosedEach (c :: rest) w u where
  kept := later.kept
  registry := later.registry.trans (congrArg Tracked.registry books)
  current := by
    rw [later.current, current_tracked, books, Tracked.ended_own sound.runtime]
    rfl
  onward := (Tracked.ended_onward found).trans (books ▸ later.onward)
  still c' := by
    rw [later.still, books, Tracked.ended_open found, Tracked.ended_admits sound.runtime found]
    constructor
    · rintro ⟨⟨opened, other⟩, never⟩
      refine ⟨opened, fun ⟨mem, can⟩ => never ⟨?_, can⟩⟩
      exact (List.mem_cons.1 mem).resolve_left fun same => other same.symm
    · rintro ⟨opened, never⟩
      refine ⟨⟨opened, ?_⟩, fun ⟨mem, can⟩ => never ⟨List.mem_cons_of_mem _ mem, can⟩⟩
      rintro rfl
      exact never ⟨List.mem_cons_self, admits⟩

/-- By induction on the contexts: each is passed over or ends. -/
theorem closeEach_succeeds (drained : List ContextId) : ∀ w : World, Kept w →
    (∀ c ∈ drained, (Bridge.tracked w).Open c ∧ c ∉ w.outside.registry) → drained.Nodup →
    Succeeds (Context.closeEach drained : EStateM ε World Unit) w fun _ v =>
      ClosedEach drained w v := by
  induction drained with
  | nil =>
    intro w h _ _
    exact ⟨(), w, rfl, h, rfl, rfl, .of_contexts rfl rfl, by simp⟩
  | cons c rest ih =>
    intro w h drained once
    obtain ⟨⟨ts, ref, found⟩, off⟩ := drained c List.mem_cons_self
    obtain ⟨first, later⟩ := List.nodup_cons.1 once
    have state : (w.outside.context c).state = ts := by
      obtain ⟨x, -, context, rfl, -⟩ := entry_context found
      rw [context]
    have admits := Tracked.admits_iff found
    cases entered : w.current.filter (· != ts) with
    | some other =>
      have never : ¬(Bridge.tracked w).Admits c := by
        rw [admits, ← current_tracked, entered]
        exact nofun
      rw [← state] at entered
      obtain ⟨v, changed, skipped⟩ := closeEach_busy (ε := ε) entered rest
      have books : Bridge.tracked v = Bridge.tracked w := changed.tracked
      obtain ⟨⟨⟩, u, hu, done⟩ := ih v (h.of_background changed) (fun c' hc' => by
        rw [books, show v.outside.registry = w.outside.registry from congrArg Tracked.registry books]
        exact drained c' (List.mem_cons_of_mem _ hc')) later
      exact ⟨(), u, skipped.trans hu, done.busy books never⟩
    | none =>
      obtain ⟨v, hv, books, apart⟩ := entering_ended h.sound.runtime rfl entered
        (teardown_succeeds (h.withCurrent (some ts)) found)
      have kept : Kept v := ⟨books ▸ h.sound.ended found off, apart⟩
      rw [← state] at hv
      obtain ⟨⟨⟩, u, hu, done⟩ := ih v kept (fun c' hc' => by
        rw [books, show v.outside.registry = w.outside.registry from congrArg Tracked.registry books,
          Tracked.ended_open found]
        obtain ⟨opened, off'⟩ := drained c' (List.mem_cons_of_mem _ hc')
        refine ⟨⟨opened, ?_⟩, off'⟩
        rintro rfl
        exact first hc') later
      exact ⟨(), u, (closeEach_free hv rest).trans hu,
        done.free h.sound found (admits.2 entered) books⟩

/-- Every registered context can be entered now. -/
def Free (w : World) : Prop :=
  ∀ c ∈ w.outside.registry, ∀ ts ∈ w.current, ts = (w.outside.context c).state

theorem free_iff (h : Kept w) :
    Free w ↔ ∀ c ∈ w.outside.registry, (Bridge.tracked w).Admits c := by
  refine forall_congr' fun c => forall_congr' fun registered => ?_
  obtain ⟨ts, ref, found⟩ := h.sound.registered c registered
  obtain ⟨x, -, context, rfl, -⟩ := entry_context found
  rw [Tracked.admits_iff found, ← current_tracked, context]
  cases w.current with
  | none => simp
  | some r => simp [Option.filter]

/-- Closing every context ends those that can be entered, and nothing stays registered. -/
theorem closeAll_ended (h : Kept w) :
    Succeeds (Context.closeAll : EStateM ε World Unit) w fun _ v =>
      Kept v ∧ v.outside.registry = [] ∧ v.current = w.current ∧
        Tracked.Onward (Bridge.tracked w) (Bridge.tracked v) ∧
        ∀ c, (Bridge.tracked v).Open c ↔ (Bridge.tracked w).Open c ∧
          ¬(c ∈ w.outside.registry ∧ (Bridge.tracked w).Admits c) := by
  let u : World := ⟨w.memory, { w.outside with registry := [] }⟩
  have kept : Kept u := ⟨h.sound.drained, { h.apart with }⟩
  obtain ⟨⟨⟩, v, hv, done⟩ := closeEach_succeeds (ε := ε) w.outside.registry u kept
    (fun c hc => ⟨h.sound.registered c hc, List.not_mem_nil⟩) h.sound.listed
  have first : Tracked.Onward (Bridge.tracked w) (Bridge.tracked u) := .of_contexts rfl rfl
  exact ⟨(), v, hv, done.kept, done.registry, done.current, first.trans done.onward, done.still⟩

/-- Closing every context loses those that cannot be entered. -/
theorem closeAll_succeeds (h : Kept w) :
    Succeeds (Context.closeAll : EStateM ε World Unit) w fun _ v =>
      Kept v ∧ v.current = w.current ∧ Tracked.Onward (Bridge.tracked w) (Bridge.tracked v) ∧
        (Lost v ↔ Lost w ∨ ¬Free w) := by
  obtain ⟨⟨⟩, v, hv, kept, registry, current, onward, still⟩ := closeAll_ended (ε := ε) h
  refine ⟨(), v, hv, kept, current, onward, ?_⟩
  have listed : ∀ c, c ∉ (Bridge.tracked v).registry := by
    have none : (Bridge.tracked v).registry = [] := registry
    simp [none]
  rw [free_iff h]
  constructor
  · rintro ⟨c, opened, -⟩
    obtain ⟨was, never⟩ := (still c).1 opened
    by_cases registered : c ∈ w.outside.registry
    · exact .inr fun free => never ⟨registered, free c registered⟩
    · exact .inl ⟨c, was, registered⟩
  · rintro (⟨c, opened, off⟩ | busy)
    · exact ⟨c, (still c).2 ⟨opened, fun both => off both.1⟩, listed c⟩
    · simp only [Classical.not_forall] at busy
      obtain ⟨c, registered, never⟩ := busy
      exact ⟨c, (still c).2 ⟨h.sound.registered c registered, fun both => never both.2⟩, listed c⟩

/-- Closing one context refuses and does nothing, or takes it off the registry and ends it. -/
theorem close_ended (h : Kept w) (c : ContextId) :
    (∃ f, Context.close c w = .error f w) ∨
      ∃ ts ref v, (Bridge.tracked w).row? c = some (ts, ref, false) ∧ c ∈ w.outside.registry ∧
        Context.close c w = .ok () v ∧
        Bridge.tracked v = ((Bridge.tracked w).unlisted c).ended c ts ∧ v.outside.Apart := by
  rcases Regime.lookup_open (w := w) (c := c) with ⟨registered, looked⟩ | ⟨f, -, refused⟩
  · obtain ⟨ts, ref, found⟩ := h.sound.registered c registered
    obtain ⟨x, -, context, rfl, -⟩ := entry_context found
    cases entered : w.current.filter (· != x.state) with
    | some other =>
      obtain ⟨f, refused⟩ := entering_busy (α := Unit) entered
      refine .inl ⟨f, (bind_ok looked).trans ?_⟩
      rw [context]
      exact refused _
    | none =>
      let v := w.withCurrent (some x.state)
      let u : World :=
        ⟨v.memory, { v.outside with registry := v.outside.registry.filter (· != c) }⟩
      have kept : Kept u := by
        have inside := h.withCurrent (some x.state)
        exact ⟨inside.sound.unlisted c, { inside.apart with }⟩
      have closed : Succeeds (do
          Context.unregister c
          Context.teardown c : Operation Unit) v fun _ v' =>
            Bridge.tracked v' =
              (((Bridge.tracked w).unlisted c).running (some x.state)).ended c x.state ∧
              v'.outside.Apart := .modifyState (teardown_succeeds kept found)
      obtain ⟨v', hv, books, apart⟩ := entering_ended (t := (Bridge.tracked w).unlisted c)
        h.sound.runtime rfl entered closed
      refine .inr ⟨x.state, ref, v', found, registered, (bind_ok looked).trans ?_, books, apart⟩
      rw [context]
      exact hv
  · exact .inl ⟨f, bind_error refused⟩

end Bookkeeping
end ScriptBridge
