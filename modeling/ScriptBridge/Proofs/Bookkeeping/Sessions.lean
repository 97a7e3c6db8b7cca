import ScriptBridge.Proofs.Bookkeeping.Agreement

/-!
# Sessions keep the books

A session is made of operations, of what bodies of the Host ask for while an operation waits for
them, and of what the Host does on its own. It is loose once every context was to be closed while
some could not be entered.
-/

namespace ScriptBridge.Bookkeeping

open Host (Realm GlobalRef Callback BodyM)
open Bridge (World State ContextId Machine)
open Script (InterpreterId)
open Context (Operation Offered Procedures Asks machineRunning answering)

variable {w w' w₀ : World} {c : ContextId} {ε α : Type}

/-! ### The whole bridge -/

theorem start_kept {r : Realm} {config : Config}
    (started : Context.start config ⟨{}, { realm := r }⟩ = .ok () w) : Kept w ∧ ¬Lost w := by
  obtain ⟨v, rt, changed, -, live, made⟩ := newRuntime_eq Any ⟨{}, { realm := r }⟩
  have apart : v.outside.Apart := by
    refine changed.apart ⟨?_, ?_, ?_, ?_, ?_⟩ <;> simp [State.loaderRefs, State.viewRefs]
  have tracked := changed.tracked
  simp only [Bridge.tracked, Tracked.mk.injEq] at tracked
  obtain ⟨-, -, contexts, registry, links, -⟩ := tracked
  simp only [Context.start] at started
  cases valid : config.validate with
  | error e =>
    rw [valid] at started
    cases started
  | ok =>
    rw [valid] at started
    simp only [bind_ok made] at started
    cases started
    have empty : v.outside.tracked = #[] := by simpa [State.tracked] using contexts
    obtain ⟨sound, found⟩ := Tracked.sound_of_empty (t := Bridge.tracked
      ⟨{ v.memory with runtimes := v.memory.runtimes.push rt },
        { v.outside with runtime := ⟨v.memory.runtimes.size⟩ }⟩) empty registry links
      (by simp [Bridge.tracked]) (by simp [Bridge.tracked, Tracked.own, live])
    exact ⟨⟨sound, { apart with }⟩, found⟩

/-- References are dropped that no context has. -/
theorem deleteRefs_apart (refs : List GlobalRef) : ∀ s : State, s.Apart →
    (∀ g ∈ refs, ∀ g' ∈ s.loaderRefs, g'.number ≠ g.number) →
    { s with realm := (Bridge.deleteRefs refs s.realm).2 }.Apart := by
  induction refs with
  | nil => exact fun s h _ => h
  | cons g rest ih =>
    intro s h others
    have dropped := h.dropped (others g List.mem_cons_self)
    exact ih _ dropped fun g' hg' => others g' (List.mem_cons_of_mem _ hg')

/-- References of views are forgotten and dropped. -/
theorem forget_faithful (h : Kept w) {f : State → State} {refs : List GlobalRef}
    (forgot : Quiet Any (Bridge.modifyState f : EStateM Unit World Unit))
    (viewed : ∀ g ∈ refs, g.number ∈ w.outside.viewRefs) :
    Faithful w ⟨w.memory, { f w.outside with
      realm := (Bridge.deleteRefs refs (f w.outside).realm).2 }⟩ := by
  obtain ⟨⟨⟩, v, hv, changed⟩ := forgot w
  cases hv
  have first := Faithful.of_background changed h
  refine first.trans ⟨⟨first.kept.sound, ?_⟩, .of_contexts rfl rfl, Iff.rfl⟩
  refine deleteRefs_apart refs _ first.kept.apart fun g hg g' hg' same => ?_
  rw [changed.loaderRefs] at hg'
  exact h.apart.others g' hg' (same ▸ viewed g hg)

theorem forgetConversions_faithful (h : Kept w) :
    Faithful w ⟨w.memory, { w.outside with
      conversionRefs := []
      realm := (Bridge.deleteRefs w.outside.conversionRefs w.outside.realm).2 }⟩ := by
  have forgot : Quiet Any (Bridge.modifyState fun s => { s with conversionRefs := [] } :
      EStateM Unit World Unit) := by
    refine .remember (fun _ => rfl) (fun _ => rfl) (fun _ => rfl) (fun _ => rfl) (fun _ => rfl)
      (fun s n hn => ?_) fun _ p => { p with }
    rw [mem_viewRefs] at hn ⊢
    exact hn.imp_right (Or.imp_left nofun)
  refine forget_faithful h forgot fun g hg => ?_
  exact mem_viewRefs.2 (.inr (.inl ⟨g, hg, rfl⟩))

theorem forgetTypes_faithful (h : Kept w) :
    Faithful w ⟨w.memory, { w.outside with
      types := []
      realm := (Bridge.deleteRefs w.outside.types.releasable w.outside.realm).2 }⟩ := by
  have forgot : Quiet Any (Bridge.modifyState fun s => { s with types := [] } :
      EStateM Unit World Unit) := by
    refine .remember (fun _ => rfl) (fun _ => rfl) (fun _ => rfl) (fun _ => rfl) (fun _ => rfl)
      (fun s n hn => ?_) fun _ p => { p with }
    rw [mem_viewRefs] at hn ⊢
    exact hn.imp_right (Or.imp_right nofun)
  refine forget_faithful h forgot fun g hg => ?_
  obtain ⟨⟨name, slot⟩, mem, releasable⟩ := List.mem_flatMap.1 hg
  cases slot with
  | error => cases releasable
  | ok token =>
    refine mem_viewRefs.2 (.inr (.inr ⟨_, mem, token, rfl, g, ?_, rfl⟩))
    by_cases borrowed : token.borrowed
    · simp [borrowed] at releasable
    · simpa [borrowed] using releasable

theorem finalize_faithful (h : Kept w) :
    Faithful w
      (World.after ((Script.finalize w.outside.runtime : EStateM ε World Unit) w)) := by
  have sound := sound_runtime h.sound
    (f := fun r => if r.finalized then r else
      { r with finalized := true, current := none, extensions := {} })
    (fun r => by split <;> rfl) (fun r => by split <;> rfl)
  exact ⟨⟨sound, { h.apart with }⟩, .of_contexts rfl rfl, Iff.rfl⟩

theorem forget_succeeds (h : Kept w) :
    Succeeds (Context.forget : EStateM ε World Unit) w fun _ v => Faithful w v := by
  have first := forgetConversions_faithful h
  have second := forgetTypes_faithful first.kept
  have third := finalize_faithful (ε := ε) second.kept
  exact ⟨(), _, rfl, first.trans (second.trans third)⟩

theorem shutDown_kept (h : Kept w) :
    Succeeds (Context.shutDown : EStateM ε World Unit) w fun _ v => Sober False w v ∧
      (Lost v ↔ Lost w ∨ w.outside.shutDown = false ∧ ¬Free w) := by
  let u : World := ⟨w.memory, { w.outside with shutDown := true }⟩
  have read : (Context.shutDown : EStateM ε World Unit) w =
      (if (!w.outside.shutDown) = true then do
          Bridge.modifyState fun s => { s with shutDown := true }
          Context.closeAll
          Context.forget
        else pure () : EStateM ε World Unit) w := rfl
  cases down : w.outside.shutDown with
  | true =>
    rw [down] at read
    exact ⟨(), w, read, .begin h False.elim, by simp⟩
  | false =>
    rw [down] at read
    have kept : Kept u := ⟨h.sound, { h.apart with }⟩
    obtain ⟨⟨⟩, v, hv, kept', -, onward, lost⟩ := closeAll_succeeds (ε := ε) kept
    obtain ⟨⟨⟩, v', hv', changed⟩ := forget_succeeds (ε := ε) kept'
    refine ⟨(), v', read.trans ((bind_ok hv).trans hv'), ⟨changed.kept, False.elim, ?_⟩, ?_⟩
    · exact ⟨onward.trans changed.onward, fun h => changed.lost.2 (lost.2 (.inl h))⟩
    · rw [changed.lost, lost]
      have same : Lost u ↔ Lost w := Iff.rfl
      have free : Free u ↔ Free w := Iff.rfl
      simp [same, free]

/-! ### Sessions -/

/-- A session leads from a state to another one. It is loose if closing every context was asked for
while some could not be entered. The Host may do as it likes on its own, as long as it lets contexts
keep their references. -/
inductive Session (procedures : Procedures) (w₀ : World) : Prop → World → Prop
  | here : Session procedures w₀ False w₀
  | performed {loose : Prop} {α : Type} {op : Machine → Operation α} {w : World} (levels : Nat) :
    Session procedures w₀ loose w → Offered op →
      Session procedures w₀ (loose ∨ ¬Careful procedures op levels w)
        (World.after (op (machineRunning Context.closeAll procedures levels) w))
  /-- Requests may come before or after the loss in a run that is not careful. -/
  | asked {loose : Prop} {α : Type} {op : Machine → Operation α} {w w' : World}
    {levels level : Nat} {request : Callback} :
    Session procedures w₀ loose w → Offered op →
      Asks (answering Context.closeAll procedures) levels op w level request w' →
      Session procedures w₀ (loose ∨ ¬Careful procedures op levels w ∧ Lost w') w'
  | closedAll {loose : Prop} {w : World} :
    Session procedures w₀ loose w →
      Session procedures w₀ (loose ∨ ¬Free w)
        (World.after ((Context.closeAll : Operation Unit) w))
  | shutDown {loose : Prop} {w : World} :
    Session procedures w₀ loose w →
      Session procedures w₀ (loose ∨ w.outside.shutDown = false ∧ ¬Free w)
        (World.after ((Context.shutDown : Operation Unit) w))
  | traced {loose : Prop} {w : World} (c : ContextId) (flag : Bool) :
    Session procedures w₀ loose w →
      Session procedures w₀ loose (World.after (Context.setPrintStack c flag w))
  | host {loose : Prop} {w : World} {r : Realm} :
    Session procedures w₀ loose w → (∀ g ∈ w.outside.loaderRefs, g ∈ r.globals) →
      w.outside.realm.created ≤ r.created →
      Session procedures w₀ loose ⟨w.memory, { w.outside with realm := r }⟩
  | named {loose : Prop} {w : World} (names : Table ContextId) :
    Session procedures w₀ loose w →
      Session procedures w₀ loose ⟨w.memory, { w.outside with contextNames := names }⟩
  | read {loose : Prop} {w : World} :
    Session procedures w₀ loose w →
      Session procedures w₀ loose (World.after ((Script.takeWritten : Operation (String × String)) w))

variable {procedures : Procedures} {loose loose' : Prop}

/-- One step more, which may be loose. -/
theorem Sober.further (h : Sober False w₀ w) (since : ¬Lost w₀ → (Lost w ↔ loose))
    (step : Sober False w w') (now : ¬Lost w → (Lost w' ↔ loose')) :
    Sober False w₀ w' ∧ (¬Lost w₀ → (Lost w' ↔ loose ∨ loose')) := by
  refine ⟨⟨step.kept, False.elim, h.later.trans step.later⟩, fun found => ?_⟩
  by_cases lost : Lost w
  · exact iff_of_true (step.later.lost lost) (.inl ((since found).1 lost))
  · rw [now lost, ← since found]
    exact (or_iff_right lost).symm

/-- One step more, which is not loose. -/
theorem Sober.onward (h : Sober False w₀ w) (since : ¬Lost w₀ → (Lost w ↔ loose))
    (step : Faithful w w') : Sober False w₀ w' ∧ (¬Lost w₀ → (Lost w' ↔ loose)) :=
  ⟨⟨step.kept, False.elim, h.later.trans ⟨step.onward, step.lost.2⟩⟩,
    fun found => step.lost.trans (since found)⟩

/-- The books are kept, and a context is lost exactly if the session is loose. -/
theorem session_kept (h : Kept w₀) (session : Session procedures w₀ loose w) :
    Sober False w₀ w ∧ (¬Lost w₀ → (Lost w ↔ loose)) := by
  induction session with
  | here => exact ⟨.begin h False.elim, fun found => iff_of_false found id⟩
  | performed levels _ offered ih =>
    exact ih.1.further ih.2 (offered_sober ih.1.kept offered procedures levels)
      fun found => offered_lost ih.1.kept found offered procedures levels
  | asked _ offered asks ih =>
    refine ih.1.further ih.2 (asks_sober ih.1.kept offered asks) fun found => ?_
    refine ⟨fun lost => ⟨fun careful => ?_, lost⟩, And.right⟩
    exact asks_found ih.1.kept found offered asks careful lost
  | closedAll _ ih =>
    obtain ⟨⟨⟩, v, hv, kept, -, onward, lost⟩ :=
      closeAll_succeeds (ε := Bridge.Failure) ih.1.kept
    rw [hv]
    refine ih.1.further ih.2 ⟨kept, False.elim, onward, fun h => lost.2 (.inl h)⟩ fun found => ?_
    rw [World.after, lost]
    exact or_iff_right found
  | shutDown _ ih =>
    obtain ⟨⟨⟩, v, hv, sober, lost⟩ := shutDown_kept (ε := Bridge.Failure) ih.1.kept
    rw [hv]
    refine ih.1.further ih.2 sober fun found => ?_
    rw [World.after, lost]
    exact or_iff_right found
  | traced c flag _ ih =>
    have steps : Faithfully (Context.setPrintStack c flag) :=
      .mild (.bind ((Prepares.lookup c).mild _) fun _ => .of_quiet (.setLinkPrintStack c flag))
    exact ih.1.onward ih.2 (steps _ ih.1.kept)
  | @host _ w r _ keeps created ih =>
    have kept := ih.1.kept
    have apart : { w.outside with realm := r }.Apart :=
      ⟨keeps, kept.apart.distinct, kept.apart.others,
        fun g hg => Nat.le_trans (kept.apart.loaders g hg) created,
        fun n hn => Nat.le_trans (kept.apart.views n hn) created⟩
    exact ih.1.onward ih.2 ⟨⟨kept.sound, apart⟩, .of_contexts rfl rfl, Iff.rfl⟩
  | named names _ ih =>
    have kept := ih.1.kept
    exact ih.1.onward ih.2 ⟨⟨kept.sound, { kept.apart with }⟩, .of_contexts rfl rfl, Iff.rfl⟩
  | read _ ih =>
    have kept := ih.1.kept
    exact ih.1.onward ih.2 ⟨⟨kept.sound, { kept.apart with }⟩, .of_contexts rfl rfl, Iff.rfl⟩

/-- In a session from the start on the books are accounted for, they agree exactly if the session
is not loose, and what is closed is never registered again. -/
theorem session_agrees {r : Realm} {config : Config}
    (started : Context.start config ⟨{}, { realm := r }⟩ = .ok () w₀)
    (past : Session procedures w₀ loose w) (future : Session procedures w loose' w') :
    Accounted w ∧ (Agreed w ↔ ¬loose) ∧
      ∀ c, Created w c → ¬IsOpen w c → c ∉ w'.outside.registry := by
  obtain ⟨kept₀, found₀⟩ := start_kept started
  obtain ⟨sober, lost⟩ := session_kept kept₀ past
  have later := (session_kept sober.kept future).1
  refine ⟨accounted_of_kept sober.kept, ?_, fun c created shut => ?_⟩
  · rw [agreed_iff sober.kept, lost found₀]
  · have shut' : (w.outside.context c).closed = true := by
      simpa [IsOpen] using shut
    have closed : (Bridge.tracked w).Closed c :=
      ⟨_, _, (created_entry created).trans (by rw [shut'])⟩
    exact later.kept.sound.not_registered (later.later.onward.closed c closed)

/-- A Host whose listing service closes every context. -/
def draining : Realm :=
  { classes := #[{ name := Host.loaderName }, { name := Host.stringName },
      { name := Host.classListName
        methods := [{ name := "get", declaringClass := Host.classListName,
                      params := [Host.stringName], isStatic := true,
                      body := .inl .closeContexts }] }]
    registry := ((({} : Table Host.ClassId).insert Host.loaderName ⟨0⟩).insert
      Host.stringName ⟨1⟩).insert Host.classListName ⟨2⟩
    objects := #[⟨⟨0⟩, .loader none⟩] }

def begun : World := World.after (Context.start {} ⟨{}, { realm := draining }⟩)

def paired : World :=
  World.after (Context.create (some ⟨0⟩) (World.after (Context.create (some ⟨0⟩) begun)))

/-- A script of the first context has asked for a package. -/
def drained : World := World.after (Context.eval (Context.machine 1) ⟨1⟩ "import a" paired)

/-- The second context is lost. -/
theorem session_agrees_drained :
    ∃ loose : Prop, Session Context.own begun loose drained ∧ loose ∧
      Accounted drained ∧ ¬Agreed drained := by
  have started : Context.start {} ⟨{}, { realm := draining }⟩ = .ok () begun := rfl
  have both : Session Context.own begun _ paired :=
    .performed 0 (.performed 0 .here (.create (some ⟨0⟩))) (.create (some ⟨0⟩))
  have past := both.performed 1 (.eval ⟨1⟩ "import a")
  rw [← Context.machine_eq] at past
  change Session Context.own begun _ drained at past
  obtain ⟨accounted, agrees, -⟩ := session_agrees started past
    (.here : Session Context.own drained False drained)
  have lost : ¬Agreed drained := by
    intro agreed
    have second : 2 ≤ drained.outside.contexts.size ∧ (drained.outside.context ⟨2⟩).closed = false ∧
        ⟨2⟩ ∉ drained.outside.registry := by decide +kernel
    exact second.2.2 ((agreed.listed ⟨2⟩ ⟨by decide, second.1⟩).2 second.2.1)
  exact ⟨_, past, Classical.byContradiction fun careful => lost (agrees.2 careful),
    accounted, lost⟩

end ScriptBridge.Bookkeeping
