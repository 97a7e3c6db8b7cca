import ScriptBridge.Proofs.Bookkeeping.Closing
import ScriptBridge.Proofs.Discipline.Sessions

/-!
# Operations keep the books

No operation breaks the books, whatever bodies of the Host ask for on the way. Whether a context gets
lost depends on nothing but how all contexts are closed: an operation loses one exactly if it matters
what closing all of them does while some cannot be entered.
-/

namespace ScriptBridge.Bookkeeping

open Host (ObjectId Realm GlobalRef BodyM)
open Bridge (World State ContextId Machine)
open Script (InterpreterId)
open Context (Operation Offered Procedures machineRunning)

variable {w w' w'' : World} {ε α β : Type} {c : ContextId} {ts : InterpreterId}

/-! ### The regime -/

/-- Books go on, and a loss is for good. -/
structure Later (w w' : World) : Prop where
  onward : Tracked.Onward (Bridge.tracked w) (Bridge.tracked w')
  lost : Lost w → Lost w'

theorem Later.of_charted (same : w'.outside.charted = w.outside.charted) : Later w w' := by
  simp only [State.charted, Prod.mk.injEq] at same
  exact ⟨.of_contexts same.1 same.2.2, (Tracked.lost_congr same.1 same.2.1).2⟩

theorem Later.trans (h : Later w w') (h' : Later w' w'') : Later w w'' :=
  ⟨h.onward.trans h'.onward, h'.lost ∘ h.lost⟩

/-- How the books go on; what happens after a loss may or may not matter. -/
def course (lossy : Prop) : Course where
  onward := Later
  lost w := lossy ∧ Lost w
  same := .of_charted
  trans := .trans
  gone h lost := ⟨lost.1, h.lost lost.2⟩

theorem lost_of_background {allowed : Host.Body → Prop} (changed : Background allowed w w') :
    Lost w' ↔ Lost w := by
  rw [Lost, Lost, changed.tracked]

/-- The numbers and runtimes of interpreters are all that the books know of them. -/
theorem sound_interpreters {t : Tracked} (h : t.Sound)
    {is : Array (Nat × Script.RuntimeId × Option Script.Exception)}
    (same : is.map (fun i => (i.1, i.2.1)) = t.interpreters.map fun i => (i.1, i.2.1)) :
    { t with interpreters := is }.Sound := by
  have at' : ∀ p : Nat, is[p]?.map (fun i => (i.1, i.2.1)) =
      t.interpreters[p]?.map fun i => (i.1, i.2.1) := by
    intro p
    rw [← Array.getElem?_map, same, Array.getElem?_map]
  have number : ∀ ts, { t with interpreters := is }.number ts = t.number ts := by
    intro ts
    have here := congrArg (Option.map (·.1)) (at' ts.place)
    simp only [Option.map_map, Function.comp_def] at here
    rw [Tracked.number, Tracked.number, here]
  refine { h with placed := fun {c ts ref closed} entry => ?_, distinct := ?_, linked := ?_ }
  · obtain ⟨i, hi, taken, runtime⟩ := h.placed entry
    have here := at' ts.place
    rw [hi] at here
    obtain ⟨j, hj, same⟩ := Option.map_eq_some_iff.1 here
    simp only [Prod.mk.injEq] at same
    exact ⟨j, hj, same.1 ▸ taken, same.2 ▸ runtime⟩
  · intro c c' ts ts' ref ref' closed closed' entry entry' same
    rw [number, number] at same
    exact h.distinct entry entry' same
  · intro n c
    simp only [number]
    exact h.linked n c

theorem Kept.withError (h : Kept w) (ts : InterpreterId)
    (f : Option Script.Exception → Option Script.Exception) : Kept (w.withError ts f) := by
  refine ⟨sound_interpreters h.sound ?_, { h.apart with }⟩
  simp only [Bridge.tracked, World.withError, Script.World.onMemory, Script.Memory.onInterpreter,
    Script.Memory.tracked, Array.map_map]
  refine map_modify ?_ _ _
  exact fun _ => rfl

theorem any_permitted (s : State) : s.Permitted Any := by
  have any : ∀ m : Host.Method, m.Permitted Any := fun _ _ _ => trivial
  exact ⟨fun _ m _ => any m, fun _ _ entry _ => any entry.2, fun m _ => any m,
    fun _ _ _ _ m _ => any m, fun entry _ => any entry.2, fun _ _ _ _ _ _ m _ => any m⟩

/-- The books are kept since some state, and maybe no context is lost. -/
structure Sober (strict : Prop) (since w : World) : Prop where
  kept : Kept w
  found : strict → ¬Lost w
  later : Later since w

variable {lossy strict : Prop} {since : World}

theorem Sober.begin (h : Kept w) (found : strict → ¬Lost w) : Sober strict w w :=
  ⟨h, found, .of_charted rfl⟩

theorem Sober.still (h : Sober strict since w) (kept : Kept w')
    (same : w'.outside.charted = w.outside.charted) : Sober strict since w' := by
  refine ⟨kept, fun s lost => h.found s ?_, h.later.trans (.of_charted same)⟩
  have back : Later w' w := .of_charted same.symm
  exact back.lost lost

theorem Sober.of_background {allowed : Host.Body → Prop} (changed : Background allowed w w')
    (h : Sober strict since w) : Sober strict since w' :=
  h.still (h.kept.of_background changed) changed.charted

/-- The books are kept in every state. -/
def discipline (lossy strict : Prop) (since : World) : Discipline (course lossy) where
  allowed := Any
  serving _ := True
  calm := Sober strict since
  raised _ := Sober strict since
  thrown := Sober strict since
  permitted _ := any_permitted _
  calm_of_background changed h := h.of_background changed
  raised_of_background changed _ h := h.of_background changed
  thrown_of_background changed h := h.of_background changed
  raised_of_calm h := h
  thrown_of_calm h := h
  calm_of_thrown h _ := h
  raise _ h := h.still (h.kept.withError _ _) rfl
  trace _ _ h := h.still (h.kept.withError _ _) rfl
  receive _ _ _ _ h := h.still (h.kept.withError _ _) rfl
  clearError h := h.still (h.kept.withError _ _) rfl
  setPending _ h := h.still ⟨h.kept.sound, { h.kept.apart with }⟩ rfl
  clearPending h := h.still ⟨h.kept.sound, { h.kept.apart with }⟩ rfl
  leaks _ h := h

theorem registered_made (h : Kept w) (registered : c ∈ w.outside.registry) :
    c.number - 1 < w.outside.contexts.size := by
  obtain ⟨ts, ref, found⟩ := h.sound.registered c registered
  obtain ⟨x, here, -⟩ := entry_context found
  exact (Array.getElem?_eq_some_iff.1 here).1

/-- Which interpreter is running makes no difference to the books. -/
def regime (lossy strict : Prop) (since : World) : Regime (course lossy) where
  of _ := discipline lossy strict since
  reports _ _ := True
  reports_unmapped _ := trivial
  reports_raised _ _ := trivial
  reports_later _ _ := trivial
  enter _ h := h.still (h.kept.withCurrent _) rfl
  enterThrown _ h := h.still (h.kept.withCurrent _) rfl
  leave _ h' := h'.still (h'.kept.withCurrent _) rfl
  leaveThrown _ h' := h'.still (h'.kept.withCurrent _) rfl
  stays h registered onward :=
    State.state_stays (registered_made h.kept registered) onward.onward.states

/-! ### The life of contexts -/

/-- The books are kept on the way, and no context gets lost. -/
structure Faithful (w w' : World) : Prop where
  kept : Kept w'
  onward : Tracked.Onward (Bridge.tracked w) (Bridge.tracked w')
  lost : Lost w' ↔ Lost w

theorem Faithful.of_background {allowed : Host.Body → Prop} (changed : Background allowed w w')
    (h : Kept w) : Faithful w w' := by
  have books : Bridge.tracked w' = Bridge.tracked w := changed.tracked
  refine ⟨h.of_background changed, ?_, lost_of_background changed⟩
  exact .of_contexts (congrArg Tracked.contexts books) (congrArg Tracked.runtime books)

theorem Faithful.trans (h : Faithful w w') (h' : Faithful w' w'') : Faithful w w'' :=
  ⟨h'.kept, h.onward.trans h'.onward, h'.lost.trans h.lost⟩

/-- However the step ends, it is faithful. -/
def Faithfully (m : EStateM ε World α) : Prop := ∀ w, Kept w → Faithful w (World.after (m w))

theorem Faithfully.mild {m : EStateM ε World α} (h : Mild Any m) : Faithfully m := by
  intro w kept
  have changed := h w
  cases hm : m w with
  | ok a w' =>
    rw [hm] at changed
    exact .of_background changed kept
  | error e w' =>
    rw [hm] at changed
    exact .of_background changed kept

theorem Faithfully.bind {m : EStateM ε World α} {next : α → EStateM ε World β} (h : Faithfully m)
    (h' : ∀ a, Faithfully (next a)) : Faithfully (m >>= next) := by
  intro w kept
  have first := h w kept
  cases hm : m w with
  | ok a w' =>
    rw [hm] at first
    rw [bind_ok hm]
    exact first.trans (h' a w' first.kept)
  | error e w' =>
    rw [hm] at first
    rw [bind_error hm]
    exact first

theorem openOver_faithfully (loader : ObjectId) :
    Faithfully (Context.openOver loader : EStateM ε World ContextId) := by
  intro w h
  obtain ⟨c, v, hv, g, books, apart⟩ := openOver_succeeds (ε := ε) h loader
  rw [hv]
  refine ⟨⟨books ▸ h.sound.opened g, apart⟩, books ▸ Tracked.opened_onward g, ?_⟩
  show (Bridge.tracked v).Lost ↔ _
  rw [books]
  exact Tracked.opened_lost g

theorem create_faithfully (loader : Option ObjectId) : Faithfully (Context.create loader) := by
  refine .bind (.mild ((Prepares.checkLoader loader).mild _)) fun loader => ?_
  refine .bind (.mild (.of_quiet .getState)) fun s => ?_
  refine .bind (.mild (.of_quiet (.bind .getMemory fun _ => .pure _))) fun rt => ?_
  by_cases finalized : rt.finalized
  · rw [if_pos finalized]
    exact .bind (.mild (.throw _)) fun (_ : PUnit) => openOver_faithfully loader
  · rw [if_neg finalized]
    exact openOver_faithfully loader

theorem close_faithfully (c : ContextId) : Faithfully (Context.close c) := by
  intro w h
  rcases close_ended h c with ⟨f, refused⟩ | ⟨ts, ref, v, found, registered, hv, books, apart⟩
  · rw [refused]
    have still : Background Any w w := .refl w
    exact .of_background still h
  · rw [hv]
    have found' : ((Bridge.tracked w).unlisted c).row? c = some (ts, ref, false) :=
      (Tracked.entry_congr rfl c).trans found
    have off : c ∉ ((Bridge.tracked w).unlisted c).registry := by
      simp [Tracked.unlisted]
    refine ⟨⟨books ▸ (h.sound.unlisted c).ended found' off, apart⟩, books ▸ ?_, ?_⟩
    · have first : Tracked.Onward (Bridge.tracked w) ((Bridge.tracked w).unlisted c) :=
        .of_contexts rfl rfl
      exact first.trans (Tracked.ended_onward found')
    · show (Bridge.tracked v).Lost ↔ _
      rw [books]
      exact Tracked.closed_lost found registered

theorem keepLoader_faithful (h : Kept w) (registered : c ∈ w.outside.registry)
    (loader : ObjectId) :
    Faithful w (World.after ((Context.keepLoader c loader : EStateM ε World Unit) w)) := by
  obtain ⟨ts, ref, found⟩ := h.sound.registered c registered
  obtain ⟨⟨⟩, v, hv, g, books, apart⟩ := keepLoader_succeeds (ε := ε) h found loader
  rw [hv]
  refine ⟨⟨books ▸ h.sound.relet found g, apart⟩, books ▸ Tracked.relet_onward found g, ?_⟩
  show (Bridge.tracked v).Lost ↔ _
  rw [books]
  exact Tracked.relet_lost found g

/-- A faithful step ends as the regime asks. -/
theorem Faithful.agreeAt {m : EStateM ε World α} (changed : Faithful w (World.after (m w)))
    (hw : Sober strict since w) :
    AgreeAt (course lossy) (fun _ => Sober strict since) (fun _ => Sober strict since) w
      (m w) (m w) := by
  have later : Later w (World.after (m w)) := ⟨changed.onward, changed.lost.2⟩
  have after : Sober strict since (World.after (m w)) :=
    ⟨changed.kept, fun s => hw.found s ∘ changed.lost.1, hw.later.trans later⟩
  refine ⟨fun _ => rfl, later, ?_⟩
  cases hm : m w with
  | ok a v => rwa [hm] at after
  | error e v => rwa [hm] at after

theorem between_iff {clear : Bool} {current : Option InterpreterId} :
    (regime lossy strict since).between clear current w ↔ Sober strict since w := by
  cases clear <;> rfl

theorem Faithfully.serves {m : Operation α} (h : Faithfully m) :
    (regime lossy strict since).Serves m m := by
  intro clear current w hw
  have sober := between_iff.mp hw
  exact ((h w sober.kept).agreeAt sober).weaken (fun _ _ hv => between_iff.mpr hv)
    fun _ _ hv => ⟨between_iff.mpr hv, trivial⟩

theorem lifecycle (lossy strict : Prop) (since : World) : (regime lossy strict since).Lifecycle where
  create loader := (create_faithfully loader).serves
  close c := (close_faithfully c).serves
  keepLoader _ _ _ loader _ hw := (keepLoader_faithful hw.1.kept hw.2 loader).agreeAt hw.1

end ScriptBridge.Bookkeeping
