import ScriptBridge.Proofs.Bookkeeping.Books
import ScriptBridge.Proofs.Discipline.Offers
import ScriptBridge.Proofs.Discipline.Views

/-!
# Opening and closing keep the books

What each step in the life of a context does to the books. The books are sound again when the step
has ended, though not at every moment on the way.
-/

/-! ## The references of contexts

Each open context keeps its class loader by a reference of its own. Taking a reference for a new
context, exchanging it for another one and dropping it leaves those of other contexts alone, as the
numbers of references are never used again.
-/

namespace ScriptBridge

open Host (ObjectId Realm GlobalRef)
open Bridge (World State ContextId)

namespace Bridge.State.Apart

variable {s : State} {g : GlobalRef}

/-- A reference that is nobody's yet. -/
structure Unclaimed (s : State) (g : GlobalRef) : Prop where
  kept : g ∈ s.realm.globals
  created : g.number ≤ s.realm.created
  loaders : ∀ h ∈ s.loaderRefs, h.number ≠ g.number
  views : g.number ∉ s.viewRefs

theorem renewed (h : s.Apart) (o : ObjectId) :
    { s with realm := (Realm.newGlobalRef o s.realm).2 }.Apart :=
  ⟨fun g hg => List.mem_cons_of_mem _ (h.kept g hg), h.distinct, h.others,
    fun g hg => Nat.le_succ_of_le (h.loaders g hg), fun n hn => Nat.le_succ_of_le (h.views n hn)⟩

theorem unclaimed_new (h : s.Apart) (o : ObjectId) :
    Unclaimed { s with realm := (Realm.newGlobalRef o s.realm).2 }
      (Realm.newGlobalRef o s.realm).1 := by
  refine ⟨List.mem_cons_self, Nat.le_refl _, fun g hg same => ?_, fun viewed => ?_⟩
  · have := h.loaders g hg
    exact absurd this (by rw [same]; exact Nat.not_succ_le_self _)
  · exact absurd (h.views _ viewed) (Nat.not_succ_le_self _)

/-- The references of the other contexts stand before and behind that of a context. -/
theorem loaderRefs_split {i : Nat} {x : Bridge.Context} (found : s.contexts[i]? = some x) :
    ∃ before behind : List GlobalRef, s.loaderRefs = before ++ (x.loaderRef.toList ++ behind) ∧
      ∀ f : Bridge.Context → Bridge.Context,
        { s with contexts := s.contexts.modify i f }.loaderRefs =
          before ++ ((f x).loaderRef.toList ++ behind) := by
  obtain ⟨reach, here⟩ := Array.getElem?_eq_some_iff.1 found
  have reach' : i < s.contexts.toList.length := by simpa using reach
  have split : ∀ f : Bridge.Context → Bridge.Context, s.contexts.toList.modify i f =
      s.contexts.toList.take i ++ f x :: s.contexts.toList.drop (i + 1) := by
    intro f
    rw [List.modify_eq_take_cons_drop reach']
    simp [here]
  have refs : ∀ (f : Bridge.Context → Bridge.Context) (before behind : List Bridge.Context),
      (before ++ f x :: behind).filterMap (·.loaderRef) =
        before.filterMap (·.loaderRef) ++
          ((f x).loaderRef.toList ++ behind.filterMap (·.loaderRef)) := by
    intro f before behind
    rw [List.filterMap_append, List.filterMap_cons]
    cases (f x).loaderRef with
    | none => rfl
    | some g => rfl
  refine ⟨(s.contexts.toList.take i).filterMap (·.loaderRef),
    (s.contexts.toList.drop (i + 1)).filterMap (·.loaderRef), ?_, fun f => ?_⟩
  · have whole := congrArg (List.filterMap (·.loaderRef)) (split id)
    rw [List.modify_id, refs] at whole
    exact whole
  · rw [loaderRefs, Array.toList_modify, split, refs]

/-- The references of the other contexts are the same, whatever becomes of one context. -/
theorem loaderRefs_perm {i : Nat} {x : Bridge.Context} (found : s.contexts[i]? = some x) :
    ∃ others : List GlobalRef, s.loaderRefs.Perm (x.loaderRef.toList ++ others) ∧
      ∀ f : Bridge.Context → Bridge.Context,
        { s with contexts := s.contexts.modify i f }.loaderRefs.Perm
          ((f x).loaderRef.toList ++ others) := by
  obtain ⟨before, behind, was, now⟩ := loaderRefs_split found
  refine ⟨before ++ behind, ?_, fun f => ?_⟩
  · rw [was]
    exact List.perm_append_comm_assoc _ _ _
  · rw [now f]
    exact List.perm_append_comm_assoc _ _ _

/-- A context gives up its reference and keeps another one or none. -/
theorem exchange (h : s.Apart) {i : Nat} {x : Bridge.Context} (found : s.contexts[i]? = some x)
    {f : Bridge.Context → Bridge.Context} (claimed : ∀ g ∈ (f x).loaderRef, Unclaimed s g) :
    { s with contexts := s.contexts.modify i f }.Apart ∧
      ∀ old ∈ x.loaderRef, ∀ g ∈ { s with contexts := s.contexts.modify i f }.loaderRefs,
        g.number ≠ old.number := by
  obtain ⟨others, was, now⟩ := loaderRefs_perm found
  have now := now f
  have among : ∀ g ∈ others, g ∈ s.loaderRefs := fun g hg =>
    was.mem_iff.2 (List.mem_append_right _ hg)
  have distinct := (was.map (·.number)).nodup_iff.1 h.distinct
  rw [List.map_append, List.nodup_append] at distinct
  obtain ⟨-, apart, differ⟩ := distinct
  have origin : ∀ g ∈ { s with contexts := s.contexts.modify i f }.loaderRefs,
      g ∈ others ∨ Unclaimed s g := by
    intro g hg
    rcases List.mem_append.1 (now.mem_iff.1 hg) with new | other
    · exact .inr (claimed g (Option.mem_toList.1 new))
    · exact .inl other
  refine ⟨⟨fun g hg => ?_, ?_, fun g hg => ?_, fun g hg => ?_, h.views⟩, fun old hold g hg same => ?_⟩
  · rcases origin g hg with other | new
    · exact h.kept g (among g other)
    · exact new.kept
  · refine (now.map (·.number)).nodup_iff.2 ?_
    rw [List.map_append, List.nodup_append]
    refine ⟨?_, apart, ?_⟩
    · cases (f x).loaderRef <;> simp
    · rintro _ ha _ hb rfl
      obtain ⟨g, new, rfl⟩ := List.mem_map.1 ha
      obtain ⟨g', other, same⟩ := List.mem_map.1 hb
      exact (claimed g (Option.mem_toList.1 new)).loaders g' (among g' other) same
  · rcases origin g hg with other | new
    · exact h.others g (among g other)
    · exact new.views
  · rcases origin g hg with other | new
    · exact h.loaders g (among g other)
    · exact new.created
  · rcases origin g hg with other | new
    · exact differ _ (List.mem_map_of_mem (Option.mem_toList.2 hold)) _
        (List.mem_map_of_mem other) same.symm
    · exact new.loaders old (was.mem_iff.2 (List.mem_append_left _ (Option.mem_toList.2 hold)))
        same.symm

/-- A reference is dropped that no context has. -/
theorem dropped (h : s.Apart) (others : ∀ g' ∈ s.loaderRefs, g'.number ≠ g.number) :
    { s with realm := (Realm.deleteGlobalRef g s.realm).2 }.Apart := by
  obtain ⟨-, created, -, globals⟩ := deleted_realm g s.realm
  refine ⟨fun g' hg' => globals g' (h.kept g' hg') (others g' hg'), h.distinct, h.others, ?_, ?_⟩
  · intro g' hg'
    show g'.number ≤ (Realm.deleteGlobalRef g s.realm).2.created
    rw [created]
    exact h.loaders g' hg'
  · intro n hn
    show n ≤ (Realm.deleteGlobalRef g s.realm).2.created
    rw [created]
    exact h.views n hn

/-- A new context takes a reference. -/
theorem joined (h : s.Apart) (claimed : Unclaimed s g) {x : Bridge.Context}
    (keeps : x.loaderRef = some g) : { s with contexts := s.contexts.push x }.Apart := by
  have now : { s with contexts := s.contexts.push x }.loaderRefs = s.loaderRefs ++ [g] := by
    simp [loaderRefs, keeps]
  refine ⟨fun g' hg' => ?_, ?_, fun g' hg' => ?_, fun g' hg' => ?_, h.views⟩
  · rw [now] at hg'
    rcases List.mem_append.1 hg' with old | new
    · exact h.kept g' old
    · exact List.mem_singleton.1 new ▸ claimed.kept
  · rw [now, List.map_append]
    refine List.nodup_append.2 ⟨h.distinct, by simp, ?_⟩
    rintro n old m new rfl
    obtain ⟨g', hg', rfl⟩ := List.mem_map.1 old
    exact claimed.loaders g' hg' (List.mem_singleton.1 new)
  · rw [now] at hg'
    rcases List.mem_append.1 hg' with old | new
    · exact h.others g' old
    · exact List.mem_singleton.1 new ▸ claimed.views
  · rw [now] at hg'
    rcases List.mem_append.1 hg' with old | new
    · exact h.loaders g' old
    · exact List.mem_singleton.1 new ▸ claimed.created

end Bridge.State.Apart
end ScriptBridge

namespace ScriptBridge.Bookkeeping

open Host (ObjectId Realm GlobalRef)
open Bridge (World State ContextId)
open Script (InterpreterId)
open Context (Operation)

variable {w w' w'' : World} {ε α β : Type} {c : ContextId} {ts : InterpreterId}

/-! ### Steps that succeed -/

/-- The step succeeds, with a result and a world as stated. -/
def Succeeds (m : EStateM ε World α) (w : World) (post : α → World → Prop) : Prop :=
  ∃ a w', m w = .ok a w' ∧ post a w'

/-- No code comes from outside here, so any code is allowed. -/
abbrev Any : Host.Body → Prop := fun _ => True

namespace Succeeds

variable {m : EStateM ε World α} {next : α → EStateM ε World β} {post : β → World → Prop}

theorem bind {mid : α → World → Prop} (h : Succeeds m w mid)
    (h' : ∀ a v, mid a v → Succeeds (next a) v post) : Succeeds (m >>= next) w post := by
  obtain ⟨a, v, hm, hv⟩ := h
  obtain ⟨b, u, hn, hu⟩ := h' a v hv
  exact ⟨b, u, by rw [bind_ok hm, hn], hu⟩

/-- A quiet step first. -/
theorem quiet (h : Quiet Any m) (h' : ∀ a v, Background Any w v → Succeeds (next a) v post) :
    Succeeds (m >>= next) w post := by
  obtain ⟨a, v, hm, changed⟩ := h w
  obtain ⟨b, u, hn, hu⟩ := h' a v changed
  exact ⟨b, u, by rw [bind_ok hm, hn], hu⟩

theorem getInterpreter {next : Script.Interpreter → EStateM ε World β}
    (h : Succeeds (next (w.memory.interpreter ts)) w post) :
    Succeeds (Script.getInterpreter ts >>= next) w post := h

theorem getContext {next : Bridge.Context → EStateM ε World β}
    (h : Succeeds (next (w.outside.context c)) w post) :
    Succeeds (Bridge.getContext c >>= next) w post := h

theorem modifyState {f : State → State} {next : Unit → EStateM ε World β}
    (h : Succeeds (next ()) ⟨w.memory, f w.outside⟩ post) :
    Succeeds (Bridge.modifyState f >>= next) w post := h

end Succeeds

/-! ### Books that are kept -/

/-- The books are sound, and contexts share no references. -/
structure Kept (w : World) : Prop where
  sound : (Bridge.tracked w).Sound
  apart : w.outside.Apart

/-- Some context is open that nobody can name. -/
def Lost (w : World) : Prop := (Bridge.tracked w).Lost

theorem Kept.of_background {allowed : Host.Body → Prop} (changed : Background allowed w w')
    (h : Kept w) : Kept w' :=
  ⟨changed.tracked ▸ h.sound, changed.apart h.apart⟩

/-- The entry of a context is what the context says. -/
theorem entry_context {ref : Option GlobalRef} {closed : Bool}
    (found : (Bridge.tracked w).row? c = some (ts, ref, closed)) :
    ∃ x, w.outside.contexts[c.number - 1]? = some x ∧ w.outside.context c = x ∧ x.state = ts ∧
      x.loaderRef = ref ∧ x.closed = closed := by
  match c with
  | ⟨0⟩ => cases found
  | ⟨n + 1⟩ =>
    simp only [Tracked.row?, Bridge.tracked, State.tracked, Array.getElem?_map] at found
    cases here : w.outside.contexts[n]? with
    | none =>
      rw [here] at found
      cases found
    | some x =>
      rw [here] at found
      cases found
      exact ⟨x, here, by simp [State.context, here], rfl, rfl, rfl⟩

theorem number_tracked (w : World) (ts : InterpreterId) :
    (Bridge.tracked w).number ts = (w.memory.interpreter ts).number := by
  simp only [Tracked.number, Bridge.tracked, Script.Memory.tracked, Script.Memory.interpreter,
    Array.getElem?_map]
  cases w.memory.interpreters[ts.place]? with
  | none => rfl
  | some i => rfl

/-- Changing items and looking at parts of them can be exchanged. -/
theorem map_modify_comm {γ δ : Type} {f : γ → γ} {f' : δ → δ} {g : γ → δ}
    (h : ∀ a, g (f a) = f' (g a)) (xs : Array γ) (i : Nat) :
    (xs.modify i f).map g = (xs.map g).modify i f' := by
  refine Array.ext (by simp) fun j _ _ => ?_
  simp only [Array.getElem_map, Array.getElem_modify]
  split
  · exact h _
  · rfl

/-! ### Entering -/

/-- Of a runtime only the next number and the count of live interpreters matter. -/
theorem sound_runtime {t : Tracked} (h : t.Sound) {f : Script.Runtime → Script.Runtime}
    (next : ∀ r, (f r).nextNumber = r.nextNumber) (live : ∀ r, (f r).live = r.live) :
    { t with runtimes := t.runtimes.modify t.runtime.place f }.Sound := by
  have own : { t with runtimes := t.runtimes.modify t.runtime.place f }.own = f t.own := by
    simp [Tracked.own, Array.getElem_modify, h.runtime]
  refine { h with runtime := ?_, placed := fun entry => ?_, live := ?_ }
  · simpa using h.runtime
  · rw [own, next]
    exact h.placed entry
  · rw [own, live]
    exact h.live

theorem Kept.withCurrent (h : Kept w) (current : Option InterpreterId) :
    Kept (w.withCurrent current) := by
  have sound := sound_runtime h.sound (f := fun r => { r with current }) (fun _ => rfl) fun _ => rfl
  exact ⟨sound, { h.apart with }⟩

/-! ### Ending a context -/

/-- The books after an interpreter was ended. -/
def unseated (ts : InterpreterId) (t : Tracked) : Tracked :=
  { t with
    interpreters := t.interpreters.modify ts.place fun i => (i.1, i.2.1, none)
    runtimes := t.runtimes.modify t.runtime.place fun r => { r with live := r.live - 1 } }

/-- The error of an interpreter is gone when it ends, and its runtime counts one less. -/
theorem endInterpreter_succeeds
    (runtime : (w.memory.interpreter ts).runtime = w.outside.runtime) :
    Succeeds (Script.endInterpreter ts : EStateM ε World Unit) w fun _ v =>
      Bridge.tracked v = unseated ts (Bridge.tracked w) ∧ (w.outside.Apart → v.outside.Apart) := by
  refine .getInterpreter (.quiet (.modifyInterpreter ?_ ts) fun _ v₁ h₁ =>
    .quiet (.clearAll _) fun _ v₂ h₂ => .quiet (.clearAll _) fun _ v h₃ => ?_)
  · exact fun _ => rfl
  have changed : Background Any w v := h₁.trans (h₂.trans h₃)
  refine ⟨(), _, rfl, ?_, changed.apart⟩
  have same : v.outside.runtime = w.outside.runtime :=
    congrArg Tracked.runtime changed.tracked
  have silenced : ∀ xs : Array Script.Interpreter,
      (xs.modify ts.place fun i => { i with error := none }).map
          (fun i => (i.number, i.runtime, i.error)) =
        (xs.map fun i => (i.number, i.runtime, i.error)).modify ts.place
          fun i => (i.1, i.2.1, none) := by
    refine fun xs => map_modify_comm ?_ xs _
    exact fun _ => rfl
  have ended : Bridge.tracked v = Bridge.tracked w := changed.tracked
  rw [runtime, ← same, ← ended]
  simp only [Bridge.tracked, Script.World.onMemory, Script.Memory.onInterpreter,
    Script.Memory.tracked, unseated, silenced]

theorem runtime_tracked {i : Nat × Script.RuntimeId × Option Script.Exception}
    (found : (Bridge.tracked w).interpreters[ts.place]? = some i) :
    (w.memory.interpreter ts).runtime = i.2.1 := by
  simp only [Bridge.tracked, Script.Memory.tracked, Array.getElem?_map] at found
  rw [Script.Memory.interpreter]
  cases here : w.memory.interpreters[ts.place]? with
  | none =>
    rw [here] at found
    cases found
  | some j =>
    rw [here] at found
    cases found
    rfl

/-- The books after a context was unlinked whose interpreter is still there. -/
def unlinked (c : ContextId) (ts : InterpreterId) (t : Tracked) : Tracked :=
  { t.revised c fun _ => (none, true) with links := t.links.filter (·.1 != t.number ts) }

/-- The interpreter of a context ends last. -/
theorem unlinked_succeeds (h : Kept w') {ref : Option GlobalRef} {closed : Bool}
    (found : (Bridge.tracked w').row? c = some (ts, ref, closed))
    (books : Bridge.tracked w = unlinked c ts (Bridge.tracked w')) (apart : w.outside.Apart) :
    Succeeds (do
      Script.endInterpreter ts
      Bridge.reclaim false : EStateM ε World Unit) w fun _ v =>
        Bridge.tracked v = (Bridge.tracked w').ended c ts ∧ v.outside.Apart := by
  obtain ⟨i, placed, -, own⟩ := h.sound.placed found
  have placed' : (Bridge.tracked w).interpreters[ts.place]? = some i := by
    rw [books]
    exact placed
  have runtime : w.outside.runtime = w'.outside.runtime := congrArg Tracked.runtime books
  refine (endInterpreter_succeeds ?_).bind fun _ v hv => ?_
  · rw [runtime_tracked placed', runtime]
    exact own
  have reclaimed : Quiet Any (Bridge.reclaim false : EStateM ε World Unit) := .reclaim false
  obtain ⟨_, u, hu, changed⟩ := reclaimed v
  refine ⟨_, u, hu, ?_, changed.apart (hv.2 apart)⟩
  rw [changed.tracked, hv.1, books]
  rfl

theorem teardown_succeeds (h : Kept w) {ref : Option GlobalRef}
    (found : (Bridge.tracked w).row? c = some (ts, ref, false)) :
    Succeeds (Context.teardown c : EStateM ε World Unit) w fun _ v =>
      Bridge.tracked v = (Bridge.tracked w).ended c ts ∧ v.outside.Apart := by
  obtain ⟨x, here, context, rfl, rfl, closed⟩ := entry_context found
  let shut : Bridge.Context → Bridge.Context :=
    fun x => { x with closed := true, handles := [], loaderRef := none }
  obtain ⟨apart, others⟩ := h.apart.exchange here (f := shut) nofun
  have revised : (w.outside.contexts.modify (c.number - 1) shut).map
      (fun x => (x.state, x.loaderRef, x.closed)) =
      w.outside.tracked.modify (c.number - 1) fun x => (x.1, none, true) := by
    refine map_modify_comm ?_ _ _
    exact fun _ => rfl
  refine .getContext ?_
  rw [context, closed]
  refine .modifyState (.quiet (.releaseValues _) fun _ v changed => .getInterpreter ?_)
  have tracked : Bridge.tracked v = (Bridge.tracked w).revised c fun _ => (none, true) := by
    rw [changed.tracked]
    simp only [Bridge.tracked, State.tracked, Tracked.revised]
    rw [revised]
    rfl
  have number : (v.memory.interpreter x.state).number = (Bridge.tracked w).number x.state := by
    rw [← number_tracked, tracked]
    rfl
  have apart' : v.outside.Apart := changed.apart apart
  have books : ∀ r : Realm, Bridge.tracked ⟨v.memory, { v.outside with
      links := v.outside.links.filter (·.1 != (v.memory.interpreter x.state).number)
      realm := r }⟩ = unlinked c x.state (Bridge.tracked w) := by
    intro r
    rw [unlinked, ← tracked, number]
    have links : v.outside.links = w.outside.links := congrArg Tracked.links tracked
    simp only [Bridge.tracked, State.tracked, links]
  refine .modifyState ?_
  cases ref : x.loaderRef with
  | none => exact unlinked_succeeds h found (books v.outside.realm) { apart' with }
  | some g =>
    have others' : ∀ g' ∈ v.outside.loaderRefs, g'.number ≠ g.number := by
      intro g' hg'
      rw [changed.loaderRefs] at hg'
      exact others g ref g' hg'
    have dropped := apart'.dropped others'
    exact unlinked_succeeds h found (books _) { dropped with }

/-! ### Opening a context -/

/-- The books after an interpreter was made. -/
def seated (t : Tracked) : Tracked :=
  { t with
    interpreters := t.interpreters.push (t.own.nextNumber, t.runtime, none)
    runtimes := t.runtimes.modify t.runtime.place fun r =>
      { r with nextNumber := r.nextNumber + 1, live := r.live + 1 } }

theorem newInterpreter_succeeds :
    Succeeds (Script.newInterpreter w.outside.runtime : EStateM ε World InterpreterId) w
      fun ts v => ts = ⟨(Bridge.tracked w).interpreters.size⟩ ∧
        Bridge.tracked v = seated (Bridge.tracked w) ∧ (w.outside.Apart → v.outside.Apart) := by
  have counted : ∀ {next : Script.Runtime → EStateM ε World InterpreterId}
      {post : InterpreterId → World → Prop},
      Succeeds (next (w.memory.runtime w.outside.runtime)) w post →
        Succeeds (Script.getRuntime w.outside.runtime >>= next) w post := id
  refine counted (.quiet (.newModule _ _) fun builtins v₁ h₁ => .quiet (.bindAll _ _) fun _ v₂ h₂ =>
    .quiet (.newModule _ _) fun main v₃ h₃ => .quiet (.bindName _ _ _) fun _ v h₄ => ?_)
  have changed : Background Any w v := h₁.trans (h₂.trans (h₃.trans h₄))
  refine ⟨_, _, rfl, ?_, ?_, changed.apart⟩
  · rw [← changed.tracked]
    simp [Bridge.tracked, Script.Memory.tracked]
  · have own : w.memory.runtime w.outside.runtime = (Bridge.tracked v).own := by
      rw [changed.tracked]
      rfl
    have runtime : v.outside.runtime = w.outside.runtime :=
      congrArg Tracked.runtime changed.tracked
    rw [← changed.tracked, seated, ← own]
    simp only [Bridge.tracked, Script.World.onMemory, Script.Memory.tracked, Array.map_push,
      runtime]

theorem openOver_succeeds (h : Kept w) (loader : ObjectId) :
    Succeeds (Context.openOver loader : EStateM ε World ContextId) w fun _ v =>
      ∃ g, Bridge.tracked v = (Bridge.tracked w).opened g ∧ v.outside.Apart := by
  have looked : ∀ {u : World} {next : State → EStateM ε World ContextId}
      {post : ContextId → World → Prop}, Succeeds (next u.outside) u post →
        Succeeds (Bridge.getState >>= next) u post := id
  refine looked (newInterpreter_succeeds.bind fun state v₀ h₀ => looked ?_)
  obtain ⟨rfl, seat, apart⟩ := h₀
  refine .quiet (.newBridgeModule _) fun module v₁ h₁ => .quiet (.addModule _ _) fun _ v₂ h₂ => ?_
  refine .quiet .installImport fun _ v h₃ => ?_
  have changed : Background Any v₀ v := h₁.trans (h₂.trans h₃)
  have books : Bridge.tracked v = seated (Bridge.tracked w) := changed.tracked.trans seat
  have size : v₀.outside.contexts.size = (Bridge.tracked w).contexts.size := by
    have same : v₀.outside.tracked = w.outside.tracked := congrArg Tracked.contexts seat
    simpa [Bridge.tracked, State.tracked] using congrArg Array.size same
  have number : (v.memory.interpreter ⟨(Bridge.tracked w).interpreters.size⟩).number =
      (Bridge.tracked w).own.nextNumber := by
    rw [← number_tracked, books]
    simp [Tracked.number, seated]
  have apart' : v.outside.Apart := changed.apart (apart h.apart)
  let g := (Realm.newGlobalRef loader v.outside.realm).1
  refine ⟨_, _, rfl, g, ?_, ?_⟩
  · have opened : (Bridge.tracked w).opened g =
        { Bridge.tracked v with
          contexts :=
            (Bridge.tracked v).contexts.push (⟨(Bridge.tracked w).interpreters.size⟩, some g, false)
          links := ((Bridge.tracked w).own.nextNumber, ⟨(Bridge.tracked w).contexts.size + 1⟩) ::
            (Bridge.tracked v).links.filter (·.1 != (Bridge.tracked w).own.nextNumber)
          registry := (Bridge.tracked v).registry ++ [⟨(Bridge.tracked w).contexts.size + 1⟩] } := by
      rw [books]
      rfl
    rw [opened, ← number, ← size]
    simp only [Bridge.tracked, State.tracked, Array.map_push]
    rfl
  · have joined := (apart'.renewed loader).joined (apart'.unclaimed_new loader)
      (x := ⟨⟨(Bridge.tracked w).interpreters.size⟩, ⟨v.outside.printStack, module, loader⟩, some g,
        [], 1, false⟩) rfl
    exact { joined with }

/-! ### Another loader -/

theorem keepLoader_succeeds (h : Kept w) {ref : Option GlobalRef}
    (found : (Bridge.tracked w).row? c = some (ts, ref, false)) (loader : ObjectId) :
    Succeeds (Context.keepLoader c loader : EStateM ε World Unit) w fun _ v =>
      ∃ g, Bridge.tracked v = (Bridge.tracked w).relet c g ∧ v.outside.Apart := by
  obtain ⟨x, here, context, rfl, rfl, closed⟩ := entry_context found
  let g := (Realm.newGlobalRef loader w.outside.realm).1
  let relet : Bridge.Context → Bridge.Context :=
    fun x => { x with loaderRef := some g, link := { x.link with loader } }
  have revised : (w.outside.contexts.modify (c.number - 1) relet).map
      (fun x => (x.state, x.loaderRef, x.closed)) =
      w.outside.tracked.modify (c.number - 1) fun x => (x.1, some g, x.2.2) := by
    refine map_modify_comm ?_ _ _
    exact fun _ => rfl
  have books : ∀ r : Realm, Bridge.tracked ⟨w.memory, { w.outside with
      realm := r, contexts := w.outside.contexts.modify (c.number - 1) relet }⟩ =
      (Bridge.tracked w).relet c g := by
    intro r
    simp only [Bridge.tracked, State.tracked, Tracked.relet, Tracked.revised]
    rw [revised]
    rfl
  have renewed := h.apart.renewed loader
  obtain ⟨apart, others⟩ := renewed.exchange here (f := relet) fun g' hg' => by
    cases hg'
    exact h.apart.unclaimed_new loader
  have looked : (Bridge.State.context
      { w.outside with realm := (Realm.newGlobalRef loader w.outside.realm).2 } c) = x := context
  let fresh : World :=
    ⟨w.memory, { w.outside with realm := (Realm.newGlobalRef loader w.outside.realm).2 }⟩
  have made : (Host.onRealm (Realm.newGlobalRef loader) : EStateM ε World _) w =
    .ok g fresh := rfl
  have got : (Bridge.getContext c : EStateM ε World _) fresh = .ok x fresh :=
    congrArg (EStateM.Result.ok · fresh) looked
  unfold Succeeds Context.keepLoader
  rw [bind_ok made, bind_ok got]
  cases kept : x.loaderRef with
  | none => exact ⟨_, _, rfl, g, books _, { apart with }⟩
  | some old =>
    have dropped := apart.dropped (g := old) fun g' hg' => others old kept g' hg'
    exact ⟨_, _, rfl, g, books _, { dropped with }⟩

end ScriptBridge.Bookkeeping
