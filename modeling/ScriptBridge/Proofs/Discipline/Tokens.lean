import ScriptBridge.Proofs.Discipline.HostBodies

/-!
# Type tokens are looked up quietly

A token is resolved with references of its own, and remembered. That it cannot be resolved is an
answer like any other, so classifying a class and fitting a value to a parameter change the
background only.
-/

namespace ScriptBridge

open Host (ClassId ObjectId Realm GlobalRef Body Thrown HostM Method)
open Bridge (World State BridgeM TokenName TypeToken Unavailable Kind)
open Script (InterpreterId Raised Family)

variable {ε α β : Type}

/-! ### Steps that may fail without a trace -/

/-- The step changes the background only, whether it fails or not. -/
def Mild (allowed : Body → Prop) (step : EStateM ε World α) : Prop :=
  ∀ w, match step w with
    | .ok _ w' => Background allowed w w'
    | .error _ w' => Background allowed w w'

namespace Mild

variable {allowed : Body → Prop}

theorem of_quiet {step : EStateM ε World α} (h : Quiet allowed step) : Mild allowed step := by
  intro w
  obtain ⟨a, w', hw, changed⟩ := h w
  rw [hw]
  exact changed

theorem pure (a : α) : Mild allowed (Pure.pure a : EStateM ε World α) := of_quiet (.pure a)

theorem throw (e : ε) : Mild allowed (MonadExcept.throw e : EStateM ε World α) := fun w => .refl w

theorem bind {step : EStateM ε World α} {next : α → EStateM ε World β} (h : Mild allowed step)
    (h' : ∀ a, Mild allowed (next a)) : Mild allowed (step >>= next) := by
  intro w
  have first := h w
  simp only [Bind.bind, EStateM.bind]
  cases hw : step w with
  | error e w' => rwa [hw] at first
  | ok a w' =>
    rw [hw] at first
    have second := h' a w'
    simp only
    cases hw' : next a w' with
    | error e w'' =>
      rw [hw'] at second
      exact first.trans second
    | ok b w'' =>
      rw [hw'] at second
      exact first.trans second

theorem attempt {step : EStateM ε World α} (h : Mild allowed step) {ε' : Type} :
    Quiet allowed (Script.attempt step : EStateM ε' World (Except ε α)) := by
  intro w
  have tried := h w
  simp only [Script.attempt]
  cases hw : step w with
  | ok a w' =>
    rw [hw] at tried
    exact ⟨_, _, rfl, tried⟩
  | error e w' =>
    rw [hw] at tried
    exact ⟨_, _, rfl, tried⟩

end Mild

/-! ### Type tokens -/

/-- A realm in which references have been taken, the given ones among them. -/
structure Host.Realm.Takes (r r' : Realm) (numbers : List Nat) : Prop where
  pending : r'.pending = none ∨ r'.pending = r.pending
  globals : ∀ g ∈ r.globals, g ∈ r'.globals
  created : r.created ≤ r'.created
  methods : ∀ c, ∀ m ∈ (r'.classOf c).methods, ∃ d, m ∈ (r.classOf d).methods
  fresh : ∀ n ∈ numbers, r.created < n ∧ n ≤ r'.created

namespace Host.Realm.Takes

variable {r r' r'' : Realm} {numbers : List Nat}

theorem of_extends (h : r.Extends r') : r.Takes r' [] :=
  ⟨.inr h.pending, fun _ hg => h.globals ▸ hg, Nat.le_of_eq h.created.symm, h.methods, by simp⟩

theorem extend (h : r.Takes r' numbers) (h' : r'.Extends r'') : r.Takes r'' numbers := by
  refine ⟨?_, fun g hg => h'.globals ▸ h.globals g hg, h'.created ▸ h.created, ?_, ?_⟩
  · rw [h'.pending]
    exact h.pending
  · intro c m hm
    obtain ⟨d, hd⟩ := h'.methods c m hm
    exact h.methods d m hd
  · rw [h'.created]
    exact h.fresh

theorem take (h : r.Takes r' numbers) (o : ObjectId) :
    r.Takes (newGlobalRef o r').2 ((newGlobalRef o r').1.number :: numbers) := by
  refine ⟨h.pending, fun g hg => List.mem_cons_of_mem _ (h.globals g hg),
    Nat.le_succ_of_le h.created, h.methods, fun n hn => ?_⟩
  rcases List.mem_cons.1 hn with rfl | hn
  · exact ⟨Nat.lt_succ_of_le h.created, Nat.le_refl _⟩
  · exact ⟨(h.fresh n hn).1, Nat.le_succ_of_le (h.fresh n hn).2⟩

theorem fewer {others : List Nat} (h : r.Takes r' numbers) (sub : ∀ n ∈ others, n ∈ numbers) :
    r.Takes r' others :=
  ⟨h.pending, h.globals, h.created, h.methods, fun n hn => h.fresh n (sub n hn)⟩

theorem hush (h : r.Takes r' numbers) : r.Takes { r' with pending := none } numbers :=
  ⟨.inl rfl, h.globals, h.created, h.methods, h.fresh⟩

end Host.Realm.Takes

/-- New references that are given to views, tokens or looked-up members. -/
theorem Background.of_takes {allowed : Body → Prop} {w : World} {s : State} {numbers : List Nat}
    (h : w.outside.realm.Takes s.realm numbers) (contexts : s.tracked = w.outside.tracked)
    (registry : s.registry = w.outside.registry) (links : s.links = w.outside.links)
    (runtime : s.runtime = w.outside.runtime)
    (views : ∀ n ∈ s.viewRefs, n ∈ w.outside.viewRefs ∨ n ∈ numbers)
    (permitted : w.outside.Permitted allowed → s.realm.Permitted allowed → s.Permitted allowed) :
    Background allowed w ⟨w.memory, s⟩ := by
  refine .of_outside contexts registry links runtime h.pending h.globals h.created
    (fun n hn => (views n hn).imp_right (h.fresh n)) fun hs => permitted hs fun c m hm => ?_
  obtain ⟨d, hd⟩ := h.methods c m hm
  exact hs.realm d m hd

/-- The references of what is remembered about a token. -/
def slotRefs : Except String TypeToken → List Nat
  | .ok token => token.held.map (·.number)
  | .error _ => []

/-- The world with another realm. -/
def Bridge.World.onRealm (r : Realm) (w : World) : World :=
  ⟨w.memory, { w.outside with realm := r }⟩

/-- The step only takes references: beside those that were taken since the realm was `base`, those
of its result. -/
def Taking (base : Realm) (numbers : List Nat) (step : EStateM ε World α)
    (refs : α → List Nat) : Prop :=
  ∀ (w : World) (r : Realm), base.Takes r numbers →
    ∃ a r', step (w.onRealm r) = .ok a (w.onRealm r') ∧ base.Takes r' (refs a)

namespace Taking

variable {base : Realm} {numbers : List Nat} {refs : α → List Nat}

theorem pure {a : α} (h : ∀ n ∈ refs a, n ∈ numbers) :
    Taking base numbers (Pure.pure a : EStateM ε World α) refs :=
  fun _ r hr => ⟨a, r, rfl, hr.fewer h⟩

theorem bind {step : EStateM ε World α} {next : α → EStateM ε World β} {refs' : β → List Nat}
    (h : Taking base numbers step refs) (h' : ∀ a, Taking base (refs a) (next a) refs') :
    Taking base numbers (step >>= next) refs' := by
  intro w r hr
  obtain ⟨a, r', ha, taken⟩ := h w r hr
  obtain ⟨b, r'', hb, taken'⟩ := h' a w r' taken
  refine ⟨b, r'', ?_, taken'⟩
  simp only [Bind.bind, EStateM.bind, ha, hb]

theorem extend {step : StateM Realm α} (h : Host.Extending step) :
    Taking base numbers (Host.onRealm step : EStateM ε World α) fun _ => numbers :=
  fun _ r hr => ⟨_, _, rfl, hr.extend (h r)⟩

theorem take (o : ObjectId) :
    Taking base numbers (Host.onRealm (Realm.newGlobalRef o) : EStateM ε World GlobalRef)
      fun g => g.number :: numbers :=
  fun _ _ hr => ⟨_, _, rfl, hr.take o⟩

theorem hush :
    Taking base numbers (Host.onRealm (Realm.setPending none) : EStateM ε World Unit)
      fun _ => numbers :=
  fun _ _ hr => ⟨_, _, rfl, hr.hush⟩

theorem getRealm :
    Taking base numbers (Host.getRealm : EStateM ε World Realm) fun _ => numbers :=
  fun _ r hr => ⟨_, r, rfl, hr⟩

theorem publishedPrimitive (c : ClassId) :
    Taking base numbers
      (Bridge.publishedPrimitive c : EStateM ε World (Except String (ClassId × ObjectId)))
      fun _ => numbers := by
  refine .bind .getRealm fun r => ?_
  split
  · exact .pure fun _ hn => hn
  · dsimp only
    split <;> exact .pure fun _ hn => hn

theorem load (name : TokenName) :
    Taking base [] (name.load : EStateM ε World (Except String TypeToken)) slotRefs := by
  refine .bind (.extend (.lookupClass? _)) fun c => ?_
  cases c with
  | none => exact .bind .hush fun _ => .pure (by simp [slotRefs])
  | some c =>
    refine .bind (.extend (.mirror c)) fun mirror => .bind (.take mirror) fun first => ?_
    split
    · refine .bind (.publishedPrimitive c) fun published => ?_
      cases published with
      | error reason => exact .pure (by simp [slotRefs])
      | ok published =>
        exact .bind (.take published.2) fun second => .pure (by simp [slotRefs])
    · exact .pure (by simp [slotRefs])

end Taking

namespace Mild

variable {allowed : Body → Prop}

variable (allowed) in
/-- What is remembered about a token, found out now if it was not before. -/
theorem slot (name : TokenName) :
    Quiet allowed ((do
      let slot ← name.load
      Bridge.modifyTypes ((name, slot) :: ·)
      Pure.pure slot) : EStateM ε World (Except String TypeToken)) := by
  intro w
  have start : w.outside.realm.Takes w.outside.realm [] := .of_extends (.refl _)
  obtain ⟨slot, r, loaded, taken⟩ := Taking.load (ε := ε) name w w.outside.realm start
  refine ⟨slot, ⟨w.memory, { w.outside with realm := r, types := (name, slot) :: w.outside.types }⟩,
    ?_, .of_takes taken rfl rfl rfl rfl ?_ fun hs hr => { hs with realm := hr }⟩
  · have same : w.onRealm w.outside.realm = w := rfl
    rw [same] at loaded
    simp only [Bind.bind, EStateM.bind, loaded]
    rfl
  · intro n hn
    rw [mem_viewRefs] at hn ⊢
    rcases hn with proxy | conversion | ⟨entry, he, token, ht, g, hg, rfl⟩
    · exact .inl (.inl proxy)
    · exact .inl (.inr (.inl conversion))
    · rcases List.mem_cons.1 he with rfl | he
      · refine .inr ?_
        dsimp only at ht
        rw [ht]
        exact List.mem_map_of_mem hg
      · exact .inl (.inr (.inr ⟨entry, he, token, ht, g, hg, rfl⟩))

theorem resolve (name : TokenName) :
    Mild allowed (Bridge.resolve name : EStateM Unavailable World TypeToken) := by
  have answer : ∀ slot : Except String TypeToken,
      Mild allowed (match slot with
        | .ok token => Pure.pure token
        | .error reason => MonadExcept.throw ⟨name, reason⟩ : EStateM Unavailable World TypeToken) := by
    intro slot
    cases slot with
    | ok token => exact .pure token
    | error reason => exact .throw _
  refine .bind (.of_quiet (.bind .get fun _ => .pure _)) fun types => ?_
  cases types.lookup name with
  | some found => exact answer found
  | none =>
    have read := bind (.of_quiet (slot allowed name)) answer
    simp only [bind_assoc, pure_bind] at read ⊢
    exact read

theorem identify (c : ClassId) (names : List TokenName) :
    Mild allowed (Bridge.identify c names : EStateM Unavailable World (Option TokenName)) := by
  induction names with
  | nil => exact .pure none
  | cons name rest ih =>
    refine .bind (resolve name) fun token => ?_
    split
    · exact .pure _
    · exact ih

theorem classify (c : ClassId) :
    Mild allowed (Bridge.classify c : EStateM Unavailable World Kind) := by
  refine .bind (identify c _) fun found => ?_
  cases found with
  | some name => exact .pure _
  | none =>
    have last : Mild allowed ((do
        let token ← Bridge.resolve .type
        if (← Host.getRealm).isAssignable c token.ofClass then return .type
        let _ ← Bridge.resolve .object
        return .object) : EStateM Unavailable World Kind) := by
      refine .bind (resolve .type) fun token => .bind (.of_quiet .getRealm) fun r => ?_
      split
      · exact .pure _
      · exact .bind (resolve .object) fun _ => .pure _
    refine .bind (.of_quiet .getRealm) fun r => ?_
    split
    · exact .pure _
    · exact last

end Mild

/-! ### Values and parameters -/

namespace Quiet

variable {allowed : Body → Prop}

theorem stringClass? : Quiet allowed (Bridge.stringClass? : EStateM ε World (Option ClassId)) := by
  refine .bind (Mild.resolve .string).attempt fun found => ?_
  cases found with
  | ok token => exact .pure _
  | error e => exact .pure _

theorem shownObject? (value : Script.Value) :
    Quiet allowed (Bridge.shownObject? value : EStateM ε World (Option (ObjectId × ClassId))) :=
  .bind .getRealm fun _ => .bind (.viewOf? value) fun _ => .pure _

theorem assignable (source target : ClassId) :
    Quiet allowed (Bridge.assignable source target : EStateM ε World Bool) :=
  .bind .getRealm fun _ => .pure _

theorem stringFits (param : ClassId) :
    Quiet allowed (Bridge.stringFits param : EStateM ε World Bool) := by
  refine .bind .stringClass? fun found => ?_
  cases found with
  | some c => exact .assignable c param
  | none => exact .pure false

theorem ite {c : Prop} [Decidable c] {step other : EStateM ε World α} (h : Quiet allowed step)
    (h' : Quiet allowed other) : Quiet allowed (if c then step else other) := by
  split
  · exact h
  · exact h'

theorem matchesParam (value : Script.Value) (param : ClassId) (kind : Kind) :
    Quiet allowed (Bridge.matchesParam value param kind : EStateM ε World Bool) := by
  cases kind with
  | char | void => exact .pure _
  | string =>
    refine .ite (.pure true) (.bind (.shownObject? value) fun shown => ?_)
    split
    · exact .assignable _ _
    · exact .pure _
  | array =>
    refine .ite (.pure true) (.bind (.viewOf? value) fun view => ?_)
    split
    · exact .bind .getRealm fun _ => .assignable _ _
    · exact .pure _
  | type =>
    refine .bind (.viewOf? value) fun view => ?_
    split <;> exact .pure _
  | object =>
    refine .ite (.pure true) (.bind (.shownObject? value) fun shown => ?_)
    split
    · exact .assignable _ _
    · exact .ite (.stringFits param) (.pure _)
  | byte | short | int | boolean | float | double | long =>
    unfold Bridge.matchesParam
    dsimp only
    split <;> exact .pure _

end Quiet
end ScriptBridge
