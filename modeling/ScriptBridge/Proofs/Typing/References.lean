import ScriptBridge.Proofs.Typing.Consultation

/-!
# The references of tokens

A token that is resolved takes a reference for each of its classes, and releasing the cache gives
the references of all tokens back. A wrapper that publishes no primitive has its first reference
taken before that is noticed, and as no token remembers it, nothing gives it back.
-/

namespace ScriptBridge

open Bridge (World TokenName TypeToken TypeCache TypeRequest Unavailable Descends Resolved)

/-! ### Taking references -/

namespace Host.Realm

/-- The references were taken, the last one first, and none was deleted. -/
structure Took (r v : Realm) (taken : List GlobalRef) : Prop where
  globals : v.globals = taken ++ r.globals
  created : v.created = r.created + taken.length
  numbers : taken.map (·.number) = (List.range' (r.created + 1) taken.length).reverse
  deleted : v.deleted = r.deleted

variable {r v u : Realm} {taken more : List GlobalRef}

namespace Took

theorem refl (r : Realm) : r.Took r [] := ⟨rfl, rfl, rfl, rfl⟩

theorem trans (h : r.Took v taken) (h' : v.Took u more) : r.Took u (more ++ taken) where
  globals := by rw [h'.globals, h.globals, List.append_assoc]
  created := by rw [h'.created, h.created, List.length_append]; omega
  numbers := by
    have start : v.created + 1 = r.created + 1 + taken.length := by rw [h.created]; omega
    rw [List.map_append, h'.numbers, h.numbers, start, ← List.reverse_append,
      List.range'_append_1, List.length_append, Nat.add_comm taken.length]
  deleted := h'.deleted.trans h.deleted

theorem newGlobalRef (o : ObjectId) (r : Realm) :
    r.Took (Realm.newGlobalRef o r).2 [(Realm.newGlobalRef o r).1] := ⟨rfl, rfl, rfl, rfl⟩

theorem setPending (throwable : Option ObjectId) (r : Realm) :
    r.Took (Realm.setPending throwable r).2 [] := ⟨rfl, rfl, rfl, rfl⟩

theorem mirror (c : ClassId) (r : Realm) : r.Took (Realm.mirror c r).2 [] := by
  simp only [Realm.mirror, Bind.bind, StateT.bind, MonadState.get, getThe, MonadStateOf.get,
    StateT.get, Pure.pure]
  cases r.mirrors.lookup c with
  | some o => exact .refl r
  | none => exact ⟨rfl, rfl, rfl, rfl⟩

theorem nodup (h : r.Took v taken) : (taken.map (·.number)).Nodup := by
  rw [h.numbers]
  exact (List.reverse_perm _).symm.nodup List.nodup_range'

theorem later (h : r.Took v taken) {g : GlobalRef} (hg : g ∈ taken) : r.created < g.number := by
  have listed : g.number ∈ taken.map (·.number) := List.mem_map_of_mem hg
  rw [h.numbers, List.mem_reverse, List.mem_range'_1] at listed
  omega

end Took

/-! ### Deleting references -/

/-- References that are kept under different numbers are deleted one by one, and each counts. -/
theorem deleteRefs_eq (gone : List GlobalRef) (r : Realm)
    (distinct : (gone.map (·.number)).Nodup)
    (kept : ∀ g ∈ gone, ∃ g' ∈ r.globals, g'.number = g.number) :
    (Bridge.deleteRefs gone r).2 = { r with
      globals := r.globals.filter fun g => g.number ∉ gone.map (·.number)
      deleted := r.deleted + gone.length } := by
  induction gone generalizing r with
  | nil =>
    show r = _
    simp
  | cons g rest ih =>
    rw [List.map_cons, List.nodup_cons] at distinct
    have here : r.globals.any (·.number == g.number) = true := by
      obtain ⟨g', hg', same⟩ := kept g List.mem_cons_self
      exact List.any_eq_true.mpr ⟨g', hg', beq_iff_eq.mpr same⟩
    have first : (Realm.deleteGlobalRef g r).2 = { r with
        globals := r.globals.filter (·.number != g.number), deleted := r.deleted + 1 } := by
      rw [deleteGlobalRef_state, if_pos here]
    have others : ∀ g' ∈ rest, ∃ g'' ∈ r.globals.filter (·.number != g.number),
        g''.number = g'.number := by
      intro g' hg'
      obtain ⟨g'', hg'', same⟩ := kept g' (List.mem_cons_of_mem _ hg')
      refine ⟨g'', List.mem_filter.mpr ⟨hg'', bne_iff_ne.mpr fun taken => ?_⟩, same⟩
      exact distinct.1 (List.mem_map.mpr ⟨g', hg', same.symm.trans taken⟩)
    show (Bridge.deleteRefs rest (Realm.deleteGlobalRef g r).2).2 = _
    rw [first, ih _ distinct.2 others]
    have filters : (r.globals.filter (·.number != g.number)).filter
        (fun g' => g'.number ∉ rest.map (·.number)) =
        r.globals.filter fun g' => g'.number ∉ (g :: rest).map (·.number) := by
      rw [List.filter_filter]
      refine List.filter_congr fun g' _ => ?_
      rw [Bool.eq_iff_iff]
      simp [and_comm]
    simp only [filters, List.length_cons, Nat.add_assoc, Nat.add_comm 1]

end Host.Realm

/-! ### The references of a token -/

namespace Bridge

open Host (Realm GlobalRef)

variable {ε : Type} {w v : World} {r : Realm}

/-- The references that the cache has to give back for a token. -/
def owed : Except String TypeToken → List GlobalRef
  | .ok token => if token.borrowed then [] else token.held
  | .error _ => []

theorem TypeCache.releasable_cons (name : TokenName) (slot : Except String TypeToken)
    (types : TypeCache) :
    TypeCache.releasable ((name, slot) :: types) = owed slot ++ types.releasable := by
  cases slot <;> rfl

/-- Loading a token takes the references that the token owes, and a stray one if the token
strands. -/
theorem TokenName.load_took (name : TokenName) (formed : w.Formed) :
    ∃ slot r taken strays, (name.load : EStateM ε World _) w = .ok slot (w.onRealm r) ∧
      w.outside.realm.Took r taken ∧ taken.Perm (strays ++ owed slot) ∧
      strays.length = (name.strands w.outside.realm).toNat := by
  have looked : (Host.onRealm (Realm.lookupClass? name.className) : EStateM ε World _) w =
      .ok (w.outside.realm.registry.get? name.className) w :=
    onRealm_run (name.lookupClass?_className _)
  unfold TokenName.load TokenName.strands TokenName.found
  rw [bind_ok looked]
  cases known : w.outside.realm.registry.get? name.className with
  | none => exact ⟨_, _, [], [], rfl, .setPending none _, .nil, rfl⟩
  | some c =>
    obtain ⟨o, r, minted⟩ : ∃ o r, Realm.mirror c w.outside.realm = (o, r) := ⟨_, _, rfl⟩
    obtain ⟨first, r₁, kept⟩ : ∃ first r₁, Realm.newGlobalRef o r = (first, r₁) := ⟨_, _, rfl⟩
    have grows : w.outside.realm.Grows r₁ := by
      have grows := (Realm.Grows.mirror c w.outside.realm).trans
        (Realm.Grows.newGlobalRef o (Realm.mirror c w.outside.realm).2)
      rwa [minted, kept] at grows
    have took : w.outside.realm.Took r₁ [first] := by
      have took := (Realm.Took.mirror c w.outside.realm).trans
        (Realm.Took.newGlobalRef o (Realm.mirror c w.outside.realm).2)
      rwa [minted, kept] at took
    have held : (Host.onRealm (Realm.newGlobalRef o) : EStateM ε World GlobalRef) (w.onRealm r) =
        .ok first (w.onRealm r₁) := onRealm_run kept
    have publishes : (publishedPrimitive c : EStateM ε World _) (w.onRealm r₁) =
        .ok (published w.outside.realm c) (w.onRealm r₁) := by
      rw [← published_grows grows formed (formed.coherent.registered _ c known)]
      exact publishedPrimitive_eq c _
    dsimp only
    rw [bind_ok (onRealm_run minted), bind_ok held]
    by_cases wrapper : name.isWrapper = true
    · rw [if_pos wrapper, if_pos wrapper, bind_ok publishes]
      cases published w.outside.realm c with
      | error reason => exact ⟨_, _, [first], [first], rfl, took, .refl _, rfl⟩
      | ok found =>
        have both := took.trans (Realm.Took.newGlobalRef found.2 r₁)
        exact ⟨_, _, _, [], rfl, both, .swap _ _ _, rfl⟩
    · rw [if_neg wrapper, if_neg wrapper]
      exact ⟨_, _, [first], [], rfl, took, .refl _, rfl⟩

/-! ### The accounts of the cache -/

def TypeCache.lookedUp (types : TypeCache) : List TokenName := types.map (·.1)

/-- The references that were taken since are strays, or the cache will give them back. -/
structure World.Accounts (w v : World) (taken strays : List GlobalRef) : Prop where
  took : w.outside.realm.Took v.outside.realm taken
  split : taken.Perm (strays ++ v.outside.types.releasable)
  stranded : strays.length = v.outside.types.lookedUp.countP (·.strands w.outside.realm)

theorem Descends.strands (later : Descends w v) (formed : w.Formed) (name : TokenName) :
    name.strands v.outside.realm = name.strands w.outside.realm := by
  rw [TokenName.strands, TokenName.strands, later.realm.registry, name.found_grows later.realm formed]

/-- A token that is resolved for the first time adds to the accounts what loading it took. -/
theorem World.Accounts.resolve {taken strays : List GlobalRef} (h : World.Accounts w v taken strays)
    (later : Descends w v) (formed : w.Formed) (name : TokenName) :
    ∃ taken' strays', World.Accounts w (.after (resolve name v)) taken' strays' := by
  have types : (getTypes : EStateM Unavailable World _) v = .ok v.outside.types v := rfl
  cases known : v.outside.types.lookup name with
  | some slot =>
    have same : World.after (Bridge.resolve name v) = v := by
      unfold Bridge.resolve
      rw [bind_ok types, known]
      cases slot <;> rfl
    exact ⟨taken, strays, by rwa [same]⟩
  | none =>
    obtain ⟨slot, r, more, strayed, loaded, took, split, stranded⟩ :=
      name.load_took (ε := Unavailable) later.formed
    have after : World.after (Bridge.resolve name v) =
        ⟨v.memory, { v.outside with realm := r, types := (name, slot) :: v.outside.types }⟩ := by
      unfold Bridge.resolve
      rw [bind_ok types, known]
      simp only [pure_bind]
      rw [bind_ok loaded]
      cases slot <;> rfl
    refine ⟨more ++ taken, strayed ++ strays, ?_⟩
    rw [after]
    refine ⟨h.took.trans took, ?_, ?_⟩
    · show (more ++ taken).Perm
        (strayed ++ strays ++ TypeCache.releasable ((name, slot) :: v.outside.types))
      rw [TypeCache.releasable_cons]
      refine (split.append h.split).trans ?_
      simp only [List.append_assoc]
      apply List.Perm.append_left
      rw [← List.append_assoc, ← List.append_assoc]
      exact List.perm_append_comm.append_right _
    · show (strayed ++ strays).length = List.countP _ (name :: v.outside.types.lookedUp)
      rw [List.length_append, h.stranded, stranded, List.countP_cons, later.strands formed, Nat.add_comm]
      cases name.strands w.outside.realm <;> rfl

/-- By induction on the tokens that are resolved, each from the state that the others have led to. -/
theorem Resolved.accounts (h : Resolved w v) (formed : w.Formed) (untouched : w.outside.types = []) :
    ∃ taken strays, World.Accounts w v taken strays := by
  induction h with
  | same => exact ⟨[], [], .refl _, by rw [untouched]; exact .nil, by rw [untouched]; rfl⟩
  | more name before ih =>
    obtain ⟨taken, strays, accounts⟩ := ih
    exact accounts.resolve (before.descends formed) formed name

/-! ### The release -/

/-- The Host's memory after the cache was released. -/
def World.released (v : World) : World := .after (releaseTypes v : EStateM.Result Empty World Unit)

/-- What a release leaves of the references that were taken since. -/
structure World.Returned (w v : World) (strays : List GlobalRef) : Prop where
  forgotten : v.released.outside.types = []
  /-- What was kept before is kept still, and so are the strays. -/
  kept : v.released.outside.realm.globals = strays ++ w.outside.realm.globals
  /-- Each reference that was made is a stray or is given back, and not twice. -/
  once : ((strays ++ v.outside.types.releasable).map (·.number)).Perm
    (List.range' (w.outside.realm.created + 1)
      (v.released.outside.realm.created - w.outside.realm.created))
  /-- Each reference that is given back is deleted. -/
  deleted : v.released.outside.realm.deleted =
    w.outside.realm.deleted + v.outside.types.releasable.length
  /-- There is one stray for each token that was looked up and stranded. -/
  stranded : strays.length = v.outside.types.lookedUp.countP (·.strands w.outside.realm)

theorem World.Accounts.returned {taken strays : List GlobalRef}
    (h : World.Accounts w v taken strays)
    (numbered : ∀ g ∈ w.outside.realm.globals, g.number ≤ w.outside.realm.created) :
    ∃ left, World.Returned w v left := by
  let gone := v.outside.types.releasable
  have numbers := h.split.map (·.number)
  have distinct : ((strays ++ gone).map (·.number)).Nodup := numbers.nodup h.took.nodup
  rw [List.map_append, List.nodup_append] at distinct
  obtain ⟨-, once, apart⟩ := distinct
  have taken_of_gone : ∀ g ∈ gone, g ∈ taken := fun g hg =>
    h.split.mem_iff.mpr (List.mem_append_right _ hg)
  have ended := Realm.deleteRefs_eq gone v.outside.realm once fun g hg =>
    ⟨g, h.took.globals ▸ List.mem_append_left _ (taken_of_gone g hg), rfl⟩
  let stays : GlobalRef → Bool := fun g => g.number ∉ gone.map (·.number)
  have old : w.outside.realm.globals.filter stays = w.outside.realm.globals := by
    refine List.filter_eq_self.mpr fun g hg => decide_eq_true fun given => ?_
    obtain ⟨g', hg', same⟩ := List.mem_map.mp given
    have later := h.took.later (taken_of_gone g' hg')
    have before := numbered g hg
    omega
  have strayed : (taken.filter stays).Perm strays := by
    have all : strays.filter stays = strays := by
      refine List.filter_eq_self.mpr fun g hg => decide_eq_true fun given => ?_
      exact apart _ (List.mem_map_of_mem hg) _ given rfl
    have none : gone.filter stays = [] := by
      refine List.filter_eq_nil_iff.mpr fun g hg => ?_
      simpa [stays] using ⟨g, hg, rfl⟩
    have filtered := h.split.filter stays
    rwa [List.filter_append, all, none, List.append_nil] at filtered
  have realm : v.released.outside.realm = { v.outside.realm with
      globals := v.outside.realm.globals.filter stays
      deleted := v.outside.realm.deleted + gone.length } := ended
  refine ⟨taken.filter stays, rfl, ?_, ?_, ?_, ?_⟩
  · rw [realm, h.took.globals, List.filter_append, old]
  · have made : v.outside.realm.created - w.outside.realm.created = taken.length := by
      rw [h.took.created, Nat.add_sub_cancel_left]
    rw [realm, made]
    have listed := ((strayed.append_right gone).map (·.number)).trans numbers.symm
    rw [h.took.numbers] at listed
    exact listed.trans (List.reverse_perm _)
  · rw [realm, h.took.deleted]
  · rw [strayed.length_eq, h.stranded]

/-- Whatever was asked of an empty cache, its release brings back the references that were kept
before, up to one reference for each token that was looked up and stranded. -/
theorem release_returns_up_to_stranded (formed : w.Formed) (untouched : w.outside.types = [])
    (numbered : ∀ g ∈ w.outside.realm.globals, g.number ≤ w.outside.realm.created)
    (asked : List TypeRequest) :
    ∃ strays, World.Returned w (w.consulted asked) strays ∧
      ((w.consulted asked).released.outside.realm.globals = w.outside.realm.globals ↔
        ∀ name ∈ (w.consulted asked).outside.types.lookedUp,
          name.strands w.outside.realm = false) := by
  obtain ⟨taken, strays, accounts⟩ := (w.consulted_resolved asked).accounts formed untouched
  obtain ⟨left, returned⟩ := accounts.returned numbered
  refine ⟨left, returned, ?_⟩
  have same : left ++ w.outside.realm.globals = w.outside.realm.globals ↔ left.length = 0 := by
    rw [List.append_left_eq_self, List.length_eq_zero_iff]
  rw [returned.kept, same, returned.stranded, List.countP_eq_zero]
  simp only [Bool.not_eq_true]

/-- The class that stands in for the wrapper of shorts is looked up, and its reference stays. -/
theorem replaced_wrapper_keeps_reference :
    replaced.outside.realm.globals = [] ∧
      (replaced.consulted [.resolve .short]).released.outside.realm.globals.length = 1 := by
  obtain ⟨-, -, -, -, empty, strands, listed, -⟩ := replaced_checks
  obtain ⟨strays, returned, -⟩ := release_returns_up_to_stranded replaced_formed
    replaced_untouched (by rw [empty]; exact nofun) [.resolve .short]
  refine ⟨empty, ?_⟩
  rw [returned.kept, empty, List.append_nil, returned.stranded, TypeCache.lookedUp, listed,
    List.countP_singleton, if_pos strands]

end Bridge
end ScriptBridge
