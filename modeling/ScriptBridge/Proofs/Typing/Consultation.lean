import ScriptBridge.Proofs.Library.Formed

/-!
# The token cache cannot be told from no cache

All that is asked of the cache comes down to tokens that are resolved one after the other. Each of
them leaves what every token stands for as it was, so the kind of a class can be read off the Host
alone, whatever was asked before and however it ended.
-/

namespace ScriptBridge.Bridge

open Host (ClassId Realm)

/-! ### Requests -/

/-- What can be asked of the cache. -/
inductive TypeRequest where
  | resolve (name : TokenName)
  | classify (c : ClassId)
  | preload

def TypeRequest.run : TypeRequest → EStateM Unavailable World Unit
  | .resolve name => do let _ ← Bridge.resolve name
  | .classify c => do let _ ← Bridge.classify c
  | .preload => Bridge.preload

/-- The world after some requests, whether they were answered or refused. -/
def World.consulted (w : World) (asked : List TypeRequest) : World :=
  asked.foldl (fun v request => .after (request.run v)) w

/-- Tokens were resolved, one after the other. -/
inductive Resolved (w : World) : World → Prop where
  | same : Resolved w w
  | more {v : World} (name : TokenName) : Resolved w v → Resolved w (.after (resolve name v))

variable {ε α β : Type} {w v u : World} {r : Realm} {c : ClassId}

theorem Resolved.trans (h : Resolved w v) (h' : Resolved v u) : Resolved w u := by
  induction h' with
  | same => exact h
  | more name _ ih => exact .more name ih

/-- The step does nothing but resolve tokens. -/
def Resolving (step : EStateM ε World α) : Prop := ∀ w, Resolved w (.after (step w))

namespace Resolving

theorem pure (a : α) : Resolving (Pure.pure a : EStateM ε World α) := fun _ => .same

theorem getRealm : Resolving (Host.getRealm : EStateM ε World Realm) := fun _ => .same

theorem bind {step : EStateM ε World α} {next : α → EStateM ε World β} (h : Resolving step)
    (h' : ∀ a, Resolving (next a)) : Resolving (step >>= next) := by
  intro w
  have first := h w
  simp only [Bind.bind, EStateM.bind]
  cases ran : step w with
  | error e v => rwa [ran] at first
  | ok a v =>
    rw [ran] at first
    exact first.trans (h' a v)

theorem resolve (name : TokenName) : Resolving (Bridge.resolve name) := fun _ => .more name .same

theorem resolveAll (names : List TokenName) : Resolving (Bridge.resolveAll names) := by
  induction names with
  | nil => exact .pure ()
  | cons name rest ih => exact .bind (.resolve name) fun _ => ih

theorem identify (c : ClassId) (names : List TokenName) : Resolving (Bridge.identify c names) := by
  induction names with
  | nil => exact .pure none
  | cons name rest ih =>
    refine .bind (.resolve name) fun token => ?_
    by_cases found : token.identifies c = true
    · simpa only [if_pos found] using .pure (some name)
    · simpa only [if_neg found] using ih

theorem classify (c : ClassId) : Resolving (Bridge.classify c) := by
  refine .bind (.identify c _) fun found => ?_
  cases found with
  | some name => exact .pure name.kind
  | none =>
    refine .bind .getRealm fun r => ?_
    split
    · exact .pure Kind.array
    refine .bind (.resolve .type) fun token => .bind .getRealm fun r => ?_
    split
    · exact .pure Kind.type
    · exact .bind (.resolve .object) fun _ => .pure Kind.object

theorem request (request : TypeRequest) : Resolving request.run := by
  cases request with
  | resolve name => exact .bind (.resolve name) fun _ => .pure ()
  | classify c => exact .bind (.classify c) fun _ => .pure ()
  | preload => exact .resolveAll TokenName.all

end Resolving

theorem World.consulted_resolved (w : World) (asked : List TypeRequest) :
    Resolved w (w.consulted asked) := by
  induction asked generalizing w with
  | nil => exact .same
  | cons request rest ih => exact (Resolving.request request w).trans (ih _)

/-! ### What resolving leaves as it was -/

theorem TokenName.after_answer (name : TokenName) (v : World) (slot : Except String TypeToken) :
    World.after (name.answer v slot) = v := by
  cases slot <;> rfl

theorem Resolved.descends (h : Resolved w v) (formed : w.Formed) : Descends w v := by
  induction h with
  | same => exact .refl formed
  | more name _ ih =>
    obtain ⟨slot, u, later, -, asked⟩ := resolve_eq name ih.formed
    rw [asked, name.after_answer]
    exact ih.trans later

/-- A token that is not found leaves no throwable, and the others ask for none. -/
theorem Resolved.calm (h : Resolved w v) (calm : w.outside.realm.pending = none) :
    v.outside.realm.pending = none := by
  induction h with
  | same => exact calm
  | @more v name _ ih =>
    have mild := (Mild.resolve name : Mild (fun _ => True) (resolve name)) v
    cases ran : resolve name v with
    | ok token u =>
      rw [ran] at mild
      exact mild.pending.elim id fun same => same.trans ih
    | error e u =>
      rw [ran] at mild
      exact mild.pending.elim id fun same => same.trans ih

/-! ### Kinds without a cache -/

/-- The token is unavailable, or it stands for the class. -/
def TokenName.decides (r : Realm) (c : ClassId) (name : TokenName) : Bool :=
  match name.found r with
  | .error _ => true
  | .ok (d, primitive) => c == d || primitive == some c

/-- The name leads to a class, but not to all that the token needs. -/
def TokenName.strands (r : Realm) (name : TokenName) : Bool :=
  match r.registry.get? name.className, name.found r with
  | some _, .error _ => true
  | _, _ => false

/-- The kind of a token, if the token is available. -/
def TokenName.verdict (r : Realm) (name : TokenName) : Except Unavailable Kind :=
  match name.found r with
  | .error reason => .error ⟨name, reason⟩
  | .ok _ => .ok name.kind

/-- The kind of a class, read off the Host alone. -/
def kindInHost (r : Realm) (c : ClassId) : Except Unavailable Kind :=
  match TokenName.priority.find? (·.decides r c) with
  | some name => name.verdict r
  | none =>
    if (r.classOf c).isArray then .ok .array
    else
      match TokenName.type.found r with
      | .error reason => .error ⟨.type, reason⟩
      | .ok (type, _) => if r.isAssignable c type then .ok .type else TokenName.object.verdict r

/-- Every token stands for what its name is found to stand for. -/
def World.Faithful (w : World) : Prop := ∀ name, w.tokenOf name = name.found w.outside.realm

theorem World.faithful_of_untouched (untouched : w.outside.types = []) : w.Faithful := by
  intro name
  rw [tokenOf, untouched]
  rfl

theorem Descends.faithful (h : Descends w v) (formed : w.Formed) (faithful : w.Faithful) :
    v.Faithful := fun name => by
  rw [h.tokens, faithful name, name.found_grows h.realm formed]

/-- The first token that decides is the one that the scan stops at. -/
theorem World.Faithful.identified (faithful : w.Faithful) (formed : w.Formed) (c : ClassId)
    (names : List TokenName) :
    w.identified (w.outside.realm.shape c) names =
      match names.find? (·.decides w.outside.realm c) with
      | none => .ok none
      | some name => (name.verdict w.outside.realm).map fun _ => some name := by
  induction names with
  | nil => rfl
  | cons name rest ih =>
    rw [World.identified, faithful name, List.find?_cons]
    cases found : name.found w.outside.realm with
    | error reason =>
      simp only [TokenName.decides, TokenName.verdict, found, Except.map]
    | ok classes =>
      obtain ⟨d, primitive⟩ := classes
      have stands := identifies_iff formed.coherent ⟨name, d, primitive, [], false⟩ c
      rw [TypeToken.identifies] at stands
      have decided : name.decides w.outside.realm c = (c == d || primitive == some c) := by
        simp only [TokenName.decides, found]
      rw [decided]
      dsimp only
      by_cases same : (c == d || primitive == some c) = true
      · rw [if_pos (stands.mp same), same]
        simp only [TokenName.verdict, found, Except.map]
      · rw [if_neg fun h => same (stands.mpr h), (Bool.not_eq_true _).mp same]
        exact ih

theorem World.Faithful.kindAt (faithful : w.Faithful) (formed : w.Formed) (c : ClassId) :
    w.kindAt (w.outside.realm.shape c) = kindInHost w.outside.realm c := by
  rw [World.kindAt, faithful.identified formed, kindInHost]
  cases TokenName.priority.find? (·.decides w.outside.realm c) with
  | some name =>
    dsimp only [TokenName.verdict]
    cases name.found w.outside.realm <;> rfl
  | none =>
    have array := isArray_iff formed.coherent c
    dsimp only
    by_cases isArray : (w.outside.realm.classOf c).isArray = true
    · rw [if_pos (array.mp isArray), if_pos isArray]
    rw [if_neg fun h => isArray (array.mpr h), if_neg isArray]
    have plain : w.outside.realm.shape c = (c, 0) := by
      apply Realm.shape_plain
      rwa [Host.Class.isArray, Bool.not_eq_true, Option.isSome_eq_false_iff,
        Option.isNone_iff_eq_none] at isArray
    rw [plain, faithful .type, faithful .object, TokenName.verdict]
    cases TokenName.type.found w.outside.realm with
    | error reason => rfl
    | ok type => cases TokenName.object.found w.outside.realm <;> rfl

/-- The kinds of a class do not change while the Host only grows. -/
theorem Descends.kindInHost (h : Descends w v) (formed : w.Formed) (faithful : w.Faithful)
    (hc : w.outside.realm.Has c) :
    kindInHost v.outside.realm c = kindInHost w.outside.realm c := by
  rw [← (h.faithful formed faithful).kindAt h.formed, ← faithful.kindAt formed,
    h.realm.shape formed.coherent hc, h.kindAt formed (hc.bottom formed.coherent)]

/-! ### Transparency -/

/-- The world with nothing remembered about tokens. -/
def World.forgetting (w : World) : World := ⟨w.memory, { w.outside with types := [] }⟩

theorem World.Formed.forgetting (formed : w.Formed) : w.forgetting.Formed :=
  { formed with tokens := nofun }

theorem classify_kindInHost (formed : w.Formed) (faithful : w.Faithful)
    (hc : w.outside.realm.Has c) :
    ∃ u, classify c w = outcome u (kindInHost w.outside.realm c) := by
  obtain ⟨u, -, asked⟩ := classify_eq formed hc
  exact ⟨u, by rw [asked, faithful.kindAt formed]⟩

/-- Whatever was asked of the cache before, a class is classified as the Host says, which is how it
is classified when nothing is remembered; and no throwable is ever left pending. -/
theorem classify_transparent (formed : w.Formed) (untouched : w.outside.types = [])
    (calm : w.outside.realm.pending = none) (asked : List TypeRequest)
    (hc : w.outside.realm.Has c) :
    (∃ u, classify c (w.consulted asked) = outcome u (kindInHost w.outside.realm c)) ∧
      (∃ u, classify c (w.consulted asked).forgetting = outcome u (kindInHost w.outside.realm c)) ∧
      (w.consulted asked).outside.realm.pending = none := by
  have resolved := w.consulted_resolved asked
  have later := resolved.descends formed
  have faithful := World.faithful_of_untouched untouched
  have has := later.realm.kept c hc
  have kind := later.kindInHost formed faithful hc
  refine ⟨?_, ?_, resolved.calm calm⟩
  · rw [← kind]
    exact classify_kindInHost later.formed (later.faithful formed faithful) has
  · rw [← kind]
    exact classify_kindInHost later.formed.forgetting (World.faithful_of_untouched rfl) has

/-! ### A Host with a wrapper that wraps nothing -/

/-- A class in place of the wrapper of shorts, without the field that publishes the primitive. -/
def bareShort : Host.Declaration :=
  { name := "java.lang.Short", superclass := some Host.numberName }

def replaced : World := .after (bareShort.declare .none .fresh)

def byteClass : ClassId := replaced.outside.realm.require "java.lang.Byte"

-- One evaluation of the Host answers all that is asked of it.
theorem replaced_checks :
    replaced.isFormed = true ∧ replaced.outside.types.isEmpty = true ∧
      replaced.outside.realm.pending = none ∧ replaced.outside.realm.Has byteClass ∧
      replaced.outside.realm.globals = [] ∧ TokenName.short.strands replaced.outside.realm = true ∧
      (replaced.consulted [.resolve .short]).outside.types.map (·.1) = [.short] ∧
      kindInHost replaced.outside.realm byteClass =
        .error ⟨.short, "java.lang.Short has no TYPE field"⟩ := by
  decide +kernel

theorem replaced_formed : replaced.Formed := World.formed_of_isFormed replaced_checks.1

theorem replaced_untouched : replaced.outside.types = [] := List.isEmpty_iff.mp replaced_checks.2.1

/-- The token for bytes is resolved, and still the class of bytes is refused. -/
theorem classify_transparent_replaced :
    (∃ u, classify byteClass (replaced.consulted [.preload, .resolve .byte]) =
        .error ⟨.short, "java.lang.Short has no TYPE field"⟩ u) ∧
      (∃ u, classify byteClass (replaced.consulted [.preload, .resolve .byte]).forgetting =
        .error ⟨.short, "java.lang.Short has no TYPE field"⟩ u) ∧
      (replaced.consulted [.preload, .resolve .byte]).outside.realm.pending = none := by
  obtain ⟨-, -, calm, has, -, -, -, kind⟩ := replaced_checks
  have transparent := classify_transparent replaced_formed replaced_untouched calm
    [.preload, .resolve .byte] has
  rw [kind] at transparent
  exact transparent

end ScriptBridge.Bridge
