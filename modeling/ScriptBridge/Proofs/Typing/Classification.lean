import ScriptBridge.Proofs.Discipline.Tokens
import ScriptBridge.Proofs.Typing.Shapes

/-!
# Classification while the world goes on

Tokens are resolved at different times, and each leaves class objects and references behind. What a
token turns out to be was settled before: it is either remembered or determined by the names and
the static fields of the Host, which do not change. So the kind of a class is a function of its
shape, from whatever later state it is asked for.
-/

namespace ScriptBridge.Bridge

open Host (ClassId ObjectId Realm GlobalRef HostM Thrown onRealm)
open Script (InterpreterId)

variable {ε α β : Type} {w v u : World} {r : Realm} {c : ClassId}

/-! ### What tokens turn out to be -/

/-- The classes that a token stands for. -/
def TypeToken.classes (t : TypeToken) : ClassId × Option ClassId := (t.ofClass, t.primitive)

/-- The primitive class that a class publishes. -/
def published (r : Realm) (c : ClassId) : Except String (ClassId × ObjectId) :=
  match (r.fields c).find? fun f => f.isStatic && f.name == "TYPE" with
  | none => .error (r.nameOf c ++ " has no TYPE field")
  | some field =>
    let mirror := (r.staticValue field.id).ref?
    match mirror, mirror.bind r.mirrored? with
    | some o, some primitive => .ok (primitive, o)
    | _, _ => .error (r.nameOf c ++ ".TYPE is not a class")

theorem publishedPrimitive_eq (c : ClassId) (w : World) :
    (publishedPrimitive c : EStateM ε World _) w = .ok (published w.outside.realm c) w := by
  have read : (Host.getRealm : EStateM ε World _) w = .ok w.outside.realm w := rfl
  unfold publishedPrimitive published
  rw [bind_ok read]
  cases (w.outside.realm.fields c).find? fun f => f.isStatic && f.name == "TYPE" with
  | none => rfl
  | some field =>
    dsimp only
    cases (w.outside.realm.staticValue field.id).ref? with
    | none => rfl
    | some o =>
      dsimp only [Option.bind_some]
      cases w.outside.realm.mirrored? o <;> rfl

/-- The classes that a name is found to stand for. -/
def TokenName.found (r : Realm) (name : TokenName) : Except String (ClassId × Option ClassId) :=
  match r.registry.get? name.className with
  | none => .error s!"class {name.className} not found"
  | some c =>
    if name.isWrapper then (published r c).map fun p => (c, some p.1) else .ok (c, none)

/-- What a token stands for, whether it was looked up before or not. -/
def World.tokenOf (w : World) (name : TokenName) : Except String (ClassId × Option ClassId) :=
  match w.outside.types.lookup name with
  | some slot => slot.map TypeToken.classes
  | none => name.found w.outside.realm

/-! ### Later states -/

/-- The view at a place. -/
def World.viewAt (w : World) (place : Nat) : View :=
  ((w.outside.proxies[place]?).getD default : Proxy).view

/-- What the bridge remembers exists in the Host. -/
structure World.Formed (w : World) : Prop where
  coherent : w.outside.realm.Coherent
  statics : ∀ field o, w.outside.realm.staticValue field = .ref o →
    w.outside.realm.Holds o ∧ ∀ p, w.outside.realm.mirrored? o = some p → w.outside.realm.Has p
  tokens : ∀ name token, w.outside.types.lookup name = some (.ok token) →
    w.outside.realm.Has token.ofClass ∧ (∀ p ∈ token.primitive, w.outside.realm.Has p) ∧
      (name.isWrapper = false → token.primitive = none)
  views : ∀ place o, (w.viewAt place).object? = some o →
    w.outside.realm.Holds o ∧ w.outside.realm.Has (w.outside.realm.classIdOf o)

/-- The view, but an array may have given its pin back. -/
def View.Released : View → View → Prop
  | .array o component pin, view =>
    view = .array o component pin ∨ view = .array o component none
  | view, view' => view' = view

theorem View.Released.refl (view : View) : view.Released view := by
  cases view with
  | array => exact .inl rfl
  | object | type | method => exact rfl

theorem View.Released.trans {view view' view'' : View} (h : view.Released view')
    (h' : view'.Released view'') : view.Released view'' := by
  cases view with
  | array o component pin =>
    rcases h with rfl | rfl
    · exact h'
    · exact .inr (h'.elim id id)
  | object | type | method =>
    cases h
    exact h'

theorem View.Released.object? {view view' : View} (h : view.Released view') :
    view'.object? = view.object? := by
  cases view with
  | array o component pin => rcases h with rfl | rfl <;> rfl
  | object | type | method =>
    cases h
    rfl

/-- A later state, reached without calls of the Host: there may be more classes, objects, tokens
and references, and pins may have been given back. -/
structure Descends (w v : World) : Prop where
  realm : w.outside.realm.Grows v.outside.realm
  tokens : ∀ name, v.tokenOf name = w.tokenOf name
  views : ∀ place, (w.viewAt place).Released (v.viewAt place)
  made : v.memory.interpreters.size = w.memory.interpreters.size
  proxies : v.outside.proxies.size = w.outside.proxies.size
  boxing : v.outside.boxing = w.outside.boxing
  accessors : v.outside.accessors = w.outside.accessors
  formed : v.Formed

namespace Descends

theorem refl (formed : w.Formed) : Descends w w :=
  ⟨.refl _, fun _ => rfl, fun _ => .refl _, rfl, rfl, rfl, rfl, formed⟩

theorem trans (h : Descends w v) (h' : Descends v u) : Descends w u :=
  ⟨h.realm.trans h'.realm, fun name => (h'.tokens name).trans (h.tokens name),
    fun place => (h.views place).trans (h'.views place), h'.made.trans h.made,
    h'.proxies.trans h.proxies, h'.boxing.trans h.boxing, h'.accessors.trans h.accessors, h'.formed⟩

end Descends

/-! ### Growth of the Host leaves tokens alone -/

theorem published_grows (h : w.outside.realm.Grows r) (formed : w.Formed)
    (hc : w.outside.realm.Has c) :
    published r c = published w.outside.realm c := by
  have fields : r.fields c = w.outside.realm.fields c := by
    unfold Realm.fields
    rw [h.ancestry hc]
    congr 1
    exact List.flatMap_congr fun a ha => by rw [h.classes a (Realm.ancestry_has hc a ha)]
  have statics : r.staticValue = w.outside.realm.staticValue := by
    funext field
    simp only [Realm.staticValue, h.statics]
  have name : r.nameOf c = w.outside.realm.nameOf c := by
    simp only [Realm.nameOf, h.classes c hc]
  unfold published
  rw [fields, statics, name]
  cases (w.outside.realm.fields c).find? fun f => f.isStatic && f.name == "TYPE" with
  | none => rfl
  | some field =>
    dsimp only
    cases value : w.outside.realm.staticValue field.id with
    | ref o =>
      have held := (formed.statics field.id o value).1
      simp only [Host.Value.ref?, Option.bind_some, h.mirrored? held]
    | _ => rfl

theorem TokenName.found_grows (h : w.outside.realm.Grows r) (formed : w.Formed)
    (name : TokenName) : name.found r = name.found w.outside.realm := by
  unfold TokenName.found
  rw [h.registry]
  cases known : w.outside.realm.registry.get? name.className with
  | none => rfl
  | some c =>
    dsimp only
    rw [published_grows h formed (formed.coherent.registered _ c known)]

theorem World.Formed.grows (formed : w.Formed) (h : w.outside.realm.Grows r) :
    (w.onRealm r).Formed where
  coherent := h.coherent formed.coherent
  statics field o value := by
    have value : r.staticValue field = .ref o := value
    rw [Realm.staticValue, h.statics] at value
    obtain ⟨held, describes⟩ := formed.statics field o value
    refine ⟨h.held o held, fun p hp => h.kept p (describes p ?_)⟩
    rwa [← h.mirrored? held]
  tokens name token known := by
    obtain ⟨has, primitive, plain⟩ := formed.tokens name token known
    exact ⟨h.kept _ has, fun p hp => h.kept p (primitive p hp), plain⟩
  views place o shown := by
    obtain ⟨held, has⟩ := formed.views place o shown
    refine ⟨h.held o held, ?_⟩
    show r.Has (r.classIdOf o)
    rw [h.objects o held]
    exact h.kept _ has

theorem Descends.of_grows (formed : w.Formed) (h : w.outside.realm.Grows r) :
    Descends w (w.onRealm r) where
  realm := h
  tokens name := by
    unfold World.tokenOf
    simp only [World.onRealm, name.found_grows h formed]
  views _ := .refl _
  made := rfl
  proxies := rfl
  boxing := rfl
  accessors := rfl
  formed := formed.grows h

/-! ### Tokens -/

theorem TokenName.lookupClass?_className (name : TokenName) (r : Realm) :
    Realm.lookupClass? name.className r = (r.registry.get? name.className, r) := by
  cases name <;> rfl

theorem onRealm_run {step : StateM Realm α} {a : α} (h : step w.outside.realm = (a, r)) :
    (onRealm step : EStateM ε World α) w = .ok a (w.onRealm r) := by
  show EStateM.Result.ok (step w.outside.realm).1 (w.onRealm (step w.outside.realm).2) = _
  rw [h]

/-- Loading a token finds what its name stands for. -/
theorem TokenName.load_eq (name : TokenName) (formed : w.Formed) :
    ∃ slot r, (name.load : EStateM ε World _) w = .ok slot (w.onRealm r) ∧
      w.outside.realm.Grows r ∧ slot.map TypeToken.classes = name.found w.outside.realm := by
  have looked : (onRealm (Realm.lookupClass? name.className) : EStateM ε World _) w =
      .ok (w.outside.realm.registry.get? name.className) w :=
    onRealm_run (name.lookupClass?_className _)
  unfold TokenName.load TokenName.found
  rw [bind_ok looked]
  cases known : w.outside.realm.registry.get? name.className with
  | none => exact ⟨_, _, rfl, .setPending none _, rfl⟩
  | some c =>
    obtain ⟨mirror, r, minted⟩ : ∃ mirror r, Realm.mirror c w.outside.realm = (mirror, r) :=
      ⟨_, _, rfl⟩
    obtain ⟨first, r₁, taken⟩ : ∃ first r₁, Realm.newGlobalRef mirror r = (first, r₁) :=
      ⟨_, _, rfl⟩
    have grown : w.outside.realm.Grows r := by
      have grows := Realm.Grows.mirror c w.outside.realm
      rwa [minted] at grows
    have kept : w.outside.realm.Grows r₁ := by
      have grows := grown.trans (Realm.Grows.newGlobalRef mirror r)
      rwa [taken] at grows
    have publishes : (publishedPrimitive c : EStateM ε World _) (w.onRealm r₁) =
        .ok (published w.outside.realm c) (w.onRealm r₁) := by
      rw [← published_grows kept formed (formed.coherent.registered _ c known)]
      exact publishedPrimitive_eq c _
    have held : (onRealm (Realm.newGlobalRef mirror) : EStateM ε World _) (w.onRealm r) =
        .ok first (w.onRealm r₁) := onRealm_run taken
    dsimp only
    rw [bind_ok (onRealm_run minted), bind_ok held]
    by_cases wrapper : name.isWrapper = true
    · rw [if_pos wrapper, if_pos wrapper, bind_ok publishes]
      cases published w.outside.realm c with
      | error reason => exact ⟨_, _, rfl, kept, rfl⟩
      | ok found => exact ⟨_, _, rfl, kept.trans (.newGlobalRef found.2 _), rfl⟩
    · rw [if_neg wrapper, if_neg wrapper]
      exact ⟨_, _, rfl, kept, rfl⟩

/-- What a token is, and the state after asking. -/
def TokenName.answer (name : TokenName) (v : World) :
    Except String TypeToken → EStateM.Result Unavailable World TypeToken
  | .ok token => .ok token v
  | .error reason => .error ⟨name, reason⟩ v

theorem Descends.remember (formed : w.Formed) (h : w.outside.realm.Grows r) {name : TokenName}
    (unknown : w.outside.types.lookup name = none) {slot : Except String TypeToken}
    (found : slot.map TypeToken.classes = name.found w.outside.realm)
    (has : ∀ token, slot = .ok token → r.Has token.ofClass ∧ (∀ p ∈ token.primitive, r.Has p) ∧
      (name.isWrapper = false → token.primitive = none)) :
    Descends w ⟨w.memory, { w.outside with realm := r, types := (name, slot) :: w.outside.types }⟩ where
  realm := h
  tokens other := by
    unfold World.tokenOf
    by_cases same : other = name
    · subst same
      simp only [List.lookup_cons_self, unknown, found]
    · have differs : (other == name) = false := beq_eq_false_iff_ne.mpr same
      simp only [List.lookup_cons, differs, other.found_grows h formed]
  views _ := .refl _
  made := rfl
  proxies := rfl
  boxing := rfl
  accessors := rfl
  formed := by
    refine { formed.grows h with tokens := ?_ }
    intro other token known
    by_cases same : other = name
    · subst same
      simp only [List.lookup_cons_self, Option.some.injEq] at known
      exact has token known
    · have differs : (other == name) = false := beq_eq_false_iff_ne.mpr same
      simp only [List.lookup_cons, differs] at known
      exact (formed.grows h).tokens other token known

/-- A published class exists. -/
theorem published_has (formed : w.Formed) {found : ClassId × ObjectId}
    (h : published w.outside.realm c = .ok found) : w.outside.realm.Has found.1 := by
  unfold published at h
  split at h
  · cases h
  · rename_i field declared
    cases value : w.outside.realm.staticValue field.id with
    | ref o =>
      simp only [value, Host.Value.ref?, Option.bind_some] at h
      cases mirrored : w.outside.realm.mirrored? o with
      | none =>
        rw [mirrored] at h
        cases h
      | some p =>
        rw [mirrored] at h
        cases h
        exact (formed.statics field.id o value).2 p mirrored
    | _ =>
      rw [value] at h
      cases h

/-- What a name is found to stand for exists. -/
theorem TokenName.found_has (name : TokenName) (formed : w.Formed) {c : ClassId} {p : Option ClassId}
    (h : name.found w.outside.realm = .ok (c, p)) :
    w.outside.realm.Has c ∧ (∀ q ∈ p, w.outside.realm.Has q) ∧
      (name.isWrapper = false → p = none) := by
  unfold TokenName.found at h
  cases known : w.outside.realm.registry.get? name.className with
  | none =>
    rw [known] at h
    cases h
  | some d =>
    have has := formed.coherent.registered _ d known
    rw [known] at h
    dsimp only at h
    by_cases wrapper : name.isWrapper = true
    · rw [if_pos wrapper] at h
      cases publishes : published w.outside.realm d with
      | error reason =>
        rw [publishes] at h
        cases h
      | ok found =>
        rw [publishes] at h
        cases h
        refine ⟨has, ?_, fun plain => absurd wrapper (by simp [plain])⟩
        rintro _ ⟨⟩
        exact published_has formed publishes
    · rw [if_neg wrapper] at h
      cases h
      exact ⟨has, nofun, fun _ => rfl⟩

/-- A token is what it was settled to be. -/
theorem resolve_eq (name : TokenName) (formed : w.Formed) :
    ∃ slot v, Descends w v ∧ slot.map TypeToken.classes = w.tokenOf name ∧
      resolve name w = name.answer v slot := by
  unfold resolve World.tokenOf
  have types : (getTypes : EStateM Unavailable World _) w = .ok w.outside.types w := rfl
  rw [bind_ok types]
  cases known : w.outside.types.lookup name with
  | some slot =>
    refine ⟨slot, w, .refl formed, rfl, ?_⟩
    cases slot <;> rfl
  | none =>
    obtain ⟨slot, r, loaded, grows, found⟩ := name.load_eq (ε := Unavailable) formed
    refine ⟨slot, _, Descends.remember formed grows known found ?_, found, ?_⟩
    · rintro token rfl
      obtain ⟨has, primitive, plain⟩ := name.found_has formed found.symm
      exact ⟨grows.kept _ has, fun p hp => grows.kept p (primitive p hp), plain⟩
    · simp only [pure_bind]
      rw [bind_ok loaded]
      cases slot <;> rfl

/-! ### Kinds -/

/-- The first of the tokens that stands for a class of a shape. -/
def World.identified (w : World) (t : ClassId × Nat) :
    List TokenName → Except Unavailable (Option TokenName)
  | [] => .ok none
  | name :: rest =>
    match w.tokenOf name with
    | .error reason => .error ⟨name, reason⟩
    | .ok (c, p) =>
      if w.outside.realm.shape c = t ∨ p.map w.outside.realm.shape = some t then .ok (some name)
      else w.identified t rest

/-- The kind of the classes of a shape. -/
def World.kindAt (w : World) (t : ClassId × Nat) : Except Unavailable Kind :=
  match w.identified t TokenName.priority with
  | .error u => .error u
  | .ok (some name) => .ok name.kind
  | .ok none =>
    if 0 < t.2 then .ok .array
    else
      match w.tokenOf .type with
      | .error reason => .error ⟨.type, reason⟩
      | .ok (type, _) =>
        if w.outside.realm.isAssignable t.1 type then .ok .type
        else
          match w.tokenOf .object with
          | .error reason => .error ⟨.object, reason⟩
          | .ok _ => .ok .object

/-- An answer as the outcome of a step. -/
def outcome (v : World) : Except ε α → EStateM.Result ε World α
  | .ok a => .ok a v
  | .error e => .error e v

theorem World.tokenOf_has (formed : w.Formed) {name : TokenName} {p : Option ClassId}
    (h : w.tokenOf name = .ok (c, p)) :
    w.outside.realm.Has c ∧ (∀ q ∈ p, w.outside.realm.Has q) ∧
      (name.isWrapper = false → p = none) := by
  unfold World.tokenOf at h
  cases known : w.outside.types.lookup name with
  | none =>
    rw [known] at h
    exact name.found_has formed h
  | some slot =>
    rw [known] at h
    cases slot with
    | error reason => cases h
    | ok token =>
      cases h
      exact formed.tokens name token known

theorem Descends.identified (h : Descends w v) (formed : w.Formed) (t : ClassId × Nat)
    (names : List TokenName) : v.identified t names = w.identified t names := by
  induction names with
  | nil => rfl
  | cons name rest ih =>
    unfold World.identified
    rw [h.tokens name]
    cases known : w.tokenOf name with
    | error reason => rfl
    | ok found =>
      obtain ⟨c, p⟩ := found
      obtain ⟨has, primitive, -⟩ := World.tokenOf_has formed known
      have shapes : p.map v.outside.realm.shape = p.map w.outside.realm.shape := by
        cases p with
        | none => rfl
        | some q => simp only [Option.map_some, h.realm.shape formed.coherent (primitive q rfl)]
      dsimp only
      rw [h.realm.shape formed.coherent has, shapes, ih]

theorem Descends.kindAt (h : Descends w v) (formed : w.Formed) {t : ClassId × Nat}
    (ht : w.outside.realm.Has t.1) : v.kindAt t = w.kindAt t := by
  unfold World.kindAt
  rw [h.identified formed, h.tokens .type, h.tokens .object]
  cases known : w.tokenOf .type with
  | error reason => rfl
  | ok found =>
    have has := (World.tokenOf_has formed known).1
    simp only [h.realm.isAssignable_old formed.coherent ht has]

/-- Whether the token stands for the class is a matter of shapes. -/
theorem identifies_iff (coherent : w.outside.realm.Coherent) (token : TypeToken) (c : ClassId) :
    token.identifies c = true ↔
      w.outside.realm.shape token.ofClass = w.outside.realm.shape c ∨
        token.primitive.map w.outside.realm.shape = some (w.outside.realm.shape c) := by
  unfold TypeToken.identifies
  rw [Bool.or_eq_true, beq_iff_eq, beq_iff_eq]
  refine or_congr ⟨fun h => by rw [h], fun h => (Realm.shape_injective coherent h).symm⟩ ?_
  cases token.primitive with
  | none => simp
  | some p =>
    rw [Option.map_some, Option.some.injEq, Option.some.injEq]
    exact ⟨fun h => by rw [h], fun h => Realm.shape_injective coherent h⟩

/-- By induction on the tokens, each of which may be resolved now. -/
theorem identify_eq (formed : w.Formed) (hc : w.outside.realm.Has c) (names : List TokenName) :
    ∃ v, Descends w v ∧
      identify c names w = outcome v (w.identified (w.outside.realm.shape c) names) := by
  induction names generalizing w with
  | nil => exact ⟨w, .refl formed, rfl⟩
  | cons name rest ih =>
    obtain ⟨slot, v, later, found, asked⟩ := resolve_eq name formed
    unfold identify World.identified
    rw [← found]
    cases slot with
    | error reason => exact ⟨v, later, bind_error asked⟩
    | ok token =>
      have same := later.realm.shape formed.coherent hc
      have stands := identifies_iff formed.coherent token c
      simp only [Except.map, TypeToken.classes]
      rw [bind_ok asked]
      by_cases identifies : token.identifies c = true
      · rw [if_pos identifies, if_pos (stands.mp identifies)]
        exact ⟨v, later, rfl⟩
      · obtain ⟨u, last, rest_eq⟩ := ih later.formed (later.realm.kept c hc)
        refine ⟨u, later.trans last, ?_⟩
        rw [if_neg identifies, if_neg fun h => identifies (stands.mpr h), rest_eq, same,
          later.identified formed]

theorem isArray_iff (coherent : r.Coherent) (c : ClassId) :
    (r.classOf c).isArray = true ↔ 0 < (r.shape c).2 := by
  have plain := Realm.shape_depth coherent c
  rw [Host.Class.isArray, Option.isSome_iff_ne_none, Ne, ← not_congr plain]
  omega

theorem getRealm_run (w : World) :
    (Host.getRealm : EStateM ε World Realm) w = .ok w.outside.realm w := rfl

/-- What a class is that none of the wrapper tokens stands for. -/
theorem classifyRest_eq (formed : w.Formed) (hc : w.outside.realm.Has c)
    (none_found : w.identified (w.outside.realm.shape c) TokenName.priority = .ok none) :
    ∃ v, Descends w v ∧
      (do
        if ((← Host.getRealm).classOf c).isArray then return .array
        let token ← resolve .type
        if (← Host.getRealm).isAssignable c token.ofClass then return .type
        let _ ← resolve .object
        return .object : EStateM Unavailable World Kind) w =
        outcome v (w.kindAt (w.outside.realm.shape c)) := by
  have coherent := formed.coherent
  unfold World.kindAt
  rw [none_found]
  by_cases array : (w.outside.realm.classOf c).isArray = true
  · rw [if_pos ((isArray_iff coherent c).mp array), bind_ok (getRealm_run w), if_pos array]
    exact ⟨w, .refl formed, rfl⟩
  rw [if_neg fun h => array ((isArray_iff coherent c).mpr h), bind_ok (getRealm_run w),
    if_neg array]
  have plain : w.outside.realm.shape c = (c, 0) := by
    refine Realm.shape_plain ?_
    rwa [Host.Class.isArray, Bool.not_eq_true, Option.isSome_eq_false_iff,
      Option.isNone_iff_eq_none] at array
  obtain ⟨slot, v, later, found, asked⟩ := resolve_eq .type formed
  rw [plain, ← found]
  cases slot with
  | error reason => exact ⟨v, later, bind_error asked⟩
  | ok type =>
    have known := World.tokenOf_has formed found.symm
    have assignable := later.realm.isAssignable_old coherent hc known.1
    simp only [Except.map, TypeToken.classes]
    rw [bind_ok asked, bind_ok (getRealm_run v), assignable]
    by_cases isType : w.outside.realm.isAssignable c type.ofClass = true
    · rw [if_pos isType, if_pos isType]
      exact ⟨v, later, rfl⟩
    · obtain ⟨object, u, last, found_object, asked_object⟩ := resolve_eq .object later.formed
      rw [if_neg isType, if_neg isType, ← later.tokens .object, ← found_object]
      refine ⟨u, later.trans last, ?_⟩
      cases object with
      | error reason => exact bind_error asked_object
      | ok token => exact bind_ok asked_object

/-- A class is of the kind of its shape. -/
theorem classify_eq (formed : w.Formed) (hc : w.outside.realm.Has c) :
    ∃ v, Descends w v ∧ classify c w = outcome v (w.kindAt (w.outside.realm.shape c)) := by
  obtain ⟨v, later, asked⟩ := identify_eq formed hc TokenName.priority
  have same := later.realm.shape formed.coherent hc
  have kinds := later.kindAt formed (hc.bottom formed.coherent)
  unfold classify
  cases identified : w.identified (w.outside.realm.shape c) TokenName.priority with
  | error u =>
    rw [identified] at asked
    refine ⟨v, later, ?_⟩
    rw [bind_error asked]
    simp only [World.kindAt, identified]
    rfl
  | ok found =>
    rw [identified] at asked
    rw [bind_ok asked]
    cases found with
    | some name =>
      refine ⟨v, later, ?_⟩
      simp only [World.kindAt, identified]
      rfl
    | none =>
      have none_found : v.identified (v.outside.realm.shape c) TokenName.priority = .ok none := by
        rw [later.identified formed, same, identified]
      obtain ⟨u, last, rest⟩ := classifyRest_eq later.formed (later.realm.kept c hc) none_found
      refine ⟨u, later.trans last, ?_⟩
      rw [same, kinds] at rest
      exact rest

/-- A class whose shape has a kind is classified as that kind. -/
theorem kindOf_eq (formed : w.Formed) (hc : w.outside.realm.Has c) {kind : Kind}
    (h : w.kindAt (w.outside.realm.shape c) = .ok kind) (ts : InterpreterId) :
    ∃ v, Descends w v ∧ kindOf ts c w = .ok kind v := by
  obtain ⟨v, later, asked⟩ := classify_eq formed hc
  rw [h] at asked
  refine ⟨v, later, ?_⟩
  simp only [kindOf, orUnavailable, Bind.bind, EStateM.bind, Script.attempt, asked, outcome]
  rfl

/-- A class is classified as the kind that its shape has. -/
theorem kindAt_of_kindOf (formed : w.Formed) (hc : w.outside.realm.Has c) {kind : Kind}
    {ts : InterpreterId} (h : kindOf ts c w = .ok kind v) :
    w.kindAt (w.outside.realm.shape c) = .ok kind ∧ Descends w v := by
  obtain ⟨u, later, asked⟩ := classify_eq formed hc
  simp only [kindOf, orUnavailable, Bind.bind, EStateM.bind, Script.attempt, asked] at h
  cases known : w.kindAt (w.outside.realm.shape c) with
  | ok found =>
    rw [known] at h
    cases h
    exact ⟨rfl, later⟩
  | error unavailable =>
    rw [known] at h
    cases h

/-! ### Names -/

/-- A name that leads to a shape leads to a class of it. -/
theorem findClass_eq (formed : w.Formed) {name : String} {t : ClassId × Nat}
    (h : w.outside.realm.typeNamed? name = some t) :
    ∃ c v, Descends w v ∧ (Host.findClass name : HostM World ClassId) w = .ok c v ∧
      v.outside.realm.Has c ∧ v.outside.realm.shape c = t := by
  obtain ⟨found, r, looked, grows, has, shapes⟩ :=
    Realm.lookupClass?_grows formed.coherent name
  rw [h] at shapes
  cases found with
  | none => cases shapes
  | some c =>
    refine ⟨c, w.onRealm r, .of_grows formed grows, ?_, has c rfl, Option.some.inj shapes⟩
    unfold Host.findClass
    rw [bind_ok (onRealm_run looked)]
    rfl

/-- A class that a name leads to is of the shape that the name leads to. -/
theorem typeNamed?_of_findClass (formed : w.Formed) {name : String}
    (h : (Host.findClass name : HostM World ClassId) w = .ok c v) :
    w.outside.realm.typeNamed? name = some (v.outside.realm.shape c) ∧ Descends w v ∧
      v.outside.realm.Has c := by
  obtain ⟨found, r, looked, grows, has, shapes⟩ :=
    Realm.lookupClass?_grows formed.coherent name
  unfold Host.findClass at h
  rw [bind_ok (onRealm_run looked)] at h
  cases found with
  | none =>
    simp only [Host.throwNew, Host.throwObject, Bind.bind, EStateM.bind] at h
    cases h
  | some c =>
    cases h
    exact ⟨shapes.symm, .of_grows formed grows, has c rfl⟩

end ScriptBridge.Bridge
