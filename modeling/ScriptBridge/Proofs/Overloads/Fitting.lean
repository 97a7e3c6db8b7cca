import ScriptBridge.Bridge.Convert
import ScriptBridge.Proofs.Typing.Classification

/-!
# What fits a parameter

Whether an argument fits a parameter is asked by one function and acted on by another. Both answer
by one rule, which looks at the argument, at the shape of the parameter's class and at the kind of
that shape: an argument that fits is converted, whatever has been looked up or converted in the
meantime, and one that does not fit is refused by its position.
-/

namespace ScriptBridge.Bridge

open Host (ClassId ObjectId Realm Bodies HostM)
open Script (InterpreterId)

variable {ε α β : Type} {w v u : World} {c : ClassId} {t : ClassId × Nat}

/-! ### What arguments show -/

/-- The view that a value is. -/
def World.viewed (w : World) : Script.Value → Option View
  | .foreign f => some (w.viewAt f.place)
  | _ => none

/-- The class of the object that a value shows, with the object. -/
def World.shown (w : World) (value : Script.Value) : Option (ObjectId × ClassId) :=
  ((w.viewed value).bind View.object?).map fun o => (o, w.outside.realm.classIdOf o)

/-- The array that a view shows. -/
def View.array? : View → Option ObjectId
  | .array o _ _ => some o
  | _ => none

/-- The class object that a view of a class shows. -/
def View.mirror? : View → Option ObjectId
  | .type _ mirror => some mirror
  | _ => none

theorem viewOf?_run (value : Script.Value) :
    (viewOf? value : EStateM ε World (Option View)) w = .ok (w.viewed value) w := by
  cases value <;> rfl

theorem shownObject?_run (value : Script.Value) :
    (shownObject? value : EStateM ε World _) w = .ok (w.shown value) w := by
  cases value <;> rfl

theorem View.Released.array? {view view' : View} (h : view.Released view') :
    view'.array? = view.array? := by
  cases view with
  | array o component pin => rcases h with rfl | rfl <;> rfl
  | object | type | method =>
    cases h
    rfl

theorem View.Released.mirror? {view view' : View} (h : view.Released view') :
    view'.mirror? = view.mirror? := by
  cases view with
  | array o component pin => rcases h with rfl | rfl <;> rfl
  | object | type | method =>
    cases h
    rfl

theorem World.shown_has (formed : w.Formed) {value : Script.Value} {o : ObjectId}
    (h : w.shown value = some (o, c)) : w.outside.realm.Holds o ∧ w.outside.realm.Has c := by
  cases value with
  | foreign f =>
    simp only [World.shown, World.viewed, Option.bind_some, Option.map_eq_some_iff,
      Prod.mk.injEq] at h
    obtain ⟨p, shows, rfl, rfl⟩ := h
    exact formed.views f.place p shows
  | _ => cases h

theorem Descends.shown (h : Descends w v) (formed : w.Formed) (value : Script.Value) :
    v.shown value = w.shown value := by
  cases value with
  | foreign f =>
    simp only [World.shown, World.viewed, Option.bind_some, (h.views f.place).object?]
    cases shows : (w.viewAt f.place).object? with
    | none => rfl
    | some o =>
      have held := (formed.views f.place o shows).1
      simp only [Option.map_some, h.realm.objects o held]
  | _ => rfl

/-! ### The rule -/

/-- A string can stand for a class of a shape. -/
def World.stringStands (w : World) (t : ClassId × Nat) : Bool :=
  match w.tokenOf .string with
  | .ok (string, _) => w.outside.realm.assignableTo string t
  | .error _ => false

/-- The class of the object that the value shows can stand for a class of a shape. -/
def World.shownStands (w : World) (value : Script.Value) (t : ClassId × Nat) : Bool :=
  (w.shown value).any fun (_, c) => w.outside.realm.assignableTo c t

/-- The value fits a parameter of a shape and a kind. -/
def World.fits (w : World) (value : Script.Value) (t : ClassId × Nat) : Kind → Bool
  | .string => value.isNone || value.asText?.isSome || w.shownStands value t
  | .array =>
    value.isNone || ((w.viewed value).bind View.array?).isSome && w.shownStands value t
  | .type => value.isNone || ((w.viewed value).bind View.mirror?).isSome
  | .object =>
    value.isNone || w.shownStands value t || value.asText?.isSome && w.stringStands t
  | .void => false
  | kind => (primitiveOf? kind value).isSome

theorem Descends.shownStands (h : Descends w v) (formed : w.Formed)
    (ht : w.outside.realm.Has t.1) (value : Script.Value) :
    v.shownStands value t = w.shownStands value t := by
  unfold World.shownStands
  rw [h.shown formed]
  cases shows : w.shown value with
  | none => rfl
  | some s =>
    obtain ⟨-, has⟩ := World.shown_has formed shows
    simp only [Option.any_some, h.realm.assignableTo formed.coherent has ht]

theorem Descends.stringStands (h : Descends w v) (formed : w.Formed)
    (ht : w.outside.realm.Has t.1) : v.stringStands t = w.stringStands t := by
  unfold World.stringStands
  rw [h.tokens .string]
  cases known : w.tokenOf .string with
  | error reason => rfl
  | ok found =>
    have has := (World.tokenOf_has formed known).1
    exact h.realm.assignableTo formed.coherent has ht

theorem Descends.fits (h : Descends w v) (formed : w.Formed) (ht : w.outside.realm.Has t.1)
    (value : Script.Value) (kind : Kind) : v.fits value t kind = w.fits value t kind := by
  have arrays : (v.viewed value).bind View.array? = (w.viewed value).bind View.array? := by
    cases value with
    | foreign f => exact (h.views f.place).array?
    | _ => rfl
  have mirrors : (v.viewed value).bind View.mirror? = (w.viewed value).bind View.mirror? := by
    cases value with
    | foreign f => exact (h.views f.place).mirror?
    | _ => rfl
  cases kind <;>
    simp only [World.fits, h.shownStands formed ht, h.stringStands formed ht, arrays, mirrors]

/-! ### Asking whether a value fits -/

/-- The class of the string token. -/
def World.stringToken? (w : World) : Option ClassId :=
  match w.tokenOf .string with
  | .ok (string, _) => some string
  | .error _ => none

theorem stringClass?_eq (formed : w.Formed) :
    ∃ v, Descends w v ∧ (stringClass? : EStateM ε World _) w = .ok w.stringToken? v := by
  obtain ⟨slot, v, later, found, asked⟩ := resolve_eq .string formed
  refine ⟨v, later, ?_⟩
  simp only [stringClass?, Bind.bind, EStateM.bind, Script.attempt, asked, World.stringToken?,
    ← found]
  cases slot <;> rfl

theorem assignable_run (source target : ClassId) :
    (assignable source target : EStateM ε World Bool) w =
      .ok (w.outside.realm.isAssignable source target) w := rfl

theorem stringFits_eq (formed : w.Formed) (hc : w.outside.realm.Has c) :
    ∃ v, Descends w v ∧ (stringFits c : EStateM ε World Bool) w =
      .ok (w.stringStands (w.outside.realm.shape c)) v := by
  obtain ⟨v, later, asked⟩ := stringClass?_eq (ε := ε) formed
  refine ⟨v, later, ?_⟩
  unfold stringFits
  rw [bind_ok asked]
  unfold World.stringToken? World.stringStands
  cases known : w.tokenOf .string with
  | error reason => rfl
  | ok found =>
    have has := (World.tokenOf_has formed known).1
    dsimp only
    rw [assignable_run, later.realm.isAssignable formed.coherent has
      (hc.bottom formed.coherent) (later.realm.shape formed.coherent hc)]

/-- Whether the object that a value shows can stand for a class. -/
theorem shown_assignable (formed : w.Formed) (hc : w.outside.realm.Has c) {value : Script.Value}
    {o : ObjectId} {s : ClassId} (shows : w.shown value = some (o, s)) :
    w.outside.realm.isAssignable s c = w.shownStands value (w.outside.realm.shape c) := by
  obtain ⟨-, has⟩ := World.shown_has formed shows
  unfold World.shownStands
  rw [shows, Option.any_some, (Realm.Grows.refl _).isAssignable formed.coherent has
    (hc.bottom formed.coherent) rfl]

/-- What is asked of the object that a value shows. -/
theorem shownFits_eq (formed : w.Formed) (hc : w.outside.realm.Has c) (value : Script.Value) :
    (do
      match ← shownObject? value with
      | some (_, s) => assignable s c
      | none => return false : EStateM ε World Bool) w =
      .ok (w.shownStands value (w.outside.realm.shape c)) w := by
  rw [bind_ok (shownObject?_run value)]
  cases shows : w.shown value with
  | none => simp only [World.shownStands, shows, Option.any_none]; rfl
  | some s =>
    obtain ⟨o, s⟩ := s
    rw [← shown_assignable formed hc shows]
    rfl

theorem primitiveOf?_char (value : Script.Value) :
    (primitiveOf? .char value).isSome = value.asText?.any (·.length == 1) := by
  cases value with
  | text text =>
    simp only [primitiveOf?, Script.Value.asText?, Option.map_some, Option.any_some,
      ← String.length_toList]
    match text.toList with
    | [] | [_] | _ :: _ :: _ => simp
  | _ => rfl

/-- The array that a value shows is asked about once, as a class of its own. -/
theorem matchesParam_array (formed : w.Formed) (hc : w.outside.realm.Has c)
    (value : Script.Value) :
    (matchesParam value c .array : EStateM ε World Bool) w =
      .ok (w.fits value (w.outside.realm.shape c) .array) w := by
  cases value with
  | foreign f =>
    unfold matchesParam World.fits
    dsimp only
    rw [if_neg (by simp [Script.Value.isNone]), bind_ok (viewOf?_run _)]
    simp only [World.viewed, Option.bind_some]
    cases view : w.viewAt f.place with
    | array o component pin =>
      have shows : w.shown (.foreign f) = some (o, w.outside.realm.classIdOf o) := by
        simp only [World.shown, World.viewed, Option.bind_some, view, View.object?,
          Option.map_some]
      dsimp only
      rw [bind_ok (getRealm_run w), assignable_run, shown_assignable formed hc shows]
      rfl
    | object | type | method => rfl
  | _ => rfl

/-- Only a view of a class fits a parameter for classes. -/
theorem matchesParam_type (value : Script.Value) :
    (matchesParam value c .type : EStateM ε World Bool) w =
      .ok (w.fits value (w.outside.realm.shape c) .type) w := by
  cases value with
  | foreign f =>
    unfold matchesParam World.fits
    dsimp only
    rw [bind_ok (viewOf?_run _)]
    simp only [World.viewed, Option.bind_some]
    cases w.viewAt f.place <;> rfl
  | _ => rfl

theorem matchesParam_string (formed : w.Formed) (hc : w.outside.realm.Has c)
    (value : Script.Value) :
    (matchesParam value c .string : EStateM ε World Bool) w =
      .ok (w.fits value (w.outside.realm.shape c) .string) w := by
  unfold matchesParam World.fits
  dsimp only
  by_cases plain : (value.isNone || value.asText?.isSome) = true
  · rw [if_pos plain, plain, Bool.true_or]
    rfl
  · rw [if_neg plain, Bool.eq_false_iff.mpr plain, Bool.false_or]
    exact shownFits_eq formed hc value

theorem asText?_of_shown {value : Script.Value} (shows : w.shown value = some s) :
    value.asText? = none := by
  cases value with
  | foreign f => rfl
  | _ => cases shows

/-- A value that shows no object fits as a text, for which the class of texts is looked up. -/
theorem matchesParam_object (formed : w.Formed) (hc : w.outside.realm.Has c)
    (value : Script.Value) :
    ∃ v, Descends w v ∧ (matchesParam value c .object : EStateM ε World Bool) w =
      .ok (w.fits value (w.outside.realm.shape c) .object) v := by
  unfold matchesParam World.fits
  dsimp only
  by_cases absent : value.isNone = true
  · rw [if_pos absent, absent, Bool.true_or, Bool.true_or]
    exact ⟨w, .refl formed, rfl⟩
  rw [if_neg absent, Bool.eq_false_iff.mpr absent, Bool.false_or, bind_ok (shownObject?_run value)]
  cases shows : w.shown value with
  | some s =>
    obtain ⟨o, s⟩ := s
    refine ⟨w, .refl formed, ?_⟩
    dsimp only
    rw [assignable_run, shown_assignable formed hc shows, asText?_of_shown shows,
      Option.isSome_none, Bool.false_and, Bool.or_false]
  | none =>
    have stands : w.shownStands value (w.outside.realm.shape c) = false := by
      simp only [World.shownStands, shows, Option.any_none]
    rw [stands, Bool.false_or]
    dsimp only
    by_cases text : value.asText?.isSome = true
    · obtain ⟨v, later, answered⟩ := stringFits_eq (ε := ε) formed hc
      refine ⟨v, later, ?_⟩
      rw [if_pos text, answered, text, Bool.true_and]
    · refine ⟨w, .refl formed, ?_⟩
      rw [if_neg text, Bool.eq_false_iff.mpr text, Bool.false_and]
      rfl

theorem matchesParam_eq (formed : w.Formed) (hc : w.outside.realm.Has c) (value : Script.Value)
    (kind : Kind) :
    ∃ v, Descends w v ∧ (matchesParam value c kind : EStateM ε World Bool) w =
      .ok (w.fits value (w.outside.realm.shape c) kind) v := by
  cases kind with
  | char =>
    refine ⟨w, .refl formed, ?_⟩
    simp only [World.fits, primitiveOf?_char]
    rfl
  | byte | short | int | long | float | double | boolean =>
    refine ⟨w, .refl formed, ?_⟩
    cases value <;> rfl
  | void => exact ⟨w, .refl formed, rfl⟩
  | string => exact ⟨w, .refl formed, matchesParam_string formed hc value⟩
  | array => exact ⟨w, .refl formed, matchesParam_array formed hc value⟩
  | type => exact ⟨w, .refl formed, matchesParam_type value⟩
  | object => exact matchesParam_object formed hc value

/-! ### Giving pins back -/

/-- The pin at a place, if there is one, can be stored in its array. -/
def World.Commits (w : World) (place : Nat) : Prop :=
  ∀ o component pin, w.viewAt place = .array o component (some pin) →
    ∃ items, w.outside.realm.payload o = .array items ∧
      (pin.changed = true → items.length = pin.items.length)

/-- A view that still has a pin has the pin that it had. -/
theorem View.Released.pinned {view : View} {o : ObjectId} {component : Option (ClassId × Kind)}
    {pin : Pin} (h : view.Released (.array o component (some pin))) :
    view = .array o component (some pin) := by
  cases view with
  | array =>
    rcases h with same | same
    · exact same.symm
    · cases same
  | object | type | method => cases h

theorem Descends.commits (h : Descends w v) (formed : w.Formed) {place : Nat}
    (commits : w.Commits place) : v.Commits place := by
  intro o component pin view
  have same := (view ▸ h.views place).pinned
  obtain ⟨items, was, fits⟩ := commits o component pin same
  have held := (formed.views place o (by rw [same]; rfl)).1
  obtain ⟨items', is, length⟩ := (was ▸ h.realm.payloads o held).of_array
  exact ⟨items', is, fun changed => length.trans (fits changed)⟩

/-- A call that succeeds is made as if there were no error handling. -/
theorem hostCall_ok {call : HostM World α} {a : α} (h : call w = .ok a v) (bodies : Bodies World)
    (ts : InterpreterId) : hostCall bodies ts call w = .ok a v := by
  simp only [hostCall, Bind.bind, EStateM.bind, Script.attempt, h]
  rfl

/-- The state with the pin of an array's view taken away. -/
def World.unpinned (w : World) (place : Nat) : World :=
  World.after ((setPin place none : EStateM Unit World Unit) w)

/-- The view, but without a pin. -/
def View.unpinned : View → View
  | .array o component _ => .array o component none
  | view => view

theorem viewAt_unpinned (place other : Nat) :
    (w.unpinned place).viewAt other =
      if place = other then (w.viewAt place).unpinned else w.viewAt other := by
  show (((w.outside.proxies.modify place _)[other]?).getD default : Proxy).view = _
  rw [Array.getElem?_modify]
  by_cases same : place = other
  · subst same
    rw [if_pos rfl, if_pos rfl]
    unfold World.viewAt
    cases w.outside.proxies[place]? with
    | none => rfl
    | some p =>
      obtain ⟨view, held⟩ := p
      cases view <;> rfl
  · rw [if_neg same, if_neg same]
    rfl

theorem View.released_unpinned (view : View) : view.Released view.unpinned := by
  cases view with
  | array => exact .inr rfl
  | object | type | method => exact rfl

theorem Descends.unpinned (formed : w.Formed) (place : Nat) : Descends w (w.unpinned place) := by
  have views : ∀ other, (w.viewAt other).Released ((w.unpinned place).viewAt other) := by
    intro other
    rw [viewAt_unpinned]
    by_cases same : place = other
    · subst same
      rw [if_pos rfl]
      exact View.released_unpinned _
    · rw [if_neg same]
      exact .refl _
  refine ⟨.refl _, fun _ => rfl, views, rfl, Array.size_modify, rfl, rfl, formed.coherent,
    formed.statics, formed.tokens, ?_⟩
  intro other o shows
  rw [(views other).object?] at shows
  exact formed.views other o shows

/-- The pin of a view, with its array. -/
def View.pin? : View → Option (ObjectId × Pin)
  | .array o _ (some pin) => some (o, pin)
  | _ => none

theorem takePin_eq (place : Nat) :
    (takePin place : EStateM ε World _) w =
      .ok (w.viewAt place).pin?
        (if (w.viewAt place).pin?.isSome then w.unpinned place else w) := by
  show (match w.viewAt place with
    | .array o _ (some pin) => (do setPin place none; return some (o, pin) : EStateM ε World _)
    | _ => pure none) w = _
  cases w.viewAt place with
  | array o component pin => cases pin <;> rfl
  | object | type | method => rfl

/-- Elements go back into an array of the same length. -/
theorem releaseArrayElements_eq (formed : w.Formed) {o : ObjectId} {stored : List Host.Value}
    (array : w.outside.realm.payload o = .array stored) (items : List Host.Value) (commit : Bool)
    (fits : commit = true → stored.length = items.length) :
    ∃ v, Descends w v ∧
      (Host.releaseArrayElements o items commit : HostM World Unit) w = .ok () v := by
  have length : (Host.arrayLength o : HostM World Nat) w = .ok stored.length w := by
    unfold Host.arrayLength Host.arrayElements
    simp only [Bind.bind, EStateM.bind, getRealm_run, array]
    rfl
  unfold Host.releaseArrayElements
  rw [bind_ok length]
  by_cases committed : commit = true
  · rw [if_pos committed, if_pos (fits committed)]
    refine ⟨_, .of_grows formed (Realm.Grows.setPayload ?_), rfl⟩
    rw [array]
    exact (fits committed).symm
  · rw [if_neg committed]
    exact ⟨w, .refl formed, rfl⟩

/-- A pin that can be stored is given back, and nothing of the Host runs. -/
theorem releasePin_eq (formed : w.Formed) {place : Nat} (commits : w.Commits place)
    (ts : InterpreterId) :
    ∃ v, Descends w v ∧ ∀ bodies, releasePin bodies ts place true w = .ok () v := by
  have took := takePin_eq (ε := Script.Raised) (w := w) place
  unfold releasePin
  cases pinned : (w.viewAt place).pin? with
  | none =>
    rw [pinned] at took
    exact ⟨w, .refl formed, fun bodies => bind_ok took⟩
  | some found =>
    obtain ⟨o, pin⟩ := found
    rw [pinned] at took
    have later := Descends.unpinned formed place
    obtain ⟨items, array, fits⟩ : ∃ items, w.outside.realm.payload o = .array items ∧
        (pin.changed = true → items.length = pin.items.length) := by
      cases view : w.viewAt place with
      | array o' component pin' =>
        cases pin' with
        | none =>
          rw [view] at pinned
          cases pinned
        | some pin' =>
          rw [view] at pinned
          cases pinned
          exact commits o component pin view
      | object | type | method =>
        rw [view] at pinned
        cases pinned
    obtain ⟨v, last, released⟩ := releaseArrayElements_eq later.formed array pin.items
      (true && pin.changed) fun changed => fits (by simpa using changed)
    refine ⟨v, later.trans last, fun bodies => ?_⟩
    rw [bind_ok took]
    exact hostCall_ok released bodies ts

theorem attempt_ok {step : EStateM ε World α} {a : α} (h : step w = .ok a v) {ε' : Type} :
    (Script.attempt step : EStateM ε' World _) w = .ok (.ok a) v := by
  simp only [Script.attempt, h]

theorem attempt_error {step : EStateM ε World α} {e : ε} (h : step w = .error e v) {ε' : Type} :
    (Script.attempt step : EStateM ε' World _) w = .ok (.error e) v := by
  simp only [Script.attempt, h]

theorem ok_of_hostCall {call : HostM World α} {a : α} {bodies : Bodies World} {ts : InterpreterId}
    (h : hostCall bodies ts call w = .ok a v) : call w = .ok a v := by
  unfold hostCall at h
  cases called : call w with
  | ok b u =>
    rw [bind_ok (attempt_ok called)] at h
    cases h
    rfl
  | error e u =>
    rw [bind_ok (attempt_error called)] at h
    dsimp only at h
    cases received : (receiveThrowable bodies ts u : EStateM.Result Script.Raised World Bool) with
    | error e x =>
      rw [bind_error received] at h
      cases h
    | ok was x =>
      rw [bind_ok received] at h
      cases was <;> cases h

/-- Elements go back only where they can be stored. -/
theorem array_of_release {o : ObjectId} {items : List Host.Value} {commit : Bool}
    (h : (Host.releaseArrayElements o items commit : HostM World Unit) w = .ok () v) :
    ∃ stored, w.outside.realm.payload o = .array stored ∧
      (commit = true → stored.length = items.length) := by
  unfold Host.releaseArrayElements Host.arrayLength Host.arrayElements at h
  cases payload : w.outside.realm.payload o with
  | array stored =>
    refine ⟨stored, rfl, fun committed => ?_⟩
    by_cases same : stored.length = items.length
    · exact same
    · simp only [Bind.bind, EStateM.bind, getRealm_run, payload, pure, EStateM.pure, if_pos committed,
        if_neg same] at h
      cases h
  | _ =>
    simp only [Bind.bind, EStateM.bind, getRealm_run, payload] at h
    cases h

/-- Giving the pin back succeeds only if it can be stored. -/
theorem commits_of_releasePin {place : Nat} {bodies : Bodies World} {ts : InterpreterId}
    (h : releasePin bodies ts place true w = .ok () v) : w.Commits place := by
  intro o component pin view
  have took := takePin_eq (ε := Script.Raised) (w := w) place
  unfold releasePin at h
  rw [bind_ok took, view] at h
  have released : (Host.releaseArrayElements o pin.items (true && pin.changed) : HostM World Unit)
      (w.unpinned place) = .ok () v := ok_of_hostCall h
  obtain ⟨stored, array, fits⟩ := array_of_release released
  exact ⟨stored, array, fun changed => fits (by simpa using changed)⟩

/-! ### Converting what fits -/

/-- The step converts what fits, and refuses what does not. -/
def Decides (w : World) (ts : InterpreterId) (position : Nat) (fits : Bool)
    (step : Bodies World → BridgeM Host.Value) : Prop :=
  match fits with
  | true => ∃ converted v, Descends w v ∧ ∀ bodies, step bodies w = .ok converted v
  | false => ∃ message v, Descends w v ∧ ∀ bodies, step bodies w = mismatch ts position message v

variable {ts : InterpreterId} {position : Nat} {value : Script.Value}

theorem textValue_eq (formed : w.Formed) (text : String) :
    ∃ converted v, Descends w v ∧ textValue text w = .ok converted v :=
  ⟨_, _, .of_grows formed (.newText text _), rfl⟩

/-- The token by which a shape is identified stands for a class of the shape. -/
theorem tokenOf_of_identified {names : List TokenName} {name : TokenName}
    (h : w.identified t names = .ok (some name)) :
    ∃ c p, w.tokenOf name = .ok (c, p) ∧
      (w.outside.realm.shape c = t ∨ p.map w.outside.realm.shape = some t) := by
  induction names with
  | nil => cases h
  | cons first rest ih =>
    unfold World.identified at h
    cases known : w.tokenOf first with
    | error reason =>
      rw [known] at h
      cases h
    | ok found =>
      obtain ⟨c, p⟩ := found
      rw [known] at h
      dsimp only at h
      by_cases stands : w.outside.realm.shape c = t ∨ p.map w.outside.realm.shape = some t
      · rw [if_pos stands] at h
        cases h
        exact ⟨c, p, known, stands⟩
      · rw [if_neg stands] at h
        exact ih h

/-- Only the class of strings is of the kind of strings. -/
theorem kindAt_string (formed : w.Formed) (h : w.kindAt t = .ok .string) :
    ∃ string, w.stringToken? = some string ∧ w.outside.realm.Has string ∧
      w.outside.realm.shape string = t := by
  unfold World.kindAt at h
  cases identified : w.identified t TokenName.priority with
  | error u =>
    rw [identified] at h
    cases h
  | ok found =>
    rw [identified] at h
    cases found with
    | some name =>
      have isString : name = .string := by
        cases name <;> first | rfl | cases h
      subst isString
      obtain ⟨string, p, known, stands⟩ := tokenOf_of_identified identified
      obtain ⟨has, -, plain⟩ := World.tokenOf_has formed known
      cases plain rfl
      refine ⟨string, ?_, has, ?_⟩
      · simp only [World.stringToken?, known]
      · exact stands.resolve_right nofun
    | none =>
      dsimp only at h
      split at h
      · cases h
      · split at h
        · cases h
        · split at h
          · cases h
          · split at h <;> cases h

theorem shownStands_none (shows : w.shown value = none) : w.shownStands value t = false := by
  simp only [World.shownStands, shows, Option.any_none]

/-- What a class that is found later may be shown as. -/
theorem Descends.shown_assignable (later : Descends w v) (formed : w.Formed) {o : ObjectId}
    {s d : ClassId} (shows : w.shown value = some (o, s)) (ht : w.outside.realm.Has t.1)
    (shape : v.outside.realm.shape d = t) :
    v.outside.realm.isAssignable s d = w.shownStands value t := by
  obtain ⟨-, has⟩ := World.shown_has formed shows
  rw [World.shownStands, shows, Option.any_some, later.realm.isAssignable formed.coherent has ht shape]

theorem coerceToString_decides (formed : w.Formed) (hc : w.outside.realm.Has c)
    (kinds : w.kindAt (w.outside.realm.shape c) = .ok .string) :
    Decides w ts position
      (value.asText?.isSome || w.shownStands value (w.outside.realm.shape c))
      fun _ => coerceToString ts value position := by
  unfold coerceToString
  cases text : value.asText? with
  | some written =>
    obtain ⟨converted, v, later, made⟩ := textValue_eq formed written
    exact ⟨converted, v, later, fun _ => made⟩
  | none =>
    obtain ⟨string, token, has, shape⟩ := kindAt_string formed kinds
    obtain ⟨v, later, asked⟩ := stringClass?_eq (ε := Script.Raised) formed
    rw [token] at asked
    rw [Option.isSome_none, Bool.false_or]
    cases shows : w.shown value with
    | none =>
      rw [shownStands_none shows]
      refine ⟨s!"Expected string parameter at {position}.", v, later, fun _ => ?_⟩
      dsimp only
      rw [bind_ok (shownObject?_run value), bind_ok asked, shows]
    | some s =>
      obtain ⟨o, s⟩ := s
      have answer := later.shown_assignable formed shows (hc.bottom formed.coherent)
        ((later.realm.shape formed.coherent has).trans shape)
      cases stands : w.shownStands value (w.outside.realm.shape c) with
      | true =>
        refine ⟨.ref o, v, later, fun _ => ?_⟩
        dsimp only
        rw [bind_ok (shownObject?_run value), bind_ok asked, shows]
        dsimp only
        rw [bind_ok (assignable_run s string), answer, stands]
        rfl
      | false =>
        refine ⟨s!"Expected string parameter at {position}.", v, later, fun _ => ?_⟩
        dsimp only
        rw [bind_ok (shownObject?_run value), bind_ok asked, shows]
        dsimp only
        rw [bind_ok (assignable_run s string), answer, stands]
        rfl

/-- What shows no array is refused. -/
theorem coerceToArray_refused (formed : w.Formed)
    (other : (w.viewed value).bind View.array? = none) :
    Decides w ts position false fun bodies => coerceToArray bodies ts value c position := by
  refine ⟨s!"Expected jarray parameter at {position}.", w, .refl formed, fun bodies => ?_⟩
  unfold coerceToArray
  dsimp only
  rw [bind_ok (viewOf?_run value)]
  generalize w.viewed value = viewed at other ⊢
  cases value with
  | foreign f =>
    cases viewed with
    | none => rfl
    | some view =>
      cases view with
      | array => cases other
      | object | type | method => rfl
  | _ => rfl

/-- An array is handed over after its pin has been given back. -/
theorem coerceToArray_decides (formed : w.Formed) (hc : w.outside.realm.Has c)
    (commits : (((w.viewed value).bind View.array?).isSome &&
        w.shownStands value (w.outside.realm.shape c)) = true →
      ∀ f, value = .foreign f → w.Commits f.place) :
    Decides w ts position
      (((w.viewed value).bind View.array?).isSome &&
        w.shownStands value (w.outside.realm.shape c))
      fun bodies => coerceToArray bodies ts value c position := by
  cases value with
  | foreign f =>
    cases view : w.viewAt f.place with
    | array o component pin =>
      have viewed : w.viewed (.foreign f) = some (.array o component pin) := by
        rw [World.viewed, view]
      have shows : w.shown (.foreign f) = some (o, w.outside.realm.classIdOf o) := by
        rw [World.shown, viewed]
        rfl
      have answer := shown_assignable formed hc shows
      rw [viewed, Option.bind_some, View.array?, Option.isSome_some, Bool.true_and] at commits ⊢
      unfold coerceToArray
      cases stands : w.shownStands (.foreign f) (w.outside.realm.shape c) with
      | true =>
        obtain ⟨v, later, released⟩ := releasePin_eq formed (commits stands f rfl) ts
        refine ⟨.ref o, v, later, fun bodies => ?_⟩
        dsimp only
        rw [bind_ok (viewOf?_run _), viewed]
        dsimp only
        rw [bind_ok (getRealm_run w), bind_ok (assignable_run _ c), answer, stands,
          if_pos rfl, bind_ok (released bodies)]
        rfl
      | false =>
        refine ⟨s!"Incompatible array type at parameter {position}.", w, .refl formed, fun bodies => ?_⟩
        dsimp only
        rw [bind_ok (viewOf?_run _), viewed]
        dsimp only
        rw [bind_ok (getRealm_run w), bind_ok (assignable_run _ c), answer, stands]
        rfl
    | object | type | method =>
      have other : (w.viewed (.foreign f)).bind View.array? = none := by
        rw [World.viewed, view]
        rfl
      rw [other]
      exact coerceToArray_refused formed other
  | _ => exact coerceToArray_refused formed rfl

theorem coerceToObject_decides (formed : w.Formed) (hc : w.outside.realm.Has c)
    (commits : w.shownStands value (w.outside.realm.shape c) = true →
      ∀ f, value = .foreign f → w.Commits f.place) :
    Decides w ts position
      (w.shownStands value (w.outside.realm.shape c) ||
        value.asText?.isSome && w.stringStands (w.outside.realm.shape c))
      fun bodies => coerceToObject bodies ts value c position := by
  unfold coerceToObject
  cases text : value.asText? with
  | some written =>
    have shows : w.shown value = none := by
      cases value with
      | text => rfl
      | _ => cases text
    obtain ⟨v, later, asked⟩ := stringFits_eq (ε := Script.Raised) formed hc
    rw [shownStands_none shows, Option.isSome_some, Bool.true_and, Bool.false_or]
    cases stands : w.stringStands (w.outside.realm.shape c) with
    | true =>
      obtain ⟨converted, u, last, made⟩ := textValue_eq later.formed written
      refine ⟨converted, u, later.trans last, fun bodies => ?_⟩
      dsimp only
      rw [bind_ok asked, stands]
      exact made
    | false =>
      refine ⟨s!"Tried to set a string on an incomparable parameter {position}.", v, later,
        fun bodies => ?_⟩
      dsimp only
      rw [bind_ok asked, stands]
      rfl
  | none =>
    rw [Option.isSome_none, Bool.false_and, Bool.or_false]
    cases shows : w.shown value with
    | none =>
      rw [shownStands_none shows]
      refine ⟨s!"Expected object parameter at {position}.", w, .refl formed, fun bodies => ?_⟩
      dsimp only
      rw [bind_ok (shownObject?_run value), shows]
    | some s =>
      obtain ⟨o, s⟩ := s
      have answer := shown_assignable formed hc shows
      cases stands : w.shownStands value (w.outside.realm.shape c) with
      | true =>
        cases value with
        | foreign f =>
          obtain ⟨v, later, released⟩ := releasePin_eq formed (commits stands f rfl) ts
          refine ⟨.ref o, v, later, fun bodies => ?_⟩
          dsimp only
          rw [bind_ok (shownObject?_run _), shows]
          dsimp only
          rw [bind_ok (assignable_run s c), answer, stands, if_pos rfl, bind_ok (released bodies)]
          rfl
        | _ => cases shows
      | false =>
        refine ⟨s!"Incorrect object type at {position}.", w, .refl formed, fun bodies => ?_⟩
        dsimp only
        rw [bind_ok (shownObject?_run _), shows]
        dsimp only
        rw [bind_ok (assignable_run s c), answer, stands]
        rfl

/-- What shows no class is refused. -/
theorem coerceToType_refused (formed : w.Formed) (present : value.isNone = false)
    (other : (w.viewed value).bind View.mirror? = none) :
    Decides w ts position false fun bodies => coerce bodies ts value c .type position := by
  refine ⟨s!"Expected class parameter at {position}.", w, .refl formed, fun bodies => ?_⟩
  unfold coerce
  dsimp only
  rw [bind_ok (viewOf?_run value)]
  generalize w.viewed value = viewed at other ⊢
  cases value with
  | none => cases present
  | _ =>
    cases viewed with
    | none => rfl
    | some view =>
      cases view with
      | type => cases other
      | object | array | method => rfl

theorem coerceToType_decides (formed : w.Formed) :
    Decides w ts position (w.fits value t .type)
      fun bodies => coerce bodies ts value c .type position := by
  cases value with
  | none => exact ⟨.null, w, .refl formed, fun _ => rfl⟩
  | foreign f =>
    cases view : w.viewAt f.place with
    | type described mirror =>
      have viewed : w.viewed (.foreign f) = some (.type described mirror) := by
        rw [World.viewed, view]
      have fits : w.fits (.foreign f) t .type = true := by
        simp only [World.fits, viewed]
        rfl
      rw [fits]
      refine ⟨.ref mirror, w, .refl formed, fun bodies => ?_⟩
      unfold coerce
      dsimp only
      rw [bind_ok (viewOf?_run _), viewed]
      rfl
    | object | array | method =>
      have other : (w.viewed (.foreign f)).bind View.mirror? = none := by
        rw [World.viewed, view]
        rfl
      have fits : w.fits (.foreign f) t .type = false := by
        simp only [World.fits, other]
        rfl
      rw [fits]
      exact coerceToType_refused formed rfl other
  | _ => exact coerceToType_refused formed rfl rfl

/-- A primitive is converted if it can be at all. -/
theorem primitive_decides (formed : w.Formed) (kind : Kind) (message : String) :
    Decides w ts position (primitiveOf? kind value).isSome fun _ =>
      match primitiveOf? kind value with
      | some converted => pure converted
      | none => mismatch ts position message := by
  cases primitiveOf? kind value with
  | some converted => exact ⟨converted, w, .refl formed, fun _ => rfl⟩
  | none => exact ⟨message, w, .refl formed, fun _ => rfl⟩

/-- Nothing stands for every reference. -/
theorem Decides.orNull (formed : w.Formed) {fits : Bool} {step : Bodies World → BridgeM Host.Value}
    (h : value.isNone = false → Decides w ts position fits step) :
    Decides w ts position (value.isNone || fits)
      fun bodies => if value.isNone then return .null else step bodies := by
  cases absent : value.isNone with
  | true => exact ⟨.null, w, .refl formed, fun _ => rfl⟩
  | false => exact h absent

/-- A value is converted for a parameter exactly if it fits it. Only as an array or as an object
does it have to give a pin back. -/
theorem coerce_decides (formed : w.Formed) (hc : w.outside.realm.Has c) {kind : Kind}
    (kinds : w.kindAt (w.outside.realm.shape c) = .ok kind)
    (commits : kind = .array ∨ kind = .object → w.fits value (w.outside.realm.shape c) kind = true →
      ∀ f, value = .foreign f → w.Commits f.place) :
    Decides w ts position (w.fits value (w.outside.realm.shape c) kind)
      fun bodies => coerce bodies ts value c kind position := by
  cases kind with
  | string =>
    unfold World.fits
    dsimp only
    rw [Bool.or_assoc]
    exact .orNull formed fun _ => coerceToString_decides formed hc kinds
  | array =>
    refine .orNull formed fun _ => coerceToArray_decides formed hc fun fits =>
      commits (.inl rfl) ?_
    rw [World.fits, fits, Bool.or_true]
  | type => exact coerceToType_decides formed
  | object =>
    unfold World.fits at commits ⊢
    dsimp only at commits ⊢
    rw [Bool.or_assoc]
    refine .orNull formed fun _ => coerceToObject_decides formed hc fun stands =>
      commits (.inr rfl) ?_
    rw [stands, Bool.or_true, Bool.true_or]
  | void => exact ⟨_, w, .refl formed, fun _ => rfl⟩
  | char => exact primitive_decides formed .char _
  | byte => exact primitive_decides formed .byte _
  | short => exact primitive_decides formed .short _
  | int => exact primitive_decides formed .int _
  | long => exact primitive_decides formed .long _
  | float => exact primitive_decides formed .float _
  | double => exact primitive_decides formed .double _
  | boolean => exact primitive_decides formed .boolean _

end ScriptBridge.Bridge
