import ScriptBridge.Proofs.Overloads.Resolution

/-!
# Matching decides coercion

An overload is chosen by what the arguments match, and only then are the arguments converted. The
two must not disagree: what matches is converted, unless an array has changed its length under a
written pin, and what does not match is refused by its position, with every object of the Host and
every pin as they were. So the overload that is chosen takes its arguments, and one that is passed
over could not have taken them.
-/

namespace ScriptBridge.Bridge

open Host (ClassId ObjectId Realm Bodies HostM Method onRealm)
open Script (InterpreterId)

variable {ε α β : Type} {w v u : World} {c : ClassId} {kind : Kind} {ts : InterpreterId}
  {position : Nat} {value : Script.Value} {m : Method} {args : List Script.Value}

/-! ### What a refusal leaves alone -/

/-- There may be more objects, but those that there were hold what they held, and views and static
fields are the same. -/
structure Undisturbed (w v : World) : Prop where
  proxies : v.outside.proxies = w.outside.proxies
  statics : v.outside.realm.statics = w.outside.realm.statics
  held : ∀ o, w.outside.realm.Holds o → v.outside.realm.Holds o
  objects : ∀ o, w.outside.realm.Holds o → v.outside.realm.object o = w.outside.realm.object o

namespace Undisturbed

theorem refl (w : World) : Undisturbed w w := ⟨rfl, rfl, fun _ h => h, fun _ _ => rfl⟩

theorem trans (h : Undisturbed w v) (h' : Undisturbed v u) : Undisturbed w u where
  proxies := h'.proxies.trans h.proxies
  statics := h'.statics.trans h.statics
  held o ho := h'.held o (h.held o ho)
  objects o ho := (h'.objects o (h.held o ho)).trans (h.objects o ho)

theorem of_same (proxies : v.outside.proxies = w.outside.proxies)
    (statics : v.outside.realm.statics = w.outside.realm.statics)
    (objects : v.outside.realm.objects = w.outside.realm.objects) : Undisturbed w v where
  proxies := proxies
  statics := statics
  held o ho := by rwa [Realm.Holds, objects]
  objects o _ := by rw [Realm.object, objects, Realm.object]

/-- A new object takes no other one's place. -/
theorem allocate (w : World) (c : ClassId) (payload : Host.Payload) :
    Undisturbed w (w.onRealm (Realm.allocate c payload w.outside.realm).2) where
  proxies := rfl
  statics := rfl
  held o ho := by
    show o.index < (w.outside.realm.objects.push _).size
    rw [Array.size_push]
    exact Nat.lt_succ_of_lt ho
  objects o ho := by
    show ((w.outside.realm.objects.push _)[o.index]?).getD default = _
    rw [Array.getElem?_push, if_neg (Nat.ne_of_lt ho)]
    rfl

end Undisturbed

/-- The step disturbs nothing, however it ends. -/
def Gentle (step : EStateM ε World α) : Prop := ∀ w, Undisturbed w (World.after (step w))

namespace Gentle

theorem pure (a : α) : Gentle (Pure.pure a : EStateM ε World α) := fun w => .refl w

theorem throw (e : ε) : Gentle (MonadExcept.throw e : EStateM ε World α) := fun w => .refl w

theorem bind {step : EStateM ε World α} {next : α → EStateM ε World β} (h : Gentle step)
    (h' : ∀ a, Gentle (next a)) : Gentle (step >>= next) := by
  intro w
  have first := h w
  cases ended : step w with
  | ok a v =>
    rw [bind_ok ended]
    rw [ended] at first
    exact first.trans (h' a v)
  | error e v =>
    rw [bind_error ended]
    rwa [ended] at first

theorem attempt {step : EStateM ε World α} (h : Gentle step) {ε' : Type} :
    Gentle (Script.attempt step : EStateM ε' World (Except ε α)) := by
  intro w
  have tried := h w
  cases ended : step w with
  | ok a v =>
    rw [attempt_ok ended]
    rwa [ended] at tried
  | error e v =>
    rw [attempt_error ended]
    rwa [ended] at tried

theorem mirror (c : ClassId) : Gentle (onRealm (Realm.mirror c) : EStateM ε World ObjectId) := by
  intro w
  have result : World.after ((onRealm (Realm.mirror c) : EStateM ε World ObjectId) w) =
      w.onRealm (Realm.mirror c w.outside.realm).2 := rfl
  rw [result]
  unfold Realm.mirror
  simp only [Bind.bind, StateT.bind, MonadState.get, getThe, MonadStateOf.get, StateT.get,
    Pure.pure]
  cases w.outside.realm.mirrors.lookup c with
  | some o => exact .refl w
  | none => exact (Undisturbed.allocate w _ (.mirror c)).trans (.of_same rfl rfl rfl)

theorem publishedPrimitive (c : ClassId) :
    Gentle (Bridge.publishedPrimitive c : EStateM ε World _) := by
  intro w
  rw [publishedPrimitive_eq]
  exact .refl w

/-- The names of tokens are no names of array classes, so no class is made for them. -/
theorem lookupToken (name : TokenName) :
    Gentle (onRealm (Realm.lookupClass? name.className) : EStateM ε World _) := by
  intro w
  rw [onRealm_run (name.lookupClass?_className w.outside.realm)]
  exact .refl w

theorem newGlobalRef (o : ObjectId) :
    Gentle (onRealm (Realm.newGlobalRef o) : EStateM ε World _) := fun _ => .of_same rfl rfl rfl

theorem load (name : TokenName) : Gentle (name.load : EStateM ε World _) := by
  refine .bind (lookupToken name) fun found => ?_
  cases found with
  | none => exact .bind (fun _ => .of_same rfl rfl rfl) fun _ => .pure _
  | some c =>
    refine .bind (mirror c) fun mirror => .bind (newGlobalRef mirror) fun first => ?_
    split
    · refine .bind (publishedPrimitive c) fun publishes => ?_
      cases publishes with
      | error reason => exact .pure _
      | ok found => exact .bind (newGlobalRef found.2) fun second => .pure _
    · exact .pure _

theorem answer (name : TokenName) (slot : Except String TypeToken) :
    Gentle (match slot with
      | .ok token => Pure.pure token
      | .error reason => MonadExcept.throw ⟨name, reason⟩ : EStateM Unavailable World _) := by
  cases slot with
  | ok token => exact .pure token
  | error reason => exact .throw _

theorem resolve (name : TokenName) : Gentle (Bridge.resolve name : EStateM _ World TypeToken) := by
  refine .bind (fun w => .refl w) fun types => ?_
  cases types.lookup name with
  | some slot => exact answer name slot
  | none =>
    simp only [pure_bind]
    exact .bind (load name) fun slot =>
      .bind (fun _ => .of_same rfl rfl rfl) fun _ => answer name slot

theorem stringClass? : Gentle (Bridge.stringClass? : EStateM ε World (Option ClassId)) := by
  refine .bind (resolve .string).attempt fun found => ?_
  cases found with
  | ok token => exact .pure _
  | error e => exact .pure _

theorem assignable (source target : ClassId) :
    Gentle (Bridge.assignable source target : EStateM ε World Bool) := fun w => .refl w

theorem stringFits (param : ClassId) : Gentle (Bridge.stringFits param : EStateM ε World Bool) := by
  refine .bind stringClass? fun found => ?_
  cases found with
  | some string => exact assignable string param
  | none => exact .pure false

theorem viewOf? (value : Script.Value) : Gentle (Bridge.viewOf? value : EStateM ε World _) := by
  intro w
  rw [viewOf?_run]
  exact .refl w

theorem shownObject? (value : Script.Value) :
    Gentle (Bridge.shownObject? value : EStateM ε World _) := by
  intro w
  rw [shownObject?_run]
  exact .refl w

theorem mismatch (position : Nat) (message : String) :
    Gentle (Bridge.mismatch ts position message : BridgeM α) :=
  .bind (fun _ => .of_same rfl rfl rfl) fun _ => .throw _

theorem textValue (text : String) : Gentle (Bridge.textValue text) :=
  .bind (fun w => .allocate w _ (.text text)) fun _ => .pure _

theorem coerceToString (ts : InterpreterId) (value : Script.Value) (position : Nat) :
    Gentle (Bridge.coerceToString ts value position) := by
  unfold Bridge.coerceToString
  split
  · exact textValue _
  · refine .bind (shownObject? value) fun object => .bind stringClass? fun string => ?_
    split
    · refine .bind (assignable _ _) fun stands => ?_
      split
      · exact .pure _
      · exact mismatch _ _
    · exact mismatch _ _

end Gentle

theorem coerceToArray_undisturbed (formed : w.Formed) (hc : w.outside.realm.Has c)
    (unfit : (((w.viewed value).bind View.array?).isSome &&
      w.shownStands value (w.outside.realm.shape c)) = false) (bodies : Bodies World) :
    Undisturbed w (World.after (coerceToArray bodies ts value c position w)) := by
  have refused (message : String) :
      Undisturbed w (World.after ((mismatch ts position message : BridgeM Host.Value) w)) :=
    Gentle.mismatch position message w
  unfold coerceToArray
  rw [bind_ok (viewOf?_run value)]
  cases value with
  | foreign f =>
    cases viewed : w.viewed (.foreign f) with
    | none => exact refused _
    | some view =>
      cases view with
      | array o component pin =>
        have shows : w.shown (.foreign f) = some (o, w.outside.realm.classIdOf o) := by
          rw [World.shown, viewed]
          rfl
        rw [viewed, Option.bind_some, View.array?, Option.isSome_some, Bool.true_and] at unfit
        dsimp only
        rw [bind_ok (getRealm_run w), bind_ok (assignable_run _ c),
          shown_assignable formed hc shows, unfit]
        exact refused _
      | object | type | method => exact refused _
  | _ => exact refused _

theorem coerceToObject_undisturbed (formed : w.Formed) (hc : w.outside.realm.Has c)
    (unfit : w.shownStands value (w.outside.realm.shape c) = false) (bodies : Bodies World) :
    Undisturbed w (World.after (coerceToObject bodies ts value c position w)) := by
  have refused (message : String) :
      Undisturbed w (World.after ((mismatch ts position message : BridgeM Host.Value) w)) :=
    Gentle.mismatch position message w
  unfold coerceToObject
  cases text : value.asText? with
  | some written =>
    refine Gentle.bind (Gentle.stringFits c) (fun stands => ?_) w
    split
    · exact .textValue _
    · exact .mismatch _ _
  | none =>
    dsimp only
    rw [bind_ok (shownObject?_run value)]
    cases shows : w.shown value with
    | none => exact refused _
    | some s =>
      obtain ⟨o, s⟩ := s
      dsimp only
      rw [bind_ok (assignable_run s c), shown_assignable formed hc shows, unfit]
      exact refused _

/-- The conversion of a primitive reads nothing. -/
theorem Gentle.orMismatch (converted : Option Host.Value) (message : String) :
    Gentle (match converted with
      | some converted => Pure.pure converted
      | none => Bridge.mismatch ts position message : BridgeM Host.Value) := by
  cases converted with
  | some converted => exact .pure converted
  | none => exact .mismatch _ _

/-- A conversion changes something of the Host only where it gives a pin back, for an argument that
fits. -/
theorem coerce_undisturbed (formed : w.Formed) (hc : w.outside.realm.Has c)
    (unfit : w.fits value (w.outside.realm.shape c) kind = false) (bodies : Bodies World) :
    Undisturbed w (World.after (coerce bodies ts value c kind position w)) := by
  cases kind with
  | string =>
    unfold coerce
    dsimp only
    split
    · exact .refl w
    · exact Gentle.coerceToString ts value position w
  | array =>
    rw [World.fits, Bool.or_eq_false_iff] at unfit
    unfold coerce
    dsimp only
    rw [if_neg (by simp [unfit.1])]
    exact coerceToArray_undisturbed formed hc unfit.2 bodies
  | type =>
    refine Gentle.bind (Gentle.viewOf? value) (fun view => ?_) w
    split
    · exact .pure _
    · exact .pure _
    · exact .mismatch _ _
  | object =>
    rw [World.fits, Bool.or_eq_false_iff, Bool.or_eq_false_iff] at unfit
    unfold coerce
    dsimp only
    rw [if_neg (by simp [unfit.1.1])]
    exact coerceToObject_undisturbed formed hc unfit.1.2 bodies
  | void => exact Gentle.mismatch _ _ w
  | char | byte | short | int | long | float | double | boolean => exact Gentle.orMismatch _ _ w

/-! ### Pins that cannot be given back -/

/-- Views of arrays show arrays. -/
def World.Arrayed (w : World) : Prop :=
  ∀ place o component pin, w.viewAt place = .array o component pin →
    ∃ items, w.outside.realm.payload o = .array items

/-- The value is a view of an array whose pin was written, and the array has got another length
than the pin. -/
def World.Resized (w : World) (value : Script.Value) : Prop :=
  ∃ f o component pin items, value = .foreign f ∧
    w.viewAt f.place = .array o component (some pin) ∧ pin.changed = true ∧
    w.outside.realm.payload o = .array items ∧ items.length ≠ pin.items.length

theorem World.Arrayed.commits (arrayed : w.Arrayed) (sized : ¬w.Resized value) :
    ∀ f, value = .foreign f → w.Commits f.place := by
  intro f hf o component pin view
  obtain ⟨items, array⟩ := arrayed f.place o component _ view
  refine ⟨items, array, fun changed => ?_⟩
  by_contra other
  exact sized ⟨f, o, component, pin, items, hf, view, changed, array, other⟩

theorem Descends.arrayed (h : Descends w v) (formed : w.Formed) (arrayed : w.Arrayed) :
    v.Arrayed := by
  intro place o component pin view
  have released := h.views place
  rw [view] at released
  have shows : (w.viewAt place).object? = some o := by
    rw [← released.object?]
    rfl
  obtain ⟨pin', was⟩ : ∃ pin', w.viewAt place = .array o component pin' := by
    cases was : w.viewAt place with
    | array o' component' pin' =>
      rw [was] at released
      rcases released with same | same
      · exact ⟨pin, same ▸ rfl⟩
      · cases same
        exact ⟨pin', rfl⟩
    | object | type | method =>
      rw [was] at released
      cases released
  obtain ⟨items, array⟩ := arrayed place o component pin' was
  obtain ⟨items', is, -⟩ := (array ▸ h.realm.payloads o (formed.views place o shows).1).of_array
  exact ⟨items', is⟩

/-- Pins are not resized by what goes on without calls of the Host. -/
theorem Descends.resized (h : Descends w v) (formed : w.Formed) (resized : v.Resized value) :
    w.Resized value := by
  obtain ⟨f, o, component, pin, items, rfl, view, changed, array, other⟩ := resized
  have same := (view ▸ h.views f.place).pinned
  have held := (formed.views f.place o (by rw [same]; rfl)).1
  obtain ⟨items', was, length⟩ := (array ▸ h.realm.payloads o held).array
  exact ⟨f, o, component, pin, items', rfl, same, changed, was, length ▸ other⟩

theorem commits_of_coerceToArray {bodies : Bodies World} {f : Script.Foreign} {o : Host.Value}
    (h : coerceToArray bodies ts (.foreign f) c position w = .ok o v) : w.Commits f.place := by
  intro o component pin view
  have viewed : w.viewed (.foreign f) = some (.array o component (some pin)) := by
    rw [World.viewed, view]
  unfold coerceToArray at h
  rw [bind_ok (viewOf?_run _), viewed] at h
  dsimp only at h
  rw [bind_ok (getRealm_run w), bind_ok (assignable_run _ c)] at h
  split at h
  · obtain ⟨_, u, released, -⟩ := ok_of_bind h
    exact commits_of_releasePin released o component pin view
  · cases h

theorem commits_of_coerceToObject {bodies : Bodies World} {f : Script.Foreign} {o : Host.Value}
    (h : coerceToObject bodies ts (.foreign f) c position w = .ok o v) : w.Commits f.place := by
  unfold coerceToObject at h
  dsimp only [Script.Value.asText?] at h
  rw [bind_ok (shownObject?_run _)] at h
  cases shows : w.shown (.foreign f) with
  | none =>
    rw [shows] at h
    cases h
  | some s =>
    obtain ⟨o, s⟩ := s
    rw [shows] at h
    dsimp only at h
    rw [bind_ok (assignable_run s c)] at h
    split at h
    · obtain ⟨_, u, released, -⟩ := ok_of_bind h
      exact commits_of_releasePin released
    · cases h

/-- A conversion that succeeds is that of an argument that fits. -/
theorem fits_of_coerce (formed : w.Formed) (hc : w.outside.realm.Has c)
    (kinds : w.kindAt (w.outside.realm.shape c) = .ok kind) {bodies : Bodies World}
    {converted : Host.Value} (h : coerce bodies ts value c kind position w = .ok converted v) :
    w.fits value (w.outside.realm.shape c) kind = true ∧ Descends w v := by
  have commits : kind = .array ∨ kind = .object →
      w.fits value (w.outside.realm.shape c) kind = true →
      ∀ f, value = .foreign f → w.Commits f.place := by
    rintro (rfl | rfl) - f rfl
    · exact commits_of_coerceToArray h
    · exact commits_of_coerceToObject h
  have decides : Decides w ts position (w.fits value (w.outside.realm.shape c) kind)
      fun bodies => coerce bodies ts value c kind position :=
    coerce_decides formed hc kinds commits
  cases fits : w.fits value (w.outside.realm.shape c) kind with
  | true =>
    rw [fits] at decides
    obtain ⟨_, u, later, made⟩ := decides
    cases h.symm.trans (made bodies)
    exact ⟨rfl, later⟩
  | false =>
    rw [fits] at decides
    obtain ⟨message, u, -, refused⟩ := decides
    cases h.symm.trans (refused bodies)

/-- By induction on the arguments: all of them are converted only if all of them fit. -/
theorem allFit_of_coerceAll (formed : w.Formed) {names : List String} {classes : List ClassId}
    (stand : Stand w names classes) (classifies : ∀ name ∈ names, w.Classifies name)
    {bodies : Bodies World} {converted : List Host.Value}
    (h : coerceAll bodies ts position (args.zip classes) w = .ok converted v) :
    w.allFit args names = true := by
  induction args generalizing w v names classes position converted with
  | nil => rfl
  | cons value rest ih =>
    cases names with
    | nil => rfl
    | cons name names =>
      obtain ⟨c, others, rfl, hc, known, below⟩ := stand.cons_inv
      obtain ⟨kind, kinds, fits⟩ := (classifies name (by simp)).at_class known
      obtain ⟨u, later, classified⟩ := kindOf_eq formed hc kinds ts
      have same := later.realm.shape formed.coherent hc
      rw [List.zip_cons_cons, coerceAll, bind_ok classified] at h
      obtain ⟨first, x, made, h⟩ := ok_of_bind h
      obtain ⟨more, y, made_more, -⟩ := ok_of_bind h
      obtain ⟨fit, last⟩ := fits_of_coerce later.formed (later.realm.kept c hc)
        (by rw [same, later.kindAt formed (hc.bottom formed.coherent), kinds]) made
      have soon := later.trans last
      have fit_rest := ih soon.formed (soon.stand formed below) (fun other hother =>
        soon.classifies formed (classifies other (List.mem_cons_of_mem _ hother))) made_more
      rw [same, later.fits formed (hc.bottom formed.coherent), ← fits] at fit
      rw [soon.allFit formed] at fit_rest
      simp only [World.allFit, List.zip_cons_cons, List.all_cons] at fit_rest ⊢
      rw [fit, fit_rest, Bool.and_self]

/-! ### The two agree -/

/-- The step has a result, and no body of the Host has a part in it. -/
def Converts (step : Bodies World → BridgeM α) (w : World) : Prop :=
  ∃ converted v, ∀ bodies, step bodies w = .ok converted v

/-- The step fails with a type error that carries the position, and disturbs nothing. -/
def RefusesAt (ts : InterpreterId) (position : Nat) (step : Bodies World → BridgeM α) (w : World) :
    Prop :=
  ∃ e v, e.type = .builtin .type ∧ e.detail = some (.position position) ∧
    (v.memory.interpreter ts).error = some e ∧ Undisturbed w v ∧
    ∀ bodies, step bodies w = .error {} v

/-- An error that is raised is then pending. -/
theorem pending_of_raise (made : ts.place < w.memory.interpreters.size) (e : Script.Exception) :
    ((w.withError ts fun _ => some e).memory.interpreter ts).error = some e := by
  have there : w.memory.interpreters[ts.place]? = some w.memory.interpreters[ts.place] :=
    Array.getElem?_eq_getElem made
  simp [World.withError, Script.World.onMemory, Script.Memory.onInterpreter,
    Script.Memory.interpreter, Array.getElem?_modify, there]

theorem coerce_refuses (formed : w.Formed) (made : ts.place < w.memory.interpreters.size)
    (hc : w.outside.realm.Has c) (kinds : w.kindAt (w.outside.realm.shape c) = .ok kind)
    (unfit : w.fits value (w.outside.realm.shape c) kind = false) :
    RefusesAt ts position (coerce · ts value c kind position) w := by
  have decides : Decides w ts position (w.fits value (w.outside.realm.shape c) kind)
      fun bodies => coerce bodies ts value c kind position :=
    coerce_decides formed hc kinds fun _ fits => absurd fits (by simp [unfit])
  rw [unfit] at decides
  obtain ⟨message, u, later, refused⟩ := decides
  have idle : Bodies World := ⟨fun _ _ _ => throw .pending, fun _ _ _ => throw .pending⟩
  have quiet :
      Undisturbed w (World.after (mismatch ts position message u : EStateM.Result _ _ Host.Value)) := by
    rw [← refused idle]
    exact coerce_undisturbed formed hc unfit idle
  refine ⟨_, _, rfl, rfl, pending_of_raise ?_ _, quiet, refused⟩
  rwa [later.made]

theorem coerce_converts (formed : w.Formed) (arrayed : w.Arrayed) (hc : w.outside.realm.Has c)
    (kinds : w.kindAt (w.outside.realm.shape c) = .ok kind)
    (fits : w.fits value (w.outside.realm.shape c) kind = true) (sized : ¬w.Resized value) :
    Converts (coerce · ts value c kind position) w := by
  have decides : Decides w ts position (w.fits value (w.outside.realm.shape c) kind)
      fun bodies => coerce bodies ts value c kind position :=
    coerce_decides formed hc kinds fun _ _ => arrayed.commits sized
  rw [fits] at decides
  obtain ⟨converted, v, -, made⟩ := decides
  exact ⟨converted, v, made⟩

/-- Conversion goes by what matching has answered about a value, in every later state and at every
position. -/
def FollowsMatch (ts : InterpreterId) (value : Script.Value) (c : ClassId) (kind : Kind)
    (matched : Bool) (w : World) : Prop :=
  ∀ v position, Descends w v →
    (matched = false → RefusesAt ts position (coerce · ts value c kind position) v) ∧
    (matched = true → ¬v.Resized value → Converts (coerce · ts value c kind position) v)

/-- The conversion of all arguments goes by what matching has answered about them. -/
def FollowsMatches (ts : InterpreterId) (m : Method) (args : List Script.Value) (matched : Bool)
    (w : World) : Prop :=
  ∀ v, Descends w v →
    (matched = false →
      ∀ bodies converted y, coerceArguments bodies ts m args v ≠ .ok converted y) ∧
    (matched = true → (∀ arg ∈ args, ¬v.Resized arg) → Converts (coerceArguments · ts m args) v)

theorem followsMatch (formed : w.Formed) (arrayed : w.Arrayed)
    (made : ts.place < w.memory.interpreters.size) (hc : w.outside.realm.Has c)
    (kinds : w.kindAt (w.outside.realm.shape c) = .ok kind) (value : Script.Value) :
    FollowsMatch ts value c kind (w.fits value (w.outside.realm.shape c) kind) w := by
  intro v position later
  have has := later.realm.kept c hc
  have shape := later.realm.shape formed.coherent hc
  have bottom := hc.bottom formed.coherent
  have kinds' : v.kindAt (v.outside.realm.shape c) = .ok kind := by
    rw [shape, later.kindAt formed bottom, kinds]
  rw [← later.fits formed bottom, ← shape]
  refine ⟨fun unfit => ?_, fun fits sized => ?_⟩
  · exact coerce_refuses later.formed (by rwa [later.made]) has kinds' unfit
  · exact coerce_converts later.formed (later.arrayed formed arrayed) has kinds' fits sized

theorem followsMatches (formed : w.Formed) (arrayed : w.Arrayed) (arity : m.arity = args.length)
    (classifies : ∀ name ∈ m.params, w.Classifies name) (ts : InterpreterId) :
    FollowsMatches ts m args (w.allFit args m.params) w := by
  intro v later
  have known : ∀ name ∈ m.params, v.Classifies name := fun name hname =>
    later.classifies formed (classifies name hname)
  rw [← later.allFit formed]
  refine ⟨fun unfit bodies converted y convert => ?_, fun fit sized => ?_⟩
  · obtain ⟨classes, u, last, found, stand⟩ := findClasses_eq later.formed known
    rw [coerceArguments_found arity found] at convert
    have fits := allFit_of_coerceAll last.formed stand (fun name hname =>
      last.classifies later.formed (known name hname)) convert
    rw [last.allFit later.formed, unfit] at fits
    cases fits
  · have commits := fun f hf => (later.arrayed formed arrayed).commits (sized (.foreign f) hf) f rfl
    have converts := coerceArguments_eq ⟨later.formed, known, commits⟩ arity ts
    rw [fit] at converts
    obtain ⟨converted, y, -, converts⟩ := converts
    exact ⟨converted, y, converts⟩

theorem FollowsMatch.later {matched : Bool} (h : FollowsMatch ts value c kind matched w)
    (later : Descends w v) : FollowsMatch ts value c kind matched v :=
  fun u position last => h u position (later.trans last)

theorem FollowsMatches.later {matched : Bool} (h : FollowsMatches ts m args matched w)
    (later : Descends w v) : FollowsMatches ts m args matched v :=
  fun u last => h u (later.trans last)

/-- A parameter of any kind is asked whether a value matches it, and conversion goes by the answer;
and the parameters of a method are asked about as many arguments. -/
theorem matching_decides_coercion (formed : w.Formed) (arrayed : w.Arrayed)
    (made : ts.place < w.memory.interpreters.size) :
    (∀ value c kind u, w.outside.realm.Has c → kindOf ts c w = .ok kind u →
      ∃ matched x, (matchesParam value c kind : BridgeM Bool) u = .ok matched x ∧
        FollowsMatch ts value c kind matched x) ∧
    ∀ m args, m.arity = args.length → (∀ name ∈ m.params, Classified ts w name) →
      ∃ classes u matched x, (Host.findClasses m.params : HostM World _) w = .ok classes u ∧
        argumentsFit ts (args.zip classes) u = .ok matched x ∧
        FollowsMatches ts m args matched x := by
  refine ⟨fun value c kind u hc classified => ?_, fun m args arity classified => ?_⟩
  · obtain ⟨kinds, later⟩ := kindAt_of_kindOf formed hc classified
    obtain ⟨x, last, asked⟩ := matchesParam_eq (ε := Script.Raised) later.formed
      (later.realm.kept c hc) value kind
    refine ⟨_, x, asked, ?_⟩
    rw [later.realm.shape formed.coherent hc, later.fits formed (hc.bottom formed.coherent)]
    exact (followsMatch formed arrayed made hc kinds value).later (later.trans last)
  · have classifies : ∀ name ∈ m.params, w.Classifies name := fun name hname =>
      (classified name hname).classifies formed
    obtain ⟨classes, u, later, found, stand⟩ := findClasses_eq formed classifies
    obtain ⟨x, last, asked⟩ := argumentsFit_eq later.formed args stand (fun name hname =>
      later.classifies formed (classifies name hname)) ts
    refine ⟨classes, u, _, x, found, asked, ?_⟩
    rw [later.allFit formed]
    exact (followsMatches formed arrayed arity classifies ts).later (later.trans last)

/-- Checks that views of arrays show arrays. -/
def World.isArrayed (w : World) : Bool :=
  w.outside.proxies.all fun p => p.view.array?.all fun o =>
    match w.outside.realm.payload o with
    | .array _ => true
    | _ => false

theorem World.arrayed_of_isArrayed (h : w.isArrayed = true) : w.Arrayed := by
  intro place o component pin view
  have made : place < w.outside.proxies.size := by
    by_contra missing
    have other : w.viewAt place = (default : Proxy).view := by simp [viewAt, missing]
    cases view.symm.trans other
  have found : w.outside.proxies[place].view = .array o component pin := by
    rw [← view]
    simp [viewAt, made]
  have checked := Array.all_eq_true.mp h place made
  rw [found] at checked
  cases payload : w.outside.realm.payload o with
  | array items => exact ⟨items, rfl⟩
  | _ => simp [View.array?, payload] at checked

/-- The state once a script has got an array of two numbers and has written both. -/
def World.written (w : World) : World :=
  .after ((do
    let o ← Host.onRealm (Realm.newArray ((← Host.getRealm).require "int") [.int 1, .int 2])
    let _ ← viewArray o
    setPin 0 (some ⟨[.int 7, .int 8], true⟩) : BridgeM Unit) w)

/-- The class of arrays of numbers. -/
def World.intArray (w : World) : ClassId :=
  ((w.outside.realm.arrays.lookup (w.outside.realm.require "int")).getD default)

/-- Checks that the pin at a place is as long as its array. -/
def World.isSized (w : World) (place : Nat) : Bool :=
  match w.viewAt place with
  | .array o _ (some pin) =>
    match w.outside.realm.payload o with
    | .array items => items.length == pin.items.length
    | _ => false
  | _ => true

theorem World.sized_of_isSized {f : Script.Foreign} (h : w.isSized f.place = true) :
    ¬w.Resized (.foreign f) := by
  rintro ⟨g, o, component, pin, items, same, view, -, array, other⟩
  cases same
  rw [isSized, view] at h
  dsimp only at h
  rw [array] at h
  exact other (beq_iff_eq.mp h)

/-- What is checked about the array that was written. -/
def World.offersArray (w : World) : Bool :=
  w.isFormed && w.isArrayed && w.isSized 0 && decide (0 < w.memory.interpreters.size) &&
    decide (w.outside.realm.Has w.intArray) &&
    (match w.kindAt (w.outside.realm.shape w.intArray) with
      | .ok kind => kind == .array
      | .error _ => false) &&
    w.fits (.foreign ⟨.array, 0⟩) (w.outside.realm.shape w.intArray) .array

theorem written_offersArray : World.opened.written.offersArray = true := by decide +kernel

theorem matching_decides_coercion_array : ∃ u x,
    kindOf ⟨0⟩ World.opened.written.intArray World.opened.written = .ok .array u ∧
      (matchesParam (.foreign ⟨.array, 0⟩) World.opened.written.intArray .array : BridgeM Bool) u =
        .ok true x ∧
      Converts (coerce · ⟨0⟩ (.foreign ⟨.array, 0⟩) World.opened.written.intArray .array 1) x := by
  have checks := written_offersArray
  generalize World.opened.written = w at checks ⊢
  simp only [World.offersArray, Bool.and_eq_true, decide_eq_true_eq] at checks
  obtain ⟨⟨⟨⟨⟨⟨isFormed, isArrayed⟩, isSized⟩, made⟩, has⟩, isKind⟩, fits⟩ := checks
  have formed := World.formed_of_isFormed isFormed
  have kinds : w.kindAt (w.outside.realm.shape w.intArray) = .ok .array := by
    cases known : w.kindAt (w.outside.realm.shape w.intArray) with
    | ok kind =>
      rw [known] at isKind
      rw [beq_iff_eq.mp isKind]
    | error reason =>
      rw [known] at isKind
      cases isKind
  obtain ⟨u, later, classified⟩ := kindOf_eq formed has kinds ⟨0⟩
  obtain ⟨matched, x, asked, follows⟩ :=
    (matching_decides_coercion formed (World.arrayed_of_isArrayed isArrayed) made).1
      (.foreign ⟨.array, 0⟩) w.intArray .array u has classified
  obtain ⟨x', last, answered⟩ := matchesParam_eq (ε := Script.Raised) later.formed
    (later.realm.kept _ has) (.foreign ⟨.array, 0⟩) .array
  rw [later.realm.shape formed.coherent has, later.fits formed (has.bottom formed.coherent), fits]
    at answered
  cases asked.symm.trans answered
  have sized : ¬x.Resized (.foreign ⟨.array, 0⟩) := fun resized =>
    World.sized_of_isSized isSized ((later.trans last).resized formed resized)
  exact ⟨u, x, classified, asked, (follows x 1 (.refl last.formed)).2 rfl sized⟩

end ScriptBridge.Bridge
