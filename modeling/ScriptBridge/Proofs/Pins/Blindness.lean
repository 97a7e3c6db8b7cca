import ScriptBridge.Proofs.Pins.Unseeing

/-!
# Steps that do not look at an array

While a view of an array has a pin, a script sees the elements of the pin, and the array may still
hold older ones. In the direct state nobody has copied anything and the array holds what the script
sees. A step is blind if it does the same in the direct state, and leaves what the script sees as
it is. Steps that concern neither the array nor its views are blind, and so is what is made of
them.
-/

namespace ScriptBridge.Bridge

open Host (ClassId ObjectId GlobalRef Realm Body)
open Script (InterpreterId Memory Raised)

variable {ε α β : Type} {w v u : World} {items : List Host.Value}

theorem modify_eq_self {xs : Array α} {i : Nat} {f : α → α}
    (same : ∀ inside : i < xs.size, f xs[i] = xs[i]) : xs.modify i f = xs := by
  refine Array.ext Array.size_modify fun j _ inside => ?_
  rw [Array.getElem_modify]
  by_cases self : i = j
  · subst self
    rw [if_pos rfl, same]
  · rw [if_neg self]

/-- What a script holds, with another pin. -/
def Proxy.repinned (pin : Option Pin) (p : Proxy) : Proxy :=
  { p with view := p.view.repinned pin }

theorem setPin_eq (place : Nat) (pin : Option Pin) :
    (setPin place pin : EStateM ε World Unit) = modifyProxy place (·.repinned pin) := by
  refine congrArg (modifyProxy place) (funext fun p => ?_)
  obtain ⟨view, held⟩ := p
  cases view <;> rfl

theorem proxies_repinned (w : World) (place : Nat) (pin : Option Pin) :
    (w.repinned place pin).outside.proxies = w.outside.proxies.modify place (·.repinned pin) := by
  unfold World.repinned
  rw [setPin_eq]
  rfl

/-- What the bridge keeps, with other objects and other views. -/
def State.exchanged (objects : Array Host.Object) (proxies : Array Proxy) (s : State) : State :=
  { s with realm := { s.realm with objects }, proxies }

theorem views_iff {o : ObjectId} {place : Nat} :
    w.Views o place ↔ (w.viewAt place).array? = some o := by
  unfold World.Views
  cases w.viewAt place <;> simp [View.array?]

theorem pinAt_iff {o : ObjectId} {place : Nat} {pin : Pin} :
    w.pinAt o place = some pin ↔ (w.viewAt place).pin? = some (o, pin) := by
  unfold World.pinAt
  cases w.viewAt place with
  | array o' component old =>
    cases old with
    | none => simp [View.pin?]
    | some old =>
      by_cases same : o' = o
      · subst same
        simp [View.pin?]
      · simp [View.pin?, same]
  | object | type | method => simp [View.pin?]

theorem lt_of_views {o : ObjectId} {place : Nat} (here : w.Views o place) :
    place < w.outside.proxies.size := by
  by_contra outside
  obtain ⟨component, pin, view⟩ := here
  rw [World.viewAt, Array.getElem?_eq_none (Nat.le_of_not_lt outside)] at view
  cases view

theorem repinned_eq {o : ObjectId} {place : Nat} {component : Option (ClassId × Kind)}
    {pin : Option Pin} (view : w.viewAt place = .array o component pin) :
    w.repinned place pin = w := by
  have proxies : (w.repinned place pin).outside.proxies = w.outside.proxies := by
    rw [proxies_repinned]
    refine modify_eq_self fun inside => ?_
    rw [World.viewAt, Array.getElem?_eq_getElem inside, Option.getD_some] at view
    generalize w.outside.proxies[place] = p at view
    obtain ⟨_, held⟩ := p
    cases view
    rfl
  show (⟨w.memory, { w.outside with proxies := (w.repinned place pin).outside.proxies }⟩ : World) = w
  rw [proxies]

theorem filling_eq {o : ObjectId} (known : w.elements? o = some items) : w.filling o items = w := by
  have objects : (w.outside.realm.holding o items).objects = w.outside.realm.objects := by
    rw [Realm.objects_holding]
    refine modify_eq_self fun inside => ?_
    have payload := elements?_eq_some.mp known
    rw [Realm.payload, Realm.object, Array.getElem?_eq_getElem inside, Option.getD_some] at payload
    rw [← payload]
  show (⟨w.memory, { w.outside with realm := { w.outside.realm with
    objects := (w.outside.realm.holding o items).objects } }⟩ : World) = w
  rw [objects]

/-- The state with other views. -/
def World.viewing (proxies : Array Proxy) (w : World) : World :=
  ⟨w.memory, { w.outside with proxies }⟩

/-- A view of an array, and what methods of the Host may run when they are asked without
arguments. -/
structure Viewpoint where
  array : ObjectId
  place : Nat
  allowed : Body → Prop

namespace Viewpoint

/-- The state in which the view has no copy and the array itself holds the elements. -/
def direct (V : Viewpoint) (items : List Host.Value) (w : World) : World :=
  (w.repinned V.place none).filling V.array items

/-- A script that looks through the view sees the elements. Other views of the array have not
changed theirs. -/
structure Shows (V : Viewpoint) (items : List Host.Value) (w : World) : Prop where
  views : w.Views V.array V.place
  stored : ∃ stored, w.elements? V.array = some stored ∧ stored.length = items.length
  copied : ∀ pin, w.pinAt V.array V.place = some pin → pin.items = items
  unchanged : (∀ pin, w.pinAt V.array V.place = some pin → pin.changed = false) →
    w.elements? V.array = some items
  others : ∀ other pin, other ≠ V.place → w.pinAt V.array other = some pin → pin.changed = false
  answers : w.outside.realm.Answers V.allowed
  accessors : ∀ table ∈ w.outside.accessors, ∀ entry ∈ table, entry.2.Answers V.allowed

/-- The script still sees the same elements, and the views that there were are views of what they
were. -/
structure Reaches (V : Viewpoint) (items : List Host.Value) (w v : World) : Prop where
  shows : V.Shows items v
  size : w.outside.proxies.size ≤ v.outside.proxies.size
  views : ∀ other < w.outside.proxies.size, (v.Views V.array other ↔ w.Views V.array other)

/-- From this state the step does what it does from the direct one, and its result is as said. -/
inductive BlindAt (V : Viewpoint) (step : EStateM ε World α) (P : α → Prop)
    (items : List Host.Value) (w : World) : Prop
  | ok {a : α} {v : World} : step w = .ok a v → step (V.direct items w) = .ok a (V.direct items v) →
    V.Reaches items w v → P a → BlindAt V step P items w
  | error {e : ε} {v : World} : step w = .error e v →
    step (V.direct items w) = .error e (V.direct items v) → V.Reaches items w v →
    BlindAt V step P items w

/-- Whatever elements the script sees, the step neither reads nor changes them. -/
def Blind (V : Viewpoint) (step : EStateM ε World α) (P : α → Prop) : Prop :=
  ∀ items w, V.Shows items w → V.BlindAt step P items w

variable {V : Viewpoint} {P : α → Prop} {Q : β → Prop}

/-! ### Seeing elements -/

namespace Shows

theorem hasArray (h : V.Shows items w) : w.outside.realm.HasArray V.array := by
  obtain ⟨stored, known, -⟩ := h.stored
  exact ⟨stored, elements?_eq_some.mp known⟩

/-- Only what lies outside the script side matters, and there only some of it. -/
theorem of_same (h : V.Shows items w) (elements : v.elements? V.array = w.elements? V.array)
    (views : v.viewAt = w.viewAt) (answers : v.outside.realm.Answers V.allowed)
    (accessors : ∀ table ∈ v.outside.accessors, ∀ entry ∈ table, entry.2.Answers V.allowed) :
    V.Shows items v := by
  have pins : v.pinAt V.array = w.pinAt V.array := by
    funext place
    simp only [World.pinAt, views]
  refine ⟨?_, ?_, ?_, ?_, ?_, answers, accessors⟩
  · simpa only [World.Views, views] using h.views
  · rw [elements]
    exact h.stored
  · rw [pins]
    exact h.copied
  · rw [pins, elements]
    exact h.unchanged
  · rw [pins]
    exact h.others

theorem of_realm (h : V.Shows items w) {r : Realm}
    (payload : r.payload V.array = w.outside.realm.payload V.array)
    (methods : ∀ c, ∀ m ∈ (r.classOf c).methods, ∃ d, m ∈ (w.outside.realm.classOf d).methods) :
    V.Shows items (w.onRealm r) := by
  refine h.of_same ?_ rfl (fun c m hm => ?_) h.accessors
  · have same : (w.onRealm r).outside.realm.payload V.array =
        w.outside.realm.payload V.array := payload
    rw [World.elements?, same, World.elements?]
  · obtain ⟨d, hd⟩ := methods c m hm
    exact h.answers d m hd

end Shows

namespace Reaches

theorem refl (h : V.Shows items w) : V.Reaches items w w :=
  ⟨h, Nat.le_refl _, fun _ _ => .rfl⟩

/-- The elements may change on the way. -/
theorem onto {items' : List Host.Value} (h : V.Reaches items w v) (h' : V.Reaches items' v u) :
    V.Reaches items' w u :=
  ⟨h'.shows, Nat.le_trans h.size h'.size, fun other inside =>
    (h'.views other (Nat.lt_of_lt_of_le inside h.size)).trans (h.views other inside)⟩

theorem trans (h : V.Reaches items w v) (h' : V.Reaches items v u) : V.Reaches items w u := h.onto h'

theorem of_views (shows : V.Shows items v) (proxies : v.outside.proxies = w.outside.proxies) :
    V.Reaches items w v := by
  refine ⟨shows, Nat.le_of_eq (congrArg Array.size proxies.symm), fun other _ => ?_⟩
  simp only [World.Views, World.viewAt, proxies]

end Reaches

/-! ### The direct state -/

theorem direct_exchanged (V : Viewpoint) (items : List Host.Value) (w : World) :
    V.direct items w = ⟨w.memory, w.outside.exchanged
      (w.outside.realm.holding V.array items).objects
      (w.repinned V.place none).outside.proxies⟩ := rfl

theorem direct_viewing (proxies : Array Proxy) :
    V.direct items (w.viewing proxies) =
      (V.direct items w).viewing (proxies.modify V.place (·.repinned none)) := by
  rw [direct_exchanged, proxies_repinned]
  rfl

/-- Without a copy the state is the direct one. -/
theorem direct_eq (h : V.Shows items w) (unpinned : w.pinAt V.array V.place = none) :
    V.direct items w = w := by
  obtain ⟨component, old, view⟩ := h.views
  cases old with
  | some old =>
    rw [pinAt_of_view view] at unpinned
    cases unpinned
  | none =>
    rw [direct, repinned_eq view]
    exact filling_eq (h.unchanged (by simp [unpinned]))

theorem shows_direct (h : V.Shows items w) : V.Shows items (V.direct items w) := by
  obtain ⟨stored, known, -⟩ := h.stored
  have pins := pinAt_repinned h.views none
  have elements : (V.direct items w).elements? V.array = some items :=
    elements?_filling (show (w.repinned V.place none).elements? V.array = some stored from known) items
  refine ⟨views_repinned h.views _ _, ⟨items, elements, rfl⟩, fun pin here => ?_, fun _ => elements,
    fun other pin apart here => ?_, h.answers, h.accessors⟩
  · cases here.symm.trans ((pins V.place).trans (if_pos rfl))
  · exact h.others other pin apart (here ▸ ((pins other).trans (if_neg apart.symm)).symm)

theorem reaches_direct (h : V.Shows items w) : V.Reaches items w (V.direct items w) := by
  refine ⟨shows_direct h, Nat.le_of_eq Array.size_modify.symm, fun other _ => ?_⟩
  rw [views_iff, views_iff, direct, viewAt_filling, viewAt_repinned]
  split
  · rename_i mine
    subst mine
    cases w.viewAt V.place <;> rfl
  · rfl

/-- Giving the pin back leads to the direct state. -/
theorem committed_eq (h : V.Shows items w) {pin : Pin}
    (here : w.pinAt V.array V.place = some pin) :
    w.committed V.array V.place pin = V.direct items w := by
  have copied := h.copied pin here
  unfold World.committed
  by_cases changed : pin.changed = true
  · rw [if_pos changed, copied]
    rfl
  · rw [if_neg changed, direct]
    have stored : w.elements? V.array = some items := h.unchanged fun other there => by
      cases here.symm.trans there
      simpa using changed
    exact (filling_eq (w := w.repinned V.place none) stored).symm

/-! ### Blind steps -/

namespace BlindAt

theorem pure (h : V.Shows items w) {a : α} (ha : P a) :
    V.BlindAt (Pure.pure a : EStateM ε World α) P items w := .ok rfl rfl (.refl h) ha

theorem congr {step step' : EStateM ε World α} (h : V.BlindAt step P items w)
    (same : step' w = step w) (direct : step' (V.direct items w) = step (V.direct items w)) :
    V.BlindAt step' P items w := by
  cases h with
  | ok ended same' reaches ha => exact .ok (same.trans ended) (direct.trans same') reaches ha
  | error ended same' reaches => exact .error (same.trans ended) (direct.trans same') reaches

theorem reaches {step : EStateM ε World α} (h : V.BlindAt step P items w) :
    V.Reaches items w (World.after (step w)) := by
  cases h with
  | ok ended _ reaches _ | error ended _ reaches =>
    rw [ended]
    exact reaches

theorem throw (h : V.Shows items w) (e : ε) :
    V.BlindAt (MonadExcept.throw e : EStateM ε World α) P items w := .error rfl rfl (.refl h)

theorem bind {step : EStateM ε World α} {next : α → EStateM ε World β}
    (h : V.BlindAt step P items w)
    (h' : ∀ a v, step w = .ok a v → P a → V.Reaches items w v → V.BlindAt (next a) Q items v) :
    V.BlindAt (step >>= next) Q items w := by
  cases h with
  | error ended same reaches =>
    exact .error ((bind_error ended).trans rfl) ((bind_error same).trans rfl) reaches
  | ok ended same reaches ha =>
    cases h' _ _ ended ha reaches with
    | ok ended' same' reaches' hb =>
      exact .ok ((bind_ok ended).trans ended') ((bind_ok same).trans same') (reaches.trans reaches') hb
    | error ended' same' reaches' =>
      exact .error ((bind_ok ended).trans ended') ((bind_ok same).trans same') (reaches.trans reaches')

/-- What is done with a state that is read must not depend on the elements. -/
theorem get {k : World → EStateM ε World β} (same : k (V.direct items w) = k w)
    (h : V.BlindAt (k w) Q items w) : V.BlindAt (MonadState.get >>= k) Q items w := by
  have read : ∀ w, (MonadState.get : EStateM ε World World) w = .ok w w := fun _ => rfl
  cases h with
  | ok ended same' reaches ha =>
    refine .ok ((bind_ok (read w)).trans ended) ((bind_ok (read _)).trans ?_) reaches ha
    rw [same]
    exact same'
  | error ended same' reaches =>
    refine .error ((bind_ok (read w)).trans ended) ((bind_ok (read _)).trans ?_) reaches
    rw [same]
    exact same'

theorem getProxy {place : Nat} {k : Proxy → EStateM ε World β}
    (same : place = V.place → k (((w.outside.proxies[place]?).getD default).repinned none) =
      k ((w.outside.proxies[place]?).getD default))
    (h : V.BlindAt (k ((w.outside.proxies[place]?).getD default)) Q items w) :
    V.BlindAt (Bridge.getProxy place >>= k) Q items w := by
  refine .get (k := fun w => k (w.outside.proxies[place]?.getD default)) ?_ h
  show k (((w.repinned V.place none).outside.proxies[place]?).getD default) = _
  rw [proxies_repinned, Array.getElem?_modify]
  split
  · rename_i mine
    rw [← same mine.symm]
    cases w.outside.proxies[place]? <;> rfl
  · rfl

theorem mono {P' : α → Prop} {step : EStateM ε World α} (h : V.BlindAt step P items w)
    (weaker : ∀ a, P a → P' a) : V.BlindAt step P' items w := by
  cases h with
  | ok ended same reaches ha => exact .ok ended same reaches (weaker _ ha)
  | error ended same reaches => exact .error ended same reaches

end BlindAt

namespace Blind

theorem pure {a : α} (ha : P a) : V.Blind (Pure.pure a : EStateM ε World α) P :=
  fun _ _ h => .pure h ha

theorem throw (e : ε) : V.Blind (MonadExcept.throw e : EStateM ε World α) P :=
  fun _ _ h => .throw h e

theorem bind {step : EStateM ε World α} {next : α → EStateM ε World β} (h : V.Blind step P)
    (h' : ∀ a, P a → V.Blind (next a) Q) : V.Blind (step >>= next) Q :=
  fun items w shows => (h items w shows).bind fun a v _ ha reaches => h' a ha items v reaches.shows

theorem mono {P' : α → Prop} {step : EStateM ε World α} (h : V.Blind step P)
    (weaker : ∀ a, P a → P' a) : V.Blind step P' :=
  fun items w shows => (h items w shows).mono weaker

theorem ite {c : Prop} [Decidable c] {step other : EStateM ε World α} (h : V.Blind step P)
    (h' : V.Blind other P) : V.Blind (if c then step else other) P := by
  split
  · exact h
  · exact h'

theorem attempt {step : EStateM ε World α} (h : V.Blind step P) {ε' : Type} :
    V.Blind (Script.attempt step : EStateM ε' World (Except ε α)) fun tried =>
      ∀ a, tried = .ok a → P a := by
  intro items w shows
  cases h items w shows with
  | ok ended same reaches ha =>
    refine .ok (attempt_ok ended) (attempt_ok same) reaches ?_
    rintro _ ⟨⟩
    exact ha
  | error ended same reaches => exact .ok (attempt_error ended) (attempt_error same) reaches nofun

theorem get {k : World → EStateM ε World β}
    (same : ∀ items w, V.Shows items w → k (V.direct items w) = k w)
    (h : ∀ items w, V.Shows items w → V.Blind (k w) Q) : V.Blind (MonadState.get >>= k) Q :=
  fun items w shows => .get (same items w shows) (h items w shows items w shows)

theorem getMemory {k : Memory → EStateM ε World β} (h : ∀ m, V.Blind (k m) Q) :
    V.Blind (Script.getMemory >>= k) Q :=
  .get (k := fun w => k w.memory) (fun _ _ _ => rfl) fun _ _ _ => h _

theorem modifyMemory (f : Memory → Memory) :
    V.Blind (Script.modifyMemory f : EStateM ε World Unit) fun _ => True :=
  fun _ _ h => .ok rfl rfl (.of_views (h.of_same rfl rfl h.answers h.accessors) rfl) trivial

theorem getRealm {k : Realm → EStateM ε World β}
    (same : ∀ (r : Realm) items, r.HasArray V.array → k (r.holding V.array items) = k r)
    (h : ∀ r : Realm, r.Answers V.allowed → V.Blind (k r) Q) : V.Blind (Host.getRealm >>= k) Q :=
  .get (k := fun w => k w.outside.realm) (fun items _ shows => same _ items shows.hasArray)
    fun _ _ shows => h _ shows.answers

theorem onRealm {step : StateM Realm α} (h : Host.Unseeing V.array step) :
    V.Blind (Host.onRealm step : EStateM ε World α) fun _ => True := by
  intro items w shows
  obtain ⟨same, payload, methods⟩ := h w.outside.realm shows.hasArray
  refine .ok rfl ?_ (.of_views (shows.of_realm payload methods) rfl) trivial
  have ended : (Host.onRealm step : EStateM ε World α) (V.direct items w) =
      .ok (step (w.outside.realm.holding V.array items)).1
        ((w.repinned V.place none).onRealm (step (w.outside.realm.holding V.array items)).2) := rfl
  rw [ended, same items]
  rfl

/-- What the bridge remembers beside its views. -/
theorem getState {k : State → EStateM ε World β}
    (same : ∀ (s : State) objects proxies, k (s.exchanged objects proxies) = k s)
    (h : ∀ s : State, (∀ table ∈ s.accessors, ∀ entry ∈ table, entry.2.Answers V.allowed) →
      V.Blind (k s) Q) : V.Blind (Bridge.getState >>= k) Q :=
  .get (k := fun w => k w.outside) (fun items w _ => by rw [direct_exchanged, same])
    fun _ _ shows => h _ shows.accessors

theorem remember {f : State → State}
    (commutes : ∀ (s : State) objects proxies,
      f (s.exchanged objects proxies) = (f s).exchanged objects proxies)
    (realm : ∀ s, (f s).realm = s.realm) (proxies : ∀ s, (f s).proxies = s.proxies)
    (accessors : ∀ s : State, (∀ table ∈ s.accessors, ∀ entry ∈ table, entry.2.Answers V.allowed) →
      ∀ table ∈ (f s).accessors, ∀ entry ∈ table, entry.2.Answers V.allowed) :
    V.Blind (Bridge.modifyState f : EStateM ε World Unit) fun _ => True := by
  intro items w shows
  have direct : V.direct items ⟨w.memory, f w.outside⟩ =
      ⟨w.memory, f (V.direct items w).outside⟩ := by
    rw [direct_exchanged, direct_exchanged, commutes, proxies_repinned, proxies_repinned]
    simp only [realm, proxies]
  refine .ok rfl ?_ (.of_views (shows.of_same ?_ ?_ ?_ ?_) (proxies _)) trivial
  · rw [direct]
    rfl
  · refine congrFun (elements?_of_objects ?_) _
    show (f w.outside).realm.objects = _
    rw [realm]
  · funext place
    show (((f w.outside).proxies[place]?).getD default).view = _
    rw [proxies]
    rfl
  · show (f w.outside).realm.Answers _
    rw [realm]
    exact shows.answers
  · exact accessors _ shows.accessors

/-! ### Views -/

/-- What is done with a view must not depend on its pin. -/
theorem getProxy {place : Nat} {k : Proxy → EStateM ε World β}
    (same : ∀ p pin, k (p.repinned pin) = k p) (h : ∀ p, V.Blind (k p) Q) :
    V.Blind (Bridge.getProxy place >>= k) Q :=
  fun items w shows => .getProxy (fun _ => same _ none) (h _ items w shows)

end Blind

/-! ### Other views -/

/-- Views come and change, as long as nothing is done to what the script sees. -/
theorem Shows.of_proxies (h : V.Shows items w) {proxies : Array Proxy}
    (views : ∀ place < w.outside.proxies.size, (proxies[place]?.getD default).view.array? =
      (w.viewAt place).array?)
    (mine : (proxies[V.place]?.getD default).view.pin? = (w.viewAt V.place).pin?)
    (pins : ∀ place o pin, (proxies[place]?.getD default).view.pin? = some (o, pin) →
      (w.viewAt place).pin? = some (o, pin) ∨ pin.changed = false) :
    V.Shows items (w.viewing proxies) := by
  have same : ∀ pin, ((w.viewing proxies).pinAt V.array V.place = some pin ↔
      w.pinAt V.array V.place = some pin) := by
    intro pin
    rw [pinAt_iff, pinAt_iff, ← mine]
    rfl
  refine ⟨?_, h.stored, ?_, ?_, ?_, h.answers, h.accessors⟩
  · rw [views_iff]
    exact (views _ (lt_of_views h.views)).trans (views_iff.mp h.views)
  · exact fun pin here => h.copied pin ((same pin).mp here)
  · exact fun clean => h.unchanged fun pin here => clean pin ((same pin).mpr here)
  · intro other pin apart here
    rcases pins other V.array pin (pinAt_iff.mp here) with old | clean
    · exact h.others other pin apart (pinAt_iff.mpr old)
    · exact clean

theorem BlindAt.modifyProxy (h : V.Shows items w) {f : Proxy → Proxy} {place : Nat}
    (array : ∀ p, (f p).view.array? = p.view.array?)
    (mine : place = V.place → ∀ p, f (p.repinned none) = (f p).repinned none ∧
      (f p).view.pin? = p.view.pin?)
    (pins : ∀ p o pin, (f p).view.pin? = some (o, pin) →
      p.view.pin? = some (o, pin) ∨ pin.changed = false) :
    V.BlindAt (Bridge.modifyProxy place f : EStateM ε World Unit) (fun _ => True) items w := by
  have there : ∀ other, ((w.outside.proxies.modify place f)[other]?).getD default =
      if place = other ∧ other < w.outside.proxies.size then
        f ((w.outside.proxies[other]?).getD default)
      else (w.outside.proxies[other]?).getD default := by
    intro other
    rw [Array.getElem?_modify]
    by_cases inside : other < w.outside.proxies.size
    · rw [Array.getElem?_eq_getElem inside]
      by_cases same : place = other <;> simp [same, inside]
    · rw [Array.getElem?_eq_none (Nat.le_of_not_lt inside)]
      simp [inside]
  have views : ∀ other, (((w.outside.proxies.modify place f)[other]?).getD default).view.array? =
      (w.viewAt other).array? := by
    intro other
    rw [there]
    split
    · exact array _
    · rfl
  have shows : V.Shows items (w.viewing (w.outside.proxies.modify place f)) := by
    refine h.of_proxies (fun other _ => views other) ?_ fun other o pin => ?_
    · rw [there]
      split
      · rename_i here
        exact (mine here.1 _).2
      · rfl
    · rw [there]
      split
      · exact pins _ o pin
      · exact .inl
  refine .ok rfl ?_ ⟨shows, Nat.le_of_eq Array.size_modify.symm, fun other _ => ?_⟩ trivial
  · show EStateM.Result.ok () ((V.direct items w).viewing
      ((w.repinned V.place none).outside.proxies.modify place f)) =
        .ok () (V.direct items (w.viewing (w.outside.proxies.modify place f)))
    rw [direct_viewing, proxies_repinned, Host.modify_comm fun same p => (mine same p).1]
  · rw [views_iff, views_iff, ← views other]
    rfl

/-- Another view of the array may have a copy, as long as it does not change it. -/
theorem BlindAt.setPin (h : V.Shows items w) {place : Nat} {pin : Option Pin}
    (apart : place ≠ V.place) (clean : ∀ new, pin = some new → new.changed = false) :
    V.BlindAt (Bridge.setPin place pin : EStateM ε World Unit) (fun _ => True) items w := by
  rw [setPin_eq]
  refine .modifyProxy h (fun p => ?_) (fun mine => absurd mine apart) fun p o new => ?_
  · unfold Proxy.repinned
    cases p.view <;> rfl
  · unfold Proxy.repinned
    cases view : p.view with
    | array o' component old =>
      cases pin with
      | none => exact nofun
      | some pin =>
        rintro ⟨⟩
        exact .inr (clean _ rfl)
    | object | type | method => exact nofun

theorem BlindAt.newProxy (h : V.Shows items w) (kind : Script.ForeignKind) {p : Proxy}
    (unpinned : p.view.pin? = none) :
    V.BlindAt (Bridge.newProxy kind p : EStateM ε World Script.Value)
      (fun value => ∀ f, value = .foreign f → w.outside.proxies.size ≤ f.place) items w := by
  have old : ∀ place < w.outside.proxies.size,
      ((w.outside.proxies.push p)[place]?).getD default = (w.outside.proxies[place]?).getD default := by
    intro place inside
    rw [Array.getElem?_push, if_neg (Nat.ne_of_lt inside)]
  have inside := lt_of_views h.views
  have shows : V.Shows items (w.viewing (w.outside.proxies.push p)) := by
    refine h.of_proxies (fun place there => ?_) ?_ fun place o pin here => ?_
    · rw [old place there]
      rfl
    · rw [old _ inside]
      rfl
    · rw [Array.getElem?_push] at here
      split at here
      · rw [Option.getD_some, unpinned] at here
        cases here
      · exact .inl here
  refine .ok rfl ?_ ⟨shows, ?_, fun place there => ?_⟩ ?_
  · show EStateM.Result.ok (Script.Value.foreign ⟨kind, (w.repinned V.place none).outside.proxies.size⟩)
        ((V.direct items w).viewing ((w.repinned V.place none).outside.proxies.push p)) =
      .ok (.foreign ⟨kind, w.outside.proxies.size⟩)
        (V.direct items (w.viewing (w.outside.proxies.push p)))
    rw [direct_viewing, Host.modify_push inside, proxies_repinned, Array.size_modify]
  · show _ ≤ (w.outside.proxies.push p).size
    rw [Array.size_push]
    exact Nat.le_succ _
  · rw [views_iff, views_iff]
    show (((w.outside.proxies.push p)[place]?).getD default).view.array? = _ ↔ _
    rw [old place there]
    rfl
  · rintro _ ⟨⟩
    exact Nat.le_refl _

end Viewpoint
end ScriptBridge.Bridge
