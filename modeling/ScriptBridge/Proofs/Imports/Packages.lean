import ScriptBridge.Proofs.Imports.Loading
import ScriptBridge.Proofs.Isolation.Memory

/-!
# What packages offer

A package offers the members that it lists, that the from-list allows and that the loader loads.
The import entry finds just these, and binds views of them in a module under the names that are
free.
-/

namespace ScriptBridge.Bridge

open Host (ClassId ObjectId Realm Method HostM BodyM Bodies onRealm)
open Script (InterpreterId ModuleRef)

variable {ε α : Type} {w v u : World} {r : Realm} {ts : InterpreterId} {loader : ObjectId}
  {packages : Option (List String)} {t : ClassId × Nat} {value : Script.Value}

/-! ### What is asked for -/

/-- The names in a from-list. -/
def askedNames : Option Script.Value → List String
  | some (.tuple items) => items.filterMap Script.Value.asText?
  | _ => []

/-- Nothing but the names themselves is allowed, unless there are none or one is a star. -/
def Allows (names : List String) (simple : String) : Prop :=
  names = [] ∨ "*" ∈ names ∨ simple ∈ names

instance (names : List String) (simple : String) : Decidable (Allows names simple) :=
  inferInstanceAs (Decidable (_ ∨ _ ∨ _))

theorem isWanted_iff (fromList : Option Script.Value) (simple : String) :
    isWanted (wantedNames fromList) simple = true ↔ Allows (askedNames fromList) simple := by
  unfold wantedNames askedNames Allows
  split
  next items =>
    by_cases all : (items.filterMap Script.Value.asText?).isEmpty ||
      (items.filterMap Script.Value.asText?).contains "*"
    · simp only [all, if_true, isWanted, Option.all_none, true_iff]
      simp only [Bool.or_eq_true, List.isEmpty_iff, List.contains_iff_mem] at all
      tauto
    · simp only [all, isWanted]
      simp only [Bool.or_eq_true, List.isEmpty_iff, List.contains_iff_mem, not_or] at all
      simp [all]
  · simp [isWanted]

/-- The members of a package that are allowed and can be loaded, in the order of its list. -/
def offered (r : Realm) (packages : Option (List String)) (names : List String) (path : String) :
    List String :=
  (r.listed path).filter fun member =>
    Allows names (Host.simpleName member) ∧ (r.loads packages member).isSome

/-- The class of a path that its parent package lists, if it can be loaded. -/
def listedAlone (r : Realm) (packages : Option (List String)) (path : String) :
    Option (ClassId × Nat) :=
  (Host.packageName? path).bind fun parent =>
    if path ∈ r.listed parent then r.loads packages path else none

/-! ### Views of classes -/

/-- The value is a view of the class with a shape. -/
def World.ShowsClass (w : World) (value : Script.Value) (t : ClassId × Nat) : Prop :=
  ∃ (place : Nat) (c : ClassId) (o : ObjectId), value = .foreign ⟨.type, place⟩ ∧
    place < w.outside.proxies.size ∧ w.viewAt place = .type c o ∧ w.outside.realm.Holds o ∧
    w.outside.realm.mirrored? o = some c ∧ w.outside.realm.Has c ∧ w.outside.realm.shape c = t

/-- The Host was searched, views were added, and memory may be another one. -/
structure Follows (w v : World) : Prop where
  realm : w.outside.realm.Sought v.outside.realm
  shown : w.outside.proxies.size ≤ v.outside.proxies.size
  views : ∀ place, place < w.outside.proxies.size → v.viewAt place = w.viewAt place
  outside : v.outside = { w.outside with
    realm := v.outside.realm, proxies := v.outside.proxies,
    listings := v.outside.listings, loadClass := v.outside.loadClass }

namespace Follows

theorem refl (w : World) : Follows w w := ⟨.refl _, Nat.le_refl _, fun _ _ => rfl, rfl⟩

theorem trans (h : Follows w v) (h' : Follows v u) : Follows w u where
  realm := h.realm.trans h'.realm
  shown := Nat.le_trans h.shown h'.shown
  views place made := (h'.views place (Nat.lt_of_lt_of_le made h.shown)).trans (h.views place made)
  outside := by rw [h'.outside, h.outside]

theorem of_memory (m : Script.Memory) : Follows w { w with memory := m } :=
  ⟨.refl _, Nat.le_refl _, fun _ _ => rfl, rfl⟩

theorem showsClass (h : Follows w v) (coherent : w.outside.realm.Coherent)
    (shows : w.ShowsClass value t) : v.ShowsClass value t := by
  obtain ⟨place, c, o, same, made, view, held, describes, has, shape⟩ := shows
  have grows := h.realm.grows
  exact ⟨place, c, o, same, Nat.lt_of_lt_of_le made h.shown, (h.views place made).trans view,
    grows.held o held, (grows.mirrored? held).trans describes, grows.kept c has,
    (grows.shape coherent has).trans shape⟩

end Follows

theorem Searches.follows (h : Searches ts loader packages w v) : Follows w v where
  realm := h.realm
  shown := Nat.le_of_eq (by rw [h.outside])
  views place _ := by rw [World.viewAt, World.viewAt, h.outside]
  outside := by rw [h.outside]

/-- A view of a class is a new one. -/
theorem viewClass_shows {c : ClassId} (named : w.outside.realm.Named)
    (has : w.outside.realm.Has c) :
    ∃ value v, (viewClass c : EStateM ε World Script.Value) w = .ok value v ∧ Follows w v ∧
      v.memory = w.memory ∧ v.outside.listings = w.outside.listings ∧
      v.outside.loadClass = w.outside.loadClass ∧
      v.ShowsClass value (w.outside.realm.shape c) := by
  obtain ⟨o, r, made, sought, held, describes⟩ := Realm.mirror_sought named c
  obtain ⟨g, r', taken⟩ : ∃ g r', Realm.newGlobalRef o r = (g, r') := ⟨_, _, rfl⟩
  have kept : r.Sought r' := by
    have grown := Realm.Grows.newGlobalRef o r
    rw [taken] at grown
    cases taken
    exact .of_grows grown rfl rfl rfl rfl
  have grows := (sought.trans kept).grows
  refine ⟨.foreign ⟨.type, w.outside.proxies.size⟩, (w.onRealm r').showing ⟨.type c o, some g⟩, ?_,
    ⟨sought.trans kept, ?_, fun place old => ?_, rfl⟩, rfl, rfl, rfl,
    w.outside.proxies.size, c, o, rfl, ?_, ?_, kept.grows.held o held, ?_, grows.kept c has,
    grows.shape named.toCoherent has⟩
  · unfold viewClass
    rw [bind_ok (onRealm_run made), bind_ok (onRealm_run (w := w.onRealm r) taken)]
    rfl
  · simp [World.showing, World.onRealm]
  · exact World.viewAt_showing_old (w := w.onRealm r') _ (Nat.ne_of_lt old)
  · simp [World.showing, World.onRealm]
  · exact World.viewAt_showing_new (w.onRealm r') _
  · exact (kept.grows.mirrored? held).trans describes

/-! ### Filling a module -/

/-- Whatever was bound in a module stays bound, free names become views of the first class that is
found for them, and other modules stay as they are. -/
structure Binds (module : ModuleRef) (found : List (String × ClassId)) (w v : World) : Prop where
  follows : Follows w v
  kept : ∀ name value, (w.memory.namespaceOf module).get? name = some value →
    (v.memory.namespaceOf module).get? name = some value
  added : ∀ name entry, (w.memory.namespaceOf module).get? name = none →
    found.find? (·.1 == name) = some entry →
    ∃ value, (v.memory.namespaceOf module).get? name = some value ∧
      v.ShowsClass value (w.outside.realm.shape entry.2)
  absent : ∀ name, (w.memory.namespaceOf module).get? name = none →
    found.find? (·.1 == name) = none → (v.memory.namespaceOf module).get? name = none
  others : ∀ other : ModuleRef, other.place ≠ module.place →
    v.memory.namespaceOf other = w.memory.namespaceOf other
  size : v.memory.namespaces.size = w.memory.namespaces.size
  interpreters : v.memory.interpreters = w.memory.interpreters
  listings : v.outside.listings = w.outside.listings
  loadClass : v.outside.loadClass = w.outside.loadClass

/-- A name is bound in one module. -/
theorem bindName_run {module : ModuleRef} (placed : module.place < w.memory.namespaces.size)
    (name : String) (value : Script.Value) :
    ∃ m, (Script.bindName module name value : EStateM ε World Unit) w =
        .ok () { w with memory := m } ∧
      m.namespaces.size = w.memory.namespaces.size ∧ m.interpreters = w.memory.interpreters ∧
      m.runtimes = w.memory.runtimes ∧
      (m.namespaceOf module) = (w.memory.namespaceOf module).insert name value ∧
      ∀ other : ModuleRef, other.place ≠ module.place →
        m.namespaceOf other = w.memory.namespaceOf other := by
  let freed := w.memory.release ((w.memory.namespaceOf module).get? name)
  obtain ⟨namespaces, interpreters, runtimes, -⟩ :=
    Isolation.Pairing.release_namespaces ((w.memory.namespaceOf module).get? name) w.memory
  have same : ∀ a, freed.namespaceOf a = w.memory.namespaceOf a := fun a => by
    rw [Script.Memory.namespaceOf, Script.Memory.namespaceOf, namespaces]
  have placed' : module.place < freed.namespaces.size := by rwa [namespaces]
  refine ⟨freed.onNamespace (·.insert name value) module, rfl, ?_, interpreters, runtimes, ?_,
    fun other apart => ?_⟩
  · rw [Script.Memory.onNamespace, Array.size_modify, namespaces]
  · rw [Script.Memory.namespaceOf_onNamespace _ _ _ _ placed', if_pos rfl, same]
  · rw [Script.Memory.namespaceOf_onNamespace _ _ _ _ placed', if_neg apart, same]

theorem Binds.refl_of_bound {module : ModuleRef} {simple : String} {old : Script.Value}
    (known : (w.memory.namespaceOf module).get? simple = some old) (c : ClassId) :
    Binds module [(simple, c)] w w where
  follows := .refl w
  kept _ _ bound := bound
  added name entry free found := by
    obtain ⟨mine, -⟩ : simple = name ∧ (simple, c) = entry := by simpa using found
    rw [← mine, known] at free
    cases free
  absent _ free _ := free
  others _ _ := rfl
  size := rfl
  interpreters := rfl
  listings := rfl
  loadClass := rfl

/-- The first class is bound, and then the others are. -/
theorem Binds.cons {module : ModuleRef} {entry : String × ClassId}
    {rest : List (String × ClassId)} (coherent : w.outside.realm.Coherent)
    (has : ∀ other ∈ rest, w.outside.realm.Has other.2)
    (first : Binds module [entry] w u) (later : Binds module rest u v) :
    Binds module (entry :: rest) w v where
  follows := first.follows.trans later.follows
  kept name value bound := later.kept name value (first.kept name value bound)
  added name e free found := by
    by_cases mine : entry.1 = name
    · rw [List.find?_cons_of_pos (by simpa using mine)] at found
      cases found
      obtain ⟨value, bound, shows⟩ := first.added name entry free (by simp [mine])
      exact ⟨value, later.kept name value bound,
        later.follows.showsClass (first.follows.realm.grows.coherent coherent) shows⟩
    · rw [List.find?_cons_of_neg (by simpa using mine)] at found
      have still_free := first.absent name free (by simp [mine])
      rw [← first.follows.realm.grows.shape coherent (has e (List.mem_of_find?_eq_some found))]
      exact later.added name e still_free found
  absent name free found := by
    obtain ⟨other, none_later⟩ : ¬(entry.1 == name) = true ∧ rest.find? (·.1 == name) = none := by
      simpa using found
    exact later.absent name (first.absent name free (by simpa using other)) none_later
  others other apart := (later.others other apart).trans (first.others other apart)
  size := later.size.trans first.size
  interpreters := later.interpreters.trans first.interpreters
  listings := later.listings.trans first.listings
  loadClass := later.loadClass.trans first.loadClass

/-- A class is bound if its name is free. -/
theorem bindClasses_cons {module : ModuleRef} (named : w.outside.realm.Named)
    (placed : module.place < w.memory.namespaces.size) (simple : String) {c : ClassId}
    (has : w.outside.realm.Has c) :
    ∃ u, Binds module [(simple, c)] w u ∧
      ∀ rest, bindClasses module ((simple, c) :: rest) w = bindClasses module rest u := by
  have looked : (Script.lookup? module simple : BridgeM _) w =
      .ok ((w.memory.namespaceOf module).get? simple) w := rfl
  cases known : (w.memory.namespaceOf module).get? simple with
  | some old =>
    refine ⟨w, .refl_of_bound known c, fun rest => ?_⟩
    rw [bindClasses, bind_ok looked, known]
    rfl
  | none =>
    obtain ⟨value, u, viewed, shown, memory, listings, loadClass, shows⟩ :=
      viewClass_shows (ε := Script.Raised) named has
    rw [← memory] at placed
    obtain ⟨m, bound, size, interpreters, -, inserted, others⟩ :=
      bindName_run (ε := Script.Raised) placed simple value
    have bindings : ∀ name, (m.namespaceOf module).get? name =
        if simple = name then some value else (w.memory.namespaceOf module).get? name := by
      intro name
      rw [inserted, Table.get?_insert, memory]
    refine ⟨{ u with memory := m }, ⟨shown.trans (.of_memory m), fun name old held => ?_,
      fun name entry free found => ?_, fun name free found => ?_, fun other apart => ?_,
      size.trans (by rw [memory]), interpreters.trans (by rw [memory]), listings, loadClass⟩,
      fun rest => ?_⟩
    · have other : simple ≠ name := by
        rintro rfl
        rw [known] at held
        cases held
      rw [bindings, if_neg other, held]
    · obtain ⟨mine, found⟩ : simple = name ∧ (simple, c) = entry := by simpa using found
      subst found
      refine ⟨value, (bindings name).trans (if_pos mine), ?_⟩
      exact (Follows.of_memory m).showsClass (shown.realm.grows.coherent named.toCoherent) shows
    · have other : simple ≠ name := by simpa using found
      rw [bindings, if_neg other, free]
    · rw [others other apart, memory]
    · rw [bindClasses, bind_ok looked, known]
      exact (bind_ok viewed).trans (bind_ok bound)

/-- By induction on the classes that were found: the first one for a free name takes it. -/
theorem bindClasses_run {module : ModuleRef} (found : List (String × ClassId))
    (named : w.outside.realm.Named) (placed : module.place < w.memory.namespaces.size)
    (has : ∀ entry ∈ found, w.outside.realm.Has entry.2) :
    ∃ v, bindClasses module found w = .ok () v ∧ Binds module found w v := by
  induction found generalizing w with
  | nil =>
    exact ⟨w, rfl, .refl w, fun _ _ bound => bound, fun _ _ _ first => (nomatch first),
      fun _ free _ => free, fun _ _ => rfl, rfl, rfl, rfl, rfl⟩
  | cons entry rest ih =>
    have later : ∀ other ∈ rest, w.outside.realm.Has other.2 := fun other mem =>
      has other (List.mem_cons_of_mem _ mem)
    obtain ⟨u, first, onward⟩ :=
      bindClasses_cons named placed entry.1 (has entry List.mem_cons_self)
    obtain ⟨v, ran, binds⟩ := ih (first.follows.realm.named named) (first.size ▸ placed)
      fun other mem => first.follows.realm.grows.kept _ (later other mem)
    exact ⟨v, (onward rest).trans ran, .cons named.toCoherent later first binds⟩

/-! ### Looking into the Host -/

/-- Members that are allowed, and of these the ones that are loaded, are those that are offered. -/
theorem offered_loads (r : Realm) (packages : Option (List String)) (names : List String)
    (path : String) :
    ((r.listed path).filter fun member => decide (Allows names (Host.simpleName member))).filterMap
        (fun member => (r.loads packages member).map fun t => (Host.simpleName member, t)) =
      (offered r packages names path).filterMap
        fun member => (r.loads packages member).map fun t => (Host.simpleName member, t) := by
  unfold offered
  rw [List.filterMap_filter, List.filterMap_filter]
  refine List.filterMap_congr fun member _ => ?_
  cases loaded : r.loads packages member <;> simp

theorem loads_of_offered {names : List String} {path member : String}
    (h : member ∈ offered r packages names path) : ∃ t, r.loads packages member = some t := by
  have loaded := (List.mem_filter.mp h).2
  simp only [decide_eq_true_iff] at loaded
  exact Option.isSome_iff_exists.mp loaded.2

/-- The first class for a name is that of the first member with that simple name. -/
theorem find_offered (r : Realm) (packages : Option (List String)) (names : List String)
    (path name : String) :
    ((offered r packages names path).filterMap fun member =>
        (r.loads packages member).map fun t => (Host.simpleName member, t)).find? (·.1 == name) =
      ((offered r packages names path).find? (Host.simpleName · == name)).bind fun member =>
        (r.loads packages member).map fun t => (Host.simpleName member, t) := by
  rw [List.find?_filterMap]
  have same : ∀ members : List String, (∀ member ∈ members, ∃ t, r.loads packages member = some t) →
      (members.find? fun member => ((r.loads packages member).map
        fun t => (Host.simpleName member, t)).any (·.1 == name)) =
      members.find? (Host.simpleName · == name) := by
    intro members loaded
    induction members with
    | nil => rfl
    | cons member rest ih =>
      obtain ⟨t, found⟩ := loaded member List.mem_cons_self
      simp only [List.find?_cons, found, Option.map_some, Option.any_some,
        ih fun m mem => loaded m (List.mem_cons_of_mem _ mem)]
  rw [same _ fun member mem => loads_of_offered mem]

/-- The classes that were found are those of the members that are offered, in their order. -/
def FoundAs (found : List (String × ClassId)) (packages : Option (List String))
    (names : List String) (path : String) (w u : World) : Prop :=
  found.map (fun entry => (entry.1, u.outside.realm.shape entry.2)) =
    (offered w.outside.realm packages names path).filterMap fun member =>
      (w.outside.realm.loads packages member).map fun t => (Host.simpleName member, t)

/-- What is found for a name is the class of the first member that is offered under it. -/
theorem FoundAs.find {found : List (String × ClassId)} {names : List String} {path : String}
    (shapes : FoundAs found packages names path w u) (name : String) :
    (found.find? (·.1 == name)).map (fun entry => (entry.1, u.outside.realm.shape entry.2)) =
      ((offered w.outside.realm packages names path).find? (Host.simpleName · == name)).bind
        fun member =>
          (w.outside.realm.loads packages member).map fun t => (Host.simpleName member, t) := by
  rw [← find_offered, ← shapes, List.find?_map]
  rfl

theorem FoundAs.isEmpty_iff {found : List (String × ClassId)} {names : List String}
    {path : String} (shapes : FoundAs found packages names path w u) :
    found.isEmpty = true ↔ offered w.outside.realm packages names path = [] := by
  rw [List.isEmpty_iff, ← List.map_eq_nil_iff, show List.map _ found = _ from shapes,
    List.filterMap_eq_nil_iff]
  refine ⟨fun lost => List.eq_nil_iff_forall_not_mem.mpr fun member mem => ?_, fun none => ?_⟩
  · obtain ⟨t, loaded⟩ := loads_of_offered mem
    have missing := lost member mem
    rw [loaded] at missing
    cases missing
  · simp [none]

/-- The members of a package are listed, and those that are offered are loaded. -/
theorem search_run (callback : Host.Callback → BodyM World Host.Value)
    (below : Unit → Bodies World) (path : String) (fromList : Option Script.Value)
    (h : w.Searchable ts loader packages) (calm : w.outside.realm.pending = none) :
    ∃ (found : List (String × ClassId)) (v : World),
      (do
        let members ← membersOrRaise (.over callback below) ts path path
        loadable (.over callback below) loader
          (members.filter fun member => isWanted (wantedNames fromList) (Host.simpleName member)) :
        BridgeM _) w = .ok found v ∧
      Searches ts loader packages w v ∧ (∀ entry ∈ found, v.outside.realm.Has entry.2) ∧
      FoundAs found packages (askedNames fromList) path w v := by
  obtain ⟨u, listed, first⟩ := listMembers_run callback below path h
  have members : membersOrRaise (.over callback below) ts path path w =
      .ok (w.outside.realm.listed path) u := bind_ok (attempt_ok listed)
  obtain ⟨found, v, ran, second, has, shapes⟩ := loadable_run callback below
    ((w.outside.realm.listed path).filter
      fun member => isWanted (wantedNames fromList) (Host.simpleName member))
    first.searchable (first.realm.pending.trans calm)
  refine ⟨found, v, (bind_ok members).trans ran, first.trans second, has, ?_⟩
  have same : ∀ name, u.outside.realm.loads packages name = w.outside.realm.loads packages name :=
    first.realm.grows.loads h.named.toCoherent packages
  rw [FoundAs, shapes, ← offered_loads]
  simp only [same]
  refine congrArg _ (List.filter_congr fun member _ => ?_)
  rw [Bool.eq_iff_iff, isWanted_iff, decide_eq_true_iff]

/-- The parent package is listed and the class is loaded, whatever the from-list. -/
theorem listedClass?_run (callback : Host.Callback → BodyM World Host.Value)
    (below : Unit → Bodies World) (path : String) (h : w.Searchable ts loader packages)
    (calm : w.outside.realm.pending = none) :
    ∃ found v, listedClass? (.over callback below) ts loader path w = .ok found v ∧
      Searches ts loader packages w v ∧ (∀ c ∈ found, v.outside.realm.Has c) ∧
      found.map v.outside.realm.shape = listedAlone w.outside.realm packages path := by
  unfold listedClass? listedAlone
  cases package : Host.packageName? path with
  | none => exact ⟨none, w, rfl, .refl h, nofun, rfl⟩
  | some parent =>
    obtain ⟨u, listed, first⟩ := listMembers_run callback below parent h
    have members : membersOrRaise (.over callback below) ts parent path w =
        .ok (w.outside.realm.listed parent) u := bind_ok (attempt_ok listed)
    simp only [Option.bind_some]
    rw [bind_ok members]
    by_cases mem : path ∈ w.outside.realm.listed parent
    · obtain ⟨found, v, ran, second, has, shape⟩ := loadClass_run (ε := Script.Raised) callback
        below path first.searchable (first.realm.pending.trans calm)
      rw [if_pos (List.contains_iff_mem.mpr mem), if_pos mem]
      refine ⟨found, v, ran, first.trans second, has, shape.trans ?_⟩
      exact first.realm.grows.loads h.named.toCoherent packages path
    · rw [if_neg (mt List.contains_iff_mem.mp mem), if_neg mem]
      exact ⟨none, u, rfl, first, nofun, rfl⟩

end ScriptBridge.Bridge
