import ScriptBridge.Bridge.Import
import ScriptBridge.Proofs.Causality.Striking

/-!
# Searching the Host

The Host is asked which classes a package lists, and a class loader for those classes. That leaves
strings, array classes and class objects behind, but what packages list, what names lead to and what
loaders can load stays the same.
-/

namespace ScriptBridge.Host

variable {r v u : Realm} {c b : ClassId} {o : ObjectId}

namespace Realm

/-! ### What is there to be found -/

/-- The class names that a package lists. -/
def listed (r : Realm) (package : String) : List String := ((r.packages.get? package).getD {}).names

/-- The name of the class with a shape. -/
def typeName (r : Realm) : ClassId × Nat → String
  | (c, 0) => r.nameOf c
  | (c, depth + 1) => r.typeName (c, depth) ++ "[]"

/-- What a class loader with these packages finds under a name. -/
def loads (r : Realm) (packages : Option (List String)) (name : String) : Option (ClassId × Nat) :=
  (r.typeNamed? name).filter fun t => permits packages (r.typeName t)

/-- Array classes are named after their components, and class objects describe their classes. -/
structure Named (r : Realm) : Prop extends r.Coherent where
  arrays : ∀ c b, (r.classOf c).component? = some b → r.nameOf c = r.nameOf b ++ "[]"
  mirrors : ∀ c o, r.mirrors.lookup c = some o → r.Holds o ∧ r.mirrored? o = some c

theorem Named.nameOf (named : r.Named) (c : ClassId) : r.nameOf c = r.typeName (r.shape c) := by
  have coherent := named.toCoherent
  generalize h : r.shape c = t
  obtain ⟨t, depth⟩ := t
  induction depth generalizing c with
  | zero => rw [shape_bottom coherent h, typeName]
  | succ depth ih =>
    obtain ⟨b, hb, below⟩ := shape_component coherent h
    rw [named.arrays c b hb, ih b below, typeName]

theorem Grows.typeName (h : r.Grows v) {t : ClassId × Nat} (has : r.Has t.1) :
    v.typeName t = r.typeName t := by
  obtain ⟨c, depth⟩ := t
  induction depth with
  | zero => simp only [Realm.typeName, Realm.nameOf, h.classes c has]
  | succ depth ih => simp only [Realm.typeName, ih has]

/-- While the Host grows, loaders load the same. -/
theorem Grows.loads (h : r.Grows v) (coherent : r.Coherent) (packages : Option (List String))
    (name : String) : v.loads packages name = r.loads packages name := by
  rw [Realm.loads, Realm.loads, h.typeNamed? coherent]
  cases found : r.typeNamed? name with
  | none => rfl
  | some t => simp only [Option.filter, h.typeName (typeNamed?_has coherent found)]

/-! ### A Host that was searched -/

/-- The Host has grown, and what there is to be found is the same. -/
structure Sought (r v : Realm) : Prop where
  grows : r.Grows v
  packages : v.packages = r.packages
  pending : v.pending = r.pending
  named : r.Named → v.Named

namespace Sought

theorem refl (r : Realm) : r.Sought r := ⟨.refl r, rfl, rfl, id⟩

theorem trans (h : r.Sought v) (h' : v.Sought u) : r.Sought u :=
  ⟨h.grows.trans h'.grows, h'.packages.trans h.packages, h'.pending.trans h.pending,
    h'.named ∘ h.named⟩

/-- Only objects have been added. -/
theorem of_grows (grows : r.Grows v) (packages : v.packages = r.packages)
    (pending : v.pending = r.pending) (classes : v.classes = r.classes)
    (mirrors : v.mirrors = r.mirrors) : r.Sought v := by
  have same : v.classOf = r.classOf := by
    funext c
    simp only [classOf, classes]
  refine ⟨grows, packages, pending, fun named =>
    ⟨grows.coherent named.toCoherent, fun c b hb => ?_, fun c o known => ?_⟩⟩
  · simp only [Realm.nameOf, same] at hb ⊢
    exact named.arrays c b hb
  · obtain ⟨held, describes⟩ := named.mirrors c o (mirrors ▸ known)
    exact ⟨grows.held o held, (grows.mirrored? held).trans describes⟩

theorem allocate (c : ClassId) (payload : Payload) (r : Realm) :
    r.Sought (Realm.allocate c payload r).2 :=
  .of_grows (.allocate c payload r) rfl rfl rfl rfl

theorem newText (text : String) (r : Realm) : r.Sought (Realm.newText text r).2 := allocate _ _ r

theorem withArray (hb : r.Has b) (fresh : r.arrays.lookup b = none) :
    r.Sought (r.withArray b) := by
  have grows := withArray_grows hb fresh
  refine ⟨grows, rfl, rfl, fun named =>
    ⟨grows.coherent named.toCoherent, fun c => ?_, fun c o known => ?_⟩⟩
  · refine withArray_cases (P := fun _ cls => ∀ d, cls.component? = some d →
      cls.name = (r.withArray b).nameOf d ++ "[]") (fun c d hd => ?_) ?_ c
    · have has : r.Has d := (has_of_component hd).component named.toCoherent hd
      rw [Realm.nameOf, withArray_old has]
      exact named.arrays c d hd
    · rintro d ⟨⟩
      rw [Realm.nameOf, withArray_old hb]
      rfl
  · obtain ⟨held, describes⟩ := named.mirrors c o known
    exact ⟨grows.held o held, (grows.mirrored? held).trans describes⟩

theorem arrayClass (hb : r.Has b) : r.Sought (Realm.arrayClass b r).2 := by
  cases known : r.arrays.lookup b with
  | some c =>
    rw [arrayClass_known known]
    exact .refl r
  | none =>
    rw [arrayClass_new known]
    exact .withArray hb known

/-- By induction on the name: an array class is looked for after its component. -/
theorem lookupReversed? (coherent : r.Coherent) (name : List Char) :
    r.Sought (Realm.lookupReversed? name r).2 := by
  induction name using Realm.typeReversed?.induct with
  | case1 rest ih =>
    obtain ⟨found, v, ran, grows, has, -⟩ := lookupReversed?_grows coherent rest
    rw [ran] at ih
    simp only [Realm.lookupReversed?, Bind.bind, StateT.bind, ran]
    cases found with
    | none => exact ih
    | some b => exact ih.trans (.arrayClass (has b rfl))
  | case2 name plain =>
    rw [lookupReversed?_plain plain]
    exact .refl r

theorem lookupClass? (coherent : r.Coherent) (name : String) :
    r.Sought (Realm.lookupClass? name r).2 := lookupReversed? coherent _

theorem newThrowable (coherent : r.Coherent) (name : String) (message : Option String)
    (cause : Option ObjectId) : r.Sought (Realm.newThrowable name message cause r).2 := by
  have sought := Sought.lookupClass? coherent name
  obtain ⟨found, v, looked⟩ : ∃ found v, Realm.lookupClass? name r = (found, v) := ⟨_, _, rfl⟩
  rw [looked] at sought
  simp only [Realm.newThrowable, Bind.bind, StateT.bind, looked]
  exact sought.trans (.allocate _ _ _)

end Sought

/-- The class object of a class describes it. -/
theorem mirror_sought (named : r.Named) (c : ClassId) :
    ∃ o v, Realm.mirror c r = (o, v) ∧ r.Sought v ∧ v.Holds o ∧ v.mirrored? o = some c := by
  have grows := Grows.mirror c r
  simp only [Realm.mirror, Bind.bind, StateT.bind, MonadState.get, getThe, MonadStateOf.get,
    StateT.get, Pure.pure] at grows ⊢
  cases known : r.mirrors.lookup c with
  | some o => exact ⟨o, r, rfl, .refl r, named.mirrors c o known⟩
  | none =>
    rw [known] at grows
    obtain ⟨o, v, made, grown, held, -, holds, -⟩ := allocated (r.require className) (.mirror c) r
    have added := Sought.allocate (r.require className) (.mirror c) r
    simp only [StateT.bind, made] at grows ⊢
    rw [made] at added
    have describes : v.mirrored? o = some c := by rw [mirrored?, holds]
    refine ⟨o, _, rfl, ⟨grows, added.packages, added.pending, fun named => ?_⟩, held, describes⟩
    have before := added.named named
    refine ⟨grows.coherent named.toCoherent, before.arrays, fun d o' known' => ?_⟩
    by_cases new : d = c
    · subst new
      have same : ((d, o) :: v.mirrors).lookup d = some o' := known'
      rw [List.lookup_cons_self] at same
      cases same
      exact ⟨held, describes⟩
    · have other : ((c, o) :: v.mirrors).lookup d = some o' := known'
      rw [List.lookup_cons, beq_eq_false_iff_ne.mpr new] at other
      exact before.mirrors d o' other

theorem newText_sought (text : String) (r : Realm) :
    ∃ o v, Realm.newText text r = (o, v) ∧ r.Sought v ∧ v.Holds o ∧ v.text? o = some text := by
  obtain ⟨o, v, made, -, held, -, holds, -⟩ := allocated (r.require stringName) (.text text) r
  have sought := Sought.newText text r
  rw [show Realm.newText text r = (o, v) from made] at sought
  exact ⟨o, v, made, sought, held, by rw [text?, holds]⟩

/-! ### The service and the loaders of the class library -/

/-- The Host lists packages by this method. -/
def ListsBy (r : Realm) (m : Method) : Prop :=
  ∃ c, r.registry.get? classListName = some c ∧
    (r.methods c).find? (fun m => m.name == "get" && m.params == [stringName]) = some m ∧
    m.isStatic = true ∧ m.body = .inl (.library .listClasses)

/-- Class loaders load classes by this method, and the loader does so as the library says. -/
def LoadsBy (r : Realm) (loader : ObjectId) (m : Method) : Prop :=
  ∃ c, r.registry.get? loaderName = some c ∧
    (r.methods c).find? (fun m => m.name == "loadClass" && m.params == [stringName]) = some m ∧
    m.isStatic = false ∧
    (r.resolveVirtual (r.classIdOf loader) m).body = .inl (.library .loadClass)

variable {m : Method}

theorem ListsBy.grows (h : r.ListsBy m) (grows : r.Grows v) (coherent : r.Coherent) :
    v.ListsBy m := by
  obtain ⟨c, known, found, runs⟩ := h
  refine ⟨c, by rw [grows.registry, known], ?_, runs⟩
  rw [grows.toIncludes.methods coherent (coherent.registered _ c known)]
  exact found

theorem LoadsBy.grows {loader : ObjectId} (h : r.LoadsBy loader m) (grows : r.Grows v)
    (coherent : r.Coherent) (held : r.Holds loader) (has : r.Has (r.classIdOf loader)) :
    v.LoadsBy loader m := by
  obtain ⟨c, known, found, virtual, runs⟩ := h
  refine ⟨c, by rw [grows.registry, known], ?_, virtual, ?_⟩
  · rw [grows.toIncludes.methods coherent (coherent.registered _ c known)]
    exact found
  · rw [grows.objects loader held, grows.toIncludes.resolveVirtual coherent has]
    exact runs

end Realm
end ScriptBridge.Host

namespace ScriptBridge.Bridge

open Host (ClassId ObjectId Realm Method HostM BodyM Bodies onRealm)
open Script (InterpreterId)

variable {ε α : Type} {w v u : World} {r : Realm} {ts : InterpreterId} {loader : ObjectId}
  {packages : Option (List String)}

/-! ### Searching -/

/-- The Host lists packages and loads classes as its library does, what the bridge remembers of that
is right, and the class loader was made for these packages. -/
structure World.Searchable (ts : InterpreterId) (loader : ObjectId)
    (packages : Option (List String)) (w : World) : Prop where
  named : w.outside.realm.Named
  strings : ∃ c, w.outside.realm.registry.get? Host.stringName = some c
  held : w.outside.realm.Holds loader
  ofClass : w.outside.realm.Has (w.outside.realm.classIdOf loader)
  spec : w.outside.realm.payload loader = .loader packages
  lists : ∃ m, w.outside.realm.ListsBy m ∧
    ∀ m', w.outside.listings.lookup (w.memory.interpreter ts).runtime = some m' → m' = m
  loads : ∃ m, w.outside.realm.LoadsBy loader m ∧ ∀ m', w.outside.loadClass = some m' → m' = m

/-- The Host can be searched again after it was. -/
theorem World.Searchable.grown (h : w.Searchable ts loader packages)
    (sought : w.outside.realm.Sought v.outside.realm)
    (listings : v.outside.listings = w.outside.listings)
    (loadClass : v.outside.loadClass = w.outside.loadClass)
    (runtime : (v.memory.interpreter ts).runtime = (w.memory.interpreter ts).runtime) :
    v.Searchable ts loader packages := by
  have grows := sought.grows
  have coherent := h.named.toCoherent
  obtain ⟨c, known⟩ := h.strings
  obtain ⟨m, lists, remembered⟩ := h.lists
  obtain ⟨n, loads, remembers⟩ := h.loads
  refine ⟨sought.named h.named, ⟨c, by rw [grows.registry, known]⟩, grows.held _ h.held, ?_, ?_,
    ⟨m, lists.grows grows coherent, by rwa [listings, runtime]⟩,
    ⟨n, loads.grows grows coherent h.held h.ofClass, by rwa [loadClass]⟩⟩
  · rw [grows.objects loader h.held]
    exact grows.kept _ h.ofClass
  · have kept := grows.payloads loader h.held
    rw [h.spec] at kept
    exact kept

/-- The Host was searched, and nothing else happened. -/
structure Searches (ts : InterpreterId) (loader : ObjectId) (packages : Option (List String))
    (w v : World) : Prop where
  memory : v.memory = w.memory
  realm : w.outside.realm.Sought v.outside.realm
  outside : v.outside = { w.outside with
    realm := v.outside.realm, listings := v.outside.listings, loadClass := v.outside.loadClass }
  searchable : v.Searchable ts loader packages

namespace Searches

theorem refl (h : w.Searchable ts loader packages) : Searches ts loader packages w w :=
  ⟨rfl, .refl _, rfl, h⟩

theorem trans (h : Searches ts loader packages w v) (h' : Searches ts loader packages v u) :
    Searches ts loader packages w u where
  memory := h'.memory.trans h.memory
  realm := h.realm.trans h'.realm
  outside := by rw [h'.outside, h.outside]
  searchable := h'.searchable

theorem of_sought (h : w.Searchable ts loader packages) (sought : w.outside.realm.Sought r) :
    Searches ts loader packages w (w.onRealm r) :=
  ⟨rfl, sought, rfl, h.grown sought rfl rfl rfl⟩

end Searches

end ScriptBridge.Bridge
