import ScriptBridge.Proofs.Imports.Search

/-!
# Listing packages and loading classes

A package is listed by the class list of the library, and a class is loaded by the loader of a
context. Whether a class is found or not, the Host is left as calm as it was.
-/

namespace ScriptBridge.Bridge

open Host (ClassId ObjectId Realm Method HostM BodyM Bodies onRealm)
open Script (InterpreterId)

variable {ε α : Type} {w v u : World} {r : Realm} {ts : InterpreterId} {loader : ObjectId}
  {packages : Option (List String)}

/-! ### Listing packages -/

theorem findClass_registered {name : String} (plain : PlainName name) {c : ClassId}
    (known : w.outside.realm.registry.get? name = some c) :
    (Host.findClass name : HostM World ClassId) w = .ok c w := by
  have looked := plain w.outside.realm
  rw [known] at looked
  exact bind_ok (onRealm_run looked)

theorem textArgument_run {o : ObjectId} {text : String} (holds : w.outside.realm.text? o = some text) :
    (Host.textArgument [.ref o] 0 : BodyM World String) w = .ok text w := by
  have got : (Host.objectArgument [.ref o] 0 : BodyM World ObjectId) w = .ok o w := rfl
  have told : (Host.calling (Host.stringChars o) : BodyM World String) w = .ok text w := by
    simp only [Host.calling, stringChars_run holds]
  exact (bind_ok got).trans told

/-- By induction on the names: each becomes a string of its own. -/
theorem texts_run (names : List String) (w : World) :
    ∃ (objects : List ObjectId) (r : Realm),
      (names.mapM fun name => Host.textResult name : BodyM World (List Host.Value)) w =
        .ok (objects.map .ref) (w.onRealm r) ∧
      w.outside.realm.Sought r ∧ (∀ o ∈ objects, r.Holds o) ∧
      objects.map r.text? = names.map some := by
  induction names generalizing w with
  | nil => exact ⟨[], w.outside.realm, rfl, .refl _, nofun, rfl⟩
  | cons name rest ih =>
    obtain ⟨o, r, made, sought, held, holds⟩ := Realm.newText_sought name w.outside.realm
    obtain ⟨objects, r', ran, sought', others, texts⟩ := ih (w.onRealm r)
    have written : (Host.textResult name : BodyM World Host.Value) w = .ok (.ref o) (w.onRealm r) :=
      bind_ok (onRealm_run made)
    refine ⟨o :: objects, r', ?_, sought.trans sought', ?_, ?_⟩
    · rw [List.mapM_cons]
      exact (bind_ok written).trans (bind_ok ran)
    · rintro o' (_ | ⟨_, mem⟩)
      · exact sought'.grows.held o held
      · exact others o' mem
    · rw [List.map_cons, List.map_cons, texts, ← holds]
      exact congrArg (· :: _) (sought'.grows.text? held)

/-- What the names were written to is read again. -/
theorem namesAmong_run {objects : List ObjectId} {names : List String}
    (texts : objects.map w.outside.realm.text? = names.map some) :
    namesAmong (objects.map .ref) w = .ok names w := by
  induction objects generalizing names with
  | nil =>
    have none_left : names = [] := by simpa using texts.symm
    rw [none_left]
    rfl
  | cons o rest ih =>
    cases names with
    | nil => simp at texts
    | cons name others =>
      rw [List.map_cons, List.map_cons, List.cons.injEq] at texts
      rw [List.map_cons]
      unfold namesAmong
      rw [bind_ok (stringChars_run texts.1), bind_ok (ih texts.2)]
      rfl

/-- The Host's answer is a new array of new strings. -/
theorem listClasses_run (bodies : Bodies World) {o : ObjectId} {package : String}
    (h : w.Searchable ts loader packages) (asked : w.outside.realm.text? o = some package) :
    ∃ (array : ObjectId) (objects : List ObjectId) (r : Realm),
      (Host.LibraryMethod.listClasses.run bodies none [.ref o] : BodyM World _) w =
        .ok (.ref array) (w.onRealm r) ∧ Searches ts loader packages w (w.onRealm r) ∧
      r.payload array = .array (objects.map .ref) ∧
      objects.map r.text? = (w.outside.realm.listed package).map some := by
  obtain ⟨objects, r, written, sought, held, texts⟩ := texts_run (w.outside.realm.listed package) w
  have first := Searches.of_sought h sought
  obtain ⟨c, known⟩ := first.searchable.strings
  have registered : r.Has c := first.searchable.named.registered _ c known
  have found : (Host.findClass Host.stringName : HostM World ClassId) (w.onRealm r) =
      .ok c (w.onRealm r) := findClass_registered (fun _ => rfl) known
  obtain ⟨array, r', made, grows, -, -, holds, -⟩ := Realm.allocated (Realm.arrayClass c r).1
    (.array (objects.map .ref)) (Realm.arrayClass c r).2
  have answered : Realm.newArray c (objects.map .ref) r = (array, r') := made
  have below := Realm.Sought.arrayClass registered
  have above := Realm.Sought.allocate (Realm.arrayClass c r).1 (.array (objects.map .ref))
    (Realm.arrayClass c r).2
  rw [made] at above
  have second := below.trans above
  refine ⟨array, objects, r', ?_, .of_sought h (sought.trans second), holds, ?_⟩
  · have called : (Host.calling (Host.findClass Host.stringName) : BodyM World ClassId)
        (w.onRealm r) = .ok c (w.onRealm r) := by simp only [Host.calling, found]
    refine (bind_ok (textArgument_run asked)).trans ?_
    refine (bind_ok (getRealm_run w)).trans ((bind_ok written).trans ((bind_ok called).trans ?_))
    exact bind_ok (onRealm_run (w := w.onRealm r) answered)
  · rw [← texts]
    exact List.map_congr_left fun o mem => second.grows.text? (held o mem)

/-- The method is remembered with the state of the interpreter's runtime. -/
theorem listingMethod_run (h : w.Searchable ts loader packages) :
    ∃ m v, listingMethod ts w = .ok m v ∧ Searches ts loader packages w v ∧
      v.outside.realm.ListsBy m := by
  obtain ⟨m, lists, remembered⟩ := h.lists
  have state : (getState : HostM World State) w = .ok w.outside w := rfl
  have interpreter : (Script.getInterpreter ts : HostM World Script.Interpreter) w =
      .ok (w.memory.interpreter ts) w := rfl
  unfold listingMethod
  rw [bind_ok interpreter, bind_ok state]
  cases known : w.outside.listings.lookup (w.memory.interpreter ts).runtime with
  | some m' =>
    rw [← remembered m' known] at lists
    exact ⟨m', w, rfl, .refl h, lists⟩
  | none =>
    have listing := lists
    obtain ⟨c, registered, member, -⟩ := lists
    have found : (Host.findClass Host.classListName : HostM World ClassId) w = .ok c w :=
      findClass_registered (fun _ => rfl) registered
    have got : (Host.getMethod c "get" [Host.stringName] : HostM World Method) w = .ok m w :=
      (bind_ok (getRealm_run w)).trans (findMember_run member)
    simp only
    rw [bind_ok found, bind_ok got]
    refine ⟨m, _, rfl, ⟨rfl, .refl _, rfl, { h with lists := ⟨m, listing, fun m' known' => ?_⟩ }⟩,
      listing⟩
    have first : (((w.memory.interpreter ts).runtime, m) :: w.outside.listings).lookup
        (w.memory.interpreter ts).runtime = some m' := known'
    rw [List.lookup_cons_self] at first
    exact (Option.some.inj first).symm

/-- The Host is asked for the classes of a package. -/
theorem listMembers_run (callback : Host.Callback → BodyM World Host.Value)
    (below : Unit → Bodies World) (package : String) (h : w.Searchable ts loader packages) :
    ∃ v, listMembers (.over callback below) ts package w =
        .ok (w.outside.realm.listed package) v ∧ Searches ts loader packages w v := by
  obtain ⟨m, v, got, first, c, -, member, static, does⟩ := listingMethod_run h
  obtain ⟨o, r, made, sought, -, asked⟩ := Realm.newText_sought package v.outside.realm
  have second := Searches.of_sought first.searchable sought
  have same : (v.onRealm r).outside.realm.listed package = w.outside.realm.listed package := by
    have packages := sought.packages.trans first.realm.packages
    exact congrArg (fun p => ((p.get? package).getD {}).names) packages
  obtain ⟨array, objects, r', ran, third, holds, texts⟩ :=
    listClasses_run (below ()) second.searchable asked
  have arity : [Host.Value.ref o].length = m.arity := by
    have params := List.find?_some member
    simp only [Bool.and_eq_true, beq_iff_eq] at params
    simp [Method.arity, params.2]
  have called : Host.callMethod (.over callback below) none m [.ref o] (v.onRealm r) =
      .ok (.ref array) ((v.onRealm r).onRealm r') := by
    rw [callMethod_run arity (by rw [World.chosen, if_pos static]) does]
    simp only [Host.running, Bodies.over, Host.Body.run, ran]
  have read : (Host.arrayElements array : HostM World (List Host.Value))
      ((v.onRealm r).onRealm r') = .ok (objects.map .ref) ((v.onRealm r).onRealm r') := by
    unfold Host.arrayElements
    rw [bind_ok (getRealm_run _)]
    have payload : ((v.onRealm r).onRealm r').outside.realm.payload array =
      .array (objects.map .ref) := holds
    rw [payload]
    rfl
  refine ⟨(v.onRealm r).onRealm r', ?_, first.trans (second.trans third)⟩
  unfold listMembers
  rw [bind_ok got, bind_ok (onRealm_run made), bind_ok called]
  simp only
  rw [bind_ok read, ← same]
  exact namesAmong_run texts

/-! ### Loading classes -/

/-- The method is remembered by the bridge. -/
theorem loadClassMethod_run (h : w.Searchable ts loader packages) :
    ∃ m v, loadClassMethod w = .ok m v ∧ Searches ts loader packages w v ∧
      v.outside.realm = w.outside.realm ∧ w.outside.realm.LoadsBy loader m := by
  obtain ⟨m, loads, remembered⟩ := h.loads
  have state : (getState : HostM World State) w = .ok w.outside w := rfl
  unfold loadClassMethod
  rw [bind_ok state]
  cases known : w.outside.loadClass with
  | some m' =>
    rw [← remembered m' known] at loads
    exact ⟨m', w, rfl, .refl h, rfl, loads⟩
  | none =>
    have loading := loads
    obtain ⟨c, registered, member, -⟩ := loads
    have found : (Host.findClass Host.loaderName : HostM World ClassId) w = .ok c w :=
      findClass_registered (fun _ => rfl) registered
    have got : (Host.getMethod c "loadClass" [Host.stringName] : HostM World Method) w = .ok m w :=
      (bind_ok (getRealm_run w)).trans (findMember_run member)
    simp only
    rw [bind_ok found, bind_ok got]
    refine ⟨m, _, rfl, ⟨rfl, .refl _, rfl, { h with loads := ⟨m, loading, fun m' known' => ?_⟩ }⟩,
      rfl, loading⟩
    exact (Option.some.inj known').symm

/-- A loader gives the class object of a class that it may load, and complains about others. -/
theorem loading_run (bodies : Bodies World) {o : ObjectId} {name : String}
    (h : w.Searchable ts loader packages) (asked : w.outside.realm.text? o = some name) :
    ∃ r, w.outside.realm.Sought r ∧
      ((∃ c mirror, (Host.LibraryMethod.loadClass.run bodies (some loader) [.ref o] :
            BodyM World _) w = .ok (.ref mirror) (w.onRealm r) ∧
          r.Has c ∧ r.mirrored? mirror = some c ∧
          w.outside.realm.loads packages name = some (r.shape c)) ∨
        ((Host.LibraryMethod.loadClass.run bodies (some loader) [.ref o] : BodyM World _) w =
            .error (.new "java.lang.ClassNotFoundException" (some name)) (w.onRealm r) ∧
          w.outside.realm.loads packages name = none)) := by
  have coherent := h.named.toCoherent
  obtain ⟨found, r, looked, -, has, shapes⟩ := Realm.lookupClass?_grows coherent name
  have sought := Realm.Sought.lookupClass? coherent name
  rw [looked] at sought
  have contents : (Host.contents Host.Payload.packages? (some loader) : BodyM World _) w =
      .ok (loader, packages) w := by
    refine (bind_ok (a := loader) rfl).trans ((bind_ok (getRealm_run w)).trans ?_)
    rw [h.spec]
    rfl
  cases found with
  | none =>
    refine ⟨r, sought, .inr ⟨?_, ?_⟩⟩
    · refine (bind_ok contents).trans ((bind_ok (textArgument_run asked)).trans ?_)
      exact bind_ok (onRealm_run looked)
    · rw [Realm.loads, ← shapes]
      rfl
  | some c =>
    have holds : r.Has c := has c rfl
    have known : w.outside.realm.typeNamed? name = some (r.shape c) := shapes.symm
    have called : w.outside.realm.typeName (r.shape c) = r.nameOf c := by
      rw [(sought.named h.named).nameOf c, sought.grows.typeName (Realm.typeNamed?_has coherent known)]
    by_cases allowed : Host.permits packages (r.nameOf c) = true
    · obtain ⟨mirror, r', made, sought', -, describes⟩ :=
        Realm.mirror_sought (sought.named h.named) c
      have same := sought'.grows.shape (sought.grows.coherent coherent) holds
      refine ⟨r', sought.trans sought', .inl ⟨c, mirror, ?_, sought'.grows.kept c holds, describes, ?_⟩⟩
      · refine (bind_ok contents).trans ((bind_ok (textArgument_run asked)).trans ?_)
        refine (bind_ok (onRealm_run looked)).trans ((bind_ok (getRealm_run (w.onRealm r))).trans ?_)
        refine (congrFun (if_pos allowed) _).trans ?_
        exact bind_ok (onRealm_run (w := w.onRealm r) made)
      · rw [Realm.loads, known, same, Option.filter, called, if_pos allowed]
    · refine ⟨r, sought, .inr ⟨?_, ?_⟩⟩
      · refine (bind_ok contents).trans ((bind_ok (textArgument_run asked)).trans ?_)
        refine (bind_ok (onRealm_run looked)).trans ((bind_ok (getRealm_run (w.onRealm r))).trans ?_)
        exact congrFun (if_neg allowed) _
      · rw [Realm.loads, known, Option.filter, called, if_neg allowed]

theorem quietly_ok {call : HostM World α} {a : α} (ran : call w = .ok a v) :
    (quietly call : EStateM ε World (Option α)) w = .ok (some a) v :=
  bind_ok (attempt_ok ran)

/-- A throwable of no interest is pending for a moment, and then the Host is calm as before. -/
theorem quietly_error {call : HostM World α} {throwable : ObjectId} (calm : r.pending = none)
    (failed : call w = .error {} (v.onRealm { r with pending := some throwable })) :
    (quietly call : EStateM ε World (Option α)) w = .ok none (v.onRealm r) := by
  have cleared : { { r with pending := some throwable } with pending := none } = r := by
    rw [← calm]
  unfold quietly
  rw [bind_ok (attempt_error failed)]
  simp only
  rw [bind_ok (onRealm_run (r := r) (a := ()) (Prod.ext rfl cleared))]
  rfl

/-- A body that fails leaves its throwable pending. -/
theorem running_new {body : BodyM World α} {name : String} {message : Option String}
    {throwable : ObjectId} {r' : Realm} (ran : body w = .error (.new name message) (v.onRealm r))
    (written : Realm.newThrowable name message none r = (throwable, r')) :
    Host.running body w = .error {} (v.onRealm { r' with pending := some throwable }) := by
  simp only [Host.running, ran, Host.raise]
  exact bind_ok (onRealm_run (w := v.onRealm r) written)

/-- What a loader cannot load is complained about, and the complaint is of no interest. -/
theorem loadClass_run (callback : Host.Callback → BodyM World Host.Value)
    (below : Unit → Bodies World) (name : String) (h : w.Searchable ts loader packages)
    (calm : w.outside.realm.pending = none) :
    ∃ found v, (quietly (loadClass (.over callback below) loader name) :
        EStateM ε World (Option ClassId)) w = .ok found v ∧ Searches ts loader packages w v ∧
      (∀ c ∈ found, v.outside.realm.Has c) ∧
      found.map v.outside.realm.shape = w.outside.realm.loads packages name := by
  obtain ⟨m, v, got, first, unchanged, loads⟩ := loadClassMethod_run h
  obtain ⟨o, r, made, sought, -, asked⟩ := Realm.newText_sought name v.outside.realm
  have second := Searches.of_sought first.searchable sought
  have before := first.searchable.named.toCoherent
  rw [← unchanged] at loads calm ⊢
  obtain ⟨d, -, member, virtual, does⟩ :=
    loads.grows sought.grows before first.searchable.held first.searchable.ofClass
  have same : r.loads packages name = v.outside.realm.loads packages name :=
    sought.grows.loads before packages name
  have arity : [Host.Value.ref o].length = m.arity := by
    have params := List.find?_some member
    simp only [Bool.and_eq_true, beq_iff_eq] at params
    simp [Method.arity, params.2]
  have called : Host.callMethod (.over callback below) (some loader) m [.ref o] (v.onRealm r) =
      Host.running (Host.LibraryMethod.loadClass.run (below ()) (some loader) [.ref o])
        (v.onRealm r) := by
    have dynamic : ¬m.isStatic = true := by
      rw [virtual]
      exact Bool.false_ne_true
    exact callMethod_run arity (by rw [World.chosen, if_neg dynamic, Option.map_some]; rfl) does
  obtain ⟨r', sought', ⟨c, mirror, ran, has, describes, can⟩ | ⟨ran, cannot⟩⟩ :=
    loading_run (below ()) second.searchable asked
  · have found : ((v.onRealm r).onRealm r').outside.realm.mirrored? mirror = some c := describes
    have loaded : loadClass (.over callback below) loader name w =
        .ok c ((v.onRealm r).onRealm r') := by
      have answered := called
      simp only [Host.running, ran] at answered
      unfold loadClass
      rw [bind_ok got, bind_ok (onRealm_run made), bind_ok answered, bind_ok (getRealm_run _)]
      simp only [Host.Value.ref?, Option.bind_some, found]
      rfl
    exact ⟨some c, _, quietly_ok loaded,
      first.trans (second.trans (.of_sought second.searchable sought')),
      fun _ found => Option.some.inj found ▸ has, can.symm.trans same⟩
  · have complained := Realm.Sought.newThrowable (sought'.named second.searchable.named).toCoherent
      "java.lang.ClassNotFoundException" (some name) none
    obtain ⟨throwable, u, written⟩ : ∃ throwable u, Realm.newThrowable
        "java.lang.ClassNotFoundException" (some name) none r' = (throwable, u) := ⟨_, _, rfl⟩
    rw [written] at complained
    have third := sought'.trans complained
    have quiet : u.pending = none := third.pending.trans (sought.pending.trans calm)
    have failed : loadClass (.over callback below) loader name w =
        .error {} (v.onRealm { u with pending := some throwable }) := by
      unfold loadClass
      rw [bind_ok got, bind_ok (onRealm_run made),
        bind_error (called.trans (running_new (v := v.onRealm r) ran written))]
      rfl
    exact ⟨none, v.onRealm u, quietly_error quiet failed,
      first.trans (second.trans (.of_sought second.searchable third)),
      fun _ found => absurd found (Option.not_mem_none _), cannot.symm.trans same⟩

/-- By induction on the members: those that the loader can load are left, in their order. -/
theorem loadable_run (callback : Host.Callback → BodyM World Host.Value)
    (below : Unit → Bodies World) (members : List String) (h : w.Searchable ts loader packages)
    (calm : w.outside.realm.pending = none) :
    ∃ (found : List (String × ClassId)) (v : World),
      loadable (.over callback below) loader members w = .ok found v ∧
      Searches ts loader packages w v ∧ (∀ entry ∈ found, v.outside.realm.Has entry.2) ∧
      found.map (fun entry => (entry.1, v.outside.realm.shape entry.2)) =
        members.filterMap fun member =>
          (w.outside.realm.loads packages member).map fun t => (Host.simpleName member, t) := by
  induction members generalizing w with
  | nil => exact ⟨[], w, rfl, .refl h, nofun, rfl⟩
  | cons member rest ih =>
    obtain ⟨loaded, u, ran, first, has, shape⟩ :=
      loadClass_run (ε := Script.Raised) callback below member h calm
    obtain ⟨more, v, others, second, have_more, shapes⟩ :=
      ih first.searchable (first.realm.pending.trans calm)
    have coherent := first.searchable.named.toCoherent
    have same : ∀ name, u.outside.realm.loads packages name = w.outside.realm.loads packages name :=
      first.realm.grows.loads h.named.toCoherent packages
    refine ⟨(loaded.map fun c => (Host.simpleName member, c)).toList ++ more, v, ?_,
      first.trans second, ?_, ?_⟩
    · unfold loadable
      rw [bind_ok ran, bind_ok others]
      rfl
    · intro entry mem
      rcases List.mem_append.mp mem with mem | mem
      · simp only [Option.mem_toList, Option.map_eq_some_iff] at mem
        obtain ⟨c, found, rfl⟩ := mem
        exact second.realm.grows.kept c (has c found)
      · exact have_more entry mem
    · rw [List.map_append, shapes, List.filterMap_cons, ← shape]
      simp only [same]
      cases loaded with
      | none => rfl
      | some c =>
        have kept := second.realm.grows.shape coherent (has c rfl)
        simp only [Option.map_some, Option.toList_some, List.map_cons, List.map_nil, kept]
        rfl

end ScriptBridge.Bridge
