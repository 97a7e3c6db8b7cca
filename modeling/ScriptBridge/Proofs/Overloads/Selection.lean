import ScriptBridge.Bridge.Method
import ScriptBridge.Proofs.Overloads.Fitting

/-!
# Which overload is called

A call with arguments reaches the Host exactly if some overload has as many parameters as there are
arguments and each argument fits its parameter, and the first such overload is called. Otherwise
nothing of the Host runs and one error says why: by the number of the arguments, by the position
of the first one that does not fit, or that there is no match.
-/

namespace ScriptBridge.Bridge

open Host (ClassId ObjectId Realm Bodies HostM Method)
open Script (InterpreterId Exception)

variable {ε α β : Type} {w v u : World} {c : ClassId} {t : ClassId × Nat} {ts : InterpreterId}

/-! ### Type names of parameters -/

/-- The name leads to a class, and the class is of a kind. -/
def World.Classifies (w : World) (name : String) : Prop :=
  ∃ t kind, w.outside.realm.typeNamed? name = some t ∧ w.kindAt t = .ok kind

/-- The value fits a parameter whose type has a name. -/
def World.fitsNamed (w : World) (value : Script.Value) (name : String) : Bool :=
  match w.outside.realm.typeNamed? name with
  | none => false
  | some t =>
    match w.kindAt t with
    | .ok kind => w.fits value t kind
    | .error _ => false

theorem Descends.classifies (h : Descends w v) (formed : w.Formed) {name : String}
    (classifies : w.Classifies name) : v.Classifies name := by
  obtain ⟨t, kind, known, kinds⟩ := classifies
  refine ⟨t, kind, ?_, ?_⟩
  · rw [h.realm.typeNamed? formed.coherent, known]
  · rw [h.kindAt formed (Realm.typeNamed?_has formed.coherent known), kinds]

theorem Descends.fitsNamed (h : Descends w v) (formed : w.Formed) (value : Script.Value)
    (name : String) : v.fitsNamed value name = w.fitsNamed value name := by
  unfold World.fitsNamed
  rw [h.realm.typeNamed? formed.coherent]
  cases known : w.outside.realm.typeNamed? name with
  | none => rfl
  | some t =>
    have ht := Realm.typeNamed?_has formed.coherent known
    dsimp only
    rw [h.kindAt formed ht]
    cases w.kindAt t with
    | error u => rfl
    | ok kind => exact h.fits formed ht value kind

/-- Classes that type names lead to. -/
structure Stand (w : World) (names : List String) (classes : List ClassId) : Prop where
  has : ∀ c ∈ classes, w.outside.realm.Has c
  shapes : classes.map (fun c => some (w.outside.realm.shape c)) =
    names.map w.outside.realm.typeNamed?

theorem Descends.stand (h : Descends w v) (formed : w.Formed) {names : List String}
    {classes : List ClassId} (stand : Stand w names classes) : Stand v names classes where
  has c hc := h.realm.kept c (stand.has c hc)
  shapes := by
    have shapes : classes.map (fun c => some (v.outside.realm.shape c)) =
        classes.map fun c => some (w.outside.realm.shape c) :=
      List.map_congr_left fun c hc => by rw [h.realm.shape formed.coherent (stand.has c hc)]
    have names : v.outside.realm.typeNamed? = w.outside.realm.typeNamed? := by
      funext name
      rw [h.realm.typeNamed? formed.coherent]
    rw [shapes, names, stand.shapes]

theorem findClasses_eq (formed : w.Formed) {names : List String}
    (classifies : ∀ name ∈ names, w.Classifies name) :
    ∃ classes v, Descends w v ∧
      (Host.findClasses names : HostM World (List ClassId)) w = .ok classes v ∧
      Stand v names classes := by
  induction names generalizing w with
  | nil => exact ⟨[], w, .refl formed, rfl, by simp, rfl⟩
  | cons name rest ih =>
    obtain ⟨t, kind, known, kinds⟩ := classifies name (by simp)
    obtain ⟨c, v, later, found, has, shape⟩ := findClass_eq formed known
    obtain ⟨classes, u, last, others, stand⟩ := ih later.formed fun other hother =>
      later.classifies formed (classifies other (List.mem_cons_of_mem _ hother))
    refine ⟨c :: classes, u, later.trans last, ?_, ?_, ?_⟩
    · unfold Host.findClasses
      rw [bind_ok found, bind_ok others]
      rfl
    · intro d hd
      rcases List.mem_cons.1 hd with rfl | hd
      · exact last.realm.kept _ has
      · exact stand.has d hd
    · rw [List.map_cons, List.map_cons, stand.shapes,
        last.realm.shape later.formed.coherent has, shape,
        (later.trans last).realm.typeNamed? formed.coherent, known]

theorem Stand.cons_inv {name : String} {rest : List String} {classes : List ClassId}
    (stand : Stand w (name :: rest) classes) :
    ∃ c others, classes = c :: others ∧ w.outside.realm.Has c ∧
      w.outside.realm.typeNamed? name = some (w.outside.realm.shape c) ∧ Stand w rest others := by
  cases classes with
  | nil => cases stand.shapes
  | cons c others =>
    have shapes := stand.shapes
    simp only [List.map_cons, List.cons.injEq] at shapes
    exact ⟨c, others, rfl, stand.has c (by simp), shapes.1.symm,
      fun d hd => stand.has d (List.mem_cons_of_mem _ hd), shapes.2⟩

theorem Stand.nil_inv {classes : List ClassId} (stand : Stand w [] classes) : classes = [] :=
  List.map_eq_nil_iff.mp stand.shapes

/-- What is known about a parameter when its class has been found. -/
theorem World.Classifies.at_class {name : String} (classifies : w.Classifies name)
    (known : w.outside.realm.typeNamed? name = some (w.outside.realm.shape c)) :
    ∃ kind, w.kindAt (w.outside.realm.shape c) = .ok kind ∧
      ∀ value, w.fitsNamed value name = w.fits value (w.outside.realm.shape c) kind := by
  obtain ⟨t, kind, found, kinds⟩ := classifies
  rw [known] at found
  cases found
  refine ⟨kind, kinds, fun value => ?_⟩
  simp only [World.fitsNamed, known, kinds]

/-- All arguments fit the parameters with these type names. -/
def World.allFit (w : World) (args : List Script.Value) (names : List String) : Bool :=
  (args.zip names).all fun (value, name) => w.fitsNamed value name

theorem Descends.allFit (h : Descends w v) (formed : w.Formed) (args : List Script.Value)
    (names : List String) : v.allFit args names = w.allFit args names := by
  simp only [World.allFit, h.fitsNamed formed]

/-- By induction on the arguments, each of which may need another token. -/
theorem argumentsFit_eq (formed : w.Formed) (args : List Script.Value) {names : List String}
    {classes : List ClassId} (stand : Stand w names classes)
    (classifies : ∀ name ∈ names, w.Classifies name) (ts : InterpreterId) :
    ∃ v, Descends w v ∧ argumentsFit ts (args.zip classes) w = .ok (w.allFit args names) v := by
  induction args generalizing w names classes with
  | nil => exact ⟨w, .refl formed, rfl⟩
  | cons value rest ih =>
    cases names with
    | nil =>
      rw [stand.nil_inv]
      exact ⟨w, .refl formed, rfl⟩
    | cons name names =>
      obtain ⟨c, others, rfl, hc, known, below⟩ := stand.cons_inv
      obtain ⟨kind, kinds, fits⟩ := (classifies name (by simp)).at_class known
      obtain ⟨v, later, classified⟩ := kindOf_eq formed hc kinds ts
      obtain ⟨u, last, asked⟩ := matchesParam_eq (ε := Script.Raised) later.formed
        (later.realm.kept c hc) value kind
      have soon := later.trans last
      have answer : v.fits value (v.outside.realm.shape c) kind = w.fitsNamed value name := by
        rw [fits, later.realm.shape formed.coherent hc,
          later.fits formed (hc.bottom formed.coherent)]
      rw [answer] at asked
      unfold argumentsFit
      simp only [List.zip_cons_cons, World.allFit, List.all_cons]
      rw [bind_ok classified, bind_ok asked]
      cases fitting : w.fitsNamed value name with
      | false => exact ⟨u, soon, rfl⟩
      | true =>
        obtain ⟨x, final, rest_eq⟩ := ih soon.formed (soon.stand formed below) fun other hother =>
          soon.classifies formed (classifies other (List.mem_cons_of_mem _ hother))
        rw [soon.allFit formed] at rest_eq
        exact ⟨x, soon.trans final, rest_eq⟩

/-! ### Choosing an overload -/

/-- The method takes as many arguments, and each fits its parameter. -/
def World.accepts (w : World) (args : List Script.Value) (m : Method) : Bool :=
  m.arity == args.length && w.allFit args m.params

/-- The first overload of the right arity that all arguments fit is found. -/
theorem firstFitting_eq (formed : w.Formed) (args : List Script.Value) {candidates : List Method}
    (classifies : ∀ m ∈ candidates, ∀ name ∈ m.params, w.Classifies name) (ts : InterpreterId) :
    ∃ v, Descends w v ∧ ∀ bodies, firstFitting bodies ts args candidates w =
      match candidates.find? fun m => w.allFit args m.params with
      | some m => .ok m v
      | none => complain ts .runtime "Matching overloaded method not found." v := by
  induction candidates generalizing w with
  | nil => exact ⟨w, .refl formed, fun _ => rfl⟩
  | cons m rest ih =>
    obtain ⟨classes, v, later, found, stand⟩ := findClasses_eq formed (classifies m (by simp))
    obtain ⟨u, last, asked⟩ := argumentsFit_eq later.formed args stand (fun name hname =>
      later.classifies formed (classifies m (by simp) name hname)) ts
    have soon := later.trans last
    rw [later.allFit formed] at asked
    cases fits : w.allFit args m.params with
    | true =>
      refine ⟨u, soon, fun bodies => ?_⟩
      unfold firstFitting
      rw [bind_ok (hostCall_ok found bodies ts), bind_ok asked]
      simp only [List.find?_cons, fits]
      rfl
    | false =>
      obtain ⟨x, final, rest_eq⟩ := ih soon.formed fun n hn name hname =>
        soon.classifies formed (classifies n (List.mem_cons_of_mem _ hn) name hname)
      simp only [soon.allFit formed] at rest_eq
      refine ⟨x, soon.trans final, fun bodies => ?_⟩
      unfold firstFitting
      rw [bind_ok (hostCall_ok found bodies ts), bind_ok asked]
      simp only [List.find?_cons, fits]
      exact rest_eq bodies

/-! ### Converting all arguments -/

/-- The first argument that does not fit, with those before it. -/
structure FirstMisfit (w : World) (args : List Script.Value) (names : List String)
    (before : List (Script.Value × String)) : Prop where
  fitting : ∀ entry ∈ before, w.fitsNamed entry.1 entry.2 = true
  misfit : ∃ value name after, args.zip names = before ++ (value, name) :: after ∧
    w.fitsNamed value name = false

theorem FirstMisfit.earlier {args : List Script.Value} {names : List String}
    {before : List (Script.Value × String)} (h : FirstMisfit v args names before)
    (later : Descends w v) (formed : w.Formed) : FirstMisfit w args names before where
  fitting entry hentry := by
    rw [← later.fitsNamed formed]
    exact h.fitting entry hentry
  misfit := by
    obtain ⟨value, name, after, split, unfit⟩ := h.misfit
    exact ⟨value, name, after, split, by rwa [← later.fitsNamed formed]⟩

theorem FirstMisfit.cons {args : List Script.Value} {names : List String}
    {before : List (Script.Value × String)} (h : FirstMisfit w args names before)
    {value : Script.Value} {name : String} (fits : w.fitsNamed value name = true) :
    FirstMisfit w (value :: args) (name :: names) ((value, name) :: before) where
  fitting := by
    simpa only [List.mem_cons, forall_eq_or_imp] using ⟨fits, h.fitting⟩
  misfit := by
    obtain ⟨other, otherName, after, split, unfit⟩ := h.misfit
    exact ⟨other, otherName, after, by rw [List.zip_cons_cons, split]; rfl, unfit⟩

theorem Decides.after {β : Type} {ts : InterpreterId} {position : Nat} {fits : Bool}
    {first : BridgeM β} {b : β} {step : β → Bodies World → BridgeM Host.Value}
    (later : Descends w v) (ran : first w = .ok b v) (h : Decides v ts position fits (step b)) :
    Decides w ts position fits fun bodies => first >>= fun b => step b bodies := by
  cases fits with
  | true =>
    obtain ⟨converted, u, last, made⟩ := h
    exact ⟨converted, u, later.trans last, fun bodies => (bind_ok ran).trans (made bodies)⟩
  | false =>
    obtain ⟨message, u, last, refused⟩ := h
    exact ⟨message, u, later.trans last, fun bodies => (bind_ok ran).trans (refused bodies)⟩

/-- An argument is converted exactly if it fits the parameter of that name. -/
theorem coerceNamed_decides (formed : w.Formed) (hc : w.outside.realm.Has c) {name : String}
    (known : w.outside.realm.typeNamed? name = some (w.outside.realm.shape c))
    (classifies : w.Classifies name) {value : Script.Value}
    (commits : ∀ f, value = .foreign f → w.Commits f.place) (ts : InterpreterId) (position : Nat) :
    Decides w ts position (w.fitsNamed value name) fun bodies =>
      kindOf ts c >>= fun kind => coerce bodies ts value c kind position := by
  obtain ⟨kind, kinds, fits⟩ := classifies.at_class known
  obtain ⟨v, later, classified⟩ := kindOf_eq formed hc kinds ts
  have same := later.realm.shape formed.coherent hc
  have bottom := hc.bottom formed.coherent
  have decides : Decides v ts position (v.fits value (v.outside.realm.shape c) kind)
      fun bodies => coerce bodies ts value c kind position := by
    refine coerce_decides later.formed (later.realm.kept c hc) ?_ fun _ _ f hf => ?_
    · rw [same, later.kindAt formed bottom, kinds]
    · exact later.commits formed (commits f hf)
  rw [same, later.fits formed bottom, ← fits] at decides
  exact .after later classified decides

/-- By induction on the arguments: they are converted up to the first one that does not fit. -/
theorem coerceAll_eq (formed : w.Formed) {args : List Script.Value} {names : List String}
    {classes : List ClassId} (stand : Stand w names classes)
    (classifies : ∀ name ∈ names, w.Classifies name)
    (commits : ∀ f, .foreign f ∈ args → w.Commits f.place) (ts : InterpreterId) (position : Nat) :
    match w.allFit args names with
    | true => ∃ converted v, Descends w v ∧
        ∀ bodies, coerceAll bodies ts position (args.zip classes) w = .ok converted v
    | false => ∃ before message v, FirstMisfit w args names before ∧ Descends w v ∧
        ∀ bodies, coerceAll bodies ts position (args.zip classes) w =
          mismatch ts (position + before.length) message v := by
  induction args generalizing w names classes position with
  | nil => exact ⟨[], w, .refl formed, fun _ => rfl⟩
  | cons value rest ih =>
    cases names with
    | nil =>
      rw [stand.nil_inv]
      exact ⟨[], w, .refl formed, fun _ => rfl⟩
    | cons name names =>
      obtain ⟨c, others, rfl, hc, known, below⟩ := stand.cons_inv
      have decides := coerceNamed_decides formed hc known (classifies name (by simp))
        (fun f hf => commits f (hf ▸ List.mem_cons_self)) ts position
      unfold coerceAll
      simp only [List.zip_cons_cons, World.allFit, List.all_cons, ← bind_assoc]
      cases fitting : w.fitsNamed value name with
      | false =>
        rw [fitting] at decides
        obtain ⟨message, u, last, refused⟩ := decides
        exact ⟨[], message, u, ⟨nofun, value, name, rest.zip names, rfl, fitting⟩, last,
          fun bodies => bind_error (refused bodies)⟩
      | true =>
        rw [fitting] at decides
        obtain ⟨converted, u, soon, made⟩ := decides
        have others_eq := ih soon.formed (soon.stand formed below)
          (fun other hother =>
            soon.classifies formed (classifies other (List.mem_cons_of_mem _ hother)))
          (fun f hf => soon.commits formed (commits f (List.mem_cons_of_mem _ hf))) (position + 1)
        rw [soon.allFit formed] at others_eq
        rw [Bool.true_and]
        change match w.allFit rest names with | true => _ | false => _
        cases fit : w.allFit rest names with
        | true =>
          rw [fit] at others_eq
          obtain ⟨more, x, final, done⟩ := others_eq
          refine ⟨converted :: more, x, soon.trans final, fun bodies => ?_⟩
          rw [bind_ok (made bodies), bind_ok (done bodies)]
          rfl
        | false =>
          rw [fit] at others_eq
          obtain ⟨before, message, x, first, final, done⟩ := others_eq
          refine ⟨(value, name) :: before, message, x, (first.earlier soon formed).cons fitting,
            soon.trans final, fun bodies => ?_⟩
          rw [bind_ok (made bodies)]
          have counted : position + (before.length + 1) = position + 1 + before.length := by omega
          rw [List.length_cons, counted]
          exact bind_error (done bodies)

/-! ### Declared exceptions -/

/-- The step succeeds, and what it leaves is a later state. -/
def Onward (step : EStateM ε World α) : Prop :=
  ∀ w : World, w.Formed → ∃ a v, step w = .ok a v ∧ Descends w v

theorem findClass_later (formed : w.Formed) (name : String) :
    ∃ v, Descends w v ∧ ((∃ c, (Host.findClass name : HostM World ClassId) w = .ok c v) ∨
      (Host.findClass name : HostM World ClassId) w = .error {} v) := by
  obtain ⟨found, r, looked, grows, -, -⟩ := Realm.lookupClass?_grows formed.coherent name
  unfold Host.findClass
  rw [bind_ok (onRealm_run looked)]
  cases found with
  | some c => exact ⟨w.onRealm r, .of_grows formed grows, .inl ⟨c, rfl⟩⟩
  | none =>
    have thrown := Realm.newThrowable_grows (grows.coherent formed.coherent)
      "java.lang.NoClassDefFoundError" (some name) none
    have pending := Realm.Grows.setPending
      (some (Realm.newThrowable "java.lang.NoClassDefFoundError" (some name) none r).1)
      (Realm.newThrowable "java.lang.NoClassDefFoundError" (some name) none r).2
    exact ⟨_, .of_grows formed ((grows.trans thrown).trans pending), .inr rfl⟩

theorem findClasses_later (formed : w.Formed) (names : List String) :
    ∃ v, Descends w v ∧ ((∃ classes, (Host.findClasses names : HostM World _) w = .ok classes v) ∨
      (Host.findClasses names : HostM World _) w = .error {} v) := by
  induction names generalizing w with
  | nil => exact ⟨w, .refl formed, .inl ⟨[], rfl⟩⟩
  | cons name rest ih =>
    obtain ⟨v, later, ⟨c, found⟩ | missed⟩ := findClass_later formed name
    · obtain ⟨u, last, ⟨classes, others⟩ | missed⟩ := ih later.formed
      · refine ⟨u, later.trans last, .inl ⟨c :: classes, ?_⟩⟩
        unfold Host.findClasses
        rw [bind_ok found, bind_ok others]
        rfl
      · refine ⟨u, later.trans last, .inr ?_⟩
        unfold Host.findClasses
        rw [bind_ok found, bind_error missed]
    · refine ⟨v, later, .inr ?_⟩
      unfold Host.findClasses
      rw [bind_error missed]

namespace Onward

theorem pure (a : α) : Onward (Pure.pure a : EStateM ε World α) :=
  fun w formed => ⟨a, w, rfl, .refl formed⟩

theorem bind {step : EStateM ε World α} {next : α → EStateM ε World β} (h : Onward step)
    (h' : ∀ a, Onward (next a)) : Onward (step >>= next) := by
  intro w formed
  obtain ⟨a, v, ran, later⟩ := h w formed
  obtain ⟨b, u, ran', last⟩ := h' a v later.formed
  exact ⟨b, u, by rw [bind_ok ran, ran'], later.trans last⟩

theorem ite {c : Prop} [Decidable c] {step other : EStateM ε World α} (h : Onward step)
    (h' : Onward other) : Onward (if c then step else other) := by
  split
  · exact h
  · exact h'

theorem get : Onward (getState : EStateM ε World State) := fun w formed => ⟨_, w, rfl, .refl formed⟩

theorem link? (ts : InterpreterId) : Onward (Bridge.link? ts : EStateM ε World (Option Link)) :=
  fun w formed => ⟨_, w, rfl, .refl formed⟩

theorem getRealm : Onward (Host.getRealm : EStateM ε World Realm) :=
  fun w formed => ⟨_, w, rfl, .refl formed⟩

theorem lookup? (module : Script.ModuleRef) (name : String) :
    Onward (Script.lookup? module name : EStateM ε World (Option Script.Value)) :=
  fun w formed => ⟨_, w, rfl, .refl formed⟩

/-- Changes of the script side that add and drop no interpreter. -/
theorem modifyMemory {f : Script.Memory → Script.Memory}
    (h : ∀ m : Script.Memory, (f m).interpreters = m.interpreters) :
    Onward (Script.modifyMemory f : EStateM ε World Unit) := by
  intro w formed
  refine ⟨(), w.onMemory f, rfl, .refl _, fun _ => rfl, fun _ => .refl _, ?_, rfl, rfl, rfl, ?_⟩
  · show (f w.memory).interpreters.size = w.memory.interpreters.size
    rw [h]
  · exact ⟨formed.coherent, formed.statics, formed.tokens, formed.views⟩

theorem bindName (module : Script.ModuleRef) (name : String) (value : Script.Value) :
    Onward (Script.bindName module name value : EStateM ε World Unit) :=
  modifyMemory fun m => (release_same _ m).2

theorem newMappedType (hostClass module : String) :
    Onward (Bridge.newMappedType hostClass module : EStateM ε World Script.ErrorType) :=
  .bind (fun w formed => ⟨w.memory, w, rfl, .refl formed⟩) fun _ =>
    .bind (modifyMemory fun _ => rfl) fun _ => .pure _

theorem registerAll (module : Script.ModuleRef) (names : List String) :
    Onward (Bridge.registerAll module names : EStateM ε World Unit) := by
  induction names with
  | nil => exact .pure ()
  | cons name rest ih =>
    refine .bind (lookup? module _) fun found => ?_
    exact .ite (.bind (newMappedType _ _) fun _ => .bind (bindName _ _ _) fun _ => ih) ih

/-- Looking classes up leaves array classes, and maybe a throwable that is then let go of. -/
theorem findClasses (names : List String) :
    Onward (quietly (Host.findClasses names) : EStateM ε World _) := by
  intro w formed
  obtain ⟨v, later, ended⟩ := findClasses_later formed names
  unfold quietly
  rcases ended with ⟨classes, found⟩ | missed
  · exact ⟨some classes, v, by rw [bind_ok (attempt_ok found)]; rfl, later⟩
  · refine ⟨none, _, ?_, later.trans (.of_grows later.formed (.setPending none _))⟩
    rw [bind_ok (attempt_error missed)]
    rfl

theorem registerExceptions (ts : InterpreterId) (method : Method) :
    Onward (Bridge.registerExceptions ts method : EStateM ε World Unit) := by
  refine .bind get fun s => ?_
  split
  · refine .bind (link? ts) fun link => ?_
    cases link with
    | none => exact .pure ()
    | some link =>
      refine .bind (findClasses _) fun classes => ?_
      cases classes with
      | none => exact .pure ()
      | some classes => exact .bind getRealm fun r => registerAll _ _
  · exact .pure ()

end Onward

/-! ### The chosen overload -/

/-- The overloads with as many parameters as there are arguments. -/
def candidates (overloads : List Method) (args : List Script.Value) : List Method :=
  overloads.filter (·.arity == args.length)

/-- There is one overload, or only one with as many parameters as there are arguments. -/
def Sole (overloads : List Method) (args : List Script.Value) (m : Method) : Prop :=
  overloads = [m] ∨ candidates overloads args = [m]

theorem selectOverload_sole {overloads : List Method} {args : List Script.Value} {m : Method}
    (sole : Sole overloads args m) (bodies : Bodies World) (ts : InterpreterId) :
    selectOverload bodies ts overloads args = pure m := by
  rcases sole with rfl | single
  · rfl
  · cases overloads with
    | nil => cases single
    | cons first others =>
      cases others with
      | nil =>
        have candidate : m ∈ candidates [first] args := by
          rw [single]
          exact List.mem_singleton_self m
        cases List.mem_singleton.mp (List.mem_of_mem_filter candidate)
        rfl
      | cons second rest =>
        unfold candidates at single
        simp only [selectOverload, single]

theorem selectOverload_several {overloads : List Method} {args : List Script.Value}
    (several : ¬∃ m, Sole overloads args m) (bodies : Bodies World) (ts : InterpreterId) :
    selectOverload bodies ts overloads args =
      firstFitting bodies ts args (candidates overloads args) := by
  have other : ∀ m, candidates overloads args ≠ [m] := fun m h => several ⟨m, .inr h⟩
  unfold selectOverload
  split
  · exact absurd ⟨_, .inl rfl⟩ several
  · split
    · rename_i only single
      exact absurd single (other only)
    · rfl

theorem Sole.mem {overloads : List Method} {args : List Script.Value} {m : Method}
    (sole : Sole overloads args m) : m ∈ overloads := by
  rcases sole with rfl | single
  · exact List.mem_singleton_self m
  · have mem : m ∈ candidates overloads args := by
      rw [single]
      exact List.mem_singleton_self m
    exact List.mem_of_mem_filter mem

/-- An overload that accepts the arguments is the only one that comes into question, if one is. -/
theorem Sole.eq_of_accepts {overloads : List Method} {args : List Script.Value} {m n : Method}
    (sole : Sole overloads args n) (mem : m ∈ overloads) (accepts : w.accepts args m = true) :
    m = n := by
  rcases sole with rfl | single
  · exact List.mem_singleton.mp mem
  · have candidate : m ∈ candidates overloads args := by
      rw [World.accepts, Bool.and_eq_true] at accepts
      exact List.mem_filter.mpr ⟨mem, accepts.1⟩
    rw [single] at candidate
    exact List.mem_singleton.mp candidate

/-- The first candidate whose parameters the arguments fit is the first overload that accepts
them. -/
theorem find?_candidates (overloads : List Method) (args : List Script.Value) :
    (candidates overloads args).find? (fun m => w.allFit args m.params) =
      overloads.find? (w.accepts args) := by
  rw [candidates, List.find?_filter]
  congr 1
  funext m
  rw [Bool.decide_and, Bool.decide_eq_true, Bool.decide_eq_true]
  rfl

/-- Where several overloads come into question, the first one that accepts the arguments is
chosen, if there is one. -/
theorem selectOverload_eq (formed : w.Formed) {overloads : List Method} {args : List Script.Value}
    (classifies : ∀ n ∈ overloads, ∀ name ∈ n.params, w.Classifies name)
    (several : ¬∃ m, Sole overloads args m) (ts : InterpreterId) :
    ∃ v, Descends w v ∧ ∀ bodies, selectOverload bodies ts overloads args w =
      match overloads.find? (w.accepts args) with
      | some m => .ok m v
      | none => complain ts .runtime "Matching overloaded method not found." v := by
  have known : ∀ n ∈ candidates overloads args, ∀ name ∈ n.params, w.Classifies name :=
    fun n hn => classifies n (List.mem_of_mem_filter hn)
  obtain ⟨v, later, tried⟩ := firstFitting_eq formed args known ts
  refine ⟨v, later, fun bodies => ?_⟩
  rw [selectOverload_several several, tried bodies, find?_candidates]

/-- Where some overload accepts the arguments, the first one that does is chosen. -/
theorem selectOverload_accepts (formed : w.Formed) {overloads before after : List Method}
    {args : List Script.Value} {m : Method}
    (classifies : ∀ n ∈ overloads, ∀ name ∈ n.params, w.Classifies name)
    (split : overloads = before ++ m :: after) (accepts : w.accepts args m = true)
    (first : ∀ n ∈ before, w.accepts args n = false) (ts : InterpreterId) :
    ∃ v, Descends w v ∧ ∀ bodies, selectOverload bodies ts overloads args w = .ok m v := by
  by_cases sole : ∃ n, Sole overloads args n
  · obtain ⟨n, sole⟩ := sole
    have mem : m ∈ overloads := by simp [split]
    cases sole.eq_of_accepts mem accepts
    exact ⟨w, .refl formed, fun bodies => by rw [selectOverload_sole sole]; rfl⟩
  · have found : overloads.find? (w.accepts args) = some m := by
      rw [split, List.find?_append, List.find?_eq_none.mpr (by simpa using first),
        List.find?_cons_of_pos accepts]
      rfl
    obtain ⟨v, later, chosen⟩ := selectOverload_eq formed classifies sole ts
    rw [found] at chosen
    exact ⟨v, later, chosen⟩

/-! ### Calling the chosen overload -/

/-- What a method answered, as a value of a script. -/
def returned (bodies : Bodies World) (ts : InterpreterId) (method : Method) (result : Host.Value) :
    BridgeM Script.Value := do
  let kind ← kindOf ts (← hostCall bodies ts (Host.findClass method.returnType))
  if kind = .void then return .none
  toScript bodies ts result kind

/-- The method is called with converted arguments. -/
def called (bodies : Bodies World) (ts : InterpreterId) (target : Option ObjectId)
    (method : Method) (converted : List Host.Value) : BridgeM Script.Value := do
  returned bodies ts method (← hostCall bodies ts (Host.callMethod bodies target method converted))

/-- What is known about the parameters and the arguments of a call. -/
structure Prepared (w : World) (m : Method) (args : List Script.Value) : Prop where
  formed : w.Formed
  classifies : ∀ name ∈ m.params, w.Classifies name
  commits : ∀ f, .foreign f ∈ args → w.Commits f.place

theorem Prepared.later {m : Method} {args : List Script.Value} (h : Prepared w m args)
    (later : Descends w v) : Prepared v m args where
  formed := later.formed
  classifies name hname := later.classifies h.formed (h.classifies name hname)
  commits f hf := later.commits h.formed (h.commits f hf)

variable {m : Method} {args : List Script.Value}

/-- Another number of arguments is refused. -/
theorem coerceArguments_arity (arity : m.arity ≠ args.length) (bodies : Bodies World) :
    coerceArguments bodies ts m args w = complain ts .runtime
      s!"Invalid number of arguments: {args.length}, expected {m.arity}." w := by
  unfold coerceArguments
  rw [if_pos (Ne.symm arity)]
  rfl

/-- Once the classes of the parameters are found, the arguments are converted one by one. -/
theorem coerceArguments_found (arity : m.arity = args.length) {classes : List ClassId}
    (found : (Host.findClasses m.params : HostM World _) w = .ok classes v) (bodies : Bodies World) :
    coerceArguments bodies ts m args w = coerceAll bodies ts 1 (args.zip classes) v := by
  unfold coerceArguments
  rw [if_neg (not_not_intro arity.symm)]
  exact bind_ok (hostCall_ok found bodies ts)

/-- The arguments are converted if all fit, and the first one that does not is refused. -/
theorem coerceArguments_eq (prepared : Prepared w m args) (arity : m.arity = args.length)
    (ts : InterpreterId) :
    match w.allFit args m.params with
    | true => ∃ converted v, Descends w v ∧
        ∀ bodies, coerceArguments bodies ts m args w = .ok converted v
    | false => ∃ before message v, FirstMisfit w args m.params before ∧ Descends w v ∧
        ∀ bodies, coerceArguments bodies ts m args w =
          mismatch ts (before.length + 1) message v := by
  obtain ⟨classes, v, later, found, stand⟩ := findClasses_eq prepared.formed prepared.classifies
  have next := prepared.later later
  have converts := coerceAll_eq next.formed stand next.classifies next.commits ts 1
  rw [later.allFit prepared.formed] at converts
  have entered : ∀ bodies, coerceArguments bodies ts m args w =
      coerceAll bodies ts 1 (args.zip classes) v := coerceArguments_found arity found
  cases fit : w.allFit args m.params with
  | true =>
    rw [fit] at converts
    obtain ⟨converted, u, last, made⟩ := converts
    exact ⟨converted, u, later.trans last, fun bodies => (entered bodies).trans (made bodies)⟩
  | false =>
    rw [fit] at converts
    obtain ⟨before, message, u, first, last, refused⟩ := converts
    refine ⟨before, message, u, first.earlier later prepared.formed, later.trans last,
      fun bodies => ?_⟩
    rw [entered bodies, refused bodies, Nat.add_comm]

/-- Exceptions are made known before the arguments are converted. -/
theorem invoke_eq (prepared : Prepared w m args) (target : Option ObjectId) (ts : InterpreterId) :
    ∃ u, Descends w u ∧ ∀ bodies, invoke bodies ts target m args w =
      (do called bodies ts target m (← coerceArguments bodies ts m args)) u := by
  obtain ⟨_, u, registered, later⟩ := Onward.registerExceptions ts m w prepared.formed
  exact ⟨u, later, fun bodies => bind_ok registered⟩

end ScriptBridge.Bridge
