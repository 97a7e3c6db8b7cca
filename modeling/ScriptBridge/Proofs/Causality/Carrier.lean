import ScriptBridge.Proofs.Causality.Aftermath
import ScriptBridge.Proofs.Conversions.Unboxing

/-!
# The exception that carries errors of scripts

A failure enters the Host as a new throwable of one class of the library, with the failure's
message and the throwable behind the failure as its cause. What this needs of the class can be
checked of a Host, and it holds of the class library. As long as the library's classes keep their
names, it holds in every later Host as well.
-/

namespace ScriptBridge.Host

variable {r v s : Realm} {c d : ClassId} {o : ObjectId}

/-- The classes of a library are still there, and the names by which throwables are made and asked
for their texts still lead to them. -/
structure Realm.Retains (r s : Realm) : Prop extends Realm.Includes s r where
  root : r.registry.get? objectName = s.registry.get? objectName
  carrier : r.registry.get? embedExceptionName = s.registry.get? embedExceptionName

theorem Realm.Retains.refl (r : Realm) : r.Retains r :=
  ⟨⟨fun _ has => has, fun _ _ => rfl⟩, rfl, rfl⟩

theorem Realm.Retains.grows (h : r.Retains s) (grows : r.Grows v) : v.Retains s where
  kept c hc := grows.kept c (h.kept c hc)
  classes c hc := (grows.classes c (h.kept c hc)).trans (h.classes c hc)
  root := by rw [grows.registry, h.root]
  carrier := by rw [grows.registry, h.carrier]

/-- Asked for their text, objects of the class say what throwables say. -/
def Realm.Describes (s : Realm) (c : ClassId) : Prop :=
  ∃ d m, s.registry.get? objectName = some d ∧
    (s.methods d).find? (fun m => m.name == "toString" && m.params == []) = some m ∧
    m.isStatic = false ∧ (s.resolveVirtual c m).body = .inl (.library .throwableText)

/-- The class of the exception that carries errors: its objects keep a message and a cause. -/
structure Realm.Carrier (s : Realm) (c : ClassId) : Prop where
  registered : s.registry.get? embedExceptionName = some c
  named : s.nameOf c = embedExceptionName
  concrete : (s.classOf c).kind = .concrete
  describes : s.Describes c
  constructor : ∃ m, (s.constructors c).find? (fun m =>
      m.name == constructorName && m.params == [stringName, Standard.throwableName]) = some m ∧
    m.body = .inr .causedThrowable

/-! ### Checking -/

/-- Checks how objects of a class are described. -/
def Realm.describes (s : Realm) (c : ClassId) : Bool :=
  (s.registry.get? objectName).any fun d =>
    ((s.methods d).find? fun m => m.name == "toString" && m.params == []).any fun m =>
      !m.isStatic && match (s.resolveVirtual c m).body with
        | .inl (.library run) => run == .throwableText
        | _ => false

/-- Checks the class of the exception that carries errors. -/
def Realm.isCarrier (s : Realm) (c : ClassId) : Bool :=
  s.nameOf c == embedExceptionName && (s.classOf c).kind == .concrete && s.describes c &&
    ((s.constructors c).find? fun m =>
      m.name == constructorName && m.params == [stringName, Standard.throwableName]).any fun m =>
        match m.body with
        | .inr .causedThrowable => true
        | _ => false

theorem Realm.Describes.of_check (h : s.describes c = true) : s.Describes c := by
  obtain ⟨d, known, h⟩ := (Option.any_eq_true _ _).mp h
  obtain ⟨m, found, h⟩ := (Option.any_eq_true _ _).mp h
  rw [Bool.and_eq_true, Bool.not_eq_true'] at h
  refine ⟨d, m, known, found, h.1, ?_⟩
  have resolved := h.2
  split at resolved
  · rename_i run body
    rw [body, beq_iff_eq.mp resolved]
  · cases resolved

theorem Realm.Carrier.of_check (registered : s.registry.get? embedExceptionName = some c)
    (h : s.isCarrier c = true) : s.Carrier c := by
  simp only [isCarrier, Bool.and_eq_true, beq_iff_eq] at h
  obtain ⟨⟨⟨named, concrete⟩, describes⟩, constructor⟩ := h
  refine ⟨registered, named, concrete, .of_check describes, ?_⟩
  obtain ⟨m, found, fills⟩ := (Option.any_eq_true _ _).mp constructor
  refine ⟨m, found, ?_⟩
  split at fills
  · assumption
  · cases fills

/-- The class library has a class whose objects carry errors. -/
theorem standard_carrier : ∃ c, Realm.standard.Carrier c := by
  have checked : (Realm.standard.registry.get? embedExceptionName).any
      Realm.standard.isCarrier = true := by decide +kernel
  obtain ⟨c, registered, carrier⟩ := (Option.any_eq_true _ _).mp checked
  exact ⟨c, .of_check registered carrier⟩

end ScriptBridge.Host

namespace ScriptBridge.Bridge

open Host (ClassId ObjectId Realm Method HostM BodyM Bodies onRealm)
open Script (InterpreterId)

variable {ε α : Type} {s r : Realm} {w v : World} {c : ClassId} {o : ObjectId}
  (callback : Host.Callback → BodyM World Host.Value) (below : Unit → Bodies World)

/-! ### Texts -/

/-- A new string has the text that it was made with. -/
theorem newText_new (text : String) (w : World) :
    ∃ o r, (onRealm (Realm.newText text) : EStateM ε World ObjectId) w = .ok o (w.onRealm r) ∧
      w.outside.realm.Grows r ∧ r.text? o = some text := by
  obtain ⟨o, r, made, grows, -, -, holds, -⟩ := Realm.allocated
    (w.outside.realm.require Host.stringName) (.text text) w.outside.realm
  refine ⟨o, r, onRealm_run made, grows, ?_⟩
  rw [Realm.text?, holds]

theorem stringChars_run {text : String} (holds : w.outside.realm.text? o = some text) :
    (Host.stringChars o : HostM World String) w = .ok text w := by
  unfold Host.stringChars
  rw [bind_ok (getRealm_run w)]
  simp only [holds]
  rfl

/-- An object that describes itself as throwables do has a text. -/
theorem toText_run (coherent : s.Coherent) (retains : w.outside.realm.Retains s) (has : s.Has c)
    (describes : s.Describes c) {cause : Option ObjectId}
    (thrown : w.outside.realm.ThrowableOf c o cause) :
    ∃ r, Host.toText (.over callback below) o w = .ok (w.outside.realm.shown o) (w.onRealm r) ∧
      w.outside.realm.Grows r := by
  obtain ⟨d, m, known, found, virtual, resolved⟩ := describes
  obtain ⟨message, payload⟩ := thrown.payload
  have unread : w.outside.realm.text? o = none := by rw [Realm.text?, payload]
  have required : w.outside.realm.require Host.objectName = d := by
    rw [Realm.require, retains.root, known, Option.getD_some]
  have got : (Host.getMethod d "toString" [] : HostM World Method) w = .ok m w := by
    unfold Host.getMethod
    rw [bind_ok (getRealm_run w)]
    refine findMember_run ?_
    rwa [retains.toIncludes.methods coherent (coherent.registered _ d known)]
  obtain ⟨text, r, written, grows, holds⟩ :=
    newText_new (ε := Host.Throw) (w.outside.realm.shown o) w
  have ran : (Host.LibraryMethod.run (below ()) .throwableText (some o) [] : BodyM World _) w =
      .ok (.ref text) (w.onRealm r) := by
    have answered : (Host.textResult (w.outside.realm.shown o) : BodyM World Host.Value) w =
        .ok (.ref text) (w.onRealm r) := bind_ok written
    exact answered
  have called : Host.callMethod (.over callback below) (some o) m [] w =
      .ok (.ref text) (w.onRealm r) := by
    have params := List.find?_some found
    simp only [Bool.and_eq_true, beq_iff_eq] at params
    have arity : ¬([] : List Host.Value).length ≠ m.arity := by simp [Method.arity, params.2]
    unfold Host.callMethod
    rw [if_neg arity]
    simp only [pure_bind, virtual, Bool.false_eq_true, if_false]
    rw [bind_ok (getRealm_run w)]
    simp only [thrown.ofClass, retains.toIncludes.resolveVirtual coherent has, resolved]
    simp only [Host.running, Bodies.over, Host.Body.run, ran]
  refine ⟨r, ?_, grows⟩
  unfold Host.toText
  rw [bind_ok (getRealm_run w)]
  simp only [unread, required]
  rw [bind_ok got, bind_ok called]
  exact stringChars_run holds

/-! ### Carrying a failure into the Host -/

/-- A throwable is filled with a message and a cause. -/
theorem causedThrowable_run {message : ObjectId} {text : String} (cause : Option ObjectId)
    (holds : w.outside.realm.text? message = some text) :
    Host.running ((Bodies.over callback below).construct .causedThrowable c
      [.ref message, .ofRef cause]) w = .ok (.throwable (some text) cause) w := by
  have told : (Host.messageArgument [.ref message, .ofRef cause] : BodyM World _) w =
      .ok (some text) w := by
    have called : (Host.calling (Host.stringChars message) : BodyM World String) w = .ok text w := by
      simp only [Host.calling, stringChars_run holds]
    exact bind_ok called
  have ran : (Host.Construction.run (below ()) .causedThrowable c
      [.ref message, .ofRef cause] : BodyM World Host.Payload) w =
        .ok (.throwable (some text) cause) w := by
    refine (bind_ok told).trans ?_
    cases cause <;> rfl
  simp only [Host.running, Bodies.over, ran]

/-- A failure becomes a throwable of the carrying class, with the throwable behind it as cause. -/
theorem throwable_run (coherent : s.Coherent) (carrier : s.Carrier c)
    (retains : w.outside.realm.Retains s) (f : Failure) :
    ∃ o r, f.throwable (.over callback below) w = .ok o (w.onRealm r) ∧
      w.outside.realm.Grows r ∧ r.ThrowableOf c o f.cause? := by
  obtain ⟨m, found, fills⟩ := carrier.constructor
  have has := coherent.registered _ c carrier.registered
  have looked : (Host.findClass Host.embedExceptionName : HostM World ClassId) w = .ok c w := by
    have known : Realm.lookupClass? Host.embedExceptionName w.outside.realm =
        (some c, w.outside.realm) := by
      rw [← carrier.registered, ← retains.carrier]
      rfl
    unfold Host.findClass
    rw [bind_ok (onRealm_run known)]
    rfl
  have got : (Host.getConstructor c [Host.stringName, Host.Standard.throwableName] :
      HostM World Method) w = .ok m w := by
    unfold Host.getConstructor
    rw [bind_ok (getRealm_run w)]
    refine findMember_run ?_
    rwa [Realm.constructors, retains.classes c has]
  obtain ⟨message, r₁, written, grows₁, holds⟩ := newText_new (ε := Host.Thrown) f.message w
  obtain ⟨o, r₂, made, grows₂, held, ofClass, payload, -⟩ := Realm.allocated c
    (.throwable (some f.message) f.cause?) r₁
  have built : Host.newObject (.over callback below) c m [.ref message, .ofRef f.cause?]
      (w.onRealm r₁) = .ok o (w.onRealm r₂) := by
    have params := List.find?_some found
    simp only [Bool.and_eq_true, beq_iff_eq] at params
    have concrete : ¬((w.onRealm r₁).outside.realm.classOf c).kind ≠ .concrete := by
      have same : (w.onRealm r₁).outside.realm.classOf c = s.classOf c :=
        (retains.grows grows₁).classes c has
      rw [same]
      exact not_not_intro carrier.concrete
    have arity : ¬[Host.Value.ref message, .ofRef f.cause?].length ≠ m.arity := by
      simp [Method.arity, params.2]
    unfold Host.newObject
    rw [bind_ok (getRealm_run _)]
    dsimp only
    rw [if_neg concrete, if_neg arity]
    simp only [fills]
    rw [bind_ok (causedThrowable_run callback below f.cause? holds)]
    exact onRealm_run made
  refine ⟨o, r₂, ?_, grows₁.trans grows₂, held, ofClass, _, payload⟩
  unfold Failure.throwable
  rw [bind_ok looked, bind_ok got]
  exact (bind_ok written).trans built

/-- A failure that is thrown is pending as such a throwable. -/
theorem throwInto_run (coherent : s.Coherent) (carrier : s.Carrier c)
    (retains : w.outside.realm.Retains s) (f : Failure) :
    ∃ o r, (f.throwInto (.over callback below) : HostM World α) w = .error {} (w.onRealm r) ∧
      w.outside.realm.Grows r ∧ r.pending = some o ∧ r.ThrowableOf c o f.cause? := by
  obtain ⟨o, r, made, grows, thrown⟩ := throwable_run callback below coherent carrier retains f
  have pending := Realm.Grows.setPending (some o) r
  exact ⟨o, (Realm.setPending (some o) r).2, bind_ok made, grows.trans pending, rfl,
    thrown.grows pending⟩

end ScriptBridge.Bridge
