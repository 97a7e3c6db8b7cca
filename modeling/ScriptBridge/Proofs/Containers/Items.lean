import Mathlib.Data.List.Forall2
import ScriptBridge.Proofs.Containers.Serving

/-!
# Texts in containers

A text goes into a container as a new string, nothing goes in as null, and both come out again as
what they were. Two stored items are equal in the Host exactly if they are the same text or both
nothing, since strings answer the question themselves.
-/

namespace ScriptBridge.Bridge

open Host (ClassId ObjectId Realm Method HostM BodyM Bodies LibraryMethod onRealm)
open Script (InterpreterId)

variable {ε : Type} {s r : Realm} {w v : World} {c : ClassId} {o : ObjectId} {kind : Kind}
  {item other : Option String} {x y : Host.Value} (ts : InterpreterId)

/-- A text or nothing, as scripts write it. -/
def scriptItem : Option String → Script.Value
  | some text => .text text
  | none => .none

/-- A value of the Host that stands for a text or for nothing. -/
inductive Stores (s r : Realm) : Option String → Host.Value → Prop where
  | nothing : Stores s r none .null
  | text {o : ObjectId} {text : String} (held : r.Holds o)
    (ofClass : r.classIdOf o = s.require Host.stringName)
      (payload : r.payload o = .text text) : Stores s r (some text) (.ref o)

theorem Stores.grows (h : Stores s r item x) {r' : Realm} (grows : r.Grows r') :
    Stores s r' item x := by
  cases h with
  | nothing => exact .nothing
  | text held ofClass payload =>
    have kept := grows.payloads _ held
    rw [payload] at kept
    exact .text (grows.held _ held) ((grows.objects _ held).trans ofClass) kept

/-! ### Types of the library -/

/-- The name leads to a class of the library, which is of the kind. -/
structure Typed (s : Realm) (name : String) (kind : Kind) : Prop where
  plain : PlainName name
  known : s.registry.get? name = some (s.require name)
  kinds : (∃ token, tokenFor? s (s.require name) = some token ∧ token.kind = kind) ∨
    kind = .object ∧ tokenFor? s (s.require name) = none ∧
      s.isAssignable (s.require name) (s.require Host.className) = false

/-- What is needed of the library to pass texts, positions and truth values. -/
structure Passing (s : Realm) : Prop where
  stocked : Stocked s
  object : Typed s Host.objectName .object
  int : Typed s "int" .int
  boolean : Typed s "boolean" .boolean
  string : s.isAssignable (s.require Host.stringName) (s.require Host.objectName) = true
  equals : ∃ m, ((s.methods (s.require Host.objectName)).find? fun m =>
      m.name == "equals" && m.params == [Host.objectName]) = some m ∧
    m.isStatic = false ∧
      (s.resolveVirtual (s.require Host.stringName) m).body = .inl (.library .stringEquals)

namespace Typed

variable {name : String}

theorem has (typed : Typed s name kind) (coherent : s.Coherent) : s.Has (s.require name) :=
  coherent.registered _ _ typed.known

theorem findClass_run (typed : Typed s name kind) (equipped : w.Equipped s) :
    (Host.findClass name : HostM World ClassId) w = .ok (s.require name) w :=
  findClass_plain equipped.toIntact typed.plain typed.known

theorem kindOf_run (typed : Typed s name kind) (stocked : Stocked s) (equipped : w.Equipped s) :
    ∃ v, kindOf ts (s.require name) w = .ok kind v ∧ Serves s w v := by
  have intact := equipped.toIntact
  have has := typed.has stocked.coherent
  have kinds : w.kindAt (w.outside.realm.shape (s.require name)) = .ok kind := by
    rcases typed.kinds with ⟨token, stands, rfl⟩ | ⟨rfl, unknown, noType⟩
    · exact stocked.kindAt_token intact stands
    · have plain := stocked.plain _ has
      have type : s.Has (s.require Host.className) :=
        stocked.coherent.registered _ _ (stocked.registered .type)
      rw [stocked.kindAt_other intact unknown, Host.Class.isArray,
        intact.classes.classes _ has, plain,
        intact.classes.isAssignable stocked.coherent has type plain, noType]
      rfl
  exact kindOf_serves equipped (intact.classes.kept _ has) kinds ts

end Typed

/-! ### Going in -/

/-- A new string holds the text. -/
theorem newText_serves (stocked : Stocked s) (equipped : w.Equipped s) (text : String) :
    ∃ o v, (onRealm (Realm.newText text) : EStateM ε World ObjectId) w = .ok o v ∧ Serves s w v ∧
      Stores s v.outside.realm (some text) (.ref o) := by
  obtain ⟨o, r, made, grows, held, ofClass, payload, -⟩ :=
    Realm.allocated (w.outside.realm.require Host.stringName) (.text text) w.outside.realm
  have string : w.outside.realm.require Host.stringName = s.require Host.stringName :=
    equipped.require (stocked.registered .string)
  rw [string] at ofClass
  exact ⟨o, w.onRealm r, onRealm_run made, .of_grows equipped grows, .text held ofClass payload⟩

/-- Strings fit parameters that any object fits. -/
theorem stringFits_run (passing : Passing s) (equipped : w.Equipped s) :
    ∃ v, (stringFits (s.require Host.objectName) : EStateM ε World Bool) w = .ok true v ∧
      Serves s w v := by
  have stocked := passing.stocked
  obtain ⟨slot, v, later, found, asked⟩ := resolve_eq .string equipped.formed
  obtain ⟨d, q, library, -⟩ := stocked.token .string
  rw [equipped.tokens, library] at found
  cases slot with
  | error reason => cases found
  | ok token =>
    have string : token.ofClass = s.require Host.stringName := by
      have same : token.ofClass = d := congrArg Prod.fst (Except.ok.inj found)
      rw [same, Realm.require, show Host.stringName = TokenName.string.className from rfl,
        TokenName.found_class library, Option.getD_some]
    have serves : Serves s w v := by
      refine .of_descends equipped later ?_
      have left := Leaves.resolve .string w
      rwa [asked] at left
    have has := stocked.coherent.registered _ _ (stocked.registered .string)
    have fits : v.outside.realm.isAssignable token.ofClass (s.require Host.objectName) = true := by
      rw [string, ← passing.string]
      exact serves.intact.classes.isAssignable stocked.coherent has
        (passing.object.has stocked.coherent) (stocked.plain _ has)
    refine ⟨v, ?_, serves⟩
    have known : (stringClass? : EStateM ε World (Option ClassId)) w = .ok (some token.ofClass) v :=
      bind_ok (attempt_ok asked)
    unfold stringFits
    rw [bind_ok known, ← fits]
    rfl

/-- A text becomes a string and nothing becomes null, where any object is expected. -/
theorem coerce_item (passing : Passing s) (equipped : w.Equipped s) (item : Option String)
    (position : Nat) : ∃ x v, (∀ bodies, coerce bodies ts (scriptItem item)
      (s.require Host.objectName) .object position w = .ok x v) ∧ Serves s w v ∧
      Stores s v.outside.realm item x := by
  cases item with
  | none => exact ⟨.null, w, fun _ => rfl, .refl equipped, .nothing⟩
  | some text =>
    obtain ⟨v, fits, later⟩ := stringFits_run (ε := Script.Raised) passing equipped
    obtain ⟨o, u, made, last, stores⟩ :=
      newText_serves (ε := Script.Raised) passing.stocked later.equipped text
    refine ⟨.ref o, u, fun bodies => ?_, later.trans last, stores⟩
    refine (bind_ok fits).trans ?_
    exact bind_ok made

/-! ### Coming out -/

/-- What stands for a text or for nothing is shown as that. -/
theorem toScript_item (stocked : Stocked s) (equipped : w.Equipped s)
    (stores : Stores s w.outside.realm item x) :
    ∃ v, (∀ bodies, toScript bodies ts x .object w = .ok (scriptItem item) v) ∧ Serves s w v := by
  cases stores with
  | nothing => exact ⟨w, fun _ => rfl, .refl equipped⟩
  | @text o text held ofClass payload =>
    have intact := equipped.toIntact
    have kinds := stocked.kindAt_token intact stocked.string
    have has := intact.classes.kept _ (stocked.tokenFor?_has stocked.string)
    rw [← ofClass] at kinds has
    obtain ⟨v, classified, later⟩ := kindOf_serves equipped has kinds ts
    have holds : v.outside.realm.text? o = some text := by
      rw [later.realm.text? held, Realm.text?, payload]
    have own : ownKind ts o w = .ok .string v := classified
    refine ⟨v, fun bodies => ?_, later⟩
    have chars := hostCall_ok (stringChars_run holds) bodies ts
    have viewed : viewAs bodies ts o .string v = .ok (some (.text text)) v := bind_ok chars
    refine (bind_ok own).trans ?_
    exact (bind_ok (getRealm_run v)).trans (unboxWithin_viewed ts viewed _)

/-! ### Equality in the Host -/

/-- Strings are equal if their texts are. -/
theorem sameObjects_run (passing : Passing s) (equipped : w.Equipped s)
    (callback : Host.Callback → BodyM World Host.Value) (below : Unit → Bodies World)
    {o p : ObjectId} {text text' : String} (left : Stores s w.outside.realm (some text) (.ref o))
    (right : Stores s w.outside.realm (some text') (.ref p)) :
    Host.sameObjects (.over callback below) o p w = .ok (text == text') w := by
  obtain ⟨m, found, instance_method, resolved⟩ := passing.equals
  have stocked := passing.stocked
  have coherent := stocked.coherent
  have intact := equipped.toIntact
  cases left with
  | text held ofClass payload =>
  cases right with
  | text held' ofClass' payload' =>
  have object : w.outside.realm.require Host.objectName = s.require Host.objectName :=
    intact.require passing.object.known
  have string : s.Has (s.require Host.stringName) :=
    coherent.registered _ _ (stocked.registered .string)
  have got : (Host.getMethod (s.require Host.objectName) "equals" [Host.objectName] :
      HostM World Method) w = .ok m w := by
    unfold Host.getMethod
    rw [bind_ok (getRealm_run w), intact.methods coherent (passing.object.has coherent)]
    exact findMember_run found
  have arity : [Host.Value.ref p].length = m.arity := by
    have params := List.find?_some found
    rw [Bool.and_eq_true, beq_iff_eq, beq_iff_eq] at params
    rw [Method.arity, params.2]
    rfl
  have chosen : w.chosen (some o) m = some (some o, s.resolveVirtual (s.require Host.stringName) m) := by
    rw [World.chosen, if_neg (Bool.eq_false_iff.mp instance_method), Option.map_some, ofClass,
      intact.classes.resolveVirtual coherent string m]
  have mine : w.outside.realm.text? o = some text := by rw [Realm.text?, payload]
  have theirs : w.outside.realm.text? p = some text' := by rw [Realm.text?, payload']
  have answered : (Bodies.over callback below).method (.library .stringEquals) (some o) [.ref p] w =
      .ok (.boolean (text == text')) w := by
    show EStateM.Result.ok (Host.Value.boolean ((w.outside.realm.text? o).isSome &&
      w.outside.realm.text? o == w.outside.realm.text? p)) w = _
    rw [mine, theirs]
    simp
  have called : Host.callMethod (.over callback below) (some o) m [.ref p] w =
      .ok (.boolean (text == text')) w := by
    rw [callMethod_run arity chosen resolved, Host.running, answered]
  unfold Host.sameObjects
  rw [bind_ok (getRealm_run w), object, bind_ok got, bind_ok called]
  rfl

/-- Items are equal in the Host if they are the same text or both nothing. -/
theorem sameItem_run (passing : Passing s) (equipped : w.Equipped s)
    (callback : Host.Callback → BodyM World Host.Value) (below : Unit → Bodies World)
    (left : Stores s w.outside.realm item x) (right : Stores s w.outside.realm other y) :
    Host.sameItem (.over callback below) x y w = .ok (item == other) w := by
  cases left with
  | nothing =>
    cases right with
    | nothing => rfl
    | text => rfl
  | text held ofClass payload =>
    cases right with
    | nothing => rfl
    | text held' ofClass' payload' =>
      have same := sameObjects_run passing equipped callback below
        (.text held ofClass payload) (.text held' ofClass' payload')
      show Host.calling _ w = _
      rw [Host.calling, same]
      rfl

/-- By induction on the items: the first one that equals the wanted one is found. -/
theorem findItem_of {κ : Type} [BEq κ] {bodies : Bodies World} {key : κ} {keys : List κ}
    {values : List Host.Value}
    (tells : List.Forall₂ (fun k y => Host.sameItem bodies y x w = .ok (k == key) w) keys values)
    (place : Nat) :
    Host.findItem bodies x place values w = .ok ((keys.idxOf? key).map (place + ·)) w := by
  induction tells generalizing place with
  | nil => rfl
  | @cons first value keys values head _ ih =>
    unfold Host.findItem
    rw [bind_ok head, List.idxOf?_cons]
    cases first == key with
    | true => rfl
    | false =>
      have shift : (fun i => place + 1 + i) = (fun i => place + i) ∘ (fun i => i + 1) := by
        funext i
        show place + 1 + i = place + (i + 1)
        omega
      simp only [Bool.false_eq_true, if_false, ih, Option.map_map, shift]

theorem findItem_run (passing : Passing s) (equipped : w.Equipped s)
    (callback : Host.Callback → BodyM World Host.Value) (below : Unit → Bodies World)
    {values : List Host.Value} {items : List (Option String)}
    (stored : List.Forall₂ (Stores s w.outside.realm) items values)
    (wanted : Stores s w.outside.realm item x) (place : Nat) :
    Host.findItem (.over callback below) x place values w =
      .ok ((items.idxOf? item).map (place + ·)) w :=
  findItem_of (stored.imp fun _ _ stores =>
    sameItem_run passing equipped callback below stores wanted) place

end ScriptBridge.Bridge
