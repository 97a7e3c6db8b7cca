import ScriptBridge.Proofs.Isolation.Renaming
import ScriptBridge.Proofs.Library.Standard
import ScriptBridge.Proofs.Typing.Classification

/-!
# The class library is well formed

Whether all that a bridge remembers exists in its Host can be checked, and it does in a bridge over
the class library.
-/

namespace ScriptBridge

open Host (Realm ClassId ObjectId)
open Bridge (World Kind TokenName)

theorem mem_of_lookup {κ α : Type} [BEq κ] [LawfulBEq κ] {key : κ} {value : α}
    {entries : List (κ × α)} (h : entries.lookup key = some value) : (key, value) ∈ entries := by
  obtain ⟨before, after, rfl, -⟩ := List.lookup_eq_some_iff.mp h
  simp

namespace Host

instance (r : Realm) (c : ClassId) : Decidable (r.Has c) := inferInstanceAs (Decidable (_ < _))

instance (r : Realm) (o : ObjectId) : Decidable (r.Holds o) := inferInstanceAs (Decidable (_ < _))

/-- Checks one class of a coherent realm. -/
def Realm.classChecks (r : Realm) (c : ClassId) : Bool :=
  ((r.classOf c).interfaces.all fun i => r.Has i) &&
    match (r.classOf c).component? with
    | none => true
    | some b => b.index < c.index && r.arrays.lookup b == some c && r.nameOf c != objectName

/-- Checks that names, interfaces and array classes are as they have to be. -/
def Realm.isCoherent (r : Realm) : Bool :=
  (r.registry.entries.all fun entry => r.Has entry.2) &&
    ((List.range r.classes.size).all fun i => r.classChecks ⟨i⟩) &&
    r.arrays.all fun entry => (r.classOf entry.2).component? == some entry.1

namespace Realm

variable {r : Realm}

/-- A class that does not exist has neither interfaces nor a component. -/
theorem classChecks_missing {c : ClassId} (h : ¬r.Has c) : r.classChecks c = true := by
  rw [classChecks, classOf_missing h]
  rfl

theorem classChecks_of_isCoherent (h : r.isCoherent = true) (c : ClassId) :
    r.classChecks c = true := by
  by_cases has : r.Has c
  · rw [isCoherent, Bool.and_eq_true, Bool.and_eq_true] at h
    exact List.all_eq_true.mp h.1.2 c.index (List.mem_range.mpr has)
  · exact classChecks_missing has

theorem component_of_classChecks {c b : ClassId} (h : r.classChecks c = true)
    (component : (r.classOf c).component? = some b) :
    (b.index < c.index ∧ r.arrays.lookup b = some c) ∧ r.nameOf c ≠ objectName := by
  simp only [classChecks, component, Bool.and_eq_true] at h
  simpa using h.2

theorem coherent_of_isCoherent (h : r.isCoherent = true) : r.Coherent := by
  have classes := classChecks_of_isCoherent h
  rw [isCoherent, Bool.and_eq_true, Bool.and_eq_true] at h
  obtain ⟨⟨registry, -⟩, arrays⟩ := h
  refine ⟨fun name c found => ?_, fun c i member => ?_, fun c b component => ?_,
    fun b c found => ?_, fun c array => ?_⟩
  · exact of_decide_eq_true (List.all_eq_true.mp registry _ (Table.mem_findEntry found))
  · have checked := classes c
    rw [classChecks, Bool.and_eq_true] at checked
    exact of_decide_eq_true (List.all_eq_true.mp checked.1 i member)
  · exact (component_of_classChecks (classes c) component).1
  · exact beq_iff_eq.mp (List.all_eq_true.mp arrays _ (mem_of_lookup found))
  · obtain ⟨b, component⟩ := Option.isSome_iff_exists.mp array
    exact (component_of_classChecks (classes c) component).2

end Realm

end Host

namespace Bridge

/-- Checks that an object exists, together with the class it describes. -/
def World.holdsMirror (w : World) (o : ObjectId) : Bool :=
  w.outside.realm.Holds o && (w.outside.realm.mirrored? o).all fun p => w.outside.realm.Has p

/-- Checks that the classes of a token exist. -/
def World.hasToken (w : World) (name : TokenName) (token : TypeToken) : Bool :=
  w.outside.realm.Has token.ofClass && (token.primitive.all fun p => w.outside.realm.Has p) &&
    (name.isWrapper || token.primitive.isNone)

/-- Checks that an object exists, together with its class. -/
def World.holdsObject (w : World) (o : ObjectId) : Bool :=
  w.outside.realm.Holds o && w.outside.realm.Has (w.outside.realm.classIdOf o)

/-- Checks that what the bridge remembers exists in the Host. -/
def World.isFormed (w : World) : Bool :=
  w.outside.realm.isCoherent &&
    (w.outside.realm.statics.all fun entry => entry.2.ref?.all w.holdsMirror) &&
    (w.outside.types.all fun entry => match entry.2 with
      | .ok token => w.hasToken entry.1 token
      | .error _ => true) &&
    w.outside.proxies.all fun p => p.view.object?.all w.holdsObject

variable {w : World}

theorem World.holdsObject_of_isFormed
    (views : (w.outside.proxies.all fun p => p.view.object?.all w.holdsObject) = true)
    {place : Nat} {o : ObjectId} (object : (w.viewAt place).object? = some o) :
    w.holdsObject o = true := by
  by_cases made : place < w.outside.proxies.size
  · have found : w.viewAt place = w.outside.proxies[place].view := by simp [viewAt, made]
    rw [found] at object
    have checked := Array.all_eq_true.mp views place made
    rwa [object] at checked
  · have missing : w.viewAt place = (default : Proxy).view := by simp [viewAt, made]
    rw [missing] at object
    cases object

theorem World.formed_of_isFormed (h : w.isFormed = true) : w.Formed := by
  rw [isFormed, Bool.and_eq_true, Bool.and_eq_true, Bool.and_eq_true] at h
  obtain ⟨⟨⟨realm, statics⟩, types⟩, views⟩ := h
  refine ⟨Realm.coherent_of_isCoherent realm, fun field o static => ?_,
    fun name token remembered => ?_, fun place o object => ?_⟩
  · have found : w.outside.realm.statics.lookup field = some (.ref o) := by
      rw [Realm.staticValue] at static
      cases found : w.outside.realm.statics.lookup field with
      | none => simp [found] at static
      | some value => simpa [found] using static
    have checked := List.all_eq_true.mp statics _ (mem_of_lookup found)
    simpa [Host.Value.ref?, holdsMirror, Option.all_eq_true] using checked
  · have checked := List.all_eq_true.mp types _ (mem_of_lookup remembered)
    simp only [hasToken, Bool.and_eq_true, decide_eq_true_eq, Option.all_eq_true,
      Bool.or_eq_true, Option.isNone_iff_eq_none] at checked
    obtain ⟨⟨has, primitive⟩, plain⟩ := checked
    refine ⟨has, primitive, fun other => plain.resolve_left ?_⟩
    simp [other]
  · simpa [holdsObject] using holdsObject_of_isFormed views object

end Bridge

end ScriptBridge
