import Mathlib.Data.List.Infix
import Mathlib.Data.List.Nodup
import ScriptBridge.Proofs.Comparison.Equality

/-!
# Lineages of error types

An error type is followed by its base, the base of that, and so on, down to `Exception`. One type
is a subtype of another exactly if the other is in this lineage, as itself and not by its name.
The built-in types of a lineage are the first one that it comes to, and `Exception`.

While types are made, each over one that is there, no two of them are the same. On the types of
such a forest being a subtype is an order.
-/

namespace ScriptBridge.Script.ErrorType

variable {t s r : ErrorType} {types : List ErrorType} {f : Family}

/-- The type that a type stands over. -/
def base? : ErrorType → Option ErrorType
  | builtin .exception => none
  | builtin _ => some (builtin .exception)
  | made _ _ _ base _ => some base

/-- The type and all that it stands over, in the order in which they are come to. -/
def lineage : ErrorType → List ErrorType
  | builtin .exception => [builtin .exception]
  | builtin f => [builtin f, builtin .exception]
  | made serial name module base hostClass =>
    made serial name module base hostClass :: base.lineage

/-- The family that a type is, if it is built in. -/
def builtin? : ErrorType → Option Family
  | builtin f => some f
  | made _ _ _ _ _ => none

/-- A lineage goes from each type to its base. -/
theorem lineage_eq (t : ErrorType) : t.lineage = t :: (t.base?.map lineage).getD [] := by
  cases t with
  | builtin f => cases f <;> rfl
  | made => rfl

/-- The lineage of a type is the end of any lineage that the type is in. -/
theorem lineage_suffix_of_mem (h : s ∈ t.lineage) : s.lineage <:+ t.lineage := by
  induction t with
  | builtin f =>
    cases f with
    | exception =>
      obtain rfl := List.mem_singleton.mp h
      exact List.suffix_rfl
    | _ =>
      rcases List.mem_cons.mp h with rfl | last
      · exact List.suffix_rfl
      · obtain rfl := List.mem_singleton.mp last
        exact List.suffix_cons _ _
  | made serial name module base hostClass ih =>
    rcases List.mem_cons.mp h with rfl | later
    · exact List.suffix_rfl
    · exact (ih later).trans (List.suffix_cons _ _)

theorem mem_lineage_trans (h : s ∈ t.lineage) (h' : r ∈ s.lineage) : r ∈ t.lineage :=
  (lineage_suffix_of_mem h).subset h'

/-- Of two types in each other's lineages, both lineages are the end of the other. -/
theorem mem_lineage_antisymm (h : s ∈ t.lineage) (h' : t ∈ s.lineage) : t = s := by
  have same : t.lineage = s.lineage :=
    (lineage_suffix_of_mem h').eq_of_length_le (lineage_suffix_of_mem h).length_le
  rw [lineage_eq t, lineage_eq s] at same
  exact (List.cons.inj same).1

/-! ### Subtypes -/

theorem isSubtypeOf_eq (t s : ErrorType) : t.isSubtypeOf s = t.lineage.any (·.same s) := by
  induction t with
  | builtin f => cases f <;> simp [isSubtypeOf, lineage]
  | made serial name module base hostClass ih => rw [isSubtypeOf, ih, lineage, List.any_cons]

theorem same_builtin_iff : t.same (.builtin f) = true ↔ t = .builtin f := by
  cases t <;> simp [same]

/-- A type belongs to the families in its lineage. -/
theorem isA_iff_mem : t.isA f = true ↔ .builtin f ∈ t.lineage := by
  simp only [isA, isSubtypeOf_eq, List.any_eq_true, same_builtin_iff, exists_eq_right]

/-! ### Families -/

theorem isSome_findSome?_lineage (t : ErrorType) : (t.lineage.findSome? builtin?).isSome := by
  induction t with
  | builtin f => cases f <;> rfl
  | made serial name module base hostClass ih => exact ih

/-- The first built-in type in the lineage. -/
def family (t : ErrorType) : Family :=
  (t.lineage.findSome? builtin?).get (isSome_findSome?_lineage t)

theorem findSome?_lineage (t : ErrorType) : t.lineage.findSome? builtin? = some t.family :=
  (Option.some_get _).symm

@[simp] theorem family_builtin (f : Family) : (builtin f).family = f := by cases f <;> rfl

@[simp] theorem family_made (serial : Nat) (name : String) (module : Option String)
    (base : ErrorType) (hostClass : Option String) :
    (ErrorType.made serial name module base hostClass).family = base.family := rfl

/-- The only built-in types of a lineage are its first one and `Exception`. -/
theorem builtin_mem_lineage_iff : .builtin f ∈ t.lineage ↔ f = .exception ∨ f = t.family := by
  induction t with
  | builtin g => cases g <;> simp [lineage, or_comm]
  | made serial name module base hostClass ih =>
    rw [family_made, ← ih, lineage, List.mem_cons, or_iff_right ErrorType.noConfusion]

theorem isA_iff_family : t.isA f = true ↔ f = .exception ∨ f = t.family :=
  isA_iff_mem.trans builtin_mem_lineage_iff

/-- The diagnostic code comes from the family. -/
theorem code_eq_family (t : ErrorType) : t.code = t.family.code := by
  induction t with
  | builtin f => rw [family_builtin, code]
  | made serial name module base hostClass ih => rw [family_made, code, ih]

/-! ### Types that are made -/

/-- The type is built in or one of these. -/
def Among (types : List ErrorType) (t : ErrorType) : Prop := (∃ f, t = builtin f) ∨ t ∈ types

/-- The types that have been made, the last one first. Each was made over a type that was there,
under any name and in any module, and has the next number. -/
inductive Forest : List ErrorType → Prop
  | bare : Forest []
  | named {types base} (name : String) (module : Option String) :
    Forest types → base.Among types → Forest (made types.length name module base none :: types)
  | mapped {types base} (hostClass module : String) :
    Forest types → base.Among types → Forest (mapped types.length hostClass module base :: types)

/-- Types of either sort are made alike. -/
theorem Forest.elim {motive : ∀ types, Forest types → Prop} (bare : motive [] .bare)
    (grow : ∀ {types base} name module hostClass (forest : Forest types)
      (next : Forest (made types.length name module base hostClass :: types)),
      base.Among types → motive types forest → motive _ next)
    {types : List ErrorType} (forest : Forest types) : motive types forest := by
  induction forest with
  | bare => exact bare
  | named name module forest known ih =>
    exact grow name module none forest (.named name module forest known) known ih
  | mapped hostClass module forest known ih =>
    exact grow _ (some module) (some hostClass) forest (.mapped hostClass module forest known)
      known ih

theorem Among.cons (h : t.Among types) (s : ErrorType) : t.Among (s :: types) :=
  h.imp_right (List.mem_cons_of_mem s)

/-- The lineage of a built-in type is built in. -/
theorem among_of_mem_lineage_builtin (h : s ∈ (builtin f).lineage) : s.Among types := by
  cases f with
  | exception => exact .inl ⟨_, List.mem_singleton.mp h⟩
  | _ =>
    rcases List.mem_cons.mp h with rfl | last
    · exact .inl ⟨_, rfl⟩
    · exact .inl ⟨_, List.mem_singleton.mp last⟩

/-- Nothing in a lineage is missing from the forest. -/
theorem Forest.among_of_mem_lineage (forest : Forest types) (known : t.Among types)
    (h : s ∈ t.lineage) : s.Among types := by
  induction forest using Forest.elim generalizing t with
  | bare =>
    obtain ⟨f, rfl⟩ := known.resolve_right List.not_mem_nil
    exact among_of_mem_lineage_builtin h
  | grow name module hostClass _ _ standing ih =>
    rcases known with ⟨f, rfl⟩ | listed
    · exact among_of_mem_lineage_builtin h
    rcases List.mem_cons.mp listed with rfl | older
    · rcases List.mem_cons.mp h with rfl | later
      · exact .inr List.mem_cons_self
      · exact (ih standing later).cons _
    · exact (ih (.inr older) h).cons _

/-- The types of a forest are numbered in the order in which they were made. -/
theorem Forest.map_identity (forest : Forest types) :
    types.map identity = (List.range types.length).reverse.map .inr := by
  induction forest using Forest.elim with
  | bare => rfl
  | grow name module hostClass _ _ standing ih =>
    rw [List.length_cons, List.range_succ, List.reverse_append, List.map_cons, ih]
    rfl

theorem Forest.nodup_identity (forest : Forest types) : (types.map identity).Nodup := by
  rw [forest.map_identity]
  exact (List.nodup_reverse.mpr List.nodup_range).map fun _ _ => Sum.inr.inj

/-- What makes a type the same as another is which of all types it is. -/
theorem Forest.same_iff (forest : Forest types) (knownT : t.Among types) (knownS : s.Among types) :
    t.same s = true ↔ t = s := by
  refine ⟨fun same => ?_, fun same => same ▸ same_self t⟩
  have identities := (ErrorType.same_iff t s).mp same
  rcases knownT with ⟨f, rfl⟩ | listedT
  · exact (same_builtin_iff.mp ((ErrorType.same_iff s (builtin f)).mpr identities.symm)).symm
  rcases knownS with ⟨g, rfl⟩ | listedS
  · exact same_builtin_iff.mp same
  · exact List.inj_on_of_nodup_map forest.nodup_identity listedT listedS identities

/-! ### The order of a forest -/

/-- A subtype has the other type in its lineage. -/
theorem Forest.isSubtypeOf_iff (forest : Forest types) (knownT : t.Among types)
    (knownS : s.Among types) : t.isSubtypeOf s = true ↔ s ∈ t.lineage := by
  rw [isSubtypeOf_eq, List.any_eq_true]
  constructor
  · rintro ⟨b, listed, same⟩
    rwa [← (forest.same_iff (forest.among_of_mem_lineage knownT listed) knownS).mp same]
  · exact fun listed => ⟨s, listed, same_self s⟩

theorem Forest.isSubtypeOf_trans (forest : Forest types) (knownT : t.Among types)
    (knownS : s.Among types) (knownR : r.Among types) (ts : t.isSubtypeOf s = true)
    (sr : s.isSubtypeOf r = true) : t.isSubtypeOf r = true := by
  rw [forest.isSubtypeOf_iff knownT knownS] at ts
  rw [forest.isSubtypeOf_iff knownS knownR] at sr
  exact (forest.isSubtypeOf_iff knownT knownR).mpr (mem_lineage_trans ts sr)

theorem Forest.isSubtypeOf_antisymm (forest : Forest types) (knownT : t.Among types)
    (knownS : s.Among types) (ts : t.isSubtypeOf s = true) (st : s.isSubtypeOf t = true) :
    t = s := by
  rw [forest.isSubtypeOf_iff knownT knownS] at ts
  rw [forest.isSubtypeOf_iff knownS knownT] at st
  exact mem_lineage_antisymm ts st

end ScriptBridge.Script.ErrorType
