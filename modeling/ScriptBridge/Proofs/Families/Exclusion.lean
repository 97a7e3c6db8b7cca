import ScriptBridge.Proofs.Causality.Reception
import ScriptBridge.Proofs.Families.Lineage

/-!
# Families exclude each other

An error that ends a script is tried for three families, whose errors leave as failures of their
own. A type is in one family beside `Exception` at most, so the order of the trials makes no
difference: what becomes of the error is decided by the family that its lineage comes to first.
-/

namespace ScriptBridge.Bridge

open Script (InterpreterId Exception ErrorType Family Detail)
open Script.ErrorType (Forest)

variable {ε : Type} {types : List ErrorType} {families order : List Family} {e : Exception}

/-! ### Trying families -/

/-- The failure that an error becomes as one of the families that are tried, or as none of them. -/
def Failure.asOneOf (e : Exception) : Option Family → Failure
  | some .parsing => .syntaxError e.render
  | some .memory => .outOfMemory e.render
  | some .importing =>
    match e.detail with
    | some (.importPath path) => .unresolvedImport path e.render
    | _ => .unresolvedImport (e.message.getD "") e.render
  | _ =>
    match e.detail with
    | some (.position position) => .typeMismatch position (e.message.getD e.render)
    | _ => .script e.type.qualifiedName e.render e.type.hostClass? e.cause

/-- The failure that an error becomes if it is tried for these families in this order. -/
def Failure.byTrying (families : List Family) (e : Exception) : Failure :=
  .asOneOf e (families.find? e.isA)

/-- The families whose errors leave as failures of their own, in the order of the trials. -/
def tried : List Family := [.parsing, .memory, .importing]

theorem Failure.ofException_eq (e : Exception) :
    Failure.ofException e = .byTrying tried e := by
  simp only [ofException, byTrying, tried, List.find?_cons, List.find?_nil]
  cases e.isA .parsing with
  | true => rfl
  | false =>
    cases e.isA .memory with
    | true => rfl
    | false => cases e.isA .importing <;> rfl

/-- A trial for several families finds the one that the error is in, wherever it stands. -/
theorem find?_isA (special : .exception ∉ families) :
    families.find? e.isA = if e.type.family ∈ families then some e.type.family else none := by
  induction families with
  | nil => rfl
  | cons f rest ih =>
    obtain ⟨other, others⟩ := not_or.mp (mt List.mem_cons.mpr special)
    by_cases own : e.isA f = true
    · obtain rfl := (ErrorType.isA_iff_family.mp own).resolve_left (Ne.symm other)
      rw [List.find?_cons_of_pos own, if_pos List.mem_cons_self]
    · have apart : e.type.family ≠ f :=
        fun same => own (ErrorType.isA_iff_family.mpr (.inr same.symm))
      rw [List.find?_cons_of_neg own, ih others]
      simp only [List.mem_cons, apart, false_or]

theorem find?_tried (e : Exception) :
    tried.find? e.isA = if e.type.family ∈ tried then some e.type.family else none :=
  find?_isA (by decide)

/-- The order of the trials makes no difference. -/
theorem Failure.byTrying_perm (same : order.Perm tried) (e : Exception) :
    Failure.byTrying order e = .ofException e := by
  have special : .exception ∉ order := mt same.mem_iff.mp (by decide)
  rw [ofException_eq, byTrying, byTrying, find?_isA special, find?_tried]
  simp only [same.mem_iff]

/-- The category of the failure that an error of a family becomes. -/
def categoryIn (family : Family) (detail : Option Detail) : String :=
  match family with
  | .parsing => "syntax"
  | .memory => "out-of-memory"
  | .importing => "import"
  | _ =>
    match detail with
    | some (.position _) => "type-mismatch"
    | _ => "script"

theorem Failure.category_asOneOf (e : Exception) (family : Family) :
    (Failure.asOneOf e (if family ∈ tried then some family else none)).category =
      categoryIn family e.detail := by
  obtain ⟨type, message, trace, cause, detail⟩ := e
  rcases detail with _ | position | path <;> cases family <;> rfl

theorem Failure.category_ofException (e : Exception) :
    (Failure.ofException e).category = categoryIn e.type.family e.detail := by
  rw [ofException_eq, byTrying, find?_tried, category_asOneOf]

/-! ### The families of a forest -/

/-- **The families of errors exclude each other.** Among the types that were made in any order and
under any names, being a subtype is an order in which only a type itself is equal to it. A type is
an `Exception`, is in the family that its lineage comes to first, and in no other, and has the code
of that family. So a pending error of the type leaves as the same failure whatever the order is in
which its type is tried for the families that have failures of their own. -/
theorem families_exclusive (forest : Forest types) :
    (types.Nodup ∧ ∀ t s : ErrorType, t.Among types → s.Among types →
      (t.same s = true ↔ t = s)) ∧
    (∀ t : ErrorType, t.Among types → t.isSubtypeOf t = true) ∧
    (∀ t s r : ErrorType, t.Among types → s.Among types → r.Among types →
      t.isSubtypeOf s = true → s.isSubtypeOf r = true → t.isSubtypeOf r = true) ∧
    (∀ t s : ErrorType, t.Among types → s.Among types →
      t.isSubtypeOf s = true → s.isSubtypeOf t = true → t = s) ∧
    ∀ t : ErrorType, t.Among types → ∃ family,
      t.lineage.findSome? ErrorType.builtin? = some family ∧
      (∀ f, t.isA f = true ↔ f = .exception ∨ f = family) ∧
      t.code = family.code ∧
      ∀ (w : World) (ts : InterpreterId) (e : Exception) (printStack : Bool) (order : List Family),
        (w.memory.interpreter ts).error = some e → e.type = t →
        order.Perm [.parsing, .memory, .importing] →
        ∃ v, (takeFailure? ts printStack : EStateM ε World (Option Failure)) w =
            .ok (some (.byTrying order e)) v ∧
          (Failure.byTrying order e).category = categoryIn family e.detail := by
  refine ⟨⟨.of_map _ forest.nodup_identity, fun t s => forest.same_iff⟩,
    fun t _ => t.isSubtypeOf_self, fun t s r => forest.isSubtypeOf_trans,
    fun t s => forest.isSubtypeOf_antisymm, fun t _ => ⟨t.family, t.findSome?_lineage,
      fun f => ErrorType.isA_iff_family, t.code_eq_family, ?_⟩⟩
  rintro w ts e printStack order pending rfl same
  obtain ⟨v, taken, -⟩ := takeFailure?_run (ε := ε) pending printStack
  rw [Failure.byTrying_perm same]
  exact ⟨v, taken, Failure.category_ofException e⟩

/-- An import error under the name of the errors of syntax. -/
def lookalike : ErrorType := .made 0 "SyntaxError" none (.builtin .importing) none

/-- A type over it, which stands for a class of the Host that is called like a family. -/
def namesake : ErrorType := .mapped 1 "demo.MemoryError" "embed" lookalike

theorem disguised_forest : Forest [namesake, lookalike] :=
  .mapped "demo.MemoryError" "embed" (.named "SyntaxError" none .bare (.inl ⟨.importing, rfl⟩))
    (.inr List.mem_cons_self)

/-- An error of this type that is due to an argument. -/
def disguised : Exception := ⟨namesake, some "gone", [], none, some (.position 2)⟩

/-- The error is pending. -/
def disguisedWorld : World :=
  ⟨{ interpreters := #[⟨1, ⟨0⟩, {}, default, default, some disguised, 0, 0⟩] }, default⟩

/-- It is an import error, also if the families are tried the other way round. -/
theorem families_exclusive_disguised :
    namesake.isSubtypeOf lookalike = true ∧ lookalike.isSubtypeOf (.builtin .importing) = true ∧
    namesake.isSubtypeOf (.builtin .importing) = true ∧
    (disguisedWorld.memory.interpreter ⟨0⟩).error = some disguised ∧
    namesake.isA .parsing = false ∧ namesake.isA .memory = false ∧
    namesake.code = .moduleResolution ∧
    ∃ v, (takeFailure? ⟨0⟩ false : EStateM Failure World (Option Failure)) disguisedWorld =
        .ok (some (.byTrying [.importing, .memory, .parsing] disguised)) v ∧
      (Failure.byTrying [.importing, .memory, .parsing] disguised).category = "import" := by
  obtain ⟨-, -, trans, -, exclusive⟩ := families_exclusive (ε := Failure) disguised_forest
  have known : namesake.Among [namesake, lookalike] := .inr List.mem_cons_self
  have first : namesake.isSubtypeOf lookalike = true := by decide
  have second : lookalike.isSubtypeOf (.builtin .importing) = true := by decide
  obtain ⟨family, reached, belongs, code, leaves⟩ := exclusive namesake known
  obtain rfl : Family.importing = family := Option.some.inj reached
  have others : ∀ f, f ≠ .exception → f ≠ .importing → namesake.isA f = false :=
    fun f notTop notOwn => Bool.eq_false_iff.mpr fun h => ((belongs f).mp h).elim notTop notOwn
  exact ⟨first, second, trans _ _ _ known (.inr (by decide)) (.inl ⟨_, rfl⟩) first second, rfl,
    others _ nofun nofun, others _ nofun nofun, code,
    leaves disguisedWorld ⟨0⟩ disguised false _ rfl rfl (by decide)⟩

end ScriptBridge.Bridge
