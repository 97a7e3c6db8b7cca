import Mathlib.Data.Finmap
import ScriptBridge.Proofs.Containers.Lists

/-!
# Entries of maps

A map of the library keeps its entries in a list and compares keys one by one with the equality of
the Host. Where this equality tells keys apart as a type does, the entries stand for a finite map
over the type, and no two entries ever have equal keys.
-/

namespace List

variable {α β : Type} [BEq α] [LawfulBEq α] {pairs : List (α × β)} {k : α} {b : β} {i : Nat}

/-! ### Association lists -/

theorem lookup_of_idxOf?_none (h : (pairs.map Prod.fst).idxOf? k = none) :
    pairs.lookup k = none := by
  rw [idxOf?_eq_none_iff] at h
  rw [lookup_eq_none_iff]
  intro p mem
  have other : k ≠ p.1 := fun same => h (same ▸ mem_map_of_mem mem)
  simpa using other

/-- By induction on the list: the entry of the first key that is the one has its value. -/
theorem lookup_of_idxOf? (h : (pairs.map Prod.fst).idxOf? k = some i) :
    ∃ b, pairs[i]? = some (k, b) ∧ pairs.lookup k = some b := by
  induction pairs generalizing i with
  | nil => cases h
  | cons p rest ih =>
    rw [map_cons, idxOf?_cons] at h
    by_cases same : p.1 = k
    · subst same
      simp only [BEq.rfl, if_true, Option.some.injEq] at h
      subst h
      exact ⟨p.2, rfl, lookup_cons_self⟩
    · have differs : (k == p.1) = false := beq_eq_false_iff_ne.mpr (Ne.symm same)
      simp only [beq_eq_false_iff_ne.mpr same, Bool.false_eq_true, if_false,
        Option.map_eq_some_iff] at h
      obtain ⟨j, found, rfl⟩ := h
      obtain ⟨b, there, value⟩ := ih found
      refine ⟨b, there, ?_⟩
      rw [lookup_cons, differs]
      exact value

theorem idxOf?_lt (h : (pairs.map Prod.fst).idxOf? k = some i) : i < pairs.length := by
  obtain ⟨bound, -⟩ := idxOf?_eq_some_iff.mp h
  rwa [length_map] at bound

/-- An entry gets another value. -/
theorem lookup_set [DecidableEq α] (h : (pairs.map Prod.fst).idxOf? k = some i) (k' : α) :
    (pairs.set i (k, b)).lookup k' = if k' = k then some b else pairs.lookup k' := by
  induction pairs generalizing i with
  | nil => cases h
  | cons p rest ih =>
    rw [map_cons, idxOf?_cons] at h
    by_cases same : p.1 = k
    · subst same
      simp only [BEq.rfl, if_true, Option.some.injEq] at h
      subst h
      rw [set_cons_zero, lookup_cons, lookup_cons]
      by_cases wanted : k' = p.1
      · rw [if_pos wanted, beq_iff_eq.mpr wanted]
      · rw [if_neg wanted, beq_eq_false_iff_ne.mpr wanted]
    · simp only [beq_eq_false_iff_ne.mpr same, Bool.false_eq_true, if_false,
        Option.map_eq_some_iff] at h
      obtain ⟨j, found, rfl⟩ := h
      rw [set_cons_succ, lookup_cons, lookup_cons, ih found]
      cases first : k' == p.1 with
      | false => rfl
      | true =>
        have other : k' ≠ k := fun h => same ((beq_iff_eq.mp first).symm.trans h)
        simp only [if_neg other]

theorem map_fst_set (h : (pairs.map Prod.fst).idxOf? k = some i) :
    (pairs.set i (k, b)).map Prod.fst = pairs.map Prod.fst := by
  obtain ⟨bound, at_key, -⟩ := idxOf?_eq_some_iff.mp h
  rw [map_set]
  conv_rhs => rw [← set_getElem_self bound]
  rw [at_key]

/-- An entry is appended under a key that there is no entry for. -/
theorem lookup_append_new [DecidableEq α] (h : (pairs.map Prod.fst).idxOf? k = none) (k' : α) :
    (pairs ++ [(k, b)]).lookup k' = if k' = k then some b else pairs.lookup k' := by
  rw [lookup_append, lookup_cons]
  by_cases wanted : k' = k
  · subst wanted
    rw [lookup_of_idxOf?_none h, if_pos rfl, beq_self_eq_true]
    rfl
  · rw [if_neg wanted, beq_eq_false_iff_ne.mpr wanted]
    simp

/-- An entry is removed, and there is no other one under its key. -/
theorem lookup_eraseIdx [DecidableEq α] (distinct : (pairs.map Prod.fst).Nodup)
    (h : (pairs.map Prod.fst).idxOf? k = some i) (k' : α) :
    (pairs.eraseIdx i).lookup k' = if k' = k then none else pairs.lookup k' := by
  induction pairs generalizing i with
  | nil => cases h
  | cons p rest ih =>
    rw [map_cons, idxOf?_cons] at h
    rw [map_cons, nodup_cons] at distinct
    by_cases same : p.1 = k
    · subst same
      simp only [BEq.rfl, if_true, Option.some.injEq] at h
      subst h
      rw [eraseIdx_cons_zero, lookup_cons]
      by_cases wanted : k' = p.1
      · rw [if_pos wanted, wanted]
        exact lookup_of_idxOf?_none (idxOf?_eq_none_iff.mpr distinct.1)
      · rw [if_neg wanted, beq_eq_false_iff_ne.mpr wanted]
    · simp only [beq_eq_false_iff_ne.mpr same, Bool.false_eq_true, if_false,
        Option.map_eq_some_iff] at h
      obtain ⟨j, found, rfl⟩ := h
      rw [eraseIdx_cons_succ, lookup_cons, lookup_cons, ih distinct.2 found]
      cases first : k' == p.1 with
      | false => rfl
      | true =>
        have other : k' ≠ k := fun h => same ((beq_iff_eq.mp first).symm.trans h)
        simp only [if_neg other]

end List

namespace List.Forall₂

variable {α β : Type} {R : α → β → Prop} {l : List α} {l' : List β} {a : α}

theorem getElem? (h : Forall₂ R l l') {i : Nat} (there : l[i]? = some a) :
    ∃ b, l'[i]? = some b ∧ R a b := by
  induction h generalizing i with
  | nil => cases there
  | cons head _ ih =>
    cases i with
    | zero =>
      cases there
      exact ⟨_, rfl, head⟩
    | succ i => exact ih there

theorem eraseIdx (h : Forall₂ R l l') (i : Nat) : Forall₂ R (l.eraseIdx i) (l'.eraseIdx i) := by
  induction h generalizing i with
  | nil => exact .nil
  | cons head rest ih =>
    cases i with
    | zero => exact rest
    | succ i => exact .cons head (ih i)

end List.Forall₂

namespace ScriptBridge.Bridge

open Host (ObjectId BodyM Bodies LibraryMethod)

variable {κ ν : Type} {w : World} {o : ObjectId} {bodies : Bodies World} {x y : Host.Value} {i : Nat}
  {entries : List (Host.Value × Host.Value)}

/-! ### Finite maps -/

section

variable [BEq κ] [LawfulBEq κ] [DecidableEq κ] {α β : Type} {K : κ → α → Prop} {V : ν → β → Prop}
  {m : Finmap fun _ : κ => ν} {pairs : List (κ × ν)} {stored : List (α × β)} {key : κ} {item : ν}

/-- Stored entries stand for the entries of a finite map, each for another one. -/
structure Pairing (K : κ → α → Prop) (V : ν → β → Prop) (m : Finmap fun _ : κ => ν)
    (pairs : List (κ × ν)) (stored : List (α × β)) : Prop where
  stored : List.Forall₂ (fun p e => K p.1 e.1 ∧ V p.2 e.2) pairs stored
  distinct : (pairs.map Prod.fst).Nodup
  agrees : ∀ k, m.lookup k = pairs.lookup k

namespace Pairing

omit [LawfulBEq κ] in
theorem empty : Pairing K V ∅ [] [] := ⟨.nil, .nil, fun _ => rfl⟩

omit [LawfulBEq κ] in
theorem keys (h : Pairing K V m pairs stored) :
    List.Forall₂ K (pairs.map Prod.fst) (stored.map Prod.fst) :=
  List.forall₂_map_left_iff.mpr (List.forall₂_map_right_iff.mpr
    (h.stored.imp fun _ _ stores => stores.1))

theorem found (h : Pairing K V m pairs stored)
    (at_key : (pairs.map Prod.fst).idxOf? key = some i) :
    ∃ item e, stored[i]? = some e ∧ m.lookup key = some item ∧ K key e.1 ∧ V item e.2 := by
  obtain ⟨item, there, value⟩ := List.lookup_of_idxOf? at_key
  obtain ⟨e, stands, left, right⟩ := h.stored.getElem? there
  exact ⟨item, e, stands, (h.agrees key).trans value, left, right⟩

theorem missing (h : Pairing K V m pairs stored)
    (nowhere : (pairs.map Prod.fst).idxOf? key = none) : m.lookup key = none :=
  (h.agrees key).trans (List.lookup_of_idxOf?_none nowhere)

theorem lookup_isSome (h : Pairing K V m pairs stored) :
    (m.lookup key).isSome = ((pairs.map Prod.fst).idxOf? key).isSome := by
  cases at_key : (pairs.map Prod.fst).idxOf? key with
  | none => rw [h.missing at_key]; rfl
  | some i =>
    obtain ⟨item, _, -, value, -⟩ := h.found at_key
    rw [value]
    rfl

theorem card (h : Pairing K V m pairs stored) : m.keys.card = stored.length := by
  have same : m.keys = (pairs.map Prod.fst).toFinset := by
    ext k
    rw [Finmap.mem_keys, ← Finmap.lookup_isSome, h.lookup_isSome, List.isSome_idxOf?,
      List.mem_toFinset]
  rw [same, List.toFinset_card_of_nodup h.distinct, List.length_map, h.stored.length_eq]

theorem set (h : Pairing K V m pairs stored)
    (at_key : (pairs.map Prod.fst).idxOf? key = some i) {a : α} {b : β} (stores : K key a)
    (stores' : V item b) :
    Pairing K V (m.insert key item) (pairs.set i (key, item)) (stored.set i (a, b)) := by
  refine ⟨h.stored.set ⟨stores, stores'⟩ i, ?_, fun k => ?_⟩
  · rw [List.map_fst_set at_key]
    exact h.distinct
  · rw [List.lookup_set at_key]
    by_cases wanted : k = key
    · rw [wanted, Finmap.lookup_insert, if_pos rfl]
    · rw [Finmap.lookup_insert_of_ne m wanted, if_neg wanted, h.agrees]

theorem append (h : Pairing K V m pairs stored)
    (nowhere : (pairs.map Prod.fst).idxOf? key = none) {a : α} {b : β} (stores : K key a)
    (stores' : V item b) :
    Pairing K V (m.insert key item) (pairs ++ [(key, item)]) (stored ++ [(a, b)]) := by
  refine ⟨List.rel_append h.stored (.cons ⟨stores, stores'⟩ .nil), ?_, fun k => ?_⟩
  · rw [List.map_append, List.map_singleton, List.nodup_append]
    refine ⟨h.distinct, List.nodup_singleton _, fun k mem k' mem' => ?_⟩
    have new := List.idxOf?_eq_none_iff.mp nowhere
    rw [List.mem_singleton.mp mem']
    rintro rfl
    exact new mem
  · rw [List.lookup_append_new nowhere]
    by_cases wanted : k = key
    · rw [wanted, Finmap.lookup_insert, if_pos rfl]
    · rw [Finmap.lookup_insert_of_ne m wanted, if_neg wanted, h.agrees]

theorem eraseIdx (h : Pairing K V m pairs stored)
    (at_key : (pairs.map Prod.fst).idxOf? key = some i) :
    Pairing K V (m.erase key) (pairs.eraseIdx i) (stored.eraseIdx i) := by
  refine ⟨h.stored.eraseIdx i, ?_, fun k => ?_⟩
  · rw [← List.eraseIdx_map]
    exact h.distinct.eraseIdx i
  · rw [List.lookup_eraseIdx h.distinct at_key]
    by_cases wanted : k = key
    · rw [wanted, Finmap.lookup_erase, if_pos rfl]
    · rw [Finmap.lookup_erase_ne wanted, if_neg wanted, h.agrees]

/-- Nothing is removed under a key that there is no entry for. -/
theorem erase_missing (h : Pairing K V m pairs stored)
    (nowhere : (pairs.map Prod.fst).idxOf? key = none) :
    Pairing K V (m.erase key) pairs stored := by
  refine ⟨h.stored, h.distinct, fun k => ?_⟩
  by_cases wanted : k = key
  · rw [wanted, Finmap.lookup_erase, List.lookup_of_idxOf?_none nowhere]
  · rw [Finmap.lookup_erase_ne wanted, h.agrees]

omit [LawfulBEq κ] in
theorem imp (h : Pairing K V m pairs stored) {K' : κ → α → Prop} {V' : ν → β → Prop}
    (left : ∀ k a, K k a → K' k a) (right : ∀ v b, V v b → V' v b) :
    Pairing K' V' m pairs stored :=
  ⟨h.stored.imp fun _ _ stores => ⟨left _ _ stores.1, right _ _ stores.2⟩, h.distinct, h.agrees⟩

end Pairing

end

/-! ### Methods of maps -/

theorem mapOf_run (payload : w.outside.realm.payload o = .map entries) :
    (Host.mapOf (some o) : BodyM World _) w = .ok (o, entries) w :=
  contents_run (by rw [payload]; rfl)

/-- What is answered for a key: what stands for the item under it, or null if there is none. -/
def Under (V : ν → Host.Value → Prop) : Option ν → Host.Value → Prop
  | some item, x => V item x
  | none, x => x = .null

namespace Pairing

variable [BEq κ] [LawfulBEq κ] [DecidableEq κ] {K : κ → Host.Value → Prop}
  {V : ν → Host.Value → Prop}
  {m : Finmap fun _ : κ => ν} {pairs : List (κ × ν)} {key : κ} {item : ν}
  (payload : w.outside.realm.payload o = .map entries) (stands : Pairing K V m pairs entries)
  (tells : ∀ k x', K k x' → Host.sameItem bodies x' x w = .ok (k == key) w)

include stands tells

omit [LawfulBEq κ] in
theorem findItem_run : Host.findItem bodies x 0 (entries.map Prod.fst) w =
    .ok ((pairs.map Prod.fst).idxOf? key) w := by
  rw [findItem_of (stands.keys.imp tells) 0]
  simp

include payload

theorem mapContainsKey_run : LibraryMethod.mapContainsKey.run bodies (some o) [x] w =
    .ok (.boolean (m.lookup key).isSome) w := by
  refine (bind_ok (mapOf_run payload)).trans ((bind_ok (stands.findItem_run tells)).trans ?_)
  rw [stands.lookup_isSome]
  rfl

/-- The search for a key finds its place among the entries. -/
theorem slot_run : Host.slot bodies (some o) x w =
    .ok ((pairs.map Prod.fst).idxOf? key, o, entries) w := by
  have inside : ((pairs.map Prod.fst).idxOf? key).filter (· < entries.length) =
      (pairs.map Prod.fst).idxOf? key := by
    cases at_key : (pairs.map Prod.fst).idxOf? key with
    | none => rfl
    | some i =>
      have bound : i < entries.length := stands.stored.length_eq ▸ List.idxOf?_lt at_key
      simp [bound]
  refine (bind_ok (mapOf_run payload)).trans
    ((bind_ok (stands.findItem_run tells)).trans ((bind_ok (mapOf_run payload)).trans ?_))
  show EStateM.Result.ok (Option.filter _ _, o, entries) w = _
  rw [inside]

theorem mapGet_run : ∃ y, LibraryMethod.mapGet.run bodies (some o) [x] w = .ok y w ∧
    Under V (m.lookup key) y := by
  have searched := stands.slot_run payload tells
  cases at_key : (pairs.map Prod.fst).idxOf? key with
  | none =>
    rw [at_key] at searched
    rw [stands.missing at_key]
    exact ⟨.null, bind_ok searched, rfl⟩
  | some i =>
    rw [at_key] at searched
    obtain ⟨item, e, there, value, -, stores⟩ := stands.found at_key
    rw [value]
    refine ⟨e.2, (bind_ok searched).trans ?_, stores⟩
    simp only [Option.bind_some, there, Option.map_some, Option.getD_some]
    rfl

theorem mapPut_run (wanted : K key x) (stores : V item y) : ∃ old pairs' entries',
    LibraryMethod.mapPut.run bodies (some o) [x, y] w =
        .ok old (w.storing o (.map entries')) ∧
      Pairing K V (m.insert key item) pairs' entries' ∧ Under V (m.lookup key) old := by
  have searched := stands.slot_run payload tells
  cases at_key : (pairs.map Prod.fst).idxOf? key with
  | none =>
    rw [at_key] at searched
    rw [stands.missing at_key]
    exact ⟨.null, _, entries ++ [(x, y)], (bind_ok searched).trans rfl,
      stands.append at_key wanted stores, rfl⟩
  | some i =>
    rw [at_key] at searched
    obtain ⟨known, e, there, value, left, right⟩ := stands.found at_key
    rw [value]
    refine ⟨e.2, _, entries.set i (e.1, y), (bind_ok searched).trans ?_,
      stands.set at_key left stores, right⟩
    simp only [Option.bind_some, there, Option.map_some]
    rfl

/-- Where there is nothing to remove, nothing is stored. -/
theorem mapRemove_run : ∃ old v pairs' entries',
    LibraryMethod.mapRemove.run bodies (some o) [x] w = .ok old v ∧
      (v = w ∧ entries' = entries ∨ v = w.storing o (.map entries')) ∧
      Pairing K V (m.erase key) pairs' entries' ∧ Under V (m.lookup key) old := by
  have searched := stands.slot_run payload tells
  cases at_key : (pairs.map Prod.fst).idxOf? key with
  | none =>
    rw [at_key] at searched
    rw [stands.missing at_key]
    exact ⟨.null, w, pairs, entries, (bind_ok searched).trans rfl, .inl ⟨rfl, rfl⟩,
      stands.erase_missing at_key, rfl⟩
  | some i =>
    rw [at_key] at searched
    obtain ⟨known, e, there, value, -, right⟩ := stands.found at_key
    rw [value]
    refine ⟨e.2, _, _, entries.eraseIdx i, (bind_ok searched).trans ?_, .inr rfl,
      stands.eraseIdx at_key, right⟩
    simp only [Option.bind_some, there, Option.map_some]
    rfl

end Pairing
end ScriptBridge.Bridge
