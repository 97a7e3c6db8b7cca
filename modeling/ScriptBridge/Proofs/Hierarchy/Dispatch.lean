import ScriptBridge.Proofs.Hierarchy.Assignability

/-!
# Which declaration a call runs

A class collects the methods of its superclasses and then those of its interfaces, and keeps the
first declaration of each signature. So a call runs the same declaration whichever one it is made
through, and that of the nearest superclass comes first. Interfaces are met in the order of a walk,
which can come to one before it comes to another that extends it: then a declaration runs that was
made anew below it.
-/

namespace ScriptBridge.Host

open Relation (ReflTransGen TransGen)

variable {α β : Type}

/-! ### First members -/

/-- By induction on the members that are still to come: those that were seen before hide them. -/
theorem filter_foldl_firstOfEach {same : α → α → Bool} {p : α → Bool}
    (agree : ∀ m n, p n = true → same m n = p m) (members seen : List α) :
    (members.foldl (fun seen m => if seen.any (same · m) then seen else seen ++ [m]) seen).filter p =
      if seen.any p then seen.filter p else (members.find? p).toList := by
  induction members generalizing seen with
  | nil =>
    split
    · rfl
    · rename_i none
      simpa using none
  | cons m rest ih =>
    rw [List.foldl_cons, ih, List.find?_cons]
    cases wanted : p m with
    | true =>
      have hidden : seen.any (same · m) = seen.any p :=
        congrArg seen.any (funext fun n => agree n m wanted)
      rw [hidden]
      cases before : seen.any p with
      | true => simp [before]
      | false =>
        have none : seen.filter p = [] := by simpa using before
        simp [before, wanted, none]
    | false =>
      split
      · rfl
      · simp [List.any_append, List.filter_append, wanted]

theorem filter_firstOfEach {same : α → α → Bool} {p : α → Bool}
    (agree : ∀ m n, p n = true → same m n = p m) (members : List α) :
    (firstOfEach same members).filter p = (members.find? p).toList :=
  filter_foldl_firstOfEach agree members []

/-! ### Declarations of a signature -/

namespace Method

theorem sameSignature_iff {m n : Method} :
    m.sameSignature n = true ↔ m.name = n.name ∧ m.params = n.params := by
  simp [sameSignature]

/-- Of two methods of one signature, both or none have another one's. -/
theorem sameSignature_congr {m n : Method} (h : m.sameSignature n = true) (l : Method) :
    l.sameSignature m = l.sameSignature n := by
  obtain ⟨name, params⟩ := sameSignature_iff.mp h
  rw [sameSignature, sameSignature, name, params]

end Method

namespace Realm

variable {r : Realm} {c i j : ClassId} {d m n : Method}

/-- What a class itself declares with a signature. -/
def declaration? (r : Realm) (d : Method) (c : ClassId) : Option Method :=
  (r.classOf c).methods.find? (·.sameSignature d)

def Declares (r : Realm) (c : ClassId) (d : Method) : Prop :=
  ∃ m ∈ (r.classOf c).methods, m.sameSignature d = true

theorem declaration?_eq_none : r.declaration? d c = none ↔ ¬r.Declares c d := by
  simp [declaration?, Declares]

/-- The classes and interfaces whose members a class has, as they are met. -/
def suppliers (r : Realm) (c : ClassId) : List ClassId := r.ancestry c ++ r.interfacesOf c

/-- Of each signature a class has the declaration that is met first. -/
theorem filter_methods (r : Realm) (c : ClassId) (d : Method) :
    (r.methods c).filter (·.sameSignature d) =
      ((r.suppliers c).findSome? (r.declaration? d)).toList := by
  rw [methods, filter_firstOfEach fun m n h => Method.sameSignature_congr h m, List.find?_flatMap]
  rfl

/-- One declaration of a signature is met first, if there is one. -/
theorem exists_first (h : ∃ a ∈ r.suppliers c, r.Declares a d) :
    ∃ m before a after, r.suppliers c = before ++ a :: after ∧ (∀ b ∈ before, ¬r.Declares b d) ∧
      r.declaration? d a = some m ∧ (r.methods c).filter (·.sameSignature d) = [m] := by
  obtain ⟨a, met, declares⟩ := h
  have found : ((r.suppliers c).findSome? (r.declaration? d)).isSome = true :=
    List.findSome?_isSome_iff.mpr ⟨a, met, Option.isSome_iff_ne_none.mpr fun none =>
      declaration?_eq_none.mp none declares⟩
  obtain ⟨m, first⟩ := Option.isSome_iff_exists.mp found
  obtain ⟨before, a, after, split, here, none⟩ := List.findSome?_eq_some_iff.mp first
  refine ⟨m, before, a, after, split, fun b hb => declaration?_eq_none.mp (none b hb), here, ?_⟩
  rw [filter_methods, first]
  rfl

/-- A call through any declaration of the signature comes to the one that the class has. -/
theorem resolveVirtual_eq (one : (r.methods c).filter (·.sameSignature d) = [m])
    (member : m.isStatic = false) (same : n.sameSignature d = true) : r.resolveVirtual c n = m := by
  have filters : (r.methods c).filter (·.sameSignature n) = [m] := by
    rw [← one]
    exact List.filter_congr fun l _ => Method.sameSignature_congr same l
  have found : (r.methods c).find? (fun l => l.sameSignature n && !l.isStatic) =
      ((r.methods c).filter (·.sameSignature n)).find? fun l => !l.isStatic := by
    simp [List.find?_filter]
  rw [resolveVirtual, found, filters]
  simp [member]

/-! ### Interfaces that are met again -/

/-- After each class of the walk the walk still meets what that class implements, directly or
through interfaces. -/
def Trails (r : Realm) (walk : List ClassId) : Prop :=
  ∀ before j after, walk = before ++ j :: after → ∀ i, TransGen r.Implements j i → i ∈ after

theorem Trails.append {first second : List ClassId} (h : r.Trails first) (h' : r.Trails second) :
    r.Trails (first ++ second) := by
  intro before j after split i path
  rcases List.append_eq_append_iff.mp split with ⟨rest, rfl, inside⟩ | ⟨rest, inside, later⟩
  · exact h' _ j after inside i path
  · cases rest with
    | nil =>
      rw [List.nil_append] at later
      exact h' [] j after later.symm i path
    | cons k rest =>
      rw [List.cons_append, List.cons.injEq] at later
      obtain ⟨rfl, rfl⟩ := later
      exact List.mem_append_left _ (h before j rest inside i path)

theorem Trails.flatMap {names : List ClassId} {walk : ClassId → List ClassId}
    (h : ∀ i ∈ names, r.Trails (walk i)) : r.Trails (names.flatMap walk) := by
  induction names with
  | nil =>
    intro before j after split
    simp at split
  | cons i rest ih =>
    rw [List.flatMap_cons]
    exact (h i List.mem_cons_self).append (ih fun k hk => h k (List.mem_cons_of_mem _ hk))

/-- By induction on the walk: it goes from a class to what the class names. -/
theorem Ranked.interfacesFrom_trails (ranked : r.Ranked) (c : ClassId) :
    r.Trails (r.interfacesFrom c) := by
  induction c using Realm.interfacesFrom.induct with
  | case1 c ih =>
    rw [ranked.interfacesFrom_eq]
    have below : r.Trails ((r.classOf c).interfaces.reverse.flatMap r.interfacesFrom) :=
      .flatMap fun i hi => ih i (ranked.interface_lt c i (List.mem_reverse.mp hi))
    intro before j after split i path
    cases before with
    | nil =>
      rw [List.nil_append, List.cons.injEq] at split
      obtain ⟨rfl, rfl⟩ := split
      obtain ⟨k, implemented, path⟩ := TransGen.head'_iff.mp path
      exact List.mem_flatMap.mpr ⟨k, List.mem_reverse.mpr implemented,
        ranked.mem_interfacesFrom.mpr path⟩
    | cons k before =>
      rw [List.cons_append, List.cons.injEq] at split
      exact below before j after split.2 i path

theorem Ranked.interfacesOf_trails (ranked : r.Ranked) (c : ClassId) :
    r.Trails (r.interfacesOf c) := .flatMap fun i _ => ranked.interfacesFrom_trails i

/-- Another interface of the class extends the interface and declares the signature anew. -/
def Redeclared (r : Realm) (c i : ClassId) (d : Method) : Prop :=
  ∃ j ∈ r.interfacesOf c, TransGen r.Implements j i ∧ r.Declares j d

/-- Only what is met after the first declaration can declare the signature anew, and the interface of
the first declaration is met again then. -/
theorem Ranked.redeclared_iff (ranked : r.Ranked) {before after : List ClassId}
    (split : r.interfacesOf c = before ++ i :: after) (none : ∀ b ∈ before, ¬r.Declares b d) :
    (r.Redeclared c i d ↔ ∃ j ∈ after, TransGen r.Implements j i ∧ r.Declares j d) ∧
      (r.Redeclared c i d → i ∈ after) := by
  have later : r.Redeclared c i d → ∃ j ∈ after, TransGen r.Implements j i ∧ r.Declares j d := by
    rintro ⟨j, met, path, declares⟩
    rw [split, List.mem_append, List.mem_cons] at met
    rcases met with met | rfl | met
    · exact absurd declares (none j met)
    · have below : ∀ {a b : ClassId}, TransGen r.Implements a b → b.index < a.index := fun path => by
        induction path with
        | single edge => exact ranked.interface_lt _ _ edge
        | tail _ edge ih => exact Nat.lt_trans (ranked.interface_lt _ _ edge) ih
      exact absurd (below path) (Nat.lt_irrefl _)
    · exact ⟨j, met, path, declares⟩
  refine ⟨⟨later, fun ⟨j, met, path, declares⟩ => ⟨j, ?_, path, declares⟩⟩, fun anew => ?_⟩
  · rw [split]
    exact List.mem_append_right _ (List.mem_cons_of_mem _ met)
  · obtain ⟨j, met, path, -⟩ := later anew
    obtain ⟨first, rest, rfl⟩ := List.append_of_mem met
    have trails := ranked.interfacesOf_trails c (before ++ i :: first) j rest (by simp [split]) i path
    exact List.mem_append_right _ (List.mem_cons_of_mem _ trails)

end Realm

/-! ### Calls -/

variable {ω : Type} [Hosting ω] {w : ω} {o : ObjectId} {n m : Method} {args : List Value} {body : Body}

/-- A call of an instance method runs the body of what the method resolves to. -/
theorem callMethod_instance (bodies : Bodies ω) (member : n.isStatic = false)
    (arity : args.length = n.arity)
    (resolved : (Hosting.realm w).resolveVirtual ((Hosting.realm w).classIdOf o) n = m)
    (runs : m.body = .inl body) :
    callMethod bodies (some o) n args w = running (bodies.method body (some o) args) w := by
  have read : (getRealm : HostM ω Realm) w = .ok (Hosting.realm w) w := rfl
  simp only [callMethod, arity, member, ne_eq, not_true_eq_false, if_false, Bool.false_eq_true,
    pure_bind]
  rw [bind_ok read, resolved, runs]

namespace Realm

variable {r : Realm} {c : ClassId} {d : Method}

/-- The declaration of the nearest class of the superclass chain that declares the signature. -/
def NearestAbove (r : Realm) (c : ClassId) (d m : Method) : Prop :=
  ∃ nearer a further, r.ancestry c = nearer ++ a :: further ∧ (∀ b ∈ nearer, ¬r.Declares b d) ∧
    r.declaration? d a = some m

/-- No class of the superclass chain declares the signature, and it is the declaration of the
interface that the walk meets first. It is made anew below this interface exactly if the rest of the
walk comes to an interface which does so; then the walk meets the interface twice. -/
def FirstImplemented (r : Realm) (c : ClassId) (d m : Method) : Prop :=
  (∀ a ∈ r.ancestry c, ¬r.Declares a d) ∧
    ∃ before i after, r.interfacesOf c = before ++ i :: after ∧ (∀ b ∈ before, ¬r.Declares b d) ∧
      r.declaration? d i = some m ∧
      (r.Redeclared c i d ↔ ∃ j ∈ after, TransGen r.Implements j i ∧ r.Declares j d) ∧
      (r.Redeclared c i d → i ∈ after)

/-- A class has one declaration of a signature that its superclasses or interfaces declare. -/
theorem Ranked.exists_declaration (ranked : r.Ranked) (h : ∃ a ∈ r.suppliers c, r.Declares a d) :
    ∃ m, (r.methods c).filter (·.sameSignature d) = [m] ∧
      (∃ a ∈ r.suppliers c, m ∈ (r.classOf a).methods ∧ m.sameSignature d = true) ∧
      (r.NearestAbove c d m ∨ r.FirstImplemented c d m) := by
  obtain ⟨m, before, a, after, split, none, first, one⟩ := exists_first h
  refine ⟨m, one, ⟨a, by simp [split], List.mem_of_find?_eq_some first,
    List.find?_some (p := fun n : Method => n.sameSignature d) first⟩, ?_⟩
  rcases List.append_eq_append_iff.mp split with ⟨rest, rfl, walk⟩ | ⟨rest, chain, walk⟩
  · have above : ∀ b ∈ r.ancestry c, ¬r.Declares b d := fun b hb =>
      none b (List.mem_append_left _ hb)
    have unmet : ∀ b ∈ rest, ¬r.Declares b d := fun b hb => none b (List.mem_append_right _ hb)
    obtain ⟨anew, again⟩ := ranked.redeclared_iff walk unmet
    exact .inr ⟨above, rest, a, after, walk, unmet, first, anew, again⟩
  · cases rest with
    | nil =>
      rw [List.append_nil] at chain
      rw [List.nil_append] at walk
      have unmet : ∀ b ∈ ([] : List ClassId), ¬r.Declares b d := nofun
      have met : r.interfacesOf c = [] ++ a :: after := walk.symm
      obtain ⟨anew, again⟩ := ranked.redeclared_iff met unmet
      exact .inr ⟨chain ▸ none, [], a, after, met, unmet, first, anew, again⟩
    | cons k rest =>
      rw [List.cons_append, List.cons.injEq] at walk
      obtain ⟨rfl, -⟩ := walk
      exact .inl ⟨before, a, rest, chain, none, first⟩

end Realm

/-- Whatever declaration of a signature a call is made through, the one that the object's class has
runs, and where that one stands is known. -/
theorem dispatch_runs_first (bodies : Bodies ω) {c : ClassId} {d : Method}
    (h : Realm.standard.Evolves (Hosting.realm w)) (isOf : (Hosting.realm w).classIdOf o = c)
    (visible : ∃ a ∈ (Hosting.realm w).suppliers c, (Hosting.realm w).Declares a d)
    (members : ∀ a ∈ (Hosting.realm w).suppliers c, ∀ n ∈ ((Hosting.realm w).classOf a).methods,
      n.sameSignature d = true → n.isStatic = false) :
    ∃ m body, m.body = .inl body ∧
      ((Hosting.realm w).methods c).filter (·.sameSignature d) = [m] ∧
      (∀ n args, n.sameSignature d = true → n.isStatic = false → args.length = n.arity →
        callMethod bodies (some o) n args w = running (bodies.method body (some o) args) w) ∧
      ((Hosting.realm w).NearestAbove c d m ∨ (Hosting.realm w).FirstImplemented c d m) := by
  have ranked := h.ranked Realm.standard_ranked
  obtain ⟨m, one, ⟨a, met, declared, same⟩, place⟩ := ranked.exists_declaration visible
  have runs : ∃ body, m.body = .inl body := by
    have callable := ranked.callable a m declared
    unfold Method.isConstructor at callable
    cases runs : m.body with
    | inl body => exact ⟨body, rfl⟩
    | inr construction =>
      rw [runs] at callable
      cases callable
  obtain ⟨body, runs⟩ := runs
  refine ⟨m, body, runs, one, fun n args same' member arity => ?_, place⟩
  refine callMethod_instance bodies member arity ?_ runs
  rw [isOf]
  exact Realm.resolveVirtual_eq one (members a met m declared same) same'

/-! ### A name that is declared twice -/

/-- The name of a solid, which its interface declares anew. -/
def solidName : Method :=
  { name := "name", declaringClass := "demo.Solid", params := [], returnType := stringName,
    body := .inl (.constant (.string "solid")) }

/-- Checks that a class implements an interface that declares a method and that no method of its
signature is static. -/
def Realm.suppliesMember (r : Realm) (c i : ClassId) (d : Method) : Bool :=
  (r.classOf c).interfaces.contains i && (r.classOf i).methods.any (·.sameSignature d) &&
    r.classes.all fun cls => cls.methods.all fun n => !n.sameSignature d || !n.isStatic

theorem Realm.Ranked.supplied {r : Realm} {c i : ClassId} {d : Method} (ranked : r.Ranked)
    (h : r.suppliesMember c i d = true) :
    (∃ a ∈ r.suppliers c, r.Declares a d) ∧ ∀ a ∈ r.suppliers c, ∀ n ∈ (r.classOf a).methods,
      n.sameSignature d = true → n.isStatic = false := by
  simp only [Realm.suppliesMember, Bool.and_eq_true, List.contains_iff_mem, List.any_eq_true] at h
  obtain ⟨⟨implemented, declares⟩, members⟩ := h
  refine ⟨⟨i, List.mem_append_right _ (ranked.mem_interfacesOf.mpr
    ⟨c, .refl, .single implemented⟩), declares⟩, fun a _ n hn same => ?_⟩
  by_cases has : r.Has a
  · have bound : a.index < r.classes.size := has
    have found : r.classOf a = r.classes[a.index] := by simp [Realm.classOf, bound]
    rw [found] at hn
    have checked := List.all_eq_true.mp (Array.all_eq_true.mp members a.index bound) n hn
    simpa [same] using checked
  · rw [Realm.classOf_missing has] at hn
    cases hn

/-- The Host with the shapes and an object of the derived class. -/
def shaped : ObjectId × Realm :=
  Realm.allocate (Realm.shapes.leadsTo "demo.Derived") (.fields {}) Realm.shapes

theorem shaped_checked : (shaped.2.suppliesMember (shaped.2.classIdOf shaped.1)
    (Realm.shapes.leadsTo "demo.Solid") solidName) = true := by decide +kernel

theorem shaped_evolves : Realm.standard.Evolves shaped.2 :=
  Realm.shapes_evolves.trans (Realm.allocate_evolves _ _ _)

theorem dispatch_runs_first_shaped :
    Realm.standard.Evolves shaped.2 ∧
    (∃ a ∈ shaped.2.suppliers (shaped.2.classIdOf shaped.1), shaped.2.Declares a solidName) ∧
    ∃ m body, m.body = .inl body ∧
      (shaped.2.methods (shaped.2.classIdOf shaped.1)).filter (·.sameSignature solidName) = [m] ∧
      callMethod .none (some shaped.1) solidName [] shaped.2 =
        running ((Bodies.none : Bodies Realm).method body (some shaped.1) []) shaped.2 := by
  have evolves := shaped_evolves
  have checked := shaped_checked
  generalize Realm.shapes.leadsTo "demo.Solid" = solid at checked
  generalize shaped.1 = o at *
  generalize shaped.2 = r at *
  obtain ⟨visible, members⟩ := (evolves.ranked Realm.standard_ranked).supplied checked
  obtain ⟨m, body, runs, one, called, -⟩ :=
    dispatch_runs_first .none (w := r) (o := o) evolves rfl visible members
  exact ⟨evolves, visible, m, body, runs, one, called solidName [] rfl rfl rfl⟩

end ScriptBridge.Host
