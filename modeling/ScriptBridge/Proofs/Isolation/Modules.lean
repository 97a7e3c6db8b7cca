import ScriptBridge.Proofs.Isolation.Statements

/-!
# Making and emptying modules

A new module has different places in the two memories, so the pairing grows by it. Ending an
interpreter empties what it holds and leaves alone what comes from the runtime.
-/

namespace ScriptBridge.Isolation.Pairing

open Script (Value ModuleRef Interpreter InterpreterId RuntimeId Memory World ScriptM Exception
  Origin)

variable {σ ε : Type} {π π' : Pairing} {ts : InterpreterId} {m m' : Memory} {v v' : Value}
  {a : ModuleRef} {n n' : Nat}

/-! ### Growing -/

/-- The pairing with one module more, which is elsewhere in the other memory. -/
def add (π : Pairing) (a : ModuleRef) (there : Nat) : Pairing :=
  { π with
    held := fun b => π.held b ∨ b = a
    move := fun p => if p = a.place then there else π.move p }

/-- At most one module was added, at the ends of both memories. -/
inductive Grown (π : Pairing) (n n' : Nat) : Pairing → Prop
  | same : Grown π n n' π
  | added (name : String) (origin : Origin) : Grown π n n' (π.add ⟨n, name, origin⟩ n')

namespace Grown

theorem held (grown : Grown π n n' π') (ha : π.held a) : π'.held a := by
  cases grown with
  | same => exact ha
  | added => exact .inl ha

theorem fresh (grown : Grown π n n' π') (ha : π'.held a) : π.held a ∨ a.place = n := by
  cases grown with
  | same => exact .inl ha
  | added => exact ha.imp_right (congrArg ModuleRef.place)

theorem move (grown : Grown π n n' π') {p : Nat} (other : p ≠ n) : π'.move p = π.move p := by
  cases grown with
  | same => rfl
  | added => exact if_neg other

theorem runtime (grown : Grown π n n' π') : π'.runtime = π.runtime := by
  cases grown <;> rfl

theorem compared (grown : Grown π n n' π') : π'.compared = π.compared := by
  cases grown <;> rfl

theorem move_id (grown : Grown π n n π') (same : π.move = id) : π'.move = id := by
  cases grown with
  | same => exact same
  | added name origin =>
    funext p
    simp only [add, same, id_eq]
    split
    · next here => exact here.symm
    · rfl

theorem holds (grown : Grown π n n' π') (hv : π.Holds v) : π'.Holds v :=
  fun b hb => grown.held (hv b hb)

theorem rename (grown : Grown π n n' π') (placed : ∀ a, π.held a → a.place < n)
    (hv : π.Holds v) : v.rename π'.move = v.rename π.move :=
  Value.rename_congr v fun b hb => grown.move (Nat.ne_of_lt (placed b (hv b hb)))

theorem renameModule (grown : Grown π n n' π') (placed : ∀ a, π.held a → a.place < n)
    (ha : π.held a) : a.rename π'.move = a.rename π.move := by
  rw [ModuleRef.rename, ModuleRef.rename, grown.move (Nat.ne_of_lt (placed a ha))]

theorem moved (grown : Grown π n n' π') (placed : ∀ a, π.held a → a.place < n) {i : Interpreter}
    (rooted : π.Rooted i) : moved π'.move i = Isolation.moved π.move i := by
  have modules : i.modules.map (·.rename π'.move) = i.modules.map (·.rename π.move) :=
    Table.map_congr _ fun b hb => grown.renameModule placed (rooted.modules b hb)
  simp only [Isolation.moved, modules, grown.renameModule placed rooted.main,
    grown.renameModule placed rooted.builtins]

theorem rooted (grown : Grown π n n' π') {i : Interpreter} (h : π.Rooted i) : π'.Rooted i where
  runtime := h.runtime.trans grown.runtime.symm
  main := grown.held h.main
  builtins := grown.held h.builtins
  modules b hb := grown.held (h.modules b hb)
  mainOrigin := h.mainOrigin
  builtinsOrigin := h.builtinsOrigin

end Grown

theorem namespaceOf_push (m : Memory) (t : Table Value) (a : ModuleRef) :
    ({ m with namespaces := m.namespaces.push t } : Memory).namespaceOf a =
      if a.place = m.namespaces.size then t else m.namespaceOf a := by
  simp only [Memory.namespaceOf, Array.getElem?_push]
  split <;> rfl

/-- A new module whose bindings refer to no module. -/
theorem Alike.add (h : π.Alike m m') (name : String) (origin : Origin) {t : Table Value}
    (bare : ∀ u ∈ t.values, u.refs = []) :
    (π.add ⟨m.namespaces.size, name, origin⟩ m'.namespaces.size).Alike
      { m with namespaces := m.namespaces.push t }
      { m' with namespaces := m'.namespaces.push t } := by
  have grown : Grown π m.namespaces.size m'.namespaces.size
      (π.add ⟨m.namespaces.size, name, origin⟩ m'.namespaces.size) := .added name origin
  have older : ∀ b, π.held b → b.place ≠ m.namespaces.size := fun b hb =>
    Nat.ne_of_lt (h.placed b hb)
  have older' : ∀ b, π.held b → π.move b.place ≠ m'.namespaces.size := fun b hb =>
    Nat.ne_of_lt (h.placed' b hb)
  have kept : ∀ b, π.held b →
      (π.add ⟨m.namespaces.size, name, origin⟩ m'.namespaces.size).move b.place =
        π.move b.place := fun b hb => grown.move (older b hb)
  have here : (π.add ⟨m.namespaces.size, name, origin⟩ m'.namespaces.size).move
      m.namespaces.size = m'.namespaces.size := if_pos rfl
  refine
    { apart := ?_, placed := ?_, placed' := ?_, contents := ?_, closed := ?_
      made := h.made, made' := h.made', records := fun ts mine => ?_
      rooted := fun ts mine => grown.rooted (h.rooted ts mine)
      shared := ?_, sharedHeld := fun b hb => grown.held (h.sharedHeld b hb) }
  · rintro b c (hb | rfl) (hc | rfl) same
    · rw [kept b hb, kept c hc] at same
      exact h.apart b c hb hc same
    · rw [kept b hb, here] at same
      exact absurd same (older' b hb)
    · rw [kept c hc, here] at same
      exact absurd same.symm (older' c hc)
    · rfl
  · rintro b (hb | rfl)
    · exact Nat.lt_of_lt_of_le (h.placed b hb) (by simp)
    · simp
  · rintro b (hb | rfl)
    · rw [kept b hb]
      exact Nat.lt_of_lt_of_le (h.placed' b hb) (by simp)
    · rw [here]
      simp
  · rintro b (hb | rfl)
    · rw [namespaceOf_push, namespaceOf_push, ModuleRef.rename_place, kept b hb,
        if_neg (older b hb), if_neg (older' b hb), grown.renameModule h.placed hb, h.contents b hb]
      exact Table.map_congr _ fun u hu => (grown.rename h.placed (h.closed b hb u hu)).symm
    · rw [namespaceOf_push, namespaceOf_push, ModuleRef.rename_place, here, if_pos rfl, if_pos rfl]
      exact (Table.map_self t fun u hu => Value.rename_bare (bare u hu)).symm
  · rintro b (hb | rfl) u hu
    · rw [namespaceOf_push, if_neg (older b hb)] at hu
      exact grown.holds (h.closed b hb u hu)
    · rw [namespaceOf_push, if_pos rfl] at hu
      exact holds_bare (bare u hu)
  · exact (h.records ts mine).trans (grown.moved h.placed (h.rooted ts mine)).symm
  · refine h.shared.trans (Table.map_congr _ fun b hb => ?_)
    exact (grown.renameModule h.placed (h.sharedHeld b hb)).symm

/-- A module that was added before is beyond what was there at first. -/
theorem Beyond.grown {u : Memory} (grown : Grown π m.namespaces.size n' π')
    (first : π.Beyond ts m m') (second : π'.Beyond ts m' u) : π.Beyond ts m u where
  size := Nat.le_trans first.size second.size
  namespaces p old other := by
    refine (second.namespaces p (Nat.lt_of_lt_of_le old first.size) fun b hb => ?_).trans
      (first.namespaces p old other)
    rcases grown.fresh hb with hb | new
    · exact other b hb
    · exact new ▸ (Nat.ne_of_lt old).symm
  count := second.count.trans first.count
  interpreters ts' apart := (second.interpreters ts' apart).trans (first.interpreters ts' apart)
  shared rt := (second.shared rt).trans (first.shared rt)

theorem Beyond.push (t : Table Value) :
    π.Beyond ts m { m with namespaces := m.namespaces.push t } where
  size := by simp
  namespaces p old _ := by simp [Array.getElem?_push, Nat.ne_of_lt old]
  count := rfl
  interpreters _ _ := rfl
  shared _ := rfl

/-- The memory with a new module in the table of an interpreter. -/
def withModule (ts : InterpreterId) (name : String) (origin : Origin) (m : Memory) : Memory :=
  Memory.onInterpreter ts
    (fun i => { i with modules := i.modules.insert name ⟨m.namespaces.size, name, origin⟩ })
    { m with namespaces := m.namespaces.push {} }

theorem moduleOrNew_eq (name : String) (origin : Origin) (w : World σ) :
    (Script.moduleOrNew ts name origin : EStateM ε (World σ) ModuleRef) w =
      match (w.memory.interpreter ts).modules.get? name with
      | some a => .ok a w
      | none =>
        .ok ⟨w.memory.namespaces.size, name, origin⟩
          (w.onMemory (withModule ts name origin)) := by
  have read : (Script.moduleOrNew ts name origin : EStateM ε (World σ) ModuleRef) w =
      (match (w.memory.interpreter ts).modules.get? name with
        | some a => pure a
        | none => do
          let a ← Script.newModule name origin
          Script.addModule ts a
          return a : EStateM ε (World σ) ModuleRef) w := rfl
  rw [read]
  cases (w.memory.interpreter ts).modules.get? name <;> rfl

/-- The module that a table names is found or made in both memories. -/
theorem moduleOrNew {w w' : World σ} (abreast : π.Abreast w w') (mine : π.compared ts)
    (name : String) (origin : Origin) : ∃ π' a u u',
      Grown π w.memory.namespaces.size w'.memory.namespaces.size π' ∧ π'.held a ∧
      (Script.moduleOrNew ts name origin : EStateM ε (World σ) ModuleRef) w = .ok a u ∧
      (Script.moduleOrNew ts name origin : EStateM ε (World σ) ModuleRef) w' =
        .ok (a.rename π'.move) u' ∧
      π'.Abreast u u' ∧ π.Beyond ts w.memory u.memory := by
  have h := abreast.alike
  have table : (w'.memory.interpreter ts).modules.get? name =
      ((w.memory.interpreter ts).modules.get? name).map (·.rename π.move) := by
    rw [h.records ts mine, moved, Table.get?_map]
  rw [moduleOrNew_eq, moduleOrNew_eq, table]
  cases found : (w.memory.interpreter ts).modules.get? name with
  | some a =>
    refine ⟨π, a, w, w', .same, ?_, rfl, rfl, abreast, .refl ts w.memory⟩
    exact (h.rooted ts mine).modules a (Table.mem_values found)
  | none =>
    let a : ModuleRef := ⟨w.memory.namespaces.size, name, origin⟩
    let π' := π.add a w'.memory.namespaces.size
    have there : a.rename π'.move = ⟨w'.memory.namespaces.size, name, origin⟩ := by
      simp [a, π', Pairing.add, ModuleRef.rename]
    have added := h.add name origin (t := {}) fun _ hb => absurd hb List.not_mem_nil
    let enter (b : ModuleRef) (i : Interpreter) : Interpreter :=
      { i with modules := i.modules.insert name b }
    have names (i : Interpreter) :
        enter (a.rename π'.move) (moved π'.move i) = moved π'.move (enter a i) := by
      simp only [enter, moved]
      exact congrArg (fun t => { moved π'.move i with modules := t })
        (Table.insert_map _ i.modules name a)
    have rooted (i : Interpreter) (hi : π'.Rooted i) : π'.Rooted (enter a i) := by
      refine { hi with modules := fun b hb => ?_ }
      rcases Table.mem_values_insert hb with rfl | hb
      · exact .inr rfl
      · exact hi.modules b hb
    have listed := added.onInterpreter mine names rooted
    rw [there] at listed
    refine ⟨π', a, w.onMemory (withModule ts name origin), w'.onMemory (withModule ts name origin),
      .added name origin, .inr rfl, rfl, ?_, ⟨listed, abreast.output⟩, ?_⟩
    · rw [there]
      rfl
    · exact (Beyond.push {}).trans (.onInterpreter (added.made ts mine) _)

/-! ### Ending -/

theorem foldl_release (values : List Value) : ∀ m : Memory,
    (values.foldl (fun m v => m.release (some v)) m).namespaces = m.namespaces ∧
      (values.foldl (fun m v => m.release (some v)) m).interpreters = m.interpreters ∧
      (values.foldl (fun m v => m.release (some v)) m).runtimes = m.runtimes ∧
      (values.foldl (fun m v => m.release (some v)) m).output = m.output := by
  induction values with
  | nil => exact fun m => ⟨rfl, rfl, rfl, rfl⟩
  | cons v rest ih =>
    intro m
    obtain ⟨namespaces, interpreters, runtimes, output⟩ := ih (m.release (some v))
    obtain ⟨namespaces', interpreters', runtimes', output'⟩ := release_namespaces (some v) m
    exact ⟨namespaces.trans namespaces', interpreters.trans interpreters',
      runtimes.trans runtimes', output.trans output'⟩

namespace Lockstep

theorem clearModule (held : π.held a) :
    π.Lockstep ts Eq (Script.clearModule a : EStateM ε (World σ) Unit)
      (Script.clearModule (a.rename π.move)) := by
  refine .write (fun m m' h => ⟨?_, ?_⟩) (fun m => ?_) fun m => ?_
  · obtain ⟨namespaces, interpreters, runtimes, -⟩ :=
      foldl_release (m.namespaceOf a).values m
    obtain ⟨namespaces', interpreters', runtimes', -⟩ :=
      foldl_release (m'.namespaceOf (a.rename π.move)).values m'
    refine (h.of_same namespaces interpreters runtimes namespaces' interpreters'
      runtimes').onNamespace held (fun _ => rfl) ?_
    exact fun _ _ v hv => nomatch hv
  · obtain ⟨namespaces, interpreters, runtimes, -⟩ :=
      foldl_release (m.namespaceOf a).values m
    exact (Beyond.of_same ts namespaces interpreters runtimes).trans (.onNamespace held _)
  · exact (foldl_release (m.namespaceOf a).values m).2.2.2
  · exact (foldl_release (m.namespaceOf (a.rename π.move)).values m).2.2.2

theorem clearAll : ∀ modules : List ModuleRef, (∀ a ∈ modules, π.held a) →
    π.Lockstep ts Eq (Script.clearAll modules : EStateM ε (World σ) Unit)
      (Script.clearAll (modules.map (·.rename π.move)))
  | [], _ => .pure rfl
  | a :: rest, held =>
    .bindEq (.clearModule (held a List.mem_cons_self)) fun _ =>
      clearAll rest fun b hb => held b (List.mem_cons_of_mem _ hb)

/-- Interpreters are counted apart from what they reach. -/
theorem modifyRuntime (rt : RuntimeId) {f f' : Script.Runtime → Script.Runtime}
    (kept : ∀ r, (f r).extensions = r.extensions) (kept' : ∀ r, (f' r).extensions = r.extensions) :
    π.Lockstep ts Eq (Script.modifyRuntime rt f : EStateM ε (World σ) Unit)
      (Script.modifyRuntime rt f') := by
  have shared : ∀ {f : Script.Runtime → Script.Runtime} (m : Memory) (other : RuntimeId),
      (∀ r, (f r).extensions = r.extensions) →
        (Memory.runtime { m with runtimes := m.runtimes.modify rt.place f } other).extensions =
          (m.runtime other).extensions := by
    intro f m other kept
    simp only [Memory.runtime, Array.getElem?_modify]
    split
    · cases m.runtimes[other.place]? with
      | none => rfl
      | some r => exact kept r
    · rfl
  refine .write (fun m m' h => ⟨?_, ?_⟩) (fun _ => rfl) fun _ => rfl
  · refine { h with
      shared := (shared m' _ kept').trans (h.shared.trans ?_)
      sharedHeld := fun a ha => ?_ }
    · rw [shared m _ kept]
    · rw [shared m _ kept] at ha
      exact h.sharedHeld a ha
  · exact ⟨Nat.le_refl _, fun _ _ _ => rfl, rfl, fun _ _ => rfl, fun other => shared m other kept⟩

theorem endInterpreter (mine : π.compared ts) :
    π.Lockstep ts Eq (Script.endInterpreter ts : EStateM ε (World σ) Unit)
      (Script.endInterpreter ts) := by
  refine .bind (.interpreter mine) fun i _ ⟨moves, rooted⟩ => ?_
  subst moves
  have own : (moved π.move i).modules.values.filter (·.origin != .native) =
      (i.modules.values.filter (·.origin != .native)).map (·.rename π.move) := by
    simp only [moved, Table.values_map, List.filter_map]
    rfl
  rw [own]
  refine .bindEq (.modifyInterpreter mine (fun _ => rfl) fun i hi => ?_) fun _ => ?_
  · exact { hi with modules := fun _ hb => absurd hb List.not_mem_nil }
  · refine .bindEq (.clearAll _ fun a ha => rooted.modules a (List.mem_filter.1 ha).1) fun _ => ?_
    refine .bindEq (clearAll [i.main, i.builtins] fun a ha => ?_) fun _ => ?_
    · simp only [List.mem_cons, List.not_mem_nil, or_false] at ha
      rcases ha with rfl | rfl
      · exact rooted.main
      · exact rooted.builtins
    · exact .bindEq (.setError mine none) fun _ =>
        .modifyRuntime _ (fun _ => rfl) fun _ => rfl

end Lockstep

theorem clearAll_spared {p : Nat} : ∀ (modules : List ModuleRef) (w : World σ),
    (∀ a ∈ modules, a.place ≠ p) → ∃ u,
      (Script.clearAll modules : EStateM ε (World σ) Unit) w = .ok () u ∧
        u.memory.namespaces[p]? = w.memory.namespaces[p]?
  | [], w, _ => ⟨w, rfl, rfl⟩
  | a :: rest, w, other => by
    let cleared : World σ := w.onMemory fun m =>
      ((m.namespaceOf a).values.foldl (fun m v => m.release (some v)) m).onNamespace
        (fun _ => {}) a
    obtain ⟨u, hu, same⟩ := clearAll_spared rest cleared fun b hb =>
      other b (List.mem_cons_of_mem _ hb)
    refine ⟨u, hu, same.trans ?_⟩
    have namespaces := (foldl_release (w.memory.namespaceOf a).values w.memory).1
    simp only [cleared, World.onMemory, Memory.onNamespace, namespaces, Array.getElem?_modify,
      if_neg (other a List.mem_cons_self)]

/-- Ending an interpreter spares what is neither its own nor made by it. -/
theorem endInterpreter_spared (ts : InterpreterId) (w : World σ) {p : Nat}
    (main : (w.memory.interpreter ts).main.place ≠ p)
    (builtins : (w.memory.interpreter ts).builtins.place ≠ p)
    (table : ∀ a ∈ (w.memory.interpreter ts).modules.values, a.origin ≠ .native → a.place ≠ p) :
    ∃ u, (Script.endInterpreter ts : EStateM ε (World σ) Unit) w = .ok () u ∧
      u.memory.namespaces[p]? = w.memory.namespaces[p]? := by
  let i := w.memory.interpreter ts
  let untabled : World σ := w.onMemory (·.onInterpreter ts fun i => { i with modules := {} })
  obtain ⟨v, hv, first⟩ := clearAll_spared (ε := ε) (i.modules.values.filter (·.origin != .native))
    untabled fun a ha => by
      obtain ⟨mem, foreign⟩ := List.mem_filter.1 ha
      exact table a mem (by simpa using foreign)
  obtain ⟨u, hu, second⟩ := clearAll_spared (ε := ε) [i.main, i.builtins] v fun a ha => by
    simp only [List.mem_cons, List.not_mem_nil, or_false] at ha
    rcases ha with rfl | rfl
    · exact main
    · exact builtins
  have read : (Script.endInterpreter ts : EStateM ε (World σ) Unit) w = (do
      Script.clearAll (i.modules.values.filter (·.origin != .native))
      Script.clearAll [i.main, i.builtins]
      Script.clearError ts
      Script.modifyRuntime i.runtime fun r => { r with live := r.live - 1 } :
        EStateM ε (World σ) Unit) untabled := rfl
  rw [read]
  simp only [Bind.bind, EStateM.bind, hv, hu]
  exact ⟨_, rfl, second.trans first⟩

end ScriptBridge.Isolation.Pairing
