import ScriptBridge.Proofs.Isolation.Separation

/-!
# Reachable states

A new interpreter holds two modules of its own, so it is apart from all others, and serving requests
keeps interpreters apart as long as the modules that the runtime shares are left as they are.
-/

namespace ScriptBridge.Isolation

open Script (Value ModuleRef Interpreter InterpreterId RuntimeId Memory World)

variable {σ ε : Type} {m v : Memory} {b : InterpreterId} {rt : RuntimeId}

/-! ### New interpreters -/

theorem modify_push {α : Type} (xs : Array α) (x : α) (f : α → α) :
    (xs.push x).modify xs.size f = xs.push (f x) := by
  apply Array.ext
  · simp
  · intro i hi hj
    simp only [Array.getElem_modify, Array.getElem_push]
    grind

/-- Bindings that fill the last namespace. -/
theorem bindAll_push {xs : Array (Table Value)} {a : ModuleRef} (last : a.place = xs.size) :
    ∀ (entries : List (String × Value)) (t : Table Value) (w : World σ),
      w.memory.namespaces = xs.push t → ∃ v,
        (Script.bindAll a entries : EStateM ε (World σ) Unit) w = .ok () v ∧
        v.memory.namespaces =
          xs.push (entries.foldl (fun t (key, value) => t.insert key value) t) ∧
        v.memory.interpreters = w.memory.interpreters ∧ v.memory.runtimes = w.memory.runtimes ∧
        v.outside = w.outside
  | [], _, w, here => ⟨w, rfl, here, rfl, rfl, rfl⟩
  | (name, value) :: rest, t, w, here => by
    let bound : World σ := w.onMemory fun m =>
      (m.release ((m.namespaceOf a).get? name)).onNamespace (·.insert name value) a
    obtain ⟨namespaces, interpreters, runtimes, -⟩ :=
      Pairing.release_namespaces ((w.memory.namespaceOf a).get? name) w.memory
    have there : bound.memory.namespaces = xs.push (t.insert name value) := by
      simp only [bound, World.onMemory, Memory.onNamespace, namespaces, here, last, modify_push]
    obtain ⟨v, hv, namespaces', interpreters', runtimes', outside⟩ :=
      bindAll_push last rest _ bound there
    exact ⟨v, hv, namespaces', interpreters'.trans interpreters, runtimes'.trans runtimes, outside⟩

/-- A new module with bindings. -/
def filledModule (name : String) (origin : Script.Origin) (entries : List (String × Value)) :
    EStateM ε (World σ) ModuleRef := do
  let a ← Script.newModule name origin
  Script.bindAll a entries
  return a

theorem filledModule_eq (name : String) (origin : Script.Origin)
    (entries : List (String × Value)) (w : World σ) : ∃ v,
      (filledModule name origin entries : EStateM ε (World σ) ModuleRef) w =
        .ok ⟨w.memory.namespaces.size, name, origin⟩ v ∧
      v.memory.namespaces = w.memory.namespaces.push (.ofList entries) ∧
      v.memory.interpreters = w.memory.interpreters ∧ v.memory.runtimes = w.memory.runtimes ∧
      v.outside = w.outside := by
  let added : World σ := w.onMemory fun m => { m with namespaces := m.namespaces.push {} }
  obtain ⟨v, hv, namespaces, interpreters, runtimes, outside⟩ := bindAll_push (ε := ε)
    (a := ⟨w.memory.namespaces.size, name, origin⟩) rfl entries {} added rfl
  refine ⟨v, ?_, namespaces, interpreters, runtimes, outside⟩
  have read : (filledModule name origin entries : EStateM ε (World σ) ModuleRef) w = (do
        Script.bindAll ⟨w.memory.namespaces.size, name, origin⟩ entries
        return ⟨w.memory.namespaces.size, name, origin⟩ :
          EStateM ε (World σ) ModuleRef) added := rfl
  rw [read, bind_ok hv]
  rfl

/-- The record of an interpreter whose modules are the last two. -/
def newRecord (rt : RuntimeId) (number place : Nat) : Interpreter :=
  let builtins : ModuleRef := ⟨place, "builtins", .builtins⟩
  let main : ModuleRef := ⟨place + 1, "__main__", .main⟩
  { number, runtime := rt, builtins, main
    modules := (({} : Table ModuleRef).insert "builtins" builtins).insert "__main__" main }

/-- An interpreter is made out of two filled modules. -/
theorem newInterpreter_filling (rt : RuntimeId) :
    (Script.newInterpreter rt : EStateM ε (World σ) InterpreterId) = (do
      let number := (← Script.getRuntime rt).nextNumber
      let builtins ← filledModule "builtins" .builtins Script.builtinEntries
      let main ← filledModule "__main__" .main [("__name__", .text "__main__")]
      let modules := (({} : Table ModuleRef).insert "builtins" builtins).insert "__main__" main
      let place := (← Script.getMemory).interpreters.size
      Script.modifyMemory fun m =>
        { m with
          interpreters := m.interpreters.push
            { number, runtime := rt, modules, builtins, main } }
      Script.modifyRuntime rt fun r =>
        { r with nextNumber := r.nextNumber + 1, live := r.live + 1 }
      return ⟨place⟩) := by
  simp only [Script.newInterpreter, filledModule, Script.bindAll, bind_assoc, pure_bind]

theorem newInterpreter_eq (rt : RuntimeId) (w : World σ) : ∃ v,
    (Script.newInterpreter rt : EStateM ε (World σ) InterpreterId) w =
      .ok ⟨w.memory.interpreters.size⟩ v ∧
    v.memory.namespaces = (w.memory.namespaces.push (.ofList Script.builtinEntries)).push
      (.ofList [("__name__", .text "__main__")]) ∧
    v.memory.interpreters = w.memory.interpreters.push
      (newRecord rt (w.memory.runtime rt).nextNumber w.memory.namespaces.size) ∧
    (∀ other, (v.memory.runtime other).extensions = (w.memory.runtime other).extensions ∧
      (v.memory.runtime other).current = (w.memory.runtime other).current) ∧
    v.outside = w.outside := by
  obtain ⟨u, hu, namespaces, interpreters, runtimes, outside⟩ :=
    filledModule_eq (ε := ε) "builtins" .builtins Script.builtinEntries w
  obtain ⟨v, hv, namespaces', interpreters', runtimes', outside'⟩ :=
    filledModule_eq (ε := ε) "__main__" .main [("__name__", .text "__main__")] u
  let number := (w.memory.runtime rt).nextNumber
  let finished : World σ := v.onMemory fun m =>
    { m with
      interpreters := m.interpreters.push (newRecord rt number w.memory.namespaces.size)
      runtimes := m.runtimes.modify rt.place fun r =>
        { r with nextNumber := r.nextNumber + 1, live := r.live + 1 } }
  refine ⟨finished, ?_, ?_, ?_, fun other => ?_, outside'.trans outside⟩
  · have numbered : (Script.getRuntime rt : EStateM ε (World σ) Script.Runtime) w =
        .ok (w.memory.runtime rt) w := rfl
    rw [newInterpreter_filling, bind_ok numbered, bind_ok hu, bind_ok hv]
    have place : u.memory.namespaces.size = w.memory.namespaces.size + 1 := by
      rw [namespaces, Array.size_push]
    rw [place]
    show EStateM.Result.ok (InterpreterId.mk v.memory.interpreters.size) finished = _
    rw [interpreters', interpreters]
  · show v.memory.namespaces = _
    rw [namespaces', namespaces]
  · show v.memory.interpreters.push _ = _
    rw [interpreters', interpreters]
  · have runtime : finished.memory.runtime other =
        Memory.runtime { v.memory with runtimes := v.memory.runtimes.modify rt.place fun r =>
          { r with nextNumber := r.nextNumber + 1, live := r.live + 1 } } other := rfl
    rw [runtime]
    simp only [Memory.runtime, Array.getElem?_modify, runtimes', runtimes]
    split
    · cases w.memory.runtimes[other.place]? <;> exact ⟨rfl, rfl⟩
    · exact ⟨rfl, rfl⟩

/-! ### The interpreter that is made -/

/-- What making an interpreter does to memory. -/
structure Made (rt : RuntimeId) (m v : Memory) : Prop where
  namespaces : v.namespaces = (m.namespaces.push (.ofList Script.builtinEntries)).push
    (.ofList [("__name__", .text "__main__")])
  interpreters : ∃ number, v.interpreters =
    m.interpreters.push (newRecord rt number m.namespaces.size)
  shared : ∀ other, (v.runtime other).extensions = (m.runtime other).extensions

theorem newInterpreter_made {w u : World σ} {ts : InterpreterId}
    (made : (Script.newInterpreter rt : EStateM ε (World σ) InterpreterId) w = .ok ts u) :
    ts = ⟨w.memory.interpreters.size⟩ ∧ Made rt w.memory u.memory := by
  obtain ⟨v, hv, namespaces, interpreters, shared, -⟩ := newInterpreter_eq (ε := ε) rt w
  rw [hv] at made
  cases made
  exact ⟨rfl, namespaces, ⟨_, interpreters⟩, fun other => (shared other).1⟩

theorem mem_values_ofList {entries : List (String × Value)} {u : Value}
    (mem : u ∈ (Table.ofList entries).values) : ∃ entry ∈ entries, entry.2 = u := by
  have collected : ∀ (entries : List (String × Value)) (t : Table Value),
      u ∈ (entries.foldl (fun t (key, value) => t.insert key value) t).values →
        u ∈ t.values ∨ ∃ entry ∈ entries, entry.2 = u := by
    intro entries
    induction entries with
    | nil => exact fun t mem => .inl mem
    | cons entry rest ih =>
      intro t mem
      rcases ih _ mem with old | ⟨other, found, same⟩
      · rcases Table.mem_values_insert old with rfl | old
        · exact .inr ⟨entry, List.mem_cons_self, rfl⟩
        · exact .inl old
      · exact .inr ⟨other, List.mem_cons_of_mem _ found, same⟩
  exact (collected entries {} mem).resolve_left nofun

theorem builtinEntries_bare : ∀ u ∈ (Table.ofList Script.builtinEntries).values, u.refs = [] := by
  intro u mem
  obtain ⟨entry, found, rfl⟩ := mem_values_ofList mem
  simp only [Script.builtinEntries, List.mem_append, List.mem_map, List.mem_singleton] at found
  rcases found with (⟨family, -, rfl⟩ | rfl) | ⟨function, -, rfl⟩ <;> rfl

theorem nameEntry_bare :
    ∀ u ∈ (Table.ofList [("__name__", Value.text "__main__")]).values, u.refs = [] := by
  intro u mem
  obtain ⟨entry, found, rfl⟩ := mem_values_ofList mem
  rw [List.mem_singleton.1 found]
  rfl

variable {π ρ : Pairing}

/-- Whoever was there before is left alone. -/
theorem Made.spares (made : Made rt m v) (h : π.Alike m m) : π.Spares m v where
  size := by
    rw [made.namespaces]
    simp only [Array.size_push]
    omega
  namespaces a ha := by
    have old := h.placed a ha
    have first : a.place ≠ m.namespaces.size := Nat.ne_of_lt old
    have second : a.place ≠ m.namespaces.size + 1 := by omega
    simp [Memory.namespaceOf, made.namespaces, Array.getElem?_push, first, second]
  count := by
    obtain ⟨number, interpreters⟩ := made.interpreters
    simp [interpreters]
  interpreters ts mine := by
    obtain ⟨number, interpreters⟩ := made.interpreters
    have older : ts.place ≠ m.interpreters.size := Nat.ne_of_lt (h.made ts mine)
    simp [Memory.interpreter, interpreters, Array.getElem?_push, older]
  shared := made.shared π.runtime

/-- The pairing with an interpreter more, and the two modules that it starts with. -/
def Pairing.enroll (π : Pairing) (m : Memory) : Pairing :=
  let n := m.namespaces.size
  { (π.add ⟨n, "builtins", .builtins⟩ n).add ⟨n + 1, "__main__", .main⟩ (n + 1) with
    compared := fun ts => π.compared ts ∨ ts = ⟨m.interpreters.size⟩ }

theorem Made.enrolled (made : Made rt m v) (h : π.Alike m m) (runtime : π.runtime = rt)
    (still : π.move = id) : (π.enroll m).Alike v v ∧ (π.enroll m).move = id := by
  have stays : (π.enroll m).move = id := by
    have first : (π.add ⟨m.namespaces.size, "builtins", .builtins⟩ m.namespaces.size).move = id :=
      Pairing.Grown.move_id (.added _ _) still
    have second : ((π.add ⟨m.namespaces.size, "builtins", .builtins⟩ m.namespaces.size).add
        ⟨m.namespaces.size + 1, "__main__", .main⟩ (m.namespaces.size + 1)).move = id :=
      Pairing.Grown.move_id (.added _ _) first
    exact second
  have modules := (h.add "builtins" .builtins builtinEntries_bare).add "__main__" .main
    nameEntry_bare
  simp only [Array.size_push] at modules
  obtain ⟨number, interpreters⟩ := made.interpreters
  refine ⟨?_, stays⟩
  have namespaceOf : ∀ a, v.namespaceOf a = Memory.namespaceOf { m with
      namespaces := (m.namespaces.push (.ofList Script.builtinEntries)).push
        (.ofList [("__name__", .text "__main__")]) } a := by
    intro a
    rw [Memory.namespaceOf, made.namespaces]
    rfl
  have new : v.interpreter ⟨m.interpreters.size⟩ = newRecord rt number m.namespaces.size := by
    simp [Memory.interpreter, interpreters]
  have old : ∀ ts, π.compared ts → v.interpreter ts = m.interpreter ts := (made.spares h).interpreters
  have roots : ∀ ts, (π.enroll m).compared ts → (π.enroll m).Rooted (v.interpreter ts) := by
    rintro ts (mine | rfl)
    · rw [old ts mine]
      exact { modules.rooted ts mine with }
    · rw [new]
      refine ⟨runtime.symm, .inr rfl, .inl (.inr rfl), fun a ha => ?_, rfl, rfl⟩
      rcases Table.mem_values_insert ha with rfl | ha
      · exact .inr rfl
      · rcases Table.mem_values_insert ha with rfl | ha
        · exact .inl (.inr rfl)
        · cases ha
  refine
    { apart := modules.apart, placed := ?_, placed' := ?_, contents := ?_, closed := ?_
      made := ?_, made' := ?_, records := fun ts _ => ?_, rooted := roots
      shared := ?_, sharedHeld := ?_ }
  · rw [made.namespaces]
    exact modules.placed
  · rw [made.namespaces]
    exact modules.placed'
  · intro a ha
    rw [namespaceOf, namespaceOf]
    exact modules.contents a ha
  · intro a ha
    rw [namespaceOf]
    exact modules.closed a ha
  · rintro ts (mine | rfl)
    · exact Nat.lt_of_lt_of_le (h.made ts mine) (made.spares h).count
    · simp [interpreters]
  · rintro ts (mine | rfl)
    · exact Nat.lt_of_lt_of_le (h.made ts mine) (made.spares h).count
    · simp [interpreters]
  · rw [stays, Pairing.moved_id]
  · rw [made.shared, stays]
    exact (Table.map_self _ fun _ _ => rfl).symm
  · rw [made.shared]
    exact modules.sharedHeld

/-! ### Reachable states -/

/-- The states of a runtime and its interpreters, in which the modules that the runtime shares have
stayed as they were. -/
inductive Reachable (rt : RuntimeId) : World σ → Prop
  | start {outside : σ} {w : World σ} :
    (Script.newRuntime : EStateM Empty (World σ) RuntimeId) ⟨{}, outside⟩ = .ok rt w → Reachable rt w
  | make {w v : World σ} {ts : InterpreterId} : Reachable rt w →
    (Script.newInterpreter rt : EStateM Empty (World σ) InterpreterId) w = .ok ts v → Reachable rt v
  | perform {w : World σ} {ts : InterpreterId} (calls : Nat) (request : Request) :
    Reachable rt w → ts.place < w.memory.interpreters.size →
      NativesKept rt w.memory (request.perform calls ts w).2.memory →
      Reachable rt (request.perform calls ts w).2

/-- Every interpreter is apart from all others. -/
def Separated (rt : RuntimeId) (m : Memory) : Prop :=
  ∀ b, ∃ π ρ : Pairing, π.runtime = rt ∧ π.move = id ∧ Pairing.Apart b π ρ m m

theorem mathEntries_bare : ∀ u ∈ (Table.ofList Script.mathEntries).values, u.refs = [] := by
  intro u mem
  obtain ⟨entry, found, rfl⟩ := mem_values_ofList mem
  simp only [Script.mathEntries, List.mem_append, List.mem_cons, List.not_mem_nil, or_false,
    List.mem_map] at found
  rcases found with (rfl | rfl) | ⟨function, -, rfl⟩ <;> rfl

/-- A runtime is made around one filled module. -/
theorem newRuntime_filling : (Script.newRuntime : EStateM ε (World σ) RuntimeId) = (do
    let math ← filledModule "math" .native Script.mathEntries
    let place := (← Script.getMemory).runtimes.size
    Script.modifyMemory fun m =>
      { m with
        runtimes :=
          m.runtimes.push { extensions := ({} : Table ModuleRef).insert "math" math } }
    return ⟨place⟩) := by
  simp only [Script.newRuntime, filledModule, bind_assoc, pure_bind]

/-- A memory in which a runtime was just made: there is one module, and nobody has run. -/
structure Started (rt : RuntimeId) (math : ModuleRef) (m : Memory) : Prop where
  native : math.origin = .native
  placed : math.place < m.namespaces.size
  filled : m.namespaceOf math = .ofList Script.mathEntries
  extensions : (m.runtime rt).extensions = ⟨[("math", math)]⟩
  interpreters : m.interpreters = #[]

theorem newRuntime_started {outside : σ} {w : World σ}
    (started : (Script.newRuntime : EStateM Empty (World σ) RuntimeId) ⟨{}, outside⟩ = .ok rt w) :
    Started rt ⟨0, "math", .native⟩ w.memory := by
  obtain ⟨v, hv, namespaces, interpreters, runtimes⟩ :=
    filledModule_eq (ε := Empty) "math" .native Script.mathEntries ⟨{}, outside⟩
  rw [newRuntime_filling, bind_ok hv] at started
  cases started
  refine ⟨rfl, ?_, ?_, ?_, interpreters⟩
  · show 0 < v.memory.namespaces.size
    simp [namespaces]
  · show v.memory.namespaceOf _ = _
    simp [Memory.namespaceOf, namespaces]
  · let record : Script.Runtime :=
      { extensions := ({} : Table ModuleRef).insert "math" ⟨0, "math", .native⟩ }
    have listed : (v.memory.runtimes.push record)[v.memory.runtimes.size]? = some record :=
      Array.getElem?_push_size
    exact congrArg (fun found => (found.getD default).extensions) listed

/-- The one module is as it is, whoever counts. -/
theorem Started.alike {math : ModuleRef} (h : Started rt math m) :
    Pairing.Alike ⟨rt, fun _ => False, (· = math), id⟩ m m where
  apart := by
    rintro a c rfl rfl -
    rfl
  placed := by
    rintro a rfl
    exact h.placed
  placed' := by
    rintro a rfl
    exact h.placed
  contents a _ := (Table.map_self _ fun u _ => Value.rename_id u).symm
  closed := by
    rintro a rfl x hx
    rw [h.filled] at hx
    exact Pairing.holds_bare (mathEntries_bare x hx)
  made ts mine := mine.elim
  made' ts mine := mine.elim
  records ts mine := mine.elim
  rooted ts mine := mine.elim
  shared := (Table.map_self _ fun _ _ => rfl).symm
  sharedHeld a ha := by
    rw [h.extensions] at ha
    exact List.mem_singleton.1 ha

theorem Started.separated {math : ModuleRef} (h : Started rt math m) : Separated rt m := by
  intro b
  have nobody (ts : InterpreterId) : ¬ts.place < m.interpreters.size := by
    simp [h.interpreters]
  refine ⟨⟨rt, fun _ => False, (· = math), id⟩, ⟨rt, fun _ => False, (· = math), id⟩, rfl, rfl,
    h.alike, h.alike, rfl, rfl, fun ts => ?_, fun ts => ?_, ?_, ?_⟩
  · exact iff_of_false id fun mine => nobody ts mine.1
  · exact iff_of_false id fun mine => nobody ts mine.1
  · rintro a c rfl rfl -
    rw [h.extensions]
    exact List.mem_cons_self
  · intro a ha
    rw [h.extensions] at ha
    rw [List.mem_singleton.1 ha]
    exact h.native

theorem separated_start {outside : σ} {w : World σ}
    (started : (Script.newRuntime : EStateM Empty (World σ) RuntimeId) ⟨{}, outside⟩ = .ok rt w) :
    Separated rt w.memory :=
  (newRuntime_started started).separated

theorem Made.count (made : Made rt m v) : v.interpreters.size = m.interpreters.size + 1 := by
  obtain ⟨number, interpreters⟩ := made.interpreters
  rw [interpreters, Array.size_push]

theorem enroll_fresh {a : ModuleRef} (ha : (π.enroll m).held a) :
    π.held a ∨ m.namespaces.size ≤ a.place := by
  rcases ha with (ha | rfl) | rfl
  · exact .inl ha
  · exact .inr (Nat.le_refl _)
  · exact .inr (Nat.le_succ _)

theorem Made.here (made : Made rt m v) (ts : InterpreterId) : ts.place < v.interpreters.size ↔
    ts.place < m.interpreters.size ∨ ts = ⟨m.interpreters.size⟩ := by
  rw [made.count, Nat.lt_succ_iff_lt_or_eq]
  refine or_congr_right ⟨fun same => ?_, congrArg InterpreterId.place⟩
  cases ts
  exact congrArg InterpreterId.mk same

/-- The interpreter that was made is one more of those that are its own. -/
theorem Made.apart_own (made : Made rt m v) (runtime : π.runtime = rt) (still : π.move = id)
    (h : Pairing.Apart ⟨m.interpreters.size⟩ π ρ m m) :
    Pairing.Apart ⟨m.interpreters.size⟩ π (ρ.enroll m) v v := by
  obtain ⟨own, stays⟩ := made.enrolled h.own (h.runtime.trans runtime) h.still
  have others := (h.others.spared (made.spares h.others)).self
  rw [← still] at others
  refine ⟨others, own, stays, h.runtime, fun ts => ?_, fun ts => ?_, fun a c ha hc same => ?_, ?_⟩
  · rw [h.compared, made.here]
    constructor
    · exact fun ⟨old, other⟩ => ⟨.inl old, other⟩
    · exact fun ⟨either, other⟩ => ⟨either.resolve_right other, other⟩
  · show ρ.compared ts ∨ ts = _ ↔ _
    rw [h.owned, made.here]
    constructor
    · exact fun either => either.elim (fun mine => ⟨.inl mine.1, mine.2⟩) fun same => ⟨.inr same, same⟩
    · exact fun mine => .inr mine.2
  · rw [made.shared]
    rcases enroll_fresh hc with hc | late
    · exact h.overlap a c ha hc same
    · have early := h.others.placed a ha
      omega
  · rw [made.shared]
    exact h.native

/-- The interpreter that was made is one more of the others. -/
theorem Made.apart_other (made : Made rt m v) (runtime : π.runtime = rt) (still : π.move = id)
    (other : b ≠ ⟨m.interpreters.size⟩) (h : Pairing.Apart b π ρ m m) :
    Pairing.Apart b (π.enroll m) ρ v v := by
  obtain ⟨others, -⟩ := made.enrolled h.others runtime still
  have own := (h.own.spared (made.spares h.own)).self
  rw [← h.still] at own
  refine ⟨others, own, h.still, h.runtime, fun ts => ?_, fun ts => ?_, fun a c ha hc same => ?_, ?_⟩
  · show π.compared ts ∨ ts = _ ↔ _
    rw [h.compared, made.here]
    constructor
    · rintro (⟨old, apart⟩ | rfl)
      · exact ⟨.inl old, apart⟩
      · exact ⟨.inr rfl, Ne.symm other⟩
    · rintro ⟨old | same, apart⟩
      · exact .inl ⟨old, apart⟩
      · exact .inr same
  · rw [h.owned, made.here]
    constructor
    · exact fun ⟨old, same⟩ => ⟨.inl old, same⟩
    · rintro ⟨old | last, same⟩
      · exact ⟨old, same⟩
      · exact absurd (same.symm.trans last) other
  · show a ∈ (v.runtime π.runtime).extensions.values
    rw [made.shared]
    rcases enroll_fresh ha with ha | late
    · exact h.overlap a c ha hc same
    · have early := h.own.placed c hc
      omega
  · show ∀ a ∈ (v.runtime π.runtime).extensions.values, a.origin = .native
    rw [made.shared]
    exact h.native

theorem separated_make (separated : Separated rt m) (made : Made rt m v) : Separated rt v := by
  intro b
  obtain ⟨π, ρ, runtime, still, h⟩ := separated b
  by_cases new : b = ⟨m.interpreters.size⟩
  · subst new
    exact ⟨π, ρ.enroll m, runtime, still, made.apart_own runtime still h⟩
  · exact ⟨π.enroll m, ρ, runtime, (made.enrolled h.others runtime still).2,
      made.apart_other runtime still new h⟩

theorem separated_perform {w : World σ} {ts : InterpreterId} {calls : Nat} {request : Request}
    (separated : Separated rt w.memory) (made : ts.place < w.memory.interpreters.size)
    (kept : NativesKept rt w.memory (request.perform calls ts w).2.memory) :
    Separated rt (request.perform calls ts w).2.memory := by
  intro b
  obtain ⟨π, ρ, runtime, still, h⟩ := separated b
  rw [← runtime] at kept
  by_cases own : ts = b
  · subst own
    obtain ⟨ρ', after⟩ := h.left made kept
    have others := after.others.self
    rw [← still] at others
    exact ⟨π, ρ', runtime, still, { after with others := others }⟩
  · obtain ⟨π', grown, -, after⟩ := h.served made own kept
    exact ⟨π', ρ, grown.runtime.trans runtime, grown.move_id still, after⟩

/-- Interpreters are apart in every reachable state. -/
theorem reachable_separated {w : World σ} (reached : Reachable rt w) : Separated rt w.memory := by
  induction reached with
  | start started => exact separated_start started
  | make _ made ih => exact separated_make ih (newInterpreter_made made).2
  | perform calls request _ made kept ih => exact separated_perform ih made kept

end ScriptBridge.Isolation
