import ScriptBridge.Proofs.Isolation.Lockstep

/-!
# Memory

What reads and changes memory keeps pace: binding and removing names, the record of the interpreter,
its pending error, and its counters.
-/

namespace ScriptBridge.Script.Memory

theorem namespaceOf_onNamespace (m : Memory) (f : Table Value → Table Value) (a b : ModuleRef)
    (placed : a.place < m.namespaces.size) :
    (m.onNamespace f a).namespaceOf b =
      if b.place = a.place then f (m.namespaceOf a) else m.namespaceOf b := by
  by_cases same : b.place = a.place
  · simp [namespaceOf, onNamespace, same, placed, Array.getElem_modify]
  · simp [namespaceOf, onNamespace, same, Ne.symm same, Array.getElem?_modify]

theorem interpreter_at (m : Memory) (f : Interpreter → Interpreter) (ts other : InterpreterId)
    (made : ts.place < m.interpreters.size) :
    (m.onInterpreter ts f).interpreter other =
      if other = ts then f (m.interpreter ts) else m.interpreter other := by
  by_cases same : other = ts
  · simp [interpreter, onInterpreter, same, made, Array.getElem_modify]
  · have apart : ts.place ≠ other.place := fun h => same (by cases other; cases ts; simp_all)
    simp [interpreter, onInterpreter, same, apart, Array.getElem?_modify]

/-- Changes of one interpreter in a row are one change. -/
theorem onInterpreter_onInterpreter {m : Memory} {ts : InterpreterId}
    (f g : Interpreter → Interpreter) :
    (m.onInterpreter ts f).onInterpreter ts g = m.onInterpreter ts (g ∘ f) := by
  simp only [onInterpreter, Memory.mk.injEq, true_and, and_true]
  refine Array.ext (by simp) fun i _ _ => ?_
  simp only [Array.getElem_modify]
  split <;> rfl

theorem onInterpreter_id {m : Memory} {ts : InterpreterId} : m.onInterpreter ts id = m := by
  have same : m.interpreters.modify ts.place id = m.interpreters := by
    refine Array.ext (by simp) fun i _ _ => ?_
    simp [Array.getElem_modify]
  rw [onInterpreter, same]

end ScriptBridge.Script.Memory

namespace ScriptBridge.Isolation

open Script (Value ModuleRef Interpreter InterpreterId RuntimeId Memory World ScriptM Exception
  Fault Raised)

variable {σ ε α β : Type} {π : Pairing} {ts : InterpreterId} {m m' : Memory}

namespace Pairing

/-- Namespaces, interpreters and runtimes decide what is alike. -/
theorem Alike.of_same {v v' : Memory} (h : π.Alike m m') (namespaces : v.namespaces = m.namespaces)
    (interpreters : v.interpreters = m.interpreters) (runtimes : v.runtimes = m.runtimes)
    (namespaces' : v'.namespaces = m'.namespaces)
    (interpreters' : v'.interpreters = m'.interpreters) (runtimes' : v'.runtimes = m'.runtimes) :
    π.Alike v v' where
  apart := h.apart
  placed := by simpa only [namespaces] using h.placed
  placed' := by simpa only [namespaces'] using h.placed'
  contents := by simpa only [Memory.namespaceOf, namespaces, namespaces'] using h.contents
  closed := by simpa only [Memory.namespaceOf, namespaces] using h.closed
  made := by simpa only [interpreters] using h.made
  made' := by simpa only [interpreters'] using h.made'
  records := by simpa only [Memory.interpreter, interpreters, interpreters'] using h.records
  rooted := by simpa only [Memory.interpreter, interpreters] using h.rooted
  shared := by simpa only [Memory.runtime, runtimes, runtimes'] using h.shared
  sharedHeld := by simpa only [Memory.runtime, runtimes] using h.sharedHeld

theorem Beyond.of_same {v : Memory} (ts : InterpreterId) (namespaces : v.namespaces = m.namespaces)
    (interpreters : v.interpreters = m.interpreters) (runtimes : v.runtimes = m.runtimes) :
    π.Beyond ts m v :=
  ⟨Nat.le_of_eq (congrArg Array.size namespaces.symm), fun _ _ _ => by rw [namespaces], by rw [interpreters],
    fun _ _ => by rw [Memory.interpreter, Memory.interpreter, interpreters],
    fun _ => by rw [Memory.runtime, Memory.runtime, runtimes]⟩

theorem Alike.onNamespace (h : π.Alike m m') {a : ModuleRef} (held : π.held a)
    {f f' : Table Value → Table Value}
    (fits : ∀ t, f' (t.map (·.rename π.move)) = (f t).map (·.rename π.move))
    (closed : ∀ t, (∀ v ∈ t.values, π.Holds v) → ∀ v ∈ (f t).values, π.Holds v) :
    π.Alike (m.onNamespace f a) (m'.onNamespace f' (a.rename π.move)) := by
  have here := h.placed a held
  have there : (a.rename π.move).place < m'.namespaces.size := h.placed' a held
  refine { h with
    placed := fun b hb => ?_
    placed' := fun b hb => ?_
    contents := fun b hb => ?_
    closed := fun b hb v hv => ?_ }
  · simpa [Memory.onNamespace] using h.placed b hb
  · simpa [Memory.onNamespace] using h.placed' b hb
  · rw [Memory.namespaceOf_onNamespace _ _ _ _ here, Memory.namespaceOf_onNamespace _ _ _ _ there,
      h.contents a held, fits]
    have places : (b.rename π.move).place = (a.rename π.move).place ↔ b.place = a.place :=
      ⟨fun same => congrArg _ (h.apart b a hb held same), congrArg π.move⟩
    by_cases same : b.place = a.place
    · rw [if_pos same, if_pos (places.2 same)]
    · rw [if_neg same, if_neg (mt places.1 same), h.contents b hb]
  · rw [Memory.namespaceOf_onNamespace _ _ _ _ here] at hv
    split at hv
    · exact closed _ (h.closed a held) v hv
    · exact h.closed b hb v hv

theorem Beyond.onNamespace {a : ModuleRef} (held : π.held a) (f : Table Value → Table Value) :
    π.Beyond ts m (m.onNamespace f a) where
  size := by simp [Memory.onNamespace]
  namespaces p _ other := by simp [Memory.onNamespace, Array.getElem?_modify, other a held]
  count := rfl
  interpreters _ _ := rfl
  shared _ := rfl

theorem Alike.onInterpreter (h : π.Alike m m') (mine : π.compared ts)
    {f f' : Interpreter → Interpreter} (fits : ∀ i, f' (moved π.move i) = moved π.move (f i))
    (rooted : ∀ i, π.Rooted i → π.Rooted (f i)) :
    π.Alike (m.onInterpreter ts f) (m'.onInterpreter ts f') := by
  have here := h.made ts mine
  have there := h.made' ts mine
  refine { h with
    made := fun other hm => ?_
    made' := fun other hm => ?_
    records := fun other hm => ?_
    rooted := fun other hm => ?_ }
  · simpa [Memory.onInterpreter] using h.made other hm
  · simpa [Memory.onInterpreter] using h.made' other hm
  · rw [Memory.interpreter_at _ _ _ _ here, Memory.interpreter_at _ _ _ _ there]
    split
    · rw [h.records ts mine, fits]
    · exact h.records other hm
  · rw [Memory.interpreter_at _ _ _ _ here]
    split
    · exact rooted _ (h.rooted ts mine)
    · exact h.rooted other hm

theorem Beyond.onInterpreter (made : ts.place < m.interpreters.size)
    (f : Interpreter → Interpreter) : π.Beyond ts m (m.onInterpreter ts f) where
  size := Nat.le_refl _
  namespaces _ _ _ := rfl
  count := by simp [Memory.onInterpreter]
  interpreters other apart := by rw [Memory.interpreter_at _ _ _ _ made, if_neg apart]
  shared _ := rfl

/-! ### Namespaces -/

theorem release_namespaces (v : Option Value) (m : Memory) :
    (m.release v).namespaces = m.namespaces ∧ (m.release v).interpreters = m.interpreters ∧
      (m.release v).runtimes = m.runtimes ∧ (m.release v).output = m.output := by
  cases v with
  | none => exact ⟨rfl, rfl, rfl, rfl⟩
  | some v =>
    rw [Memory.release]
    split <;> exact ⟨rfl, rfl, rfl, rfl⟩

theorem Alike.release (h : π.Alike m m') (v v' : Option Value) :
    π.Alike (m.release v) (m'.release v') := by
  obtain ⟨namespaces, interpreters, runtimes, -⟩ := release_namespaces v m
  obtain ⟨namespaces', interpreters', runtimes', -⟩ := release_namespaces v' m'
  exact h.of_same namespaces interpreters runtimes namespaces' interpreters' runtimes'

theorem Beyond.release (v : Option Value) : π.Beyond ts m (m.release v) := by
  obtain ⟨namespaces, interpreters, runtimes, -⟩ := release_namespaces v m
  exact .of_same ts namespaces interpreters runtimes

/-- Bindings and what they are in the other memory. -/
def SameEntries (π : Pairing) (entries entries' : List (String × Value)) : Prop :=
  entries' = entries.map (fun entry => (entry.1, entry.2.rename π.move)) ∧
    ∀ entry ∈ entries, π.Holds entry.2

namespace Lockstep

theorem bindName {a : ModuleRef} (held : π.held a) (name : String) {v : Value} (hv : π.Holds v) :
    π.Lockstep ts Eq (Script.bindName a name v : EStateM ε (World σ) Unit)
      (Script.bindName (a.rename π.move) name (v.rename π.move)) := by
  refine .write (fun m m' h => ⟨?_, ?_⟩) (fun m => ?_) fun m => ?_
  · refine (h.release _ _).onNamespace held (fun t => Table.insert_map _ t name v) ?_
    intro t old u hu
    rcases Table.mem_values_insert hu with rfl | hu
    · exact hv
    · exact old u hu
  · exact (Beyond.release _).trans (.onNamespace held _)
  · exact (release_namespaces _ m).2.2.2
  · exact (release_namespaces _ m).2.2.2

theorem unbindName {a : ModuleRef} (held : π.held a) (name : String) :
    π.Lockstep ts Eq (Script.unbindName a name : EStateM ε (World σ) Unit)
      (Script.unbindName (a.rename π.move) name) := by
  refine .write (fun m m' h => ⟨?_, ?_⟩) (fun m => ?_) fun m => ?_
  · refine (h.release _ _).onNamespace held (fun t => Table.erase_map _ t name) ?_
    exact fun t old u hu => old u (Table.mem_values_erase hu)
  · exact (Beyond.release _).trans (.onNamespace held _)
  · exact (release_namespaces _ m).2.2.2
  · exact (release_namespaces _ m).2.2.2

theorem bindAll {a : ModuleRef} (held : π.held a) : ∀ {entries entries' : List (String × Value)},
    π.SameEntries entries entries' →
      π.Lockstep ts Eq (Script.bindAll a entries : EStateM ε (World σ) Unit)
        (Script.bindAll (a.rename π.move) entries')
  | [], _, ⟨rfl, _⟩ => .pure rfl
  | (name, v) :: rest, _, ⟨rfl, hold⟩ =>
    .bindEq (.bindName held name (hold _ List.mem_cons_self)) fun _ =>
      bindAll held ⟨rfl, fun entry mem => hold entry (List.mem_cons_of_mem _ mem)⟩

theorem lookup {a : ModuleRef} (held : π.held a) (name : String) :
    π.Lockstep ts (fun v v' => v' = v.map (·.rename π.move) ∧ ∀ u, v = some u → π.Holds u)
      (Script.lookup? a name : EStateM ε (World σ) (Option Value))
      (Script.lookup? (a.rename π.move) name) := by
  refine .read fun m m' h => ⟨?_, fun u found => ?_⟩
  · rw [h.contents a held, Table.get?_map]
  · exact h.closed a held u (Table.mem_values found)

theorem publicEntries {a : ModuleRef} (held : π.held a) :
    π.Lockstep ts π.SameEntries
      (Script.publicEntries a : EStateM ε (World σ) (List (String × Value)))
      (Script.publicEntries (a.rename π.move)) := by
  refine .read fun m m' h => ⟨?_, fun entry mem => ?_⟩
  · rw [h.contents a held, Table.map, List.filter_map]
    rfl
  · exact h.closed a held _ (List.mem_map_of_mem (List.mem_filter.1 mem).1)

/-! ### The interpreter -/

theorem interpreter (mine : π.compared ts) :
    π.Lockstep ts (fun i i' => i' = moved π.move i ∧ π.Rooted i)
      (Script.getInterpreter ts : EStateM ε (World σ) Interpreter) (Script.getInterpreter ts) :=
  .read fun _ _ h => ⟨h.records ts mine, h.rooted ts mine⟩

theorem modifyInterpreter (mine : π.compared ts) {f f' : Interpreter → Interpreter}
    (fits : ∀ i, f' (moved π.move i) = moved π.move (f i))
    (rooted : ∀ i, π.Rooted i → π.Rooted (f i)) :
    π.Lockstep ts Eq (Script.modifyInterpreter ts f : EStateM ε (World σ) Unit)
      (Script.modifyInterpreter ts f') :=
  .write (fun _ _ h => ⟨h.onInterpreter mine fits rooted, .onInterpreter (h.made ts mine) f⟩)
    (fun _ => rfl) fun _ => rfl

theorem setError (mine : π.compared ts) (e : Option Exception) :
    π.Lockstep ts Eq (Script.setError ts e : EStateM ε (World σ) Unit)
      (Script.setError ts e) :=
  .modifyInterpreter mine (fun _ => rfl) fun _ h => { h with }

theorem raiseException (mine : π.compared ts) (e : Exception) :
    π.Lockstep ts R (Script.raiseException ts e : ScriptM σ α) (Script.raiseException ts e) :=
  .bindEq (.setError mine (some e)) fun _ => .throw _ _

theorem raise (mine : π.compared ts) (fault : Fault) :
    π.Lockstep ts R (Script.raise ts fault : ScriptM σ α) (Script.raise ts fault) :=
  .raiseException mine fault.exception

theorem errorIsA (mine : π.compared ts) (family : Script.Family) :
    π.Lockstep ts Eq (Script.errorIsA ts family : EStateM ε (World σ) Bool)
      (Script.errorIsA ts family) :=
  .bind (.interpreter mine) fun _ _ same => .pure (by rw [same.1, moved])

theorem pushTrace (mine : π.compared ts) (file : String) (line : Nat) :
    π.Lockstep ts Eq (Script.pushTrace ts file line : EStateM ε (World σ) Unit)
      (Script.pushTrace ts file line) :=
  .modifyInterpreter mine (fun _ => rfl) fun _ h => { h with }

/-- A counter of the interpreter is no root of what it reaches. -/
theorem guarded (mine : π.compared ts) {count : Interpreter → Nat}
    {set : Nat → Interpreter → Interpreter} {limit : Nat} {fault : Fault}
    (counts : ∀ i, count (moved π.move i) = count i)
    (fits : ∀ n i, set n (moved π.move i) = moved π.move (set n i))
    (rooted : ∀ n i, π.Rooted i → π.Rooted (set n i)) {step step' : ScriptM σ α}
    (h : π.Lockstep ts R step step') :
    π.Lockstep ts R (Script.guarded ts count set limit fault step)
      (Script.guarded ts count set limit fault step') := by
  have shift (f : Nat → Nat) : ∀ {w w' : World σ}, π.Abreast w w' →
      π.Abreast (w.onMemory (·.onInterpreter ts fun i => set (f (count i)) i))
        (w'.onMemory (·.onInterpreter ts fun i => set (f (count i)) i)) ∧
      π.Beyond ts w.memory
        (w.onMemory (·.onInterpreter ts fun i => set (f (count i)) i)).memory := by
    intro w w' abreast
    have alike : π.Alike (w.memory.onInterpreter ts fun i => set (f (count i)) i)
        (w'.memory.onInterpreter ts fun i => set (f (count i)) i) :=
      abreast.alike.onInterpreter mine (fun i => by rw [counts, fits]) fun i hi => rooted _ i hi
    exact ⟨⟨alike, abreast.output⟩, .onInterpreter (abreast.alike.made ts mine) _⟩
  intro w w' abreast
  have same : count (w'.memory.interpreter ts) = count (w.memory.interpreter ts) := by
    rw [abreast.alike.records ts mine, counts]
  simp only [Script.guarded, same]
  split
  · exact raise mine fault w w' abreast
  · obtain ⟨entered, beyond⟩ := shift (· + 1) abreast
    have ends := h _ _ entered
    match step (w.onMemory (·.onInterpreter ts fun i => set (count i + 1) i)),
        step' (w'.onMemory (·.onInterpreter ts fun i => set (count i + 1) i)), ends with
    | .ok a v, .ok a' v', ⟨result, left, inside⟩ =>
      obtain ⟨left, after⟩ := shift (· - 1) left
      exact ⟨result, left, (beyond.trans inside).trans after⟩
    | .error e v, .error e' v', ⟨left, inside⟩ =>
      obtain ⟨left, after⟩ := shift (· - 1) left
      exact ⟨left, (beyond.trans inside).trans after⟩

theorem nested (mine : π.compared ts) {step step' : ScriptM σ α} (h : π.Lockstep ts R step step') :
    π.Lockstep ts R (Script.nested ts step) (Script.nested ts step') := by
  unfold Script.nested
  refine guarded mine ?_ ?_ ?_ h
  · exact fun _ => rfl
  · exact fun _ _ => rfl
  · exact fun _ _ h => { h with }

theorem inCall (mine : π.compared ts) {step step' : ScriptM σ α} (h : π.Lockstep ts R step step') :
    π.Lockstep ts R (Script.inCall ts step) (Script.inCall ts step') := by
  unfold Script.inCall
  refine guarded mine ?_ ?_ ?_ h
  · exact fun _ => rfl
  · exact fun _ _ => rfl
  · exact fun _ _ h => { h with }

/-! ### Printing and giving up -/

theorem printLine (line : String) :
    π.Lockstep ts Eq (Script.printLine line : EStateM ε (World σ) Unit)
      (Script.printLine line) := by
  intro w w' abreast
  refine ⟨rfl, ⟨abreast.alike.of_same rfl rfl rfl rfl rfl rfl, ?_⟩, .of_same ts rfl rfl rfl⟩
  show w'.memory.output ++ (line ++ "\n") = w.memory.output ++ (line ++ "\n")
  rw [abreast.output]

theorem giveUp : π.Lockstep ts R (Script.giveUp : ScriptM σ α) Script.giveUp := by
  refine .bindEq (.write (fun m m' h => ⟨?_, ?_⟩) (fun _ => rfl) fun _ => rfl) fun _ => .throw _ _
  · exact h.of_same rfl rfl rfl rfl rfl rfl
  · exact .of_same ts rfl rfl rfl

theorem orRaise (mine : π.compared ts) {x x' : Except Fault Value}
    (same : x' = x.map (·.rename π.move)) (hold : ∀ v, x = .ok v → π.Holds v) :
    π.Lockstep ts π.Same (Script.orRaise ts x : ScriptM σ Value) (Script.orRaise ts x') := by
  subst same
  cases x with
  | ok v => exact .pure ⟨rfl, hold v rfl⟩
  | error fault => exact .raise mine fault

/-- A pure step that is the same on both sides. -/
theorem orRaiseEq (mine : π.compared ts) (x : Except Fault α) :
    π.Lockstep ts Eq (Script.orRaise ts x : ScriptM σ α) (Script.orRaise ts x) := by
  cases x with
  | ok a => exact .pure rfl
  | error fault => exact .raise mine fault

end Lockstep
end Pairing
end ScriptBridge.Isolation
