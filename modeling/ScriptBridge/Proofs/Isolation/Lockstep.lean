import ScriptBridge.Proofs.Isolation.Renaming

/-!
# Two memories side by side

Some interpreters of one memory are found again in another one, where their modules are elsewhere.
What they may reach is closed: modules that are held bind held values only. Two steps keep pace if
from memories that are alike they come to alike results and alike memories, print the same, and
leave alone whatever is not held.
-/

namespace ScriptBridge.Isolation

open Script (Value ModuleRef Interpreter InterpreterId RuntimeId Memory World ScriptM Exception
  Fault Raised)

variable {σ ε ε' α β : Type}

/-- The record of an interpreter whose modules were moved. -/
def moved (move : Nat → Nat) (i : Interpreter) : Interpreter :=
  { i with
    modules := i.modules.map (·.rename move)
    builtins := i.builtins.rename move
    main := i.main.rename move }

/-- How interpreters of a runtime are found in another memory. -/
structure Pairing where
  runtime : RuntimeId
  compared : InterpreterId → Prop
  /-- The modules that the interpreters may reach. -/
  held : ModuleRef → Prop
  move : Nat → Nat

namespace Pairing

variable {π : Pairing}

def Holds (π : Pairing) (v : Value) : Prop := ∀ m ∈ v.refs, π.held m

/-- A value and what it is in the other memory. -/
def Same (π : Pairing) (v v' : Value) : Prop := v' = v.rename π.move ∧ π.Holds v

/-- The modules that an interpreter starts from are held. -/
structure Rooted (π : Pairing) (i : Interpreter) : Prop where
  runtime : i.runtime = π.runtime
  main : π.held i.main
  builtins : π.held i.builtins
  modules : ∀ m ∈ i.modules.values, π.held m
  mainOrigin : i.main.origin = .main
  builtinsOrigin : i.builtins.origin = .builtins

structure Alike (π : Pairing) (m m' : Memory) : Prop where
  apart : ∀ a b, π.held a → π.held b → π.move a.place = π.move b.place → a = b
  placed : ∀ a, π.held a → a.place < m.namespaces.size
  placed' : ∀ a, π.held a → π.move a.place < m'.namespaces.size
  contents : ∀ a, π.held a →
    m'.namespaceOf (a.rename π.move) = (m.namespaceOf a).map (·.rename π.move)
  closed : ∀ a, π.held a → ∀ v ∈ (m.namespaceOf a).values, π.Holds v
  made : ∀ ts, π.compared ts → ts.place < m.interpreters.size
  made' : ∀ ts, π.compared ts → ts.place < m'.interpreters.size
  records : ∀ ts, π.compared ts → m'.interpreter ts = moved π.move (m.interpreter ts)
  rooted : ∀ ts, π.compared ts → π.Rooted (m.interpreter ts)
  shared : (m'.runtime π.runtime).extensions =
    (m.runtime π.runtime).extensions.map (·.rename π.move)
  sharedHeld : ∀ a ∈ (m.runtime π.runtime).extensions.values, π.held a

/-- What a step of an interpreter leaves alone. -/
structure Beyond (π : Pairing) (ts : InterpreterId) (m v : Memory) : Prop where
  size : m.namespaces.size ≤ v.namespaces.size
  namespaces : ∀ p < m.namespaces.size, (∀ a, π.held a → a.place ≠ p) →
    v.namespaces[p]? = m.namespaces[p]?
  count : v.interpreters.size = m.interpreters.size
  interpreters : ∀ ts', ts' ≠ ts → v.interpreter ts' = m.interpreter ts'
  shared : ∀ rt, (v.runtime rt).extensions = (m.runtime rt).extensions

theorem Beyond.refl (ts : InterpreterId) (m : Memory) : π.Beyond ts m m :=
  ⟨Nat.le_refl _, fun _ _ _ => rfl, rfl, fun _ _ => rfl, fun _ => rfl⟩

theorem Beyond.trans {ts : InterpreterId} {m v u : Memory} (first : π.Beyond ts m v)
    (second : π.Beyond ts v u) : π.Beyond ts m u where
  size := Nat.le_trans first.size second.size
  namespaces p old other := (second.namespaces p (Nat.lt_of_lt_of_le old first.size) other).trans
    (first.namespaces p old other)
  count := second.count.trans first.count
  interpreters ts' other := (second.interpreters ts' other).trans (first.interpreters ts' other)
  shared rt := (second.shared rt).trans (first.shared rt)

/-- Alike memories that have printed the same. -/
structure Abreast (π : Pairing) (w w' : World σ) : Prop where
  alike : π.Alike w.memory w'.memory
  output : w'.memory.output = w.memory.output

/-- Two results that were reached side by side. -/
def Ends (π : Pairing) (ts : InterpreterId) (R : α → α → Prop) (w : World σ) :
    EStateM.Result ε (World σ) α → EStateM.Result ε (World σ) α → Prop
  | .ok a v, .ok a' v' => R a a' ∧ π.Abreast v v' ∧ π.Beyond ts w.memory v.memory
  | .error _ v, .error _ v' => π.Abreast v v' ∧ π.Beyond ts w.memory v.memory
  | _, _ => False

/-- Two steps of an interpreter keep pace. -/
def Lockstep (π : Pairing) (ts : InterpreterId) (R : α → α → Prop)
    (step step' : EStateM ε (World σ) α) : Prop :=
  ∀ w w', π.Abreast w w' → π.Ends ts R w (step w) (step' w')

variable {ts : InterpreterId} {R : α → α → Prop} {Q : β → β → Prop}

/-! ### Rules -/

theorem Ends.later {w v : World σ} {r r' : EStateM.Result ε (World σ) α}
    (first : π.Beyond ts w.memory v.memory) (ends : π.Ends ts R v r r') : π.Ends ts R w r r' := by
  match r, r' with
  | .ok a u, .ok a' u' => exact ⟨ends.1, ends.2.1, first.trans ends.2.2⟩
  | .error e u, .error e' u' => exact ⟨ends.1, first.trans ends.2⟩
  | .ok _ _, .error _ _ | .error _ _, .ok _ _ => exact ends.elim

namespace Lockstep

theorem pure {a a' : α} (same : R a a') :
    π.Lockstep ts R (pure a : EStateM ε (World σ) α) (Pure.pure a') := by
  intro w w' abreast
  exact ⟨same, abreast, .refl ts w.memory⟩

theorem throw (raised raised' : ε) :
    π.Lockstep ts R (throw raised : EStateM ε (World σ) α) (MonadExcept.throw raised') := by
  intro w w' abreast
  exact ⟨abreast, .refl ts w.memory⟩

theorem bind {step step' : EStateM ε (World σ) α}
    {next next' : α → EStateM ε (World σ) β}
    (first : π.Lockstep ts R step step')
    (second : ∀ a a', R a a' → π.Lockstep ts Q (next a) (next' a')) :
    π.Lockstep ts Q (step >>= next) (step' >>= next') := by
  intro w w' abreast
  have ends := first w w' abreast
  simp only [Bind.bind, EStateM.bind]
  match step w, step' w', ends with
  | .ok a v, .ok a' v', ⟨same, abreast', beyond⟩ =>
    exact (second a a' same v v' abreast').later beyond
  | .error e v, .error e' v', ends => exact ends

/-- The first step has the same result on both sides. -/
theorem bindEq {step step' : EStateM ε (World σ) α}
    {next next' : α → EStateM ε (World σ) β}
    (first : π.Lockstep ts Eq step step') (second : ∀ a, π.Lockstep ts Q (next a) (next' a)) :
    π.Lockstep ts Q (step >>= next) (step' >>= next') :=
  first.bind fun a _ same => same ▸ second a

/-- The first step has a value. -/
theorem bindSame {step step' : EStateM ε (World σ) Value}
    {next next' : Value → EStateM ε (World σ) β}
    (first : π.Lockstep ts π.Same step step')
    (second : ∀ v, π.Holds v → π.Lockstep ts Q (next v) (next' (v.rename π.move))) :
    π.Lockstep ts Q (step >>= next) (step' >>= next') :=
  first.bind fun v _ same => same.1 ▸ second v same.2

theorem attempt {step step' : EStateM ε (World σ) α} (h : π.Lockstep ts R step step') :
    π.Lockstep ts (fun a a' => match a, a' with
      | .ok a, .ok a' => R a a'
      | .error _, .error _ => True
      | _, _ => False)
      (Script.attempt step : EStateM ε' (World σ) (Except ε α)) (Script.attempt step') := by
  intro w w' abreast
  have ends := h w w' abreast
  simp only [Script.attempt]
  match step w, step' w', ends with
  | .ok a v, .ok a' v', ends => exact ends
  | .error e v, .error e' v', ends => exact ⟨trivial, ends⟩

/-- Reading memory. -/
theorem read {look look' : Memory → α}
    (same : ∀ m m', π.Alike m m' → R (look m) (look' m')) :
    π.Lockstep ts R (do return look (← Script.getMemory) : EStateM ε (World σ) α)
      (do return look' (← Script.getMemory)) := by
  intro w w' abreast
  exact ⟨same _ _ abreast.alike, abreast, .refl ts w.memory⟩

/-- Changing memory without printing. -/
theorem write {change change' : Memory → Memory}
    (alike : ∀ m m', π.Alike m m' → π.Alike (change m) (change' m') ∧ π.Beyond ts m (change m))
    (quiet : ∀ m, (change m).output = m.output) (quiet' : ∀ m, (change' m).output = m.output) :
    π.Lockstep ts Eq (Script.modifyMemory change : EStateM ε (World σ) Unit)
      (Script.modifyMemory change') := by
  intro w w' abreast
  obtain ⟨alike, beyond⟩ := alike _ _ abreast.alike
  refine ⟨rfl, ⟨alike, ?_⟩, beyond⟩
  show (change' w'.memory).output = (change w.memory).output
  rw [quiet', quiet, abreast.output]

end Lockstep
end Pairing
end ScriptBridge.Isolation
