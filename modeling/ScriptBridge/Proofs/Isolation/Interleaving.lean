import ScriptBridge.Proofs.Isolation.Reachable

/-!
# Interleaved runs

Steps of one interpreter may be left out of a run: what the others get to see and all that they can
reach stay the same, but for the places of modules. The one hypothesis is that the modules that the
runtime shares keep their bindings.
-/

namespace ScriptBridge.Isolation

open Script (Value ModuleRef Interpreter InterpreterId RuntimeId Memory World)

variable {σ : Type} {rt : RuntimeId} {a b : InterpreterId} {calls : Nat}

/-! ### Runs -/

/-- A request and the interpreter that serves it. -/
structure Step where
  who : InterpreterId
  request : Request

def Step.perform (calls : Nat) (step : Step) (w : World σ) : Outcome × World σ :=
  step.request.perform calls step.who w

/-- Performs steps in order, and lists who got to see what. -/
def run (calls : Nat) : List Step → World σ → List (InterpreterId × Outcome) × World σ
  | [], w => ([], w)
  | step :: rest, w =>
    let served := step.perform calls w
    let later := run calls rest served.2
    ((step.who, served.1) :: later.1, later.2)

/-- What one interpreter got to see. -/
def seenBy (a : InterpreterId) (seen : List (InterpreterId × Outcome)) : List Outcome :=
  (seen.filter (·.1 == a)).map (·.2)

/-- The steps of all interpreters but one. -/
def without (b : InterpreterId) (steps : List Step) : List Step := steps.filter (·.who != b)

/-- No step changes what a module binds that the runtime shares. -/
def KeptAlong (rt : RuntimeId) (calls : Nat) : List Step → World σ → Prop
  | [], _ => True
  | step :: rest, w =>
    NativesKept rt w.memory (step.perform calls w).2.memory ∧
      KeptAlong rt calls rest (step.perform calls w).2

/-- Whether two values are the same number or the same function. -/
def sameConstant : Value → Value → Bool
  | .float x, .float y => x = y
  | .native f, .native g => f = g
  | _, _ => false

theorem eq_of_sameConstant {u v : Value} (same : sameConstant u v = true) : u = v := by
  cases u <;> cases v <;> simp_all [sameConstant]

def sameConstants : List (String × Value) → List (String × Value) → Bool
  | [], [] => true
  | (name, u) :: rest, (name', v) :: rest' =>
    name = name' && sameConstant u v && sameConstants rest rest'
  | _, _ => false

theorem eq_of_sameConstants : ∀ {entries entries' : List (String × Value)},
    sameConstants entries entries' = true → entries = entries'
  | [], [], _ => rfl
  | [], _ :: _, never | _ :: _, [], never => by cases never
  | (name, u) :: rest, (name', v) :: rest', same => by
    simp only [sameConstants, Bool.and_eq_true, decide_eq_true_eq] at same
    obtain ⟨⟨rfl, first⟩, onward⟩ := same
    rw [eq_of_sameConstant first, eq_of_sameConstants onward]

/-- Checks `KeptAlong` where the modules that are shared bind numbers and functions only. -/
def keptCheck (rt : RuntimeId) (calls : Nat) : List Step → World σ → Bool
  | [], _ => true
  | step :: rest, w =>
    (w.memory.runtime rt).extensions.values.all (fun c =>
      sameConstants ((step.perform calls w).2.memory.namespaceOf c).entries
        (w.memory.namespaceOf c).entries) &&
      keptCheck rt calls rest (step.perform calls w).2

theorem keptAlong_of_check : ∀ {steps : List Step} {w : World σ},
    keptCheck rt calls steps w = true → KeptAlong rt calls steps w
  | [], _, _ => trivial
  | step :: rest, w, checked => by
    simp only [keptCheck, Bool.and_eq_true, List.all_eq_true] at checked
    obtain ⟨first, onward⟩ := checked
    refine ⟨fun c mem => ?_, keptAlong_of_check onward⟩
    exact congrArg Table.mk (eq_of_sameConstants (first c mem))

/-- The modules that an interpreter can get at. -/
inductive Reaches (m : Memory) (ts : InterpreterId) : ModuleRef → Prop
  | main : Reaches m ts (m.interpreter ts).main
  | builtins : Reaches m ts (m.interpreter ts).builtins
  | table {c : ModuleRef} : c ∈ (m.interpreter ts).modules.values → Reaches m ts c
  | shared {c : ModuleRef} :
    c ∈ (m.runtime (m.interpreter ts).runtime).extensions.values → Reaches m ts c
  | bound {c d : ModuleRef} {v : Value} :
    Reaches m ts c → v ∈ (m.namespaceOf c).values → d ∈ v.refs → Reaches m ts d

/-- An interpreter cannot tell two runs apart. -/
structure SameFor (move : Nat → Nat) (a : InterpreterId) (seen seen' : List Outcome)
    (m m' : Memory) : Prop where
  outcomes : seen' = seen.map (·.rename move)
  record : m'.interpreter a = moved move (m.interpreter a)
  contents : ∀ c, Reaches m a c →
    m'.namespaceOf (c.rename move) = (m.namespaceOf c).map (·.rename move)
  /-- Modules that it reaches or was handed out are not mixed up. -/
  apart : ∀ c d, (Reaches m a c ∨ ∃ o ∈ seen, ∃ v, o.value = some v ∧ c ∈ v.refs) →
    (Reaches m a d ∨ ∃ o ∈ seen, ∃ v, o.value = some v ∧ d ∈ v.refs) →
      move c.place = move d.place → c = d

/-! ### Growing pairings -/

namespace Pairing

variable {π ρ π' π'' : Pairing} {m m' : Memory}

/-- A pairing that holds more and moves what was held as before. -/
structure Later (π π' : Pairing) : Prop where
  held : ∀ c, π.held c → π'.held c
  move : ∀ c, π.held c → π'.move c.place = π.move c.place

theorem Later.refl (π : Pairing) : π.Later π := ⟨fun _ => id, fun _ _ => rfl⟩

theorem Later.trans (first : π.Later π') (second : π'.Later π'') : π.Later π'' where
  held c hc := second.held c (first.held c hc)
  move c hc := (second.move c (first.held c hc)).trans (first.move c hc)

theorem Grown.later {n n' : Nat} (grown : Grown π n n' π')
    (placed : ∀ c, π.held c → c.place < n) : π.Later π' where
  held _ := grown.held
  move c hc := grown.move (Nat.ne_of_lt (placed c hc))

/-- Outcomes whose values are held are renamed alike later on. -/
theorem Later.outcome (later : π.Later π') {o o' : Outcome} (same : π.SameOutcome o o') :
    π'.SameOutcome o o' := by
  obtain ⟨rfl, holds⟩ := same
  have value : o.value.map (·.rename π.move) = o.value.map (·.rename π'.move) := by
    cases found : o.value with
    | none => rfl
    | some v =>
      exact congrArg some (Value.rename_congr v fun c hc => (later.move c (holds v found c hc)).symm)
  refine ⟨?_, fun v found c hc => later.held c (holds v found c hc)⟩
  simp only [Outcome.rename, value]

theorem Alike.reaches (h : π.Alike m m') (mine : π.compared a) {c : ModuleRef}
    (reached : Reaches m a c) : π.held c := by
  have rooted := h.rooted a mine
  induction reached with
  | main => exact rooted.main
  | builtins => exact rooted.builtins
  | table mem => exact rooted.modules _ mem
  | shared mem =>
    rw [rooted.runtime] at mem
    exact h.sharedHeld _ mem
  | bound _ mem refs ih => exact h.closed _ ih _ mem _ refs

end Pairing

/-! ### Leaving steps out -/

theorem performed_count {w : World σ} {π : Pairing} {m' : Memory} (h : π.Alike w.memory m')
    (mine : π.compared a) (calls : Nat) (request : Request) :
    (request.perform calls a w).2.memory.interpreters.size = w.memory.interpreters.size := by
  obtain ⟨-, -, -, -, beyond⟩ := Pairing.perform_pace h.self mine calls request
  exact beyond.count

namespace Pairing

variable {π ρ : Pairing}

theorem Apart.count {w : World σ} {m' : Memory} (h : Apart b π ρ w.memory m')
    (made : a.place < w.memory.interpreters.size) (calls : Nat) (request : Request) :
    (request.perform calls a w).2.memory.interpreters.size = w.memory.interpreters.size := by
  by_cases own : a = b
  · exact performed_count h.own ((h.owned a).2 ⟨made, own⟩) calls request
  · exact performed_count h.others ((h.compared a).2 ⟨made, own⟩) calls request

/-- What is seen differs in the places of modules only. -/
def SameSeen (π : Pairing) (seen seen' : List Outcome) : Prop :=
  seen' = seen.map (·.rename π.move) ∧ ∀ o ∈ seen, ∀ v, o.value = some v → π.Holds v

theorem SameSeen.cons {o o' : Outcome} {seen seen' : List Outcome} (first : π.SameOutcome o o')
    (rest : π.SameSeen seen seen') : π.SameSeen (o :: seen) (o' :: seen') := by
  obtain ⟨rfl, holds⟩ := first
  obtain ⟨rfl, onward⟩ := rest
  refine ⟨rfl, fun p mem => ?_⟩
  rcases List.mem_cons.1 mem with rfl | mem
  · exact holds
  · exact onward p mem

/-- Both runs stay apart from the steps that are left out, and what is seen is the same. -/
theorem Apart.interleaved (other : a ≠ b) (steps : List Step) {w w' : World σ}
    (h : Apart b π ρ w.memory w'.memory)
    (made : ∀ step ∈ steps, step.who.place < w.memory.interpreters.size)
    (kept : KeptAlong π.runtime calls steps w) : ∃ π' ρ',
      Apart b π' ρ' (run calls steps w).2.memory (run calls (without b steps) w').2.memory ∧
      π.Later π' ∧ (run calls steps w).2.memory.interpreters.size = w.memory.interpreters.size ∧
      π'.SameSeen (seenBy a (run calls steps w).1)
        (seenBy a (run calls (without b steps) w').1) := by
  induction steps generalizing π ρ w w' with
  | nil => exact ⟨π, ρ, h, .refl π, rfl, rfl, nofun⟩
  | cons step rest ih =>
    obtain ⟨kept, onward⟩ := kept
    have here := made step List.mem_cons_self
    have count := h.count here calls step.request
    have there : ∀ s ∈ rest, s.who.place < (step.perform calls w).2.memory.interpreters.size := by
      intro s mem
      rw [Step.perform, count]
      exact made s (List.mem_cons_of_mem _ mem)
    by_cases own : step.who = b
    · -- the step is made in the first run only
      subst own
      obtain ⟨ρ', after⟩ := h.left here kept
      obtain ⟨π'', ρ'', apart, later, size, same⟩ := ih after there onward
      have dropped : without step.who (step :: rest) = without step.who rest := by simp [without]
      have unseen : seenBy a (run calls (step :: rest) w).1 =
          seenBy a (run calls rest (step.perform calls w).2).1 := by
        simp [seenBy, run, Ne.symm other]
      rw [dropped, unseen]
      exact ⟨π'', ρ'', apart, later, size.trans count, same⟩
    · obtain ⟨π', grown, seen, after⟩ := h.served here own kept
      rw [← grown.runtime] at onward
      obtain ⟨π'', ρ'', apart, later, size, same⟩ := ih after there onward
      have added : without b (step :: rest) = step :: without b rest := by simp [without, own]
      rw [added]
      refine ⟨π'', ρ'', apart, (grown.later h.others.placed).trans later, size.trans count, ?_⟩
      by_cases mine : step.who = a
      · simp only [run, seenBy, mine, List.filter_cons, beq_self_eq_true, if_true, List.map_cons]
        exact .cons (later.outcome seen) same
      · simpa only [run, Step.perform, seenBy, List.filter_cons, beq_iff_eq, mine, if_false]
          using same

/-- Ending an interpreter leaves alone what the others hold. -/
theorem Apart.ending {w : World σ} {m' : Memory} (h : Apart b π ρ w.memory m')
    (made : b.place < w.memory.interpreters.size) {c : ModuleRef} (hc : π.held c) :
    (Request.finish.perform calls b w).2.memory.namespaceOf c = w.memory.namespaceOf c := by
  have rooted := h.own.rooted b ((h.owned b).2 ⟨made, rfl⟩)
  -- what it shares a place with is a module of the runtime, and those are native
  have native : ∀ d, ρ.held d → d.place = c.place → d.origin = .native := by
    intro d hd same
    have common := h.overlap c d hc hd same.symm
    have equal : c = d := h.own.apart c d (h.own.sharedHeld c (by rwa [h.runtime])) hd (by rw [same])
    rw [← equal]
    exact h.native c common
  let quiet : World σ := w.onMemory fun m => { m with output := "" }
  obtain ⟨u, hu, spared⟩ := endInterpreter_spared (ε := Empty) b quiet (p := c.place)
    (fun same => by
      have origin := native _ rooted.main same
      rw [rooted.mainOrigin] at origin
      cases origin)
    (fun same => by
      have origin := native _ rooted.builtins same
      rw [rooted.builtinsOrigin] at origin
      cases origin)
    fun d mem foreign same => foreign (native d (rooted.modules d mem) same)
  have served : (Request.finish.perform calls b w).2 =
      u.onMemory fun m => { m with output := w.memory.output ++ m.output } := by
    have answered : Request.finish.serve calls b quiet = .ok (none, none) u := by
      simp only [Request.serve, Bind.bind, EStateM.bind, hu]
      rfl
    simp only [Request.perform]
    rw [show Request.finish.serve calls b (w.onMemory fun m => { m with output := "" }) =
      .ok (none, none) u from answered]
  rw [served]
  simp only [Memory.namespaceOf]
  show u.memory.namespaces[c.place]?.getD {} = w.memory.namespaces[c.place]?.getD {}
  rw [spared]
  rfl

end Pairing

/-- Leaving out the steps of an interpreter changes nothing for another one, and ending it changes
no module that another one can get at. -/
theorem run_without {w : World σ} (reached : Reachable rt w) (other : a ≠ b)
    (here : a.place < w.memory.interpreters.size) (there : b.place < w.memory.interpreters.size)
    (steps : List Step) (made : ∀ step ∈ steps, step.who.place < w.memory.interpreters.size)
    (kept : KeptAlong rt calls steps w) :
    (∃ move, SameFor move a (seenBy a (run calls steps w).1)
      (seenBy a (run calls (without b steps) w).1) (run calls steps w).2.memory
      (run calls (without b steps) w).2.memory) ∧
    ∀ c, Reaches (run calls steps w).2.memory a c →
      (Request.finish.perform calls b (run calls steps w).2).2.memory.namespaceOf c =
        (run calls steps w).2.memory.namespaceOf c := by
  obtain ⟨π, ρ, runtime, -, separate⟩ := reachable_separated reached b
  rw [← runtime] at kept
  obtain ⟨π', ρ', apart, -, size, same, holds⟩ := separate.interleaved other steps made kept
  have mine : π'.compared a := (apart.compared a).2 ⟨by rwa [size], other⟩
  have held : ∀ c, Reaches (run calls steps w).2.memory a c → π'.held c :=
    fun c => apart.others.reaches mine
  have known : ∀ c, (Reaches (run calls steps w).2.memory a c ∨
      ∃ o ∈ seenBy a (run calls steps w).1, ∃ v, o.value = some v ∧ c ∈ v.refs) → π'.held c := by
    rintro c (reached | ⟨o, mem, v, value, refs⟩)
    · exact held c reached
    · exact holds o mem v value c refs
  constructor
  · refine ⟨π'.move, same, apart.others.records a mine, fun c hc => ?_, fun c d hc hd => ?_⟩
    · exact apart.others.contents c (held c hc)
    · exact apart.others.apart c d (known c hc) (known d hd)
  · intro c hc
    exact apart.ending (by rwa [size]) (held c hc)

/-! ### Two interpreters of one runtime -/

/-- The world that a step ends in that cannot fail. -/
def ended {α : Type} (step : EStateM Empty (World σ) α) (w : World σ) : World σ :=
  match step w with
  | .ok _ v => v

theorem ended_eq {α : Type} (step : EStateM Empty (World σ) α) (w : World σ) :
    ∃ a, step w = .ok a (ended step w) := by
  rw [ended]
  cases step w with
  | ok a v => exact ⟨a, rfl⟩
  | error never => cases never

def unpaired : World Unit := ended Script.newRuntime ⟨{}, ()⟩

def paired : World Unit :=
  ended (Script.newInterpreter ⟨0⟩) (ended (Script.newInterpreter ⟨0⟩) unpaired)

theorem paired_reachable : Reachable ⟨0⟩ paired := by
  have started : (Script.newRuntime : EStateM Empty (World Unit) RuntimeId) ⟨{}, ()⟩ =
      .ok ⟨0⟩ unpaired := rfl
  obtain ⟨_, first⟩ := ended_eq (Script.newInterpreter ⟨0⟩) unpaired
  obtain ⟨_, second⟩ := ended_eq (Script.newInterpreter ⟨0⟩)
    (ended (Script.newInterpreter ⟨0⟩) unpaired)
  exact .make (.make (.start started) first) second

/-- Both interpreters make a module and import the one that they share; the second one ends. -/
def meetings : List Step :=
  [⟨⟨1⟩, .exec .file "import math\nf = lambda n: n" "second" (some "extra")⟩,
   ⟨⟨0⟩, .exec .file "import math\nf = lambda n: n + 1" "first" (some "own")⟩,
   ⟨⟨1⟩, .finish⟩,
   ⟨⟨0⟩, .exec .eval "f(1)" "first" (some "own")⟩]

theorem run_without_second :
    (run 3 meetings paired).2.memory.namespaces.size = 7 ∧
    (run 3 (without ⟨1⟩ meetings) paired).2.memory.namespaces.size = 6 ∧
    ∃ move, SameFor move ⟨0⟩ (seenBy ⟨0⟩ (run 3 meetings paired).1)
      (seenBy ⟨0⟩ (run 3 (without ⟨1⟩ meetings) paired).1) (run 3 meetings paired).2.memory
      (run 3 (without ⟨1⟩ meetings) paired).2.memory := by
  have kept : KeptAlong ⟨0⟩ 3 meetings paired := keptAlong_of_check (by decide +kernel)
  have made : ∀ step ∈ meetings, step.who.place < paired.memory.interpreters.size := by
    decide +kernel
  have same := run_without paired_reachable (a := ⟨0⟩) (b := ⟨1⟩) (by decide) (by decide +kernel)
    (by decide +kernel) meetings made kept
  exact ⟨by decide +kernel, by decide +kernel, same.1⟩

end ScriptBridge.Isolation
