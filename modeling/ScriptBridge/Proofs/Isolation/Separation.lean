import ScriptBridge.Proofs.Isolation.Requests

/-!
# Interpreters reach apart

An interpreter and the others of its runtime hold modules of their own and have only those in common
that the runtime shares. As long as the shared ones are left as they are, whatever one side is asked
for leaves the other side alone.
-/

namespace ScriptBridge.Isolation

open Script (Value ModuleRef Interpreter InterpreterId RuntimeId Memory World)

variable {σ ε : Type} {m m' v : Memory} {b ts : InterpreterId}

/-- The modules that the runtime shares bind what they bound before. -/
def NativesKept (rt : RuntimeId) (m v : Memory) : Prop :=
  ∀ a ∈ (m.runtime rt).extensions.values, v.namespaceOf a = m.namespaceOf a

namespace Pairing

variable {π ρ π' ρ' : Pairing}

/-- What the pairing holds was left alone. -/
structure Spares (π : Pairing) (m v : Memory) : Prop where
  size : m.namespaces.size ≤ v.namespaces.size
  namespaces : ∀ a, π.held a → v.namespaceOf a = m.namespaceOf a
  count : m.interpreters.size ≤ v.interpreters.size
  interpreters : ∀ ts, π.compared ts → v.interpreter ts = m.interpreter ts
  shared : (v.runtime π.runtime).extensions = (m.runtime π.runtime).extensions

theorem Alike.spared (h : π.Alike m m') (spares : π.Spares m v) : π.Alike v m' where
  apart := h.apart
  placed a ha := Nat.lt_of_lt_of_le (h.placed a ha) spares.size
  placed' := h.placed'
  contents a ha := by rw [spares.namespaces a ha, h.contents a ha]
  closed a ha := by
    rw [spares.namespaces a ha]
    exact h.closed a ha
  made ts mine := Nat.lt_of_lt_of_le (h.made ts mine) spares.count
  made' := h.made'
  records ts mine := by rw [spares.interpreters ts mine, h.records ts mine]
  rooted ts mine := by
    rw [spares.interpreters ts mine]
    exact h.rooted ts mine
  shared := by rw [spares.shared, h.shared]
  sharedHeld := by
    rw [spares.shared]
    exact h.sharedHeld

theorem moved_id (i : Interpreter) : moved id i = i := by
  have modules : i.modules.map (·.rename id) = i.modules := Table.map_self _ fun _ _ => rfl
  rw [moved, modules]
  rfl

/-- What is held in one of two memories that are alike is closed there. -/
theorem Alike.self (h : π.Alike m m') : Alike { π with move := id } m m where
  apart a c ha hc same := h.apart a c ha hc (congrArg π.move same)
  placed := h.placed
  placed' := h.placed
  contents _ _ := (Table.map_self _ fun u _ => Value.rename_id u).symm
  closed := h.closed
  made := h.made
  made' := h.made
  records _ _ := (moved_id _).symm
  rooted ts mine := { h.rooted ts mine with }
  shared := (Table.map_self _ fun _ _ => rfl).symm
  sharedHeld := h.sharedHeld

/-- One interpreter, held by the second pairing, and the others, held by the first. -/
structure Apart (b : InterpreterId) (π ρ : Pairing) (m m' : Memory) : Prop where
  others : π.Alike m m'
  own : ρ.Alike m m
  still : ρ.move = id
  runtime : ρ.runtime = π.runtime
  compared : ∀ ts, π.compared ts ↔ ts.place < m.interpreters.size ∧ ts ≠ b
  owned : ∀ ts, ρ.compared ts ↔ ts.place < m.interpreters.size ∧ ts = b
  overlap : ∀ a c, π.held a → ρ.held c → a.place = c.place →
    a ∈ (m.runtime π.runtime).extensions.values
  native : ∀ a ∈ (m.runtime π.runtime).extensions.values, a.origin = .native

theorem Beyond.spares (beyond : ρ.Beyond ts m v) (placed : ∀ a, π.held a → a.place < m.namespaces.size)
    (other : ∀ ts', π.compared ts' → ts' ≠ ts)
    (overlap : ∀ a c, π.held a → ρ.held c → a.place = c.place →
      a ∈ (m.runtime π.runtime).extensions.values)
    (kept : NativesKept π.runtime m v) : π.Spares m v where
  size := beyond.size
  namespaces a ha := by
    by_cases common : ∃ c, ρ.held c ∧ c.place = a.place
    · obtain ⟨c, hc, same⟩ := common
      exact kept a (overlap a c ha hc same.symm)
    · have untouched := beyond.namespaces a.place (placed a ha) fun c hc same => common ⟨c, hc, same⟩
      rw [Memory.namespaceOf, Memory.namespaceOf, untouched]
  count := Nat.le_of_eq beyond.count.symm
  interpreters ts' mine := beyond.interpreters ts' (other ts' mine)
  shared := beyond.shared π.runtime

variable {w w' : World σ} {calls : Nat} {request : Request}

/-- Another interpreter serves a request in both memories. -/
theorem Apart.served (h : Apart b π ρ w.memory w'.memory) (made : ts.place < w.memory.interpreters.size)
    (other : ts ≠ b)
    (kept : NativesKept π.runtime w.memory (request.perform calls ts w).2.memory) :
    ∃ π', Grown π w.memory.namespaces.size w'.memory.namespaces.size π' ∧
      π'.SameOutcome (request.perform calls ts w).1 (request.perform calls ts w').1 ∧
      Apart b π' ρ (request.perform calls ts w).2.memory (request.perform calls ts w').2.memory := by
  obtain ⟨π', grown, same, alike, beyond⟩ :=
    perform_pace h.others ((h.compared ts).2 ⟨made, other⟩) calls request
  refine ⟨π', grown, same, alike, ?_, h.still, ?_, fun ts' => ?_, fun ts' => ?_, ?_, ?_⟩
  · have spares : ρ.Spares w.memory (request.perform calls ts w).2.memory := by
      refine beyond.spares h.own.placed (fun ts' mine same => ?_) (fun a c ha hc same => ?_) ?_
      · exact other (same.symm.trans ((h.owned ts').1 mine).2)
      · have common := h.overlap c a hc ha same.symm
        have equal : a = c := by
          refine h.own.apart a c ha (h.own.sharedHeld c (by rwa [h.runtime])) ?_
          rw [same]
        rw [h.runtime, equal]
        exact common
      · rw [h.runtime]
        exact kept
    have self := (h.own.spared spares).self
    rwa [← h.still] at self
  · rw [h.runtime, grown.runtime]
  · rw [grown.compared, h.compared, beyond.count]
  · rw [h.owned, beyond.count]
  · intro a c ha hc same
    rw [grown.runtime, beyond.shared]
    rcases grown.fresh ha with ha | new
    · exact h.overlap a c ha hc same
    · exact absurd (same.symm.trans new) (Nat.ne_of_lt (h.own.placed c hc))
  · rw [grown.runtime, beyond.shared]
    exact h.native

/-- The interpreter itself serves a request, in one memory only. -/
theorem Apart.left (h : Apart b π ρ w.memory m') (made : b.place < w.memory.interpreters.size)
    (kept : NativesKept π.runtime w.memory (request.perform calls b w).2.memory) :
    ∃ ρ', Apart b π ρ' (request.perform calls b w).2.memory m' := by
  obtain ⟨ρ', grown, -, alike, beyond⟩ :=
    perform_pace h.own ((h.owned b).2 ⟨made, rfl⟩) calls request
  have spares : π.Spares w.memory (request.perform calls b w).2.memory :=
    beyond.spares h.others.placed (fun ts' mine => ((h.compared ts').1 mine).2) h.overlap kept
  refine ⟨ρ', h.others.spared spares, alike, grown.move_id h.still, ?_, fun ts' => ?_,
    fun ts' => ?_, ?_, ?_⟩
  · rw [grown.runtime, h.runtime]
  · rw [h.compared, beyond.count]
  · rw [grown.compared, h.owned, beyond.count]
  · intro a c ha hc same
    rw [beyond.shared]
    rcases grown.fresh hc with hc | new
    · exact h.overlap a c ha hc same
    · exact absurd (same.trans new) (Nat.ne_of_lt (h.others.placed a ha))
  · rw [beyond.shared]
    exact h.native

end Pairing

end ScriptBridge.Isolation
