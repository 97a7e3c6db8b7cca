import ScriptBridge.Proofs.Bookkeeping.Loss

/-!
# The books agree

In every state of every session an open context is linked, keeps one reference to its loader and is
counted as a live interpreter, and a closed one is none of this and is never opened again. The
registry says the same, unless every context was to be closed when some could not be entered: from
then on some context is open that is not registered.
-/

namespace ScriptBridge.Bookkeeping

open Host (Realm GlobalRef Callback BodyM)
open Bridge (World State ContextId Machine)
open Script (InterpreterId)
open Context (Operation Offered Procedures Asks machineRunning answering)

variable {w w' : World} {c c' : ContextId}

/-! ### What the books say -/

def Created (w : World) (c : ContextId) : Prop :=
  0 < c.number ∧ c.number ≤ w.outside.contexts.size

def IsOpen (w : World) (c : ContextId) : Prop := (w.outside.context c).closed = false

/-- The interpreter of the context is linked to it. -/
def Linked (w : World) (c : ContextId) : Prop :=
  w.outside.links.lookup (w.memory.interpreter (w.outside.context c).state).number = some c

/-- The context has the reference, and the Host still keeps it. -/
def Owns (w : World) (c : ContextId) (g : GlobalRef) : Prop :=
  (w.outside.context c).loaderRef = some g ∧ g ∈ w.outside.realm.globals

/-- What the books say in every state. -/
structure Accounted (w : World) : Prop where
  registered : ∀ c ∈ w.outside.registry, Created w c ∧ IsOpen w c
  linked : ∀ c, Created w c → (IsOpen w c ↔ Linked w c)
  owns : ∀ c, Created w c → (IsOpen w c ↔ ∃ g, Owns w c g)
  unshared : ∀ c c' g, Created w c → Created w c' → Owns w c g → Owns w c' g → c = c'
  live : (w.memory.runtime w.outside.runtime).live = UInt64.ofNat w.outside.links.length

/-- The registry says the same. -/
structure Agreed (w : World) : Prop extends Accounted w where
  listed : ∀ c, Created w c → (c ∈ w.outside.registry ↔ IsOpen w c)
  count : w.outside.registry.length = w.outside.links.length

theorem created_entry (created : Created w c) :
    (Bridge.tracked w).row? c = some ((w.outside.context c).state,
      (w.outside.context c).loaderRef, (w.outside.context c).closed) := by
  obtain ⟨positive, reach⟩ := created
  match c with
  | ⟨n + 1⟩ =>
    have here : n < w.outside.contexts.size := reach
    simp [Tracked.row?, Bridge.tracked, State.tracked, State.context, here]

theorem entry_created {ts : InterpreterId} {ref : Option GlobalRef} {closed : Bool}
    (found : (Bridge.tracked w).row? c = some (ts, ref, closed)) : Created w c := by
  match c with
  | ⟨0⟩ => cases found
  | ⟨n + 1⟩ =>
    obtain ⟨x, here, -⟩ := entry_context found
    exact ⟨Nat.succ_pos n, (Array.getElem?_eq_some_iff.1 here).1⟩

theorem open_tracked (created : Created w c) : (Bridge.tracked w).Open c ↔ IsOpen w c := by
  constructor
  · rintro ⟨ts, ref, found⟩
    simp only [created_entry created, Option.some.injEq, Prod.mk.injEq] at found
    exact found.2.2
  · intro opened
    exact ⟨_, _, (created_entry created).trans (by rw [opened])⟩

theorem open_created (opened : (Bridge.tracked w).Open c) : Created w c ∧ IsOpen w c := by
  obtain ⟨ts, ref, found⟩ := opened
  have created := entry_created found
  exact ⟨created, (open_tracked created).1 ⟨ts, ref, found⟩⟩

/-- Interpreters have numbers of their own, so each is linked to one context. -/
theorem linked_iff (h : Kept w) (created : Created w c) : IsOpen w c ↔ Linked w c := by
  have entry := created_entry created
  have number : (w.memory.interpreter (w.outside.context c).state).number =
      (Bridge.tracked w).number (w.outside.context c).state := (number_tracked _ _).symm
  rw [Linked, number]
  constructor
  · intro opened
    rw [opened] at entry
    have link := (h.sound.linked _ c).2 ⟨_, _, entry, rfl⟩
    cases found : w.outside.links.lookup ((Bridge.tracked w).number (w.outside.context c).state) with
    | none =>
      have absent := List.lookup_eq_none_iff.1 found _ link
      simp at absent
    | some c' =>
      obtain ⟨before, behind, split, -⟩ := List.lookup_eq_some_iff.1 found
      have link' : ((Bridge.tracked w).number (w.outside.context c).state, c') ∈
          (Bridge.tracked w).links := by
        show _ ∈ w.outside.links
        rw [split]
        exact List.mem_append_right _ List.mem_cons_self
      obtain ⟨ts', ref', entry', same⟩ := (h.sound.linked _ c').1 link'
      rw [h.sound.distinct entry entry' same]
  · intro linked
    obtain ⟨before, behind, split, -⟩ := List.lookup_eq_some_iff.1 linked
    have link : ((Bridge.tracked w).number (w.outside.context c).state, c) ∈
        (Bridge.tracked w).links := by
      show _ ∈ w.outside.links
      rw [split]
      exact List.mem_append_right _ List.mem_cons_self
    obtain ⟨ts', ref', entry', -⟩ := (h.sound.linked _ c).1 link
    exact (open_created ⟨ts', ref', entry'⟩).2

theorem owns_mem (created : Created w c) {g : GlobalRef}
    (ref : (w.outside.context c).loaderRef = some g) : g ∈ w.outside.loaderRefs := by
  have reach : c.number - 1 < w.outside.contexts.size := by
    obtain ⟨positive, bound⟩ := created
    omega
  refine List.mem_filterMap.2 ⟨w.outside.context c, ?_, ref⟩
  simp [State.context, reach]

theorem owns_iff (h : Kept w) (created : Created w c) : IsOpen w c ↔ ∃ g, Owns w c g := by
  have keeps := h.sound.keeps (created_entry created)
  constructor
  · intro opened
    rw [opened] at keeps
    obtain ⟨g, ref⟩ := Option.isSome_iff_exists.1 keeps
    exact ⟨g, ref, h.apart.kept g (owns_mem created ref)⟩
  · rintro ⟨g, ref, -⟩
    rw [ref] at keeps
    simpa [IsOpen] using keeps.symm

theorem unshared_of_kept (h : Kept w) (created : Created w c) (created' : Created w c')
    {g : GlobalRef} (owns : Owns w c g) (owns' : Owns w c' g) : c = c' := by
  have apart : w.outside.contexts.toList.Pairwise fun a b =>
      ∀ g, a.loaderRef = some g → ∀ g', b.loaderRef = some g' → g.number ≠ g'.number := by
    have distinct := h.apart.distinct
    rw [List.Nodup, List.pairwise_map, State.loaderRefs, List.pairwise_filterMap] at distinct
    exact distinct
  have never : ∀ {a b : ContextId}, Created w a → Created w b → Owns w a g → Owns w b g →
      ¬a.number < b.number := by
    intro a b madeA madeB ownsA ownsB before
    obtain ⟨positive, -⟩ := madeA
    obtain ⟨-, bound⟩ := madeB
    have reachB : b.number - 1 < w.outside.contexts.size := by omega
    have reachA : a.number - 1 < w.outside.contexts.size := by omega
    refine List.pairwise_iff_getElem.1 apart (a.number - 1) (b.number - 1) (by simpa using reachA)
      (by simpa using reachB) (by omega) g ?_ g ?_ rfl
    · simpa [State.context, reachA] using ownsA.1
    · simpa [State.context, reachB] using ownsB.1
  have same : c.number = c'.number := by
    have first := never created created' owns owns'
    have second := never created' created owns' owns
    omega
  cases c
  cases c'
  exact congrArg _ same

theorem accounted_of_kept (h : Kept w) : Accounted w where
  registered c hc := open_created (h.sound.registered c hc)
  linked _ created := linked_iff h created
  owns _ created := owns_iff h created
  unshared _ _ _ created created' := unshared_of_kept h created created'
  live := h.sound.live

/-- The registry says the same unless a context is lost. -/
theorem agreed_iff (h : Kept w) : Agreed w ↔ ¬Lost w := by
  constructor
  · rintro agreed ⟨c, opened, off⟩
    obtain ⟨created, isOpen⟩ := open_created opened
    exact off ((agreed.listed c created).2 isOpen)
  · intro found
    refine { accounted_of_kept h with
      listed := fun c created => ⟨fun hc => ?_, fun isOpen => ?_⟩
      count := ?_ }
    · exact (open_created (h.sound.registered c hc)).2
    · have opened := (open_tracked created).2 isOpen
      exact Classical.byContradiction fun off => found ⟨c, opened, off⟩
    · exact (h.sound.links_length found).symm

end ScriptBridge.Bookkeeping
