import Mathlib.Logic.Function.Basic
import ScriptBridge.Proofs.Pins.Effects

/-!
# Several pins of one array

Each view of an array works on a copy of its own from its first access until it gives the copy
back. A lease says what the elements were when a copy was taken and which of them were assigned
through it since; a history is any interleaving of accesses through several views, changes that the
Host makes, and releases. A release stores the whole copy, so it changes nothing but what was
assigned exactly if all other elements still are what they were when the copy was taken. If every
release is of that kind, no write is lost.
-/

namespace ScriptBridge.Bridge

open Host (ClassId ObjectId Bodies)
open Script (InterpreterId)

/-- A copy that was taken: of which elements, and where it was written since. -/
structure Lease where
  base : List Host.Value
  assigned : List Nat := []

/-- The leases of an array by the places of its views. -/
abbrev Ledger := Nat → Option Lease

/-- Who writes elements. -/
inductive Party where
  | host
  | view (place : Nat)
deriving DecidableEq

/-- An element that was written. -/
structure Write where
  party : Party
  index : Nat
  value : Host.Value

/-- The value last written at an index; the last write stands first. -/
def lastWritten (log : List Write) (i : Nat) : Option Host.Value :=
  (log.find? (·.index == i)).map (·.value)

/-- Only the party wrote the element. -/
def WrittenOnlyBy (log : List Write) (party : Party) (i : Nat) : Prop :=
  ∀ write ∈ log, write.index = i → write.party = party

/-- A view gives its pin back and stores what was written: when it is asked to, or when it is
dropped. -/
inductive Releases (place : Nat) (w v : World) : Prop
  | commit {bodies : Bodies World} {ts : InterpreterId} :
    releasePin bodies ts place true w = .ok () v → Releases place w v
  | drop : (retire place : BridgeM Unit) w = .ok () v → Releases place w v

/-- What was not assigned under the lease still is what it was when the copy was taken, or nothing
was assigned. -/
def Lease.Untouched (lease : Lease) (stored : List Host.Value) : Prop :=
  lease.assigned = [] ∨ ∀ i, i ∉ lease.assigned → lease.base[i]? = stored[i]?

/-- What may happen to an array with the elements `first`, of which nobody has a copy, if copies are
given back when they may be. -/
inductive History (may : Lease → List Host.Value → Prop) (o : ObjectId) (first : List Host.Value) :
    Ledger → List Write → World → Prop
  | start {w : World} : w.elements? o = some first → (∀ place, w.pinAt o place = none) →
    History may o first (fun _ => none) [] w
  /-- The first access through a view, be it a read, takes a copy. -/
  | take {ledger : Ledger} {log : List Write} {w v : World} {place : Nat} {pin : Pin}
    {stored : List Host.Value} {bodies : Bodies World} {ts : InterpreterId} :
    History may o first ledger log w → w.Views o place → w.pinAt o place = none →
    w.elements? o = some stored → pinned bodies ts place w = .ok pin v →
    History may o first (Function.update ledger place (some { base := stored })) log v
  /-- A write changes the copy. -/
  | assign {ledger : Ledger} {log : List Write} {w v : World} {place : Nat} {pin : Pin}
    {lease : Lease} {i : Nat} {value : Host.Value} : History may o first ledger log w →
    w.pinAt o place = some pin → ledger place = some lease → i < pin.items.length →
    (setPin place (some { items := pin.items.set i value, changed := true }) : BridgeM Unit) w =
      .ok () v →
    History may o first
      (Function.update ledger place (some { lease with assigned := i :: lease.assigned }))
      (⟨.view place, i, value⟩ :: log) v
  | release {ledger : Ledger} {log : List Write} {w v : World} {place : Nat} {lease : Lease}
    {stored : List Host.Value} : History may o first ledger log w →
    ledger place = some lease → w.elements? o = some stored → may lease stored →
    Releases place w v → History may o first (Function.update ledger place none) log v
  /-- A method of the Host writes an element. -/
  | host {ledger : Ledger} {log : List Write} {w v : World} {stored : List Host.Value} {i : Nat}
    {value : Host.Value} : History may o first ledger log w →
    w.elements? o = some stored → i < stored.length →
    v.elements? o = some (stored.set i value) → v.pinAt o = w.pinAt o →
    History may o first ledger (⟨.host, i, value⟩ :: log) v
  /-- Whatever else happens, to neither the array nor its pins. -/
  | aside {ledger : Ledger} {log : List Write} {w v : World} : History may o first ledger log w →
    v.elements? o = w.elements? o → v.pinAt o = w.pinAt o → History may o first ledger log v

variable {o : ObjectId} {first stored : List Host.Value} {ledger : Ledger} {log : List Write}
  {w v : World} {place : Nat} {lease : Lease} {pin : Pin} {may : Lease → List Host.Value → Prop}

/-! ### What the steps do to elements and pins -/

theorem take_run {bodies : Bodies World} {ts : InterpreterId} (here : w.Views o place)
    (unpinned : w.pinAt o place = none) (known : w.elements? o = some stored)
    (taken : pinned bodies ts place w = .ok pin v) :
    v = w.repinned place (some { items := stored }) := by
  obtain ⟨component, old, view⟩ := here
  cases old with
  | some old =>
    rw [pinAt_of_view view] at unpinned
    cases unpinned
  | none =>
    rw [pinned_first view known] at taken
    cases taken
    rfl

theorem views_of_pinAt (here : w.pinAt o place = some pin) : w.Views o place := by
  obtain ⟨component, view⟩ := view_of_pinAt here
  exact ⟨component, some pin, view⟩

/-- The copy is stored if it was written, and no other pin changes. -/
theorem Releases.effect (released : Releases place w v) (here : w.pinAt o place = some pin)
    (known : w.elements? o = some stored) (length : stored.length = pin.items.length) :
    v.elements? o = some (if pin.changed then pin.items else stored) ∧
      ∀ other, v.pinAt o other = if place = other then none else w.pinAt o other := by
  obtain ⟨component, view⟩ := view_of_pinAt here
  have views : w.Views o place := ⟨component, some pin, view⟩
  have elements := elements?_committed known place pin
  have pins := pinAt_committed views pin
  cases released with
  | commit released =>
    rw [releasePin_run view known fun _ => length] at released
    cases released
    exact ⟨elements, pins⟩
  | drop dropped =>
    obtain ⟨u, run, same, shown⟩ := retire_run (ε := Script.Raised) view known fun _ => length
    rw [run] at dropped
    cases dropped
    refine ⟨same.trans elements, fun other => ?_⟩
    rw [← pins other]
    simp only [World.pinAt, shown]

/-- A copy of the right length can be given back. -/
theorem releases_committed (here : w.pinAt o place = some pin) (known : w.elements? o = some stored)
    (length : stored.length = pin.items.length) : Releases place w (w.committed o place pin) := by
  have idle : Bodies World := ⟨fun _ _ _ => throw .pending, fun _ _ _ => throw .pending⟩
  obtain ⟨component, view⟩ := view_of_pinAt here
  have released : releasePin idle ⟨0⟩ place true w = .ok () _ :=
    releasePin_run view known fun _ => length
  exact .commit released

/-! ### Leases and pins -/

/-- The pin is the copy that was leased, with what was assigned. -/
structure Lease.Explains (lease : Lease) (length : Nat) (pin : Pin) : Prop where
  base : lease.base.length = length
  items : pin.items.length = length
  changed : pin.changed = true ↔ lease.assigned ≠ []
  others : ∀ i, i ∉ lease.assigned → pin.items[i]? = lease.base[i]?

/-- The ledger says what the pins are, and the array has kept its length. -/
structure Tracked (o : ObjectId) (length : Nat) (ledger : Ledger) (w : World) : Prop where
  elements : ∃ stored, w.elements? o = some stored ∧ stored.length = length
  leased : ∀ place lease, ledger place = some lease →
    ∃ pin, w.pinAt o place = some pin ∧ lease.Explains length pin
  unleased : ∀ place, ledger place = none → w.pinAt o place = none

namespace Tracked

variable {length : Nat} {entry : Option Lease} {taken : Option Pin}

/-- One entry of the ledger changes together with the pin of its view. -/
theorem update (h : Tracked o length ledger w)
    (elements : ∃ stored, v.elements? o = some stored ∧ stored.length = length)
    (pins : ∀ other, v.pinAt o other = if place = other then taken else w.pinAt o other)
    (leased : ∀ lease, entry = some lease → ∃ pin, taken = some pin ∧ lease.Explains length pin)
    (unleased : entry = none → taken = none) :
    Tracked o length (Function.update ledger place entry) v := by
  refine ⟨elements, fun other lease known => ?_, fun other unknown => ?_⟩
  · rw [Function.update_apply] at known
    rw [pins]
    by_cases same : other = place
    · rw [if_pos same] at known
      rw [if_pos same.symm]
      exact leased lease known
    · rw [if_neg same] at known
      rw [if_neg (Ne.symm same)]
      exact h.leased other lease known
  · rw [Function.update_apply] at unknown
    rw [pins]
    by_cases same : other = place
    · rw [if_pos same] at unknown
      rw [if_pos same.symm, unleased unknown]
    · rw [if_neg same] at unknown
      rw [if_neg (Ne.symm same)]
      exact h.unleased other unknown

theorem take (h : Tracked o length ledger w) (here : w.Views o place)
    (known : w.elements? o = some stored) :
    Tracked o length (Function.update ledger place (some { base := stored }))
      (w.repinned place (some { items := stored })) := by
  obtain ⟨stored', known', size⟩ := h.elements
  cases known.symm.trans known'
  refine h.update ⟨stored, known, size⟩ (pinAt_repinned here _) ?_ nofun
  rintro _ ⟨⟩
  exact ⟨_, rfl, size, size, by simp, fun _ _ => rfl⟩

theorem assign (h : Tracked o length ledger w) (here : w.pinAt o place = some pin)
    (known : ledger place = some lease) (i : Nat) (value : Host.Value) :
    Tracked o length
      (Function.update ledger place (some { lease with assigned := i :: lease.assigned }))
      (w.repinned place (some { items := pin.items.set i value, changed := true })) := by
  obtain ⟨pin', here', explains⟩ := h.leased place lease known
  cases here.symm.trans here'
  refine h.update h.elements (pinAt_repinned (views_of_pinAt here) _) ?_ nofun
  rintro _ ⟨⟩
  refine ⟨_, rfl, explains.base, ?_, by simp, fun j apart => ?_⟩
  · rw [List.length_set, explains.items]
  · rw [List.mem_cons, not_or] at apart
    rw [List.getElem?_set_ne (Ne.symm apart.1), explains.others j apart.2]

theorem release (h : Tracked o length ledger w) (known : ledger place = some lease)
    (released : Releases place w v) :
    Tracked o length (Function.update ledger place none) v := by
  obtain ⟨stored, stores, size⟩ := h.elements
  obtain ⟨pin, here, explains⟩ := h.leased place lease known
  obtain ⟨elements, pins⟩ := released.effect here stores (size.trans explains.items.symm)
  refine h.update ⟨_, elements, ?_⟩ pins nofun fun _ => rfl
  split
  · exact explains.items
  · exact size

theorem of_pins (h : Tracked o length ledger w)
    (elements : ∃ stored, v.elements? o = some stored ∧ stored.length = length)
    (pins : v.pinAt o = w.pinAt o) : Tracked o length ledger v := by
  refine ⟨elements, fun place lease leased => ?_, fun place unleased => ?_⟩
  · rw [pins]
    exact h.leased place lease leased
  · rw [pins]
    exact h.unleased place unleased

end Tracked

/-- By induction on the history: each step keeps the ledger. -/
theorem History.tracked (h : History may o first ledger log w) :
    Tracked o first.length ledger w := by
  induction h with
  | start known unpinned =>
    exact ⟨⟨first, known, rfl⟩, nofun, fun place _ => unpinned place⟩
  | take _ here unpinned known taken ih =>
    rw [take_run here unpinned known taken]
    exact ih.take here known
  | assign _ here known _ set ih =>
    cases set
    exact ih.assign here known _ _
  | release _ known _ _ released ih => exact ih.release known released
  | host _ known inside changed pins ih =>
    obtain ⟨stored, known', size⟩ := ih.elements
    cases known.symm.trans known'
    exact ih.of_pins ⟨_, changed, by rw [List.length_set, size]⟩ pins
  | aside _ same pins ih => exact ih.of_pins (same ▸ ih.elements) pins

/-! ### One release -/

/-- What the array holds after a release. -/
theorem History.release_elements (h : History may o first ledger log w)
    (known : ledger place = some lease) (stores : w.elements? o = some stored)
    (released : Releases place w v) :
    ∃ pin, w.pinAt o place = some pin ∧ lease.Explains stored.length pin ∧
      v.elements? o = some (if pin.changed then pin.items else stored) := by
  obtain ⟨stored', stores', size⟩ := h.tracked.elements
  cases stores.symm.trans stores'
  obtain ⟨pin, here, explains⟩ := h.tracked.leased place lease known
  rw [← size] at explains
  exact ⟨pin, here, explains, (released.effect here stores explains.items.symm).1⟩

theorem History.release_changes_iff (h : History may o first ledger log w)
    (known : ledger place = some lease) (stores : w.elements? o = some stored)
    (released : Releases place w v) :
    ∃ stored', v.elements? o = some stored' ∧
      ((∀ i, i ∉ lease.assigned → stored'[i]? = stored[i]?) ↔ lease.Untouched stored) := by
  obtain ⟨pin, here, explains, elements⟩ := h.release_elements known stores released
  refine ⟨_, elements, ?_⟩
  unfold Lease.Untouched
  by_cases changed : pin.changed = true
  · rw [if_pos changed, or_iff_right (explains.changed.mp changed)]
    refine forall₂_congr fun i apart => ?_
    rw [explains.others i apart]
  · rw [if_neg changed]
    have nothing : lease.assigned = [] := by
      by_contra some_assigned
      exact changed (explains.changed.mpr some_assigned)
    exact iff_of_true (fun _ _ => rfl) (.inl nothing)

/-! ### Many releases -/

/-- What an element should be: what was last written to it, or what it was at first. -/
def current (first : List Host.Value) (log : List Write) (i : Nat) : Option Host.Value :=
  (lastWritten log i).or first[i]?

variable {party : Party} {i j : Nat} {value : Host.Value} {write : Write}

theorem current_cons_self (same : write.index = i) :
    current first (write :: log) i = some write.value := by
  simp [current, lastWritten, same]

theorem current_cons_other (apart : write.index ≠ i) :
    current first (write :: log) i = current first log i := by
  simp [current, lastWritten, beq_eq_false_iff_ne.mpr apart]

theorem WrittenOnlyBy.tail (h : WrittenOnlyBy (write :: log) party i) : WrittenOnlyBy log party i :=
  fun other mem => h other (List.mem_cons_of_mem _ mem)

/-- The last write of an element is in the copy in which the element was assigned, or else in the
array. -/
structure Upheld (o : ObjectId) (first : List Host.Value) (party : Party) (i : Nat) (ledger : Ledger)
    (log : List Write) (w : World) : Prop where
  copied : ∀ place lease pin, ledger place = some lease → i ∈ lease.assigned →
    w.pinAt o place = some pin → party = .view place ∧ pin.items[i]? = current first log i
  stored : ∀ elements, w.elements? o = some elements →
    (∀ place lease, ledger place = some lease → i ∉ lease.assigned) →
    elements[i]? = current first log i

namespace Upheld

theorem take (h : Upheld o first party i ledger log w) (fresh : ledger place = none)
    (here : w.Views o place) :
    Upheld o first party i (Function.update ledger place (some { base := stored })) log
      (w.repinned place (some { items := stored })) := by
  constructor
  · intro other lease pin known assigned pinned
    rw [Function.update_apply] at known
    rw [pinAt_repinned here] at pinned
    by_cases same : other = place
    · rw [if_pos same] at known
      cases known
      cases assigned
    · rw [if_neg same] at known
      rw [if_neg (Ne.symm same)] at pinned
      exact h.copied other lease pin known assigned pinned
  · intro elements stores nowhere
    refine h.stored elements stores fun other lease known => ?_
    have apart : other ≠ place := by
      rintro rfl
      rw [fresh] at known
      cases known
    exact nowhere other lease (by rw [Function.update_apply, if_neg apart, known])

theorem assign (h : Upheld o first party i ledger log w) (here : w.pinAt o place = some pin)
    (known : ledger place = some lease) (inside : j < pin.items.length)
    (only : WrittenOnlyBy (⟨.view place, j, value⟩ :: log) party i) :
    Upheld o first party i
      (Function.update ledger place (some { lease with assigned := j :: lease.assigned }))
      (⟨.view place, j, value⟩ :: log)
      (w.repinned place (some { items := pin.items.set j value, changed := true })) := by
  have views := views_of_pinAt here
  constructor
  · intro other other_lease other_pin leased assigned pinned
    rw [Function.update_apply] at leased
    rw [pinAt_repinned views] at pinned
    by_cases same : other = place
    · subst same
      rw [if_pos rfl] at leased pinned
      cases leased
      cases pinned
      by_cases element : j = i
      · subst element
        refine ⟨(only _ List.mem_cons_self rfl).symm, ?_⟩
        rw [current_cons_self rfl, List.getElem?_set_self inside]
      · have before := h.copied other lease pin known
          ((List.mem_cons.mp assigned).resolve_left (Ne.symm element)) here
        rw [current_cons_other element, List.getElem?_set_ne element]
        exact before
    · rw [if_neg same] at leased
      rw [if_neg (Ne.symm same)] at pinned
      have before := h.copied other other_lease other_pin leased assigned pinned
      have element : j ≠ i := by
        rintro rfl
        have mine := before.1.symm.trans (only _ List.mem_cons_self rfl).symm
        exact same (Party.view.inj mine)
      rw [current_cons_other element]
      exact before
  · intro elements stores nowhere
    have mine := nowhere place _ (Function.update_self ..)
    rw [List.mem_cons, not_or] at mine
    rw [current_cons_other (Ne.symm mine.1)]
    refine h.stored elements stores fun other other_lease leased => ?_
    by_cases same : other = place
    · subst same
      cases known.symm.trans leased
      exact mine.2
    · exact nowhere other other_lease (by rw [Function.update_apply, if_neg same, leased])

theorem release (h : Upheld o first party i ledger log w)
    (tracked : Tracked o first.length ledger w) (known : ledger place = some lease)
    (stores : w.elements? o = some stored) (untouched : lease.Untouched stored)
    (released : Releases place w v) :
    Upheld o first party i (Function.update ledger place none) log v := by
  obtain ⟨pin, here, explains⟩ := tracked.leased place lease known
  obtain ⟨stored', stores', size⟩ := tracked.elements
  cases stores.symm.trans stores'
  obtain ⟨elements, pins⟩ := released.effect here stores (size.trans explains.items.symm)
  constructor
  · intro other other_lease other_pin leased assigned pinned
    rw [Function.update_apply] at leased
    rw [pins] at pinned
    by_cases same : other = place
    · rw [if_pos same] at leased
      cases leased
    · rw [if_neg same] at leased
      rw [if_neg (Ne.symm same)] at pinned
      exact h.copied other other_lease other_pin leased assigned pinned
  · intro now stores_now nowhere
    cases elements.symm.trans stores_now
    by_cases assigned : i ∈ lease.assigned
    · have changed : pin.changed = true := explains.changed.mpr (List.ne_nil_of_mem assigned)
      rw [if_pos changed]
      exact (h.copied place lease pin known assigned here).2
    · have before : stored[i]? = current first log i := by
        refine h.stored stored stores fun other other_lease leased => ?_
        by_cases same : other = place
        · subst same
          cases known.symm.trans leased
          exact assigned
        · exact nowhere other other_lease (by rw [Function.update_apply, if_neg same, leased])
      rw [← before]
      by_cases changed : pin.changed = true
      · rw [if_pos changed, explains.others i assigned]
        exact (untouched.resolve_left (explains.changed.mp changed)) i assigned
      · rw [if_neg changed]

theorem host (h : Upheld o first party i ledger log w)
    (tracked : Tracked o first.length ledger w) (stores : w.elements? o = some stored)
    (inside : j < stored.length) (changes : v.elements? o = some (stored.set j value))
    (pins : v.pinAt o = w.pinAt o) (only : WrittenOnlyBy (⟨.host, j, value⟩ :: log) party i) :
    Upheld o first party i ledger (⟨.host, j, value⟩ :: log) v := by
  by_cases element : j = i
  · subst element
    have nobody : ∀ place lease, ledger place = some lease → j ∉ lease.assigned := by
      intro place lease leased assigned
      obtain ⟨pin, here, -⟩ := tracked.leased place lease leased
      have mine := (h.copied place lease pin leased assigned here).1
      cases mine.symm.trans (only _ List.mem_cons_self rfl).symm
    constructor
    · intro place lease pin leased assigned
      exact absurd assigned (nobody place lease leased)
    · intro now stores_now _
      cases changes.symm.trans stores_now
      rw [current_cons_self rfl, List.getElem?_set_self inside]
  · constructor
    · intro place lease pin leased assigned here
      rw [pins] at here
      rw [current_cons_other element]
      exact h.copied place lease pin leased assigned here
    · intro now stores_now nowhere
      cases changes.symm.trans stores_now
      rw [current_cons_other element, List.getElem?_set_ne element]
      exact h.stored stored stores nowhere

end Upheld

/-- By induction on the history: as long as each release finds untouched what was not assigned, the
last write of an element that one party alone writes is kept. -/
theorem History.upheld (h : History Lease.Untouched o first ledger log w)
    (only : WrittenOnlyBy log party i) : Upheld o first party i ledger log w := by
  induction h with
  | start known unpinned =>
    refine ⟨nofun, fun elements stores _ => ?_⟩
    cases known.symm.trans stores
    rfl
  | @take ledger log w v place pin stored bodies ts h here unpinned known taken ih =>
    have fresh : ledger place = none := by
      cases leased : ledger place with
      | none => rfl
      | some lease =>
        obtain ⟨pin, pinned, -⟩ := h.tracked.leased place lease leased
        rw [unpinned] at pinned
        cases pinned
    rw [take_run here unpinned known taken]
    exact (ih only).take fresh here
  | assign _ here known inside set ih =>
    cases set
    exact (ih only.tail).assign here known inside only
  | release h known stores untouched released ih =>
    exact (ih only).release h.tracked known stores untouched released
  | host h known inside changed pins ih =>
    exact (ih only.tail).host h.tracked known inside changed pins only
  | aside _ same pins ih =>
    refine ⟨?_, ?_⟩
    · rw [pins]
      exact (ih only).copied
    · rw [same]
      exact (ih only).stored

theorem History.settled (h : History Lease.Untouched o first ledger log w)
    (unpinned : ∀ place, w.pinAt o place = none) :
    ∃ stored, w.elements? o = some stored ∧
      ∀ party i, WrittenOnlyBy log party i → stored[i]? = current first log i := by
  obtain ⟨stored, stores, -⟩ := h.tracked.elements
  refine ⟨stored, stores, fun party i only => ?_⟩
  refine (h.upheld only).stored stored stores fun place lease leased => ?_
  obtain ⟨pin, here, -⟩ := h.tracked.leased place lease leased
  rw [unpinned] at here
  cases here

/-! ### Reads and writes of scripts -/

section

variable {bodies : Bodies World} {ts : InterpreterId} {index : Script.Value} {u x : World}

/-- An access has a copy that is leased. -/
theorem History.access (h : History may o first ledger log w) (here : w.Views o place)
    (taken : pinned bodies ts place w = .ok pin v) :
    ∃ ledger' lease, History may o first ledger' log v ∧ ledger' place = some lease ∧
      v.pinAt o place = some pin := by
  obtain ⟨stored, known, -⟩ := h.tracked.elements
  cases pinned : w.pinAt o place with
  | none =>
    have after := take_run here pinned known taken
    refine ⟨_, _, .take h here pinned known taken, Function.update_self .., ?_⟩
    obtain ⟨component, old, view⟩ := here
    cases old with
    | some old =>
      rw [pinAt_of_view view] at pinned
      cases pinned
    | none =>
      rw [pinned_first view known] at taken
      cases taken
      rw [pinAt_repinned ⟨component, none, view⟩, if_pos rfl]
  | some old =>
    obtain ⟨component, view⟩ := view_of_pinAt pinned
    rw [pinned_again view] at taken
    cases taken
    cases leased : ledger place with
    | none =>
      rw [h.tracked.unleased place leased] at pinned
      cases pinned
    | some lease => exact ⟨ledger, lease, h, leased, pinned⟩

theorem position?_lt {i : Int} {length k : Nat} (found : Script.position? i length = some k) :
    k < length := by
  simp only [Script.position?, Option.ite_none_right_eq_some, Option.some.injEq] at found
  obtain ⟨inside, rfl⟩ := found
  omega

theorem elementIndex_ok {length i : Nat} (found : elementIndex ts index length w = .ok i v) :
    v = w ∧ i < length := by
  unfold elementIndex at found
  cases whole : Script.wholeIndex? index with
  | none =>
    rw [whole] at found
    cases found
  | some number =>
    rw [whole] at found
    dsimp only at found
    cases position : Script.position? number length with
    | none =>
      rw [position] at found
      cases found
    | some k =>
      rw [position] at found
      cases found
      exact ⟨rfl, position?_lt position⟩

/-- A read of a script takes a copy if there is none. What the conversions do belongs to the history
as well. -/
theorem History.getElement {value : Script.Value} {known : ClassId × Kind}
    (found : component ts place w = .ok known u) (h : History may o first ledger log u)
    (here : u.Views o place) (read : getElement bodies ts place index w = .ok value v) :
    ∃ ledger' x pin i, History may o first ledger' log x ∧ x.pinAt o place = some pin ∧
      toScript bodies ts (pin.items.getD i .null) known.2 x = .ok value v := by
  unfold Bridge.getElement at read
  rw [bind_ok found] at read
  obtain ⟨pin, x, taken, read⟩ := ok_of_bind read
  obtain ⟨ledger', lease, after, -, pinned⟩ := h.access here taken
  obtain ⟨i, y, located, shown⟩ := ok_of_bind read
  obtain ⟨rfl, -⟩ := elementIndex_ok located
  exact ⟨ledger', _, pin, i, after, pinned, shown⟩

/-- A write of a script changes the copy once the value is converted. -/
theorem History.setElement {value : Script.Value} {known : ClassId × Kind} {converted : Host.Value}
    (found : component ts place w = .ok known u)
    (converts : coerce bodies ts value known.1 known.2 1 u = .ok converted x)
    (h : History may o first ledger log x) (here : x.Views o place)
    (written : setElement bodies ts place index value w = .ok () v) :
    ∃ ledger' i, History may o first ledger' (⟨.view place, i, converted⟩ :: log) v := by
  unfold Bridge.setElement at written
  rw [bind_ok found] at written
  dsimp only at written
  rw [bind_ok converts] at written
  obtain ⟨pin, y, taken, written⟩ := ok_of_bind written
  obtain ⟨ledger', lease, after, leased, pinned⟩ := h.access here taken
  obtain ⟨i, z, located, set⟩ := ok_of_bind written
  obtain ⟨rfl, inside⟩ := elementIndex_ok located
  exact ⟨_, i, .assign after pinned leased inside set⟩

end

/-! ### The two together -/

/-- A release changes no element but those assigned through its view since the copy was taken,
exactly if it finds all others as they were then; and if every release does, each element that one
party alone has written holds that party's last value once all pins are given back. -/
theorem releases_write_back_iff_untouched (o : ObjectId) (first : List Host.Value) :
    (∀ may ledger log w place lease stored v, History may o first ledger log w →
      ledger place = some lease → w.elements? o = some stored → Releases place w v →
      ∃ stored', v.elements? o = some stored' ∧
        ((∀ i, i ∉ lease.assigned → stored'[i]? = stored[i]?) ↔ lease.Untouched stored)) ∧
    ∀ ledger log w, History Lease.Untouched o first ledger log w →
      (∀ place, w.pinAt o place = none) →
      ∃ stored, w.elements? o = some stored ∧
        ∀ party i, WrittenOnlyBy log party i → stored[i]? = current first log i := by
  constructor
  · intro may ledger log w place lease stored v h known stores released
    exact h.release_changes_iff known stores released
  · intro ledger log w h unpinned
    exact h.settled unpinned

/-- An array of two numbers with two views. -/
def shared : World :=
  ⟨{}, { realm := { objects := #[⟨⟨0⟩, .array [.int 1, .int 2]⟩] }
         proxies := #[⟨.array ⟨0⟩ none none, none⟩, ⟨.array ⟨0⟩ none none, none⟩] }⟩

theorem shared_unpinned (place : Nat) : shared.pinAt ⟨0⟩ place = none := by
  match place with
  | 0 | 1 | _ + 2 => rfl

/-- The first view has written the first element. -/
def sharedOnce : World :=
  (shared.repinned 0 (some { items := [.int 1, .int 2] })).repinned 0 (some ⟨[.int 10, .int 2], true⟩)

/-- The second view has then written the second element. -/
def sharedTwice : World :=
  (sharedOnce.repinned 1 (some { items := [.int 1, .int 2] })).repinned 1
    (some ⟨[.int 1, .int 20], true⟩)

theorem sharedOnce_history (may : Lease → List Host.Value → Prop) :
    ∃ ledger : Ledger, ledger 0 = some ⟨[.int 1, .int 2], [0]⟩ ∧
      History may ⟨0⟩ [.int 1, .int 2] ledger [⟨.view 0, 0, .int 10⟩] sharedOnce := by
  have idle : Bodies World := ⟨fun _ _ _ => throw .pending, fun _ _ _ => throw .pending⟩
  have started : History may ⟨0⟩ [.int 1, .int 2] (fun _ => none) [] shared :=
    .start rfl shared_unpinned
  have taken : pinned idle ⟨0⟩ 0 shared = .ok _ _ := pinned_first rfl rfl
  have took := started.take ⟨none, none, rfl⟩ rfl rfl taken
  have wrote : History may ⟨0⟩ [.int 1, .int 2] _ [⟨.view 0, 0, .int 10⟩] sharedOnce :=
    took.assign rfl (Function.update_self ..) (Nat.zero_lt_succ 1) rfl
  exact ⟨_, Function.update_self .., wrote⟩

theorem sharedTwice_history : ∃ ledger : Ledger, ledger 0 = some ⟨[.int 1, .int 2], [0]⟩ ∧
    ledger 1 = some ⟨[.int 1, .int 2], [1]⟩ ∧
    History (fun _ _ => True) ⟨0⟩ [.int 1, .int 2] ledger
      [⟨.view 1, 1, .int 20⟩, ⟨.view 0, 0, .int 10⟩] sharedTwice := by
  have idle : Bodies World := ⟨fun _ _ _ => throw .pending, fun _ _ _ => throw .pending⟩
  obtain ⟨ledger, first, once⟩ := sharedOnce_history fun _ _ => True
  have taken : pinned idle ⟨0⟩ 1 sharedOnce = .ok _ _ := pinned_first rfl rfl
  have took := once.take ⟨none, none, rfl⟩ rfl rfl taken
  have wrote : History (fun _ _ => True) ⟨0⟩ [.int 1, .int 2] _
      [⟨.view 1, 1, .int 20⟩, ⟨.view 0, 0, .int 10⟩] sharedTwice :=
    took.assign rfl (Function.update_self ..) (Nat.lt_succ_self 1) rfl
  exact ⟨_, by simp [first], Function.update_self .., wrote⟩

/-- The first write is stored and then lost when the second view gives its copy back; a single view
loses nothing. -/
theorem releases_write_back_iff_untouched_pair :
    (∃ w v stored, Releases 0 sharedTwice w ∧ Releases 1 w v ∧
      w.elements? ⟨0⟩ = some [.int 10, .int 2] ∧ v.elements? ⟨0⟩ = some stored ∧
      ¬∀ i, i ∉ [1] → stored[i]? = [Host.Value.int 10, .int 2][i]?) ∧
    ∃ w stored, Releases 0 sharedOnce w ∧ w.elements? ⟨0⟩ = some stored ∧
      stored[0]? = some (.int 10) := by
  constructor
  · obtain ⟨ledger, first, second, twice⟩ := sharedTwice_history
    have stored : Releases 0 sharedTwice (sharedTwice.committed ⟨0⟩ 0 ⟨[.int 10, .int 2], true⟩) :=
      releases_committed rfl rfl rfl
    have after := twice.release first rfl trivial stored
    generalize ended : sharedTwice.committed ⟨0⟩ 0 ⟨[.int 10, .int 2], true⟩ = w at stored after
    have copied : w.pinAt ⟨0⟩ 1 = some ⟨[.int 1, .int 20], true⟩ := by
      rw [← ended]
      rfl
    have array : w.elements? ⟨0⟩ = some [.int 10, .int 2] := by
      rw [← ended]
      rfl
    have lost := releases_committed copied array rfl
    have known : Function.update ledger 0 none 1 = some ⟨[.int 1, .int 2], [1]⟩ := by
      simp [second]
    obtain ⟨left, stores, changes⟩ := (releases_write_back_iff_untouched ⟨0⟩ [.int 1, .int 2]).1 _ _ _
      _ _ _ _ _ after known array lost
    refine ⟨w, _, left, stored, lost, array, stores, fun kept => ?_⟩
    rcases changes.mp kept with nothing | same
    · cases nothing
    · cases same 0 (by decide)
  · obtain ⟨ledger, first, once⟩ := sharedOnce_history Lease.Untouched
    have stored : Releases 0 sharedOnce (sharedOnce.committed ⟨0⟩ 0 ⟨[.int 10, .int 2], true⟩) :=
      releases_committed rfl rfl rfl
    have after := once.release first rfl (.inr fun _ _ => rfl) stored
    have unpinned : ∀ place, (sharedOnce.committed ⟨0⟩ 0 ⟨[.int 10, .int 2], true⟩).pinAt ⟨0⟩ place =
        none := fun place => match place with
      | 0 | 1 | _ + 2 => rfl
    obtain ⟨left, stores, holds⟩ := (releases_write_back_iff_untouched ⟨0⟩ [.int 1, .int 2]).2 _ _ _
      after unpinned
    refine ⟨_, left, stored, stores, ?_⟩
    exact holds (.view 0) 0 fun write mem _ => by
      cases List.mem_singleton.mp mem
      rfl

end ScriptBridge.Bridge
