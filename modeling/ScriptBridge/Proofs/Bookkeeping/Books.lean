import ScriptBridge.Proofs.Discipline.Background

/-!
# The books on contexts

That a context is open is written down four times: in the registry, as a link of its interpreter, as
a reference to its loader, and in the count of live interpreters. The books are sound if the last
three say the same and nothing is registered that is not open. An open context that is not
registered is lost: nobody can name it any more.
-/

namespace ScriptBridge

open Host (GlobalRef)
open Bridge (ContextId)
open Script (InterpreterId)

namespace Tracked

variable {t : Tracked} {c c' : ContextId} {ts ts' : InterpreterId} {ref ref' : Option GlobalRef}
  {closed closed' : Bool} {n : Nat}

/-- The interpreter of a context, the reference to its loader, and whether it is closed. -/
def row? (t : Tracked) : ContextId → Option (InterpreterId × Option GlobalRef × Bool)
  | ⟨0⟩ => none
  | ⟨n + 1⟩ => t.contexts[n]?

/-- The number of an interpreter within its runtime. -/
def number (t : Tracked) (ts : InterpreterId) : Nat := (t.interpreters[ts.place]?.map (·.1)).getD 0

/-- The runtime of the bridge. -/
def own (t : Tracked) : Script.Runtime := t.runtimes[t.runtime.place]?.getD default

def Created (t : Tracked) (c : ContextId) : Prop := ∃ x, t.row? c = some x

def Open (t : Tracked) (c : ContextId) : Prop := ∃ ts ref, t.row? c = some (ts, ref, false)

def Closed (t : Tracked) (c : ContextId) : Prop := ∃ ts ref, t.row? c = some (ts, ref, true)

/-- Some context is open that is not registered. -/
def Lost (t : Tracked) : Prop := ∃ c, t.Open c ∧ c ∉ t.registry

/-- The books say the same about open contexts, and what is registered is open. -/
structure Sound (t : Tracked) : Prop where
  runtime : t.runtime.place < t.runtimes.size
  placed {c : ContextId} {ts : InterpreterId} {ref : Option GlobalRef} {closed : Bool} :
    t.row? c = some (ts, ref, closed) →
      ∃ i, t.interpreters[ts.place]? = some i ∧ i.1 < t.own.nextNumber ∧ i.2.1 = t.runtime
  distinct {c c' : ContextId} {ts ts' : InterpreterId} {ref ref' : Option GlobalRef}
    {closed closed' : Bool} :
    t.row? c = some (ts, ref, closed) → t.row? c' = some (ts', ref', closed') →
      t.number ts = t.number ts' → c = c'
  keeps {c : ContextId} {ts : InterpreterId} {ref : Option GlobalRef} {closed : Bool} :
    t.row? c = some (ts, ref, closed) → ref.isSome = !closed
  linked (n : Nat) (c : ContextId) :
    (n, c) ∈ t.links ↔ ∃ ts ref, t.row? c = some (ts, ref, false) ∧ n = t.number ts
  once : (t.links.map (·.2)).Nodup
  registered : ∀ c ∈ t.registry, t.Open c
  listed : t.registry.Nodup
  live : t.own.live = UInt64.ofNat t.links.length

theorem Open.not_closed (h : t.Open c) : ¬t.Closed c := by
  rintro ⟨ts, ref, closed⟩
  obtain ⟨ts', ref', opened⟩ := h
  rw [opened] at closed
  cases closed

/-- Closed contexts are not registered. -/
theorem Sound.not_registered (h : t.Sound) (closed : t.Closed c) : c ∉ t.registry :=
  fun registered => (h.registered c registered).not_closed closed

/-- In sound books there are as many links as registered contexts, unless some context is lost. -/
theorem Sound.links_length (h : t.Sound) (found : ¬t.Lost) : t.links.length = t.registry.length := by
  have same : (t.links.map (·.2)).Perm t.registry := by
    refine (List.perm_ext_iff_of_nodup h.once h.listed).2 fun c => ⟨fun linked => ?_, fun reg => ?_⟩
    · obtain ⟨⟨n, c'⟩, mem, rfl⟩ := List.mem_map.1 linked
      obtain ⟨ts, ref, opened, -⟩ := (h.linked n c').1 mem
      exact Classical.byContradiction fun never => found ⟨c', ⟨ts, ref, opened⟩, never⟩
    · obtain ⟨ts, ref, opened⟩ := h.registered c reg
      exact List.mem_map.2 ⟨(t.number ts, c), (h.linked _ _).2 ⟨ts, ref, opened, rfl⟩, rfl⟩
  simpa using same.length_eq

/-- Empty books. -/
theorem sound_of_empty (contexts : t.contexts = #[]) (registry : t.registry = [])
    (links : t.links = []) (runtime : t.runtime.place < t.runtimes.size) (live : t.own.live = 0) :
    t.Sound ∧ ¬t.Lost := by
  have none : ∀ c, t.row? c = none
    | ⟨0⟩ => rfl
    | ⟨n + 1⟩ => by simp [row?, contexts]
  constructor
  · refine ⟨runtime, ?_, ?_, ?_, ?_, ?_, ?_, ?_, ?_⟩ <;> simp [none, links, registry, live]
  · rintro ⟨c, ⟨ts, ref, entry⟩, -⟩
    rw [none] at entry
    cases entry

/-! ### Registering -/

/-- The books after a context was taken off the registry. -/
def unlisted (c : ContextId) (t : Tracked) : Tracked :=
  { t with registry := t.registry.filter (· != c) }

theorem Sound.unlisted (h : t.Sound) (c : ContextId) : (t.unlisted c).Sound :=
  { h with
    registered := fun c' hc' => h.registered c' (List.mem_filter.1 hc').1
    listed := h.listed.filter _ }

/-- The books after every context was taken off the registry. -/
def drained (t : Tracked) : Tracked := { t with registry := [] }

theorem Sound.drained (h : t.Sound) : t.drained.Sound :=
  { h with
    registered := fun _ never => nomatch never
    listed := List.nodup_nil }

/-! ### Contexts -/

/-- The books after the entry of a context was changed. -/
def revised (c : ContextId) (f : Option GlobalRef × Bool → Option GlobalRef × Bool) (t : Tracked) :
    Tracked :=
  { t with contexts := t.contexts.modify (c.number - 1) fun x => (x.1, f x.2) }

variable {f : Option GlobalRef × Bool → Option GlobalRef × Bool}

theorem revised_entry (created : t.Created c) (f : Option GlobalRef × Bool → Option GlobalRef × Bool)
    (c' : ContextId) :
    (t.revised c f).row? c' =
      if c = c' then (t.row? c').map fun x => (x.1, f x.2) else t.row? c' := by
  obtain ⟨x, hx⟩ := created
  match c, c' with
  | ⟨0⟩, _ => cases hx
  | ⟨n + 1⟩, ⟨0⟩ => simp [row?]
  | ⟨n + 1⟩, ⟨m + 1⟩ => simp [row?, revised, Array.getElem?_modify]

theorem entry_congr {t' : Tracked} (same : t'.contexts = t.contexts) (c : ContextId) :
    t'.row? c = t.row? c := by
  match c with
  | ⟨0⟩ => rfl
  | ⟨n + 1⟩ => rw [row?, row?, same]

/-- A context that is open keeps another loader. -/
def relet (c : ContextId) (g : GlobalRef) (t : Tracked) : Tracked := t.revised c fun x => (some g, x.2)

/-- The books after a context was ended that had the interpreter. -/
def ended (c : ContextId) (ts : InterpreterId) (t : Tracked) : Tracked :=
  { t.revised c fun _ => (none, true) with
    interpreters := t.interpreters.modify ts.place fun i => (i.1, i.2.1, none)
    links := t.links.filter (·.1 != t.number ts)
    runtimes := t.runtimes.modify t.runtime.place fun r => { r with live := r.live - 1 } }

/-- The books after a context was opened. -/
def opened (g : GlobalRef) (t : Tracked) : Tracked :=
  { t with
    interpreters := t.interpreters.push (t.own.nextNumber, t.runtime, none)
    runtimes := t.runtimes.modify t.runtime.place fun r =>
      { r with nextNumber := r.nextNumber + 1, live := r.live + 1 }
    contexts := t.contexts.push (⟨t.interpreters.size⟩, some g, false)
    links := (t.own.nextNumber, ⟨t.contexts.size + 1⟩) ::
      t.links.filter (·.1 != t.own.nextNumber)
    registry := t.registry ++ [⟨t.contexts.size + 1⟩] }

/-! #### A new loader -/

theorem relet_entry (found : t.row? c = some (ts, ref, closed)) (g : GlobalRef) (c' : ContextId) :
    (t.relet c g).row? c' = if c = c' then some (ts, some g, closed) else t.row? c' := by
  rw [relet, revised_entry ⟨_, found⟩]
  by_cases same : c = c'
  · rw [if_pos same, if_pos same, ← same, found]
    rfl
  · rw [if_neg same, if_neg same]

/-- Besides its loader an entry stays as it is. -/
theorem relet_found (found : t.row? c = some (ts, ref, closed)) {g : GlobalRef}
    (h : (t.relet c g).row? c' = some (ts', ref', closed')) :
    ∃ old, t.row? c' = some (ts', old, closed') ∧ (ref' = old ∨ c = c' ∧ ref' = some g) := by
  rw [relet_entry found] at h
  by_cases same : c = c'
  · rw [if_pos same] at h
    cases h
    exact ⟨ref, same ▸ found, .inr ⟨same, rfl⟩⟩
  · rw [if_neg same] at h
    exact ⟨ref', h, .inl rfl⟩

theorem found_relet (found : t.row? c = some (ts, ref, closed)) (g : GlobalRef)
    (h : t.row? c' = some (ts', ref', closed')) :
    ∃ new, (t.relet c g).row? c' = some (ts', new, closed') := by
  rw [relet_entry found]
  by_cases same : c = c'
  · subst same
    rw [found] at h
    cases h
    exact ⟨some g, if_pos rfl⟩
  · rw [if_neg same]
    exact ⟨ref', h⟩

theorem relet_open (found : t.row? c = some (ts, ref, closed)) (g : GlobalRef) :
    (t.relet c g).Open c' ↔ t.Open c' := by
  constructor
  · rintro ⟨ts', ref', h⟩
    obtain ⟨old, h', -⟩ := relet_found found h
    exact ⟨ts', old, h'⟩
  · rintro ⟨ts', ref', h⟩
    obtain ⟨new, h'⟩ := found_relet found g h
    exact ⟨ts', new, h'⟩

theorem Sound.relet (h : t.Sound) (found : t.row? c = some (ts, ref, false)) (g : GlobalRef) :
    (t.relet c g).Sound where
  runtime := h.runtime
  placed entry := by
    obtain ⟨old, entry', -⟩ := relet_found found entry
    exact h.placed entry'
  distinct entry entry₂ same := by
    obtain ⟨old, entry', -⟩ := relet_found found entry
    obtain ⟨old₂, entry₂', -⟩ := relet_found found entry₂
    exact h.distinct entry' entry₂' same
  keeps entry := by
    obtain ⟨old, entry', rfl | ⟨rfl, rfl⟩⟩ := relet_found found entry
    · exact h.keeps entry'
    · rw [found] at entry'
      cases entry'
      rfl
  linked n c' := by
    refine (h.linked n c').trans ⟨?_, ?_⟩
    · rintro ⟨ts', ref', entry, number⟩
      obtain ⟨new, entry'⟩ := found_relet found g entry
      exact ⟨ts', new, entry', number⟩
    · rintro ⟨ts', ref', entry, number⟩
      obtain ⟨old, entry', -⟩ := relet_found found entry
      exact ⟨ts', old, entry', number⟩
  once := h.once
  registered c' hc' := (relet_open found g).2 (h.registered c' hc')
  listed := h.listed
  live := h.live

/-! #### An end -/

theorem ended_entry (found : t.row? c = some (ts, ref, closed)) (c' : ContextId) :
    (t.ended c ts).row? c' = if c = c' then some (ts, none, true) else t.row? c' := by
  have same : (t.ended c ts).row? c' = (t.revised c fun _ => (none, true)).row? c' :=
    entry_congr rfl c'
  rw [same, revised_entry ⟨_, found⟩]
  by_cases same : c = c'
  · rw [if_pos same, if_pos same, ← same, found]
    rfl
  · rw [if_neg same, if_neg same]

/-- Only the context itself has another entry after its end. -/
theorem ended_found (found : t.row? c = some (ts, ref, closed))
    (h : (t.ended c ts).row? c' = some (ts', ref', closed')) :
    (c = c' ∧ ts' = ts ∧ ref' = none ∧ closed' = true) ∨
      (c ≠ c' ∧ t.row? c' = some (ts', ref', closed')) := by
  rw [ended_entry found] at h
  by_cases same : c = c'
  · rw [if_pos same] at h
    cases h
    exact .inl ⟨same, rfl, rfl, rfl⟩
  · rw [if_neg same] at h
    exact .inr ⟨same, h⟩

theorem ended_number (c : ContextId) (ts ts' : InterpreterId) :
    (t.ended c ts).number ts' = t.number ts' := by
  simp only [number, ended, Array.getElem?_modify]
  split
  · cases t.interpreters[ts'.place]? with
    | none => rfl
    | some i => rfl
  · rfl

theorem ended_own (placed : t.runtime.place < t.runtimes.size) (c : ContextId)
    (ts : InterpreterId) : (t.ended c ts).own = { t.own with live := t.own.live - 1 } := by
  simp [own, ended, revised, Array.getElem_modify, placed]

theorem ended_open (found : t.row? c = some (ts, ref, closed)) :
    (t.ended c ts).Open c' ↔ t.Open c' ∧ c ≠ c' := by
  constructor
  · rintro ⟨ts', ref', h⟩
    rcases ended_found found h with ⟨-, -, -, never⟩ | ⟨other, entry⟩
    · cases never
    · exact ⟨⟨ts', ref', entry⟩, other⟩
  · rintro ⟨⟨ts', ref', h⟩, other⟩
    exact ⟨ts', ref', by rw [ended_entry found, if_neg other, h]⟩

theorem ended_closed (found : t.row? c = some (ts, ref, closed)) :
    (t.ended c ts).Closed c' ↔ t.Closed c' ∨ c = c' := by
  constructor
  · rintro ⟨ts', ref', h⟩
    rcases ended_found found h with ⟨same, -⟩ | ⟨-, entry⟩
    · exact .inr same
    · exact .inl ⟨ts', ref', entry⟩
  · intro h
    by_cases same : c = c'
    · exact ⟨ts, none, by rw [ended_entry found, if_pos same]⟩
    · obtain ⟨ts', ref', entry⟩ := h.resolve_right same
      exact ⟨ts', ref', by rw [ended_entry found, if_neg same, entry]⟩

/-- A list without repetitions gets shorter by one when an item is taken out. -/
theorem length_filter_ne {links : List (Nat × ContextId)} (once : (links.map (·.2)).Nodup)
    (mem : c ∈ links.map (·.2)) : (links.filter (·.2 != c)).length + 1 = links.length := by
  induction links with
  | nil => cases mem
  | cons link rest ih =>
    rw [List.map_cons, List.nodup_cons] at once
    by_cases same : link.2 = c
    · have others : rest.filter (·.2 != c) = rest := by
        refine List.filter_eq_self.2 fun link' hlink' => ?_
        have differs : link'.2 ≠ c := by
          rintro rfl
          exact once.1 (same ▸ List.mem_map.2 ⟨link', hlink', rfl⟩)
        simpa using differs
      rw [List.filter_cons_of_neg (by simpa using same), others, List.length_cons]
    · have later : c ∈ rest.map (·.2) :=
        (List.mem_cons.1 mem).resolve_left fun first => same first.symm
      rw [List.filter_cons_of_pos (by simpa using same), List.length_cons, List.length_cons,
        ih once.2 later]

/-- The links of an interpreter are the links to its context. -/
theorem Sound.unlinked (h : t.Sound) (found : t.row? c = some (ts, ref, false)) :
    (t.links.filter (·.1 != t.number ts)).length + 1 = t.links.length := by
  have linked : (t.number ts, c) ∈ t.links := (h.linked _ _).2 ⟨ts, ref, found, rfl⟩
  rw [← length_filter_ne h.once (List.mem_map.2 ⟨_, linked, rfl⟩)]
  congr 2
  refine List.filter_congr fun link hlink => ?_
  obtain ⟨ts', ref', entry, number⟩ := (h.linked link.1 link.2).1 hlink
  have same : link.1 = t.number ts ↔ link.2 = c := by
    constructor
    · intro same
      exact h.distinct entry found (number.symm.trans same)
    · intro same
      rw [same, found] at entry
      cases entry
      exact number
  rw [Bool.eq_iff_iff]
  simpa using not_congr same

theorem Sound.ended (h : t.Sound) (found : t.row? c = some (ts, ref, false))
    (off : c ∉ t.registry) : (t.ended c ts).Sound where
  runtime := by
    show t.runtime.place < (t.runtimes.modify _ _).size
    rw [Array.size_modify]
    exact h.runtime
  placed {c' ts' ref' closed'} entry := by
    obtain ⟨old, oldRef, entry'⟩ : ∃ old oldRef, t.row? c' = some (ts', oldRef, old) := by
      rcases ended_found found entry with ⟨same, rfl, -, -⟩ | ⟨-, entry'⟩
      · exact ⟨false, ref, same ▸ found⟩
      · exact ⟨closed', ref', entry'⟩
    obtain ⟨i, hi, number, runtime⟩ := h.placed entry'
    refine ⟨if ts.place = ts'.place then (i.1, i.2.1, none) else i, ?_, ?_, ?_⟩
    · simp only [Tracked.ended, Array.getElem?_modify]
      split <;> simp [hi]
    · rw [ended_own h.runtime]
      split <;> exact number
    · split <;> exact runtime
  distinct {c₁ c₂ ts₁ ts₂ ref₁ ref₂ closed₁ closed₂} entry₁ entry₂ same := by
    rw [ended_number, ended_number] at same
    rcases ended_found found entry₁ with ⟨rfl, rfl, -, -⟩ | ⟨-, entry₁'⟩
    · rcases ended_found found entry₂ with ⟨rfl, -⟩ | ⟨-, entry₂'⟩
      · rfl
      · exact h.distinct found entry₂' same
    · rcases ended_found found entry₂ with ⟨rfl, rfl, -, -⟩ | ⟨-, entry₂'⟩
      · exact h.distinct entry₁' found same
      · exact h.distinct entry₁' entry₂' same
  keeps entry := by
    rcases ended_found found entry with ⟨-, -, rfl, rfl⟩ | ⟨-, entry'⟩
    · rfl
    · exact h.keeps entry'
  linked n c' := by
    constructor
    · intro linked
      obtain ⟨old, other⟩ := List.mem_filter.1 linked
      obtain ⟨ts', ref', entry, number⟩ := (h.linked n c').1 old
      have differs : c ≠ c' := by
        rintro rfl
        rw [found] at entry
        cases entry
        simp [number] at other
      exact ⟨ts', ref', by rw [ended_entry found, if_neg differs, entry],
        by rw [ended_number, number]⟩
    · rintro ⟨ts', ref', entry, number⟩
      rw [ended_number] at number
      rcases ended_found found entry with ⟨-, -, -, never⟩ | ⟨differs, entry'⟩
      · cases never
      · refine List.mem_filter.2 ⟨(h.linked n c').2 ⟨ts', ref', entry', number⟩, ?_⟩
        have other : n ≠ t.number ts := fun same =>
          differs (h.distinct found entry' (same.symm.trans number))
        simpa using other
  once := h.once.sublist (List.filter_sublist.map _)
  registered c' hc' := by
    refine (ended_open found).2 ⟨h.registered c' hc', ?_⟩
    rintro rfl
    exact off hc'
  listed := h.listed
  live := by
    show (t.ended c ts).own.live =
      UInt64.ofNat (t.links.filter (·.1 != t.number ts)).length
    rw [ended_own h.runtime]
    show t.own.live - 1 = _
    rw [h.live, ← h.unlinked found, UInt64.ofNat_add]
    simp

/-! #### A beginning -/

theorem opened_entry (g : GlobalRef) (c' : ContextId) :
    (t.opened g).row? c' =
      if c' = ⟨t.contexts.size + 1⟩ then some (⟨t.interpreters.size⟩, some g, false)
      else t.row? c' := by
  match c' with
  | ⟨0⟩ => simp [row?]
  | ⟨n + 1⟩ => simp [row?, opened, Array.getElem?_push]

theorem entry_lt (found : t.row? c = some (ts, ref, closed)) : c ≠ ⟨t.contexts.size + 1⟩ := by
  rintro rfl
  simp [row?] at found

theorem opened_own (placed : t.runtime.place < t.runtimes.size) (g : GlobalRef) :
    (t.opened g).own =
      { t.own with nextNumber := t.own.nextNumber + 1, live := t.own.live + 1 } := by
  simp [own, opened, Array.getElem_modify, placed]

theorem opened_number (g : GlobalRef) (ts : InterpreterId) :
    (t.opened g).number ts =
      if ts.place = t.interpreters.size then t.own.nextNumber else t.number ts := by
  simp only [number, opened, Array.getElem?_push]
  split <;> rfl

theorem new_number (g : GlobalRef) :
    (t.opened g).number ⟨t.interpreters.size⟩ = t.own.nextNumber := by
  rw [opened_number, if_pos rfl]

/-- The number of a new interpreter is not taken. -/
theorem Sound.number_lt (h : t.Sound) (found : t.row? c = some (ts, ref, closed)) :
    ts.place < t.interpreters.size ∧ t.number ts < t.own.nextNumber := by
  obtain ⟨i, hi, number, -⟩ := h.placed found
  refine ⟨(Array.getElem?_eq_some_iff.1 hi).1, ?_⟩
  rw [Tracked.number, hi]
  exact number

theorem opened_found {g : GlobalRef} (h : (t.opened g).row? c' = some (ts', ref', closed')) :
    (c' = ⟨t.contexts.size + 1⟩ ∧ ts' = ⟨t.interpreters.size⟩ ∧ ref' = some g ∧ closed' = false) ∨
      t.row? c' = some (ts', ref', closed') := by
  rw [opened_entry] at h
  by_cases new : c' = ⟨t.contexts.size + 1⟩
  · rw [if_pos new] at h
    cases h
    exact .inl ⟨new, rfl, rfl, rfl⟩
  · rw [if_neg new] at h
    exact .inr h

theorem found_opened (g : GlobalRef) (h : t.row? c' = some (ts', ref', closed')) :
    (t.opened g).row? c' = some (ts', ref', closed') := by
  rw [opened_entry, if_neg (entry_lt h), h]

theorem new_opened (g : GlobalRef) :
    (t.opened g).row? ⟨t.contexts.size + 1⟩ = some (⟨t.interpreters.size⟩, some g, false) := by
  rw [opened_entry, if_pos rfl]

theorem opened_open (g : GlobalRef) :
    (t.opened g).Open c' ↔ t.Open c' ∨ c' = ⟨t.contexts.size + 1⟩ := by
  constructor
  · rintro ⟨ts', ref', h⟩
    rcases opened_found h with ⟨new, -⟩ | old
    · exact .inr new
    · exact .inl ⟨ts', ref', old⟩
  · rintro (⟨ts', ref', old⟩ | rfl)
    · exact ⟨ts', ref', found_opened g old⟩
    · exact ⟨_, _, new_opened g⟩

/-- No link is in the way of a new interpreter. -/
theorem Sound.opened_links (h : t.Sound) (g : GlobalRef) :
    (t.opened g).links = (t.own.nextNumber, ⟨t.contexts.size + 1⟩) :: t.links := by
  have others : t.links.filter (·.1 != t.own.nextNumber) = t.links := by
    refine List.filter_eq_self.2 fun link hlink => ?_
    obtain ⟨ts, ref, entry, number⟩ := (h.linked link.1 link.2).1 hlink
    have taken := (h.number_lt entry).2
    have differs : link.1 ≠ t.own.nextNumber := by omega
    simpa using differs
  rw [opened, others]

theorem Sound.opened_number (h : t.Sound) (found : t.row? c = some (ts, ref, closed))
    (g : GlobalRef) : (t.opened g).number ts = t.number ts := by
  rw [Tracked.opened_number, if_neg (Nat.ne_of_lt (h.number_lt found).1)]

theorem Sound.opened (h : t.Sound) (g : GlobalRef) : (t.opened g).Sound where
  runtime := by
    show t.runtime.place < (t.runtimes.modify _ _).size
    rw [Array.size_modify]
    exact h.runtime
  placed {c' ts' ref' closed'} entry := by
    rw [opened_own h.runtime]
    rcases opened_found entry with ⟨rfl, rfl, -, -⟩ | old
    · refine ⟨(t.own.nextNumber, t.runtime, none), ?_, Nat.lt_succ_self _, rfl⟩
      simp [Tracked.opened]
    · obtain ⟨i, hi, number, runtime⟩ := h.placed old
      refine ⟨i, ?_, Nat.lt_succ_of_lt number, runtime⟩
      have reach := (h.number_lt old).1
      simp only [Tracked.opened, Array.getElem?_push, if_neg (Nat.ne_of_lt reach), hi]
  distinct {c₁ c₂ ts₁ ts₂ ref₁ ref₂ closed₁ closed₂} entry₁ entry₂ same := by
    rcases opened_found entry₁ with ⟨rfl, rfl, -, -⟩ | old₁
    · rcases opened_found entry₂ with ⟨rfl, -⟩ | old₂
      · rfl
      · have taken := (h.number_lt old₂).2
        rw [new_number, h.opened_number old₂] at same
        omega
    · rcases opened_found entry₂ with ⟨rfl, rfl, -, -⟩ | old₂
      · have taken := (h.number_lt old₁).2
        rw [new_number, h.opened_number old₁] at same
        omega
      · rw [h.opened_number old₁, h.opened_number old₂] at same
        exact h.distinct old₁ old₂ same
  keeps entry := by
    rcases opened_found entry with ⟨-, -, rfl, rfl⟩ | old
    · rfl
    · exact h.keeps old
  linked n c' := by
    rw [h.opened_links, List.mem_cons]
    constructor
    · rintro (new | old)
      · cases new
        exact ⟨_, _, new_opened g, (new_number g).symm⟩
      · obtain ⟨ts', ref', entry, number⟩ := (h.linked n c').1 old
        exact ⟨ts', ref', found_opened g entry, by rw [h.opened_number entry, number]⟩
    · rintro ⟨ts', ref', entry, number⟩
      rcases opened_found entry with ⟨rfl, rfl, -, -⟩ | old
      · rw [new_number] at number
        exact .inl (by rw [number])
      · rw [h.opened_number old] at number
        exact .inr ((h.linked n c').2 ⟨ts', ref', old, number⟩)
  once := by
    rw [h.opened_links, List.map_cons, List.nodup_cons]
    refine ⟨fun mem => ?_, h.once⟩
    obtain ⟨⟨n, c'⟩, linked, rfl⟩ := List.mem_map.1 mem
    obtain ⟨ts', ref', entry, -⟩ := (h.linked n _).1 linked
    exact entry_lt entry rfl
  registered c' hc' := by
    rcases List.mem_append.1 hc' with old | new
    · exact (opened_open g).2 (.inl (h.registered c' old))
    · exact (opened_open g).2 (.inr (List.mem_singleton.1 new))
  listed := by
    refine List.nodup_append.2 ⟨h.listed, by simp, ?_⟩
    rintro c₁ old c₂ new rfl
    obtain ⟨ts', ref', entry⟩ := h.registered c₁ old
    exact entry_lt entry (List.mem_singleton.1 new)
  live := by
    rw [opened_own h.runtime, h.opened_links, List.length_cons, UInt64.ofNat_add]
    show t.own.live + 1 = _
    rw [h.live]
    rfl

/-! ### What is lost -/

/-- The books go on: contexts keep their interpreters, and what is closed stays closed. -/
structure Onward (t t' : Tracked) : Prop where
  runtime : t'.runtime = t.runtime
  states : t.contexts.toList.map (·.1) <+: t'.contexts.toList.map (·.1)
  closed : ∀ c, t.Closed c → t'.Closed c

namespace Onward

variable {t' t'' : Tracked}

theorem of_contexts (contexts : t'.contexts = t.contexts) (runtime : t'.runtime = t.runtime) :
    Onward t t' := by
  refine ⟨runtime, contexts ▸ List.prefix_refl _, ?_⟩
  rintro c ⟨ts, ref, entry⟩
  exact ⟨ts, ref, (entry_congr contexts c).trans entry⟩

theorem trans (h : Onward t t') (h' : Onward t' t'') : Onward t t'' :=
  ⟨h'.runtime.trans h.runtime, h.states.trans h'.states, fun c hc => h'.closed c (h.closed c hc)⟩

/-- A context keeps its interpreter. -/
theorem entry (h : Onward t t') (found : t.row? c = some (ts, ref, closed)) :
    ∃ ref' closed', t'.row? c = some (ts, ref', closed') := by
  match c with
  | ⟨0⟩ => cases found
  | ⟨n + 1⟩ =>
    have before : (t.contexts.toList.map (·.1))[n]? = some ts := by
      simpa [row?] using congrArg (Option.map (·.1)) found
    obtain ⟨rest, longer⟩ := h.states
    have reach : n < (t.contexts.toList.map (·.1)).length :=
      (List.getElem?_eq_some_iff.1 before).1
    have after : (t'.contexts.toList.map (·.1))[n]? = some ts := by
      rw [← longer, List.getElem?_append_left reach, before]
    rw [List.getElem?_map, Option.map_eq_some_iff] at after
    obtain ⟨⟨_, ref', closed'⟩, here, rfl⟩ := after
    exact ⟨ref', closed', by simpa [row?] using here⟩

end Onward

theorem lost_congr {t' : Tracked} (contexts : t'.contexts = t.contexts)
    (registry : t'.registry = t.registry) : t'.Lost ↔ t.Lost := by
  simp only [Lost, Open, entry_congr contexts, registry]

/-- A change of entries leaves the interpreters of contexts alone. -/
theorem revised_states (c : ContextId) (f : Option GlobalRef × Bool → Option GlobalRef × Bool) :
    (t.revised c f).contexts.toList.map (·.1) = t.contexts.toList.map (·.1) := by
  have same : (t.revised c f).contexts.map (·.1) = t.contexts.map (·.1) := by
    refine Array.ext (by simp [revised]) fun i _ _ => ?_
    simp only [revised, Array.getElem_map, Array.getElem_modify]
    split <;> rfl
  simpa using congrArg Array.toList same

theorem relet_lost (found : t.row? c = some (ts, ref, closed)) (g : GlobalRef) :
    (t.relet c g).Lost ↔ t.Lost := by
  constructor
  · rintro ⟨c', opened, off⟩
    exact ⟨c', (relet_open found g).1 opened, off⟩
  · rintro ⟨c', opened, off⟩
    exact ⟨c', (relet_open found g).2 opened, off⟩

theorem relet_onward (found : t.row? c = some (ts, ref, closed)) (g : GlobalRef) :
    Onward t (t.relet c g) := by
  refine ⟨rfl, ?_, ?_⟩
  · simp only [relet, revised_states, List.prefix_refl]
  · rintro c' ⟨ts', ref', entry⟩
    obtain ⟨new, entry'⟩ := found_relet found g entry
    exact ⟨ts', new, entry'⟩

theorem opened_lost (g : GlobalRef) : (t.opened g).Lost ↔ t.Lost := by
  constructor
  · rintro ⟨c', opened, off⟩
    have off' := fun mem : c' ∈ t.registry => off (List.mem_append_left _ mem)
    rcases (opened_open g).1 opened with old | rfl
    · exact ⟨c', old, off'⟩
    · exact (off (List.mem_append_right _ (List.mem_singleton.2 rfl))).elim
  · rintro ⟨c', old, off⟩
    refine ⟨c', (opened_open g).2 (.inl old), fun mem => ?_⟩
    obtain ⟨ts', ref', entry⟩ := old
    rcases List.mem_append.1 mem with listed | new
    · exact off listed
    · exact entry_lt entry (List.mem_singleton.1 new)

theorem opened_onward (g : GlobalRef) : Onward t (t.opened g) := by
  refine ⟨rfl, ?_, ?_⟩
  · simp [opened]
  · rintro c' ⟨ts', ref', entry⟩
    exact ⟨ts', ref', found_opened g entry⟩

theorem ended_onward (found : t.row? c = some (ts, ref, closed)) :
    Onward t (t.ended c ts) := by
  refine ⟨rfl, ?_, fun c' hc' => (ended_closed found).2 (.inl hc')⟩
  show _ <+: (t.revised c fun _ => (none, true)).contexts.toList.map (·.1)
  simp only [revised_states, List.prefix_refl]

/-- Closing a registered context loses nothing and finds nothing. -/
theorem closed_lost (found : t.row? c = some (ts, ref, closed)) (listed : c ∈ t.registry) :
    ((t.unlisted c).ended c ts).Lost ↔ t.Lost := by
  have same : ∀ c', (t.unlisted c).row? c' = t.row? c' := entry_congr rfl
  have found' : (t.unlisted c).row? c = some (ts, ref, closed) := (same c).trans found
  constructor
  · rintro ⟨c', opened, off⟩
    obtain ⟨opened', other⟩ := (ended_open found').1 opened
    obtain ⟨ts', ref', entry⟩ := opened'
    refine ⟨c', ⟨ts', ref', same c' ▸ entry⟩, fun mem => off (List.mem_filter.2 ⟨mem, ?_⟩)⟩
    simpa using fun equal : c' = c => other equal.symm
  · rintro ⟨c', opened, off⟩
    have other : c ≠ c' := by
      rintro rfl
      exact off listed
    obtain ⟨ts', ref', entry⟩ := opened
    exact ⟨c', (ended_open found').2 ⟨⟨ts', ref', (same c').trans entry⟩, other⟩,
      fun mem => off (List.mem_filter.1 mem).1⟩

end Tracked
end ScriptBridge
