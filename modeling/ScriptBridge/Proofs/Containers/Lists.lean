import Mathlib
import ScriptBridge.Proofs.Containers.Operations

/-!
# Lists of the library are sequences

A list of the library, driven from a script, answers as a sequence of texts and nothings does.
-/

namespace List.Forall₂

variable {α β : Type} {R : α → β → Prop} {l : List α} {l' : List β} {a : α} {b : β}

/-- Lists that correspond item by item have corresponding items at every place. -/
theorem getD (h : Forall₂ R l l') (i : Nat) (default : R a b) : R (l.getD i a) (l'.getD i b) := by
  induction h generalizing i with
  | nil => exact default
  | cons head _ ih =>
    cases i with
    | zero => exact head
    | succ i => exact ih i

theorem set (h : Forall₂ R l l') (item : R a b) (i : Nat) :
    Forall₂ R (l.set i a) (l'.set i b) := by
  induction h generalizing i with
  | nil => exact .nil
  | cons head rest ih =>
    cases i with
    | zero => exact .cons item rest
    | succ i => exact .cons head (ih i)

end List.Forall₂

namespace ScriptBridge.Bridge

open Host (ClassId ObjectId Realm Method HostM BodyM Bodies LibraryMethod)
open Script (InterpreterId Foreign Fault)

variable {s : Realm} {w v : World} {o : ObjectId} {ts : InterpreterId} {f : Foreign}
  {items : List (Option String)} {item : Option String} {x : Host.Value} {place : Nat}
  {entry : ProtocolEntry} {bodies : Bodies World}

/-! ### Sequences -/

/-- The position that an index addresses in a sequence: it counts from the end if it is negative. -/
def address (i : Int) (n : Nat) : Option Nat :=
  if 0 ≤ i ∧ i < n then some i.toNat
  else if -n ≤ i ∧ i < 0 then some (i + n).toNat
  else none

theorem position?_eq (i : Int) (n : Nat) : Script.position? i n = address i n := by
  unfold Script.position? address
  by_cases negative : i < 0
  · have first : ¬(0 ≤ i ∧ i < n) := by omega
    have second : (0 ≤ i + n ∧ i + n < n) ↔ (-n ≤ i ∧ i < 0) := by omega
    simp only [if_pos negative, if_neg first, second]
  · have first : ¬(-n ≤ i ∧ i < 0) := by omega
    simp only [if_neg negative, if_neg first]

theorem address_lt {i : Int} {n : Nat} (h : address i n = some place) : place < n := by
  unfold address at h
  split at h
  · cases h
    omega
  · split at h
    · cases h
      omega
    · cases h

/-- What an operation on a sequence answers, and the sequence afterwards. -/
def listStep (op : Operation Index) (items : List (Option String)) :
    Answer × List (Option String) :=
  match op with
  | .fetch i =>
    match address i.whole (counted items.length) with
    | some place => (.ok (scriptItem (items.getD place none)), items)
    | none => (.error (.builtin .index), items)
  | .store i item =>
    match address i.whole (counted items.length) with
    | some place => (.ok .none, items.set place item)
    | none => (.error (.builtin .index), items)
  | .member item => (.ok (.bool (decide (item ∈ items))), items)
  | .count => (.ok (.int (.ofNat (counted items.length))), items)
  | .own item => (.ok (.bool true), items ++ [item])

/-! ### Lists in the Host -/

def arrayListName : String := "java.util.ArrayList"

def listCalls : List Call :=
  [⟨"size", .listSize, [], "int"⟩, ⟨"contains", .listContains, [Host.objectName], "boolean"⟩,
    ⟨"get", .listGet, ["int"], Host.objectName⟩,
    ⟨"set", .listSet, ["int", Host.objectName], Host.objectName⟩]

def listOwn : Call := ⟨"add", .listAdd, [Host.objectName], "boolean"⟩

/-- A script holds a list, which stands for a sequence. -/
structure World.HoldsList (s : Realm) (ts : InterpreterId) (f : Foreign) (o : ObjectId)
    (items : List (Option String)) (w : World) : Prop
    extends World.Holding s arrayListName ts f o w where
  stored : ∃ values, w.outside.realm.payload o = .list values ∧
    List.Forall₂ (Stores s w.outside.realm) items values

namespace World.HoldsList

theorem serves (h : w.HoldsList s ts f o items) (later : Serves s w v) :
    v.HoldsList s ts f o items := by
  obtain ⟨values, payload, stored⟩ := h.stored
  have kept := later.realm.payloads o h.belongs.held
  rw [payload] at kept
  exact ⟨h.toHolding.serves later, values, kept, stored.imp fun _ _ stores =>
    stores.grows later.realm⟩

/-- The list may come to hold something else. -/
theorem storing (h : w.HoldsList s ts f o items) {items' : List (Option String)}
    {values : List Host.Value} (stored : List.Forall₂ (Stores s w.outside.realm) items' values) :
    (w.storing o (.list values)).HoldsList s ts f o items' := by
  obtain ⟨old, payload, -⟩ := h.stored
  have before : Items (w.outside.realm.payload o) = true := by rw [payload]; rfl
  exact ⟨h.toHolding.storing before rfl, values, h.payload_storing,
    stored.imp fun _ _ stores => stores.storing before⟩

end World.HoldsList

/-! ### Methods of lists -/

theorem listOf_run {values : List Host.Value} (payload : w.outside.realm.payload o = .list values) :
    (Host.listOf (some o) : BodyM World _) w = .ok (o, values) w :=
  contents_run (by rw [payload]; rfl)

/-- A position that a script gives is read as it was given. -/
theorem wholeArgument_place (small : place < 2 ^ 31) (rest : List Host.Value) :
    (Host.wholeArgument (.int (Int64.ofNat place).toInt32 :: rest) 0 (-1)).toInt = place := by
  show (Int64.ofNat place).toInt32.toInt64.toInt = place
  rw [Int32.toInt_toInt64, Int64.toInt_toInt32, Int64.toInt_ofNat_of_lt (by omega), Int.bmod_def]
  split <;> omega

theorem placeIn_run {index : Int64} (whole : index.toInt = place) {size : Nat}
    (inside : place < size) : (Host.placeIn index size : BodyM World Nat) w = .ok place w := by
  unfold Host.placeIn
  rw [if_pos (by omega), whole]
  rfl

section

variable (h : w.HoldsList s ts f o items)

include h

theorem listSize_run (below : Bodies World) :
    LibraryMethod.listSize.run below (some o) [] w = .ok (.int (.ofNat items.length)) w := by
  obtain ⟨values, payload, stored⟩ := h.stored
  rw [stored.length_eq]
  exact bind_ok (listOf_run payload)

theorem listContains_run (passing : Passing s)
    (callback : Host.Callback → BodyM World Host.Value) (below : Unit → Bodies World)
    (wanted : Stores s w.outside.realm item x) :
    LibraryMethod.listContains.run (.over callback below) (some o) [x] w =
      .ok (.boolean (decide (item ∈ items))) w := by
  obtain ⟨values, payload, stored⟩ := h.stored
  have found := findItem_run passing h.toEquipped callback below stored wanted 0
  refine (bind_ok (listOf_run payload)).trans ((bind_ok found).trans ?_)
  have isSome : (((items.idxOf? item).map (0 + ·)).isSome : Bool) = decide (item ∈ items) := by
    rw [Option.isSome_map, Bool.eq_iff_iff, List.isSome_idxOf?, decide_eq_true_iff]
  rw [isSome]
  rfl

theorem listGet_run (inside : place < items.length) (small : place < 2 ^ 31)
    (below : Bodies World) : ∃ y,
    LibraryMethod.listGet.run below (some o) [.int (Int64.ofNat place).toInt32] w = .ok y w ∧
      Stores s w.outside.realm (items.getD place none) y := by
  obtain ⟨values, payload, stored⟩ := h.stored
  have placed := placeIn_run (w := w) (wholeArgument_place small []) (stored.length_eq ▸ inside)
  refine ⟨values.getD place .null, (bind_ok (listOf_run payload)).trans (bind_ok placed), ?_⟩
  exact stored.getD place .nothing

theorem listSet_run (inside : place < items.length) (small : place < 2 ^ 31)
    (stores : Stores s w.outside.realm item x) (below : Bodies World) : ∃ y v,
    LibraryMethod.listSet.run below (some o) [.int (Int64.ofNat place).toInt32, x] w = .ok y v ∧
      v.HoldsList s ts f o (items.set place item) ∧
      Stores s v.outside.realm (items.getD place none) y := by
  obtain ⟨values, payload, stored⟩ := h.stored
  have placed := placeIn_run (w := w) (wholeArgument_place small [x]) (stored.length_eq ▸ inside)
  refine ⟨values.getD place .null, _,
    (bind_ok (listOf_run payload)).trans ((bind_ok placed).trans rfl),
    h.storing (stored.set stores place), ?_⟩
  exact (stored.getD place .nothing).storing (by rw [payload]; rfl)

theorem listAdd_run (stores : Stores s w.outside.realm item x) (below : Bodies World) : ∃ v,
    LibraryMethod.listAdd.run below (some o) [x] w = .ok (.boolean true) v ∧
      v.HoldsList s ts f o (items ++ [item]) := by
  obtain ⟨values, payload, stored⟩ := h.stored
  exact ⟨_, (bind_ok (listOf_run payload)).trans rfl,
    h.storing (List.rel_append stored (.cons stores .nil))⟩

end

/-! ### Lists driven from scripts -/

section

variable {body : InterpreterId → Script.Scope → Syntax.Expr → BridgeM Script.Value}
  {i : Index}

variable (passing : Passing s) (container : ContainerOf s arrayListName listCalls listOwn entry)
  (protocol : entry.protocol = .list) (answering : Answering bodies)

include passing container answering

theorem listLength_run (h : w.HoldsList s ts f o items) :
    ∃ v : World, entry.length bodies ts o w = .ok (some (counted items.length)) v ∧
      Serves s w v :=
  length_run passing container h.toHolding answering List.mem_cons_self rfl rfl rfl
    fun below _ later => listSize_run (h.serves later) below

theorem listIndex_run (h : w.HoldsList s ts f o items)
    (inside : address i.whole (counted items.length) = some place) :
    ∃ v, entry.listIndex bodies ts o i.value w = .ok (.int (.ofNat place)) v ∧ Serves s w v := by
  obtain ⟨v, counts, later⟩ := listLength_run passing container answering h
  have resolved : (Script.resolveIndex ts i.value (counted items.length) : BridgeM Nat) v =
      .ok place v := by
    unfold Script.resolveIndex
    rw [i.reads]
    dsimp only
    rw [position?_eq, inside]
    rfl
  exact ⟨v, (bind_ok counts).trans (bind_ok resolved), later⟩

theorem listIndex_gives (h : w.HoldsList s ts f o items)
    (outside : address i.whole (counted items.length) = none) :
    ∃ v, Gives ts (entry.listIndex bodies ts o i.value) w (.error (.builtin .index)) v ∧
      Serves s w v := by
  obtain ⟨v, counts, later⟩ := listLength_run passing container answering h
  have resolved : Script.resolveIndex ts i.value (counted items.length) v =
      (Script.raise ts .indexRange : BridgeM Nat) v := by
    unfold Script.resolveIndex
    rw [i.reads]
    dsimp only
    rw [position?_eq, outside]
  have raised : Gives ts (Script.resolveIndex ts i.value (counted items.length)) v
      (.error (.builtin .index)) (v.withError ts fun _ => none) :=
    .of_eq resolved (.raise (h.serves later).made Fault.indexRange.exception)
  exact ⟨_, .after counts (.fails raised), later.trans (.withError later.equipped ts none)⟩

include protocol

theorem listGet_gives (h : w.HoldsList s ts f o items) :
    ∃ v, Gives ts (entry.getItem bodies ts o i.value) w ((listStep (.fetch i) items).1.map some) v ∧
      Serves s w v := by
  have unfolded : entry.getItem bodies ts o i.value =
      (do entry.call bodies ts o "get" [← entry.listIndex bodies ts o i.value]) := by
    unfold ProtocolEntry.getItem
    rw [protocol]
  rw [unfolded]
  unfold listStep
  dsimp only
  cases addressed : address i.whole (counted items.length) with
  | none =>
    obtain ⟨v, raised, later⟩ := listIndex_gives passing container answering h addressed
    exact ⟨v, .fails raised, later⟩
  | some place =>
    obtain ⟨u, resolved, later⟩ := listIndex_run passing container answering h addressed
    have inside := address_lt addressed
    have held := h.serves later
    obtain ⟨callback, callback', below, rfl⟩ := answering
    obtain ⟨m, drives, calls⟩ := container.call ts
      (show ⟨"get", .listGet, ["int"], Host.objectName⟩ ∈ listCalls by simp [listCalls])
    have params : ["int"] = [Argument.place place].map Argument.typeName := rfl
    have runs : ∀ xs (v : World), Serves s u v →
        List.Forall₂ (Passed s v.outside.realm) [.place place] xs → ∃ answer x,
          LibraryMethod.listGet.run (.over callback' below) (some o) xs v = .ok answer x ∧
            x.Equipped s ∧ Stores s x.outside.realm (items.getD place none) answer ∧
            Serves s u x := by
      rintro xs v later (_ | ⟨⟨⟩ , ⟨⟩⟩)
      obtain ⟨y, ran, stores⟩ := listGet_run (held.serves later)
        (Nat.lt_of_lt_of_le inside (counted_le _)) (Nat.lt_trans inside (counted_lt _)) _
      exact ⟨y, v, ran, later.equipped, stores, later⟩
    obtain ⟨u', v, along, last, invoked⟩ := invoke_item ts passing held.toEquipped held.belongs
      drives params callback (fun _ => .over callback' below) rfl runs
    refine ⟨v, .after resolved ?_, (later.trans along).trans last⟩
    rw [calls]
    exact bind_ok invoked

theorem listSet_gives (h : w.HoldsList s ts f o items) (item : Option String) :
    ∃ v : World, Gives ts (entry.setItem bodies ts o i.value (scriptItem item)) w
        ((listStep (.store i item) items).1.map fun _ => true) v ∧
      v.HoldsList s ts f o (listStep (.store i item) items).2 ∧
      ((listStep (.store i item) items).1 ≠ .ok .none → Serves s w v) := by
  have unfolded : entry.setItem bodies ts o i.value (scriptItem item) = (do
      let index ← entry.listIndex bodies ts o i.value
      return (← entry.call bodies ts o "set" [index, scriptItem item]).isSome) := by
    unfold ProtocolEntry.setItem
    rw [protocol]
  rw [unfolded]
  unfold listStep
  dsimp only
  cases addressed : address i.whole (counted items.length) with
  | none =>
    obtain ⟨v, raised, later⟩ := listIndex_gives passing container answering h addressed
    exact ⟨v, .fails raised, h.serves later, fun _ => later⟩
  | some place =>
    obtain ⟨u, resolved, later⟩ := listIndex_run passing container answering h addressed
    have inside := address_lt addressed
    have held := h.serves later
    obtain ⟨callback, callback', below, rfl⟩ := answering
    obtain ⟨m, drives, calls⟩ := container.call ts (show
      ⟨"set", .listSet, ["int", Host.objectName], Host.objectName⟩ ∈ listCalls by simp [listCalls])
    have params : ["int", Host.objectName] =
      [Argument.place place, .item item].map Argument.typeName := rfl
    have runs : ∀ xs (v : World), Serves s u v →
        List.Forall₂ (Passed s v.outside.realm) [.place place, .item item] xs → ∃ answer x,
          LibraryMethod.listSet.run (.over callback' below) (some o) xs v = .ok answer x ∧
            x.Equipped s ∧ Stores s x.outside.realm (items.getD place none) answer ∧
            x.HoldsList s ts f o (items.set place item) := by
      rintro xs v later (_ | ⟨⟨⟩, _ | ⟨⟨stores⟩, ⟨⟩⟩⟩)
      obtain ⟨y, x, ran, holds, old⟩ := listSet_run (held.serves later)
        (Nat.lt_of_lt_of_le inside (counted_le _)) (Nat.lt_trans inside (counted_lt _)) stores _
      exact ⟨y, x, ran, holds.toEquipped, old, holds⟩
    obtain ⟨x, v, holds, last, invoked⟩ := invoke_item ts passing held.toEquipped held.belongs
      drives params callback (fun _ => .over callback' below) rfl runs
    have called : entry.call (.over callback fun _ => .over callback' below) ts o "set"
        [.int (.ofNat place), scriptItem item] u =
        .ok (some (scriptItem (items.getD place none))) v := by
      rw [calls]
      exact bind_ok invoked
    exact ⟨v, (bind_ok resolved).trans (bind_ok called), holds.serves last,
      fun fails => absurd rfl fails⟩

omit protocol

omit container in
theorem listOwn_run (h : w.HoldsList s ts f o items) (item : Option String) {m : Method}
    (drives : Drives s (s.require arrayListName) listOwn m) :
    ∃ v : World, invoke bodies ts (some o) m [scriptItem item] w = .ok (.bool true) v ∧
      v.HoldsList s ts f o (items ++ [item]) := by
  obtain ⟨callback, callback', below, rfl⟩ := answering
  have params : [Host.objectName] = [Argument.item item].map Argument.typeName := rfl
  have runs : ∀ xs (v : World), Serves s w v →
      List.Forall₂ (Passed s v.outside.realm) [.item item] xs → ∃ x : World,
        LibraryMethod.listAdd.run (.over callback' below) (some o) xs v = .ok (.boolean true) x ∧
          x.Equipped s ∧ x.HoldsList s ts f o (items ++ [item]) := by
    rintro xs v later (_ | ⟨⟨stores⟩, ⟨⟩⟩)
    obtain ⟨x, ran, holds⟩ := listAdd_run (h.serves later) stores _
    exact ⟨x, ran, holds.toEquipped, holds⟩
  obtain ⟨x, v, holds, last, invoked⟩ := invoke_primitive ts passing h.toEquipped h.belongs
    drives params callback (fun _ => .over callback' below) passing.boolean nofun rfl runs
  exact ⟨v, invoked, holds.serves last⟩

theorem listMember_run (protocol : entry.protocol = .list) (h : w.HoldsList s ts f o items)
    (item : Option String) :
    ∃ v, entry.contains bodies ts o (scriptItem item) w = .ok (some (decide (item ∈ items))) v ∧
      Serves s w v :=
  contains_run passing container h.toHolding answering
    (show ⟨"contains", .listContains, [Host.objectName], "boolean"⟩ ∈ listCalls by simp [listCalls])
    (by rw [protocol]; rfl) rfl rfl fun callback below _ _ later stores =>
      listContains_run (h.serves later) passing callback below stores

/-- Every operation on a list answers as on the sequence that it stands for, and one that fails
changes nothing. -/
theorem list_step (protocol : entry.protocol = .list) (h : w.HoldsList s ts f o items)
    (op : Operation Index) :
    ∃ v : World, Gives ts (op.perform Index.value listOwn.name (engine bodies body) ts (.foreign f))
        w (listStep op items).1 v ∧
      v.HoldsList s ts f o (listStep op items).2 ∧
      ∀ type, (listStep op items).1 = .error type →
        w.outside.realm.Grows v.outside.realm := by
  cases op with
  | fetch i =>
    have same : (listStep (.fetch i) items).2 = items := by
      unfold listStep
      dsimp only
      cases address i.whole (counted items.length) <;> rfl
    rw [same]
    refine fetch_gives passing container h.toHolding fun u later => ?_
    obtain ⟨v, gives, last⟩ := listGet_gives passing container protocol answering (h.serves later)
    have serves := later.trans last
    exact ⟨v, gives, h.serves serves, fun _ _ => serves.realm⟩
  | store i item =>
    have silent : (listStep (.store i item) items).1.map (fun _ => .none) =
        (listStep (.store i item) items).1 := by
      unfold listStep
      dsimp only
      cases address i.whole (counted items.length) <;> rfl
    refine store_gives passing container h.toHolding silent fun u later => ?_
    obtain ⟨v, gives, holds, unchanged⟩ :=
      listSet_gives passing container protocol answering (h.serves later) item
    refine ⟨v, gives, holds, fun type failed => (later.trans (unchanged ?_)).realm⟩
    rw [failed]
    exact nofun
  | member item =>
    refine member_run passing container h.toHolding fun u later => ?_
    obtain ⟨v, ran, last⟩ := listMember_run passing container answering protocol (h.serves later) item
    have serves := later.trans last
    exact ⟨v, ran, h.serves serves, fun _ _ => serves.realm⟩
  | count =>
    refine count_run passing container h.toHolding fun u later => ?_
    obtain ⟨v, ran, last⟩ := listLength_run passing container answering (h.serves later)
    have serves := later.trans last
    exact ⟨v, ran, h.serves serves, fun _ _ => serves.realm⟩
  | own item =>
    refine own_run passing container h.toHolding (fun _ _ => rfl) fun m u drives later => ?_
    obtain ⟨v, ran, holds⟩ := listOwn_run passing answering (h.serves later) item drives
    exact ⟨v, ran, holds, nofun⟩

end

end ScriptBridge.Bridge
