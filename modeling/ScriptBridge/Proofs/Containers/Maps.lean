import ScriptBridge.Proofs.Containers.Entries

/-!
# Maps of the library are finite maps

A map of the library keeps its entries in a list and compares keys one by one with the equality of
the Host. Driven from a script, it answers as a finite map from texts and nothings does: no two
entries ever have equal keys.
-/

namespace ScriptBridge.Bridge

open Host (ClassId ObjectId Realm Method HostM BodyM Bodies LibraryMethod)
open Script (InterpreterId Foreign)

variable {s r : Realm} {w v : World} {o : ObjectId} {ts : InterpreterId} {f : Foreign}
  {key item : Option String} {x y : Host.Value} {i : Nat}
  {pairs : List (Option String × Option String)} {entries : List (Host.Value × Host.Value)}
  {entry : ProtocolEntry} {bodies : Bodies World}

/-! ### Finite maps -/

/-- A finite map from texts and nothing to texts and nothing. -/
abbrev ItemMap := Finmap fun _ : Option String => Option String

variable {m : ItemMap}

/-- What an operation on a finite map answers, and the map afterwards. -/
def mapStep (op : Operation (Option String)) (m : ItemMap) : Answer × ItemMap :=
  match op with
  | .fetch key =>
    match m.lookup key with
    | some item => (.ok (scriptItem item), m)
    | none => (.error (.builtin .key), m)
  | .store key item => (.ok .none, m.insert key item)
  | .member key => (.ok (.bool (m.lookup key).isSome), m)
  | .count => (.ok (.int (.ofNat (counted m.keys.card))), m)
  | .own key => (.ok (scriptItem (m.lookup key).join), m.erase key)

/-! ### Maps in the Host -/

def hashMapName : String := "java.util.HashMap"

def mapCalls : List Call :=
  [⟨"size", .mapSize, [], "int"⟩, ⟨"containsKey", .mapContainsKey, [Host.objectName], "boolean"⟩,
    ⟨"get", .mapGet, [Host.objectName], Host.objectName⟩,
    ⟨"put", .mapPut, [Host.objectName, Host.objectName], Host.objectName⟩]

def mapOwn : Call := ⟨"remove", .mapRemove, [Host.objectName], Host.objectName⟩

/-- Entries of the Host stand for the entries of a finite map, each for another one. -/
structure Represents (s r : Realm) (m : ItemMap) (pairs : List (Option String × Option String))
    (entries : List (Host.Value × Host.Value)) : Prop where
  stored : List.Forall₂ (fun p e => Stores s r p.1 e.1 ∧ Stores s r p.2 e.2) pairs entries
  distinct : (pairs.map Prod.fst).Nodup
  agrees : ∀ k, m.lookup k = pairs.lookup k

namespace Represents

theorem pairing (h : Represents s r m pairs entries) :
    Pairing (Stores s r) (Stores s r) m pairs entries := ⟨h.stored, h.distinct, h.agrees⟩

theorem of_pairing (h : Pairing (Stores s r) (Stores s r) m pairs entries) :
    Represents s r m pairs entries := ⟨h.stored, h.distinct, h.agrees⟩

theorem keys (h : Represents s r m pairs entries) :
    List.Forall₂ (Stores s r) (pairs.map Prod.fst) (entries.map Prod.fst) := h.pairing.keys

theorem imp (h : Represents s r m pairs entries) {r' : Realm}
    (keeps : ∀ item x, Stores s r item x → Stores s r' item x) :
    Represents s r' m pairs entries := .of_pairing (h.pairing.imp keeps keeps)

end Represents

/-- A script holds a map, which stands for a finite map. -/
structure World.HoldsMap (s : Realm) (ts : InterpreterId) (f : Foreign) (o : ObjectId)
    (m : ItemMap) (w : World) : Prop extends World.Holding s hashMapName ts f o w where
  stored : ∃ pairs entries, w.outside.realm.payload o = .map entries ∧
    Represents s w.outside.realm m pairs entries

namespace World.HoldsMap

theorem serves (h : w.HoldsMap s ts f o m) (later : Serves s w v) : v.HoldsMap s ts f o m := by
  obtain ⟨pairs, entries, payload, stands⟩ := h.stored
  have kept := later.realm.payloads o h.belongs.held
  rw [payload] at kept
  exact ⟨h.toHolding.serves later, pairs, entries, kept, stands.imp fun _ _ stores =>
    stores.grows later.realm⟩

/-- The map may come to hold other entries. -/
theorem storing (h : w.HoldsMap s ts f o m) {m' : ItemMap}
    (stands : Represents s w.outside.realm m' pairs entries) :
    (w.storing o (.map entries)).HoldsMap s ts f o m' := by
  obtain ⟨_, old, payload, -⟩ := h.stored
  have before : Items (w.outside.realm.payload o) = true := by rw [payload]; rfl
  exact ⟨h.toHolding.storing before rfl, pairs, entries, h.payload_storing,
    stands.imp fun _ _ stores => stores.storing before⟩

end World.HoldsMap

/-! ### Methods of maps -/

/-- What stands for the item under a key, or for nothing, stands for what is found there. -/
theorem Under.stores {found : Option (Option String)} (h : Under (Stores s r) found y) :
    Stores s r found.join y := by
  cases found with
  | none =>
    have none : y = .null := h
    rw [none]
    exact .nothing
  | some item => exact h

section

variable (passing : Passing s) (h : w.HoldsMap s ts f o m)
  (callback : Host.Callback → BodyM World Host.Value) (below : Unit → Bodies World)

include h

theorem mapSize_run (bodies : Bodies World) :
    LibraryMethod.mapSize.run bodies (some o) [] w = .ok (.int (.ofNat m.keys.card)) w := by
  obtain ⟨pairs, entries, payload, stands⟩ := h.stored
  rw [stands.pairing.card]
  exact bind_ok (mapOf_run payload)

include passing

/-- The equality of the Host tells texts and nothing apart. -/
theorem tells_items (wanted : Stores s w.outside.realm key x) (k : Option String) (x' : Host.Value)
    (stores : Stores s w.outside.realm k x') :
    Host.sameItem (.over callback below) x' x w = .ok (k == key) w :=
  sameItem_run passing h.toEquipped callback below stores wanted

theorem mapContainsKey_run (wanted : Stores s w.outside.realm key x) :
    LibraryMethod.mapContainsKey.run (.over callback below) (some o) [x] w =
      .ok (.boolean (m.lookup key).isSome) w := by
  obtain ⟨pairs, entries, payload, stands⟩ := h.stored
  exact stands.pairing.mapContainsKey_run payload (tells_items passing h callback below wanted)

theorem mapGet_run (wanted : Stores s w.outside.realm key x) : ∃ y,
    LibraryMethod.mapGet.run (.over callback below) (some o) [x] w = .ok y w ∧
      Stores s w.outside.realm (m.lookup key).join y := by
  obtain ⟨pairs, entries, payload, stands⟩ := h.stored
  obtain ⟨y, ran, under⟩ :=
    stands.pairing.mapGet_run payload (tells_items passing h callback below wanted)
  exact ⟨y, ran, under.stores⟩

theorem mapPut_run (wanted : Stores s w.outside.realm key x)
    (stores : Stores s w.outside.realm item y) : ∃ (old : Host.Value) (v : World),
    LibraryMethod.mapPut.run (.over callback below) (some o) [x, y] w = .ok old v ∧
      v.HoldsMap s ts f o (m.insert key item) ∧
      Stores s v.outside.realm (m.lookup key).join old := by
  obtain ⟨pairs, entries, payload, stands⟩ := h.stored
  have before : Items (w.outside.realm.payload o) = true := by rw [payload]; rfl
  obtain ⟨old, _, _, ran, stands, under⟩ := stands.pairing.mapPut_run payload
    (tells_items passing h callback below wanted) wanted stores
  exact ⟨old, _, ran, h.storing (.of_pairing stands), under.stores.storing before⟩

theorem mapRemove_run (wanted : Stores s w.outside.realm key x) :
    ∃ (old : Host.Value) (v : World),
      LibraryMethod.mapRemove.run (.over callback below) (some o) [x] w = .ok old v ∧
        v.HoldsMap s ts f o (m.erase key) ∧
        Stores s v.outside.realm (m.lookup key).join old := by
  obtain ⟨pairs, entries, payload, stands⟩ := h.stored
  have before : Items (w.outside.realm.payload o) = true := by rw [payload]; rfl
  obtain ⟨old, v, pairs', _, ran, ⟨rfl, rfl⟩ | rfl, stands, under⟩ := stands.pairing.mapRemove_run
    payload (tells_items passing h callback below wanted)
  · exact ⟨old, _, ran, ⟨h.toHolding, pairs', _, payload, .of_pairing stands⟩, under.stores⟩
  · exact ⟨old, _, ran, h.storing (.of_pairing stands), under.stores.storing before⟩

end

/-! ### Maps driven from scripts -/

theorem printedText_item (bodies : Bodies World) (ts : InterpreterId) (item : Option String) :
    ∃ text, printedText bodies ts (scriptItem item) = pure text := by
  cases item with
  | none => exact ⟨_, rfl⟩
  | some text => exact ⟨_, rfl⟩

section

variable {body : InterpreterId → Script.Scope → Syntax.Expr → BridgeM Script.Value}

variable (passing : Passing s) (container : ContainerOf s hashMapName mapCalls mapOwn entry)
  (protocol : entry.protocol = .map) (answering : Answering bodies)

include passing container answering

theorem mapLength_run (h : w.HoldsMap s ts f o m) :
    ∃ v : World, entry.length bodies ts o w = .ok (some (counted m.keys.card)) v ∧
      Serves s w v :=
  length_run passing container h.toHolding answering List.mem_cons_self rfl rfl rfl
    fun below _ later => mapSize_run (h.serves later) below

theorem mapMember_run (protocol : entry.protocol = .map) (h : w.HoldsMap s ts f o m)
    (key : Option String) :
    ∃ v, entry.contains bodies ts o (scriptItem key) w = .ok (some (m.lookup key).isSome) v ∧
      Serves s w v :=
  contains_run passing container h.toHolding answering
    (show ⟨"containsKey", .mapContainsKey, [Host.objectName], "boolean"⟩ ∈ mapCalls by
      simp [mapCalls])
    (by rw [protocol]; rfl) rfl rfl fun callback below _ _ later stores =>
      mapContainsKey_run passing (h.serves later) callback below stores

/-- The value under a key, or nothing if there is none. -/
theorem mapFind_run (h : w.HoldsMap s ts f o m) (key : Option String) :
    ∃ v, entry.call bodies ts o "get" [scriptItem key] w =
        .ok (some (scriptItem (m.lookup key).join)) v ∧
      Serves s w v := by
  obtain ⟨callback, callback', below, rfl⟩ := answering
  obtain ⟨method, drives, calls⟩ := container.call ts
    (show ⟨"get", .mapGet, [Host.objectName], Host.objectName⟩ ∈ mapCalls by simp [mapCalls])
  have params : [Host.objectName] = [Argument.item key].map Argument.typeName := rfl
  have runs : ∀ xs (v : World), Serves s w v →
      List.Forall₂ (Passed s v.outside.realm) [.item key] xs → ∃ answer x,
        LibraryMethod.mapGet.run (.over callback' below) (some o) xs v = .ok answer x ∧
          x.Equipped s ∧ Stores s x.outside.realm (m.lookup key).join answer ∧
          Serves s w x := by
    rintro xs v later (_ | ⟨⟨wanted⟩, ⟨⟩⟩)
    obtain ⟨y, ran, stores⟩ := mapGet_run passing (h.serves later) callback' below wanted
    exact ⟨y, v, ran, later.equipped, stores, later⟩
  obtain ⟨u, v, along, last, invoked⟩ := invoke_item ts passing h.toEquipped h.belongs
    drives params callback (fun _ => .over callback' below) rfl runs
  refine ⟨v, ?_, along.trans last⟩
  rw [calls]
  exact bind_ok invoked

include protocol

/-- A stored nothing is told from a missing key by asking whether the map contains the key. -/
theorem mapItem_gives (h : w.HoldsMap s ts f o m) (key : Option String) :
    ∃ v, Gives ts (entry.getItem bodies ts o (scriptItem key)) w
        ((mapStep (.fetch key) m).1.map some) v ∧
      Serves s w v := by
  have unfolded : entry.getItem bodies ts o (scriptItem key) =
      entry.mapItem bodies ts o (scriptItem key) := by
    unfold ProtocolEntry.getItem
    rw [protocol]
  rw [unfolded]
  unfold ProtocolEntry.mapItem mapStep
  dsimp only
  obtain ⟨u, got, later⟩ := mapFind_run passing container answering h key
  obtain ⟨v, asked, last⟩ :=
    mapMember_run passing container answering protocol (h.serves later) key
  have serves := later.trans last
  cases value : m.lookup key with
  | some item =>
    rw [value] at got asked
    cases item with
    | some text => exact ⟨u, .after got rfl, later⟩
    | none => exact ⟨v, .after got (.after asked rfl), serves⟩
  | none =>
    rw [value] at got asked
    obtain ⟨text, printed⟩ := printedText_item bodies ts key
    have raised := Gives.raise (α := PUnit) (h.serves serves).made
      { type := .builtin .key, message := some text }
    have said : printedText bodies ts (scriptItem key) v = .ok text v := by
      rw [printed]
      rfl
    exact ⟨_, .after got (.after asked (.after said (.fails raised))),
      serves.trans (.withError serves.equipped ts none)⟩

theorem mapPut_gives (h : w.HoldsMap s ts f o m) (key item : Option String) :
    ∃ v : World, entry.setItem bodies ts o (scriptItem key) (scriptItem item) w = .ok true v ∧
      v.HoldsMap s ts f o (m.insert key item) := by
  have unfolded : entry.setItem bodies ts o (scriptItem key) (scriptItem item) = (do
      return (← entry.call bodies ts o "put" [scriptItem key, scriptItem item]).isSome) := by
    unfold ProtocolEntry.setItem
    rw [protocol]
  rw [unfolded]
  obtain ⟨callback, callback', below, rfl⟩ := answering
  obtain ⟨method, drives, calls⟩ := container.call ts (show
    ⟨"put", .mapPut, [Host.objectName, Host.objectName], Host.objectName⟩ ∈ mapCalls by
      simp [mapCalls])
  have params : [Host.objectName, Host.objectName] =
    [Argument.item key, .item item].map Argument.typeName := rfl
  have runs : ∀ xs (v : World), Serves s w v →
      List.Forall₂ (Passed s v.outside.realm) [.item key, .item item] xs → ∃ answer x,
        LibraryMethod.mapPut.run (.over callback' below) (some o) xs v = .ok answer x ∧
          x.Equipped s ∧ Stores s x.outside.realm (m.lookup key).join answer ∧
          x.HoldsMap s ts f o (m.insert key item) := by
    rintro xs v later (_ | ⟨⟨wanted⟩, _ | ⟨⟨stores⟩, ⟨⟩⟩⟩)
    obtain ⟨old, x, ran, holds, stands⟩ :=
      mapPut_run passing (h.serves later) callback' below wanted stores
    exact ⟨old, x, ran, holds.toEquipped, stands, holds⟩
  obtain ⟨x, v, holds, last, invoked⟩ := invoke_item ts passing h.toEquipped h.belongs
    drives params callback (fun _ => .over callback' below) rfl runs
  have called : entry.call (.over callback fun _ => .over callback' below) ts o "put"
      [scriptItem key, scriptItem item] w = .ok (some (scriptItem (m.lookup key).join)) v := by
    rw [calls]
    exact bind_ok invoked
  exact ⟨v, bind_ok called, holds.serves last⟩

omit protocol

omit container in
theorem mapOwn_run (h : w.HoldsMap s ts f o m) (key : Option String) {method : Method}
    (drives : Drives s (s.require hashMapName) mapOwn method) :
    ∃ v : World, invoke bodies ts (some o) method [scriptItem key] w =
        .ok (scriptItem (m.lookup key).join) v ∧
      v.HoldsMap s ts f o (m.erase key) := by
  obtain ⟨callback, callback', below, rfl⟩ := answering
  have params : [Host.objectName] = [Argument.item key].map Argument.typeName := rfl
  have runs : ∀ xs (v : World), Serves s w v →
      List.Forall₂ (Passed s v.outside.realm) [.item key] xs → ∃ answer x,
        LibraryMethod.mapRemove.run (.over callback' below) (some o) xs v = .ok answer x ∧
          x.Equipped s ∧ Stores s x.outside.realm (m.lookup key).join answer ∧
          x.HoldsMap s ts f o (m.erase key) := by
    rintro xs v later (_ | ⟨⟨wanted⟩, ⟨⟩⟩)
    obtain ⟨old, x, ran, holds, stands⟩ :=
      mapRemove_run passing (h.serves later) callback' below wanted
    exact ⟨old, x, ran, holds.toEquipped, stands, holds⟩
  obtain ⟨x, v, holds, last, invoked⟩ := invoke_item ts passing h.toEquipped h.belongs
    drives params callback (fun _ => .over callback' below) rfl runs
  exact ⟨v, invoked, holds.serves last⟩

/-- Every operation on a map answers as on the finite map that it stands for, and one that fails
changes nothing. -/
theorem map_step (protocol : entry.protocol = .map) (h : w.HoldsMap s ts f o m)
    (op : Operation (Option String)) :
    ∃ v : World, Gives ts (op.perform scriptItem mapOwn.name (engine bodies body) ts (.foreign f))
        w (mapStep op m).1 v ∧
      v.HoldsMap s ts f o (mapStep op m).2 ∧
      ∀ type, (mapStep op m).1 = .error type → w.outside.realm.Grows v.outside.realm := by
  cases op with
  | fetch key =>
    have same : (mapStep (.fetch key) m).2 = m := by
      unfold mapStep
      dsimp only
      cases m.lookup key <;> rfl
    rw [same]
    refine fetch_gives passing container h.toHolding fun u later => ?_
    obtain ⟨v, gives, last⟩ := mapItem_gives passing container protocol answering (h.serves later) key
    have serves := later.trans last
    exact ⟨v, gives, h.serves serves, fun _ _ => serves.realm⟩
  | store key item =>
    refine store_gives passing container h.toHolding rfl fun u later => ?_
    obtain ⟨v, ran, holds⟩ :=
      mapPut_gives passing container protocol answering (h.serves later) key item
    exact ⟨v, ran, holds, nofun⟩
  | member key =>
    refine member_run passing container h.toHolding fun u later => ?_
    obtain ⟨v, ran, last⟩ := mapMember_run passing container answering protocol (h.serves later) key
    have serves := later.trans last
    exact ⟨v, ran, h.serves serves, fun _ _ => serves.realm⟩
  | count =>
    refine count_run passing container h.toHolding fun u later => ?_
    obtain ⟨v, ran, last⟩ := mapLength_run passing container answering (h.serves later)
    have serves := later.trans last
    exact ⟨v, ran, h.serves serves, fun _ _ => serves.realm⟩
  | own key =>
    refine own_run passing container h.toHolding (fun _ _ => rfl) fun method u drives later => ?_
    obtain ⟨v, ran, holds⟩ := mapOwn_run passing answering (h.serves later) key drives
    exact ⟨v, ran, holds, nofun⟩

end

end ScriptBridge.Bridge
