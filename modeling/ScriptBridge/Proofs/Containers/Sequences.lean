import ScriptBridge.Proofs.Containers.Stock
import ScriptBridge.Proofs.Conversions.RoundTrip

/-!
# Sequences of operations

What a script sees of a container, over a whole sequence of operations, is what an abstract type
answers. Maps of the library are finite maps in this sense, and lists are sequences.
-/

namespace ScriptBridge.Bridge

open Host (ClassId ObjectId Realm Bodies)
open Script (InterpreterId Foreign ErrorType)

variable {κ σ : Type} {s : Realm} {w v : World} {o : ObjectId} {ts : InterpreterId} {f : Foreign}
  {m : ItemMap} {items : List (Option String)} {type : ErrorType}

/-! ### Abstract types -/

/-- What operations answer, one after the other, and what they lead to. -/
def answers (step : Operation κ → σ → Answer × σ) : List (Operation κ) → σ → List Answer × σ
  | [], a => ([], a)
  | op :: rest, a =>
    let first := step op a
    let others := answers step rest first.2
    (first.1 :: others.1, others.2)

/-- Containers of a class, driven by scripts of an interpreter, refine an abstract type. -/
structure Refines (s : Realm) (machine : Machine) (ts : InterpreterId) (className method : String)
    (spelled : κ → Script.Value) (step : Operation κ → σ → Answer × σ) (empty : σ)
    (Stands : Foreign → ObjectId → σ → World → Prop) : Prop where
  /-- A call of the class makes an empty container. -/
  made : ∀ (w : World) g mirror, w.Equipped s → ts.place < w.memory.interpreters.size →
    w.viewAt g.place = .type (s.require className) mirror →
    ∃ (f : Foreign) (o : ObjectId) (v : World),
      Script.call machine.engine ts (.foreign g) [] w = .ok (.foreign f) v ∧ Stands f o empty v
  /-- Every sequence of operations is answered as the abstract type says. -/
  answered : ∀ f o ops a w, Stands f o a w → ∃ v : World,
    ops.mapM (fun op => observe ts
        (Operation.perform spelled method machine.engine ts (.foreign f) op)) w =
      .ok (answers step ops a).1 v ∧
    Stands f o (answers step ops a).2 v
  /-- An operation that fails changes nothing. -/
  unchanged : ∀ f o op a w type, Stands f o a w → (step op a).1 = .error type → ∃ v : World,
    observe ts (Operation.perform spelled method machine.engine ts (.foreign f) op) w =
      .ok (.error type) v ∧
    Stands f o a v ∧ w.outside.realm.Grows v.outside.realm ∧
    v.outside.realm.payload o = w.outside.realm.payload o

/-- By induction on the operations: each one is answered, and leaves what the rest needs. -/
theorem answers_run {step : Operation κ → σ → Answer × σ}
    {perform : Operation κ → BridgeM Script.Value} {Stands : σ → World → Prop}
    (each : ∀ op a w, Stands a w → ∃ v, Gives ts (perform op) w (step op a).1 v ∧
      Stands (step op a).2 v) (ops : List (Operation κ)) (a : σ) (stands : Stands a w) :
    ∃ v, ops.mapM (fun op => observe ts (perform op)) w = .ok (answers step ops a).1 v ∧
      Stands (answers step ops a).2 v := by
  induction ops generalizing a w with
  | nil => exact ⟨w, rfl, stands⟩
  | cons op rest ih =>
    obtain ⟨u, gives, next⟩ := each op a w stands
    obtain ⟨v, others, last⟩ := ih (step op a).2 next
    refine ⟨v, ?_, last⟩
    rw [List.mapM_cons, bind_ok (observe_run gives), bind_ok others]
    rfl

/-- It is enough that single operations are answered, and that those that fail add at most to what
there is in the Host. -/
theorem Refines.of_step {machine : Machine} {className method : String}
    {spelled : κ → Script.Value} {step : Operation κ → σ → Answer × σ} {empty : σ}
    {Stands : Foreign → ObjectId → σ → World → Prop}
    (made : ∀ (w : World) g mirror, w.Equipped s → ts.place < w.memory.interpreters.size →
      w.viewAt g.place = .type (s.require className) mirror →
      ∃ (f : Foreign) (o : ObjectId) (v : World),
        Script.call machine.engine ts (.foreign g) [] w = .ok (.foreign f) v ∧ Stands f o empty v)
    (each : ∀ f o op a w, Stands f o a w → ∃ v : World,
      Gives ts (Operation.perform spelled method machine.engine ts (.foreign f) op) w
        (step op a).1 v ∧
      Stands f o (step op a).2 v ∧
      ∀ type, (step op a).1 = .error type → w.outside.realm.Grows v.outside.realm)
    (error : ∀ op a type, (step op a).1 = .error type → (step op a).2 = a)
    (holds : ∀ f o a w, Stands f o a w →
      w.outside.realm.Holds o ∧ Items (w.outside.realm.payload o) = true) :
    Refines s machine ts className method spelled step empty Stands := by
  refine ⟨made, fun f o ops a w stands => ?_, fun f o op a w type stands failed => ?_⟩
  · refine answers_run (fun op a w stands => ?_) ops a stands
    obtain ⟨v, gives, next, -⟩ := each f o op a w stands
    exact ⟨v, gives, next⟩
  · obtain ⟨v, gives, next, grows⟩ := each f o op a w stands
    obtain ⟨held, items⟩ := holds f o a w stands
    rw [error op a type failed] at next
    rw [failed] at gives
    have kept := grows type failed
    exact ⟨v, observe_run gives, next, kept, rewritten_items items (kept.payloads o held)⟩

/-! ### Maps and lists -/

/-- A map that fails to answer is left as it is. -/
theorem mapStep_error {op : Operation (Option String)} (h : (mapStep op m).1 = .error type) :
    (mapStep op m).2 = m := by
  cases op with
  | fetch key =>
    unfold mapStep
    dsimp only
    cases m.lookup key <;> rfl
  | count => rfl
  | store | member | own => cases h

/-- A list that fails to answer is left as it is. -/
theorem listStep_error {op : Operation Index} (h : (listStep op items).1 = .error type) :
    (listStep op items).2 = items := by
  cases op with
  | fetch i =>
    unfold listStep
    dsimp only
    cases address i.whole (counted items.length) <;> rfl
  | store i item =>
    unfold listStep at h ⊢
    dsimp only at h ⊢
    cases addressed : address i.whole (counted items.length) with
    | none => rfl
    | some place =>
      rw [addressed] at h
      cases h
  | count => rfl
  | member | own => cases h

/-- No two entries that an object stores have equal keys, as the Host compares them. -/
def World.KeysDiffer (bodies : Bodies World) (o : ObjectId) (w : World) : Prop :=
  ∀ entries, w.outside.realm.payload o = .map entries →
    entries.Pairwise fun e e' => Host.sameItem bodies e.1 e'.1 w = .ok false w

/-- Items that differ are told apart by the Host. -/
theorem World.HoldsMap.keysDiffer (passing : Passing s) (h : w.HoldsMap s ts f o m)
    (callback : Host.Callback → Host.BodyM World Host.Value) (below : Unit → Bodies World) :
    w.KeysDiffer (.over callback below) o := by
  obtain ⟨pairs, stored, payload, stands⟩ := h.stored
  intro entries holds
  cases payload.symm.trans holds
  have keys : (stored.map Prod.fst).Pairwise fun x y =>
      Host.sameItem (.over callback below) x y w = .ok false w := by
    refine List.pairwise_iff_getElem.mpr fun i j hi hj before => ?_
    have sizes := stands.keys.length_eq
    have differ := List.pairwise_iff_getElem.mp stands.distinct i j (sizes ▸ hi) (sizes ▸ hj) before
    have compared := sameItem_run passing h.toEquipped callback below
      (stands.keys.get (sizes ▸ hi) hi) (stands.keys.get (sizes ▸ hj) hj)
    simp only [List.get_eq_getElem, beq_eq_false_iff_ne.mpr differ] at compared
    exact compared
  exact List.pairwise_map.mp keys

/-! ### The class library -/

section

variable (outfitted : Outfitted s) (levels : Nat) (ts : InterpreterId)

include outfitted

theorem maps_refine : Refines s (Context.machine (levels + 2)) ts hashMapName mapOwn.name
    scriptItem mapStep ∅ fun f o m w => w.HoldsMap s ts f o m := by
  obtain ⟨entry, container, protocol⟩ := outfitted.maps
  have passing := outfitted.passing
  refine .of_step (fun w g mirror equipped there view => ?_) (fun f o op m w stands => ?_)
    (fun op m type => mapStep_error) fun f o m w stands => ?_
  · obtain ⟨f, o, v, called, holding, payload⟩ :=
      makes_run passing outfitted.makesMaps equipped there view _ _
    exact ⟨f, o, v, called, holding, [], [], payload, .nil, .nil, fun _ => rfl⟩
  · exact map_step passing container (machine_answering levels) protocol stands op
  · obtain ⟨pairs, entries, payload, -⟩ := stands.stored
    rw [payload]
    exact ⟨stands.belongs.held, rfl⟩

theorem lists_refine : Refines s (Context.machine (levels + 2)) ts arrayListName listOwn.name
    Index.value listStep [] fun f o items w => w.HoldsList s ts f o items := by
  obtain ⟨entry, container, protocol⟩ := outfitted.lists
  have passing := outfitted.passing
  refine .of_step (fun w g mirror equipped there view => ?_) (fun f o op items w stands => ?_)
    (fun op items type => listStep_error) fun f o items w stands => ?_
  · obtain ⟨f, o, v, called, holding, payload⟩ :=
      makes_run passing outfitted.makesLists equipped there view _ _
    exact ⟨f, o, v, called, holding, [], payload, .nil⟩
  · exact list_step passing container (machine_answering levels) protocol stands op
  · obtain ⟨values, payload, -⟩ := stands.stored
    rw [payload]
    exact ⟨stands.belongs.held, rfl⟩

end

/-- Maps of the class library are finite maps to scripts, and lists are sequences, however many
operations there are. Keys that are stored differ in the Host, and items are counted as they are as
long as an int of the Host can tell their number. -/
theorem containers_refine (levels : Nat) (ts : InterpreterId) :
    (Refines .standard (Context.machine (levels + 2)) ts "java.util.HashMap" "remove" scriptItem
      mapStep ∅ fun f o m w => w.HoldsMap .standard ts f o m) ∧
    (Refines .standard (Context.machine (levels + 2)) ts "java.util.ArrayList" "add" Index.value
      listStep [] fun f o items w => w.HoldsList .standard ts f o items) ∧
    (∀ f o m (w : World), w.HoldsMap .standard ts f o m →
      w.KeysDiffer (Context.machine (levels + 2)).bodies o) ∧
    ∀ n, n < 2 ^ 31 → counted n = n := by
  have outfitted := standard_outfitted
  generalize Realm.standard = s at *
  refine ⟨maps_refine outfitted levels ts, lists_refine outfitted levels ts,
    fun f o m w holds => ?_, fun _ => counted_eq⟩
  obtain ⟨callback, callback', below, same⟩ := machine_answering levels
  rw [same]
  exact holds.keysDiffer outfitted.passing callback _

/-- A Host in which the class object of a class exists. -/
def minted (s : Realm) (name : String) : ObjectId × Realm := Realm.mirror (s.require name) s

/-- A bridge over a Host with one interpreter, which was given a view of a class. -/
def World.giving (s : Realm) (name : String) : World :=
  (World.onRealm (minted s name).2 ⟨{ interpreters := #[default] }, { realm := s }⟩).showing
    ⟨.type (s.require name) (minted s name).1, none⟩

/-- Checks that the class object of a class is an object of a class. -/
def isMinted (s : Realm) (name : String) : Bool :=
  decide ((minted s name).2.Holds (minted s name).1) &&
    decide ((minted s name).2.Has ((minted s name).2.classIdOf (minted s name).1))

theorem giving_equipped (untouched : Untouched s) {name : String} (h : isMinted s name = true) :
    (World.giving s name).Equipped s := by
  rw [isMinted, Bool.and_eq_true, decide_eq_true_iff, decide_eq_true_iff] at h
  have intact := untouched.intact
  have formed := intact.formed
  have begun : World.Equipped s ⟨{ interpreters := #[default] }, { realm := s }⟩ :=
    ⟨⟨⟨formed.coherent, formed.statics, formed.tokens, formed.views⟩, intact.classes,
      intact.names, intact.tokens, intact.boxing, intact.accessors⟩, nofun⟩
  have grown := Serves.of_grows begun (Realm.Grows.mirror (s.require name) s)
  refine (Serves.showing grown.equipped _ fun o shows => ?_).equipped
  cases shows
  exact h

theorem standard_minted :
    isMinted Realm.standard hashMapName = true ∧ isMinted Realm.standard arrayListName = true := by
  decide +kernel

/-- In a map a stored nothing is told from a missing key, and in a list -1 addresses the last item. -/
theorem containers_driven :
    (∃ (w v u : World) (g f : Foreign),
      Script.call (Context.machine 2).engine ⟨0⟩ (.foreign g) [] w = .ok (.foreign f) v ∧
      [.store (some "a") none, .fetch (some "a"), .fetch none, .member (some "a"),
          .own (some "a"), .count].mapM
        (fun op => observe ⟨0⟩ (Operation.perform scriptItem "remove" (Context.machine 2).engine
          ⟨0⟩ (.foreign f) op)) v =
        .ok [.ok .none, .ok .none, .error (.builtin .key), .ok (.bool true), .ok .none,
          .ok (.int 0)] u) ∧
    ∃ (w v u : World) (g f : Foreign),
      Script.call (Context.machine 2).engine ⟨0⟩ (.foreign g) [] w = .ok (.foreign f) v ∧
      [.own (some "a"), .own none, .store ⟨.int (-1), -1, rfl⟩ (some "b"),
          .fetch ⟨.int 1, 1, rfl⟩, .fetch ⟨.int 2, 2, rfl⟩, .member none, .count].mapM
        (fun op => observe ⟨0⟩ (Operation.perform Index.value "add" (Context.machine 2).engine
          ⟨0⟩ (.foreign f) op)) v =
        .ok [.ok (.bool true), .ok (.bool true), .ok .none, .ok (.text "b"),
          .error (.builtin .index), .ok (.bool false), .ok (.int 2)] u := by
  obtain ⟨maps, lists, -, -⟩ := containers_refine 0 ⟨0⟩
  have mapEquipped := giving_equipped standard_untouched standard_minted.1
  have listEquipped := giving_equipped standard_untouched standard_minted.2
  generalize Realm.standard = s at *
  constructor
  · obtain ⟨f, o, v, called, holds⟩ := maps.made (World.giving s hashMapName) ⟨.type, 0⟩
      (minted s hashMapName).1 mapEquipped Nat.zero_lt_one rfl
    obtain ⟨u, ran, -⟩ := maps.answered f o _ ∅ v holds
    exact ⟨_, v, u, _, f, called, ran⟩
  · obtain ⟨f, o, v, called, holds⟩ := lists.made (World.giving s arrayListName) ⟨.type, 0⟩
      (minted s arrayListName).1 listEquipped Nat.zero_lt_one rfl
    obtain ⟨u, ran, -⟩ := lists.answered f o _ [] v holds
    exact ⟨_, v, u, _, f, called, ran⟩

end ScriptBridge.Bridge
