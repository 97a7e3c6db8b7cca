import ScriptBridge.Proofs.Discipline.Crossing

/-!
# Conversions keep the discipline

Values that cross the bridge in either direction, and the members that are looked up once for them.
-/

namespace ScriptBridge

open Host (ClassId ObjectId Realm Body Thrown HostM BodyM Method)
open Bridge (World State BridgeM Kind Boxer)
open Script (InterpreterId Raised)

namespace Discipline

variable {C : Course} {D : Discipline C} {ε α β : Type} {Q : α → Prop} {b b' : Host.Bodies World}
  {ts : InterpreterId}

/-! ### Members that are looked up once -/

/-- The class of a looked-up member is kept from now on. -/
theorem keepClass_quiet {allowed : Body → Prop} (c : ClassId) (a : α) :
    Quiet allowed ((do
      let mirror ← Host.onRealm (Realm.mirror c)
      let g ← Host.onRealm (Realm.newGlobalRef mirror)
      Bridge.modifyState fun s => { s with conversionRefs := s.conversionRefs ++ [g] }
      return a) : EStateM ε World α) := by
  intro w
  have mirrored := Realm.Takes.of_extends (Host.Extending.mirror c w.outside.realm)
  refine ⟨_, _, rfl, .of_takes (mirrored.take _) rfl rfl rfl rfl ?_ fun hs hr => { hs with realm := hr }⟩
  intro n hn
  rw [mem_viewRefs] at hn ⊢
  rcases hn with proxy | ⟨g, hg, rfl⟩ | token
  · exact .inl (.inl proxy)
  · rcases List.mem_append.1 hg with old | new
    · exact .inl (.inr (.inl ⟨g, old, rfl⟩))
    · rw [List.mem_singleton.1 new]
      exact .inr (List.mem_cons_self ..)
  · exact .inl (.inr (.inr token))

theorem findBoxer_keeps (className param : String) :
    D.Keeps D.throws (Bridge.findBoxer className param) (Bridge.findBoxer className param)
      fun _ => True :=
  .contained (Contained.findClass _) fun c => .contained (Contained.getConstructor _ _)
    fun _ => .of_quiet (keepClass_quiet c _)

/-- Something that is remembered and holds neither references nor methods of its own. -/
theorem boxing_keeps :
    D.Keeps D.throws Bridge.boxing Bridge.boxing fun _ => True := by
  refine .getState fun s _ => ?_
  cases s.boxing with
  | some boxing => exact .pure trivial
  | none =>
    refine .seq (findBoxer_keeps _ _) fun _ => .seq (findBoxer_keeps _ _) fun _ =>
      .seq (findBoxer_keeps _ _) fun _ => .seq (findBoxer_keeps _ _) fun _ => .quiet ?_ fun _ =>
        .pure trivial
    exact .remember (fun _ => rfl) (fun _ => rfl) (fun _ => rfl) (fun _ => rfl) (fun _ => rfl)
      (fun _ _ hn => hn) fun s hs => { hs with realm := hs.realm }

theorem findAccessors_keeps (names : List (Kind × String × String)) :
    D.Keeps D.throws (Bridge.findAccessors names) (Bridge.findAccessors names)
      fun table => ∀ entry ∈ table, entry.2.Permitted D.allowed := by
  induction names with
  | nil => exact .pure (by simp)
  | cons name rest ih =>
    refine .contained (Contained.findClass _) fun c => .bind (getMethod_keeps _ _ _) fun m hm =>
      .bind ih fun table htable => .pure ?_
    exact List.forall_mem_cons.2 ⟨hm, htable⟩

theorem mem_of_lookup {κ : Type} [BEq κ] {key : κ} {entries : List (κ × Method)} {m : Method}
    (found : entries.lookup key = some m) : ∃ k, (k, m) ∈ entries := by
  induction entries with
  | nil => cases found
  | cons entry rest ih =>
    rw [List.lookup_cons] at found
    split at found
    · cases found
      exact ⟨entry.1, List.mem_cons_self ..⟩
    · obtain ⟨k, hk⟩ := ih found
      exact ⟨k, List.mem_cons_of_mem _ hk⟩

theorem accessor?_keeps (kind : Kind) :
    D.Keeps D.throws (Bridge.accessor? kind) (Bridge.accessor? kind)
      fun found => ∀ m ∈ found, m.Permitted D.allowed := by
  have chosen : ∀ table : List (Kind × Method), (∀ entry ∈ table, entry.2.Permitted D.allowed) →
      ∀ m ∈ table.lookup kind, m.Permitted D.allowed := by
    intro table htable m hm
    obtain ⟨k, hk⟩ := mem_of_lookup hm
    exact htable _ hk
  refine .getState fun s hs => ?_
  cases known : s.accessors with
  | some table => exact .pure (chosen table (hs.accessors table known))
  | none =>
    refine .bind (findAccessors_keeps _) fun table htable => .quiet ?_ fun _ =>
      .pure (chosen table htable)
    refine .remember (fun _ => rfl) (fun _ => rfl) (fun _ => rfl) (fun _ => rfl) (fun _ => rfl)
      (fun _ _ hn => hn) fun s hs => { hs with accessors := ?_ }
    rintro _ ⟨⟩
    exact htable

theorem loadClassMethod_keeps :
    D.Keeps D.throws Bridge.loadClassMethod Bridge.loadClassMethod
      (·.Permitted D.allowed) := by
  refine .getState fun s hs => ?_
  cases known : s.loadClass with
  | some m => exact .pure (hs.loadClass m known)
  | none =>
    refine .contained (Contained.findClass _) fun c => .bind (getMethod_keeps _ _ _) fun m hm =>
      .quiet ?_ fun _ => .pure hm
    refine .remember (fun _ => rfl) (fun _ => rfl) (fun _ => rfl) (fun _ => rfl) (fun _ => rfl)
      (fun _ _ hn => hn) fun s hs => { hs with loadClass := ?_ }
    rintro _ ⟨⟩
    exact hm

variable (h : D.Bodies b b')

include h

theorem loadClass_keeps (loader : ObjectId) (name : String) :
    D.Keeps D.throws (Bridge.loadClass b loader name) (Bridge.loadClass b' loader name)
      fun _ => True := by
  refine .bind loadClassMethod_keeps fun m hm => .quiet (.onRealm (.newText _)) fun _ =>
    .seq (callMethod_keeps h _ hm _) fun loaded => .getRealm fun r _ => ?_
  split
  · exact .pure trivial
  · exact .contained (Contained.findClass _) fun _ => .quiet (.onRealm (.allocate _ _)) fun _ =>
      .throwObject _

/-! ### From the Host to scripts -/

theorem readWrapper_keeps (o : ObjectId) (kind : Kind) :
    D.Keeps (D.raises ts) (Bridge.readWrapper b ts o kind) (Bridge.readWrapper b' ts o kind)
      fun _ => True := by
  refine .bind (hostCall_keeps h (accessor?_keeps kind)) fun found hfound => ?_
  cases found with
  | none => exact .complain _ _
  | some m => exact hostCall_keeps h (callMethod_keeps h _ (hfound m rfl) _)

theorem viewAs_keeps (o : ObjectId) (kind : Kind) :
    D.Keeps (D.raises ts) (Bridge.viewAs b ts o kind) (Bridge.viewAs b' ts o kind)
      fun _ => True := by
  cases kind with
  | array => exact .quiet (.viewArray o) fun _ => .pure trivial
  | string => exact .hostCall h (Contained.stringChars o) fun _ => .pure trivial
  | type =>
    refine .getRealm fun r _ => ?_
    split
    · exact .quiet (.viewClass _) fun _ => .pure trivial
    · exact .quiet (.viewObject o) fun _ => .pure trivial
  | object | void => exact .quiet (.viewObject o) fun _ => .pure trivial
  | byte | short | int | long | float | double | boolean | char => exact .pure trivial

omit h in
theorem ownKind_keeps (o : ObjectId) :
    D.Keeps (D.raises ts) (Bridge.ownKind ts o) (Bridge.ownKind ts o) fun _ => True :=
  .getRealm fun _ _ => kindOf_keeps _

theorem unboxWithin_keeps (steps : Nat) : ∀ (o : ObjectId) (kind : Kind),
    D.Keeps (D.raises ts) (Bridge.unboxWithin b ts steps o kind)
      (Bridge.unboxWithin b' ts steps o kind) fun _ => True := by
  induction steps with
  | zero => exact fun _ _ => .giveUp
  | succ steps ih =>
    intro o kind
    refine .seq (viewAs_keeps h o kind) fun seen => ?_
    cases seen with
    | some value => exact .pure trivial
    | none =>
      refine .seq (readWrapper_keeps h o kind) fun read => ?_
      split
      · exact .seq (ownKind_keeps _) fun _ => ih _ _
      · exact .pure trivial

theorem unbox_keeps (object : Option ObjectId) (kind : Kind) :
    D.Keeps (D.raises ts) (Bridge.unbox b ts object kind) (Bridge.unbox b' ts object kind)
      fun _ => True := by
  cases object with
  | none => exact .pure trivial
  | some o => exact .getRealm fun _ _ => unboxWithin_keeps h _ o kind

theorem unboxObject_keeps (object : Option ObjectId) :
    D.Keeps (D.raises ts) (Bridge.unboxObject b ts object) (Bridge.unboxObject b' ts object)
      fun _ => True := by
  cases object with
  | none => exact .pure trivial
  | some o => exact .seq (ownKind_keeps o) fun _ => unbox_keeps h _ _

theorem toScript_keeps (value : Host.Value) (kind : Kind) :
    D.Keeps (D.raises ts) (Bridge.toScript b ts value kind) (Bridge.toScript b' ts value kind)
      fun _ => True := by
  unfold Bridge.toScript
  split
  · exact .ite (fun _ => unbox_keeps h _ _) fun _ => unboxObject_keeps h _
  · exact .pure trivial

end Discipline
end ScriptBridge
