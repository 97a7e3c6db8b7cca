import ScriptBridge.Proofs.Discipline.Members

/-!
# What scripts ask of views keeps the discipline

Each question that the evaluator puts to a foreign value, by the kind of view that the value is.
-/

namespace ScriptBridge

open Host (ClassId ObjectId Realm Body HostM Method)
open Bridge (World State BridgeM Kind Proxy View ProtocolEntry Members)
open Script (InterpreterId Raised)

/-- The methods of every name are allowed. -/
def Bridge.Members.Permitted (allowed : Body → Prop) (members : Members) : Prop :=
  ∀ name overloads, members.methods.get? name = some overloads →
    ∀ m ∈ overloads, m.Permitted allowed

theorem methodTable_mem {allowed : Body → Prop} {methods : List Method}
    (permitted : ∀ m ∈ methods, m.Permitted allowed) (fields : Table Host.Field) :
    Members.Permitted allowed ⟨Bridge.methodTable methods, fields⟩ := by
  have all : ∀ (rest : List Method) (t : Table (List Method)),
      (∀ m ∈ rest, m.Permitted allowed) → Members.Permitted allowed ⟨t, fields⟩ →
      Members.Permitted allowed
        ⟨rest.foldl (fun t m => t.insert m.name ((t.get? m.name).getD [] ++ [m])) t, fields⟩ := by
    intro rest
    induction rest with
    | nil => exact fun _ _ ht => ht
    | cons first rest ih =>
      intro t hrest ht
      refine ih _ (fun m hm => hrest m (List.mem_cons_of_mem _ hm)) ?_
      intro name overloads found m hm
      dsimp only at found
      rw [Table.get?_insert] at found
      split at found
      · cases found
        rcases List.mem_append.1 hm with old | new
        · cases known : t.get? first.name with
          | none =>
            rw [known] at old
            cases old
          | some overloads =>
            rw [known] at old
            exact ht _ _ known m old
        · rw [List.mem_singleton.1 new]
          exact hrest first (List.mem_cons_self ..)
      · exact ht _ _ found m hm
  exact all methods {} permitted fun _ _ found => nomatch found

theorem membersOf_permitted {allowed : Body → Prop} {r : Realm} (hr : r.Permitted allowed)
    (c : ClassId) (staticsOnly : Bool) : (Bridge.membersOf r c staticsOnly).Permitted allowed :=
  methodTable_mem (fun _ hm => hr.methods (List.mem_filter.1 hm).1) _

namespace Discipline

variable {C : Course} {D : Discipline C} {ε α β : Type} {Q : α → Prop} {b b' : Host.Bodies World}
  {ts : InterpreterId}

variable (h : D.Bodies b b')

include h

theorem fieldKind_keeps (field : Host.Field) :
    D.Keeps (D.raises ts) (Bridge.fieldKind b ts field) (Bridge.fieldKind b' ts field)
      fun _ => True :=
  .hostCall h (Contained.findClass _) fun _ => .seq (kindOf_keeps _) fun _ => .pure trivial

theorem readField_keeps (target : Option ObjectId) (field : Host.Field) :
    D.Keeps (D.raises ts) (Bridge.readField b ts target field) (Bridge.readField b' ts target field)
      fun _ => True :=
  .seq (fieldKind_keeps h _) fun _ => .hostCall h (Contained.getField _ _) fun _ =>
    toScript_keeps h _ _

theorem writeField_keeps (target : Option ObjectId) (field : Host.Field) (value : Script.Value) :
    D.Keeps (D.raises ts) (Bridge.writeField b ts target field value)
      (Bridge.writeField b' ts target field value) fun _ => True :=
  .seq (fieldKind_keeps h _) fun _ => .seq (coerce_keeps h _ _ _ _) fun _ =>
    hostCall_keeps h (Contained.setField _ _ _).keeps

/-! ### Attributes -/

theorem memberAttr?_keeps (className : String) {members : Members}
    (hm : members.Permitted D.allowed) (target : Option ObjectId) (name : String) :
    D.Keeps (D.raises ts) (Bridge.memberAttr? b ts className members target name)
      (Bridge.memberAttr? b' ts className members target name) fun _ => True := by
  unfold Bridge.memberAttr?
  split
  · exact .pure trivial
  · split
    · exact .seq (readField_keeps h _ _) fun _ => .pure trivial
    · rename_i overloads _ found
      exact .quiet (.viewMethod (hm _ _ found) _ _) fun _ => .pure trivial
    · exact .pure trivial

theorem setMember_keeps (members : Members) (target : Option ObjectId) (name : String)
    (value : Script.Value) :
    D.Keeps (D.raises ts) (Bridge.setMember b ts members target name value)
      (Bridge.setMember b' ts members target name value) fun _ => True := by
  unfold Bridge.setMember
  split
  · exact writeField_keeps h _ _ _
  · exact .complain _ _

theorem getObjectAttr_keeps (o : ObjectId) (name : String) :
    D.Keeps (D.raises ts) (Bridge.getObjectAttr b ts o name) (Bridge.getObjectAttr b' ts o name)
      fun _ => True := by
  refine .getRealm fun r hr =>
    .seq (memberAttr?_keeps h _ (membersOf_permitted hr _ _) _ _) fun found => ?_
  cases found with
  | some value => exact .pure trivial
  | none => exact .complain _ _

theorem getClassAttr_keeps (c : ClassId) (name : String) :
    D.Keeps (D.raises ts) (Bridge.getClassAttr b ts c name) (Bridge.getClassAttr b' ts c name)
      fun _ => True := by
  refine .getRealm fun r hr =>
    .seq (memberAttr?_keeps h _ (membersOf_permitted hr _ _) _ _) fun found => ?_
  cases found with
  | some value => exact .pure trivial
  | none => exact .ite (fun _ => .complain _ _) fun _ => .complain _ _

/-! ### Views -/

theorem getAttr_keeps (f : Script.Foreign) (name : String) :
    D.Keeps (D.raises ts) (Bridge.getAttr b ts f name) (Bridge.getAttr b' ts f name)
      fun _ => True := by
  refine .quiet (.getProxy _) fun p => ?_
  split
  · exact getObjectAttr_keeps h _ _
  · exact getClassAttr_keeps h _ _
  · exact .ite (fun _ => .getRealm fun _ _ => .pure trivial) fun _ => .complain _ _
  · exact .ite (fun _ => .pure trivial) fun _ => .complain _ _

theorem setAttr_keeps (f : Script.Foreign) (name : String) (value : Script.Value) :
    D.Keeps (D.raises ts) (Bridge.setAttr b ts f name value) (Bridge.setAttr b' ts f name value)
      fun _ => True := by
  refine .getRealm fun r _ => .quiet (.getProxy _) fun p => ?_
  split
  · exact setMember_keeps h _ _ _ _
  · exact setMember_keeps h _ _ _ _
  · exact .raise _

omit h in
theorem attrNames_quiet {allowed : Body → Prop} (f : Script.Foreign) :
    Quiet allowed (Bridge.attrNames f) := by
  refine .bind .getRealm fun r => .bind (.getProxy _) fun p => ?_
  split <;> exact .pure _

omit h in
theorem complaintName_quiet {allowed : Body → Prop} (o : ObjectId) :
    Quiet allowed (Bridge.complaintName o) :=
  .bind .getRealm fun _ => .pure _

omit h in
/-- The complaint about an object without a protocol that could answer. -/
theorem refusal_keeps (o : ObjectId) (fault : String → Script.Fault) :
    D.Keeps (D.raises ts) (Bridge.complaintName o >>= fun name => Script.raise ts (fault name))
      (Bridge.complaintName o >>= fun name => (Script.raise ts (fault name) : BridgeM α))
      Q :=
  .quiet (complaintName_quiet o) fun _ => .raise _

theorem getItem_keeps (f : Script.Foreign) (index : Script.Value) :
    D.Keeps (D.raises ts) (Bridge.getItem b ts f index) (Bridge.getItem b' ts f index)
      fun _ => True := by
  refine .quiet (.getProxy _) fun p => ?_
  split
  · refine .seq (withProtocol_keeps _ fun entry he => entryGetItem_keeps h he _ index) ?_
    intro found
    cases found with
    | some found => exact .pure trivial
    | none => exact refusal_keeps _ _
  · exact getElement_keeps h _ _
  · exact .raise _

theorem setItem_keeps (f : Script.Foreign) (index value : Script.Value) :
    D.Keeps (D.raises ts) (Bridge.setItem b ts f index value) (Bridge.setItem b' ts f index value)
      fun _ => True := by
  refine .quiet (.getProxy _) fun p => ?_
  split
  · refine .seq (withProtocol_keeps _ fun entry he => ?_) fun stored => ?_
    · exact .seq (entrySetItem_keeps h he _ index value) fun _ => .pure trivial
    · exact .ite (fun _ => refusal_keeps _ _) fun _ => .pure trivial
  · exact setElement_keeps h _ _ _
  · exact .raise _

theorem length_keeps (f : Script.Foreign) :
    D.Keeps (D.raises ts) (Bridge.length b ts f) (Bridge.length b' ts f) fun _ => True := by
  refine .quiet (.getProxy _) fun p => ?_
  split
  · refine .seq (withProtocol_keeps _ fun entry he => entryLength_keeps h he _) fun found => ?_
    cases found with
    | some length => exact .pure trivial
    | none => exact refusal_keeps _ _
  · exact arrayLength_keeps h _
  · exact .raise _

theorem contains_keeps (f : Script.Foreign) (item : Script.Value) :
    D.Keeps (D.raises ts) (Bridge.contains b ts f item) (Bridge.contains b' ts f item)
      fun _ => True := by
  refine .quiet (.getProxy _) fun p => ?_
  split
  · refine .seq (withProtocol_keeps _ fun entry he => entryContains_keeps h he _ item) ?_
    intro found
    cases found with
    | some found => exact .pure trivial
    | none => exact refusal_keeps _ _
  · exact .raise _

theorem call_keeps (f : Script.Foreign) (args : List Script.Value) :
    D.Keeps (D.raises ts) (Bridge.call b ts f args) (Bridge.call b' ts f args)
      fun _ => True := by
  refine .getProxy fun p hp => ?_
  split
  · exact instantiate_keeps h _ _
  · rename_i view
    exact callOverloads_keeps h _ (hp _ _ _ view) _
  · exact .raise _

theorem number_keeps (f : Script.Foreign) :
    D.Keeps (D.raises ts) (Bridge.number b ts f) (Bridge.number b' ts f) fun _ => True := by
  refine .quiet (.getProxy _) fun p => ?_
  split
  · exact withProtocol_keeps _ fun entry he => entryNumber_keeps h he _
  · exact .pure trivial

theorem equals_keeps (f : Script.Foreign) (other : Script.Value) :
    D.Keeps (D.raises ts) (Bridge.equals b ts f other) (Bridge.equals b' ts f other)
      fun _ => True := by
  refine .quiet (.viewOf? other) fun theirs => .quiet (.getProxy _) fun p => ?_
  split
  · split
    · exact hostCall_keeps h (sameObjects_keeps h _ _)
    · exact .pure trivial
  · split <;> exact .pure trivial
  · split <;> exact .pure trivial
  · split <;> exact .pure trivial

end Discipline
end ScriptBridge
