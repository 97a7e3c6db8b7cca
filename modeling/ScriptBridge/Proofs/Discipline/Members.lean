import ScriptBridge.Proofs.Discipline.Parameters

/-!
# Members and containers keep the discipline

A script reaches methods through the views that it holds, through the classes of the Host and
through the interfaces that drive containers; none of them has anything to run that is not allowed.
-/

namespace ScriptBridge

open Host (ClassId ObjectId Realm Body HostM Method)
open Bridge (World State BridgeM Kind Proxy View ProtocolEntry Members)
open Script (InterpreterId Raised)

namespace Discipline

variable {C : Course} {D : Discipline C} {ε α β : Type} {Q : α → Prop} {b b' : Host.Bodies World}
  {ts : InterpreterId}

/-- A view shows nothing that is not allowed. -/
theorem Keeps.getProxy {err : ε → World → Prop} {place : Nat}
    {next next' : Proxy → EStateM ε World β} {Q : β → Prop}
    (h : ∀ p : Proxy, p.view.Permitted D.allowed → D.Keeps err (next p) (next' p) Q) :
    D.Keeps err (Bridge.getProxy place >>= next) (Bridge.getProxy place >>= next') Q := by
  intro w hw
  refine h (w.outside.proxies[place]?.getD default) ?_ w hw
  cases found : w.outside.proxies[place]? with
  | none =>
    rintro _ _ _ ⟨⟩
    exact fun _ hm => nomatch hm
  | some p => exact (D.permitted hw).overloads p (Array.mem_of_getElem? found)

/-! ### Calling methods -/

theorem argumentsFit_keeps (pairs : List (Script.Value × ClassId)) :
    D.Keeps (D.raises ts) (Bridge.argumentsFit ts pairs) (Bridge.argumentsFit ts pairs)
      fun _ => True := by
  induction pairs with
  | nil => exact .pure trivial
  | cons pair rest ih =>
    refine .seq (kindOf_keeps _) fun kind => .quiet (.matchesParam _ _ _) fun fits => ?_
    exact .ite (fun _ => ih) fun _ => .pure trivial

variable (h : D.Bodies b b')

include h

theorem firstFitting_keeps (args : List Script.Value) (candidates : List Method) :
    D.Keeps (D.raises ts) (Bridge.firstFitting b ts args candidates)
      (Bridge.firstFitting b' ts args candidates) (· ∈ candidates) := by
  induction candidates with
  | nil => exact .complain _ _
  | cons candidate rest ih =>
    refine .hostCall h (Contained.findClasses _) fun params => .seq (argumentsFit_keeps _) ?_
    refine fun fits => .ite (fun _ => .pure (List.mem_cons_self ..)) fun _ => ?_
    exact .mono ih fun _ hm => List.mem_cons_of_mem _ hm

theorem selectOverload_keeps (overloads : List Method) (args : List Script.Value) :
    D.Keeps (D.raises ts) (Bridge.selectOverload b ts overloads args)
      (Bridge.selectOverload b' ts overloads args) (· ∈ overloads) := by
  unfold Bridge.selectOverload
  split
  · exact .pure (List.mem_singleton.2 rfl)
  · split
    · rename_i only same
      have chosen : only ∈ overloads.filter (·.arity == args.length) := by
        rw [same]
        exact List.mem_singleton.2 rfl
      exact .pure (List.mem_filter.1 chosen).1
    · exact .mono (firstFitting_keeps h _ _) fun _ hm => (List.mem_filter.1 hm).1

theorem coerceAll_keeps (pairs : List (Script.Value × ClassId)) : ∀ position,
    D.Keeps (D.raises ts) (Bridge.coerceAll b ts position pairs)
      (Bridge.coerceAll b' ts position pairs) fun _ => True := by
  induction pairs with
  | nil => exact fun _ => .pure trivial
  | cons pair rest ih =>
    exact fun _ => .seq (kindOf_keeps _) fun _ => .seq (coerce_keeps h _ _ _ _) fun _ =>
      .seq (ih _) fun _ => .pure trivial

theorem coerceArguments_keeps (method : Method) (args : List Script.Value) :
    D.Keeps (D.raises ts) (Bridge.coerceArguments b ts method args)
      (Bridge.coerceArguments b' ts method args) fun _ => True :=
  .ite (fun _ => .abort (.complain _ _)) fun _ => .hostCall h (Contained.findClasses _) fun _ =>
    coerceAll_keeps h _ _

theorem invoke_keeps (target : Option ObjectId) {method : Method}
    (hm : method.Permitted D.allowed) (args : List Script.Value) :
    D.Keeps (D.raises ts) (Bridge.invoke b ts target method args)
      (Bridge.invoke b' ts target method args) fun _ => True := by
  refine .seq (registerExceptions_keeps method) fun _ => .seq (coerceArguments_keeps h _ _) ?_
  refine fun converted => .seq (hostCall_keeps h (callMethod_keeps h _ hm _)) fun result => ?_
  refine .hostCall h (Contained.findClass _) fun c => .seq (kindOf_keeps c) fun kind => ?_
  exact .ite (fun _ => .pure trivial) fun _ => toScript_keeps h _ _

theorem instantiate_keeps (c : ClassId) (args : List Script.Value) :
    D.Keeps (D.raises ts) (Bridge.instantiate b ts c args) (Bridge.instantiate b' ts c args)
      fun _ => True := by
  refine .getRealm fun r _ => .ite (fun _ => .abort (.complain _ _)) fun _ => ?_
  refine .bind (selectOverload_keeps h _ _) fun constructor _ => ?_
  refine .seq (coerceArguments_keeps h _ _) fun converted => ?_
  exact .seq (hostCall_keeps h (newObject_keeps h _ _ _)) fun o => .of_quiet (.viewObject o)

theorem callOverloads_keeps (target : Option ObjectId) {overloads : List Method}
    (hm : ∀ m ∈ overloads, m.Permitted D.allowed) (args : List Script.Value) :
    D.Keeps (D.raises ts) (Bridge.callOverloads b ts target overloads args)
      (Bridge.callOverloads b' ts target overloads args) fun _ => True :=
  .bind (selectOverload_keeps h _ _) fun _ chosen =>
    .ite (fun _ => .abort (.complain _ _)) fun _ => invoke_keeps h _ (hm _ chosen) _

/-! ### Containers -/

omit h in
theorem findMethods_keeps (c : ClassId) (names : List (String × List String)) :
    D.Keeps D.throws (Bridge.findMethods c names) (Bridge.findMethods c names)
      fun methods => ∀ m ∈ methods, m.Permitted D.allowed := by
  induction names with
  | nil => exact .pure (by simp)
  | cons name rest ih =>
    refine .bind (getMethod_keeps _ _ _) fun m hm => .bind ih fun methods hmethods => .pure ?_
    exact List.forall_mem_cons.2 ⟨hm, hmethods⟩

omit h in
theorem findProtocols_keeps {err : ε → World → Prop} (all : List Bridge.Protocol) :
    D.Keeps err (Bridge.findProtocols all) (Bridge.findProtocols all)
      fun entries => ∀ entry ∈ entries, ∀ m ∈ entry.methods, m.Permitted D.allowed := by
  induction all with
  | nil => exact .pure (by simp)
  | cons p rest ih =>
    have found : D.Keeps D.throws (Bridge.findProtocol p) (Bridge.findProtocol p)
        fun entry => ∀ m ∈ entry.methods, m.Permitted D.allowed :=
      .contained (Contained.findClass _) fun c => .bind (findMethods_keeps _ _) fun _ hmethods =>
        .pure hmethods
    refine .bind (quietly_keeps found) fun entry hentry => .bind ih fun entries hentries => .pure ?_
    intro e he
    rcases List.mem_append.1 he with first | later
    · exact hentry e (Option.mem_toList.1 first)
    · exact hentries e later

omit h in
theorem protocolOf?_keeps {err : ε → World → Prop} (o : ObjectId) :
    D.Keeps err (Bridge.protocolOf? o) (Bridge.protocolOf? o)
      fun entry => ∀ e ∈ entry, ∀ m ∈ e.methods, m.Permitted D.allowed := by
  have all : D.Keeps err Bridge.protocols Bridge.protocols
      fun entries => ∀ entry ∈ entries, ∀ m ∈ entry.methods, m.Permitted D.allowed := by
    refine .getState fun s hs => ?_
    cases known : s.protocols with
    | some entries => exact .pure (hs.protocols entries known)
    | none =>
      refine .bind (findProtocols_keeps _) fun entries hentries => .quiet ?_ fun _ =>
        .pure hentries
      refine .remember (fun _ => rfl) (fun _ => rfl) (fun _ => rfl) (fun _ => rfl) (fun _ => rfl)
        (fun _ _ hn => hn) fun s hs => { hs with protocols := ?_ }
      rintro _ ⟨⟩
      exact hentries
  refine .bind all fun entries hentries => .getRealm fun r _ => .pure fun e he => ?_
  exact hentries e (List.mem_of_find?_eq_some he)

omit h in
theorem withProtocol_keeps (o : ObjectId) {use use' : ProtocolEntry → BridgeM (Option α)}
    (each : ∀ entry : ProtocolEntry, (∀ m ∈ entry.methods, m.Permitted D.allowed) →
      D.Keeps (D.raises ts) (use entry) (use' entry) fun _ => True) :
    D.Keeps (D.raises ts) (Bridge.withProtocol o use) (Bridge.withProtocol o use')
      fun _ => True := by
  refine .bind (protocolOf?_keeps o) fun entry hentry => ?_
  cases entry with
  | none => exact .pure trivial
  | some entry => exact each entry (hentry entry rfl)

section Entry

variable {entry : ProtocolEntry} (he : ∀ m ∈ entry.methods, m.Permitted D.allowed) (o : ObjectId)

include he

theorem entryCall_keeps (name : String) (args : List Script.Value) :
    D.Keeps (D.raises ts) (entry.call b ts o name args) (entry.call b' ts o name args)
      fun _ => True := by
  unfold ProtocolEntry.call
  split
  · exact .pure trivial
  · rename_i method found
    exact .seq (invoke_keeps h _ (he _ (List.mem_of_find?_eq_some found)) _) fun _ => .pure trivial

theorem entryLength_keeps :
    D.Keeps (D.raises ts) (entry.length b ts o) (entry.length b' ts o) fun _ => True := by
  refine .seq (entryCall_keeps h he o _ _) fun found => ?_
  split
  · exact .pure trivial
  · exact .pure trivial
  · exact .complain _ _

theorem entryContains_keeps (item : Script.Value) :
    D.Keeps (D.raises ts) (entry.contains b ts o item) (entry.contains b' ts o item)
      fun _ => True :=
  .seq (entryCall_keeps h he o _ _) fun _ => .pure trivial

omit h he in
theorem resolveIndex_keeps (index : Script.Value) (length : Nat) :
    D.Keeps (D.raises ts) (Script.resolveIndex ts index length : BridgeM Nat)
      (Script.resolveIndex ts index length) fun _ => True := by
  unfold Script.resolveIndex
  split
  · exact .raise _
  · split
    · exact .pure trivial
    · exact .raise _

theorem listIndex_keeps (key : Script.Value) :
    D.Keeps (D.raises ts) (entry.listIndex b ts o key) (entry.listIndex b' ts o key)
      fun _ => True :=
  .seq (entryLength_keeps h he o) fun _ => .seq (resolveIndex_keeps _ _) fun _ => .pure trivial

theorem mapItem_keeps (key : Script.Value) :
    D.Keeps (D.raises ts) (entry.mapItem b ts o key) (entry.mapItem b' ts o key)
      fun _ => True := by
  refine .seq (entryCall_keeps h he o _ _) fun found => ?_
  cases found with
  | none => exact .pure trivial
  | some found =>
    refine .ite (fun _ => .seq (entryContains_keeps h he o key) fun known => ?_) fun _ =>
      .pure trivial
    refine .ite (fun _ => .seq (printedText_keeps h key) fun text => ?_) fun _ => .pure trivial
    exact .abort (.complain _ _)

theorem entryGetItem_keeps (key : Script.Value) :
    D.Keeps (D.raises ts) (entry.getItem b ts o key) (entry.getItem b' ts o key)
      fun _ => True := by
  unfold ProtocolEntry.getItem
  split
  · exact .seq (listIndex_keeps h he o key) fun _ => entryCall_keeps h he o _ _
  · exact mapItem_keeps h he o key
  · exact .pure trivial
  · exact .pure trivial

theorem entrySetItem_keeps (key value : Script.Value) :
    D.Keeps (D.raises ts) (entry.setItem b ts o key value) (entry.setItem b' ts o key value)
      fun _ => True := by
  unfold ProtocolEntry.setItem
  split
  · exact .seq (listIndex_keeps h he o key) fun _ => .seq (entryCall_keeps h he o _ _) fun _ =>
      .pure trivial
  · exact .seq (entryCall_keeps h he o _ _) fun _ => .pure trivial
  · exact .pure trivial
  · exact .pure trivial

theorem entryNumber_keeps :
    D.Keeps (D.raises ts) (entry.number b ts o) (entry.number b' ts o) fun _ => True := by
  refine .seq (entryCall_keeps h he o _ _) fun found => ?_
  split <;> exact .pure trivial

end Entry
end Discipline
end ScriptBridge
