import ScriptBridge.Bridge.ArrayView
import ScriptBridge.Proofs.Discipline.Conversions
import ScriptBridge.Proofs.Pins.Blindness

/-!
# Conversions do not look at an array

To convert a value the bridge classifies classes, reads wrappers and opens views, and a throwable
that comes back has to be described. For this it asks methods of the Host without arguments. If
these do not look at the array, nothing of it does.
-/

namespace ScriptBridge.Bridge

open Host (ClassId ObjectId Realm HostM BodyM Method Thrown Throw)
open Script (InterpreterId Family Exception)

variable {V : Viewpoint} {ε α β : Type} {P : α → Prop} {Q : β → Prop} {bodies : Host.Bodies World}
  {ts : InterpreterId}

namespace Viewpoint

/-- Methods of the Host that are asked without arguments neither read nor change the array. -/
def Discreet (V : Viewpoint) (bodies : Host.Bodies World) : Prop :=
  ∀ body, V.allowed body → ∀ target, V.Blind (bodies.method body target []) fun _ => True

namespace Blind

/-! ### The script side -/

theorem setError (e : Option Exception) :
    V.Blind (Script.setError ts e : EStateM ε World Unit) fun _ => True := .modifyMemory _

theorem lookup? (module : Script.ModuleRef) (name : String) :
    V.Blind (Script.lookup? module name : EStateM ε World _) fun _ => True :=
  .getMemory fun _ => .pure trivial

theorem getInterpreter :
    V.Blind (Script.getInterpreter ts : EStateM ε World _) fun _ => True :=
  .getMemory fun _ => .pure trivial

theorem raiseException (e : Exception) :
    V.Blind (Script.raiseException ts e : BridgeM α) P :=
  .bind (.setError _) fun _ _ => .throw _

theorem complain (family : Family) (message : String) :
    V.Blind (Bridge.complain ts family message : BridgeM α) P := .raiseException _

theorem giveUp : V.Blind (Script.giveUp : BridgeM α) P :=
  .bind (.modifyMemory _) fun _ _ => .throw _

theorem reportLines (lines : List String) :
    V.Blind (Bridge.reportLines lines : EStateM ε World Unit) fun _ => True := by
  induction lines with
  | nil => exact .pure trivial
  | cons line rest ih => exact .bind (.modifyMemory _) fun _ _ => ih

/-! ### Failing calls -/

theorem throwObject (o : ObjectId) : V.Blind (Host.throwObject o : HostM World α) P :=
  .bind (.onRealm (.setPending _)) fun _ _ => .throw _

theorem throwNew (name : String) (message : Option String) :
    V.Blind (Host.throwNew name message : HostM World α) P :=
  .bind (.onRealm (.newThrowable _ _ _)) fun o _ => throwObject o

theorem badArgument (message : String) : V.Blind (Host.badArgument message : HostM World α) P :=
  throwNew _ _

theorem raise (failure : Throw) : V.Blind (Host.raise failure : HostM World α) P := by
  cases failure with
  | new name message => exact throwNew _ _
  | object o => exact throwObject o
  | pending => exact .getRealm (fun _ _ _ => rfl) fun _ _ => .ite (.throw _) (throwNew _ _)

theorem running {body : BodyM World α} (h : V.Blind body P) : V.Blind (Host.running body) P := by
  intro items w shows
  cases h items w shows with
  | ok ended same reaches ha =>
    refine .ok ?_ ?_ reaches ha
    · rw [Host.running, ended]
    · rw [Host.running, same]
  | @error failure v ended same reaches =>
    have first : Host.running body w = Host.raise failure v := by rw [Host.running, ended]
    have second : Host.running body (V.direct items w) = Host.raise failure (V.direct items v) := by
      rw [Host.running, same]
    cases raise (P := P) failure items v reaches.shows with
    | ok ended' same' reaches' ha =>
      exact .ok (first.trans ended') (second.trans same') (reaches.trans reaches') ha
    | error ended' same' reaches' =>
      exact .error (first.trans ended') (second.trans same') (reaches.trans reaches')

/-! ### Members -/

theorem findClass (name : String) :
    V.Blind (Host.findClass name : HostM World ClassId) fun _ => True := by
  refine .bind (.onRealm (.lookupClass? name)) fun found _ => ?_
  cases found with
  | none => exact throwNew _ _
  | some c => exact .pure trivial

theorem findMember {candidates : List Method} (c : ClassId) (name : String) (params : List String) :
    V.Blind (Host.findMember candidates c name params : HostM World Method)
      fun m => m ∈ candidates ∧ m.params = params := by
  unfold Host.findMember
  cases found : candidates.find? fun m => m.name == name && m.params == params with
  | some m =>
    have suits := List.find?_some found
    simp only [Bool.and_eq_true, beq_iff_eq] at suits
    exact .pure ⟨List.mem_of_find?_eq_some found, suits.2⟩
  | none => exact .getRealm (fun _ _ _ => rfl) fun _ _ => throwNew _ _

theorem getMethod (c : ClassId) (name : String) (params : List String) :
    V.Blind (Host.getMethod c name params : HostM World Method)
      fun m => m.Answers V.allowed ∧ m.params = params :=
  .getRealm (fun r items _ => by rw [Realm.methods_holding]) fun _ answers =>
    .mono (findMember c name params) fun _ found => ⟨answers.methods found.1, found.2⟩

theorem runChosen (discreet : V.Discreet bodies) (chosen : Option ObjectId × Method)
    (permitted : chosen.2.Permitted V.allowed) :
    V.Blind (match chosen.2.body with
      | .inl body => Host.running (bodies.method body chosen.1 [])
      | .inr _ => Host.badArgument "constructors are invoked through new_object" :
        HostM World Host.Value) fun _ => True := by
  cases body : chosen.2.body with
  | inl body' => exact .running (discreet body' (permitted body' body) chosen.1)
  | inr => exact badArgument _

theorem callMethod (discreet : V.Discreet bodies) (target : Option ObjectId) {m : Method}
    (answers : m.Answers V.allowed) :
    V.Blind (Host.callMethod bodies target m [] : HostM World Host.Value) fun _ => True := by
  unfold Host.callMethod
  by_cases bare : m.params = []
  · rw [if_neg (by simp [Method.arity, bare])]
    refine .ite (runChosen discreet (none, m) (answers bare)) ?_
    cases target with
    | none => exact .bind (throwNew _ _) fun _ none => (none : False).elim
    | some o =>
      refine .getRealm (fun r items array => ?_) fun r permitted =>
        runChosen discreet (some o, r.resolveVirtual (r.classIdOf o) m)
          (permitted.resolveVirtual _ answers bare)
      rw [Realm.classIdOf_holding array, Realm.resolveVirtual_holding]
  · have wrong : ([] : List Host.Value).length ≠ m.arity := by
      simpa [Method.arity, eq_comm] using bare
    rw [if_pos wrong]
    exact .bind (badArgument _) fun _ none => (none : False).elim

theorem stringChars (o : ObjectId) :
    V.Blind (Host.stringChars o : HostM World String) fun _ => True := by
  refine .getRealm (fun r items array => ?_) fun r _ => ?_
  · rw [Realm.text?_holding array, Realm.classNameOf_holding array]
  · split
    · exact .pure trivial
    · exact throwNew _ _

theorem toText (discreet : V.Discreet bodies) (o : ObjectId) :
    V.Blind (Host.toText bodies o : HostM World String) fun _ => True := by
  refine .getRealm (fun r items array => ?_) fun r _ => ?_
  · rw [Realm.text?_holding array]
    rfl
  · split
    · exact .pure trivial
    · refine .bind (getMethod _ _ _) fun m found => .bind (callMethod discreet _ found.1) fun _ _ => ?_
      split
      · exact stringChars _
      · exact .pure trivial

/-! ### Throwables -/

theorem throwableText (discreet : V.Discreet bodies) (o : ObjectId) :
    V.Blind (Bridge.throwableText bodies o : EStateM ε World String) fun _ => True := by
  refine .bind (.attempt (toText discreet o)) fun tried _ => ?_
  cases tried with
  | ok text => exact .pure trivial
  | error e =>
    refine .bind (.onRealm (.setPending _)) fun _ _ => .getRealm (fun r items array => ?_) fun _ _ =>
      .pure trivial
    rw [Realm.classNameOf_holding array]

theorem link? : V.Blind (Bridge.link? ts : EStateM ε World (Option Link)) fun _ => True :=
  .getState (fun _ _ _ => rfl) fun _ _ => .bind (P := fun _ => True)
    (.getState (fun _ _ _ => rfl) fun _ _ => .bind getInterpreter fun _ _ => .pure trivial)
    fun _ _ => .pure trivial

theorem capture (discreet : V.Discreet bodies) :
    V.Blind (Bridge.capture bodies ts : EStateM ε World _) fun _ => True := by
  refine .getRealm (fun _ _ _ => rfl) fun r _ => ?_
  cases r.pending with
  | none => exact .pure trivial
  | some throwable =>
    have taken : V.Blind ((do
        Host.onRealm (Realm.setPending none)
        return some (throwable, ← Bridge.throwableText bodies throwable)) :
          EStateM ε World (Option (ObjectId × String))) fun _ => True :=
      .bind (.onRealm (.setPending _)) fun _ _ => .bind (throwableText discreet _) fun _ _ =>
        .pure trivial
    refine .bind link? fun link _ => .ite ?_ taken
    exact .bind (.onRealm .describe) fun _ _ => .bind (reportLines _) fun _ _ => taken

theorem mappedType? (text : String) :
    V.Blind (Bridge.mappedType? ts text : EStateM ε World _) fun _ => True := by
  refine .getState (fun _ _ _ => rfl) fun s _ => .ite (.pure trivial) (.bind link? fun link _ => ?_)
  cases link with
  | none => exact .pure trivial
  | some link =>
    refine .bind (lookup? _ _) fun found _ => ?_
    split <;> exact .pure trivial

theorem errorFor (o : ObjectId) (text : String) :
    V.Blind (Bridge.errorFor ts o text : EStateM ε World Exception) fun _ => True := by
  refine .getRealm (fun r items array => ?_) fun r _ => ?_
  · rw [Realm.classNameOf_holding array]
  · exact .ite (.bind (.pure (P := fun _ => True) trivial) fun _ _ => .pure trivial)
      (.bind (mappedType? text) fun _ _ => .pure trivial)

theorem receiveThrowable (discreet : V.Discreet bodies) :
    V.Blind (Bridge.receiveThrowable bodies ts : BridgeM Bool) fun _ => True := by
  refine .bind (capture discreet) fun found _ => ?_
  cases found with
  | none => exact .pure trivial
  | some found =>
    exact .bind (errorFor _ _) fun _ _ => .bind (setError _) fun _ _ => .pure trivial

theorem hostCall (discreet : V.Discreet bodies) {call : HostM World α} (h : V.Blind call P) :
    V.Blind (Bridge.hostCall bodies ts call) P := by
  refine .bind (.attempt h) fun tried found => ?_
  cases tried with
  | ok a => exact .pure (found a rfl)
  | error e =>
    exact .bind (receiveThrowable discreet) fun _ _ => .ite (.throw _) (complain _ _)

/-! ### Type tokens -/

theorem publishedPrimitive (c : ClassId) :
    V.Blind (Bridge.publishedPrimitive c : EStateM ε World _) fun _ => True := by
  refine .getRealm (fun r items array => ?_) fun r _ => ?_
  · rw [Realm.fields_holding]
    have mirrored : (r.holding V.array items).mirrored? = r.mirrored? :=
      funext fun p => Realm.mirrored?_holding array p
    rw [mirrored]
    rfl
  · split
    · exact .pure trivial
    · dsimp only
      split <;> exact .pure trivial

theorem load (name : TokenName) :
    V.Blind (name.load : EStateM ε World (Except String TypeToken)) fun _ => True := by
  refine .bind (.onRealm (.lookupClass? _)) fun found _ => ?_
  cases found with
  | none => exact .bind (.onRealm (.setPending _)) fun _ _ => .pure trivial
  | some c =>
    refine .bind (.onRealm (.mirror c)) fun o _ => .bind (.onRealm (.newGlobalRef o)) fun _ _ => ?_
    refine .ite (.bind (publishedPrimitive c) fun published _ => ?_) (.pure trivial)
    cases published with
    | error reason => exact .pure trivial
    | ok primitive =>
      exact .bind (.onRealm (.newGlobalRef _)) fun _ _ => .pure trivial

theorem getTypes {k : TypeCache → EStateM ε World β} (h : ∀ types, V.Blind (k types) Q) :
    V.Blind (Bridge.getTypes >>= k) Q :=
  .get (k := fun w => k w.outside.types) (fun _ _ _ => rfl) fun _ _ _ => h _

theorem answer (name : TokenName) (slot : Except String TypeToken) :
    V.Blind (match slot with
      | .ok token => Pure.pure token
      | .error reason => MonadExcept.throw ⟨name, reason⟩ : EStateM Unavailable World TypeToken)
      fun _ => True := by
  cases slot with
  | ok token => exact .pure trivial
  | error reason => exact .throw _

theorem resolve (name : TokenName) :
    V.Blind (Bridge.resolve name : EStateM Unavailable World TypeToken) fun _ => True := by
  have kept : ∀ slot, V.Blind (Bridge.modifyTypes ((name, slot) :: ·) :
      EStateM Unavailable World Unit) fun _ => True := fun slot =>
    .remember (f := fun s => { s with types := (name, slot) :: s.types }) (fun _ _ _ => rfl)
      (fun _ => rfl) (fun _ => rfl) fun _ h => h
  refine .getTypes fun types => ?_
  cases types.lookup name with
  | some slot => exact answer name slot
  | none =>
    have read := Blind.bind (Blind.bind (load name) fun slot _ =>
      .bind (kept slot) fun _ _ => .pure (P := fun _ => True) (a := slot) trivial) fun slot _ =>
        answer name slot
    simp only [bind_assoc, pure_bind] at read ⊢
    exact read

theorem identify (c : ClassId) (names : List TokenName) :
    V.Blind (Bridge.identify c names : EStateM Unavailable World (Option TokenName))
      fun _ => True := by
  induction names with
  | nil => exact .pure trivial
  | cons name rest ih => exact .bind (resolve name) fun _ _ => .ite (.pure trivial) ih

theorem classify (c : ClassId) :
    V.Blind (Bridge.classify c : EStateM Unavailable World Kind) fun _ => True := by
  refine .bind (identify c _) fun found _ => ?_
  cases found with
  | some name => exact .pure trivial
  | none =>
    have last : V.Blind ((do
        let token ← Bridge.resolve .type
        if (← Host.getRealm).isAssignable c token.ofClass then return .type
        let _ ← Bridge.resolve .object
        return .object) : EStateM Unavailable World Kind) fun _ => True := by
      refine .bind (resolve .type) fun token _ => .getRealm (fun r items _ => ?_) fun r _ =>
        .ite (.pure trivial) (.bind (resolve .object) fun _ _ => .pure trivial)
      rw [Realm.isAssignable_holding]
    exact .getRealm (fun _ _ _ => rfl) fun _ _ => .ite (.pure trivial) last

theorem kindOf (c : ClassId) : V.Blind (Bridge.kindOf ts c) fun _ => True := by
  refine .bind (.attempt (classify c)) fun tried _ => ?_
  cases tried with
  | ok kind => exact .pure trivial
  | error u => exact raiseException _

/-! ### Wrappers -/

theorem findAccessors (names : List (Kind × String × String)) :
    V.Blind (Bridge.findAccessors names)
      fun table => ∀ entry ∈ table, entry.2.Answers V.allowed := by
  induction names with
  | nil => exact .pure (by simp)
  | cons name rest ih =>
    refine .bind (findClass _) fun c _ => .bind (getMethod _ _ _) fun m found =>
      .bind ih fun table known => .pure ?_
    exact List.forall_mem_cons.2 ⟨found.1, known⟩

theorem accessor? (kind : Kind) :
    V.Blind (Bridge.accessor? kind) fun found => ∀ m, found = some m → m.Answers V.allowed := by
  have chosen : ∀ table : List (Kind × Method), (∀ entry ∈ table, entry.2.Answers V.allowed) →
      ∀ m, table.lookup kind = some m → m.Answers V.allowed := by
    intro table answers m found
    obtain ⟨k, hk⟩ := Discipline.mem_of_lookup found
    exact answers _ hk
  refine .getState (fun _ _ _ => rfl) fun s answers => ?_
  cases known : s.accessors with
  | some table => exact .pure (chosen table (answers table known))
  | none =>
    refine .bind (findAccessors _) fun table found => .bind (.remember (fun _ _ _ => rfl)
      (fun _ => rfl) (fun _ => rfl) fun _ _ => ?_) fun _ _ => .pure (chosen table found)
    rintro _ ⟨⟩
    exact found

theorem readWrapper (discreet : V.Discreet bodies) (o : ObjectId) (kind : Kind) :
    V.Blind (Bridge.readWrapper bodies ts o kind) fun _ => True := by
  refine .bind (hostCall discreet (accessor? kind)) fun found answers => ?_
  cases found with
  | none => exact complain _ _
  | some m => exact hostCall discreet (callMethod discreet _ (answers m rfl))

theorem ownKind (o : ObjectId) : V.Blind (Bridge.ownKind ts o) fun _ => True := by
  refine .getRealm (fun r items array => ?_) fun r _ => kindOf _
  rw [Realm.classIdOf_holding array]

end Blind

/-! ### Opening views -/

/-- The step is blind, and a view that it returns is a new one. -/
def Opens (V : Viewpoint) (step : BridgeM Script.Value) : Prop :=
  ∀ items w, V.Shows items w → V.BlindAt step
    (fun value => ∀ f, value = .foreign f → w.outside.proxies.size ≤ f.place) items w

namespace Opens

theorem plain {value : Script.Value} (h : ∀ f, value ≠ .foreign f) :
    V.Opens (Pure.pure value) :=
  fun _ _ shows => .pure shows fun f same => absurd same (h f)

theorem throwing {step : BridgeM Script.Value} (h : V.Blind step fun _ => False) : V.Opens step :=
  fun items w shows => (h items w shows).mono fun _ none => none.elim

theorem after {step : BridgeM α} {k : α → BridgeM Script.Value} (h : V.Blind step P)
    (h' : ∀ a, P a → V.Opens (k a)) : V.Opens (step >>= k) :=
  fun items w shows => (h items w shows).bind fun a v _ ha reaches =>
    (h' a ha items v reaches.shows).mono fun _ fresh f same =>
      Nat.le_trans reaches.size (fresh f same)

theorem getRealm {k : Realm → BridgeM Script.Value}
    (same : ∀ (r : Realm) items, r.HasArray V.array → k (r.holding V.array items) = k r)
    (h : ∀ r, V.Opens (k r)) : V.Opens (Host.getRealm >>= k) :=
  fun items w shows => .get (k := fun w => k w.outside.realm) (same _ items shows.hasArray)
    (h _ items w shows)

theorem held {o : ObjectId} (kind : Script.ForeignKind) {view : View} (unpinned : view.pin? = none) :
    V.Opens (do
      let g ← Host.onRealm (Realm.newGlobalRef o)
      newProxy kind ⟨view, some g⟩) :=
  .after (.onRealm (.newGlobalRef o)) fun _ _ _ _ shows => .newProxy shows kind unpinned

theorem viewObject (o : ObjectId) : V.Opens (Bridge.viewObject o) := held _ rfl

theorem viewArray (o : ObjectId) : V.Opens (Bridge.viewArray o) := held _ rfl

theorem viewClass (c : ClassId) : V.Opens (Bridge.viewClass c) :=
  .after (.onRealm (.mirror c)) fun _ _ => held _ rfl

theorem ofPrimitive (value : Host.Value) : V.Opens (Pure.pure (Bridge.ofPrimitive value)) := by
  cases value <;> exact plain nofun

variable (discreet : V.Discreet bodies)

include discreet

theorem viewAs (o : ObjectId) (kind : Kind) {rest : BridgeM Script.Value} (h : V.Opens rest) :
    V.Opens (do
      match ← Bridge.viewAs bodies ts o kind with
      | some value => Pure.pure value
      | none => rest) := by
  cases kind with
  | array =>
    simp only [Bridge.viewAs, bind_assoc, pure_bind, bind_pure]
    exact viewArray o
  | string =>
    simp only [Bridge.viewAs, bind_assoc, pure_bind]
    exact .after (.hostCall discreet (.stringChars o)) fun _ _ => plain nofun
  | type =>
    simp only [Bridge.viewAs, bind_assoc]
    refine .getRealm (fun r items array => by rw [Realm.mirrored?_holding array]) fun r => ?_
    cases r.mirrored? o with
    | some c =>
      simp only [bind_assoc, pure_bind, bind_pure]
      exact viewClass c
    | none =>
      simp only [bind_assoc, pure_bind, bind_pure]
      exact viewObject o
  | object | void =>
    simp only [Bridge.viewAs, bind_assoc, pure_bind, bind_pure]
    exact viewObject o
  | byte | short | int | long | float | double | boolean | char =>
    simp only [Bridge.viewAs, pure_bind]
    exact h

theorem unboxWithin (steps : Nat) : ∀ (o : ObjectId) (kind : Kind),
    V.Opens (Bridge.unboxWithin bodies ts steps o kind) := by
  induction steps with
  | zero => exact fun _ _ => .throwing .giveUp
  | succ steps ih =>
    refine fun o kind => viewAs discreet o kind (.after (.readWrapper discreet o kind) fun read _ => ?_)
    split
    · exact .after (.ownKind _) fun _ _ => ih _ _
    · exact ofPrimitive _

theorem unbox (object : Option ObjectId) (kind : Kind) :
    V.Opens (Bridge.unbox bodies ts object kind) := by
  cases object with
  | none => exact .plain nofun
  | some o => exact .getRealm (fun _ _ _ => rfl) fun _ => unboxWithin discreet _ o kind

theorem unboxObject (object : Option ObjectId) : V.Opens (Bridge.unboxObject bodies ts object) := by
  cases object with
  | none => exact .plain nofun
  | some o => exact .after (.ownKind o) fun _ _ => unbox discreet _ _

theorem toScript (value : Host.Value) (kind : Kind) :
    V.Opens (Bridge.toScript bodies ts value kind) := by
  unfold Bridge.toScript
  split
  · split
    · exact unbox discreet _ _
    · exact unboxObject discreet _
  · exact ofPrimitive _

end Opens

/-! ### Elements and arguments -/

variable {items : List Host.Value} {w : World}

/-- Once the pin is given back, the array holds what the script sees. -/
theorem releasePin_direct (h : V.Shows items w) :
    Bridge.releasePin bodies ts V.place true w = .ok () (V.direct items w) := by
  cases pinned : w.pinAt V.array V.place with
  | none =>
    obtain ⟨component, old, view⟩ := h.views
    cases old with
    | none =>
      rw [direct_eq h pinned]
      exact releasePin_none view true
    | some old => cases (pinAt_of_view view).symm.trans pinned
  | some pin =>
    obtain ⟨component, view⟩ := view_of_pinAt pinned
    obtain ⟨stored, known, length⟩ := h.stored
    rw [← committed_eq h pinned]
    exact releasePin_run view known fun _ => by rw [length, h.copied pin pinned]

theorem BlindAt.takePin (h : V.Shows items w) {place : Nat} (apart : place ≠ V.place) :
    V.BlindAt (Bridge.takePin place : EStateM ε World _)
      (fun found => ∀ o pin, found = some (o, pin) → o = V.array → pin.changed = false) items w := by
  refine .getProxy (fun mine => absurd mine apart) ?_
  have viewed : ((w.outside.proxies[place]?).getD default).view = w.viewAt place := rfl
  rw [viewed]
  cases view : w.viewAt place with
  | array o component pin =>
    cases pin with
    | none => exact .pure h nofun
    | some pin =>
      refine .bind (.setPin h apart nofun) fun _ v _ _ reaches => .pure reaches.shows ?_
      rintro _ _ ⟨⟩ rfl
      exact h.others place pin apart (pinAt_of_view view)
  | object | type | method => exact .pure h nofun

namespace Blind

theorem arrayElements {o : ObjectId} (other : o ≠ V.array) :
    V.Blind (Host.arrayElements o : HostM World (List Host.Value)) fun _ => True := by
  refine .getRealm (fun r items _ => ?_) fun r _ => ?_
  · rw [Realm.payload_holding_other items other]
  · split
    · exact .pure trivial
    · exact badArgument _

/-- Arrays keep their length. -/
theorem arrayLength (o : ObjectId) :
    V.Blind (Host.arrayLength o : HostM World Nat) fun _ => True := by
  by_cases other : o = V.array
  · intro items w shows
    obtain ⟨stored, known, length⟩ := shows.stored
    have run : ∀ v stored, v.elements? V.array = some stored →
        (Host.arrayLength V.array : HostM World Nat) v = .ok stored.length v := by
      intro v stored known
      unfold Host.arrayLength
      rw [bind_ok (arrayElements_run known)]
      rfl
    subst other
    refine .ok (run _ _ known) ?_ (.refl shows) trivial
    rw [length]
    exact run _ _ (elements?_filling (show (w.repinned V.place none).elements? V.array = _ from known) _)
  · exact .bind (arrayElements other) fun _ _ => .pure trivial

theorem releaseArrayElements {o : ObjectId} {items : List Host.Value} {commit : Bool}
    (still : o = V.array → commit = false) :
    V.Blind (Host.releaseArrayElements o items commit : HostM World Unit) fun _ => True := by
  refine .bind (arrayLength o) fun length _ => ?_
  by_cases committed : commit = true
  · have other : o ≠ V.array := fun same => by
      cases committed.symm.trans (still same)
    rw [if_pos committed]
    exact .ite (.onRealm (.setPayload other _)) (throwNew _ _)
  · rw [if_neg committed]
    exact .pure trivial

theorem releasePin (discreet : V.Discreet bodies) (place : Nat) :
    V.Blind (Bridge.releasePin bodies ts place true) fun _ => True := by
  intro items w shows
  by_cases mine : place = V.place
  · subst mine
    exact .ok (releasePin_direct shows) (releasePin_direct (shows_direct shows)) (reaches_direct shows)
      trivial
  · refine .bind (.takePin shows mine) fun found v _ clean reaches => ?_
    cases found with
    | none => exact .pure reaches.shows trivial
    | some found =>
      have still : found.1 = V.array → (true && found.2.changed) = false := fun same => by
        simpa using clean found.1 found.2 rfl same
      exact hostCall discreet (releaseArrayElements still) items v reaches.shows

theorem viewOf? {value : Script.Value} {k : Option View → EStateM ε World β}
    (same : ∀ view pin, k (some (View.repinned pin view)) = k (some view))
    (h : ∀ view, V.Blind (k view) Q) : V.Blind (Bridge.viewOf? value >>= k) Q := by
  cases value with
  | foreign f =>
    simp only [Bridge.viewOf?, bind_assoc, pure_bind]
    exact .getProxy (fun p pin => same p.view pin) fun _ => h _
  | none | bool | int | long | float | text | tuple | module | lambda | errorType | native | errorInstance => exact h _

/-- What a view knows of its elements is no element. -/
theorem rememberComponent (place : Nat) (known : ClassId × Kind) :
    V.Blind (Bridge.modifyProxy place fun p =>
      match p.view with
      | .array o _ pin => { p with view := .array o (some known) pin }
      | _ => p : EStateM ε World Unit) fun _ => True := by
  intro items w shows
  refine .modifyProxy shows (fun p => ?_) (fun _ p => ?_) fun p o pin => ?_
  · obtain ⟨view, held⟩ := p
    cases view <;> rfl
  · obtain ⟨view, held⟩ := p
    cases view with
    | array o known pin => cases pin <;> exact ⟨rfl, rfl⟩
    | object | type | method => exact ⟨rfl, rfl⟩
  · obtain ⟨view, held⟩ := p
    cases view with
    | array o known pin => cases pin <;> exact .inl
    | object | type | method => exact .inl

theorem component (place : Nat) : V.Blind (Bridge.component ts place) fun _ => True := by
  refine .getProxy (fun p pin => ?_) fun p => ?_
  · obtain ⟨view, held⟩ := p
    cases view with
    | array o known old => cases known <;> rfl
    | object | type | method => rfl
  obtain ⟨view, held⟩ := p
  cases view with
  | array o known pin =>
    cases known with
    | some known => exact .pure trivial
    | none =>
      refine .getRealm (fun r items array => ?_) fun r _ => ?_
      · rw [Realm.classIdOf_holding array]
        rfl
      · split
        · exact complain _ _
        · exact .bind (kindOf _) fun _ _ => .bind (rememberComponent place _) fun _ _ => .pure trivial
  | object | type | method => exact complain _ _

theorem shownObject? (value : Script.Value) :
    V.Blind (Bridge.shownObject? value : EStateM ε World _) fun _ => True := by
  refine .getRealm (fun r items array => ?_) fun r _ => .viewOf? (fun view pin => ?_) fun _ =>
    .pure trivial
  · have classes : (r.holding V.array items).classIdOf = r.classIdOf :=
      funext (Realm.classIdOf_holding array)
    rw [classes]
  · cases view <;> rfl

theorem stringClass? : V.Blind (Bridge.stringClass? : EStateM ε World _) fun _ => True := by
  refine .bind (.attempt (resolve .string)) fun tried _ => ?_
  cases tried <;> exact .pure trivial

theorem assignable (source target : ClassId) :
    V.Blind (Bridge.assignable source target : EStateM ε World Bool) fun _ => True :=
  .getRealm (fun r items _ => by rw [Realm.isAssignable_holding]) fun _ _ => .pure trivial

theorem stringFits (param : ClassId) :
    V.Blind (Bridge.stringFits param : EStateM ε World Bool) fun _ => True := by
  refine .bind stringClass? fun found _ => ?_
  cases found with
  | some c => exact assignable c param
  | none => exact .pure trivial

theorem mismatch (position : Nat) (message : String) :
    V.Blind (Bridge.mismatch ts position message : BridgeM α) P := .raiseException _

theorem textValue (text : String) : V.Blind (Bridge.textValue text) fun _ => True :=
  .bind (.onRealm (.newText text)) fun _ _ => .pure trivial

theorem coerceToString (value : Script.Value) (position : Nat) :
    V.Blind (Bridge.coerceToString ts value position) fun _ => True := by
  unfold Bridge.coerceToString
  split
  · exact textValue _
  · refine .bind (shownObject? value) fun shown _ => .bind stringClass? fun found _ => ?_
    split
    · exact .bind (assignable _ _) fun _ _ => .ite (.pure trivial) (mismatch _ _)
    · exact mismatch _ _

theorem coerceToArray (discreet : V.Discreet bodies) (value : Script.Value) (param : ClassId)
    (position : Nat) : V.Blind (Bridge.coerceToArray bodies ts value param position) fun _ => True := by
  refine .viewOf? (fun view pin => ?_) fun view => ?_
  · cases value <;> cases view <;> rfl
  · split
    · refine .getRealm (fun r items array => by rw [Realm.classIdOf_holding array]) fun r _ =>
        .bind (assignable _ _) fun _ _ => .ite ?_ (mismatch _ _)
      exact .bind (releasePin discreet _) fun _ _ => .pure trivial
    · exact mismatch _ _

theorem coerceToObject (discreet : V.Discreet bodies) (value : Script.Value) (param : ClassId)
    (position : Nat) : V.Blind (Bridge.coerceToObject bodies ts value param position) fun _ => True := by
  unfold Bridge.coerceToObject
  split
  · exact .bind (stringFits _) fun _ _ => .ite (textValue _) (mismatch _ _)
  · refine .bind (shownObject? value) fun shown _ => ?_
    cases shown with
    | none => exact mismatch _ _
    | some shown =>
      refine .bind (assignable _ _) fun _ _ => .ite ?_ (mismatch _ _)
      split
      · exact .bind (releasePin discreet _) fun _ _ => .pure trivial
      · exact .pure trivial

theorem coercePrimitive (kind : Kind) (value : Script.Value) (position : Nat) (message : String) :
    V.Blind (match primitiveOf? kind value with
      | some v => Pure.pure v
      | none => Bridge.mismatch ts position message : BridgeM Host.Value) fun _ => True := by
  split
  · exact .pure trivial
  · exact mismatch _ _

theorem coerce (discreet : V.Discreet bodies) (value : Script.Value) (param : ClassId) (kind : Kind)
    (position : Nat) : V.Blind (Bridge.coerce bodies ts value param kind position) fun _ => True := by
  cases kind with
  | string => exact .ite (.pure trivial) (coerceToString value position)
  | array => exact .ite (.pure trivial) (coerceToArray discreet value param position)
  | object => exact .ite (.pure trivial) (coerceToObject discreet value param position)
  | type =>
    refine .viewOf? (fun view pin => ?_) fun view => ?_
    · cases value <;> cases view <;> rfl
    · split
      · exact .pure trivial
      · exact .pure trivial
      · exact mismatch _ _
  | void => exact mismatch _ _
  | char | byte | short | int | long | float | double | boolean => exact coercePrimitive _ _ _ _

end Blind
end Viewpoint
end ScriptBridge.Bridge
