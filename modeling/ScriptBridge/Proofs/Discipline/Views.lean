import ScriptBridge.Proofs.Discipline.Quiet

/-!
# Views come and go quietly

Making a view takes a reference that nobody else has, and retiring one drops the reference that it
keeps. Neither concerns the references by which contexts keep their class loaders.
-/

namespace ScriptBridge

open Host (ClassId ObjectId Realm GlobalRef Body)
open Bridge (World State Proxy View)
open Script (InterpreterId)

variable {allowed : Body → Prop} {ε α : Type}

theorem mem_viewRefs {s : State} {n : Nat} :
    n ∈ s.viewRefs ↔ (∃ p ∈ s.proxies, ∃ g ∈ p.held, g.number = n) ∨
      (∃ g ∈ s.conversionRefs, g.number = n) ∨
      ∃ entry ∈ s.types, ∃ token, entry.2 = .ok token ∧ ∃ g ∈ token.held, g.number = n := by
  simp only [State.viewRefs, List.mem_append, List.mem_filterMap, List.mem_map, List.mem_flatMap,
    Option.map_eq_some_iff, Array.mem_toList_iff, or_assoc, Option.mem_def]
  refine or_congr_right (or_congr_right (exists_congr fun entry => and_congr_right fun _ => ?_))
  obtain ⟨_, slot⟩ := entry
  cases slot with
  | error => simp
  | ok token => simp

/-! ### New views -/

/-- The methods that the view stands for are allowed. -/
def Bridge.View.Permitted (allowed : Body → Prop) (view : View) : Prop :=
  ∀ name target methods, view = .method name target methods → ∀ m ∈ methods, m.Permitted allowed

theorem permitted_push {s : State} (h : s.Permitted allowed) {p : Proxy}
    (hp : p.view.Permitted allowed) {r : Realm} (hr : r.Permitted allowed) :
    { s with realm := r, proxies := s.proxies.push p }.Permitted allowed := by
  refine ⟨hr, h.accessors, h.loadClass, h.protocols, h.listings, ?_⟩
  intro q hq
  rcases Array.mem_push.1 hq with old | rfl
  · exact h.overloads q old
  · exact hp

namespace Quiet

theorem viewMethod {overloads : List Host.Method} (h : ∀ m ∈ overloads, m.Permitted allowed)
    (name : String) (target : Option ObjectId) :
    Quiet allowed (Bridge.viewMethod name target overloads : EStateM ε World Script.Value) := by
  refine .bind .getState fun s => .bind ?_ fun _ => .pure _
  refine .remember (fun _ => rfl) (fun _ => rfl) (fun _ => rfl) (fun _ => rfl) (fun _ => rfl) ?_ ?_
  · intro s n hn
    rw [mem_viewRefs] at hn ⊢
    refine hn.imp_left ?_
    rintro ⟨p, hp, g, hg, rfl⟩
    rcases Array.mem_push.1 hp with old | rfl
    · exact ⟨p, old, g, hg, rfl⟩
    · cases hg
  · refine fun s hs => permitted_push hs ?_ hs.realm
    rintro _ _ _ ⟨⟩
    exact h

/-- A view with a reference of its own. -/
theorem heldView {view : View} (h : view.Permitted allowed) (kind : Script.ForeignKind)
    (o : ObjectId) :
    Quiet allowed ((do
      let g ← Host.onRealm (Realm.newGlobalRef o)
      Bridge.newProxy kind ⟨view, some g⟩) : EStateM ε World Script.Value) := by
  intro w
  refine ⟨_, _, rfl, .of_outside rfl rfl rfl rfl (.inr rfl) ?_ ?_ ?_ ?_⟩
  · exact fun g hg => List.mem_cons_of_mem _ hg
  · exact Nat.le_succ _
  · intro n hn
    rw [mem_viewRefs] at hn ⊢
    rcases hn with ⟨p, hp, g, hg, rfl⟩ | hn
    · rcases Array.mem_push.1 hp with old | rfl
      · exact .inl (.inl ⟨p, old, g, hg, rfl⟩)
      · cases hg
        exact .inr ⟨Nat.lt_succ_self _, Nat.le_refl _⟩
    · exact .inl (.inr hn)
  · exact fun hs => permitted_push hs h hs.realm

theorem viewObject (o : ObjectId) :
    Quiet allowed (Bridge.viewObject o : EStateM ε World Script.Value) :=
  heldView (by rintro _ _ _ ⟨⟩) _ o

theorem viewArray (o : ObjectId) :
    Quiet allowed (Bridge.viewArray o : EStateM ε World Script.Value) :=
  heldView (by rintro _ _ _ ⟨⟩) _ o

theorem viewClass (c : ClassId) :
    Quiet allowed (Bridge.viewClass c : EStateM ε World Script.Value) :=
  .bind (.onRealm (.mirror c)) fun mirror => heldView (by rintro _ _ _ ⟨⟩) _ mirror

end Quiet

/-! ### Changed views -/

theorem mem_modify {xs : Array α} {i : Nat} {f : α → α} {a : α} (h : a ∈ xs.modify i f) :
    a ∈ xs ∨ ∃ b ∈ xs, a = f b := by
  obtain ⟨j, hj, rfl⟩ := Array.getElem_of_mem h
  rw [Array.getElem_modify]
  have hj' : j < xs.size := by simpa using hj
  split
  · exact .inr ⟨xs[j], Array.getElem_mem hj', rfl⟩
  · exact .inl (Array.getElem_mem hj')

namespace Quiet

/-- A change of views that takes no reference and shows no other methods. -/
theorem modifyProxy {f : Proxy → Proxy} (held : ∀ p, ∀ g ∈ (f p).held, g ∈ p.held)
    (methods : ∀ p : Proxy, p.view.Permitted allowed → (f p).view.Permitted allowed) (place : Nat) :
    Quiet allowed (Bridge.modifyProxy place f : EStateM ε World Unit) := by
  refine .remember (fun _ => rfl) (fun _ => rfl) (fun _ => rfl) (fun _ => rfl) (fun _ => rfl) ?_ ?_
  · intro s n hn
    rw [mem_viewRefs] at hn ⊢
    refine hn.imp_left ?_
    rintro ⟨p, hp, g, hg, rfl⟩
    rcases mem_modify hp with old | ⟨q, hq, rfl⟩
    · exact ⟨p, old, g, hg, rfl⟩
    · exact ⟨q, hq, g, held q g hg, rfl⟩
  · intro s hs
    refine { hs with overloads := fun p hp => ?_ }
    rcases mem_modify hp with old | ⟨q, hq, rfl⟩
    · exact hs.overloads p old
    · exact methods q (hs.overloads q hq)

theorem setPin (place : Nat) (pin : Option Bridge.Pin) :
    Quiet allowed (Bridge.setPin place pin : EStateM ε World Unit) := by
  refine .modifyProxy (fun p g hg => ?_) (fun p hp => ?_) place
  · split at hg <;> exact hg
  · split
    · rintro _ _ _ ⟨⟩
    · exact hp

theorem takePin (place : Nat) :
    Quiet allowed (Bridge.takePin place : EStateM ε World (Option (ObjectId × Bridge.Pin))) := by
  refine .bind (.getProxy place) fun p => ?_
  split
  · exact .bind (.setPin place none) fun _ => .pure _
  · exact .pure _

end Quiet

/-! ### Calls that only fail -/

/-- Takes the pending throwable away. -/
def Bridge.World.hushed (w : World) : World :=
  ⟨w.memory, { w.outside with realm := { w.outside.realm with pending := none } }⟩

theorem Background.hush (w : World) : Background allowed w w.hushed := by
  refine .of_outside rfl rfl rfl rfl (.inl rfl) (fun _ hg => hg) (Nat.le_refl _)
    (fun n hn => .inl hn) fun hs => { hs with realm := hs.realm }

/-- But for the throwable that it leaves when it fails, the call changes the background only. -/
def Contained (allowed : Body → Prop) (call : Host.HostM World α) : Prop :=
  ∀ w, match call w with
    | .ok _ w' => Background allowed w w'
    | .error _ w' => Background allowed w w'.hushed

namespace Contained

variable {β : Type}

theorem of_quiet {call : Host.HostM World α} (h : Quiet allowed call) :
    Contained allowed call := by
  intro w
  obtain ⟨a, w', hw, changed⟩ := h w
  rw [hw]
  exact changed

theorem bind {call : Host.HostM World α} {next : α → Host.HostM World β}
    (h : Contained allowed call) (h' : ∀ a, Contained allowed (next a)) :
    Contained allowed (call >>= next) := by
  intro w
  have first := h w
  simp only [Bind.bind, EStateM.bind]
  cases hw : call w with
  | error e w' => rwa [hw] at first
  | ok a w' =>
    rw [hw] at first
    have second := h' a w'
    simp only
    cases hw' : next a w' with
    | error e w'' =>
      rw [hw'] at second
      exact first.trans second
    | ok b w'' =>
      rw [hw'] at second
      exact first.trans second

theorem throwNew (name : String) (message : Option String) :
    Contained allowed (Host.throwNew name message : Host.HostM World α) := by
  intro w
  have made : Background allowed w
      ⟨w.memory, { w.outside with
        realm := (Realm.newThrowable name message none w.outside.realm).2 }⟩ :=
    .of_extends (Host.Extending.newThrowable name message none _)
  exact made.trans (.hush _)

theorem arrayElements (o : ObjectId) : Contained allowed (Host.arrayElements o (ω := World)) := by
  refine .bind (.of_quiet .getRealm) fun r => ?_
  split
  · exact .of_quiet (.pure _)
  · exact throwNew _ _

theorem releaseArrayElements (o : ObjectId) (items : List Host.Value) (commit : Bool) :
    Contained allowed (Host.releaseArrayElements o items commit : Host.HostM World Unit) := by
  refine .bind (.bind (arrayElements o) fun _ => .of_quiet (.pure _)) fun length => ?_
  split
  · split
    · exact .of_quiet (.onRealm (.setPayload _ _))
    · exact throwNew _ _
  · exact .of_quiet (.pure _)

theorem quietly {call : Host.HostM World α} (h : Contained allowed call) :
    Quiet allowed (Bridge.quietly call : EStateM ε World (Option α)) := by
  intro w
  have called := h w
  simp only [Bridge.quietly, Script.attempt, Bind.bind, EStateM.bind]
  cases hw : call w with
  | ok a w' =>
    rw [hw] at called
    exact ⟨_, _, rfl, called⟩
  | error e w' =>
    rw [hw] at called
    exact ⟨_, _, rfl, called⟩

end Contained

/-! ### Letting go -/

theorem deleteGlobalRef_state (g : GlobalRef) (r : Realm) : (Realm.deleteGlobalRef g r).2 =
    if r.globals.any (·.number == g.number) then
      { r with globals := r.globals.filter (·.number != g.number), deleted := r.deleted + 1 }
    else r := rfl

theorem deleted_realm (g : GlobalRef) (r : Realm) :
    (Realm.deleteGlobalRef g r).2.pending = r.pending ∧
      (Realm.deleteGlobalRef g r).2.created = r.created ∧
      (Realm.deleteGlobalRef g r).2.classes = r.classes ∧
      ∀ h ∈ r.globals, h.number ≠ g.number → h ∈ (Realm.deleteGlobalRef g r).2.globals := by
  rw [deleteGlobalRef_state]
  split
  · refine ⟨rfl, rfl, rfl, fun h hh hne => List.mem_filter.2 ⟨hh, ?_⟩⟩
    simpa using hne
  · exact ⟨rfl, rfl, rfl, fun h hh _ => hh⟩

/-- The reference of a view is dropped together with the mention of it. -/
theorem Background.dropView (place : Nat) {w : World} {g : GlobalRef}
    (held : (w.outside.proxies[place]?.getD default).held = some g) :
    Background allowed w
      ⟨w.memory, { w.outside with
        realm := (Realm.deleteGlobalRef g w.outside.realm).2
        proxies := w.outside.proxies.modify place fun p => { p with held := none } }⟩ := by
  obtain ⟨pending, created, classes, globals⟩ := deleted_realm g w.outside.realm
  have viewed : g.number ∈ w.outside.viewRefs := by
    cases found : w.outside.proxies[place]? with
    | none =>
      rw [found] at held
      cases held
    | some p =>
      rw [found] at held
      exact mem_viewRefs.2 (.inl ⟨p, Array.mem_of_getElem? found, g, held, rfl⟩)
  have fewer : ∀ n ∈ { w.outside with
        realm := (Realm.deleteGlobalRef g w.outside.realm).2
        proxies := w.outside.proxies.modify place fun p => { p with held := none } : State }.viewRefs,
      n ∈ w.outside.viewRefs := by
    intro n hn
    rw [mem_viewRefs] at hn ⊢
    refine hn.imp_left ?_
    rintro ⟨p, hp, g', hg', rfl⟩
    dsimp only at hp
    rcases mem_modify hp with old | ⟨q, _, rfl⟩
    · exact ⟨p, old, g', hg', rfl⟩
    · cases hg'
  refine ⟨rfl, .inr pending, fun apart => ?_, fun hs => ?_⟩
  · refine ⟨fun h hh => ?_, apart.distinct, fun h hh hn => apart.others h hh (fewer _ hn), ?_, ?_⟩
    · refine globals h (apart.kept h hh) fun same => apart.others h hh ?_
      rwa [same]
    · exact fun h hh => created ▸ apart.loaders h hh
    · exact fun n hn => created ▸ apart.views n (fewer n hn)
  · refine { hs with realm := ?_, overloads := fun p hp => ?_ }
    · intro c m hm
      rw [Realm.classOf, classes] at hm
      exact hs.realm c m hm
    · dsimp only at hp
      rcases mem_modify hp with old | ⟨q, hq, rfl⟩
      · exact hs.overloads p old
      · exact hs.overloads q hq

namespace Quiet

/-- Drops the reference of a view, if it has one. -/
theorem dropHeld (place : Nat) :
    Quiet allowed ((do
      match (← Bridge.getProxy place).held with
      | none => Pure.pure ()
      | some g =>
        Host.onRealm (Realm.deleteGlobalRef g)
        Bridge.modifyProxy place fun p => { p with held := none }) : EStateM ε World Unit) := by
  intro w
  have read : (Bridge.getProxy place : EStateM ε World _) w =
    .ok (w.outside.proxies[place]?.getD default) w := rfl
  rw [bind_ok read]
  cases held : (w.outside.proxies[place]?.getD default).held with
  | none => exact ⟨_, _, rfl, .refl w⟩
  | some g => exact ⟨_, _, rfl, .dropView place held⟩

theorem retire (place : Nat) : Quiet allowed (Bridge.retire place : EStateM ε World Unit) := by
  refine .bind (.takePin place) fun pin => ?_
  cases pin with
  | none => exact dropHeld place
  | some pin =>
    exact .bind (Contained.releaseArrayElements _ _ _).quietly fun _ => dropHeld place

theorem retireAll (places : List Nat) :
    Quiet allowed (Bridge.retireAll places : EStateM ε World Unit) := by
  induction places with
  | nil => exact .pure ()
  | cons place rest ih => exact .bind (.retire place) fun _ => ih

theorem reclaim (all : Bool) : Quiet allowed (Bridge.reclaim all : EStateM ε World Unit) := by
  refine .bind .getState fun s => .bind .getMemory fun m => ?_
  have settled : Quiet allowed
      (Script.modifyMemory fun m => { m with released := [] } : EStateM ε World Unit) :=
    .elsewhere (fun _ => rfl) fun _ => rfl
  split
  · exact .bind (retireAll _) fun _ => settled
  · exact settled

end Quiet
end ScriptBridge
