import ScriptBridge.Proofs.Wrappers.Equality

/-!
# Maps with wrappers as keys

A map of the library in which wrappers are looked up answers as a finite map over what the wrapped
values look like. As long as no two characters are used that look like a question mark, that is a
finite map over the values.
-/

namespace ScriptBridge.Bridge

open Host (ClassId ObjectId Realm Primitive Method LibraryMethod BodyM Bodies)

variable {κ κ' : Type}

/-! ### Operations -/

/-- An operation on a map under a key. -/
inductive KeyOp (κ : Type) where
  | put (key : κ) (value : Host.Value)
  | get (key : κ)
  | remove (key : κ)

/-- A finite map to values of the Host. -/
abbrev KeyMap (κ : Type) := Finmap fun _ : κ => Host.Value

namespace KeyOp

def key : KeyOp κ → κ
  | put key _ | get key | remove key => key

def map (f : κ → κ') : KeyOp κ → KeyOp κ'
  | put key value => .put (f key) value
  | get key => .get (f key)
  | remove key => .remove (f key)

/-- The method that performs the operation. -/
def call : KeyOp κ → Call
  | put _ _ => ⟨"put", .mapPut, [Host.objectName, Host.objectName], Host.objectName⟩
  | get _ => ⟨"get", .mapGet, [Host.objectName], Host.objectName⟩
  | remove _ => mapOwn

/-- The arguments of the method, where an object is the key. -/
def args (x : ObjectId) : KeyOp κ → List Host.Value
  | put _ value => [.ref x, value]
  | get _ | remove _ => [.ref x]

/-- The method has the signature of the one that performs the operation. -/
structure Through (op : KeyOp κ) (n : Method) : Prop where
  named : n.name = op.call.name
  takes : n.params = op.call.params
  member : n.isStatic = false

variable [DecidableEq κ] [DecidableEq κ']

/-- Every operation answers the value that was there under the key, or null. -/
def answer (op : KeyOp κ) (m : KeyMap κ) : Host.Value := (m.lookup op.key).getD .null

def apply (m : KeyMap κ) : KeyOp κ → KeyMap κ
  | put key value => m.insert key value
  | get _ => m
  | remove key => m.erase key

/-- The answers to operations on a map that is empty at first, and the map in the end. -/
def run (ops : List (KeyOp κ)) : List Host.Value × KeyMap κ :=
  ops.foldl (fun done op => (done.1 ++ [op.answer done.2], op.apply done.2)) ([], ∅)

theorem run_snoc (ops : List (KeyOp κ)) (op : KeyOp κ) :
    run (ops ++ [op]) = ((run ops).1 ++ [op.answer (run ops).2], op.apply (run ops).2) := by
  rw [run, List.foldl_append]
  rfl

/-- By induction on the operations: other names for the keys, each for one of them, change no
answer. -/
theorem run_map {f : κ → κ'} {used : κ → Prop}
    (apart : ∀ k k', used k → used k' → f k = f k' → k = k') (ops : List (KeyOp κ))
    (keys : ∀ op ∈ ops, used op.key) :
    (run (ops.map (KeyOp.map f))).1 = (run ops).1 ∧
      ∀ k, used k → (run (ops.map (KeyOp.map f))).2.lookup (f k) = (run ops).2.lookup k := by
  induction ops using List.reverseRecOn with
  | nil => exact ⟨rfl, fun _ _ => rfl⟩
  | append_singleton ops op ih =>
    obtain ⟨answers, maps⟩ := ih fun o ho => keys o (List.mem_append_left _ ho)
    have mine : used op.key := keys op (List.mem_append_right _ (List.mem_singleton_self op))
    have answer : (op.map f).answer (run (ops.map (KeyOp.map f))).2 = op.answer (run ops).2 := by
      have name : (op.map f).key = f op.key := by cases op <;> rfl
      rw [KeyOp.answer, KeyOp.answer, name, maps _ mine]
    rw [List.map_append, List.map_singleton, run_snoc, run_snoc, answers, answer]
    refine ⟨rfl, fun k hk => ?_⟩
    cases op with
    | get key => exact maps k hk
    | put key value =>
      by_cases same : k = key
      · subst same
        simp only [KeyOp.map, KeyOp.apply, Finmap.lookup_insert]
      · have other : f k ≠ f key := fun names => same (apart k key hk mine names)
        simp only [KeyOp.map, KeyOp.apply, Finmap.lookup_insert_of_ne _ same,
          Finmap.lookup_insert_of_ne _ other, maps k hk]
    | remove key =>
      by_cases same : k = key
      · subst same
        simp only [KeyOp.map, KeyOp.apply, Finmap.lookup_erase]
      · have other : f k ≠ f key := fun names => same (apart k key hk mine names)
        simp only [KeyOp.map, KeyOp.apply, Finmap.lookup_erase_ne same,
          Finmap.lookup_erase_ne other, maps k hk]

end KeyOp

/-! ### Maps in the Host -/

variable {s r r' : Realm} {w v u : World} {h x : ObjectId} {n : Method}
  {m : KeyMap Host.Value} {pairs : List (Host.Value × Host.Value)}
  {entries : List (Host.Value × Host.Value)}

/-- A wrapper of a value that looks like this. -/
def Shows (s r : Realm) (k e : Host.Value) : Prop :=
  ∃ x a, e = .ref x ∧ Wrapper s r x a ∧ a.shown = k

/-- The object is a map of the library, which stands for a finite map. -/
structure Keyed (s r : Realm) (h : ObjectId) (m : KeyMap Host.Value) : Prop where
  held : r.Holds h
  ofClass : r.classIdOf h = s.require hashMapName
  stored : ∃ pairs entries, r.payload h = .map entries ∧
    Pairing (Shows s r) (fun value e => e = value) m pairs entries

/-- What maps with wrappers as keys need of the library. -/
structure Keying (s : Realm) : Prop extends Comparing s where
  map : s.Has (s.require hashMapName)
  calls : ∀ op : KeyOp Host.Value,
    s.Performs (s.require hashMapName) op.call.name op.call.params op.call.run

/-- Something happens in the Host that replaces no class of the library, touches no wrapper and does
not touch the map. -/
structure Aside (s r r' : Realm) (h : ObjectId) : Prop where
  includes : s.Includes r'
  compares : r'.Compares
  wrappers : ∀ x a, Wrapper s r x a → Wrapper s r' x a
  held : r'.Holds h
  same : r'.object h = r.object h

theorem Keyed.aside (keyed : Keyed s r h m) (aside : Aside s r r' h) : Keyed s r' h m := by
  obtain ⟨pairs, entries, payload, stands⟩ := keyed.stored
  refine ⟨aside.held, ?_, pairs, entries, ?_, stands.imp ?_ fun _ _ => id⟩
  · rw [Realm.classIdOf, aside.same]
    exact keyed.ofClass
  · rw [Realm.payload, aside.same]
    exact payload
  · rintro k e ⟨x, a, rfl, wraps, shown⟩
    exact ⟨x, a, rfl, aside.wrappers x a wraps, shown⟩

/-- Writing to a map touches no wrapper. -/
theorem Wrapper.storing {a : Host.Value} (wraps : Wrapper s w.outside.realm x a)
    (payload : w.outside.realm.payload h = .map entries) (contents : Host.Payload) :
    Wrapper s (w.storing h contents).outside.realm x a := by
  obtain ⟨p, exact, type, held, ofClass, boxed⟩ := wraps
  have other : x ≠ h := by
    rintro rfl
    rw [boxed] at payload
    cases payload
  refine ⟨p, exact, type, (Realm.holds_setPayload contents).mpr held,
    (Realm.classIdOf_setPayload contents held).trans ofClass, ?_⟩
  show ((Realm.setPayload h contents w.outside.realm).2.object x).payload = _
  rw [Realm.object_setPayload_other contents other]
  exact boxed

theorem Keyed.storing (keyed : Keyed s w.outside.realm h m) {m' : KeyMap Host.Value}
    (stands : Pairing (Shows s w.outside.realm) (fun value e => e = value) m' pairs entries) :
    Keyed s (w.storing h (.map entries)).outside.realm h m' := by
  obtain ⟨_, old, payload, -⟩ := keyed.stored
  refine ⟨(Realm.holds_setPayload _).mpr keyed.held,
    (Realm.classIdOf_setPayload _ keyed.held).trans keyed.ofClass, pairs, entries, ?_,
    stands.imp ?_ fun _ _ => id⟩
  · show ((Realm.setPayload h (.map entries) w.outside.realm).2.object h).payload = _
    rw [Realm.object_setPayload_self _ keyed.held]
  · rintro k e ⟨x, a, rfl, wraps, shown⟩
    exact ⟨x, a, rfl, wraps.storing payload _, shown⟩

/-- What is answered for a key is what is under it, or null. -/
theorem Under.eq {found : Option Host.Value} {e : Host.Value}
    (under : Under (fun value e => e = value) found e) : e = found.getD .null := by
  cases found with
  | none => exact under
  | some value => exact under

section

variable (keying : Keying s) (includes : s.Includes w.outside.realm)
  (compares : w.outside.realm.Compares)
  (callback callback' : Host.Callback → BodyM World Host.Value) (below : Unit → Bodies World)

include keying includes compares

/-- One operation under a wrapper answers as on the finite map. -/
theorem keyOp_run (keyed : Keyed s w.outside.realm h m) (op : KeyOp Host.Value)
    (wraps : Wrapper s w.outside.realm x op.key) (through : op.Through n) : ∃ v,
    Host.callMethod (.over callback fun _ => .over callback' below) (some h) n (op.args x) w =
        .ok ((op.map Host.Value.shown).answer m) v ∧
      s.Includes v.outside.realm ∧ v.outside.realm.Compares ∧
      (∀ y a, Wrapper s w.outside.realm y a → Wrapper s v.outside.realm y a) ∧
      Keyed s v.outside.realm h ((op.map Host.Value.shown).apply m) := by
  obtain ⟨pairs, entries, payload, stands⟩ := keyed.stored
  have tells : ∀ k e, Shows s w.outside.realm k e →
      Host.sameItem (.over callback' below) e (.ref x) w = .ok (k == op.key.shown) w := by
    rintro _ _ ⟨y, a, rfl, wrapped, rfl⟩
    exact sameItem_wrappers keying.toComparing includes callback' below compares wrapped wraps
  have wanted : Shows s w.outside.realm op.key.shown (.ref x) := ⟨x, _, rfl, wraps, rfl⟩
  have kept : ∀ contents y a, Wrapper s w.outside.realm y a →
      Wrapper s (w.storing h contents).outside.realm y a := fun contents y a wrapped =>
    wrapped.storing payload contents
  have arity : (op.args x).length = op.call.params.length := by cases op <;> rfl
  rw [callMethod_performs keying.toComparing includes callback _ (keying.calls op) keying.map
    keyed.ofClass through.named through.takes through.member arity]
  unfold Host.running
  cases op with
  | get key =>
    obtain ⟨y, ran, under⟩ := stands.mapGet_run payload tells
    refine ⟨w, ?_, includes, compares, fun _ _ => id, keyed⟩
    rw [show (KeyOp.get key).call.run.run (.over callback' below) (some h)
      ((KeyOp.get key).args x) w = .ok y w from ran, under.eq]
    rfl
  | put key value =>
    obtain ⟨old, pairs', entries', ran, stands', under⟩ :=
      stands.mapPut_run payload tells wanted (rfl : value = value)
    refine ⟨w.storing h (.map entries'), ?_, ⟨includes.kept, includes.classes⟩,
      compares.congr rfl rfl, kept _, keyed.storing stands'⟩
    rw [show (KeyOp.put key value).call.run.run (.over callback' below) (some h)
      ((KeyOp.put key value).args x) w = .ok old _ from ran, under.eq]
    rfl
  | remove key =>
    obtain ⟨old, v, pairs', entries', ran, ⟨rfl, rfl⟩ | rfl, stands', under⟩ :=
      stands.mapRemove_run payload tells
    · refine ⟨_, ?_, includes, compares, fun _ _ => id, keyed.held, keyed.ofClass, pairs', _,
        payload, stands'⟩
      rw [show (KeyOp.remove key).call.run.run (.over callback' below) (some h)
        ((KeyOp.remove key).args x) _ = .ok old _ from ran, under.eq]
      rfl
    · refine ⟨w.storing h (.map entries'), ?_, ⟨includes.kept, includes.classes⟩,
        compares.congr rfl rfl, kept _, keyed.storing stands'⟩
      rw [show (KeyOp.remove key).call.run.run (.over callback' below) (some h)
        ((KeyOp.remove key).args x) _ = .ok old _ from ran, under.eq]
      rfl

end

/-! ### Runs -/

/-- What becomes of a map in the course of time: operations are performed on it, and between them
anything happens that leaves it alone. The operations are listed with what they have answered. -/
inductive MapRun (s : Realm) (bodies : Bodies World) (h : ObjectId) (w : World) :
    List (KeyOp Host.Value × Host.Value) → World → Prop
  | start : MapRun s bodies h w [] w
  | aside {past v u} (done : MapRun s bodies h w past v)
      (aside : Aside s v.outside.realm u.outside.realm h) : MapRun s bodies h w past u
  | call {past v u op x n answer} (done : MapRun s bodies h w past v)
      (wraps : Wrapper s v.outside.realm x op.key) (through : op.Through n)
      (ran : Host.callMethod bodies (some h) n (op.args x) v = .ok answer u) :
      MapRun s bodies h w (past ++ [(op, answer)]) u

/-- The operations of a run, on what their keys look like. -/
def shownOps (past : List (KeyOp Host.Value × Host.Value)) : List (KeyOp Host.Value) :=
  past.map fun done => done.1.map Host.Value.shown

/-- No two different characters that look like a question mark are used. -/
def KeyOp.Clear (ops : List (KeyOp Host.Value)) : Prop :=
  ∀ o ∈ ops, ∀ o' ∈ ops, o.key.isBlurred = true → o'.key.isBlurred = true → o.key = o'.key

/-- Where no two keys look the same, what they look like is as good as they are. -/
theorem KeyOp.run_shown {ops : List (KeyOp Host.Value)} (clear : Clear ops) :
    (run (ops.map (KeyOp.map Host.Value.shown))).1 = (run ops).1 := by
  have apart : ∀ k k', (∃ o ∈ ops, o.key = k) → (∃ o ∈ ops, o.key = k') →
      k.shown = k'.shown → k = k' := by
    rintro _ _ ⟨o, mem, rfl⟩ ⟨o', mem', rfl⟩ same
    rcases (Host.Value.shown_eq_iff _ _).mp same with same | ⟨left, right⟩
    · exact same
    · exact clear o mem o' mem' left right
  exact (run_map apart ops fun op mem => ⟨op, mem, rfl⟩).1

/-- By induction on the run: the operations have answered as on a finite map, and the map stands for
what has become of that. -/
theorem MapRun.keyed (keying : Keying s)
    {callback callback' : Host.Callback → BodyM World Host.Value} {below : Unit → Bodies World}
    {past : List (KeyOp Host.Value × Host.Value)}
    (run : MapRun s (.over callback fun _ => .over callback' below) h w past v)
    (includes : s.Includes w.outside.realm) (compares : w.outside.realm.Compares)
    (keyed : Keyed s w.outside.realm h ∅) :
    s.Includes v.outside.realm ∧ v.outside.realm.Compares ∧
      past.map Prod.snd = (KeyOp.run (shownOps past)).1 ∧
      Keyed s v.outside.realm h (KeyOp.run (shownOps past)).2 := by
  induction run with
  | start => exact ⟨includes, compares, rfl, keyed⟩
  | aside _ aside ih =>
    obtain ⟨-, -, answers, keyed⟩ := ih
    exact ⟨aside.includes, aside.compares, answers, keyed.aside aside⟩
  | @call past v u op x n answer _ wraps through ran ih =>
    have shown : shownOps (past ++ [(op, answer)]) =
        shownOps past ++ [op.map Host.Value.shown] := List.map_append
    obtain ⟨includes, compares, answers, keyed⟩ := ih
    obtain ⟨u', ran', includes', compares', -, keyed'⟩ :=
      keyOp_run keying includes compares callback callback' below keyed op wraps through
    cases ran.symm.trans ran'
    rw [shown, KeyOp.run_snoc, List.map_append, answers]
    exact ⟨includes', compares', rfl, keyed'⟩

/-! ### The class library -/

/-- Checks that a method of the library is run on objects of the class. -/
def isPerforming (s : Realm) (c : ClassId) (call : Call) : Bool :=
  ((s.methods c).find? fun l =>
    l.name == call.name && l.params == call.params && !l.isStatic).bind libraryOf? == some call.run

theorem performs_of_isPerforming {c : ClassId} {call : Call} (h : isPerforming s c call = true) :
    s.Performs c call.name call.params call.run := by
  obtain ⟨m, found, runs⟩ := Option.bind_eq_some_iff.mp (beq_iff_eq.mp h)
  exact ⟨m, found, body_of_libraryOf? runs⟩

/-- The comparison of wrappers. -/
def equalsCall : Call := ⟨"equals", .wrapperEquals, [Host.objectName], "boolean"⟩

def keyCalls : List Call :=
  [(KeyOp.put () .null).call, (KeyOp.get ()).call, (KeyOp.remove ()).call]

theorem KeyOp.call_mem {κ : Type} (op : KeyOp κ) : op.call ∈ keyCalls := by
  cases op <;> simp [keyCalls, KeyOp.call]

/-- Checks that wrappers can be compared and be keys, and that the Host can be asked for equality. -/
def isKeying (s : Realm) : Bool :=
  ((Primitive.all.filter Primitive.isExact).all fun p => isPerforming s (wrapperOf s p) equalsCall) &&
    keyCalls.all (isPerforming s (s.require hashMapName)) &&
    decide ((s.require hashMapName).index < s.classes.size) &&
    ((s.methods (s.require Host.objectName)).find? fun m =>
      m.name == "equals" && m.params == [Host.objectName]).any (!·.isStatic)

theorem of_isKeying (stocked : Stocked s) (h : isKeying s = true) : Keying s ∧ s.Compares := by
  simp only [isKeying, Bool.and_eq_true, decide_eq_true_eq] at h
  obtain ⟨⟨⟨equals, calls⟩, map⟩, compares⟩ := h
  obtain ⟨m, found, member⟩ := (Option.any_eq_true _ _).mp compares
  refine ⟨⟨⟨stocked, fun p exact => ?_⟩, map, fun op => ?_⟩, m, found, by simpa using member⟩
  · exact performs_of_isPerforming (List.all_eq_true.mp equals p
      (List.mem_filter.mpr ⟨mem_primitives p, exact⟩))
  · exact performs_of_isPerforming (List.all_eq_true.mp calls _ op.call_mem)

theorem standard_keying : Keying .standard ∧ Realm.standard.Compares :=
  of_isKeying standard_stocked (by decide +kernel)

/-- There is a method for every operation. -/
theorem Keying.through (keying : Keying s) (op : KeyOp Host.Value) : ∃ n, op.Through n := by
  obtain ⟨m, found, -⟩ := keying.calls op
  have signature := List.find?_some found
  simp only [Bool.and_eq_true, beq_iff_eq, Bool.not_eq_true'] at signature
  exact ⟨m, signature.1.1, signature.1.2, signature.2⟩

/-! ### Wrappers of the library -/

/-- A wrapper is equal to another one if both wrap the same, or characters of which each is half of a
pair or a question mark. Maps of the library with wrappers as keys answer as finite maps over what
the keys look like, which are finite maps over the keys as long as no two such characters are used. -/
theorem wrappers_equal_as_shown {bodies : Bodies World} (answering : Answering bodies)
    (includes : Realm.standard.Includes w.outside.realm) :
    (∀ x y a b (n : Method), Wrapper .standard w.outside.realm x a →
      Wrapper .standard w.outside.realm y b → n.name = "equals" → n.params = [Host.objectName] →
      n.isStatic = false → ∃ equal,
        Host.callMethod bodies (some x) n [.ref y] w = .ok (.boolean equal) w ∧
        (equal = true ↔ a = b ∨ a.isBlurred = true ∧ b.isBlurred = true)) ∧
    (w.outside.realm.Compares → ∀ h, w.outside.realm.Holds h →
      w.outside.realm.classIdOf h = Realm.standard.require hashMapName →
      w.outside.realm.payload h = .map [] → ∀ past v, MapRun .standard bodies h w past v →
        past.map Prod.snd = (KeyOp.run (shownOps past)).1 ∧
        (KeyOp.Clear (past.map Prod.fst) →
          past.map Prod.snd = (KeyOp.run (past.map Prod.fst)).1) ∧
        ∀ (op : KeyOp Host.Value) x n, Wrapper .standard v.outside.realm x op.key → op.Through n →
          ∃ answer u, Host.callMethod bodies (some h) n (op.args x) v = .ok answer u ∧
            ∀ y a, Wrapper .standard v.outside.realm y a →
              Wrapper .standard u.outside.realm y a) := by
  obtain ⟨keying, -⟩ := standard_keying
  obtain ⟨callback, callback', below, rfl⟩ := answering
  constructor
  · intro x y a b n left right named takes member
    refine ⟨_, wrapperEquals_run keying.toComparing includes callback _ left right named takes
      member, ?_⟩
    rw [beq_iff_eq]
    exact Host.Value.shown_eq_iff a b
  · intro compares h held ofClass payload past v run
    have empty : Keyed .standard w.outside.realm h ∅ :=
      ⟨held, ofClass, [], [], payload, Pairing.empty⟩
    obtain ⟨includes', compares', answers, keyed⟩ := run.keyed keying includes compares empty
    refine ⟨answers, fun clear => ?_, fun op x n wraps through => ?_⟩
    · rw [answers, ← KeyOp.run_shown clear, List.map_map]
      rfl
    · obtain ⟨u, ran, -, -, kept, -⟩ :=
        keyOp_run keying includes' compares' callback callback' below keyed op wraps through
      exact ⟨_, u, ran, kept⟩

/-- Two halves of pairs in wrappers, and an empty map. -/
def halves (s : Realm) : World :=
  ⟨{}, { realm := { s with
    objects := #[⟨wrapperOf s .char, .boxed (.char 0xD800)⟩,
      ⟨wrapperOf s .char, .boxed (.char 0xD801)⟩, ⟨s.require hashMapName, .map []⟩] } }⟩

theorem halves_wrappers (s : Realm) :
    Wrapper s (halves s).outside.realm ⟨0⟩ (.char 0xD800) ∧
      Wrapper s (halves s).outside.realm ⟨1⟩ (.char 0xD801) :=
  ⟨⟨.char, rfl, rfl, Nat.succ_pos _, rfl, rfl⟩, ⟨.char, rfl, rfl, Nat.one_lt_succ_succ _, rfl, rfl⟩⟩

/-- What is stored under one half is found under the other one. -/
theorem wrappers_equal_as_shown_halves : ∃ bodies : Bodies World,
    (∃ n : Method, n.name = "equals" ∧ Host.callMethod bodies (some ⟨0⟩) n [.ref ⟨1⟩]
      (halves .standard) = .ok (.boolean true) (halves .standard)) ∧
    ∃ v, MapRun .standard bodies ⟨2⟩ (halves .standard)
      [(.put (.char 0xD800) (.int 1), .null), (.put (.char 0xD801) (.int 2), .int 1),
        (.get (.char 0xD800), .int 2)] v := by
  have specified := fun w => wrappers_equal_as_shown (w := w) (machine_answering 0)
  obtain ⟨keying, compares⟩ := standard_keying
  generalize Realm.standard = s at *
  obtain ⟨left, right⟩ := halves_wrappers s
  obtain ⟨equals, map⟩ := specified (halves s) ⟨fun _ => id, fun _ _ => rfl⟩
  generalize (Context.machine 2).bodies = bodies at *
  have maps := map (compares.congr rfl rfl) ⟨2⟩ (Nat.lt_succ_self _) rfl rfl
  obtain ⟨m, found, -⟩ := keying.equals .char rfl
  refine ⟨bodies, ?_, ?_⟩
  · have signature := List.find?_some found
    simp only [Bool.and_eq_true, beq_iff_eq, Bool.not_eq_true'] at signature
    obtain ⟨equal, ran, same⟩ :=
      equals _ _ _ _ m left right signature.1.1 signature.1.2 signature.2
    rw [same.mpr (.inr ⟨rfl, rfl⟩)] at ran
    exact ⟨m, signature.1.1, ran⟩
  · have step : ∀ {past v} (op : KeyOp Host.Value) (x : ObjectId),
        MapRun s bodies ⟨2⟩ (halves s) past v → Wrapper s v.outside.realm x op.key →
        ∃ answer u, MapRun s bodies ⟨2⟩ (halves s) (past ++ [(op, answer)]) u ∧
          ∀ y a, Wrapper s v.outside.realm y a → Wrapper s u.outside.realm y a := by
      intro past v op x run wraps
      obtain ⟨n, through⟩ := keying.through op
      obtain ⟨answer, u, ran, kept⟩ := (maps past v run).2.2 op x n wraps through
      exact ⟨answer, u, .call run wraps through ran, kept⟩
    obtain ⟨_, _, first, kept⟩ := step (.put (.char 0xD800) (.int 1)) ⟨0⟩ .start left
    obtain ⟨_, _, second, kept'⟩ :=
      step (.put (.char 0xD801) (.int 2)) ⟨1⟩ first (kept _ _ right)
    obtain ⟨_, v, third, -⟩ :=
      step (.get (.char 0xD800)) ⟨0⟩ second (kept' _ _ (kept _ _ left))
    let mark : Host.Value := .char 0x3F
    have merged : (KeyOp.run [.put mark (.int 1), .put mark (.int 2), .get mark]).1 =
        [.null, .int 1, .int 2] := by decide +kernel
    have answers := (maps _ v third).1.trans merged
    cases answers
    exact ⟨v, third⟩

end ScriptBridge.Bridge
