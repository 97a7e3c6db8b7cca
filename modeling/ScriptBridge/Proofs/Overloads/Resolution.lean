import ScriptBridge.Bridge.Member
import ScriptBridge.Proofs.Library.Formed
import ScriptBridge.Proofs.Overloads.Selection

/-!
# Overload resolution is sound and complete

What it means for a parameter type to be known, for an argument to match it and for an overload to
accept a call is said by the steps of the bridge themselves, run before anything else. Then the
call of a method is settled: the first overload that accepts the arguments is called, and where
there is none the call fails with the one error that says why, and nothing of the Host runs.
-/

namespace ScriptBridge.Bridge

open Host (ClassId ObjectId Realm Bodies HostM Method)
open Script (InterpreterId Exception)

variable {w v u : World} {ts : InterpreterId} {name : String} {value : Script.Value}
  {m : Method} {args : List Script.Value}

/-! ### What is known before a call -/

/-- The name leads to a class, and the class is classified. -/
def Classified (ts : InterpreterId) (w : World) (name : String) : Prop :=
  ∃ c u kind v, (Host.findClass name : HostM World ClassId) w = .ok c u ∧
    kindOf ts c u = .ok kind v

/-- The value matches a parameter of the class that the name leads to. -/
def MatchesNamed (ts : InterpreterId) (w : World) (value : Script.Value) (name : String) : Prop :=
  ∃ c u kind v x, (Host.findClass name : HostM World ClassId) w = .ok c u ∧
    kindOf ts c u = .ok kind v ∧ (matchesParam value c kind : BridgeM Bool) v = .ok true x

/-- The method has as many parameters as there are arguments, and every argument matches its
parameter. -/
def Accepts (ts : InterpreterId) (w : World) (args : List Script.Value) (m : Method) : Prop :=
  m.params.length = args.length ∧
    ∀ entry ∈ args.zip m.params, MatchesNamed ts w entry.1 entry.2

/-- What is found about a name. -/
theorem named_of_runs (formed : w.Formed) {c : ClassId} {kind : Kind}
    (found : (Host.findClass name : HostM World ClassId) w = .ok c u)
    (classified : kindOf ts c u = .ok kind v) :
    w.outside.realm.typeNamed? name = some (v.outside.realm.shape c) ∧
      w.kindAt (v.outside.realm.shape c) = .ok kind ∧ Descends w v ∧ v.outside.realm.Has c := by
  obtain ⟨known, later, has⟩ := typeNamed?_of_findClass formed found
  obtain ⟨kinds, last⟩ := kindAt_of_kindOf later.formed has classified
  have bottom := Realm.typeNamed?_has formed.coherent known
  rw [later.kindAt formed bottom] at kinds
  rw [last.realm.shape later.formed.coherent has]
  exact ⟨known, kinds, later.trans last, last.realm.kept c has⟩

theorem Classified.classifies (formed : w.Formed) (h : Classified ts w name) :
    w.Classifies name := by
  obtain ⟨c, u, kind, v, found, classified⟩ := h
  obtain ⟨known, kinds, -⟩ := named_of_runs formed found classified
  exact ⟨_, kind, known, kinds⟩

theorem Classified.matchesNamed_iff (formed : w.Formed) (h : Classified ts w name) :
    MatchesNamed ts w value name ↔ w.fitsNamed value name = true := by
  obtain ⟨c, u, kind, v, found, classified⟩ := h
  obtain ⟨known, kinds, later, has⟩ := named_of_runs formed found classified
  obtain ⟨x, last, asked⟩ := matchesParam_eq (ε := Script.Raised) later.formed has value kind
  have bottom := Realm.typeNamed?_has formed.coherent known
  have rule : w.fitsNamed value name = w.fits value (v.outside.realm.shape c) kind := by
    simp only [World.fitsNamed, known, kinds]
  rw [later.fits formed bottom] at asked
  rw [rule]
  constructor
  · rintro ⟨c', u', kind', v', x', found', classified', asked'⟩
    rw [found] at found'
    cases found'
    rw [classified] at classified'
    cases classified'
    rw [asked] at asked'
    exact (EStateM.Result.ok.inj asked').1
  · intro fits
    rw [fits] at asked
    exact ⟨c, u, kind, v, x, found, classified, asked⟩

theorem accepts_iff (formed : w.Formed) (classified : ∀ name ∈ m.params, Classified ts w name) :
    Accepts ts w args m ↔ w.accepts args m = true := by
  have one : ∀ entry ∈ args.zip m.params,
      (MatchesNamed ts w entry.1 entry.2 ↔ w.fitsNamed entry.1 entry.2 = true) :=
    fun entry hentry => (classified entry.2 (List.of_mem_zip hentry).2).matchesNamed_iff formed
  rw [Accepts, World.accepts, Bool.and_eq_true, beq_iff_eq, World.allFit, List.all_eq_true]
  exact and_congr Iff.rfl (forall₂_congr one)

/-! ### Refusals -/

/-- The error with which a call of overloads is refused that do not accept the arguments. -/
inductive Refusal (ts : InterpreterId) (w : World) (overloads : List Method)
    (args : List Script.Value) : Exception → Prop
  /-- A single overload has another number of parameters. -/
  | arity {m : Method} : overloads = [m] → m.params.length ≠ args.length →
    Refusal ts w overloads args
      { type := .builtin .runtime
        message := some s!"Invalid number of arguments: {args.length}, expected {m.params.length}." }
  /-- The only overload of the right arity has an argument that does not match. The position is
  that of the first one, counted from one. -/
  | argument {m : Method} {before after : List (Script.Value × String)} {value : Script.Value}
    {name message : String} : overloads.filter (·.params.length == args.length) = [m] →
    args.zip m.params = before ++ (value, name) :: after →
    (∀ entry ∈ before, MatchesNamed ts w entry.1 entry.2) → ¬MatchesNamed ts w value name →
    Refusal ts w overloads args
      { type := .builtin .type, message := some message
        detail := some (.position (before.length + 1)) }
  /-- None or several overloads have the right arity, and there are several overloads. -/
  | unmatched : overloads.length ≠ 1 →
    (overloads.filter (·.params.length == args.length)).length ≠ 1 →
    Refusal ts w overloads args
      { type := .builtin .runtime, message := some "Matching overloaded method not found." }

/-- The call fails with an error that is then pending, whatever the Host would do. -/
def Refuses (ts : InterpreterId) (e : Exception) (call : Bodies World → BridgeM Script.Value)
    (w : World) : Prop :=
  ∃ v, (v.memory.interpreter ts).error = some e ∧ ∀ bodies, call bodies w = .error {} v

theorem Refuses.of_raise {e : Exception} {call : Bodies World → BridgeM Script.Value}
    (made : ts.place < w.memory.interpreters.size) (later : Descends w v)
    (h : ∀ bodies, call bodies w = Script.raiseException ts e v) : Refuses ts e call w := by
  refine ⟨v.withError ts fun _ => some e, ?_, h⟩
  have here : ts.place < v.memory.interpreters.size := by rwa [later.made]
  have there : v.memory.interpreters[ts.place]? = some v.memory.interpreters[ts.place] :=
    Array.getElem?_eq_getElem here
  simp [World.withError, Script.World.onMemory, Script.Memory.onInterpreter,
    Script.Memory.interpreter, Array.getElem?_modify, there]

/-! ### Resolution -/

/-- What every call of overloads starts from: the overloads can be called as they are bound, their
parameter types are known, and the pins of the arguments can be given back. -/
structure Bound (ts : InterpreterId) (w : World) (target : Option ObjectId)
    (overloads : List Method) (args : List Script.Value) : Prop where
  some_overload : overloads ≠ []
  bound : target.isSome = true ∨ ∀ m ∈ overloads, m.isStatic = true
  formed : w.Formed
  made : ts.place < w.memory.interpreters.size
  classified : ∀ m ∈ overloads, ∀ name ∈ m.params, Classified ts w name
  committed : ∀ f, .foreign f ∈ args → ∃ bodies v, releasePin bodies ts f.place true w = .ok () v

section

variable {target : Option ObjectId} {overloads : List Method}

theorem Bound.classifies (h : Bound ts w target overloads args) :
    ∀ n ∈ overloads, ∀ name ∈ n.params, w.Classifies name :=
  fun n hn name hname => (h.classified n hn name hname).classifies h.formed

theorem Bound.prepared (h : Bound ts w target overloads args) (mem : m ∈ overloads) :
    Prepared w m args where
  formed := h.formed
  classifies := h.classifies m mem
  commits f hf := by
    obtain ⟨bodies, v, released⟩ := h.committed f hf
    exact commits_of_releasePin released

theorem Bound.accepts_iff (h : Bound ts w target overloads args) (mem : m ∈ overloads) :
    Accepts ts w args m ↔ w.accepts args m = true :=
  Bridge.accepts_iff h.formed (h.classified m mem)

/-- Once an overload is chosen, it is invoked. -/
theorem callOverloads_chosen (h : Bound ts w target overloads args) (mem : m ∈ overloads)
    {bodies : Bodies World} (chosen : selectOverload bodies ts overloads args w = .ok m v) :
    callOverloads bodies ts target overloads args w = invoke bodies ts target m args v := by
  have callable : (!m.isStatic && target.isNone) = false := by
    rcases h.bound with instance_ | static
    · simp [Option.isNone_eq_false_iff.mpr instance_]
    · simp [static m mem]
  unfold callOverloads
  rw [bind_ok chosen]
  simp only [callable]
  rfl

/-- The first overload that accepts the arguments is called with the converted arguments. -/
theorem callOverloads_accepts (h : Bound ts w target overloads args)
    {before after : List Method} (split : overloads = before ++ m :: after)
    (accepts : Accepts ts w args m) (first : ∀ n ∈ before, ¬Accepts ts w args n) :
    ∃ u converted v, ∀ bodies, coerceArguments bodies ts m args u = .ok converted v ∧
      callOverloads bodies ts target overloads args w = called bodies ts target m converted v := by
  have mem : m ∈ overloads := by simp [split]
  have accepted := (h.accepts_iff mem).mp accepts
  obtain ⟨x, later, chosen⟩ := selectOverload_accepts h.formed h.classifies split accepted
    (fun n hn => Bool.eq_false_iff.mpr fun other =>
      first n hn ((h.accepts_iff (by simp [split, hn])).mpr other)) ts
  have prepared := (h.prepared mem).later later
  obtain ⟨u, last, invoked⟩ := invoke_eq prepared target ts
  have converts := coerceArguments_eq (prepared.later last) accepts.1 ts
  rw [World.accepts, Bool.and_eq_true] at accepted
  rw [(later.trans last).allFit h.formed, accepted.2] at converts
  obtain ⟨converted, v, -, made⟩ := converts
  refine ⟨u, converted, v, fun bodies => ⟨made bodies, ?_⟩⟩
  rw [callOverloads_chosen h mem (chosen bodies), invoked bodies, bind_ok (made bodies)]

/-- The first misfit of a method is an argument that does not match, after others that do. -/
theorem Bound.refusal (h : Bound ts w target overloads args) (mem : m ∈ overloads)
    (single : candidates overloads args = [m]) {before : List (Script.Value × String)}
    (misfit : FirstMisfit w args m.params before) (message : String) :
    Refusal ts w overloads args
      { type := .builtin .type, message := some message
        detail := some (.position (before.length + 1)) } := by
  obtain ⟨value, name, after, split, unfit⟩ := misfit.misfit
  have named : ∀ entry ∈ before ++ (value, name) :: after, entry.2 ∈ m.params :=
    fun entry hentry => (List.of_mem_zip (split ▸ hentry)).2
  refine .argument single split (fun entry hentry => ?_) fun matching => ?_
  · have known := h.classified m mem entry.2 (named entry (by simp [hentry]))
    exact (known.matchesNamed_iff h.formed).mpr (misfit.fitting entry hentry)
  · have known := h.classified m mem name (named (value, name) (by simp))
    rw [known.matchesNamed_iff h.formed, unfit] at matching
    cases matching

/-- A single overload, or a single one of the right arity, that does not accept the arguments. -/
theorem callOverloads_sole (h : Bound ts w target overloads args) (sole : Sole overloads args m)
    (rejects : ¬Accepts ts w args m) :
    ∃ e, Refusal ts w overloads args e ∧
      Refuses ts e (callOverloads · ts target overloads args) w := by
  have mem := sole.mem
  have prepared := h.prepared mem
  obtain ⟨u, later, invoked⟩ := invoke_eq prepared target ts
  have invoked' : ∀ bodies, callOverloads bodies ts target overloads args w =
      (do called bodies ts target m (← coerceArguments bodies ts m args)) u := by
    intro bodies
    have chosen : selectOverload bodies ts overloads args w = .ok m w := by
      rw [selectOverload_sole sole]
      rfl
    rw [callOverloads_chosen h mem chosen, invoked bodies]
  by_cases arity : m.arity = args.length
  · have single : candidates overloads args = [m] := by
      rcases sole with rfl | single
      · exact List.filter_eq_self.mpr (by simpa using arity)
      · exact single
    have misfits : w.allFit args m.params = false := by
      refine Bool.eq_false_iff.mpr fun fits => rejects ((h.accepts_iff mem).mpr ?_)
      rw [World.accepts, fits, Bool.and_true]
      exact beq_iff_eq.mpr arity
    have converts := coerceArguments_eq (prepared.later later) arity ts
    rw [later.allFit h.formed, misfits] at converts
    obtain ⟨before, message, v, misfit, last, refused⟩ := converts
    refine ⟨_, h.refusal mem single (misfit.earlier later h.formed) message,
      .of_raise h.made (later.trans last) fun bodies => ?_⟩
    rw [invoked' bodies]
    exact bind_error (refused bodies)
  · refine ⟨_, .arity ?_ arity, .of_raise h.made later fun bodies => ?_⟩
    · refine sole.resolve_right fun single => arity ?_
      have candidate : m ∈ candidates overloads args := by
        rw [single]
        exact List.mem_singleton_self m
      exact beq_iff_eq.mp (List.mem_filter.mp candidate).2
    · rw [invoked' bodies]
      exact bind_error (coerceArguments_arity arity bodies)

/-- Several overloads come into question and none accepts the arguments. -/
theorem callOverloads_unmatched (h : Bound ts w target overloads args)
    (several : ¬∃ m, Sole overloads args m) (rejects : ∀ n ∈ overloads, ¬Accepts ts w args n) :
    ∃ e, Refusal ts w overloads args e ∧
      Refuses ts e (callOverloads · ts target overloads args) w := by
  have unmatched : overloads.find? (w.accepts args) = none := by
    refine List.find?_eq_none.mpr fun n hn accepts => rejects n hn ?_
    exact (h.accepts_iff hn).mpr accepts
  obtain ⟨v, later, tried⟩ := selectOverload_eq h.formed h.classifies several ts
  rw [unmatched] at tried
  refine ⟨_, .unmatched ?_ ?_, .of_raise h.made later fun bodies => bind_error (tried bodies)⟩
  · intro single
    obtain ⟨m, rfl⟩ := List.length_eq_one_iff.mp single
    exact several ⟨m, .inl rfl⟩
  · intro single
    obtain ⟨m, single⟩ := List.length_eq_one_iff.mp single
    exact several ⟨m, .inr single⟩

/-- A call reaches the Host exactly if some overload accepts the arguments, through the first one
that does; otherwise it fails with the error that says why. -/
theorem call_resolves {f : Script.Foreign} (view : w.viewAt f.place = .method name target overloads)
    (h : Bound ts w target overloads args) :
    (∀ before m after, overloads = before ++ m :: after → Accepts ts w args m →
      (∀ n ∈ before, ¬Accepts ts w args n) →
      ∃ u converted v, ∀ bodies, coerceArguments bodies ts m args u = .ok converted v ∧
        call bodies ts f args w = called bodies ts target m converted v) ∧
    ((∀ m ∈ overloads, ¬Accepts ts w args m) →
      ∃ e, Refusal ts w overloads args e ∧ Refuses ts e (call · ts f args) w) := by
  have calls : (call · ts f args w) = (callOverloads · ts target overloads args w) := by
    funext bodies
    have shown : (getProxy f.place : BridgeM Proxy) w =
        .ok ((w.outside.proxies[f.place]?).getD default) w := rfl
    unfold call
    rw [bind_ok shown, ← World.viewAt, view]
  simp only [Refuses, congrFun calls]
  refine ⟨fun before m after split accepts first => ?_, fun rejects => ?_⟩
  · exact callOverloads_accepts h split accepts first
  · by_cases sole : ∃ m, Sole overloads args m
    · obtain ⟨m, sole⟩ := sole
      exact callOverloads_sole h sole (rejects m sole.mem)
    · exact callOverloads_unmatched h sole rejects

end

/-! ### An overloaded method of the class library -/

/-- Checks that the overloads are static and the types of their parameters known. -/
def World.resolves (w : World) (overloads : List Method) : Bool :=
  overloads.all fun m => m.isStatic && m.params.all fun name =>
    ((w.outside.realm.typeNamed? name).bind fun t => (w.kindAt t).toOption).isSome

theorem World.classifies_of_isSome (h : ((w.outside.realm.typeNamed? name).bind fun t =>
    (w.kindAt t).toOption).isSome = true) : w.Classifies name := by
  obtain ⟨kind, found⟩ := Option.isSome_iff_exists.mp h
  obtain ⟨t, known, kinds⟩ := Option.bind_eq_some_iff.mp found
  refine ⟨t, kind, known, ?_⟩
  cases there : w.kindAt t with
  | error unavailable => simp [there, Except.toOption] at kinds
  | ok found => simpa [there, Except.toOption] using kinds

theorem World.Classifies.classified (formed : w.Formed) (h : w.Classifies name)
    (ts : InterpreterId) : Classified ts w name := by
  obtain ⟨t, kind, known, kinds⟩ := h
  obtain ⟨c, u, later, found, has, shape⟩ := findClass_eq formed known
  have bottom := Realm.typeNamed?_has formed.coherent known
  rw [← later.kindAt formed bottom, ← shape] at kinds
  obtain ⟨v, -, classified⟩ := kindOf_eq later.formed has kinds ts
  exact ⟨c, u, kind, v, found, classified⟩

/-- Static overloads, and arguments without arrays that would have to give a pin back. -/
theorem Bound.of_resolves {overloads : List Method} (some_overload : overloads ≠ [])
    (resolves : w.resolves overloads = true) (formed : w.Formed)
    (made : ts.place < w.memory.interpreters.size) (plain : ∀ f, .foreign f ∉ args) :
    Bound ts w none overloads args where
  some_overload := some_overload
  bound := .inr fun m hm => ((Bool.and_eq_true _ _).mp (List.all_eq_true.mp resolves m hm)).1
  formed := formed
  made := made
  classified m hm name hname := by
    have checked := ((Bool.and_eq_true _ _).mp (List.all_eq_true.mp resolves m hm)).2
    have known := World.classifies_of_isSome (List.all_eq_true.mp checked name hname)
    exact known.classified formed ts
  committed f hf := absurd hf (plain f)

/-- The overloads of `max` in `java.lang.Math`. -/
def maxima : List Method :=
  [⟨"max", "java.lang.Math", ["int", "int"], "int", true, [], .inl (.library .maxInt)⟩,
    ⟨"max", "java.lang.Math", ["long", "long"], "long", true, [], .inl (.library .maxLong)⟩,
    ⟨"max", "java.lang.Math", ["double", "double"], "double", true, [], .inl (.library .maxDouble)⟩]

/-- The state once the overloads of `max` are shown. -/
def World.offering (w : World) : World :=
  .after ((viewMethod "max" none maxima : BridgeM Script.Value) w)

theorem World.offering_viewAt (w : World) :
    w.offering.viewAt w.outside.proxies.size = .method "max" none maxima := by
  have proxies : w.offering.outside.proxies =
      w.outside.proxies.push ⟨.method "max" none maxima, none⟩ := rfl
  rw [viewAt, proxies]
  simp

/-- What is checked about the overloads of `max` and the arguments `5L` and `7`. -/
theorem offering_checks : (World.opened.offering.isFormed &&
    World.opened.offering.resolves maxima &&
    decide (0 < World.opened.offering.memory.interpreters.size) &&
    maxima.map (World.opened.offering.accepts [.long 5, .int 7]) == [false, true, false]) = true := by
  decide +kernel

theorem call_resolves_long : ∃ u converted v, ∀ bodies,
    coerceArguments bodies ⟨0⟩ maxima[1] [.long 5, .int 7] u = .ok converted v ∧
      call bodies ⟨0⟩ ⟨.method, World.opened.outside.proxies.size⟩ [.long 5, .int 7]
        World.opened.offering = called bodies ⟨0⟩ none maxima[1] converted v := by
  have checks := offering_checks
  have view := World.offering_viewAt .opened
  generalize World.opened.offering = w at checks view ⊢
  generalize World.opened.outside.proxies.size = place at view ⊢
  simp only [Bool.and_eq_true, decide_eq_true_eq, beq_iff_eq] at checks
  obtain ⟨⟨⟨isFormed, resolves⟩, made⟩, accepted⟩ := checks
  have bound : Bound ⟨0⟩ w none maxima [.long 5, .int 7] :=
    .of_resolves (by simp [maxima]) resolves (World.formed_of_isFormed isFormed) made (by simp)
  simp only [maxima, List.map_cons, List.map_nil, List.cons.injEq] at accepted
  refine (call_resolves view bound).1 [maxima[0]] maxima[1] [maxima[2]] rfl ?_ fun n hn => ?_
  · exact (bound.accepts_iff (by simp [maxima])).mpr accepted.2.1
  · rw [List.mem_singleton] at hn
    subst hn
    rw [bound.accepts_iff (by simp [maxima])]
    simpa [maxima] using accepted.1

end ScriptBridge.Bridge
