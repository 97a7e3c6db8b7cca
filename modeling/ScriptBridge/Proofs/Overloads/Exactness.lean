import Mathlib
import ScriptBridge.Proofs.Conversions.RoundTrip
import ScriptBridge.Proofs.Overloads.Coercion
import ScriptBridge.Proofs.Overloads.Resolution

/-!
# What numbers and characters become as arguments

A script's number is 64 bits wide and its character any code point; a parameter may be a narrower
primitive. The conversion goes by the type of the value alone: a number of the right type is cut to
the width of the parameter, and a character to its first UTF-16 unit. So what the Host is given
equals what the script wrote exactly if the primitive has room for it, and an overload runs on the
number that was written exactly then.
-/

namespace ScriptBridge.Bridge

open Host (ClassId ObjectId Realm Bodies HostM Method)
open Script (InterpreterId)

variable {w v u : World} {ts : InterpreterId} {name : String} {value : Script.Value} {kind : Kind}
  {m : Method} {args : List Script.Value} {position : Nat}

/-! ### Room -/

/-- The width of the whole numbers of a kind. -/
def Kind.bits? : Kind → Option Nat
  | .byte => some 8
  | .short => some 16
  | .int => some 32
  | .long => some 64
  | _ => none

/-- The whole number can be written in two's complement with so many bits. -/
def fitsBits (bits : Nat) (i : Int) : Bool :=
  decide (-2 ^ (bits - 1) ≤ i) && decide (i < 2 ^ (bits - 1))

/-- A primitive of the kind has room for the number, or for the characters of the text. -/
def Kind.hasRoom (kind : Kind) (value : Script.Value) : Bool :=
  match kind.bits? with
  | some bits => (anyWhole? value).any fun i => fitsBits bits i.toInt
  | none => value.asText?.any fun text => text.toList.all (·.toNat < 0x10000)

/-- The kinds of whole numbers and of characters. -/
def exactKinds : List Kind := [.byte, .short, .int, .long, .char]

/-- Cutting a whole number to some bits keeps it exactly if they have room for it. -/
theorem bmod_eq_iff_fitsBits (bits : Nat) (some_bit : 0 < bits) (i : Int) :
    i.bmod (2 ^ bits) = i ↔ fitsBits bits i = true := by
  obtain ⟨rest, rfl⟩ : ∃ rest, bits = rest + 1 := ⟨bits - 1, by omega⟩
  have half : (2 : Int) ^ rest = ((2 ^ rest : Nat) : Int) := by push_cast; rfl
  have positive := Nat.two_pow_pos rest
  simp only [fitsBits, Nat.add_sub_cancel, Bool.and_eq_true, decide_eq_true_eq, Nat.pow_succ, half]
  generalize 2 ^ rest = n at positive
  rw [Int.bmod_eq_iff (by omega), Int.sub_self]
  simp only [Int.dvd_zero, and_true]
  omega

theorem fitsBits_long (i : Int64) : fitsBits 64 i.toInt = true := by
  have low := i.le_toInt
  have high := i.toInt_lt
  simp only [fitsBits, Bool.and_eq_true, decide_eq_true_eq]
  exact ⟨low, high⟩

/-! ### Conversions that carry a value -/

/-- Shown to the script again, the Host value equals the script value exactly if a primitive of the
kind has room for it. -/
def Conveys (kind : Kind) (value : Script.Value) (converted : Host.Value) : Prop :=
  ∀ (bodies : Bodies World) (e : Script.Engine State) ts w, ∃ back,
    toScript bodies ts converted kind w = .ok back w ∧
      Script.equals e ts back value w = .ok (kind.hasRoom value) w

/-- The value that counts as a whole number. -/
theorem number?_of_anyWhole? {i : Int64} (whole : anyWhole? value = some i) :
    ∃ n, value.number? = some n ∧ n.whole? = some i := by
  cases value <;> cases whole
  · exact ⟨_, rfl, rfl⟩
  · exact ⟨_, rfl, rfl⟩
  · exact ⟨_, rfl, rfl⟩

theorem equals_whole {e : Script.Engine State} {i j : Int64} (whole : anyWhole? value = some i)
    {back : Script.Value} (shown : anyWhole? back = some j) :
    Script.equals e ts back value w = .ok (j == i) w := by
  obtain ⟨n, isNumber, whole'⟩ := number?_of_anyWhole? whole
  obtain ⟨n', isNumber', shown'⟩ := number?_of_anyWhole? shown
  have same : Script.sameNumber back value = (j == i) := by
    simp only [Script.sameNumber, isNumber, isNumber', whole', shown']
  rw [← same]
  cases value <;> cases whole <;> cases back <;> cases shown <;> rfl

/-- A whole number that is cut to the bits of its kind. -/
theorem conveys_whole {bits : Nat} {i j : Int64} {converted : Host.Value}
    (width : kind.bits? = some bits) (some_bit : 0 < bits) (whole : anyWhole? value = some i)
    (shown : ofPrimitive converted = .int j ∨ ofPrimitive converted = .long j)
    (primitive : ∀ o, converted ≠ .ref o) (cut : j.toInt = i.toInt.bmod (2 ^ bits)) :
    Conveys kind value converted := by
  intro bodies e ts w
  have back : toScript bodies ts converted kind w = .ok (ofPrimitive converted) w := by
    cases converted with
    | ref o => exact absurd rfl (primitive o)
    | _ => rfl
  have room : kind.hasRoom value = (j == i) := by
    rw [Bool.eq_iff_iff, beq_iff_eq, ← Int64.toInt_inj, cut, bmod_eq_iff_fitsBits bits some_bit]
    simp only [Kind.hasRoom, width, whole, Option.any_some]
  refine ⟨_, back, ?_⟩
  rw [room]
  refine equals_whole whole ?_
  rcases shown with shown | shown <;> rw [shown] <;> rfl

theorem anyWhole?_of_smallWhole? {i : Int64} (whole : smallWhole? value = some i) :
    anyWhole? value = some i := by
  cases value <;> cases whole <;> rfl

/-- A character of one unit is the character of that unit. -/
theorem charOfUnitD_firstUnit {c : Char} (single : c.toNat < 0x10000) :
    Text.charOfUnitD (Text.firstUnit c) Text.replacement = c := by
  have unit : (Text.firstUnit c).toNat = c.toNat := by
    rw [Text.firstUnit, if_pos single, UInt16.toNat_ofNat', Nat.mod_eq_of_lt single]
  have whole : Text.isSurrogate (Text.firstUnit c) = false := by
    have valid : c.toNat < 0xD800 ∨ 0xDFFF < c.toNat ∧ c.toNat < 0x110000 := c.valid
    simp only [Text.isSurrogate, Bool.and_eq_false_iff, decide_eq_false_iff_not, UInt16.le_iff_toNat_le,
      unit]
    simp
    omega
  rw [Text.charOfUnitD, whole, unit]
  exact Char.ofNat_toNat c

/-- The first unit of a character that needs two has no character. -/
theorem charOfUnitD_firstUnit_ne {c : Char} (pair : 0x10000 ≤ c.toNat) :
    Text.charOfUnitD (Text.firstUnit c) Text.replacement = Text.replacement := by
  have valid : c.toNat < 0xD800 ∨ 0xDFFF < c.toNat ∧ c.toNat < 0x110000 := c.valid
  have half : Text.isSurrogate (Text.firstUnit c) = true := by
    rw [Text.firstUnit, if_neg (by omega)]
    simp only [Text.isSurrogate, Bool.and_eq_true, decide_eq_true_eq, UInt16.le_iff_toNat_le]
    simp
    omega
  rw [Text.charOfUnitD, half]
  rfl

/-- A character comes back from its first unit unless it needs a second one. -/
theorem unitText_firstUnit (c : Char) :
    (Text.unitText (Text.firstUnit c) == String.singleton c) = decide (c.toNat < 0x10000) := by
  rw [Bool.eq_iff_iff, beq_iff_eq, decide_eq_true_eq, Text.unitText]
  constructor
  · intro same
    by_contra pair
    rw [charOfUnitD_firstUnit_ne (by omega)] at same
    have same : Text.replacement = c := by simpa using congrArg String.toList same
    rw [← same] at pair
    exact pair (by decide)
  · intro single
    rw [charOfUnitD_firstUnit single]

theorem conveys_char {text : String} {c : Char} (single : text.toList = [c]) :
    Conveys .char (.text text) (.char (Text.firstUnit c)) := by
  intro bodies e ts w
  have room : Kind.char.hasRoom (.text text) = (Text.unitText (Text.firstUnit c) == text) := by
    have text : text = String.singleton c := by
      rw [← String.ofList_toList (s := text), single]
      rfl
    rw [text, unitText_firstUnit]
    simp [Kind.hasRoom, Kind.bits?, Script.Value.asText?]
  refine ⟨_, rfl, ?_⟩
  rw [room]
  rfl

/-- What a value becomes as a primitive of a kind is carried. -/
theorem conveys_of_primitiveOf? (exact : kind ∈ exactKinds) {converted : Host.Value}
    (becomes : primitiveOf? kind value = some converted) : Conveys kind value converted := by
  simp only [exactKinds, List.mem_cons, List.not_mem_nil, or_false] at exact
  rcases exact with rfl | rfl | rfl | rfl | rfl
  · obtain ⟨i, whole, rfl⟩ := Option.map_eq_some_iff.mp becomes
    refine conveys_whole rfl (by decide) (anyWhole?_of_smallWhole? whole) (.inl rfl) nofun ?_
    rw [Int8.toInt_toInt64, Int64.toInt_toInt8]
  · obtain ⟨i, whole, rfl⟩ := Option.map_eq_some_iff.mp becomes
    refine conveys_whole rfl (by decide) (anyWhole?_of_smallWhole? whole) (.inl rfl) nofun ?_
    rw [Int16.toInt_toInt64, Int64.toInt_toInt16]
  · obtain ⟨i, whole, rfl⟩ := Option.map_eq_some_iff.mp becomes
    refine conveys_whole rfl (by decide) (anyWhole?_of_smallWhole? whole) (.inl rfl) nofun ?_
    rw [Int32.toInt_toInt64, Int64.toInt_toInt32]
  · obtain ⟨i, whole, rfl⟩ := Option.map_eq_some_iff.mp becomes
    refine conveys_whole rfl (by decide) whole (.inr rfl) nofun ?_
    exact ((bmod_eq_iff_fitsBits 64 (by decide) _).mpr (fitsBits_long i)).symm
  · cases value with
    | text text =>
      simp only [primitiveOf?, Script.Value.asText?, Option.map_some] at becomes
      split at becomes
      · rename_i single
        cases becomes
        exact conveys_char (Option.some.inj single)
      · cases becomes
    | _ => cases becomes

/-! ### Parameters -/

/-- The argument is refused with a type error that carries the position, and nothing else happens. -/
def RefusesWith (ts : InterpreterId) (position : Nat) (w : World) (step : BridgeM Host.Value) :
    Prop :=
  ∃ e : Script.Exception, e.type = .builtin .type ∧ e.detail = some (.position position) ∧
    step w = .error {} (w.withError ts fun _ => some e)

/-- For the exact kinds, what the value becomes decides. -/
theorem coerce_of_exact (exact : kind ∈ exactKinds) (value : Script.Value) (position : Nat) :
    ∃ message, ∀ bodies ts param, coerce bodies ts value param kind position =
      match primitiveOf? kind value with
      | some converted => pure converted
      | none => mismatch ts position message := by
  simp only [exactKinds, List.mem_cons, List.not_mem_nil, or_false] at exact
  rcases exact with rfl | rfl | rfl | rfl | rfl <;> exact ⟨_, fun _ _ _ => rfl⟩

/-- An argument for a parameter of an exact kind is carried or refused. -/
theorem coerce_exact (exact : kind ∈ exactKinds) (value : Script.Value) :
    (∃ converted, Conveys kind value converted ∧ ∀ bodies ts param position w,
      coerce bodies ts value param kind position w = .ok converted w) ∨
    ∀ bodies ts param position w,
      RefusesWith ts position w (coerce bodies ts value param kind position) := by
  cases becomes : primitiveOf? kind value with
  | some converted =>
    refine .inl ⟨converted, conveys_of_primitiveOf? exact becomes, fun bodies ts param position w => ?_⟩
    obtain ⟨message, decides⟩ := coerce_of_exact exact value position
    rw [decides, becomes]
    rfl
  | none =>
    refine .inr fun bodies ts param position w => ?_
    obtain ⟨message, decides⟩ := coerce_of_exact exact value position
    rw [decides, becomes]
    exact ⟨_, rfl, rfl, rfl⟩

/-- A conversion that succeeded carries the value. -/
theorem conveys_of_coerce (exact : kind ∈ exactKinds) {bodies : Bodies World} {param : ClassId}
    {converted : Host.Value} (made : coerce bodies ts value param kind position w = .ok converted v) :
    Conveys kind value converted := by
  rcases coerce_exact exact value with ⟨converted', carries, converts⟩ | refuses
  · cases made.symm.trans (converts bodies ts param position w)
    exact carries
  · obtain ⟨e, -, -, refused⟩ := refuses bodies ts param position w
    cases made.symm.trans refused

/-! ### Calls -/

/-- The name leads to a class, which is classified as the kind. -/
def ClassifiedAs (ts : InterpreterId) (w : World) (name : String) (kind : Kind) : Prop :=
  ∃ c u v, (Host.findClass name : HostM World ClassId) w = .ok c u ∧ kindOf ts c u = .ok kind v

theorem ClassifiedAs.kindAt (h : ClassifiedAs ts w name kind) (formed : w.Formed) :
    ∃ t, w.outside.realm.typeNamed? name = some t ∧ w.kindAt t = .ok kind := by
  obtain ⟨c, u, v, found, classified⟩ := h
  obtain ⟨known, kinds, -⟩ := named_of_runs formed found classified
  exact ⟨_, known, kinds⟩

theorem classifiedAs_of_kindAt (formed : w.Formed) {t : ClassId × Nat}
    (known : w.outside.realm.typeNamed? name = some t) (kinds : w.kindAt t = .ok kind)
    (ts : InterpreterId) : ClassifiedAs ts w name kind := by
  obtain ⟨c, u, later, found, has, shape⟩ := findClass_eq formed known
  have bottom := Realm.typeNamed?_has formed.coherent known
  rw [← later.kindAt formed bottom, ← shape] at kinds
  obtain ⟨v, -, classified⟩ := kindOf_eq later.formed has kinds ts
  exact ⟨c, u, v, found, classified⟩

theorem ClassifiedAs.later (h : ClassifiedAs ts w name kind) (formed : w.Formed)
    (later : Descends w v) : ClassifiedAs ts v name kind := by
  obtain ⟨t, known, kinds⟩ := h.kindAt formed
  have bottom := Realm.typeNamed?_has formed.coherent known
  refine classifiedAs_of_kindAt later.formed ?_ ?_ ts (t := t)
  · rw [later.realm.typeNamed? formed.coherent, known]
  · rw [later.kindAt formed bottom, kinds]

/-- The argument is carried if the kind of its parameter is an exact one. -/
def CarriedIfExact (ts : InterpreterId) (w : World) (entry : Script.Value × String)
    (converted : Host.Value) : Prop :=
  ∀ kind ∈ exactKinds, ClassifiedAs ts w entry.2 kind → Conveys kind entry.1 converted

theorem CarriedIfExact.earlier {entry : Script.Value × String} {converted : Host.Value}
    (h : CarriedIfExact ts v entry converted) (formed : w.Formed) (later : Descends w v) :
    CarriedIfExact ts w entry converted :=
  fun kind exact classified => h kind exact (classified.later formed later)

/-- By induction on the arguments: those for exact kinds are carried once all are converted. -/
theorem carried_of_coerceAll (formed : w.Formed) {names : List String} {classes : List ClassId}
    (stand : Stand w names classes) (classifies : ∀ name ∈ names, w.Classifies name)
    {bodies : Bodies World} {converted : List Host.Value}
    (h : coerceAll bodies ts position (args.zip classes) w = .ok converted v) :
    List.Forall₂ (CarriedIfExact ts w) (args.zip names) converted := by
  induction args generalizing w v names classes position converted with
  | nil =>
    cases h
    exact .nil
  | cons value rest ih =>
    cases names with
    | nil =>
      rw [stand.nil_inv] at h
      cases h
      exact .nil
    | cons name names =>
      obtain ⟨c, others, rfl, hc, known, below⟩ := stand.cons_inv
      obtain ⟨kind, kinds, -⟩ := (classifies name (by simp)).at_class known
      obtain ⟨u, later, classified⟩ := kindOf_eq formed hc kinds ts
      have same := later.realm.shape formed.coherent hc
      rw [List.zip_cons_cons, coerceAll, bind_ok classified] at h
      obtain ⟨first, x, made, h⟩ := ok_of_bind h
      obtain ⟨more, y, made_more, h⟩ := ok_of_bind h
      cases h
      obtain ⟨-, last⟩ := fits_of_coerce later.formed (later.realm.kept c hc)
        (by rw [same, later.kindAt formed (hc.bottom formed.coherent), kinds]) made
      have soon := later.trans last
      have carried_rest := ih soon.formed (soon.stand formed below) (fun other hother =>
        soon.classifies formed (classifies other (List.mem_cons_of_mem _ hother))) made_more
      refine .cons ?_ (carried_rest.imp fun _ _ carried => carried.earlier formed soon)
      intro kind' exact classified'
      obtain ⟨t, known', kinds'⟩ := classified'.kindAt formed
      cases known.symm.trans known'
      cases kinds.symm.trans kinds'
      exact conveys_of_coerce exact made

theorem carried_of_coerceArguments (prepared : Prepared w m args) (arity : m.arity = args.length)
    {bodies : Bodies World} {converted : List Host.Value}
    (h : coerceArguments bodies ts m args w = .ok converted v) :
    List.Forall₂ (CarriedIfExact ts w) (args.zip m.params) converted := by
  obtain ⟨classes, u, later, found, stand⟩ := findClasses_eq prepared.formed prepared.classifies
  rw [coerceArguments_found arity found] at h
  have carried := carried_of_coerceAll later.formed stand (prepared.later later).classifies h
  exact carried.imp fun _ _ carried => carried.earlier prepared.formed later

section

variable {target : Option ObjectId} {overloads : List Method}

/-- The first overload that accepts the arguments is called, and each argument for a parameter of
an exact kind is carried. -/
theorem callOverloads_carries (h : Bound ts w target overloads args) {before after : List Method}
    (split : overloads = before ++ m :: after) (accepts : Accepts ts w args m)
    (first : ∀ n ∈ before, ¬Accepts ts w args n) :
    ∃ converted v, List.Forall₂ (CarriedIfExact ts w) (args.zip m.params) converted ∧
      ∀ bodies, callOverloads bodies ts target overloads args w =
        called bodies ts target m converted v := by
  have mem : m ∈ overloads := by simp [split]
  have accepted := (h.accepts_iff mem).mp accepts
  obtain ⟨x, later, chosen⟩ := selectOverload_accepts h.formed h.classifies split accepted
    (fun n hn => Bool.eq_false_iff.mpr fun other =>
      first n hn ((h.accepts_iff (by simp [split, hn])).mpr other)) ts
  obtain ⟨u, last, invoked⟩ := invoke_eq ((h.prepared mem).later later) target ts
  have soon := later.trans last
  have prepared := (h.prepared mem).later soon
  have converts := coerceArguments_eq prepared accepts.1 ts
  rw [World.accepts, Bool.and_eq_true] at accepted
  rw [soon.allFit h.formed, accepted.2] at converts
  obtain ⟨converted, v, -, made⟩ := converts
  refine ⟨converted, v, ?_, fun bodies => ?_⟩
  · have idle : Bodies World := ⟨fun _ _ _ => throw .pending, fun _ _ _ => throw .pending⟩
    have carried := carried_of_coerceArguments prepared accepts.1 (made idle)
    exact carried.imp fun _ _ carried => carried.earlier h.formed soon
  · rw [callOverloads_chosen h mem (chosen bodies), invoked bodies, bind_ok (made bodies)]

end

/-- A whole number or a character is carried as an argument exactly if the primitive that was
declared has room for it, and what is no such value is refused at its position. The first overload
that accepts the arguments runs on arguments that are carried so. -/
theorem arguments_carried_iff_room (kind : Kind) (value : Script.Value) :
    (kind ∈ exactKinds →
      (∃ converted, Conveys kind value converted ∧ ∀ bodies ts param position w,
        coerce bodies ts value param kind position w = .ok converted w) ∨
      ∀ bodies ts param position w,
        RefusesWith ts position w (coerce bodies ts value param kind position)) ∧
    ∀ w ts (f : Script.Foreign) name target overloads args,
      w.viewAt f.place = .method name target overloads → Bound ts w target overloads args →
      ∀ before m after, overloads = before ++ m :: after → Accepts ts w args m →
      (∀ n ∈ before, ¬Accepts ts w args n) →
      ∃ converted v, List.Forall₂ (CarriedIfExact ts w) (args.zip m.params) converted ∧
        ∀ bodies, call bodies ts f args w = called bodies ts target m converted v := by
  refine ⟨fun exact => coerce_exact exact value, ?_⟩
  intro w ts f name target overloads args view bound before m after split accepts first
  obtain ⟨converted, v, carried, calls⟩ := callOverloads_carries bound split accepts first
  refine ⟨converted, v, carried, fun bodies => ?_⟩
  have shown : (getProxy f.place : BridgeM Proxy) w =
      .ok ((w.outside.proxies[f.place]?).getD default) w := rfl
  unfold call
  rw [bind_ok shown, ← World.viewAt, view]
  exact calls bodies

/-- The first argument is too wide for an int. -/
def wideArguments : List Script.Value := [.int 3000000000, .int 1]

/-- What is checked about the overloads of `max` and the arguments. -/
theorem wideArguments_checks : (World.opened.offering.isFormed &&
    World.opened.offering.resolves maxima &&
    decide (0 < World.opened.offering.memory.interpreters.size) &&
    World.opened.offering.accepts wideArguments maxima[0] &&
    (World.opened.offering.outside.realm.typeNamed? "int").any fun t =>
      match World.opened.offering.kindAt t with
      | .ok kind => kind == .int
      | .error _ => false) = true := by
  decide +kernel

/-- The overload for ints runs on another number than 3000000000. -/
theorem arguments_carried_maximum : ∃ a b v,
    (∀ bodies, call bodies ⟨0⟩ ⟨.method, World.opened.outside.proxies.size⟩ wideArguments
      World.opened.offering = called bodies ⟨0⟩ none maxima[0] [a, b] v) ∧
    (∀ bodies (e : Script.Engine State) ts w, ∃ back, toScript bodies ts a .int w = .ok back w ∧
      Script.equals e ts back (.int 3000000000) w = .ok false w) ∧
    ∀ bodies (e : Script.Engine State) ts w, ∃ back, toScript bodies ts b .int w = .ok back w ∧
      Script.equals e ts back (.int 1) w = .ok true w := by
  have checks := wideArguments_checks
  have view := World.offering_viewAt .opened
  generalize World.opened.offering = w at checks view ⊢
  generalize World.opened.outside.proxies.size = place at view ⊢
  simp only [Bool.and_eq_true, decide_eq_true_eq, Option.any_eq_true] at checks
  obtain ⟨⟨⟨⟨isFormed, resolves⟩, made⟩, accepted⟩, t, known, isInt⟩ := checks
  have formed := World.formed_of_isFormed isFormed
  have bound : Bound ⟨0⟩ w none maxima wideArguments :=
    .of_resolves (by simp [maxima]) resolves formed made (by simp [wideArguments])
  obtain ⟨converted, v, carried, calls⟩ := (arguments_carried_iff_room .int (.int 3000000000)).2 w ⟨0⟩
    ⟨.method, place⟩ _ _ _ _ view bound [] maxima[0] [maxima[1], maxima[2]] rfl
    ((bound.accepts_iff (by simp [maxima])).mpr accepted) fun _ found => absurd found List.not_mem_nil
  have classified : ClassifiedAs ⟨0⟩ w "int" .int := by
    refine classifiedAs_of_kindAt formed known ?_ ⟨0⟩
    cases kinds : w.kindAt t with
    | ok kind =>
      rw [kinds] at isInt
      rw [beq_iff_eq.mp isInt]
    | error reason =>
      rw [kinds] at isInt
      cases isInt
  have exact : Kind.int ∈ exactKinds := by decide
  obtain ⟨a, rest, first, others, rfl⟩ := List.forall₂_cons_left_iff.mp carried
  obtain ⟨b, none, second, last, rfl⟩ := List.forall₂_cons_left_iff.mp others
  obtain rfl := List.forall₂_nil_left_iff.mp last
  exact ⟨a, b, v, calls, first .int exact classified, second .int exact classified⟩

end ScriptBridge.Bridge
