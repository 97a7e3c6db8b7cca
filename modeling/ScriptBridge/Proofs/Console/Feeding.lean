import ScriptBridge.Console
import ScriptBridge.Proofs.Bookkeeping.Sessions
import ScriptBridge.Proofs.Boundary.Attribution
import ScriptBridge.Proofs.Console.Apart
import ScriptBridge.Proofs.Console.Checking
import ScriptBridge.Proofs.Console.Gathering
import ScriptBridge.Proofs.Joining.Programs

/-!
# Feeding the console

The console takes a script line by line where a file is run at once. Beside both there is the run
without a Host: its statements are taken one after the other, and whenever the console has gathered
some of them that can be read, it evaluates them as that run does. So it ends where the file ends.
-/

namespace ScriptBridge

namespace Script

open Syntax (Statement)

variable {σ : Type} {g : Entries σ} {e : Engine σ} {ts : InterpreterId} {globals : ModuleRef}
  {mode : Mode} {w v : World σ}

/-! ### Statements that succeed -/

/-- The statements succeed one after the other. -/
inductive Runs (g : Entries σ) (e : Engine σ) (ts : InterpreterId) (globals : ModuleRef)
    (mode : Mode) : List Statement → World σ → World σ → Prop
  | done {w : World σ} : Runs g e ts globals mode [] w w
  | step {s : Statement} {rest : List Statement} {w u x v : World σ} :
    executeBy g e ts globals mode s w = .ok () u → e.settle u = .ok () x →
      Runs g e ts globals mode rest x v → Runs g e ts globals mode (s :: rest) w v

theorem executeAllBy_iff_runs (file : String) {program : Syntax.Program} :
    executeAllBy g e ts globals mode file program w = .ok () v ↔
      Runs g e ts globals mode (program.map (·.2)) w v := by
  induction program generalizing w with
  | nil =>
    refine ⟨fun h => ?_, fun h => ?_⟩
    · cases h
      exact .done
    · cases h
      rfl
  | cons first rest ih =>
    obtain ⟨line, s⟩ := first
    refine ⟨fun h => ?_, fun h => ?_⟩
    · simp only [executeAllBy, Bind.bind, EStateM.bind, attempt] at h
      cases executed : executeBy g e ts globals mode s w with
      | ok a u =>
        rw [executed] at h
        dsimp only at h
        cases settled : e.settle u with
        | ok b x =>
          rw [settled] at h
          exact .step executed settled (ih.mp h)
        | error raised x =>
          rw [settled] at h
          cases h
      | error raised u =>
        rw [executed] at h
        dsimp only at h
        cases settled : e.settle u with
        | ok b x =>
          rw [settled] at h
          cases h
        | error raised x =>
          rw [settled] at h
          cases h
    · obtain _ | ⟨executed, settled, goesOn⟩ := h
      simp only [executeAllBy, Bind.bind, EStateM.bind, attempt, executed, settled]
      exact ih.mpr goesOn

theorem Runs.split {first rest : List Statement}
    (h : Runs g e ts globals mode (first ++ rest) w v) :
    ∃ u, Runs g e ts globals mode first w u ∧ Runs g e ts globals mode rest u v := by
  induction first generalizing w with
  | nil => exact ⟨w, .done, h⟩
  | cons s more ih =>
    obtain _ | ⟨executed, settled, goesOn⟩ := h
    obtain ⟨u, before, after⟩ := ih goesOn
    exact ⟨u, .step executed settled before, after⟩

end Script

open Bridge (World State BridgeM ContextId Machine beside apart)
open Script (InterpreterId Runs)
open Syntax (Statement Program SyntaxError readProgram)
open Context (Operation within machine)

namespace Console

variable {ε : Type} {x : Machine} {c : ContextId} {ts : InterpreterId}
  {start h h' w u v : World} {d n levels : Nat} {pending line source : String}
  {rest : List String} {ss : List Statement} {first : Program}

/-! ### Lines that are fed -/

/-- The world after a prompt was printed. -/
def prompted (pending : String) (w : World) : World :=
  w.onMemory fun m => { m with output := m.output ++ invitation pending }

/-- Lines are fed to the console, some of which are pending. Each one is kept for the next one, or
together with what is pending it is a program that is then evaluated. Nothing fails, and in the end
nothing is pending. The statements are those of the programs, in order. -/
inductive Feeds (x : Machine) (c : ContextId) : (pending : String) → List String →
    List Statement → World → World → Prop
  | done {w : World} : Feeds x c "" [] [] w w
  | more {pending line : String} {rest : List String} {ss : List Statement} {w u v : World} :
    statusAfter x c (gather pending line) line w = .ok .incomplete u →
      Feeds x c (gather pending line) rest ss (prompted (gather pending line) u) v →
        Feeds x c pending (line :: rest) ss w v
  | statements {pending line : String} {rest : List String} {ss : List Statement}
    {first : Program} {w u u' v : World} :
    statusAfter x c (gather pending line) line w = .ok .complete u →
      readProgram (gather pending line) = .ok first →
        evaluate x c (gather pending line) u = .ok () u' →
          Feeds x c "" rest ss (prompted "" u') v →
            Feeds x c pending (line :: rest) (first.map (·.2) ++ ss) w v

theorem Feeds.feedAll {lines : List String} (fed : Feeds x c pending lines ss w v) :
    (feedAll x c pending lines : EStateM ε World String) w = .ok "" v := by
  induction fed with
  | done => rfl
  | @more pending line rest ss w u v status _ ih =>
    have step : (feed x c pending line : EStateM ε World String) w =
        .ok (gather pending line) u := by
      simp only [feed, Script.attempt, Bind.bind, EStateM.bind, status]
      rfl
    exact (bind_ok step).trans ih
  | @statements pending line rest ss first w u u' v status _ evaluated _ ih =>
    have step : (feed x c pending line : EStateM ε World String) w = .ok "" u' := by
      simp only [feed, Script.attempt, Bind.bind, EStateM.bind, status, evaluated]
      rfl
    exact (bind_ok step).trans ih

/-! ### Beside a run without a Host -/

/-- Between two lines the console is level with a run without a Host, once its context is entered,
and everything in its world is in order. -/
structure Alongside (c : ContextId) (ts : InterpreterId) (start : World) (d n : Nat)
    (h w : World) : Prop where
  level : (beside c ts start).Level ts d n h (w.withCurrent (some ts))
  ordered : Boundary.Ordered Bookkeeping.Any w.current w
  free : w.current.filter (· != ts) = none

/-- What a run over the Host has left is again entered where it stands. -/
theorem entered (running : start.current = some ts)
    (level : (beside c ts start).Level ts d n h v) (current : Option InterpreterId) :
    (v.withCurrent current).withCurrent (some ts) = v := by
  obtain ⟨beside, remains⟩ := level.whole
  have still : v.current = some ts := by
    rw [← running, World.current, World.current, Script.Memory.runtime, Script.Memory.runtime,
      beside.runtime, level.fits.runtimes, remains.runtime, remains.runtimes]
  rw [withCurrent_withCurrent, ← still, withCurrent_current]

/-- Statements that run without a Host are executed over it, whether their values are shown or
not. -/
theorem statements_apart (mode : Script.Mode) (file : String) (statements : mode ≠ .eval)
    (shows : (beside c ts start).Shows ts .own (apart levels) (machine levels).engine .file mode)
    (level : (beside c ts start).Level ts d n h w) (read : readProgram source = .ok first)
    (runs : Runs .own (apart levels) ts (start.memory.interpreter ts).main .file
      (first.map (·.2)) h h') :
    ∃ v : World, Context.execute (machine levels) mode file source ts w = .ok .none v ∧
      (beside c ts start).Level ts d n h' v := by
  let e := (machine levels).engine
  let main := (start.memory.interpreter ts).main
  have here : (w.memory.interpreter ts).main = main := by
    rw [Script.Memory.interpreter, level.fits.interpreters]
    exact level.whole.2.main
  have pace : (beside c ts start).Pace ts d n
      (Script.executeAllBy .own (apart levels) ts main .file file first)
      (Script.executeAllBy .usual e ts main mode file first) :=
    (Bridge.apart_regime levels).executeAll trivial shows _ fun _ _ => trivial
  have ends := pace h w level
  rw [(Script.executeAllBy_iff_runs file).mpr runs, Script.executeAllBy_usual] at ends
  cases executed : Script.executeAll e ts main mode file first w with
  | ok a v =>
    rw [executed] at ends
    obtain ⟨level'⟩ := ends
    refine ⟨v, ?_, level'⟩
    have found : (Script.getInterpreter ts : BridgeM _) w = .ok (w.memory.interpreter ts) w := rfl
    rw [Context.execute, bind_ok found, here, Script.execSource_program statements read,
      bind_ok executed]
    rfl
  | error raised v =>
    rw [executed] at ends
    cases ends

namespace Alongside

variable (along : Alongside c ts start d n h w)

include along

theorem admits : w.Admits c ts := by
  obtain ⟨beside, -⟩ := along.level.whole
  have context : w.outside.context c = h.outside.context c :=
    congrArg (fun contexts => contexts[c.number - 1]?.getD default) beside.contexts
  have registry : w.outside.registry = h.outside.registry := beside.registry
  refine ⟨?_, ?_, ?_, along.free, beside.calm⟩
  · rw [registry]
    exact beside.registered
  · rw [context]
    exact beside.context
  · rw [context]
    exact beside.opened

theorem made : ts.place < w.memory.interpreters.size := by
  have same : w.memory.interpreters = h.memory.interpreters := along.level.fits.interpreters
  rw [same]
  exact along.level.made

theorem prompted (pending : String) : Alongside c ts start d n h (prompted pending w) where
  level := Bridge.level_printed along.level _
  ordered := ⟨{ along.ordered.1 with }, along.ordered.2⟩
  free := along.free

theorem complete (read : readProgram (gather pending line) = .ok first) :
    statusAfter x c (gather pending line) line w = .ok .complete w := by
  unfold statusAfter
  split
  · rfl
  · exact Context.check_complete along.admits read

theorem incomplete {e : SyntaxError} (dark : Text.isBlankText line = false)
    (read : readProgram (gather pending line) = .error e) (mistake : e.isSyntax = true) :
    statusAfter x c (gather pending line) line w = .ok .incomplete w := by
  have silent : (w.memory.interpreter ts).error = none := along.ordered.2 ts nofun
  unfold statusAfter
  rw [dark, Bool.false_and, if_neg Bool.false_ne_true]
  exact Context.check_incomplete along.admits along.made silent read mistake

/-- Statements are evaluated as they run without a Host. -/
theorem evaluated (running : start.current = some ts) (dark : Text.isBlankText source = false)
    (read : readProgram source = .ok first)
    (runs : Runs .own (apart levels) ts (start.memory.interpreter ts).main .file
      (first.map (·.2)) h h') :
    ∃ u, evaluate (machine levels) c source w = .ok () u ∧ Alongside c ts start d n h' u := by
  obtain ⟨v, executed, level⟩ := statements_apart .single Context.stringFile nofun
    Bridge.own_shows along.level read runs
  have ran := Context.within_done (x := machine levels) along.admits executed
  have done : Context.eval (machine levels) c source w = .ok () (v.withCurrent w.current) :=
    (bind_ok ran).trans rfl
  have ordered := Boundary.offered_ordered along.ordered (.eval c source) Context.own levels
  rw [← Context.machine_eq, done] at ordered
  have still : (v.withCurrent w.current).current = w.current := ordered.1.current
  refine ⟨v.withCurrent w.current, ?_, ?_, ?_, ?_⟩
  · rw [evaluate, if_neg (Bool.eq_false_iff.mp dark)]
    exact done
  · rw [entered running level]
    exact level
  · rw [still]
    exact ordered
  · rw [still]
    exact along.free

end Alongside

/-- By induction on the lines: what is gathered from them is evaluated as it runs without a Host. -/
theorem feeds_gathered (running : start.current = some ts) (gathers : Gathers pending rest ss)
    (along : Alongside c ts start d n h w)
    (runs : Runs .own (apart levels) ts (start.memory.interpreter ts).main .file ss h h') :
    ∃ u, Feeds (machine levels) c pending rest ss w u ∧ Alongside c ts start d n h' u := by
  induction gathers generalizing h w with
  | done =>
    cases runs
    exact ⟨w, .done, along⟩
  | @blank line _ _ blank read _ ih =>
    obtain ⟨u, fed, along'⟩ := ih (along.prompted "") runs
    have fresh : gather "" line = line := if_pos rfl
    rw [← fresh] at blank read
    have evaluated : evaluate (machine levels) c (gather "" line) w = .ok () w :=
      congrFun (if_pos blank) w
    exact ⟨u, .statements (along.complete read) read evaluated fed, along'⟩
  | more dark read mistake _ ih =>
    obtain ⟨u, fed, along'⟩ := ih (along.prompted _) runs
    exact ⟨u, .more (along.incomplete dark read mistake) fed, along'⟩
  | statements dark read _ ih =>
    obtain ⟨h₁, now, later⟩ := runs.split
    obtain ⟨w₁, evaluated, along₁⟩ := along.evaluated running dark read now
    obtain ⟨u, fed, along'⟩ := ih (along₁.prompted "") later
    exact ⟨u, .statements (along.complete read) read evaluated fed, along'⟩

/-! ### Lines and files -/

/-- Runs a script file where it is given up as soon as it handles an object of the Host. -/
def runApart (levels : Nat) (c : ContextId) (path source : String) : Operation Unit := do
  let _ ← within ⟨.none, apart levels⟩ c fun ts => do
    Script.execSourceBy .own (apart levels) ts source .file path (← Script.getInterpreter ts).main

/-- The script handles no object of the Host, and succeeds without one. -/
def HandlesNoHost (levels : Nat) (c : ContextId) (path source : String) (w : World) : Prop :=
  ∃ u, runApart levels c path source w = .ok () u

/-- A script that succeeds without the Host can be read, and its statements run. -/
theorem runs_of_handlesNoHost {path : String} (handles : HandlesNoHost levels c path source w) :
    ∃ ts q, ∃ h : World, w.Admits c ts ∧ readProgram source = .ok q ∧
      Runs .own (apart levels) ts (w.memory.interpreter ts).main .file (q.map (·.2))
        (w.withCurrent (some ts)) h := by
  obtain ⟨u, ran⟩ := handles
  obtain ⟨_, u', inside, -⟩ := ok_of_bind ran
  obtain ⟨ts, h, admits, worked, -⟩ := Context.of_within inside
  have found : (Script.getInterpreter ts : BridgeM _) (w.withCurrent (some ts)) =
    .ok (w.memory.interpreter ts) (w.withCurrent (some ts)) := rfl
  rw [bind_ok found] at worked
  obtain ⟨code, w₁, compiled, worked⟩ := ok_of_bind worked
  cases read : readProgram source with
  | error e =>
    simp only [Script.compile, read] at compiled
    cases compiled
  | ok q =>
    simp only [Script.compile, read] at compiled
    cases compiled
    obtain ⟨⟨⟩, h', executed, done⟩ := ok_of_bind worked
    cases done
    exact ⟨ts, q, h, admits, rfl, (Script.executeAllBy_iff_runs path).mp executed⟩

/-- In a session the interpreter of a registered context was made. -/
theorem made_of_kept (kept : Bookkeeping.Kept w) (admits : w.Admits c ts) :
    ts.place < w.memory.interpreters.size := by
  obtain ⟨ts', ref, row⟩ := kept.sound.registered c (List.contains_iff_mem.mp admits.registered)
  obtain ⟨context, -, same, state, -⟩ := Bookkeeping.entry_context row
  obtain ⟨i, placed, -⟩ := kept.sound.placed row
  rw [← admits.context, same, state]
  have place : ts'.place < w.memory.tracked.size := (Array.getElem?_eq_some_iff.mp placed).1
  rwa [Script.Memory.tracked, Array.size_map] at place

/-- A run without the Host starts level with the one over the Host. -/
theorem level_start (kept : Bookkeeping.Kept w) (admits : w.Admits c ts) :
    (beside c ts (w.withCurrent (some ts))).Level ts (w.memory.interpreter ts).depth
      (w.memory.interpreter ts).nesting (w.withCurrent (some ts)) (w.withCurrent (some ts)) where
  whole := ⟨⟨admits.registered, admits.context, admits.opened, rfl, rfl, rfl, rfl, admits.calm⟩,
    rfl, rfl, rfl⟩
  fits := ⟨rfl, rfl, rfl⟩
  made := (made_of_kept kept admits : ts.place < w.memory.interpreters.size)
  depth := rfl
  nesting := rfl

/-- A script that handles no object of the Host can be read line by line, if no blank line is inside
an open bracket and the text does not end in an escaped line end. The console then evaluates its
statements in order, reports nothing, has nothing pending in the end, and leaves the namespaces and
the interpreters as running the file does. -/
theorem feeds_as_file {r : Host.Realm} {config : Config} {w₀ : World} {loose : Prop}
    {path p : String} (started : Context.start config ⟨{}, { realm := r }⟩ = .ok () w₀)
    (session : Bookkeeping.Session Context.own w₀ loose w)
    (handles : HandlesNoHost levels c path p w)
    (ran : Context.run (machine levels) c path (.ok p) w = .ok () v)
    (last : ¬['\\', '\n'] <:+ p.toList)
    (shut : ∀ before line after, splitLines p.toList = before ++ line :: after →
      Text.isBlankText (String.ofList line) = true →
        ¬Syntax.LeavesOpen (String.ofList before.flatten)) :
    ∃ q u, readProgram p = .ok q ∧
      Feeds (machine levels) c "" (lines p) (q.map (·.2)) w u ∧
      (feedAll (machine levels) c "" (lines p) : EStateM Empty World String) w = .ok "" u ∧
      u.memory.namespaces = v.memory.namespaces ∧
      u.memory.interpreters = v.memory.interpreters := by
  have kept := (Bookkeeping.session_kept (Bookkeeping.start_kept started).1 session).1.kept
  have clean := (Bookkeeping.any_permitted { realm := r }).realm
  obtain ⟨current, ordered⟩ :=
    Boundary.session_ordered (Boundary.start_settled clean started) session
  obtain ⟨ts, q, h, admits, read, runs⟩ := runs_of_handlesNoHost handles
  have along : Alongside c ts (w.withCurrent (some ts)) _ _ (w.withCurrent (some ts)) w :=
    ⟨level_start kept admits, ordered.1.current ▸ ordered, admits.free⟩
  have running : (w.withCurrent (some ts)).current = some ts :=
    Boundary.current_withCurrent kept.sound.runtime
  obtain ⟨u, fed, along'⟩ := feeds_gathered running (gathers_program read last shut) along runs
  obtain ⟨a, v', inside, done⟩ := ok_of_bind ran
  cases done
  obtain ⟨ts', x, admits', executed, rfl⟩ := Context.of_within inside
  obtain rfl : ts' = ts := admits'.context.symm.trans admits.context
  obtain ⟨_, executed', level⟩ := statements_apart .file path nofun
    ((Bridge.apart_regime levels).engines.shows .file) along.level read runs
  rw [executed] at executed'
  cases executed'
  refine ⟨q, u, read, fed, fed.feedAll, ?_, ?_⟩
  · exact along'.level.fits.namespaces.trans level.fits.namespaces.symm
  · exact along'.level.fits.interpreters.trans level.fits.interpreters.symm

/-- Lines up to blank ones that can be read leave no bracket open. -/
theorem shut_of_read {p : String} (h : ∀ i (inside : i < (splitLines p.toList).length),
      Text.isBlankText (String.ofList (splitLines p.toList)[i]) = true →
        (Syntax.tokens (String.ofList ((splitLines p.toList).take i).flatten)).isOk = true) :
    ∀ before line after, splitLines p.toList = before ++ line :: after →
      Text.isBlankText (String.ofList line) = true →
        ¬Syntax.LeavesOpen (String.ofList before.flatten) := by
  rintro before line after split blank ⟨place, unread⟩
  have read := h before.length (by simp [split]) (by simpa [split] using blank)
  simp only [split, List.take_left, unread] at read
  cases read

/-- A script with a tuple on two lines and a blank line. -/
def doubling : String := "x = (1,\n     2)\n\nf = lambda n: n * 2\nf(x[1])\n"

/-- A context is open in which nothing has run. -/
def opened : World := World.after (Context.create (some ⟨0⟩) Bookkeeping.begun)

/-- A step that is found to succeed does so. -/
theorem ok_of_check {r : EStateM.Result ε World α}
    (check : (match r with
      | .ok _ _ => true
      | .error _ _ => false) = true) : ∃ a u, r = .ok a u := by
  cases r with
  | ok a u => exact ⟨a, u, rfl⟩
  | error => cases check

theorem feeds_as_file_doubling :
    HandlesNoHost 2 ⟨1⟩ "double" doubling opened ∧
    ∃ v q u, Context.run (machine 2) ⟨1⟩ "double" (.ok doubling) opened = .ok () v ∧
      readProgram doubling = .ok q ∧
      Feeds (machine 2) ⟨1⟩ "" (lines doubling) (q.map (·.2)) opened u ∧
      (feedAll (machine 2) ⟨1⟩ "" (lines doubling) : EStateM Empty World String) opened =
        .ok "" u ∧
      u.memory.namespaces = v.memory.namespaces ∧
      u.memory.interpreters = v.memory.interpreters := by
  have started : Context.start {} ⟨{}, { realm := Bookkeeping.draining }⟩ =
    .ok () Bookkeeping.begun := rfl
  have session : Bookkeeping.Session Context.own Bookkeeping.begun _ opened :=
    .performed 0 .here (.create (some ⟨0⟩))
  have handles : HandlesNoHost 2 ⟨1⟩ "double" doubling opened := by
    obtain ⟨_, u, ran⟩ :=
      ok_of_check (r := runApart 2 ⟨1⟩ "double" doubling opened) (by decide +kernel)
    exact ⟨u, ran⟩
  have shut := shut_of_read (p := doubling) (by decide +kernel)
  obtain ⟨_, v, ran⟩ := ok_of_check
    (r := Context.run (machine 2) ⟨1⟩ "double" (.ok doubling) opened) (by decide +kernel)
  obtain ⟨q, u, agrees⟩ := feeds_as_file started session handles ran (by decide) shut
  exact ⟨handles, v, q, u, ran, agrees⟩

end Console
end ScriptBridge
