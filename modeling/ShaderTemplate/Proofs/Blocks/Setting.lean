import ShaderTemplate.Proofs.Blocks.Evaluator
import ShaderTemplate.Proofs.Expansion.Transition

/-!
# The machine within a block

A state in which the machine reads a block is a `Setting` with a number of lines read and a `Trace`.
The setting holds the stacks around the block and the reasons why they match what the block sees:
there is a scope for each frame, and each loop knows how deep it lies.

The lemmas on settings say what a line does: `yields_expandLine` for a line that is expanded, which
the machine and the evaluator understand alike, and the lemmas after it for the end of a body and of
a file.
-/

namespace ShaderTemplate

open Blocks

/-! ## Where a run ends -/

/-- From here on the machine comes to this pass. -/
def Progress.Yields (env : Environment) (progress : Progress) (pass : Pass) : Prop :=
  ∃ steps halted, progress.run env steps = some halted ∧ Pass.ofHalted halted = pass

namespace Progress

variable {env : Environment} {pass : Pass}

theorem yields_of_step {state : State} (h : (state.step env).Yields env pass) :
    (running state).Yields env pass := by
  obtain ⟨steps, halted, hrun, hpass⟩ := h
  exact ⟨steps + 1, halted, hrun, hpass⟩

theorem yields_halted (result : Except Failure Unit) (state : State) :
    (halted result state).Yields env (Pass.ofHalted (result, state)) :=
  ⟨0, _, rfl, rfl⟩

end Progress

theorem Trace.yields_fail {env : Environment} {pass : Pass} {trace : Trace} {inputs : List Input}
    {loops : List Loop} {scopes : Scopes} {failure : Failure}
    (h : pass = trace.pass (.error failure)) :
    ((trace.state inputs loops scopes).fail failure).Yields env pass :=
  h ▸ Progress.yields_halted _ _

/-! ## Output in a state and in a trace -/

namespace Trace

variable {env : Environment} {trace : Trace} {inputs : List Input} {loops : List Loop}
  {scopes : Scopes}

theorem record_state {event : Event} (h : ∀ path, event ≠ .opened path) :
    (trace.state inputs loops scopes).record event =
      (trace.note [event]).state inputs loops scopes := by
  cases event with
  | opened path => exact absurd rfl (h path)
  | _ => rfl

theorem foldl_record_state {events : List Event}
    (h : ∀ event ∈ events, ∀ path, event ≠ .opened path) :
    events.foldl State.record (trace.state inputs loops scopes) =
      (trace.note events).state inputs loops scopes := by
  have hopened (opened : List Path) : Event.opening opened events = opened := by
    induction events with
    | nil => rfl
    | cons event events ih =>
      have hevent := h event List.mem_cons_self
      cases event with
      | opened path => exact absurd rfl (hevent path)
      | _ => exact ih fun event hmem => h event (List.mem_cons_of_mem _ hmem)
  rw [State.foldl_record, note, hopened]
  rfl

theorem noteOpened_state (path : Path) :
    ((trace.state inputs loops scopes).record (.opened path)).noteOpened path =
      (trace.note [.opened path]).state inputs loops scopes := by
  simp only [State.noteOpened, State.record, state, note, Event.opening]
  split <;> simp_all

theorem markLoop_state (note : LoopNote) :
    (trace.state inputs loops scopes).markLoop env note =
      (trace.write (loopMark env note)).state inputs loops scopes := by
  unfold State.markLoop loopMark
  split <;> simp [state, write, State.write, *]

end Trace

namespace Blocks

/-- The file of a scene after so many lines. -/
def Scene.input (scene : Scene) (line : Nat) : Input :=
  ⟨scene.path, scene.lines, line, scene.indentation⟩

theorem Scene.next?_input (scene : Scene) {line : Nat} {raw : Text}
    (h : scene.lines[line]? = some raw) :
    (scene.input line).next? = some (raw, scene.input (line + 1)) := by
  simp [Input.next?, Scene.input, h]

theorem Scene.next?_input_none (scene : Scene) {line : Nat} (h : scene.lines[line]? = none) :
    (scene.input line).next? = none := by
  simp [Input.next?, Scene.input, h]

theorem markLine_state {env : Environment} {trace : Trace} {scene : Scene} {line : Nat}
    {outer : List Input} {loops : List Loop} {scopes : Scopes} :
    (trace.state (scene.input line :: outer) loops scopes).markLine env =
      (trace.write (lineMark env scene line)).state (scene.input line :: outer) loops scopes := by
  unfold State.markLine lineMark
  cases h : env.config.lineMarkers <;>
    simp [Trace.state, Trace.write, State.write, Scene.input]

/-! ## Settings -/

/-- A loop of the machine that runs an iteration, as the body of the loop sees it. -/
structure Runs (loop : Loop) (frame : Frame) : Prop where
  place : loop.place = frame.header
  iterating : ∃ index, loop.phase = .iteration index

/-- The stacks of the machine around a block of a file. -/
structure Setting (scene : Scene) (here : List Frame) where
  outer : List Input
  /-- the loops that were begun in the file -/
  own : List Loop
  around : List Loop
  paths : outer.map Input.path = scene.outer
  ownRuns : List.Forall₂ Runs own here
  aroundRuns : List.Forall₂ Runs around scene.around
  ownDepth : ∀ loop ∈ own, loop.depth = outer.length + 1
  aroundDepth : ∀ loop ∈ around, loop.depth ≤ outer.length

/-- The scopes that are open within some loops. -/
def scopesOf (frames : List Frame) : Scopes :=
  Scopes.ofFrames (frames.map Frame.bindings)

namespace Setting

variable {scene : Scene} {here : List Frame} (setting : Setting scene here)

/-- The machine in a setting, when so many lines of the file are read. -/
def state (line : Nat) (trace : Trace) : State :=
  trace.state (scene.input line :: setting.outer) (setting.own ++ setting.around)
    (scopesOf (here ++ scene.around))

/-- The iteration of a loop in a setting. -/
def loop (place : Place) (header : LoopHeader) (reference : Text) (keys : List Text)
    (index : Nat) : Loop :=
  ⟨setting.outer.length + 1, place, header, reference, keys, .iteration index⟩

/-- The setting within an iteration of a loop. -/
def enter (place : Place) (header : LoopHeader) (reference : Text) (keys : List Text)
    (index : Nat) (key : Text) :
    Setting scene (Frame.ofKey place header reference key :: here) where
  outer := setting.outer
  own := setting.loop place header reference keys index :: setting.own
  around := setting.around
  paths := setting.paths
  ownRuns := .cons ⟨rfl, index, rfl⟩ setting.ownRuns
  aroundRuns := setting.aroundRuns
  ownDepth := List.forall_mem_cons.mpr ⟨rfl, setting.ownDepth⟩
  aroundDepth := setting.aroundDepth

theorem runs : List.Forall₂ Runs (setting.own ++ setting.around) (here ++ scene.around) :=
  List.rel_append setting.ownRuns setting.aroundRuns

theorem depth_le {loop : Loop} (h : loop ∈ setting.own ++ setting.around) :
    loop.depth ≤ setting.outer.length + 1 := by
  rcases List.mem_append.mp h with h | h
  · exact Nat.le_of_eq (setting.ownDepth loop h)
  · exact Nat.le_succ_of_le (setting.aroundDepth loop h)

theorem expanding (line : Nat) (trace : Trace) : (setting.state line trace).Expanding := by
  intro loop hloop nested hphase
  have hruns := setting.runs
  -- the innermost loop has the innermost frame, and loops with a frame run an iteration
  change loop ∈ (setting.own ++ setting.around).head? at hloop
  cases hloops : setting.own ++ setting.around with
  | nil => simp [hloops] at hloop
  | cons first rest =>
    rw [hloops] at hloop hruns
    obtain ⟨frame, frames, hfirst, -, -⟩ := List.forall₂_cons_left_iff.mp hruns
    obtain ⟨index, hindex⟩ := hfirst.iterating
    cases hloop
    rw [hindex] at hphase
    cases hphase

theorem step_state {env : Environment} {line : Nat} {trace : Trace} {raw : Text}
    (h : scene.lines[line]? = some raw) :
    (setting.state line trace).step env = (setting.state (line + 1) trace).readLine env raw :=
  State.step_of_line rfl (scene.next?_input h)

end Setting

end Blocks

/-! ## Single lines -/

/-- What the machine does about a line, once it knows what the line says. -/
def State.perform (env : Environment) (raw : Text) (state : State) : Instruction → Progress
  | .code text => .running (state.writeCode (Text.indentation raw) text)
  | .inclusion path =>
    state.openFile env path (state.inputs.head?.elim [] Input.indentation ++ Text.indentation raw)
  | .loop header reference keys => .running (state.beginWith env header reference keys)

theorem State.search_tried {provider : Provider} {target : Text} {directories : List Path} :
    ∀ event ∈ (search provider target directories).1, ∀ path, event ≠ .opened path := by
  intro event hevent path
  obtain ⟨candidate, found, rfl⟩ := tried_of_mem_search hevent
  simp

namespace Blocks.Setting

variable {env : Environment} {pass : Pass} {scene : Scene} {here : List Frame}
  (setting : Setting scene here)

theorem names_state (line : Nat) (trace : Trace) :
    State.names env (setting.state line trace) = Blocks.names env (here ++ scene.around) := by
  unfold State.names Blocks.names
  rw [← Scopes.resolve?_ofFrames]
  rfl

theorem yields_includeFile {line : Nat} {trace : Trace} {raw argument : Text}
    {place : Place} (hplace : place = ⟨scene.path.text, line⟩)
    (h : (match IncludeTarget.parse argument with
      | .error fault => Report.fail (.malformedInclude fault.reason place)
      | .ok target => do
        let (events, found) := scene.locate env target
        .note events
        match found with
        | none => .fail (.includeNotFound target.text place)
        | some path => return Instruction.inclusion path : Report Instruction).Leads trace pass
          fun instruction trace =>
            ((setting.state line trace).perform env raw instruction).Yields env pass) :
    ((setting.state line trace).includeFile env (Text.indentation raw) argument).Yields env
      pass := by
  subst hplace
  unfold State.includeFile
  cases hparse : IncludeTarget.parse argument with
  | error fault =>
    simp only [hparse, Report.leads_fail] at h
    exact Trace.yields_fail h
  | ok target =>
    have hlocate : (setting.state line trace).locate env target = scene.locate env target := by
      cases target <;> rfl
    have htried : ∀ event ∈ (scene.locate env target).1, ∀ path, event ≠ .opened path := by
      cases target with
      | near target => exact State.search_tried
      | fixed target => simp [Scene.locate]
    simp only [hparse, Report.leads_bind, Report.leads_note] at h
    dsimp only
    rw [hlocate]
    generalize scene.locate env target = located at h htried
    obtain ⟨events, found⟩ := located
    have hrecord : events.foldl State.record (setting.state line trace) =
        setting.state line (trace.note events) := Trace.foldl_record_state htried
    dsimp only at h ⊢
    rw [hrecord]
    cases found with
    | none =>
      simp only [Report.leads_fail] at h
      exact Trace.yields_fail h
    | some path =>
      simp only [Report.leads_pure] at h
      exact h

theorem yields_beginLoop {line : Nat} {trace : Trace} {raw argument : Text}
    {place : Place} (hplace : place = ⟨scene.path.text, line⟩)
    (h : (match LoopHeader.parse argument with
      | .error fault => Report.fail (.malformedFor fault.reason place)
      | .ok header => do
        let (reference, keys) ← .ofExcept
          ((Blocks.names env (here ++ scene.around)).levelOf place header.reference)
        return Instruction.loop header reference keys : Report Instruction).Leads trace pass
          fun instruction trace =>
            ((setting.state line trace).perform env raw instruction).Yields env pass) :
    ((setting.state line trace).beginLoop env argument).Yields env pass := by
  subst hplace
  rw [State.beginLoop_eq, setting.names_state]
  cases hparse : LoopHeader.parse argument with
  | error fault =>
    simp only [hparse, Report.leads_fail] at h
    exact Trace.yields_fail h
  | ok header =>
    have hplace : (setting.state line trace).place = ⟨scene.path.text, line⟩ := rfl
    simp only [hparse, Report.leads_bind] at h
    dsimp only
    rw [hplace]
    cases hlevel : (Blocks.names env (here ++ scene.around)).levelOf ⟨scene.path.text, line⟩
        header.reference with
    | error failure =>
      simp only [hlevel, Report.leads_ofExcept_error] at h
      exact Trace.yields_fail h
    | ok level =>
      obtain ⟨reference, keys⟩ := level
      simp only [hlevel, Report.leads_ofExcept_ok, Report.leads_pure] at h
      exact h

/-- The machine finds out about a line what the evaluator does, and then goes on as the line
says. -/
theorem yields_expandLine {line : Nat} {trace : Trace} {raw : Text}
    (h : (scene.instruction env (here ++ scene.around) ⟨scene.path.text, line⟩
        (Text.trim raw)).Leads trace pass fun instruction trace =>
          ((setting.state line trace).perform env raw instruction).Yields env pass) :
    ((setting.state line trace).expandLine env (Text.indentation raw) (Text.trim raw)).Yields
      env pass := by
  have hfillLine : (setting.state line trace).fillLine env (Text.trim raw) =
      (Template.parse (Text.trim raw)).fill
        (fun name => (Blocks.names env (here ++ scene.around)).textOf ⟨scene.path.text, line⟩
          (Text.trim name)) (.unterminatedSubstitution ⟨scene.path.text, line⟩) := by
    unfold State.fillLine
    rw [setting.names_state]
    rfl
  rw [State.expandLine_eq, hfillLine]
  unfold Scene.instruction at h
  simp only [Report.leads_bind] at h
  cases hfill : (Template.parse (Text.trim raw)).fill
      (fun name => (Blocks.names env (here ++ scene.around)).textOf ⟨scene.path.text, line⟩
        (Text.trim name)) (.unterminatedSubstitution ⟨scene.path.text, line⟩) with
  | error failure =>
    simp only [hfill, Report.leads_ofExcept_error] at h
    exact Trace.yields_fail h
  | ok filled =>
    simp only [hfill, Report.leads_ofExcept_ok] at h
    dsimp only
    split
    · rename_i argument _ hdirective
      rw [hdirective] at h
      exact setting.yields_includeFile rfl h
    · rename_i argument hnone hdirective
      rw [hnone, hdirective] at h
      exact setting.yields_beginLoop rfl h
    · rename_i hnone hnoLoop
      rw [hnone, hnoLoop] at h
      exact h

end Blocks.Setting

namespace Blocks

/-! ## The ends of a block -/

/-- Where a block stops: the body of a loop at its `#endfor`, and a file after its last line. -/
def Stops (scene : Scene) : List Frame → (stop : Nat) → Prop
  | [], stop => scene.lines[stop]? = none
  | _ :: _, stop => ∃ raw, scene.lines[stop]? = some raw ∧
    Directive.endFor.isOn (Text.trim raw) = true

namespace Setting

variable {env : Environment} {scene : Scene}

/-- A file is read from its start within the loops in which it is included. -/
theorem afterOpen_state (setting : Setting scene []) {text : Text} {trace : Trace}
    (lines : scene.lines = (Text.lines text).toArray) :
    (trace.state setting.outer setting.around (scopesOf scene.around)).afterOpen env scene.path text
        scene.indentation =
      setting.state 0 ((trace.note [.opened scene.path]).write (lineMark env scene 0)) := by
  have hown : setting.own = [] := List.forall₂_nil_right_iff.mp setting.ownRuns
  have hstart : Input.start scene.path text scene.indentation = scene.input 0 := by
    rw [Input.start, Scene.input, lines]
  rw [State.afterOpen, Trace.noteOpened_state, state, hown, hstart]
  exact markLine_state

theorem step_atEnd {here : List Frame} (setting : Setting scene here) {line : Nat} {trace : Trace}
    (h : scene.lines[line]? = none) :
    (setting.state line trace).step env = (setting.state line trace).closeFile env :=
  State.step_of_end rfl (scene.next?_input_none h)

theorem step_endFor {here : List Frame} (setting : Setting scene here) {line : Nat} {trace : Trace}
    {raw : Text} (h : scene.lines[line]? = some raw)
    (word : Directive.endFor.isOn (Text.trim raw) = true) :
    (setting.state line trace).step env = (setting.state (line + 1) trace).endLoop env := by
  rw [setting.step_state h, State.readLine_endFor word]

/-- A file is closed after its last line, within the loops in which it was included. -/
theorem step_close (setting : Setting scene []) {line : Nat} {trace : Trace}
    (h : scene.lines[line]? = none) :
    (setting.state line trace).step env =
      .running (State.markLine env
        (trace.state setting.outer setting.around (scopesOf scene.around))) := by
  have hown : setting.own = [] := List.forall₂_nil_right_iff.mp setting.ownRuns
  rw [setting.step_atEnd h]
  unfold State.closeFile
  simp only [state, Trace.state, hown, List.nil_append, List.length_cons, List.tail_cons]
  split
  · rename_i loop outer haround
    have hdepth : loop.depth ≤ setting.outer.length :=
      setting.aroundDepth loop (haround ▸ List.mem_cons_self)
    rw [if_neg (by omega)]
  · rfl

/-- A file may not end within a loop that was begun in it. -/
theorem step_unterminated {frame : Frame} {frames : List Frame}
    (setting : Setting scene (frame :: frames)) {line : Nat} {trace : Trace}
    (h : scene.lines[line]? = none) :
    (setting.state line trace).step env =
      (setting.state line trace).fail (.unterminatedFor frame.header scene.path.text) := by
  obtain ⟨loop, own, hruns, -, hown⟩ := List.forall₂_cons_right_iff.mp setting.ownRuns
  have hdepth : loop.depth = setting.outer.length + 1 :=
    setting.ownDepth loop (hown ▸ List.mem_cons_self)
  rw [setting.step_atEnd h, ← hruns.place]
  unfold State.closeFile
  simp [state, Trace.state, hown, hdepth, State.place, Scene.input, Input.place]

/-- An `#endfor` may not end a loop that was begun in another file. -/
theorem step_mismatched (setting : Setting scene []) {line : Nat} {trace : Trace} {raw : Text}
    (h : scene.lines[line]? = some raw) (word : Directive.endFor.isOn (Text.trim raw) = true) :
    (setting.state line trace).step env =
      (setting.state (line + 1) trace).fail
        (match scene.around with
        | frame :: _ => .mismatchedEndFor frame.header ⟨scene.path.text, line + 1⟩
        | [] => .unexpectedEndFor ⟨scene.path.text, line + 1⟩) := by
  have hown : setting.own = [] := List.forall₂_nil_right_iff.mp setting.ownRuns
  have hruns := setting.aroundRuns
  rw [setting.step_endFor h word]
  cases haround : scene.around with
  | nil =>
    rw [haround] at hruns
    have hloops : setting.around = [] := List.forall₂_nil_right_iff.mp hruns
    simp [State.endLoop, state, Trace.state, hown, hloops, State.place, Scene.input, Input.place]
  | cons frame frames =>
    rw [haround] at hruns
    obtain ⟨loop, around, hloop, -, hloops⟩ := List.forall₂_cons_right_iff.mp hruns
    have hdepth : loop.depth ≠ setting.outer.length + 1 := by
      have := setting.aroundDepth loop (hloops ▸ List.mem_cons_self)
      omega
    simp [State.endLoop, state, Trace.state, hown, hloops, hdepth, hloop.place, State.place,
      Scene.input, Input.place]

end Setting

/-! ## Iterations -/

namespace Setting

variable {env : Environment} {scene : Scene} {here : List Frame} (setting : Setting scene here)
  {place : Place} {header : LoopHeader} {reference key : Text} {keys : List Text}

theorem enterLoop_loop {line index : Nat} {trace : Trace} (h : keys[index]? = some key) :
    (setting.state line trace).enterLoop (setting.loop place header reference keys index) =
      (setting.enter place header reference keys index key).state line trace := by
  have hbindings : (setting.loop place header reference keys index).bindings =
      (Frame.ofKey place header reference key).bindings := by
    simp [Loop.bindings, Loop.key?, loop, h, Frame.ofKey]
  unfold State.enterLoop
  rw [hbindings]
  rfl

theorem markLoop_markLine_state {line : Nat} {trace : Trace} {note : LoopNote} :
    ((setting.state line trace).markLoop env note).markLine env =
      setting.state line ((trace.write (loopMark env note)).write (lineMark env scene line)) := by
  unfold state
  rw [Trace.markLoop_state]
  exact markLine_state

theorem loops_enter {line index : Nat} {trace : Trace} :
    ((setting.enter place header reference keys index key).state line trace).loops =
      setting.loop place header reference keys index :: (setting.own ++ setting.around) := rfl

theorem leaveLoop_enter {line index : Nat} {trace : Trace} :
    ((setting.enter place header reference keys index key).state line trace).leaveLoop
      (setting.own ++ setting.around) = setting.state line trace := by
  have hpop : (scopesOf (Frame.ofKey place header reference key :: here ++ scene.around)).pop =
      scopesOf (here ++ scene.around) := Scopes.pop_ofFrames _ _
  unfold state
  rw [← hpop]
  rfl

/-- The header of a loop with keys leads to the first iteration. -/
theorem beginWith_cons {line : Nat} {trace : Trace} :
    (setting.state line trace).beginWith env header reference (key :: keys) =
      (setting.enter ⟨scene.path.text, line⟩ header reference (key :: keys) 0 key).state line
        ((((trace.note [.loopBegun reference key]).write (loopMark env (.begun reference))).write
          (loopMark env (.onKey reference key))).write (lineMark env scene line)) := by
  have hbegun : (setting.state line trace).record (.loopBegun reference key) =
      setting.state line (trace.note [.loopBegun reference key]) :=
    Trace.record_state (by simp)
  simp only [State.beginWith, hbegun]
  unfold state
  rw [Trace.markLoop_state, Trace.markLoop_state]
  exact markLine_state

/-- The end of an iteration leads to the next one. -/
theorem endLoop_next {line index : Nat} {trace : Trace} {next : Text}
    (h : keys[index + 1]? = some next) :
    ((setting.enter place header reference keys index key).state line trace).endLoop env =
      .running ((setting.enter place header reference keys (index + 1) next).state place.line
        (((trace.note [.loopKey reference next]).write (loopMark env (.onKey reference next))).write
          (lineMark env scene place.line))) := by
  have hnext : (setting.loop place header reference keys index).next? =
      some (next, setting.loop place header reference keys (index + 1)) := by
    simp [Loop.next?, loop, h]
  have hkey : (setting.state line trace).record (.loopKey reference next) =
      setting.state line (trace.note [.loopKey reference next]) :=
    Trace.record_state (by simp)
  rw [State.endLoop_iteration setting.loops_enter rfl rfl, leaveLoop_enter, hnext]
  dsimp only
  rw [show (setting.loop place header reference keys index).reference = reference from rfl, hkey,
    setting.enterLoop_loop h]
  unfold state
  rw [Trace.markLoop_state]
  exact congrArg Progress.running markLine_state

/-- The end of the last iteration ends the loop. -/
theorem endLoop_last {line index : Nat} {trace : Trace} (h : keys[index + 1]? = none) :
    ((setting.enter place header reference keys index key).state line trace).endLoop env =
      .running (setting.state line
        ((trace.write (loopMark env (.ended reference))).write (lineMark env scene line))) := by
  have hnext : (setting.loop place header reference keys index).next? = none := by
    simp [Loop.next?, loop, h]
  rw [State.endLoop_iteration setting.loops_enter rfl rfl, leaveLoop_enter, hnext]
  dsimp only
  rw [markLoop_markLine_state]
  rfl

end Setting

end Blocks

end ShaderTemplate
