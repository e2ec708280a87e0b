import ShaderTemplate.Expansion.Pass

/-!
# Reports

A `Report` is what a part of an expansion puts out, together with what it comes to. Parts are
strung together by `>>=`: the second part puts out its pieces and events after those of the first,
and is left out if the first one fails. So a function that gives a report is read like a program,
and still is a plain function of its arguments.

`Report.Leads` says what a report has to lead to if it is put out after a `Trace` of earlier output:
either to the pass that ends with its failure, or to what is required of its value. The lemmas on
`Leads` take a report apart along the program it is written as.
-/

namespace ShaderTemplate

/-- What a part of an expansion puts out, each in its order, and what it comes to. -/
structure Report (α : Type) where
  pieces : List Piece
  events : List Event
  result : Except Failure α

namespace Report

variable {α β : Type}

instance : Monad Report where
  pure value := ⟨[], [], .ok value⟩
  bind report next :=
    match report.result with
    | .error failure => ⟨report.pieces, report.events, .error failure⟩
    | .ok value =>
      let later := next value
      ⟨report.pieces ++ later.pieces, report.events ++ later.events, later.result⟩

/-- Nothing is put out, and the expansion fails. -/
def fail (failure : Failure) : Report α :=
  ⟨[], [], .error failure⟩

/-- Nothing is put out, whether there is a value or a failure. -/
def ofExcept (result : Except Failure α) : Report α :=
  ⟨[], [], result⟩

/-- Some pieces are written. -/
def write (pieces : List Piece) : Report Unit :=
  ⟨pieces, [], .ok ()⟩

/-- Some events are noted. -/
def note (events : List Event) : Report Unit :=
  ⟨[], events, .ok ()⟩

end Report

/-- The files opened up to some events, given those opened before. A file that is opened again keeps
its place. -/
def Event.opening (opened : List Path) : List Event → List Path
  | [] => opened
  | .opened path :: events =>
    opening (if opened.contains path then opened else opened ++ [path]) events
  | _ :: events => opening opened events

/-- The pass that is made up of a whole report. A failure is its last event. -/
def Report.pass (report : Report Unit) : Pass :=
  match report.result with
  | .ok () => ⟨.ok ⟨report.pieces⟩, Event.opening [] report.events, report.events⟩
  | .error failure =>
    ⟨.error failure, Event.opening [] report.events, report.events ++ [.failed failure]⟩

/-! ## Traces -/

/-- What an expansion has put out so far, as a `State` collects it. -/
structure Trace where
  pieces : List Piece
  opened : List Path
  journal : List Event

namespace Trace

/-- Nothing is put out yet. -/
def empty : Trace := ⟨[], [], []⟩

/-- A trace with more pieces, which are given in their order. -/
def write (trace : Trace) (pieces : List Piece) : Trace :=
  { trace with pieces := pieces.reverse ++ trace.pieces }

/-- A trace with more events, which are given in their order. -/
def note (trace : Trace) (events : List Event) : Trace :=
  { trace with
    opened := Event.opening trace.opened events
    journal := events.reverse ++ trace.journal }

/-- The state that has this trace. -/
def state (trace : Trace) (inputs : List Input) (loops : List Loop) (scopes : Scopes) : State :=
  ⟨inputs, loops, scopes, trace.pieces, trace.opened, trace.journal⟩

/-- The pass that ends after this trace. -/
def pass (trace : Trace) (result : Except Failure Unit) : Pass :=
  Pass.ofHalted (result, trace.state [] [] Scopes.empty)

end Trace

theorem Event.opening_append (opened : List Path) (events later : List Event) :
    opening opened (events ++ later) = opening (opening opened events) later := by
  induction events generalizing opened with
  | nil => rfl
  | cons event events ih => cases event <;> exact ih _

namespace Report

variable {α β : Type} {trace : Trace} {pass : Pass}

/-- What a report leads to if it is put out after `trace`: the given pass if it fails, and otherwise
what is required of its value and of the trace after it. -/
def Leads (report : Report α) (trace : Trace) (pass : Pass) (next : α → Trace → Prop) : Prop :=
  let trace := (trace.write report.pieces).note report.events
  match report.result with
  | .ok value => next value trace
  | .error failure => pass = trace.pass (.error failure)

@[simp] theorem leads_pure (value : α) (next : α → Trace → Prop) :
    (pure value : Report α).Leads trace pass next ↔ next value trace := Iff.rfl

@[simp] theorem leads_fail (failure : Failure) (next : α → Trace → Prop) :
    (fail failure : Report α).Leads trace pass next ↔ pass = trace.pass (.error failure) := Iff.rfl

@[simp] theorem leads_write (pieces : List Piece) (next : Unit → Trace → Prop) :
    (write pieces).Leads trace pass next ↔ next () (trace.write pieces) := Iff.rfl

@[simp] theorem leads_note (events : List Event) (next : Unit → Trace → Prop) :
    (note events).Leads trace pass next ↔ next () (trace.note events) := Iff.rfl

@[simp] theorem leads_ofExcept_ok (value : α) (next : α → Trace → Prop) :
    (ofExcept (.ok value)).Leads trace pass next ↔ next value trace := Iff.rfl

@[simp] theorem leads_ofExcept_error (failure : Failure) (next : α → Trace → Prop) :
    (ofExcept (.error failure)).Leads trace pass next ↔ pass = trace.pass (.error failure) :=
  Iff.rfl

/-- A report in two parts leads where the second part leads after the first. -/
@[simp] theorem leads_bind (report : Report α) (later : α → Report β)
    (next : β → Trace → Prop) :
    (report >>= later).Leads trace pass next ↔
      report.Leads trace pass fun value trace => (later value).Leads trace pass next := by
  obtain ⟨pieces, events, result⟩ := report
  cases result with
  | error failure => rfl
  | ok value =>
    simp [Leads, bind, Trace.write, Trace.note, Event.opening_append]

theorem Leads.mono {report : Report α} {next next' : α → Trace → Prop}
    (h : report.Leads trace pass next)
    (weaker : ∀ value trace, next value trace → next' value trace) :
    report.Leads trace pass next' := by
  unfold Leads at h ⊢
  dsimp only at h ⊢
  split
  · rename_i value hresult
    rw [hresult] at h
    exact weaker _ _ h
  · rename_i failure hresult
    rw [hresult] at h
    exact h

/-- A whole report leads to its pass. -/
theorem leads_pass (report : Report Unit) :
    report.Leads .empty report.pass fun _ trace => report.pass = trace.pass (.ok ()) := by
  obtain ⟨pieces, events, result⟩ := report
  cases result <;>
    simp [Leads, Report.pass, Trace.pass, Trace.state, Trace.write, Trace.note, Trace.empty,
      Pass.ofHalted]

end Report

end ShaderTemplate
