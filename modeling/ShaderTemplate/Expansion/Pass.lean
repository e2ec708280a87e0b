import ShaderTemplate.Expansion.Step
import ShaderTemplate.Output.Expanded

/-!
# Passes

A pass expands one file with all that it includes. It is the iteration of `State.step` from the
opening of the file until the expansion halts.

## Shape of the budget

A loop reads lines again and an include reads a file again, so no counter of lines goes down with
each step. But a file can be open only once at a time, and a loop nested in another has its header
further down in the same file or in a file opened later. Let `w` bound the number of keys of any
dictionary. To go through a file from a place with `r` lines left takes at most `w + 2` times as
many steps as from a place with `r - 1` lines left, so a file of `n` lines multiplies the steps of
what it includes by at most `(w + 2) ^ (n + 1)`. `Environment.stepBudget` takes this over all files
there are.
-/

namespace ShaderTemplate

/-- A number of steps within which every expansion halts that opens no other than the provider's
listed files. -/
def Environment.stepBudget (env : Environment) : Nat :=
  Nat.pow (env.dictionary.weight + 2) (env.provider.linesOf env.provider.files)

/-- Goes on until the expansion halts, for so many steps at most. -/
def Progress.run (env : Environment) : Nat → Progress → Option (Except Failure Unit × State)
  | _, .halted result state => some (result, state)
  | 0, .running _ => none
  | steps + 1, .running state => run env steps (state.step env)

/-- What a pass has produced. -/
structure Pass where
  /-- the expanded file, or why there is none -/
  result : Except Failure Expanded
  /-- the files that were opened, the expanded one first -/
  opened : List Path
  /-- what happened, in its order -/
  journal : List Event

namespace Pass

/-- The pass of a halted expansion. A failure is the last event of its journal. -/
def ofHalted : Except Failure Unit × State → Pass
  | (.ok (), state) => ⟨.ok ⟨state.pieces.reverse⟩, state.opened, state.journal.reverse⟩
  | (.error failure, state) =>
    ⟨.error failure, state.opened, state.journal.reverse ++ [.failed failure]⟩

/-- Expands a file within so many steps, if they are enough. -/
def within? (steps : Nat) (env : Environment) (shader : Path) : Option Pass :=
  let path := env.provider.absolute shader
  if env.provider.isFile path then
    ((State.initial.openFile env path []).run env steps).map ofHalted
  else
    let failure := Failure.shaderNotFound path.text
    some ⟨.error failure, [], [.failed failure]⟩

/-- Expands a file. There is an answer for every provider that lists all its files, since the budget
is then enough. -/
def run? (env : Environment) (shader : Path) : Option Pass :=
  within? env.stepBudget env shader

end Pass

end ShaderTemplate
