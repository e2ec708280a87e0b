import ShaderTemplate.Dictionary.Equality
import ShaderTemplate.Dictionary.Update
import ShaderTemplate.Disk
import ShaderTemplate.InfoLog.Remap
import ShaderTemplate.Session
import ShaderTemplate.Proofs.Scopes.Lexical
import ShaderTemplate.Proofs.Provider.Listing
import ShaderTemplate.Proofs.Expansion.Transition
import ShaderTemplate.Proofs.Expansion.Run
import ShaderTemplate.Proofs.Expansion.Nesting
import ShaderTemplate.Proofs.Expansion.Termination
import ShaderTemplate.Proofs.Blocks.Report
import ShaderTemplate.Proofs.Blocks.Evaluator
import ShaderTemplate.Proofs.Blocks.Setting
import ShaderTemplate.Proofs.Blocks.Refinement
import ShaderTemplate.Proofs.Output.Provenance
import ShaderTemplate.Proofs.Output.Chunks
import ShaderTemplate.Proofs.Output.Origins
import ShaderTemplate.Proofs.Expansion.Loops
import ShaderTemplate.Proofs.Expansion.Positions
import ShaderTemplate.Proofs.Expansion.Consistency
import ShaderTemplate.Proofs.Expansion.Markers
import ShaderTemplate.Proofs.Output.LineMarkers
import ShaderTemplate.Proofs.Inclusion.Balance
import ShaderTemplate.Proofs.Inclusion.Inlining
import ShaderTemplate.Proofs.Path.Join
import ShaderTemplate.Proofs.Inclusion.Simulation
import ShaderTemplate.Proofs.Inclusion.Replacement
import ShaderTemplate.Proofs.Expansion.Growth
import ShaderTemplate.Proofs.Expansion.Dependencies
import ShaderTemplate.Proofs.Expansion.Attribution
import ShaderTemplate.Proofs.Session.Polling
import ShaderTemplate.Proofs.InfoLog.Location
import ShaderTemplate.Proofs.InfoLog.Remap
import ShaderTemplate.Proofs.Path.Walk
import ShaderTemplate.Proofs.Dictionary.Lookup
import ShaderTemplate.Proofs.Dictionary.Keyed
import ShaderTemplate.Proofs.Expansion.Additions
import ShaderTemplate.Proofs.Expansion.LoopNames
import ShaderTemplate.Proofs.Expansion.EmptyLoops
import ShaderTemplate.Proofs.Dictionary.Storing
import ShaderTemplate.Proofs.Path.Folding
import ShaderTemplate.Proofs.Dictionary.Order
import ShaderTemplate.Proofs.Expansion.Literals
import ShaderTemplate.Proofs.Scopes.Table
import ShaderTemplate.Proofs.InfoLog.LineEnds
import ShaderTemplate.Proofs.Directive.HeaderGrammar
import ShaderTemplate.Proofs.Expansion.Holes
import ShaderTemplate.Proofs.Session.PlainFiles
