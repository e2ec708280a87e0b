import ShaderTemplate.Proofs.Inclusion.Balance
import ShaderTemplate.Proofs.Names.Resolution
import ShaderTemplate.Proofs.Expansion.Positions

/-!
# A file with an include and one without

An `Inlining` is a line of a root file that includes another file, with the lines of that file. The
same root file, with these lines in place of the include, is expanded in the environment
`Inlining.flat`. Where the two expansions are at the same place, their open files correspond
(`Inlining.Stacks`): the first has a file more open while it reads the included lines, and after
them its root file has other line numbers (`Inlining.shift`). All other files are the same.

## Shape of the correspondence

Whether the included file is open is a parameter of the correspondence, `inside`. It decides how
many files are open in the second expansion, and at which line of it a header of the first stands
(`Inlining.depth`, `Inlining.headerLine`). The file that is included is the second from the outside,
so both can be said in terms of the number of files around.
-/

namespace ShaderTemplate

/-- The file that an include in this file leads to. -/
def Environment.leadsTo? (env : Environment) (path : Path) (target : IncludeTarget) : Option Path :=
  (State.locate env { State.initial with inputs := [Input.start path [] []] } target).2

/-- A root file with an include in it, whose file is to be put in its place. -/
structure Inlining where
  env : Environment
  /-- the files with the include replaced -/
  provider : Provider
  /-- the root file -/
  root : Path
  /-- the included file -/
  file : Path
  /-- the lines of the root file before the include -/
  before : List Text
  /-- the line with the include -/
  raw : Text
  /-- the lines of the root file after the include -/
  after : List Text
  /-- the lines of the included file -/
  parts : List Text

namespace Inlining

/-- The environment in which the include has been replaced. -/
def flat (inl : Inlining) : Environment :=
  { inl.env with provider := inl.provider }

/-- The white space in front of the include. -/
def indentation (inl : Inlining) : Text :=
  Text.indentation inl.raw

/-- The lines of the included file as they stand in the root file. -/
def indented (inl : Inlining) : List Text :=
  inl.parts.map (inl.indentation ++ ·)

/-- The include is a line of the root file, and there is another root file that has the lines of the
included file in its place, each behind the indentation of the include. -/
structure Sound (inl : Inlining) : Prop where
  noLineMarkers : inl.env.config.lineMarkers = false
  noLoopMarkers : inl.env.config.loopMarkers = false
  rootLines : ∀ text, inl.env.provider.read inl.root = .ok text →
    Text.lines text = inl.before ++ inl.raw :: inl.after
  flatLines : ∃ text, inl.provider.read inl.root = .ok text ∧
    Text.lines text = inl.before ++ inl.indented ++ inl.after
  fileLines : ∀ text, inl.env.provider.read inl.file = .ok text → Text.lines text = inl.parts
  absolute : inl.provider.absolute = inl.env.provider.absolute
  isFile : inl.provider.isFile = inl.env.provider.isFile
  read : ∀ path, (inl.root == path) = false → inl.provider.read path = inl.env.provider.read path
  /-- the line has no holes -/
  literal : Template.parse (Text.trim inl.raw) = .plain (Text.trim inl.raw)
  /-- the line includes the file -/
  includes : ∃ argument target,
    Directive.includeFile.argument? (Text.trim inl.raw) = some argument ∧
      IncludeTarget.parse argument = .ok target ∧ inl.env.leadsTo? inl.root target = some inl.file
  /-- other files are found alike from the two files -/
  near : ∀ target, inl.env.provider.absolute (inl.file.directory.join target) =
    inl.env.provider.absolute (inl.root.directory.join target)
  balanced : Text.Balanced inl.parts

/-! ## Lines and files -/

/-- The number of lines of the replaced file that are read when so many lines of the root file
are. -/
def shift (inl : Inlining) (line : Nat) : Nat :=
  if line ≤ inl.before.length then line else line - 1 + inl.parts.length

/-- The root file, after so many lines. -/
def rootAt (inl : Inlining) (line : Nat) : Input :=
  ⟨inl.root, (inl.before ++ inl.raw :: inl.after).toArray, line, []⟩

/-- The included file, after so many lines. -/
def fileAt (inl : Inlining) (line : Nat) : Input :=
  ⟨inl.file, inl.parts.toArray, line, inl.indentation⟩

/-- The root file with the lines of the included file in it, after so many lines. -/
def flatAt (inl : Inlining) (line : Nat) : Input :=
  ⟨inl.root, (inl.before ++ inl.indented ++ inl.after).toArray, line, []⟩

variable {inl : Inlining}

theorem length_indented : inl.indented.length = inl.parts.length :=
  List.length_map ..

theorem shift_succ {line : Nat} (h : line ≠ inl.before.length) :
    inl.shift (line + 1) = inl.shift line + 1 := by
  unfold shift
  split <;> split <;> omega

theorem shift_before : inl.shift inl.before.length = inl.before.length :=
  if_pos (Nat.le_refl _)

theorem shift_after : inl.shift (inl.before.length + 1) = inl.before.length + inl.parts.length := by
  unfold shift
  split <;> omega

/-- A line that stands in the root file stands in the replaced file as well. -/
theorem flatAt_getElem? {line : Nat} (h : line ≠ inl.before.length) (other : Nat) :
    (inl.flatAt other).lines[inl.shift line]? = (inl.rootAt other).lines[line]? := by
  have hlength := inl.length_indented
  rw [flatAt, rootAt, shift]
  simp only [List.getElem?_toArray]
  split
  · rw [List.append_assoc, List.getElem?_append_left (by omega),
      List.getElem?_append_left (by omega)]
  · obtain ⟨index, rfl⟩ : ∃ index, line = inl.before.length + 1 + index :=
      ⟨line - (inl.before.length + 1), by omega⟩
    rw [List.getElem?_append_right (by rw [List.length_append]; omega),
      List.getElem?_append_right (by omega), List.length_append, hlength]
    have hindex : inl.before.length + 1 + index - inl.before.length = index + 1 := by omega
    rw [hindex, List.getElem?_cons_succ]
    congr 1
    omega

/-- A line of the included file stands in the replaced file, behind the indentation. -/
theorem flatAt_getElem?_parts {index : Nat} (h : index < inl.parts.length) (other : Nat) :
    (inl.flatAt other).lines[inl.before.length + index]? =
      some (inl.indentation ++ inl.parts[index]) := by
  rw [flatAt]
  simp only [List.getElem?_toArray]
  rw [List.append_assoc, List.getElem?_append_right (Nat.le_add_right _ _), Nat.add_sub_cancel_left,
    List.getElem?_append_left (by rw [length_indented]; exact h), indented, List.getElem?_map,
    List.getElem?_eq_getElem h]
  rfl

theorem rootAt_getElem?_raw (other : Nat) :
    (inl.rootAt other).lines[inl.before.length]? = some inl.raw := by
  simp [rootAt]

/-! ## Files that are open -/

/-- The open files of the two expansions, where the first has the included file open or not. Files
that are included from within the root file, or from within the included file, are the same. -/
inductive Stacks (inl : Inlining) : (inside : Bool) → List Input → List Input → Prop
  | closed : Stacks inl false [] []
  | outside (line : Nat) : Stacks inl false [inl.rootAt line] [inl.flatAt (inl.shift line)]
  | inside {line : Nat} (le : line ≤ inl.parts.length) :
      Stacks inl true [inl.fileAt line, inl.rootAt (inl.before.length + 1)]
        [inl.flatAt (inl.before.length + line)]
  | above {inside : Bool} {input below : Input} {inputs inputs' : List Input}
      (lower : Stacks inl inside (below :: inputs) inputs') :
      Stacks inl inside (input :: below :: inputs) (input :: inputs')

/-- How many files are open where the first expansion has so many. -/
def depth (inside : Bool) (depth : Nat) : Nat :=
  if inside = true ∧ 2 ≤ depth then depth - 1 else depth

/-- The line at which a header stands, where the first expansion has it at this line and with so
many files open. -/
def headerLine (inl : Inlining) (inside : Bool) (depth line : Nat) : Nat :=
  if depth ≤ 1 then inl.shift line
  else if inside = true ∧ depth = 2 then inl.before.length + line
  else line

namespace Stacks

variable {inside : Bool} {input : Input} {inputs inputs' : List Input}

theorem two_le (files : Stacks inl true inputs inputs') : 2 ≤ inputs.length := by
  cases files with
  | inside => exact Nat.le_refl 2
  | above lower => exact Nat.le_add_left 2 _

theorem length_eq (files : Stacks inl inside inputs inputs') :
    inputs'.length = depth inside inputs.length := by
  induction files with
  | closed | outside | inside => rfl
  | @above inside input below inputs inputs' lower ih =>
    have htwo : inside = true → 2 ≤ inputs.length + 1 := by
      rintro rfl
      exact lower.two_le
    rw [List.length_cons, ih]
    unfold depth
    split <;> split <;> simp_all

/-- The root file is open, if any is. -/
theorem root_mem (files : Stacks inl inside (input :: inputs) inputs') :
    ∃ other ∈ input :: inputs, other.path = inl.root := by
  generalize h : input :: inputs = whole at files
  induction files generalizing input inputs with
  | closed => cases h
  | outside line => exact ⟨_, List.mem_cons_self, rfl⟩
  | inside => exact ⟨_, List.mem_cons_of_mem _ List.mem_cons_self, rfl⟩
  | above lower ih =>
    obtain ⟨other, hother, hpath⟩ := ih rfl
    exact ⟨other, List.mem_cons_of_mem _ hother, hpath⟩

/-- No file is open in the second expansion that is not open in the first. -/
theorem path_mem (files : Stacks inl inside inputs inputs') {other : Input}
    (h : other ∈ inputs') : ∃ same ∈ inputs, same.path = other.path := by
  induction files with
  | closed => cases h
  | outside line =>
    rw [List.mem_singleton.mp h]
    exact ⟨_, List.mem_singleton_self _, rfl⟩
  | inside =>
    rw [List.mem_singleton.mp h]
    exact ⟨_, List.mem_cons_of_mem _ List.mem_cons_self, rfl⟩
  | above lower ih =>
    rcases List.mem_cons.mp h with rfl | h
    · exact ⟨_, List.mem_cons_self, rfl⟩
    · obtain ⟨same, hsame, hpath⟩ := ih h
      exact ⟨same, List.mem_cons_of_mem _ hsame, hpath⟩

/-- The second expansion has a file open too. -/
theorem exists_cons (files : Stacks inl inside (input :: inputs) inputs') :
    ∃ input' outer', inputs' = input' :: outer' := by
  cases files <;> exact ⟨_, _, rfl⟩

/-- Above the root file and the included one, files have the same lines. -/
theorem headerLine_above {below : Input} (lower : Stacks inl inside (below :: inputs) inputs')
    (line : Nat) : inl.headerLine inside (inputs.length + 2) line = line := by
  have htwo : inside = true → 2 ≤ inputs.length + 1 := by
    rintro rfl
    exact lower.two_le
  unfold headerLine
  rw [if_neg (by omega), if_neg]
  rintro ⟨hinside, hlength⟩
  have := htwo hinside
  omega

/-- The cursors of the files that are read correspond like the headers in them. -/
theorem line_eq {input' : Input}
    (files : Stacks inl inside (input :: inputs) (input' :: inputs')) :
    input'.line = inl.headerLine inside (inputs.length + 1) input.line := by
  cases files with
  | outside | inside => rfl
  | above lower => exact (headerLine_above lower _).symm

/-- The cursors may go back to corresponding lines. -/
theorem setLine {input' : Input} {line : Nat}
    (files : Stacks inl inside (input :: inputs) (input' :: inputs')) (le : line ≤ input.line) :
    Stacks inl inside ({ input with line } :: inputs)
      ({ input' with line := inl.headerLine inside (inputs.length + 1) line } :: inputs') := by
  cases files with
  | outside => exact .outside line
  | inside le' => exact .inside (Nat.le_trans le le')
  | above lower =>
    rw [List.length_cons, headerLine_above lower]
    exact .above lower

/-- A line that is read in the first expansion is read in the second as well, at most behind the
indentation that the included file has in the first. The line with the include is the exception. -/
theorem read {read : Input} {raw : Text} (files : Stacks inl inside (input :: inputs) inputs')
    (next : input.next? = some (raw, read))
    (ordinary : inputs = [] → input.line ≠ inl.before.length) :
    ∃ input' outer' raw' read', inputs' = input' :: outer' ∧ input'.next? = some (raw', read') ∧
      Stacks inl inside (read :: inputs) (read' :: outer') ∧ Text.trim raw' = Text.trim raw ∧
      read'.indentation ++ Text.indentation raw' = read.indentation ++ Text.indentation raw := by
  obtain ⟨text, htext, hread⟩ := Option.map_eq_some_iff.mp next
  cases hread
  cases files with
  | outside line =>
    have hline : line ≠ inl.before.length := ordinary rfl
    have htext' : (inl.flatAt (inl.shift line)).lines[inl.shift line]? = some raw :=
      (flatAt_getElem? hline line).trans htext
    refine ⟨_, _, raw, inl.flatAt (inl.shift line + 1), rfl, ?_, ?_, rfl, rfl⟩
    · exact Option.map_eq_some_iff.mpr ⟨raw, htext', rfl⟩
    · exact shift_succ hline ▸ .outside (line + 1)
  | @inside line le =>
    obtain ⟨hlt, hraw⟩ := Array.getElem?_eq_some_iff.mp htext
    have hlt : line < inl.parts.length := hlt
    have hraw : inl.parts[line] = raw := hraw
    have hblank : ∀ c ∈ inl.indentation, Text.isBlank c = true :=
      fun c hc => Text.isBlank_of_mem_indentation hc
    refine ⟨_, _, inl.indentation ++ raw, inl.flatAt (inl.before.length + line + 1), rfl, ?_,
      .inside hlt, Text.trim_append hblank raw, ?_⟩
    · refine Option.map_eq_some_iff.mpr ⟨inl.indentation ++ raw, ?_, rfl⟩
      exact (flatAt_getElem?_parts hlt _).trans (by rw [hraw])
    · exact Text.indentation_append hblank raw
  | above lower =>
    exact ⟨_, _, raw, { input with line := input.line + 1 }, rfl, next, .above lower, rfl, rfl⟩

/-- Where a file is looked for does not depend on which of the two root files is expanded. -/
theorem near {input' : Input} (sound : inl.Sound)
    (files : Stacks inl inside (input :: inputs) (input' :: inputs')) (target : Path) :
    inl.env.provider.absolute (input'.path.directory.join target) =
      inl.env.provider.absolute (input.path.directory.join target) := by
  cases files with
  | outside | above => rfl
  | inside => exact (sound.near target).symm

end Stacks

end Inlining

end ShaderTemplate
