import ShaderTemplate.Proofs.Expansion.Termination
import ShaderTemplate.Proofs.Inclusion.Simulation
import ShaderTemplate.Proofs.Path.Join
import ShaderTemplate.Proofs.Provider.Writing

/-!
# Includes are replaced by the lines of their files

An include does what the lines of its file would do in its place, each behind the indentation of the
include (`FileStore.include_inlines`), if the file lies in the same directory and its lines are
balanced. It does not matter where the include stands: within loops, or within the body of a loop
that is skipped.

A line that is written into another file may not end with a carriage return, since that would be
taken for a part of the line end. Without this condition the two expansions may differ, even if the
included file has no carriage return in it (`Pass.include_differs_returnIndent`): an empty line
behind an indentation that ends with a carriage return is such a line.
-/

namespace ShaderTemplate

/-- A line of the root file includes a file of the same directory, which has balanced lines. The
directive is literal, and not produced by a hole. -/
structure Environment.Includes (env : Environment) (root : Path) (spot : Text.Spot) (file : Path)
    (parts : List Text) : Prop where
  rootRead : env.provider.read root = .ok spot.text
  literal : ¬ ['#', '\x7b'] <:+: spot.line
  leads : ∃ argument target,
    Directive.includeFile.argument? (Text.trim spot.line) = some argument ∧
      IncludeTarget.parse argument = .ok target ∧ env.leadsTo? root target = some file
  fileRead : ∃ text, env.provider.read file = .ok text ∧ Text.lines text = parts
  near : (file.directory == root.directory) = true
  balanced : Text.Balanced parts

/-- The text of the root file with the included lines in place of the include, each behind the
indentation of the include. -/
def Text.Spot.inlined (spot : Text.Spot) (parts : List Text) : Text :=
  spot.replaced (parts.map (Text.indentation spot.line ++ ·))

namespace Inlining

variable {inl : Inlining}

/-- If the expansion with the include succeeds, so does the other, with the same text. -/
theorem source_eq (sound : inl.Sound) {shader : Path}
    (root : inl.env.provider.absolute shader = inl.root)
    (isFile : inl.provider.isFile inl.root = true) {steps : Nat} {pass : Pass} {expanded : Expanded}
    (run : Pass.within? steps inl.env shader = some pass) (ok : pass.result = .ok expanded) :
    ∃ steps pass' expanded', Pass.within? steps inl.flat shader = some pass' ∧
      pass'.result = .ok expanded' ∧ expanded'.source = expanded.source := by
  obtain ⟨state, hreachable, hinputs, hloops, hdepth, -, hpieces⟩ := settled_of_within run ok
  rw [root] at hreachable
  obtain ⟨inside, state', hreachable', hrelated⟩ := exists_related sound hreachable
  -- nothing is open in the other expansion either, so it succeeds as well
  have hinputs' : state'.inputs = [] := by
    refine List.eq_nil_of_length_eq_zero ?_
    rw [hrelated.files.length_eq, hinputs]
    unfold depth
    split <;> rfl
  have hloops' : state'.loops = [] := by
    have hrest := hrelated.loops
    rw [hloops] at hrest
    exact List.forall₂_nil_left_iff.mp hrest
  have hhalt : state'.step inl.flat = .halted (.ok ()) state' := by
    unfold State.step State.settle
    simp only [hinputs', hloops', hrelated.scopes, hdepth, Nat.lt_irrefl, if_false]
  have hroot : inl.flat.provider.absolute shader = inl.root :=
    (congrFun sound.absolute shader).trans root
  obtain ⟨steps', hrun'⟩ := @Pass.within?_of_step inl.flat shader _ _ _ (hroot ▸ hreachable')
    (hroot ▸ isFile) hhalt
  refine ⟨steps', _, ⟨state'.pieces.reverse⟩, hrun', rfl, ?_⟩
  rw [Expanded.source, Expanded.source, hpieces, List.flatMap_def, List.flatMap_def,
    List.map_reverse, List.map_reverse, hrelated.texts]

end Inlining

namespace FileStore

variable {store : FileStore} {dictionary : Dictionary} {config : Config} {shader file : Path}
  {spot : Text.Spot} {parts : List Text}

/-- The include and its replacement. -/
def inlining (store : FileStore) (dictionary : Dictionary) (config : Config) (root file : Path)
    (spot : Text.Spot) (raw : Text) (parts : List Text) : Inlining where
  env := ⟨store.memory, dictionary, config⟩
  provider := (store.write root (.text (spot.inlined parts)) none).memory
  root := root
  file := file
  before := Text.lines spot.before
  raw := raw
  after := Text.lines (spot.after?.getD [])
  parts := parts

theorem inlining_sound {includePaths : List Path} {root : Path}
    (includes : Environment.Includes ⟨store.memory, dictionary, includePaths, false, false⟩ root
      spot file parts)
    (returns : ∀ part ∈ parts, (Text.indentation spot.line ++ part).getLast? ≠ some '\r') :
    ∃ raw,
      (inlining store dictionary ⟨includePaths, false, false⟩ root file spot raw parts).Sound := by
  have hread : store.read root = .ok spot.text := includes.rootRead
  obtain ⟨argument, target, hargument, htarget, hleads⟩ := includes.leads
  obtain ⟨text, hfile, hparts⟩ := includes.fileRead
  have hnonblank : Text.trim spot.line ≠ [] := by
    intro h
    have hword := Directive.word_prefix_of_argument? hargument
    rw [h, List.prefix_nil] at hword
    cases hword
  obtain ⟨raw, hlines, htrim, hindentation⟩ := spot.lines_text hnonblank
  have hinlined : Text.lines (spot.inlined parts) = Text.lines spot.before ++
      parts.map (Text.indentation spot.line ++ ·) ++ Text.lines (spot.after?.getD []) := by
    refine spot.lines_replaced (List.forall_mem_map.mpr fun part hpart => ?_)
      (List.forall_mem_map.mpr returns)
    rw [List.mem_append, not_or]
    rw [← hparts] at hpart
    exact ⟨fun h => spot.single (List.takeWhile_subset _ h), Text.not_mem_of_mem_lines hpart⟩
  refine ⟨raw, ?_⟩
  constructor
  case noLineMarkers | noLoopMarkers => rfl
  case rootLines =>
    intro other hother
    obtain rfl := Except.ok.inj (hread.symm.trans hother)
    exact hlines
  case flatLines =>
    refine ⟨_, read_write_self hread _ none, ?_⟩
    rw [hinlined, ← hindentation]
    rfl
  case fileLines =>
    intro other hother
    obtain rfl := Except.ok.inj (hfile.symm.trans hother)
    exact hparts
  case absolute => rfl
  case isFile => exact isFile_write (isFile_of_read hread) _ _
  case read => exact fun path hne => read_write_of_ne hne _ _
  case literal =>
    have hliteral : ¬ ['#', '\x7b'] <:+: Text.trim spot.line :=
      fun h => includes.literal (h.trans (Text.trim_infix _))
    exact htrim.symm ▸ Template.parse_eq_plain hliteral
  case includes => exact ⟨argument, target, htrim.symm ▸ hargument, htarget, hleads⟩
  case near =>
    exact fun target => Path.resolve_congr _ (Path.join_congr includes.near (BEq.refl target))
  case balanced => exact includes.balanced

/-- **An include does what the lines of its file do.** Without markers, let a line of the file that
is expanded be a literal include of a readable file in the same directory, with balanced lines. If
the expansion succeeds, then it succeeds with the same text when the line is replaced by the lines
of the included file, each behind the indentation of the include. None of these may end with a
carriage return, which would go into its line end. -/
theorem include_inlines {includePaths : List Path}
    (includes : Environment.Includes ⟨store.memory, dictionary, includePaths, false, false⟩
      (store.memory.absolute shader) spot file parts)
    (returns : ∀ part ∈ parts, (Text.indentation spot.line ++ part).getLast? ≠ some '\r')
    {steps : Nat} {pass : Pass} {expanded : Expanded}
    (run : Pass.within? steps ⟨store.memory, dictionary, includePaths, false, false⟩ shader =
      some pass)
    (ok : pass.result = .ok expanded) :
    ∃ pass' expanded',
      Pass.run?
          ⟨(store.write (store.memory.absolute shader) (.text (spot.inlined parts)) none).memory,
            dictionary, includePaths, false, false⟩ shader = some pass' ∧
        pass'.result = .ok expanded' ∧ expanded'.source = expanded.source := by
  obtain ⟨raw, hsound⟩ := inlining_sound includes returns
  obtain ⟨pass', hpass'⟩ := Option.isSome_iff_exists.mp <| @Pass.run?_isSome
    ⟨(store.write (store.memory.absolute shader) (.text (spot.inlined parts)) none).memory,
      dictionary, includePaths, false, false⟩
    (store.write (store.memory.absolute shader) (.text (spot.inlined parts)) none).listsAll_memory
    shader
  have hisFile := (congrFun hsound.isFile _).trans (isFile_of_read includes.rootRead)
  obtain ⟨steps', other, expanded', hrun', hok', hsource⟩ :=
    Inlining.source_eq hsound rfl hisFile run ok
  obtain rfl : pass' = other := Pass.within?_unique hpass' hrun'
  exact ⟨pass', expanded', hpass', hok', hsource⟩

end FileStore

/-! ## An include within a loop -/

/-- The included file has a loop and an empty line in it. -/
def FileStore.aroundInclude : FileStore :=
  (empty.write ⟨"/inner".toList⟩ (.text "#for i, j in t\n#{i}#{k}\n#endfor\n\n".toList) none).write
    ⟨"/main".toList⟩ (.text "#for k, v in t\n  #include \"inner\"\n#endfor\nend\n".toList) none

/-- A dictionary of one dictionary. -/
def Dictionary.aroundInclude : Dictionary :=
  ⟨[⟨"t".toList, .dictionary ⟨[⟨"a".toList, .string "x".toList⟩]⟩⟩]⟩

/-- The include is the second line of the file. -/
def Text.Spot.aroundInclude : Text.Spot where
  before := "#for k, v in t\n".toList
  line := "  #include \"inner\"".toList
  after? := some "#endfor\nend\n".toList
  whole := Text.whole_concat "#for k, v in t".toList
  single := by decide

/-- The lines of the included file are indented, the empty one too. -/
def Expanded.aroundInclude : Expanded where
  pieces :=
    [.code ⟨⟨"/inner".toList⟩, 2, "  aa\n".toList⟩, .code ⟨⟨"/inner".toList⟩, 4, "  \n".toList⟩,
      .code ⟨⟨"/main".toList⟩, 4, "end\n".toList⟩]

/-- The files before the include is replaced. -/
def Environment.aroundInclude : Environment :=
  ⟨FileStore.aroundInclude.memory, .aroundInclude, [], false, false⟩

theorem FileStore.include_inlines_withinLoop :
    let parts := ["#for i, j in t".toList, "#{i}#{k}".toList, "#endfor".toList, []]
    let pass : Pass := ⟨.ok .aroundInclude, [⟨"/main".toList⟩, ⟨"/inner".toList⟩],
      [.opened ⟨"/main".toList⟩, .loopBegun "t".toList "a".toList,
        .tried "inner".toList ⟨"/inner".toList⟩ true, .opened ⟨"/inner".toList⟩,
        .loopBegun "t".toList "a".toList]⟩
    Environment.aroundInclude.Includes (aroundInclude.memory.absolute ⟨"main".toList⟩)
        .aroundInclude ⟨"/inner".toList⟩ parts ∧
      (∀ part ∈ parts,
        (Text.indentation Text.Spot.aroundInclude.line ++ part).getLast? ≠ some '\r') ∧
      Pass.within? 11 .aroundInclude ⟨"main".toList⟩ = some pass ∧
      pass.result = .ok .aroundInclude ∧
      ∃ pass' expanded',
        Pass.run?
            ⟨(aroundInclude.write (aroundInclude.memory.absolute ⟨"main".toList⟩)
              (.text (Text.Spot.aroundInclude.inlined parts)) none).memory,
              .aroundInclude, [], false, false⟩ ⟨"main".toList⟩ = some pass' ∧
          pass'.result = .ok expanded' ∧ expanded'.source = Expanded.aroundInclude.source := by
  intro parts pass
  have hincludes : Environment.aroundInclude.Includes
      (aroundInclude.memory.absolute ⟨"main".toList⟩) .aroundInclude ⟨"/inner".toList⟩ parts := by
    constructor
    case rootRead => rfl
    case literal => decide
    case leads => exact ⟨_, _, rfl, rfl, rfl⟩
    case fileRead => exact ⟨_, rfl, rfl⟩
    case near => rfl
    case balanced => decide +kernel
  have hreturns : ∀ part ∈ parts,
      (Text.indentation Text.Spot.aroundInclude.line ++ part).getLast? ≠ some '\r' := by
    decide +kernel
  have hrun : Pass.within? 11 .aroundInclude ⟨"main".toList⟩ = some pass := by rfl
  refine ⟨hincludes, hreturns, hrun, rfl, ?_⟩
  exact @include_inlines aroundInclude .aroundInclude ⟨"main".toList⟩ ⟨"/inner".toList⟩
    .aroundInclude parts [] hincludes hreturns 11 pass .aroundInclude hrun rfl

/-! ## An indentation that ends with a carriage return -/

/-- The include stands behind a carriage return, and the included file has one empty line. -/
def FileStore.returnIndent : FileStore :=
  (empty.write ⟨"/b".toList⟩ (.text "\n".toList) none).write ⟨"/main".toList⟩
    (.text "\r#include \"b\"\n".toList) none

/-- The include is the only line of the file. -/
def Text.Spot.returnIndent : Text.Spot where
  before := []
  line := "\r#include \"b\"".toList
  after? := some []
  whole := nofun
  single := by decide

/-- The files before the include is replaced. -/
def Environment.returnIndent : Environment :=
  ⟨FileStore.returnIndent.memory, ⟨[]⟩, [], false, false⟩

/-- The files with the include replaced. -/
def Environment.returnInlined : Environment :=
  ⟨(FileStore.returnIndent.write (FileStore.returnIndent.memory.absolute ⟨"main".toList⟩)
    (.text (Text.Spot.returnIndent.inlined [[]])) none).memory, ⟨[]⟩, [], false, false⟩

/-- The indentation is written in front of the empty line of the included file. In place of the
include it goes into the line end. -/
theorem Pass.include_differs_returnIndent :
    let pass : Pass := ⟨.ok ⟨[.code ⟨⟨"/b".toList⟩, 1, "\r\n".toList⟩]⟩,
      [⟨"/main".toList⟩, ⟨"/b".toList⟩],
      [.opened ⟨"/main".toList⟩, .tried "b".toList ⟨"/b".toList⟩ true, .opened ⟨"/b".toList⟩]⟩
    Environment.returnIndent.Includes (FileStore.returnIndent.memory.absolute ⟨"main".toList⟩)
        .returnIndent ⟨"/b".toList⟩ [[]] ∧
      (∀ part ∈ [([] : Text)], '\r' ∉ part) ∧
      Text.Spot.returnIndent.inlined [[]] = "\r\n".toList ∧
      Pass.within? 5 .returnIndent ⟨"main".toList⟩ = some pass ∧
      ¬ ∃ pass' expanded', Pass.run? .returnInlined ⟨"main".toList⟩ = some pass' ∧
        pass'.result = .ok expanded' ∧ pass.result.map Expanded.source = .ok expanded'.source := by
  intro pass
  have hincludes : Environment.returnIndent.Includes
      (FileStore.returnIndent.memory.absolute ⟨"main".toList⟩) .returnIndent ⟨"/b".toList⟩
      [[]] := by
    constructor
    case rootRead => rfl
    case literal => decide
    case leads => exact ⟨_, _, rfl, rfl, rfl⟩
    case fileRead => exact ⟨_, rfl, rfl⟩
    case near => rfl
    case balanced => decide +kernel
  refine ⟨hincludes, by simp, rfl, by rfl, ?_⟩
  rintro ⟨pass', expanded', hrun, hok, hsource⟩
  have hinlined : Pass.within? 4 .returnInlined ⟨"main".toList⟩ = some
      ⟨.ok ⟨[.code ⟨⟨"/main".toList⟩, 1, "\n".toList⟩]⟩, [⟨"/main".toList⟩],
        [.opened ⟨"/main".toList⟩]⟩ := by rfl
  obtain rfl := Pass.within?_unique hrun hinlined
  obtain rfl := Except.ok.inj hok
  exact absurd (Except.ok.inj hsource) (by decide)

end ShaderTemplate
