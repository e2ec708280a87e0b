import ShaderTemplate.Proofs.Scopes.Lexical

/-!
# The table of the open scopes

Scopes are opened and closed in any order and number, and a scope may bind a name that another one
binds, or bind it twice. `Scopes.after` is what comes of such a run of changes, and
`Scopes.openFrames` tells without a table which scopes are then open.

`Scopes.table_mirrors_frames` says that after any run the table holds neither more nor less than
the open scopes: a name has a row iff an open scope binds it, and the row stacks the texts of all
its open bindings, the latest on top. So a look-up finds the last binding in the innermost scope
that has one, and closing a scope takes back what opening it has done.

## Shape of the argument

The open scopes are those of `Scopes.ofFrames`, since a closing undoes the opening that it belongs
to (`after_eq`). What is left is to read the table that is made by opening one scope in the other,
which is one lemma on the stack of a name (`stack_ofFrames`) and one on the names with a row
(`names_bind`).
-/

namespace ShaderTemplate

/-! ## The rows of a table -/

namespace Aliases

/-- The names that have a row. -/
def names (aliases : Aliases) : List Text :=
  aliases.rows.map Prod.fst

theorem map_fst_pushRow (name value : Text) (rows : List (Text × List Text)) :
    (pushRow name value rows).map Prod.fst =
      if name ∈ rows.map Prod.fst then rows.map Prod.fst else rows.map Prod.fst ++ [name] := by
  induction rows with
  | nil => rfl
  | cons row rest ih =>
    obtain ⟨other, values⟩ := row
    by_cases h : other = name
    · simp [pushRow, h]
    · have hne : name ≠ other := fun hname => h hname.symm
      rw [pushRow, if_neg h, List.map_cons, List.map_cons, ih]
      by_cases hrest : name ∈ rest.map Prod.fst
      · rw [if_pos hrest, if_pos (List.mem_cons_of_mem _ hrest)]
      · rw [if_neg hrest, if_neg (List.not_mem_cons_of_ne_of_not_mem hne hrest), List.cons_append]

/-- Binding a name adds a row for it unless there is one. -/
theorem names_bind (aliases : Aliases) (name value : Text) :
    (aliases.bind name value).names =
      if name ∈ aliases.names then aliases.names else aliases.names ++ [name] :=
  map_fst_pushRow name value aliases.rows

theorem nodup_names_bind {aliases : Aliases} (nodup : aliases.names.Nodup) (name value : Text) :
    (aliases.bind name value).names.Nodup := by
  rw [names_bind]
  split
  · exact nodup
  · rename_i hnew
    refine List.nodup_append.mpr ⟨nodup, List.nodup_cons.mpr ⟨List.not_mem_nil, .nil⟩, ?_⟩
    rintro other hother _ hname rfl
    rw [List.mem_singleton.mp hname] at hother
    exact hnew hother

theorem nodup_names_bindAll {aliases : Aliases} (nodup : aliases.names.Nodup)
    (bindings : List (Text × Text)) : (aliases.bindAll bindings).names.Nodup := by
  induction bindings using List.reverseRecOn with
  | nil => exact nodup
  | append_singleton bindings binding ih =>
    rw [bindAll_concat]
    exact nodup_names_bind ih _ _

/-- With one row for each name, a row holds the stack of its name. -/
theorem stack_of_mem {aliases : Aliases} (nodup : aliases.names.Nodup) {row : Text × List Text}
    (mem : row ∈ aliases.rows) : aliases.stack row.1 = row.2 := by
  obtain ⟨rows⟩ := aliases
  simp only [names, stack] at nodup mem ⊢
  induction rows with
  | nil => cases mem
  | cons first rest ih =>
    rw [List.map_cons, List.nodup_cons] at nodup
    obtain ⟨hfirst, hrest⟩ := nodup
    rcases List.mem_cons.mp mem with rfl | hmem
    · rw [List.lookup_cons_self, Option.getD_some]
    · have hne : row.1 ≠ first.1 := fun h => hfirst (h ▸ List.mem_map_of_mem hmem)
      rw [List.lookup_cons, beq_false_of_ne hne]
      exact ih hrest hmem

/-- A name without a row has nothing on its stack. -/
theorem stack_of_not_mem {aliases : Aliases} {name : Text} (missing : name ∉ aliases.names) :
    aliases.stack name = [] := by
  have hlookup : aliases.rows.lookup name = none := by
    refine List.lookup_eq_none_iff.mpr fun row hrow => bne_iff_ne.mpr ?_
    rintro rfl
    exact missing (List.mem_map_of_mem hrow)
  rw [stack, hlookup, Option.getD_none]

/-- The names with a row are those that are bound to something. -/
theorem mem_names_iff {aliases : Aliases} (filled : aliases.Filled) (nodup : aliases.names.Nodup)
    (name : Text) : name ∈ aliases.names ↔ aliases.stack name ≠ [] := by
  constructor
  · intro hname
    obtain ⟨row, hrow, rfl⟩ := List.mem_map.mp hname
    rw [stack_of_mem nodup hrow]
    exact filled row hrow
  · intro hstack
    by_contra hmissing
    exact hstack (stack_of_not_mem hmissing)

/-- All texts that a name is bound to come onto its stack, the last one on top. -/
theorem stack_bindAll (aliases : Aliases) (bindings : List (Text × Text)) (name : Text) :
    (aliases.bindAll bindings).stack name =
      (bindings.reverse.filter (·.1 == name)).map Prod.snd ++ aliases.stack name := by
  induction bindings using List.reverseRecOn with
  | nil => rfl
  | append_singleton bindings binding ih =>
    obtain ⟨bound, value⟩ := binding
    rw [bindAll_concat, stack_bind, ih, List.reverse_append, List.reverse_singleton,
      List.singleton_append]
    by_cases h : name = bound
    · rw [if_pos h, List.filter_cons_of_pos (by simp [h]), List.map_cons, List.cons_append]
    · rw [if_neg h, List.filter_cons_of_neg (by simpa using fun hbound => h hbound.symm)]

end Aliases

/-! ## Runs of changes -/

namespace Scopes

/-- What can be done to the open scopes. -/
inductive Change where
  /-- opens a scope that binds names to texts, one after the other -/
  | opening (bindings : List (Text × Text))
  /-- closes the innermost scope, if one is open -/
  | closing

/-- The scopes after a change. -/
def change (scopes : Scopes) : Change → Scopes
  | .opening bindings => scopes.push bindings
  | .closing => scopes.pop

/-- The scopes after some changes, where none is open at first. -/
def after (changes : List Change) : Scopes :=
  changes.foldl change empty

/-- What the open scopes bind after some changes, the innermost scope first. -/
def openFrames (changes : List Change) : List (List (Text × Text)) :=
  changes.foldl (fun
    | frames, .opening bindings => bindings :: frames
    | frames, .closing => frames.tail) []

/-- All bindings of open scopes, the latest first. -/
def openBindings (frames : List (List (Text × Text))) : List (Text × Text) :=
  frames.flatMap List.reverse

theorem openBindings_cons (frame : List (Text × Text)) (frames : List (List (Text × Text))) :
    openBindings (frame :: frames) = frame.reverse ++ openBindings frames :=
  List.flatMap_cons

/-- A closing undoes its opening, so that the scopes are as if the open ones had been opened one in
the other. -/
theorem after_eq (changes : List Change) : after changes = ofFrames (openFrames changes) := by
  induction changes using List.reverseRecOn with
  | nil => rfl
  | append_singleton changes last ih =>
    have hafter : after (changes ++ [last]) = (after changes).change last := by simp [after]
    rw [hafter, ih]
    cases last with
    | opening bindings => simp [openFrames, change, ofFrames]
    | closing =>
      have hframes : openFrames (changes ++ [.closing]) = (openFrames changes).tail := by
        simp [openFrames]
      rw [hframes, change]
      cases openFrames changes with
      | nil => rfl
      | cons frame frames => exact pop_ofFrames frame frames

theorem depth_ofFrames (frames : List (List (Text × Text))) :
    (ofFrames frames).depth = frames.length := by
  induction frames with
  | nil => rfl
  | cons frame frames ih => exact congrArg (· + 1) ih

theorem nodup_names_ofFrames (frames : List (List (Text × Text))) :
    (ofFrames frames).aliases.names.Nodup := by
  induction frames with
  | nil => exact List.nodup_nil
  | cons frame frames ih => exact Aliases.nodup_names_bindAll ih frame

/-- The stack of a name holds what its open bindings bind it to, the latest on top. -/
theorem stack_ofFrames (frames : List (List (Text × Text))) (name : Text) :
    (ofFrames frames).aliases.stack name =
      ((openBindings frames).filter (·.1 == name)).map Prod.snd := by
  induction frames with
  | nil => rfl
  | cons frame frames ih =>
    have hstack := Aliases.stack_bindAll (ofFrames frames).aliases frame name
    calc (ofFrames (frame :: frames)).aliases.stack name
        = (frame.reverse.filter (·.1 == name)).map Prod.snd ++
            (ofFrames frames).aliases.stack name := hstack
      _ = ((openBindings (frame :: frames)).filter (·.1 == name)).map Prod.snd := by
        rw [ih, openBindings_cons, List.filter_append, List.map_append]

/-- A name has a row iff an open scope binds it. -/
theorem mem_names_ofFrames (frames : List (List (Text × Text))) (name : Text) :
    name ∈ (ofFrames frames).aliases.names ↔ ∃ frame ∈ frames, name ∈ frame.map Prod.fst := by
  rw [Aliases.mem_names_iff (filled_ofFrames frames) (nodup_names_ofFrames frames), stack_ofFrames,
    ne_eq, List.map_eq_nil_iff, List.filter_eq_nil_iff]
  simp only [openBindings, List.mem_flatMap, List.mem_reverse, List.mem_map, beq_iff_eq, not_forall,
    not_not]
  constructor
  · rintro ⟨binding, ⟨frame, hframe, hbinding⟩, hname⟩
    exact ⟨frame, hframe, binding, hbinding, hname⟩
  · rintro ⟨frame, hframe, binding, hbinding, hname⟩
    exact ⟨binding, ⟨frame, hframe, hbinding⟩, hname⟩

/-- There are as many texts on the stack of a name as open bindings of it. -/
theorem length_filter_openBindings (frames : List (List (Text × Text))) (name : Text) :
    ((openBindings frames).filter (·.1 == name)).length =
      (frames.flatten.map Prod.fst).count name := by
  induction frames with
  | nil => rfl
  | cons frame frames ih =>
    have hframe : (frame.reverse.filter (·.1 == name)).length =
        (frame.map Prod.fst).count name := by
      rw [← List.countP_eq_length_filter, List.countP_reverse, List.count, List.countP_map]
      rfl
    rw [openBindings_cons, List.filter_append, List.length_append, hframe, ih, List.flatten_cons,
      List.map_append, List.count_append]

/-- **The table mirrors the open scopes.** After any run of openings and closings, a look-up finds
the last binding of a name in the innermost open scope that binds it. Each name has at most one row
in the table, and one iff an open scope binds it. The row stacks the texts of all open bindings of
its name, the latest on top. To close a scope right after its opening gives back the scopes there
were, and so does closing it later, since runs with the same open scopes end alike. Closing fails
iff no scope is open. -/
theorem table_mirrors_frames (changes : List Change) :
    let scopes := after changes
    let frames := openFrames changes
    (∀ name, scopes.resolve? name = lookUp frames name) ∧
      scopes.aliases.names.Nodup ∧
      (∀ name, name ∈ scopes.aliases.names ↔ ∃ frame ∈ frames, name ∈ frame.map Prod.fst) ∧
      (∀ row ∈ scopes.aliases.rows,
        row.2 = ((openBindings frames).filter (·.1 == row.1)).map Prod.snd ∧
          row.2.length = (frames.flatten.map Prod.fst).count row.1) ∧
      (∀ bindings, (scopes.push bindings).pop? = some scopes) ∧
      (∀ others, openFrames others = frames → after others = scopes) ∧
      (scopes.pop? = none ↔ frames = []) ∧
      scopes.depth = frames.length := by
  intro scopes frames
  have hscopes : scopes = ofFrames frames := after_eq changes
  have hnodup : (ofFrames frames).aliases.names.Nodup := nodup_names_ofFrames frames
  rw [hscopes]
  refine ⟨fun name => congrFun (resolve?_ofFrames frames) name, hnodup, mem_names_ofFrames frames,
    fun row hrow => ?_, fun bindings => ?_, fun others same => ?_, ?_, depth_ofFrames frames⟩
  · have hvalues : row.2 = ((openBindings frames).filter (·.1 == row.1)).map Prod.snd :=
      (Aliases.stack_of_mem hnodup hrow).symm.trans (stack_ofFrames frames row.1)
    refine ⟨hvalues, ?_⟩
    rw [hvalues, List.length_map, length_filter_openBindings]
  · have hundone : ((ofFrames frames).push bindings).pop = ofFrames frames :=
      pop_push (filled_ofFrames frames) bindings
    exact congrArg some hundone
  · rw [after_eq, same]
  · cases frames with
    | nil => simp [ofFrames, empty, pop?]
    | cons frame frames => simp [ofFrames, push, pop?]

end Scopes

end ShaderTemplate
