import Mathlib.Data.List.Induction
import Mathlib.Data.List.Perm.Basic
import ShaderTemplate.Scopes

/-!
# Lexical scoping

`Scopes` keeps one table of stacks for all open scopes. Here the table is compared with the open
scopes themselves, as a list of frames with the innermost first: `Scopes.ofFrames` opens the frames
one in the other, and `Scopes.lookUp` searches them from the inside out.

The two main statements are that closing a scope undoes its opening (`pop_push`), and that the top
of a stack is what the search finds (`resolve?_ofFrames`).

## Shape of the undoing

A scope that binds a name twice puts two texts on its stack and takes two off. The texts are taken
off in the order in which they were put on, not in the reverse order, so that a take-off does not
meet the put-on it undoes. It need not: taking texts off two stacks can be done in either order
(`popRow_comm`), so the take-offs may be read backwards.
-/

namespace ShaderTemplate

namespace Aliases

/-- No row is without a text. -/
def Filled (aliases : Aliases) : Prop :=
  ∀ row ∈ aliases.rows, row.2 ≠ []

theorem popRow_pushRow {name value : Text} {rows : List (Text × List Text)}
    (filled : ∀ row ∈ rows, row.2 ≠ []) : popRow name (pushRow name value rows) = rows := by
  induction rows with
  | nil => simp [pushRow, popRow]
  | cons row rest ih =>
    obtain ⟨other, values⟩ := row
    have hrest := ih fun row hrow => filled row (List.mem_cons_of_mem _ hrow)
    by_cases h : other = name
    · -- the row is there, and `values` is what is left of it
      cases values with
      | nil => exact absurd rfl (filled (other, []) List.mem_cons_self)
      | cons top older => simp [pushRow, popRow, h]
    · simp [pushRow, popRow, h, hrest]

theorem popRow_comm (a b : Text) (rows : List (Text × List Text)) :
    popRow a (popRow b rows) = popRow b (popRow a rows) := by
  by_cases hab : a = b
  · rw [hab]
  induction rows with
  | nil => rfl
  | cons row rest ih =>
    obtain ⟨other, values⟩ := row
    by_cases ha : other = a
    · have hb : other ≠ b := fun hb => hab (ha ▸ hb)
      rcases values with - | ⟨top, - | ⟨next, older⟩⟩ <;> simp [popRow, ha, hab]
    · by_cases hb : other = b
      · have hba : b ≠ a := fun h => hab h.symm
        rcases values with - | ⟨top, - | ⟨next, older⟩⟩ <;> simp [popRow, hb, hba]
      · simp [popRow, ha, hb, ih]

/-- A text may be taken off one stack before or after one is taken off another. -/
instance : RightCommutative unbind where
  right_comm aliases a b := congrArg Aliases.mk (popRow_comm b a aliases.rows)

theorem unbind_bind {aliases : Aliases} (filled : aliases.Filled) (name value : Text) :
    (aliases.bind name value).unbind name = aliases :=
  congrArg Aliases.mk (popRow_pushRow filled)

theorem filled_bind {aliases : Aliases} (filled : aliases.Filled) (name value : Text) :
    (aliases.bind name value).Filled := by
  obtain ⟨rows⟩ := aliases
  simp only [Filled, bind] at filled ⊢
  induction rows with
  | nil => simp [pushRow]
  | cons row rest ih =>
    obtain ⟨other, values⟩ := row
    have hhead : values ≠ [] := filled (other, values) List.mem_cons_self
    have hrest := fun row hrow => filled row (List.mem_cons_of_mem _ hrow)
    intro row hrow
    by_cases h : other = name
    · rw [pushRow, if_pos h] at hrow
      rcases List.mem_cons.mp hrow with rfl | hrow
      · simp
      · exact hrest row hrow
    · rw [pushRow, if_neg h] at hrow
      rcases List.mem_cons.mp hrow with rfl | hrow
      · exact hhead
      · exact ih hrest row hrow

private theorem lookup_cons_ite (key name : Text) {β : Type} (value : β)
    (rows : List (Text × β)) :
    List.lookup name ((key, value) :: rows) =
      if name = key then some value else rows.lookup name := by
  by_cases h : name = key
  · rw [if_pos h, h, List.lookup_cons_self]
  · rw [if_neg h, List.lookup_cons, beq_false_of_ne h]

/-- A binding lands on the stack of its own name. -/
theorem stack_bind (aliases : Aliases) (name value other : Text) :
    (aliases.bind name value).stack other =
      if other = name then value :: aliases.stack other else aliases.stack other := by
  obtain ⟨rows⟩ := aliases
  simp only [stack, bind]
  induction rows with
  | nil => by_cases h : other = name <;> simp [pushRow, lookup_cons_ite, h]
  | cons row rest ih =>
    obtain ⟨first, values⟩ := row
    by_cases hfirst : first = name
    · by_cases h : other = name <;> simp [pushRow, hfirst, lookup_cons_ite, h]
    · by_cases h : other = first
      · simp [pushRow, h, hfirst]
      · simpa [pushRow, hfirst, lookup_cons_ite, h] using ih

/-- Binds names to texts, one after the other. -/
def bindAll (aliases : Aliases) (bindings : List (Text × Text)) : Aliases :=
  bindings.foldl (fun aliases (name, value) => aliases.bind name value) aliases

theorem bindAll_concat (aliases : Aliases) (bindings : List (Text × Text)) (name value : Text) :
    aliases.bindAll (bindings ++ [(name, value)]) = (aliases.bindAll bindings).bind name value := by
  simp [bindAll]

theorem filled_bindAll {aliases : Aliases} (filled : aliases.Filled)
    (bindings : List (Text × Text)) : (aliases.bindAll bindings).Filled := by
  induction bindings using List.reverseRecOn with
  | nil => exact filled
  | append_singleton bindings binding ih =>
    rw [bindAll_concat]
    exact filled_bind ih _ _

theorem foldl_unbind_bindAll {aliases : Aliases} (filled : aliases.Filled)
    (bindings : List (Text × Text)) :
    (bindings.map Prod.fst).foldl unbind (aliases.bindAll bindings) = aliases := by
  induction bindings using List.reverseRecOn with
  | nil => rfl
  | append_singleton bindings binding ih =>
    -- the last name is taken off first, which meets the text that was put on last
    have hperm : ((bindings ++ [binding]).map Prod.fst).Perm
        (binding.1 :: bindings.map Prod.fst) := by
      simp [List.perm_append_singleton]
    rw [hperm.foldl_eq, List.foldl_cons, bindAll_concat, unbind_bind (filled_bindAll filled _), ih]

/-- The last binding of a name is on top of its stack. -/
theorem stack_bindAll_head? (aliases : Aliases) (bindings : List (Text × Text)) (name : Text) :
    ((aliases.bindAll bindings).stack name).head? =
      (bindings.reverse.lookup name).or (aliases.stack name).head? := by
  induction bindings using List.reverseRecOn with
  | nil => rfl
  | append_singleton bindings binding ih =>
    obtain ⟨bound, value⟩ := binding
    rw [bindAll_concat, stack_bind]
    by_cases h : name = bound
    · simp [h]
    · simpa [h, lookup_cons_ite] using ih

end Aliases

namespace Scopes

/-- Closing a scope undoes its opening, whatever names it binds and how often. -/
theorem pop_push {scopes : Scopes} (filled : scopes.aliases.Filled)
    (bindings : List (Text × Text)) : (scopes.push bindings).pop = scopes :=
  congrArg (Scopes.mk scopes.frames) (Aliases.foldl_unbind_bindAll filled bindings)

/-- What the innermost frame that binds a name binds it to. Within a frame the last binding of a
name counts. -/
def lookUp (frames : List (List (Text × Text))) (name : Text) : Option Text :=
  frames.findSome? fun frame => frame.reverse.lookup name

theorem lookUp_cons (frame : List (Text × Text)) (frames : List (List (Text × Text)))
    (name : Text) :
    lookUp (frame :: frames) name = (frame.reverse.lookup name).or (lookUp frames name) := by
  rw [lookUp, lookUp, List.findSome?_cons]
  cases frame.reverse.lookup name <;> rfl

/-- Frames that do not bind a name are passed by. -/
theorem lookUp_append_of_not_mem {inner outer : List (List (Text × Text))} {name : Text}
    (free : ∀ frame ∈ inner, name ∉ frame.map Prod.fst) :
    lookUp (inner ++ outer) name = lookUp outer name := by
  induction inner with
  | nil => rfl
  | cons frame inner ih =>
    obtain ⟨hframe, hinner⟩ := List.forall_mem_cons.mp free
    have hnone : frame.reverse.lookup name = none := by
      refine List.lookup_eq_none_iff.mpr fun binding hbinding => ?_
      refine bne_iff_ne.mpr fun h => hframe ?_
      exact List.mem_map.mpr ⟨binding, List.mem_reverse.mp hbinding, h.symm⟩
    rw [List.cons_append, lookUp_cons, hnone, Option.none_or, ih hinner]

/-- The scopes that are open after opening these frames, the innermost last. -/
def ofFrames (frames : List (List (Text × Text))) : Scopes :=
  frames.foldr (fun bindings outer => outer.push bindings) empty

theorem filled_ofFrames (frames : List (List (Text × Text))) :
    (ofFrames frames).aliases.Filled := by
  induction frames with
  | nil => simp [ofFrames, empty, Aliases.Filled]
  | cons frame frames ih => exact Aliases.filled_bindAll ih frame

theorem pop_ofFrames (frame : List (Text × Text)) (frames : List (List (Text × Text))) :
    (ofFrames (frame :: frames)).pop = ofFrames frames :=
  pop_push (filled_ofFrames frames) frame

/-- The table says what a search of the frames from the inside out says. -/
theorem resolve?_ofFrames (frames : List (List (Text × Text))) :
    (ofFrames frames).resolve? = lookUp frames := by
  funext name
  induction frames with
  | nil => rfl
  | cons frame frames ih =>
    have htop := Aliases.stack_bindAll_head? (ofFrames frames).aliases frame name
    calc (ofFrames (frame :: frames)).resolve? name
        = (frame.reverse.lookup name).or ((ofFrames frames).resolve? name) := htop
      _ = lookUp (frame :: frames) name := by rw [ih, lookUp_cons]

end Scopes

end ShaderTemplate
