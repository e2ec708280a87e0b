import ShaderTemplate.Proofs.Provider.Listing

/-!
# Writing a file

A file that is written is read back, unless it is denied, and all other files stay as they are. That
two paths are the same is decided by their steps, so a file is written under all its spellings.
`FileStore.Rewrites` are the changes that a file can go through while it is there.
-/

namespace ShaderTemplate.FileStore

variable {store : FileStore} {root path : Path}

theorem lookup_others {α : Type} (ne : (root == path) = false) (rows : List (Path × α)) :
    (others root rows).lookup path = rows.lookup path := by
  induction rows with
  | nil => rfl
  | cons row rows ih =>
    have ih : (rows.filter fun row => !(row.1 == root)).lookup path = rows.lookup path := ih
    cases hroot : row.1 == root with
    | true =>
      -- a row of the other path is not found
      have hpath : (path == row.1) = false := by
        rw [← Bool.not_eq_true] at ne ⊢
        exact fun h => ne (BEq.symm (BEq.trans h hroot))
      rw [others, List.filter_cons_of_neg (by simp [hroot]), ih, List.lookup_cons, hpath]
    | false =>
      rw [others, List.filter_cons_of_pos (by simp [hroot]), List.lookup_cons, List.lookup_cons, ih]

theorem read_write_of_ne (ne : (root == path) = false) (contents : Contents) (stamp : Option Nat) :
    (store.write root contents stamp).read path = store.read path := by
  have hne : (path == root) = false := by rw [BEq.comm, ne]
  have hlookup : ((root, contents) :: others root store.contents).lookup path =
      store.contents.lookup path := by
    rw [List.lookup_cons, hne]
    exact lookup_others ne _
  unfold read
  rw [← hlookup]
  rfl

theorem isFile_of_read {text : Text} (h : store.read path = .ok text) :
    store.isFile path = true := by
  unfold read at h
  unfold isFile
  split at h <;> simp_all

/-- A file that could be read is read back. -/
theorem read_write_self {before : Text} (h : store.read root = .ok before) (text : Text)
    (stamp : Option Nat) : (store.write root (.text text) stamp).read root = .ok text := by
  have hdenied : store.denied.lookup root = none := by
    unfold read at h
    split at h
    · cases h
    · assumption
    · cases h
    · cases h
  have hlookup : ((root, Contents.text text) :: others root store.contents).lookup root =
      some (.text text) := by
    rw [List.lookup_cons, BEq.refl]
  have hdenied' : (store.write root (.text text) stamp).denied.lookup root = none := hdenied
  have hlookup' : (store.write root (.text text) stamp).contents.lookup root = some (.text text) :=
    hlookup
  unfold read
  rw [hdenied', hlookup']

/-- Writing a file that is there lets no file appear. -/
theorem isFile_write (h : store.isFile root = true) (contents : Contents) (stamp : Option Nat) :
    (store.write root contents stamp).isFile = store.isFile := by
  funext path
  have hwritten : (store.write root contents stamp).isFile path =
      (((root, contents) :: others root store.contents).lookup path).isSome := rfl
  rw [hwritten, List.lookup_cons]
  cases hsame : path == root with
  | true =>
    have hpath : store.isFile path = store.isFile root :=
      congrArg Option.isSome (Path.lookup_congr hsame store.contents)
    rw [hpath, h]
    rfl
  | false =>
    have hne : (root == path) = false := by rw [BEq.comm, hsame]
    dsimp only
    rw [lookup_others hne]
    rfl

/-! ## Changes of a file that is there -/

/-- A file is written anew, denied or made readable. -/
inductive Rewrites (path : Path) (store : FileStore) : FileStore → Prop
  | write (contents : Contents) (stamp : Option Nat) :
    Rewrites path store (store.write path contents stamp)
  | deny (message : Text) : Rewrites path store (store.deny path message)
  | allow : Rewrites path store (store.allow path)

variable {after : FileStore}

/-- The file stays there, and no other file appears. -/
theorem Rewrites.isFile_eq (rewrites : Rewrites root store after)
    (there : store.isFile root = true) : after.isFile = store.isFile := by
  cases rewrites with
  | write contents stamp => exact isFile_write there contents stamp
  | deny | allow => rfl

/-- All other files hold what they held. -/
theorem Rewrites.read_of_ne (rewrites : Rewrites root store after)
    (ne : (root == path) = false) : after.read path = store.read path := by
  cases rewrites with
  | write contents stamp => exact read_write_of_ne ne contents stamp
  | deny message =>
    have hne : (path == root) = false := by rw [BEq.comm, ne]
    have hlookup : (store.deny root message).denied.lookup path = store.denied.lookup path := by
      rw [FileStore.deny, List.lookup_cons, hne]
      exact lookup_others ne _
    unfold FileStore.read
    rw [hlookup]
    rfl
  | allow =>
    have hlookup : (store.allow root).denied.lookup path = store.denied.lookup path :=
      lookup_others ne _
    unfold FileStore.read
    rw [hlookup]
    rfl

end ShaderTemplate.FileStore
