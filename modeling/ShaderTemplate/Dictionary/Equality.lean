import ShaderTemplate.Dictionary.Basic

/-!
# Equality of dictionaries

Two dictionaries are equal if they have equal entries in the same order. Numbers compare as numbers
do, so a value that is not a number makes a dictionary differ from itself, and the two zeros are
equal. This is why `==` is not the identity of values here.
-/

namespace ShaderTemplate

mutual

/-- Whether two values are equal. -/
def Value.same : Value → Value → Bool
  | .string a, .string b => a == b
  | .number a, .number b => a == b
  | .boolean a, .boolean b => a == b
  | .dictionary a, .dictionary b => a.same b
  | .list a, .list b => Value.sameItems a b
  | _, _ => false
termination_by structural a => a

/-- Whether two lists of values are equal. -/
def Value.sameItems : List Value → List Value → Bool
  | [], [] => true
  | a :: as, b :: bs => a.same b && Value.sameItems as bs
  | _, _ => false
termination_by structural as => as

/-- Whether two entries are equal. -/
def Entry.same : Entry → Entry → Bool
  | ⟨key, a⟩, ⟨key', b⟩ => key == key' && a.same b
termination_by structural a => a

/-- Whether two dictionaries are equal. -/
def Dictionary.same : Dictionary → Dictionary → Bool
  | ⟨as⟩, ⟨bs⟩ => Entry.sameAll as bs
termination_by structural a => a

/-- Whether two lists of entries are equal. -/
def Entry.sameAll : List Entry → List Entry → Bool
  | [], [] => true
  | a :: as, b :: bs => a.same b && Entry.sameAll as bs
  | _, _ => false
termination_by structural as => as

end

instance : BEq Value := ⟨Value.same⟩

instance : BEq Dictionary := ⟨Dictionary.same⟩

end ShaderTemplate
