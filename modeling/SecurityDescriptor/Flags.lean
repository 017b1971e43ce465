/-!
# Flag words

A flag word is a number whose bits have names.  The three vocabularies list their
bits in ascending order.  A word may have bits without a name: they are kept, and
`unnamed` is the number they make.
-/

namespace SecurityDescriptor

/-- A named bit. -/
structure Flag where
  name : String
  bit : Nat
deriving DecidableEq, Repr

namespace Flag

/-- The number that has only this bit. -/
def value (f : Flag) : Nat := 1 <<< f.bit

end Flag

/-- The names of a flag word's bits, in ascending order. -/
abbrev Vocabulary := List Flag

namespace Vocabulary

/-- How an entry is inherited, and what is audited. -/
def aceFlags : Vocabulary :=
  [⟨"OBJECT_INHERIT_ACE", 0⟩, ⟨"CONTAINER_INHERIT_ACE", 1⟩, ⟨"NO_PROPAGATE_INHERIT_ACE", 2⟩,
    ⟨"INHERIT_ONLY_ACE", 3⟩, ⟨"INHERITED_ACE", 4⟩, ⟨"SUCCESSFUL_ACCESS_ACE_FLAG", 6⟩,
    ⟨"FAILED_ACCESS_ACE_FLAG", 7⟩]

/-- Which GUIDs an object entry has. -/
def objectFlags : Vocabulary :=
  [⟨"ACE_OBJECT_TYPE_PRESENT", 0⟩, ⟨"ACE_INHERITED_OBJECT_TYPE_PRESENT", 1⟩]

/-- The control word of a descriptor. -/
def control : Vocabulary :=
  [⟨"SE_OWNER_DEFAULTED", 0⟩, ⟨"SE_GROUP_DEFAULTED", 1⟩, ⟨"SE_DACL_PRESENT", 2⟩,
    ⟨"SE_DACL_DEFAULTED", 3⟩, ⟨"SE_SACL_PRESENT", 4⟩, ⟨"SE_SACL_DEFAULTED", 5⟩,
    ⟨"SE_DACL_TRUSTED", 6⟩, ⟨"SE_SERVER_SECURITY", 7⟩, ⟨"SE_DACL_AUTO_INHERIT_REQ", 8⟩,
    ⟨"SE_SACL_AUTO_INHERIT_REQ", 9⟩, ⟨"SE_DACL_AUTO_INHERITED", 10⟩,
    ⟨"SE_SACL_AUTO_INHERITED", 11⟩, ⟨"SE_DACL_PROTECTED", 12⟩, ⟨"SE_SACL_PROTECTED", 13⟩,
    ⟨"SE_RM_CONTROL_VALID", 14⟩, ⟨"SE_SELF_RELATIVE", 15⟩]

/-- The named bits that a word has, in ascending order. -/
def present (v : Vocabulary) (word : Nat) : List Flag := v.filter (word.testBit ·.bit)

/-- The number that the bits without a name make. -/
def unnamed (v : Vocabulary) (word : Nat) : Nat :=
  word - (v.present word).foldr (fun f n => f.value + n) 0

end Vocabulary

end SecurityDescriptor
