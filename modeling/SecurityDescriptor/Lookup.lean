import Std.Data.HashMap
import SecurityDescriptor.Record

/-!
# Equality of records, and looking them up

Authorities, SIDs and GUIDs are values: two of a kind are equal if they say the same.
Every other record is equal only to the very same entry of a list.  `Identity.ofRecords` turns
a list of records into keys for which this is plain equality.
-/

namespace SecurityDescriptor

/-! ## Algorithm -/

/-- What makes a record of a list equal to another. -/
inductive Identity where
  | authority (a : Authority)
  | sid (s : Sid)
  | guid (g : Guid)
  /-- The place in the list. -/
  | entry (index : Nat)
deriving DecidableEq, Hashable

namespace Identity

/-- The identity of the record at place `index`. -/
def ofRecord (index : Nat) : Record → Identity
  | .authority a => authority a
  | .sid s => sid s
  | .guid g => guid g
  | _ => entry index

/-- The identities of a list's records. -/
def ofRecords (rs : List Record) : List Identity := rs.mapIdx ofRecord

/-- The least place of each identity, `n` being the place of the first. -/
def placesFrom (n : Nat) (table : Std.HashMap Identity Nat) :
    List Identity → Std.HashMap Identity Nat
  | [] => table
  | i :: is => placesFrom (n + 1) (table.insertIfNew i n) is

/-- For each identity of a list the place of the first that equals it, found through a
hash table. -/
def firstPlaces (is : List Identity) : List Nat :=
  let table := placesFrom 0 ∅ is
  is.map fun i => table.getD i 0

end Identity

end SecurityDescriptor
