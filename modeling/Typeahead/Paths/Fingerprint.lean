import Typeahead.Hash.XXH3

/-!
# Path fingerprints

A path's fingerprint is the 64-bit hash of its text. The low half of the fingerprint is the
path's hash: it decides the shard that owns the path, and it is the identity of the path's
candidates.
-/

namespace Typeahead

/-- The fingerprint of a path. -/
def fingerprint (path : String) : UInt64 := Hash.xxh3 path.toUTF8

/-- The hash of a path. -/
def hashPath (path : String) : UInt32 := (fingerprint path).toUInt32

/-- Where a path was when it was found: what a path candidate remembers of it. -/
structure PathRef where
  /-- The shard that owns the path. -/
  shard : Nat
  /-- Where the shard's arena kept the path. -/
  offset : Nat
  /-- The fingerprint of the path. -/
  fingerprint : UInt64
  deriving DecidableEq

/-- The hash of the path. -/
def PathRef.hash (ref : PathRef) : UInt32 := ref.fingerprint.toUInt32

end Typeahead
