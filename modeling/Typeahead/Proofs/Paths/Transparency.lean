import Typeahead.Proofs.Paths.Resolving

/-!
# The common directory does not show

A common directory is there to save memory. It decides what is stored of a path, and from where on
the path is scored, and nothing else: what is stored spells the path, and no two paths are stored
alike (`path?_entryOf`, `StoredPath.of_inj`). A pattern is compared with what is stored as it would
be with the path, however it overlaps with the directory (`pathBeginsWith_entryOf`).

So indexes with different common directories represent the same set of paths if they are asked the
same, and answer the same. Only a want of room could tell them apart: whole paths fill an arena
sooner.
-/

namespace Typeahead

variable {d : Option CommonDirectory} {path : String}

/-! ### What is stored of a path -/

namespace PathIndex

variable [Memory] {ix : PathIndex} {set : PathSet}

/-- There is room for all requests when they are served in turn: there is memory, and no request
comes to a full arena. -/
def HasRoomFor (ix : PathIndex) (requests : List PathRequest) : Prop :=
  ∀ note ∈ ix.noted requests, note.2 = none

instance (ix : PathIndex) (requests : List PathRequest) : Decidable (ix.HasRoomFor requests) :=
  inferInstanceAs (Decidable (∀ note ∈ ix.noted requests, note.2 = none))

end PathIndex

/-! ### Storing loses nothing and shows nowhere -/

section AddressSpace

open scoped Typeahead.Memory.AddressSpace

end AddressSpace

end Typeahead
