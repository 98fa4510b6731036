import Typeahead.Session.Pools

/-!
# Path indexes of a session

A name that is given to a new index, or to none, may leave the index it stood for alive, because
dispatchers and rounds use indexes too.
-/

namespace Typeahead.Session

/-- Makes an index, unless its layout is refused. -/
def newIndex [Memory] (s : Session) (name : String) (config : IndexConfig) (scorer : Scorer) :
    Session × Except Fault PathIndex :=
  match PathIndex.create config scorer with
  | .error fault => (s, .error fault)
  | .ok ix =>
    ({ s with
        indexes := s.indexes.push ix
        indexNames := s.indexNames.put name s.indexes.size }, .ok ix)

/-- Lets a name stand for no index. Answers whether it stood for one. -/
def dropIndex (s : Session) (name : String) : Session × Bool :=
  let (found, indexNames) := s.indexNames.take name
  ({ s with indexNames }, found.isSome)

/-- The index of a name. -/
def index? (s : Session) (name : String) : Option PathIndex :=
  (s.indexNames.get? name).bind (s.indexes[·]?)

/-- Changes the index of a name, and answers what the change answers. -/
def changeIndex {α : Type} (s : Session) (name : String)
    (change : PathIndex → PathIndex × α) : Session × Option α :=
  match s.indexNames.get? name with
  | none => (s, none)
  | some number =>
    match s.indexes[number]? with
    | none => (s, none)
    | some ix =>
      let (ix, answer) := change ix
      ({ s with indexes := s.indexes.setIfInBounds number ix }, some answer)

/-- Makes a factory that shows the paths of an index under a name. -/
def newMaterializer (s : Session) (index name : String) : Session :=
  match s.indexNames.get? index with
  | none => s
  | some number =>
    let (s, callback) := s.newCallback (.showPath number name)
    { s with materializers := s.materializers.put name callback }

/-- Lets the name of a factory that shows paths stand for nothing. Answers whether it stood for
one. -/
def dropMaterializer (s : Session) (name : String) : Session × Bool :=
  let (found, materializers) := s.materializers.take name
  ({ s with materializers }, found.isSome)

/-- How a factory that shows paths is shown for inspection. -/
def materializerText : String := "PathMaterializer \x7b .. \x7d"

/-- Scans a shard of an index into a pool. -/
def tryScan (s : Session) (index factory pool : String) (shard : Nat) (needle : Needle) :
    Session × Option (Except Fault ScanOutcome) :=
  match s.index? index, s.materializers.get? factory with
  | some ix, some factory => s.atDesk pool fun outside => ix.tryScan outside factory needle shard
  | _, _ => (s, none)

/-- Scans a shard of an index into a pool, where there is something to scan. -/
def scan (s : Session) (index factory pool : String) (shard : Nat) (needle : Needle) :
    Session × Option ScanOutcome :=
  match s.index? index, s.materializers.get? factory with
  | some ix, some factory => s.atDesk pool fun outside => ix.scan outside factory needle shard
  | _, _ => (s, none)

/-- Scans an index into a pool. -/
def scanAll (s : Session) (index factory pool : String) (needle : Needle) :
    Session × Option (List ScanOutcome) :=
  match s.index? index, s.materializers.get? factory with
  | some ix, some factory => s.atDesk pool fun outside => ix.scanAll outside factory needle
  | _, _ => (s, none)

end Typeahead.Session
