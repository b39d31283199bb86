import TraceDebug.Source.Resolver

/-!
# The cache of prepared source maps

A loaded trace keeps the source maps prepared against the compilation used last.
Compilations are told apart by their number and not by what they hold: an equal
compilation under another number is another one. A look-up and the storing of
what was prepared after a miss are two sections; what happens between them is
up to other users of the cache.
-/

namespace TraceDebug

/-- One compilation, told apart from equal ones by its number. -/
structure Build where
  id : Nat
  compilation : Compilation

/-- A prepared source map with the number of the preparation it came from. -/
structure SharedMap where
  serial : Nat
  map : ContractSourceMap

abbrev PreparedMap := Except UnresolvedReason SharedMap

structure MapCache where
  /-- The number of the compilation the maps were prepared against. -/
  build : Option Nat
  maps : Table ExecutingAddress PreparedMap
  /-- How many preparations were begun. -/
  preparations : Nat

/-- What a look-up gives: a map, or the number of the preparation to make. -/
inductive MapLookUp where
  | hit (prepared : PreparedMap)
  | miss (serial : Nat)

namespace MapCache

def empty : MapCache := ⟨none, .empty, 0⟩

def isFor (c : MapCache) (b : Build) : Bool := c.build == some b.id

def miss (c : MapCache) : MapCache × MapLookUp :=
  ({ c with preparations := c.preparations + 1 }, .miss c.preparations)

/-- The first section: a hit, or a miss that gives the cache to `b`. -/
def lookUp (c : MapCache) (b : Build) (address : ExecutingAddress) : MapCache × MapLookUp :=
  if c.isFor b then
    match c.maps.get? address with
    | some prepared => (c, .hit prepared)
    | none => c.miss
  else miss { c with build := some b.id, maps := .empty }

/-- The second section: what was prepared is kept if the cache is still for `b`. -/
def store (c : MapCache) (b : Build) (address : ExecutingAddress) (prepared : PreparedMap) :
    MapCache :=
  if c.isFor b then { c with maps := c.maps.insert address prepared } else c

/-- Prepare a source map under a number of its own. -/
def prepareShared (reader : MapReader) (serial : Nat) (address : ExecutingAddress) (t : Trace)
    (b : Build) : PreparedMap :=
  (reader.prepare address t (some b.compilation)).map fun map => ⟨serial, map⟩

/-- Both sections without interruption. -/
def sourceMap (c : MapCache) (reader : MapReader) (address : ExecutingAddress) (t : Trace)
    (b : Build) : MapCache × PreparedMap :=
  match c.lookUp b address with
  | (c, .hit prepared) => (c, prepared)
  | (c, .miss serial) =>
    let prepared := prepareShared reader serial address t b
    (c.store b address prepared, prepared)

end MapCache

end TraceDebug
