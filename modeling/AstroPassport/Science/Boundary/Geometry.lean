import AstroPassport.Lib.Except
import AstroPassport.Lib.Json.Fuel
import AstroPassport.Lib.Json.Hooks
import AstroPassport.Science.Boundary.Tbb
import AstroPassport.Science.Civil.Contracts

set_option autoImplicit false

/-! # The decoder of the boundary archive

`_parse_geometry` of `boundaries/tbb.py` reads a feature collection of 170 MB without building its
tree: a regular expression takes the text up to the bracket of the features, `raw_decode` takes one
feature at a time, and a string test takes the end. A cursor is the text that is left. Between
features the code skips the white space of JSON; around them `\s` and `strip` take what Python calls
white space, which is more (`parseGeometry_sound_iff`). What shapely makes of a geometry is given.

The checks of one feature follow the source: exact keys, the type, the zone among the catalogued
ones, a polygon or a list of polygons whose rings are closed and whose points are on the globe. The
loop stops at the first feature past the number of zones there are. At the end the zones of all
features are those of the catalogue, each once. -/

namespace AstroPassport

/-! ## The text around the features -/

/-- White space and a token. -/
def expect (space : Char → Bool) (token cs : List Char) : Option (List Char) :=
  let cs := cs.dropWhile space
  if cs.take token.length = token then some (cs.drop token.length) else none

/-- A sequence of tokens, white space before each; what is left after the last one. -/
def expectAll (space : Char → Bool) : List (List Char) → List Char → Option (List Char)
  | [], cs => some cs
  | token :: tokens, cs => (expect space token cs).bind (expectAll space tokens)

/-- A string literal without escapes. -/
def quoted (s : String) : List Char := '"' :: (s.toList ++ ['"'])

/-- The tokens of `PREFIX`. -/
def openingTokens : List (List Char) :=
  [['{'], quoted "type", [':'], quoted "FeatureCollection", [','], quoted "features", [':'], ['[']]

/-- `PREFIX.match`. -/
def matchPrefix (text : List Char) : Option (List Char) := expectAll isPySpace openingTokens text

/-- `json.JSONDecoder(object_pairs_hook=_unique_object).raw_decode`. -/
def rawDecode (cursor : List Char) : Option (PyValue × List Char) :=
  (parseValue (cursor.length + 1) cursor).bind fun p =>
    (hookedDoc (distinctPairs []) (readConstant true) p.1).map fun v => (v, p.2)

/-! ## Geometries -/

/-- `value == s`. -/
def isText (s : String) : PyValue → Bool
  | .str t => t = s.toList.map scalar
  | _ => false

/-- `set(value) == names`. -/
def hasExactly (names : List String) (ms : List (PyKey × PyValue)) : Bool :=
  (ms.map Prod.fst).toFinset = (names.map pyKey).toFinset

/-- A number that `numpy` converts to a finite float, as the value of that float. -/
def coordinate? : PyValue → Option ℚ
  | .int n =>
    match Binary64.ofRat n with
    | .finite x => some x.value
    | _ => none
  | .float (.finite x) => some x.value
  | _ => none

/-- A point of a ring. -/
def point? : PyValue → Option (ℚ × ℚ)
  | .list [x, y] => (coordinate? x).bind fun x => (coordinate? y).map fun y => (x, y)
  | _ => none

/-- Two neighbours of a ring more than half a turn apart, at different latitudes or off the
    poles. -/
def crossesSeam (p q : ℚ × ℚ) : Bool :=
  decide (180 < |roundRat (q.1 - p.1)|) && !decide (p.2 = q.2 ∧ |p.2| = 90)

/-- `_validate_ring`. -/
def validateRing : PyValue → Bool
  | .list ring =>
    decide (4 ≤ ring.length) &&
      match ring.mapM point? with
      | some points =>
        (points.all fun p => decide (|p.1| ≤ 180 ∧ |p.2| ≤ 90)) &&
          decide (points.head? = points.getLast?) &&
          (points.zip points.tail).all fun s => !crossesSeam s.1 s.2
      | none => false
  | _ => false

/-- A polygon is a list of rings, not empty. -/
def validatePolygon : PyValue → Bool
  | .list rings => !rings.isEmpty && rings.all validateRing
  | _ => false

/-- The polygons of a geometry by its kind. -/
def polygons? (kind coordinates : PyValue) : Option (List PyValue) :=
  if isText "Polygon" kind then some [coordinates]
  else if isText "MultiPolygon" kind then
    match coordinates with
    | .list polygons => some polygons
    | _ => none
  else none

section Parse

variable {G : Type} (shape : PyValue → Option G)

/-- `_geometry`; `shape` has no value for a geometry that is empty or not valid. -/
def geometryOf : PyValue → Option G
  | .dict ms =>
    if hasExactly ["type", "coordinates"] ms then
      (ms.lookup (pyKey "type")).bind fun kind =>
      (ms.lookup (pyKey "coordinates")).bind fun coordinates =>
      (polygons? kind coordinates).bind fun polygons =>
        if !polygons.isEmpty && polygons.all validatePolygon then shape (.dict ms) else none
    else none
  | _ => none

/-- The checks of one feature: its name and its geometry. -/
def featureOf (catalog : Finset (List CodePoint)) (names : List (List CodePoint)) :
    PyValue → Option (List CodePoint × G)
  | .dict ms =>
    if hasExactly ["type", "properties", "geometry"] ms then
      match ms.lookup (pyKey "type"), ms.lookup (pyKey "properties"),
        ms.lookup (pyKey "geometry") with
      | some kind, some (.dict properties), some geometry =>
        if isText "Feature" kind && hasExactly ["tzid"] properties then
          match properties.lookup (pyKey "tzid") with
          | some (.str name) =>
            if name ∈ catalog ∧ name ∉ names then (geometryOf shape geometry).map (name, ·) else none
          | _ => none
        else none
      | _, _, _ => none
    else none
  | _ => none

/-- The loop over the features, those found so far in `found`; one more than `budget` of them and
    `len(names) > FEATURE_COUNT`. -/
def parseFeatures (catalog : Finset (List CodePoint)) (budget : ℕ)
    (found : List (List CodePoint × G)) (cursor : List Char) :
    Option (List (List CodePoint × G)) :=
  match skipSpace cursor with
  | ']' :: rest => if pyStrip (']' :: rest) = "]\x7d".toList then some found else none
  | cursor =>
    (rawDecode cursor).bind fun decoded =>
      (featureOf shape catalog (found.map Prod.fst) decoded.1).bind fun feature =>
        match budget with
        | 0 => none
        | budget + 1 =>
          match skipSpace decoded.2 with
          | ',' :: rest =>
            match skipSpace rest with
            | ']' :: _ => none
            | _ => parseFeatures catalog budget (found ++ [feature]) rest
          | ']' :: rest => parseFeatures catalog budget (found ++ [feature]) (']' :: rest)
          | _ => none

/-- `_parse_geometry`, its bytes decoded. -/
def parseGeometry (catalog : Finset (List CodePoint)) (text : List Char) :
    Option (List (List CodePoint) × List G) :=
  (matchPrefix text).bind fun cursor =>
    (parseFeatures shape catalog featureCount [] cursor).bind fun found =>
      if (found.map Prod.fst).toFinset = catalog then
        some (found.map Prod.fst, found.map Prod.snd)
      else none

end Parse

end AstroPassport
