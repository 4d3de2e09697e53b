import AstroPassport.Lib.Json.Dumps
import AstroPassport.Lib.Json.Hooks

set_option autoImplicit false

/-! # `unique_json` of `app/security.py`

The decoder of a request body. `json.loads` is given two hooks: `pairs`, which raises when an object
has a name twice, and `constant`, which raises at `NaN` and the infinities. So a body is accepted
exactly when it is a document without either, at any depth, and the value is the one that the plain
decoder builds (`uniqueJson_eq_some`). What `json.dumps` writes of a value whose names are distinct
is accepted as that value (`uniqueJson_dumps`).

How bytes are read as a document is an argument, since the statement about the hooks does not depend
on it; for ASCII bytes it is the function of the library. The hooks themselves are those of the
library as well, with the refusal of all three constants chosen. -/

namespace AstroPassport

/-- `pairs`. -/
def pairs (items : List (PyKey × PyValue)) : Option (List (PyKey × PyValue)) :=
  distinctPairs [] items

/-- `constant`. -/
def constant (c : JsonConst) : Option PyValue := readConstant false c

/-- `unique_json`; there is no value for a `ValueError`. -/
def uniqueJson (document : List Byte → Option JsonDoc) (data : List Byte) : Option PyValue :=
  (document data).bind (hookedDoc pairs constant)

/-- It accepts the documents that give no name twice and hold no constant, and reads them as Python
    does. -/
theorem uniqueJson_eq_some {document : List Byte → Option JsonDoc} {data : List Byte}
    {v : PyValue} : uniqueJson document data = some v ↔ ∃ d, document data = some d ∧
      d.standard = true ∧ d.DistinctNames ∧ v = pyDecode d := by
  have hread : ∀ d, hookedDoc pairs constant d = some v ↔
      d.standard = true ∧ d.DistinctNames ∧ v = pyDecode d := fun d => by
    show hookedDoc (distinctPairs []) (readConstant false) d = some v ↔ _
    simp [hookedDoc_eq_some]
  simp only [uniqueJson, Option.bind_eq_some_iff, hread]

/-- What `json.dumps` writes of a value without a repeated name is accepted and read back. -/
theorem uniqueJson_dumps {v : PlainJson} (h : v.DistinctKeys) :
    uniqueJson jsonDocument (ascii (String.ofList (v.dumps .ascii))) = some v.toPy :=
  uniqueJson_eq_some.2 ⟨_, jsonDocument_dumps v, standard_docIn _ v, distinctNames_docIn _ v h,
    (pyDecode_docIn _ v h).symm⟩

end AstroPassport
