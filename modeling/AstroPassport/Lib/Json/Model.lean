import AstroPassport.Lib.Json.Reading
import AstroPassport.Lib.Schema

set_option autoImplicit false

/-! # Python values as models see them

A model reads a `JsonValue`. `toJson?` is the one a decoded Python value stands for: the same value,
unless a string in it holds a lone surrogate, which is no text for a model.

Python's decoder builds values whose strings are code points and whose objects are dictionaries with
distinct keys; models are written over values whose strings are scalar. The passage keeps the order
of members and every number as it is. It has no value as soon as one string anywhere in it has none,
names included, and where it has one, a member is found under the same name on both sides
(`lookup_of_membersToJson?`), so that what a program reads from the Python value and what a model
reads from its JSON value are the same. -/

namespace AstroPassport

mutual

/-- The value that the parser of a model makes of such a value's JSON text. -/
def PyValue.toJson? : PyValue → Option JsonValue
  | .none => some .null
  | .bool b => some (.bool b)
  | .int n => some (.int n)
  | .float x => some (.float x)
  | .str s => (scalars? s).map fun text => .str (String.ofList text)
  | .list items => (itemsToJson? items).map .arr
  | .dict ms => (membersToJson? ms).map .obj

/-- The items, when every one is a JSON value. -/
def itemsToJson? : List PyValue → Option (List JsonValue)
  | [] => some []
  | v :: vs => do
    let v ← v.toJson?
    let vs ← itemsToJson? vs
    some (v :: vs)

/-- The keys of a decoded object are strings. -/
def membersToJson? : List (PyKey × PyValue) → Option (List (String × JsonValue))
  | [] => some []
  | (.str s, v) :: ms => do
    let name ← scalars? s
    let v ← v.toJson?
    let ms ← membersToJson? ms
    some ((String.ofList name, v) :: ms)
  | _ :: _ => none

end

theorem toJson?_eq_int {v : PyValue} {n : ℤ} : v.toJson? = some (.int n) ↔ v = .int n := by
  rcases v with _ | _ | _ | _ | s | xs | ms
  · simp [PyValue.toJson?]
  · simp [PyValue.toJson?]
  · simp [PyValue.toJson?]
  · simp [PyValue.toJson?]
  · simp [PyValue.toJson?]
  · simp [PyValue.toJson?]
  · simp [PyValue.toJson?]

theorem pyStr_of_toJson? {v : PyValue} {text : String} (h : v.toJson? = some (.str text)) :
    v = pyStr text.toList := by
  cases v with
  | str s =>
      obtain ⟨cs, hcs, heq⟩ := Option.map_eq_some_iff.mp h
      cases heq
      rw [pyStr, String.toList_ofList, map_scalar_of_scalars? hcs]
  | list items =>
      obtain ⟨_, -, heq⟩ := Option.map_eq_some_iff.mp h
      cases heq
  | dict members =>
      obtain ⟨_, -, heq⟩ := Option.map_eq_some_iff.mp h
      cases heq
  | _ => cases h

theorem dict_of_toJson? {v : PyValue} {ns : List (String × JsonValue)}
    (h : v.toJson? = some (.obj ns)) : ∃ ms, v = .dict ms ∧ membersToJson? ms = some ns := by
  cases v with
  | str s =>
      obtain ⟨_, -, heq⟩ := Option.map_eq_some_iff.mp h
      cases heq
  | list items =>
      obtain ⟨_, -, heq⟩ := Option.map_eq_some_iff.mp h
      cases heq
  | dict members =>
      obtain ⟨_, hns, heq⟩ := Option.map_eq_some_iff.mp h
      cases heq
      exact ⟨members, rfl, hns⟩
  | _ => cases h

/-- A text member of a converted dictionary is that member of the dictionary. -/
theorem lookup_of_membersToJson? {ms : List (PyKey × PyValue)} {ns : List (String × JsonValue)}
    {name text : String} (h : membersToJson? ms = some ns)
    (hlookup : ns.lookup name = some (.str text)) :
    ms.lookup (pyKey name) = some (pyStr text.toList) := by
  induction ms generalizing ns with
  | nil =>
      cases h
      cases hlookup
  | cons m ms ih =>
      obtain ⟨k, v⟩ := m
      cases k with
      | str k =>
          simp only [membersToJson?, bind, Option.bind_eq_some_iff, Option.some.injEq] at h
          obtain ⟨cs, hcs, w, hw, ns', hns', rfl⟩ := h
          have hkey : PyKey.str k = pyKey (String.ofList cs) := by
            rw [pyKey, String.toList_ofList, map_scalar_of_scalars? hcs]
          rw [hkey]
          -- the first member of the name decides on both sides
          by_cases hname : name = String.ofList cs
          · subst hname
            rw [List.lookup_cons_self, Option.some.injEq] at hlookup ⊢
            exact pyStr_of_toJson? (hw.trans (congrArg some hlookup))
          · have hne : (name == String.ofList cs) = false := beq_eq_false_iff_ne.mpr hname
            have hne' : (pyKey name == pyKey (String.ofList cs)) = false :=
              beq_eq_false_iff_ne.mpr fun heq => hname (pyKey_injective heq)
            rw [List.lookup_cons, hne] at hlookup
            rw [List.lookup_cons, hne']
            exact ih hns' hlookup
      | _ => cases h

end AstroPassport
