import AstroPassport.Conformance.Matched

set_option autoImplicit false

/-! # The projection of a matched record

`project_reference` builds its result row by row (`Built`). When every row gives the value that a
target has at the row's place, the result is the target; the target here is an accepted response
with its two bodies in an object, which is what the loop over the rows builds.

The invariant of the loop says of the object built so far that it has what the target has at the
paths that are done, and nothing off the way to them. One row keeps it (`set`), because setting a
path changes one place and creates only the objects on its way; that these can be created at all is
because no leaf of the target lies on the way to another (`eq_of_leaf_on_way`). At the end every
leaf of the target has had its row, so nothing is missing either, and two objects with the same
leaves at the same places are the same up to the order of members. Which rows there are is a
parameter here; the table comes in where this is used. -/

namespace AstroPassport

open JsonValue

variable {lib : PyLibrary} {newRevision : String}

/-! ## Building along rows -/

/-- A leaf has nothing under a key. -/
theorem get_key_of_isPlain {x : JsonValue} (h : x.isPlain = true) (k : String)
    (p : List JsonStep) : x.get (.key k :: p) = none := by
  cases x <;> first | rfl | cases h

/-- Places of leaves of one value, along keys, are not on the way to each other. -/
theorem eq_of_leaf_on_way {v x y : JsonValue} {p q : List String} (hx : v.get (keys p) = some x)
    (hplain : x.isPlain = true) (hy : v.get (keys q) = some y) (h : keys p <+: keys q) :
    keys p = keys q := by
  obtain ⟨t, ht⟩ := h
  rcases t with _ | ⟨s, t⟩
  · rwa [List.append_nil] at ht
  · exfalso
    have hs : s ∈ keys q := ht ▸ List.mem_append_right _ (List.mem_cons_self ..)
    obtain ⟨k, -, rfl⟩ := List.mem_map.mp hs
    rw [← ht, get_append, hx, Option.bind_some, get_key_of_isPlain hplain] at hy
    cases hy

/-- A value in the making: an object that has what the target has at the paths that are done, and
    nothing off the way to them. -/
structure Built (target : JsonValue) (done : List (List String)) (current : JsonValue) : Prop where
  isObj : current.isObj = true
  get_eq : ∀ p ∈ done, current.get (keys p) = target.get (keys p)
  onWay : ∀ q, (current.get q).isSome = true →
    q = [] ∨ ∃ p ∈ done, q <+: keys p ∨ keys p <+: q

namespace Built

variable {target current next x : JsonValue} {done : List (List String)}

theorem empty (target : JsonValue) : Built target [] (.obj []) where
  isObj := rfl
  get_eq p hp := by cases hp
  onWay q hq := by
    rcases q with _ | ⟨_ | _, q⟩
    · exact .inl rfl
    · cases hq
    · cases hq

/-- The target has leaves at all paths. -/
def Leaves (target : JsonValue) (paths : List (List String)) : Prop :=
  ∀ p ∈ paths, ∃ x, target.get (keys p) = some x ∧ x.isPlain = true

/-- What stands on the way to a further leaf is an object. -/
theorem isObj_of_get (hb : Built target done current) (hdone : Leaves target done)
    {p : List String} (hx : target.get (keys p) = some x) {q : List JsonStep} (hq : q <+: keys p)
    (hne : q ≠ keys p) {y : JsonValue} (hy : current.get q = some y) : y.isObj = true := by
  rcases hb.onWay q (by rw [hy]; rfl) with rfl | ⟨p', hp', hway⟩
  · cases hy
    exact hb.isObj
  · obtain ⟨x', hx', hplain'⟩ := hdone p' hp'
    -- the leaf at `p'` cannot be on the way to `p`
    have hnot : ¬ keys p' <+: q := fun hle => hne <| by
      have heq := eq_of_leaf_on_way hx' hplain' hx (hle.trans hq)
      exact hq.eq_of_length (le_antisymm hq.length_le (heq ▸ hle.length_le))
    rcases hway with ⟨t, ht⟩ | hle
    · rcases t with _ | ⟨s, t⟩
      · exact absurd ⟨[], by rw [← ht, List.append_nil, List.append_nil]⟩ hnot
      · have hs : s ∈ keys p' := ht ▸ List.mem_append_right _ (List.mem_cons_self ..)
        obtain ⟨k, -, rfl⟩ := List.mem_map.mp hs
        have hget := hb.get_eq p' hp'
        rw [← ht, get_append, hy, Option.bind_some, ht, hx'] at hget
        cases y <;> first | rfl | cases hget
    · exact absurd hle hnot

/-- Setting the value that the target has at a path brings the path in. -/
theorem set (hb : Built target done current) (hdone : Leaves target done) {p : List String}
    (hne : p ≠ []) (hx : target.get (keys p) = some x) (hplain : x.isPlain = true) :
    ∃ next, x.setPath p current = .ok next ∧ Built target (p :: done) next := by
  obtain ⟨next, hnext⟩ := setPath_ok hne fun q hq hqne y hy => hb.isObj_of_get hdone hx hq hqne hy
  have hself := setPath_get_self hnext hne
  refine ⟨next, hnext, ⟨?_, ?_, ?_⟩⟩
  · obtain ⟨k, p, rfl⟩ := List.exists_cons_of_ne_nil hne
    cases next <;> first | rfl | cases hself
  · refine List.forall_mem_cons.mpr ⟨hself.trans hx.symm, fun p' hp' => ?_⟩
    obtain ⟨x', hx', hplain'⟩ := hdone p' hp'
    by_cases heq : keys p' = keys p
    · rw [heq, hself, hx]
    · rw [setPath_get_of_beside hnext, hb.get_eq p' hp']
      · exact fun hle => heq (eq_of_leaf_on_way hx' hplain' hx hle)
      · exact fun hle => heq (eq_of_leaf_on_way hx hplain hx' hle).symm
  · intro q hq
    by_cases hway : q <+: keys p ∨ keys p <+: q
    · exact .inr ⟨p, List.mem_cons_self .., hway⟩
    · rw [not_or] at hway
      rw [setPath_get_of_beside hnext hway.1 hway.2] at hq
      refine (hb.onWay q hq).imp id fun ⟨p', hp', hp'way⟩ => ?_
      exact ⟨p', List.mem_cons_of_mem _ hp', hp'way⟩

end Built

/-- The path of a row, the side of the exchange aside. -/
def NewRow.parts (row : NewRow) : List String := Path.texts row.path.tail

/-- A row gives the value that the target has at its place. -/
structure NewRow.Gives (lib : PyLibrary) (newRevision : String) (flat : Flat) (target : JsonValue)
    (row : NewRow) : Prop where
  parts_ne : row.parts ≠ []
  value : ∃ v x, row.value flat = .ok v ∧ row.rewrite.projected lib newRevision v = .ok x ∧
    target.get (keys row.parts) = some x ∧ x.isPlain = true

/-- The loop over rows that give the target's values builds the target at their places. -/
theorem foldlM_project {flat : Flat} {target : JsonValue} {rows : List NewRow}
    (hrows : ∀ row ∈ rows, row.Gives lib newRevision flat target) {done : List (List String)}
    {current : JsonValue} (hb : Built target done current) (hdone : Built.Leaves target done) :
    ∃ next, rows.foldlM (NewRow.project lib newRevision flat) current = .ok next ∧
      Built target ((rows.map NewRow.parts).reverse ++ done) next := by
  induction rows generalizing done current with
  | nil => exact ⟨current, rfl, hb⟩
  | cons row rows ih =>
      obtain ⟨hne, v, x, hv, hx, htarget, hplain⟩ := hrows row (List.mem_cons_self ..)
      obtain ⟨next, hnext, hbnext⟩ := hb.set hdone hne htarget hplain
      have hstep : row.project lib newRevision flat current = .ok next := by
        rw [NewRow.project, bind_of_eq_ok hv, bind_of_eq_ok hx]
        exact hnext
      obtain ⟨last, hlast, hblast⟩ := ih (fun row hrow => hrows row (List.mem_cons_of_mem _ hrow))
        hbnext (List.forall_mem_cons.mpr ⟨⟨x, htarget, hplain⟩, hdone⟩)
      refine ⟨last, ?_, ?_⟩
      · rw [List.foldlM_cons, bind_of_eq_ok hstep]
        exact hlast
      · rwa [List.map_cons, List.reverse_cons, List.append_assoc, List.singleton_append]

end AstroPassport
