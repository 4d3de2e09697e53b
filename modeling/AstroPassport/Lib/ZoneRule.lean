import Mathlib.Algebra.Order.Group.Unbundled.Int
import Mathlib.Data.Int.LeastGreatest
import Mathlib.Tactic.Common
import Mathlib.Tactic.Linarith
import Mathlib.Tactic.Ring

set_option autoImplicit false

/-! # Displaced clocks

A clock that shows an instant `u` as `u + off u`, where the displacement `off` changes at isolated
instants, repeats the readings around a change backwards (an overlap) and skips those around a
change forwards (a gap). When consecutive changes are further apart than both together displace, the
gaps and overlaps do not meet, and a reader that is told on which side of a change to look (`fold`)
finds every instant of a reading by undoing two displacements: `ZoneReading.exists_fold_of_toLocal`
says none is missed, `ZoneReading.earlier_le_later` which comes first.

Away from the seams a reading is shown at one instant, and undoing the displacement in force gives
it; in a seam it is shown twice, or never (`toLocal_eq_iff_of_seam`). Two seams do not meet, so a
reading is in one at most (`Seam.unique`). A reader is a `ZoneReading`: in a seam it takes the
displacement before the change or the one after it, as it is told, and elsewhere the one in force;
every rule has one (`exists_reading`). -/

namespace AstroPassport

/-- A displacement whose changes are further apart than they displace. -/
structure ZoneRule where
  off : ℤ → ℤ
  bound : ℤ
  abs_off_lt : ∀ u, |off u| < bound
  separated : ∀ s t, s < t → off (s - 1) ≠ off s → off (t - 1) ≠ off t →
    (∀ r, s < r → r < t → off (r - 1) = off r) →
    |off s - off (s - 1)| + |off t - off (t - 1)| < t - s

namespace ZoneRule

variable {z : ZoneRule} {s t u v l : ℤ}

/-- What the clock shows at an instant. -/
def toLocal (z : ZoneRule) (u : ℤ) : ℤ := u + z.off u

/-- The offset changes at this second. -/
def IsTransition (z : ZoneRule) (t : ℤ) : Prop := z.off (t - 1) ≠ z.off t

/-- The readings a change repeats or skips. -/
def Seam (z : ZoneRule) (t l : ℤ) : Prop :=
  z.IsTransition t ∧ t + min (z.off (t - 1)) (z.off t) ≤ l ∧ l < t + max (z.off (t - 1)) (z.off t)

/-- The same clock with time running backwards. -/
def reflect (z : ZoneRule) : ZoneRule where
  off u := -z.off (-u)
  bound := z.bound
  abs_off_lt u := by rw [abs_neg]; exact z.abs_off_lt _
  separated s t hst hs ht hnone := by
    have hpred : ∀ r : ℤ, -(r - 1) = 1 - r := fun r => by omega
    have hself : ∀ r : ℤ, -r = 1 - r - 1 := fun r => by omega
    simp only [hpred, ne_eq, neg_inj] at hs ht hnone
    rw [hself] at hs ht
    have h := z.separated (1 - t) (1 - s) (by omega) (Ne.symm ht) (Ne.symm hs) fun r hr hr' => by
      have heq := hnone (1 - r) (by omega) (by omega)
      rw [sub_sub_cancel, neg_sub] at heq
      exact heq.symm
    simp only [hpred, neg_sub_neg]
    rw [hself s, hself t]
    omega

theorem off_eq_of_forall (h : u ≤ v) (hnone : ∀ r, u < r → r ≤ v → ¬ z.IsTransition r) :
    z.off v = z.off u := by
  induction v, h using Int.leInduction with
  | base => rfl
  | succ v huv ih =>
      have hlast := hnone (v + 1) (by omega) le_rfl
      rw [IsTransition, not_not, add_sub_cancel_right] at hlast
      rw [← hlast]
      exact ih fun r hr hr' => hnone r hr (by omega)

/-- Between instants of different displacement lies a change, and a first one. -/
theorem exists_first_transition (h : u ≤ v) (hne : z.off u ≠ z.off v) :
    ∃ t, u < t ∧ t ≤ v ∧ z.IsTransition t ∧ z.off (t - 1) = z.off u := by
  have hsome : ∃ t, (u < t ∧ t ≤ v) ∧ z.IsTransition t := by
    by_contra hnone
    exact hne (off_eq_of_forall h fun r hr hr' ht => hnone ⟨r, ⟨hr, hr'⟩, ht⟩).symm
  obtain ⟨t, ⟨⟨hut, htv⟩, ht⟩, hleast⟩ := Int.exists_least_of_bdd
    (P := fun t => (u < t ∧ t ≤ v) ∧ z.IsTransition t) ⟨u, fun r hr => hr.1.1.le⟩ hsome
  refine ⟨t, hut, htv, ht, off_eq_of_forall (by omega) fun r hr hr' hchange => ?_⟩
  have := hleast r ⟨⟨hr, by omega⟩, hchange⟩
  omega

/-- After a change the clock runs on from it until the next change. That is further off than the
    change displaces, and from there on the clock shows more than either side of the change
    could. -/
theorem off_eq_or_far_after (ht : z.IsTransition t) (h : t ≤ v) :
    (z.off v = z.off t ∧ ∀ r, t < r → r ≤ v → ¬ z.IsTransition r) ∨
      t + |z.off t - z.off (t - 1)| < v ∧
        z.toLocal t + |z.off t - z.off (t - 1)| < z.toLocal v := by
  -- `s` is the last change up to `v`
  have hlast : ∃ s, t ≤ s ∧ s ≤ v ∧ z.IsTransition s ∧
      (∀ r, s < r → r ≤ v → ¬ z.IsTransition r) ∧
      (s = t ∨ t + |z.off t - z.off (t - 1)| < s ∧
        z.toLocal t + |z.off t - z.off (t - 1)| < z.toLocal s) := by
    induction v, h using Int.leInduction with
    | base => exact ⟨t, le_rfl, le_rfl, ht, fun r hr hr' => absurd hr (not_lt.mpr hr'), .inl rfl⟩
    | succ v htv ih =>
        obtain ⟨s, hts, hsv, hs, hnone, hfar⟩ := ih
        by_cases hv : z.IsTransition (v + 1)
        · refine ⟨v + 1, by omega, le_rfl, hv, fun r hr hr' => absurd hr (not_lt.mpr hr'), .inr ?_⟩
          have hsep := z.separated s (v + 1) (by omega) hs hv fun r hr hr' =>
            not_not.mp (hnone r hr (by omega))
          have hbefore : z.off (v + 1 - 1) = z.off s := by
            rw [add_sub_cancel_right]
            exact off_eq_of_forall hsv hnone
          rw [hbefore] at hsep
          have hdrop := neg_abs_le (z.off (v + 1) - z.off s)
          have hjump := abs_nonneg (z.off (v + 1) - z.off s)
          unfold toLocal at hfar ⊢
          rcases hfar with rfl | ⟨hfar, hmore⟩
          · constructor <;> linarith
          · have hjump' := abs_nonneg (z.off s - z.off (s - 1))
            constructor <;> linarith
        · refine ⟨s, hts, by omega, hs, fun r hr hr' => ?_, hfar⟩
          rcases hr'.lt_or_eq with hlt | rfl
          · exact hnone r hr (by omega)
          · exact hv
  obtain ⟨s, hts, hsv, hs, hnone, hfar⟩ := hlast
  have hoff := off_eq_of_forall hsv hnone
  rcases hfar with rfl | ⟨hfar, hmore⟩
  · exact .inl ⟨hoff, hnone⟩
  · right
    unfold toLocal at hmore ⊢
    rw [hoff]
    omega

/-- The same before a change, by running time backwards. -/
theorem off_eq_or_far_before (ht : z.IsTransition t) (h : u < t) :
    z.off u = z.off (t - 1) ∨ u < t - |z.off t - z.off (t - 1)| ∧
      z.toLocal u < t + z.off (t - 1) - |z.off t - z.off (t - 1)| := by
  have hpred : -(1 - t - 1) = t := by omega
  have hself : -(1 - t) = t - 1 := by omega
  have htrans : z.reflect.IsTransition (1 - t) := by
    show -z.off (-(1 - t - 1)) ≠ -z.off (-(1 - t))
    rw [hpred, hself, ne_eq, neg_inj]
    exact Ne.symm ht
  rcases off_eq_or_far_after htrans (v := -u) (by omega) with ⟨heq, -⟩ | hfar
  · left
    simp only [reflect, hself, neg_neg, neg_inj] at heq
    exact heq
  · right
    simp only [reflect, toLocal, hself, hpred, neg_neg, neg_sub_neg] at hfar ⊢
    omega

/-! ## The instants of a reading -/

/-- A seam is shown by no instant when the clock goes forward there, and otherwise by the two
    instants that undo the displacement before and the one after. -/
theorem toLocal_eq_iff_of_seam (h : z.Seam t l) :
    z.toLocal u = l ↔
      z.off t < z.off (t - 1) ∧ (u = l - z.off (t - 1) ∨ u = l - z.off t) := by
  obtain ⟨ht, hlo, hhi⟩ := h
  have habs := abs_cases (z.off t - z.off (t - 1))
  constructor
  · rintro rfl
    unfold toLocal at hlo hhi ⊢
    -- on either side of the transition the offset is the near one or the time is far
    rcases lt_or_ge u t with hbefore | hafter
    · rcases off_eq_or_far_before ht hbefore with heq | ⟨-, hless⟩
      · omega
      · unfold toLocal at hless
        omega
    · rcases off_eq_or_far_after ht hafter with ⟨heq, -⟩ | ⟨-, hmore⟩
      · omega
      · unfold toLocal at hmore
        omega
  · rintro ⟨hback, rfl | rfl⟩
    · rcases off_eq_or_far_before ht (u := l - z.off (t - 1)) (by omega) with heq | ⟨hfar, -⟩
      · unfold toLocal
        omega
      · omega
    · rcases off_eq_or_far_after ht (v := l - z.off t) (by omega) with ⟨heq, -⟩ | ⟨hfar, -⟩
      · unfold toLocal
        omega
      · omega

/-- Two instants that show the same reading have a seam between them. -/
theorem exists_seam_of_toLocal_eq (h : u < v) (hu : z.toLocal u = l) (hv : z.toLocal v = l) :
    ∃ t, z.Seam t l := by
  have hne : z.off u ≠ z.off v := by
    unfold toLocal at hu hv
    omega
  obtain ⟨t, hut, htv, ht, hbefore⟩ := exists_first_transition h.le hne
  have hlt : l < t + z.off (t - 1) := by
    unfold toLocal at hu
    omega
  have hle : t + z.off t ≤ l := by
    have habs := abs_nonneg (z.off t - z.off (t - 1))
    rcases off_eq_or_far_after ht htv with ⟨heq, -⟩ | ⟨-, hmore⟩
    · unfold toLocal at hv
      omega
    · unfold toLocal at hv hmore
      omega
  exact ⟨t, ht, by omega, by omega⟩

/-- The seams of two changes do not meet. -/
theorem Seam.unique (hs : z.Seam s l) (ht : z.Seam t l) : s = t := by
  have hdisjoint : ∀ {s t}, z.Seam s l → z.Seam t l → ¬ s < t := by
    intro s t hs ht hlt
    have habs := abs_cases (z.off s - z.off (s - 1))
    have hsmax := hs.2.2
    have htmin := ht.2.1
    rcases off_eq_or_far_after hs.1 hlt.le with ⟨-, hnone⟩ | ⟨hfar, hmore⟩
    · exact hnone t hlt le_rfl ht.1
    · unfold toLocal at hmore
      rcases off_eq_or_far_after hs.1 (v := t - 1) (by omega) with ⟨heq, -⟩ | ⟨-, hmore'⟩
      · omega
      · unfold toLocal at hmore'
        omega
  rcases lt_trichotomy s t with hlt | heq | hlt
  · exact absurd hlt (hdisjoint hs ht)
  · exact heq
  · exact absurd hlt (hdisjoint ht hs)

/-- A reading at no seam is shown. -/
theorem exists_toLocal_eq_of_not_seam (h : ∀ t, ¬ z.Seam t l) : ∃ u, z.toLocal u = l := by
  obtain ⟨u, hu, hmax⟩ : ∃ u, z.toLocal u ≤ l ∧ ∀ v, z.toLocal v ≤ l → v ≤ u := by
    apply Int.exists_greatest_of_bdd
    · refine ⟨l + z.bound, fun v hv => ?_⟩
      have := abs_lt.mp (z.abs_off_lt v)
      unfold toLocal at hv
      omega
    · refine ⟨l - z.bound, ?_⟩
      have := abs_lt.mp (z.abs_off_lt (l - z.bound))
      unfold toLocal
      omega
  have hnext : l < z.toLocal (u + 1) := by
    by_contra hle
    have := hmax (u + 1) (not_lt.mp hle)
    omega
  refine ⟨u, ?_⟩
  -- the reading is shown at `u`, or a change right after skips it
  by_cases hchange : z.IsTransition (u + 1)
  · have hseam := h (u + 1)
    simp only [Seam, hchange, true_and, add_sub_cancel_right, not_and, not_lt] at hseam
    unfold toLocal at hu hnext ⊢
    omega
  · rw [IsTransition, not_not, add_sub_cancel_right] at hchange
    unfold toLocal at hu hnext ⊢
    omega

end ZoneRule

/-! ## Reading a clock back -/

/-- A reader of the clock: at a seam it takes the displacement before the change (`fold` false) or
    after it (`fold` true), elsewhere the one in force. -/
structure ZoneReading (z : ZoneRule) where
  read : Bool → ℤ → ℤ
  read_seam : ∀ fold t l, z.Seam t l → read fold l = if fold then z.off t else z.off (t - 1)
  read_regular : ∀ fold u, (∀ t, ¬ z.Seam t (z.toLocal u)) → read fold (z.toLocal u) = z.off u

open Classical in
/-- Every rule can be read back. -/
theorem ZoneRule.exists_reading (z : ZoneRule) : Nonempty (ZoneReading z) := by
  refine ⟨{
    read := fun fold l =>
      if h : ∃ t, z.Seam t l then if fold then z.off h.choose else z.off (h.choose - 1)
      else z.off (ZoneRule.exists_toLocal_eq_of_not_seam (not_exists.mp h)).choose
    read_seam := fun fold t l ht => ?_
    read_regular := fun fold u hnone => ?_ }⟩
  · have h : ∃ t, z.Seam t l := ⟨t, ht⟩
    rw [dif_pos h, ZoneRule.Seam.unique h.choose_spec ht]
  · rw [dif_neg (not_exists.mpr hnone)]
    have hspec := (ZoneRule.exists_toLocal_eq_of_not_seam hnone).choose_spec
    generalize (ZoneRule.exists_toLocal_eq_of_not_seam hnone).choose = v at hspec
    -- the instant chosen is the one asked about: two of them would have a seam between them
    rcases lt_trichotomy v u with hlt | rfl | hlt
    · exact absurd (ZoneRule.exists_seam_of_toLocal_eq hlt hspec rfl) (not_exists.mpr hnone)
    · rfl
    · exact absurd (ZoneRule.exists_seam_of_toLocal_eq hlt rfl hspec) (not_exists.mpr hnone)

namespace ZoneReading

variable {z : ZoneRule} (r : ZoneReading z) {u l : ℤ}

/-- The instant a reader takes a reading for. -/
def instant (fold : Bool) (l : ℤ) : ℤ := l - r.read fold l

/-- A reader takes only displacements the clock has. -/
theorem exists_read_eq (fold : Bool) (l : ℤ) : ∃ u, r.read fold l = z.off u := by
  by_cases hseam : ∃ t, z.Seam t l
  · obtain ⟨t, ht⟩ := hseam
    rw [r.read_seam fold t l ht]
    cases fold
    · exact ⟨t - 1, rfl⟩
    · exact ⟨t, rfl⟩
  · obtain ⟨u, rfl⟩ := ZoneRule.exists_toLocal_eq_of_not_seam (not_exists.mp hseam)
    exact ⟨u, r.read_regular fold u (not_exists.mp hseam)⟩

theorem abs_read_lt (fold : Bool) (l : ℤ) : |r.read fold l| < z.bound := by
  obtain ⟨u, hu⟩ := r.exists_read_eq fold l
  rw [hu]
  exact z.abs_off_lt u

/-- No instant of a reading is missed. -/
theorem exists_fold_of_toLocal (h : z.toLocal u = l) : ∃ fold, u = r.instant fold l := by
  by_cases hseam : ∃ t, z.Seam t l
  · obtain ⟨t, ht⟩ := hseam
    obtain ⟨-, hu | hu⟩ := (ZoneRule.toLocal_eq_iff_of_seam ht).mp h
    · exact ⟨false, by rw [hu, instant, r.read_seam false t l ht]; rfl⟩
    · exact ⟨true, by rw [hu, instant, r.read_seam true t l ht]; rfl⟩
  · have hread := r.read_regular false u (by rw [h]; exact not_exists.mp hseam)
    refine ⟨false, ?_⟩
    rw [instant, ← h, hread, ZoneRule.toLocal]
    omega

/-- Of the two instants of a reading, `fold` false is the earlier. -/
theorem earlier_le_later (h : z.toLocal (r.instant false l) = l) :
    r.instant false l ≤ r.instant true l := by
  by_cases hseam : ∃ t, z.Seam t l
  · obtain ⟨t, ht⟩ := hseam
    obtain ⟨hback, -⟩ := (ZoneRule.toLocal_eq_iff_of_seam ht).mp h
    rw [instant, instant, r.read_seam false t l ht, r.read_seam true t l ht]
    simp only [if_true, Bool.false_eq_true, if_false]
    omega
  · have hread := fun fold =>
      r.read_regular fold (r.instant false l) (by rw [h]; exact not_exists.mp hseam)
    rw [h] at hread
    rw [instant, instant, hread true, hread false]

/-- The instants of a reading are those the reader takes it for and the clock confirms. -/
theorem toLocal_eq_iff :
    z.toLocal u = l ↔ ∃ fold, u = r.instant fold l ∧ z.toLocal (r.instant fold l) = l := by
  constructor
  · intro h
    obtain ⟨fold, rfl⟩ := r.exists_fold_of_toLocal h
    exact ⟨fold, rfl, h⟩
  · rintro ⟨fold, rfl, h⟩
    exact h

end ZoneReading

/-! ## A clock that changes once -/

/-- The displacement `before` up to the instant `t`, and `after` from then on. -/
def ZoneRule.once (t before after bound : ℤ) (hbefore : |before| < bound) (hafter : |after| < bound) :
    ZoneRule where
  off u := if u < t then before else after
  bound := bound
  abs_off_lt u := by split <;> assumption
  separated r s hrs hr hs _ := by
    -- both changes are the one at `t`
    have hone : ∀ u, (if u - 1 < t then before else after) ≠ (if u < t then before else after) →
        u = t := by
      intro u hu
      by_contra hne
      apply hu
      by_cases hlt : u < t
      · rw [if_pos hlt, if_pos (by omega)]
      · rw [if_neg hlt, if_neg (by omega)]
    exact absurd ((hone r hr).trans (hone s hs).symm) hrs.ne

/-- Its reader compares with the end of the seam for `fold` false and with its start for `fold`
    true. -/
def ZoneReading.once (t before after bound : ℤ) (hbefore : |before| < bound)
    (hafter : |after| < bound) : ZoneReading (ZoneRule.once t before after bound hbefore hafter) where
  read fold l := if l < t + (if fold then min before after else max before after) then before
    else after
  read_seam fold s l h := by
    obtain ⟨hchange, hlo, hhi⟩ := h
    simp only [ZoneRule.IsTransition, ZoneRule.once] at hchange hlo hhi ⊢
    obtain rfl : s = t := by
      by_contra hne
      apply hchange
      by_cases hlt : s < t
      · rw [if_pos hlt, if_pos (by omega)]
      · rw [if_neg hlt, if_neg (by omega)]
    have hpred : s - 1 < s := by omega
    simp only [hpred, if_true, lt_irrefl, if_false] at hlo hhi ⊢
    cases fold
    · simp [hhi]
    · simp [not_lt.mpr hlo]
  read_regular fold u h := by
    have hseam := h t
    simp only [ZoneRule.Seam, ZoneRule.IsTransition, ZoneRule.once, ZoneRule.toLocal] at hseam ⊢
    have hpred : t - 1 < t := by omega
    simp only [hpred, if_true, lt_irrefl, if_false, not_and, not_lt] at hseam
    by_cases hsame : before = after
    · subst hsame
      simp only [ite_self]
    · have hout := hseam hsame
      by_cases hlt : u < t
      · simp only [hlt, if_true] at hout ⊢
        cases fold <;> simp only [Bool.false_eq_true, if_false, if_true] <;> rw [if_pos (by omega)]
      · simp only [hlt, if_false] at hout ⊢
        cases fold <;> simp only [Bool.false_eq_true, if_false, if_true] <;> rw [if_neg (by omega)]

end AstroPassport
