import Mathlib.Algebra.Order.Monoid.Defs
import Mathlib.Order.Interval.Set.Defs
import Mathlib.Tactic.GCongr

/-!
# Coverage of a span of time

Marks cover a span with a gap if no moment of the span comes later than the gap after
a mark. A covered span grows as long as the next mark comes in time. If every mark
renews a lease that is longer than the gap, the lease lasts through a covered span.
-/
namespace Beachhead.Coverage

variable {τ : Type*} [AddCommMonoid τ] [LinearOrder τ]
  {marks marks' : Set τ} {gap gap' a b c p : τ}

def Covers (marks : Set τ) (gap a b : τ) : Prop :=
  ∀ t, a ≤ t → t ≤ b → ∃ p ∈ marks, p ≤ t ∧ t ≤ p + gap

theorem Covers.mono [IsOrderedAddMonoid τ] (h : Covers marks gap a b) (hmarks : marks ⊆ marks')
    (hgap : gap ≤ gap') : Covers marks' gap' a b := by
  intro t ha hb
  obtain ⟨p, hp, hpt, htp⟩ := h t ha hb
  exact ⟨p, hmarks hp, hpt, htp.trans (by gcongr)⟩

/-- The span that one mark covers. -/
theorem covers_of_mark (hp : p ∈ marks) (hpa : p ≤ a) (hb : b ≤ p + gap) :
    Covers marks gap a b := fun _ ha htb => ⟨p, hp, hpa.trans ha, htb.trans hb⟩

theorem Covers.append (h : Covers marks gap a b) (h' : Covers marks gap b c) :
    Covers marks gap a c := by
  intro t ha hc
  obtain hb | hb := le_total t b
  · exact h t ha hb
  · exact h' t hb hc

/-- The moments of a lease after it is renewed at `s` for the time `d`. -/
def renew (lease : Set τ) (s d : τ) : Set τ := {t | t ∈ lease ∧ t < s} ∪ Set.Ico s (s + d)

variable {lease : Set τ} {s d : τ}

theorem Ico_subset_renew_self : Set.Ico s (s + d) ⊆ renew lease s d := fun _ => .inr

/-- A renewal for the same time does not shorten a lease. -/
theorem Ico_subset_renew [IsOrderedAddMonoid τ] (h : Set.Ico a (a + d) ⊆ lease) (ha : a ≤ s) :
    Set.Ico a (a + d) ⊆ renew lease s d := by
  rintro t ⟨hat, htd⟩
  obtain hts | hst := lt_or_ge t s
  · exact .inl ⟨h ⟨hat, htd⟩, hts⟩
  · exact .inr ⟨hst, htd.trans_le (by gcongr)⟩

/-- A lease that every mark renews lasts from the start of a covered span until it runs
out after the mark at the end. -/
theorem Covers.held [IsOrderedCancelAddMonoid τ] (h : Covers marks gap a b) (hgap : gap < d)
    (hb : b ∈ marks) (hlease : ∀ p ∈ marks, Set.Ico p (p + d) ⊆ lease) :
    Set.Ico a (b + d) ⊆ lease := by
  rintro t ⟨hat, htd⟩
  obtain htb | hbt := le_total t b
  · obtain ⟨p, hp, hpt, htp⟩ := h t hat htb
    exact hlease p hp ⟨hpt, htp.trans_lt (by gcongr)⟩
  · exact hlease b hb ⟨hbt, htd⟩

end Beachhead.Coverage
