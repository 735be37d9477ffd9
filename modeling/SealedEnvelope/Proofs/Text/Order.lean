import SealedEnvelope.Text.Basic

/-!
# The order of texts

Texts are in lexicographic order by their units. The order is total, so texts in ascending order have one
order: sorting forgets the order in which they were given, and nothing else.
-/

namespace SealedEnvelope

namespace Text

theorem le_iff : ∀ {s t : Text}, le s t = true ↔ s ≤ t
  | [], t => by simp [le]
  | u :: s, [] => by simp [le]
  | u :: s, v :: t => by
    rw [List.cons_le_cons_iff, ← le_iff]
    simp [le]

theorem pairwise_mergeSort_le {α : Type} (key : α → Text) (xs : List α) :
    (xs.mergeSort fun a b => le (key a) (key b)).Pairwise fun a b => key a ≤ key b := by
  have hsorted : (xs.mergeSort fun a b => le (key a) (key b)).Pairwise fun a b =>
      le (key a) (key b) = true := by
    apply List.pairwise_mergeSort
    · intro a b c hab hbc
      rw [le_iff] at hab hbc ⊢
      exact List.le_trans hab hbc
    · intro a b
      rw [Bool.or_eq_true, le_iff, le_iff]
      exact List.le_total (key a) (key b)
  exact hsorted.imp le_iff.mp

theorem sorted_perm (ts : List Text) : (sorted ts).Perm ts := List.mergeSort_perm ts le

theorem pairwise_sorted (ts : List Text) : (sorted ts).Pairwise fun s t => s ≤ t :=
  pairwise_mergeSort_le id ts

/-- Sorting forgets the order of texts and nothing else. -/
theorem sorted_eq_sorted_iff {ts us : List Text} : sorted ts = sorted us ↔ ts.Perm us := by
  constructor
  · intro h
    exact (sorted_perm ts).symm.trans (h ▸ sorted_perm us)
  · intro h
    have hperm : (sorted ts).Perm (sorted us) :=
      (sorted_perm ts).trans (h.trans (sorted_perm us).symm)
    exact hperm.eq_of_pairwise (fun _ _ _ _ hab hba => List.le_antisymm hab hba)
      (pairwise_sorted ts) (pairwise_sorted us)

end Text
end SealedEnvelope
