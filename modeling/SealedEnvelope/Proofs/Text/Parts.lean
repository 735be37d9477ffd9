import SealedEnvelope.Text.Basic

/-!
# Parts of texts

Parts that do not contain a mark come back from a text that joins them with it, and a text is its parts
joined again. A text is not trimmed if neither end is a blank.
-/

namespace SealedEnvelope

namespace Text

theorem splitOn_cons (mark u : CodeUnit) (t : Text) :
    splitOn mark (u :: t) =
      if u = mark then [] :: splitOn mark t
      else match splitOn mark t with
        | [] => [[u]]
        | p :: ps => (u :: p) :: ps := rfl

theorem splitOn_of_not_mem {mark : CodeUnit} {t : Text} (h : mark ∉ t) : splitOn mark t = [t] := by
  induction t with
  | nil => rfl
  | cons u t ih =>
    rw [List.mem_cons, not_or] at h
    obtain ⟨hu, ht⟩ := h
    rw [splitOn_cons, if_neg (Ne.symm hu), ih ht]

theorem splitOn_append_mark {mark : CodeUnit} {a : Text} (h : mark ∉ a) (b : Text) :
    splitOn mark (a ++ mark :: b) = a :: splitOn mark b := by
  induction a with
  | nil => rw [List.nil_append, splitOn_cons, if_pos rfl]
  | cons u a ih =>
    rw [List.mem_cons, not_or] at h
    obtain ⟨hu, ha⟩ := h
    rw [List.cons_append, splitOn_cons, if_neg (Ne.symm hu), ih ha]

theorem join_cons_append (separator p q : Text) (ps : List Text) :
    join separator (p :: q :: ps) = p ++ separator ++ join separator (q :: ps) := by
  rw [join, join, List.intercalate_cons_cons]

theorem join_cons_cons (separator : Text) (u : CodeUnit) (p : Text) (ps : List Text) :
    join separator ((u :: p) :: ps) = u :: join separator (p :: ps) := by
  cases ps with
  | nil => rfl
  | cons q qs =>
    rw [join_cons_append, join_cons_append]
    rfl

theorem join_splitOn (mark : CodeUnit) (t : Text) : join [mark] (splitOn mark t) = t := by
  induction t with
  | nil => rfl
  | cons u t ih =>
    rw [splitOn_cons]
    cases hparts : splitOn mark t with
    | nil =>
      rw [hparts] at ih
      subst ih
      cases hparts
    | cons p ps =>
      rw [hparts] at ih
      split
      · rename_i hu
        rw [join_cons_append, ih, hu]
        rfl
      · rw [join_cons_cons, ih]

theorem splitOn_join {mark : CodeUnit} {parts : List Text} (hne : parts ≠ [])
    (h : ∀ p ∈ parts, mark ∉ p) : splitOn mark (join [mark] parts) = parts := by
  induction parts with
  | nil => exact absurd rfl hne
  | cons p ps ih =>
    obtain ⟨hp, hps⟩ := List.forall_mem_cons.mp h
    cases ps with
    | nil =>
      rw [join, List.intercalate_singleton, splitOn_of_not_mem hp]
    | cons q qs =>
      rw [join_cons_append, List.append_assoc, List.singleton_append, splitOn_append_mark hp,
        ih (List.cons_ne_nil q qs) hps]

theorem not_mem_of_mem_splitOn {mark : CodeUnit} {t part : Text} (h : part ∈ splitOn mark t) :
    mark ∉ part := by
  induction t generalizing part with
  | nil =>
    rw [List.mem_singleton.mp h]
    exact List.not_mem_nil
  | cons u t ih =>
    rw [splitOn_cons] at h
    split at h
    · rcases List.mem_cons.mp h with rfl | h
      · exact List.not_mem_nil
      · exact ih h
    · rename_i hu
      split at h
      · rw [List.mem_singleton.mp h, List.mem_singleton]
        exact Ne.symm hu
      · rename_i p ps hparts
        rcases List.mem_cons.mp h with rfl | h
        · have hp : mark ∉ p := ih (hparts ▸ List.mem_cons_self)
          exact List.not_mem_cons_of_ne_of_not_mem (Ne.symm hu) hp
        · exact ih (hparts ▸ List.mem_cons_of_mem p h)

/-- There is one part more than there are marks. -/
theorem length_splitOn (mark : CodeUnit) (t : Text) :
    (splitOn mark t).length = t.count mark + 1 := by
  induction t with
  | nil => rfl
  | cons u t ih =>
    rw [splitOn_cons]
    split
    · rename_i hu
      rw [hu, List.count_cons_self, List.length_cons, ih]
    · rename_i hu
      rw [List.count_cons_of_ne hu, ← ih]
      cases hparts : splitOn mark t with
      | nil => simp [hparts] at ih
      | cons p ps => rfl

theorem dropWhile_isBlank {t : Text} (h : ∀ u, t.head? = some u → isBlank u = false) :
    t.dropWhile isBlank = t := by
  cases t with
  | nil => rfl
  | cons u t => rw [List.dropWhile_cons_of_neg (by simp [h u rfl])]

theorem trim_eq_self {t : Text} (hfirst : ∀ u, t.head? = some u → isBlank u = false)
    (hlast : ∀ u, t.getLast? = some u → isBlank u = false) : t.trim = t := by
  have hreverse : t.reverse.dropWhile isBlank = t.reverse :=
    dropWhile_isBlank fun u hu => hlast u (by rwa [List.head?_reverse] at hu)
  rw [trim, dropWhile_isBlank hfirst, hreverse, List.reverse_reverse]

theorem count_dropWhile_isBlank {mark : CodeUnit} (hmark : isBlank mark = false) (t : Text) :
    (t.dropWhile isBlank).count mark = t.count mark := by
  induction t with
  | nil => rfl
  | cons u t ih =>
    rw [List.dropWhile_cons]
    split
    · rename_i hu
      have hne : u ≠ mark := by
        rintro rfl
        exact Bool.false_ne_true (hmark.symm.trans hu)
      rw [ih, List.count_cons_of_ne hne]
    · rfl

/-- A mark that is no blank is not trimmed, so no part is lost. -/
theorem length_splitOn_trim {mark : CodeUnit} (hmark : isBlank mark = false) (t : Text) :
    (splitOn mark t.trim).length = (splitOn mark t).length := by
  rw [length_splitOn, length_splitOn, trim, List.count_reverse, count_dropWhile_isBlank hmark,
    List.count_reverse, count_dropWhile_isBlank hmark]

end Text
end SealedEnvelope
