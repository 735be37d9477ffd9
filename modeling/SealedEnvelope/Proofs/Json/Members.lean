import SealedEnvelope.Json.Normal

/-!
# Members of objects

What reading, sorting and arranging do to the members of an object: no member is lost or repeated, and
arranging a second time changes nothing. So members with different keys that are arranged are what
reading makes of them.
-/

namespace SealedEnvelope

namespace Members

variable {α : Type}

def Distinct (ms : List (Text × α)) : Prop := (ms.map Prod.fst).Nodup

instance (ms : List (Text × α)) : Decidable (Distinct ms) :=
  inferInstanceAs (Decidable (ms.map Prod.fst).Nodup)

theorem Distinct.perm {ms ns : List (Text × α)} (h : Distinct ms) (hperm : ns.Perm ms) :
    Distinct ns :=
  ((hperm.map Prod.fst).nodup_iff).mpr h

theorem Distinct.filter {ms : List (Text × α)} (h : Distinct ms) (p : Text × α → Bool) :
    Distinct (ms.filter p) :=
  (List.filter_sublist.map Prod.fst).nodup h

/-! ### Members as written -/

theorem put_eq_append {ms : List (Text × α)} {key : Text} (h : key ∉ ms.map Prod.fst) (v : α) :
    put ms key v = ms ++ [(key, v)] := by
  induction ms with
  | nil => rfl
  | cons m ms ih =>
    obtain ⟨k, w⟩ := m
    rw [List.map_cons, List.mem_cons, not_or] at h
    obtain ⟨hk, hrest⟩ := h
    unfold put
    rw [if_neg (Ne.symm hk), ih hrest, List.cons_append]

theorem foldl_put (ms done : List (Text × α)) (h : Distinct (done ++ ms)) :
    ms.foldl (fun done m => put done m.1 m.2) done = done ++ ms := by
  induction ms generalizing done with
  | nil => rw [List.foldl_nil, List.append_nil]
  | cons m ms ih =>
    have hnew : m.1 ∉ done.map Prod.fst := by
      unfold Distinct at h
      rw [List.map_append, List.map_cons, List.nodup_append] at h
      exact fun hmem => h.2.2 _ hmem _ List.mem_cons_self rfl
    have hassoc : done ++ [m] ++ ms = done ++ m :: ms := List.append_assoc done [m] ms
    rw [List.foldl_cons, put_eq_append hnew, ih (done ++ [m]) (hassoc ▸ h), hassoc]

/-! ### Arranged members -/

def isIndex (m : Text × α) : Bool := (indexKey? m.1).isSome

def indexLe (a b : Text × α) : Bool := decide ((indexKey? a.1).getD 0 ≤ (indexKey? b.1).getD 0)

theorem arranged_eq (ms : List (Text × α)) :
    arranged ms = (ms.filter isIndex).mergeSort indexLe ++ ms.filter fun m => !isIndex m := rfl

theorem arranged_perm (ms : List (Text × α)) : (arranged ms).Perm ms := by
  rw [arranged_eq]
  refine ((List.mergeSort_perm _ _).append_right _).trans ?_
  exact List.filter_append_perm isIndex ms

theorem pairwise_indices (ms : List (Text × α)) :
    (ms.mergeSort indexLe).Pairwise fun a b => indexLe a b = true := by
  refine List.pairwise_mergeSort ?_ ?_ ms
  · intro a b c hab hbc
    rw [indexLe, decide_eq_true_eq] at hab hbc ⊢
    exact Nat.le_trans hab hbc
  · intro a b
    rw [Bool.or_eq_true, indexLe, indexLe, decide_eq_true_eq, decide_eq_true_eq]
    exact Nat.le_total _ _

theorem arranged_arranged (ms : List (Text × α)) : arranged (arranged ms) = arranged ms := by
  have hindices : ∀ m ∈ (ms.filter isIndex).mergeSort indexLe, isIndex m = true := fun m hm =>
    (List.mem_filter.mp (List.mem_mergeSort.mp hm)).2
  have hothers : ∀ m ∈ ms.filter fun m => !isIndex m, isIndex m = false := fun m hm =>
    Bool.not_eq_true' _ ▸ (List.mem_filter.mp hm).2
  have hleft : (arranged ms).filter isIndex = (ms.filter isIndex).mergeSort indexLe := by
    have hnone : (ms.filter fun m => !isIndex m).filter isIndex = [] := by
      rw [List.filter_eq_nil_iff]
      intro m hm
      rw [hothers m hm]
      exact Bool.false_ne_true
    rw [arranged_eq, List.filter_append, List.filter_eq_self.mpr hindices, hnone, List.append_nil]
  have hright : ((arranged ms).filter fun m => !isIndex m) = ms.filter fun m => !isIndex m := by
    have hnone : ((ms.filter isIndex).mergeSort indexLe).filter (fun m => !isIndex m) = [] := by
      rw [List.filter_eq_nil_iff]
      intro m hm
      rw [hindices m hm]
      exact Bool.false_ne_true
    rw [arranged_eq, List.filter_append, hnone, List.nil_append, List.filter_filter]
    simp only [Bool.and_self]
  rw [arranged_eq (arranged ms), hleft, hright,
    List.mergeSort_of_pairwise (pairwise_indices _), ← arranged_eq]

/-- Arranged members with different keys are what reading makes of them. -/
theorem ofWritten_arranged {ms : List (Text × α)} (h : Distinct ms) :
    ofWritten (arranged ms) = arranged ms := by
  have hput := foldl_put (arranged ms) [] (h.perm (arranged_perm ms))
  unfold ofWritten
  rw [hput, List.nil_append, arranged_arranged]

/-! ### Members in normal order -/

theorem ascending_perm (ms : List (Text × α)) : (ascending ms).Perm ms := List.mergeSort_perm _ _

theorem normal_perm (ms : List (Text × α)) :
    (normal ms).Perm (ms.filter fun m => m.1 ≠ reservedKey) :=
  (arranged_perm _).trans (ascending_perm _)

theorem mem_of_mem_normal {ms : List (Text × α)} {m : Text × α} (h : m ∈ normal ms) : m ∈ ms :=
  (List.mem_filter.mp ((normal_perm ms).mem_iff.mp h)).1

theorem hasKey_iff {ms : List (Text × α)} {key : Text} :
    hasKey ms key = true ↔ key ∈ ms.map Prod.fst := by
  unfold hasKey
  rw [List.any_eq_true, List.mem_map]
  simp only [decide_eq_true_eq]

/-- Only the reserved key is lost in normal order. -/
theorem hasKey_normal (ms : List (Text × α)) {key : Text} (hkey : key ≠ reservedKey) :
    hasKey (normal ms) key = hasKey ms key := by
  rw [Bool.eq_iff_iff, hasKey_iff, hasKey_iff, ((normal_perm ms).map Prod.fst).mem_iff]
  constructor
  · intro h
    obtain ⟨m, hm, rfl⟩ := List.mem_map.mp h
    exact List.mem_map_of_mem (List.mem_filter.mp hm).1
  · intro h
    obtain ⟨m, hm, rfl⟩ := List.mem_map.mp h
    exact List.mem_map_of_mem (List.mem_filter.mpr ⟨hm, decide_eq_true hkey⟩)

theorem ofWritten_normal {ms : List (Text × α)} (h : Distinct ms) :
    ofWritten (normal ms) = normal ms :=
  ofWritten_arranged ((h.filter _).perm (ascending_perm _))

theorem normal_filter_reserved (ms : List (Text × α)) :
    normal (ms.filter fun m => m.1 ≠ reservedKey) = normal ms := by
  unfold normal
  rw [List.filter_filter]
  simp only [Bool.and_self]

/-! ### Looking a key up -/

variable {ms ns : List (Text × α)}

theorem get?_cons (k : Text) (v : α) (ms : List (Text × α)) (key : Text) :
    get? ((k, v) :: ms) key = if k = key then some v else get? ms key := by
  rw [get?, List.find?_cons]
  by_cases h : k = key
  · simp [h]
  · simp [h, get?]

theorem get?_append (front back : List (Text × α)) (key : Text) :
    get? (front ++ back) key = (get? front key).or (get? back key) := by
  rw [get?, List.find?_append, Option.map_or]
  rfl

theorem get?_eq_some (h : Distinct ms) {key : Text} {v : α} :
    get? ms key = some v ↔ (key, v) ∈ ms := by
  induction ms with
  | nil => exact ⟨nofun, fun hmem => absurd hmem List.not_mem_nil⟩
  | cons m rest ih =>
    obtain ⟨k, w⟩ := m
    obtain ⟨hnew, hrest⟩ := List.nodup_cons.mp h
    rw [get?_cons, List.mem_cons, Prod.mk.injEq, ← ih hrest]
    by_cases hk : k = key
    · subst hk
      have hnone : get? rest k ≠ some v := fun hsome =>
        hnew (List.mem_map.mpr ⟨(k, v), (ih hrest).mp hsome, rfl⟩)
      simp [hnone, eq_comm]
    · simp [hk, Ne.symm hk]

theorem get?_of_perm (h : Distinct ms) (hperm : ms.Perm ns) (key : Text) :
    get? ms key = get? ns key := by
  ext v
  rw [get?_eq_some h, get?_eq_some (h.perm hperm.symm), hperm.mem_iff]

theorem hasKey_eq_isSome (ms : List (Text × α)) (key : Text) :
    hasKey ms key = (get? ms key).isSome := by
  rw [hasKey, get?, Option.isSome_map, Bool.eq_iff_iff, List.any_eq_true, List.find?_isSome]

end Members
end SealedEnvelope
