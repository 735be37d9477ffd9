import SealedEnvelope.Proofs.Json.NormalForm

/-!
# What is read is well-formed

In every value that a text spells the keys of an object differ and the numbers are doubles. The reader
keeps this of all that it has read so far: one unit more, and then a whole text.
-/

namespace SealedEnvelope

namespace Members

variable {α : Type}

theorem map_fst_put (ms : List (Text × α)) (key : Text) (v : α) :
    (put ms key v).map Prod.fst =
      if key ∈ ms.map Prod.fst then ms.map Prod.fst else ms.map Prod.fst ++ [key] := by
  induction ms with
  | nil => rfl
  | cons m ms ih =>
    obtain ⟨k, w⟩ := m
    by_cases hk : k = key
    · simp [put, hk]
    · simp only [put, if_neg hk, List.map_cons, ih, List.mem_cons, Ne.symm hk, false_or]
      split <;> rfl

theorem mem_put {ms : List (Text × α)} {key : Text} {v : α} {m : Text × α}
    (h : m ∈ put ms key v) : m ∈ ms ∨ m = (key, v) := by
  induction ms with
  | nil => exact .inr (List.mem_singleton.mp h)
  | cons n ms ih =>
    obtain ⟨k, w⟩ := n
    simp only [put] at h
    split at h
    · rename_i hk
      rcases List.mem_cons.mp h with rfl | h
      · exact .inr (by rw [hk])
      · exact .inl (List.mem_cons_of_mem _ h)
    · rcases List.mem_cons.mp h with rfl | h
      · exact .inl List.mem_cons_self
      · exact (ih h).imp_left (List.mem_cons_of_mem _)

theorem Distinct.put {ms : List (Text × α)} (h : Distinct ms) (key : Text) (v : α) :
    Distinct (put ms key v) := by
  rw [Distinct, map_fst_put]
  split
  · exact h
  · rename_i hnew
    rw [List.nodup_append]
    refine ⟨h, List.pairwise_singleton _ _, ?_⟩
    rintro k hk _ hkey rfl
    exact hnew (List.mem_singleton.mp hkey ▸ hk)

/-- Writing members one after the other keeps their keys different, and adds only what is written. -/
theorem foldl_put_spec (ms done : List (Text × α)) (h : Distinct done) :
    Distinct (ms.foldl (fun done m => Members.put done m.1 m.2) done) ∧
      ∀ m ∈ ms.foldl (fun done m => Members.put done m.1 m.2) done, m ∈ done ∨ m ∈ ms := by
  induction ms generalizing done with
  | nil => exact ⟨h, fun m hm => .inl hm⟩
  | cons n ms ih =>
    obtain ⟨hdistinct, hmem⟩ := ih (Members.put done n.1 n.2) (h.put n.1 n.2)
    refine ⟨hdistinct, fun m hm => ?_⟩
    rcases hmem m hm with hput | hrest
    · rcases mem_put hput with hdone | rfl
      · exact .inl hdone
      · exact .inr List.mem_cons_self
    · exact .inr (List.mem_cons_of_mem n hrest)

theorem distinct_ofWritten (ms : List (Text × α)) : Distinct (ofWritten ms) :=
  (foldl_put_spec ms [] List.nodup_nil).1.perm (arranged_perm _)

theorem mem_of_mem_ofWritten {ms : List (Text × α)} {m : Text × α} (h : m ∈ ofWritten ms) :
    m ∈ ms := by
  have hmem := (foldl_put_spec ms [] List.nodup_nil).2 m ((arranged_perm _).mem_iff.mp h)
  exact hmem.resolve_left List.not_mem_nil

end Members

namespace Json

theorem wellFormedItems_iff (items : List Json) :
    WellFormedItems items ↔ ∀ v ∈ items, v.WellFormed := by
  induction items with
  | nil => exact ⟨fun _ v hv => absurd hv List.not_mem_nil, fun _ => trivial⟩
  | cons v rest ih =>
    rw [List.forall_mem_cons, ← ih]
    rfl

theorem wellFormedMembers_iff (ms : List (Text × Json)) :
    WellFormedMembers ms ↔ ∀ m ∈ ms, m.2.WellFormed := by
  induction ms with
  | nil => exact ⟨fun _ m hm => absurd hm List.not_mem_nil, fun _ => trivial⟩
  | cons m rest ih =>
    rw [List.forall_mem_cons, ← ih]
    rfl

theorem wellFormed_ofWritten {ms : List (Text × Json)} (h : ∀ m ∈ ms, m.2.WellFormed) :
    (Json.obj (Members.ofWritten ms)).WellFormed :=
  ⟨Members.distinct_ofWritten ms,
    (wellFormedMembers_iff _).mpr fun m hm => h m (Members.mem_of_mem_ofWritten hm)⟩

theorem Numeral.isBinary64_of_value? {n : Numeral} {d : Double} (h : n.value? = some d) :
    d.IsBinary64 := by
  simp only [Numeral.value?] at h
  split at h
  · exact Double.isBinary64_of_ofDecimal (Option.some.inj h)
  · exact Double.isBinary64_of_ofDecimal (Option.some.inj h)
  · exact Double.isBinary64_of_ofDecimal (Option.some.inj h)
  · exact Double.isBinary64_of_ofDecimal (Option.some.inj h)
  · cases h

/-! ### What the reader holds -/

/-- What has been read into an open array or object is well-formed. -/
def Frame.WellFormed : Frame → Prop
  | .items done => ∀ v ∈ done, v.WellFormed
  | .members done _ => ∀ m ∈ done, m.2.WellFormed

/-- The value that a reader is about to give is well-formed. -/
def Mode.WellFormed : Mode → Prop
  | .word _ v => v.WellFormed
  | .finished v => v.WellFormed
  | _ => True

namespace Reading

structure WellFormed (r : Reading) : Prop where
  stack : ∀ f ∈ r.stack, f.WellFormed
  mode : r.mode.WellFormed

theorem wellFormed_refuse : refuse.WellFormed :=
  ⟨fun _ h => absurd h List.not_mem_nil, trivial⟩

variable {stack : List Frame} {v : Json} {u : CodeUnit}

theorem wellFormed_complete (hv : v.WellFormed) (hstack : ∀ f ∈ stack, f.WellFormed) :
    (complete v stack).WellFormed := by
  cases stack with
  | nil => exact ⟨hstack, hv⟩
  | cons frame rest =>
    obtain ⟨hframe, hrest⟩ := List.forall_mem_cons.mp hstack
    cases frame with
    | items done =>
      exact ⟨List.forall_mem_cons.mpr ⟨List.forall_mem_cons.mpr ⟨hv, hframe⟩, hrest⟩, trivial⟩
    | members done key =>
      exact ⟨List.forall_mem_cons.mpr ⟨List.forall_mem_cons.mpr ⟨hv, hframe⟩, hrest⟩, trivial⟩

theorem wellFormed_completeString (hstack : ∀ f ∈ stack, f.WellFormed) (isKey : Bool) (t : Text) :
    (completeString stack isKey t).WellFormed := by
  simp only [completeString]
  split
  · split
    · obtain ⟨hframe, hrest⟩ := List.forall_mem_cons.mp hstack
      exact ⟨List.forall_mem_cons.mpr ⟨hframe, hrest⟩, trivial⟩
    · exact wellFormed_refuse
  · exact wellFormed_complete trivial hstack

theorem wellFormed_beginValue (hstack : ∀ f ∈ stack, f.WellFormed) (u : CodeUnit) :
    (beginValue stack u).WellFormed := by
  have hitems : ∀ f ∈ Frame.items [] :: stack, f.WellFormed :=
    List.forall_mem_cons.mpr ⟨fun _ h => absurd h List.not_mem_nil, hstack⟩
  have hmembers : ∀ f ∈ Frame.members [] [] :: stack, f.WellFormed :=
    List.forall_mem_cons.mpr ⟨fun _ h => absurd h List.not_mem_nil, hstack⟩
  simp only [beginValue]
  repeat' split
  all_goals first
    | exact wellFormed_refuse
    | exact ⟨hitems, trivial⟩
    | exact ⟨hmembers, trivial⟩
    | exact ⟨hstack, trivial⟩

theorem wellFormed_closeArray (hstack : ∀ f ∈ stack, f.WellFormed) :
    (closeArray stack).WellFormed := by
  simp only [closeArray]
  split
  · obtain ⟨hframe, hrest⟩ := List.forall_mem_cons.mp hstack
    refine wellFormed_complete ((wellFormedItems_iff _).mpr fun v hv => ?_) hrest
    exact hframe v (List.mem_reverse.mp hv)
  · exact wellFormed_refuse

theorem wellFormed_closeObject (hstack : ∀ f ∈ stack, f.WellFormed) :
    (closeObject stack).WellFormed := by
  simp only [closeObject]
  split
  · obtain ⟨hframe, hrest⟩ := List.forall_mem_cons.mp hstack
    refine wellFormed_complete (wellFormed_ofWritten fun m hm => ?_) hrest
    exact hframe m (List.mem_reverse.mp hm)
  · exact wellFormed_refuse

theorem WellFormed.afterValue {r : Reading} (h : r.WellFormed) (u : CodeUnit) :
    (r.afterValue u).WellFormed := by
  simp only [Reading.afterValue]
  split
  · exact h
  · split
    · rename_i hstack
      split
      · exact ⟨hstack ▸ h.stack, trivial⟩
      · split
        · exact wellFormed_closeArray h.stack
        · exact wellFormed_refuse
    · rename_i hstack
      split
      · exact ⟨hstack ▸ h.stack, trivial⟩
      · split
        · exact wellFormed_closeObject h.stack
        · exact wellFormed_refuse
    · exact wellFormed_refuse

theorem WellFormed.next {r : Reading} (h : r.WellFormed) (u : CodeUnit) : (r.next u).WellFormed := by
  obtain ⟨stack, mode⟩ := r
  have hstack : ∀ f ∈ stack, f.WellFormed := h.stack
  have hmode : mode.WellFormed := h.mode
  have hkeep : ∀ mode' : Mode, mode'.WellFormed → WellFormed ⟨stack, mode'⟩ := by
    intro mode' hmode'
    exact ⟨hstack, hmode'⟩
  cases mode with
  | value =>
    simp only [Reading.next]
    split
    · exact h
    · apply wellFormed_beginValue hstack
  | firstItem =>
    simp only [Reading.next]
    split
    · exact h
    · split
      · exact wellFormed_closeArray hstack
      · apply wellFormed_beginValue hstack
  | firstKey =>
    simp only [Reading.next]
    split
    · exact h
    · split
      · exact wellFormed_closeObject hstack
      · split
        · exact hkeep _ trivial
        · exact wellFormed_refuse
  | key =>
    simp only [Reading.next]
    split
    · exact h
    · split
      · exact hkeep _ trivial
      · exact wellFormed_refuse
  | colon =>
    simp only [Reading.next]
    split
    · exact h
    · split
      · exact hkeep _ trivial
      · exact wellFormed_refuse
  | after => exact h.afterValue u
  | finished v => exact h.afterValue u
  | string isKey done =>
    simp only [Reading.next]
    split
    · apply wellFormed_completeString hstack
    · split
      · exact hkeep _ trivial
      · split
        · exact wellFormed_refuse
        · exact hkeep _ trivial
  | escape isKey done =>
    simp only [Reading.next]
    split
    · exact hkeep _ trivial
    · split
      · exact hkeep _ trivial
      · exact wellFormed_refuse
  | code isKey done digits value =>
    simp only [Reading.next]
    split
    · split
      · exact hkeep _ trivial
      · exact hkeep _ trivial
    · exact wellFormed_refuse
  | word rest v =>
    simp only [Reading.next]
    split
    · exact wellFormed_refuse
    · split
      · exact wellFormed_refuse
      · split
        · exact wellFormed_complete hmode hstack
        · exact hkeep _ hmode
  | number n =>
    simp only [Reading.next]
    split
    · exact hkeep _ trivial
    · split
      · rename_i d hd
        have hv : (Json.num d).WellFormed := Numeral.isBinary64_of_value? hd
        exact (wellFormed_complete hv hstack).afterValue u
      · exact wellFormed_refuse
  | refused => exact h

end Reading

theorem wellFormed_of_parse? {t : Text} {v : Json} (h : parse? t = some v) : v.WellFormed := by
  have hrun : ∀ (t : Text) (r : Reading), r.WellFormed → (t.foldl Reading.next r).WellFormed := by
    intro t
    induction t with
    | nil => exact fun _ hr => hr
    | cons u t ih => exact fun r hr => ih _ (hr.next u)
  have hend := hrun t ⟨[], .value⟩ ⟨fun _ h => absurd h List.not_mem_nil, trivial⟩
  simp only [parse?, Reading.result?] at h
  split at h
  · rename_i hmode
    obtain rfl := Option.some.inj h
    have hfinished := hend.mode
    rw [hmode] at hfinished
    exact hfinished
  · obtain ⟨d, hd, rfl⟩ := Option.map_eq_some_iff.mp h
    exact Numeral.isBinary64_of_value? hd
  · cases h

end Json
end SealedEnvelope
