import SealedEnvelope.Proofs.Json.Keys
import SealedEnvelope.Proofs.Json.Values

/-!
# Values up to the order of members

Values that differ in nothing but the order of members have one normal form. The normal form of a value
is a reordering of what is left of it once it has been tidied, and in it the keys of every object are in
order.
-/

namespace SealedEnvelope

namespace Json

/-- Equality up to the order in which the members of objects stand, at any depth. -/
inductive Reordered : Json → Json → Prop
  | refl (v : Json) : Reordered v v
  | symm {v w : Json} (h : Reordered v w) : Reordered w v
  | trans {u v w : Json} (h : Reordered u v) (h' : Reordered v w) : Reordered u w
  | members {ms ns : List (Text × Json)} (h : ms.Perm ns) : Reordered (.obj ms) (.obj ns)
  | item (front back : List Json) {v w : Json} (h : Reordered v w) :
      Reordered (.arr (front ++ v :: back)) (.arr (front ++ w :: back))
  | member (front back : List (Text × Json)) (key : Text) {v w : Json} (h : Reordered v w) :
      Reordered (.obj (front ++ (key, v) :: back)) (.obj (front ++ (key, w) :: back))

mutual

/-- A value without reserved members, numbers that are not finite and negative zeros. Nothing changes
its place. -/
def tidied : Json → Json
  | .num (.finite negative units) => .num (.finite (negative && units != 0) units)
  | .num _ => .null
  | .arr items => .arr (tidiedItems items)
  | .obj members => .obj (tidiedMembers members)
  | v => v

def tidiedItems : List Json → List Json
  | [] => []
  | v :: rest => tidied v :: tidiedItems rest

def tidiedMembers : List (Text × Json) → List (Text × Json)
  | [] => []
  | (key, v) :: rest =>
    if key = reservedKey then tidiedMembers rest else (key, tidied v) :: tidiedMembers rest

end

mutual

/-- The keys of every object are in order. -/
def Ordered : Json → Prop
  | .arr items => OrderedItems items
  | .obj members => Members.InOrder members ∧ OrderedMembers members
  | _ => True

def OrderedItems : List Json → Prop
  | [] => True
  | v :: rest => Ordered v ∧ OrderedItems rest

def OrderedMembers : List (Text × Json) → Prop
  | [] => True
  | (_, v) :: rest => Ordered v ∧ OrderedMembers rest

end

theorem normalItems_eq_map (items : List Json) : normalItems items = items.map normal := by
  induction items with
  | nil => rfl
  | cons v rest ih => exact congrArg (normal v :: ·) ih

theorem normalMembers_eq_map (ms : List (Text × Json)) :
    normalMembers ms = ms.map fun m => (m.1, m.2.normal) := by
  induction ms with
  | nil => rfl
  | cons m rest ih => exact congrArg ((m.1, m.2.normal) :: ·) ih

/-! ### Reordered values have one normal form -/

theorem Reordered.wellFormed_iff {v w : Json} (h : v.Reordered w) :
    v.WellFormed ↔ w.WellFormed := by
  induction h with
  | refl v => exact Iff.rfl
  | symm _ ih => exact ih.symm
  | trans _ _ ih ih' => exact ih.trans ih'
  | @members ms ns h =>
    change (Members.Distinct ms ∧ WellFormedMembers ms) ↔ (Members.Distinct ns ∧ WellFormedMembers ns)
    simp only [Members.Distinct, (h.map Prod.fst).nodup_iff, wellFormedMembers_iff, h.mem_iff]
  | @item front back v w _ ih =>
    change WellFormedItems _ ↔ WellFormedItems _
    simp only [wellFormedItems_iff, List.forall_mem_append, List.forall_mem_cons, ih]
  | @member front back key v w _ ih =>
    change (Members.Distinct _ ∧ WellFormedMembers _) ↔ (Members.Distinct _ ∧ WellFormedMembers _)
    simp only [Members.Distinct, wellFormedMembers_iff, List.map_append, List.map_cons,
      List.forall_mem_append, List.forall_mem_cons, ih]

theorem Reordered.normal_eq {v w : Json} (h : v.Reordered w) (hv : v.WellFormed) :
    v.normal = w.normal := by
  induction h with
  | refl v => rfl
  | symm h ih => exact (ih (h.wellFormed_iff.mpr hv)).symm
  | trans h h' ih ih' => exact (ih hv).trans (ih' (h.wellFormed_iff.mp hv))
  | @members ms ns h =>
    have hperm : (normalMembers ms).Perm (normalMembers ns) := by
      rw [normalMembers_eq_map, normalMembers_eq_map]
      exact h.map _
    exact congrArg Json.obj (Members.normal_eq_of_perm (distinct_normalMembers hv.1) hperm)
  | @item front back v w _ ih =>
    have hitem := (wellFormedItems_iff _).mp hv v (by simp)
    simp only [normal, normalItems_eq_map, List.map_append, List.map_cons, ih hitem]
  | @member front back key v w _ ih =>
    have hmember := (wellFormedMembers_iff _).mp hv.2 (key, v) (by simp)
    simp only [normal, normalMembers_eq_map, List.map_append, List.map_cons, ih hmember]

/-! ### Tidied values -/

theorem tidied_num (d : Double) : (Json.num d).tidied = ofNumber d := by
  cases d with
  | nan => rfl
  | infinite negative => rfl
  | finite negative units =>
    cases units with
    | zero => simp [tidied, ofNumber, Double.isFinite, Double.unsignedZero]
    | succ n => simp [tidied, ofNumber, Double.isFinite, Double.unsignedZero]

mutual

theorem reordered_tidied_normal : ∀ v : Json, v.tidied.Reordered v.normal
  | .null => .refl _
  | .bool _ => .refl _
  | .num d => by
    rw [tidied_num]
    exact .refl _
  | .str _ => .refl _
  | .arr items => reordered_tidiedItems items []
  | .obj members => by
    refine (reordered_tidiedMembers members []).trans (.members ?_)
    exact (Members.normal_perm _).symm

theorem reordered_tidiedItems : ∀ items front,
    Reordered (.arr (front ++ tidiedItems items)) (.arr (front ++ normalItems items))
  | [], _ => .refl _
  | v :: rest, front => by
    refine .trans (.item front _ (reordered_tidied_normal v)) ?_
    have hrest := reordered_tidiedItems rest (front ++ [v.normal])
    rwa [List.append_assoc, List.append_assoc] at hrest

theorem reordered_tidiedMembers : ∀ ms front,
    Reordered (.obj (front ++ tidiedMembers ms))
      (.obj (front ++ (normalMembers ms).filter fun m => m.1 ≠ reservedKey))
  | [], _ => .refl _
  | (key, v) :: rest, front => by
    by_cases hkey : key = reservedKey
    · simpa [tidiedMembers, normalMembers, hkey] using reordered_tidiedMembers rest front
    · have hrest := reordered_tidiedMembers rest (front ++ [(key, v.normal)])
      rw [List.append_assoc, List.append_assoc] at hrest
      have hfirst := Reordered.member front (tidiedMembers rest) key (reordered_tidied_normal v)
      simpa [tidiedMembers, normalMembers, hkey] using hfirst.trans hrest

end

theorem normal_ofNumber (d : Double) : (ofNumber d).normal = ofNumber d := by
  by_cases hfinite : d.isFinite = true
  · simp [ofNumber, normal, hfinite, isFinite_unsignedZero, unsignedZero_unsignedZero]
  · simp [ofNumber, normal, hfinite]

mutual

theorem normal_tidied : ∀ v : Json, v.tidied.normal = v.normal
  | .null => rfl
  | .bool _ => rfl
  | .num d => by
    rw [tidied_num]
    exact normal_ofNumber d
  | .str _ => rfl
  | .arr items => congrArg Json.arr (normalItems_tidiedItems items)
  | .obj members => by
    change Json.obj (Members.normal (normalMembers (tidiedMembers members))) = _
    rw [normalMembers_tidiedMembers members, Members.normal_filter_reserved]
    rfl

theorem normalItems_tidiedItems : ∀ items, normalItems (tidiedItems items) = normalItems items
  | [] => rfl
  | v :: rest => congrArg₂ List.cons (normal_tidied v) (normalItems_tidiedItems rest)

theorem normalMembers_tidiedMembers : ∀ ms, normalMembers (tidiedMembers ms) =
    (normalMembers ms).filter fun m => m.1 ≠ reservedKey
  | [] => rfl
  | (key, v) :: rest => by
    have hrest := normalMembers_tidiedMembers rest
    by_cases hkey : key = reservedKey
    · simpa [tidiedMembers, normalMembers, hkey] using hrest
    · simpa [tidiedMembers, normalMembers, hkey, normal_tidied v] using hrest

end

/-! ### The normal form -/

theorem wellFormed_normal {v : Json} (hv : v.WellFormed) : v.normal.WellFormed :=
  wellFormed_of_parse? (parse?_text (settled_normal v hv))

theorem wellFormed_tidied {v : Json} (hv : v.WellFormed) : v.tidied.WellFormed :=
  (reordered_tidied_normal v).wellFormed_iff.mpr (wellFormed_normal hv)

theorem normal_normal {v : Json} (hv : v.WellFormed) : v.normal.normal = v.normal :=
  ((reordered_tidied_normal v).normal_eq (wellFormed_tidied hv)).symm.trans (normal_tidied v)

/-- Two values have one normal form if, tidied, they are reorderings of each other. -/
theorem normal_eq_normal_iff {v w : Json} (hv : v.WellFormed) :
    v.normal = w.normal ↔ v.tidied.Reordered w.tidied := by
  constructor
  · intro h
    have hw := reordered_tidied_normal w
    rw [← h] at hw
    exact (reordered_tidied_normal v).trans hw.symm
  · intro h
    rw [← normal_tidied v, ← normal_tidied w]
    exact h.normal_eq (wellFormed_tidied hv)

theorem orderedMembers_iff (ms : List (Text × Json)) :
    OrderedMembers ms ↔ ∀ m ∈ ms, m.2.Ordered := by
  induction ms with
  | nil => exact ⟨fun _ m hm => absurd hm List.not_mem_nil, fun _ => trivial⟩
  | cons m rest ih =>
    rw [List.forall_mem_cons, ← ih]
    rfl

mutual

theorem ordered_normal : ∀ v : Json, v.WellFormed → v.normal.Ordered
  | .null, _ => trivial
  | .bool _, _ => trivial
  | .num d, _ => by
    simp only [normal, ofNumber]
    split <;> trivial
  | .str _, _ => trivial
  | .arr items, h => orderedItems_normal items h
  | .obj members, h => by
    refine ⟨Members.inOrder_normal (distinct_normalMembers h.1), ?_⟩
    rw [orderedMembers_iff]
    intro m hm
    exact (orderedMembers_iff _).mp (orderedMembers_normal members h.2) m
      (Members.mem_of_mem_normal hm)

theorem orderedItems_normal : ∀ items, WellFormedItems items → OrderedItems (normalItems items)
  | [], _ => trivial
  | v :: rest, h => ⟨ordered_normal v h.1, orderedItems_normal rest h.2⟩

theorem orderedMembers_normal : ∀ ms, WellFormedMembers ms → OrderedMembers (normalMembers ms)
  | [], _ => trivial
  | (_, v) :: rest, h => ⟨ordered_normal v h.1, orderedMembers_normal rest h.2⟩

end

theorem text_inj {v w : Json} (hv : v.Settled) (hw : w.Settled) (h : v.text = w.text) : v = w :=
  Option.some.inj ((parse?_text hv).symm.trans ((congrArg parse? h).trans (parse?_text hw)))

end Json
end SealedEnvelope
