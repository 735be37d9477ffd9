import SealedEnvelope.Json.Schema
import SealedEnvelope.Proofs.Json.NormalForm
import SealedEnvelope.Proofs.Outcome

/-!
# Records as JSON objects

The objects that envelopes and keys are written as have fixed keys, all different and none of them an
array index. So their members stay in the order in which they are written, and the objects are settled
if their members are.
-/

namespace SealedEnvelope

namespace Members

variable {α : Type}

/-- Keys that differ and are no array indices. -/
def AreNames (keys : List Text) : Prop := keys.Nodup ∧ ∀ key ∈ keys, indexKey? key = none

instance (keys : List Text) : Decidable (AreNames keys) :=
  inferInstanceAs (Decidable (_ ∧ _))

theorem AreNames.sublist {keys names : List Text} (h : AreNames names) (hsub : keys.Sublist names) :
    AreNames keys := ⟨hsub.nodup h.1, fun key hkey => h.2 key (hsub.subset hkey)⟩

theorem ofWritten_of_areNames {ms : List (Text × α)} (h : AreNames (ms.map Prod.fst)) :
    ofWritten ms = ms := by
  have hothers : ∀ m ∈ ms, isIndex m = false := by
    intro m hm
    unfold isIndex
    rw [h.2 m.1 (List.mem_map_of_mem hm)]
    rfl
  have hnone : ms.filter isIndex = [] := by
    rw [List.filter_eq_nil_iff]
    intro m hm
    rw [hothers m hm]
    exact Bool.false_ne_true
  have hall : (ms.filter fun m => !isIndex m) = ms := by
    rw [List.filter_eq_self]
    intro m hm
    rw [hothers m hm]
    rfl
  have hput := foldl_put ms [] h.1
  unfold ofWritten
  rw [hput, List.nil_append, arranged_eq, hnone, hall, List.mergeSort_nil, List.nil_append]

end Members

namespace Json

theorem settledItems_iff (items : List Json) : SettledItems items ↔ ∀ v ∈ items, Settled v := by
  induction items with
  | nil => exact ⟨fun _ v hv => absurd hv List.not_mem_nil, fun _ => trivial⟩
  | cons v rest ih =>
    rw [List.forall_mem_cons, ← ih]
    rfl

theorem settled_map_arr {α : Type} {xs : List α} {f : α → Json} (h : ∀ x ∈ xs, Settled (f x)) :
    Settled (.arr (xs.map f)) := by
  apply (settledItems_iff _).mpr
  intro v hv
  obtain ⟨x, hx, rfl⟩ := List.mem_map.mp hv
  exact h x hx

theorem settled_obj {ms : List (Text × Json)} (names : List Text) (hkeys : ms.map Prod.fst = names)
    (hnames : Members.AreNames names) (h : SettledMembers ms) : Settled (.obj ms) :=
  ⟨Members.ofWritten_of_areNames (hkeys ▸ hnames), h⟩

theorem keys_ofOptional (ms : List (Text × Option Json)) :
    ((ms.filterMap fun m => m.2.map fun v => (m.1, v)).map Prod.fst).Sublist
      (ms.map Prod.fst) := by
  induction ms with
  | nil => exact .slnil
  | cons m ms ih =>
    obtain ⟨key, v⟩ := m
    cases v with
    | none => exact ih.cons key
    | some v => exact ih.cons_cons key

theorem settled_ofOptional {ms : List (Text × Option Json)} (names : List Text)
    (hkeys : ms.map Prod.fst = names) (hnames : Members.AreNames names)
    (h : ∀ m ∈ ms, ∀ v ∈ m.2, Settled v) : Settled (ofOptional ms) := by
  have hsub := keys_ofOptional ms
  rw [hkeys] at hsub
  refine ⟨Members.ofWritten_of_areNames (hnames.sublist hsub), (settledMembers_iff _).mpr ?_⟩
  intro m hm
  obtain ⟨source, hsource, hvalue⟩ := List.mem_filterMap.mp hm
  obtain ⟨v, hv, rfl⟩ := Option.map_eq_some_iff.mp hvalue
  exact h source hsource v hv

theorem settled_some {v : Json} (h : Settled v) : ∀ w ∈ some v, Settled w := by
  rintro _ ⟨⟩
  exact h

theorem settled_map_str (t : Option Text) : ∀ v ∈ t.map Json.str, Settled v := by
  intro v hv
  obtain ⟨s, -, rfl⟩ := Option.map_eq_some_iff.mp hv
  trivial

end Json

theorem Json.parse_eq_ok {t : Text} {code : ErrorCode} {what : Text} {v : Json} :
    Json.parse t code what = .ok v ↔ Json.parse? t = some v := by
  unfold Json.parse
  cases Json.parse? t with
  | none => simp
  | some parsed => simp

namespace Schema

variable {α : Type}

theorem read_eq_ok {s : Schema α} {v : Option Json} {code : ErrorCode} {what : Text} {a : α} :
    s.read v code what = .ok a ↔ s v = .ok a := by
  unfold read
  cases s v with
  | error path => simp
  | ok read => simp

theorem itemsFrom_map {s : Schema α} {f : α → Json} {xs : List α}
    (h : ∀ x ∈ xs, s (some (f x)) = .ok x) (i : Nat) : itemsFrom s i (xs.map f) = .ok xs := by
  induction xs generalizing i with
  | nil => rfl
  | cons x rest ih =>
    have hfirst : within (.ofNat i) s (some (f x)) = .ok x := by
      unfold within
      rw [h x List.mem_cons_self]
    unfold itemsFrom
    rw [List.map_cons]
    simp only
    rw [hfirst, ih fun y hy => h y (List.mem_cons_of_mem x hy)]
    rfl

theorem nonEmptyList_map {s : Schema α} {f : α → Json} {xs : List α} (hne : xs ≠ [])
    (h : ∀ x ∈ xs, s (some (f x)) = .ok x) :
    nonEmptyList s (some (.arr (xs.map f))) = .ok xs := by
  cases xs with
  | nil => exact absurd rfl hne
  | cons x rest => exact itemsFrom_map h 0

/-! ### What a reader accepts -/

variable {s : Schema α}

theorem within_eq_ok {step : Text} {v : Option Json} {a : α} : within step s v = .ok a ↔ s v = .ok a := by
  rw [within]
  cases s v <;> simp

theorem field_eq_ok {ms : List (Text × Json)} {key : Text} {a : α} :
    field ms key s = .ok a ↔ s (Members.get? ms key) = .ok a := within_eq_ok

theorem text_eq_ok {v : Option Json} {t : Text} : text v = .ok t ↔ v = some (.str t) := by
  constructor
  · intro h
    unfold text at h
    split at h
    · rw [Except.ok.inj h]
    · cases h
  · rintro rfl
    rfl

theorem nonEmptyText_eq_ok {v : Option Json} {t : Text} :
    nonEmptyText v = .ok t ↔ v = some (.str t) ∧ t ≠ [] := by
  constructor
  · intro h
    unfold nonEmptyText at h
    split at h
    · obtain rfl := Except.ok.inj h
      exact ⟨rfl, List.cons_ne_nil _ _⟩
    · cases h
  · rintro ⟨rfl, hne⟩
    cases t with
    | nil => exact absurd rfl hne
    | cons u t => rfl

theorem optional_text_eq_ok {v : Option Json} {t : Option Text} :
    optional text v = .ok t ↔ v = t.map .str := by
  cases v with
  | none => cases t <;> simp [optional]
  | some v =>
    rw [optional]
    split
    · rename_i read hread
      obtain rfl := Option.some.inj (text_eq_ok.mp hread)
      cases t <;> simp [eq_comm]
    · rename_i hread
      cases t with
      | none => simp
      | some t =>
        have hother : some v ≠ some (.str t) := fun hv => by
          rw [text_eq_ok.mpr hv] at hread
          cases hread
        simpa using hother

theorem object_eq_ok {read : List (Text × Json) → Except Path α} {v : Option Json} {a : α} :
    object read v = .ok a ↔ ∃ ms, v = some (.obj ms) ∧ read ms = .ok a := by
  constructor
  · intro h
    unfold object at h
    split at h
    · exact ⟨_, rfl, h⟩
    · cases h
  · rintro ⟨ms, rfl, h⟩
    exact h

end Schema
end SealedEnvelope
