import Mathlib.Data.List.Basic
import SealedEnvelope.Proofs.Json.Records

/-!
# What a schema looks at

A schema names members of an object, and of the objects in it, and looks at nothing else. An outline says
which members these are. A value that is pruned to the outline of a schema is read as the value itself is,
and members that are added beside the named ones are pruned away again. Where a schema takes all that its
outline shows, what has been read is the pruned value, so it can be read again.
-/

namespace SealedEnvelope

namespace Members

variable {α : Type}

/-- The members with the given keys that there are, in the order of the keys. -/
def gathered (keys : List Text) (value? : Text → Option α) : List (Text × α) :=
  keys.filterMap fun key => (value? key).map fun v => (key, v)

theorem get?_gathered (keys : List Text) (value? : Text → Option α) (key : Text) :
    get? (gathered keys value?) key = if key ∈ keys then value? key else none := by
  induction keys with
  | nil => rfl
  | cons k rest ih =>
    rw [gathered] at ih ⊢
    cases hv : value? k with
    | none =>
      rw [List.filterMap_cons_none (by rw [hv, Option.map_none]), ih]
      by_cases hk : key = k
      · subst hk
        simp [hv]
      · simp [hk]
    | some v =>
      rw [List.filterMap_cons_some (by rw [hv, Option.map_some]), get?_cons, ih]
      by_cases hk : key = k
      · subst hk
        simp [hv]
      · simp [hk, Ne.symm hk]

end Members

/-- What is looked at of a value: all of it, the items of a list, or the members of an object that are
named, and of each of them its part. -/
inductive Outline
  | whole
  | items (item : Outline)
  | members (names : List Text) (part : Text → Outline)

namespace Outline

variable {o : Outline} {names : List Text} {part : Text → Outline} {v w : Json}

/-- What an outline shows of a value. -/
def prune : Outline → Json → Json
  | items item, .arr vs => .arr (vs.map item.prune)
  | members names part, .obj ms =>
    .obj (Members.gathered names fun key => (Members.get? ms key).map (part key).prune)
  | _, v => v

/-- A value has no members, at any depth, but those that are named. -/
def Covers : Outline → Json → Prop
  | items item, .arr vs => ∀ v ∈ vs, item.Covers v
  | members names part, .obj ms => ∀ m ∈ ms, m.1 ∈ names ∧ (part m.1).Covers m.2
  | _, _ => True

/-- A value, and the same value with members that are not named. They may be added to every object of
which not all is looked at, and the members of such an object may change places. -/
inductive Widened : Outline → Json → Json → Prop
  | refl (o : Outline) (v : Json) : Widened o v v
  | trans {o : Outline} {u v w : Json} (h : Widened o u v) (h' : Widened o v w) : Widened o u w
  | added {names : List Text} {part : Text → Outline} (key : Text) (h : key ∉ names) (v : Json)
    (ms : List (Text × Json)) : Widened (members names part) (.obj ms) (.obj ((key, v) :: ms))
  | reordered {names : List Text} {part : Text → Outline} {ms ns : List (Text × Json)}
    (hdistinct : Members.Distinct ms) (h : ms.Perm ns) :
    Widened (members names part) (.obj ms) (.obj ns)
  | member {names : List Text} {part : Text → Outline} (front back : List (Text × Json)) {key : Text}
    {v w : Json} (h : Widened (part key) v w) :
    Widened (members names part) (.obj (front ++ (key, v) :: back)) (.obj (front ++ (key, w) :: back))
  | item {item : Outline} (front back : List Json) {v w : Json} (h : Widened item v w) :
    Widened (items item) (.arr (front ++ v :: back)) (.arr (front ++ w :: back))

theorem prune_members (names : List Text) (part : Text → Outline) (ms : List (Text × Json)) :
    (members names part).prune (.obj ms) =
      .ofOptional (names.map fun key => (key, (Members.get? ms key).map (part key).prune)) := by
  rw [prune, Members.gathered, Json.ofOptional, List.filterMap_map]
  rfl

theorem covers_prune (o : Outline) (v : Json) : o.Covers (o.prune v) := by
  induction o generalizing v with
  | whole => trivial
  | items item ih =>
    cases v with
    | arr vs =>
      rw [prune, Covers]
      exact List.forall_mem_map.mpr fun v _ => ih v
    | _ => trivial
  | members names part ih =>
    cases v with
    | obj ms =>
      rw [prune, Covers]
      intro m hm
      obtain ⟨key, hkey, hvalue⟩ := List.mem_filterMap.mp hm
      obtain ⟨_, hpart, rfl⟩ := Option.map_eq_some_iff.mp hvalue
      obtain ⟨v, -, rfl⟩ := Option.map_eq_some_iff.mp hpart
      exact ⟨hkey, ih key v⟩
    | _ => trivial

theorem prune_obj_congr {ms ns : List (Text × Json)}
    (h : ∀ key ∈ names, (Members.get? ms key).map (part key).prune =
      (Members.get? ns key).map (part key).prune) :
    (members names part).prune (.obj ms) = (members names part).prune (.obj ns) := by
  rw [prune, prune, Members.gathered, Members.gathered]
  refine congrArg Json.obj (List.filterMap_congr fun key hkey => ?_)
  rw [h key hkey]

/-- What is added is not looked at. -/
theorem Widened.prune_eq (h : o.Widened v w) : o.prune w = o.prune v := by
  induction h with
  | refl => rfl
  | trans _ _ ih ih' => exact ih'.trans ih
  | added key hkey v ms =>
    refine prune_obj_congr fun name hname => ?_
    rw [Members.get?_cons, if_neg (ne_of_mem_of_not_mem hname hkey).symm]
  | reordered hdistinct hperm =>
    refine prune_obj_congr fun name _ => ?_
    rw [Members.get?_of_perm hdistinct hperm]
  | @member names part front back key v w _ ih =>
    refine prune_obj_congr fun name _ => ?_
    rw [Members.get?_append, Members.get?_append, Members.get?_cons, Members.get?_cons]
    by_cases hname : key = name
    · subst hname
      -- A member of the same name in front of this one hides it on both sides.
      cases Members.get? front key with
      | none => simp [ih]
      | some _ => rfl
    · simp [hname]
  | item front back _ ih => simp [prune, ih]

theorem get?_prune {ms : List (Text × Json)} {key : Text} (hkey : key ∈ names) :
    Members.get? (Members.gathered names fun key => (Members.get? ms key).map (part key).prune) key =
      (Members.get? ms key).map (part key).prune := by
  rw [Members.get?_gathered, if_pos hkey]

theorem hasMember_prune {key : Text} (hkey : key ∈ names) (v : Json) :
    ((members names part).prune v).hasMember key = v.hasMember key := by
  cases v with
  | obj ms =>
    simp only [prune, Json.hasMember, Members.hasKey_eq_isSome, get?_prune hkey, Option.isSome_map]
  | _ => rfl

theorem Widened.hasMember_eq {key : Text} (h : (members names part).Widened v w) (hkey : key ∈ names) :
    w.hasMember key = v.hasMember key := by
  rw [← hasMember_prune hkey, h.prune_eq, hasMember_prune hkey]

end Outline

namespace Schema

variable {α : Type}

/-! ### Reading what is shown -/

/-- A schema looks at nothing that the outline does not show. -/
def StaysWithin (s : Schema α) (o : Outline) : Prop := ∀ v, s (some (o.prune v)) = s (some v)

variable {s : Schema α} {o : Outline} {names : List Text} {part : Text → Outline}

theorem staysWithin_whole (s : Schema α) : s.StaysWithin .whole := fun _ => rfl

theorem StaysWithin.itemsFrom (h : s.StaysWithin o) (i : Nat) (vs : List Json) :
    itemsFrom s i (vs.map o.prune) = itemsFrom s i vs := by
  induction vs generalizing i with
  | nil => rfl
  | cons v rest ih =>
    rw [List.map_cons, Schema.itemsFrom, Schema.itemsFrom, ih, within, within, h]

theorem StaysWithin.nonEmptyList (h : s.StaysWithin o) : (nonEmptyList s).StaysWithin (.items o) := by
  intro v
  cases v with
  | arr vs =>
    cases vs with
    | nil => rfl
    | cons v rest => exact h.itemsFrom 0 (v :: rest)
  | _ => rfl

theorem StaysWithin.field {key : Text} (h : s.StaysWithin (part key)) (hkey : key ∈ names)
    (ms : List (Text × Json)) :
    field (Members.gathered names fun key => (Members.get? ms key).map (part key).prune) key s =
      field ms key s := by
  rw [Schema.field, Schema.field, Outline.get?_prune hkey]
  cases Members.get? ms key with
  | none => rfl
  | some v => rw [Option.map_some, within, within, h]

theorem staysWithin_object {read : List (Text × Json) → Except Path α}
    (h : ∀ ms, read (Members.gathered names fun key => (Members.get? ms key).map (part key).prune) =
      read ms) : (object read).StaysWithin (.members names part) := by
  intro v
  cases v with
  | obj ms => exact h ms
  | _ => rfl

/-! ### Writing what has been read -/

/-- What has been read is, written down, what the outline shows of it. -/
def Retains (s : Schema α) (o : Outline) (write : α → Json) : Prop :=
  ∀ v a, s v = .ok a → v.map o.prune = some (write a)

variable {write : α → Json}

theorem Retains.itemsFrom (h : s.Retains o write) {i : Nat} {vs : List Json} {as : List α}
    (hread : itemsFrom s i vs = .ok as) : vs.map o.prune = as.map write := by
  induction vs generalizing i as with
  | nil =>
    obtain rfl := Except.ok.inj hread
    rfl
  | cons v rest ih =>
    simp only [Schema.itemsFrom, bind_eq_ok, within_eq_ok] at hread
    obtain ⟨a, ha, as, has, hpure⟩ := hread
    obtain rfl := Except.ok.inj hpure
    rw [List.map_cons, List.map_cons, Option.some.inj (h _ _ ha), ih has]

theorem Retains.nonEmptyList (h : s.Retains o write) :
    (nonEmptyList s).Retains (.items o) fun as => .arr (as.map write) := by
  intro v as hread
  unfold Schema.nonEmptyList at hread
  split at hread
  · cases hread
  · rw [Option.map_some, Outline.prune, h.itemsFrom hread]
  · cases hread

/-! ### Reading once more -/

variable {code : ErrorCode} {what : Text}

theorem StaysWithin.read_widened (h : s.StaysWithin o) {v w : Json} (hwidened : o.Widened v w) :
    s.read (some w) code what = s.read (some v) code what := by
  rw [read, read, ← h w, hwidened.prune_eq, h v]

/-- What has been read has no members but those that are named, and it is read as itself. -/
theorem StaysWithin.read_retained (hs : s.StaysWithin o) (hr : s.Retains o write) {v : Json} {a : α}
    (h : s.read (some v) code what = .ok a) :
    write a = o.prune v ∧ o.Covers (write a) ∧ s.read (some (write a)) code what = .ok a := by
  have hwritten : o.prune v = write a := Option.some.inj (hr (some v) a (read_eq_ok.mp h))
  rw [← hwritten]
  exact ⟨rfl, o.covers_prune v, read_eq_ok.mpr ((hs v).trans (read_eq_ok.mp h))⟩

end Schema
end SealedEnvelope
