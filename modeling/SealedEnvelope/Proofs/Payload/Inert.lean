import SealedEnvelope.Proofs.Json.Reordering
import SealedEnvelope.Proofs.Payload.Canonical

/-!
# Payloads in which nothing forms itself

Without dates, code that forms objects and reserved members, the form of a payload is read off the payload
itself. What is no value vanishes from objects and is `null` in arrays, and a big integer cannot be
written wherever it is. So there is no canonical text for two reasons only, and otherwise it is that of
the JSON value which is left.
-/

namespace SealedEnvelope

namespace Payload

/-! ### What a payload holds -/

/-- Whether a payload is another one or occurs in it. -/
inductive Occurs (q : Payload) : Payload → Prop
  | self : Occurs q q
  | item {items : List Payload} {p : Payload} (hp : p ∈ items) (h : Occurs q p) :
    Occurs q (.arr items)
  | member {members : List (Text × Payload)} {m : Text × Payload} (hm : m ∈ members)
    (h : Occurs q m.2) : Occurs q (.obj members)

def HoldsBigInteger (p : Payload) : Prop := ∃ n, Occurs (.bigInteger n) p

/-- Whether a payload is no value: nothing, or code. -/
def isNothing : Payload → Bool
  | .absent | .function => true
  | _ => false

mutual

/-- A payload as a program holds it in which nothing forms itself: there are no dates, no objects that
bring a form, no code in the members that form objects, and no reserved members. -/
def Inert : Payload → Prop
  | .num d => d.IsBinary64
  | .arr items => InertItems items
  | .obj members => Members.Distinct members ∧ InertMembers members
  | .date _ => False
  | .selfFormed _ _ => False
  | _ => True

def InertItems : List Payload → Prop
  | [] => True
  | p :: rest => Inert p ∧ InertItems rest

def InertMembers : List (Text × Payload) → Prop
  | [] => True
  | (key, p) :: rest =>
    key ≠ reservedKey ∧ (key = formKey → p ≠ .function) ∧ Inert p ∧ InertMembers rest

end

mutual

/-- A payload as JSON can say it: what is no value vanishes from objects and is `null` in arrays. -/
def asJson : Payload → Json
  | .bool b => .bool b
  | .num d => .num d
  | .str t => .str t
  | .arr items => .arr (itemsAsJson items)
  | .obj members => .obj (membersAsJson members)
  | _ => .null

def itemsAsJson : List Payload → List Json
  | [] => []
  | p :: rest => asJson p :: itemsAsJson rest

def membersAsJson : List (Text × Payload) → List (Text × Json)
  | [] => []
  | (key, p) :: rest =>
    if p.isNothing then membersAsJson rest else (key, asJson p) :: membersAsJson rest

end

theorem itemsAsJson_eq_map (items : List Payload) : itemsAsJson items = items.map asJson := by
  induction items with
  | nil => rfl
  | cons p rest ih => exact congrArg (asJson p :: ·) ih

theorem holdsBigInteger_arr {items : List Payload} :
    HoldsBigInteger (.arr items) ↔ ∃ p ∈ items, p.HoldsBigInteger := by
  constructor
  · rintro ⟨n, h⟩
    cases h with
    | @item _ p hp h => exact ⟨p, hp, n, h⟩
  · rintro ⟨p, hp, n, h⟩
    exact ⟨n, .item hp h⟩

theorem holdsBigInteger_obj {members : List (Text × Payload)} :
    HoldsBigInteger (.obj members) ↔ ∃ m ∈ members, m.2.HoldsBigInteger := by
  constructor
  · rintro ⟨n, h⟩
    cases h with
    | @member _ m hm h => exact ⟨m, hm, n, h⟩
  · rintro ⟨m, hm, n, h⟩
    exact ⟨n, .member hm h⟩

theorem inertMembers_iff (members : List (Text × Payload)) :
    InertMembers members ↔
      ∀ m ∈ members, m.1 ≠ reservedKey ∧ (m.1 = formKey → m.2 ≠ .function) ∧ m.2.Inert := by
  induction members with
  | nil => exact ⟨fun _ m hm => absurd hm List.not_mem_nil, fun _ => trivial⟩
  | cons m rest ih =>
    rw [List.forall_mem_cons, ← ih]
    simp only [InertMembers, and_assoc]

/-! ### Objects without parents and without code -/

section Objects

variable {members : List (Text × Payload)}

theorem parentEndsInCode_of_inert (h : InertMembers members) : parentEndsInCode members = false := by
  induction members with
  | nil => rfl
  | cons m rest ih =>
    obtain ⟨hkey, -, -, hrest⟩ := h
    rw [parentEndsInCode, if_neg hkey, ih hrest]

theorem parentForm_of_inert (h : InertMembers members) : parentForm members = none := by
  induction members with
  | nil => rfl
  | cons m rest ih =>
    obtain ⟨hkey, -, -, hrest⟩ := h
    rw [parentForm, if_neg hkey, ih hrest]

theorem memberForms_cons {key : Text} (hkey : key ≠ reservedKey) (p : Payload)
    (rest : List (Text × Payload)) :
    memberForms true ((key, p) :: rest) =
      match form true p, memberForms true rest with
      | .value v, some ms => some ((key, v) :: ms)
      | .absent, some ms => some ms
      | _, _ => none := by
  rw [memberForms]
  exact if_neg fun hreserved => hkey hreserved.2

theorem form_obj_of_inert (h : Inert (.obj members)) :
    form true (.obj members) = objectForm true (memberForms true members) := by
  obtain ⟨hdistinct, hmembers⟩ := h
  have hgiven : givenForm members none = none := by
    unfold givenForm
    split
    · rename_i hcode
      rw [Members.get?_eq_some hdistinct] at hcode
      exact absurd rfl (((inertMembers_iff members).mp hmembers _ hcode).2.1 rfl)
    · rfl
    · rfl
  rw [form, if_pos rfl, parentForm_of_inert hmembers, hgiven]

end Objects

/-! ### The form of an inert payload -/

mutual

theorem isOrderable_of_inert : ∀ p : Payload, p.Inert → p.isOrderable = true
  | .null, _ => rfl
  | .bool _, _ => rfl
  | .num _, _ => rfl
  | .str _, _ => rfl
  | .arr items, h => itemsOrderable_of_inert items h
  | .obj members, h => by
    rw [isOrderable, membersOrderable_of_inert members h.2, collides,
      parentEndsInCode_of_inert h.2]
    exact Bool.or_true _
  | .absent, _ => rfl
  | .function, _ => rfl
  | .bigInteger _, _ => rfl

theorem itemsOrderable_of_inert : ∀ items, InertItems items → itemsOrderable items = true
  | [], _ => rfl
  | p :: rest, h => by
    rw [itemsOrderable, isOrderable_of_inert p h.1, itemsOrderable_of_inert rest h.2, Bool.and_self]

theorem membersOrderable_of_inert : ∀ members, InertMembers members → membersOrderable members = true
  | [], _ => rfl
  | (_, p) :: rest, h => by
    rw [membersOrderable, isOrderable_of_inert p h.2.2.1, membersOrderable_of_inert rest h.2.2.2,
      Bool.and_self]

end

mutual

/-- Big integers cannot be written, wherever they are. -/
theorem form_of_holdsBigInteger : ∀ p : Payload, p.Inert → p.HoldsBigInteger →
    form true p = .unwritable
  | .null, _, ⟨_, hn⟩ => nomatch hn
  | .bool _, _, ⟨_, hn⟩ => nomatch hn
  | .num _, _, ⟨_, hn⟩ => nomatch hn
  | .str _, _, ⟨_, hn⟩ => nomatch hn
  | .arr items, h, hn => by
    rw [form, itemForms_of_holdsBigInteger items h (holdsBigInteger_arr.mp hn)]
  | .obj members, h, hn => by
    rw [form_obj_of_inert h, memberForms_of_holdsBigInteger members h.2 (holdsBigInteger_obj.mp hn)]
    rfl
  | .absent, _, ⟨_, hn⟩ => nomatch hn
  | .function, _, ⟨_, hn⟩ => nomatch hn
  | .bigInteger _, _, _ => rfl

theorem itemForms_of_holdsBigInteger : ∀ items, InertItems items →
    (∃ p ∈ items, p.HoldsBigInteger) → itemForms true items = none
  | [], _, ⟨_, hp, _⟩ => nomatch hp
  | p :: rest, h, ⟨q, hq, hn⟩ => by
    rcases List.mem_cons.mp hq with hfirst | hq
    · rw [itemForms, form_of_holdsBigInteger p h.1 (hfirst ▸ hn)]
    · rw [itemForms, itemForms_of_holdsBigInteger rest h.2 ⟨q, hq, hn⟩]
      cases form true p <;> rfl

theorem memberForms_of_holdsBigInteger : ∀ members, InertMembers members →
    (∃ m ∈ members, m.2.HoldsBigInteger) → memberForms true members = none
  | [], _, ⟨_, hm, _⟩ => nomatch hm
  | (key, p) :: rest, h, ⟨m, hm, hn⟩ => by
    rcases List.mem_cons.mp hm with rfl | hm
    · rw [memberForms_cons h.1, form_of_holdsBigInteger p h.2.2.1 hn]
    · rw [memberForms_cons h.1, memberForms_of_holdsBigInteger rest h.2.2.2 ⟨m, hm, hn⟩]
      cases form true p <;> rfl

end

mutual

/-- What holds no big integer has the normal form of the value that JSON says for it, unless it is
nothing. -/
theorem form_of_inert : ∀ p : Payload, p.Inert → ¬p.HoldsBigInteger →
    form true p = if p.isNothing then .absent else .value p.asJson.normal
  | .null, _, _ => rfl
  | .bool _, _, _ => rfl
  | .num _, _, _ => rfl
  | .str _, _, _ => rfl
  | .arr items, h, hn => by
    rw [holdsBigInteger_arr] at hn
    rw [form, itemForms_of_inert items h hn]
    rfl
  | .obj members, h, hn => by
    rw [holdsBigInteger_obj] at hn
    rw [form_obj_of_inert h, memberForms_of_inert members h.2 hn]
    rfl
  | .absent, _, _ => rfl
  | .function, _, _ => rfl
  | .bigInteger n, _, hn => absurd ⟨n, .self⟩ hn

theorem itemForms_of_inert : ∀ items, InertItems items → (¬∃ p ∈ items, p.HoldsBigInteger) →
    itemForms true items = some (Json.normalItems (itemsAsJson items))
  | [], _, _ => rfl
  | p :: rest, h, hn => by
    have hfirst : ¬p.HoldsBigInteger := fun hp => hn ⟨p, List.mem_cons_self, hp⟩
    have hrest : ¬∃ q ∈ rest, q.HoldsBigInteger := fun ⟨q, hq, hholds⟩ =>
      hn ⟨q, List.mem_cons_of_mem p hq, hholds⟩
    rw [itemForms, form_of_inert p h.1 hfirst, itemForms_of_inert rest h.2 hrest]
    cases p <;> rfl

theorem memberForms_of_inert : ∀ members, InertMembers members →
    (¬∃ m ∈ members, m.2.HoldsBigInteger) →
    memberForms true members = some (Json.normalMembers (membersAsJson members))
  | [], _, _ => rfl
  | (key, p) :: rest, h, hn => by
    have hfirst : ¬p.HoldsBigInteger := fun hp => hn ⟨(key, p), List.mem_cons_self, hp⟩
    have hrest : ¬∃ m ∈ rest, m.2.HoldsBigInteger := fun ⟨m, hm, hholds⟩ =>
      hn ⟨m, List.mem_cons_of_mem _ hm, hholds⟩
    rw [memberForms_cons h.1, form_of_inert p h.2.2.1 hfirst,
      memberForms_of_inert rest h.2.2.2 hrest, membersAsJson]
    cases p.isNothing <;> rfl

end

/-! ### The value that is said is well formed -/

theorem keys_membersAsJson (members : List (Text × Payload)) :
    ((membersAsJson members).map Prod.fst).Sublist (members.map Prod.fst) := by
  induction members with
  | nil => exact .slnil
  | cons m rest ih =>
    rw [membersAsJson]
    split
    · exact ih.cons m.1
    · exact ih.cons_cons m.1

mutual

theorem wellFormed_asJson : ∀ p : Payload, p.Inert → p.asJson.WellFormed
  | .null, _ => trivial
  | .bool _, _ => trivial
  | .num _, h => h
  | .str _, _ => trivial
  | .arr items, h => wellFormed_itemsAsJson items h
  | .obj members, h =>
    ⟨(keys_membersAsJson members).nodup h.1, wellFormed_membersAsJson members h.2⟩
  | .absent, _ => trivial
  | .function, _ => trivial
  | .bigInteger _, _ => trivial

theorem wellFormed_itemsAsJson : ∀ items, InertItems items →
    Json.WellFormedItems (itemsAsJson items)
  | [], _ => trivial
  | p :: rest, h => ⟨wellFormed_asJson p h.1, wellFormed_itemsAsJson rest h.2⟩

theorem wellFormed_membersAsJson : ∀ members, InertMembers members →
    Json.WellFormedMembers (membersAsJson members)
  | [], _ => trivial
  | (key, p) :: rest, h => by
    rw [membersAsJson]
    split
    · exact wellFormed_membersAsJson rest h.2.2.2
    · exact ⟨wellFormed_asJson p h.2.2.1, wellFormed_membersAsJson rest h.2.2.2⟩

end

/-! ### Refused and accepted payloads -/

/-- Whether a payload cannot be written. -/
def IsRefused (p : Payload) : Prop := p = .absent ∨ p = .function ∨ p.HoldsBigInteger

theorem canonicalText_of_refused {p : Payload} (h : p.Inert) (hrefused : p.IsRefused) :
    p.canonicalText = .error .notSerializable := by
  rcases hrefused with rfl | rfl | hholds
  · rfl
  · rfl
  · rw [canonicalText, if_pos (isOrderable_of_inert p h), form_of_holdsBigInteger p h hholds]

theorem canonicalText_of_not_refused {p : Payload} (h : p.Inert) (hrefused : ¬p.IsRefused) :
    p.canonicalText = .ok p.asJson.normal.text := by
  obtain ⟨habsent, hfunction, hholds⟩ := by simpa only [IsRefused, not_or] using hrefused
  have hvalue : p.isNothing = false := by
    cases p with
    | absent => exact absurd rfl habsent
    | function => exact absurd rfl hfunction
    | _ => rfl
  rw [canonicalText, if_pos (isOrderable_of_inert p h), form_of_inert p h hholds, hvalue]
  rfl

end Payload
end SealedEnvelope
