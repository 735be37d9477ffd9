import SealedEnvelope.Proofs.Did.Resolution

/-!
# Chains of resolvers

A chain answers with the first of its resolvers that does not miss the id, that is, one whose outcome is
anything but a key that is not found. If all of them miss it, the chain's own error takes the place of
theirs. So a chain in a chain can be written out in its place, and any nesting comes to one chain of
resolvers that are no chains.

Who is asked cannot be seen in an outcome. So an id is looked up once more with a note of every resolver
whose turn came, which leaves the outcome as it is. Look-ups with notes are put together by `orElse`,
which is associative, and that is why the nesting of chains makes no difference to the notes either.
-/

namespace SealedEnvelope

namespace Resolver

/-- The outcome of a look-up and the resolvers that were asked for it in turn, chains apart. -/
structure Inquiry where
  outcome : Except Error Json
  asked : List Resolver

namespace Inquiry

def exhausted (id : Text) : Inquiry := ⟨.error (.unresolved id none), []⟩

/-- Goes on with another look-up if this one did not find the key. -/
def orElse (first second : Inquiry) : Inquiry :=
  match first.outcome with
  | .ok _ => first
  | .error e =>
    if e.hasCode .keyNotFound then ⟨second.outcome, first.asked ++ second.asked⟩ else first

end Inquiry

mutual

/-- Looks an id up and notes who is asked. -/
def inquire : Resolver → Text → Inquiry
  | didKey, id => ⟨resolve didKey id, [didKey]⟩
  | documents registry, id => ⟨resolve (documents registry) id, [documents registry]⟩
  | chain resolvers, id => inquireFirst resolvers id
  | custom lookup, id => ⟨resolve (custom lookup) id, [custom lookup]⟩

def inquireFirst : List Resolver → Text → Inquiry
  | [], id => .exhausted id
  | r :: rest, id => (inquire r id).orElse (inquireFirst rest id)

end

def asked (r : Resolver) (id : Text) : List Resolver := (r.inquire id).asked

mutual

/-- The resolvers in a resolver that are no chains, from left to right. -/
def leaves : Resolver → List Resolver
  | didKey => [didKey]
  | documents registry => [documents registry]
  | chain resolvers => leavesOf resolvers
  | custom lookup => [custom lookup]

def leavesOf : List Resolver → List Resolver
  | [] => []
  | r :: rest => leaves r ++ leavesOf rest

end

/-- A resolver does not find the key for an id, so that a chain goes on. -/
def Misses (r : Resolver) (id : Text) : Prop :=
  ∃ e, r.resolve id = .error e ∧ e.code? = some .keyNotFound

/-! ### Look-ups one after the other -/

namespace Inquiry

/-- A look-up found no key. -/
def IsMissing (i : Inquiry) : Prop := ∃ e, i.outcome = .error e ∧ e.code? = some .keyNotFound

variable {first second : Inquiry}

theorem orElse_of_missing (h : first.IsMissing) (second : Inquiry) :
    first.orElse second = ⟨second.outcome, first.asked ++ second.asked⟩ := by
  obtain ⟨e, he, hcode⟩ := h
  have hnext : e.hasCode .keyNotFound = true := decide_eq_true hcode
  simp only [orElse, he, hnext, if_true]

theorem orElse_of_not_missing (h : ¬first.IsMissing) : first.orElse second = first := by
  unfold orElse
  split
  · rfl
  · rename_i e he
    have hlast : e.hasCode .keyNotFound = false := decide_eq_false fun hcode => h ⟨e, he, hcode⟩
    simp only [hlast, Bool.false_eq_true, if_false]

theorem exhausted_orElse (id : Text) (second : Inquiry) : (exhausted id).orElse second = second :=
  orElse_of_missing ⟨_, rfl, rfl⟩ second

theorem isMissing_orElse (h : first.IsMissing) :
    (first.orElse second).IsMissing ↔ second.IsMissing := by
  rw [orElse_of_missing h]
  rfl

theorem orElse_assoc (a b c : Inquiry) : (a.orElse b).orElse c = a.orElse (b.orElse c) := by
  -- If the first look-up finds nothing, its error is gone, and the second decides on both sides.
  by_cases ha : a.IsMissing
  · rw [orElse_of_missing ha (b.orElse c)]
    by_cases hb : b.IsMissing
    · rw [orElse_of_missing ((isMissing_orElse ha).mpr hb), orElse_of_missing ha, orElse_of_missing hb,
        List.append_assoc]
    · rw [orElse_of_not_missing (mt (isMissing_orElse ha).mp hb), orElse_of_missing ha,
        orElse_of_not_missing hb]
  · rw [orElse_of_not_missing ha, orElse_of_not_missing ha, orElse_of_not_missing ha]

end Inquiry

variable {r : Resolver} {resolvers : List Resolver} {id : Text}

theorem inquireFirst_append (front back : List Resolver) (id : Text) :
    inquireFirst (front ++ back) id = (inquireFirst front id).orElse (inquireFirst back id) := by
  induction front with
  | nil => exact (Inquiry.exhausted_orElse id _).symm
  | cons r rest ih => simp only [List.cons_append, inquireFirst, ih, Inquiry.orElse_assoc]

/-! ### Outcomes -/

mutual

theorem outcome_inquire : ∀ (r : Resolver) (id : Text), (r.inquire id).outcome = r.resolve id
  | didKey, _ => rfl
  | documents _, _ => rfl
  | chain resolvers, id => by
    rw [inquire, resolve]
    exact outcome_inquireFirst resolvers id
  | custom _, _ => rfl

theorem outcome_inquireFirst : ∀ (resolvers : List Resolver) (id : Text),
    (inquireFirst resolvers id).outcome = resolveFirst resolvers id
  | [], _ => rfl
  | r :: rest, id => by
    have hr := outcome_inquire r id
    have hrest := outcome_inquireFirst rest id
    rw [inquireFirst, resolveFirst, ← hr, ← hrest, Inquiry.orElse]
    split
    · rename_i v hv
      rw [hv]
    · rename_i e he
      rw [he]
      simp only
      split
      · rfl
      · exact he

end

theorem isMissing_inquire : (r.inquire id).IsMissing ↔ r.Misses id := by
  rw [Inquiry.IsMissing, outcome_inquire, Misses]

theorem inquireFirst_of_misses (h : ∀ r ∈ resolvers, r.Misses id) :
    inquireFirst resolvers id =
      ⟨.error (.unresolved id none), resolvers.flatMap fun r => r.asked id⟩ := by
  induction resolvers with
  | nil => rfl
  | cons r rest ih =>
    obtain ⟨hr, hrest⟩ := List.forall_mem_cons.mp h
    rw [inquireFirst, ih hrest, Inquiry.orElse_of_missing (isMissing_inquire.mpr hr)]
    rfl

/-- The first one that does not miss the id decides, and nobody behind it is asked. -/
theorem inquireFirst_of_split {front : List Resolver} (hfront : ∀ f ∈ front, f.Misses id)
    (hr : ¬r.Misses id) (back : List Resolver) :
    inquireFirst (front ++ r :: back) id =
      ⟨r.resolve id, (front.flatMap fun f => f.asked id) ++ r.asked id⟩ := by
  induction front with
  | nil =>
    rw [List.nil_append, inquireFirst, Inquiry.orElse_of_not_missing (mt isMissing_inquire.mp hr),
      ← outcome_inquire]
    rfl
  | cons f rest ih =>
    obtain ⟨hf, hrest⟩ := List.forall_mem_cons.mp hfront
    rw [List.cons_append, inquireFirst, ih hrest,
      Inquiry.orElse_of_missing (isMissing_inquire.mpr hf), List.flatMap_cons, List.append_assoc]
    rfl

theorem misses_or_split (resolvers : List Resolver) (id : Text) :
    (∀ r ∈ resolvers, r.Misses id) ∨
      ∃ front r back, resolvers = front ++ r :: back ∧ (∀ f ∈ front, f.Misses id) ∧ ¬r.Misses id := by
  induction resolvers with
  | nil => exact .inl fun r hr => absurd hr List.not_mem_nil
  | cons first rest ih =>
    by_cases hfirst : first.Misses id
    · rcases ih with hrest | ⟨front, r, back, rfl, hfront, hr⟩
      · exact .inl (List.forall_mem_cons.mpr ⟨hfirst, hrest⟩)
      · exact .inr ⟨first :: front, r, back, rfl, List.forall_mem_cons.mpr ⟨hfirst, hfront⟩, hr⟩
    · exact .inr ⟨[], first, rest, rfl, by simp, hfirst⟩

/-! ### Nesting -/

/-- A chain in a chain is asked as its resolvers in its place are. -/
theorem inquire_chain_in_chain (front inner back : List Resolver) (id : Text) :
    (chain (front ++ chain inner :: back)).inquire id = (chain (front ++ inner ++ back)).inquire id := by
  simp only [inquire, inquireFirst_append, inquireFirst, Inquiry.orElse_assoc]

mutual

theorem inquireFirst_leaves_append : ∀ (r : Resolver) (rest : List Resolver) (id : Text),
    inquireFirst (r.leaves ++ rest) id = (r.inquire id).orElse (inquireFirst rest id)
  | didKey, _, _ => rfl
  | documents _, _, _ => rfl
  | chain resolvers, rest, id => by
    rw [leaves, inquireFirst_append, inquireFirst_leavesOf resolvers id, inquire]
  | custom _, _, _ => rfl

theorem inquireFirst_leavesOf : ∀ (resolvers : List Resolver) (id : Text),
    inquireFirst (leavesOf resolvers) id = inquireFirst resolvers id
  | [], _ => rfl
  | r :: rest, id => by
    rw [leavesOf, inquireFirst_leaves_append r, inquireFirst_leavesOf rest id, inquireFirst]

end

/-- A chain has the outcome of the first resolver that does not miss the id, without asking anybody
behind it, and an error of its own if there is none. How chains are nested makes no difference. -/
theorem chain_flattens (id : Text) :
    (∀ resolvers, (∀ r ∈ resolvers, Misses r id) ∨
      ∃ front r back, resolvers = front ++ r :: back ∧ (∀ f ∈ front, f.Misses id) ∧ ¬r.Misses id) ∧
    (∀ resolvers, (∀ r ∈ resolvers, Misses r id) →
      (chain resolvers).resolve id = .error (.unresolved id none) ∧
      (Error.unresolved id none).code? = some .keyNotFound ∧
      (Error.unresolved id none).message = .concat ["Key not found: ", id] ∧
      (Error.unresolved id none).details? = some [(Text.ofString "id", Json.str id)]) ∧
    (∀ front r back, (∀ f ∈ front, f.Misses id) → ¬r.Misses id →
      (chain (front ++ r :: back)).resolve id = r.resolve id ∧
      (chain (front ++ r :: back)).asked id = (front.flatMap fun f => f.asked id) ++ r.asked id) ∧
    (∀ front inner back,
      (chain (front ++ chain inner :: back)).resolve id = (chain (front ++ inner ++ back)).resolve id ∧
      (chain (front ++ chain inner :: back)).asked id = (chain (front ++ inner ++ back)).asked id) ∧
    ∀ resolvers, (chain resolvers).resolve id = (chain (leavesOf resolvers)).resolve id ∧
      (chain resolvers).asked id = (chain (leavesOf resolvers)).asked id := by
  refine ⟨fun resolvers => misses_or_split resolvers id, ?_, ?_, ?_, ?_⟩
  · intro resolvers h
    refine ⟨?_, rfl, rfl, rfl⟩
    rw [← outcome_inquire, inquire, inquireFirst_of_misses h]
  · intro front r back hfront hr
    have hsplit := inquireFirst_of_split hfront hr back
    refine ⟨?_, ?_⟩
    · rw [← outcome_inquire, inquire, hsplit]
    · rw [asked, inquire, hsplit]
  · intro front inner back
    rw [← outcome_inquire, ← outcome_inquire, asked, asked, inquire_chain_in_chain]
    exact ⟨rfl, rfl⟩
  · intro resolvers
    rw [← outcome_inquire, ← outcome_inquire, asked, asked, inquire, inquire, inquireFirst_leavesOf]
    exact ⟨rfl, rfl⟩

def unaware : Resolver := documents .empty

/-- A rule of the caller's own that is out of order. -/
def offline : Resolver :=
  custom fun id => .error (.reported .invalidFormat "resolver offline" (some [("id", .str id)]))

theorem misses_unaware (id : Text) : unaware.Misses id := ⟨_, rfl, rfl⟩

theorem not_misses_offline (id : Text) : ¬offline.Misses id := by
  rintro ⟨e, he, hcode⟩
  obtain rfl := Except.error.inj he
  cases hcode

/-- The error of a resolver in an inner chain comes out as it is, and the last one is not asked. -/
theorem chain_flattens_offline :
    (chain [unaware, chain [unaware, offline], didKey]).resolve "k" =
        .error (.reported .invalidFormat "resolver offline" (some [("id", .str "k")])) ∧
      (chain [unaware, chain [unaware, offline], didKey]).asked "k" = [unaware, unaware, offline] ∧
      (chain [unaware, chain [unaware]]).resolve "k" = .error (.unresolved "k" none) := by
  obtain ⟨-, hall, hdecided, hnested, hleaves⟩ := chain_flattens "k"
  have hunaware : ∀ r ∈ [unaware, unaware], r.Misses "k" := by
    simp [misses_unaware]
  obtain ⟨hresolve, hasked⟩ := hnested [unaware] [unaware, offline] [didKey]
  obtain ⟨hresolve', hasked'⟩ := hdecided _ offline [didKey] hunaware (not_misses_offline "k")
  refine ⟨hresolve.trans hresolve', hasked.trans hasked', ?_⟩
  exact (hleaves [unaware, chain [unaware]]).1.trans (hall _ hunaware).1

end Resolver
end SealedEnvelope
