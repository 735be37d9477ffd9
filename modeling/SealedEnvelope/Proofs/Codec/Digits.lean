import SealedEnvelope.Text.Basic

/-!
# Digits as code units

An alphabet assigns a unit to each digit, and back. If the two assignments agree then digits and the
texts over the alphabet determine each other.
-/

namespace SealedEnvelope

namespace Digits

variable {base : Nat} {digit : Nat → CodeUnit} {value? : CodeUnit → Option Nat}

theorem mapM_map_digit (hvalue : ∀ n < base, value? (digit n) = some n) {values : List Nat}
    (h : ∀ n ∈ values, n < base) : (values.map digit).mapM value? = some values := by
  induction values with
  | nil => rfl
  | cons n values ih =>
    obtain ⟨hn, hvalues⟩ := List.forall_mem_cons.mp h
    rw [List.map_cons, List.mapM_cons, hvalue n hn, ih hvalues]
    rfl

theorem map_digit_of_mapM (hdigit : ∀ u n, value? u = some n → n < base ∧ digit n = u) {t : Text}
    {values : List Nat} (h : t.mapM value? = some values) :
    (∀ n ∈ values, n < base) ∧ values.map digit = t := by
  induction t generalizing values with
  | nil =>
    obtain rfl := Option.some.inj h
    exact ⟨fun n hn => absurd hn List.not_mem_nil, rfl⟩
  | cons u t ih =>
    simp only [List.mapM_cons, Option.bind_eq_bind, Option.bind_eq_some_iff] at h
    obtain ⟨n, hn, rest, hrest, hvalues⟩ := h
    obtain rfl := Option.some.inj hvalues
    obtain ⟨hlt, hu⟩ := hdigit u n hn
    obtain ⟨hrests, hdigits⟩ := ih hrest
    exact ⟨List.forall_mem_cons.mpr ⟨hlt, hrests⟩, by rw [List.map_cons, hu, hdigits]⟩

theorem exists_of_mem (hdigit : ∀ u n, value? u = some n → n < base ∧ digit n = u) {t : Text}
    {values : List Nat} (h : t.mapM value? = some values) {u : CodeUnit} (hu : u ∈ t) :
    ∃ n < base, digit n = u := by
  obtain ⟨hlt, rfl⟩ := map_digit_of_mapM hdigit h
  obtain ⟨n, hn, hunit⟩ := List.mem_map.mp hu
  exact ⟨n, hlt n hn, hunit⟩

end Digits
end SealedEnvelope
