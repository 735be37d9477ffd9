import Mathlib.Data.List.DropRight
import SealedEnvelope.Envelope.Pack
import SealedEnvelope.Proofs.Envelope.Unpacking
import SealedEnvelope.Proofs.Json.Scalars
import SealedEnvelope.Proofs.Jws.RoundTrip

/-!
# One signed envelope, two serializations

A compact text is no JSON, whatever its payload and signature are, so it cannot be mistaken for anything
else. The envelope that it is read as has a general text as well, and both texts are unpacked with one
outcome. Blanks around a text do not belong to it when it is unpacked, but the compact reader itself
takes those at the end for a part of the signature.
-/

namespace SealedEnvelope

namespace Text

theorem trim_append_mark {a : Text} {mark : CodeUnit} (hmark : isBlank mark = false)
    (hfirst : ∀ u, a.head? = some u → isBlank u = false) (c : Text) :
    (a ++ mark :: c).trim = a ++ mark :: c.rdropWhile isBlank := by
  have hstart : (a ++ mark :: c).dropWhile isBlank = a ++ mark :: c := by
    apply dropWhile_isBlank
    intro u hu
    cases a with
    | nil => exact Option.some.inj hu ▸ hmark
    | cons first a => exact hfirst u hu
  have hend : (mark :: a.reverse).dropWhile isBlank = mark :: a.reverse :=
    List.dropWhile_cons_of_neg (hmark ▸ Bool.false_ne_true)
  rw [trim, hstart, List.reverse_append, List.reverse_cons, List.append_assoc, List.singleton_append,
    List.dropWhile_append, hend]
  split
  · rename_i hblanks
    rw [List.rdropWhile, List.isEmpty_iff.mp hblanks, List.reverse_cons, List.reverse_reverse]
    rfl
  · rw [List.reverse_append, List.reverse_cons, List.reverse_reverse, List.append_assoc]
    rfl

end Text

namespace Jws

variable {t : Text} {j : Jws}

theorem exists_digit_of_decode? {encoded : Text} {header : JwsHeader}
    (h : JwsHeader.decode? encoded = some header) :
    ∃ n < 64, ∃ rest, encoded = Base64url.digit n :: rest := by
  cases encoded with
  | nil => cases h
  | cons u rest =>
    obtain ⟨b, -, hb, -⟩ := JwsHeader.decode?_eq_some.mp h
    obtain ⟨n, hn, rfl⟩ := Base64url.exists_digit_of_decode? hb List.mem_cons_self
    exact ⟨n, hn, rest, rfl⟩

theorem bare_digit : ∀ n < 64, Json.Reading.isSpace (Base64url.digit n) = false ∧
    Base64url.digit n ≠ 0x22 ∧ Base64url.digit n ≠ 0x5B ∧ Base64url.digit n ≠ 0x7B := by
  decide

theorem parse?_of_ofCompact (h : ofCompact t = .ok j) : Json.parse? t = none := by
  obtain ⟨protectedHeader, payload, signature, header, kid, hparts, hheader, -⟩ :=
    ofCompact_eq_ok.mp h
  obtain ⟨rfl, -⟩ := splitOn_eq_three.mp hparts
  obtain ⟨n, hn, rest, rfl⟩ := exists_digit_of_decode? hheader
  obtain ⟨hspace, hquote, hbracket, hbrace⟩ := bare_digit n hn
  exact Json.parse?_eq_none_of_points (Json.Reading.bare_begin hspace hquote hbracket hbrace)
    rest payload signature

/-- The envelope without the blanks at the ends of its encoded signatures. -/
def trimmed (j : Jws) : Jws :=
  { j with signatures := j.signatures.map fun s =>
      { s with signature := s.signature.rdropWhile Text.isBlank } }

/-- What is trimmed from a compact text are blanks at the end of the signature. -/
theorem ofCompact_trim (h : ofCompact t = .ok j) : ofCompact t.trim = .ok j.trimmed := by
  obtain ⟨protectedHeader, payload, signature, header, kid, hparts, hheader, hkid, rfl⟩ :=
    ofCompact_eq_ok.mp h
  obtain ⟨rfl, hheaderDot, hpayloadDot, hsignatureDot⟩ := splitOn_eq_three.mp hparts
  have htrim : (compactText protectedHeader payload signature).trim =
      compactText protectedHeader payload (signature.rdropWhile Text.isBlank) := by
    obtain ⟨n, hn, rest, rfl⟩ := exists_digit_of_decode? hheader
    have hassoc : ∀ s, compactText (Base64url.digit n :: rest) payload s =
        (Base64url.digit n :: (rest ++ dot :: payload)) ++ dot :: s := by
      intro s
      simp [compactText]
    rw [hassoc, hassoc]
    apply Text.trim_append_mark rfl
    intro u hu
    obtain rfl := Option.some.inj hu
    exact Base64url.isBlank_digit n hn
  refine ofCompact_eq_ok.mpr ⟨protectedHeader, payload, signature.rdropWhile Text.isBlank, header, kid,
    ?_, hheader, hkid, rfl⟩
  rw [htrim]
  refine splitOn_eq_three.mpr ⟨rfl, hheaderDot, hpayloadDot, fun hdot => hsignatureDot ?_⟩
  exact (List.rdropWhile_prefix _ _).subset hdot

end Jws

namespace Envelope

variable {s : Text} {j : Jws}

theorem ofText_of_ofCompact (h : Jws.ofCompact s = .ok j) :
    Wire.ofText s.trim = .ok (.signed j.trimmed) := by
  have htrim := Jws.ofCompact_trim h
  obtain ⟨_, _, _, _, _, hparts, -⟩ := Jws.ofCompact_eq_ok.mp htrim
  have hcompact : Wire.isCompact s.trim = true := by
    rw [Wire.isCompact, hparts]
    rfl
  rw [Wire.ofText, Jws.parse?_of_ofCompact htrim]
  simp only [hcompact, if_true, htrim]
  rfl

theorem ofText_serialized_jws (hne : j.signatures ≠ []) (hkids : ∀ e ∈ j.signatures, e.kid ≠ []) :
    Wire.ofText j.serialized.trim = .ok (.signed j) := by
  rw [Jws.serialized, ofText_text j.settled_toJson, Wire.ofJson, if_pos (by rfl),
    Jws.ofJson_toJson hne hkids]
  rfl

theorem unpack_congr {t : Text} {options : UnpackOptions}
    (hs : options.maxEnvelopeBytes.lt (.ofNat s.utf8.length) = false)
    (ht : options.maxEnvelopeBytes.lt (.ofNat t.utf8.length) = false)
    (h : Wire.ofText s.trim = Wire.ofText t.trim) (keys : KeyManager) :
    unpack s keys options = unpack t keys options := by
  simp only [unpack, checkSize_eq_ok.mpr hs, checkSize_eq_ok.mpr ht, h]

/-- The envelope of a compact text that names its key is accepted in the general form as well, and
the two texts of what the compact one is without blanks around it are unpacked with one outcome. -/
theorem unpack_serializations (h : Jws.ofCompact s = .ok j) (hkids : ∀ e ∈ j.signatures, e.kid ≠ []) :
    Jws.ofJson (some j.toJson) = .ok j ∧
      Jws.ofCompact s.trim = .ok j.trimmed ∧ (s.trim = s → j.trimmed = j) ∧
      ∀ (keys : KeyManager) (options : UnpackOptions),
        options.maxEnvelopeBytes.lt (.ofNat s.utf8.length) = false →
        options.maxEnvelopeBytes.lt (.ofNat j.trimmed.serialized.utf8.length) = false →
          unpack s keys options = unpack j.trimmed.serialized keys options := by
  have hne : j.signatures ≠ [] := by
    obtain ⟨_, _, _, _, _, -, -, -, rfl⟩ := Jws.ofCompact_eq_ok.mp h
    exact List.cons_ne_nil _ _
  have hnames : ∀ e ∈ j.trimmed.signatures, e.kid ≠ [] := by
    intro e he
    obtain ⟨entry, hentry, rfl⟩ := List.mem_map.mp he
    exact hkids entry hentry
  refine ⟨Jws.ofJson_toJson hne hkids, Jws.ofCompact_trim h, ?_, ?_⟩
  · intro htrim
    have hsame := Jws.ofCompact_trim h
    rw [htrim, h] at hsame
    exact (Except.ok.inj hsame).symm
  · intro keys options hs ht
    apply unpack_congr hs ht
    rw [ofText_of_ofCompact h, ofText_serialized_jws (mt List.map_eq_nil_iff.mp hne) hnames]

theorem unpack_serializations_blank :
    ∃ t j u, pack .null (.signed AgentKey.sample.keyId true) ⟨[.sample], none⟩ (fun _ => 0) = .ok t ∧
      Jws.ofCompact (t ++ [0x20]) = .ok j ∧ j.trimmed ≠ j ∧
      unpack (t ++ [0x20]) ⟨[.sample], none⟩ { maxEnvelopeBytes := .infinite false } = .ok u ∧
      unpack j.trimmed.serialized ⟨[.sample], none⟩ { maxEnvelopeBytes := .infinite false } =
        .ok u := by
  let keys : KeyManager := ⟨[.sample], none⟩
  let options : UnpackOptions := { maxEnvelopeBytes := .infinite false }
  have hrun : (do
      let t ← pack .null (.signed AgentKey.sample.keyId true) keys (fun _ => 0)
      let j ← Jws.ofCompact (t ++ [0x20])
      let u ← unpack (t ++ [0x20]) keys options
      if j.trimmed ≠ j ∧ ∀ e ∈ j.signatures, e.kid ≠ [] then .ok u
        else .error .refused).toOption.isSome = true := by
    decide +kernel
  obtain ⟨_, hok⟩ := exists_ok hrun
  simp only [bind_eq_ok] at hok
  obtain ⟨t, hpack, j, hj, u, hunpack, hchecked⟩ := hok
  split at hchecked
  · rename_i hdiffer
    obtain ⟨-, -, -, hsame⟩ := unpack_serializations hj hdiffer.2
    refine ⟨t, j, u, hpack, hj, hdiffer.1, hunpack, ?_⟩
    rw [← hsame keys options (infinite_lt _) (infinite_lt _)]
    exact hunpack
  · cases hchecked

def compactSample (kid signature : Text) : Text :=
  Jws.compactText (JwsHeader.encode ⟨MediaType.signed, .edDsa, some kid⟩) [] signature

theorem ofCompact_sample (kid : Text) {signature : Text} (h : Jws.dot ∉ signature) :
    Jws.ofCompact (compactSample kid signature) =
      .ok ⟨[], [⟨JwsHeader.encode ⟨MediaType.signed, .edDsa, some kid⟩, signature, kid⟩]⟩ :=
  Jws.ofCompact_eq_ok.mpr ⟨_, _, _, _, _,
    Jws.splitOn_eq_three.mpr ⟨rfl, Base64url.dot_not_mem_encode _, List.not_mem_nil, h⟩,
    JwsHeader.decode?_encode _, rfl, rfl⟩

/-- A blank at the end of a compact text is a part of the signature for the compact reader but not
when the text is unpacked, and an empty id is refused in the general form. -/
theorem serializations_differ :
    (∃ j, Jws.ofCompact (compactSample "k" " ") = .ok j ∧
      (∀ t ∈ [compactSample "k" " ", j.serialized],
        Settings.initial.maxEnvelopeBytes.lt (.ofNat t.utf8.length) = false) ∧
      unpack (compactSample "k" " ") (.empty none) {} ≠ unpack j.serialized (.empty none) {}) ∧
    ∃ j, Jws.ofCompact (compactSample [] []) = .ok j ∧ Jws.ofJson (some j.toJson) ≠ .ok j := by
  refine ⟨⟨_, ofCompact_sample "k" (by decide), by decide +kernel, ?_⟩,
    ⟨_, ofCompact_sample [] List.not_mem_nil, ?_⟩⟩
  · intro h
    have hcodes := congrArg (fun outcome => (outcome.mapError Error.code?).map fun _ => ()) h
    revert hcodes
    decide +kernel
  · intro h
    have hread := toOption_eq_some.mpr h
    revert hread
    decide +kernel

end Envelope
end SealedEnvelope
