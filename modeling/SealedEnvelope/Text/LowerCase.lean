import SealedEnvelope.Text.CaseData
import SealedEnvelope.Text.Utf8

/-!
# Lower case

Each letter goes to its lower case form, with two exceptions: a capital I with a dot becomes an i and
a combining dot, and a capital sigma becomes the final form when a cased letter stands before it and
none after it, marks not counted. Surrogates without a partner stay as they are.
-/

namespace SealedEnvelope

namespace Text

/-- A code point, or a surrogate without a partner. -/
inductive Piece
  | scalar (c : Nat)
  | surrogate (u : CodeUnit)

def piecesOnto : Text → List Piece → List Piece
  | [], done => done.reverse
  | [u], done => (pieceOfUnit u :: done).reverse
  | u :: v :: rest, done =>
    if isHighSurrogate u && isLowSurrogate v then piecesOnto rest (.scalar (scalarOfPair u v) :: done)
    else piecesOnto (v :: rest) (pieceOfUnit u :: done)
where
  pieceOfUnit (u : CodeUnit) : Piece :=
    if isHighSurrogate u || isLowSurrogate u then .surrogate u else .scalar u.toNat

def inRanges (ranges : List (Nat × Nat)) (c : Nat) : Bool :=
  ranges.any fun r => r.1 ≤ c && c ≤ r.2

/-- Whether the first piece that counts is a cased letter. -/
def meetsCased : List Piece → Bool
  | [] => false
  | .surrogate _ :: _ => false
  | .scalar c :: rest =>
    if inRanges CaseData.ignorableRanges c then meetsCased rest
    else inRanges CaseData.casedRanges c

def lowerScalar (c : Nat) : Nat :=
  match CaseData.lowerRuns.find? fun r =>
      r.first ≤ c && c ≤ r.last && (c - r.first) % r.step == 0 with
  | some r => ((c : Int) + r.distance).toNat
  | none => c

def capitalSigma : Nat := 0x3A3

def lowerPiece (before after : List Piece) : Piece → Text
  | .surrogate u => [u]
  | .scalar c =>
    if c = 0x130 then [0x69, 0x307]
    else if c = capitalSigma then
      if meetsCased before && !meetsCased after then [0x3C2] else [0x3C3]
    else unitsOfScalar (lowerScalar c)

/-- Lower case forms, with the pieces already passed, nearest first. -/
def lowerPieces : (before after : List Piece) → Text
  | _, [] => []
  | before, p :: after => lowerPiece before after p ++ lowerPieces (p :: before) after

def lowerCase (t : Text) : Text := lowerPieces [] (piecesOnto t [])

end Text
end SealedEnvelope
