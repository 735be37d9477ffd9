import SealedEnvelope.Error
import SealedEnvelope.Key.Type
import SealedEnvelope.Text.LowerCase

/-!
# Settings

Three settings, each given as a text or not at all. An empty text counts as not given. The first
setting that cannot be used gives the error.
-/

namespace SealedEnvelope

inductive LogLevel
  | fatal
  | error
  | warn
  | info
  | debug
  | trace
  | silent
  deriving DecidableEq

namespace LogLevel

def all : List LogLevel := [fatal, error, warn, info, debug, trace, silent]

def text : LogLevel → Text
  | fatal => "fatal"
  | error => "error"
  | warn => "warn"
  | info => "info"
  | debug => "debug"
  | trace => "trace"
  | silent => "silent"

def ofText? (t : Text) : Option LogLevel := all.find? fun l => l.text = t

end LogLevel

structure Settings where
  logLevel : LogLevel
  /-- The size of the largest envelope that is accepted, in bytes. -/
  maxEnvelopeBytes : Double
  /-- The type of keys that are made without a choice of type. -/
  defaultKeyType : KeyType

/-- The settings as they are given. -/
structure GivenSettings where
  logLevel : Option Text
  maxEnvelopeBytes : Option Text
  defaultKeyType : Option Text

namespace Settings

/-- The largest envelope, unless another size is set: one mebibyte. -/
def largestEnvelope : Nat := 1048576

/-- What applies where nothing is given. -/
def initial : Settings := ⟨.info, .ofNat largestEnvelope, .ec .p256⟩

/-- A given text, or the one for a setting that is not given. -/
def given (setting : Option Text) (otherwise : Text) : Text :=
  match setting with
  | none | some [] => otherwise
  | some t => t

/-- The sign and the digits at the beginning of a text, behind blanks. -/
def integerParts (t : Text) : Bool × List Nat :=
  let t := t.dropWhile Text.isBlank
  let negative := t.head? = some 0x2D
  let unsigned := if negative ∨ t.head? = some 0x2B then t.drop 1 else t
  (negative, (unsigned.map Text.digit?).takeWhile Option.isSome |>.filterMap id)

/-- The integer at the beginning of a text. -/
def leadingInteger? (t : Text) : Option Double :=
  let (negative, digits) := integerParts t
  if digits.isEmpty then none
  else
    let n := digits.foldl (fun n d => n * 10 + d) 0
    some (.ofRatio negative n 1)

def sizeFault? (size : Double) : Option SizeFault :=
  if ¬size.isFinite then some .notInteger
  else if Double.lt (.ofNat 0) size then none
  else some .notPositive

def load (g : GivenSettings) : Except Error Settings :=
  let fail (fault : SettingFault) : Except Error Settings :=
    .error (.setting fault (KeyType.all.map KeyType.text))
  let level := (given g.logLevel initial.logLevel.text).lowerCase
  let size := (leadingInteger? (given g.maxEnvelopeBytes [])).getD initial.maxEnvelopeBytes
  let keyType := given g.defaultKeyType initial.defaultKeyType.text
  match LogLevel.ofText? level, sizeFault? size, KeyType.ofText? keyType with
  | none, _, _ => fail (.logLevel (LogLevel.all.map LogLevel.text) level)
  | _, some fault, _ => fail (.maxEnvelopeBytes fault)
  | _, _, none => fail (.defaultKeyType (KeyType.all.map KeyType.text) keyType)
  | some logLevel, none, some defaultKeyType => .ok ⟨logLevel, size, defaultKeyType⟩

end Settings
end SealedEnvelope
