import SealedEnvelope.Calendar
import SealedEnvelope.Json.Printer
import SealedEnvelope.MediaType

/-!
# Plain messages

A message with the time at which it was made, in whole seconds since the beginning of 1970, and
possibly the time at which it expires. A clock that shows no valid time makes a time that is no number.
-/

namespace SealedEnvelope

/-- What a message is made of. Its lifetime is in seconds. -/
structure MessageDraft where
  type : Text
  body : Option Json
  sender : Option Text
  receivers : Option (List Text)
  thread : Option Text
  lifetime : Option Double

structure Message where
  type : Text
  created : Double
  body : Option Json
  sender : Option Text
  receivers : Option (List Text)
  thread : Option Text
  expires : Option Double

namespace Message

/-- The whole seconds of an instant. -/
def seconds : Option Int → Double
  | none => .nan
  | some ms => .ofInt (ms / 1000)

/-- The message that a draft makes at the time that a clock shows, in milliseconds. -/
def create (draft : MessageDraft) (clock : Double) : Message :=
  let created := seconds (Calendar.instant? clock)
  { type := draft.type
    created
    body := draft.body
    sender := draft.sender
    receivers := draft.receivers
    thread := draft.thread
    expires := draft.lifetime.map created.add }

/-- The message without its id. -/
def toJson (m : Message) : Json :=
  .ofOptional [("typ", some (.str MediaType.plain)), ("type", some (.str m.type)),
    ("created_time", some (.num m.created)), ("body", m.body), ("from", m.sender.map .str),
    ("to", m.receivers.map fun ts => .arr (ts.map .str)), ("thid", m.thread.map .str),
    ("expires_time", m.expires.map .num)]

end Message
end SealedEnvelope
