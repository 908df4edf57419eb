import Showcase.Config
import Showcase.Mail.Notifier

/-!
# The relay

A relay takes messages as JSON over HTTP. What it is sent is fixed here to the last character;
what comes back is up to the network, of which only the status of a response counts: a message is
delivered when the status is one of success.
-/

namespace Showcase

/-- One character inside a JSON string. -/
def jsonChar (c : Char) : Text :=
  if c = '"' then "\\\""
  else if c = '\\' then "\\\\"
  else if c = '\x08' then "\\b"
  else if c = '\x0c' then "\\f"
  else if c = '\n' then "\\n"
  else if c = '\r' then "\\r"
  else if c = '\t' then "\\t"
  else if c.toNat < 0x20 then "\\u00".toList ++ (hexByte (UInt8.ofNat c.toNat)).map Char.toLower
  else [c]

/-- A text as a JSON string. -/
def jsonString (s : Text) : Text := '"' :: s.flatMap jsonChar ++ ['"']

namespace Relay

/-- A request with the message to deliver. -/
structure Request where
  endpoint : Text
  contentType : Text
  body : Text
  deriving DecidableEq, Repr

/-- The JSON object with the sender's name and the message. -/
def body (sender message : Text) : Text :=
  "\x7b\"name\":".toList ++ jsonString sender ++ ",\"message\":".toList ++ jsonString message ++
    "\x7d".toList

def request (endpoint sender message : Text) : Request :=
  { endpoint, contentType := "application/json", body := body sender message }

/-- The first line of a request for a path. -/
def requestLine (path : Text) : Text := "POST ".toList ++ path ++ " HTTP/1.1".toList

/-- The status says that the message was taken. -/
def isSuccess (status : Nat) : Bool := 200 ≤ status && status ≤ 299

end Relay

/-- The status of the response to a request, if a response comes. -/
abbrev Network := Relay.Request → Option Nat

namespace Notifier

/-- Posts every message to the relay; no response is a refusal. -/
def relay (network : Network) (endpoint : Text) : Notifier := fun _ m =>
  .answer 0 (((network (Relay.request endpoint m.sender m.body)).map Relay.isSuccess).getD false)

/-- The notifier that a configuration asks for. -/
def ofConfig (network : Network) (c : NotifierConfig) : Notifier :=
  match c.endpoint with
  | none => disabled
  | some endpoint => relay network endpoint

end Notifier

/-- The network in which no request is answered. -/
def Network.none : Network := fun _ => Option.none

end Showcase
