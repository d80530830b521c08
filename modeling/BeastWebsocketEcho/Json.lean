import Mathlib.Data.Rat.Defs

/-!
# JSON values

What the exchange clients look at of the JSON they receive, and what they build to send. The
text of a value is left to the library that reads and writes it.
-/

namespace BeastWebsocketEcho

inductive Json
  | null
  | boolean (value : Bool)
  | number (value : ℚ)
  | string (value : String)
  | array (items : List Json)
  | object (fields : List (String × Json))

/-- How the library reads text made of `B`, and writes it as `F`. -/
structure JsonText (B F : Type*) where
  /-- `none` if the text is not JSON, for which it throws. -/
  parse : List B → Option Json
  dump : Json → F

namespace Json

/-- The value of a field; anything but an object has none. -/
def field (key : String) : Json → Option Json
  | .object fields => fields.lookup key
  | _ => none

def asString : Json → Option String
  | .string value => some value
  | _ => none

def asNumber : Json → Option ℚ
  | .number value => some value
  | _ => none

end Json
end BeastWebsocketEcho
