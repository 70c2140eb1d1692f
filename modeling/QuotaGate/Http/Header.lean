import QuotaGate.Http.Token
import QuotaGate.Text.Blank
import QuotaGate.Text.Utf8

/-!
# Headers

Headers are a list of named values in the order of their arrival. Names are compared without
case, and of several values under one name the first counts. A value may hold any byte but the
control characters, tab excepted; one that holds a byte outside printable ASCII and tab cannot be
read as text.
-/

namespace QuotaGate.Http

/-- The name of a header, kept in lower case. -/
structure HeaderName where
  text : String
  deriving DecidableEq, Repr

namespace HeaderName

def ofString? (text : String) : Option HeaderName :=
  if isToken text then some ⟨Text.lowerAscii text⟩ else none

def authorization : HeaderName := ⟨"authorization"⟩

end HeaderName

/-- The value of a header. A sensitive value is meant for the receiver alone. -/
structure HeaderValue where
  bytes : Bytes
  sensitive : Bool
  deriving DecidableEq, Repr

namespace HeaderValue

def isValueByte (byte : UInt8) : Bool := (byte ≥ 0x20 && byte != 0x7F) || byte == 0x09

def isTextByte (byte : UInt8) : Bool := (byte ≥ 0x20 && byte < 0x7F) || byte == 0x09

def ofBytes? (bytes : Bytes) : Option HeaderValue :=
  if bytes.all isValueByte then some ⟨bytes, false⟩ else none

/-- The value as text, if it can be read as text. -/
def text? (value : HeaderValue) : Option String :=
  if value.bytes.all isTextByte then
    some (String.ofList (value.bytes.map fun byte => Char.ofNat byte.toNat))
  else none

end HeaderValue

/-- Named values in the order of their arrival. -/
abbrev Headers := List (HeaderName × HeaderValue)

namespace Headers

def first? (headers : Headers) (name : HeaderName) : Option HeaderValue :=
  headers.lookup name

/-- The first value of a name as text. Where it cannot be read as text there is none, whatever
values follow. -/
def text? (headers : Headers) (name : HeaderName) : Option String :=
  (headers.first? name).bind HeaderValue.text?

end Headers

end QuotaGate.Http
