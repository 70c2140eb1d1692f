/-!
# Tokens

The names of methods and of headers are tokens: non-empty texts over a fixed set of ASCII
characters, among which there is no blank.
-/

namespace QuotaGate.Http

/-- The punctuation that a token may hold besides letters and digits. -/
def tokenPunctuation : List Char :=
  ['!', '#', '$', '%', '&', '\x27', '*', '+', '-', '.', '^', '_', '\x60', '|', '~']

/-- Whether a character may stand in a token. -/
def isTokenChar (c : Char) : Bool := c.isAlphanum || tokenPunctuation.contains c

def isToken (text : String) : Bool := !text.toList.isEmpty && text.toList.all isTokenChar

/-- A request method. Methods are compared by their exact text. -/
structure Method where
  text : String
  isToken_text : isToken text = true := by decide
  deriving DecidableEq

namespace Method

def ofString? (text : String) : Option Method :=
  if valid : isToken text = true then some ⟨text, valid⟩ else none

instance : Repr Method := ⟨fun method _ => repr method.text⟩

def get : Method := ⟨"GET", by decide⟩
def post : Method := ⟨"POST", by decide⟩
def put : Method := ⟨"PUT", by decide⟩
def patch : Method := ⟨"PATCH", by decide⟩
def delete : Method := ⟨"DELETE", by decide⟩

end Method

end QuotaGate.Http
