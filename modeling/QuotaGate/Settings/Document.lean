import QuotaGate.Number.Decimal
import QuotaGate.Settings.Fields
import QuotaGate.Yaml.Node

/-!
# Settings from a YAML document

A text holds one document of settings, or none. A scalar gives a text whatever its style; it gives
a number only where it is plain, or a literal block tagged as a number. Where nothing is written
for a section, its settings keep their defaults; an explicit null is no section.
-/

namespace QuotaGate

namespace Yaml

/-- Drops a byte order mark at the beginning of a text. -/
def dropByteOrderMark (text : String) : String :=
  match text.toList with
  | c :: rest => if c.toNat = 0xFEFF then String.ofList rest else text
  | [] => text

namespace Node

/-- A node of a document, an alias replaced by the node it stands for. -/
def resolve (document : Document) : Node → Node
  | enclosing number => (document.named.lookup number).getD nothing
  | node => node

def text? (document : Document) (node : Node) : Option String :=
  match node.resolve document with
  | scalar text _ _ => some text
  | _ => none

/-- Whether a text is a decimal numeral with a zero that does not count. -/
def hasIdleZero (chars : List Char) : Bool :=
  match chars with
  | '0' :: c :: rest => (c :: rest).all Char.isDigit
  | _ => false

/-- Reads a whole number: an optional plus sign, and digits of base ten, or of another base after
its sign. -/
def natOfText? (most : Nat) (text : String) : Option Nat :=
  let unsigned := NumberText.dropPlus text.toList
  let value :=
    match unsigned with
    | '0' :: 'x' :: digits => NumberText.digitsIn? 16 digits
    | '0' :: 'o' :: digits => NumberText.digitsIn? 8 digits
    | '0' :: 'b' :: digits => NumberText.digitsIn? 2 digits
    | digits => if hasIdleZero digits then none else NumberText.digitsIn? 10 digits
  value.filter (· ≤ most)

def nat? (document : Document) (most : Nat) (node : Node) : Option Nat :=
  match node.resolve document with
  | scalar text .plain _ => natOfText? most text
  | scalar text .literal (some tag) =>
    if tag = Composer.coreTag ++ "int" then natOfText? most text else none
  | _ => none

def nullWords : List String := ["null", "Null", "NULL", "~"]

/-- Whether a value is left empty. A tag other than that of null makes a scalar a value; the tag
of null makes one empty, whose text must say so. -/
def optional? (document : Document) (node : Node) : Option (Option Node) :=
  match node.resolve document with
  | scalar text .plain none =>
    some (if text.isEmpty || nullWords.contains text then none else some node)
  | scalar text .plain (some tag) =>
    if tag = "!" then some (if text.isEmpty || nullWords.contains text then none else some node)
    else if tag = Composer.coreTag ++ "null" then
      if nullWords.contains text then some none else none
    else some (some node)
  | _ => some (some node)

/-- The named values of a section. Every key is a scalar, and no name of a setting comes twice. -/
def entries? (document : Document) (names : List String) (node : Node) :
    Option (List (String × Node)) :=
  match node.resolve document with
  | mapping entries _ => do
    let entries ← entries.mapM fun (key, value) =>
      (key.text? document).map fun name => (name, value)
    let known := entries.map Prod.fst |>.filter names.contains
    if known.length = known.eraseDups.length then some entries else none
  | scalar "" .plain _ => some []
  | _ => none

end Node

/-- How the nodes of a document are read. -/
def Document.reader (document : Document) : Reader Node where
  entries? := Node.entries? document
  text? := Node.text? document
  nat? := Node.nat? document
  optional? := Node.optional? document

end Yaml

namespace Settings

/-- Reads settings out of the documents of a text. -/
def ofDocuments? : List Yaml.Document → Option Settings
  | [] => some default
  | [document] => ofValue? document.reader document.root
  | _ => none

def ofYaml (text : String) : Except Failure Settings :=
  ofReading
    ((Yaml.Document.ofText? .strict (Yaml.dropByteOrderMark text)).bind ofDocuments?)

/-- The settings of a file, given its text if it can be read. -/
def ofFile (text : Option String) : Except Failure Settings :=
  match text with
  | some text => ofYaml text
  | none => .error .unreadable

end Settings

end QuotaGate
