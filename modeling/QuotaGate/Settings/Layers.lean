import QuotaGate.Settings.Document
import QuotaGate.Settings.Tree

/-!
# Layered settings

Settings come from a file and from the environment, which is laid over the file value by value. A
variable counts if its name begins with that of the program and two underscores; the rest of the
name is a path, with two underscores between steps.
-/

namespace QuotaGate

/-! ## Files -/

/-- The notation of a file of settings. -/
inductive FileFormat where
  | yaml
  | json
  deriving DecidableEq, Repr

namespace Tree

/-- The words for an infinite number, and for none. -/
def specialNumbers : List String :=
  [".inf", ".Inf", ".INF", "+.inf", "+.Inf", "+.INF", "-.inf", "-.Inf", "-.INF",
    ".nan", ".NaN", ".NAN"]

/-- Reads a whole number of 64 bits in a base. -/
def wholeIn? (base : Nat) (chars : List Char) : Option Int :=
  NumberText.intIn? base NumberText.leastInt64 NumberText.greatestInt64 chars

/-- Reads a whole number with a sign of its base, or after a plus sign. -/
def markedWhole? : List Char → Option Int
  | '0' :: 'x' :: digits => wholeIn? 16 digits
  | '0' :: 'o' :: digits => wholeIn? 8 digits
  | '+' :: digits => wholeIn? 10 digits
  | _ => none

/-- Reads a floating-point number that has a digit. -/
def fraction? (text : String) : Option Binary64 :=
  if text.toList.any Char.isDigit then NumberText.float? text.toList else none

def nullWords : List String := ["", "~", "null"]
def trueWords : List String := ["true", "True", "TRUE"]
def falseWords : List String := ["false", "False", "FALSE"]

/-- What a plain scalar without a tag stands for. The words for special numbers stand for no value
that settings can have. -/
def ofPlain? (text : String) : Option Tree :=
  match markedWhole? text.toList with
  | some value => some (.whole value)
  | none =>
    if nullWords.contains text then some .nothing
    else if trueWords.contains text then some (.flag true)
    else if falseWords.contains text then some (.flag false)
    else
      match wholeIn? 10 text.toList with
      | some value => some (.whole value)
      | none =>
        if specialNumbers.contains text then none
        else
          match fraction? text with
          | some value => some (.fraction value)
          | none => some (.text text)

/-- What a plain scalar with a tag stands for. A text that the tag does not fit stands for
nothing. -/
def ofTagged? (tag text : String) : Option Tree :=
  if tag = Yaml.Composer.coreTag ++ "bool" then
    some (if text = "true" then .flag true else if text = "false" then .flag false else .nothing)
  else if tag = Yaml.Composer.coreTag ++ "int" then
    some (((wholeIn? 10 text.toList).map .whole).getD .nothing)
  else if tag = Yaml.Composer.coreTag ++ "float" then
    if specialNumbers.contains text then none
    else some (((fraction? text).map .fraction).getD .nothing)
  else if tag = Yaml.Composer.coreTag ++ "null" then some .nothing
  else some (.text text)

/-- The name that a key stands for: a text, or a whole number. Other keys name nothing, and no table
can have them. -/
def keyName? : Tree → Option String
  | .text name => some name
  | .whole value => some (toString value)
  | _ => none

/-- Adds a member to a table, which must not have one of the name. -/
def addMember? (key : Tree) (value : Tree) (members : List (String × Tree)) :
    Option (List (String × Tree)) :=
  (keyName? key).bind fun name =>
    if members.any (·.1 = name) then none else some (members ++ [(name, value)])

mutual

/-- The tree of a node. An alias inside the very node it names stands for nothing. -/
def ofNode? : Yaml.Node → Option Tree
  | .scalar content .plain none => ofPlain? content
  | .scalar content .plain (some tag) => ofTagged? tag content
  | .scalar content _ _ => some (.text content)
  | .sequence items _ => (ofItems? items).map .list
  | .mapping entries _ => (ofEntries? entries []).map .table
  | .enclosing _ => some .nothing

def ofItems? : List Yaml.Node → Option (List Tree)
  | [] => some []
  | item :: rest => do
    let item ← ofNode? item
    let rest ← ofItems? rest
    some (item :: rest)

def ofEntries? : List (Yaml.Node × Yaml.Node) → List (String × Tree) →
    Option (List (String × Tree))
  | [], members => some members
  | (key, value) :: rest, members => do
    let key ← ofNode? key
    let value ← ofNode? value
    let members ← addMember? key value members
    ofEntries? rest members

end

mutual

def ofJson : Json.Value → Tree
  | .null => .nothing
  | .bool value => .flag value
  | .number (.whole value) =>
    if value ≤ NumberText.greatestInt64 then .whole value
    else .fraction (Json.Number.whole value).toBinary64
  | .number (.float value) => .fraction value
  | .text value => .text value
  | .array items => .list (ofJsonItems items)
  | .object members => .table (ofJsonMembers members)

def ofJsonItems : List Json.Value → List Tree
  | [] => []
  | item :: rest => ofJson item :: ofJsonItems rest

def ofJsonMembers : List (String × Json.Value) → List (String × Tree)
  | [] => []
  | (name, value) :: rest => (name, ofJson value) :: ofJsonMembers rest

end

/-- The tree of a file. A YAML file without a document is an empty table. -/
def ofFile? (format : FileFormat) (text : String) : Option Tree :=
  let text := Yaml.dropByteOrderMark text
  match format with
  | .json => (Json.Value.ofString? text).map ofJson
  | .yaml =>
    match Yaml.Document.ofText? .lenient text with
    | some [] => some (.table [])
    | some [document] => ofNode? document.root
    | _ => none

/-- The values of a file by key: its root must be a table. -/
def fileEntries? (format : FileFormat) (text : String) : Option (List (String × Tree)) :=
  match ofFile? format text with
  | some (.table members) => some members
  | _ => none

/-! ## The environment -/

/-- What the names of variables begin with that count. -/
def variableStart : String := "ratewarden__"

/-- What stands between the steps of a path in the name of a variable. -/
def variableSeparator : String := "__"

/-- The value that the text of a variable stands for: a flag, a number, or itself. -/
def ofVariable (text : String) : Tree :=
  let word := Text.lower text
  if word = "true" then .flag true
  else if word = "false" then .flag false
  else
    match wholeIn? 10 text.toList with
    | some value => .whole value
    | none =>
      match NumberText.float? text.toList with
      | some value => .fraction value
      | none => .text text

/-- The key of a variable, if it counts. Names are compared without case. -/
def variableKey? (name : String) : Option String :=
  let name := (Text.lower name).toList
  if variableStart.toList.isPrefixOf name then
    let path := name.drop variableStart.length
    some (String.ofList (Text.replaceChars variableSeparator.toList ['.'] path))
  else none

/-- The values of the variables that count, by key. -/
def variableEntries (environment : List (String × String)) : List (String × Tree) :=
  environment.filterMap fun (name, value) =>
    (variableKey? name).map fun key => (key, ofVariable value)

/-- The layers merged into one tree, the later over the earlier, where all keys can be reached. -/
def merge? (layers : List (List (String × Tree))) : Option Tree :=
  layers.flatten.foldlM setKey? (.table [])

end Tree

/-! ## Settings -/

/-- A file of settings that was asked for: its text if it can be read. -/
structure SettingsFile where
  format : FileFormat
  text : Option String
  deriving DecidableEq, Repr

namespace Settings

/-- The values of a file that may not have been asked for, if they make a tree. -/
def fileLayer? : Option SettingsFile → Option (List (String × Tree))
  | none => some []
  | some file => (file.text.bind (Tree.fileEntries? file.format)).filter fun layer =>
      (Tree.merge? [layer]).isSome

/-- Reads the settings of a file and the environment. -/
def ofLayers? (file : Option SettingsFile) (environment : List (String × String)) :
    Option Settings :=
  (fileLayer? file).bind fun layer =>
    (Tree.merge? [layer, Tree.variableEntries environment]).bind (ofValue? Tree.reader)

/-- The settings of a file and the environment. -/
def load (file : Option SettingsFile) (environment : List (String × String)) :
    Except Failure Settings :=
  ofReading (ofLayers? file environment)

end Settings

end QuotaGate
