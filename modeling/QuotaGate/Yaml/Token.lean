import QuotaGate.Yaml.Scalar

/-!
# Tokens

The tokens of a YAML text are its indicators and scalars, and the beginnings and ends of its
blocks, which follow from indentation. A key need not be marked: whatever may be one is remembered
until a colon on the same line shows that it is, and its tokens are put in after the fact.
-/

namespace QuotaGate.Yaml

/-- A token. -/
inductive Token where
  | version (major minor : Nat)
  /-- What a tag handle stands for. -/
  | handle (name replacement : List Char)
  | documentStart
  | documentEnd
  | blockSequenceStart
  | blockMappingStart
  | blockEnd
  | flowSequenceStart
  | flowSequenceEnd
  | flowMappingStart
  | flowMappingEnd
  | blockEntry
  | flowEntry
  | key
  | value
  | alias (name : List Char)
  | anchor (name : List Char)
  | tag (handle suffix : List Char)
  | scalar (text : List Char) (style : Style)
  deriving DecidableEq, Repr

namespace Token

/-- Whether a value may follow with no blank after its colon. -/
def isQuotedOrClosed : Token → Bool
  | scalar _ .singleQuoted | scalar _ .doubleQuoted | flowSequenceEnd | flowMappingEnd => true
  | _ => false

end Token

/-- Something that a colon may show to be a key. -/
structure PossibleKey where
  /-- The number of its first token. -/
  number : Nat
  /-- Whether nothing else can stand there. -/
  required : Bool
  index : Nat
  line : Nat
  column : Nat

/-- A text as far as it has been read. -/
structure Scanner where
  cursor : Cursor
  /-- The tokens so far, the last one first. -/
  tokens : List Token
  count : Nat
  /-- The column of the innermost block, or -1 at the root. -/
  indent : Int
  /-- The columns of the blocks around it. -/
  outer : List Int
  /-- Whether what comes belongs to a key or an item of the innermost block and keeps a column
  further in. -/
  hanging : Bool
  /-- Whether a key may begin here. -/
  keyAllowed : Bool
  /-- The possible key of the innermost collection. -/
  key : Option PossibleKey
  /-- Those of the collections around the innermost brackets. -/
  outerKeys : List (Option PossibleKey)

namespace Scanner

def start (chars : List Char) : Scanner where
  cursor := .start chars
  tokens := []
  count := 0
  indent := -1
  outer := []
  hanging := false
  keyAllowed := true
  key := none
  outerKeys := []

/-- Whether the place is inside brackets. -/
def inFlow (scanner : Scanner) : Bool := !scanner.outerKeys.isEmpty

def emit (scanner : Scanner) (token : Token) : Scanner :=
  { scanner with tokens := token :: scanner.tokens, count := scanner.count + 1 }

/-- Puts a token in front of the one with a number. -/
def insert (scanner : Scanner) (number : Nat) (token : Token) : Scanner :=
  let (after, before) := scanner.tokens.splitAt (scanner.count - number)
  { scanner with tokens := after ++ token :: before, count := scanner.count + 1 }

def skip (scanner : Scanner) (count : Nat) : Scanner :=
  { scanner with cursor := scanner.cursor.skip count }

/-! ## Possible keys -/

/-- Remembers that a key may begin here. What was remembered before gives way, unless it had to be
a key. -/
def saveKey? (scanner : Scanner) : Option Scanner :=
  if scanner.keyAllowed then
    if scanner.key.any PossibleKey.required then none
    else
      let cursor := scanner.cursor
      let required := !scanner.inFlow && scanner.indent == (cursor.column : Int)
      some { scanner with
        key := some ⟨scanner.count, required, cursor.index, cursor.line, cursor.column⟩ }
  else some scanner

/-- Gives up the possible key, unless it had to be one. -/
def dropKey? (scanner : Scanner) : Option Scanner :=
  if scanner.key.any PossibleKey.required then none else some { scanner with key := none }

def longestKey : Nat := 1024

/-- Whether a possible key began on another line or too far back. -/
def isStale (cursor : Cursor) (key : PossibleKey) : Bool :=
  key.line < cursor.line || key.index + longestKey < cursor.index

/-- Gives up the possible keys that have become stale, unless one had to be a key. -/
def dropStale? (dialect : Dialect) (scanner : Scanner) : Option Scanner :=
  if scanner.inFlow && dialect.longFlowKeys then some scanner
  else
    let keys := scanner.key :: scanner.outerKeys
    let stale := fun (key : Option PossibleKey) => key.any (isStale scanner.cursor)
    if keys.any fun key => stale key && key.any PossibleKey.required then none
    else
      let fresh := fun key => if stale key then none else key
      some { scanner with key := fresh scanner.key, outerKeys := scanner.outerKeys.map fresh }

/-! ## Indentation -/

def depth (scanner : Scanner) : Int :=
  if scanner.hanging then scanner.indent + 1 else scanner.indent

/-- Makes what comes keep a column further in than the innermost block, if there is one. Inside
brackets nothing changes. -/
def hang (dialect : Dialect) (scanner : Scanner) : Scanner :=
  if dialect.deepContent && !scanner.inFlow && !scanner.outer.isEmpty then
    { scanner with hanging := true }
  else scanner

/-- The place itself, unless a comment begins here that needs a blank before it. -/
def apart? (dialect : Dialect) (scanner : Scanner) : Option Scanner :=
  (scanner.cursor.apart? dialect).map fun _ => scanner

/-- Opens a block at a column, if that is further in. The token comes in front of the one with a
number, where there is one. -/
def roll (scanner : Scanner) (column : Nat) (number : Option Nat) (token : Token) : Scanner :=
  if scanner.inFlow || (column : Int) ≤ scanner.indent then scanner
  else
    let scanner :=
      { scanner with
        indent := column
        outer := scanner.indent :: scanner.outer
        hanging := false }
    match number with
    | some number => scanner.insert number token
    | none => scanner.emit token

/-- Closes the blocks further in than a column. -/
def unrollTo (column : Int) (indent : Int) : List Int → Nat × Int × List Int
  | [] => (0, indent, [])
  | next :: outer =>
    if column < indent then
      let (closed, indent, outer) := unrollTo column next outer
      (closed + 1, indent, outer)
    else (0, indent, next :: outer)

/-- Closes the blocks further in than a column. Inside brackets there is nothing to close. -/
def unroll (scanner : Scanner) (column : Int) : Scanner :=
  if scanner.inFlow then scanner
  else
    let (closed, indent, outer) := unrollTo column scanner.indent scanner.outer
    { scanner with
      indent
      outer
      hanging := scanner.hanging && scanner.indent < column
      tokens := List.replicate closed .blockEnd ++ scanner.tokens
      count := scanner.count + closed }

/-! ## Blanks and comments -/

/-- Moves over blanks, comments and line breaks. `leading` tells whether only blanks have come on
this line. -/
def skipGap? (dialect : Dialect) : Nat → Bool → Scanner → Option Scanner
  | 0, _, _ => none
  | fuel + 1, leading, scanner =>
    let cursor := scanner.cursor
    match cursor.rest with
    | c :: _ =>
      if c = ' ' then skipGap? dialect fuel leading (scanner.skip 1)
      else if c = '\t' ∧ dialect.freeTabs then
        if leading && !scanner.outer.isEmpty && (cursor.column : Int) < scanner.depth then
          let cursor := (cursor.span isBlank).2
          if dialect.atBreak cursor.rest || headIs (· = '#') cursor.rest then
            skipGap? dialect fuel leading { scanner with cursor }
          else none
        else skipGap? dialect fuel leading (scanner.skip 1)
      else if c = '\t' ∧ (scanner.inFlow ∨ !scanner.keyAllowed) then
        skipGap? dialect fuel leading (scanner.skip 1)
      else if c = '#' then
        skipGap? dialect fuel leading { scanner with cursor := cursor.skipLine dialect }
      else if dialect.isBreak c then
        skipGap? dialect fuel true { scanner with
          cursor := cursor.skipBreak dialect
          keyAllowed := scanner.keyAllowed || !scanner.inFlow }
      else some scanner
    | [] => some scanner

/-! ## Names, tags and directives -/

/-- Whether a character may stand in a name. -/
def isWordChar (c : Char) : Bool := c.isAlphanum || c = '_' || c = '-'

/-- What may follow an anchor or an alias besides a gap. -/
def anchorEnds : List Char := ['?', ':', ',', ']', '\x7d', '%', '@', '\x60']

def anchorName? (dialect : Dialect) (cursor : Cursor) : Option (List Char × Cursor) :=
  let isNameChar (c : Char) : Bool :=
    if dialect.freeAnchors then !isBlank c && !dialect.isBreak c && !isFlowIndicator c
    else isWordChar c
  let (name, cursor) := cursor.span isNameChar
  let ends :=
    dialect.freeAnchors || dialect.atGap cursor.rest || headIs anchorEnds.contains cursor.rest
  if name.isEmpty || !ends then none else some (name, cursor)

/-- The characters of a tag besides letters, digits, `-` and `_`. -/
def tagPunctuation : List Char :=
  [';', '/', '?', ':', '@', '&', '=', '+', '$', '.', '%', '!', '~', '*', '\x27', '(', ')']

/-- Whether a character may stand in a tag. Between angle brackets there are more. -/
def isTagChar (bracketed : Bool) (c : Char) : Bool :=
  isWordChar c || tagPunctuation.contains c || (bracketed && (c = ',' || c = '[' || c = ']'))

/-- Reads the handle of a tag: an exclamation mark, and a word with another one, as far as they
are there. -/
def tagHandle (cursor : Cursor) : List Char × Cursor :=
  let (word, after) := (cursor.skip 1).span isWordChar
  if headIs (· = '!') after.rest then ('!' :: word ++ ['!'], after.skip 1) else ('!' :: word, after)

def tag? (dialect : Dialect) (inFlow : Bool) (cursor : Cursor) : Option (Token × Cursor) := do
  let (token, cursor) ←
    if headIs (· = '<') (cursor.rest.drop 1) then do
      let (suffix, cursor) := (cursor.skip 2).span (isTagChar true)
      if suffix.isEmpty || !headIs (· = '>') cursor.rest then none
      else some (Token.tag [] suffix, cursor.skip 1)
    else do
      let (handle, after) := tagHandle cursor
      let (suffix, rest) := after.span (isTagChar false)
      if handle.length > 1 && handle.getLast? = some '!' then
        if suffix.isEmpty then none else some (.tag handle suffix, rest)
      else
        let suffix := handle.drop 1 ++ suffix
        if suffix.isEmpty then some (.tag [] ['!'], rest) else some (.tag ['!'] suffix, rest)
  let ends := dialect.atGap cursor.rest || (inFlow && headIs (· = ',') cursor.rest) ||
    (inFlow && dialect.looseFlow && headIs isFlowIndicator cursor.rest)
  if ends then some (token, cursor) else none

/-- Reads a number of at most nine digits. -/
def versionNumber? (cursor : Cursor) : Option (Nat × Cursor) :=
  let (digits, cursor) := cursor.span Char.isDigit
  if digits.isEmpty || digits.length > 9 then none
  else some (digits.foldl (fun value digit => value * 10 + (digit.toNat - '0'.toNat)) 0, cursor)

/-- Reads a directive after its percent sign, without the rest of its line. -/
def directive? (dialect : Dialect) (cursor : Cursor) : Option (Token × Cursor) := do
  let (name, cursor) := cursor.span isWordChar
  if name.isEmpty || !dialect.atGap cursor.rest then none
  else if name = ['Y', 'A', 'M', 'L'] then do
    let (major, cursor) ← versionNumber? (cursor.span isBlank).2
    if headIs (· = '.') cursor.rest then do
      let (minor, cursor) ← versionNumber? (cursor.skip 1)
      some (.version major minor, cursor)
    else none
  else if name = ['T', 'A', 'G'] then
    let start := (cursor.span isBlank).2
    let (handle, cursor) := tagHandle start
    let (replacement, after) := (cursor.span isBlank).2.span (isTagChar true)
    if headIs (· = '!') start.rest && (handle.length = 1 || handle.getLast? = some '!') &&
        atBlank cursor.rest && !replacement.isEmpty && dialect.atGap after.rest then
      some (.handle handle replacement, after)
    else none
  else if dialect.freeDirectives then some (.handle [] [], cursor.skipLine dialect)
  else none

/-! ## One token at a time -/

/-- Ends the block at a document marker or a directive. -/
def endBlocks? (scanner : Scanner) : Option Scanner :=
  ((scanner.unroll (-1)).dropKey?).map fun scanner => { scanner with keyAllowed := false }

def fetchDirective? (dialect : Dialect) (scanner : Scanner) : Option Scanner := do
  let scanner ← scanner.endBlocks?
  let (token, cursor) ← directive? dialect (scanner.cursor.skip 1)
  let cursor ← Block.endHeader? dialect cursor
  some ({ scanner with cursor }.emit token)

/-- Reads the marker of the beginning of a document. -/
def fetchDocumentStart? (scanner : Scanner) : Option Scanner :=
  scanner.endBlocks?.map fun scanner => (scanner.skip 3).emit .documentStart

/-- Reads the marker of the end of a document. Where such a marker may come first, nothing but a
comment may follow it on its line. -/
def fetchDocumentEnd? (dialect : Dialect) (scanner : Scanner) : Option Scanner := do
  let scanner ← scanner.endBlocks?
  let scanner := scanner.skip 3
  if dialect.leadingEnds && (Block.endHeader? dialect scanner.cursor).isNone then none
  else some (scanner.emit .documentEnd)

def fetchOpening? (dialect : Dialect) (token : Token) (scanner : Scanner) : Option Scanner := do
  let scanner ← scanner.saveKey?
  let scanner := scanner.hang dialect
  let scanner := { scanner with
    key := none
    outerKeys := scanner.key :: scanner.outerKeys
    keyAllowed := true }
  ((scanner.skip 1).emit token).apart? dialect

def fetchClosing? (dialect : Dialect) (token : Token) (scanner : Scanner) : Option Scanner := do
  let scanner ← scanner.dropKey?
  let scanner := { scanner with
    key := scanner.outerKeys.headD none
    outerKeys := scanner.outerKeys.drop 1
    keyAllowed := false }
  ((scanner.skip 1).emit token).apart? dialect

def fetchFlowEntry? (dialect : Dialect) (scanner : Scanner) : Option Scanner := do
  let scanner ← scanner.dropKey?
  (({ scanner with keyAllowed := true }.skip 1).emit .flowEntry).apart? dialect

/-- Whether the blanks here have tabs among them. -/
def hasTab (rest : List Char) : Bool := (rest.takeWhile isBlank).contains '\t'

/-- Whether tabs here stand between the indicators of an item and of an item in it. -/
def hidesEntry (dialect : Dialect) (rest : List Char) : Bool :=
  hasTab rest &&
    match rest.dropWhile isBlank with
    | '-' :: after => dialect.atGap after
    | _ => false

/-- Whether what comes after the indicator of an item begins on another line or in brackets. -/
def beginsBelow (dialect : Dialect) (rest : List Char) : Bool :=
  let after := rest.dropWhile isBlank
  headIs (fun c => c = '#' || dialect.isBreak c || isFlowIndicator c) after

/-- Reads the indicator of an item of a block sequence. -/
def fetchBlockEntry? (dialect : Dialect) (scanner : Scanner) : Option Scanner := do
  let rest := scanner.cursor.rest.drop 1
  if !scanner.inFlow && !scanner.keyAllowed then none
  else if dialect.freeTabs && hidesEntry dialect rest then none
  else
    let scanner := scanner.roll scanner.cursor.column none .blockSequenceStart
    let scanner := if beginsBelow dialect rest then scanner.hang dialect else scanner
    let scanner ← scanner.dropKey?
    some (({ scanner with keyAllowed := true }.skip 1).emit .blockEntry)

def fetchKey? (dialect : Dialect) (scanner : Scanner) : Option Scanner := do
  let rest := scanner.cursor.rest.drop 1
  if !scanner.inFlow && !scanner.keyAllowed then none
  else if dialect.freeTabs && (rest.isEmpty || hasTab rest) then none
  else
    let scanner := scanner.roll scanner.cursor.column none .blockMappingStart
    let scanner ← scanner.dropKey?
    some (({ scanner with keyAllowed := !scanner.inFlow }.skip 1).emit .key)

/-- Whether tabs alone stand here between the indicator of a value and a word or a dash. -/
def hidesValue (rest : List Char) : Bool :=
  hasTab rest && !(rest.takeWhile isBlank).contains ' ' &&
    headIs isWordChar (rest.dropWhile isBlank)

/-- Reads the indicator of a value. If there was a possible key it is one now. -/
def fetchValue? (dialect : Dialect) (scanner : Scanner) : Option Scanner :=
  if dialect.freeTabs && hidesValue (scanner.cursor.rest.drop 1) then none
  else
    match scanner.key with
    | some key =>
      let scanner := scanner.insert key.number .key
      let scanner := (scanner.roll key.column (some key.number) .blockMappingStart).hang dialect
      some (({ scanner with key := none, keyAllowed := false }.skip 1).emit .value)
    | none =>
      if !scanner.inFlow && !scanner.keyAllowed then none
      else
        let scanner := (scanner.roll scanner.cursor.column none .blockMappingStart).hang dialect
        some (({ scanner with keyAllowed := !scanner.inFlow }.skip 1).emit .value)

def fetchAnchor? (dialect : Dialect) (token : List Char → Token) (scanner : Scanner) :
    Option Scanner := do
  let scanner ← scanner.saveKey?
  let (name, cursor) ← anchorName? dialect (scanner.cursor.skip 1)
  some ({ scanner with cursor, keyAllowed := false }.emit (token name))

def fetchTag? (dialect : Dialect) (scanner : Scanner) : Option Scanner := do
  let scanner ← scanner.saveKey?
  let (token, cursor) ← tag? dialect scanner.inFlow scanner.cursor
  some ({ scanner with cursor, keyAllowed := false }.emit token)

def fetchBlock? (dialect : Dialect) (style : Style) (scanner : Scanner) : Option Scanner := do
  let scanner ← scanner.dropKey?
  let cursor := scanner.cursor.skip 1
  let (text, cursor) ← Block.read? dialect (style = .folded) scanner.indent cursor
  some ({ scanner with cursor, hanging := false, keyAllowed := true }.emit (.scalar text style))

def fetchQuoted? (dialect : Dialect) (style : Style) (scanner : Scanner) : Option Scanner := do
  let scanner ← scanner.saveKey?
  let cursor := scanner.cursor.skip 1
  let fuel := cursor.rest.length + 1
  let indent := if dialect.deepContent then scanner.depth else 0
  let (text, cursor) ← Quoted.read? dialect (style = .doubleQuoted) indent fuel [] cursor
  ({ scanner with cursor, keyAllowed := false }.emit (.scalar text style)).apart? dialect

/-- Reads a plain scalar. A key may begin after it if a line has ended. -/
def fetchPlain? (dialect : Dialect) (scanner : Scanner) : Option Scanner := do
  let scanner ← scanner.saveKey?
  let fuel := scanner.cursor.rest.length + 1
  let indent := scanner.indent + 1
  if dialect.deepContent && scanner.inFlow && (scanner.cursor.column : Int) < indent then none
  else
    let (text, cursor, broken) ←
      Plain.read? dialect scanner.inFlow indent fuel [] .empty scanner.cursor
    some ({ scanner with cursor, hanging := false, keyAllowed := broken }.emit
      (.scalar text .plain))

/-- The characters that begin no plain scalar, whatever follows. -/
def indicators : List Char :=
  [',', '[', ']', '\x7b', '\x7d', '#', '&', '*', '!', '|', '>', '\x27', '"', '%', '@', '\x60']

/-- Whether a colon here comes before a value. -/
def isValueMark (dialect : Dialect) (scanner : Scanner) (rest : List Char) : Bool :=
  dialect.atGap rest ||
    (scanner.inFlow && (!dialect.looseFlow || headIs isFlowIndicator rest ||
      (scanner.tokens.head?.map Token.isQuotedOrClosed).getD false))

/-- Whether a question mark here comes before a key. -/
def isKeyMark (dialect : Dialect) (scanner : Scanner) (rest : List Char) : Bool :=
  dialect.atGap rest || (scanner.inFlow && !dialect.looseFlow)

/-- Reads a token that begins with a character. -/
def fetch? (dialect : Dialect) (c : Char) (rest : List Char) (scanner : Scanner) :
    Option Scanner :=
  let cursor := scanner.cursor
  if cursor.column = 0 ∧ c = '%' then scanner.fetchDirective? dialect
  else if cursor.atMarker dialect '-' then scanner.fetchDocumentStart?
  else if cursor.atMarker dialect '.' then scanner.fetchDocumentEnd? dialect
  else if dialect.deepContent ∧ (cursor.column : Int) < scanner.depth then none
  else if c = '[' then scanner.fetchOpening? dialect .flowSequenceStart
  else if c = '\x7b' then scanner.fetchOpening? dialect .flowMappingStart
  else if c = ']' then scanner.fetchClosing? dialect .flowSequenceEnd
  else if c = '\x7d' then scanner.fetchClosing? dialect .flowMappingEnd
  else if c = ',' then scanner.fetchFlowEntry? dialect
  else if c = '-' ∧ dialect.atGap rest then scanner.fetchBlockEntry? dialect
  else if c = '?' ∧ scanner.isKeyMark dialect rest then scanner.fetchKey? dialect
  else if c = ':' ∧ scanner.isValueMark dialect rest then scanner.fetchValue? dialect
  else if c = '*' then scanner.fetchAnchor? dialect .alias
  else if c = '&' then scanner.fetchAnchor? dialect .anchor
  else if c = '!' then scanner.fetchTag? dialect
  else if c = '|' ∧ !scanner.inFlow then scanner.fetchBlock? dialect .literal
  else if c = '>' ∧ !scanner.inFlow then scanner.fetchBlock? dialect .folded
  else if c = '\x27' then scanner.fetchQuoted? dialect .singleQuoted
  else if c = '"' then scanner.fetchQuoted? dialect .doubleQuoted
  else if (c = '|' ∨ c = '>') ∧ dialect.looseFlow then scanner.fetchPlain? dialect
  else if indicators.contains c ∨ isBlank c then none
  else scanner.fetchPlain? dialect

def finish? (scanner : Scanner) : Option (List Token) :=
  (scanner.unroll (-1)).dropKey?.map fun scanner => scanner.tokens.reverse

def run? (dialect : Dialect) : Nat → Scanner → Option (List Token)
  | 0, _ => none
  | fuel + 1, scanner => do
    let leading := scanner.cursor.column = 0
    let scanner ← skipGap? dialect (scanner.cursor.rest.length + 1) leading scanner
    let scanner ← scanner.dropStale? dialect
    let scanner := scanner.unroll scanner.cursor.column
    match scanner.cursor.rest with
    | [] => scanner.finish?
    | c :: rest => (scanner.fetch? dialect c rest).bind (run? dialect fuel)

end Scanner

/-- The tokens of a text. Each token takes at least one character. -/
def Token.scan? (dialect : Dialect) (chars : List Char) : Option (List Token) :=
  (dialect.characters? chars).bind fun chars =>
    Scanner.run? dialect (chars.length + 2) (.start chars)

end QuotaGate.Yaml
