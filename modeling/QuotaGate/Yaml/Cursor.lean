/-!
# Reading YAML text

A cursor is a place in a YAML text: what follows, and the line, the column and the number of
characters before it. Readers of YAML differ in small points, which a `Dialect` collects.
-/

namespace QuotaGate.Yaml

/-- The points in which readers of YAML differ. -/
structure Dialect where
  /-- Whether the characters NEL, LS and PS end a line, as CR and LF do. -/
  unicodeBreaks : Bool
  /-- Whether tabs may stand before any token that is indented enough by blanks. A tab alone then
  separates no indicator from a key or an item that it begins. -/
  freeTabs : Bool
  /-- Whether quoted texts and collections in brackets keep to the indentation of the block around
  them. -/
  deepContent : Bool
  /-- Whether a comment needs a blank before it even after a bracket, a comma or a quote. -/
  spacedComments : Bool
  /-- Whether an entry of a mapping may begin with its value. -/
  bareValues : Bool
  /-- Whether a key inside brackets may end on another line than it began. -/
  longFlowKeys : Bool
  /-- Whether inside brackets a text may begin with a colon or a question mark that goes on without
  a blank, or with the sign of a block text, and ends before a colon that comes right before a
  bracket or a comma. A dash right before one of those is then an error. Otherwise a colon or a
  question mark is always an indicator there, and the rest are errors. -/
  looseFlow : Bool
  /-- Whether any name may be an anchor. Otherwise it is made of letters, digits, `-` and `_`. -/
  freeAnchors : Bool
  /-- Whether a name that is given to a new node shares its number with the next new name, so that
  its aliases stand for the node of that one. -/
  sharedNumbers : Bool
  /-- Whether a block text whose last line is not ended is taken as if it were. -/
  endsLastLine : Bool
  /-- Whether unknown directives are skipped, and any version is taken. Otherwise they are
  errors. -/
  freeDirectives : Bool
  /-- Whether the markers of document ends may stand before the first document. -/
  leadingEnds : Bool
  /-- Whether characters that are not printable are errors. Otherwise the only one that counts is
  NUL, which ends the text. -/
  printableOnly : Bool

namespace Dialect

/-- The narrow reading of YAML 1.1 and 1.2. -/
def strict : Dialect where
  unicodeBreaks := true
  freeTabs := false
  deepContent := false
  spacedComments := false
  bareValues := false
  longFlowKeys := false
  looseFlow := false
  freeAnchors := false
  sharedNumbers := true
  endsLastLine := false
  freeDirectives := false
  leadingEnds := false
  printableOnly := true

def lenient : Dialect where
  unicodeBreaks := false
  freeTabs := true
  deepContent := true
  spacedComments := true
  bareValues := true
  longFlowKeys := true
  looseFlow := true
  freeAnchors := true
  sharedNumbers := false
  endsLastLine := true
  freeDirectives := true
  leadingEnds := true
  printableOnly := false

def isBreak (dialect : Dialect) (c : Char) : Bool :=
  c = '\n' || c = '\r' ||
    (dialect.unicodeBreaks && (c.toNat = 0x85 || c.toNat = 0x2028 || c.toNat = 0x2029))

/-- Whether what follows begins with the end of a line or of the text. -/
def atBreak (dialect : Dialect) : List Char → Bool
  | [] => true
  | c :: _ => dialect.isBreak c

end Dialect

/-- Whether a character is printable in the sense of YAML: a tab, a line break, or any other but
the control characters, the byte order mark and the two that are no characters. -/
def isPrintable (c : Char) : Bool :=
  c = '\t' || c = '\n' || c = '\r' || (0x20 ≤ c.toNat && c.toNat ≤ 0x7E) || c.toNat = 0x85 ||
  (0xA0 ≤ c.toNat && c.toNat ≤ 0xD7FF) ||
  (0xE000 ≤ c.toNat && c.toNat ≤ 0xFFFD && c.toNat != 0xFEFF) ||
  (0x10000 ≤ c.toNat && c.toNat ≤ 0x10FFFF)

/-- The characters that count, if none of them is an error. -/
def Dialect.characters? (dialect : Dialect) (chars : List Char) : Option (List Char) :=
  if dialect.printableOnly then if chars.all isPrintable then some chars else none
  else some (chars.takeWhile (·.toNat != 0))

/-- Whether a character is a space or a tab. -/
def isBlank (c : Char) : Bool := c = ' ' || c = '\t'

/-- Whether what follows begins with a space or a tab. -/
def atBlank : List Char → Bool
  | [] => false
  | c :: _ => isBlank c

/-- Whether what follows begins with a blank, the end of a line or the end of the text. -/
def Dialect.atGap (dialect : Dialect) (chars : List Char) : Bool :=
  atBlank chars || dialect.atBreak chars

/-- Whether a character encloses or separates the items of a collection in brackets. -/
def isFlowIndicator (c : Char) : Bool :=
  c = ',' || c = '[' || c = ']' || c = '\x7b' || c = '\x7d'

/-- Whether what follows begins with one of the characters that a test accepts. -/
def headIs (test : Char → Bool) : List Char → Bool
  | [] => false
  | c :: _ => test c

/-- A place in a text. -/
structure Cursor where
  rest : List Char
  index : Nat
  line : Nat
  column : Nat
  deriving Repr

namespace Cursor

def start (chars : List Char) : Cursor := ⟨chars, 0, 0, 0⟩

/-- Moves over characters of the same line. -/
def skip (cursor : Cursor) (count : Nat) : Cursor :=
  { cursor with
    rest := cursor.rest.drop count
    index := cursor.index + count
    column := cursor.column + count }

/-- Moves over the end of a line, if there is one: CR and LF together are one. -/
def skipBreak (dialect : Dialect) (cursor : Cursor) : Cursor :=
  match cursor.rest with
  | '\r' :: '\n' :: rest => ⟨rest, cursor.index + 2, cursor.line + 1, 0⟩
  | c :: rest => if dialect.isBreak c then ⟨rest, cursor.index + 1, cursor.line + 1, 0⟩ else cursor
  | [] => cursor

/-- What a line break stands for in a text: LS and PS for themselves, every other for LF. -/
def breakText (dialect : Dialect) (cursor : Cursor) : List Char :=
  match cursor.rest with
  | c :: _ =>
    if c.toNat = 0x2028 ∨ c.toNat = 0x2029 then if dialect.isBreak c then [c] else []
    else if dialect.isBreak c then ['\n'] else []
  | [] => []

/-- The characters up to the first one that a test refuses. -/
def span (test : Char → Bool) (cursor : Cursor) : List Char × Cursor :=
  let taken := cursor.rest.takeWhile test
  (taken, cursor.skip taken.length)

def skipLine (dialect : Dialect) (cursor : Cursor) : Cursor :=
  (cursor.span fun c => !dialect.isBreak c).2

/-- The place itself, unless a comment begins here that needs a blank before it. -/
def apart? (dialect : Dialect) (cursor : Cursor) : Option Cursor :=
  if dialect.spacedComments && headIs (· = '#') cursor.rest then none else some cursor

/-- Whether a document marker made of three equal characters stands here, at the beginning of a
line. -/
def atMarker (dialect : Dialect) (mark : Char) (cursor : Cursor) : Bool :=
  cursor.column = 0 &&
    match cursor.rest with
    | a :: b :: c :: rest => a = mark && b = mark && c = mark && dialect.atGap rest
    | _ => false

/-- Whether a document begins or ends here. -/
def atAnyMarker (dialect : Dialect) (cursor : Cursor) : Bool :=
  cursor.atMarker dialect '-' || cursor.atMarker dialect '.'

end Cursor

/-! ## Runs of blanks and line breaks -/

/-- A run of blanks and line breaks: the blanks before the first break, the first break, the later
breaks. -/
structure Gap where
  blanks : List Char
  first : List Char
  later : List Char
  /-- Whether a line has ended in the run. -/
  broken : Bool

namespace Gap

def empty : Gap := ⟨[], [], [], false⟩

/-- What a run stands for inside a text: a single line break for a space, several for one less. -/
def text (gap : Gap) : List Char :=
  if gap.broken then
    if gap.first = ['\n'] then if gap.later.isEmpty then [' '] else gap.later
    else gap.first ++ gap.later
  else gap.blanks

/-- Whether a run may go on with a tab at the beginning of a line before the column `indent`: if
tabs are free and `emptyLines` says so, where the line has nothing else. -/
def takesTab (dialect : Dialect) (emptyLines : Bool) (cursor : Cursor) : Bool :=
  let after := cursor.rest.dropWhile isBlank
  dialect.freeTabs && emptyLines && (dialect.atBreak after || headIs (· = '#') after)

/-- Moves over a run. A tab at the beginning of a line before the column `indent` makes it
unreadable, except where `takesTab` says otherwise. -/
def read? (dialect : Dialect) (emptyLines : Bool) (indent : Int) :
    Nat → Gap → Cursor → Option (Gap × Cursor)
  | 0, _, _ => none
  | fuel + 1, gap, cursor =>
    match cursor.rest with
    | c :: _ =>
      if isBlank c then
        if gap.broken then
          if c = '\t' ∧ cursor.column < indent then
            if takesTab dialect emptyLines cursor then
              read? dialect emptyLines indent fuel gap (cursor.skipLine dialect)
            else none
          else read? dialect emptyLines indent fuel gap (cursor.skip 1)
        else
          let gap := { gap with blanks := gap.blanks ++ [c] }
          read? dialect emptyLines indent fuel gap (cursor.skip 1)
      else if dialect.isBreak c then
        let text := cursor.breakText dialect
        let gap :=
          if gap.broken then { gap with later := gap.later ++ text }
          else { gap with blanks := [], first := text, broken := true }
        read? dialect emptyLines indent fuel gap (cursor.skipBreak dialect)
      else some (gap, cursor)
    | [] => some (gap, cursor)

end Gap

end QuotaGate.Yaml
