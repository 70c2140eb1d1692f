import QuotaGate.Yaml.Cursor

/-!
# Scalars

A scalar is a text in one of five styles. Plain and quoted scalars may run over several lines,
which are folded: a single line break counts as a space, and of several one is dropped. A literal
block keeps its line breaks, and a folded block folds those between lines that do not begin with a
blank.
-/

namespace QuotaGate.Yaml

/-- The style of a scalar. -/
inductive Style where
  | plain
  | singleQuoted
  | doubleQuoted
  | literal
  | folded
  deriving DecidableEq, Repr

/-! ## Plain scalars -/

namespace Plain

/-- The characters of a plain scalar on one line, up to the next blank. -/
def chunk? (dialect : Dialect) (flow : Bool) : List Char → Option (List Char)
  | [] => some []
  | c :: rest =>
    if isBlank c || dialect.isBreak c then some []
    else if c = ':' && dialect.atGap rest then some []
    else if flow && c = ':' && headIs isFlowIndicator rest then
      if dialect.looseFlow then some [] else none
    else if flow && c = ':' && headIs (· = '?') rest && !dialect.looseFlow then none
    else if flow && isFlowIndicator c then some []
    else (chunk? dialect flow rest).map (c :: ·)

/-- Whether a dash stands here that no plain scalar inside brackets may have. -/
def isStrayDash (dialect : Dialect) (flow : Bool) : List Char → Bool
  | '-' :: rest => flow && dialect.looseFlow && headIs isFlowIndicator rest
  | _ => false

/-- Reads a plain scalar whose lines are indented to at least a column. The last result tells
whether a line has ended after the scalar. -/
def read? (dialect : Dialect) (flow : Bool) (indent : Int) :
    Nat → List Char → Gap → Cursor → Option (List Char × Cursor × Bool)
  | 0, _, _, _ => none
  | fuel + 1, text, gap, cursor =>
    if cursor.atAnyMarker dialect || headIs (· = '#') cursor.rest then
      some (text, cursor, gap.broken)
    else if isStrayDash dialect flow cursor.rest then none
    else do
      let chunk ← chunk? dialect flow cursor.rest
      if chunk.isEmpty then some (text, cursor, gap.broken)
      else
        let text := text ++ gap.text ++ chunk
        let cursor := cursor.skip chunk.length
        if atBlank cursor.rest || headIs dialect.isBreak cursor.rest then
          let longest := cursor.rest.length + 1
          let (gap, cursor) ← Gap.read? dialect true indent longest .empty cursor
          if !flow && cursor.column < indent then some (text, cursor, gap.broken)
          else read? dialect flow indent fuel text gap cursor
        else some (text, cursor, false)

end Plain

/-! ## Quoted scalars -/

namespace Quoted

/-- The escapes of one character in double quotes. -/
def escapes : List (Char × Nat) := [
  ('0', 0x00), ('a', 0x07), ('b', 0x08), ('t', 0x09), ('\t', 0x09), ('n', 0x0A), ('v', 0x0B),
  ('f', 0x0C), ('r', 0x0D), ('e', 0x1B), (' ', 0x20), ('"', 0x22), ('/', 0x2F), ('\\', 0x5C),
  ('N', 0x85), ('_', 0xA0), ('L', 0x2028), ('P', 0x2029)]

/-- The escapes by number, and how many hexadecimal digits follow. -/
def numericEscapes : List (Char × Nat) := [('x', 2), ('u', 4), ('U', 8)]

def hexValue? (c : Char) : Option Nat :=
  if '0' ≤ c && c ≤ '9' then some (c.toNat - '0'.toNat)
  else if 'a' ≤ c && c ≤ 'f' then some (c.toNat - 'a'.toNat + 10)
  else if 'A' ≤ c && c ≤ 'F' then some (c.toNat - 'A'.toNat + 10)
  else none

/-- The number that hexadecimal digits stand for. -/
def hexNumber? (digits : List Char) : Option Nat :=
  digits.foldlM (fun value digit => (hexValue? digit).map (value * 16 + ·)) 0

/-- The character of a number, if there is one. -/
def charOf? (code : Nat) : Option Char :=
  if code.isValidChar then some (Char.ofNat code) else none

/-- Reads an escape after its backslash: the character, and how many characters were read. -/
def escape? : List Char → Option (Char × Nat)
  | [] => none
  | letter :: rest =>
    match escapes.lookup letter with
    | some code => some (Char.ofNat code, 1)
    | none => do
      let count ← numericEscapes.lookup letter
      let digits := rest.take count
      if digits.length < count then none
      else
        let c ← (hexNumber? digits).bind charOf?
        some (c, count + 1)

/-- A part of a quoted scalar on one line. -/
structure Chunk where
  text : List Char
  /-- How many characters were read. -/
  count : Nat
  /-- Whether a backslash at the end of the line was the last of them. -/
  continued : Bool

/-- Puts a character in front of a chunk. -/
def Chunk.push (c : Char) (count : Nat) (chunk : Chunk) : Chunk :=
  { chunk with text := c :: chunk.text, count := chunk.count + count }

def quoteOf (double : Bool) : Char := if double then '"' else '\x27'

/-- Reads up to the next blank or to the closing quote. -/
def chunk? (dialect : Dialect) (double : Bool) : List Char → Option Chunk
  | [] => some ⟨[], 0, false⟩
  | c :: rest =>
    if isBlank c || dialect.isBreak c then some ⟨[], 0, false⟩
    else if c = quoteOf double then
      if !double && headIs (· = c) rest then
        (chunk? dialect double (rest.drop 1)).map (.push c 2)
      else some ⟨[], 0, false⟩
    else if double && c = '\\' then
      if headIs dialect.isBreak rest then some ⟨[], 1, true⟩
      else
        match escape? rest with
        | none => none
        | some (escaped, count) =>
          (chunk? dialect double (rest.drop count)).map (.push escaped (count + 1))
    else (chunk? dialect double rest).map (.push c 1)
termination_by chars => chars.length
decreasing_by all_goals simp only [List.length_cons, List.length_drop]; omega

/-- Reads a quoted scalar after its opening quote, whose lines are indented to at least a
column. -/
def read? (dialect : Dialect) (double : Bool) (indent : Int) :
    Nat → List Char → Cursor → Option (List Char × Cursor)
  | 0, _, _ => none
  | fuel + 1, text, cursor =>
    if cursor.atAnyMarker dialect || cursor.rest.isEmpty || cursor.column < indent then none
    else do
      let chunk ← chunk? dialect double cursor.rest
      let text := text ++ chunk.text
      let cursor := cursor.skip chunk.count
      if headIs (· = quoteOf double) cursor.rest && !chunk.continued then
        some (text, cursor.skip 1)
      else
        let cursor := if chunk.continued then cursor.skipBreak dialect else cursor
        let gap := { Gap.empty with broken := chunk.continued }
        let (gap, cursor) ← Gap.read? dialect false indent (cursor.rest.length + 1) gap cursor
        read? dialect double indent fuel (text ++ gap.text) cursor

end Quoted

/-! ## Block scalars -/

namespace Block

/-- What becomes of the line breaks at the end of a block. -/
inductive Chomping where
  | strip
  /-- One line break is left. -/
  | clip
  | keep
  deriving DecidableEq, Repr

/-- The first line of a block: the chomping and the indentation, where it is given. -/
structure Header where
  chomping : Chomping
  indent : Option Nat

def chomping? : List Char → Option Chomping
  | '+' :: _ => some .keep
  | '-' :: _ => some .strip
  | _ => none

/-- Reads a digit of indentation. Zero is none. -/
def indent? : List Char → Option Nat
  | c :: _ => if '1' ≤ c && c ≤ '9' then some (c.toNat - '0'.toNat) else none
  | [] => none

/-- Reads the sign and the digit after the indicator, in either order. A zero is left unread and
is an error of what follows. -/
def header (cursor : Cursor) : Header × Cursor :=
  match chomping? cursor.rest with
  | some chomping =>
    let cursor := cursor.skip 1
    match indent? cursor.rest with
    | some indent => (⟨chomping, some indent⟩, cursor.skip 1)
    | none => (⟨chomping, none⟩, cursor)
  | none =>
    match indent? cursor.rest with
    | some indent =>
      let cursor := cursor.skip 1
      match chomping? cursor.rest with
      | some chomping => (⟨chomping, some indent⟩, cursor.skip 1)
      | none => (⟨.clip, some indent⟩, cursor)
    | none => (⟨.clip, none⟩, cursor)

/-- Moves over the rest of the first line: blanks and a comment. -/
def endHeader? (dialect : Dialect) (cursor : Cursor) : Option Cursor := do
  let cursor ← cursor.apart? dialect
  let cursor := (cursor.span isBlank).2
  let cursor := if headIs (· = '#') cursor.rest then cursor.skipLine dialect else cursor
  if dialect.atBreak cursor.rest then some (cursor.skipBreak dialect) else none

/-- Empty lines before the next line of text: their breaks, and the most that any of them or the
next line is indented. -/
structure Breaks where
  text : List Char
  widest : Nat

/-- Moves over empty lines and the indentation of the next line. The indentation ends at the
column `indent`, where that is known; a tab within it is an error. -/
def breaks? (dialect : Dialect) (indent : Option Nat) :
    Nat → Breaks → Cursor → Option (Breaks × Cursor)
  | 0, _, _ => none
  | fuel + 1, breaks, cursor =>
    let spaces := (cursor.rest.takeWhile (· = ' ')).length
    let spaces :=
      match indent with
      | none => spaces
      | some indent => min spaces (indent - cursor.column)
    let cursor := cursor.skip spaces
    let breaks := { breaks with widest := max breaks.widest cursor.column }
    if indent.all (cursor.column < ·) && headIs (· = '\t') cursor.rest then none
    else if headIs dialect.isBreak cursor.rest then
      let breaks := { breaks with text := breaks.text ++ cursor.breakText dialect }
      breaks? dialect indent fuel breaks (cursor.skipBreak dialect)
    else some (breaks, cursor)

/-- The lines read so far. -/
structure Lines where
  text : List Char
  /-- The break that ended the last line. -/
  ending : List Char
  /-- The breaks of the empty lines after it. -/
  empty : List Char
  /-- Whether the last line began with a blank. -/
  indented : Bool

/-- Reads the lines of a block that are indented to a column. -/
def lines? (dialect : Dialect) (folds : Bool) (indent : Nat) :
    Nat → Lines → Cursor → Option (Lines × Cursor)
  | 0, _, _ => none
  | fuel + 1, lines, cursor =>
    if cursor.column = indent && !cursor.rest.isEmpty then do
      let indented := atBlank cursor.rest
      let joint :=
        if folds && lines.ending = ['\n'] && !lines.indented && !indented then
          if lines.empty.isEmpty then [' '] else lines.empty
        else lines.ending ++ lines.empty
      let (content, cursor) := cursor.span fun c => !dialect.isBreak c
      let ending := cursor.breakText dialect
      let cursor := cursor.skipBreak dialect
      let (breaks, cursor) ← breaks? dialect (some indent) (cursor.rest.length + 1) ⟨[], 0⟩ cursor
      let lines := ⟨lines.text ++ joint ++ content, ending, breaks.text, indented⟩
      lines? dialect folds indent fuel lines cursor
    else some (lines, cursor)

def chomped (dialect : Dialect) (chomping : Chomping) (indent : Nat) (lines : Lines)
    (cursor : Cursor) : List Char :=
  let isOpen := dialect.endsLastLine && cursor.rest.isEmpty && max indent 1 ≤ cursor.column
  let ending := if isOpen then lines.ending ++ ['\n'] else lines.ending
  match chomping with
  | .strip => lines.text
  | .clip => lines.text ++ ending
  | .keep => lines.text ++ ending ++ lines.empty

/-- Reads a block scalar after its indicator, inside a block that is indented to a column, or to
none at the root. -/
def read? (dialect : Dialect) (folds : Bool) (outer : Int) (cursor : Cursor) :
    Option (List Char × Cursor) := do
  let (header, cursor) := header cursor
  let cursor ← endHeader? dialect cursor
  let given := header.indent.map fun indent => (max outer 0).toNat + indent
  let fuel := cursor.rest.length + 1
  let (breaks, cursor) ← breaks? dialect given fuel ⟨[], 0⟩ cursor
  let indent := given.getD (max breaks.widest (max (outer + 1).toNat 1))
  let (lines, cursor) ← lines? dialect folds indent fuel ⟨[], [], breaks.text, false⟩ cursor
  some (chomped dialect header.chomping indent lines cursor, cursor)

end Block

end QuotaGate.Yaml
