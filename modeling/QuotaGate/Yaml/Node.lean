import QuotaGate.Yaml.Token

/-!
# Nodes and documents

A document is a tree of scalars, sequences and mappings. An alias stands for the node that was
given its name last and is put in its place; only an alias to a node that is not complete stays, as
the number of that node.

The narrow reader takes for the number of a name how many different names there were before. A name
that is given to a second node has the number then that the next new name gets too, and from there
on both of them stand for the node of the latter.
-/

namespace QuotaGate.Yaml

/-- A node, with its tag where it has one. -/
inductive Node where
  | scalar (text : String) (style : Style) (tag : Option String)
  | sequence (items : List Node) (tag : Option String)
  | mapping (entries : List (Node × Node)) (tag : Option String)
  /-- A node that encloses this place, or comes after it. -/
  | enclosing (number : Nat)
  deriving Repr

namespace Node

/-- What stands where nothing is written. -/
def nothing : Node := scalar "" .plain none

end Node

/-- A document: its root, and its named nodes by number. -/
structure Document where
  root : Node
  named : List (Nat × Node)
  deriving Repr

/-- The tokens that are left, and the names known so far. -/
structure Composer where
  tokens : List Token
  /-- What tag handles stand for. -/
  handles : List (List Char × List Char)
  /-- The places of the names among all that are given, the latest first. -/
  names : List (List Char × Nat)
  /-- The named nodes that are complete, by their places. -/
  named : List (Nat × Node)
  /-- For each place, the place of the node that aliases stand for, if that is another one. -/
  standIns : List Nat

/-- What stands before a node. -/
structure Properties where
  anchor : Option (List Char)
  tag : Option String

namespace Composer

/-- What begins the tags of the core schema. -/
def coreTag : String := "tag:yaml.org,2002:"

def standardHandles : List (List Char × List Char) :=
  [(['!'], ['!']), (['!', '!'], coreTag.toList)]

def start (tokens : List Token) : Composer := ⟨tokens, standardHandles, [], [], []⟩

def goOn (composer : Composer) (tokens : List Token) : Composer := { composer with tokens }

def tagText? (composer : Composer) (handle suffix : List Char) : Option String :=
  if handle.isEmpty then some (String.ofList suffix)
  else (composer.handles.lookup handle).map fun start => String.ofList (start ++ suffix)

/-- Reads an anchor and a tag, in either order, as far as they are there. -/
def properties? (composer : Composer) : Option (Properties × Composer) :=
  match composer.tokens with
  | .anchor name :: .tag handle suffix :: rest | .tag handle suffix :: .anchor name :: rest =>
    (composer.tagText? handle suffix).map fun tag =>
      (⟨some name, some tag⟩, composer.goOn rest)
  | .anchor name :: rest => some (⟨some name, none⟩, composer.goOn rest)
  | .tag handle suffix :: rest =>
    (composer.tagText? handle suffix).map fun tag => (⟨none, some tag⟩, composer.goOn rest)
  | _ => some (⟨none, none⟩, composer)

def register (composer : Composer) (anchor : Option (List Char)) : Option Nat × Composer :=
  match anchor with
  | none => (none, composer)
  | some name =>
    let number := composer.names.length
    (some number, { composer with names := (name, number) :: composer.names })

def complete (composer : Composer) (number : Option Nat) (node : Node) : Composer :=
  match number with
  | none => composer
  | some number => { composer with named := (number, node) :: composer.named }

def alias? (composer : Composer) (name : List Char) : Option Node :=
  (composer.names.lookup name).map fun place =>
    let number := (composer.standIns[place]?).getD place
    (composer.named.lookup number).getD (.enclosing number)

/-- Whether the next token is one of some, so that nothing is written here. -/
def omits (stops : List Token) (composer : Composer) : Bool :=
  composer.tokens.head?.any stops.contains

/-- Moves over the comma before an item that is not the first. -/
def separated? (first : Bool) (composer : Composer) : Option Composer :=
  if first then some composer
  else
    match composer.tokens with
    | .flowEntry :: rest => some (composer.goOn rest)
    | _ => none

mutual

/-- Reads a node. `block` tells whether it may be a block, and `indentless` whether it may be a
sequence that is not indented. -/
def node? (dialect : Dialect) :
    Nat → (block indentless : Bool) → Composer → Option (Node × Composer)
  | 0, _, _, _ => none
  | fuel + 1, block, indentless, composer =>
    match composer.tokens with
    | .alias name :: rest => (composer.alias? name).map fun node => (node, composer.goOn rest)
    | _ => do
      let (properties, composer) ← composer.properties?
      let (number, composer) := composer.register properties.anchor
      let (node, composer) ← content? dialect fuel block indentless properties composer
      some (node, composer.complete number node)

/-- Reads what follows the properties of a node. -/
def content? (dialect : Dialect) :
    Nat → (block indentless : Bool) → Properties → Composer → Option (Node × Composer)
  | 0, _, _, _, _ => none
  | fuel + 1, block, indentless, properties, composer =>
    let tag := properties.tag
    let empty? : Option (Node × Composer) :=
      if properties.anchor.isSome || tag.isSome then some (.scalar "" .plain tag, composer)
      else none
    match composer.tokens with
    | .blockEntry :: _ =>
      if indentless then
        (indentlessItems? dialect fuel composer).map fun (items, composer) =>
          (.sequence items tag, composer)
      else empty?
    | .scalar text style :: rest =>
      some (.scalar (String.ofList text) style tag, composer.goOn rest)
    | .flowSequenceStart :: rest =>
      (flowItems? dialect fuel true (composer.goOn rest)).map fun (items, composer) =>
        (.sequence items tag, composer)
    | .flowMappingStart :: rest =>
      (flowEntries? dialect fuel true (composer.goOn rest)).map fun (entries, composer) =>
        (.mapping entries tag, composer)
    | .blockSequenceStart :: rest =>
      if block then
        (blockItems? dialect fuel (composer.goOn rest)).map fun (items, composer) =>
          (.sequence items tag, composer)
      else empty?
    | .blockMappingStart :: rest =>
      if block then
        (blockEntries? dialect fuel (composer.goOn rest)).map fun (entries, composer) =>
          (.mapping entries tag, composer)
      else empty?
    | _ => empty?

/-- Reads a node, or nothing in front of some tokens. -/
def optional? (dialect : Dialect) :
    Nat → (block indentless : Bool) → List Token → Composer → Option (Node × Composer)
  | 0, _, _, _, _ => none
  | fuel + 1, block, indentless, stops, composer =>
    if composer.omits stops then some (.nothing, composer)
    else node? dialect fuel block indentless composer

/-- Reads a value, if its indicator is there. -/
def value? (dialect : Dialect) :
    Nat → (block indentless : Bool) → List Token → Composer → Option (Node × Composer)
  | 0, _, _, _, _ => none
  | fuel + 1, block, indentless, stops, composer =>
    match composer.tokens with
    | .value :: rest => optional? dialect fuel block indentless stops (composer.goOn rest)
    | _ => some (.nothing, composer)

/-- Reads the items of a block sequence and its end. -/
def blockItems? (dialect : Dialect) : Nat → Composer → Option (List Node × Composer)
  | 0, _ => none
  | fuel + 1, composer =>
    match composer.tokens with
    | .blockEntry :: rest => do
      let (item, composer) ←
        optional? dialect fuel true false [.blockEntry, .blockEnd] (composer.goOn rest)
      let (items, composer) ← blockItems? dialect fuel composer
      some (item :: items, composer)
    | .blockEnd :: rest => some ([], composer.goOn rest)
    | _ => none

/-- Reads the items of a block sequence that has no indentation of its own, and hence no end. -/
def indentlessItems? (dialect : Dialect) : Nat → Composer → Option (List Node × Composer)
  | 0, _ => none
  | fuel + 1, composer =>
    match composer.tokens with
    | .blockEntry :: rest => do
      let (item, composer) ←
        optional? dialect fuel true false [.blockEntry, .key, .value, .blockEnd]
          (composer.goOn rest)
      let (items, composer) ← indentlessItems? dialect fuel composer
      some (item :: items, composer)
    | _ => some ([], composer)

/-- Reads the entries of a block mapping and its end. -/
def blockEntries? (dialect : Dialect) : Nat → Composer → Option (List (Node × Node) × Composer)
  | 0, _ => none
  | fuel + 1, composer => do
    let stops := [Token.key, .value, .blockEnd]
    let entry? (key : Node) (composer : Composer) : Option (List (Node × Node) × Composer) := do
      let (value, composer) ← value? dialect fuel true true stops composer
      let (entries, composer) ← blockEntries? dialect fuel composer
      some ((key, value) :: entries, composer)
    match composer.tokens with
    | .key :: rest => do
      let (key, composer) ← optional? dialect fuel true true stops (composer.goOn rest)
      entry? key composer
    | .value :: _ => if dialect.bareValues then entry? .nothing composer else none
    | .blockEnd :: rest => some ([], composer.goOn rest)
    | _ => none

/-- Reads the items of a sequence in brackets and the closing bracket. -/
def flowItems? (dialect : Dialect) : Nat → Bool → Composer → Option (List Node × Composer)
  | 0, _, _ => none
  | fuel + 1, first, composer => do
    match composer.tokens with
    | .flowSequenceEnd :: rest => some ([], composer.goOn rest)
    | _ =>
      let composer ← composer.separated? first
      let stops := [Token.flowEntry, .flowSequenceEnd]
      match composer.tokens with
      | .flowSequenceEnd :: rest => some ([], composer.goOn rest)
      | .key :: rest => do
        let (key, composer) ←
          optional? dialect fuel false false (.value :: stops) (composer.goOn rest)
        let (value, composer) ← value? dialect fuel false false stops composer
        let (items, composer) ← flowItems? dialect fuel false composer
        some (.mapping [(key, value)] none :: items, composer)
      | _ => do
        let (item, composer) ← node? dialect fuel false false composer
        let (items, composer) ← flowItems? dialect fuel false composer
        some (item :: items, composer)

/-- Reads the entries of a mapping in braces and the closing brace. -/
def flowEntries? (dialect : Dialect) :
    Nat → Bool → Composer → Option (List (Node × Node) × Composer)
  | 0, _, _ => none
  | fuel + 1, first, composer => do
    match composer.tokens with
    | .flowMappingEnd :: rest => some ([], composer.goOn rest)
    | _ =>
      let composer ← composer.separated? first
      let stops := [Token.flowEntry, .flowMappingEnd]
      let entry? (key : Node) (composer : Composer) :
          Option (List (Node × Node) × Composer) := do
        let (value, composer) ← value? dialect fuel false false stops composer
        let (entries, composer) ← flowEntries? dialect fuel false composer
        some ((key, value) :: entries, composer)
      match composer.tokens with
      | .flowMappingEnd :: rest => some ([], composer.goOn rest)
      | .key :: rest => do
        let (key, composer) ←
          optional? dialect fuel false false (.value :: stops) (composer.goOn rest)
        entry? key composer
      | .value :: _ =>
        if dialect.bareValues then entry? .nothing composer else none
      | _ => do
        let (key, composer) ← node? dialect fuel false false composer
        let (entries, composer) ← flowEntries? dialect fuel false composer
        some ((key, .nothing) :: entries, composer)

end

/-! ## Documents -/

/-- The version of YAML that a directive may name. -/
def isKnownVersion (major minor : Nat) : Bool := major = 1 && (minor = 1 || minor = 2)

/-- Reads the directives before a document, each of them once. -/
def directives? (dialect : Dialect) :
    Bool → List (List Char × List Char) → List Token →
      Option (List (List Char × List Char) × List Token)
  | versioned, handles, .version major minor :: rest =>
    if versioned || !(dialect.freeDirectives || isKnownVersion major minor) then none
    else directives? dialect true handles rest
  | versioned, handles, .handle name replacement :: rest =>
    if (handles.lookup name).isSome then none
    else directives? dialect versioned ((name, replacement) :: handles) rest
  | _, handles, tokens => some (handles, tokens)

/-- Whether a token begins a document explicitly. -/
def beginsDocument : Token → Bool
  | .version .. | .handle .. | .documentStart => true
  | _ => false

/-- The tokens before which a document has no content. -/
def isContentEnd : Token → Bool
  | .documentEnd => true
  | token => beginsDocument token

/-- The names that are given in some tokens, in their order. -/
def givenNames (tokens : List Token) : List (List Char) :=
  tokens.filterMap fun
    | .anchor name => some name
    | _ => none

/-- The number of each name, which is how many different names were seen before. -/
def numbersOf : (seen names : List (List Char)) → List Nat
  | _, [] => []
  | seen, name :: rest =>
    seen.length :: numbersOf (if seen.contains name then seen else name :: seen) rest

/-- For each name, the place of the last one with its number. -/
def standInsOf (names : List (List Char)) : List Nat :=
  let numbers := numbersOf [] names
  numbers.map fun number => numbers.length - 1 - numbers.reverse.idxOf number

/-- The second `x` and `y` have one number. -/
example : standInsOf [['x'], ['x'], ['y']] = [0, 2, 2] := by decide

/-- Reads one document. `shared` tells whether names may have one number. -/
def document? (dialect : Dialect) (shared : Bool) (handles : List (List Char × List Char))
    (tokens : List Token) : Option (Document × List Token) :=
  if tokens.head?.all isContentEnd then some (⟨.nothing, []⟩, tokens)
  else
    let names := givenNames (tokens.takeWhile fun token => !isContentEnd token)
    let composer := { start tokens with
      handles := handles ++ standardHandles
      standIns := if shared then standInsOf names else [] }
    (node? dialect (4 * tokens.length + 4) true false composer).map fun (root, composer) =>
      (⟨root, composer.named⟩, composer.tokens)

/-- Reads all documents. Only the first may begin without a marker. -/
def documents? (dialect : Dialect) (shared : Bool) :
    Nat → Bool → List Token → Option (List Document)
  | 0, _, _ => none
  | fuel + 1, first, tokens =>
    let tokens :=
      if first && !dialect.leadingEnds then tokens else tokens.dropWhile (· = .documentEnd)
    match tokens with
    | [] => some []
    | token :: _ => do
      let (document, rest) ←
        if first && token = .documentEnd then none
        else if first && !beginsDocument token then document? dialect shared [] tokens
        else
          match directives? dialect false [] tokens with
          | some (handles, .documentStart :: rest) => document? dialect shared handles rest
          | _ => none
      let documents ← documents? dialect shared fuel false rest
      some (document :: documents)

end Composer

def Document.ofText? (dialect : Dialect) (text : String) : Option (List Document) :=
  (Token.scan? dialect text.toList).bind fun tokens =>
    let shared := dialect.sharedNumbers && !(Composer.givenNames tokens).isEmpty
    Composer.documents? dialect shared (tokens.length + 1) true tokens

end QuotaGate.Yaml
