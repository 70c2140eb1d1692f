import QuotaGate.Number.Decimal
import QuotaGate.Number.Shortest
import QuotaGate.Settings.Fields
import QuotaGate.Text.Blank

/-!
# Trees of settings

Layered settings are merged as a tree before they are read: tables and lists over plain values. A
value that is not of the type of its setting is converted, as far as that makes sense: every plain
value has a text, and flags, fractions and some words stand for numbers.
-/

namespace QuotaGate

/-- A tree of settings. -/
inductive Tree where
  | nothing
  | flag (value : Bool)
  | whole (value : Int)
  | fraction (value : Binary64)
  | text (value : String)
  | list (items : List Tree)
  | table (members : List (String × Tree))
  deriving Repr

namespace Tree

/-! ## Reading -/

def text? : Tree → Option String
  | text value => some value
  | whole value => some (toString value)
  | fraction value => some value.plainText
  | flag value => some (if value then "true" else "false")
  | _ => none

/-- The words that stand for one and for zero. -/
def oneWords : List String := ["true", "on", "yes"]
def zeroWords : List String := ["false", "off", "no"]

def natOfText? (text : String) : Option Nat :=
  let word := Text.lower text
  if oneWords.contains word then some 1
  else if zeroWords.contains word then some 0
  else NumberText.nat? NumberText.greatestNat64 text.toList

/-- The number that a plain value stands for. -/
def nat64? : Tree → Option Nat
  | whole value => if value < 0 then none else some value.toNat
  | fraction value => some (value.clampToNat NumberText.greatestNat64)
  | flag value => some (if value then 1 else 0)
  | text value => natOfText? value
  | _ => none

/-- The named values of a section: those of a table, or those of a list in the order of the
names. -/
def entries? (names : List String) : Tree → Option (List (String × Tree))
  | table members => some members
  | list items => some (names.zip items)
  | _ => none

def reader : Reader Tree where
  entries?
  text?
  nat? most tree := tree.nat64?.filter (· ≤ most)
  optional?
    | nothing => some none
    | tree => some (some tree)

/-! ## Changing -/

/-- The members of a table. Anything else has none. -/
def members : Tree → List (String × Tree)
  | table members => members
  | _ => []

/-- The items of a list. Anything else has none. -/
def items : Tree → List Tree
  | list items => items
  | _ => []

def get? (tree : Tree) (name : String) : Option Tree := tree.members.lookup name

/-- Replaces the member of a name, or adds it. -/
def putMember (name : String) (value : Tree) : List (String × Tree) → List (String × Tree)
  | [] => [(name, value)]
  | (other, held) :: rest =>
    if other = name then (name, value) :: rest else (other, held) :: putMember name value rest

/-- The table with a member of a name. What is no table gives way to one. -/
def put (tree : Tree) (name : String) (value : Tree) : Tree :=
  table (putMember name value tree.members)

mutual

/-- Sets a member, names compared without case. A table is merged member by member into what is
there; any other value replaces it. -/
def assign (name : String) : Tree → Tree → Tree
  | table members, tree =>
    let key := Text.lower name
    tree.put key (assignAll members ((tree.get? key).getD (table [])))
  | value, tree => tree.put (Text.lower name) value

def assignAll : List (String × Tree) → Tree → Tree
  | [], tree => tree
  | (name, value) :: rest, tree => assignAll rest (assign name value tree)

end

end Tree

/-! ## Paths -/

/-- One step down a tree. A position below zero is counted from the end. -/
inductive Step where
  | member (name : String)
  | item (position : Int)
  deriving DecidableEq, Repr

namespace Step

/-- Whether a character may stand in a name on a path. -/
def isNameChar (c : Char) : Bool := c.isAlphanum || c = ' ' || c = '_' || c = '-'

/-- Reads a position, which spaces and tabs may surround: digits, after a minus sign if they are
counted from the end. -/
def position? (text : List Char) : Option Int :=
  let isGap (c : Char) : Bool := c = ' ' || c = '\t'
  let numeral := Text.dropEndWhile isGap (text.dropWhile isGap)
  if numeral.head? = some '+' then none
  else NumberText.int? NumberText.leastInt64 NumberText.greatestInt64 numeral

/-- Reads the steps after the first name of a path: names after dots, positions in brackets. -/
def following? : Nat → List Char → Option (List Step)
  | _, [] => some []
  | 0, _ => none
  | fuel + 1, '.' :: rest =>
    let name := rest.takeWhile isNameChar
    if name.isEmpty then none
    else (following? fuel (rest.drop name.length)).map (.member (String.ofList name) :: ·)
  | fuel + 1, '[' :: rest =>
    let inside := rest.takeWhile (· != ']')
    match position? inside, rest.drop inside.length with
    | some position, ']' :: rest => (following? fuel rest).map (.item position :: ·)
    | _, _ => none
  | _, _ => none

def path? (text : String) : Option (List Step) :=
  let name := text.toList.takeWhile isNameChar
  if name.isEmpty then none
  else
    (following? text.length (text.toList.drop name.length)).map
      (.member (String.ofList name) :: ·)

/-- The index of a position in a list of some length. Nothing is before the first item. -/
def index? (position : Int) (length : Nat) : Option Nat :=
  if 0 ≤ position then some position.toNat
  else if position.natAbs ≤ length then some (length - position.natAbs)
  else none

end Step

namespace Tree

/-- Puts an item at an index. A list that is too short is filled up. -/
def putItem (index : Nat) (value : Tree) (items : List Tree) : List Tree :=
  (items ++ List.replicate (index + 1 - items.length) nothing).set index value

/-- Whether no position on a path is before the first item of its list. -/
def reaches : List Step → Tree → Bool
  | [], _ => true
  | .member name :: rest, tree => reaches rest ((tree.get? (Text.lower name)).getD nothing)
  | .item position :: rest, tree =>
    (Step.index? position tree.items.length).any fun index =>
      reaches rest ((tree.items[index]?).getD nothing)

/-- Sets the value at the end of a path that can be reached. What stands in the way and is no table
or list, as the path asks for, gives way to one. -/
def setAt (value : Tree) : List Step → Tree → Tree
  | [], _ => value
  | [.member name], tree => assign name value tree
  | .member name :: rest, tree =>
    let key := Text.lower name
    tree.put key (setAt value rest ((tree.get? key).getD nothing))
  | .item position :: rest, tree =>
    let items := tree.items
    let index := (Step.index? position items.length).getD 0
    list (putItem index (setAt value rest ((items[index]?).getD nothing)) items)

/-- Sets the value under a key: at the end of the path that the key spells, if it spells one. -/
def setKey (tree : Tree) (entry : String × Tree) : Tree :=
  match Step.path? entry.1 with
  | some path => setAt entry.2 path tree
  | none => assign entry.1 entry.2 tree

/-- Sets the value under a key whose path can be reached. -/
def setKey? (tree : Tree) (entry : String × Tree) : Option Tree :=
  if reaches ((Step.path? entry.1).getD []) tree then some (tree.setKey entry) else none

end Tree

end QuotaGate
