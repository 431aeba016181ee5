import InstanceInventory.Literal.Lexer
import InstanceInventory.Value.Basic

/-! # Writing literal values

* `stringChars`: a text as a quoted string without templates, on one line.
* `keyChars`: a key, quoted only where it has to be.
* `valueChars`: a value at an indentation level. Objects, and lists that hold objects or lists, take
  a line for each part. Below level zero nothing is indented.
* `bodyLines`: the entries of an object. Entries on one line that follow each other have their
  equals signs in one column.
-/

namespace InstanceInventory.Literal
set_option autoImplicit false

/-! ## Strings and keys -/

/-- A character inside a quoted string; `beforeBrace` tells that an opening brace follows, which
would make a template. -/
def stringChar (c : Char) (beforeBrace : Bool) : List Char :=
  if c = '\\' ∨ c = '"' then ['\\', c]
  else if c = '\n' then ['\\', 'n']
  else if c = '\t' then ['\\', 't']
  else if c = '\r' then ['\\', 'r']
  else if c.toNat < 0x20 then '\\' :: 'u' :: Text.hexDigits 4 c.toNat
  else if (c = '$' ∨ c = '%') ∧ beforeBrace then [c, c]
  else [c]

/-- The characters of a text as they stand between quotes. -/
def stringBody : List Char → List Char
  | [] => []
  | c :: cs => stringChar c (cs.take 1 == ['\x7b']) ++ stringBody cs

def stringChars (s : String) : List Char :=
  '"' :: (stringBody s.toList ++ ['"'])

def quoteString (s : String) : String :=
  String.ofList (stringChars s)

/-- The words that are values and so no bare keys. -/
def reservedKeys : List String := ["true", "false", "null"]

/-- A key that stands without quotes: letters, digits and underscores, no digit first, and not a
word that is a value. -/
def isBareKey (key : String) : Bool :=
  (match key.toList with
    | [] => false
    | c :: cs => isNameStart c && cs.all fun c => isNameChar c && c != '-') &&
  !reservedKeys.contains key

/-- A key, quoted where it has to be. -/
def keyChars (key : String) : List Char :=
  if isBareKey key then key.toList else stringChars key

/-- A key, quoted where it has to be. -/
def writeKey (key : String) : String :=
  String.ofList (keyChars key)

/-! ## Layout -/

/-- The blanks before a line at a level; none at a level below zero. -/
def indent (level : Int) : List Char :=
  List.replicate (2 * level).toNat ' '

/-- An entry of an object: its key and its value as they are written. -/
structure Row where
  key : List Char
  value : List Char

def Row.isTall (r : Row) : Bool :=
  r.value.contains '\n'

/-- The line of a row whose key fills a column. -/
def Row.line (level : Int) (width : Nat) (r : Row) : List Char :=
  indent level ++ r.key ++ List.replicate (width - r.key.length) ' ' ++ [' ', '=', ' '] ++ r.value

/-- The lines of rows that share one column. -/
def alignedLines (level : Int) (run : List Row) : List (List Char) :=
  let width := (run.map fun r => r.key.length).foldl max 0
  run.map (Row.line level width)

/-- The lines of rows; `run` holds the rows on one line since the last tall one. -/
def rowLines (level : Int) (run : List Row) : List Row → List (List Char)
  | [] => alignedLines level run
  | r :: rs =>
    if r.isTall then alignedLines level run ++ r.line level 0 :: rowLines level [] rs
    else rowLines level (run ++ [r]) rs

/-! ## Values -/

mutual

def valueChars (level : Int) : Value → List Char
  | .null => "null".toList
  | .bool true => "true".toList
  | .bool false => "false".toList
  | .number n => n.chars
  | .text s => stringChars s
  | .list items =>
    if items.isEmpty then ['[', ']']
    else if items.any Value.isCollection then
      '[' :: '\n' :: (['\n'].intercalate (tallItems (level + 1) items) ++
        '\n' :: indent level ++ [']'])
    else '[' :: ([',', ' '].intercalate (flatItems level items) ++ [']'])
  | .object fields =>
    if fields.isEmpty then ['\x7b', '\x7d']
    else
      '\x7b' :: '\n' :: (['\n'].intercalate (rowLines (level + 1) [] (rows (level + 1) fields)) ++
        '\n' :: indent level ++ ['\x7d'])

/-- The items of a list that stand on one line. -/
def flatItems (level : Int) : List Value → List (List Char)
  | [] => []
  | v :: vs => valueChars level v :: flatItems level vs

/-- The items of a list, each on lines of its own. -/
def tallItems (level : Int) : List Value → List (List Char)
  | [] => []
  | v :: vs => (indent level ++ valueChars level v ++ [',']) :: tallItems level vs

/-- The fields of an object as rows. -/
def rows (level : Int) : List (String × Value) → List Row
  | [] => []
  | (k, v) :: fs => ⟨keyChars k, valueChars level v⟩ :: rows level fs

end

def render (level : Int) (v : Value) : String :=
  String.ofList (valueChars level v)

/-- The lines of the entries of an object; the line of a tall entry holds newlines. -/
def bodyLines (level : Int) (fields : Fields) : List String :=
  (rowLines level [] (rows level fields)).map String.ofList

def renderEntry (level : Int) (key : String) (v : Value) : String :=
  String.ofList (indent level ++ keyChars key ++ [' ', '=', ' '] ++ valueChars level v)

end InstanceInventory.Literal
