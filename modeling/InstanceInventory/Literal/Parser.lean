import InstanceInventory.Literal.Lexer
import InstanceInventory.Value.Basic

/-! # Reading literal values

* `readValue`, `readEntry`: the value, or the key and value, at the head of a list of tokens. Each
  returns the tokens after it together with the fact that there are fewer of them.
* `parseValue`, `parseEntry`: the one value, or the one entry, that a text holds.
-/

namespace InstanceInventory.Literal
set_option autoImplicit false

/-! ## Tokens ahead -/

/-- A strictly shorter list of tokens. -/
abbrev Shorter (ts : List Token) : Type :=
  { rest : List Token // rest.length < ts.length }

def Token.isNewline (t : Token) : Bool :=
  match t.kind with
  | .newline => true
  | _ => false

def Token.isComment (t : Token) : Bool :=
  match t.kind with
  | .comment => true
  | _ => false

def skipNewlines (ts : List Token) : List Token :=
  ts.dropWhile Token.isNewline

theorem length_skipNewlines_le (ts : List Token) : (skipNewlines ts).length ≤ ts.length :=
  (List.dropWhile_sublist _).length_le

/-- The first token that is not a newline, with the tokens after it. -/
def nextToken (ts : List Token) : Except Fault (Token × Shorter ts) :=
  match h : skipNewlines ts with
  | [] => .error (.atEnd .endOfInput)
  | t :: rest => .ok (t, ⟨rest, by
      have := length_skipNewlines_le ts
      rw [h, List.length_cons] at this
      omega⟩)

/-- The key of an entry: a name, or a string without a template. -/
def readKey (ts : List Token) : Except Fault (String × Token × Shorter ts) := do
  let (t, rest) ← nextToken ts
  match t.kind with
  | .ident => return (t.text, t, rest)
  | .string value template =>
    if template then throw (.atLine .templateInKey t.line) else return (value, t, rest)
  | _ => throw (.atLine (.unexpected ["ident", "string"] t.text) t.line)

/-- The sign between a key and its value. -/
def readAssignment (ts : List Token) : Except Fault (Shorter ts) := do
  let (t, rest) ← nextToken ts
  match t.kind with
  | .equals | .colon => return rest
  | _ => throw (.atLine (.unexpected ["=", ":"] t.text) t.line)

def readNegative (ts : List Token) : Except Fault (Value × Shorter ts) := do
  let (t, rest) ← nextToken ts
  match t.kind with
  | .number n => return (.number n.neg, rest)
  | _ => throw (.atLine (.unexpected ["number"] t.text) t.line)

/-! ## Values -/

mutual

def readValue (ts : List Token) : Except Fault (Value × Shorter ts) := do
  let (t, ⟨rest, shorter⟩) ← nextToken ts
  match t.kind with
  | .openBrace =>
    let (fields, ⟨rest', shorter'⟩) ← readObject [] rest
    return (.object fields, ⟨rest', by omega⟩)
  | .openBracket =>
    let (items, ⟨rest', shorter'⟩) ← readTuple [] rest
    return (.list items, ⟨rest', by omega⟩)
  | .string value template =>
    if template then throw (.atLine (.templateInValue t.text) t.line)
    else return (.text value, ⟨rest, shorter⟩)
  | .heredoc value => return (.text value, ⟨rest, shorter⟩)
  | .number n => return (.number n, ⟨rest, shorter⟩)
  | .operator =>
    if t.text == "-" then
      let (v, ⟨rest', shorter'⟩) ← readNegative rest
      return (v, ⟨rest', by omega⟩)
    else throw (.atLine (.unsupported t.text) t.line)
  | .ident =>
    if t.text == "true" then return (.bool true, ⟨rest, shorter⟩)
    else if t.text == "false" then return (.bool false, ⟨rest, shorter⟩)
    else if t.text == "null" then return (.null, ⟨rest, shorter⟩)
    else throw (.atLine (.unsupported t.text) t.line)
  | _ => throw (.atLine (.unsupported t.text) t.line)
termination_by 3 * ts.length
decreasing_by all_goals omega

/-- The fields of an object from inside its braces, after the fields already read. -/
def readObject (fields : Fields) (ts : List Token) : Except Fault (Fields × Shorter ts) :=
  match h : skipNewlines ts with
  | [] => .error (.atEnd .unterminatedObject)
  | t :: rest =>
    have bound : (t :: rest).length ≤ ts.length := h ▸ length_skipNewlines_le ts
    if t.kind matches .closeBrace then .ok (fields, ⟨rest, bound⟩)
    else do
      let ((key, value), ⟨rest, shorter'⟩) ← readEntry (t :: rest)
      have shorter : rest.length < ts.length := Nat.lt_of_lt_of_le shorter' bound
      if fields.any (·.1 == key) then throw (.atLine (.duplicateKey key) t.line)
      else match h' : rest with
        | [] => throw (.atEnd .unterminatedObject)
        | after :: rest' =>
          have bound' : (after :: rest').length < ts.length := h' ▸ shorter
          have shorter'' : rest'.length < ts.length := Nat.lt_of_succ_lt bound'
          match after.kind with
          | .comma | .newline =>
            let (fields, ⟨rest'', shorter'''⟩) ← readObject (fields ++ [(key, value)]) rest'
            return (fields, ⟨rest'', by omega⟩)
          | .closeBrace => return (fields ++ [(key, value)], ⟨rest', shorter''⟩)
          | _ => throw (.atLine (.unexpectedAfterValue after.text key) after.line)
termination_by 3 * ts.length + 2
decreasing_by all_goals omega

/-- The items of a tuple from inside its brackets, after the items already read. -/
def readTuple (items : List Value) (ts : List Token) : Except Fault (List Value × Shorter ts) :=
  match h : skipNewlines ts with
  | [] => .error (.atEnd .unterminatedTuple)
  | t :: rest =>
    have bound : (t :: rest).length ≤ ts.length := h ▸ length_skipNewlines_le ts
    if t.kind matches .closeBracket then .ok (items, ⟨rest, bound⟩)
    else do
      let (value, ⟨rest, shorter'⟩) ← readValue (t :: rest)
      have shorter : rest.length < ts.length := Nat.lt_of_lt_of_le shorter' bound
      match h' : skipNewlines rest with
      | [] => throw (.atEnd .expectedInTuple)
      | after :: rest' =>
        have bound' : (after :: rest').length ≤ rest.length := h' ▸ length_skipNewlines_le rest
        have shorter'' : rest'.length < ts.length :=
          Nat.lt_of_succ_lt (Nat.lt_of_le_of_lt bound' shorter)
        match after.kind with
        | .comma =>
          let (items, ⟨rest'', shorter'''⟩) ← readTuple (items ++ [value]) rest'
          return (items, ⟨rest'', by omega⟩)
        | .closeBracket => return (items ++ [value], ⟨rest', shorter''⟩)
        | _ => throw (.atLine .expectedInTuple after.line)
termination_by 3 * ts.length + 2
decreasing_by all_goals omega

def readEntry (ts : List Token) : Except Fault ((String × Value) × Shorter ts) := do
  let (key, _, ⟨rest, shorter⟩) ← readKey ts
  let ⟨rest', shorter'⟩ ← readAssignment rest
  let (value, ⟨rest'', shorter''⟩) ← readValue rest'
  return ((key, value), ⟨rest'', by omega⟩)
termination_by 3 * ts.length + 1
decreasing_by omega

end

/-! ## Texts -/

/-- The tokens of a text that the parser reads. -/
def significantTokens (text : String) : Except Fault (List Token) :=
  (tokenize text).map fun ts => ts.filter fun t => !t.isComment

/-- The one value that a text holds. -/
def parseValue (text : String) : Except Fault Value := do
  let (value, ⟨rest, _⟩) ← readValue (← significantTokens text)
  if (skipNewlines rest).isEmpty then return value else throw (.atEnd .trailingValue)

/-- The one entry that a text holds; a comma may follow it directly. -/
def parseEntry (text : String) : Except Fault (String × Value) := do
  let (entry, ⟨rest, _⟩) ← readEntry (skipNewlines (← significantTokens text))
  let rest := match rest with
    | t :: ts => if t.kind matches .comma then ts else t :: ts
    | [] => []
  if (skipNewlines rest).isEmpty then return entry else throw (.atEnd .trailingEntry)

end InstanceInventory.Literal
