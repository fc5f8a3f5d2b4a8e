/-
# Reading JSON

A reader that takes one character at a time. Its state is a stack of
unfinished lists and objects and a mode: what may come next, or the text,
number or word that is being read. A value is complete when its last character
has been read, or, for a number or a word, when the next character cannot
belong to it; behind a complete outermost value only blanks may follow.

Beside the standard grammar the words `NaN`, `Infinity` and `-Infinity` are
read as doubles. A raw control character in a text, an integer of more than
4300 digits and nesting beyond `nestingLimit` are refused. Of two fields of
one name the later value counts, in the place of the first. The escape of one
half of a surrogate pair without the other is read as `unknownChar`.

Key definitions: `Json.Reader.State`, `Json.Reader.step`, `Json.Reader.finish`,
`Json.read?`.
-/
import Augur.Json.Basic

namespace Augur.Json

/-- How many lists and objects may be open at once. -/
def nestingLimit : Nat := 960

/-- The most digits that an integer is read from. -/
def integerDigitLimit : Nat := 4300

/-- The characters of numbers and bare words. -/
def isWordChar (c : Char) : Bool := c.isAlphanum || c == '-' || c == '+' || c == '.'

/-- JSON white space. -/
def isSpace (c : Char) : Bool := c == ' ' || c == '\t' || c == '\n' || c == '\r'

/-- The number that ASCII digits denote. -/
def natOfAscii (cs : List Char) : Nat := cs.foldl (fun n c => 10 * n + (c.toNat - '0'.toNat)) 0

/-- The exponent part of a number: nothing, or a mark, a sign and digits. -/
def exponent? : List Char → Option Int
  | [] => some 0
  | e :: r =>
    if e = 'e' ∨ e = 'E' then
      match r with
      | '-' :: ds => if !ds.isEmpty && ds.all Char.isDigit then some (-(natOfAscii ds)) else none
      | '+' :: ds => if !ds.isEmpty && ds.all Char.isDigit then some (natOfAscii ds) else none
      | ds => if !ds.isEmpty && ds.all Char.isDigit then some (natOfAscii ds) else none
    else none

/-- What follows the integer part `whole` of a number: nothing, or a fraction, an exponent or
both, which make it a double. -/
def ofNumberTail? (negative : Bool) (whole : List Char) : List Char → Option Json
  | [] =>
    if whole.length ≤ integerDigitLimit then
      some (int (if negative then -(natOfAscii whole) else natOfAscii whole))
    else none
  | '.' :: r =>
    let part := r.takeWhile Char.isDigit
    if part.isEmpty then none
    else (exponent? (r.drop part.length)).map fun e =>
      double (Decimal.scaled negative (natOfAscii (whole ++ part)) (e - part.length))
  | r => (exponent? r).map fun e => double (Decimal.scaled negative (natOfAscii whole) e)

/-- An unsigned number: its integer part has no leading zero. -/
def ofUnsigned? (negative : Bool) (cs : List Char) : Option Json :=
  let whole := cs.takeWhile Char.isDigit
  if whole.isEmpty || (whole.head? == some '0' && whole.length != 1) then none
  else ofNumberTail? negative whole (cs.drop whole.length)

/-- The value of a number or a bare word. -/
def ofWord? (cs : List Char) : Option Json :=
  if cs = "null".toList then some null
  else if cs = "true".toList then some (bool true)
  else if cs = "false".toList then some (bool false)
  else if cs = "NaN".toList then some (double .nan)
  else if cs = "Infinity".toList then some (double (.infinite false))
  else if cs = "-Infinity".toList then some (double (.infinite true))
  else
    match cs with
    | '-' :: r => ofUnsigned? true r
    | _ => ofUnsigned? false cs

namespace Reader

/-- An unfinished list or object: what it holds so far, newest first. -/
inductive Frame where
  | list (items : List Json)
  /-- An object that waits for the value of `key`. -/
  | object (fields : Fields) (key : String)

/-- Inside a text: what the next character is. -/
inductive Escape where
  /-- A character of its own, after the first half of a surrogate pair or not. -/
  | plain (high : Option Nat)
  /-- The character behind a backslash. -/
  | slash (high : Option Nat)
  /-- A hexadecimal digit, after `count` of them of the given value. -/
  | hex (high : Option Nat) (count value : Nat)

/-- Where the reader stands. -/
inductive Mode where
  /-- A value must follow; just behind `[`, the list may also end. -/
  | value (mayClose : Bool)
  /-- A field name must follow; just behind `{`, the object may also end. -/
  | key (fields : Fields) (mayClose : Bool)
  /-- A colon must follow the field name. -/
  | colon (fields : Fields) (key : String)
  /-- In a field name. -/
  | keyText (fields : Fields) (chars : List Char) (escape : Escape)
  /-- In a text. -/
  | text (chars : List Char) (escape : Escape)
  /-- In a number or a bare word. -/
  | word (chars : List Char)
  /-- Behind a complete value. -/
  | complete (v : Json)

/-- The unfinished containers, innermost first, and the mode. -/
structure State where
  stack : List Frame
  mode : Mode

def start : State := ⟨[], .value false⟩

/-- The character that stands for what has no character of its own. -/
def unknownChar : Char := '\uFFFD'

/-- The characters read with a pending first half, which finds no second half, flushed. -/
def flush (high : Option Nat) (chars : List Char) : List Char :=
  match high with
  | some _ => unknownChar :: chars
  | none => chars

/-- The character of a one-letter escape. -/
def escaped? (c : Char) : Option Char :=
  if c = '"' then some '"'
  else if c = '\\' then some '\\'
  else if c = '/' then some '/'
  else if c = 'b' then some '\x08'
  else if c = 'f' then some '\x0c'
  else if c = 'n' then some '\n'
  else if c = 'r' then some '\r'
  else if c = 't' then some '\t'
  else none

def hexValue? (c : Char) : Option Nat :=
  if c.isDigit then some (c.toNat - '0'.toNat)
  else if 'a' ≤ c ∧ c ≤ 'f' then some (c.toNat - 'a'.toNat + 10)
  else if 'A' ≤ c ∧ c ≤ 'F' then some (c.toNat - 'A'.toNat + 10)
  else none

/-- The characters read after a complete hexadecimal escape. -/
def takeUnit (high : Option Nat) (unit : Nat) (chars : List Char) : List Char × Escape :=
  if 0xDC00 ≤ unit ∧ unit ≤ 0xDFFF then
    match high with
    | some h =>
      (Char.ofNat (0x10000 + (h - 0xD800) * 0x400 + (unit - 0xDC00)) :: chars, .plain none)
    | none => (unknownChar :: chars, .plain none)
  else if 0xD800 ≤ unit ∧ unit ≤ 0xDBFF then (flush high chars, .plain (some unit))
  else (Char.ofNat unit :: flush high chars, .plain none)

/-- One character inside a text, its closing quote apart. -/
def stepText (chars : List Char) : Escape → Char → Option (List Char × Escape)
  | .plain high, c =>
    if c = '\\' then some (chars, .slash high)
    else if c.toNat < 0x20 then none
    else some (c :: flush high chars, .plain none)
  | .slash high, c =>
    if c = 'u' then some (chars, .hex high 0 0)
    else (escaped? c).map fun e => (e :: flush high chars, .plain none)
  | .hex high count value, c =>
    (hexValue? c).map fun d =>
      if count = 3 then takeUnit high (16 * value + d) chars
      else (chars, .hex high (count + 1) (16 * value + d))

/-- Whether the character ends the text. -/
def closesText (escape : Escape) (c : Char) : Bool :=
  match escape with
  | .plain _ => c == '"'
  | _ => false

/-- The text of the characters read, newest first. -/
def finishText (chars : List Char) : Escape → String
  | .plain high => String.ofList (flush high chars).reverse
  | _ => String.ofList chars.reverse

/-- The first character of a value. -/
def open? (stack : List Frame) (mayClose : Bool) (c : Char) : Option State :=
  if isSpace c then some ⟨stack, .value mayClose⟩
  else if c = '"' then some ⟨stack, .text [] (.plain none)⟩
  else if c = '[' then
    if stack.length < nestingLimit then some ⟨.list [] :: stack, .value true⟩ else none
  else if c = '{' then
    if stack.length < nestingLimit then some ⟨stack, .key [] true⟩ else none
  else if isWordChar c then some ⟨stack, .word [c]⟩
  else if c = ']' ∧ mayClose then
    match stack with
    | .list [] :: rest => some ⟨rest, .complete (list [])⟩
    | _ => none
  else none

/-- A character behind a complete value. -/
def afterValue (stack : List Frame) (v : Json) (c : Char) : Option State :=
  if isSpace c then some ⟨stack, .complete v⟩
  else
    match stack with
    | [] => none
    | .list items :: rest =>
      if c = ',' then some ⟨.list (v :: items) :: rest, .value false⟩
      else if c = ']' then some ⟨rest, .complete (list (v :: items).reverse)⟩
      else none
    | .object fields key :: rest =>
      if c = ',' then some ⟨rest, .key (setField key v fields) false⟩
      else if c = '}' then some ⟨rest, .complete (object (setField key v fields))⟩
      else none

/-- One character. -/
def step (s : State) (c : Char) : Option State :=
  match s.mode with
  | .value mayClose => open? s.stack mayClose c
  | .key fields mayClose =>
    if isSpace c then some s
    else if c = '"' then some ⟨s.stack, .keyText fields [] (.plain none)⟩
    else if c = '}' ∧ mayClose then some ⟨s.stack, .complete (object fields)⟩
    else none
  | .colon fields key =>
    if isSpace c then some s
    else if c = ':' then some ⟨.object fields key :: s.stack, .value false⟩
    else none
  | .keyText fields chars escape =>
    if closesText escape c then some ⟨s.stack, .colon fields (finishText chars escape)⟩
    else (stepText chars escape c).map fun t => ⟨s.stack, .keyText fields t.1 t.2⟩
  | .text chars escape =>
    if closesText escape c then some ⟨s.stack, .complete (text (finishText chars escape))⟩
    else (stepText chars escape c).map fun t => ⟨s.stack, .text t.1 t.2⟩
  | .word chars =>
    if isWordChar c then some ⟨s.stack, .word (c :: chars)⟩
    else (ofWord? chars.reverse).bind fun v => afterValue s.stack v c
  | .complete v => afterValue s.stack v c

/-- The characters one after another. -/
def run : State → List Char → Option State
  | s, [] => some s
  | s, c :: r =>
    match step s c with
    | some s' => run s' r
    | none => none

/-- The value that has been read when the text ends: everything must be closed. -/
def finish (s : State) : Option Json :=
  if s.stack.isEmpty then
    match s.mode with
    | .complete v => some v
    | .word chars => ofWord? chars.reverse
    | _ => none
  else none

end Reader

/-- The JSON value that the whole text denotes, if it denotes one. -/
def read? (cs : List Char) : Option Json := (Reader.run Reader.start cs).bind Reader.finish

/-- The JSON value of a text. -/
def ofString? (s : String) : Option Json := read? s.toList

end Augur.Json
