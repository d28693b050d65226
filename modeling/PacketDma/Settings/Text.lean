/-
**Settings as text.**

Settings are written in JSON, either as an object that names some of the fields or as an array that
lists the first of them in order; fields that are not given keep their defaults.  Values are plain
natural numbers.  Text that is anything else is refused as a whole.

Reading has three stages: the characters are cut into tokens by an automaton that looks at each
character once, the tokens are matched against the two forms of a document, and the entries are
assigned to fields.

Main definitions:

* `PacketDma.SettingsText.Token`, `PacketDma.SettingsText.tokens?` — from characters to tokens;
* `PacketDma.SettingsText.Document`, `PacketDma.SettingsText.document?` — from tokens to a document;
* `PacketDma.Settings.ofText?` — the settings that a text describes.
-/

import PacketDma.Settings.Basic

set_option autoImplicit false

namespace PacketDma

namespace SettingsText

/-! ### Tokens -/

/-- A token of a document. -/
inductive Token where
  | leftBrace
  | rightBrace
  | leftBracket
  | rightBracket
  | comma
  | colon
  | text (characters : List Char)
  | number (value : Nat)
deriving DecidableEq, Repr

/-- What the automaton is in the middle of. -/
inductive Mode where
  /-- Between two tokens. -/
  | between
  /-- In a number with the given value so far. -/
  | inNumber (value : Nat)
  /-- In a quoted text with the given characters so far, last first. -/
  | inText (seen : List Char)
  /-- Behind a backslash in a quoted text. -/
  | inEscape (seen : List Char)
  /-- In a character code of which `missing + 1` hexadecimal digits are missing. -/
  | inCode (seen : List Char) (missing value : Nat)
deriving DecidableEq, Repr

/-- The blank characters between tokens. -/
def isBlank (c : Char) : Bool := c = ' ' || c = '\n' || c = '\t' || c = '\r'

/-- The value of a hexadecimal digit of either case. -/
def hexValue? (c : Char) : Option Nat :=
  if '0' ≤ c ∧ c ≤ '9' then some (c.toNat - '0'.toNat)
  else if 'a' ≤ c ∧ c ≤ 'f' then some (c.toNat - 'a'.toNat + 10)
  else if 'A' ≤ c ∧ c ≤ 'F' then some (c.toNat - 'A'.toNat + 10)
  else none

/-- A character between two tokens: the tokens that it completes and what it begins. -/
def stepBetween (c : Char) : Option (List Token × Mode) :=
  if isBlank c then some ([], .between)
  else if c.isDigit then some ([], .inNumber (c.toNat - '0'.toNat))
  else
    match c with
    | '\x7b' => some ([.leftBrace], .between)
    | '\x7d' => some ([.rightBrace], .between)
    | '[' => some ([.leftBracket], .between)
    | ']' => some ([.rightBracket], .between)
    | ',' => some ([.comma], .between)
    | ':' => some ([.colon], .between)
    | '"' => some ([], .inText [])
    | _ => none

/-- The character that a letter behind a backslash stands for. -/
def escaped? : Char → Option Char
  | '"' => some '"'
  | '\\' => some '\\'
  | '/' => some '/'
  | 'b' => some '\x08'
  | 'f' => some '\x0c'
  | 'n' => some '\n'
  | 'r' => some '\r'
  | 't' => some '\t'
  | _ => none

/-- One step of the automaton: the tokens that a character completes and the mode behind it, or
nothing if no document continues so.  A number begins with zero only if it is zero, a quoted text
holds no control character, and a code that names one half of a character names none. -/
def step : Mode → Char → Option (List Token × Mode)
  | .between, c => stepBetween c
  | .inNumber value, c =>
      if c.isDigit then
        if value = 0 then none
        else some ([], .inNumber (10 * value + (c.toNat - '0'.toNat)))
      else (stepBetween c).map fun (tokens, mode) => (.number value :: tokens, mode)
  | .inText seen, c =>
      if c = '"' then some ([.text seen.reverse], .between)
      else if c = '\\' then some ([], .inEscape seen)
      else if c.toNat < 0x20 then none
      else some ([], .inText (c :: seen))
  | .inEscape seen, c =>
      if c = 'u' then some ([], .inCode seen 3 0)
      else (escaped? c).map fun e => ([], .inText (e :: seen))
  | .inCode seen missing value, c =>
      (hexValue? c).bind fun digit =>
        let code := 16 * value + digit
        match missing with
        | missing + 1 => some ([], .inCode seen missing code)
        | 0 => if code.isValidChar then some ([], .inText (Char.ofNat code :: seen)) else none

/-- The tokens still to come at the end of the characters. -/
def finish : Mode → Option (List Token)
  | .between => some []
  | .inNumber value => some [.number value]
  | _ => none

/-- The tokens of the characters from a given mode on. -/
def tokensFrom : Mode → List Char → Option (List Token)
  | mode, [] => finish mode
  | mode, c :: rest =>
      (step mode c).bind fun (tokens, next) => (tokensFrom next rest).map (tokens ++ ·)

/-- The tokens of a text. -/
def tokens? (text : String) : Option (List Token) := tokensFrom .between text.toList

/-! ### Documents -/

/-- The two forms of a document. -/
inductive Document where
  /-- Values by name. -/
  | named (entries : List (List Char × Nat))
  /-- Values by position. -/
  | positional (values : List Nat)
deriving DecidableEq, Repr

/-- The entries up to the closing brace. -/
def entries? : List Token → Option (List (List Char × Nat))
  | [.text name, .colon, .number value, .rightBrace] => some [(name, value)]
  | .text name :: .colon :: .number value :: .comma :: rest =>
      (entries? rest).map ((name, value) :: ·)
  | _ => none

/-- The values up to the closing bracket. -/
def values? : List Token → Option (List Nat)
  | [.number value, .rightBracket] => some [value]
  | .number value :: .comma :: rest => (values? rest).map (value :: ·)
  | _ => none

/-- The document that the tokens form. -/
def document? : List Token → Option Document
  | [.leftBrace, .rightBrace] => some (.named [])
  | .leftBrace :: rest => (entries? rest).map .named
  | [.leftBracket, .rightBracket] => some (.positional [])
  | .leftBracket :: rest => (values? rest).map .positional
  | _ => none

/-! ### Assignment -/

/-- The field with the given name. -/
def field? (name : List Char) : Option SettingsField :=
  SettingsField.all.find? (·.name.toList = name)

/-- Assigns values to fields one by one; refuses a field that is given twice and a number that a
field cannot hold. -/
def assignAll (settings : Settings) : List (SettingsField × Nat) → Option Settings
  | [] => some settings
  | (field, value) :: rest =>
      if value < field.bound ∧ field ∉ rest.map Prod.fst then
        assignAll (settings.assign value field) rest
      else none

/-- Pairs each value with the field at its position; refuses more values than there are fields. -/
def positions? : List SettingsField → List Nat → Option (List (SettingsField × Nat))
  | _, [] => some []
  | [], _ :: _ => none
  | field :: fields, value :: values => (positions? fields values).map ((field, value) :: ·)

/-- The fields and values of a document; refuses a name that no field has. -/
def assignments? : Document → Option (List (SettingsField × Nat))
  | .named entries => entries.mapM fun (name, value) => (field? name).map (·, value)
  | .positional values => positions? SettingsField.all values

end SettingsText

/-- The settings that a text describes, if it describes any. -/
def Settings.ofText? (text : String) : Option Settings := do
  let tokens ← SettingsText.tokens? text
  let document ← SettingsText.document? tokens
  SettingsText.assignAll {} (← SettingsText.assignments? document)

end PacketDma
