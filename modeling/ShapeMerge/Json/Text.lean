import ShapeMerge.Json.Token

namespace ShapeMerge.Json

/-!
Writing JSON text, without blanks, and reading it.  Strings escape the quote,
the backslash and the controls below the space; everything else is written as it
is.  The tokens of a text drive a machine with a stack of the arrays and objects
that are open; it accepts when exactly one value has been completed.
-/

def escapedChar (c : Char) : List Char :=
  match c with
  | '"' => ['\\', '"']
  | '\\' => ['\\', '\\']
  | '\x08' => ['\\', 'b']
  | '\x0c' => ['\\', 'f']
  | '\n' => ['\\', 'n']
  | '\r' => ['\\', 'r']
  | '\t' => ['\\', 't']
  | _ =>
      if c.toNat < 0x20 then
        ['\\', 'u', '0', '0', Nat.digitChar (c.toNat / 16),
          Nat.digitChar (c.toNat % 16)]
      else [c]

def stringChars (text : String) : List Char :=
  '"' :: text.toList.flatMap escapedChar ++ ['"']

/-- A string that is no text is written empty. -/
def Token.chars : Token → List Char
  | openObject => ['\x7b']
  | closeObject => ['\x7d']
  | openArray => ['[']
  | closeArray => [']']
  | comma => [',']
  | colon => [':']
  | null => "null".toList
  | bool true => "true".toList
  | bool false => "false".toList
  | number numeral => numeral.text
  | string text => stringChars (text.getD "")

mutual

def tokens : Json → List Token
  | null => [.null]
  | bool value => [.bool value]
  | number numeral => [.number numeral]
  | string text => [.string text]
  | array [] => [.openArray, .closeArray]
  | array (item :: rest) =>
      .openArray :: tokens item ++ itemTokens rest ++ [.closeArray]
  | object [] => [.openObject, .closeObject]
  | object ((name, value) :: rest) =>
      .openObject :: .string name :: .colon :: tokens value ++
        memberTokens rest ++ [.closeObject]

def itemTokens : List Json → List Token
  | [] => []
  | item :: rest => .comma :: tokens item ++ itemTokens rest

def memberTokens : List (Option String × Json) → List Token
  | [] => []
  | (name, value) :: rest =>
      .comma :: .string name :: .colon :: tokens value ++ memberTokens rest

end

def render (json : Json) : String :=
  String.ofList (json.tokens.flatMap Token.chars)

/-- An open array or object around the value that comes next; what it holds so
far is listed with the latest part first. -/
inductive Frame where
  | array (items : List Json)
  | object (members : List (Option String × Json)) (name : Option String)

inductive Expected where
  | value
  | itemOrEnd
  | nameOrEnd
  | name (members : List (Option String × Json))
  | colon (members : List (Option String × Json)) (name : Option String)
  | behind (value : Json)

abbrev Reader := List Frame × Expected

namespace Reader

def start (frames : List Frame) : Token → Option Reader
  | .null => some (frames, .behind .null)
  | .bool value => some (frames, .behind (.bool value))
  | .number numeral => some (frames, .behind (.number numeral))
  | .string text => some (frames, .behind (.string text))
  | .openArray => some (.array [] :: frames, .itemOrEnd)
  | .openObject => some (frames, .nameOrEnd)
  | _ => none

def step : Reader → Token → Option Reader
  | (.array [] :: frames, .itemOrEnd), .closeArray =>
      some (frames, .behind (.array []))
  | (frames, .value), token => start frames token
  | (frames, .itemOrEnd), token => start frames token
  | (frames, .nameOrEnd), .closeObject => some (frames, .behind (.object []))
  | (frames, .nameOrEnd), .string name => some (frames, .colon [] name)
  | (frames, .name members), .string name => some (frames, .colon members name)
  | (frames, .colon members name), .colon =>
      some (.object members name :: frames, .value)
  | (.array items :: frames, .behind value), .comma =>
      some (.array (value :: items) :: frames, .value)
  | (.array items :: frames, .behind value), .closeArray =>
      some (frames, .behind (.array (value :: items).reverse))
  | (.object members name :: frames, .behind value), .comma =>
      some (frames, .name ((name, value) :: members))
  | (.object members name :: frames, .behind value), .closeObject =>
      some (frames, .behind (.object ((name, value) :: members).reverse))
  | _, _ => none

def accept : Reader → Option Json
  | ([], .behind value) => some value
  | _ => none

end Reader

def ofTokens? (tokens : List Token) : Option Json := do
  let reader ← tokens.foldlM Reader.step ([], .value)
  reader.accept

def parse? (text : String) : Option Json := do
  ofTokens? (← Token.scan text)

end ShapeMerge.Json
