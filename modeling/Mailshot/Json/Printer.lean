import Mailshot.Json.Basic

/-!
# Writing JSON

The compact text of a value: no white space, members in their order, strings with the short escapes
where there are any and all other characters as they are.
-/

namespace Mailshot.Json

open Number (Binary64)

/-- The four lower-case hexadecimal digits of a control character. -/
def controlDigits (n : Nat) : List Char :=
  ['0', '0', Nat.digitChar (n / 16), Nat.digitChar (n % 16)]

/-- A character inside a string. -/
def escape (c : Char) : List Char :=
  if c = '"' then ['\\', '"']
  else if c = '\\' then ['\\', '\\']
  else if c = '\x08' then ['\\', 'b']
  else if c = '\x0c' then ['\\', 'f']
  else if c = '\n' then ['\\', 'n']
  else if c = '\r' then ['\\', 'r']
  else if c = '\t' then ['\\', 't']
  else if c.toNat < 0x20 then ['\\', 'u'] ++ controlDigits c.toNat
  else [c]

/-- A string between quotes. -/
def quote (s : String) : String :=
  String.ofList ('"' :: s.toList.flatMap escape ++ ['"'])

/-- The numeral of shortest digits: with an exponent below `10 ^ (-5)` and from `10 ^ 16` on. -/
def numeral (digits : Nat) (power : Int) : List Char :=
  let ds := Nat.toDigits 10 digits
  let order := power + ds.length
  if -5 < order ∧ order ≤ 16 then
    let text := Binary64.writePositional digits power
    if 0 ≤ power then text ++ ['.', '0'] else text
  else
    let exponent := 'e' :: (toString (order - 1)).toList
    match ds with
    | [] => []
    | [d] => d :: exponent
    | d :: more => d :: '.' :: more ++ exponent

/-- The numeral of a binary64 number; what is not finite has none and is written as null. -/
def renderDouble (x : Binary64) : String :=
  match x with
  | .finite negative m =>
    let (d, p) := Binary64.shortest m
    String.ofList ((if negative then ['-'] else []) ++ numeral d p)
  | _ => "null"

mutual

/-- The text of a value. -/
def render : Json → String
  | .null => "null"
  | .bool b => if b then "true" else "false"
  | .int i => toString i
  | .double x => renderDouble x
  | .text s => quote s
  | .list items => "[" ++ renderItems items ++ "]"
  | .object members => "\x7b" ++ renderMembers members ++ "\x7d"

/-- Values with commas between them. -/
def renderItems : List Json → String
  | [] => ""
  | [v] => render v
  | v :: rest => render v ++ "," ++ renderItems rest

/-- Members with commas between them. -/
def renderMembers : List (String × Json) → String
  | [] => ""
  | [(k, v)] => quote k ++ ":" ++ render v
  | (k, v) :: rest => quote k ++ ":" ++ render v ++ "," ++ renderMembers rest

end

end Mailshot.Json
