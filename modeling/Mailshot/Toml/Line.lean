/-!
# Lines of TOML

White space, comments and line breaks.  A line break is a line feed with or without a carriage
return before it; a carriage return alone is none.
-/

namespace Mailshot.Toml

/-- White space within a line. -/
def isGap (c : Char) : Bool := c = ' ' || c = '\t'

/-- What follows white space within a line. -/
def skipGap (cs : List Char) : List Char := cs.dropWhile isGap

/-- What follows a line break. -/
def afterBreak? : List Char → Option (List Char)
  | '\n' :: rest => some rest
  | '\r' :: '\n' :: rest => some rest
  | _ => none

/-- May the character stand in a comment? -/
def isRemark (c : Char) : Bool := c = '\t' || 0x20 ≤ c.toNat

/-- What follows a comment, if there is one. -/
def skipComment : List Char → List Char
  | '#' :: rest => rest.dropWhile isRemark
  | cs => cs

/-- The next line, where nothing but a comment is left of this one. -/
def endLine? (cs : List Char) : Option (List Char) :=
  let rest := skipComment (skipGap cs)
  if rest.isEmpty then some [] else afterBreak? rest

/-- What follows white space, comments and line breaks, `fuel` lines at most. -/
def skipLinesFrom : Nat → List Char → List Char
  | 0, cs => cs
  | fuel + 1, cs =>
    let rest := skipComment (skipGap cs)
    match afterBreak? rest with
    | some next => skipLinesFrom fuel next
    | none => rest

/-- What follows white space, comments and line breaks. -/
def skipLines (cs : List Char) : List Char :=
  skipLinesFrom (cs.length + 1) cs

end Mailshot.Toml
