import Onair.Lib.Text

/-!
# Header lines and their parameters

A block of MIME headers, read as the mail standards have it.

* `headerLines`: the lines of the block, continuation lines joined to the line they continue;
* `header`: the value of the first header of a name, in any case;
* `parameter`: a parameter of a header value, as in `form-data; name="a;b"; filename=c`. The pieces
  of a value are divided by semicolons outside quoted strings; in a quoted string a backslash takes
  the next byte as it is.
-/

namespace Mime

open Text

/-- An ASCII letter in lower case. -/
def lowerByte (b : UInt8) : UInt8 := if 65 ≤ b ∧ b ≤ 90 then b + 32 else b

/-- Remove blanks and tabs at both ends. -/
def trimBlanks (b : Bytes) : Bytes :=
  ((b.dropWhile fun x => x == 32 || x == 9).reverse.dropWhile fun x => x == 32 || x == 9).reverse

/-- The line begins with a blank or a tab. -/
def isContinuation : Bytes → Bool
  | [] => false
  | b :: _ => b == 32 || b == 9

/-- Join a line with the continuation lines after it. -/
def joinLine (line : Bytes) : List Bytes → List Bytes
  | [] => [line]
  | next :: ls => if isContinuation next then (line ++ next) :: ls else line :: next :: ls

/-- The lines of a block of headers. -/
def headerLines (headers : Bytes) : List Bytes :=
  ((splitList 10 headers).map fun l => (stripSuffix [13] l).getD l).foldr joinLine []

/-- The value of the first header with the given name. -/
def header (name : Bytes) (headers : Bytes) : Option Bytes :=
  (headerLines headers).findSome? fun line =>
    if (trimBlanks (line.takeWhile (· ≠ 58))).map lowerByte = name then
      some ((line.dropWhile (· ≠ 58)).drop 1)
    else none

/-- Where a position in a header value stands: outside quoted strings, in one, or after a backslash
in one. -/
inductive Quoting where
  | outside
  | inside
  | escaped

/-- The pieces of a header value between semicolons outside quoted strings. -/
def pieces : Quoting → Bytes → List Bytes
  | _, [] => [[]]
  | .outside, b :: t =>
    if b = 59 then [] :: pieces .outside t
    else (pieces (if b = 34 then .inside else .outside) t).modifyHead (b :: ·)
  | .inside, b :: t =>
    (pieces (if b = 34 then .outside else if b = 92 then .escaped else .inside) t).modifyHead
      (b :: ·)
  | .escaped, b :: t => (pieces .inside t).modifyHead (b :: ·)

/-- What stands in a quoted string, from after its opening quote. -/
def unquote : Bytes → Bytes
  | [] => []
  | [b] => if b = 34 then [] else [b]
  | b :: b' :: t =>
    if b = 34 then [] else if b = 92 then b' :: unquote t else b :: unquote (b' :: t)

/-- The value of a parameter. -/
def parameterValue (value : Bytes) : Bytes :=
  match trimBlanks value with
  | [] => []
  | b :: t => if b = 34 then unquote t else b :: t

/-- The first parameter of a header value with the given name. -/
def parameter (name : Bytes) (value : Bytes) : Option Bytes :=
  ((pieces .outside value).drop 1).findSome? fun piece =>
    if (trimBlanks (piece.takeWhile (· ≠ 61))).map lowerByte = name then
      some (parameterValue ((piece.dropWhile (· ≠ 61)).drop 1))
    else none

end Mime
