import Onair.Lib.Json.Value
import Onair.Lib.Lossy

/-!
# A reference reader and printer

JSON texts read and printed over lists of characters, with the limit on nesting. Integers are read
and printed as the library does; a number with a fraction or an exponent is kept as it is written.

* `printValue`: the printer;
* `readChars`, `readNumber`, `readValue`: the reader, a machine for strings and a recursion for
  values;
* `reference`: the codec;
* `reference_eq_direct`: the codec without strings on the way, which evaluates faster.
-/

namespace Json

open Text

/-! ### Printing -/

/-- A character inside a printed string. -/
def escapeChar (c : Char) : List Char :=
  if c = '"' then ['\\', '"']
  else if c = '\\' then ['\\', '\\']
  else if c = '\n' then ['\\', 'n']
  else if c = '\r' then ['\\', 'r']
  else if c = '\t' then ['\\', 't']
  else if c.toNat = 8 then ['\\', 'b']
  else if c.toNat = 12 then ['\\', 'f']
  else if c.toNat < 32 then
    ['\\', 'u', '0', '0', Nat.digitChar (c.toNat / 16), Nat.digitChar (c.toNat % 16)]
  else [c]

/-- The text of a string, after its opening quote. -/
def printChars (s : List Char) : List Char := s.flatMap escapeChar ++ ['"']

/-- The text of an exponent. -/
def printExponent : ℤ → List Char
  | .ofNat e => Nat.toDigits 10 e
  | .negSucc e => '-' :: Nat.toDigits 10 (e + 1)

/-- The text of a number. -/
def printNumber : Number → List Char
  | .posInt n => Nat.toDigits 10 n.toNat
  | .negInt n => '-' :: Nat.toDigits 10 (n.val + 1)
  | .float neg digits exponent =>
    (if neg then ['-'] else []) ++ Nat.toDigits 10 digits ++ 'e' :: printExponent exponent

mutual
/-- The text of a value. -/
def printValue : Value → List Char
  | .null => ['n', 'u', 'l', 'l']
  | .bool true => ['t', 'r', 'u', 'e']
  | .bool false => ['f', 'a', 'l', 's', 'e']
  | .number n => printNumber n
  | .string s => '"' :: printChars s.toList
  | .array [] => ['[', ']']
  | .array (v :: vs) => '[' :: (printValue v ++ printTail vs)
  | .object [] => ['\x7b', '\x7d']
  | .object ((k, v) :: m) =>
    '\x7b' :: '"' :: (printChars k.toList ++ ':' :: (printValue v ++ printEntries m))
/-- The text of the elements of an array after the first, and of its end. -/
def printTail : List Value → List Char
  | [] => [']']
  | v :: vs => ',' :: (printValue v ++ printTail vs)
/-- The text of the entries of an object after the first, and of its end. -/
def printEntries : List (String × Value) → List Char
  | [] => ['\x7d']
  | (k, v) :: m => ',' :: '"' :: (printChars k.toList ++ ':' :: (printValue v ++ printEntries m))
end

/-! ### Reading -/

/-- White space between tokens. -/
def isSpace (c : Char) : Bool := c = ' ' || c = '\n' || c = '\r' || c = '\t'

/-- The value of a hexadecimal digit. -/
def hexValue (c : Char) : Option ℕ :=
  if '0' ≤ c ∧ c ≤ '9' then some (c.toNat - 48)
  else if 'a' ≤ c ∧ c ≤ 'f' then some (c.toNat - 87)
  else if 'A' ≤ c ∧ c ≤ 'F' then some (c.toNat - 55)
  else none

/-- Where the reader is in a string: `hex high n acc` has `n` digits of an escape to come, after
the high surrogate `high` if there was one. -/
inductive CharState where
  | plain
  | escape
  | hex (high : Option ℕ) (n acc : ℕ)
  | low (high : ℕ)
  | lowU (high : ℕ)

/-- The character of a one-letter escape. -/
def simpleEscape (c : Char) : Option Char :=
  if c = '"' then some '"'
  else if c = '\\' then some '\\'
  else if c = '/' then some '/'
  else if c = 'b' then some (Char.ofNat 8)
  else if c = 'f' then some (Char.ofNat 12)
  else if c = 'n' then some '\n'
  else if c = 'r' then some '\r'
  else if c = 't' then some '\t'
  else none

/-- What the four digits of an escape give: the first half of a pair, or a character. -/
def hexEscape (high : Option ℕ) (n : ℕ) : Option (CharState × Option Char) :=
  match high with
  | some h =>
    if 0xDC00 ≤ n ∧ n ≤ 0xDFFF then
      some (.plain, some (Char.ofNat (0x10000 + (h - 0xD800) * 0x400 + (n - 0xDC00))))
    else none
  | none =>
    if 0xD800 ≤ n ∧ n ≤ 0xDBFF then some (.low n, none)
    else if 0xDC00 ≤ n ∧ n ≤ 0xDFFF then none
    else some (.plain, some (Char.ofNat n))

/-- One character inside a string, not its end. -/
def charStep (st : CharState) (c : Char) : Option (CharState × Option Char) :=
  match st with
  | .plain =>
    if c = '\\' then some (.escape, none)
    else if c.toNat < 32 then none
    else some (.plain, some c)
  | .escape =>
    if c = 'u' then some (.hex none 4 0, none)
    else (simpleEscape c).map fun c => (.plain, some c)
  | .hex high n acc =>
    (hexValue c).bind fun d =>
      if n ≤ 1 then hexEscape high (acc * 16 + d)
      else some (.hex high (n - 1) (acc * 16 + d), none)
  | .low high => if c = '\\' then some (.lowU high, none) else none
  | .lowU high => if c = 'u' then some (.hex (some high) 4 0, none) else none

/-- The reader is at a character of the text, where a quote ends the string. -/
def CharState.isPlain : CharState → Bool
  | .plain => true
  | _ => false

/-- Read a string after its opening quote. -/
def readChars : CharState → List Char → Option (List Char × List Char)
  | _, [] => none
  | st, c :: cs =>
    if st.isPlain && c = '"' then some ([], cs)
    else
      (charStep st c).bind fun r =>
        (readChars r.1 cs).map fun p => (r.2.toList ++ p.1, p.2)

/-- The digits a list begins with, and the rest. -/
def spanDigits (cs : List Char) : List Char × List Char :=
  (cs.takeWhile Char.isDigit, cs.dropWhile Char.isDigit)

/-- Read a sign. -/
def readMinus : List Char → Bool × List Char
  | [] => (false, [])
  | c :: cs => if c = '-' then (true, cs) else (false, c :: cs)

/-- Read the sign of an exponent. -/
def readSign : List Char → Bool × List Char
  | [] => (false, [])
  | c :: cs => if c = '-' then (true, cs) else if c = '+' then (false, cs) else (false, c :: cs)

/-- Read a fraction, if there is one. -/
def readFraction : List Char → Option (Option (List Char) × List Char)
  | [] => some (none, [])
  | c :: cs =>
    if c = '.' then
      let r := spanDigits cs
      if r.1 = [] then none else some (some r.1, r.2)
    else some (none, c :: cs)

/-- Read an exponent, if there is one. -/
def readExponent : List Char → Option (Option ℤ × List Char)
  | [] => some (none, [])
  | c :: cs =>
    if c = 'e' ∨ c = 'E' then
      let s := readSign cs
      let r := spanDigits s.2
      let n : ℤ := Nat.ofDigitChars 10 r.1 0
      if r.1 = [] then none else some (some (if s.1 then -n else n), r.2)
    else some (none, c :: cs)

/-- The number with the given sign and digits, and no fraction or exponent. -/
def integerNumber (neg : Bool) (n : ℕ) : Number :=
  if neg then
    if h : 0 < n ∧ n ≤ 2 ^ 63 then .negInt ⟨n - 1, by omega⟩ else .float true n 0
  else if n < 2 ^ 64 then .posInt (UInt64.ofNat n)
  else .float false n 0

/-- The number with the given sign, digits, fraction and exponent. -/
def assembleNumber (neg : Bool) (digits : List Char) (fraction : Option (List Char))
    (exponent : Option ℤ) : Number :=
  match fraction, exponent with
  | none, none => integerNumber neg (Nat.ofDigitChars 10 digits 0)
  | fraction, exponent =>
    .float neg (Nat.ofDigitChars 10 (digits ++ fraction.getD []) 0)
      (exponent.getD 0 - (fraction.getD []).length)

/-- Read a number. -/
def readNumber (cs : List Char) : Option (Number × List Char) :=
  let s := readMinus cs
  let r := spanDigits s.2
  if r.1 = [] ∨ (r.1.head? = some '0' ∧ 1 < r.1.length) then none
  else
    (readFraction r.2).bind fun f =>
      (readExponent f.2).map fun e => (assembleNumber s.1 r.1 f.1 e.1, e.2)

mutual
/-- Read a value nested at most `depth` deep. The first argument bounds the steps. -/
def readValue : ℕ → ℕ → List Char → Option (Value × List Char)
  | 0, _, _ => none
  | n + 1, depth, cs =>
    match cs.dropWhile isSpace with
    | [] => none
    | c :: cs =>
      if c = 'n' then (stripPrefix ['u', 'l', 'l'] cs).map fun cs => (.null, cs)
      else if c = 't' then (stripPrefix ['r', 'u', 'e'] cs).map fun cs => (.bool true, cs)
      else if c = 'f' then (stripPrefix ['a', 'l', 's', 'e'] cs).map fun cs => (.bool false, cs)
      else if c = '"' then
        (readChars .plain cs).map fun r => (.string (String.ofList r.1), r.2)
      else if c = '[' then
        if depth = 0 then none
        else if (cs.dropWhile isSpace).head? = some ']' then
          some (.array [], (cs.dropWhile isSpace).tail)
        else
          (readValue n (depth - 1) cs).bind fun r =>
            (readTail n (depth - 1) r.2).map fun r' => (.array (r.1 :: r'.1), r'.2)
      else if c = '\x7b' then
        if depth = 0 then none
        else if (cs.dropWhile isSpace).head? = some '\x7d' then
          some (.object [], (cs.dropWhile isSpace).tail)
        else
          (readEntry n (depth - 1) cs).bind fun r =>
            (readEntries n (depth - 1) r.2).map fun r' => (.obj (r.1 :: r'.1), r'.2)
      else (readNumber (c :: cs)).map fun r => (.number r.1, r.2)
/-- Read the elements of an array after the first, up to its end. -/
def readTail : ℕ → ℕ → List Char → Option (List Value × List Char)
  | 0, _, _ => none
  | n + 1, depth, cs =>
    match cs.dropWhile isSpace with
    | [] => none
    | c :: cs =>
      if c = ']' then some ([], cs)
      else if c = ',' then
        (readValue n depth cs).bind fun r =>
          (readTail n depth r.2).map fun r' => (r.1 :: r'.1, r'.2)
      else none
/-- Read one entry of an object. -/
def readEntry : ℕ → ℕ → List Char → Option ((String × Value) × List Char)
  | 0, _, _ => none
  | n + 1, depth, cs =>
    match cs.dropWhile isSpace with
    | [] => none
    | c :: cs =>
      if c = '"' then
        (readChars .plain cs).bind fun r =>
          if (r.2.dropWhile isSpace).head? = some ':' then
            (readValue n depth (r.2.dropWhile isSpace).tail).map fun r' =>
              ((String.ofList r.1, r'.1), r'.2)
          else none
      else none
/-- Read the entries of an object after the first, up to its end. -/
def readEntries : ℕ → ℕ → List Char → Option (List (String × Value) × List Char)
  | 0, _, _ => none
  | n + 1, depth, cs =>
    match cs.dropWhile isSpace with
    | [] => none
    | c :: cs =>
      if c = '\x7d' then some ([], cs)
      else if c = ',' then
        (readEntry n depth cs).bind fun r =>
          (readEntries n depth r.2).map fun r' => (r.1 :: r'.1, r'.2)
      else none
end

/-- Read a text that is one value. -/
def readText (cs : List Char) : Option Value :=
  (readValue (2 * cs.length + 1) maxDepth cs).bind fun r =>
    if r.2.all isSpace then some r.1 else none

/-- The reference codec. -/
def reference : Codec where
  fromSlice b := (fromUtf8 b).bind fun s => readText s.toList
  toVec v := asBytes (String.ofList (printValue v))

/-- The reference codec over the characters that the bytes stand for. -/
def direct : Codec where
  fromSlice b :=
    if (decodeLossy 0 b).flatMap String.utf8EncodeChar = b then readText (decodeLossy 0 b) else none
  toVec v := (printValue v).flatMap String.utf8EncodeChar

/-- No string needs to be built to evaluate the reference codec. -/
theorem reference_eq_direct : reference = direct := by
  rw [reference, direct]
  congr 1
  · funext b
    rw [fromUtf8_eq_decode]
    split_ifs
    · rw [Option.bind_some, String.toList_ofList]
    · rfl
  · funext v
    rw [asBytes, String.toList_ofList]

end Json
