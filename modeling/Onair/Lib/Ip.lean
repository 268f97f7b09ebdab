import Mathlib.Algebra.Group.Nat.Defs
import Mathlib.Data.List.Basic

/-!
# Addresses of the internet protocol

Addresses of both versions and of sockets, as the standard library of Rust reads and prints them.

* `IpAddr`, `SocketAddr`: addresses;
* `IpAddr.parse`, `SocketAddr.parse`: reading them;
* `IpAddr.print`, `SocketAddr.print`: printing them;
* `Agree`, `and_mask_eq_iff`: two words with equal leading bits, and the mask that compares them;
* `mapped`: an address of version 4 as one of version 6.
-/

namespace Ip

/-- An address. -/
inductive IpAddr where
  | v4 (bits : BitVec 32)
  | v6 (bits : BitVec 128)
  deriving DecidableEq, Repr

/-- The address of a socket. -/
inductive SocketAddr where
  | v4 (ip : BitVec 32) (port : ℕ)
  | v6 (ip : BitVec 128) (scopeId port : ℕ)
  deriving DecidableEq, Repr

/-- The address without the port. -/
def SocketAddr.ip : SocketAddr → IpAddr
  | .v4 ip _ => .v4 ip
  | .v6 ip _ _ => .v6 ip

/-- Two words begin with the same bits. -/
def Agree {w : ℕ} (length : ℕ) (x y : BitVec w) : Prop :=
  ∀ i < length, x.getMsbD i = y.getMsbD i

instance {w : ℕ} (length : ℕ) (x y : BitVec w) : Decidable (Agree length x y) :=
  inferInstanceAs (Decidable (∀ i < length, _))

theorem getMsbD_mask {w length : ℕ} (h : length ≤ w) (i : ℕ) :
    (BitVec.allOnes w <<< (w - length)).getMsbD i = decide (i < length) := by
  rw [BitVec.getMsbD_shiftLeft, BitVec.getMsbD_allOnes]
  exact decide_eq_decide.mpr (by omega)

/-- **A mask compares the leading bits.** -/
theorem and_mask_eq_iff {w length : ℕ} (h : length ≤ w) (x y : BitVec w) :
    x &&& BitVec.allOnes w <<< (w - length) = y &&& BitVec.allOnes w <<< (w - length) ↔
      Agree length x y := by
  constructor
  · intro heq i hi
    have hbit := congrArg (BitVec.getMsbD · i) heq
    simpa [getMsbD_mask h, hi] using hbit
  · intro hagree
    refine BitVec.eq_of_getMsbD_eq fun i _ => ?_
    rw [BitVec.getMsbD_and, BitVec.getMsbD_and, getMsbD_mask h]
    by_cases hi : i < length
    · rw [hagree i hi]
    · rw [decide_eq_false hi, Bool.and_false, Bool.and_false]

/-- An address of version 4 as one of version 6: eighty zeros, sixteen ones, and its bits. -/
def mapped (bits : BitVec 32) : BitVec 128 := 0xFFFF#96 ++ bits

theorem setWidth_mapped (a : BitVec 32) : (mapped a).setWidth 32 = a := by
  refine BitVec.setWidth_append.trans ?_
  rw [dif_pos (by decide), BitVec.setWidth_eq]

theorem mapped_injective {a b : BitVec 32} (h : mapped a = mapped b) : a = b := by
  rw [← setWidth_mapped a, h, setWidth_mapped]

/-! ### Reading -/

/-- The value of a digit. -/
def digitValue (radix : ℕ) (c : Char) : Option ℕ :=
  let n := c.toNat
  let value :=
    if 48 ≤ n ∧ n ≤ 57 then some (n - 48)
    else if 97 ≤ n ∧ n ≤ 122 then some (n - 87)
    else if 65 ≤ n ∧ n ≤ 90 then some (n - 55)
    else none
  value.filter (· < radix)

/-- Read a number up to a bound, with as many digits as it may have. -/
def readNumber (radix : ℕ) (maxDigits : Option ℕ) (allowZeroPrefix : Bool) (bound : ℕ)
    (cs : List Char) : Option (ℕ × List Char) :=
  let digits := cs.takeWhile fun c => (digitValue radix c).isSome
  let value := digits.foldl (fun n c => n * radix + (digitValue radix c).getD 0) 0
  if digits.isEmpty || (maxDigits.any fun most => most < digits.length) || bound < value then none
  else if !allowZeroPrefix && cs.head? == some '0' && 1 < digits.length then none
  else some (value, cs.drop digits.length)

/-- Read a character. -/
def readGivenChar (target : Char) : List Char → Option (List Char)
  | [] => none
  | c :: cs => if c = target then some cs else none

/-- Read something, behind a separator if it is not the first. -/
def readSeparator {α : Type} (separator : Char) (index : ℕ)
    (inner : List Char → Option (α × List Char)) (cs : List Char) : Option (α × List Char) :=
  if index = 0 then inner cs else (readGivenChar separator cs).bind inner

/-- One number of an address of version 4. -/
def readOctet : List Char → Option (ℕ × List Char) := readNumber 10 (some 3) false 255

/-- An address of version 4. -/
def readIpv4Addr (cs : List Char) : Option (BitVec 32 × List Char) := do
  let (a, cs) ← readOctet cs
  let (b, cs) ← (readGivenChar '.' cs).bind readOctet
  let (c, cs) ← (readGivenChar '.' cs).bind readOctet
  let (d, cs) ← (readGivenChar '.' cs).bind readOctet
  return (BitVec.ofNat 32 (((a * 256 + b) * 256 + c) * 256 + d), cs)

/-- Read the groups that are left, from the group `index` on. The flag says that they end with an
address of version 4. -/
def readGroups : ℕ → ℕ → List Char → (List ℕ × Bool) × List Char
  | 0, _, cs => (([], false), cs)
  | left + 1, index, cs =>
    let ipv4 := if left = 0 then none else readSeparator ':' index readIpv4Addr cs
    match ipv4 with
    | some (bits, cs) => (([bits.toNat / 65536, bits.toNat % 65536], true), cs)
    | none =>
      match readSeparator ':' index (readNumber 16 (some 4) true 65535) cs with
      | none => (([], false), cs)
      | some (group, cs) =>
        let r := readGroups left (index + 1) cs
        ((group :: r.1.1, r.1.2), r.2)

/-- The bits of eight groups. -/
def ofGroups (groups : List ℕ) : BitVec 128 :=
  BitVec.ofNat 128 (groups.foldl (fun n g => n * 65536 + g) 0)

/-- An address of version 6. -/
def readIpv6Addr (cs : List Char) : Option (BitVec 128 × List Char) :=
  let ((head, headIpv4), cs) := readGroups 8 0 cs
  if head.length = 8 then some (ofGroups head, cs)
  else if headIpv4 then none
  else do
    let cs ← (readGivenChar ':' cs).bind (readGivenChar ':')
    let ((tail, _), cs) := readGroups (7 - head.length) 0 cs
    return (ofGroups (head ++ List.replicate (8 - head.length - tail.length) 0 ++ tail), cs)

/-- A port, behind a colon. -/
def readPort (cs : List Char) : Option (ℕ × List Char) :=
  (readGivenChar ':' cs).bind (readNumber 10 none true 65535)

/-- A scope, behind a percent sign. -/
def readScopeId (cs : List Char) : Option (ℕ × List Char) :=
  (readGivenChar '%' cs).bind (readNumber 10 none true (2 ^ 32 - 1))

/-- The address of a socket of version 4. -/
def readSocketAddrV4 (cs : List Char) : Option (SocketAddr × List Char) := do
  let (ip, cs) ← readIpv4Addr cs
  let (port, cs) ← readPort cs
  return (.v4 ip port, cs)

/-- The address of a socket of version 6. -/
def readSocketAddrV6 (cs : List Char) : Option (SocketAddr × List Char) := do
  let cs ← readGivenChar '[' cs
  let (ip, cs) ← readIpv6Addr cs
  let (scopeId, cs) := (readScopeId cs).getD (0, cs)
  let cs ← readGivenChar ']' cs
  let (port, cs) ← readPort cs
  return (.v6 ip scopeId port, cs)

/-- What was read, if it was all of the text. -/
def parseWith {α : Type} (inner : List Char → Option (α × List Char)) (text : String) : Option α :=
  (inner text.toList).bind fun r => if r.2.isEmpty then some r.1 else none

/-- The address of a text. -/
def IpAddr.parse : String → Option IpAddr :=
  parseWith fun cs =>
    ((readIpv4Addr cs).map fun r => (IpAddr.v4 r.1, r.2)).or
      ((readIpv6Addr cs).map fun r => (IpAddr.v6 r.1, r.2))

/-- The socket of a text. -/
def SocketAddr.parse : String → Option SocketAddr :=
  parseWith fun cs => (readSocketAddrV4 cs).or (readSocketAddrV6 cs)

/-! ### Printing -/

/-- An address of version 4. -/
def printIpv4 (bits : BitVec 32) : List Char :=
  let n := bits.toNat
  Nat.toDigits 10 (n / 2 ^ 24) ++ '.' :: (Nat.toDigits 10 (n / 2 ^ 16 % 256) ++
    '.' :: (Nat.toDigits 10 (n / 2 ^ 8 % 256) ++ '.' :: Nat.toDigits 10 (n % 256)))

/-- The groups of an address. -/
def toGroups (bits : BitVec 128) : List ℕ :=
  (List.range 8).map fun i => bits.toNat / 65536 ^ (7 - i) % 65536

/-- The first longest run of zeros: where it begins, and its length. -/
def zeroSpan (groups : List ℕ) : ℕ × ℕ :=
  (groups.zipIdx.foldl (fun (longest, current) (group, i) =>
    if group = 0 then
      let current : ℕ × ℕ := if current.2 = 0 then (i, 1) else (current.1, current.2 + 1)
      (if longest.2 < current.2 then current else longest, current)
    else (longest, (0, 0))) (((0, 0), (0, 0)) : (ℕ × ℕ) × (ℕ × ℕ))).1

/-- Some groups. -/
def printGroups (groups : List ℕ) : List Char :=
  [':'].intercalate (groups.map (Nat.toDigits 16))

/-- An address of version 6. -/
def printIpv6 (bits : BitVec 128) : List Char :=
  if bits.toNat / 2 ^ 32 = 0xFFFF then "::ffff:".toList ++ printIpv4 (bits.setWidth 32)
  else
    let groups := toGroups bits
    let zeros := zeroSpan groups
    if 1 < zeros.2 then
      printGroups (groups.take zeros.1) ++ "::".toList ++
        printGroups (groups.drop (zeros.1 + zeros.2))
    else printGroups groups

/-- The text of an address. -/
def IpAddr.print : IpAddr → String
  | .v4 bits => String.ofList (printIpv4 bits)
  | .v6 bits => String.ofList (printIpv6 bits)

/-- The text of a socket. -/
def SocketAddr.print : SocketAddr → String
  | .v4 ip port => String.ofList (printIpv4 ip ++ ':' :: Nat.toDigits 10 port)
  | .v6 ip scopeId port =>
    let scope := if scopeId = 0 then [] else '%' :: Nat.toDigits 10 scopeId
    String.ofList ('[' :: (printIpv6 ip ++ scope ++ ']' :: ':' :: Nat.toDigits 10 port))

example : IpAddr.parse "2001:DB8::1:0:0" = some (.v6 0x20010db8000000000000000100000000#128) ∧
    (IpAddr.v6 0x20010db8000000000000000100000000#128).print = "2001:db8::1:0:0" ∧
    SocketAddr.parse "[::ffff:10.0.0.1%3]:80" = some (.v6 0xffff0a000001#128 3 80) := by
  decide +kernel

end Ip
