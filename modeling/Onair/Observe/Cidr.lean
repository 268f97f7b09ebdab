import Onair.Lib.Fallible
import Onair.Observe.ClientInfo

/-!
# Networks of trusted proxies

A network is read from a text, and an address is in it if both begin with the same bits.

* `parseU8`, `IpCidr.fromStr`: reading a network, with the texts of the errors;
* `IpCidr.InNetwork`: the address, read in the family of the network, agrees with it;
* `IpCidr.Missed`: the addresses of version 4 in the notation of version 6, for a network of
  version 4;
* `IpCidr.contains_iff_inNetwork`: **the code finds an address of the network, if and only if it is
  none of these**.
-/

namespace Onair

open Text Ip Fallible

/-! ### Reading a network -/

/-- Why a number is not read. -/
inductive ParseIntError where
  | empty
  | invalidDigit
  | posOverflow
  deriving DecidableEq, Repr

/-- The text of the error. -/
def ParseIntError.text : ParseIntError → String
  | .empty => "cannot parse integer from empty string"
  | .invalidDigit => "invalid digit found in string"
  | .posOverflow => "number too large to fit in target type"

/-- The digits of a `u8`, after a number that was read. -/
def parseU8Digits : ℕ → List Char → Except ParseIntError ℕ
  | n, [] => .ok n
  | n, c :: cs =>
    match digitValue 10 c with
    | none => .error .invalidDigit
    | some digit =>
      if 255 < n * 10 + digit then .error .posOverflow else parseU8Digits (n * 10 + digit) cs

/-- A `u8`, with a plus sign or without. -/
def parseU8 (text : String) : Except ParseIntError ℕ :=
  match text.toList with
  | [] => .error .empty
  | ['+'] => .error .invalidDigit
  | '+' :: cs => parseU8Digits 0 cs
  | cs => parseU8Digits 0 cs

/-- What stands before the first separator, and what stands behind it. -/
def splitOnce (separator : Char) (text : String) : Option (String × String) :=
  let cs := text.toList
  if separator ∈ cs then
    some (String.ofList (cs.takeWhile (· ≠ separator)),
      String.ofList ((cs.dropWhile (· ≠ separator)).drop 1))
  else none

/-- The number of bits of an address. -/
def maxPrefix : IpAddr → ℕ
  | .v4 _ => 32
  | .v6 _ => 128

namespace IpCidr

/-- The address of a network. -/
def parseNetwork (text : String) : Except String IpAddr :=
  match IpAddr.parse text with
  | some network => .ok network
  | none => .error "invalid CIDR address: invalid IP address syntax"

/-- The address of a network and the number of bits that count. -/
def parseParts (text : String) : Except String (IpAddr × ℕ) :=
  match splitOnce '/' text with
  | some (address, bits) => do
    let network ← parseNetwork address
    match parseU8 bits with
    | .ok bits => .ok (network, bits)
    | .error error => .error ("invalid CIDR prefix: " ++ error.text)
  | none => do
    let network ← parseNetwork text
    .ok (network, maxPrefix network)

/-- **A network as it is configured.** -/
def fromStr (value : String) : Except String IpCidr :=
  let value := trim value
  if value = "" then .error "CIDR must not be empty"
  else do
    let (network, prefixLength) ← parseParts value
    if maxPrefix network < prefixLength then
      .error ("CIDR prefix " ++ toString prefixLength ++ " exceeds maximum " ++
        toString (maxPrefix network) ++ " for " ++ network.print)
    else if prefixLength = 0 then
      .error "CIDR prefix 0 matches every address and is not allowed for trusted_proxy_cidrs"
    else .ok { network, prefixLength }

theorem prefixLength_of_fromStr {value : String} {cidr : IpCidr} (h : fromStr value = .ok cidr) :
    0 < cidr.prefixLength ∧ cidr.prefixLength ≤ maxPrefix cidr.network := by
  unfold fromStr at h
  dsimp only at h
  split_ifs at h
  obtain ⟨⟨network, prefixLength⟩, -, h⟩ := bind_eq_ok.mp h
  dsimp only at h
  split_ifs at h with hmax hzero
  obtain rfl := Except.ok.inj h
  exact ⟨Nat.pos_of_ne_zero hzero, Nat.le_of_not_lt hmax⟩

/-! ### Addresses of a network -/

/-- The address, read in the family of the network, begins with the bits of the network. -/
def InNetwork (cidr : IpCidr) (address : IpAddr) : Prop :=
  match cidr.network, address with
  | .v4 network, .v4 address => Agree cidr.prefixLength network address
  | .v6 network, .v6 address => Agree cidr.prefixLength network address
  | .v6 network, .v4 address => Agree cidr.prefixLength network (mapped address)
  | .v4 network, .v6 address => ∃ a, address = mapped a ∧ Agree cidr.prefixLength network a

/-- The network is of version 4, and the address is one of it in the notation of version 6. -/
def Missed (cidr : IpCidr) (address : IpAddr) : Prop :=
  ∃ network a, cidr.network = .v4 network ∧ address = .v6 (mapped a) ∧
    Agree cidr.prefixLength network a

theorem setWidth_or_v4MappedPrefix (a : BitVec 32) :
    a.setWidth 128 ||| v4MappedPrefix = mapped a := by
  refine BitVec.eq_of_toNat_eq ?_
  have happend : (mapped a).toNat = (0xFFFF#96).toNat <<< 32 ||| a.toNat := BitVec.toNat_append ..
  rw [happend, BitVec.toNat_or, Nat.or_comm, BitVec.toNat_setWidth_of_le (by decide)]
  rfl

theorem and_ipv4Mask_eq_iff {prefixLength : ℕ} (hpos : 0 < prefixLength) (hle : prefixLength ≤ 32)
    (x y : BitVec 32) :
    (decide (prefixLength ≤ 32) && x &&& ipv4Mask prefixLength == y &&& ipv4Mask prefixLength) =
      true ↔ Agree prefixLength x y := by
  rw [decide_eq_true hle, Bool.true_and, beq_iff_eq, ipv4Mask, if_neg (Nat.ne_of_gt hpos)]
  exact and_mask_eq_iff hle x y

theorem and_ipv6Mask_eq_iff {prefixLength : ℕ} (hpos : 0 < prefixLength) (hle : prefixLength ≤ 128)
    (x y : BitVec 128) :
    (decide (prefixLength ≤ 128) && x &&& ipv6Mask prefixLength == y &&& ipv6Mask prefixLength) =
      true ↔ Agree prefixLength x y := by
  rw [decide_eq_true hle, Bool.true_and, beq_iff_eq, ipv6Mask, if_neg (Nat.ne_of_gt hpos)]
  exact and_mask_eq_iff hle x y

/-- **What the code finds**: the addresses of the network, but for those it misses. -/
theorem contains_iff {cidr : IpCidr} (hpos : 0 < cidr.prefixLength)
    (hle : cidr.prefixLength ≤ maxPrefix cidr.network) (address : IpAddr) :
    cidr.contains address = true ↔ cidr.InNetwork address ∧ ¬cidr.Missed address := by
  obtain ⟨network, prefixLength⟩ := cidr
  have hother {address : IpAddr} (h : ∀ n a, network = .v4 n → address ≠ .v6 (mapped a)) :
      ¬Missed ⟨network, prefixLength⟩ address := by
    rintro ⟨n, a, hn, ha, -⟩
    exact h n a hn ha
  cases network with
  | v4 n =>
    cases address with
    | v4 a =>
      refine (and_ipv4Mask_eq_iff hpos hle n a).trans (and_iff_left (hother ?_)).symm
      intro _ _ _ h
      cases h
    | v6 b =>
      refine iff_of_false Bool.false_ne_true ?_
      rintro ⟨⟨a, rfl, hagree⟩, hmissed⟩
      exact hmissed ⟨n, a, rfl, rfl, hagree⟩
  | v6 n =>
    have hnone {address : IpAddr} : ¬Missed ⟨.v6 n, prefixLength⟩ address := by
      refine hother ?_
      intro _ _ h
      cases h
    cases address with
    | v4 a =>
      have hcode := and_ipv6Mask_eq_iff hpos hle n (mapped a)
      rw [← setWidth_or_v4MappedPrefix] at hcode
      refine hcode.trans ?_
      rw [setWidth_or_v4MappedPrefix]
      exact (and_iff_left hnone).symm
    | v6 b => exact (and_ipv6Mask_eq_iff hpos hle n b).trans (and_iff_left hnone).symm

theorem Missed.inNetwork {cidr : IpCidr} {address : IpAddr} (h : cidr.Missed address) :
    cidr.InNetwork address := by
  obtain ⟨network, prefixLength⟩ := cidr
  obtain ⟨n, a, rfl, rfl, hagree⟩ := h
  exact ⟨a, rfl, hagree⟩

/-- The two notations of an address are in the same networks. -/
theorem inNetwork_mapped (cidr : IpCidr) (a : BitVec 32) :
    cidr.InNetwork (.v6 (mapped a)) ↔ cidr.InNetwork (.v4 a) := by
  obtain ⟨network, prefixLength⟩ := cidr
  cases network with
  | v4 n =>
    constructor
    · rintro ⟨b, hb, hagree⟩
      obtain rfl := mapped_injective hb
      exact hagree
    · exact fun hagree => ⟨a, rfl, hagree⟩
  | v6 n => exact Iff.rfl

theorem not_missed_v4 (cidr : IpCidr) (a : BitVec 32) : ¬cidr.Missed (.v4 a) := by
  rintro ⟨_, _, -, h, -⟩
  cases h

/-- **Where matching is prefix matching**: for every network that is read and every address, the
code gives the answer of the leading bits if and only if the address is not missed, and it gives
the same answer for the two notations of an address of version 4 if and only if the longer one is
not. -/
theorem contains_iff_inNetwork {value : String} {cidr : IpCidr} (h : fromStr value = .ok cidr) :
    (∀ address, (cidr.contains address = true ↔ cidr.InNetwork address) ↔ ¬cidr.Missed address) ∧
      ∀ a, cidr.contains (.v4 a) = cidr.contains (.v6 (mapped a)) ↔
        ¬cidr.Missed (.v6 (mapped a)) := by
  obtain ⟨hpos, hle⟩ := prefixLength_of_fromStr h
  have hcontains := contains_iff hpos hle
  constructor
  · intro address
    rw [hcontains]
    constructor
    · intro hiff hmissed
      exact (hiff.mpr hmissed.inNetwork).2 hmissed
    · intro hmissed
      exact and_iff_left hmissed
  · intro a
    rw [Bool.eq_iff_iff, hcontains, hcontains, inNetwork_mapped,
      and_iff_left (not_missed_v4 cidr a)]
    constructor
    · intro hiff hmissed
      have hin := (inNetwork_mapped cidr a).mp hmissed.inNetwork
      exact (hiff.mp hin).2 hmissed
    · intro hmissed
      exact (and_iff_left hmissed).symm

/-- The addresses of a network of version 6 are found in both notations. -/
theorem contains_iff_inNetwork_sample : fromStr "::ffff:127.0.0.0/104" =
      .ok ⟨.v6 (mapped 0x7F000000#32), 104⟩ ∧
    (contains ⟨.v6 (mapped 0x7F000000#32), 104⟩ (.v4 0x7F000001#32) = true ↔
      InNetwork ⟨.v6 (mapped 0x7F000000#32), 104⟩ (.v4 0x7F000001#32)) := by
  have hread : fromStr "::ffff:127.0.0.0/104" = .ok ⟨.v6 (mapped 0x7F000000#32), 104⟩ := by
    decide +kernel
  exact ⟨hread, ((contains_iff_inNetwork hread).1 _).mpr (not_missed_v4 _ _)⟩

/-- An address of a network of version 4 is not found in the notation of version 6. -/
theorem not_contains_mapped_sample : fromStr "10.0.0.0/8" = .ok ⟨.v4 0x0A000000#32, 8⟩ ∧
    contains ⟨.v4 0x0A000000#32, 8⟩ (.v4 0x0A010203#32) = true ∧
    InNetwork ⟨.v4 0x0A000000#32, 8⟩ (.v6 (mapped 0x0A010203#32)) ∧
    contains ⟨.v4 0x0A000000#32, 8⟩ (.v6 (mapped 0x0A010203#32)) = false := by
  have hagree : Agree 8 0x0A000000#32 0x0A010203#32 := by decide
  exact ⟨by decide +kernel, by decide, ⟨_, rfl, hagree⟩, rfl⟩

end IpCidr

end Onair
