import Onair.Lib.Lines
import Mathlib.Data.String.Basic

/-!
# Texts and byte strings

Strings are sequences of Unicode scalar values; their bytes are UTF-8.

* `asBytes`, `fromUtf8`, `fromUtf8_asBytes`: encoding, checked decoding, and the round trip;
* `stripPrefix`, `stripSuffix`: removing a fixed beginning or end;
* `isWhiteSpace`, `trim`: Unicode white space, and trimming it;
* `fromUtf8Lossy`: decoding with every ill-formed sequence replaced;
* `toAsciiLowercase`, `contains`, `split`, `lines`: small string operations.
-/

namespace Text

/-- The UTF-8 bytes of a string. -/
def asBytes (s : String) : Bytes := s.toList.flatMap String.utf8EncodeChar

/-- The string with the given UTF-8 bytes, if they are valid UTF-8. -/
def fromUtf8 (b : Bytes) : Option String := String.fromUTF8? ⟨b.toArray⟩

theorem asBytes_eq (s : String) : (⟨(asBytes s).toArray⟩ : ByteArray) = s.toByteArray := by
  rw [← String.utf8Encode_toList, List.utf8Encode]
  exact ByteArray.ext List.data_toByteArray.symm

/-- The bytes of a text are those it is made of, which is how a fixed text is evaluated. -/
theorem asBytes_eq_data (s : String) : asBytes s = s.toByteArray.data.toList := by
  rw [← asBytes_eq]

/-- **Decoding undoes encoding.** -/
theorem fromUtf8_asBytes (s : String) : fromUtf8 (asBytes s) = some s := by
  rw [fromUtf8, asBytes_eq, String.fromUTF8?]
  rw [dif_pos s.isValidUTF8]
  rfl

theorem fromUtf8_eq_some {b : Bytes} {s : String} : fromUtf8 b = some s ↔ b = asBytes s := by
  constructor
  · intro h
    rw [fromUtf8, String.fromUTF8?] at h
    split_ifs at h with hv
    have hb : s.toByteArray = ⟨b.toArray⟩ := by rw [← Option.some.inj h]; rfl
    have := asBytes_eq s
    rw [hb] at this
    simpa using (congrArg (fun a => a.data.toList) this).symm
  · rintro rfl
    exact fromUtf8_asBytes s

theorem forall_mem_toList {s : String} {p : Char → Prop} [DecidablePred p]
    (h : s.toList.all (fun c => decide (p c)) = true) : ∀ c ∈ s.toList, p c :=
  fun c hc => of_decide_eq_true (List.all_eq_true.mp h c hc)

/-- A character is one byte below 128, or several bytes from 128 on. -/
theorem utf8EncodeChar_cases (c : Char) :
    c.toNat < 128 ∧ String.utf8EncodeChar c = [UInt8.ofNat c.toNat] ∨
      128 ≤ c.toNat ∧ ∀ b ∈ String.utf8EncodeChar c, 128 ≤ b.toNat := by
  unfold String.utf8EncodeChar
  change c.toNat < 128 ∧ (if c.toNat ≤ 127 then _ else _) = _ ∨ 128 ≤ c.toNat ∧
    ∀ b ∈ (if c.toNat ≤ 127 then _ else _), _
  by_cases h : c.toNat ≤ 127
  · exact Or.inl ⟨by omega, by rw [if_pos h]; rfl⟩
  · refine Or.inr ⟨by omega, ?_⟩
    rw [if_neg h]
    intro b hb
    split_ifs at hb <;>
      simp only [List.mem_cons, List.not_mem_nil, or_false] at hb <;>
      rcases hb with rfl | rfl | rfl | rfl <;> simp <;> omega

theorem mem_asBytes {s : String} {b : UInt8} (hb : b ∈ asBytes s) (h : b.toNat < 128) :
    Char.ofNat b.toNat ∈ s.toList := by
  obtain ⟨c, hc, hb⟩ := List.mem_flatMap.mp hb
  rcases utf8EncodeChar_cases c with ⟨h1, h2⟩ | ⟨-, h2⟩
  · rw [h2] at hb
    obtain rfl := List.mem_singleton.mp hb
    have : (UInt8.ofNat c.toNat).toNat = c.toNat := by
      rw [UInt8.toNat_ofNat']
      exact Nat.mod_eq_of_lt (by omega)
    rw [this, Char.ofNat_toNat]
    exact hc
  · exact absurd (h2 b hb) (by omega)

/-- A text whose bytes begin with those of ASCII characters begins with the characters. -/
theorem prefix_of_asBytes {s p : String} (hp : ∀ c ∈ p.toList, c.toNat < 128)
    (h : asBytes p <+: asBytes s) : p.toList <+: s.toList := by
  rw [asBytes, asBytes] at h
  generalize p.toList = l at hp h
  generalize s.toList = r at h
  induction l generalizing r with
  | nil => simp
  | cons c l ih =>
    have hc := hp c List.mem_cons_self
    obtain ⟨-, h1⟩ := (utf8EncodeChar_cases c).resolve_right (by omega)
    rw [List.flatMap_cons, h1, List.singleton_append] at h
    cases r with
    | nil => simp at h
    | cons d r =>
      rw [List.flatMap_cons] at h
      rcases utf8EncodeChar_cases d with ⟨hd, h2⟩ | ⟨-, h2⟩
      · rw [h2, List.singleton_append, List.cons_prefix_cons] at h
        have hcd : c.toNat = d.toNat := by
          have := congrArg UInt8.toNat h.1
          rwa [UInt8.toNat_ofNat', UInt8.toNat_ofNat', Nat.mod_eq_of_lt (by omega),
            Nat.mod_eq_of_lt (by omega)] at this
        rw [List.cons_prefix_cons]
        refine ⟨?_, ih (fun x hx => hp x (List.mem_cons_of_mem _ hx)) r h.2⟩
        rw [← Char.ofNat_toNat c, hcd, Char.ofNat_toNat]
      · cases he : String.utf8EncodeChar d with
        | nil => exact absurd he (String.utf8EncodeChar_ne_nil)
        | cons b t =>
          rw [he] at h h2
          rw [List.cons_append, List.cons_prefix_cons] at h
          have := h2 b List.mem_cons_self
          rw [← h.1, UInt8.toNat_ofNat', Nat.mod_eq_of_lt (by omega)] at this
          omega

theorem asBytes_append (s t : String) : asBytes (s ++ t) = asBytes s ++ asBytes t := by
  simp [asBytes]

variable {α : Type} [DecidableEq α]

/-- What follows `p` in a list that begins with `p`. -/
def stripPrefix : List α → List α → Option (List α)
  | [], l => some l
  | _ :: _, [] => none
  | a :: p, b :: l => if a = b then stripPrefix p l else none

/-- What precedes `p` in a list that ends with `p`. -/
def stripSuffix (p l : List α) : Option (List α) :=
  (stripPrefix p.reverse l.reverse).map List.reverse

theorem stripPrefix_cons (a b : α) (p l : List α) :
    stripPrefix (a :: p) (b :: l) = if a = b then stripPrefix p l else none := rfl

@[simp] theorem stripPrefix_append (p l : List α) : stripPrefix p (p ++ l) = some l := by
  induction p with
  | nil => rfl
  | cons a p ih => simp [stripPrefix_cons, ih]

theorem stripPrefix_eq_some {p l r : List α} : stripPrefix p l = some r ↔ l = p ++ r := by
  constructor
  · intro h
    induction p generalizing l with
    | nil => simpa [stripPrefix] using h
    | cons a p ih =>
      cases l with
      | nil => simp [stripPrefix] at h
      | cons b l =>
        rw [stripPrefix_cons] at h
        split_ifs at h with hab
        rw [hab, ih h, List.cons_append]
  · rintro rfl
    exact stripPrefix_append p r

theorem stripSuffix_eq_some {p l r : List α} : stripSuffix p l = some r ↔ l = r ++ p := by
  rw [stripSuffix, Option.map_eq_some_iff]
  constructor
  · rintro ⟨a, ha, rfl⟩
    rw [stripPrefix_eq_some] at ha
    have := congrArg List.reverse ha
    simpa using this
  · rintro rfl
    exact ⟨r.reverse, by rw [stripPrefix_eq_some]; simp, by simp⟩

/-- The characters with the Unicode property `White_Space`. -/
def isWhiteSpace (c : Char) : Bool :=
  let n := c.toNat
  (9 ≤ n && n ≤ 13) || n == 32 || n == 133 || n == 160 || n == 5760 || (8192 ≤ n && n ≤ 8202) ||
    n == 8232 || n == 8233 || n == 8239 || n == 8287 || n == 12288

/-- Remove the characters satisfying `p` at both ends. -/
def trimMatches (p : Char → Bool) (s : String) : String :=
  String.ofList (((s.toList.dropWhile p).reverse.dropWhile p).reverse)

theorem mem_trimMatches {p : Char → Bool} {s : String} {c : Char}
    (h : c ∈ (trimMatches p s).toList) : c ∈ s.toList := by
  rw [trimMatches, String.toList_ofList, List.mem_reverse] at h
  have h' := (List.dropWhile_suffix p).subset h
  exact (List.dropWhile_suffix p).subset (List.mem_reverse.mp h')

/-- Remove white space at both ends. -/
def trim (s : String) : String := trimMatches isWhiteSpace s

/-! ### Lossy decoding -/

/-- A continuation byte. -/
def isCont (b : UInt8) : Bool := 0x80 ≤ b && b ≤ 0xBF

/-- The bytes that may follow the first byte of a sequence of three. -/
def isSecondOf3 (b₀ b₁ : UInt8) : Bool :=
  if b₀ = 0xE0 then 0xA0 ≤ b₁ && b₁ ≤ 0xBF
  else if b₀ = 0xED then 0x80 ≤ b₁ && b₁ ≤ 0x9F
  else isCont b₁

/-- The bytes that may follow the first byte of a sequence of four. -/
def isSecondOf4 (b₀ b₁ : UInt8) : Bool :=
  if b₀ = 0xF0 then 0x90 ≤ b₁ && b₁ ≤ 0xBF
  else if b₀ = 0xF4 then 0x80 ≤ b₁ && b₁ ≤ 0x8F
  else isCont b₁

/-- The character that stands for an ill-formed sequence. -/
def replacement : Char := '\uFFFD'

/-- The character with the given bits, six for each byte after the first. -/
def scalar (first : ℕ) (rest : List UInt8) : Char :=
  Char.ofNat (rest.foldl (fun n b => n * 64 + b.toNat % 64) first)

/-- The first character of the bytes `b₀ :: t` and how many bytes of `t` belong to it. An
ill-formed beginning counts as far as a sequence could still have gone on. -/
def lossyStep (b₀ : UInt8) (t : Bytes) : Char × ℕ :=
  if b₀ < 0x80 then (scalar b₀.toNat [], 0)
  else if 0xC2 ≤ b₀ && b₀ ≤ 0xDF then
    match t with
    | b₁ :: _ => if isCont b₁ then (scalar (b₀.toNat % 32) [b₁], 1) else (replacement, 0)
    | [] => (replacement, 0)
  else if 0xE0 ≤ b₀ && b₀ ≤ 0xEF then
    match t with
    | b₁ :: b₂ :: _ =>
      if isSecondOf3 b₀ b₁ then
        if isCont b₂ then (scalar (b₀.toNat % 16) [b₁, b₂], 2) else (replacement, 1)
      else (replacement, 0)
    | [b₁] => (replacement, if isSecondOf3 b₀ b₁ then 1 else 0)
    | [] => (replacement, 0)
  else if 0xF0 ≤ b₀ && b₀ ≤ 0xF4 then
    match t with
    | b₁ :: b₂ :: b₃ :: _ =>
      if isSecondOf4 b₀ b₁ then
        if isCont b₂ then
          if isCont b₃ then (scalar (b₀.toNat % 8) [b₁, b₂, b₃], 3) else (replacement, 2)
        else (replacement, 1)
      else (replacement, 0)
    | [b₁, b₂] =>
      (replacement, if isSecondOf4 b₀ b₁ then if isCont b₂ then 2 else 1 else 0)
    | [b₁] => (replacement, if isSecondOf4 b₀ b₁ then 1 else 0)
    | [] => (replacement, 0)
  else (replacement, 0)

/-- Decode the bytes after the first `skip`, with a replacement character for every ill-formed
sequence. -/
def decodeLossy : ℕ → Bytes → List Char
  | _, [] => []
  | skip + 1, _ :: t => decodeLossy skip t
  | 0, b₀ :: t =>
    let (c, taken) := lossyStep b₀ t
    c :: decodeLossy taken t

/-- The string with the given bytes, ill-formed sequences replaced. -/
def fromUtf8Lossy (b : Bytes) : String :=
  (fromUtf8 b).getD (String.ofList (decodeLossy 0 b))

@[simp] theorem fromUtf8Lossy_asBytes (s : String) : fromUtf8Lossy (asBytes s) = s := by
  rw [fromUtf8Lossy, fromUtf8_asBytes, Option.getD_some]

/-! ### Small string operations -/

/-- The text with its ASCII letters in lower case. -/
def toAsciiLowercase (s : String) : String := String.ofList (s.toList.map Char.toLower)

/-- The list has the given piece in it. -/
def hasInfix (piece : List α) : List α → Bool
  | [] => piece.isEmpty
  | a :: l => piece.isPrefixOf (a :: l) || hasInfix piece l

/-- The text has the given piece in it. -/
def contains (s piece : String) : Bool := hasInfix piece.toList s.toList

/-- The pieces of a list between the elements `sep`. -/
def splitList (sep : α) : List α → List (List α)
  | [] => [[]]
  | a :: l =>
    if a = sep then [] :: splitList sep l
    else match splitList sep l with
      | [] => [[a]]
      | p :: ps => (a :: p) :: ps

@[simp] theorem splitList_nil (sep : α) : splitList sep [] = [[]] := rfl

theorem splitList_cons (sep a : α) (l : List α) :
    splitList sep (a :: l) =
      if a = sep then [] :: splitList sep l
      else match splitList sep l with
        | [] => [[a]]
        | p :: ps => (a :: p) :: ps := rfl

theorem splitList_of_not_mem {sep : α} {l : List α} (h : sep ∉ l) : splitList sep l = [l] := by
  induction l with
  | nil => rfl
  | cons a l ih =>
    simp only [List.mem_cons, not_or] at h
    rw [splitList_cons, if_neg (Ne.symm h.1), ih h.2]

theorem splitList_append {sep : α} {p : List α} (h : sep ∉ p) (l : List α) :
    splitList sep (p ++ sep :: l) = p :: splitList sep l := by
  induction p with
  | nil => simp [splitList_cons]
  | cons a p ih =>
    simp only [List.mem_cons, not_or] at h
    rw [List.cons_append, splitList_cons, if_neg (Ne.symm h.1), ih h.2]

theorem splitList_ne_nil (sep : α) (l : List α) : splitList sep l ≠ [] := by
  cases l with
  | nil => simp
  | cons a l =>
    rw [splitList_cons]
    split_ifs
    · simp
    · cases splitList sep l <;> simp

theorem splitList_append_sep (sep : α) (l r : List α) :
    splitList sep (l ++ sep :: r) = splitList sep l ++ splitList sep r := by
  induction l with
  | nil => simp [splitList_cons]
  | cons a l ih =>
    rw [List.cons_append, splitList_cons, splitList_cons]
    split_ifs with ha
    · rw [ih, List.cons_append]
    · rw [ih]
      cases hl : splitList sep l with
      | nil => exact absurd hl (splitList_ne_nil sep l)
      | cons p ps => rfl

theorem splitList_replicate (sep : α) (n : ℕ) :
    splitList sep (List.replicate n sep) = List.replicate (n + 1) [] := by
  induction n with
  | zero => rfl
  | succ n ih => simp [List.replicate_succ, splitList_cons, ih]

theorem mem_of_mem_splitList {sep a : α} {l p : List α} (hp : p ∈ splitList sep l) (ha : a ∈ p) :
    a ∈ l := by
  induction l generalizing p with
  | nil =>
    obtain rfl := List.mem_singleton.mp hp
    exact ha
  | cons b l ih =>
    rw [splitList_cons] at hp
    split_ifs at hp with hb
    · rcases List.mem_cons.mp hp with rfl | hp
      · cases ha
      · exact List.mem_cons_of_mem _ (ih hp ha)
    · cases hs : splitList sep l with
      | nil =>
        rw [hs] at hp
        obtain rfl := List.mem_singleton.mp hp
        exact List.mem_cons.mpr (Or.inl (List.mem_singleton.mp ha))
      | cons q qs =>
        rw [hs] at hp ih
        rcases List.mem_cons.mp hp with rfl | hp
        · rcases List.mem_cons.mp ha with rfl | ha
          · exact List.mem_cons_self
          · exact List.mem_cons_of_mem _ (ih List.mem_cons_self ha)
        · exact List.mem_cons_of_mem _ (ih (List.mem_cons_of_mem _ hp) ha)

/-- The pieces of a text between the characters `sep`. -/
def split (sep : Char) (s : String) : List String := (splitList sep s.toList).map String.ofList

/-- The lines of a text, each with its line feed if it has one. -/
def rawLines : List Char → List (List Char)
  | [] => []
  | c :: l =>
    if c = '\n' then [c] :: rawLines l
    else match rawLines l with
      | [] => [[c]]
      | p :: ps => (c :: p) :: ps

/-- A line without its line feed, and without the carriage return before it. -/
def chomp (line : List Char) : List Char :=
  match stripSuffix ['\n'] line with
  | none => line
  | some line => (stripSuffix ['\r'] line).getD line

/-- The lines of a text, without their ends. -/
def lines (s : String) : List String := (rawLines s.toList).map fun l => String.ofList (chomp l)

end Text
