import Onair.Lib.Text

/-!
# Lossy decoding

Ill-formed bytes are replaced when they are decoded, and what is replaced depends on what follows.

* `lossyStep_one`, …, `lossyStep_four`: the sequences of one to four bytes;
* `decodeLossy_asBytes`, `fromUtf8_eq_decode`: the bytes of a text are decoded to the text;
* `lossyStep_line`: no sequence goes on beyond a line feed;
* **`fromUtf8Lossy_line`**: bytes may be decoded line by line.
-/

namespace Text

open Lines

/-! ### Well-formed sequences -/

section Sequences

variable {b₀ b₁ b₂ b₃ : UInt8}

theorem lossyStep_one (h : b₀.toNat < 0x80) (t : Bytes) :
    lossyStep b₀ t = (scalar b₀.toNat [], 0) :=
  if_pos (UInt8.lt_iff_toNat_lt.mpr h)

theorem not_lt_of_lead (h : 0x80 ≤ b₀.toNat) : ¬ b₀ < 0x80 := by
  rw [UInt8.lt_iff_toNat_lt]
  exact Nat.not_lt.mpr h

theorem lossyStep_two (h₀ : 0xC2 ≤ b₀.toNat ∧ b₀.toNat ≤ 0xDF)
    (h₁ : 0x80 ≤ b₁.toNat ∧ b₁.toNat ≤ 0xBF) (t : Bytes) :
    lossyStep b₀ (b₁ :: t) = (scalar (b₀.toNat % 32) [b₁], 1) := by
  have hlead : (0xC2 ≤ b₀ && b₀ ≤ 0xDF) = true := by
    simpa [UInt8.le_iff_toNat_le] using h₀
  have hcont : isCont b₁ = true := by
    simpa [isCont, UInt8.le_iff_toNat_le] using h₁
  rw [lossyStep, if_neg (not_lt_of_lead (by omega)), if_pos hlead]
  simp [hcont]

/-- The second of three bytes is such that the sequence is not too long, and no surrogate. -/
theorem lossyStep_three (h₀ : 0xE0 ≤ b₀.toNat ∧ b₀.toNat ≤ 0xEF)
    (h₁ : 0x80 ≤ b₁.toNat ∧ b₁.toNat ≤ 0xBF) (h₂ : 0x80 ≤ b₂.toNat ∧ b₂.toNat ≤ 0xBF)
    (hlow : b₀.toNat = 0xE0 → 0xA0 ≤ b₁.toNat) (hhigh : b₀.toNat = 0xED → b₁.toNat ≤ 0x9F)
    (t : Bytes) :
    lossyStep b₀ (b₁ :: b₂ :: t) = (scalar (b₀.toNat % 16) [b₁, b₂], 2) := by
  have htwo : ¬ (0xC2 ≤ b₀ && b₀ ≤ 0xDF) = true := by
    simp [UInt8.le_iff_toNat_le]
    omega
  have hlead : (0xE0 ≤ b₀ && b₀ ≤ 0xEF) = true := by
    simpa [UInt8.le_iff_toNat_le] using h₀
  have hcont : isCont b₂ = true := by
    simpa [isCont, UInt8.le_iff_toNat_le] using h₂
  have hsecond : isSecondOf3 b₀ b₁ = true := by
    unfold isSecondOf3 isCont
    split_ifs with hl hh
    · have := hlow (congrArg UInt8.toNat hl)
      simp [UInt8.le_iff_toNat_le]
      omega
    · have := hhigh (congrArg UInt8.toNat hh)
      simp [UInt8.le_iff_toNat_le]
      omega
    · simpa [UInt8.le_iff_toNat_le] using h₁
  rw [lossyStep, if_neg (not_lt_of_lead (by omega)), if_neg htwo, if_pos hlead]
  simp [hsecond, hcont]

/-- The second of four bytes is such that the sequence is not too long, and in range. -/
theorem lossyStep_four (h₀ : 0xF0 ≤ b₀.toNat ∧ b₀.toNat ≤ 0xF4)
    (h₁ : 0x80 ≤ b₁.toNat ∧ b₁.toNat ≤ 0xBF) (h₂ : 0x80 ≤ b₂.toNat ∧ b₂.toNat ≤ 0xBF)
    (h₃ : 0x80 ≤ b₃.toNat ∧ b₃.toNat ≤ 0xBF) (hlow : b₀.toNat = 0xF0 → 0x90 ≤ b₁.toNat)
    (hhigh : b₀.toNat = 0xF4 → b₁.toNat ≤ 0x8F) (t : Bytes) :
    lossyStep b₀ (b₁ :: b₂ :: b₃ :: t) = (scalar (b₀.toNat % 8) [b₁, b₂, b₃], 3) := by
  have htwo : ¬ (0xC2 ≤ b₀ && b₀ ≤ 0xDF) = true := by
    simp [UInt8.le_iff_toNat_le]
    omega
  have hthree : ¬ (0xE0 ≤ b₀ && b₀ ≤ 0xEF) = true := by
    simp [UInt8.le_iff_toNat_le]
    omega
  have hlead : (0xF0 ≤ b₀ && b₀ ≤ 0xF4) = true := by
    simpa [UInt8.le_iff_toNat_le] using h₀
  have hcont₂ : isCont b₂ = true := by
    simpa [isCont, UInt8.le_iff_toNat_le] using h₂
  have hcont₃ : isCont b₃ = true := by
    simpa [isCont, UInt8.le_iff_toNat_le] using h₃
  have hsecond : isSecondOf4 b₀ b₁ = true := by
    unfold isSecondOf4 isCont
    split_ifs with hl hh
    · have := hlow (congrArg UInt8.toNat hl)
      simp [UInt8.le_iff_toNat_le]
      omega
    · have := hhigh (congrArg UInt8.toNat hh)
      simp [UInt8.le_iff_toNat_le]
      omega
    · simpa [UInt8.le_iff_toNat_le] using h₁
  rw [lossyStep, if_neg (not_lt_of_lead (by omega)), if_neg htwo, if_neg hthree, if_pos hlead]
  simp [hsecond, hcont₂, hcont₃]

end Sequences

theorem toNat_ofNat_of_lt {n : ℕ} (h : n < 256) : (UInt8.ofNat n).toNat = n := by
  rw [UInt8.toNat_ofNat']
  exact Nat.mod_eq_of_lt h

/-- **A character is read from its bytes**, whatever follows. -/
theorem lossyStep_encode (c : Char) :
    ∃ b bs, String.utf8EncodeChar c = b :: bs ∧
      ∀ t, lossyStep b (bs ++ t) = (c, bs.length) := by
  have hvalid : c.val.toNat < 0xD800 ∨ 0xDFFF < c.val.toNat ∧ c.val.toNat < 0x110000 := c.valid
  have hc : ∀ n, n = c.val.toNat → Char.ofNat n = c := fun n hn => by
    rw [hn]
    exact c.ofNat_toNat
  unfold String.utf8EncodeChar
  dsimp only
  generalize c.val.toNat = v at hvalid hc ⊢
  split_ifs with h1 h2 h3
  · have hb : (UInt8.ofNat v).toNat = v := toNat_ofNat_of_lt (by omega)
    refine ⟨_, _, rfl, fun t => ?_⟩
    rw [List.nil_append, lossyStep_one (by omega), scalar, hb]
    exact congrArg (·, 0) (hc v rfl)
  · have hb₀ : (UInt8.ofNat (v / 64 % 0x20 + 0xc0)).toNat = v / 64 % 0x20 + 0xc0 :=
      toNat_ofNat_of_lt (by omega)
    have hb₁ : (UInt8.ofNat (v % 0x40 + 0x80)).toNat = v % 0x40 + 0x80 :=
      toNat_ofNat_of_lt (by omega)
    refine ⟨_, _, rfl, fun t => ?_⟩
    rw [List.singleton_append, lossyStep_two (by omega) (by omega), scalar]
    simp only [List.foldl_cons, List.foldl_nil, hb₀, hb₁]
    exact congrArg (·, 1) (hc _ (by omega))
  · have hb₀ : (UInt8.ofNat (v / 4096 % 0x10 + 0xe0)).toNat = v / 4096 % 0x10 + 0xe0 :=
      toNat_ofNat_of_lt (by omega)
    have hb₁ : (UInt8.ofNat (v / 64 % 0x40 + 0x80)).toNat = v / 64 % 0x40 + 0x80 :=
      toNat_ofNat_of_lt (by omega)
    have hb₂ : (UInt8.ofNat (v % 0x40 + 0x80)).toNat = v % 0x40 + 0x80 :=
      toNat_ofNat_of_lt (by omega)
    refine ⟨_, _, rfl, fun t => ?_⟩
    rw [List.cons_append, List.singleton_append, lossyStep_three (by omega) (by omega) (by omega)
      (by omega) (by omega), scalar]
    simp only [List.foldl_cons, List.foldl_nil, hb₀, hb₁, hb₂]
    exact congrArg (·, 2) (hc _ (by omega))
  · have hb₀ : (UInt8.ofNat (v / 262144 % 0x08 + 0xf0)).toNat = v / 262144 % 0x08 + 0xf0 :=
      toNat_ofNat_of_lt (by omega)
    have hb₁ : (UInt8.ofNat (v / 4096 % 0x40 + 0x80)).toNat = v / 4096 % 0x40 + 0x80 :=
      toNat_ofNat_of_lt (by omega)
    have hb₂ : (UInt8.ofNat (v / 64 % 0x40 + 0x80)).toNat = v / 64 % 0x40 + 0x80 :=
      toNat_ofNat_of_lt (by omega)
    have hb₃ : (UInt8.ofNat (v % 0x40 + 0x80)).toNat = v % 0x40 + 0x80 :=
      toNat_ofNat_of_lt (by omega)
    refine ⟨_, _, rfl, fun t => ?_⟩
    rw [List.cons_append, List.cons_append, List.singleton_append, lossyStep_four (by omega)
      (by omega) (by omega) (by omega) (by omega) (by omega), scalar]
    simp only [List.foldl_cons, List.foldl_nil, hb₀, hb₁, hb₂, hb₃]
    exact congrArg (·, 3) (hc _ (by omega))

theorem decodeLossy_skip (bs t : Bytes) : decodeLossy bs.length (bs ++ t) = decodeLossy 0 t := by
  induction bs with
  | nil => rfl
  | cons b bs ih => exact ih

/-- **The bytes of a text are decoded to the text**, and then what follows. -/
theorem decodeLossy_asBytes (s : String) (t : Bytes) :
    decodeLossy 0 (asBytes s ++ t) = s.toList ++ decodeLossy 0 t := by
  rw [asBytes]
  induction s.toList with
  | nil => rfl
  | cons c l ih =>
    obtain ⟨b, bs, hb, hstep⟩ := lossyStep_encode c
    rw [List.flatMap_cons, hb, List.append_assoc, List.cons_append, decodeLossy, hstep]
    dsimp only
    rw [decodeLossy_skip, ih]
    rfl

/-- Lossy decoding is the same whether the bytes are well-formed or not. -/
theorem toList_fromUtf8Lossy (b : Bytes) : (fromUtf8Lossy b).toList = decodeLossy 0 b := by
  rw [fromUtf8Lossy]
  cases h : fromUtf8 b with
  | none => rw [Option.getD_none, String.toList_ofList]
  | some s =>
    obtain rfl := fromUtf8_eq_some.mp h
    have hs := decodeLossy_asBytes s []
    rw [List.append_nil, decodeLossy, List.append_nil] at hs
    rw [Option.getD_some, hs]

/-- Checked decoding is lossy decoding, if that loses nothing. -/
theorem fromUtf8_eq_decode (b : Bytes) :
    fromUtf8 b = if (decodeLossy 0 b).flatMap String.utf8EncodeChar = b then
      some (String.ofList (decodeLossy 0 b)) else none := by
  split_ifs with h
  · rw [fromUtf8_eq_some, asBytes, String.toList_ofList, h]
  · cases hb : fromUtf8 b with
    | none => rfl
    | some s =>
      obtain rfl := fromUtf8_eq_some.mp hb
      have hs := decodeLossy_asBytes s []
      rw [List.append_nil, decodeLossy, List.append_nil] at hs
      exact absurd (by rw [hs, asBytes]) h

/-! ### Line by line -/

/-- **No sequence goes on beyond a line feed.** -/
theorem lossyStep_line (b : UInt8) (t r : Bytes) :
    lossyStep b (t ++ nl :: r) = lossyStep b (t ++ [nl]) ∧
      (lossyStep b (t ++ [nl])).2 ≤ t.length := by
  have hcont : isCont nl = false := by decide
  have hthree : isSecondOf3 b nl = false := by
    unfold isSecondOf3
    split_ifs <;> decide
  have hfour : isSecondOf4 b nl = false := by
    unfold isSecondOf4
    split_ifs <;> decide
  -- a sequence has at most three more bytes, so the cases are where among them the line feed is
  obtain _ | ⟨b₁, _ | ⟨b₂, _ | ⟨b₃, t⟩⟩⟩ := t
  · obtain _ | ⟨x, _ | ⟨y, r⟩⟩ := r <;> simp [lossyStep, hcont, hthree, hfour] <;> split_ifs <;> rfl
  · obtain _ | ⟨x, r⟩ := r <;> simp [lossyStep, hcont] <;> split_ifs <;> simp
  · simp [lossyStep, hcont]
    split_ifs <;> simp
  · simp [lossyStep]
    split_ifs <;> simp

theorem decodeLossy_line (t r : Bytes) {skip : ℕ} (h : skip ≤ t.length) :
    decodeLossy skip (t ++ nl :: r) = decodeLossy skip (t ++ [nl]) ++ decodeLossy 0 r := by
  induction t generalizing skip with
  | nil =>
    obtain rfl := Nat.le_zero.mp h
    have hnl : ∀ r, lossyStep nl r = ('\n', 0) := fun r => lossyStep_one (by decide) r
    rw [List.nil_append, List.nil_append, decodeLossy, decodeLossy, hnl, hnl]
    rfl
  | cons b t ih =>
    cases skip with
    | zero =>
      obtain ⟨hstep, hle⟩ := lossyStep_line b t r
      rw [List.cons_append, List.cons_append, decodeLossy, decodeLossy, hstep]
      dsimp only
      rw [ih hle, List.cons_append]
    | succ skip => exact ih (Nat.le_of_succ_le_succ h)

/-- **Bytes may be decoded line by line.** -/
theorem fromUtf8Lossy_line (a b : Bytes) :
    fromUtf8Lossy (a ++ [nl] ++ b) = fromUtf8Lossy (a ++ [nl]) ++ fromUtf8Lossy b := by
  apply String.toList_inj.mp
  rw [String.toList_append, toList_fromUtf8Lossy, toList_fromUtf8Lossy, toList_fromUtf8Lossy,
    List.append_assoc, List.singleton_append, decodeLossy_line a b (Nat.zero_le _)]

end Text
