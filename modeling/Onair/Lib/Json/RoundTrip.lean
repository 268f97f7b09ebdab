import Onair.Lib.Json.Reference

/-!
# The reference codec is lawful

* `readChars_print`, `readNumber_print`: what is printed is read back, for strings and numbers;
* `readValue_print`: **what is printed is read back**, in front of anything that ends a value;
* `read_fits`, `read_mono`: what is read is well-formed and not too deep, and the limit on nesting
  only decides whether a text is read;
* `noBreak_printValue`: a printed text has no line break;
* **`reference_lawful`**: the laws of a codec hold.
-/

namespace Json

open Text

/-! ### Strings are read back -/

theorem hexValue_digitChar : ∀ n < 16, hexValue (Nat.digitChar n) = some n := by decide

theorem readChars_control {c : Char} (h : c.toNat < 32) (cs : List Char) :
    readChars .plain ('\\' :: 'u' :: '0' :: '0' :: Nat.digitChar (c.toNat / 16) ::
        Nat.digitChar (c.toNat % 16) :: cs) =
      (readChars .plain cs).map fun p => (c :: p.1, p.2) := by
  have h1 := hexValue_digitChar (c.toNat / 16) (by omega)
  have h2 := hexValue_digitChar (c.toNat % 16) (by omega)
  have h0 : hexValue '0' = some 0 := by decide
  have hsum : c.toNat / 16 * 16 + c.toNat % 16 = c.toNat := by omega
  simp [readChars, charStep, CharState.isPlain, h0, h1, h2, hexEscape, hsum]
  rw [if_neg (by omega), if_neg (by omega)]
  rfl

theorem readChars_escapeChar (c : Char) (cs : List Char) :
    readChars .plain (escapeChar c ++ cs) =
      (readChars .plain cs).map fun p => (c :: p.1, p.2) := by
  unfold escapeChar
  split_ifs with h1 h2 h3 h4 h5 h6 h7 h8
  · subst h1; simp [readChars, charStep, CharState.isPlain, simpleEscape, Function.comp_def]
  · subst h2; simp [readChars, charStep, CharState.isPlain, simpleEscape, Function.comp_def]
  · subst h3; simp [readChars, charStep, CharState.isPlain, simpleEscape, Function.comp_def]
  · subst h4; simp [readChars, charStep, CharState.isPlain, simpleEscape, Function.comp_def]
  · subst h5; simp [readChars, charStep, CharState.isPlain, simpleEscape, Function.comp_def]
  · obtain rfl : c = Char.ofNat 8 := by rw [← h6, Char.ofNat_toNat]
    simp [readChars, charStep, CharState.isPlain, simpleEscape, Function.comp_def]
  · obtain rfl : c = Char.ofNat 12 := by rw [← h7, Char.ofNat_toNat]
    simp [readChars, charStep, CharState.isPlain, simpleEscape, Function.comp_def]
  · exact readChars_control h8 cs
  · simp [readChars, charStep, CharState.isPlain, h1, h2, h8]

/-- **A printed string is read back.** -/
theorem readChars_print (s cs : List Char) :
    readChars .plain (printChars s ++ cs) = some (s, cs) := by
  rw [printChars, List.append_assoc]
  induction s with
  | nil => simp [readChars, CharState.isPlain]
  | cons c s ih =>
    rw [List.flatMap_cons, List.append_assoc, readChars_escapeChar, ih]
    rfl

/-! ### Numbers are read back -/

/-- The text does not go on with a number. -/
def endsNumber : List Char → Bool
  | [] => true
  | c :: _ => !(c.isDigit || c = '.' || c = 'e' || c = 'E')

/-- The text does not go on with digits. -/
def endsDigits : List Char → Bool
  | [] => true
  | c :: _ => !c.isDigit

theorem endsDigits_of_endsNumber {cs : List Char} (h : endsNumber cs = true) :
    endsDigits cs = true := by
  cases cs with
  | nil => rfl
  | cons c cs => simp_all [endsNumber, endsDigits]

theorem spanDigits_append {ds cs : List Char} (hds : ∀ c ∈ ds, c.isDigit = true)
    (hcs : endsDigits cs = true) : spanDigits (ds ++ cs) = (ds, cs) := by
  have htake : cs.takeWhile Char.isDigit = [] ∧ cs.dropWhile Char.isDigit = cs := by
    cases cs with
    | nil => exact ⟨rfl, rfl⟩
    | cons c cs => simp_all [endsDigits]
  rw [spanDigits, List.takeWhile_append_of_pos hds, List.dropWhile_append_of_pos hds, htake.1,
    htake.2, List.append_nil]

theorem spanDigits_toDigits (n : ℕ) {cs : List Char} (hcs : endsDigits cs = true) :
    spanDigits (Nat.toDigits 10 n ++ cs) = (Nat.toDigits 10 n, cs) :=
  spanDigits_append (fun _ hc => Nat.isDigit_of_mem_toDigits (by decide) (by decide) hc) hcs

/-- A printed number has no leading zero. -/
theorem head_toDigits (n : ℕ) :
    ¬((Nat.toDigits 10 n).head? = some '0' ∧ 1 < (Nat.toDigits 10 n).length) := by
  have hdigit : ∀ n < 10, 0 < n → [Nat.digitChar n].head? ≠ some '0' := by decide
  have hpos : ∀ n, 0 < n → (Nat.toDigits 10 n).head? ≠ some '0' := by
    intro n
    induction n using Nat.strongRecOn with
    | ind n ih =>
      intro hn
      by_cases h : n < 10
      · rw [Nat.toDigits_of_lt_base h]
        exact hdigit n h hn
      · rw [Nat.toDigits_of_base_le (by decide) (by omega),
          List.head?_append_of_ne_nil _ Nat.toDigits_ne_nil]
        exact ih (n / 10) (by omega) (by omega)
  rintro ⟨h1, h2⟩
  rcases Nat.eq_zero_or_pos n with rfl | hn
  · exact absurd h2 (by decide)
  · exact hpos n hn h1

theorem readFraction_ends {cs : List Char} (h : ∀ c, cs.head? = some c → c ≠ '.') :
    readFraction cs = some (none, cs) := by
  cases cs with
  | nil => rfl
  | cons c cs => simp [readFraction, h c rfl]

theorem readExponent_ends {cs : List Char} (h : endsNumber cs = true) :
    readExponent cs = some (none, cs) := by
  cases cs with
  | nil => rfl
  | cons c cs => simp_all [readExponent, endsNumber]

theorem readMinus_toDigits (n : ℕ) (cs : List Char) :
    readMinus (Nat.toDigits 10 n ++ cs) = (false, Nat.toDigits 10 n ++ cs) := by
  cases h : Nat.toDigits 10 n with
  | nil => exact absurd h Nat.toDigits_ne_nil
  | cons c ds =>
    have hc : c.isDigit = true :=
      Nat.isDigit_of_mem_toDigits (b := 10) (n := n) (by decide) (by decide) (by simp [h])
    have hne : c ≠ '-' := by rintro rfl; exact absurd hc (by decide)
    simp [readMinus, hne]

theorem readNumber_digits (neg : Bool) (n : ℕ) {cs : List Char} (hcs : endsDigits cs = true) :
    readNumber ((if neg then ['-'] else []) ++ Nat.toDigits 10 n ++ cs) =
      (readFraction cs).bind fun f =>
        (readExponent f.2).map fun e =>
          (assembleNumber neg (Nat.toDigits 10 n) f.1 e.1, e.2) := by
  have hminus : readMinus ((if neg then ['-'] else []) ++ Nat.toDigits 10 n ++ cs) =
      (neg, Nat.toDigits 10 n ++ cs) := by
    cases neg with
    | false => exact readMinus_toDigits n cs
    | true => simp [readMinus]
  unfold readNumber
  rw [hminus]
  dsimp only
  rw [spanDigits_toDigits n hcs]
  dsimp only
  rw [if_neg (not_or.mpr ⟨Nat.toDigits_ne_nil, head_toDigits n⟩)]

theorem readExponent_print (e : ℤ) {cs : List Char} (hcs : endsNumber cs = true) :
    readExponent ('e' :: (printExponent e ++ cs)) = some (some e, cs) := by
  have hds := endsDigits_of_endsNumber hcs
  cases e with
  | ofNat e =>
    have hsign : readSign (Nat.toDigits 10 e ++ cs) = (false, Nat.toDigits 10 e ++ cs) := by
      cases h : Nat.toDigits 10 e with
      | nil => exact absurd h Nat.toDigits_ne_nil
      | cons c ds =>
        have hc : c.isDigit = true :=
          Nat.isDigit_of_mem_toDigits (b := 10) (n := e) (by decide) (by decide) (by simp [h])
        have h1 : c ≠ '-' := by rintro rfl; exact absurd hc (by decide)
        have h2 : c ≠ '+' := by rintro rfl; exact absurd hc (by decide)
        simp [readSign, h1, h2]
    simp [readExponent, printExponent, hsign, spanDigits_toDigits e hds, Nat.toDigits_ne_nil,
      Nat.ofDigitChars_ten_toDigits]
  | negSucc e =>
    simp [readExponent, printExponent, readSign, spanDigits_toDigits (e + 1) hds,
      Nat.toDigits_ne_nil, Nat.ofDigitChars_ten_toDigits, Int.negSucc_eq]

theorem integerNumber_posInt (n : UInt64) : integerNumber false n.toNat = .posInt n := by
  have h : n.toNat < 2 ^ 64 := n.toNat_lt
  simp only [integerNumber, Bool.false_eq_true, if_false, if_pos h, UInt64.ofNat_toNat]

theorem integerNumber_negInt (n : Fin (2 ^ 63)) :
    integerNumber true (n.val + 1) = .negInt n := by
  have h : 0 < n.val + 1 ∧ n.val + 1 ≤ 2 ^ 63 := ⟨by omega, n.isLt⟩
  simp only [integerNumber, if_true, dif_pos h, Nat.add_sub_cancel]

/-- **A printed number is read back.** -/
theorem readNumber_print (n : Number) {cs : List Char} (hcs : endsNumber cs = true) :
    readNumber (printNumber n ++ cs) = some (n, cs) := by
  have hds := endsDigits_of_endsNumber hcs
  have hdot : ∀ c, cs.head? = some c → c ≠ '.' := by
    intro c hc
    cases cs with
    | nil => simp at hc
    | cons c' cs => simp_all [endsNumber]
  cases n with
  | posInt n =>
    have := readNumber_digits false n.toNat hds
    rw [readFraction_ends hdot, Option.bind_some, readExponent_ends hcs] at this
    simpa [printNumber, assembleNumber, Nat.ofDigitChars_ten_toDigits, integerNumber_posInt]
      using this
  | negInt n =>
    have := readNumber_digits true (n.val + 1) hds
    rw [readFraction_ends hdot, Option.bind_some, readExponent_ends hcs] at this
    simpa [printNumber, assembleNumber, Nat.ofDigitChars_ten_toDigits, integerNumber_negInt]
      using this
  | float neg digits exponent =>
    have hhead : ∀ c, ('e' :: (printExponent exponent ++ cs)).head? = some c → c ≠ '.' := by
      intro c hc
      obtain rfl := Option.some.inj hc
      decide
    have hdigits : endsDigits ('e' :: (printExponent exponent ++ cs)) = true := rfl
    have := readNumber_digits neg digits hdigits
    rw [readFraction_ends hhead, Option.bind_some, readExponent_print exponent hcs] at this
    simpa [printNumber, assembleNumber, Nat.ofDigitChars_ten_toDigits] using this

/-! ### Values are read back -/

theorem head_printNumber (n : Number) :
    ∃ c cs, printNumber n = c :: cs ∧ (c.isDigit = true ∨ c = '-') := by
  have hdigits : ∀ n : ℕ, ∃ c cs, Nat.toDigits 10 n = c :: cs ∧ c.isDigit = true := by
    intro n
    cases h : Nat.toDigits 10 n with
    | nil => exact absurd h Nat.toDigits_ne_nil
    | cons c ds =>
      exact ⟨c, ds, rfl,
        Nat.isDigit_of_mem_toDigits (b := 10) (n := n) (by decide) (by decide) (by simp [h])⟩
  cases n with
  | posInt n =>
    obtain ⟨c, cs, h, hc⟩ := hdigits n.toNat
    exact ⟨c, cs, h, Or.inl hc⟩
  | negInt n => exact ⟨'-', _, rfl, Or.inr rfl⟩
  | float neg digits exponent =>
    cases neg with
    | true => exact ⟨'-', _, rfl, Or.inr rfl⟩
    | false =>
      obtain ⟨c, cs, h, hc⟩ := hdigits digits
      exact ⟨c, cs ++ 'e' :: printExponent exponent, by simp [printNumber, h], Or.inl hc⟩

theorem numberHead_ne {c : Char} (h : c.isDigit = true ∨ c = '-') :
    c ≠ 'n' ∧ c ≠ 't' ∧ c ≠ 'f' ∧ c ≠ '"' ∧ c ≠ '[' ∧ c ≠ '\x7b' ∧ c ≠ ']' ∧
      isSpace c = false := by
  rcases h with h | rfl
  · refine ⟨?_, ?_, ?_, ?_, ?_, ?_, ?_, ?_⟩
    all_goals first
      | (rintro rfl; exact absurd h (by decide))
      | skip
    by_contra hs
    rw [Bool.not_eq_false, isSpace] at hs
    simp only [Bool.or_eq_true, decide_eq_true_eq] at hs
    rcases hs with ((rfl | rfl) | rfl) | rfl <;> exact absurd h (by decide)
  · decide

theorem printValue_head (v : Value) :
    ∃ c cs, printValue v = c :: cs ∧ isSpace c = false ∧ c ≠ ']' := by
  cases v with
  | null => exact ⟨_, _, by rw [printValue], by decide, by decide⟩
  | bool b => cases b <;> exact ⟨_, _, by rw [printValue], by decide, by decide⟩
  | number n =>
    obtain ⟨c, cs, h, hc⟩ := head_printNumber n
    have hne := numberHead_ne hc
    exact ⟨c, cs, by rw [printValue, h], hne.2.2.2.2.2.2.2, hne.2.2.2.2.2.2.1⟩
  | string s => exact ⟨_, _, by rw [printValue], by decide, by decide⟩
  | array vs => cases vs <;> exact ⟨_, _, by rw [printValue], by decide, by decide⟩
  | object m =>
    match m with
    | [] => exact ⟨_, _, by rw [printValue], by decide, by decide⟩
    | (k, v) :: m => exact ⟨_, _, by rw [printValue], by decide, by decide⟩

theorem dropWhile_printValue (v : Value) (cs : List Char) :
    (printValue v ++ cs).dropWhile isSpace = printValue v ++ cs ∧
      (printValue v ++ cs).head? ≠ some ']' := by
  obtain ⟨c, ds, h, hs, hne⟩ := printValue_head v
  rw [h]
  simp [hs, hne]

/-- The printed value is read back, in front of anything that ends it. -/
def ReadsBack (v : Value) : Prop :=
  ∀ n d cs, v.WF → v.depth ≤ d → (printValue v).length ≤ n → endsNumber cs = true →
    readValue n d (printValue v ++ cs) = some (v, cs)

theorem readTail_print {vs : List Value} (h : ∀ v ∈ vs, ReadsBack v) :
    ∀ n d cs, (∀ v ∈ vs, v.WF) → (∀ v ∈ vs, v.depth ≤ d) → (printTail vs).length ≤ n →
      readTail n d (printTail vs ++ cs) = some (vs, cs) := by
  induction vs with
  | nil =>
    intro n d cs _ _ hn
    obtain _ | n := n
    · simp [printTail] at hn
    · simp [printTail, readTail, isSpace]
  | cons v vs ih =>
    intro n d cs hwf hd hn
    simp only [printTail, List.length_cons, List.length_append] at hn
    obtain _ | n := n
    · omega
    have hv := h v List.mem_cons_self n d (printTail vs ++ cs) (hwf v List.mem_cons_self)
      (hd v List.mem_cons_self) (by omega) (by cases vs <;> simp [printTail, endsNumber])
    have hvs := ih (fun w hw => h w (List.mem_cons_of_mem _ hw)) n d cs
      (fun w hw => hwf w (List.mem_cons_of_mem _ hw))
      (fun w hw => hd w (List.mem_cons_of_mem _ hw)) (by omega)
    have hspace : isSpace ',' = false := by decide
    rw [printTail, List.cons_append, List.append_assoc, readTail]
    simp [hspace, hv, hvs]

theorem readEntry_print {k : String} {v : Value} (h : ReadsBack v) {n d : ℕ} (cs : List Char)
    (hwf : v.WF) (hd : v.depth ≤ d) (hn : (printValue v).length + 1 ≤ n)
    (hcs : endsNumber cs = true) :
    readEntry n d ('"' :: (printChars k.toList ++ ':' :: (printValue v ++ cs))) =
      some ((k, v), cs) := by
  obtain _ | n := n
  · omega
  have hv := h n d cs hwf hd (by omega) hcs
  have hquote : isSpace '"' = false := by decide
  have hcolon : isSpace ':' = false := by decide
  rw [readEntry]
  simp [hquote, readChars_print, hcolon, hv]

theorem readEntries_print {m : List (String × Value)} (h : ∀ e ∈ m, ReadsBack e.2) :
    ∀ n d cs, (∀ e ∈ m, e.2.WF) → (∀ e ∈ m, e.2.depth ≤ d) → (printEntries m).length ≤ n →
      readEntries n d (printEntries m ++ cs) = some (m, cs) := by
  induction m with
  | nil =>
    intro n d cs _ _ hn
    obtain _ | n := n
    · simp [printEntries] at hn
    · simp [printEntries, readEntries, isSpace]
  | cons e m ih =>
    obtain ⟨k, v⟩ := e
    intro n d cs hwf hd hn
    simp only [printEntries, List.length_cons, List.length_append] at hn
    obtain _ | n := n
    · omega
    have hv := readEntry_print (k := k) (v := v) (h _ List.mem_cons_self) (n := n) (d := d)
      (printEntries m ++ cs) (hwf _ List.mem_cons_self) (hd _ List.mem_cons_self)
      (by omega) (by rcases m with _ | ⟨⟨k', v'⟩, m⟩ <;> simp [printEntries, endsNumber])
    have hm := ih (fun e he => h e (List.mem_cons_of_mem _ he)) n d cs
      (fun e he => hwf e (List.mem_cons_of_mem _ he))
      (fun e he => hd e (List.mem_cons_of_mem _ he)) (by omega)
    have hspace : isSpace ',' = false := by decide
    rw [printEntries, readEntries]
    simp [hspace, hv, hm]

theorem readsBack_number (m : Number) : ReadsBack (.number m) := by
  intro n d cs _ _ hn hcs
  obtain ⟨c, ds, h, hc⟩ := head_printNumber m
  obtain ⟨h1, h2, h3, h4, h5, h6, -, h8⟩ := numberHead_ne hc
  have hread := readNumber_print m hcs
  rw [printValue] at hn ⊢
  rw [h] at hn hread ⊢
  obtain _ | n := n
  · simp at hn
  · rw [readValue]
    simp only [List.cons_append, List.dropWhile_cons, h8, Bool.false_eq_true, if_false, h1, h2, h3,
      h4, h5, h6] at hread ⊢
    rw [hread]
    rfl

theorem readsBack_array {vs : List Value} (h : ∀ v ∈ vs, ReadsBack v) :
    ReadsBack (.array vs) := by
  intro n d cs hwf hd hn hcs
  have hspace : isSpace '[' = false ∧ isSpace ']' = false := by decide
  obtain _ | d := d
  · simp [Value.depth] at hd
  rw [Value.wf_array] at hwf
  rw [Value.depth_array_le] at hd
  cases vs with
  | nil =>
    obtain _ | n := n
    · simp [printValue] at hn
    · simp [printValue, readValue, hspace]
  | cons v vs =>
    simp only [printValue, List.length_cons, List.length_append] at hn
    obtain _ | n := n
    · omega
    have hv := h v List.mem_cons_self n d (printTail vs ++ cs) (hwf v List.mem_cons_self)
      (hd v List.mem_cons_self) (by omega) (by cases vs <;> simp [printTail, endsNumber])
    have hvs := readTail_print (fun w hw => h w (List.mem_cons_of_mem _ hw)) n d cs
      (fun w hw => hwf w (List.mem_cons_of_mem _ hw))
      (fun w hw => hd w (List.mem_cons_of_mem _ hw)) (by omega)
    obtain ⟨hdrop, hhead⟩ := dropWhile_printValue v (printTail vs ++ cs)
    rw [printValue, List.cons_append, List.append_assoc, readValue]
    simp only [List.dropWhile_cons, hspace.1, Bool.false_eq_true, if_false, hdrop, if_neg hhead]
    simp [hv, hvs]

theorem readsBack_object {m : List (String × Value)} (h : ∀ e ∈ m, ReadsBack e.2) :
    ReadsBack (.object m) := by
  intro n d cs hwf hd hn hcs
  have hspace : isSpace '\x7b' = false ∧ isSpace '\x7d' = false ∧ isSpace '"' = false := by decide
  obtain _ | d := d
  · simp [Value.depth] at hd
  rw [Value.wf_object] at hwf
  rw [Value.depth_object_le] at hd
  obtain ⟨hsorted, hwf⟩ := hwf
  rcases m with _ | ⟨⟨k, v⟩, m⟩
  · obtain _ | n := n
    · simp [printValue] at hn
    · simp [printValue, readValue, hspace]
  · simp only [printValue, List.length_cons, List.length_append] at hn
    obtain _ | n := n
    · omega
    have hv := readEntry_print (k := k) (v := v) (h _ List.mem_cons_self) (n := n) (d := d)
      (printEntries m ++ cs) (hwf _ List.mem_cons_self) (hd _ List.mem_cons_self)
      (by omega) (by rcases m with _ | ⟨⟨k', v'⟩, m⟩ <;> simp [printEntries, endsNumber])
    have hm := readEntries_print (fun e he => h e (List.mem_cons_of_mem _ he)) n d cs
      (fun e he => hwf e (List.mem_cons_of_mem _ he))
      (fun e he => hd e (List.mem_cons_of_mem _ he)) (by omega)
    rw [printValue, readValue]
    simp [hspace, hv, hm, Value.obj, OrdMap.ofList_of_sorted hsorted]

/-- **What is printed is read back**, in front of anything that ends a value. -/
theorem readValue_print (v : Value) : ReadsBack v := by
  induction v using Value.induct with
  | null =>
    intro n d cs _ _ hn _
    obtain _ | n := n
    · simp [printValue] at hn
    · simp [printValue, readValue, isSpace, stripPrefix]
  | bool b =>
    intro n d cs _ _ hn _
    obtain _ | n := n
    · cases b <;> simp [printValue] at hn
    · cases b <;> simp [printValue, readValue, isSpace, stripPrefix]
  | number m => exact readsBack_number m
  | string s =>
    intro n d cs _ _ hn _
    obtain _ | n := n
    · simp [printValue] at hn
    · simp [printValue, readValue, isSpace, readChars_print]
  | array vs ih => exact readsBack_array ih
  | object m ih => exact readsBack_object ih

/-! ### What is read is well-formed -/

theorem fits_array_pred {d : ℕ} (hd : d ≠ 0) {vs : List Value} (h : ∀ v ∈ vs, v.Fits (d - 1)) :
    (Value.array vs).Fits d := by
  obtain ⟨d, rfl⟩ := Nat.exists_eq_succ_of_ne_zero hd
  exact Value.fits_array.mpr h

theorem fits_obj_pred {d : ℕ} (hd : d ≠ 0) {l : List (String × Value)}
    (h : ∀ e ∈ l, e.2.Fits (d - 1)) : (Value.obj l).Fits d := by
  obtain ⟨d, rfl⟩ := Nat.exists_eq_succ_of_ne_zero hd
  exact Value.fits_obj h

/-- **What is read is well-formed and not too deep**, by induction on the number of steps. -/
theorem read_fits (n : ℕ) :
    (∀ d cs r, readValue n d cs = some r → r.1.Fits d) ∧
    (∀ d cs r, readTail n d cs = some r → ∀ v ∈ r.1, v.Fits d) ∧
    (∀ d cs r, readEntry n d cs = some r → r.1.2.Fits d) ∧
    (∀ d cs r, readEntries n d cs = some r → ∀ e ∈ r.1, e.2.Fits d) := by
  induction n with
  | zero =>
    refine ⟨?_, ?_, ?_, ?_⟩
    all_goals
      intro d cs r h
      first
        | exact absurd h (by simp [readValue])
        | exact absurd h (by simp [readTail])
        | exact absurd h (by simp [readEntry])
        | exact absurd h (by simp [readEntries])
  | succ n ih =>
    obtain ⟨ihv, iht, ihe, ihes⟩ := ih
    refine ⟨?_, ?_, ?_, ?_⟩
    · intro d cs r h
      rw [readValue] at h
      split at h
      · exact absurd h (by simp)
      · split_ifs at h with h1 h2 h3 h4 h5 h6 h7 h8 h9 h10
        · obtain ⟨-, -, rfl⟩ := Option.map_eq_some_iff.mp h
          exact ⟨Value.wf_null, by simp⟩
        · obtain ⟨-, -, rfl⟩ := Option.map_eq_some_iff.mp h
          exact ⟨Value.wf_bool _, by simp⟩
        · obtain ⟨-, -, rfl⟩ := Option.map_eq_some_iff.mp h
          exact ⟨Value.wf_bool _, by simp⟩
        · obtain ⟨-, -, rfl⟩ := Option.map_eq_some_iff.mp h
          exact ⟨Value.wf_string _, by simp⟩
        · obtain rfl := Option.some.inj h
          exact fits_array_pred h6 (by simp)
        · obtain ⟨p, hp, h⟩ := Option.bind_eq_some_iff.mp h
          obtain ⟨q, hq, rfl⟩ := Option.map_eq_some_iff.mp h
          exact fits_array_pred h6 (List.forall_mem_cons.mpr ⟨ihv _ _ _ hp, iht _ _ _ hq⟩)
        · obtain rfl := Option.some.inj h
          exact fits_obj_pred h9 (l := []) (by simp)
        · obtain ⟨p, hp, h⟩ := Option.bind_eq_some_iff.mp h
          obtain ⟨q, hq, rfl⟩ := Option.map_eq_some_iff.mp h
          exact fits_obj_pred h9 (List.forall_mem_cons.mpr ⟨ihe _ _ _ hp, ihes _ _ _ hq⟩)
        · obtain ⟨-, -, rfl⟩ := Option.map_eq_some_iff.mp h
          exact ⟨Value.wf_number _, by simp⟩
    · intro d cs r h
      rw [readTail] at h
      split at h
      · exact absurd h (by simp)
      · split_ifs at h
        · obtain rfl := Option.some.inj h
          simp
        · obtain ⟨p, hp, h⟩ := Option.bind_eq_some_iff.mp h
          obtain ⟨q, hq, rfl⟩ := Option.map_eq_some_iff.mp h
          exact List.forall_mem_cons.mpr ⟨ihv _ _ _ hp, iht _ _ _ hq⟩
    · intro d cs r h
      rw [readEntry] at h
      split at h
      · exact absurd h (by simp)
      · split_ifs at h
        obtain ⟨p, hp, h⟩ := Option.bind_eq_some_iff.mp h
        split_ifs at h
        obtain ⟨q, hq, rfl⟩ := Option.map_eq_some_iff.mp h
        exact ihv _ _ _ hq
    · intro d cs r h
      rw [readEntries] at h
      split at h
      · exact absurd h (by simp)
      · split_ifs at h
        · obtain rfl := Option.some.inj h
          simp
        · obtain ⟨p, hp, h⟩ := Option.bind_eq_some_iff.mp h
          obtain ⟨q, hq, rfl⟩ := Option.map_eq_some_iff.mp h
          exact List.forall_mem_cons.mpr ⟨ihe _ _ _ hp, ihes _ _ _ hq⟩

/-! ### Printed texts have no line breaks -/

/-- The text has no line break. -/
def NoBreak (cs : List Char) : Prop := ∀ c ∈ cs, c ≠ '\n' ∧ c ≠ '\r'

@[simp] theorem noBreak_nil : NoBreak [] := by simp [NoBreak]

@[simp] theorem noBreak_cons {c : Char} {cs : List Char} :
    NoBreak (c :: cs) ↔ (c ≠ '\n' ∧ c ≠ '\r') ∧ NoBreak cs := List.forall_mem_cons

@[simp] theorem noBreak_append {cs ds : List Char} :
    NoBreak (cs ++ ds) ↔ NoBreak cs ∧ NoBreak ds := List.forall_mem_append

theorem noBreak_toDigits (n : ℕ) : NoBreak (Nat.toDigits 10 n) := by
  intro c hc
  have h := Nat.isDigit_of_mem_toDigits (by decide) (by decide) hc
  constructor <;> (rintro rfl; exact absurd h (by decide))

theorem noBreak_printNumber (n : Number) : NoBreak (printNumber n) := by
  cases n with
  | posInt n => exact noBreak_toDigits _
  | negInt n => simp [printNumber, noBreak_toDigits]
  | float neg digits exponent =>
    cases neg <;> cases exponent <;> simp [printNumber, printExponent, noBreak_toDigits]

theorem noBreak_escapeChar (c : Char) : NoBreak (escapeChar c) := by
  have hdigit : ∀ n < 16, Nat.digitChar n ≠ '\n' ∧ Nat.digitChar n ≠ '\r' := by decide
  unfold escapeChar
  split_ifs with h1 h2 h3 h4 h5 h6 h7 h8
  · simp
  · simp
  · simp
  · simp
  · simp
  · simp
  · simp
  · simp [hdigit (c.toNat / 16) (by omega), hdigit (c.toNat % 16) (by omega)]
  · simp [h3, h4]

theorem noBreak_printChars (s : List Char) : NoBreak (printChars s) := by
  rw [printChars, noBreak_append]
  refine ⟨fun c hc => ?_, by simp⟩
  obtain ⟨c', -, hc⟩ := List.mem_flatMap.mp hc
  exact noBreak_escapeChar c' c hc

theorem noBreak_printTail {vs : List Value} (h : ∀ v ∈ vs, NoBreak (printValue v)) :
    NoBreak (printTail vs) := by
  induction vs with
  | nil => simp [printTail]
  | cons v vs ih =>
    rw [List.forall_mem_cons] at h
    simp [printTail, h.1, ih h.2]

theorem noBreak_printEntries {m : List (String × Value)}
    (h : ∀ e ∈ m, NoBreak (printValue e.2)) : NoBreak (printEntries m) := by
  induction m with
  | nil => simp [printEntries]
  | cons e m ih =>
    obtain ⟨k, v⟩ := e
    rw [List.forall_mem_cons] at h
    simp [printEntries, h.1, ih h.2, noBreak_printChars]

/-- **A printed value has no line break.** -/
theorem noBreak_printValue (v : Value) : NoBreak (printValue v) := by
  induction v using Value.induct with
  | null => simp [printValue]
  | bool b => cases b <;> simp [printValue]
  | number n => rw [printValue]; exact noBreak_printNumber n
  | string s => simp [printValue, noBreak_printChars]
  | array vs ih =>
    cases vs with
    | nil => simp [printValue]
    | cons v vs =>
      rw [List.forall_mem_cons] at ih
      simp [printValue, ih.1, noBreak_printTail ih.2]
  | object m ih =>
    rcases m with _ | ⟨⟨k, v⟩, m⟩
    · simp [printValue]
    · rw [List.forall_mem_cons] at ih
      simp [printValue, ih.1, noBreak_printEntries ih.2, noBreak_printChars]

/-! ### The codec is lawful -/

theorem readText_print {v : Value} (hwf : v.WF) (hd : v.depth ≤ maxDepth) :
    readText (printValue v) = some v := by
  have h := readValue_print v (2 * (printValue v).length + 1) maxDepth [] hwf hd (by omega) rfl
  rw [List.append_nil] at h
  rw [readText, h]
  rfl

/-- A text that is read under one limit on nesting is read the same under a larger one. -/
theorem read_mono (n : ℕ) :
    (∀ d d' cs r, d ≤ d' → readValue n d cs = some r → readValue n d' cs = some r) ∧
    (∀ d d' cs r, d ≤ d' → readTail n d cs = some r → readTail n d' cs = some r) ∧
    (∀ d d' cs r, d ≤ d' → readEntry n d cs = some r → readEntry n d' cs = some r) ∧
    (∀ d d' cs r, d ≤ d' → readEntries n d cs = some r → readEntries n d' cs = some r) := by
  induction n with
  | zero =>
    refine ⟨?_, ?_, ?_, ?_⟩
    all_goals
      intro d d' cs r _ h
      first
        | exact absurd h (by simp [readValue])
        | exact absurd h (by simp [readTail])
        | exact absurd h (by simp [readEntry])
        | exact absurd h (by simp [readEntries])
  | succ n ih =>
    obtain ⟨ihv, iht, ihe, ihes⟩ := ih
    refine ⟨?_, ?_, ?_, ?_⟩
    · intro d d' cs r hd h
      have hd' : d - 1 ≤ d' - 1 := Nat.sub_le_sub_right hd 1
      rw [readValue] at h ⊢
      cases hcs : cs.dropWhile isSpace with
      | nil => rw [hcs] at h; exact h
      | cons c cs =>
        rw [hcs] at h
        dsimp only at h ⊢
        split_ifs at h ⊢ with h1 h2 h3 h4 h5 h6 h7 h8 h9 h10 h11 h12 h13 h14
        all_goals first
          | exact h
          | omega
          | (obtain ⟨p, hp, h⟩ := Option.bind_eq_some_iff.mp h
             obtain ⟨q, hq, rfl⟩ := Option.map_eq_some_iff.mp h
             first
               | rw [ihv _ _ _ _ hd' hp, Option.bind_some, iht _ _ _ _ hd' hq]; rfl
               | rw [ihe _ _ _ _ hd' hp, Option.bind_some, ihes _ _ _ _ hd' hq]; rfl)
    · intro d d' cs r hd h
      rw [readTail] at h ⊢
      cases hcs : cs.dropWhile isSpace with
      | nil => rw [hcs] at h; exact h
      | cons c cs =>
        rw [hcs] at h
        dsimp only at h ⊢
        split_ifs at h ⊢
        · exact h
        · obtain ⟨p, hp, h⟩ := Option.bind_eq_some_iff.mp h
          obtain ⟨q, hq, rfl⟩ := Option.map_eq_some_iff.mp h
          rw [ihv _ _ _ _ hd hp, Option.bind_some, iht _ _ _ _ hd hq]
          rfl
    · intro d d' cs r hd h
      rw [readEntry] at h ⊢
      cases hcs : cs.dropWhile isSpace with
      | nil => rw [hcs] at h; exact h
      | cons c cs =>
        rw [hcs] at h
        dsimp only at h ⊢
        split_ifs at h ⊢
        obtain ⟨p, hp, h⟩ := Option.bind_eq_some_iff.mp h
        split_ifs at h with hc
        obtain ⟨q, hq, rfl⟩ := Option.map_eq_some_iff.mp h
        rw [hp, Option.bind_some, if_pos hc, ihv _ _ _ _ hd hq]
        rfl
    · intro d d' cs r hd h
      rw [readEntries] at h ⊢
      cases hcs : cs.dropWhile isSpace with
      | nil => rw [hcs] at h; exact h
      | cons c cs =>
        rw [hcs] at h
        dsimp only at h ⊢
        split_ifs at h ⊢
        · exact h
        · obtain ⟨p, hp, h⟩ := Option.bind_eq_some_iff.mp h
          obtain ⟨q, hq, rfl⟩ := Option.map_eq_some_iff.mp h
          rw [ihe _ _ _ _ hd hp, Option.bind_some, ihes _ _ _ _ hd hq]
          rfl

/-- A printed text is read to its value or not at all. -/
theorem readText_print_eq {v w : Value} (hwf : v.WF) (h : readText (printValue v) = some w) :
    w = v := by
  obtain ⟨r, hr, h⟩ := Option.bind_eq_some_iff.mp h
  split_ifs at h
  have hdeep := (read_mono _).1 _ (max maxDepth v.depth) _ _ (le_max_left _ _) hr
  have hprint := readValue_print v (2 * (printValue v).length + 1) (max maxDepth v.depth) [] hwf
    (le_max_right _ _) (by omega) rfl
  rw [List.append_nil, hdeep] at hprint
  rw [← Option.some.inj h, Option.some.inj hprint]

theorem object_of_readText {cs : List Char} {m : List (String × Value)}
    (h : readText cs = some (.object m)) : (cs.dropWhile isSpace).head? = some '\x7b' := by
  obtain ⟨r, hr, h⟩ := Option.bind_eq_some_iff.mp h
  split_ifs at h
  have hobj : r.1 = .object m := Option.some.inj h
  rw [readValue] at hr
  cases hcs : cs.dropWhile isSpace with
  | nil => rw [hcs] at hr; exact absurd hr (by simp)
  | cons c cs' =>
    rw [hcs] at hr
    dsimp only at hr
    by_cases hc : c = '\x7b'
    · rw [hc]
      rfl
    · -- Every other first character gives another kind of value.
      rw [if_neg hc] at hr
      split_ifs at hr
      all_goals first
        | (obtain ⟨p, -, rfl⟩ := Option.map_eq_some_iff.mp hr; exact absurd hobj (by simp))
        | (obtain rfl := Option.some.inj hr; exact absurd hobj (by simp))
        | (obtain ⟨p, -, hr⟩ := Option.bind_eq_some_iff.mp hr
           obtain ⟨q, -, rfl⟩ := Option.map_eq_some_iff.mp hr
           exact absurd hobj (by simp))

/-- The first byte after white space is the first character after white space, if it is ASCII. -/
theorem find_asBytes {s : String} {c : Char} (h : (s.toList.dropWhile isSpace).head? = some c)
    (hc : c.toNat < 128) :
    ((asBytes s).find? fun x => x ≠ 32 ∧ x ≠ 9 ∧ x ≠ 10 ∧ x ≠ 13) =
      some (UInt8.ofNat c.toNat) := by
  rw [asBytes]
  generalize s.toList = cs at h
  induction cs with
  | nil => exact absurd h (by simp)
  | cons c' cs ih =>
    rw [List.flatMap_cons, List.find?_append]
    by_cases hs : isSpace c' = true
    · rw [List.dropWhile_cons_of_pos hs] at h
      rw [ih h]
      simp only [isSpace, Bool.or_eq_true, decide_eq_true_eq] at hs
      rcases hs with ((rfl | rfl) | rfl) | rfl <;> rfl
    · rw [List.dropWhile_cons_of_neg hs] at h
      obtain rfl : c' = c := by simpa using h
      have hbyte : ∀ n < 128, UInt8.ofNat c'.toNat = UInt8.ofNat n → c' = Char.ofNat n := by
        intro n hn heq
        have := congrArg UInt8.toNat heq
        rw [UInt8.toNat_ofNat', UInt8.toNat_ofNat', Nat.mod_eq_of_lt (by omega),
          Nat.mod_eq_of_lt (by omega)] at this
        rw [← this, Char.ofNat_toNat]
      rcases utf8EncodeChar_cases c' with ⟨-, h2⟩ | ⟨h1, -⟩
      · rw [h2, List.find?_cons_of_pos]
        · rfl
        · simp only [isSpace, Bool.or_eq_true, decide_eq_true_eq, not_or] at hs
          exact decide_eq_true ⟨fun h => hs.1.1.1 (hbyte 32 (by decide) h),
            fun h => hs.2 (hbyte 9 (by decide) h), fun h => hs.1.1.2 (hbyte 10 (by decide) h),
            fun h => hs.1.2 (hbyte 13 (by decide) h)⟩
      · omega

/-- **The reference codec is lawful.** -/
theorem reference_lawful : reference.Lawful where
  wf_of_read := by
    intro b v h
    obtain ⟨s, -, h⟩ := Option.bind_eq_some_iff.mp h
    obtain ⟨r, hr, h⟩ := Option.bind_eq_some_iff.mp h
    split_ifs at h
    rw [← Option.some.inj h]
    exact (read_fits _).1 _ _ _ hr
  read_print := by
    intro v hwf hd
    simp only [reference, fromUtf8_asBytes, Option.bind_some, String.toList_ofList,
      readText_print hwf hd, Option.isSome_some]
  blur_read_print := by
    intro v w hwf h
    simp only [reference, fromUtf8_asBytes, Option.bind_some, String.toList_ofList] at h
    rw [readText_print_eq hwf h]
  print_no_break := by
    intro v
    have h := noBreak_printValue v
    constructor
    · intro hb
      have := mem_asBytes hb (by decide)
      rw [String.toList_ofList] at this
      exact (h _ this).1 rfl
    · intro hb
      have := mem_asBytes hb (by decide)
      rw [String.toList_ofList] at this
      exact (h _ this).2 rfl
  print_object := by
    intro m
    rcases m with _ | ⟨⟨k, v⟩, m⟩ <;> simp only [reference, printValue, asBytes,
      String.toList_ofList, List.flatMap_cons] <;> rfl
  object_head := by
    intro b m h
    obtain ⟨s, hs, h⟩ := Option.bind_eq_some_iff.mp h
    rw [fromUtf8_eq_some.mp hs, find_asBytes (object_of_readText h) (by decide)]
    rfl

end Json
