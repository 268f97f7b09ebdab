import Onair.Lib.Text

/-!
# URL-encoded forms

* `Form`, `Form.Lawful`: a reader and a writer of `application/x-www-form-urlencoded` texts, and
  what is relied on about them: what was written is read back, in the few characters such a text is
  made of;
* `reference`, `reference_lawful`: the algorithm of the URL standard, which is so.
-/

open Text

/-- A reader and a writer of forms. -/
structure Form where
  parse : Bytes → List (String × String)
  serialize : List (String × String) → String

namespace Form

/-- The characters a form is written with. -/
def formChar (c : Char) : Bool := c.isAlphanum || ['*', '-', '.', '_', '+', '%', '&', '='].elem c

/-- What is relied on about forms: reading gives back what was written; only the characters of
`formChar` are written, among them `=` if there is anything to write. -/
structure Lawful (f : Form) : Prop where
  parse_serialize : ∀ l, f.parse (asBytes (f.serialize l)) = l
  serialize_chars : ∀ l, ∀ c ∈ (f.serialize l).toList, formChar c = true
  mem_serialize : ∀ l, l ≠ [] → '=' ∈ (f.serialize l).toList

/-! ### The algorithm of the URL standard -/

/-- A hexadecimal digit. -/
def hexDigit (n : ℕ) : UInt8 := UInt8.ofNat (if n < 10 then 48 + n else 55 + n)

/-- The value of a hexadecimal digit. -/
def hexValue (b : UInt8) : Option ℕ :=
  if 48 ≤ b ∧ b ≤ 57 then some (b.toNat - 48)
  else if 65 ≤ b ∧ b ≤ 70 then some (b.toNat - 55)
  else if 97 ≤ b ∧ b ≤ 102 then some (b.toNat - 87)
  else none

/-- The bytes written as they are. -/
def plain (b : UInt8) : Bool :=
  b < 128 && ((Char.ofNat b.toNat).isAlphanum || [42, 45, 46, 95].elem b)

/-- A byte of a name or value, written out. -/
def encodeByte (b : UInt8) : Bytes :=
  if b = 32 then [43]
  else if plain b then [b]
  else [37, hexDigit (b.toNat / 16), hexDigit (b.toNat % 16)]

/-- A name or value, written out. -/
def encode (s : String) : Bytes := (asBytes s).flatMap encodeByte

/-- A pair, written out. -/
def encodePair (e : String × String) : Bytes := encode e.1 ++ 61 :: encode e.2

/-- The pairs, written out. -/
def encodeAll : List (String × String) → Bytes
  | [] => []
  | [e] => encodePair e
  | e :: l => encodePair e ++ 38 :: encodeAll l

/-- The bytes with `%XX` replaced by what it stands for. -/
def percentDecode : Bytes → Bytes
  | b :: h :: l :: t =>
    if b = 37 then
      match hexValue h, hexValue l with
      | some x, some y => UInt8.ofNat (16 * x + y) :: percentDecode t
      | _, _ => b :: percentDecode (h :: l :: t)
    else b :: percentDecode (h :: l :: t)
  | b :: t => b :: percentDecode t
  | [] => []

/-- Read a name or value. -/
def decode (b : Bytes) : String :=
  fromUtf8Lossy (percentDecode (b.map fun x => if x = 43 then 32 else x))

/-- Read a pair: the name ends at the first `=`. -/
def decodePair (b : Bytes) : String × String :=
  (decode (b.takeWhile (· ≠ 61)), decode ((b.dropWhile (· ≠ 61)).drop 1))

/-- Reading and writing as the URL standard has it. -/
def reference : Form where
  parse b := ((splitList 38 b).filter (· ≠ [])).map decodePair
  serialize l := String.ofList ((encodeAll l).map fun b => Char.ofNat b.toNat)

/-! ### What is written -/

/-- A byte of a serialized form. -/
def formByte (b : UInt8) : Bool := b < 128 && formChar (Char.ofNat b.toNat)

theorem hexDigit_spec : ∀ n < 16, hexValue (hexDigit n) = some n ∧
    formByte (hexDigit n) = true ∧ hexDigit n ≠ 38 ∧ hexDigit n ≠ 61 ∧ hexDigit n ≠ 43 := by
  decide

theorem plain_spec {b : UInt8} (h : plain b = true) :
    formByte b = true ∧ b ≠ 38 ∧ b ≠ 61 ∧ b ≠ 43 ∧ b ≠ 37 := by
  refine ⟨?_, ?_, ?_, ?_, ?_⟩
  · simp only [plain, Bool.and_eq_true, Bool.or_eq_true] at h
    simp only [formByte, formChar, Bool.and_eq_true, Bool.or_eq_true]
    refine ⟨h.1, h.2.imp_right fun hb => ?_⟩
    simp only [List.elem_eq_mem, List.mem_cons, List.not_mem_nil, or_false,
      decide_eq_true_eq] at hb
    rcases hb with rfl | rfl | rfl | rfl <;> decide
  all_goals rintro rfl; revert h; decide

theorem formByte_encodeByte {b c : UInt8} (h : c ∈ encodeByte b) :
    formByte c = true ∧ c ≠ 38 ∧ c ≠ 61 := by
  have hb : b.toNat < 256 := b.toNat_lt
  rw [encodeByte] at h
  split_ifs at h with h1 h2
  · obtain rfl := List.mem_singleton.mp h
    decide
  · obtain rfl := List.mem_singleton.mp h
    obtain ⟨h3, h4, h5, -⟩ := plain_spec h2
    exact ⟨h3, h4, h5⟩
  · simp only [List.mem_cons, List.not_mem_nil, or_false] at h
    rcases h with rfl | rfl | rfl
    · decide
    · obtain ⟨-, h3, h4, h5, -⟩ := hexDigit_spec (b.toNat / 16) (by omega)
      exact ⟨h3, h4, h5⟩
    · obtain ⟨-, h3, h4, h5, -⟩ := hexDigit_spec (b.toNat % 16) (by omega)
      exact ⟨h3, h4, h5⟩

theorem formByte_encode {s : String} {c : UInt8} (h : c ∈ encode s) :
    formByte c = true ∧ c ≠ 38 ∧ c ≠ 61 := by
  obtain ⟨b, -, hc⟩ := List.mem_flatMap.mp h
  exact formByte_encodeByte hc

theorem formByte_encodePair {e : String × String} {c : UInt8} (h : c ∈ encodePair e) :
    formByte c = true ∧ c ≠ 38 := by
  rw [encodePair, List.mem_append, List.mem_cons] at h
  rcases h with h | rfl | h
  · exact ⟨(formByte_encode h).1, (formByte_encode h).2.1⟩
  · decide
  · exact ⟨(formByte_encode h).1, (formByte_encode h).2.1⟩

theorem formByte_encodeAll {l : List (String × String)} {c : UInt8} (h : c ∈ encodeAll l) :
    formByte c = true := by
  induction l with
  | nil => simp [encodeAll] at h
  | cons e l ih =>
    cases l with
    | nil => exact (formByte_encodePair h).1
    | cons e' l =>
      rw [encodeAll, List.mem_append, List.mem_cons] at h
      · rcases h with h | rfl | h
        · exact (formByte_encodePair h).1
        · decide
        · exact ih h
      · simp

/-- Bytes below 128 are the bytes of their characters. -/
theorem asBytes_ofList_map {b : Bytes} (h : ∀ c ∈ b, c < 128) :
    asBytes (String.ofList (b.map fun c => Char.ofNat c.toNat)) = b := by
  rw [asBytes, String.toList_ofList, List.flatMap_map]
  induction b with
  | nil => rfl
  | cons c b ih =>
    have hc : c.toNat < 128 := UInt8.lt_iff_toNat_lt.mp (h c List.mem_cons_self)
    have hn : (Char.ofNat c.toNat).toNat = c.toNat := by
      have hv : c.toNat.isValidChar := Or.inl (by omega)
      rw [Char.ofNat, dif_pos hv]
      rfl
    rw [List.flatMap_cons, ih fun d hd => h d (List.mem_cons_of_mem _ hd)]
    rcases utf8EncodeChar_cases (Char.ofNat c.toNat) with ⟨-, h2⟩ | ⟨h1, -⟩
    · rw [h2, hn, UInt8.ofNat_toNat]
      rfl
    · omega

theorem asBytes_serialize (l : List (String × String)) :
    asBytes (reference.serialize l) = encodeAll l := by
  refine asBytes_ofList_map fun c hc => ?_
  have := formByte_encodeAll hc
  rw [formByte, Bool.and_eq_true, decide_eq_true_eq] at this
  exact this.1

/-! ### Reading it back -/

theorem percentDecode_cons {b : UInt8} (h : b ≠ 37) (t : Bytes) :
    percentDecode (b :: t) = b :: percentDecode t := by
  match t with
  | [] => rfl
  | [_] => rfl
  | _ :: _ :: _ => rw [percentDecode, if_neg h]

theorem decode_encodeByte (b : UInt8) (t : Bytes) :
    percentDecode ((encodeByte b ++ t).map fun x => if x = 43 then 32 else x) =
      b :: percentDecode (t.map fun x => if x = 43 then 32 else x) := by
  have hb : b.toNat < 256 := b.toNat_lt
  rw [encodeByte]
  split_ifs with h1 h2
  · subst h1
    rw [List.singleton_append, List.map_cons, if_pos rfl, percentDecode_cons (by decide)]
  · obtain ⟨-, -, -, h3, h4⟩ := plain_spec h2
    rw [List.singleton_append, List.map_cons, if_neg h3, percentDecode_cons h4]
  · obtain ⟨hx, -, -, -, hx'⟩ := hexDigit_spec (b.toNat / 16) (by omega)
    obtain ⟨hy, -, -, -, hy'⟩ := hexDigit_spec (b.toNat % 16) (by omega)
    rw [List.cons_append, List.cons_append, List.singleton_append, List.map_cons, List.map_cons,
      List.map_cons, if_neg (by decide), if_neg hx', if_neg hy', percentDecode, if_pos rfl]
    simp only [hx, hy]
    rw [Nat.div_add_mod, UInt8.ofNat_toNat]

@[simp] theorem decode_encode (s : String) : decode (encode s) = s := by
  have h : ∀ b : Bytes, percentDecode ((b.flatMap encodeByte).map fun x => if x = 43 then 32 else x)
      = b := by
    intro b
    induction b with
    | nil => rfl
    | cons c b ih => rw [List.flatMap_cons, decode_encodeByte, ih]
  rw [decode, encode, h, fromUtf8Lossy_asBytes]

theorem decodePair_encodePair (e : String × String) : decodePair (encodePair e) = e := by
  have h : ∀ c ∈ encode e.1, decide (c ≠ 61) = true := fun c hc =>
    decide_eq_true (formByte_encode hc).2.2
  rw [decodePair, encodePair, List.takeWhile_append_of_pos h, List.dropWhile_append_of_pos h]
  simp

theorem encodePair_ne_nil (e : String × String) : encodePair e ≠ [] := by
  simp [encodePair]

theorem parse_encodeAll (l : List (String × String)) : reference.parse (encodeAll l) = l := by
  show ((splitList 38 (encodeAll l)).filter (· ≠ [])).map decodePair = l
  induction l with
  | nil => rfl
  | cons e l ih =>
    have h38 : 38 ∉ encodePair e := fun h => (formByte_encodePair h).2 rfl
    cases l with
    | nil =>
      rw [encodeAll, splitList_of_not_mem h38]
      simp [decodePair_encodePair, encodePair_ne_nil]
    | cons e' l =>
      have hf : (encodePair e :: splitList 38 (encodeAll (e' :: l))).filter (· ≠ []) =
          encodePair e :: (splitList 38 (encodeAll (e' :: l))).filter (· ≠ []) :=
        List.filter_cons_of_pos (decide_eq_true (encodePair_ne_nil e))
      rw [encodeAll, splitList_append h38, hf, List.map_cons, ih, decodePair_encodePair]
      simp

/-- **The algorithm of the URL standard reads back what it writes.** -/
theorem reference_lawful : reference.Lawful where
  parse_serialize l := by rw [asBytes_serialize, parse_encodeAll]
  serialize_chars l c hc := by
    rw [reference, String.toList_ofList] at hc
    obtain ⟨b, hb, rfl⟩ := List.mem_map.mp hc
    have := formByte_encodeAll hb
    rw [formByte, Bool.and_eq_true] at this
    exact this.2
  mem_serialize l hl := by
    rw [reference, String.toList_ofList]
    refine List.mem_map.mpr ⟨61, ?_, rfl⟩
    match l with
    | [] => exact absurd rfl hl
    | [e] => simp [encodeAll, encodePair]
    | e :: _ :: _ => simp [encodeAll, encodePair]

end Form
