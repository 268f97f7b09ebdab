import Mathlib.Data.List.Chain
import Mathlib.Data.List.TakeWhile
import Onair.Lib.Json.RoundTrip

/-!
# Lines of JSON texts

White space between tokens may break a text into lines, but a line begins with white space or with a
token, and no token begins with `d` or `e`.

* `Codec.LawfulText`: what is relied on about texts that are not printed;
* `FieldFree`, `read_fieldFree`: **no line of a text that is read begins with `d` or `e`**;
* `reference_lawfulText`: the reference codec is lawful.
-/

namespace Json

open Text

/-- What is relied on, besides, about texts: only a text whose first byte after white space is `[`
is an array, and no line of a text begins with `d` or `e`, so that none begins with `data:` or
`event:`. -/
structure Codec.LawfulText (c : Codec) : Prop extends c.Lawful where
  array_head : ∀ b vs, c.fromSlice b = some (.array vs) →
    (b.find? fun x => x ≠ 32 ∧ x ≠ 9 ∧ x ≠ 10 ∧ x ≠ 13) = some 91
  no_field : ∀ b v, c.fromSlice b = some v →
    (10 :: b).IsChain fun x y => x = 10 → y ≠ 100 ∧ y ≠ 101

/-! ### Lines -/

/-- After a line break there is no `d` and no `e`. -/
def LineStart (a b : Char) : Prop := a = '\n' → b ≠ 'd' ∧ b ≠ 'e'

/-- No line but the first begins with `d` or `e`. -/
def FieldFree (cs : List Char) : Prop := cs.IsChain LineStart

/-- No line begins with `d` or `e`. -/
def AllFieldFree (cs : List Char) : Prop := FieldFree ('\n' :: cs)

theorem AllFieldFree.fieldFree {cs : List Char} (h : AllFieldFree cs) : FieldFree cs := h.tail

theorem FieldFree.cons {c : Char} {cs : List Char} (h : FieldFree cs) (hc : c ≠ '\n') :
    FieldFree (c :: cs) :=
  List.IsChain.cons h fun _ _ hn => absurd hn hc

theorem FieldFree.append {p cs : List Char} (h : FieldFree cs) (hp : ∀ c ∈ p, c ≠ '\n') :
    FieldFree (p ++ cs) := by
  induction p with
  | nil => exact h
  | cons c p ih =>
    rw [List.forall_mem_cons] at hp
    exact (ih hp.2).cons hp.1

/-- A token that begins with another character may begin a line. -/
theorem FieldFree.all {c : Char} {cs : List Char} (h : FieldFree (c :: cs)) (hd : c ≠ 'd')
    (he : c ≠ 'e') : AllFieldFree (c :: cs) := by
  refine List.IsChain.cons h fun y hy _ => ?_
  obtain rfl : c = y := by simpa using hy
  exact ⟨hd, he⟩

theorem AllFieldFree.of_dropWhile {cs : List Char} (h : AllFieldFree (cs.dropWhile isSpace)) :
    AllFieldFree cs := by
  induction cs with
  | nil => exact h
  | cons c cs ih =>
    by_cases hc : isSpace c = true
    · rw [List.dropWhile_cons_of_pos hc] at h
      refine FieldFree.all ?_ ?_ ?_
      · by_cases hn : c = '\n'
        · rw [hn]
          exact ih h
        · exact (ih h).fieldFree.cons hn
      · rintro rfl
        exact absurd hc (by decide)
      · rintro rfl
        exact absurd hc (by decide)
    · rwa [List.dropWhile_cons_of_neg hc] at h

theorem AllFieldFree.of_token {cs cs' : List Char} {c : Char}
    (h : cs.dropWhile isSpace = c :: cs') (hrest : FieldFree cs') (hd : c ≠ 'd') (he : c ≠ 'e')
    (hn : c ≠ '\n') : AllFieldFree cs := by
  refine AllFieldFree.of_dropWhile ?_
  rw [h]
  exact (hrest.cons hn).all hd he

theorem allFieldFree_spaces {cs : List Char} (h : cs.all isSpace = true) : AllFieldFree cs := by
  refine AllFieldFree.of_dropWhile ?_
  rw [List.dropWhile_eq_nil_iff.mpr fun c hc => List.all_eq_true.mp h c hc]
  exact List.isChain_singleton _

/-! ### Tokens -/

theorem fieldFree_stripPrefix {p cs r : List Char} (h : stripPrefix p cs = some r)
    (hp : ∀ c ∈ p, c ≠ '\n') (hr : FieldFree r) : FieldFree cs := by
  rw [stripPrefix_eq_some.mp h]
  exact hr.append hp

theorem charStep_newline (st : CharState) : charStep st '\n' = none := by
  cases st <;> rfl

theorem readChars_fieldFree {st : CharState} {cs : List Char} {r : List Char × List Char}
    (h : readChars st cs = some r) (hr : FieldFree r.2) : FieldFree cs := by
  induction cs generalizing st r with
  | nil => exact List.isChain_nil
  | cons c cs ih =>
    rw [readChars] at h
    split_ifs at h with hquote
    · obtain rfl := Option.some.inj h
      refine FieldFree.cons hr ?_
      rintro rfl
      simp at hquote
    · obtain ⟨step, hstep, h⟩ := Option.bind_eq_some_iff.mp h
      obtain ⟨p, hp, rfl⟩ := Option.map_eq_some_iff.mp h
      refine (ih hp hr).cons ?_
      rintro rfl
      rw [charStep_newline] at hstep
      cases hstep

theorem digits_ne {cs : List Char} : ∀ c ∈ (spanDigits cs).1, c ≠ '\n' := by
  intro c hc
  have hdigit := List.mem_takeWhile_imp hc
  rintro rfl
  exact absurd hdigit (by decide)

theorem fieldFree_spanDigits {cs : List Char} (h : FieldFree (spanDigits cs).2) : FieldFree cs := by
  have hdigits : ∀ c ∈ (spanDigits cs).1, c ≠ '\n' := digits_ne
  have happend := h.append hdigits
  rwa [spanDigits, List.takeWhile_append_dropWhile] at happend

theorem fieldFree_readMinus {cs : List Char} (h : FieldFree (readMinus cs).2) : FieldFree cs := by
  cases cs with
  | nil => exact h
  | cons c cs =>
    rw [readMinus] at h
    split_ifs at h with hc
    · exact h.cons (by rw [hc]; decide)
    · exact h

theorem fieldFree_readSign {cs : List Char} (h : FieldFree (readSign cs).2) : FieldFree cs := by
  cases cs with
  | nil => exact h
  | cons c cs =>
    rw [readSign] at h
    split_ifs at h with hc hc'
    · exact h.cons (by rw [hc]; decide)
    · exact h.cons (by rw [hc']; decide)
    · exact h

theorem fieldFree_readFraction {cs : List Char} {r : Option (List Char) × List Char}
    (h : readFraction cs = some r) (hr : FieldFree r.2) : FieldFree cs := by
  cases cs with
  | nil => exact List.isChain_nil
  | cons c cs =>
    rw [readFraction] at h
    split_ifs at h with hc
    · dsimp only at h
      split_ifs at h
      obtain rfl := Option.some.inj h
      exact (fieldFree_spanDigits hr).cons (by rw [hc]; decide)
    · obtain rfl := Option.some.inj h
      exact hr

theorem fieldFree_readExponent {cs : List Char} {r : Option ℤ × List Char}
    (h : readExponent cs = some r) (hr : FieldFree r.2) : FieldFree cs := by
  cases cs with
  | nil => exact List.isChain_nil
  | cons c cs =>
    rw [readExponent] at h
    split_ifs at h with hc
    · dsimp only at h
      have hrest : FieldFree (spanDigits (readSign cs).2).2 := by
        split_ifs at h
        all_goals
          obtain rfl := Option.some.inj h
          exact hr
      refine (fieldFree_readSign (fieldFree_spanDigits hrest)).cons ?_
      rintro rfl
      exact absurd hc (by decide)
    · obtain rfl := Option.some.inj h
      exact hr

theorem readNumber_fieldFree {cs : List Char} {r : Number × List Char} (h : readNumber cs = some r)
    (hr : FieldFree r.2) : FieldFree cs := by
  unfold readNumber at h
  dsimp only at h
  split_ifs at h
  obtain ⟨f, hf, h⟩ := Option.bind_eq_some_iff.mp h
  obtain ⟨e, he, rfl⟩ := Option.map_eq_some_iff.mp h
  exact fieldFree_readMinus (fieldFree_spanDigits
    (fieldFree_readFraction hf (fieldFree_readExponent he hr)))

theorem readNumber_head {c : Char} {cs : List Char} (h : (readNumber (c :: cs)).isSome = true) :
    c ≠ 'd' ∧ c ≠ 'e' := by
  constructor
  · rintro rfl
    simp [readNumber, readMinus, spanDigits] at h
  · rintro rfl
    simp [readNumber, readMinus, spanDigits] at h

/-! ### Texts -/

/-- **No line of a text that is read begins with `d` or `e`**, by induction on the number of
steps. -/
theorem read_fieldFree (n : ℕ) :
    (∀ d cs r, readValue n d cs = some r → FieldFree r.2 → AllFieldFree cs) ∧
    (∀ d cs r, readTail n d cs = some r → FieldFree r.2 → AllFieldFree cs) ∧
    (∀ d cs r, readEntry n d cs = some r → FieldFree r.2 → AllFieldFree cs) ∧
    (∀ d cs r, readEntries n d cs = some r → FieldFree r.2 → AllFieldFree cs) := by
  induction n with
  | zero =>
    refine ⟨?_, ?_, ?_, ?_⟩
    all_goals
      intro d cs r h
      first
        | exact absurd h (by simp [readValue])
        | exact absurd h (by simp [readTail])
        | exact absurd h (by simp [readEntry])
        | exact absurd h (by simp [readEntries])
  | succ n ih =>
    obtain ⟨ihv, iht, ihe, ihes⟩ := ih
    refine ⟨?_, ?_, ?_, ?_⟩
    · intro d cs r h hr
      rw [readValue] at h
      cases hcs : cs.dropWhile isSpace with
      | nil =>
        rw [hcs] at h
        cases h
      | cons c cs' =>
        rw [hcs] at h
        dsimp only at h
        have htoken (hrest : FieldFree cs') (hd : c ≠ 'd') (he : c ≠ 'e') (hn : c ≠ '\n') :
            AllFieldFree cs := AllFieldFree.of_token hcs hrest hd he hn
        have hempty {x : Char} (hx : (cs'.dropWhile isSpace).head? = some x)
            (htail : FieldFree (cs'.dropWhile isSpace).tail) (hd : x ≠ 'd') (he : x ≠ 'e')
            (hn : x ≠ '\n') : FieldFree cs' := by
          cases hcs' : cs'.dropWhile isSpace with
          | nil =>
            rw [hcs'] at hx
            cases hx
          | cons y cs'' =>
            rw [hcs'] at hx htail
            obtain rfl : y = x := by simpa using hx
            exact (AllFieldFree.of_token hcs' htail hd he hn).fieldFree
        split_ifs at h with h1 h2 h3 h4 h5 h6 h7 h8 h9 h10
        · obtain ⟨s, hs, rfl⟩ := Option.map_eq_some_iff.mp h
          subst h1
          exact htoken (fieldFree_stripPrefix hs (by simp) hr) (by decide) (by decide) (by decide)
        · obtain ⟨s, hs, rfl⟩ := Option.map_eq_some_iff.mp h
          subst h2
          exact htoken (fieldFree_stripPrefix hs (by simp) hr) (by decide) (by decide) (by decide)
        · obtain ⟨s, hs, rfl⟩ := Option.map_eq_some_iff.mp h
          subst h3
          exact htoken (fieldFree_stripPrefix hs (by simp) hr) (by decide) (by decide) (by decide)
        · obtain ⟨s, hs, rfl⟩ := Option.map_eq_some_iff.mp h
          subst h4
          exact htoken (readChars_fieldFree hs hr) (by decide) (by decide) (by decide)
        · obtain rfl := Option.some.inj h
          subst h5
          exact htoken (hempty h7 hr (by decide) (by decide) (by decide)) (by decide) (by decide)
            (by decide)
        · obtain ⟨p, hp, h⟩ := Option.bind_eq_some_iff.mp h
          obtain ⟨q, hq, rfl⟩ := Option.map_eq_some_iff.mp h
          subst h5
          exact htoken (ihv _ _ _ hp (iht _ _ _ hq hr).fieldFree).fieldFree (by decide) (by decide)
            (by decide)
        · obtain rfl := Option.some.inj h
          subst h8
          exact htoken (hempty h10 hr (by decide) (by decide) (by decide)) (by decide) (by decide)
            (by decide)
        · obtain ⟨p, hp, h⟩ := Option.bind_eq_some_iff.mp h
          obtain ⟨q, hq, rfl⟩ := Option.map_eq_some_iff.mp h
          subst h8
          exact htoken (ihe _ _ _ hp (ihes _ _ _ hq hr).fieldFree).fieldFree (by decide) (by decide)
            (by decide)
        · obtain ⟨s, hs, rfl⟩ := Option.map_eq_some_iff.mp h
          obtain ⟨hd, he⟩ := readNumber_head (Option.isSome_of_eq_some hs)
          refine AllFieldFree.of_dropWhile ?_
          rw [hcs]
          exact (readNumber_fieldFree hs hr).all hd he
    · intro d cs r h hr
      rw [readTail] at h
      cases hcs : cs.dropWhile isSpace with
      | nil =>
        rw [hcs] at h
        cases h
      | cons c cs' =>
        rw [hcs] at h
        dsimp only at h
        split_ifs at h with h1 h2
        · obtain rfl := Option.some.inj h
          subst h1
          exact AllFieldFree.of_token hcs hr (by decide) (by decide) (by decide)
        · obtain ⟨p, hp, h⟩ := Option.bind_eq_some_iff.mp h
          obtain ⟨q, hq, rfl⟩ := Option.map_eq_some_iff.mp h
          subst h2
          exact AllFieldFree.of_token hcs (ihv _ _ _ hp (iht _ _ _ hq hr).fieldFree).fieldFree
            (by decide) (by decide) (by decide)
    · intro d cs r h hr
      rw [readEntry] at h
      cases hcs : cs.dropWhile isSpace with
      | nil =>
        rw [hcs] at h
        cases h
      | cons c cs' =>
        rw [hcs] at h
        dsimp only at h
        split_ifs at h with h1
        obtain ⟨p, hp, h⟩ := Option.bind_eq_some_iff.mp h
        split_ifs at h with hcolon
        obtain ⟨q, hq, rfl⟩ := Option.map_eq_some_iff.mp h
        have hvalue := (ihv _ _ _ hq hr).fieldFree
        have hrest : FieldFree p.2 := by
          cases hp2 : p.2.dropWhile isSpace with
          | nil =>
            rw [hp2] at hcolon
            cases hcolon
          | cons y rest =>
            rw [hp2] at hcolon hvalue
            obtain rfl : y = ':' := by simpa using hcolon
            exact (AllFieldFree.of_token hp2 hvalue (by decide) (by decide) (by decide)).fieldFree
        subst h1
        exact AllFieldFree.of_token hcs (readChars_fieldFree hp hrest) (by decide) (by decide)
          (by decide)
    · intro d cs r h hr
      rw [readEntries] at h
      cases hcs : cs.dropWhile isSpace with
      | nil =>
        rw [hcs] at h
        cases h
      | cons c cs' =>
        rw [hcs] at h
        dsimp only at h
        split_ifs at h with h1 h2
        · obtain rfl := Option.some.inj h
          subst h1
          exact AllFieldFree.of_token hcs hr (by decide) (by decide) (by decide)
        · obtain ⟨p, hp, h⟩ := Option.bind_eq_some_iff.mp h
          obtain ⟨q, hq, rfl⟩ := Option.map_eq_some_iff.mp h
          subst h2
          exact AllFieldFree.of_token hcs (ihe _ _ _ hp (ihes _ _ _ hq hr).fieldFree).fieldFree
            (by decide) (by decide) (by decide)

theorem readText_fieldFree {cs : List Char} {v : Value} (h : readText cs = some v) :
    AllFieldFree cs := by
  obtain ⟨r, hr, h⟩ := Option.bind_eq_some_iff.mp h
  split_ifs at h with hspaces
  exact (read_fieldFree _).1 _ _ _ hr (allFieldFree_spaces hspaces).fieldFree

/-- The same of the bytes of a text, after a byte that is no line break unless it is that of one. -/
theorem isChain_flatMap {a : Char} {x : UInt8} {cs : List Char} (ha : x = 10 → a = '\n')
    (h : FieldFree (a :: cs)) :
    (x :: cs.flatMap String.utf8EncodeChar).IsChain fun x y => x = 10 → y ≠ 100 ∧ y ≠ 101 := by
  induction cs generalizing a x with
  | nil => exact List.isChain_singleton _
  | cons c cs ih =>
    have hrel := h.rel_head? (by simp : c ∈ (c :: cs).head?)
    rw [List.flatMap_cons]
    rcases utf8EncodeChar_cases c with ⟨hc, henc⟩ | ⟨hc, hall⟩
    · have hbyte : ∀ n < 128, UInt8.ofNat c.toNat = UInt8.ofNat n → c = Char.ofNat n := by
        intro n hn heq
        have hnat := congrArg UInt8.toNat heq
        rw [UInt8.toNat_ofNat', UInt8.toNat_ofNat', Nat.mod_eq_of_lt (by omega),
          Nat.mod_eq_of_lt (by omega)] at hnat
        rw [← hnat, Char.ofNat_toNat]
      rw [henc, List.singleton_append]
      refine List.IsChain.cons (ih (fun hx => hbyte 10 (by decide) hx) h.tail) fun y hy hx => ?_
      obtain rfl : UInt8.ofNat c.toNat = y := by simpa using hy
      obtain ⟨hd, he⟩ := hrel (ha hx)
      exact ⟨fun hy => hd (hbyte 100 (by decide) hy), fun hy => he (hbyte 101 (by decide) hy)⟩
    · -- The bytes of any other character are all large.
      have hlarge : ∀ bs : Bytes, (∀ b ∈ bs, 128 ≤ b.toNat) → ∀ x : UInt8, bs ≠ [] ∨ x ≠ 10 →
          (x :: (bs ++ cs.flatMap String.utf8EncodeChar)).IsChain
            fun x y => x = 10 → y ≠ 100 ∧ y ≠ 101 := by
        intro bs
        induction bs with
        | nil =>
          intro _ x hx
          have hx := hx.resolve_left (by simp)
          exact ih (fun heq => absurd heq hx) h.tail
        | cons b bs ihb =>
          intro hbs x _
          rw [List.forall_mem_cons] at hbs
          have hb : b ≠ 10 ∧ b ≠ 100 ∧ b ≠ 101 := by
            refine ⟨?_, ?_, ?_⟩ <;> rintro rfl <;> exact absurd hbs.1 (by decide)
          refine List.IsChain.cons (ihb hbs.2 b (Or.inr hb.1)) fun y hy _ => ?_
          obtain rfl : b = y := by simpa using hy
          exact hb.2
      exact hlarge _ hall x (Or.inl String.utf8EncodeChar_ne_nil)

theorem array_of_readText {cs : List Char} {vs : List Value}
    (h : readText cs = some (.array vs)) : (cs.dropWhile isSpace).head? = some '[' := by
  obtain ⟨r, hr, h⟩ := Option.bind_eq_some_iff.mp h
  split_ifs at h
  have harray : r.1 = .array vs := Option.some.inj h
  rw [readValue] at hr
  cases hcs : cs.dropWhile isSpace with
  | nil => rw [hcs] at hr; exact absurd hr (by simp)
  | cons c cs' =>
    rw [hcs] at hr
    dsimp only at hr
    by_cases hc : c = '['
    · rw [hc]
      rfl
    · rw [if_neg hc] at hr
      split_ifs at hr
      all_goals first
        | (obtain ⟨p, -, rfl⟩ := Option.map_eq_some_iff.mp hr; exact absurd harray (by simp))
        | (obtain rfl := Option.some.inj hr; exact absurd harray (by simp))
        | (obtain ⟨p, -, hr⟩ := Option.bind_eq_some_iff.mp hr
           obtain ⟨q, -, rfl⟩ := Option.map_eq_some_iff.mp hr
           exact absurd harray (by simp [Value.obj]))

/-- **The reference codec is lawful**, also on texts that are not printed. -/
theorem reference_lawfulText : reference.LawfulText where
  toLawful := reference_lawful
  array_head := by
    intro b vs h
    obtain ⟨s, hs, h⟩ := Option.bind_eq_some_iff.mp h
    rw [fromUtf8_eq_some.mp hs, find_asBytes (array_of_readText h) (by decide)]
    rfl
  no_field := by
    intro b v h
    obtain ⟨s, hs, h⟩ := Option.bind_eq_some_iff.mp h
    rw [fromUtf8_eq_some.mp hs, asBytes]
    exact isChain_flatMap (fun _ => rfl) (readText_fieldFree h)

end Json
