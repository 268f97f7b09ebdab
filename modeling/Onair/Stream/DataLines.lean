import Onair.Stream.Printed

/-!
# Lines that carry JSON

* `cutLines`: the lines of a byte string, the last of which may have no line ending;
* `Codec.LawfulLine`: what is relied on about a printer whose texts stand on lines;
* `JsonLine`: a `data:` line with a JSON value, as the parser reads it (`parseSseLine_eq_data`);
* **`jsonLine_written`**: a line with another value has the same space and line ending.
-/

namespace Json

open Text

/-- What is relied on besides about texts that stand on lines: `[DONE]` is no JSON, and no text
that is printed begins with a blank. -/
structure Codec.LawfulLine (c : Codec) : Prop extends c.Lawful where
  done_unread : c.fromSlice (asBytes "[DONE]") = none
  print_no_blank : ∀ v, (c.toVec v).head? ≠ some 32

theorem reference_lawfulLine : reference.LawfulLine where
  toLawful := reference_lawful
  done_unread := by decide +kernel
  print_no_blank v := by
    intro hhead
    obtain ⟨rest, hrest⟩ := List.head?_eq_some_iff.mp hhead
    have hprefix : asBytes " " <+: asBytes (String.ofList (printValue v)) := ⟨rest, hrest.symm⟩
    obtain ⟨cs, hcs⟩ := prefix_of_asBytes (by simp) hprefix
    obtain ⟨c, cs', hprint, hspace, -⟩ := printValue_head v
    have hchars := hcs.trans (String.toList_ofList.trans hprint)
    obtain rfl : ' ' = c := (List.cons.inj hchars).1
    exact nomatch hspace

end Json

namespace Onair

open Json Text Lines

/-! ### Cutting into lines -/

/-- The lines of a byte string, each with its line ending. -/
def cutLines (b : Bytes) : List Bytes :=
  (drainLines b).1 ++ if (drainLines b).2 = [] then [] else [(drainLines b).2]

theorem frames_eq_cutLines (c : Codec) (b : Bytes) :
    frames c b = (cutLines b).map (parseSseLine c) := by
  unfold frames lineFrames tailFrames cutLines
  rw [List.map_append]
  split_ifs
  · rfl
  · rfl

/-- Lines, and perhaps one more without a line ending. -/
def AreLines : List Bytes → Prop
  | [] => True
  | [l] => IsLine l ∨ l ≠ [] ∧ nl ∉ l
  | l :: ls => IsLine l ∧ AreLines ls

theorem areLines_cons_of_isLine {l : Bytes} (h : IsLine l) {ls : List Bytes} (hls : AreLines ls) :
    AreLines (l :: ls) := by
  cases ls with
  | nil => exact Or.inl h
  | cons l' ls => exact ⟨h, hls⟩

theorem areLines_append {ls : List Bytes} (h : ∀ l ∈ ls, IsLine l) {rest : List Bytes}
    (hrest : AreLines rest) : AreLines (ls ++ rest) := by
  induction ls with
  | nil => exact hrest
  | cons l ls ih =>
    rw [List.forall_mem_cons] at h
    exact areLines_cons_of_isLine h.1 (ih h.2)

theorem areLines_cutLines (b : Bytes) : AreLines (cutLines b) := by
  unfold cutLines
  refine areLines_append (drainLines_ends b) ?_
  split_ifs with hrest
  · trivial
  · exact Or.inr ⟨hrest, drainLines_rest b⟩

/-- **Lines are what their concatenation is cut into.** -/
theorem cutLines_of_areLines {ls : List Bytes} (h : AreLines ls) : cutLines ls.flatten = ls := by
  induction ls with
  | nil => rfl
  | cons l ls ih =>
    have hcons : IsLine l → AreLines ls → cutLines (l :: ls).flatten = l :: ls := by
      intro hl hls
      have hrest := ih hls
      unfold cutLines at hrest ⊢
      rw [List.flatten_cons, hl.drain]
      dsimp only
      rw [List.cons_append, hrest]
    cases ls with
    | nil =>
      obtain hl | ⟨hne, hnl⟩ := h
      · exact hcons hl trivial
      · rw [List.flatten_singleton, cutLines, drainLines_of_not_mem hnl]
        dsimp only
        rw [if_neg hne, List.nil_append]
    | cons l' ls => exact hcons h.1 h.2

/-! ### Line endings -/

theorem lineContent_append_lineSuffix (line : Bytes) :
    lineContent line ++ lineSuffix line = line := by
  unfold lineContent lineSuffix
  dsimp only
  have hcut : ∀ (suffix b : Bytes), (stripSuffix suffix b).getD b ++
      (if (stripSuffix suffix b).isSome then suffix else []) = b := by
    intro suffix b
    cases hstrip : stripSuffix suffix b with
    | none => exact List.append_nil b
    | some rest => exact (stripSuffix_eq_some.mp hstrip).symm
  rw [← List.append_assoc, hcut, hcut]

theorem lineSuffix_mem (line : Bytes) :
    lineSuffix line ∈ [[], asBytes "\n", asBytes "\r", asBytes "\r" ++ asBytes "\n"] := by
  unfold lineSuffix
  dsimp only
  split_ifs
  · simp
  · simp
  · simp
  · simp

theorem lineContent_append {b suffix : Bytes} (hnl : 10 ∉ b) (hcr : 13 ∉ b)
    (hsuffix : suffix ∈ [[], asBytes "\n", asBytes "\r", asBytes "\r" ++ asBytes "\n"]) :
    lineContent (b ++ suffix) = b ∧ lineSuffix (b ++ suffix) = suffix := by
  have hnone : ∀ (x : UInt8) (a : Bytes), x ∉ a → stripSuffix [x] a = none := by
    intro x a hx
    rw [Option.eq_none_iff_forall_ne_some]
    intro r hr
    rw [stripSuffix_eq_some.mp hr] at hx
    exact hx (List.mem_append_right _ List.mem_cons_self)
  have hnewline : asBytes "\n" = [10] := rfl
  have hreturn : asBytes "\r" = [13] := rfl
  have hsome : ∀ (x : UInt8) (a : Bytes), stripSuffix [x] (a ++ [x]) = some a :=
    fun x a => stripSuffix_eq_some.mpr rfl
  rw [hnewline, hreturn] at hsuffix
  unfold lineContent lineSuffix
  rw [hnewline, hreturn]
  simp only [List.mem_cons, List.not_mem_nil, or_false] at hsuffix
  obtain rfl | rfl | rfl | rfl := hsuffix
  · simp [hnone, hnl, hcr]
  · simp [hnone, hsome, hcr]
  · have h10 : (10 : UInt8) ∉ b ++ [13] := by
      simpa using hnl
    simp [hnone, hsome, h10]
  · have hlast : stripSuffix [10] (b ++ [13, 10]) = some (b ++ [13]) :=
      stripSuffix_eq_some.mpr (by simp)
    simp [hlast, hsome]

/-! ### JSON on a line -/

/-- The blank after the colon, if there is one. -/
def blank (space : Bool) : Bytes := if space then asBytes " " else []

/-- **A `data:` line with a JSON value**: one blank after the colon may precede the text. -/
structure JsonLine (c : Codec) (line : Bytes) (space : Bool) (value : Value) : Prop where
  data : ∃ data, lineContent line = asBytes "data:" ++ blank space ++ data ∧
    data ≠ asBytes "[DONE]" ∧ c.fromSlice data = some value ∧
    (space = false → data.head? ≠ some 32)

section

variable {c : Codec} {line : Bytes} {space : Bool} {value : Value}

theorem utf8FieldValue_event (rest : Bytes) :
    utf8FieldValue (asBytes "data:" ++ rest) (asBytes "event:") = none := by
  have hdata : asBytes "data:" = [100, 97, 116, 97, 58] := by decide
  have hevent : asBytes "event:" = [101, 118, 101, 110, 116, 58] := by decide
  rw [hdata, hevent]
  rfl

theorem stripPrefix_blank (rest : Bytes) :
    (stripPrefix (asBytes " ") rest = none ∧ rest.head? ≠ some 32) ∨
      ∃ data, rest = asBytes " " ++ data := by
  have hblank : asBytes " " = [32] := rfl
  rw [hblank]
  cases rest with
  | nil => exact Or.inl ⟨rfl, by simp⟩
  | cons x data =>
    by_cases hx : x = 32
    · subst hx
      exact Or.inr ⟨data, rfl⟩
    · refine Or.inl ⟨?_, by simpa using hx⟩
      rw [stripPrefix, if_neg (Ne.symm hx)]

theorem stripPrefix_data_blank (rest : Bytes) :
    stripPrefix (asBytes "data: ") (asBytes "data:" ++ rest) = stripPrefix (asBytes " ") rest := by
  have hdata : asBytes "data:" = [100, 97, 116, 97, 58] := by decide
  have hdataBlank : asBytes "data: " = [100, 97, 116, 97, 58, 32] := by decide
  rw [hdata, hdataBlank]
  rfl

/-- What the parser takes for the text of a `data:` line, and whether a blank precedes it. -/
theorem sseFieldValue_data {content data : Bytes} (space : Bool) :
    (sseFieldValue content (asBytes "data:") = some data ∧
      (stripPrefix (asBytes "data: ") content).isSome = space) ↔
        content = asBytes "data:" ++ blank space ++ data ∧
          (space = false → data.head? ≠ some 32) := by
  unfold sseFieldValue
  constructor
  · rintro ⟨hfield, hspace⟩
    obtain ⟨rest, hrest, rfl⟩ := Option.map_eq_some_iff.mp hfield
    obtain rfl := stripPrefix_eq_some.mp hrest
    rw [stripPrefix_data_blank] at hspace
    obtain ⟨hnone, hhead⟩ | ⟨data, rfl⟩ := stripPrefix_blank rest
    · rw [hnone] at hspace ⊢
      subst hspace
      exact ⟨by simp [blank], fun _ => hhead⟩
    · rw [stripPrefix_append] at hspace ⊢
      subst hspace
      exact ⟨by simp [blank], fun h => nomatch h⟩
  · rintro ⟨rfl, hhead⟩
    rw [List.append_assoc, stripPrefix_append, stripPrefix_data_blank, Option.map_some]
    cases space with
    | true =>
      rw [blank, if_pos rfl, stripPrefix_append]
      exact ⟨rfl, rfl⟩
    | false =>
      rw [blank, if_neg (by decide), List.nil_append]
      obtain ⟨hnone, -⟩ | ⟨data', rfl⟩ := stripPrefix_blank data
      · rw [hnone]
        exact ⟨rfl, rfl⟩
      · exact absurd rfl (hhead rfl)

/-- **The parser finds the JSON on a line.** -/
theorem parseSseLine_eq_data :
    parseSseLine c line = .data value space line ↔ JsonLine c line space value := by
  constructor
  · intro h
    unfold parseSseLine at h
    dsimp only at h
    split at h
    · exact nomatch h
    · split at h
      · rename_i data hdata
        split_ifs at h with hdone
        split at h
        · rename_i read hread
          obtain ⟨rfl, hspace, -⟩ := SseFrame.data.inj h
          obtain ⟨hcontent, hblank⟩ := (sseFieldValue_data space).mp ⟨hdata, hspace⟩
          exact ⟨data, hcontent, hdone, hread, hblank⟩
        · exact nomatch h
      · exact nomatch h
  · rintro ⟨data, hcontent, hdone, hvalue, hblank⟩
    obtain ⟨hfield, hspace⟩ := (sseFieldValue_data space).mpr ⟨hcontent, hblank⟩
    unfold parseSseLine
    dsimp only
    rw [hfield, hspace, hcontent, List.append_assoc, utf8FieldValue_event]
    dsimp only
    rw [if_neg hdone, hvalue]

/-- The line with another value. -/
def writtenLine (c : Codec) (space : Bool) (value : Value) (suffix : Bytes) : Bytes :=
  asBytes "data:" ++ blank space ++ c.toVec value ++ suffix

/-- **A line with another value is read with the same space and line ending**, and with that value,
but for the last digits of its floating point numbers. -/
theorem jsonLine_written (hc : c.LawfulLine) (space : Bool) (hvalue : value.Fits maxDepth)
    (line : Bytes) :
    lineSuffix (writtenLine c space value (lineSuffix line)) = lineSuffix line ∧
      ∃ read, JsonLine c (writtenLine c space value (lineSuffix line)) space read ∧
        read.blur = value.blur := by
  have hbreak : ∀ x, x = 10 ∨ x = 13 → x ∉ asBytes "data:" ++ blank space ++ c.toVec value := by
    intro x hx hmem
    obtain hmem | hmem := List.mem_append.mp hmem
    · revert hmem
      obtain rfl | rfl := hx <;> cases space <;> decide
    · obtain rfl | rfl := hx
      · exact (hc.print_no_break value).1 hmem
      · exact (hc.print_no_break value).2 hmem
  obtain ⟨hcontent, hsuffix⟩ := lineContent_append (hbreak 10 (Or.inl rfl)) (hbreak 13 (Or.inr rfl))
    (lineSuffix_mem line)
  refine ⟨hsuffix, ?_⟩
  obtain ⟨read, hread⟩ := Option.isSome_iff_exists.mp (hc.read_print value hvalue.1 hvalue.2)
  refine ⟨read, ⟨c.toVec value, hcontent, ?_, hread, fun _ => hc.print_no_blank value⟩,
    hc.blur_read_print value read hvalue.1 hread⟩
  intro hdone
  rw [hdone, hc.done_unread] at hread
  exact nomatch hread

end

end Onair
