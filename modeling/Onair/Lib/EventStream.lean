import Onair.Lib.Mealy
import Onair.Lib.Search
import Onair.Lib.Text

/-!
# Event streams

The lines of an event stream are fields; a blank line ends a block of them. A text can also be cut
at every pair of line feeds, which gives frames of one block or several.

* `fieldValue`, `Fields`, `blockStep`, `blocks`: the blocks of a text, by the lines;
* `run_blank`, `blocks_blank`: after a blank line nothing is left over;
* `fields_step`, `field_run`: no field is lost;
* `frameStep`, `cutFrames`: the frames of a text, character by character;
* `cutFrames_append`, `cutFrames_clear`: a text may be cut piece by piece, and by searching for the
  first pair of line feeds;
* **`blocks_eq`**: the blocks of a text are those of its frames, and of what is left over.
-/

namespace EventStream

open Text

/-! ### Blocks -/

/-- The value of a field on a line, without a space before it. -/
def fieldValue (field line : String) : Option String :=
  (stripPrefix field.toList line.toList).map fun value =>
    String.ofList ((stripPrefix [' '] value).getD value)

/-- The names and the data of a block. -/
structure Fields where
  names : List String := []
  datas : List String := []
  deriving DecidableEq, Repr

/-- The event of a block: the last name, if there is one, and the lines of data. -/
def Fields.event (fields : Fields) : Option String × String :=
  (fields.names.getLast?, String.intercalate "\n" fields.datas)

/-- Read a line: a blank one ends the block, if there is anything in it. -/
def blockStep (fields : Fields) (line : String) : Fields × List Fields :=
  if line = "" then ({}, if fields = {} then [] else [fields])
  else
    match fieldValue "event:" line with
    | some name => ({ fields with names := fields.names ++ [name] }, [])
    | none =>
      match fieldValue "data:" line with
      | some data => ({ fields with datas := fields.datas ++ [data] }, [])
      | none => (fields, [])

/-- The lines of a text, without their ends. -/
def textLines (text : List Char) : List String := lines (String.ofList text)

/-- The blocks of a text that a blank line ends. -/
def blocks (text : List Char) : List Fields := (Mealy.run blockStep {} (textLines text)).2

theorem fieldValue_data_of_event {line name : String} (h : fieldValue "event:" line = some name) :
    fieldValue "data:" line = none := by
  obtain ⟨value, hvalue, -⟩ := Option.map_eq_some_iff.mp h
  rw [fieldValue, stripPrefix_eq_some.mp hvalue]
  rfl

/-- A step leaves the fields of its block and its line. -/
theorem fields_step (fields : Fields) (line : String) :
    (blockStep fields line).2.flatMap Fields.names ++ (blockStep fields line).1.names =
        fields.names ++ (fieldValue "event:" line).toList ∧
      (blockStep fields line).2.flatMap Fields.datas ++ (blockStep fields line).1.datas =
        fields.datas ++ (fieldValue "data:" line).toList := by
  unfold blockStep
  split_ifs with hblank hempty
  · subst hblank
    subst hempty
    exact ⟨rfl, rfl⟩
  · subst hblank
    simp [fieldValue, stripPrefix]
  · cases hname : fieldValue "event:" line with
    | some name => simp [fieldValue_data_of_event hname]
    | none => cases hdata : fieldValue "data:" line <;> simp

theorem field_run {field : String} {get : Fields → List String}
    (hstep : ∀ fields line, (blockStep fields line).2.flatMap get ++ get (blockStep fields line).1 =
      get fields ++ (fieldValue field line).toList) (ls : List String) (fields : Fields) :
    (Mealy.run blockStep fields ls).2.flatMap get ++ get (Mealy.run blockStep fields ls).1 =
      get fields ++ ls.filterMap (fieldValue field) := by
  induction ls generalizing fields with
  | nil => simp
  | cons line ls ih =>
    have hcons : (line :: ls).filterMap (fieldValue field) =
        (fieldValue field line).toList ++ ls.filterMap (fieldValue field) := by
      rw [List.filterMap_cons]
      cases fieldValue field line <;> rfl
    rw [Mealy.run_cons, List.flatMap_append, List.append_assoc, ih, ← List.append_assoc, hstep,
      List.append_assoc, hcons]

theorem ne_empty_of_mem_run {ls : List String} {fields b : Fields}
    (h : b ∈ (Mealy.run blockStep fields ls).2) : b ≠ {} := by
  induction ls generalizing fields with
  | nil => cases h
  | cons line ls ih =>
    rw [Mealy.run_cons, List.mem_append] at h
    rcases h with h | h
    · unfold blockStep at h
      split_ifs at h with hblank hempty
      · cases h
      · obtain rfl := List.mem_singleton.mp h
        exact hempty
      · cases hname : fieldValue "event:" line with
        | some name => simp [hname] at h
        | none => cases hdata : fieldValue "data:" line <;> simp [hname, hdata] at h
    · exact ih h

/-! ### Line by line -/

theorem rawLines_line (a b : List Char) :
    rawLines (a ++ '\n' :: b) = rawLines (a ++ ['\n']) ++ rawLines b := by
  induction a with
  | nil => rfl
  | cons c a ih =>
    rw [List.cons_append, List.cons_append, rawLines, rawLines]
    split_ifs with hc
    · rw [ih, List.cons_append]
    · rw [ih]
      cases hl : rawLines (a ++ ['\n']) with
      | nil =>
        -- a text is made of its lines
        have hne : rawLines (a ++ ['\n']) ≠ [] := by
          cases a with
          | nil => simp [rawLines]
          | cons d a =>
            rw [List.cons_append, rawLines]
            split_ifs
            · simp
            · cases rawLines (a ++ ['\n']) <;> simp
        exact absurd hl hne
      | cons l ls => rfl

theorem textLines_line (a b : List Char) :
    textLines (a ++ '\n' :: b) = textLines (a ++ ['\n']) ++ textLines b := by
  simp only [textLines, lines, String.toList_ofList]
  rw [rawLines_line, List.map_append]

/-- **After a blank line nothing is left over.** -/
theorem run_blank (a : List Char) (fields : Fields) :
    (Mealy.run blockStep fields (textLines (a ++ ['\n', '\n']))).1 = {} := by
  have hblank : textLines ['\n'] = [""] := rfl
  have hframe : textLines (a ++ ['\n', '\n']) = textLines (a ++ ['\n']) ++ [""] := by
    rw [← hblank]
    exact textLines_line a ['\n']
  rw [hframe, Mealy.run_append, Mealy.run_singleton, blockStep, if_pos rfl]

theorem blocks_blank (a b : List Char) :
    blocks (a ++ ['\n', '\n'] ++ b) = blocks (a ++ ['\n', '\n']) ++ blocks b := by
  have hsplit : a ++ ['\n', '\n'] ++ b = (a ++ ['\n']) ++ '\n' :: b := by simp
  have hlines : textLines (a ++ ['\n', '\n'] ++ b) =
      textLines (a ++ ['\n', '\n']) ++ textLines b := by
    rw [hsplit, textLines_line, List.append_assoc]
    rfl
  rw [blocks, hlines, Mealy.run_append, run_blank]
  rfl

/-! ### Frames -/

/-- Read a character: the second of two line feeds ends the frame. -/
def frameStep (frame : List Char) (c : Char) : List Char × List (List Char) :=
  if frame.getLast? = some '\n' ∧ c = '\n' then ([], [frame ++ [c]]) else (frame ++ [c], [])

/-- The frames of a text, and what is left over. -/
def cutFrames (text : List Char) : List (List Char) × List Char :=
  ((Mealy.run frameStep [] text).2, (Mealy.run frameStep [] text).1)

theorem frameStep_flatten (text frame : List Char) :
    (Mealy.run frameStep frame text).2.flatten ++ (Mealy.run frameStep frame text).1 =
      frame ++ text := by
  induction text generalizing frame with
  | nil => simp
  | cons c text ih =>
    rw [Mealy.run_cons, List.flatten_append, List.append_assoc, ih, frameStep]
    split_ifs <;> simp

theorem frameStep_ends (text : List Char) {frame f : List Char}
    (hf : f ∈ (Mealy.run frameStep frame text).2) : ∃ a, f = a ++ ['\n', '\n'] := by
  induction text generalizing frame with
  | nil => cases hf
  | cons c text ih =>
    rw [Mealy.run_cons, List.mem_append] at hf
    rcases hf with hf | hf
    · unfold frameStep at hf
      split_ifs at hf with h
      · obtain rfl := List.mem_singleton.mp hf
        obtain ⟨a, rfl⟩ := List.getLast?_eq_some_iff.mp h.1
        exact ⟨a, by rw [h.2, List.append_assoc]; rfl⟩
      · cases hf
    · exact ih hf

/-- **The blocks of a text** are those of its frames, and of what is left over. -/
theorem blocks_eq (text : List Char) :
    blocks text = (cutFrames text).1.flatMap blocks ++ blocks (cutFrames text).2 := by
  have hflatten := frameStep_flatten text []
  have hends : ∀ f ∈ (Mealy.run frameStep [] text).2, ∃ a, f = a ++ ['\n', '\n'] :=
    fun f hf => frameStep_ends text hf
  have happend : ∀ (fs : List (List Char)) (rest : List Char),
      (∀ f ∈ fs, ∃ a, f = a ++ ['\n', '\n']) →
      blocks (fs.flatten ++ rest) = fs.flatMap blocks ++ blocks rest := by
    intro fs rest h
    induction fs with
    | nil => rfl
    | cons f fs ih =>
      obtain ⟨a, rfl⟩ := h f List.mem_cons_self
      rw [List.flatten_cons, List.append_assoc, blocks_blank, List.flatMap_cons, List.append_assoc,
        ih fun g hg => h g (List.mem_cons_of_mem _ hg)]
  rw [List.nil_append] at hflatten
  rw [cutFrames, ← happend _ _ hends, hflatten]

/-! ### Frames by search -/

/-- Two line feeds. -/
abbrev pair : List Char := ['\n', '\n']

theorem frameStep_of_not_infix {text frame : List Char} (h : ¬ pair <:+: frame ++ text) :
    Mealy.run frameStep frame text = (frame ++ text, []) := by
  induction text generalizing frame with
  | nil => simp
  | cons c text ih =>
    have hnot : ¬ (frame.getLast? = some '\n' ∧ c = '\n') := by
      rintro ⟨hlast, rfl⟩
      obtain ⟨a, rfl⟩ := List.getLast?_eq_some_iff.mp hlast
      exact h ⟨a, text, by simp⟩
    have hstep : frameStep frame c = (frame ++ [c], []) := if_neg hnot
    rw [Mealy.run_cons, hstep, ih (by simpa using h)]
    simp

theorem frameStep_rest (text : List Char) {frame : List Char} (h : ¬ pair <:+: frame) :
    ¬ pair <:+: (Mealy.run frameStep frame text).1 := by
  induction text generalizing frame with
  | nil => exact h
  | cons c text ih =>
    rw [Mealy.run_cons]
    refine ih ?_
    unfold frameStep
    split_ifs with hend
    · simp
    · rintro hinfix
      rcases List.infix_concat_iff.mp hinfix with hsuffix | hinfix
      · obtain ⟨a, ha⟩ := hsuffix
        have hsplit : (a ++ ['\n']) ++ ['\n'] = frame ++ [c] := by
          rw [← ha, List.append_assoc]
          rfl
        obtain ⟨rfl, hc⟩ := List.append_inj' hsplit rfl
        exact hend ⟨by simp, (List.cons.inj hc).1.symm⟩
      · exact h hinfix

theorem cutFrames_rest (text : List Char) :
    cutFrames (cutFrames text).2 = ([], (cutFrames text).2) := by
  have hrest : ¬ pair <:+: [] ++ (cutFrames text).2 := frameStep_rest text (by simp)
  have hrun := frameStep_of_not_infix hrest
  rw [cutFrames, hrun]
  rfl

/-- **A text may be cut piece by piece.** -/
theorem cutFrames_append (a b : List Char) :
    cutFrames (a ++ b) = ((cutFrames a).1 ++ (cutFrames ((cutFrames a).2 ++ b)).1,
      (cutFrames ((cutFrames a).2 ++ b)).2) := by
  have hrest : (Mealy.run frameStep [] (cutFrames a).2).1 = (cutFrames a).2 :=
    congrArg Prod.snd (cutFrames_rest a)
  have hnone : (Mealy.run frameStep [] (cutFrames a).2).2 = [] :=
    congrArg Prod.fst (cutFrames_rest a)
  simp only [cutFrames, Mealy.run_append] at hrest hnone ⊢
  rw [hrest, hnone]
  rfl

/-- **The first two line feeds end the first frame.** -/
theorem cutFrames_clear {a : List Char} (h : Search.Clear pair a) (b : List Char) :
    cutFrames (a ++ (pair ++ b)) = ((a ++ pair) :: (cutFrames b).1, (cutFrames b).2) := by
  have hnot : ¬ pair <:+: a ++ ['\n'] := by
    rintro ⟨s, t, hst⟩
    -- such an occurrence would be before the one that is the first
    have hlength := congrArg List.length hst
    obtain ⟨-, -, hfirst⟩ := Search.position_eq_some.mp h
    refine hfirst s.length ?_ ?_
    · simp only [List.length_append, List.length_cons, List.length_nil] at hlength
      omega
    · have hwhole : a ++ pair = s ++ (pair ++ (t ++ ['\n'])) := by
        rw [← List.append_assoc, ← List.append_assoc, hst, List.append_assoc]
        rfl
      rw [hwhole, List.drop_left]
      exact List.prefix_append _ _
  have hsplit : a ++ (pair ++ b) = (a ++ ['\n']) ++ '\n' :: b := by simp
  have hstep : frameStep (a ++ ['\n']) '\n' = ([], [a ++ pair]) := by
    rw [frameStep, if_pos ⟨by simp, rfl⟩, List.append_assoc]
    rfl
  have hfirst : Mealy.run frameStep [] (a ++ ['\n']) = (a ++ ['\n'], []) :=
    frameStep_of_not_infix hnot
  rw [cutFrames, hsplit, Mealy.run_append, hfirst, Mealy.run_cons, hstep]
  rfl

end EventStream
