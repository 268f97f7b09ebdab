import Onair.Stream.Chunks
import Onair.Lib.Json.RoundTrip

/-!
# Printed streams

A stream of events that were printed, each as a `data:` line and a blank line, has these events.

* `frames_line`: the frame of the first line of a stream;
* `parseSseLine_printed`: a printed value on a `data:` line is read back;
* `ReadsBack`, `frames_printed`: **the frames of a printed stream**;
* `readsBack_reference`: the reference codec reads back what it prints.
-/

namespace Onair

open Json Text Lines

variable (c : Codec)

theorem frames_line {l : Bytes} (h : nl ∉ l) (rest : Bytes) :
    frames c (l ++ nl :: rest) = parseSseLine c (l ++ [nl]) :: frames c rest := by
  rw [frames, lineFrames, tailFrames, drainLines_line h]
  rfl

/-- The `data:` line of a value. -/
def dataLine (value : Value) : Bytes := asBytes "data: " ++ c.toVec value

variable {c}

theorem nl_not_mem_dataLine (hc : c.Lawful) (value : Value) : nl ∉ dataLine c value := by
  intro h
  rcases List.mem_append.mp h with h | h
  · revert h
    decide
  · exact (hc.print_no_break value).1 h

/-- **A printed object on a `data:` line is read back.** -/
theorem parseSseLine_printed (hc : c.Lawful) {m : List (String × Value)}
    (hread : c.fromSlice (c.toVec (.object m)) = some (.object m)) :
    parseSseLine c (dataLine c (.object m) ++ [nl]) =
      .data (.object m) true (dataLine c (.object m) ++ [nl]) := by
  have hhead := hc.print_object m
  have hcontent : lineContent (dataLine c (.object m) ++ [nl]) = dataLine c (.object m) := by
    have hnl : stripSuffix (asBytes "\n") (dataLine c (.object m) ++ [nl]) =
        some (dataLine c (.object m)) := stripSuffix_eq_some.mpr rfl
    have hcr : stripSuffix (asBytes "\r") (dataLine c (.object m)) = none := by
      rw [Option.eq_none_iff_forall_ne_some]
      intro r hr
      have hmem : 13 ∈ dataLine c (.object m) := by
        rw [stripSuffix_eq_some.mp hr]
        exact List.mem_append_right _ (by decide)
      rcases List.mem_append.mp hmem with hmem | hmem
      · revert hmem
        decide
      · exact (hc.print_no_break _).2 hmem
    rw [lineContent, hnl]
    dsimp only [Option.getD_some]
    rw [hcr]
    rfl
  have hevent : utf8FieldValue (dataLine c (.object m)) (asBytes "event:") = none := rfl
  have hdata : sseFieldValue (dataLine c (.object m)) (asBytes "data:") =
      some (c.toVec (.object m)) := by
    have hline : dataLine c (.object m) = asBytes "data:" ++ (asBytes " " ++ c.toVec (.object m)) :=
      rfl
    rw [sseFieldValue, hline, stripPrefix_append, Option.map_some, stripPrefix_append]
    rfl
  have hspace : stripPrefix (asBytes "data: ") (dataLine c (.object m)) =
      some (c.toVec (.object m)) := stripPrefix_append _ _
  have hdone : c.toVec (.object m) ≠ asBytes "[DONE]" := by
    intro h
    rw [h] at hhead
    revert hhead
    decide
  rw [parseSseLine, hcontent, hevent, hdata, hspace]
  simp only [if_neg hdone, hread]
  rfl

variable (c) in
/-- A value that is an object and is read back when it is printed. -/
def ReadsBack (value : Value) : Prop :=
  (∃ m, value = .object m) ∧ c.fromSlice (c.toVec value) = some value

/-- **The frames of a printed stream.** -/
theorem frames_printed (hc : c.Lawful) {es : List Value} (h : ∀ e ∈ es, ReadsBack c e) :
    frames c (es.flatMap (sseData c)) = es.flatMap fun e =>
      [.data e true (dataLine c e ++ [nl]), .passThrough [nl]] := by
  induction es with
  | nil => rfl
  | cons e es ih =>
    obtain ⟨⟨⟨m, rfl⟩, hread⟩, hrest⟩ := List.forall_mem_cons.mp h
    have hsplit : sseData c (.object m) ++ es.flatMap (sseData c) =
        dataLine c (.object m) ++ nl :: ([] ++ nl :: es.flatMap (sseData c)) := by
      rw [sseData, dataLine, List.append_assoc]
      rfl
    rw [List.flatMap_cons, hsplit, frames_line c (nl_not_mem_dataLine hc _),
      frames_line c (by simp), parseSseLine_printed hc hread, ih hrest]
    rfl

theorem readsBack_reference {l : List (String × Value)} {d : ℕ} (hd : d < maxDepth)
    (h : ∀ e ∈ l, e.2.Fits d) : ReadsBack reference (.obj l) := by
  have hfits : (Value.obj l).Fits maxDepth := (Value.fits_obj h).mono hd
  refine ⟨⟨_, rfl⟩, ?_⟩
  simp only [reference, fromUtf8_asBytes, Option.bind_some, String.toList_ofList,
    readText_print hfits.1 hfits.2]

end Onair
