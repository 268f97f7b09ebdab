import Onair.Lib.EventStream
import Onair.Lib.Lossy
import Onair.Observe.Capture
import Onair.Proxy.Stream
import Onair.Stream.Passthrough

/-!
# The capture of what the client gets

What a strategy sends is recorded piece by piece. The capture cuts it at every pair of line feeds
and reads the fields of each frame that have a space after the colon; a client reads it line by
line.

* `recordSseFrame`, `recordAllSse`: the capture, with its buffer;
* `sentChunks`, `capturedSse`: what is recorded of a stream;
* `recordAllSse_eq`: what is captured depends on the text of the pieces only;
* `push_ends`, `chunkTexts_sentChunks`: until the stream is at its end a strategy sends complete
  lines, so the text of what is sent is that of its pieces;
* `Spaced`, `FrameRead`: what the lines of a frame must be;
* `lastRead_iff`, `joinedRead_iff`, `frameEvent_iff`: then it is captured as the client reads it;
* **`sse_capture_iff`**: the capture shows the events that the client gets exactly where this holds
  of every frame, and nothing complete comes after the last one.
-/

namespace Onair

open Text Lines EventStream

/-! ### The capture -/

/-- Take out every frame of a buffer: as long as there are two line feeds, what comes up to them. -/
def drainFrames : (fuel : ℕ) → (buffer : List Char) → List (List Char) × List Char
  | 0, buffer => ([], buffer)
  | fuel + 1, buffer =>
    match Search.position ['\n', '\n'] buffer with
    | none => ([], buffer)
    | some idx =>
      let rest := drainFrames fuel (buffer.drop (idx + 2))
      (buffer.take (idx + 2) :: rest.1, rest.2)

/-- Read a line of a frame: the name of the event, or a line of its data. -/
def readFrameLine (fields : Option String × List String) (line : String) :
    Option String × List String :=
  match stripPrefix "event: ".toList line.toList with
  | some name => (some (trim (String.ofList name)), fields.2)
  | none =>
    match stripPrefix "data: ".toList line.toList with
    | some data => (fields.1, fields.2 ++ [trim (String.ofList data)])
    | none => fields

/-- The event of a frame, if it has a name or data. -/
def frameEvent (frame : List Char) : Option StreamEvent :=
  let fields := (lines (String.ofList frame)).foldl readFrameLine (none, [])
  let data := String.intercalate "\n" fields.2
  if fields.1.isSome || data ≠ "" then some (.sse fields.1 data) else none

/-- Record a piece of what the client gets. -/
def recordSseFrame (buffer : List Char) (chunk : Bytes) : List Char × List StreamEvent :=
  let buffer := buffer ++ (fromUtf8Lossy chunk).toList
  let drained := drainFrames (buffer.length + 1) buffer
  (drained.2, drained.1.filterMap frameEvent)

/-- The events that are recorded of some pieces. -/
def recordAllSse (chunks : List Bytes) : List StreamEvent :=
  (Mealy.run recordSseFrame [] chunks).2

/-! ### What is sent -/

/-- What a strategy gives for each chunk of the backend, from some state of the loop. -/
def pushOutputs (c : Json.Codec) : SseStrategy × StreamMetrics → List Bytes → List Bytes
  | _, [] => []
  | st, chunk :: chunks =>
    (streamChunk c st chunk).2 :: pushOutputs c (streamChunk c st chunk).1 chunks

/-- The pieces that are sent to the client, each of which is recorded: those of the chunks, and that
of the end if the stream gets there. -/
def sentChunks (c : Json.Codec) (s : SseStrategy) (chunks : List Bytes) (ended : Bool) :
    List Bytes :=
  let pushed := pushOutputs c (s, {}) chunks
  let tail := (streamEnd c (Mealy.run (streamChunk c) (s, {}) chunks).1).2
  (pushed ++ if ended then [tail] else []).filter fun chunk => !chunk.isEmpty

/-! ### The frames of a stream -/

/-- **The loop takes out the frames of the buffer.** -/
theorem drainFrames_eq {fuel : ℕ} {buffer : List Char} (h : buffer.length < fuel) :
    drainFrames fuel buffer = cutFrames buffer := by
  induction fuel generalizing buffer with
  | zero => exact absurd h (Nat.not_lt_zero _)
  | succ fuel ih =>
    rw [drainFrames]
    cases hp : Search.position ['\n', '\n'] buffer with
    | none =>
      have hnot : ¬ pair <:+: [] ++ buffer := Search.position_eq_none.mp hp
      rw [cutFrames, frameStep_of_not_infix hnot]
      rfl
    | some idx =>
      have hclear := Search.Clear.of_position hp
      have hbuffer := Search.eq_of_position hp
      have htake : buffer.take (idx + 2) = buffer.take idx ++ pair := by
        conv_lhs => rw [hbuffer, ← List.append_assoc]
        have hle : idx ≤ buffer.length := (Search.position_eq_some.mp hp).1
        have hlength : (buffer.take idx ++ pair).length = idx + 2 := by
          rw [List.length_append, List.length_take_of_le hle]
          rfl
        rw [← hlength, List.take_left]
      have hrest : (buffer.drop (idx + 2)).length < fuel := by
        have hne : buffer ≠ [] := by
          rintro rfl
          cases hp
        have hpos := List.length_pos_of_ne_nil hne
        rw [List.length_drop]
        omega
      dsimp only
      rw [ih hrest, htake]
      conv_rhs => rw [hbuffer]
      exact (cutFrames_clear hclear _).symm

/-- The text of some pieces, each decoded by itself. -/
def chunkTexts (chunks : List Bytes) : List Char :=
  chunks.flatMap fun chunk => (fromUtf8Lossy chunk).toList

theorem chunkTexts_cons (chunk : Bytes) (chunks : List Bytes) :
    chunkTexts (chunk :: chunks) = (fromUtf8Lossy chunk).toList ++ chunkTexts chunks :=
  List.flatMap_cons

/-- **The frames do not depend on the pieces.** -/
theorem recordAllSse_eq (chunks : List Bytes) :
    recordAllSse chunks = (cutFrames (chunkTexts chunks)).1.filterMap frameEvent := by
  have hrun : ∀ (chunks : List Bytes) (text : List Char),
      (Mealy.run recordSseFrame (cutFrames text).2 chunks).2 =
        (cutFrames ((cutFrames text).2 ++ chunkTexts chunks)).1.filterMap frameEvent := by
    intro chunks
    induction chunks with
    | nil =>
      intro text
      rw [chunkTexts, List.flatMap_nil, List.append_nil, cutFrames_rest]
      rfl
    | cons chunk chunks ih =>
      intro text
      have hstep : recordSseFrame (cutFrames text).2 chunk =
          ((cutFrames ((cutFrames text).2 ++ (fromUtf8Lossy chunk).toList)).2,
            (cutFrames ((cutFrames text).2 ++ (fromUtf8Lossy chunk).toList)).1.filterMap
              frameEvent) := by
        rw [recordSseFrame, drainFrames_eq (Nat.lt_succ_self _)]
      have hcut := cutFrames_append ((cutFrames text).2 ++ (fromUtf8Lossy chunk).toList)
        (chunkTexts chunks)
      rw [Mealy.run_cons, hstep, chunkTexts_cons, ← List.append_assoc, hcut, List.filterMap_append]
      exact congrArg (_ ++ ·) (ih _)
  exact hrun chunks []

/-- A piece that ends at the end of a line. -/
def EndsLine (chunk : Bytes) : Prop := ∃ a, chunk = a ++ [nl]

/-- Pieces that end at line ends may be decoded by themselves. -/
theorem chunkTexts_eq {chunks : List Bytes} (h : ∀ chunk ∈ chunks, chunk = [] ∨ EndsLine chunk)
    (tail : Bytes) :
    chunkTexts (chunks ++ [tail]) = (fromUtf8Lossy (chunks.flatten ++ tail)).toList := by
  induction chunks with
  | nil => simp [chunkTexts]
  | cons chunk chunks ih =>
    have hrest := ih fun other hother => h other (List.mem_cons_of_mem _ hother)
    rw [List.cons_append, chunkTexts_cons, hrest, List.flatten_cons, List.append_assoc]
    rcases h chunk List.mem_cons_self with rfl | ⟨a, rfl⟩
    · rfl
    · rw [fromUtf8Lossy_line, String.toList_append]

/-! ### Strategies send lines -/

theorem endsLine_append (a : Bytes) {b : Bytes} (h : EndsLine b) : EndsLine (a ++ b) := by
  obtain ⟨l, rfl⟩ := h
  exact ⟨a ++ l, (List.append_assoc _ _ _).symm⟩

section Lines

variable (c : Json.Codec) {f : SseFrame} (h : IsLine f.line)

theorem endsLine_event (e : ResponsesEvent) : EndsLine ((SseOut.event e).bytes c) :=
  endsLine_append _ ⟨asBytes "\n", rfl⟩

theorem endsLine_chat (f : ChatFrame) : EndsLine ((SseOut.chat f).bytes c) := by
  simp only [SseOut.bytes]
  split
  · exact endsLine_append _ ⟨asBytes "\n", rfl⟩
  · exact ⟨asBytes "data: [DONE]\n", rfl⟩

theorem endsLine_line {line : Bytes} (h : IsLine line) : EndsLine ((SseOut.line line).bytes c) := by
  obtain ⟨a, -, rfl⟩ := h
  exact ⟨a, rfl⟩

theorem endsLine_dataLine {line : Bytes} (h : IsLine line) (space : Bool) (value : Json.Value) :
    EndsLine ((SseOut.dataLine space value (lineSuffix line)).bytes c) := by
  obtain ⟨cr, -, hsuffix⟩ := lineSuffix_isLine h
  exact endsLine_append _ ⟨cr, hsuffix⟩

include h

/-- Whatever is sent for a complete line ends in a line feed. -/
theorem handleFrame_ends (s : SseStrategy) :
    ∀ o ∈ (s.handleFrame f).2, EndsLine (o.bytes c) := by
  cases s with
  | native n =>
    cases f with
    | data value space line =>
      simp only [SseStrategy.handleFrame, SseNormalizer.handleFrame, SseNormalizer.handleData]
      split_ifs
      · simp
      · exact List.forall_mem_singleton.mpr (endsLine_dataLine c h space _)
      · exact List.forall_mem_singleton.mpr (endsLine_dataLine c h space _)
    | _ => exact List.forall_mem_singleton.mpr (endsLine_line c h)
  | responses n =>
    cases f with
    | data value space line =>
      exact List.forall_mem_map.mpr fun e _ => endsLine_event c e
    | done line =>
      refine List.forall_mem_append.mpr ⟨?_, ?_⟩
      · exact List.forall_mem_map.mpr fun e _ => endsLine_event c e
      · exact List.forall_mem_singleton.mpr (endsLine_line c h)
    | _ => exact List.forall_mem_singleton.mpr (endsLine_line c h)
  | chatCompletions n =>
    cases f with
    | data value space line => exact List.forall_mem_map.mpr fun e _ => endsLine_chat c e
    | done line => exact List.forall_mem_map.mpr fun e _ => endsLine_chat c e
    | _ => exact fun o ho => by cases ho
  | anthropicMessages n =>
    cases f with
    | data value space line => exact List.forall_mem_singleton.mpr (endsLine_dataLine c h space _)
    | _ => exact List.forall_mem_singleton.mpr (endsLine_line c h)
  | anthropicMessagesToChat n =>
    cases f with
    | data value space line => exact List.forall_mem_map.mpr fun e _ => endsLine_chat c e
    | done line => exact List.forall_mem_map.mpr fun e _ => endsLine_chat c e
    | _ => exact fun o ho => by cases ho

end Lines

theorem outBytes_ends {c : Json.Codec} {out : List SseOut} (h : ∀ o ∈ out, EndsLine (o.bytes c)) :
    outBytes c out = [] ∨ EndsLine (outBytes c out) := by
  induction out using List.reverseRecOn with
  | nil => exact Or.inl rfl
  | append_singleton out o _ =>
    refine Or.inr ?_
    rw [outBytes_append, outBytes_cons, outBytes_nil, List.append_nil]
    exact endsLine_append _ (h o (List.mem_append_right _ List.mem_cons_self))

/-- What a strategy gives for a chunk ends in a line feed, if it gives anything. -/
theorem push_ends (c : Json.Codec) (s : SseStrategy) (chunk : Bytes) :
    outBytes c (s.push c chunk).2 = [] ∨ EndsLine (outBytes c (s.push c chunk).2) := by
  have hpush := SseStrategy.push_withParser c s s.parser chunk
  rw [SseStrategy.withParser_self] at hpush
  rw [hpush]
  have hstart : ∀ o ∈ ([] : List SseOut), EndsLine (o.bytes c) := fun o ho => by cases ho
  refine outBytes_ends (Mealy.run_hist SseStrategy.handleFrame
    (fun out _ => ∀ o ∈ out, EndsLine (o.bytes c)) _ ?_ hstart)
  intro out s f hf hout
  obtain ⟨line, hline, rfl⟩ := List.mem_map.mp hf
  refine List.forall_mem_append.mpr ⟨hout, handleFrame_ends c ?_ s⟩
  rw [parseSseLine_line]
  exact drainLines_ends _ line hline

theorem pushOutputs_ends (c : Json.Codec) (st : SseStrategy × StreamMetrics) (chunks : List Bytes) :
    ∀ chunk ∈ pushOutputs c st chunks, chunk = [] ∨ EndsLine chunk := by
  induction chunks generalizing st with
  | nil => exact fun chunk h => by cases h
  | cons chunk chunks ih =>
    refine List.forall_mem_cons.mpr ⟨?_, ih _⟩
    unfold streamChunk
    dsimp only
    split_ifs
    · exact Or.inl rfl
    · exact push_ends c st.1 chunk

/-- **What is sent may be decoded piece by piece.** -/
theorem chunkTexts_sentChunks (c : Json.Codec) (s : SseStrategy) (chunks : List Bytes)
    (ended : Bool) : chunkTexts (sentChunks c s chunks ended) =
      (fromUtf8Lossy (sentChunks c s chunks ended).flatten).toList := by
  have hfilter : ∀ l : List Bytes, chunkTexts (l.filter fun chunk => !chunk.isEmpty) =
      chunkTexts l := by
    intro l
    induction l with
    | nil => rfl
    | cons chunk l ih =>
      rw [chunkTexts_cons, ← ih]
      cases chunk with
      | nil => rfl
      | cons b chunk => rfl
  have hends := pushOutputs_ends c (s, {}) chunks
  rw [sentChunks, hfilter, List.flatten_filter_not_isEmpty]
  generalize pushOutputs c (s, {}) chunks = pushed at hends ⊢
  cases ended with
  | true => simpa using chunkTexts_eq hends _
  | false =>
    have hnil : (fromUtf8Lossy []).toList = [] := toList_fromUtf8Lossy []
    have htail := chunkTexts_eq hends []
    simp only [chunkTexts, List.flatMap_append, List.flatMap_singleton, hnil] at htail
    simpa [chunkTexts] using htail

theorem flatten_sentChunks (c : Json.Codec) (s : SseStrategy) (chunks : List Bytes)
    (ended : Bool) : (sentChunks c s chunks ended).flatten =
      let r := Mealy.run (streamChunk c) (s, {}) chunks
      r.2 ++ if ended then (streamEnd c r.1).2 else [] := by
  have hpushed : ∀ st, (pushOutputs c st chunks).flatten =
      (Mealy.run (streamChunk c) st chunks).2 := by
    induction chunks with
    | nil => exact fun st => rfl
    | cons chunk chunks ih =>
      intro st
      rw [pushOutputs, List.flatten_cons, ih, Mealy.run_cons]
  rw [sentChunks, List.flatten_filter_not_isEmpty, List.flatten_append, hpushed]
  cases ended <;> simp

/-! ### Frames -/

/-- The value of a field that has a space after the colon, trimmed. -/
def spacedValue (field line : String) : Option String :=
  (stripPrefix (field ++ " ").toList line.toList).map fun value => trim (String.ofList value)

/-- The lines of a frame that begin with a field. -/
def fieldLines (field : String) (frame : List Char) : List String :=
  (textLines frame).filter fun line => field.toList <+: line.toList

/-- The line has a space after the field, and nothing to trim. -/
def Spaced (field line : String) : Prop :=
  ∃ value, line = field ++ " " ++ value ∧ trim value = value

/-- A frame that is captured as the client reads it: it has one block of fields at most; its last
name has a space before it and nothing to trim, or is what the last one with a space is trimmed to;
so are all lines of its data, unless the only one is blank; and it has a name, or data to show. -/
structure FrameRead (frame : List Char) : Prop where
  one : (blocks frame).length ≤ 1
  name : ∀ line ∈ (fieldLines "event:" frame).getLast?, Spaced "event:" line ∨
    ∃ value, (fieldLines "event: " frame).getLast? = some ("event: " ++ value) ∧
      line = "event:" ++ trim value
  data : (∀ line ∈ fieldLines "data:" frame, Spaced "data:" line) ∨
    fieldLines "data:" frame = ["data:"]
  shown : fieldLines "event:" frame = [] →
    fieldLines "data:" frame ≠ ["data:"] ∧ fieldLines "data:" frame ≠ ["data: "]

/-- The event of a block as it is recorded. -/
def blockEvent (b : Fields) : StreamEvent := .sse b.event.1 b.event.2

theorem readFrameLine_eq (fields : Option String × List String) (line : String) :
    readFrameLine fields line = ((spacedValue "event:" line).or fields.1,
      fields.2 ++ (spacedValue "data:" line).toList) := by
  have hevent : ("event:" ++ " ").toList = "event: ".toList := rfl
  have hdata : ("data:" ++ " ").toList = "data: ".toList := rfl
  rw [readFrameLine, spacedValue, spacedValue, hevent, hdata]
  cases hname : stripPrefix "event: ".toList line.toList with
  | some name =>
    have hnone : stripPrefix "data: ".toList line.toList = none := by
      rw [stripPrefix_eq_some.mp hname]
      rfl
    rw [hnone]
    simp
  | none => cases stripPrefix "data: ".toList line.toList <;> simp

theorem foldl_readFrameLine (ls : List String) (fields : Option String × List String) :
    ls.foldl readFrameLine fields = ((ls.filterMap (spacedValue "event:")).getLast?.or fields.1,
      fields.2 ++ ls.filterMap (spacedValue "data:")) := by
  induction ls using List.reverseRecOn with
  | nil => simp
  | append_singleton ls line ih =>
    rw [List.foldl_append, ih, List.foldl_cons, List.foldl_nil, readFrameLine_eq,
      List.filterMap_append, List.filterMap_append]
    cases hname : spacedValue "event:" line <;> cases hdata : spacedValue "data:" line <;>
      simp [hname, hdata]

theorem fieldValue_of_spaced {field line : String} (h : fieldValue field line = none) :
    spacedValue field line = none := by
  rw [fieldValue, Option.map_eq_none_iff] at h
  rw [spacedValue, Option.map_eq_none_iff]
  cases hspaced : stripPrefix (field ++ " ").toList line.toList with
  | none => rfl
  | some value =>
    have hline := stripPrefix_eq_some.mp hspaced
    rw [String.toList_append, List.append_assoc] at hline
    rw [hline, stripPrefix_append] at h
    cases h

theorem spaced_eq_nil {field : String} {ls : List String}
    (h : ls.filterMap (fieldValue field) = []) : ls.filterMap (spacedValue field) = [] := by
  rw [List.filterMap_eq_nil_iff] at h ⊢
  exact fun line hline => fieldValue_of_spaced (h line hline)

theorem frameEvent_eq (frame : List Char) : frameEvent frame =
    let name := ((textLines frame).filterMap (spacedValue "event:")).getLast?
    let data := String.intercalate "\n" ((textLines frame).filterMap (spacedValue "data:"))
    if name.isSome || data ≠ "" then some (.sse name data) else none := by
  rw [frameEvent, foldl_readFrameLine]
  simp only [Option.or_none, List.nil_append]
  rfl

/-! ### The fields of a line -/

section

variable {field value line : String}

theorem isSome_stripPrefix (p l : List Char) : (stripPrefix p l).isSome = decide (p <+: l) := by
  rw [Bool.eq_iff_iff, decide_eq_true_iff, Option.isSome_iff_exists]
  exact exists_congr fun r => stripPrefix_eq_some.trans eq_comm

theorem isSome_fieldValue (field line : String) :
    (fieldValue field line).isSome = decide (field.toList <+: line.toList) := by
  rw [fieldValue, Option.isSome_map, isSome_stripPrefix]

theorem isSome_spacedValue (field line : String) :
    (spacedValue field line).isSome = decide ((field ++ " ").toList <+: line.toList) := by
  rw [spacedValue, Option.isSome_map, isSome_stripPrefix]

theorem fieldValue_spaced (field value : String) :
    fieldValue field (field ++ " " ++ value) = some value := by
  rw [fieldValue, String.append_assoc, String.toList_append, stripPrefix_append, Option.map_some,
    String.toList_append]
  exact congrArg some String.ofList_toList

theorem spacedValue_spaced (field value : String) :
    spacedValue field (field ++ " " ++ value) = some (trim value) := by
  rw [spacedValue, String.toList_append (s := field ++ " "), stripPrefix_append, Option.map_some,
    String.ofList_toList]

theorem fieldValue_unspaced (h : ¬[' '] <+: value.toList) :
    fieldValue field (field ++ value) = some value := by
  have hnone : stripPrefix [' '] value.toList = none := by
    rw [← Option.not_isSome_iff_eq_none, isSome_stripPrefix, decide_eq_true_iff]
    exact h
  rw [fieldValue, String.toList_append, stripPrefix_append, Option.map_some, hnone,
    Option.getD_none, String.ofList_toList]

theorem spacedValue_unspaced (h : ¬[' '] <+: value.toList) :
    spacedValue field (field ++ value) = none := by
  rw [← Option.not_isSome_iff_eq_none, isSome_spacedValue, decide_eq_true_iff,
    String.toList_append, String.toList_append, List.prefix_append_right_inj]
  exact h

theorem values_bare (field : String) :
    fieldValue field field = some "" ∧ spacedValue field field = none := by
  have hempty : ¬[' '] <+: "".toList := by decide
  have hfield : fieldValue field (field ++ "") = some "" := fieldValue_unspaced hempty
  have hspaced : spacedValue field (field ++ "") = none := spacedValue_unspaced hempty
  rw [String.append_empty] at hfield hspaced
  exact ⟨hfield, hspaced⟩

theorem field_cases (h : field.toList <+: line.toList) :
    (∃ value, line = field ++ " " ++ value) ∨
      ∃ value, line = field ++ value ∧ ¬[' '] <+: value.toList := by
  obtain ⟨rest, hrest⟩ := h
  by_cases hspace : [' '] <+: rest
  · obtain ⟨value, rfl⟩ := hspace
    refine Or.inl ⟨String.ofList value, String.toList_inj.mp ?_⟩
    rw [← hrest, String.toList_append, String.toList_append, String.toList_ofList,
      List.append_assoc]
    exact congrArg (fun value => field.toList ++ (' ' :: value)) String.toList_ofList.symm
  · refine Or.inr ⟨String.ofList rest, String.toList_inj.mp ?_, ?_⟩
    · rw [← hrest, String.toList_append, String.toList_ofList]
    · rwa [String.toList_ofList]

theorem isInfix_trim (s : String) : (trim s).toList <:+: s.toList := by
  rw [trim, trimMatches, String.toList_ofList]
  have hright := List.reverse_prefix.mpr
    (List.dropWhile_suffix isWhiteSpace (l := (s.toList.dropWhile isWhiteSpace).reverse))
  rw [List.reverse_reverse] at hright
  exact hright.isInfix.trans (List.dropWhile_suffix isWhiteSpace).isInfix

theorem length_trim_le (s : String) : (trim s).length ≤ s.length :=
  (isInfix_trim s).length_le

theorem trim_eq_of_length (h : (trim value).length = value.length) : trim value = value :=
  String.toList_inj.mp ((isInfix_trim value).eq_of_length h)

theorem spaced_iff : Spaced field (field ++ " " ++ value) ↔ trim value = value := by
  constructor
  · rintro ⟨other, hline, htrim⟩
    rwa [(String.append_right_inj _).mp hline]
  · exact fun htrim => ⟨value, rfl, htrim⟩

theorem not_spaced (h : ¬[' '] <+: value.toList) : ¬Spaced field (field ++ value) := by
  rintro ⟨other, hline, -⟩
  rw [String.append_assoc, String.append_right_inj] at hline
  rw [hline, String.toList_append] at h
  exact h (List.prefix_append _ _)

end

/-! ### The fields of a frame -/

section

variable {α β : Type} {f : α → Option β}

theorem getLast?_filterMap (l : List α) :
    (l.filterMap f).getLast? = (l.filter fun a => (f a).isSome).getLast?.bind f := by
  induction l using List.reverseRecOn with
  | nil => rfl
  | append_singleton l a ih =>
    rw [List.filterMap_append, List.filter_append]
    cases hfa : f a with
    | none => simpa [hfa] using ih
    | some b => simp [hfa]

theorem filterMap_filter_of_imp {p : α → Bool} (h : ∀ a, (f a).isSome = true → p a = true)
    (l : List α) : (l.filter p).filterMap f = l.filterMap f := by
  rw [List.filterMap_filter]
  refine List.filterMap_congr fun a _ => ?_
  split_ifs with hp
  · rfl
  · exact (Option.not_isSome_iff_eq_none.mp fun ha => hp (h a ha)).symm

end

section

variable {field : String} {frame : List Char}

theorem prefix_of_mem_fieldLines {line : String} (h : line ∈ fieldLines field frame) :
    field.toList <+: line.toList := of_decide_eq_true (List.mem_filter.mp h).2

theorem prefix_of_spaced {line : String} (h : (field ++ " ").toList <+: line.toList) :
    field.toList <+: line.toList := by
  rw [String.toList_append] at h
  exact (List.prefix_append _ _).trans h

theorem filterMap_fieldLines (field : String) (frame : List Char) :
    (fieldLines field frame).filterMap (fieldValue field) =
      (textLines frame).filterMap (fieldValue field) :=
  filterMap_filter_of_imp (fun line h => isSome_fieldValue field line ▸ h) _

theorem filterMap_spacedLines (field : String) (frame : List Char) :
    (fieldLines field frame).filterMap (spacedValue field) =
      (textLines frame).filterMap (spacedValue field) := by
  refine filterMap_filter_of_imp (fun line h => ?_) _
  rw [isSome_spacedValue, decide_eq_true_iff] at h
  exact decide_eq_true (prefix_of_spaced h)

theorem fieldLines_space (field : String) (frame : List Char) : fieldLines (field ++ " ") frame =
    (fieldLines field frame).filter fun line => (field ++ " ").toList <+: line.toList := by
  rw [fieldLines, fieldLines, List.filter_filter]
  refine List.filter_congr fun line _ => ?_
  rw [Bool.eq_iff_iff, Bool.and_eq_true, decide_eq_true_iff, decide_eq_true_iff]
  exact ⟨fun h => ⟨h, prefix_of_spaced h⟩, And.left⟩

/-- **The last value is read as it is written.** -/
theorem lastRead_iff (field : String) (frame : List Char) :
    ((textLines frame).filterMap (spacedValue field)).getLast? =
        ((textLines frame).filterMap (fieldValue field)).getLast? ↔
      ∀ line ∈ (fieldLines field frame).getLast?, Spaced field line ∨
        ∃ value, (fieldLines (field ++ " ") frame).getLast? = some (field ++ " " ++ value) ∧
          line = field ++ trim value := by
  rw [← filterMap_spacedLines, ← filterMap_fieldLines, getLast?_filterMap, getLast?_filterMap,
    fieldLines_space]
  simp only [isSome_spacedValue, isSome_fieldValue]
  have hall : (fieldLines field frame).filter (fun line => field.toList <+: line.toList) =
      fieldLines field frame :=
    List.filter_eq_self.mpr fun line hline => decide_eq_true (prefix_of_mem_fieldLines hline)
  rw [hall]
  have hprefix : ∀ line ∈ fieldLines field frame, field.toList <+: line.toList :=
    fun line hline => prefix_of_mem_fieldLines hline
  generalize fieldLines field frame = ls at hprefix
  induction ls using List.reverseRecOn with
  | nil => simp
  | append_singleton ls line _ =>
    have hline := hprefix line (List.mem_append_right _ List.mem_cons_self)
    rw [List.getLast?_concat, List.filter_append, Option.bind_some]
    simp only [Option.mem_some_iff, forall_eq']
    obtain ⟨value, rfl⟩ | ⟨value, rfl, hspace⟩ := field_cases hline
    · have hthere : (field ++ " ").toList <+: (field ++ " " ++ value).toList := by
        rw [String.toList_append (s := field ++ " ")]
        exact List.prefix_append _ _
      have hkept : [field ++ " " ++ value].filter
          (fun line => (field ++ " ").toList <+: line.toList) = [field ++ " " ++ value] :=
        List.filter_eq_self.mpr (List.forall_mem_singleton.mpr (decide_eq_true hthere))
      rw [hkept, List.getLast?_concat,
        Option.bind_some, spacedValue_spaced, fieldValue_spaced, Option.some_inj, spaced_iff]
      refine ⟨Or.inl, fun h => h.elim id ?_⟩
      rintro ⟨other, hother, htrim⟩
      -- a trimmed text is not longer
      have hsame := (String.append_right_inj _).mp (Option.some.inj hother)
      rw [← hsame, String.append_assoc, String.append_right_inj] at htrim
      have hlength := length_trim_le value
      rw [← htrim, String.length_append] at hlength
      exact absurd hlength (by simp)
    · have hnot : ¬(field ++ " ").toList <+: (field ++ value).toList := by
        rw [← decide_eq_true_iff (p := (field ++ " ").toList <+: (field ++ value).toList),
          ← isSome_spacedValue, spacedValue_unspaced hspace]
        exact Bool.false_ne_true
      have hdropped : [field ++ value].filter
          (fun line => (field ++ " ").toList <+: line.toList) = [] :=
        List.filter_eq_nil_iff.mpr (List.forall_mem_singleton.mpr (by simpa using hnot))
      rw [hdropped, List.append_nil,
        fieldValue_unspaced hspace, or_iff_right (not_spaced hspace), Option.bind_eq_some_iff]
      constructor
      · rintro ⟨last, hlast, hvalue⟩
        have hmem := (List.mem_filter.mp (List.mem_of_getLast? hlast)).2
        obtain ⟨other, rfl⟩ | ⟨other, rfl, hother⟩ :=
          field_cases (prefix_of_spaced (of_decide_eq_true hmem))
        · rw [spacedValue_spaced, Option.some_inj] at hvalue
          exact ⟨other, hlast, by rw [hvalue]⟩
        · rw [spacedValue_unspaced hother] at hvalue
          cases hvalue
      · rintro ⟨other, hlast, hvalue⟩
        refine ⟨_, hlast, ?_⟩
        rw [spacedValue_spaced, (String.append_right_inj _).mp hvalue]

theorem length_intercalate {ls : List String} (h : ls ≠ []) :
    (String.intercalate "\n" ls).length + 1 = (ls.map fun s => s.length + 1).sum := by
  induction ls with
  | nil => exact absurd rfl h
  | cons s ls ih =>
    cases ls with
    | nil => simp
    | cons t ls =>
      rw [String.intercalate_cons_cons, String.length_append, String.length_append, List.map_cons,
        List.sum_cons, ← ih (List.cons_ne_nil _ _)]
      change s.length + 1 + _ + 1 = _
      omega

/-- What is read of some lines is as long as it is written only if it is read as it is written. -/
theorem length_spaced_le {ls : List String} (h : ∀ line ∈ ls, field.toList <+: line.toList) :
    ((ls.filterMap (spacedValue field)).map fun s => s.length + 1).sum ≤
        ((ls.filterMap (fieldValue field)).map fun s => s.length + 1).sum ∧
      (((ls.filterMap (spacedValue field)).map fun s => s.length + 1).sum =
          ((ls.filterMap (fieldValue field)).map fun s => s.length + 1).sum →
        ∀ line ∈ ls, Spaced field line) := by
  induction ls with
  | nil => simp
  | cons line ls ih =>
    obtain ⟨hle, hspaced⟩ := ih fun other hother => h other (List.mem_cons_of_mem _ hother)
    rw [List.forall_mem_cons]
    obtain ⟨value, rfl⟩ | ⟨value, rfl, hspace⟩ := field_cases (h line List.mem_cons_self)
    · have htrim := length_trim_le value
      rw [List.filterMap_cons_some (spacedValue_spaced field value),
        List.filterMap_cons_some (fieldValue_spaced field value), List.map_cons, List.map_cons,
        List.sum_cons, List.sum_cons, spaced_iff]
      refine ⟨by omega, fun hsum => ⟨trim_eq_of_length (by omega), hspaced (by omega)⟩⟩
    · rw [List.filterMap_cons_none (spacedValue_unspaced hspace),
        List.filterMap_cons_some (fieldValue_unspaced hspace), List.map_cons, List.sum_cons]
      exact ⟨by omega, fun hsum => absurd hsum (by omega)⟩

theorem fieldValues_eq_nil_iff {ls : List String}
    (h : ∀ line ∈ ls, field.toList <+: line.toList) :
    ls.filterMap (fieldValue field) = [] ↔ ls = [] := by
  cases ls with
  | nil => simp
  | cons line ls =>
    have hsome : (fieldValue field line).isSome = true := by
      rw [isSome_fieldValue]
      exact decide_eq_true (h line List.mem_cons_self)
    obtain ⟨value, hvalue⟩ := Option.isSome_iff_exists.mp hsome
    rw [List.filterMap_cons_some hvalue]
    exact iff_of_false (List.cons_ne_nil _ _) (List.cons_ne_nil _ _)

/-- The values of some lines are nothing together if there is one at most, and it is blank. -/
theorem joined_eq_empty_iff {ls : List String} (h : ∀ line ∈ ls, field.toList <+: line.toList) :
    String.intercalate "\n" (ls.filterMap (fieldValue field)) = "" ↔
      ls = [] ∨ ls = [field] ∨ ls = [field ++ " "] := by
  obtain ⟨hbare, -⟩ := values_bare field
  have hblank : fieldValue field (field ++ " ") = some "" := by
    rw [← String.append_empty (s := field ++ " ")]
    exact fieldValue_spaced field ""
  constructor
  · intro hjoined
    cases ls with
    | nil => exact Or.inl rfl
    | cons line ls =>
      refine Or.inr ?_
      have hrest : ∀ other ∈ ls, field.toList <+: other.toList :=
        fun other hother => h other (List.mem_cons_of_mem line hother)
      have hline : ∀ value, fieldValue field line = some value → value.length = 0 ∧ ls = [] := by
        intro value hvalue
        rw [List.filterMap_cons_some hvalue] at hjoined
        have hlength :=
          length_intercalate (List.cons_ne_nil value (ls.filterMap (fieldValue field)))
        rw [hjoined, List.map_cons, List.sum_cons] at hlength
        change 0 + 1 = _ at hlength
        refine ⟨by omega, (fieldValues_eq_nil_iff hrest).mp ?_⟩
        cases hvalues : ls.filterMap (fieldValue field) with
        | nil => rfl
        | cons other values =>
          rw [hvalues, List.map_cons, List.sum_cons] at hlength
          omega
      obtain ⟨value, rfl⟩ | ⟨value, rfl, hspace⟩ := field_cases (h line List.mem_cons_self)
      · obtain ⟨hvalue, rfl⟩ := hline value (fieldValue_spaced field value)
        rw [String.length_eq_zero_iff.mp hvalue, String.append_empty]
        exact Or.inr rfl
      · obtain ⟨hvalue, rfl⟩ := hline value (fieldValue_unspaced hspace)
        rw [String.length_eq_zero_iff.mp hvalue, String.append_empty]
        exact Or.inl rfl
  · rintro (rfl | rfl | rfl)
    · rfl
    · rw [List.filterMap_cons_some hbare]
      rfl
    · rw [List.filterMap_cons_some hblank]
      rfl

/-- **The lines of data are read as they are written.** -/
theorem joinedRead_iff (field : String) (frame : List Char) :
    String.intercalate "\n" ((textLines frame).filterMap (spacedValue field)) =
        String.intercalate "\n" ((textLines frame).filterMap (fieldValue field)) ↔
      (∀ line ∈ fieldLines field frame, Spaced field line) ∨ fieldLines field frame = [field] := by
  rw [← filterMap_spacedLines, ← filterMap_fieldLines]
  have hprefix : ∀ line ∈ fieldLines field frame, field.toList <+: line.toList :=
    fun line hline => prefix_of_mem_fieldLines hline
  generalize fieldLines field frame = ls at hprefix
  constructor
  · intro h
    obtain ⟨-, hspaced⟩ := length_spaced_le hprefix
    by_cases hnil : ls = []
    · rw [hnil]
      exact Or.inl (List.forall_mem_nil _)
    · have hvalues := mt (fieldValues_eq_nil_iff hprefix).mp hnil
      by_cases hspacedNil : ls.filterMap (spacedValue field) = []
      · rw [hspacedNil, String.intercalate_nil] at h
        obtain hnone | rfl | rfl := (joined_eq_empty_iff hprefix).mp h.symm
        · exact absurd hnone hnil
        · exact Or.inr rfl
        · rw [← String.append_empty (s := field ++ " "),
            List.filterMap_cons_some (spacedValue_spaced field "")] at hspacedNil
          cases hspacedNil
      · refine Or.inl (hspaced ?_)
        rw [← length_intercalate hspacedNil, ← length_intercalate hvalues, h]
  · rintro (hspaced | rfl)
    · refine congrArg _ (List.filterMap_congr fun line hline => ?_)
      obtain ⟨value, rfl, htrim⟩ := hspaced line hline
      rw [spacedValue_spaced, fieldValue_spaced, htrim]
    · rw [(joined_eq_empty_iff hprefix).mpr (Or.inr (Or.inl rfl))]
      rw [List.filterMap_cons_none (values_bare field).2]
      rfl

end

/-- **A frame is read as it is written** if the capture and the client read the same fields. -/
theorem frameRead_iff (frame : List Char) : FrameRead frame ↔ (blocks frame).length ≤ 1 ∧
    ((textLines frame).filterMap (spacedValue "event:")).getLast? =
      ((textLines frame).filterMap (fieldValue "event:")).getLast? ∧
    String.intercalate "\n" ((textLines frame).filterMap (spacedValue "data:")) =
      String.intercalate "\n" ((textLines frame).filterMap (fieldValue "data:")) ∧
    ((textLines frame).filterMap (fieldValue "event:") = [] →
      String.intercalate "\n" ((textLines frame).filterMap (fieldValue "data:")) = "" →
      (textLines frame).filterMap (fieldValue "data:") = []) := by
  have hevents : (textLines frame).filterMap (fieldValue "event:") = [] ↔
      fieldLines "event:" frame = [] := by
    rw [← filterMap_fieldLines]
    exact fieldValues_eq_nil_iff fun line hline => prefix_of_mem_fieldLines hline
  have hprefix : ∀ line ∈ fieldLines "data:" frame, "data:".toList <+: line.toList :=
    fun line hline => prefix_of_mem_fieldLines hline
  have hshown : (String.intercalate "\n" ((textLines frame).filterMap (fieldValue "data:")) = "" →
      (textLines frame).filterMap (fieldValue "data:") = []) ↔
      fieldLines "data:" frame ≠ ["data:"] ∧ fieldLines "data:" frame ≠ ["data: "] := by
    rw [← filterMap_fieldLines, joined_eq_empty_iff hprefix, fieldValues_eq_nil_iff hprefix]
    constructor
    · intro h
      exact ⟨fun hone => by simpa [hone] using h (Or.inr (Or.inl hone)),
        fun hone => by simpa [hone] using h (Or.inr (Or.inr hone))⟩
    · rintro ⟨hbare, hblank⟩ (hnil | hone | hone)
      · exact hnil
      · exact absurd hone hbare
      · exact absurd hone hblank
  rw [lastRead_iff, joinedRead_iff, hevents, hshown]
  exact ⟨fun h => ⟨h.one, h.name, h.data, h.shown⟩, fun h => ⟨h.1, h.2.1, h.2.2.1, h.2.2.2⟩⟩

theorem fields_blocks {frame : List Char} (h : ∃ a, frame = a ++ pair) :
    (blocks frame).flatMap Fields.names = (textLines frame).filterMap (fieldValue "event:") ∧
      (blocks frame).flatMap Fields.datas = (textLines frame).filterMap (fieldValue "data:") := by
  obtain ⟨a, rfl⟩ := h
  have hnames := field_run (fun fields line => (fields_step fields line).1)
    (textLines (a ++ pair)) {}
  have hdatas := field_run (fun fields line => (fields_step fields line).2)
    (textLines (a ++ pair)) {}
  rw [run_blank, List.nil_append, List.append_nil] at hnames hdatas
  exact ⟨hnames, hdatas⟩

theorem frameEvent_of_no_blocks {frame : List Char} (h : ∃ a, frame = a ++ pair)
    (hblocks : blocks frame = []) : frameEvent frame = none ∧ FrameRead frame := by
  obtain ⟨hnames, hdatas⟩ := fields_blocks h
  rw [hblocks] at hnames hdatas
  have hname := spaced_eq_nil hnames.symm
  have hdata := spaced_eq_nil hdatas.symm
  constructor
  · rw [frameEvent_eq, hname, hdata]
    rfl
  · refine (frameRead_iff frame).mpr ⟨by simp [hblocks], ?_, ?_, fun _ _ => hdatas.symm⟩
    · rw [hname, ← hnames]
      rfl
    · rw [hdata, ← hdatas]
      rfl

/-- **A frame is captured as the client reads it** if and only if it is read as it is written. -/
theorem frameEvent_iff {frame : List Char} (h : ∃ a, frame = a ++ pair) :
    (frameEvent frame).toList = (blocks frame).map blockEvent ↔ FrameRead frame := by
  obtain ⟨hnames, hdatas⟩ := fields_blocks h
  have hne : ∀ b ∈ blocks frame, b ≠ {} := fun b hb => ne_empty_of_mem_run hb
  rcases hblocks : blocks frame with _ | ⟨b, _ | ⟨b', bs⟩⟩
  · obtain ⟨hnone, hread⟩ := frameEvent_of_no_blocks h hblocks
    rw [hnone]
    exact iff_of_true rfl hread
  · rw [frameEvent_eq]
    dsimp only
    have hn : (textLines frame).filterMap (fieldValue "event:") = b.names := by
      rw [← hnames, hblocks, List.flatMap_singleton]
    have hd : (textLines frame).filterMap (fieldValue "data:") = b.datas := by
      rw [← hdatas, hblocks, List.flatMap_singleton]
    have hfields : b.names = [] → b.datas ≠ [] := by
      intro hname hdata
      refine hne b (by rw [hblocks]; exact List.mem_singleton_self b) ?_
      cases b
      simp_all
    constructor
    · intro he
      split_ifs at he with hshown
      · have hevent := (List.cons.inj he).1
        simp only [blockEvent, Fields.event, StreamEvent.sse.injEq] at hevent
        obtain ⟨hname, hdata⟩ := hevent
        refine (frameRead_iff frame).mpr
          ⟨by simp [hblocks], by rw [hn]; exact hname, by rw [hd]; exact hdata, ?_⟩
        rw [hn, hd]
        intro hnone hempty
        rw [hname, hdata, hnone, hempty] at hshown
        simp at hshown
      · cases he
    · intro hread
      obtain ⟨-, hname, hdata, hsilent⟩ := (frameRead_iff frame).mp hread
      rw [hn] at hname hsilent
      rw [hd] at hdata hsilent
      rw [hname, hdata, if_pos]
      · rfl
      · -- without a name there is data, and it is not blank
        cases hlast : b.names.getLast? with
        | some name => rfl
        | none =>
          have hnone := List.getLast?_eq_none_iff.mp hlast
          have hempty : String.intercalate "\n" b.datas ≠ "" :=
            fun he => hfields hnone (hsilent hnone he)
          simp [hempty]
  · refine iff_of_false ?_ fun hread => ?_
    · intro he
      have hlength := congrArg List.length he
      cases hevent : frameEvent frame <;> simp [hevent] at hlength
    · have hone := hread.one
      rw [hblocks] at hone
      simp at hone

/-- A frame gives no more events than it has blocks. -/
theorem length_frameEvent_le {frame : List Char} (h : ∃ a, frame = a ++ pair) :
    (frameEvent frame).toList.length ≤ ((blocks frame).map blockEvent).length := by
  rcases hblocks : blocks frame with _ | ⟨b, bs⟩
  · rw [(frameEvent_of_no_blocks h hblocks).1]
    rfl
  · cases frameEvent frame <;> simp

/-- Pieces that are no longer than others, and together as long as these and more, are the same, and
there is no more. -/
theorem flatMap_eq_append_iff {α β : Type} {l : List α} {f g : α → List β}
    (hle : ∀ a ∈ l, (f a).length ≤ (g a).length) {r : List β} :
    l.flatMap f = l.flatMap g ++ r ↔ (∀ a ∈ l, f a = g a) ∧ r = [] := by
  induction l with
  | nil => simp [eq_comm]
  | cons a l ih =>
    have htail := ih fun b hb => hle b (List.mem_cons_of_mem _ hb)
    have hlength : (l.flatMap f).length ≤ (l.flatMap g).length := by
      rw [List.length_flatMap, List.length_flatMap]
      exact List.sum_le_sum fun b hb => hle b (List.mem_cons_of_mem _ hb)
    rw [List.flatMap_cons, List.flatMap_cons, List.append_assoc, List.forall_mem_cons, and_assoc,
      ← htail]
    constructor
    · intro he
      have hall := congrArg List.length he
      simp only [List.length_append] at hall
      have ha := hle a List.mem_cons_self
      exact List.append_inj he (by omega)
    · rintro ⟨ha, he⟩
      rw [ha, he]

theorem frameEvents_iff (text : List Char) :
    (cutFrames text).1.filterMap frameEvent = (blocks text).map blockEvent ↔
      (∀ frame ∈ (cutFrames text).1, FrameRead frame) ∧ blocks (cutFrames text).2 = [] := by
  have hends : ∀ frame ∈ (cutFrames text).1, ∃ a, frame = a ++ pair :=
    fun frame hframe => frameStep_ends text hframe
  have hfilterMap : ∀ l : List (List Char),
      l.filterMap frameEvent = l.flatMap fun frame => (frameEvent frame).toList := by
    intro l
    rw [List.filterMap_eq_flatMap_toList]
  rw [hfilterMap, blocks_eq, List.map_append, List.map_flatMap,
    flatMap_eq_append_iff fun frame hframe => length_frameEvent_le (hends frame hframe),
    List.map_eq_nil_iff]
  refine and_congr_left fun _ => forall₂_congr fun frame hframe => ?_
  exact frameEvent_iff (hends frame hframe)

/-- **The capture shows the events that the client gets** if and only if every frame of what is sent
is read as it is written, and nothing complete comes after the last frame. -/
theorem sse_capture_iff (c : Json.Codec) (mode : RequestMode)
    (backendModel publicModel : Option String) (emitUsageToClient : Bool) (chunks : List Bytes)
    (ended : Bool) :
    let s := SseStrategy.new mode backendModel publicModel emitUsageToClient
    let sent := sentChunks c s chunks ended
    let text := (fromUtf8Lossy sent.flatten).toList
    (ended = true → sent.flatten = (streamAll c s chunks).2) ∧
      (recordAllSse sent = (blocks text).map blockEvent ↔
        (∀ frame ∈ (cutFrames text).1, FrameRead frame) ∧ blocks (cutFrames text).2 = []) := by
  intro s sent text
  constructor
  · rintro rfl
    exact flatten_sentChunks c s chunks true
  · rw [recordAllSse_eq, chunkTexts_sentChunks]
    exact frameEvents_iff text

/-- A client that reads a stream with carriage returns gets an event that is not captured. -/
theorem not_sse_capture_return :
    ¬ ∀ (c : Json.Codec) (mode : RequestMode) (backendModel publicModel : Option String)
      (emitUsageToClient : Bool) (chunks : List Bytes),
      let sent := sentChunks c (SseStrategy.new mode backendModel publicModel emitUsageToClient)
        chunks true
      recordAllSse sent = (blocks (fromUtf8Lossy sent.flatten).toList).map blockEvent := by
  intro h
  have hreturn := h Json.reference .native none none true [asBytes "data: x\r\n\r\n"]
  exact absurd hreturn (by decide +kernel)

end Onair
