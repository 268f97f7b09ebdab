import Onair.Chat.Unnamed
import Onair.Lib.Json.Ends
import Onair.Observe.SseCapture

/-!
# The backend's model behind the events of a stream

A client joins the `data:` lines of an event; a normalizer reads every line by itself, and sends on
as it came what it cannot read.

* `sseEvents`, `dataLines`, `eventData`: the events of a stream;
* `Masked`: the backend's model is named on no line, and by no event but one whose data is spread
  over several lines, some of them no JSON by itself and sent on;
* `LineUnnamed`, `OutUnnamed`: what is sent for a line;
* `handleFrame_unnamed`, `finishTail_unnamed`: **a strategy names the backend's model in nothing
  that it sends**;
* `unnaming_glued`: nor does a last line that has no end, with the first event after it;
* **`backend_model_masked`**: the backend's model is masked in every stream.
-/

namespace Onair

open Json Text Lines

/-! ### The events of a stream -/

/-- The events of a stream: its lines, cut at the blank ones. -/
def sseEvents (b : Bytes) : List (List Bytes) :=
  ((cutLines b).splitOnP fun line => (lineContent line).isEmpty).filter fun event => !event.isEmpty

/-- What the `data:` lines of an event say. -/
def dataLines (event : List Bytes) : List Bytes :=
  event.filterMap fun line => sseFieldValue (lineContent line) (asBytes "data:")

/-- The data of an event: its `data:` lines, joined with line feeds. -/
def eventData (event : List Bytes) : Bytes := [nl].intercalate (dataLines event)

/-- The text is JSON in which an object names the model. -/
def namesIn (c : Codec) (name : String) (text : Bytes) : Bool :=
  (c.fromSlice text).any (namesModel name)

/-- The mode sends chat completion frames of its own, and no line of the backend. -/
def RequestMode.toChat : RequestMode → Bool
  | .chatCompletionsViaResponses | .chatCompletionsViaMessages => true
  | _ => false

/-- **The model is masked**: no `data:` line names it by itself, and no event does, unless lines of
the backend are sent on and one of those of its data is no JSON by itself. -/
structure Masked (c : Codec) (name : String) (toChat : Bool) (b : Bytes) : Prop where
  line : ∀ event ∈ sseEvents b, ∀ data ∈ dataLines event, namesIn c name data = false
  event : ∀ event ∈ sseEvents b, namesIn c name (eventData event) = true →
    toChat = false ∧ 1 < (dataLines event).length ∧
      ∃ data ∈ dataLines event, c.fromSlice data = none

/-! ### Lines -/

/-- The line says nothing that names the model. -/
def LineUnnamed (c : Codec) (name : String) (line : Bytes) : Prop :=
  ∀ data, sseFieldValue (lineContent line) (asBytes "data:") = some data →
    namesIn c name data = false

/-- No line of the text names the model. -/
def Unnaming (c : Codec) (name : String) (b : Bytes) : Prop :=
  ∀ line ∈ cutLines b, LineUnnamed c name line

theorem cutLines_line {line : Bytes} (h : IsLine line) (b : Bytes) :
    cutLines (line ++ b) = line :: cutLines b := by
  unfold cutLines
  rw [h.drain]
  rfl

theorem cutLines_append {a : Bytes} (h : a = [] ∨ EndsLine a) (b : Bytes) :
    cutLines (a ++ b) = cutLines a ++ cutLines b := by
  have hrest : (drainLines a).2 = [] := by
    obtain rfl | ⟨l, rfl⟩ := h
    · rfl
    · have hlast := drainLines_line (drainLines_rest l) []
      rw [drainLines_append, hlast]
      rfl
  unfold cutLines
  rw [drainLines_append, hrest, List.nil_append, if_pos rfl, List.append_nil, List.append_assoc]

section

variable {c : Codec} {name : String}

theorem Unnaming.line {line b : Bytes} (hline : IsLine line) (h : LineUnnamed c name line)
    (hb : Unnaming c name b) : Unnaming c name (line ++ b) := by
  unfold Unnaming
  rw [cutLines_line hline]
  exact List.forall_mem_cons.mpr ⟨h, hb⟩

theorem Unnaming.of_line {line b : Bytes} (hline : IsLine line)
    (h : Unnaming c name (line ++ b)) : Unnaming c name b := by
  unfold Unnaming at h
  rw [cutLines_line hline] at h
  exact (List.forall_mem_cons.mp h).2

theorem Unnaming.append {a b : Bytes} (hends : a = [] ∨ EndsLine a) (ha : Unnaming c name a)
    (hb : Unnaming c name b) : Unnaming c name (a ++ b) := by
  unfold Unnaming
  rw [cutLines_append hends]
  exact List.forall_mem_append.mpr ⟨ha, hb⟩

theorem unnaming_of_areLines {line : Bytes} (hline : AreLines [line])
    (h : LineUnnamed c name line) : Unnaming c name line := by
  have hcut := cutLines_of_areLines hline
  rw [List.flatten_singleton] at hcut
  unfold Unnaming
  rw [hcut]
  exact List.forall_mem_singleton.mpr h

/-- A line is read as JSON, or names nothing. -/
theorem lineUnnamed_of_json (hc : c.LawfulLine) {line : Bytes}
    (h : ∀ space value, JsonLine c line space value → namesModel name value = false) :
    LineUnnamed c name line := by
  intro data hdata
  rw [namesIn, Option.any_eq_false]
  intro value hvalue
  obtain ⟨hcontent, hhead⟩ := (sseFieldValue_data _).mp ⟨hdata, rfl⟩
  refine h _ value ⟨data, hcontent, ?_, hvalue, hhead⟩
  rintro rfl
  rw [hc.done_unread] at hvalue
  cases hvalue

theorem lineUnnamed_of_head {line : Bytes} (h : line.head? ≠ some 100) :
    LineUnnamed c name line := by
  intro data hdata
  obtain ⟨rest, hrest, -⟩ := Option.map_eq_some_iff.mp hdata
  refine absurd ?_ h
  rw [← lineContent_append_lineSuffix line, stripPrefix_eq_some.mp hrest]
  rfl

/-- A line that is written with a value names what the value names. -/
theorem lineUnnamed_written (hc : c.LawfulLine) (space : Bool) {value : Value}
    (hfits : value.Fits maxDepth) (h : namesModel name value = false) (line : Bytes) :
    LineUnnamed c name (writtenLine c space value (lineSuffix line)) := by
  refine lineUnnamed_of_json hc fun space' read hread => ?_
  obtain ⟨-, read', hread', hblur⟩ := jsonLine_written hc space hfits line
  have heq := (parseSseLine_eq_data.mpr hread).symm.trans (parseSseLine_eq_data.mpr hread')
  obtain ⟨rfl, -, -⟩ := SseFrame.data.inj heq
  rw [← namesModel_blur, hblur, namesModel_blur, h]

/-- What names a model ends with a bracket. -/
theorem namesIn_end (he : c.LawfulEnd) {text : Bytes} (h : namesIn c name text = true) :
    ∃ b, text.reverse.find? (fun x => x ≠ 32 ∧ x ≠ 9 ∧ x ≠ 10 ∧ x ≠ 13) = some b ∧
      (b = 93 ∨ b = 125) := by
  obtain ⟨v, hv, hnames⟩ := (Option.any_eq_true _ _).mp h
  have hclosed : v.asArray.isSome ∨ v.asObject.isSome := by
    cases v with
    | array => exact Or.inl rfl
    | object => exact Or.inr rfl
    | _ => cases hnames
  obtain hb | hb := he.closed text v hv hclosed
  · exact ⟨93, hb, Or.inl rfl⟩
  · exact ⟨125, hb, Or.inr rfl⟩

theorem namesIn_nil (he : c.LawfulEnd) : namesIn c name [] = false := by
  rw [Bool.eq_false_iff]
  intro h
  obtain ⟨b, hb, -⟩ := namesIn_end he h
  cases hb

theorem suffix_of_sseFieldValue {content field data : Bytes}
    (h : sseFieldValue content field = some data) : data <:+ content := by
  obtain ⟨rest, hrest, hvalue⟩ := Option.map_eq_some_iff.mp h
  refine List.IsSuffix.trans ?_ ⟨field, (stripPrefix_eq_some.mp hrest).symm⟩
  cases hblank : stripPrefix (asBytes " ") rest with
  | none =>
    rw [hblank] at hvalue
    exact hvalue ▸ List.suffix_refl _
  | some value =>
    rw [hblank] at hvalue
    exact hvalue ▸ ⟨_, (stripPrefix_eq_some.mp hblank).symm⟩

theorem lineContent_concat (a : Bytes) {x : UInt8} (hx : x ≠ 13) :
    lineContent (a ++ [x] ++ [nl]) = a ++ [x] := by
  have hnewline : stripSuffix (asBytes "\n") (a ++ [x] ++ [nl]) = some (a ++ [x]) :=
    stripSuffix_eq_some.mpr rfl
  have hreturn : stripSuffix (asBytes "\r") (a ++ [x]) = none := by
    rw [Option.eq_none_iff_forall_ne_some]
    intro r hr
    obtain ⟨-, hlast⟩ := List.append_inj' (stripSuffix_eq_some.mp hr) rfl
    exact hx (List.cons.inj hlast).1
  unfold lineContent
  rw [hnewline]
  dsimp only [Option.getD_some]
  rw [hreturn]
  rfl

/-- **A line that ends with another byte names nothing**, whatever else is on it. -/
theorem lineUnnamed_concat (he : c.LawfulEnd) (a : Bytes) {x : UInt8}
    (hx : x ∉ [93, 125, 32, 9, 10, 13]) : LineUnnamed c name (a ++ [x] ++ [nl]) := by
  simp only [List.mem_cons, List.not_mem_nil, or_false, not_or] at hx
  obtain ⟨hbracket, hbrace, hspace, htab, hnl, hcr⟩ := hx
  intro data hdata
  rw [lineContent_concat a hcr] at hdata
  rw [Bool.eq_false_iff]
  intro hnames
  obtain ⟨b, hb, hclosing⟩ := namesIn_end he hnames
  rcases List.suffix_concat_iff.mp (suffix_of_sseFieldValue hdata) with rfl | ⟨d, rfl, -⟩
  · cases hb
  · rw [List.reverse_append, List.reverse_singleton, List.singleton_append,
      List.find?_cons_of_pos (by simp [hspace, htab, hnl, hcr])] at hb
    obtain rfl := Option.some.inj hb
    exact hclosing.elim hbracket hbrace

end

/-! ### What is sent for a line -/

/-- **What is sent for a line** does not name the model: the line itself, if it is not read as JSON;
or it again with another value; or an event or a chunk that names another model. -/
inductive OutUnnamed (c : Codec) (name : String) (line : Bytes) : Bool → SseOut → Prop
  | line (h : ∀ space value, ¬JsonLine c line space value) :
      OutUnnamed c name line false (.line line)
  | dataLine (space : Bool) {value : Value} (hfits : value.Fits maxDepth)
      (h : namesModel name value = false) :
      OutUnnamed c name line false (.dataLine space value (lineSuffix line))
  | event {e : ResponsesEvent} (h : e.modelName ≠ some name) :
      OutUnnamed c name line false (.event e)
  | chat {f : ChatFrame} (h : f.modelName ≠ some name) : OutUnnamed c name line true (.chat f)

/-- The line with the name of an event. -/
def eventLine (e : ResponsesEvent) : Bytes :=
  asBytes "event: " ++ asBytes e.eventType ++ asBytes "\n"

/-- The name of an event ends with a letter. -/
theorem eventType_end (e : ResponsesEvent) : nl ∉ asBytes e.eventType ∧
    ∃ a x, asBytes e.eventType = a ++ [x] ∧ x ∉ [93, 125, 32, 9, 10, 13] := by
  have hnames : nl ∉ asBytes e.eventType ∧
      (asBytes e.eventType).getLast?.any fun x => x ∉ [93, 125, 32, 9, 10, 13] := by
    cases e <;> simp only [ResponsesEvent.eventType] <;> decide
  obtain ⟨hnl, hlast⟩ := hnames
  obtain ⟨x, hx, hletter⟩ := (Option.any_eq_true _ _).mp hlast
  obtain ⟨a, ha⟩ := List.getLast?_eq_some_iff.mp hx
  exact ⟨hnl, a, x, ha, of_decide_eq_true hletter⟩

theorem bytes_event (c : Codec) (e : ResponsesEvent) :
    (SseOut.event e).bytes c = eventLine e ++ sseData c e.data := by
  simp only [SseOut.bytes, sseEvent, sseData, eventLine, List.append_assoc]

theorem isLine_eventLine {a : Bytes} (h : nl ∉ a) (e : ResponsesEvent) :
    IsLine (a ++ eventLine e) := by
  refine ⟨a ++ (asBytes "event: " ++ asBytes e.eventType), ?_, (List.append_assoc _ _ _).symm⟩
  simp only [List.mem_append, not_or]
  exact ⟨h, by decide, (eventType_end e).1⟩

section

variable {c : Codec} {name : String}

theorem lineUnnamed_eventLine (he : c.LawfulEnd) (a : Bytes) (e : ResponsesEvent) :
    LineUnnamed c name (a ++ eventLine e) := by
  obtain ⟨-, b, x, hb, hx⟩ := eventType_end e
  have hglued : LineUnnamed c name _ := lineUnnamed_concat he (a ++ (asBytes "event: " ++ b)) hx
  have hnewline : asBytes "\n" = [nl] := rfl
  simpa only [eventLine, hb, hnewline, List.append_assoc] using hglued

/-- The `data:` line of a value, and the blank line after it. -/
theorem sseData_eq (value : Value) :
    sseData c value = writtenLine c true value (lineSuffix [nl]) ++ [nl] := by
  have hsuffix : lineSuffix [nl] = [nl] := by decide
  have hend : asBytes "\n\n" = [nl] ++ [nl] := by decide
  have hdata : asBytes "data: " = asBytes "data:" ++ blank true := by decide
  rw [sseData, writtenLine, hsuffix, hend, hdata, List.append_assoc _ [nl] [nl]]

theorem isLine_written (hc : c.LawfulLine) (space : Bool) {value : Value}
    (hfits : value.Fits maxDepth) (line : Bytes) :
    (IsLine line → IsLine (writtenLine c space value (lineSuffix line))) ∧
      (nl ∉ line → writtenLine c space value (lineSuffix line) ≠ [] ∧
        nl ∉ writtenLine c space value (lineSuffix line)) := by
  obtain ⟨hsuffix, hread⟩ := jsonLine_written hc space hfits line
  have hwritten : Written c line space value (writtenLine c space value (lineSuffix line)) :=
    ⟨rfl, hsuffix, hread⟩
  exact hwritten.isLine hc.toLawful

theorem isLine_blank : IsLine [nl] := ⟨[], List.not_mem_nil, rfl⟩

theorem unnaming_nil : Unnaming c name [] := List.forall_mem_nil _

theorem unnaming_sseData (hc : c.LawfulLine) {value : Value} (hfits : value.Fits maxDepth)
    (h : namesModel name value = false) : Unnaming c name (sseData c value) := by
  rw [sseData_eq, ← List.append_nil [nl]]
  refine .line ((isLine_written hc true hfits [nl]).1 isLine_blank)
    (lineUnnamed_written hc true hfits h [nl]) ?_
  exact .line isLine_blank (lineUnnamed_of_head (by decide)) unnaming_nil

/-- The `data:` line of a chat completion frame. -/
def chatLine (c : Codec) (f : ChatFrame) : Bytes :=
  match f.data with
  | some value => writtenLine c true value (lineSuffix [nl])
  | none => asBytes "data: [DONE]\n"

theorem bytes_chat (f : ChatFrame) : (SseOut.chat f).bytes c = chatLine c f ++ [nl] := by
  have hdone : asBytes "data: [DONE]\n\n" = asBytes "data: [DONE]\n" ++ [nl] := by decide
  simp only [SseOut.bytes, chatLine]
  cases f.data with
  | some value => exact sseData_eq value
  | none => exact hdone

theorem isLine_chatLine (hc : c.LawfulLine) (f : ChatFrame) : IsLine (chatLine c f) := by
  unfold chatLine
  cases hdata : f.data with
  | some value =>
    exact (isLine_written hc true ((f.fits_data hdata).mono (by decide)) [nl]).1 isLine_blank
  | none =>
    have hdone : asBytes "data: [DONE]\n" = asBytes "data: [DONE]" ++ [nl] := by decide
    exact ⟨asBytes "data: [DONE]", by decide, hdone⟩

theorem lineUnnamed_chatLine (hc : c.LawfulLine) {f : ChatFrame} (h : f.modelName ≠ some name) :
    LineUnnamed c name (chatLine c f) := by
  unfold chatLine
  cases hdata : f.data with
  | some value =>
    refine lineUnnamed_written hc true ((f.fits_data hdata).mono (by decide)) ?_ [nl]
    rw [f.namesModel_data name hdata, decide_eq_false h]
  | none =>
    intro data hfield
    have hdone : sseFieldValue (lineContent (asBytes "data: [DONE]\n")) (asBytes "data:") =
        some (asBytes "[DONE]") := by decide
    obtain rfl := Option.some.inj (hdone.symm.trans hfield)
    rw [namesIn, hc.done_unread]
    rfl

/-- **What is sent for a line** names the model on no line. -/
theorem OutUnnamed.unnaming (hc : c.LawfulLine) (he : c.LawfulEnd) {line : Bytes}
    (hline : AreLines [line]) {toChat : Bool} {o : SseOut} (h : OutUnnamed c name line toChat o) :
    Unnaming c name (o.bytes c) := by
  cases h with
  | line hraw =>
    refine unnaming_of_areLines hline (lineUnnamed_of_json hc fun space value hjson => ?_)
    exact absurd hjson (hraw space value)
  | dataLine space hfits hvalue =>
    obtain ⟨hcomplete, hopen⟩ := isLine_written hc space hfits line
    exact unnaming_of_areLines (Or.imp hcomplete (fun h => hopen h.2) hline)
      (lineUnnamed_written hc space hfits hvalue line)
  | @event e hmodel =>
    rw [bytes_event]
    refine .line (isLine_eventLine List.not_mem_nil e) (lineUnnamed_eventLine he [] e) ?_
    refine unnaming_sseData hc (e.fits_data.mono (by decide)) ?_
    rw [e.namesModel_data, decide_eq_false hmodel]
  | @chat f hmodel =>
    rw [bytes_chat, ← List.append_nil [nl]]
    refine .line (isLine_chatLine hc f) (lineUnnamed_chatLine hc hmodel) ?_
    exact .line isLine_blank (lineUnnamed_of_head (by decide)) unnaming_nil

end

/-! ### Strategies -/

/-- The observer knows both names. -/
def SseObserver.Masks (name pub : String) (o : SseObserver) : Prop :=
  o.backendModel = some name ∧ o.publicModel = some pub

theorem SseObserver.Masks.namesModel {name pub : String} {o : SseObserver} (h : o.Masks name pub)
    (hne : name ≠ pub) (value : Value) : namesModel name (o.rewritten value) = false := by
  unfold SseObserver.rewritten SseObserver.rewriteModels
  rw [h.1, h.2]
  exact namesModel_ensure (namesModel_rewrite hne value)

theorem SseObserver.Masks.observeUsage {name pub : String} {o : SseObserver}
    (h : o.Masks name pub) (event : Value) : (o.observeUsage event).Masks name pub := by
  unfold SseObserver.observeUsage
  cases anthropicEventUsage event with
  | none => exact h
  | some usage => exact h

theorem namesModel_removeUsageField {name : String} {v : Value} (h : namesModel name v = false) :
    namesModel name (removeUsageField v) = false := by
  cases v with
  | object m =>
    rw [namesModel_object, List.any_eq_false] at h
    rw [removeUsageField, namesModel_object, List.any_eq_false]
    exact fun e he => h e (List.mem_filter.mp he).1
  | _ => exact h

namespace SseStrategy

/-- The strategy knows both names, and does not keep that of the backend as the model of its
stream. -/
def Masks (name pub : String) : SseStrategy → Prop
  | .native n => n.state.observer.Masks name pub
  | .responses n => n.state.observer.Masks name pub ∧ n.state.stream.model ≠ some name
  | .chatCompletions n => n.state.observer.Masks name pub ∧ n.state.stream.model ≠ some name
  | .anthropicMessages _ => False
  | .anthropicMessagesToChat n =>
    n.state.observer.Masks name pub ∧ n.state.stream.model ≠ some name

/-- The strategy sends frames of its own, and no line of the backend. -/
def toChat : SseStrategy → Bool
  | .chatCompletions _ | .anthropicMessagesToChat _ => true
  | _ => false

theorem handleFrame_toChat (s : SseStrategy) (f : SseFrame) :
    (s.handleFrame f).1.toChat = s.toChat := by
  cases s <;> rfl

end SseStrategy

section

variable {c : Codec} {name pub : String}

theorem outUnnamed_raw {line : Bytes} (h : ∀ value space line', parseSseLine c line ≠
    .data value space line') : OutUnnamed c name line false (.line line) :=
  .line fun space value hjson => h value space line (parseSseLine_eq_data.mpr hjson)

theorem SseNormalizer.handleFrame_unnamed (hc : c.LawfulLine) (hne : name ≠ pub) {n : SseNormalizer}
    (hn : n.observer.Masks name pub) (line : Bytes) :
    (n.handleFrame (parseSseLine c line)).1.observer.Masks name pub ∧
      ∀ o ∈ (n.handleFrame (parseSseLine c line)).2, OutUnnamed c name line false o := by
  obtain ⟨value, space, hdata⟩ | hraw := (parseSseLine c line).data_or
  · rw [parseSseLine_line] at hdata
    have hfits := (parseSseLine_eq_data.mp hdata).fits hc.toLawful
    have hrewritten := fits_rewritten n.observer hfits
    have hnames := hn.namesModel hne value
    rw [hdata, SseNormalizer.handleFrame, SseNormalizer.handleData]
    dsimp only
    rw [n.observer.applyDataPrologue_value]
    split_ifs
    · exact ⟨hn, by simp⟩
    · exact ⟨hn, List.forall_mem_singleton.mpr (.dataLine space (fits_removeUsageField hrewritten)
        (namesModel_removeUsageField hnames))⟩
    · exact ⟨hn, List.forall_mem_singleton.mpr (.dataLine space hrewritten hnames)⟩
  · have hline := parseSseLine_line c line
    have hsent : OutUnnamed c name line false _ := outUnnamed_raw hraw
    revert hline hraw
    cases parseSseLine c line with
    | data value space line' => exact fun hraw _ => absurd rfl (hraw value space line')
    | _ =>
      rintro - rfl
      exact ⟨hn, List.forall_mem_singleton.mpr hsent⟩

variable (hunknown : name ≠ "unknown")

include hunknown

namespace ResponsesSseNormalizer

variable {n : ResponsesSseNormalizer} (hn : n.observer.Masks name pub ∧ n.stream.model ≠ some name)

include hn

theorem finishTail_unnamed (line : Bytes) :
    (n.finishTail.1.observer.Masks name pub ∧ n.finishTail.1.stream.model ≠ some name) ∧
      ∀ o ∈ n.finishTail.2, OutUnnamed c name line false o := by
  have hstep := ResponsesStream.step_unnamed hunknown hn.2 (m := .finish n.observer.usage) trivial
  exact ⟨⟨hn.1, hstep.1⟩, List.forall_mem_map.mpr fun e he => .event (hstep.2 e he)⟩

theorem handleFrame_unnamed (hne : name ≠ pub) (line : Bytes) :
    ((n.handleFrame (parseSseLine c line)).1.observer.Masks name pub ∧
        (n.handleFrame (parseSseLine c line)).1.stream.model ≠ some name) ∧
      ∀ o ∈ (n.handleFrame (parseSseLine c line)).2, OutUnnamed c name line false o := by
  obtain ⟨value, space, hdata⟩ | hraw := (parseSseLine c line).data_or
  · rw [hdata]
    have hmoves := ResponsesStream.frameMoves_unnamed (fun v => hn.1.namesModel hne v)
      (.data value space line)
    have hrun := ResponsesStream.run_unnamed hunknown hn.2 hmoves
    rw [frameMoves, ResponsesStream.run_chunkMoves] at hrun
    exact ⟨⟨hn.1, hrun.1⟩, List.forall_mem_map.mpr fun e he => .event (hrun.2 e he)⟩
  · have hline := parseSseLine_line c line
    have hsent : OutUnnamed c name line false _ := outUnnamed_raw hraw
    revert hline hraw
    cases parseSseLine c line with
    | data value space line' => exact fun hraw _ => absurd rfl (hraw value space line')
    | done line' =>
      rintro - rfl
      have hfinish := finishTail_unnamed (c := c) hunknown
        (n := { n with observer := n.observer.clearEvent }) hn line'
      exact ⟨hfinish.1, List.forall_mem_append.mpr
        ⟨hfinish.2, List.forall_mem_singleton.mpr hsent⟩⟩
    | _ =>
      rintro - rfl
      exact ⟨hn, List.forall_mem_singleton.mpr hsent⟩

end ResponsesSseNormalizer

namespace ChatCompletionsSseNormalizer

variable {n : ChatCompletionsSseNormalizer}
  (hn : n.observer.Masks name pub ∧ n.stream.model ≠ some name)

include hn

theorem finishTail_unnamed (line : Bytes) :
    (n.finishTail.1.observer.Masks name pub ∧ n.finishTail.1.stream.model ≠ some name) ∧
      ∀ o ∈ n.finishTail.2, OutUnnamed c name line true o := by
  have hstop : ChatSignal.Unnamed name .stop := trivial
  have hsignal := ChatStream.signal_unnamed hunknown hn.2 hstop
  exact ⟨⟨hn.1, hsignal.1⟩, List.forall_mem_map.mpr fun f hf => .chat (hsignal.2 f hf)⟩

theorem handleFrame_unnamed (hne : name ≠ pub) (line : Bytes) (f : SseFrame) :
    ((n.handleFrame f).1.observer.Masks name pub ∧ (n.handleFrame f).1.stream.model ≠ some name) ∧
      ∀ o ∈ (n.handleFrame f).2, OutUnnamed c name line true o := by
  cases f with
  | data value space line' =>
    have hevent : ChatSignal.Unnamed name (.event (n.observer.rewritten value)) :=
      hn.1.namesModel hne value
    have hsignal := ChatStream.signal_unnamed hunknown hn.2 hevent
    exact ⟨⟨hn.1, hsignal.1⟩, List.forall_mem_map.mpr fun f hf => .chat (hsignal.2 f hf)⟩
  | done line' =>
    exact finishTail_unnamed hunknown
      (n := { n with observer := n.observer.clearEvent }) hn line
  | _ => exact ⟨hn, fun o ho => by cases ho⟩

end ChatCompletionsSseNormalizer

namespace AnthropicMessagesToChatSseNormalizer

variable {n : AnthropicMessagesToChatSseNormalizer}
  (hn : n.observer.Masks name pub ∧ n.stream.model ≠ some name)

include hn

theorem finishTail_unnamed (hne : name ≠ pub) (line : Bytes) :
    (n.finishTail.1.observer.Masks name pub ∧ n.finishTail.1.stream.model ≠ some name) ∧
      ∀ o ∈ n.finishTail.2, OutUnnamed c name line true o := by
  have hsignal := MessagesStream.signal_unnamed hunknown hn.2 hne
    (.stop n.observer.usage n.observer.diagnostics.usageObjectCount)
  exact ⟨⟨hn.1, hsignal.1⟩, List.forall_mem_map.mpr fun f hf => .chat (hsignal.2 f hf)⟩

theorem handleFrame_unnamed (hne : name ≠ pub) (line : Bytes) (f : SseFrame) :
    ((n.handleFrame f).1.observer.Masks name pub ∧ (n.handleFrame f).1.stream.model ≠ some name) ∧
      ∀ o ∈ (n.handleFrame f).2, OutUnnamed c name line true o := by
  cases f with
  | data value space line' =>
    have hsignal := MessagesStream.signal_unnamed hunknown hn.2 hne
      (.event (n.observer.observeUsage (rewriteEvent n.observer value)).usage
        (n.observer.observeUsage (rewriteEvent n.observer value)).diagnostics.usageObjectCount
        (rewriteEvent n.observer value))
    rw [handleFrame, handleData, hn.1.1, hn.1.2]
    exact ⟨⟨hn.1.observeUsage _, hsignal.1⟩,
      List.forall_mem_map.mpr fun f hf => .chat (hsignal.2 f hf)⟩
  | done line' =>
    exact finishTail_unnamed hunknown
      (n := { n with observer := n.observer.clearEvent }) hn hne line
  | _ => exact ⟨hn, fun o ho => by cases ho⟩

end AnthropicMessagesToChatSseNormalizer

namespace SseStrategy

variable {s : SseStrategy} (hs : s.Masks name pub) (hne : name ≠ pub)

include hs hne

/-- **A line brings the backend's name up nowhere.** -/
theorem handleFrame_unnamed (hc : c.LawfulLine) (line : Bytes) :
    (s.handleFrame (parseSseLine c line)).1.Masks name pub ∧
      ∀ o ∈ (s.handleFrame (parseSseLine c line)).2, OutUnnamed c name line s.toChat o := by
  cases s with
  | native n => exact SseNormalizer.handleFrame_unnamed hc hne hs line
  | responses n => exact ResponsesSseNormalizer.handleFrame_unnamed hunknown hs hne line
  | chatCompletions n =>
    exact ChatCompletionsSseNormalizer.handleFrame_unnamed hunknown hs hne line _
  | anthropicMessages n => exact hs.elim
  | anthropicMessagesToChat n =>
    exact AnthropicMessagesToChatSseNormalizer.handleFrame_unnamed hunknown hs hne line _

/-- Nor does the end of the stream. -/
theorem finishTail_unnamed (line : Bytes) :
    ∀ o ∈ s.finishTail.2, OutUnnamed c name line s.toChat o := by
  cases s with
  | native n => exact fun o ho => by cases ho
  | responses n => exact (ResponsesSseNormalizer.finishTail_unnamed hunknown hs line).2
  | chatCompletions n =>
    exact (ChatCompletionsSseNormalizer.finishTail_unnamed hunknown hs line).2
  | anthropicMessages n => exact hs.elim
  | anthropicMessagesToChat n =>
    exact (AnthropicMessagesToChatSseNormalizer.finishTail_unnamed hunknown hs hne line).2

end SseStrategy

end

/-! ### The loop -/

/-- What is sent names the model on no line, and is made of frames if no lines are sent on. -/
structure Sent (c : Codec) (name : String) (toChat : Bool) (b : Bytes) : Prop where
  unnaming : Unnaming c name b
  frames : toChat = true → ∃ fs : List ChatFrame, b = outBytes c (fs.map .chat)

/-- A piece of output is sent for a line, and is complete. -/
def OutComplete (c : Codec) (name : String) (toChat : Bool) (o : SseOut) : Prop :=
  EndsLine (o.bytes c) ∧ ∃ line, AreLines [line] ∧ OutUnnamed c name line toChat o

section

variable {c : Codec} {name pub : String} {toChat : Bool}

theorem Sent.nil : Sent c name toChat [] := ⟨unnaming_nil, fun _ => ⟨[], rfl⟩⟩

theorem Sent.append {a b : Bytes} (hends : a = [] ∨ EndsLine a) (ha : Sent c name toChat a)
    (hb : Sent c name toChat b) : Sent c name toChat (a ++ b) := by
  refine ⟨ha.unnaming.append hends hb.unnaming, fun h => ?_⟩
  obtain ⟨fs, rfl⟩ := ha.frames h
  obtain ⟨fs', rfl⟩ := hb.frames h
  exact ⟨fs ++ fs', by rw [List.map_append, outBytes_append]⟩

theorem OutUnnamed.frames {line : Bytes} {o : SseOut} (h : OutUnnamed c name line toChat o)
    (htoChat : toChat = true) : ∃ f, o = .chat f := by
  cases h with
  | line => cases htoChat
  | dataLine => cases htoChat
  | event => cases htoChat
  | @chat f => exact ⟨f, rfl⟩

theorem Sent.outBytes (hc : c.LawfulLine) (he : c.LawfulEnd) {out : List SseOut}
    (h : ∀ o ∈ out, OutComplete c name toChat o) : Sent c name toChat (outBytes c out) := by
  induction out with
  | nil => exact .nil
  | cons o out ih =>
    obtain ⟨⟨hends, line, hline, hsent⟩, hrest⟩ := List.forall_mem_cons.mp h
    refine .append (Or.inr hends) ⟨hsent.unnaming hc he hline, fun htoChat => ?_⟩ (ih hrest)
    obtain ⟨f, rfl⟩ := hsent.frames htoChat
    exact ⟨[f], (List.append_nil _).symm⟩

theorem OutUnnamed.ends_or_open (hc : c.LawfulLine) {line : Bytes} (hline : nl ∉ line) {o : SseOut}
    (h : OutUnnamed c name line toChat o) : EndsLine (o.bytes c) ∨ nl ∉ o.bytes c := by
  cases h with
  | line => exact Or.inr hline
  | dataLine space hfits => exact Or.inr ((isLine_written hc space hfits line).2 hline).2
  | event => exact Or.inl (endsLine_event c _)
  | chat => exact Or.inl (endsLine_chat c _)

/-- A last line without an end names nothing, nor does the first event after it. -/
theorem unnaming_glued (he : c.LawfulEnd) {a : Bytes} (ha : nl ∉ a) (hself : Unnaming c name a)
    {es : List ResponsesEvent} (h : Unnaming c name (outBytes c (es.map .event))) :
    Unnaming c name (a ++ outBytes c (es.map .event)) := by
  cases es with
  | nil => rwa [List.map_nil, outBytes_nil, List.append_nil]
  | cons e es =>
    rw [List.map_cons, outBytes_cons, bytes_event, List.append_assoc] at h ⊢
    rw [← List.append_assoc]
    refine .line (isLine_eventLine ha e) (lineUnnamed_eventLine he a e) ?_
    exact h.of_line (isLine_eventLine (a := []) List.not_mem_nil e)

end

namespace SseStrategy

/-- The strategy is in the middle of a stream. -/
structure Running (name pub : String) (toChat : Bool) (s : SseStrategy) : Prop where
  masks : s.Masks name pub
  kind : s.toChat = toChat
  pending : nl ∉ s.parser.pending

section

variable {c : Codec} {name pub : String} {toChat : Bool} {s : SseStrategy}

theorem masks_withParser (p : SseLineParser) : (s.withParser p).Masks name pub ↔
    s.Masks name pub := by
  cases s <;> rfl

theorem toChat_withParser (p : SseLineParser) : (s.withParser p).toChat = s.toChat := by
  cases s <;> rfl

theorem Running.clear (h : s.Running name pub toChat) : s.clear.Running name pub toChat := by
  obtain ⟨hmasks, rfl, hpending⟩ := h
  cases s with
  | anthropicMessages => exact hmasks.elim
  | _ => exact ⟨hmasks, rfl, hpending⟩

theorem finishTail_ends (c : Codec) (s : SseStrategy) :
    ∀ o ∈ s.finishTail.2, EndsLine (o.bytes c) := by
  cases s with
  | native => exact fun o ho => by cases ho
  | responses => exact List.forall_mem_map.mpr fun e _ => endsLine_event c e
  | chatCompletions => exact List.forall_mem_map.mpr fun f _ => endsLine_chat c f
  | anthropicMessages => exact fun o ho => by cases ho
  | anthropicMessagesToChat => exact List.forall_mem_map.mpr fun f _ => endsLine_chat c f

theorem finishTail_events (s : SseStrategy) (h : s.toChat = false) :
    ∃ es : List ResponsesEvent, s.finishTail.2 = es.map .event := by
  cases s with
  | native => exact ⟨[], rfl⟩
  | responses => exact ⟨_, rfl⟩
  | chatCompletions => cases h
  | anthropicMessages => exact ⟨[], rfl⟩
  | anthropicMessagesToChat => cases h

/-- What is sent for a line without an end is complete but for the last piece. -/
theorem handleFrame_tail (c : Codec) (s : SseStrategy) (f : SseFrame) :
    ∃ before, (∀ o ∈ before, EndsLine (o.bytes c)) ∧ ((s.handleFrame f).2 = before ∨
      ∃ o, (s.handleFrame f).2 = before ++ [o] ∧ s.toChat = false) := by
  have hnone : ∀ o ∈ ([] : List SseOut), EndsLine (o.bytes c) := fun o ho => by cases ho
  cases s with
  | native n =>
    cases f with
    | data value space line =>
      simp only [handleFrame, SseNormalizer.handleFrame, SseNormalizer.handleData]
      split_ifs
      · exact ⟨[], hnone, Or.inl rfl⟩
      · exact ⟨[], hnone, Or.inr ⟨_, rfl, rfl⟩⟩
      · exact ⟨[], hnone, Or.inr ⟨_, rfl, rfl⟩⟩
    | _ => exact ⟨[], hnone, Or.inr ⟨_, rfl, rfl⟩⟩
  | responses n =>
    cases f with
    | data value space line =>
      exact ⟨_, List.forall_mem_map.mpr fun e _ => endsLine_event c e, Or.inl rfl⟩
    | done line =>
      exact ⟨_, List.forall_mem_map.mpr fun e _ => endsLine_event c e, Or.inr ⟨_, rfl, rfl⟩⟩
    | _ => exact ⟨[], hnone, Or.inr ⟨_, rfl, rfl⟩⟩
  | chatCompletions n =>
    cases f with
    | data => exact ⟨_, List.forall_mem_map.mpr fun f _ => endsLine_chat c f, Or.inl rfl⟩
    | done => exact ⟨_, List.forall_mem_map.mpr fun f _ => endsLine_chat c f, Or.inl rfl⟩
    | _ => exact ⟨[], hnone, Or.inl rfl⟩
  | anthropicMessages n => cases f <;> exact ⟨[], hnone, Or.inr ⟨_, rfl, rfl⟩⟩
  | anthropicMessagesToChat n =>
    cases f with
    | data => exact ⟨_, List.forall_mem_map.mpr fun f _ => endsLine_chat c f, Or.inl rfl⟩
    | done => exact ⟨_, List.forall_mem_map.mpr fun f _ => endsLine_chat c f, Or.inl rfl⟩
    | _ => exact ⟨[], hnone, Or.inl rfl⟩

section

variable (hc : c.LawfulLine) (hne : name ≠ pub) (hunknown : name ≠ "unknown")

include hc hne hunknown

theorem run_complete (hs : s.Masks name pub) {lines : List Bytes} (hlines : ∀ l ∈ lines, IsLine l) :
    let r := Mealy.run handleFrame s (lines.map (parseSseLine c))
    (r.1.Masks name pub ∧ r.1.toChat = s.toChat) ∧ ∀ o ∈ r.2, OutComplete c name s.toChat o := by
  refine Mealy.run_forall (fun t : SseStrategy => t.Masks name pub ∧ t.toChat = s.toChat) _ ?_
    ⟨hs, rfl⟩
  rintro t f hf ⟨ht, hkind⟩
  obtain ⟨line, hline, rfl⟩ := List.mem_map.mp hf
  obtain ⟨hmasks, hout⟩ := handleFrame_unnamed hunknown ht hne hc line
  refine ⟨⟨hmasks, (t.handleFrame_toChat _).trans hkind⟩, fun o ho => ?_⟩
  have hends := handleFrame_ends c (f := parseSseLine c line)
    (by rw [parseSseLine_line]; exact hlines line hline) t o ho
  exact ⟨hends, line, Or.inl (hlines line hline), hkind ▸ hout o ho⟩

theorem push_complete (hs : s.Running name pub toChat) (chunk : Bytes) :
    (s.push c chunk).1.Running name pub toChat ∧
      ∀ o ∈ (s.push c chunk).2, OutComplete c name toChat o := by
  have hpush := push_withParser c s s.parser chunk
  rw [withParser_self] at hpush
  obtain ⟨⟨hmasks, hkind⟩, hout⟩ := run_complete hc hne hunknown hs.masks
    (drainLines_ends (s.parser.pending ++ chunk))
  rw [hs.kind] at hkind hout
  rw [hpush]
  refine ⟨⟨(masks_withParser _).mpr hmasks, (toChat_withParser _).trans hkind, ?_⟩, hout⟩
  rw [parser_withParser]
  exact drainLines_rest _

variable (he : c.LawfulEnd)

include he

theorem streamChunk_sent {st : SseStrategy × StreamMetrics} (hst : st.1.Running name pub toChat)
    (chunk : Bytes) : (streamChunk c st chunk).1.1.Running name pub toChat ∧
      ((streamChunk c st chunk).2 = [] ∨ EndsLine (streamChunk c st chunk).2) ∧
      Sent c name toChat (streamChunk c st chunk).2 := by
  obtain ⟨hrunning, hout⟩ := push_complete hc hne hunknown hst chunk
  unfold streamChunk
  dsimp only
  split_ifs
  · exact ⟨hrunning, Or.inl rfl, .nil⟩
  · exact ⟨hrunning.clear, outBytes_ends fun o ho => (hout o ho).1, .outBytes hc he hout⟩

/-- **What is left at the end** may come without a line end. -/
theorem finish_sent (hs : s.Running name pub toChat) :
    Sent c name toChat (outBytes c (s.finish c).2) := by
  obtain ⟨hmasks, rfl, hpending⟩ := hs
  have hfinish := finish_withParser c s s.parser
  rw [withParser_self] at hfinish
  have htail {t : SseStrategy} (ht : t.Masks name pub) :
      ∀ o ∈ t.finishTail.2, OutComplete c name t.toChat o := fun o ho =>
    ⟨t.finishTail_ends c o ho, [nl], Or.inl isLine_blank,
      finishTail_unnamed hunknown ht hne [nl] o ho⟩
  rw [hfinish, SseLineParser.finish]
  by_cases hempty : s.parser.pending = []
  · rw [if_pos hempty]
    exact .outBytes hc he (htail hmasks)
  · rw [if_neg hempty]
    dsimp only
    rw [Mealy.run_singleton]
    obtain ⟨hnext, hout⟩ := handleFrame_unnamed hunknown hmasks hne hc s.parser.pending
    have hkind := s.handleFrame_toChat (parseSseLine c s.parser.pending)
    have hend := htail hnext
    rw [hkind] at hend
    have hline : AreLines [s.parser.pending] := Or.inr ⟨hempty, hpending⟩
    obtain ⟨before, hbefore, heq | ⟨o, heq, htoChat⟩⟩ :=
      handleFrame_tail c s (parseSseLine c s.parser.pending)
    · refine .outBytes hc he (List.forall_mem_append.mpr ⟨fun o ho => ?_, hend⟩)
      exact ⟨hbefore o (heq ▸ ho), _, hline, hout o ho⟩
    · rw [heq, List.forall_mem_append, List.forall_mem_singleton] at hout
      rw [heq, List.append_assoc, outBytes_append, List.singleton_append, outBytes_cons]
      have hfirst : Sent c name s.toChat (outBytes c before) :=
        .outBytes hc he fun o ho => ⟨hbefore o ho, _, hline, hout.1 o ho⟩
      refine hfirst.append (outBytes_ends hbefore) ⟨?_, fun h => by rw [htoChat] at h; cases h⟩
      obtain ⟨es, hes⟩ := finishTail_events _ (hkind.trans htoChat)
      have hself := hout.2.unnaming hc he hline
      have hrest := (Sent.outBytes hc he hend).unnaming
      rw [hes] at hrest ⊢
      obtain hends | hopen := hout.2.ends_or_open hc hpending
      · exact hself.append (Or.inr hends) hrest
      · exact unnaming_glued he hopen hself hrest

end

end

end SseStrategy

/-! ### Events -/

theorem subset_of_mem_splitOnP {α : Type} {p : α → Bool} {l g : List α} (h : g ∈ l.splitOnP p) :
    g ⊆ l := by
  induction l generalizing g with
  | nil =>
    rw [List.splitOnP_nil, List.mem_singleton] at h
    exact h ▸ List.Subset.refl _
  | cons a l ih =>
    rw [List.splitOnP_cons_eq_if_modifyHead] at h
    split_ifs at h with ha
    · obtain rfl | h := List.mem_cons.mp h
      · exact List.nil_subset _
      · exact List.subset_cons_of_subset a (ih h)
    · obtain ⟨first, rest, hsplit⟩ := List.exists_cons_of_ne_nil (List.splitOnP_ne_nil p l)
      rw [hsplit] at h ih
      obtain rfl | h := List.mem_cons.mp h
      · exact List.cons_subset_cons a (ih List.mem_cons_self)
      · exact List.subset_cons_of_subset a (ih (List.mem_cons_of_mem _ h))

section

variable {c : Codec} {name pub : String} {toChat : Bool}

/-- An event of a chat completion stream has one line. -/
theorem length_event_chat (hc : c.LawfulLine) (fs : List ChatFrame) :
    ∀ event ∈ sseEvents (outBytes c (fs.map .chat)), event.length ≤ 1 := by
  have hblank : (lineContent [nl]).isEmpty = true := by decide
  have hshown (f : ChatFrame) : (lineContent (chatLine c f)).isEmpty = false := by
    rw [Bool.eq_false_iff, ne_eq, List.isEmpty_iff]
    intro hnil
    have hhead : (chatLine c f).head? = some 100 := by
      unfold chatLine
      cases f.data <;> rfl
    have hsuffix := lineContent_append_lineSuffix (chatLine c f)
    rw [hnil, List.nil_append] at hsuffix
    have hends : ∀ suffix ∈ [[], asBytes "\n", asBytes "\r", asBytes "\r" ++ asBytes "\n"],
        suffix.head? ≠ some 100 := by decide
    exact hends _ (lineSuffix_mem (chatLine c f)) (by rw [hsuffix, hhead])
  suffices h : ∀ event ∈ (cutLines (outBytes c (fs.map .chat))).splitOnP
      fun line => (lineContent line).isEmpty, event.length ≤ 1 from
    fun event hevent => h event (List.mem_of_mem_filter hevent)
  induction fs with
  | nil =>
    rw [List.map_nil, outBytes_nil]
    decide
  | cons f fs ih =>
    rw [List.map_cons, outBytes_cons, bytes_chat, List.append_assoc,
      cutLines_line (isLine_chatLine hc f), cutLines_line isLine_blank]
    have hfirst : ∀ line ∈ [chatLine c f], (lineContent line).isEmpty = false :=
      List.forall_mem_singleton.mpr (hshown f)
    have hsplit := List.splitOnP_append_cons_of_forall_mem
      (p := fun line : Bytes => (lineContent line).isEmpty) hfirst [nl] hblank
      (cutLines (outBytes c (fs.map .chat)))
    rw [List.singleton_append] at hsplit
    rw [hsplit]
    exact List.forall_mem_cons.mpr ⟨le_refl 1, ih⟩

/-- Lines that are JSON one by one are no JSON together. -/
theorem namesIn_intercalate (he : c.LawfulEnd) {ds : List Bytes}
    (h : ∀ data ∈ ds, namesIn c name data = false)
    (hnames : namesIn c name ([nl].intercalate ds) = true) :
    1 < ds.length ∧ ∃ data ∈ ds, c.fromSlice data = none := by
  obtain _ | ⟨data, _ | ⟨next, rest⟩⟩ := ds
  · exact absurd hnames (Bool.eq_false_iff.mp (namesIn_nil he))
  · rw [List.intercalate_singleton] at hnames
    exact absurd hnames (Bool.eq_false_iff.mp (h data List.mem_cons_self))
  · refine ⟨Nat.succ_lt_succ (Nat.succ_pos _), ?_⟩
    by_contra hread
    have hsome : ∀ d ∈ data :: next :: rest, (c.fromSlice d).isSome := fun d hd =>
      Option.isSome_iff_ne_none.mpr fun hnone => hread ⟨d, hd, hnone⟩
    have hnext : ∃ tail, [nl].intercalate (next :: rest) = next ++ tail := by
      cases rest with
      | nil => exact ⟨[], by rw [List.intercalate_singleton, List.append_nil]⟩
      | cons last rest => exact ⟨_, by rw [List.intercalate_cons_cons, List.append_assoc]⟩
    obtain ⟨tail, htail⟩ := hnext
    have halone := he.alone data next tail (hsome data List.mem_cons_self)
      (hsome next (List.mem_cons_of_mem _ List.mem_cons_self))
    rw [namesIn, List.intercalate_cons_cons, htail, List.append_assoc, List.singleton_append,
      halone] at hnames
    cases hnames

/-- **What is sent masks the model.** -/
theorem Sent.masked (hc : c.LawfulLine) (he : c.LawfulEnd) {b : Bytes}
    (h : Sent c name toChat b) : Masked c name toChat b := by
  have hline : ∀ event ∈ sseEvents b, ∀ data ∈ dataLines event, namesIn c name data = false := by
    intro event hevent data hdata
    obtain ⟨line, hmem, hfield⟩ := List.mem_filterMap.mp hdata
    exact h.unnaming line (subset_of_mem_splitOnP (List.mem_of_mem_filter hevent) hmem) data hfield
  refine ⟨hline, fun event hevent hnames => ?_⟩
  obtain ⟨hseveral, hread⟩ := namesIn_intercalate he (hline event hevent) hnames
  refine ⟨?_, hseveral, hread⟩
  rw [Bool.eq_false_iff]
  intro htoChat
  obtain ⟨fs, rfl⟩ := h.frames htoChat
  have hone : (dataLines event).length ≤ 1 :=
    (List.length_filterMap_le _ _).trans (length_event_chat hc fs event hevent)
  exact absurd hseveral (Nat.not_lt.mpr hone)

end

/-! ### Streams -/

section

variable {c : Codec} (hc : c.LawfulLine) (he : c.LawfulEnd) {backendModel publicModel : String}
  (hne : backendModel ≠ publicModel) (hunknown : backendModel ≠ "unknown")

theorem SseStrategy.new_running {mode : RequestMode} (hmode : mode ≠ .anthropicMessagesNative)
    (emitUsageToClient : Bool) :
    (SseStrategy.new mode (some backendModel) (some publicModel) emitUsageToClient).Running
      backendModel publicModel mode.toChat := by
  cases mode with
  | native => exact ⟨⟨rfl, rfl⟩, rfl, List.not_mem_nil⟩
  | anthropicMessagesNative => exact absurd rfl hmode
  | _ => exact ⟨⟨⟨rfl, rfl⟩, fun h => by cases h⟩, rfl, List.not_mem_nil⟩

include hc he hne hunknown

theorem sentChunks_sent {toChat : Bool} {s : SseStrategy}
    (hs : s.Running backendModel publicModel toChat) (chunks : List Bytes) (ended : Bool) :
    Sent c backendModel toChat (sentChunks c s chunks ended).flatten := by
  obtain ⟨hrunning, hends, hsent⟩ := Mealy.run_hist (streamChunk c)
    (fun sent st => st.1.Running backendModel publicModel toChat ∧ (sent = [] ∨ EndsLine sent) ∧
      Sent c backendModel toChat sent) chunks
    (fun sent st chunk _ h => by
      obtain ⟨hrunning, hends, hsent⟩ := h
      obtain ⟨hrunning, hends', hsent'⟩ :=
        SseStrategy.streamChunk_sent hc hne hunknown he hrunning chunk
      refine ⟨hrunning, ?_, hsent.append hends hsent'⟩
      obtain hnil | hends' := hends'
      · rwa [hnil, List.append_nil]
      · exact Or.inr (endsLine_append _ hends'))
    (h := []) (s := (s, {})) ⟨hs, Or.inl rfl, .nil⟩
  rw [List.nil_append] at hends hsent
  have hend : ∀ st : SseStrategy × StreamMetrics,
      (streamEnd c st).2 = outBytes c (st.1.finish c).2 := by
    intro st
    unfold streamEnd
    dsimp only
    split_ifs with hempty
    · exact (List.isEmpty_iff.mp hempty).symm
    · rfl
  rw [flatten_sentChunks]
  dsimp only
  split_ifs
  · rw [hend]
    exact hsent.append hends (SseStrategy.finish_sent hc hne hunknown he hrunning)
  · rwa [List.append_nil]

/-- **The backend's model is masked** in what is sent of every stream, whether it gets to its end or
not. -/
theorem backend_model_masked {mode : RequestMode} (hmode : mode ≠ .anthropicMessagesNative)
    (emitUsageToClient : Bool) (chunks : List Bytes) (ended : Bool) :
    let s := SseStrategy.new mode (some backendModel) (some publicModel) emitUsageToClient
    let sent := (sentChunks c s chunks ended).flatten
    (ended = true → sent = (streamingResponse c mode (some backendModel) (some publicModel)
      emitUsageToClient chunks).2) ∧ Masked c backendModel mode.toChat sent := by
  intro s sent
  constructor
  · rintro rfl
    exact flatten_sentChunks c s chunks true
  · exact (sentChunks_sent hc he hne hunknown
      (SseStrategy.new_running hmode emitUsageToClient) chunks ended).masked hc he

end

/-- An event that names the model on one line, and an event that names it on two. -/
def namingStream : List Bytes :=
  [asBytes "data: \x7b\"model\":\"b\"\x7d\n\ndata: \x7b\"model\":\n",
    asBytes "data: \"b\"\x7d\n\n"]

/-- The first of the two events is rewritten. -/
theorem backend_model_masked_sample :
    Masked reference "b" false
      (sentChunks reference (SseStrategy.new .native (some "b") (some "p") true)
        namingStream true).flatten ∧
    (sentChunks reference (SseStrategy.new .native (some "b") (some "p") true)
      namingStream true).flatten =
        asBytes "data: \x7b\"model\":\"p\"\x7d\n\ndata: \x7b\"model\":\ndata: \"b\"\x7d\n\n" :=
  ⟨(backend_model_masked reference_lawfulLine reference_lawfulEnd (by decide : "b" ≠ "p")
    (by decide : "b" ≠ "unknown") (by decide : RequestMode.native ≠ .anthropicMessagesNative)
    true namingStream true).2, by decide +kernel⟩

/-- The second is not. -/
theorem not_backend_model_masked_lines :
    ¬ ∀ (c : Codec) (mode : RequestMode) (backendModel publicModel : String)
      (emitUsageToClient : Bool) (chunks : List Bytes), mode ≠ .anthropicMessagesNative →
      backendModel ≠ publicModel → backendModel ≠ "unknown" →
      ∀ event ∈ sseEvents (streamingResponse c mode (some backendModel) (some publicModel)
        emitUsageToClient chunks).2, namesIn c backendModel (eventData event) = false := by
  intro h
  have hlines := h reference .native "b" "p" true namingStream (by decide) (by decide) (by decide)
  exact absurd hlines (by decide +kernel)

end Onair
