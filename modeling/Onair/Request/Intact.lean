import Onair.Lib.Json.RoundTrip
import Onair.Lib.Mime
import Onair.Request.Parts
import Onair.Request.Rewrite
import Mathlib.Data.List.Forall2

/-!
# Multipart requests are forwarded intact

A well-formed multipart body (`MultipartForm`) is to be forwarded with the same parts, in the same
order and unchanged but for the content of the parts named `model` (`ForwardedAs`).

* `Part`, `MultipartForm`: bodies by their parts; a part clear of the delimiter, a header block
  clear of the blank line that ends it;
* `lay_inj`: a body is laid out from one list of parts only;
* `forwardedAs_iff`: what has to be forwarded is determined by the form;
* `rewrite_bytes`: what the code forwards;
* `Rewritable`, `multipart_intact_iff`: **a form is forwarded intact exactly when it is not taken
  for a URL-encoded form and the test for the name `model` is right about its parts.**
-/

namespace Onair

open Json Text Search

/-! ### Names of parts -/

namespace Part

/-- The name of the form field, from the `Content-Disposition` header. -/
def fieldName (p : Part) : Option Bytes :=
  (Mime.header (asBytes "content-disposition") p.headers).bind (Mime.parameter (asBytes "name"))

/-- The part is the form field `model`. -/
def IsModel (p : Part) : Prop := p.fieldName = some (asBytes "model")

instance (p : Part) : Decidable p.IsModel := inferInstanceAs (Decidable (_ = _))

end Part

/-! ### Forms -/

/-- A well-formed multipart body: its boundary, its parts, and whether a line break follows the
closing delimiter. -/
structure MultipartForm where
  boundary : String
  parts : List Part
  finalBreak : Bool
  boundary_line : '\r' ∉ boundary.toList
  parts_clear : ∀ p ∈ parts, ¬ asBytes ("\r\n--" ++ boundary) <:+: p.bytes

namespace MultipartForm

/-- The opening delimiter. -/
def marker (w : MultipartForm) : Bytes := asBytes ("--" ++ w.boundary)

/-- What follows the closing delimiter. -/
def tail (w : MultipartForm) : Bytes := if w.finalBreak then crlf else []

/-- The bytes of a form. -/
def bytes (w : MultipartForm) : Bytes := lay w.marker (w.parts.map Part.bytes) w.tail

theorem not_mem_asBytes {s : String} (h : '\r' ∉ s.toList) : (13 : UInt8) ∉ asBytes s :=
  fun hm => h (mem_asBytes hm (by decide))

theorem marker_line (w : MultipartForm) : (13 : UInt8) ∉ w.marker := by
  refine not_mem_asBytes ?_
  rw [String.toList_append, List.mem_append]
  rintro (h | h)
  · exact absurd h (by decide)
  · exact w.boundary_line h

theorem delimiter_eq (b : String) :
    asBytes ("\r\n--" ++ b) = crlf ++ asBytes ("--" ++ b) :=
  congrArg Delimiters.nextDelimiter (delimiters_eq b)

theorem clear_iff (w : MultipartForm) {a : Bytes} :
    Clear (crlf ++ w.marker) a ↔ ¬ asBytes ("\r\n--" ++ w.boundary) <:+: a := by
  rw [delimiter_eq]
  refine Search.clear_iff (x := 13) (n := 10 :: w.marker) ?_
  simpa using w.marker_line

theorem clear (w : MultipartForm) : ∀ b ∈ w.parts.map Part.bytes, Clear (crlf ++ w.marker) b := by
  intro b hb
  obtain ⟨p, hp, rfl⟩ := List.mem_map.mp hb
  exact w.clear_iff.mpr (w.parts_clear p hp)

end MultipartForm

/-! ### What is to be forwarded -/

/-- The bytes are a form with the same parts, in the same order and unchanged but for the content of
the parts named `model`, which is the backend's model. -/
def ForwardedAs (w : MultipartForm) (backend : String) (out : Bytes) : Prop :=
  ∃ w' : MultipartForm, w'.bytes = out ∧ w'.boundary = w.boundary ∧ w'.finalBreak = w.finalBreak ∧
    List.Forall₂ (fun p p' =>
      (p.IsModel → p'.headers = p.headers ∧ p'.content = asBytes backend) ∧
      (¬ p.IsModel → p' = p)) w.parts w'.parts

/-- What a part is to be forwarded as. -/
def Part.target (backend : String) (p : Part) : Part :=
  if p.IsModel then p.withContent (asBytes backend) else p

/-- A model name that cannot be taken for a delimiter: no line break in it, no dashes before it. -/
structure PlainModel (backend : String) : Prop where
  no_break : ∀ c ∈ backend.toList, c ≠ '\r' ∧ c ≠ '\n'
  no_dashes : ¬ "--".toList <+: backend.toList

theorem PlainModel.not_infix {backend : String} (h : PlainModel backend) (w : MultipartForm) :
    ¬ crlf ++ w.marker <:+: crlf ++ asBytes backend := by
  refine not_infix_crlf (MultipartForm.not_mem_asBytes fun hc => (h.no_break _ hc).1 rfl) ?_
  intro hp
  refine h.no_dashes (prefix_of_asBytes (forall_mem_toList (by decide)) (List.IsPrefix.trans ?_ hp))
  rw [MultipartForm.marker, asBytes_append]
  exact List.prefix_append _ _

theorem PlainModel.clear {backend : String} (h : PlainModel backend) (w : MultipartForm) {p : Part}
    (hp : p ∈ w.parts) : Clear (crlf ++ w.marker) (p.withContent (asBytes backend)).bytes := by
  refine Part.withContent_clear w.marker_line ?_ (w.clear _ (List.mem_map_of_mem hp))
    (h.not_infix w)
  rw [MultipartForm.marker, asBytes_append, List.length_append]
  exact Nat.le_add_right 2 _

/-- The form to be forwarded. -/
def MultipartForm.target (w : MultipartForm) {backend : String} (h : PlainModel backend) :
    MultipartForm where
  boundary := w.boundary
  parts := w.parts.map (Part.target backend)
  finalBreak := w.finalBreak
  boundary_line := w.boundary_line
  parts_clear := by
    intro p hp
    obtain ⟨q, hq, rfl⟩ := List.mem_map.mp hp
    rw [Part.target]
    split_ifs
    · exact w.clear_iff.mp (h.clear w hq)
    · exact w.parts_clear q hq

/-- What is to be forwarded is determined by the form. -/
theorem forwardedAs_iff (w : MultipartForm) {backend : String} (h : PlainModel backend)
    {out : Bytes} : ForwardedAs w backend out ↔ (w.target h).bytes = out := by
  constructor
  · rintro ⟨w', rfl, hb, hf, hp⟩
    have hp' : List.Forall₂ (fun p p' => Part.target backend p = p') w.parts w'.parts := by
      refine hp.imp fun p p' hpp => ?_
      rw [Part.target]
      split_ifs with hm
      · obtain ⟨h1, h2⟩ := hpp.1 hm
        refine Part.bytes_inj ?_
        rw [Part.bytes, Part.bytes, h1, h2]
        rfl
      · exact (hpp.2 hm).symm
    rw [← List.forall₂_map_left_iff (R := Eq), List.forall₂_eq_eq_eq] at hp'
    simp only [MultipartForm.bytes, MultipartForm.marker, MultipartForm.tail,
      MultipartForm.target, hb, hf, hp']
  · rintro rfl
    refine ⟨_, rfl, rfl, rfl, ?_⟩
    rw [MultipartForm.target, List.forall₂_map_right_iff, List.forall₂_same]
    intro p _
    rw [Part.target]
    constructor
    · intro hm
      rw [if_pos hm]
      exact ⟨rfl, rfl⟩
    · intro hm
      rw [if_neg hm]

/-! ### What is forwarded -/

theorem closingBreak_tail (w : MultipartForm) : closingBreak w.tail = w.tail := by
  rw [MultipartForm.tail]
  cases w.finalBreak <;> decide

/-- The scanner rewrites a form under its own boundary, and leaves it alone under any other. -/
theorem rewriteMultipartBody_bytes (w : MultipartForm) {boundary : String}
    (hb : '\r' ∉ boundary.toList) (backend : String) :
    rewriteMultipartBody w.bytes boundary backend =
      if boundary = w.boundary ∧ w.parts ≠ [] then
        some (lay w.marker (w.parts.map fun p => rewriteMultipartPart p.bytes backend) w.tail)
      else none := by
  have hm : (13 : UInt8) ∉ asBytes ("--" ++ boundary) :=
    MultipartForm.marker_line ⟨boundary, [], false, hb, by simp⟩
  by_cases hw : w.parts = []
  · -- no parts: nothing can follow the first line of the body
    rw [if_neg (by simp [hw])]
    by_cases hp : asBytes ("--" ++ boundary) ++ crlf <+: w.bytes
    · obtain ⟨rest, hr⟩ := hp
      have hl : (13 : UInt8) ∉ w.marker ++ dashes := by
        simpa [dashes] using w.marker_line
      have hbytes : w.bytes = w.marker ++ dashes ++ w.tail := by
        simp [MultipartForm.bytes, hw, lay, layParts]
      have hrest : rest = [] := by
        rw [hbytes, List.append_assoc (asBytes _), MultipartForm.tail] at hr
        split_ifs at hr with hf
        · exact (line_inj (y := []) hm hl (by simpa using hr)).2
        · have : (13 : UInt8) ∈ w.marker ++ dashes := by
            rw [List.append_nil] at hr
            rw [← hr]
            simp [crlf]
          exact absurd this hl
      subst hrest
      have hs : Scan (asBytes ("--" ++ boundary)) [] [] none := .missing rfl
      have := (hs.scanners rfl).2 backend
      rw [List.append_nil] at hr this
      rw [← hr, this]
      rfl
    · exact (scanners_other rfl hp).2 backend
  · obtain ⟨p, ps, hps⟩ := List.exists_cons_of_ne_nil hw
    have hcl := w.clear
    rw [hps, List.map_cons] at hcl
    obtain ⟨rest, hr, hs⟩ := scan_layParts w.tail hcl
    have hbytes : w.bytes = w.marker ++ (crlf ++ rest) := by
      rw [MultipartForm.bytes, lay, hps, List.map_cons, hr]
    split_ifs with hbw
    · obtain ⟨rfl, -⟩ := hbw
      have hsc : rewriteMultipartBody (w.marker ++ (crlf ++ rest)) w.boundary backend = _ :=
        (hs.scanners rfl).2 backend
      rw [hbytes, hsc, Option.map_some, closingBreak_tail, hps, ← List.map_cons, List.map_map]
      rfl
    · refine (scanners_other rfl fun hp => hbw ⟨?_, hw⟩).2 backend
      obtain ⟨r, hr'⟩ := hp
      rw [hbytes, List.append_assoc] at hr'
      have he := (line_inj hm w.marker_line hr').1
      have := asBytes_injective he
      exact String.append_right_inj _ |>.mp this

/-! ### The condition -/

/-- A form that the code forwards intact: it is not taken for a URL-encoded form with a field
`model` (or, with no parts at all, comes out of that as it was), and the test for the name `model`
is right about every part whose content is not the backend's model already. If the boundary is not
found in the content type, no part may be named `model`. -/
structure Rewritable (f : Form) (w : MultipartForm) (contentType backend : String) : Prop where
  not_form : (isUrlencodedContentType (some contentType) || looksLikeUrlencoded w.bytes) = true →
    sawModel (f.parse w.bytes) = true →
    w.parts = [] ∧ rewriteUrlencodedRequestBody f w.bytes backend = some w.bytes
  names : ∀ p ∈ w.parts, p.content ≠ asBytes backend →
    if multipartBoundary contentType = some w.boundary then
      (multipartFieldIs p.headers "model" = true ↔ p.IsModel)
    else ¬ p.IsModel

theorem Part.target_bytes_iff {p : Part} {backend : String} :
    (p.target backend).bytes = p.bytes ↔ (p.content ≠ asBytes backend → ¬ p.IsModel) := by
  rw [target]
  split_ifs with h
  · rw [withContent_bytes]
    simp [h]
  · simp [h]

theorem Part.target_rewrite_iff {p : Part} {backend : String} :
    (p.target backend).bytes = rewriteMultipartPart p.bytes backend ↔
      (p.content ≠ asBytes backend → (multipartFieldIs p.headers "model" = true ↔ p.IsModel)) := by
  rw [rewrite_bytes, target]
  split_ifs with h h' h'
  · simp [h, h']
  · rw [withContent_bytes]
    simp [h, h']
  · rw [eq_comm, withContent_bytes]
    simp [h, h']
  · simp [h, h']

theorem serialize_line {f : Form} (hf : f.Lawful) (l : List (String × String)) :
    (13 : UInt8) ∉ asBytes (f.serialize l) :=
  MultipartForm.not_mem_asBytes fun h => absurd (hf.serialize_chars l _ h) (by decide)

theorem bytes_ne_nil (w : MultipartForm) : ∃ t, w.bytes = 45 :: t := by
  rw [MultipartForm.bytes, lay, MultipartForm.marker, asBytes_append]
  exact ⟨_, rfl⟩

theorem mem_bytes {w : MultipartForm} (h : w.parts ≠ []) : (13 : UInt8) ∈ w.bytes := by
  obtain ⟨p, ps, hps⟩ := List.exists_cons_of_ne_nil h
  rw [MultipartForm.bytes, lay, hps, List.map_cons, layParts]
  simp [crlf]

theorem mem_multipartBoundary {contentType b : String} (h : multipartBoundary contentType = some b)
    {x : Char} (hx : x ∈ b.toList) : x ∈ contentType.toList := by
  rw [multipartBoundary] at h
  split_ifs at h
  obtain ⟨parameter, hp, hb⟩ := List.exists_of_findSome?_eq_some h
  obtain ⟨value, hv, rfl⟩ := Option.map_eq_some_iff.mp hb
  have h1 := mem_trimMatches hx
  rw [String.toList_ofList] at h1
  have h2 : x ∈ (trim parameter).toList := by
    rw [stripPrefix_eq_some.mp hv]
    exact List.mem_append_right _ h1
  obtain ⟨piece, hpiece, rfl⟩ := List.mem_map.mp hp
  have h3 := mem_trimMatches h2
  rw [String.toList_ofList] at h3
  exact mem_of_mem_splitList hpiece h3

/-! ### The result -/

section Result

variable {c : Codec} {f : Form} (hc : c.Lawful) (hf : f.Lawful) (w : MultipartForm)
  {contentType backend : String} (ht : '\r' ∉ contentType.toList) (hb : PlainModel backend)

include hf hb in
/-- Taken for a URL-encoded form, a body is intact only if nothing changed. -/
theorem forwardedAs_form :
    ForwardedAs w backend (asBytes (f.serialize (rewriteFormFields backend (f.parse w.bytes)))) ↔
      w.parts = [] ∧
        asBytes (f.serialize (rewriteFormFields backend (f.parse w.bytes))) = w.bytes := by
  rw [forwardedAs_iff w hb]
  by_cases hw : w.parts = []
  · have : (w.target hb).bytes = w.bytes := by
      simp only [MultipartForm.bytes, MultipartForm.target, hw, List.map_nil]
      rfl
    rw [this]
    exact ⟨fun h => ⟨hw, h.symm⟩, fun h => h.2.symm⟩
  · constructor
    · intro h
      have hm := mem_bytes (w := w.target hb) (by simpa [MultipartForm.target] using hw)
      rw [h] at hm
      exact absurd hm (serialize_line hf _)
    · intro h
      exact absurd h.1 hw

include hb in
/-- A body left as it is is intact if no part had to be changed. -/
theorem forwardedAs_self : ForwardedAs w backend w.bytes ↔
    ∀ p ∈ w.parts, p.content ≠ asBytes backend → ¬ p.IsModel := by
  rw [forwardedAs_iff w hb]
  constructor
  · intro h
    have := (lay_inj (w.target hb).clear w.clear h).1
    simp only [MultipartForm.target, List.map_map, List.map_inj_left] at this
    exact fun p hp => Part.target_bytes_iff.mp (this p hp)
  · intro h
    have : (w.parts.map (Part.target backend)).map Part.bytes = w.parts.map Part.bytes := by
      rw [List.map_map, List.map_inj_left]
      exact fun p hp => Part.target_bytes_iff.mpr (h p hp)
    simp only [MultipartForm.bytes, MultipartForm.target, this]
    rfl

include hb in
/-- A rewritten body is intact if the right parts were changed. -/
theorem forwardedAs_rewritten :
    ForwardedAs w backend
        (lay w.marker (w.parts.map fun p => rewriteMultipartPart p.bytes backend) w.tail) ↔
      ∀ p ∈ w.parts, p.content ≠ asBytes backend →
        (multipartFieldIs p.headers "model" = true ↔ p.IsModel) := by
  rw [forwardedAs_iff w hb]
  constructor
  · intro h
    have hcl : ∀ b ∈ w.parts.map fun p => rewriteMultipartPart p.bytes backend,
        Clear (crlf ++ w.marker) b := by
      intro b hm
      obtain ⟨p, hp, rfl⟩ := List.mem_map.mp hm
      rw [Part.rewrite_bytes]
      split_ifs
      · exact hb.clear w hp
      · exact w.clear _ (List.mem_map_of_mem hp)
    have := (lay_inj (w.target hb).clear hcl h).1
    simp only [MultipartForm.target, List.map_map, List.map_inj_left] at this
    exact fun p hp => Part.target_rewrite_iff.mp (this p hp)
  · intro h
    have : (w.parts.map (Part.target backend)).map Part.bytes =
        w.parts.map fun p => rewriteMultipartPart p.bytes backend := by
      rw [List.map_map, List.map_inj_left]
      exact fun p hp => Part.target_rewrite_iff.mpr (h p hp)
    rw [← this]
    rfl

include hc hf ht hb in
/-- Exactly the forms that are `Rewritable` are forwarded intact. -/
theorem forwarded_iff_rewritable (path : String) (policies : RequestRewritePolicies)
    (extraBody : List (String × Toml)) :
    (∃ out, rewriteNativeRequestBody c f w.bytes (some contentType) (some backend) path policies
        extraBody = .ok out ∧ ForwardedAs w backend out) ↔
      Rewritable f w contentType backend := by
  obtain ⟨t, ht45⟩ := bytes_ne_nil w
  have hobj : (c.fromSlice w.bytes).bind Value.asObject = none := by
    rw [ht45]
    exact not_object hc (by decide) t
  rw [rewriteNative_of_not_object (by simp [ht45]) hobj]
  simp only [Except.ok.injEq, exists_eq_left', Option.bind_some]
  by_cases hform : (isUrlencodedContentType (some contentType) || looksLikeUrlencoded w.bytes) =
      true ∧ sawModel (f.parse w.bytes) = true
  · -- the body is taken for a URL-encoded form
    obtain ⟨h1, h2⟩ := hform
    rw [if_pos h1, rewriteUrlencodedRequestBody, if_pos h2, Option.some_or, Option.getD_some,
      forwardedAs_form hf w hb]
    constructor
    · rintro ⟨hw, he⟩
      refine ⟨fun _ _ => ⟨hw, ?_⟩, by simp [hw]⟩
      rw [rewriteUrlencodedRequestBody, if_pos h2, he]
    · intro h
      obtain ⟨hw, he⟩ := h.not_form h1 h2
      rw [rewriteUrlencodedRequestBody, if_pos h2] at he
      exact ⟨hw, Option.some.inj he⟩
  · have hnone : (if (isUrlencodedContentType (some contentType) || looksLikeUrlencoded w.bytes) =
        true then rewriteUrlencodedRequestBody f w.bytes backend else none) = none := by
      rw [rewriteUrlencodedRequestBody]
      split_ifs <;> simp_all
    rw [hnone, Option.none_or]
    have hrw : Rewritable f w contentType backend ↔ ∀ p ∈ w.parts, p.content ≠ asBytes backend →
        if multipartBoundary contentType = some w.boundary then
          (multipartFieldIs p.headers "model" = true ↔ p.IsModel)
        else ¬ p.IsModel :=
      ⟨fun h => h.names, fun h => ⟨fun h1 h2 => absurd ⟨h1, h2⟩ hform, h⟩⟩
    rw [hrw]
    cases hbd : multipartBoundary contentType with
    | none =>
      rw [Option.bind_none, Option.getD_none, forwardedAs_self w hb]
      simp
    | some boundary =>
      have hline : '\r' ∉ boundary.toList := fun h => ht (mem_multipartBoundary hbd h)
      rw [Option.bind_some, rewriteMultipartBody_bytes w hline]
      by_cases hw : w.parts = []
      · rw [if_neg (by simp [hw]), Option.getD_none, forwardedAs_self w hb]
        simp [hw]
      · by_cases he : boundary = w.boundary
        · rw [if_pos ⟨he, hw⟩, Option.getD_some, forwardedAs_rewritten w hb]
          simp [he]
        · rw [if_neg (by simp [he]), Option.getD_none, forwardedAs_self w hb]
          simp [he]

end Result

/-- **A well-formed multipart request is forwarded intact exactly when it is `Rewritable`:** not
taken for a URL-encoded form, and the test for the name `model` right about its parts. -/
theorem multipart_intact_iff {c : Codec} {f : Form} (hc : c.Lawful) (hf : f.Lawful)
    (w : MultipartForm) {contentType backend : String} (ht : '\r' ∉ contentType.toList)
    (hb : PlainModel backend) (path : String) (policies : RequestRewritePolicies)
    (extraBody : List (String × Toml)) :
    (∃ out, rewriteNativeRequestBody c f w.bytes (some contentType) (some backend) path policies
        extraBody = .ok out ∧ ForwardedAs w backend out) ↔
      Rewritable f w contentType backend :=
  forwarded_iff_rewritable hc hf w ht hb path policies extraBody

/-! ### An upload -/

/-- The field `model` of an upload. -/
def modelField : Part where
  headers := asBytes "Content-Disposition: form-data; name=\"model\""
  content := asBytes "whisper"
  separated := by
    rw [asBytes_eq_data]
    decide +kernel

/-- A file of an upload, by its name. -/
def plainFile : Part where
  headers := asBytes "Content-Disposition: form-data; name=\"file\"; filename=\"talk.txt\""
  content := asBytes "hello"
  separated := by
    rw [asBytes_eq_data]
    decide +kernel

/-- A file that is named `model`. -/
def modelFile : Part where
  headers := asBytes "Content-Disposition: form-data; name=\"file\"; filename=\"model\""
  content := asBytes "hello"
  separated := by
    rw [asBytes_eq_data]
    decide +kernel

/-- An upload of a file. -/
def upload : MultipartForm where
  boundary := "xyz"
  parts := [modelField, plainFile]
  finalBreak := true
  boundary_line := by decide
  parts_clear := by
    simp only [modelField, plainFile, asBytes_eq_data]
    decide +kernel

/-- An upload of a file that is named `model`. -/
def uploadModelFile : MultipartForm where
  boundary := "xyz"
  parts := [modelField, modelFile]
  finalBreak := true
  boundary_line := by decide
  parts_clear := by
    simp only [modelField, modelFile, asBytes_eq_data]
    decide +kernel

/-- The upload is forwarded intact. -/
theorem multipart_intact_upload :
    Rewritable Form.reference upload "multipart/form-data; boundary=xyz" "backend" ∧
      ∃ out, rewriteNativeRequestBody reference Form.reference upload.bytes
        (some "multipart/form-data; boundary=xyz") (some "backend") "/v1/audio/transcriptions" {} []
          = .ok out ∧ ForwardedAs upload "backend" out := by
  have hr : Rewritable Form.reference upload "multipart/form-data; boundary=xyz" "backend" := by
    refine ⟨fun _ h => absurd h ?_, ?_⟩
    · simp only [MultipartForm.bytes, upload, modelField, plainFile, asBytes_eq_data]
      decide +kernel
    · simp only [upload, modelField, plainFile, asBytes_eq_data, multipartFieldIs_eq_chars]
      decide +kernel
  exact ⟨hr, (multipart_intact_iff reference_lawful Form.reference_lawful upload (by decide)
    ⟨forall_mem_toList (by decide), by decide⟩ "/v1/audio/transcriptions" {} []).mpr hr⟩

/-- A file named `model` is not forwarded intact: its content is replaced. -/
theorem multipart_not_intact_filename :
    ¬ ∃ out, rewriteNativeRequestBody reference Form.reference uploadModelFile.bytes
        (some "multipart/form-data; boundary=xyz") (some "backend") "/v1/audio/transcriptions" {} []
          = .ok out ∧ ForwardedAs uploadModelFile "backend" out := by
  rw [forwarded_iff_rewritable reference_lawful Form.reference_lawful uploadModelFile (by decide)
    ⟨forall_mem_toList (by decide), by decide⟩]
  intro h
  have := h.names modelFile (by simp [uploadModelFile])
  revert this
  simp only [modelFile, asBytes_eq_data, multipartFieldIs_eq_chars]
  decide +kernel

end Onair
