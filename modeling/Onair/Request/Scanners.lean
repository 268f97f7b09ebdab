import Onair.Request.Reread

/-!
# The scanners of multipart bodies end, and agree

The loops of `multipart_parts` and `rewrite_multipart_body` with every slice checked and a bound on
the rounds they may take.

* `slice`, `findBytesChecked`, `splitMultipartPartChecked`: slices that may be out of range;
* `multipartPartsChecked`, `rewriteMultipartBodyChecked`: the loops, for at most `rounds` rounds;
* `multipartPartsFromChecked_eq`, `rewriteMultipartFromChecked_eq`: by induction on the rounds, no
  slice is out of range, and a round for each byte left and one more is enough;
* **`scanners_total_agree`**: both loops end on every body, and what a rewritten body is scanned
  into are the rewritten parts.
-/

namespace Onair

open Text Search

/-! ### Checked slices -/

/-- What can go wrong in a scan. -/
inductive ScanFault where
  /-- A slice is out of range. -/
  | range
  /-- The rounds that are allowed are used up. -/
  | rounds
  deriving DecidableEq, Repr

/-- The bytes from `start` up to `stop`. -/
def slice (bytes : Bytes) (start stop : ℕ) : Except ScanFault Bytes :=
  if start ≤ stop ∧ stop ≤ bytes.length then .ok ((bytes.drop start).take (stop - start))
  else .error .range

/-- `findBytes` with its slice checked. -/
def findBytesChecked (haystack needle : Bytes) (start : ℕ) : Except ScanFault (Option ℕ) :=
  if needle = [] ∨ haystack.length < start then .ok none
  else do
    let rest ← slice haystack start haystack.length
    .ok ((position needle rest).map (· + start))

/-- `splitMultipartPart` with its slices checked. -/
def splitMultipartPartChecked (part : Bytes) : Except ScanFault (Option (Bytes × Bytes)) := do
  match ← findBytesChecked part (crlf ++ crlf) 0 with
  | none => .ok none
  | some i =>
    let headers ← slice part 0 i
    let content ← slice part (i + (crlf ++ crlf).length) part.length
    .ok (some (headers, content))

/-- `rewriteMultipartPart` with its slices checked. -/
def rewriteMultipartPartChecked (part : Bytes) (backendModel : String) :
    Except ScanFault Bytes := do
  match ← splitMultipartPartChecked part with
  | none => .ok part
  | some (headers, _) =>
    .ok (if !multipartFieldIs headers "model" then part
      else headers ++ (crlf ++ crlf) ++ asBytes backendModel)

/-! ### Checked loops -/

/-- The loop of `multipart_parts`, with its slices checked. -/
def multipartPartsFromChecked (body : Bytes) (d : Delimiters) :
    (rounds cursor : ℕ) → Except ScanFault (List Bytes)
  | 0, _ => .error .rounds
  | rounds + 1, cursor => do
    match ← findBytesChecked body d.nextDelimiter cursor with
    | none => .ok []
    | some delimiterPosition =>
      let part ← slice body cursor delimiterPosition
      let boundaryPosition := delimiterPosition + 2
      let afterMarker := boundaryPosition + d.marker.length
      if startsWithAt body boundaryPosition d.closingMarker then .ok [part]
      else if !startsWithAt body boundaryPosition d.marker then .ok [part]
      else if !startsWithAt body afterMarker crlf then .ok [part]
      else do
        let parts ← multipartPartsFromChecked body d rounds (afterMarker + 2)
        .ok (part :: parts)

/-- `multipart_parts` in at most so many rounds. -/
def multipartPartsChecked (rounds : ℕ) (body : Bytes) (boundary : String) :
    Except ScanFault (List Bytes) :=
  let d := delimiters boundary
  if !d.marker.isPrefixOf body then .ok []
  else if !startsWithAt body d.marker.length crlf then .ok []
  else multipartPartsFromChecked body d rounds (d.marker.length + 2)

/-- The loop of `rewrite_multipart_body`, with its slices checked. -/
def rewriteMultipartFromChecked (body : Bytes) (d : Delimiters) (backendModel : String) :
    (rounds cursor : ℕ) → (output : Bytes) → Except ScanFault (Option Bytes)
  | 0, _, _ => .error .rounds
  | rounds + 1, cursor, output => do
    match ← findBytesChecked body d.nextDelimiter cursor with
    | none => .ok none
    | some delimiterPosition =>
      let part ← slice body cursor delimiterPosition
      let rewritten ← rewriteMultipartPartChecked part backendModel
      let output := output ++ rewritten
      let boundaryPosition := delimiterPosition + 2
      let afterMarker := boundaryPosition + d.marker.length
      if startsWithAt body boundaryPosition d.closingMarker then
        let output := output ++ crlf ++ d.closingMarker
        if startsWithAt body (boundaryPosition + d.closingMarker.length) crlf then
          .ok (some (output ++ crlf))
        else .ok (some output)
      else if !startsWithAt body boundaryPosition d.marker then .ok none
      else if !startsWithAt body afterMarker crlf then .ok none
      else
        rewriteMultipartFromChecked body d backendModel rounds (afterMarker + 2)
          (output ++ crlf ++ d.marker ++ crlf)

/-- `rewrite_multipart_body` in at most so many rounds. -/
def rewriteMultipartBodyChecked (rounds : ℕ) (body : Bytes) (boundary : String)
    (backendModel : String) : Except ScanFault (Option Bytes) :=
  let d := delimiters boundary
  if !d.marker.isPrefixOf body then .ok none
  else if !startsWithAt body d.marker.length crlf then .ok none
  else
    rewriteMultipartFromChecked body d backendModel rounds (d.marker.length + 2) (d.marker ++ crlf)

/-! ### No slice is out of range -/

theorem slice_eq {bytes : Bytes} {start stop : ℕ} (h : start ≤ stop) (hstop : stop ≤ bytes.length) :
    slice bytes start stop = .ok ((bytes.drop start).take (stop - start)) :=
  if_pos ⟨h, hstop⟩

theorem slice_length {bytes : Bytes} {start : ℕ} (h : start ≤ bytes.length) :
    slice bytes start bytes.length = .ok (bytes.drop start) := by
  rw [slice_eq h le_rfl, ← List.length_drop, List.take_length]

theorem findBytesChecked_eq (haystack needle : Bytes) (start : ℕ) :
    findBytesChecked haystack needle start = .ok (findBytes haystack needle start) := by
  unfold findBytesChecked findBytes
  split_ifs with h
  · rfl
  · have hstart : start ≤ haystack.length := Nat.le_of_not_lt (not_or.mp h).2
    rw [slice_length hstart]
    rfl

theorem le_of_findBytes {haystack needle : Bytes} {start i : ℕ}
    (h : findBytes haystack needle start = some i) :
    start ≤ i ∧ i + needle.length ≤ haystack.length := by
  unfold findBytes at h
  split_ifs at h with hn
  obtain ⟨j, hj, rfl⟩ := Option.map_eq_some_iff.mp h
  have hlength := congrArg List.length (eq_of_position hj)
  obtain ⟨hposition, -, -⟩ := position_eq_some.mp hj
  have hle : start ≤ haystack.length := Nat.le_of_not_lt (not_or.mp hn).2
  simp only [List.length_append, List.length_take_of_le hposition, List.length_drop] at hlength
  rw [List.length_drop] at hposition
  omega

theorem splitMultipartPartChecked_eq (part : Bytes) :
    splitMultipartPartChecked part = .ok (splitMultipartPart part) := by
  rw [splitMultipartPartChecked, findBytesChecked_eq, splitMultipartPart]
  cases h : findBytes part (crlf ++ crlf) 0 with
  | none => rfl
  | some i =>
    obtain ⟨-, hi⟩ := le_of_findBytes h
    have hheaders : slice part 0 i = .ok (part.take i) := by
      rw [slice_eq (Nat.zero_le i) (by omega), List.drop_zero, Nat.sub_zero]
    show (do
      let headers ← slice part 0 i
      let content ← slice part (i + (crlf ++ crlf).length) part.length
      Except.ok (some (headers, content))) = _
    rw [hheaders, slice_length hi]
    rfl

theorem rewriteMultipartPartChecked_eq (part : Bytes) (backendModel : String) :
    rewriteMultipartPartChecked part backendModel =
      .ok (rewriteMultipartPart part backendModel) := by
  rw [rewriteMultipartPartChecked, splitMultipartPartChecked_eq, rewriteMultipartPart]
  cases splitMultipartPart part with
  | none => rfl
  | some e => rfl

/-! ### The rounds are enough -/

section Rounds

variable {body : Bytes} {d : Delimiters} {rounds cursor : ℕ}

theorem le_of_startsWithAt {haystack needle : Bytes} {start : ℕ}
    (h : startsWithAt haystack start needle = true) : start + needle.length ≤ haystack.length := by
  rw [startsWithAt, Bool.and_eq_true, decide_eq_true_eq, List.isPrefixOf_iff_prefix] at h
  have hlength := h.2.length_le
  rw [List.length_drop] at hlength
  omega

/-- The loop of `multipartParts` ends with no slice out of range: a round takes the cursor forward,
and the cursor stays in the body. -/
theorem multipartPartsFromChecked_eq (hc : cursor ≤ body.length)
    (hr : body.length - cursor < rounds) :
    multipartPartsFromChecked body d rounds cursor =
      .ok (multipartPartsFrom body d rounds cursor) := by
  induction rounds generalizing cursor with
  | zero => exact absurd hr (Nat.not_lt_zero _)
  | succ rounds ih =>
    rw [multipartPartsFromChecked, findBytesChecked_eq, multipartPartsFrom]
    cases hf : findBytes body d.nextDelimiter cursor with
    | none => rfl
    | some i =>
      obtain ⟨hcursor, hi⟩ := le_of_findBytes hf
      simp only [bind, Except.bind]
      rw [slice_eq hcursor (by omega)]
      dsimp only
      split_ifs with h1 h2 h3
      · rfl
      · rfl
      · rfl
      · have hnext := le_of_startsWithAt (Bool.eq_true_of_not_eq_false (by simpa using h3))
        have hbreak : crlf.length = 2 := rfl
        rw [ih (by omega) (by omega)]

/-- The loop of `rewriteMultipartBody` ends likewise. -/
theorem rewriteMultipartFromChecked_eq (backendModel : String) (hc : cursor ≤ body.length)
    (hr : body.length - cursor < rounds) (output : Bytes) :
    rewriteMultipartFromChecked body d backendModel rounds cursor output =
      .ok (rewriteMultipartFrom body d backendModel rounds cursor output) := by
  induction rounds generalizing cursor output with
  | zero => exact absurd hr (Nat.not_lt_zero _)
  | succ rounds ih =>
    rw [rewriteMultipartFromChecked, findBytesChecked_eq, rewriteMultipartFrom]
    cases hf : findBytes body d.nextDelimiter cursor with
    | none => rfl
    | some i =>
      obtain ⟨hcursor, hi⟩ := le_of_findBytes hf
      simp only [bind, Except.bind]
      rw [slice_eq hcursor (by omega)]
      dsimp only
      rw [rewriteMultipartPartChecked_eq]
      dsimp only
      split_ifs with h1 h2 h3 h4
      · rfl
      · rfl
      · rfl
      · rfl
      · have hnext := le_of_startsWithAt (Bool.eq_true_of_not_eq_false (by simpa using h4))
        have hbreak : crlf.length = 2 := rfl
        exact ih (by omega) (by omega) _

end Rounds

/-- The loops give the same in any number of rounds that is enough. -/
theorem loops_rounds {body : Bytes} (boundary model : String) {rounds cursor : ℕ}
    (hc : cursor ≤ body.length) (hr : body.length - cursor < rounds) (output : Bytes) :
    multipartPartsFrom body (delimiters boundary) rounds cursor =
        multipartPartsFrom body (delimiters boundary) (body.length + 1) cursor ∧
      rewriteMultipartFrom body (delimiters boundary) model rounds cursor (output ++ crlf) =
        rewriteMultipartFrom body (delimiters boundary) model (body.length + 1) cursor
          (output ++ crlf) := by
  obtain ⟨ps, e, hs⟩ := scan_total (asBytes ("--" ++ boundary)) (body.drop cursor)
  have hrounds : (body.drop cursor).length < rounds := by
    rw [List.length_drop]
    exact hr
  have hall : (body.drop cursor).length < body.length + 1 := by
    rw [List.length_drop]
    omega
  rw [delimiters_eq]
  constructor
  · rw [hs.multipartPartsFrom_eq hc rfl hrounds, hs.multipartPartsFrom_eq hc rfl hall]
  · rw [hs.rewriteMultipartFrom_eq model hc rfl hrounds,
      hs.rewriteMultipartFrom_eq model hc rfl hall]

theorem multipartPartsChecked_eq {rounds : ℕ} {body : Bytes} (hr : body.length < rounds)
    (boundary : String) :
    multipartPartsChecked rounds body boundary = .ok (multipartParts body boundary) := by
  unfold multipartPartsChecked multipartParts
  dsimp only
  split_ifs with h1 h2
  · rfl
  · rfl
  · have hc : (delimiters boundary).marker.length + 2 ≤ body.length :=
      le_of_startsWithAt (Bool.eq_true_of_not_eq_false (by simpa using h2))
    rw [multipartPartsFromChecked_eq hc (by omega), (loops_rounds boundary "" hc (by omega) []).1]

theorem rewriteMultipartBodyChecked_eq {rounds : ℕ} {body : Bytes} (hr : body.length < rounds)
    (boundary model : String) :
    rewriteMultipartBodyChecked rounds body boundary model =
      .ok (rewriteMultipartBody body boundary model) := by
  unfold rewriteMultipartBodyChecked rewriteMultipartBody
  dsimp only
  split_ifs with h1 h2
  · rfl
  · rfl
  · have hc : (delimiters boundary).marker.length + 2 ≤ body.length :=
      le_of_startsWithAt (Bool.eq_true_of_not_eq_false (by simpa using h2))
    rw [rewriteMultipartFromChecked_eq model hc (by omega),
      (loops_rounds boundary model hc (by omega) _).2]

/-! ### The scanners agree -/

/-- A rewritten body is scanned into the rewritten parts. -/
theorem multipartParts_rewriteMultipartBody {body out : Bytes} {boundary model : String}
    (hb : '\r' ∉ boundary.toList) (hm : PlainModel model)
    (h : rewriteMultipartBody body boundary model = some out) :
    multipartParts out boundary =
      (multipartParts body boundary).map (rewriteMultipartPart · model) := by
  have hcomplete : ∃ ps tail, Complete boundary body ps tail := by
    by_contra hi
    rw [rewrite_of_incomplete (by simpa using hi)] at h
    cases h
  obtain ⟨ps, tail, hcomplete⟩ := hcomplete
  rw [hcomplete.rewrite] at h
  obtain rfl := Option.some.inj h
  have hclear : ¬ asBytes ("\r\n--" ++ boundary) <:+: asBytes ("\r\n" ++ model) := by
    rw [MultipartForm.delimiter_eq, asBytes_append "\r\n"]
    exact hm.not_infix ⟨boundary, [], false, hb, by simp⟩
  rw [hcomplete.parts, hcomplete.relaid_parts hb fun _ => hclear]

/-- **The scanners end on every body, and what a rewritten body is scanned into are the rewritten
parts.** -/
theorem scanners_total_agree :
    (∀ (body : Bytes) (boundary model : String) (rounds : ℕ), body.length < rounds →
      multipartPartsChecked rounds body boundary = .ok (multipartParts body boundary) ∧
      rewriteMultipartBodyChecked rounds body boundary model =
        .ok (rewriteMultipartBody body boundary model)) ∧
    ∀ (body out : Bytes) (boundary model : String),
      (∀ c ∈ boundary.toList, c ≠ '\r' ∧ c ≠ '\n') → PlainModel model →
      rewriteMultipartBody body boundary model = some out →
      multipartParts out boundary =
        (multipartParts body boundary).map (rewriteMultipartPart · model) := by
  constructor
  · intro body boundary model rounds hr
    exact ⟨multipartPartsChecked_eq hr boundary, rewriteMultipartBodyChecked_eq hr boundary model⟩
  · intro body out boundary model hb hm h
    exact multipartParts_rewriteMultipartBody (fun hc => (hb _ hc).1 rfl) hm h

/-- The scanners on the body of an upload, which has two parts. -/
theorem scanners_total_agree_upload :
    (multipartPartsChecked (upload.bytes.length + 1) upload.bytes "xyz" =
        .ok (multipartParts upload.bytes "xyz") ∧
      rewriteMultipartBodyChecked (upload.bytes.length + 1) upload.bytes "xyz" "backend" =
        .ok (rewriteMultipartBody upload.bytes "xyz" "backend")) ∧
    (multipartParts upload.bytes "xyz").length = 2 ∧
    ∃ out, rewriteMultipartBody upload.bytes "xyz" "backend" = some out ∧
      multipartParts out "xyz" =
        (multipartParts upload.bytes "xyz").map (rewriteMultipartPart · "backend") := by
  have hcomplete := upload.complete (List.cons_ne_nil _ _)
  have hrewrite := hcomplete.rewrite "backend"
  have hrounds : ∀ n : ℕ, n < n + 1 := Nat.lt_add_one
  refine ⟨scanners_total_agree.1 upload.bytes "xyz" "backend" _ (hrounds _), ?_, _, hrewrite, ?_⟩
  · exact congrArg List.length hcomplete.parts
  · exact scanners_total_agree.2 upload.bytes _ "xyz" "backend" (forall_mem_toList (by decide))
      ⟨forall_mem_toList (by decide), by decide⟩ hrewrite

end Onair
