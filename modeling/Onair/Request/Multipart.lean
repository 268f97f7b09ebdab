import Onair.Lib.Lossy
import Onair.Lib.Search

/-!
# Multipart bodies

The two scanners of a `multipart/form-data` body: `multipartParts`, which looks for parts, and
`rewriteMultipartBody`, which puts the backend's model into the parts named `model`.

* `Scan m rest ps e`: what follows the opening delimiter is cut into the parts `ps`, and ends with a
  closing delimiter and `tail` if `e = some tail`;
* `Scan.multipartPartsFrom`, `Scan.rewriteMultipartFrom`: what the two loops compute, by induction
  on the scan; enough fuel is one more than the bytes left;
* `lay`, `scan_layParts`: a body laid out from parts clear of the delimiter is scanned into them.
-/

namespace Onair

open Text Search

/-! ### The scanners -/

/-- The line break of a header. -/
def crlf : Bytes := [13, 10]

/-- The two dashes at the end of a closing delimiter. -/
def dashes : Bytes := [45, 45]

/-- Where `needle` first occurs from `start` on. -/
def findBytes (haystack needle : Bytes) (start : ℕ) : Option ℕ :=
  if needle = [] ∨ haystack.length < start then none
  else (position needle (haystack.drop start)).map (· + start)

/-- The bytes from `start` on begin with `needle`. -/
def startsWithAt (haystack : Bytes) (start : ℕ) (needle : Bytes) : Bool :=
  decide (start ≤ haystack.length) && needle.isPrefixOf (haystack.drop start)

/-- The headers and the content of a part. -/
def splitMultipartPart (part : Bytes) : Option (Bytes × Bytes) :=
  let separator := crlf ++ crlf
  (findBytes part separator 0).map fun i => (part.take i, part.drop (i + separator.length))

/-- A `Content-Disposition` line of the headers has `name="…"` or `name=…` in it. -/
def multipartFieldIs (headers : Bytes) (name : String) : Bool :=
  let headers := toAsciiLowercase (fromUtf8Lossy headers)
  let targetQuoted := "name=\"" ++ toAsciiLowercase name ++ "\""
  let targetUnquoted := "name=" ++ toAsciiLowercase name
  ((lines headers).filter fun line => "content-disposition:".toList.isPrefixOf line.toList).any
    fun line => contains line targetQuoted || contains line targetUnquoted

/-- The test without strings on the way, which evaluates faster. -/
theorem multipartFieldIs_eq_chars (headers : Bytes) (name : String) :
    multipartFieldIs headers name =
      (((rawLines ((decodeLossy 0 headers).map Char.toLower)).map chomp).filter fun line =>
        "content-disposition:".toList.isPrefixOf line).any fun line =>
          hasInfix ("name=\"".toList ++ name.toList.map Char.toLower ++ "\"".toList) line ||
            hasInfix ("name=".toList ++ name.toList.map Char.toLower) line := by
  have hlines : lines (toAsciiLowercase (fromUtf8Lossy headers)) =
      ((rawLines ((decodeLossy 0 headers).map Char.toLower)).map chomp).map String.ofList := by
    rw [lines, toAsciiLowercase, String.toList_ofList, toList_fromUtf8Lossy, List.map_map]
    rfl
  rw [multipartFieldIs, hlines, List.filter_map, List.any_map]
  simp only [Function.comp_def, contains, toAsciiLowercase, String.toList_ofList,
    String.toList_append]

/-- A part with the backend's model for content if it is the field `model`. -/
def rewriteMultipartPart (part : Bytes) (backendModel : String) : Bytes :=
  match splitMultipartPart part with
  | none => part
  | some (headers, _) =>
    if !multipartFieldIs headers "model" then part
    else headers ++ (crlf ++ crlf) ++ asBytes backendModel

/-- The delimiters of a body: the opening one, the closing one, and one between parts. -/
structure Delimiters where
  marker : Bytes
  closingMarker : Bytes
  nextDelimiter : Bytes

/-- The delimiters with a boundary. -/
def delimiters (boundary : String) : Delimiters where
  marker := asBytes ("--" ++ boundary)
  closingMarker := asBytes ("--" ++ boundary ++ "--")
  nextDelimiter := asBytes ("\r\n--" ++ boundary)

/-- The loop of `multipartParts` from `cursor` on, for at most `fuel` rounds. -/
def multipartPartsFrom (body : Bytes) (d : Delimiters) : (fuel cursor : ℕ) → List Bytes
  | 0, _ => []
  | fuel + 1, cursor =>
    match findBytes body d.nextDelimiter cursor with
    | none => []
    | some delimiterPosition =>
      let part := (body.drop cursor).take (delimiterPosition - cursor)
      let boundaryPosition := delimiterPosition + 2
      let afterMarker := boundaryPosition + d.marker.length
      if startsWithAt body boundaryPosition d.closingMarker then [part]
      else if !startsWithAt body boundaryPosition d.marker then [part]
      else if !startsWithAt body afterMarker crlf then [part]
      else part :: multipartPartsFrom body d fuel (afterMarker + 2)

/-- The parts of a body, as far as they can be found. -/
def multipartParts (body : Bytes) (boundary : String) : List Bytes :=
  let d := delimiters boundary
  if !d.marker.isPrefixOf body then []
  else if !startsWithAt body d.marker.length crlf then []
  else multipartPartsFrom body d (body.length + 1) (d.marker.length + 2)

/-- The loop of `rewriteMultipartBody` from `cursor` on, for at most `fuel` rounds. -/
def rewriteMultipartFrom (body : Bytes) (d : Delimiters) (backendModel : String) :
    (fuel cursor : ℕ) → (output : Bytes) → Option Bytes
  | 0, _, _ => none
  | fuel + 1, cursor, output =>
    match findBytes body d.nextDelimiter cursor with
    | none => none
    | some delimiterPosition =>
      let part := (body.drop cursor).take (delimiterPosition - cursor)
      let output := output ++ rewriteMultipartPart part backendModel
      let boundaryPosition := delimiterPosition + 2
      let afterMarker := boundaryPosition + d.marker.length
      if startsWithAt body boundaryPosition d.closingMarker then
        let output := output ++ crlf ++ d.closingMarker
        if startsWithAt body (boundaryPosition + d.closingMarker.length) crlf then
          some (output ++ crlf)
        else some output
      else if !startsWithAt body boundaryPosition d.marker then none
      else if !startsWithAt body afterMarker crlf then none
      else
        rewriteMultipartFrom body d backendModel fuel (afterMarker + 2)
          (output ++ crlf ++ d.marker ++ crlf)

/-- A complete body with the backend's model in its parts named `model`. -/
def rewriteMultipartBody (body : Bytes) (boundary : String) (backendModel : String) :
    Option Bytes :=
  let d := delimiters boundary
  if !d.marker.isPrefixOf body then none
  else if !startsWithAt body d.marker.length crlf then none
  else
    rewriteMultipartFrom body d backendModel (body.length + 1) (d.marker.length + 2)
      (d.marker ++ crlf)

/-! ### Scans -/

/-- The delimiters with marker `m`. -/
def Delimiters.of (m : Bytes) : Delimiters := ⟨m, m ++ dashes, crlf ++ m⟩

theorem delimiters_eq (boundary : String) :
    delimiters boundary = Delimiters.of (asBytes ("--" ++ boundary)) := by
  have h1 : "\r\n--" ++ boundary = "\r\n" ++ ("--" ++ boundary) := by
    rw [← String.append_assoc]; rfl
  rw [delimiters, Delimiters.of, asBytes_append ("--" ++ boundary), h1, asBytes_append "\r\n"]
  rfl

/-- What follows the opening delimiter is cut into parts; `some tail` is what follows the closing
delimiter, if the scan gets there. -/
inductive Scan (m : Bytes) : Bytes → List Bytes → Option Bytes → Prop where
  | missing {rest : Bytes} : position (crlf ++ m) rest = none → Scan m rest [] none
  | closed {part : Bytes} (tail : Bytes) : Clear (crlf ++ m) part →
      Scan m (part ++ (crlf ++ m ++ (dashes ++ tail))) [part] (some tail)
  | next {part rest : Bytes} {ps : List Bytes} {e : Option Bytes} : Clear (crlf ++ m) part →
      Scan m rest ps e → Scan m (part ++ (crlf ++ m ++ (crlf ++ rest))) (part :: ps) e
  | broken {part after : Bytes} : Clear (crlf ++ m) part → ¬ dashes <+: after → ¬ crlf <+: after →
      Scan m (part ++ (crlf ++ m ++ after)) [part] none

theorem scan_total (m rest : Bytes) : ∃ ps e, Scan m rest ps e := by
  -- by induction on the length: a part and a delimiter are cut off each time
  induction hl : rest.length using Nat.strong_induction_on generalizing rest with
  | _ k ih =>
    cases hp : position (crlf ++ m) rest with
    | none => exact ⟨_, _, .missing hp⟩
    | some i =>
      have hc := Clear.of_position hp
      have he := eq_of_position hp
      generalize rest.take i = part at hc he
      generalize rest.drop (i + (crlf ++ m).length) = after at he
      subst he
      by_cases h1 : dashes <+: after
      · obtain ⟨tail, rfl⟩ := h1
        exact ⟨_, _, .closed tail hc⟩
      · by_cases h2 : crlf <+: after
        · obtain ⟨rest', rfl⟩ := h2
          obtain ⟨ps, e, h⟩ := ih rest'.length (by simp [← hl, crlf]; omega) rest' rfl
          exact ⟨_, _, .next hc h⟩
        · exact ⟨_, _, .broken hc h1 h2⟩

theorem Scan.clear {m rest : Bytes} {ps : List Bytes} {e : Option Bytes} (h : Scan m rest ps e) :
    ∀ p ∈ ps, Clear (crlf ++ m) p := by
  induction h with
  | missing _ => simp
  | closed _ hc => simpa using hc
  | next hc _ ih => exact List.forall_mem_cons.mpr ⟨hc, ih⟩
  | broken hc _ _ => simpa using hc

/-! ### What the loops compute -/

section Loops

variable {body m : Bytes} {cursor : ℕ}

theorem startsWithAt_eq {i : ℕ} {x : Bytes} (hi : i ≤ body.length) (hx : body.drop i = x)
    (needle : Bytes) : startsWithAt body i needle = decide (needle <+: x) := by
  rw [startsWithAt, hx, Bool.eq_iff_iff, Bool.and_eq_true, List.isPrefixOf_iff_prefix]
  simp [hi]

/-- Where the next delimiter stands, and what stands around it. -/
structure DelimiterAt (body m : Bytes) (cursor : ℕ) (part after : Bytes) : Prop where
  found : findBytes body (crlf ++ m) cursor = some (cursor + part.length)
  part_eq : (body.drop cursor).take (cursor + part.length - cursor) = part
  le : cursor + part.length + 2 + m.length ≤ body.length
  marker : startsWithAt body (cursor + part.length + 2) m = true
  closing : startsWithAt body (cursor + part.length + 2) (m ++ dashes) = decide (dashes <+: after)
  drop : body.drop (cursor + part.length + 2 + m.length) = after

theorem delimiterAt {part after : Bytes} (hc : cursor ≤ body.length)
    (hd : body.drop cursor = part ++ (crlf ++ m ++ after)) (hp : Clear (crlf ++ m) part) :
    DelimiterAt body m cursor part after := by
  have hl : (body.drop cursor).length = part.length + (2 + m.length + after.length) := by
    rw [hd]
    simp [crlf]
    omega
  rw [List.length_drop] at hl
  have h1 : body.drop (cursor + part.length + 2) = m ++ after := by
    rw [Nat.add_assoc, ← List.drop_drop, hd, ← List.drop_drop, List.drop_left]
    rfl
  refine ⟨?_, ?_, by omega, ?_, ?_, ?_⟩
  · rw [findBytes, if_neg (by simp [crlf, hc]), hd, hp.position]
    simp [Nat.add_comm]
  · rw [hd, Nat.add_sub_cancel_left, List.take_left]
  · rw [startsWithAt_eq (by omega) h1]
    exact decide_eq_true (List.prefix_append _ _)
  · rw [startsWithAt_eq (by omega) h1]
    exact decide_eq_decide.mpr (List.prefix_append_right_inj m)
  · rw [← List.drop_drop, h1, List.drop_left]

theorem findBytes_eq_none (h : position (crlf ++ m) (body.drop cursor) = none) :
    findBytes body (crlf ++ m) cursor = none := by
  rw [findBytes, h]
  simp

theorem multipartPartsFrom_succ {part after : Bytes} (h : DelimiterAt body m cursor part after)
    (fuel : ℕ) : multipartPartsFrom body (.of m) (fuel + 1) cursor =
      if dashes <+: after then [part]
      else if crlf <+: after then
        part :: multipartPartsFrom body (.of m) fuel (cursor + part.length + 2 + m.length + 2)
      else [part] := by
  have hb := startsWithAt_eq h.le h.drop crlf
  simp only [multipartPartsFrom, Delimiters.of, h.found, h.part_eq, h.closing, h.marker, hb,
    Bool.not_true, Bool.false_eq_true, if_false, decide_eq_true_eq, Bool.not_eq_true',
    decide_eq_false_iff_not, ite_not]

theorem DelimiterAt.closing_crlf {part tail : Bytes}
    (h : DelimiterAt body m cursor part (dashes ++ tail)) :
    startsWithAt body (cursor + part.length + 2 + (m ++ dashes).length) crlf =
      decide (crlf <+: tail) := by
  have hl := congrArg List.length h.drop
  have h2 : dashes.length = 2 := rfl
  have hle := h.le
  rw [List.length_drop, List.length_append] at hl
  refine startsWithAt_eq (by rw [List.length_append]; omega) ?_ crlf
  rw [List.length_append, ← Nat.add_assoc, ← List.drop_drop, h.drop, List.drop_left]

/-- The line break after the closing delimiter, which is all that is kept of what follows. -/
def closingBreak (tail : Bytes) : Bytes := if crlf <+: tail then crlf else []

theorem rewriteMultipartFrom_closed {part tail : Bytes}
    (h : DelimiterAt body m cursor part (dashes ++ tail)) (backend : String) (fuel : ℕ)
    (output : Bytes) :
    rewriteMultipartFrom body (.of m) backend (fuel + 1) cursor output =
      some (output ++ rewriteMultipartPart part backend ++ crlf ++ (m ++ dashes) ++
        closingBreak tail) := by
  have hd : decide (dashes <+: dashes ++ tail) = true := decide_eq_true (List.prefix_append _ _)
  simp only [rewriteMultipartFrom, Delimiters.of, h.found, h.part_eq, h.closing, h.closing_crlf, hd,
    if_true, decide_eq_true_eq, closingBreak]
  split_ifs <;> simp

theorem rewriteMultipartFrom_open {part after : Bytes} (h : DelimiterAt body m cursor part after)
    (hd : ¬ dashes <+: after) (backend : String) (fuel : ℕ) (output : Bytes) :
    rewriteMultipartFrom body (.of m) backend (fuel + 1) cursor output =
      if crlf <+: after then
        rewriteMultipartFrom body (.of m) backend fuel (cursor + part.length + 2 + m.length + 2)
          (output ++ rewriteMultipartPart part backend ++ crlf ++ m ++ crlf)
      else none := by
  have hb := startsWithAt_eq h.le h.drop crlf
  simp only [rewriteMultipartFrom, Delimiters.of, h.found, h.part_eq, h.closing, h.marker, hb, hd,
    decide_false, Bool.not_true, Bool.false_eq_true, if_false, Bool.not_eq_true',
    decide_eq_false_iff_not, ite_not]

theorem DelimiterAt.rest {part rest : Bytes} (h : DelimiterAt body m cursor part (crlf ++ rest)) :
    cursor + part.length + 2 + m.length + 2 ≤ body.length ∧
      body.drop (cursor + part.length + 2 + m.length + 2) = rest := by
  have hl := congrArg List.length h.drop
  have hc : crlf.length = 2 := rfl
  have hle := h.le
  rw [List.length_drop, List.length_append] at hl
  refine ⟨by omega, ?_⟩
  rw [← List.drop_drop, h.drop]
  rfl

theorem not_dashes_crlf (rest : Bytes) : ¬ dashes <+: crlf ++ rest := by
  simp [dashes, crlf]

/-- **The loop of `multipartParts` finds the parts of the scan.** -/
theorem Scan.multipartPartsFrom_eq {rest : Bytes} {ps : List Bytes} {e : Option Bytes}
    (h : Scan m rest ps e) {fuel : ℕ} (hc : cursor ≤ body.length) (hr : body.drop cursor = rest)
    (hf : rest.length < fuel) : multipartPartsFrom body (.of m) fuel cursor = ps := by
  induction h generalizing fuel cursor with
  | missing hp =>
    obtain ⟨fuel, rfl⟩ := Nat.exists_eq_add_one_of_ne_zero (Nat.ne_zero_of_lt hf)
    subst hr
    rw [multipartPartsFrom, Delimiters.of, findBytes_eq_none hp]
  | closed tail hp =>
    obtain ⟨fuel, rfl⟩ := Nat.exists_eq_add_one_of_ne_zero (Nat.ne_zero_of_lt hf)
    rw [multipartPartsFrom_succ (delimiterAt hc hr hp), if_pos (List.prefix_append _ _)]
  | next hp _ ih =>
    obtain ⟨fuel, rfl⟩ := Nat.exists_eq_add_one_of_ne_zero (Nat.ne_zero_of_lt hf)
    have hd := delimiterAt hc hr hp
    rw [multipartPartsFrom_succ hd, if_neg (not_dashes_crlf _), if_pos (List.prefix_append _ _)]
    rw [ih hd.rest.1 hd.rest.2 (by simp [crlf] at hf; omega)]
  | broken hp hn hb =>
    obtain ⟨fuel, rfl⟩ := Nat.exists_eq_add_one_of_ne_zero (Nat.ne_zero_of_lt hf)
    rw [multipartPartsFrom_succ (delimiterAt hc hr hp), if_neg hn, if_neg hb]

/-- What follows the opening delimiter in a body with the given parts. -/
def layParts (m : Bytes) : List Bytes → Bytes → Bytes
  | [], tail => dashes ++ tail
  | p :: ps, tail => crlf ++ (p ++ (crlf ++ (m ++ layParts m ps tail)))

/-- **The loop of `rewriteMultipartBody` lays out the rewritten parts of a scan that ends.** -/
theorem Scan.rewriteMultipartFrom_eq {rest : Bytes} {ps : List Bytes} {e : Option Bytes}
    (h : Scan m rest ps e) (backend : String) {fuel : ℕ} (hc : cursor ≤ body.length)
    (hr : body.drop cursor = rest) (hf : rest.length < fuel) (output : Bytes) :
    rewriteMultipartFrom body (.of m) backend fuel cursor (output ++ crlf) = e.map fun tail =>
      output ++ layParts m (ps.map (rewriteMultipartPart · backend)) (closingBreak tail) := by
  induction h generalizing fuel cursor output with
  | missing hp =>
    obtain ⟨fuel, rfl⟩ := Nat.exists_eq_add_one_of_ne_zero (Nat.ne_zero_of_lt hf)
    subst hr
    rw [rewriteMultipartFrom, Delimiters.of, findBytes_eq_none hp]
    rfl
  | closed tail hp =>
    obtain ⟨fuel, rfl⟩ := Nat.exists_eq_add_one_of_ne_zero (Nat.ne_zero_of_lt hf)
    rw [rewriteMultipartFrom_closed (delimiterAt hc hr hp)]
    simp [layParts]
  | next hp _ ih =>
    obtain ⟨fuel, rfl⟩ := Nat.exists_eq_add_one_of_ne_zero (Nat.ne_zero_of_lt hf)
    have hd := delimiterAt hc hr hp
    rw [rewriteMultipartFrom_open hd (not_dashes_crlf _), if_pos (List.prefix_append _ _)]
    rw [ih hd.rest.1 hd.rest.2 (by simp [crlf] at hf; omega)]
    simp [layParts]
  | broken hp hn hb =>
    obtain ⟨fuel, rfl⟩ := Nat.exists_eq_add_one_of_ne_zero (Nat.ne_zero_of_lt hf)
    rw [rewriteMultipartFrom_open (delimiterAt hc hr hp) hn, if_neg hb]
    rfl

end Loops

/-! ### Bodies laid out from parts -/

/-- The body with the given parts, and `tail` after the closing delimiter. -/
def lay (m : Bytes) (ps : List Bytes) (tail : Bytes) : Bytes := m ++ layParts m ps tail

/-- Laying out some parts clear of the delimiter gives a text that is scanned into them. -/
theorem scan_layParts {m p : Bytes} {ps : List Bytes} (tail : Bytes)
    (h : ∀ q ∈ p :: ps, Clear (crlf ++ m) q) :
    ∃ rest, layParts m (p :: ps) tail = crlf ++ rest ∧ Scan m rest (p :: ps) (some tail) := by
  induction ps generalizing p with
  | nil =>
    refine ⟨_, rfl, ?_⟩
    have := Scan.closed tail (h p List.mem_cons_self)
    simpa [layParts] using this
  | cons q ps ih =>
    obtain ⟨rest, hr, hs⟩ := ih fun x hx => h x (List.mem_cons_of_mem _ hx)
    refine ⟨_, rfl, ?_⟩
    have := Scan.next (h p List.mem_cons_self) hs
    rw [hr]
    simpa using this

/-- A scan that ends is of a body laid out from its parts. -/
theorem Scan.layParts_eq {m rest tail : Bytes} {ps : List Bytes} (h : Scan m rest ps (some tail)) :
    ps ≠ [] ∧ crlf ++ rest = layParts m ps tail := by
  generalize he : some tail = e at h
  induction h with
  | missing _ => cases he
  | closed t _ =>
    obtain rfl := Option.some.inj he
    exact ⟨by simp, by simp [layParts]⟩
  | next _ _ ih =>
    refine ⟨by simp, ?_⟩
    rw [layParts, ← (ih he).2]
    simp
  | broken _ _ _ => cases he

/-- The two scanners on a body that begins with the opening delimiter. -/
theorem Scan.scanners {m rest : Bytes} {ps : List Bytes} {e : Option Bytes} {boundary : String}
    (hm : asBytes ("--" ++ boundary) = m) (h : Scan m rest ps e) :
    multipartParts (m ++ (crlf ++ rest)) boundary = ps ∧
      ∀ backend, rewriteMultipartBody (m ++ (crlf ++ rest)) boundary backend = e.map fun tail =>
        lay m (ps.map (rewriteMultipartPart · backend)) (closingBreak tail) := by
  have hp : m.isPrefixOf (m ++ (crlf ++ rest)) = true :=
    List.isPrefixOf_iff_prefix.mpr (List.prefix_append _ _)
  have hs : startsWithAt (m ++ (crlf ++ rest)) m.length crlf = true := by
    rw [startsWithAt_eq (by simp) List.drop_left]
    exact decide_eq_true (List.prefix_append _ _)
  have hl : m.length + 2 ≤ (m ++ (crlf ++ rest)).length := by simp [crlf]
  have hd : (m ++ (crlf ++ rest)).drop (m.length + 2) = rest := by
    rw [← List.drop_drop, List.drop_left]
    rfl
  have hf : rest.length < (m ++ (crlf ++ rest)).length + 1 := by simp; omega
  constructor
  · rw [multipartParts, delimiters_eq, hm]
    simp only [Delimiters.of, hp, hs, Bool.not_true, Bool.false_eq_true, if_false]
    exact h.multipartPartsFrom_eq hl hd hf
  · intro backend
    rw [rewriteMultipartBody, delimiters_eq, hm]
    simp only [Delimiters.of, hp, hs, Bool.not_true, Bool.false_eq_true, if_false]
    exact h.rewriteMultipartFrom_eq backend hl hd hf m

/-- The two scanners on any other body. -/
theorem scanners_other {body m : Bytes} {boundary : String} (hm : asBytes ("--" ++ boundary) = m)
    (h : ¬ m ++ crlf <+: body) :
    multipartParts body boundary = [] ∧
      ∀ backend, rewriteMultipartBody body boundary backend = none := by
  have hs : m.isPrefixOf body = true → startsWithAt body m.length crlf = false := by
    intro hp
    obtain ⟨rest, rfl⟩ := List.isPrefixOf_iff_prefix.mp hp
    rw [startsWithAt_eq (by simp) List.drop_left, decide_eq_false_iff_not]
    rwa [List.prefix_append_right_inj] at h
  rw [multipartParts, delimiters_eq, hm]
  simp only [rewriteMultipartBody, delimiters_eq, hm, Delimiters.of]
  by_cases hp : m.isPrefixOf body = true
  · simp [hp, hs hp]
  · simp [hp]

end Onair
