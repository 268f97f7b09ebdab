import Onair.Lib.Text
import Onair.Core.Paths
import Mathlib.Data.Finset.Basic
import Mathlib.Data.List.TakeWhile

/-!
# What endpoint a path names

Routing reads a path in two ways. `pathRequiresModel` compares the whole path, without its trailing
slashes, to the endpoints that need a model. `pathCapabilityCandidates` splits it into segments,
drops the empty ones, and forgets letter case and the difference between dashes and underscores.

* `pathSegments`: the segments of a path, as the capabilities see them;
* `candidatesOf_take`: only the first three segments count;
* `pathSegments_of_trim`: trailing slashes do not count;
* **`candidates_requiring_iff`**: the paths with the candidates of an endpoint that needs a model
  are those whose first three segments are in the list `modelSegments`.
-/

namespace Onair

open Text

/-- The endpoints whose requests must name a model. -/
def modelPaths : List String :=
  ["/v1/chat/completions", "/v1/chat/completion", "/v1/responses", "/v1/messages",
    "/v1/embeddings", "/v1/audio/transcriptions", "/v1/audio/translations",
    "/v1/images/generations", "/v1/images/edits", "/v1/images/variations"]

/-- A request to the path must name a model. -/
def pathRequiresModel (path : String) : Bool := modelPaths.elem (trimEndSlashes path)

/-- A segment with dashes as underscores, in lower case. -/
def normalizeSegment (segment : String) : String :=
  String.ofList (segment.toList.map fun c => if c = '-' then '_' else c.toLower)

/-- The segment without its final `s`. -/
def singularize (segment : String) : String :=
  ((stripSuffix ['s'] segment.toList).map String.ofList).getD segment

/-- The capability of answering responses by way of chat completions. -/
def responsesViaChatCompletionsMarker : String := "responses_via_chat_completions"

/-- The segments of a path behind `/v1/`, normalized. -/
def pathSegments (path : String) : List String :=
  let trimmed := ((stripPrefix "/v1/".toList path.toList).getD path.toList).dropWhile (· == '/')
  ((splitList '/' trimmed).filter fun segment => !segment.isEmpty).map fun segment =>
    normalizeSegment (String.ofList segment)

/-- The further capabilities that serve paths with the given first segment. -/
def firstSegmentExtras (first : String) : Finset String :=
  match first with
  | "chat" => {"chat_completions", "completions"}
  | "responses" => {responsesViaChatCompletionsMarker}
  | "messages" => {"messages"}
  | "images" => {"image"}
  | "files" => {"file"}
  | "models" => {"model"}
  | "audio" => {"audio"}
  | _ => ∅

/-- The capabilities that serve a path with the given segments. -/
def candidatesOf : List String → Finset String
  | [] => ∅
  | first :: rest =>
    {first} ∪
      (if first.toList.getLast? = some 's' ∧ 1 < (asBytes first).length then {singularize first}
        else ∅) ∪
      (match rest with
        | [] => ∅
        | second :: _ => {second, first ++ "_" ++ second}) ∪
      (match rest with
        | _ :: third :: _ => {first ++ "_" ++ third, third}
        | _ => ∅) ∪
      firstSegmentExtras first

/-- The capabilities that serve a path. -/
def pathCapabilityCandidates (path : String) : Finset String := candidatesOf (pathSegments path)

/-- The first segments of the paths that have the capabilities of an endpoint in `modelPaths`. -/
def modelSegments : List (List String) :=
  [["chat"], ["chat", "completions"], ["chat", "completions", "completions"],
    ["chat", "completions", "completion"], ["chat", "completion"],
    ["chat", "completion", "completion"], ["chat", "completion", "completions"],
    ["responses"], ["messages"], ["embeddings"],
    ["audio", "transcriptions"], ["audio", "transcriptions", "transcriptions"],
    ["audio", "translations"], ["audio", "translations", "translations"],
    ["images", "generations"], ["images", "generations", "generations"],
    ["images", "edits"], ["images", "edits", "edits"],
    ["images", "variations"], ["images", "variations", "variations"]]

/-! ### Only three segments count -/

theorem candidatesOf_take (segments : List String) :
    candidatesOf (segments.take 3) = candidatesOf segments := by
  match segments with
  | [] | [_] | [_, _] | _ :: _ :: _ :: _ => rfl

/-- The segments that count are candidates themselves. -/
theorem mem_candidatesOf {segments : List String} {a : String} (ha : a ∈ segments.take 3) :
    a ∈ candidatesOf segments := by
  match segments with
  | [] => cases ha
  | [_] | [_, _] | _ :: _ :: _ :: _ =>
    simp only [List.take, List.mem_cons, List.not_mem_nil, or_false] at ha
    rcases ha with rfl | rfl | rfl <;> simp [candidatesOf]

/-- Segments with the given candidates are in the list. -/
def Listed (candidates : Finset String) (segments : List String) : Prop :=
  candidatesOf segments = candidates → segments ∈ modelSegments

instance (candidates : Finset String) (segments : List String) :
    Decidable (Listed candidates segments) :=
  inferInstanceAs (Decidable (_ → _))

/-- The first segment and each later one make a candidate together, so few are left to compare. -/
theorem modelPaths_listed : ∀ path ∈ modelPaths, ∀ a ∈ pathCapabilityCandidates path,
    Listed (pathCapabilityCandidates path) [a] ∧ ∀ b ∈ pathCapabilityCandidates path,
      a ++ "_" ++ b ∉ pathCapabilityCandidates path ∨
        Listed (pathCapabilityCandidates path) [a, b] ∧ ∀ d ∈ pathCapabilityCandidates path,
          a ++ "_" ++ d ∉ pathCapabilityCandidates path ∨
            Listed (pathCapabilityCandidates path) [a, b, d] := by
  decide +kernel

theorem modelPaths_require : ∀ path ∈ modelPaths, pathRequiresModel path = true := by
  decide +kernel

theorem modelPaths_ne_empty : ∀ path ∈ modelPaths, pathCapabilityCandidates path ≠ ∅ := by
  decide +kernel

theorem modelSegments_candidates : ∀ segments ∈ modelSegments,
    ∃ path ∈ modelPaths, candidatesOf segments = pathCapabilityCandidates path := by
  decide +kernel

theorem take_mem_modelSegments {path : String} (hpath : path ∈ modelPaths)
    {segments : List String} (h : candidatesOf segments = pathCapabilityCandidates path) :
    segments.take 3 ∈ modelSegments := by
  have hmem : ∀ a ∈ segments.take 3, a ∈ pathCapabilityCandidates path := by
    intro a ha
    rw [← h]
    exact mem_candidatesOf ha
  rw [← candidatesOf_take] at h
  have hlen : (segments.take 3).length ≤ 3 := List.length_take_le 3 segments
  have hlist := modelPaths_listed path hpath
  -- every segment is one of finitely many candidates, so the table decides
  match segments.take 3, hmem, hlen, h with
  | [], _, _, h => exact absurd h.symm (modelPaths_ne_empty path hpath)
  | [a], hmem, _, h => exact (hlist a (hmem a (by simp))).1 h
  | [a, b], hmem, _, h =>
    have hab : a ++ "_" ++ b ∈ pathCapabilityCandidates path := by
      rw [← h]
      simp [candidatesOf]
    obtain ⟨hpair, -⟩ := ((hlist a (hmem a (by simp))).2 b (hmem b (by simp))).resolve_left
      (not_not.mpr hab)
    exact hpair h
  | [a, b, d], hmem, _, h =>
    have hab : a ++ "_" ++ b ∈ pathCapabilityCandidates path := by
      rw [← h]
      simp [candidatesOf]
    have had : a ++ "_" ++ d ∈ pathCapabilityCandidates path := by
      rw [← h]
      simp [candidatesOf]
    obtain ⟨-, hthird⟩ := ((hlist a (hmem a (by simp))).2 b (hmem b (by simp))).resolve_left
      (not_not.mpr hab)
    exact (hthird d (hmem d (by simp))).resolve_left (not_not.mpr had) h

/-! ### Trailing slashes do not count -/

theorem segments_append_slashes (l : List Char) (n : ℕ) :
    (splitList '/' (l ++ List.replicate n '/')).filter (fun segment => !segment.isEmpty) =
      (splitList '/' l).filter fun segment => !segment.isEmpty := by
  cases n with
  | zero => rw [List.replicate_zero, List.append_nil]
  | succ n =>
    rw [List.replicate_succ, splitList_append_sep, splitList_replicate, List.filter_append]
    simp

theorem toList_trimEndSlashes (path : String) :
    ∃ n, path.toList = (trimEndSlashes path).toList ++ List.replicate n '/' := by
  refine ⟨(path.toList.reverse.takeWhile (· == '/')).length, ?_⟩
  have hslash : path.toList.reverse.takeWhile (· == '/') =
      List.replicate (path.toList.reverse.takeWhile (· == '/')).length '/' := by
    refine List.eq_replicate_of_mem fun b hb => ?_
    simpa using List.mem_takeWhile_imp hb
  have happ := congrArg List.reverse
    (List.takeWhile_append_dropWhile (p := (· == '/')) (l := path.toList.reverse))
  rw [List.reverse_append, List.reverse_reverse, hslash, List.reverse_replicate] at happ
  rw [trimEndSlashes, String.toList_ofList]
  exact happ.symm

theorem modelPaths_form : ∀ path ∈ modelPaths,
    path.toList = "/v1/".toList ++ path.toList.drop 4 ∧
      (path.toList.drop 4).dropWhile (· == '/') = path.toList.drop 4 ∧
      path.toList.drop 4 ≠ [] := by
  decide +kernel

theorem dropWhile_slashes {l : List Char} (hl : l.dropWhile (· == '/') = l) (hne : l ≠ [])
    (r : List Char) : (l ++ r).dropWhile (· == '/') = l ++ r := by
  obtain ⟨c, t, rfl⟩ := List.exists_cons_of_ne_nil hne
  have hc : c ≠ '/' := by
    rintro rfl
    have hlen := (List.dropWhile_suffix (· == '/') (l := t)).length_le
    rw [List.dropWhile_cons, if_pos (by rfl)] at hl
    rw [hl, List.length_cons] at hlen
    omega
  rw [List.cons_append, List.dropWhile_cons, if_neg (by simpa using hc)]

/-- The segments of an endpoint that needs a model, however many slashes follow it. -/
theorem pathSegments_of_trim {path endpoint : String} (h : trimEndSlashes path = endpoint)
    (hpath : endpoint ∈ modelPaths) : pathSegments path = pathSegments endpoint := by
  obtain ⟨n, hn⟩ := toList_trimEndSlashes path
  obtain ⟨hform, hskip, hne⟩ := modelPaths_form endpoint hpath
  rw [h] at hn
  generalize endpoint.toList.drop 4 = rest at hform hskip hne
  rw [pathSegments, pathSegments, hn, hform, List.append_assoc, stripPrefix_append,
    stripPrefix_append, Option.getD_some, Option.getD_some, dropWhile_slashes hskip hne, hskip,
    segments_append_slashes]

/-! ### The paths of the endpoints that need a model -/

/-- The paths with the candidates of an endpoint that needs a model are those with certain first
segments. -/
theorem candidates_requiring_iff (path : String) :
    (∃ other, pathCapabilityCandidates path = pathCapabilityCandidates other ∧
        pathRequiresModel other = true) ↔
      (pathSegments path).take 3 ∈ modelSegments := by
  constructor
  · rintro ⟨other, hsame, hother⟩
    have hmem : trimEndSlashes other ∈ modelPaths := by simpa [pathRequiresModel] using hother
    have hseg := pathSegments_of_trim rfl hmem
    refine take_mem_modelSegments hmem ?_
    rw [pathCapabilityCandidates, pathCapabilityCandidates, hseg] at hsame
    exact hsame
  · intro h
    obtain ⟨other, hother, hcand⟩ := modelSegments_candidates _ h
    rw [candidatesOf_take] at hcand
    exact ⟨other, hcand, modelPaths_require other hother⟩

end Onair
