import Onair.Proxy.Selection

/-!
# Markers that are not meant to open an endpoint

The markers of features and of compatibility share one name space with the segments of paths, so
that a path can spell one of them. A backend that has no other markers then counts as serving the
path.

* `featureMarkers`, `compatibilityMarkers`: the markers that are not for endpoints;
* `SpellsMarker`: the segments of a path spell a marker;
* `mem_candidatesOf_iff`: these are the candidates of the path among the markers;
* **`markers_closed_iff`**: such a backend serves no path natively, except where the path spells a
  marker it has.
-/

namespace Onair

open Text

/-- The markers of features. -/
def featureMarkers : Finset String :=
  {"streaming", "tools", "tool_calls", "function_calling", "functions"}

/-- The markers of compatibility. -/
def compatibilityMarkers : Finset String :=
  {responsesViaChatCompletionsMarker, chatCompletionsViaResponsesMarker,
    chatCompletionsViaMessagesMarker}

/-- One of the first three segments is the marker, or the first one is its plural, or the first one
joined with one of the next two; and a path under `responses` spells the marker of its
compatibility. -/
def SpellsMarker (segments : List String) (marker : String) : Prop :=
  marker ∈ segments.take 3 ∨
    ∃ first rest, segments = first :: rest ∧
      (first = marker ++ "s" ∨ (∃ next ∈ rest.take 2, first ++ "_" ++ next = marker) ∨
        first = "responses" ∧ marker = responsesViaChatCompletionsMarker)

theorem singularize_append (marker : String) : singularize (marker ++ "s") = marker := by
  have hstrip : stripSuffix ['s'] (marker ++ "s").toList = some marker.toList := by
    rw [stripSuffix_eq_some, String.toList_append]
    rfl
  rw [singularize, hstrip, Option.map_some, Option.getD_some, String.ofList_toList]

theorem singularize_eq_iff {first marker : String} (hmarker : marker ≠ "") :
    ((first.toList.getLast? = some 's' ∧ 1 < (asBytes first).length) ∧ singularize first = marker) ↔
      first = marker ++ "s" := by
  constructor
  · rintro ⟨⟨hlast, -⟩, rfl⟩
    obtain ⟨init, hinit⟩ := List.getLast?_eq_some_iff.mp hlast
    have hfirst : first = String.ofList init ++ "s" := by
      rw [← String.toList_inj, String.toList_append, String.toList_ofList, hinit]
      rfl
    rw [hfirst, singularize_append]
  · rintro rfl
    refine ⟨⟨?_, ?_⟩, singularize_append marker⟩
    · rw [String.toList_append]
      exact List.getLast?_concat
    · have hne : asBytes marker ≠ [] := by
        intro h
        refine hmarker (Option.some.inj ?_)
        rw [← fromUtf8_asBytes marker, h]
        rfl
      have hpos := List.length_pos_iff.mpr hne
      rw [asBytes_append, List.length_append]
      exact Nat.lt_add_of_pos_left hpos

theorem mem_firstSegmentExtras {first marker : String}
    (hmarker : marker ∈ featureMarkers ∪ compatibilityMarkers) :
    marker ∈ firstSegmentExtras first ↔
      first = "responses" ∧ marker = responsesViaChatCompletionsMarker := by
  have hnone : ∀ m ∈ featureMarkers ∪ compatibilityMarkers,
      m ≠ "chat_completions" ∧ m ≠ "completions" ∧ m ≠ "messages" ∧ m ≠ "image" ∧ m ≠ "file" ∧
        m ≠ "model" ∧ m ≠ "audio" ∧ m ≠ "" := by
    decide
  obtain ⟨h1, h2, h3, h4, h5, h6, h7, -⟩ := hnone marker hmarker
  unfold firstSegmentExtras
  split <;> simp_all

/-- The candidates of a path among the markers are those its segments spell. -/
theorem mem_candidatesOf_iff {segments : List String} {marker : String}
    (hmarker : marker ∈ featureMarkers ∪ compatibilityMarkers) :
    marker ∈ candidatesOf segments ↔ SpellsMarker segments marker := by
  have hne : marker ≠ "" := by
    rintro rfl
    revert hmarker
    decide
  cases segments with
  | nil => simp [candidatesOf, SpellsMarker]
  | cons first rest =>
    have hsingle : marker ∈ (if first.toList.getLast? = some 's' ∧ 1 < (asBytes first).length then
        {singularize first} else ∅ : Finset String) ↔ first = marker ++ "s" := by
      rw [← singularize_eq_iff hne]
      split_ifs with h
      · rw [Finset.mem_singleton, and_iff_right h, eq_comm]
      · simp only [Finset.notMem_empty, false_iff]
        exact fun hc => h hc.1
    simp only [candidatesOf, Finset.mem_union, Finset.mem_singleton, hsingle,
      mem_firstSegmentExtras hmarker, SpellsMarker, List.cons.injEq]
    rcases rest with _ | ⟨second, _ | ⟨third, rest⟩⟩
    · simp; grind
    · simp; grind
    · simp; grind

/-- The mode is one in which the request is forwarded as it is. -/
def IsNative (mode : Option RequestMode) : Prop :=
  mode = some .native ∨ mode = some .anthropicMessagesNative

section

variable {supports : Finset String} (hsupports : supports ⊆ featureMarkers ∪ compatibilityMarkers)

include hsupports

/-- The markers admit none of the endpoints that routing knows by path. -/
theorem not_admits_of_markers (path : String) {endpoint : EndpointKind} (h : endpoint ≠ .other) :
    ¬ Admits path endpoint supports := by
  have hnone : ∀ m ∈ featureMarkers ∪ compatibilityMarkers, m ≠ "all" ∧ m ≠ "responses" ∧
      m ≠ "response" ∧ m ≠ "chat" ∧ m ≠ "chat_completions" ∧ m ≠ "completions" ∧
      m ≠ "messages" := by
    decide
  rintro ⟨marker, hm, hmem⟩
  have hall : "all" ∉ supports := fun hall => (hnone _ (hsupports hall)).1 rfl
  have hmem := hmem.resolve_right hall
  have := hnone marker (hsupports hmem)
  cases endpoint <;> simp_all [endpointMarkers]

theorem admits_other_iff (path : String) :
    Admits path .other supports ↔ ∃ marker ∈ supports, SpellsMarker (pathSegments path) marker := by
  have hall : "all" ∉ supports := by
    intro hall
    have hall := hsupports hall
    revert hall
    decide
  constructor
  · rintro ⟨marker, hcand, hmem⟩
    have hmem := hmem.resolve_right hall
    exact ⟨marker, hmem, (mem_candidatesOf_iff (hsupports hmem)).mp hcand⟩
  · rintro ⟨marker, hmem, hspells⟩
    exact ⟨marker, (mem_candidatesOf_iff (hsupports hmem)).mpr hspells, Or.inl hmem⟩

/-- **Where feature and compatibility markers open no endpoint**: on the endpoints that routing
knows by path, and on paths that do not spell one of the backend's markers. -/
theorem markers_closed_iff (path : String) :
    (∀ expose, ¬ IsNative
        (requestModeForPath path (pathCapabilityCandidates path) supports expose)) ↔
      routedEndpoint path ≠ .other ∨
        ∀ marker ∈ supports, ¬ SpellsMarker (pathSegments path) marker := by
  have hspells := admits_other_iff hsupports path
  constructor
  · intro h
    by_contra hcon
    obtain ⟨hother, hopen⟩ := not_or.mp hcon
    push Not at hother hopen
    refine h none (Or.inl ?_)
    rw [requestModeForPath_eq]
    have hnative := (followsMatrix_matrixMode path supports none).native
    rw [hother] at hnative
    refine hnative.mpr ⟨hspells.mpr hopen, ?_⟩
    rintro markers ⟨⟩
  · intro h expose hnative
    rw [requestModeForPath_eq] at hnative
    obtain ⟨m, hm⟩ : ∃ m, matrixMode path supports expose = some m :=
      hnative.elim (fun h => ⟨_, h⟩) fun h => ⟨_, h⟩
    obtain ⟨row, hmem, ⟨hclient, hadmits, -⟩, -⟩ := exists_row hm
    -- the upstream endpoint of the row is admitted, so it is that of other paths
    have hother : row.upstream = .other := by
      by_contra hne
      exact not_admits_of_markers hsupports path hne hadmits
    have hsame : ∀ row ∈ endpointMatrix, row.upstream = .other → row.client = .other := by decide
    rw [hsame row hmem hother] at hclient
    rw [hother, hspells] at hadmits
    obtain ⟨marker, hmarker, hsp⟩ := hadmits
    exact h.elim (fun h => h hclient.symm) fun h => h marker hmarker hsp

end

/-- A backend that is only marked for the compatibility of responses: on the endpoint itself it
serves nothing natively. -/
theorem markers_closed_responses :
    {responsesViaChatCompletionsMarker} ⊆ featureMarkers ∪ compatibilityMarkers ∧
      ∀ expose, ¬ IsNative (requestModeForPath "/v1/responses/"
        (pathCapabilityCandidates "/v1/responses/") {responsesViaChatCompletionsMarker}
        expose) := by
  have h : {responsesViaChatCompletionsMarker} ⊆ featureMarkers ∪ compatibilityMarkers := by decide
  exact ⟨h, (markers_closed_iff h "/v1/responses/").mpr (Or.inl (by decide))⟩

/-- The same backend is taken to serve a path under the endpoint natively, and a backend that is
only marked for streaming a path of that name. -/
theorem markers_open_responses :
    {responsesViaChatCompletionsMarker} ⊆ featureMarkers ∪ compatibilityMarkers ∧
      requestModeForPath "/v1/responses/resp_1" (pathCapabilityCandidates "/v1/responses/resp_1")
        {responsesViaChatCompletionsMarker} none = some .native ∧
      {"streaming"} ⊆ featureMarkers ∪ compatibilityMarkers ∧
      requestModeForPath "/v1/streaming" (pathCapabilityCandidates "/v1/streaming")
        {"streaming"} none = some .native := by
  refine ⟨by decide, by decide +kernel, by decide, by decide +kernel⟩

end Onair
