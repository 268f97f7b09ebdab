import Onair.Request.HistoryMessages

/-!
# The token limit of a chat that is sent as messages

A chat may limit its answer under two names. The limit of an Anthropic request is the one the client
gave, or else that of the route.

* `TokenLimit`, `Supplied`: the limits a client can give, and those it gives;
* `tokenCount_eq_some_iff`, `resolveMaxTokens_eq_ok`: what is read as a limit, and which is taken;
* `get_maxTokens_sent`: the limit that is sent;
* **`limitHonoured_iff`**: what the client gives is sent, if and only if it is a limit.
-/

namespace Onair

open Json Text Fallible

/-! ### Limits -/

/-- The names of the limit. -/
def tokenLimitFields : List String := ["max_tokens", "max_completion_tokens"]

/-- The client gives a value under one of the names. -/
def Supplied (object : List (String × Value)) (v : Value) : Prop :=
  ∃ field ∈ tokenLimitFields, OrdMap.get field object = some v ∧ v ≠ .null

/-- A limit that can be read: an integer of 32 bits. -/
def TokenLimit (v : Value) : Prop := ∃ n < 2 ^ 32, v = .u64 (UInt64.ofNat n)

/-- **What the client gives is sent**, and the limit of the route only where it gives nothing. -/
structure LimitHonoured (anthropicMaxTokens : Option ℕ) (object sent : List (String × Value)) :
    Prop where
  client : ∀ v, Supplied object v → OrdMap.get "max_tokens" sent = some v
  route : (∀ v, ¬Supplied object v) → ∃ n, anthropicMaxTokens = some n ∧
    OrdMap.get "max_tokens" sent = some (.u64 (UInt64.ofNat n))

section

variable {object : List (String × Value)}

theorem tokenCount_eq_some_iff {field : String} {n : ℕ} : tokenCount object field = some n ↔
    n < 2 ^ 32 ∧ OrdMap.get field object = some (.u64 (UInt64.ofNat n)) := by
  have hvalue : ∀ v : Value, (v.asU64.map UInt64.toNat).filter (· < 2 ^ 32) = some n ↔
      n < 2 ^ 32 ∧ v = .u64 (UInt64.ofNat n) := by
    intro v
    rw [Option.filter_eq_some_iff, Option.map_eq_some_iff]
    constructor
    · rintro ⟨⟨m, hm, rfl⟩, hlt⟩
      refine ⟨of_decide_eq_true hlt, ?_⟩
      rw [UInt64.ofNat_toNat]
      exact Value.asU64_eq_some.mp hm
    · rintro ⟨hlt, rfl⟩
      refine ⟨⟨_, rfl, UInt64.toNat_ofNat_of_lt' (hlt.trans (by decide))⟩, decide_eq_true hlt⟩
  unfold tokenCount
  cases OrdMap.get field object with
  | none => simp
  | some v =>
    rw [Option.bind_some, hvalue, Option.some_inj]

/-- **The limit that is taken**: one of the client, if it can be read, or else that of the
route. -/
theorem resolveMaxTokens_eq_ok {anthropicMaxTokens : Option ℕ} {n : ℕ}
    (h : resolveMaxTokens object anthropicMaxTokens = .ok n) :
    (∀ field ∈ tokenLimitFields, ∀ m, tokenCount object field = some m → m = n) ∧
      ((∃ field ∈ tokenLimitFields, tokenCount object field = some n) ∨
        anthropicMaxTokens = some n) := by
  unfold resolveMaxTokens at h
  simp only [bind_eq_ok, refuseIf_eq_ok, okOr_eq_ok] at h
  obtain ⟨-, hagree, htaken⟩ := h
  unfold tokenLimitFields
  cases hmax : tokenCount object "max_tokens" with
  | none =>
    cases hcompletion : tokenCount object "max_completion_tokens" with
    | none => simp_all
    | some b => simp_all
  | some a =>
    cases hcompletion : tokenCount object "max_completion_tokens" with
    | none => simp_all
    | some b => simp_all

theorem get_maxTokens_chatRequestToAnthropic {c : Codec} {anthropic : List (String × Value)}
    {backendModel : Option String} {anthropicMaxTokens : Option ℕ}
    (h : chatRequestToAnthropic c object backendModel anthropicMaxTokens = .ok anthropic) :
    ∃ n, resolveMaxTokens object anthropicMaxTokens = .ok n ∧
      OrdMap.get "max_tokens" anthropic = some (.u64 (UInt64.ofNat n)) := by
  unfold chatRequestToAnthropic at h
  simp only [bind_eq_ok] at h
  obtain ⟨-, -, messages, -, model, -, n, hlimit, out, -, stopped, hstop, tooled, htools,
    hchoice⟩ := h
  refine ⟨n, hlimit, ?_⟩
  rw [get_withToolChoice_ne hchoice (by decide), get_withTools_ne htools (by decide),
    get_copyFields_ne (by decide), get_withStopSequences_ne hstop (by decide), OrdMap.get_ofList]
  unfold joinedTexts
  split_ifs
  · simp
  · simp

theorem get_maxTokens_sent {c : Codec} {body : Bytes} {contentType backendModel : Option String}
    {anthropicMaxTokens : Option ℕ} {extraBody : List (String × Toml)}
    (hsorted : OrdMap.Sorted extraBody) (hbody : c.fromSlice body = some (.object object))
    {sent : List (String × Value)} (h : chatAsAnthropic c body contentType backendModel
      anthropicMaxTokens extraBody = .ok sent) :
    ∃ n, resolveMaxTokens object anthropicMaxTokens = .ok n ∧
      OrdMap.get "max_tokens" sent = some (.u64 (UInt64.ofNat n)) := by
  unfold chatAsAnthropic at h
  simp only [bind_eq_ok, pure_eq_ok] at h
  obtain ⟨_, hread, anthropic, hanthropic, rfl⟩ := h
  obtain rfl := Value.object.inj
    (Option.some.inj (hbody.symm.trans (readRequestObject_eq_ok hread)))
  obtain ⟨n, hlimit, hget⟩ := get_maxTokens_chatRequestToAnthropic hanthropic
  refine ⟨n, hlimit, ?_⟩
  have hextra : extraValue extraBody "max_tokens" = none := if_pos (by decide)
  rw [overlaid_applyExtraBody hsorted, hextra, Option.none_or, hget]

/-- What the client gives can be read, if it is a limit. -/
theorem tokenCount_of_tokenLimit {field : String} {v : Value} (hv : TokenLimit v)
    (hget : OrdMap.get field object = some v) : ∃ n, tokenCount object field = some n ∧
      v = .u64 (UInt64.ofNat n) := by
  obtain ⟨n, hn, rfl⟩ := hv
  exact ⟨n, tokenCount_eq_some_iff.mpr ⟨hn, hget⟩, rfl⟩

/-- **What the client gives is sent, if and only if it is a limit.** -/
theorem limitHonoured_iff {c : Codec} {body : Bytes} {contentType backendModel : Option String}
    {anthropicMaxTokens : Option ℕ} {extraBody : List (String × Toml)}
    (hroute : ∀ n ∈ anthropicMaxTokens, n < 2 ^ 32) (hsorted : OrdMap.Sorted extraBody)
    (hbody : c.fromSlice body = some (.object object)) {bytes : Bytes}
    (h : rewriteChatRequestAsAnthropic c body contentType backendModel anthropicMaxTokens
      extraBody = .ok bytes) :
    ∃ sent, chatAsAnthropic c body contentType backendModel anthropicMaxTokens extraBody =
        .ok sent ∧ c.toVec (.object sent) = bytes ∧
      (LimitHonoured anthropicMaxTokens object sent ↔
        ∀ v, Supplied object v → TokenLimit v) := by
  obtain ⟨sent, hsent, hbytes⟩ := rewriteChatRequestAsAnthropic_eq_ok.mp h
  obtain ⟨n, hlimit, hget⟩ := get_maxTokens_sent hsorted hbody hsent
  obtain ⟨hagree, htaken⟩ := resolveMaxTokens_eq_ok hlimit
  refine ⟨sent, hsent, hbytes, fun hhonoured v hv => ?_, fun hall => ⟨?_, ?_⟩⟩
  · -- the number that is sent has 32 bits, wherever it comes from
    have hn : n < 2 ^ 32 := by
      obtain ⟨field, -, hcount⟩ | hdefault := htaken
      · exact (tokenCount_eq_some_iff.mp hcount).1
      · exact hroute n hdefault
    have hsame := hhonoured.client v hv
    rw [hget] at hsame
    exact ⟨n, hn, (Option.some.inj hsame).symm⟩
  · rintro v ⟨field, hfield, hfv, hne⟩
    obtain ⟨m, hcount, rfl⟩ := tokenCount_of_tokenLimit (hall v ⟨field, hfield, hfv, hne⟩) hfv
    rw [hget, hagree field hfield m hcount]
  · intro hnone
    obtain ⟨field, hfield, hcount⟩ | hdefault := htaken
    · exact absurd ⟨field, hfield, (tokenCount_eq_some_iff.mp hcount).2, nofun⟩ (hnone _)
    · exact ⟨n, hdefault, hget⟩

end

/-- A chat without messages, with a limit. -/
def limitedChat (limit : String) : Bytes :=
  asBytes ("\x7b\"max_tokens\":" ++ limit ++ ",\"messages\":[],\"model\":\"m\"\x7d")

/-- The fields of that chat. -/
def limitedFields (limit : Value) : List (String × Value) :=
  [("max_tokens", limit), ("messages", .array []), ("model", .string "m")]

/-- A limit of the client is sent, whatever that of the route is. -/
theorem limitHonoured_iff_sample : ∃ sent,
    chatAsAnthropic reference (limitedChat "7") none none (some 9) [] = .ok sent ∧
      LimitHonoured (some 9) (limitedFields (.u64 7)) sent := by
  have hsorted : OrdMap.Sorted ([] : List (String × Toml)) := List.Pairwise.nil
  have hbody : reference.fromSlice (limitedChat "7") =
      some (.object (limitedFields (.u64 7))) := by decide +kernel
  obtain ⟨bytes, hbytes⟩ := exists_ok_of_isOk (show (rewriteChatRequestAsAnthropic reference
    (limitedChat "7") none none (some 9) []).isOk = true by decide +kernel)
  obtain ⟨sent, hsent, -, hiff⟩ := limitHonoured_iff (by decide) hsorted hbody hbytes
  refine ⟨sent, hsent, hiff.mpr ?_⟩
  rintro v ⟨field, hfield, hget, -⟩
  simp only [tokenLimitFields, List.mem_cons, List.not_mem_nil, or_false] at hfield
  rcases hfield with rfl | rfl
  · exact ⟨7, by decide, (Option.some.inj hget).symm⟩
  · cases hget

/-- A limit of the client that is no number is not sent, but that of the route. -/
theorem not_limitHonoured_sample : ∃ sent bytes,
    rewriteChatRequestAsAnthropic reference (limitedChat "\"7\"") none none (some 9) [] =
      .ok bytes ∧
    chatAsAnthropic reference (limitedChat "\"7\"") none none (some 9) [] = .ok sent ∧
      ¬LimitHonoured (some 9) (limitedFields (.string "7")) sent := by
  have hsorted : OrdMap.Sorted ([] : List (String × Toml)) := List.Pairwise.nil
  have hbody : reference.fromSlice (limitedChat "\"7\"") =
      some (.object (limitedFields (.string "7"))) := by decide +kernel
  obtain ⟨bytes, hbytes⟩ := exists_ok_of_isOk (show (rewriteChatRequestAsAnthropic reference
    (limitedChat "\"7\"") none none (some 9) []).isOk = true by decide +kernel)
  obtain ⟨sent, hsent, -⟩ := rewriteChatRequestAsAnthropic_eq_ok.mp hbytes
  obtain ⟨n, -, hget⟩ := get_maxTokens_sent hsorted hbody hsent
  refine ⟨sent, bytes, hbytes, hsent, fun hhonoured => ?_⟩
  have hclient := hhonoured.client (.string "7") ⟨"max_tokens", by decide, rfl, nofun⟩
  rw [hget] at hclient
  exact nomatch hclient

end Onair
