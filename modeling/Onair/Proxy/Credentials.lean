import Onair.Proxy.Accepted

/-!
# Credentials

A request is authenticated by a bearer token or an `x-api-key` header, which is compared to the keys
of the clients one after the other.

* `Presented`: the credential of a request; of several lines of a header the first counts;
* `authenticate_iff`: whom `authenticate` takes a request to come from;
* `AuthenticationExact`: what authentication should be;
* **`authentication_exact_iff`**: it is so, if and only if no two clients have the same key, no key
  is blank, and every key can be sent in a header.
-/

namespace Onair

open Text Fallible

/-! ### Credentials -/

/-- The credential of a request: the bearer token, or else an `x-api-key` that is not empty. -/
inductive Presented (headers : HeaderMap) : String → Prop
  | bearer (token : String) (h : headerStr headers "authorization" = some ("Bearer " ++ token)) :
      Presented headers token
  | xApiKey (key : String)
      (hbearer : ∀ token, headerStr headers "authorization" ≠ some ("Bearer " ++ token))
      (h : headerStr headers "x-api-key" = some key) (hne : key ≠ "") : Presented headers key

/-- Who a client is. -/
def ResolvedClient.identity (client : ResolvedClient) : Identity where
  id := client.id
  models := client.models

theorem tokenMatches_iff {input configured : String} :
    tokenMatches input configured = true ↔ input = configured := by
  have hbytes : asBytes input = asBytes configured ↔ input = configured := by
    refine ⟨fun h => ?_, congrArg _⟩
    have hread := fromUtf8_asBytes input
    rw [h, fromUtf8_asBytes] at hread
    exact (Option.some.inj hread).symm
  rw [tokenMatches, Bool.and_eq_true, beq_iff_eq, beq_iff_eq, ← hbytes]
  exact and_iff_right_of_imp (congrArg _)

theorem matchClient_eq (token : String) (clients : List ResolvedClient) :
    matchClient token clients = clients.find? fun c => c.apiKey = token := by
  have hfold (found : Option ResolvedClient) :
      (clients.foldl (fun found client =>
        if tokenMatches token client.apiKey && found.isNone then some client else found) found) =
        found.or (clients.find? fun c => c.apiKey = token) := by
    induction clients generalizing found with
    | nil => simp
    | cons client clients ih =>
      rw [List.foldl_cons, ih, List.find?_cons]
      by_cases h : client.apiKey = token
      · rw [tokenMatches_iff.mpr h.symm, decide_eq_true h]
        cases found <;> rfl
      · have hmatch : tokenMatches token client.apiKey = false :=
          Bool.eq_false_iff.mpr fun hm => h (tokenMatches_iff.mp hm).symm
        simp [hmatch, h]
  rw [matchClient, hfold]
  rfl

theorem bearer_eq_some {headers : HeaderMap} {token : String} :
    ((headerStr headers "authorization").bind fun value =>
        (stripPrefix "Bearer ".toList value.toList).map String.ofList) = some token ↔
      headerStr headers "authorization" = some ("Bearer " ++ token) := by
  rw [Option.bind_eq_some_iff]
  constructor
  · rintro ⟨value, hvalue, h⟩
    obtain ⟨rest, hrest, rfl⟩ := Option.map_eq_some_iff.mp h
    have hlist := stripPrefix_eq_some.mp hrest
    rw [hvalue, Option.some_inj, ← String.toList_inj, String.toList_append, hlist,
      String.toList_ofList (l := rest)]
  · intro h
    refine ⟨_, h, ?_⟩
    rw [String.toList_append, stripPrefix_append, Option.map_some, String.ofList_toList]

/-- The credential of a request is what `authenticate` looks up. -/
theorem presented_iff {headers : HeaderMap} {token : String} :
    Presented headers token ↔
      ((headerStr headers "authorization").bind fun value =>
          (stripPrefix "Bearer ".toList value.toList).map String.ofList).or
        ((headerStr headers "x-api-key").filter fun value => !value.isEmpty) = some token := by
  rw [Option.or_eq_some_iff, bearer_eq_some, Option.eq_none_iff_forall_ne_some]
  simp only [ne_eq, bearer_eq_some, Option.filter_eq_some_iff]
  constructor
  · intro h
    cases h with
    | bearer h => exact Or.inl h
    | xApiKey hbearer h hne => exact Or.inr ⟨hbearer, h, by simpa using hne⟩
  · rintro (h | ⟨hbearer, h, hne⟩)
    · exact .bearer token h
    · exact .xApiKey token hbearer h (by simpa using hne)

/-- **Whom a request comes from**: the first client whose key is the credential. -/
theorem authenticate_iff {headers : HeaderMap} {clients : List ResolvedClient}
    {identity : Identity} :
    authenticate headers clients = .ok identity ↔
      ∃ token, Presented headers token ∧ ∃ client,
        (clients.find? fun c => c.apiKey = token) = some client ∧ client.identity = identity := by
  simp only [presented_iff]
  unfold authenticate
  generalize ((headerStr headers "authorization").bind fun value =>
    (stripPrefix "Bearer ".toList value.toList).map String.ofList) = bearerToken
  generalize ((headerStr headers "x-api-key").filter fun value => !value.isEmpty) = xApiKey
  dsimp only
  cases bearerToken.or xApiKey with
  | none => simp
  | some token =>
    dsimp only
    rw [matchClient_eq]
    cases hfind : clients.find? fun c => c.apiKey = token with
    | none => simp [hfind]
    | some client => simp [hfind, ResolvedClient.identity]

theorem Presented.unique {headers : HeaderMap} {a b : String} (ha : Presented headers a)
    (hb : Presented headers b) : a = b :=
  Option.some.inj ((presented_iff.mp ha).symm.trans (presented_iff.mp hb))

/-! ### Exact authentication -/

/-- **What authentication should be**: a request comes from a client if and only if its credential
is the key of the client; no blank credential is accepted; and every client can authenticate with
its key. -/
structure AuthenticationExact (clients : List ResolvedClient) : Prop where
  exact : ∀ headers, ∀ c ∈ clients,
    authenticate headers clients = .ok c.identity ↔ Presented headers c.apiKey
  nonblank : ∀ headers token identity, Presented headers token →
    authenticate headers clients = .ok identity → trim token ≠ ""
  own : ∀ c ∈ clients, ∃ headers, Presented headers c.apiKey ∧
    authenticate headers clients = .ok c.identity

theorem Presented.presentable {headers : HeaderMap} {token : String}
    (h : Presented headers token) : Presentable token := by
  cases h with
  | bearer h =>
    obtain ⟨value, -, hvalue⟩ := Option.bind_eq_some_iff.mp h
    have hall := (headerValueToStr_eq_some.mp hvalue).2
    rw [Presentable, asBytes_append, List.all_append, Bool.and_eq_true] at hall
    exact hall.2
  | xApiKey _ h _ =>
    obtain ⟨value, -, hvalue⟩ := Option.bind_eq_some_iff.mp h
    exact (headerValueToStr_eq_some.mp hvalue).2

theorem presented_bearer {key : String} (h : Presentable key) :
    Presented [("authorization", asBytes ("Bearer " ++ key))] key := by
  refine .bearer key (headerValueToStr_eq_some.mpr ⟨rfl, ?_⟩)
  have hscheme : (asBytes "Bearer ").all isVisibleAscii = true := by decide
  rw [Presentable, asBytes_append, List.all_append, hscheme]
  exact h

section

variable {clients : List ResolvedClient} (hids : (clients.map ResolvedClient.id).Nodup)

include hids

theorem eq_of_identity_eq {a b : ResolvedClient} (ha : a ∈ clients) (hb : b ∈ clients)
    (h : a.identity = b.identity) : a = b :=
  List.inj_on_of_nodup_map hids ha hb (congrArg Identity.id h)

/-- With different keys a request comes from the client whose key is its credential. -/
theorem authenticate_client_iff (hkeys : (clients.map ResolvedClient.apiKey).Nodup)
    {headers : HeaderMap} {c : ResolvedClient} (hc : c ∈ clients) :
    authenticate headers clients = .ok c.identity ↔ Presented headers c.apiKey := by
  rw [authenticate_iff]
  constructor
  · rintro ⟨token, htoken, client, hfind, hidentity⟩
    obtain rfl := eq_of_identity_eq hids (List.mem_of_find?_eq_some hfind) hc hidentity
    have hkey := List.find?_some hfind
    rw [decide_eq_true_iff] at hkey
    rwa [hkey]
  · intro h
    refine ⟨c.apiKey, h, c, ?_, rfl⟩
    cases hfind : clients.find? fun d => d.apiKey = c.apiKey with
    | none => exact absurd (List.find?_eq_none.mp hfind c hc) (by simp)
    | some d =>
      have hkey := List.find?_some hfind
      rw [decide_eq_true_iff] at hkey
      rw [List.inj_on_of_nodup_map hkeys (List.mem_of_find?_eq_some hfind) hc hkey]

/-- **Authentication is exact if and only if** no two clients have the same key, no key is blank,
and every key can be sent. -/
theorem authenticationExact_iff : AuthenticationExact clients ↔
    (clients.map ResolvedClient.apiKey).Nodup ∧
      ∀ c ∈ clients, trim c.apiKey ≠ "" ∧ Presentable c.apiKey := by
  constructor
  · intro h
    refine ⟨?_, fun c hc => ?_⟩
    · have hnodup : clients.Nodup := List.Nodup.of_map _ hids
      refine hnodup.map_on fun a ha b hb hkey => ?_
      obtain ⟨headers, hpresented, hauth⟩ := h.own b hb
      have hauth' := (h.exact headers a ha).mpr (hkey ▸ hpresented)
      rw [hauth] at hauth'
      exact (eq_of_identity_eq hids hb ha (Except.ok.inj hauth')).symm
    · obtain ⟨headers, hpresented, hauth⟩ := h.own c hc
      exact ⟨h.nonblank headers _ _ hpresented hauth, hpresented.presentable⟩
  · rintro ⟨hkeys, hall⟩
    refine
      { exact := fun headers c hc => authenticate_client_iff hids hkeys hc
        nonblank := fun headers token identity hpresented hauth => ?_
        own := fun c hc => ?_ }
    · obtain ⟨token', htoken', client, hfind, -⟩ := authenticate_iff.mp hauth
      have hkey := List.find?_some hfind
      rw [decide_eq_true_iff] at hkey
      rw [hpresented.unique htoken', ← hkey]
      exact (hall client (List.mem_of_find?_eq_some hfind)).1
    · have hpresented := presented_bearer (hall c hc).2
      exact ⟨_, hpresented, (authenticate_client_iff hids hkeys hc).mpr hpresented⟩

end

/-- **The clients of an accepted configuration are authenticated exactly, if and only if** no two of
them have the same key, no key is blank, and every key can be sent in a header: the environment may
hold any key, and no key is compared to another. -/
theorem authentication_exact_iff {host : Host} {file : ConfigFile} {config : Config}
    (h : Config.resolve host file = .ok config) : AuthenticationExact config.clients ↔
      (config.clients.map ResolvedClient.apiKey).Nodup ∧
        ∀ c ∈ config.clients, trim c.apiKey ≠ "" ∧ Presentable c.apiKey :=
  authenticationExact_iff (accepted_of_resolve h).1.client_ids

/-- Two clients are authenticated by their keys, and nobody else. -/
theorem authentication_exact_sample : ∃ config,
    Config.resolve sampleHost sharedFile = .ok config ∧ AuthenticationExact config.clients := by
  obtain ⟨config, h, hclients⟩ := resolve_sharedFile
  refine ⟨config, h, (authentication_exact_iff h).mpr ?_⟩
  rw [hclients]
  unfold Presentable
  decide +kernel

/-- A world in which every variable is set to nothing. -/
def emptyHost : Host := { sampleHost with env := fun _ => some "" }

/-- The sample, with the key of its client in the environment. -/
def keylessFile : ConfigFile :=
  { sampleFile with
    clients := [{ id := "guest", apiKeyEnv := some "GUEST_KEY", models := ["gpt"] }] }

/-- The empty token is the key of the client. -/
theorem not_authentication_exact_empty : ∃ config,
    Config.resolve emptyHost keylessFile = .ok config ∧ ¬AuthenticationExact config.clients ∧
      ∃ identity, authenticate [("authorization", asBytes "Bearer ")] config.clients =
        .ok identity := by
  have h : (Config.resolve emptyHost keylessFile).toOption.map Config.clients =
      some [{ id := "guest", apiKey := "", models := {"gpt"} }] := by
    decide +kernel
  obtain ⟨config, hconfig, hclients⟩ := Option.map_eq_some_iff.mp h
  have hpresented : Presented [("authorization", asBytes "Bearer ")] "" := by
    have hempty : Presentable "" := by
      unfold Presentable
      decide
    exact presented_bearer hempty
  have hauth : authenticate [("authorization", asBytes "Bearer ")] config.clients =
      .ok ⟨"guest", {"gpt"}⟩ := by
    rw [hclients]
    exact authenticate_iff.mpr ⟨"", hpresented, _, rfl, rfl⟩
  exact ⟨config, toOption_eq_some.mp hconfig,
    fun hexact => hexact.nonblank _ _ _ hpresented hauth (by decide +kernel), _, hauth⟩

/-- Two clients with one key. -/
def sameKeyFile : ConfigFile :=
  { sampleFile with
    clients := [{ id := "guest", apiKey := some "key", models := ["gpt"] },
      { id := "office", apiKey := some "key", models := ["gpt"] }] }

/-- The second of two clients with one key is taken for the first. -/
theorem not_authentication_exact_sameKey : ∃ config,
    Config.resolve sampleHost sameKeyFile = .ok config ∧ ¬AuthenticationExact config.clients := by
  have h : (Config.resolve sampleHost sameKeyFile).toOption.map (fun config =>
      config.clients.map ResolvedClient.apiKey) = some ["key", "key"] := by
    decide +kernel
  obtain ⟨config, hconfig, hkeys⟩ := Option.map_eq_some_iff.mp h
  have hresolve := toOption_eq_some.mp hconfig
  refine ⟨config, hresolve, fun hexact => ?_⟩
  have hnodup := ((authenticationExact_iff (accepted_of_resolve hresolve).1.client_ids).mp hexact).1
  rw [hkeys] at hnodup
  exact absurd hnodup (by decide)

end Onair
