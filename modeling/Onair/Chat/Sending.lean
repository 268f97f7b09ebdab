import Onair.Core.MessagesToChat

/-!
# Sending delta chunks

Both conversions into a chat stream keep the same two things in mind: whether the role was sent,
and which tool calls were announced.

* `ChatFrame.isDelta`, `role`, `announcedIndex`, `argumentsIndex`: what a chunk carries;
* `Sender`, `Sends`: the chunks one may send, one after another;
* `Sends.announced_eq`, `Sends.announces_once`, `Sends.role_first`: what holds of all of them;
* `Orderly`: every fragment of arguments comes after the announcement of its call;
* `putCall`, `storeCall`, `sends_putCall`: storing a tool call and announcing it;
* `ChatCore`, `DeltaStep`: the state both conversions keep, and a step that only sends deltas.
-/

namespace Onair

open Json

/-! ### What a chunk carries -/

namespace ChatFrame

/-- A chunk without a finish reason. -/
def isDelta : ChatFrame → Bool
  | .chunk _ _ none _ => true
  | _ => false

/-- The chunk carries `role: assistant`. -/
def role : ChatFrame → Bool
  | .chunk _ (.content role _) _ _ | .chunk _ (.announce role _ _ _) _ _ => role
  | _ => false

/-- The chunk carries content or tool calls. -/
def carries : ChatFrame → Bool
  | .chunk _ .empty _ _ => false
  | .chunk _ _ _ _ => true
  | _ => false

/-- The tool call that the chunk announces with its id and name. -/
def announcedIndex : ChatFrame → Option ℕ
  | .chunk _ (.announce _ index _ _) _ _ => some index
  | _ => none

/-- The tool call that the chunk has a fragment of arguments for. -/
def argumentsIndex : ChatFrame → Option ℕ
  | .chunk _ (.arguments index _) _ _ => some index
  | _ => none

/-- The chunk announces the tool call. -/
def announces (index : ℕ) (f : ChatFrame) : Bool := f.announcedIndex == some index

/-- A frame that carries nothing announces nothing. -/
theorem of_not_carries {f : ChatFrame} (h : f.carries = false) :
    f.role = false ∧ f.announcedIndex = none ∧ f.argumentsIndex = none := by
  cases f with
  | chunk head delta reason u =>
    cases delta <;> simp_all [carries, role, announcedIndex, argumentsIndex]
  | _ => simp [role, announcedIndex, argumentsIndex]

end ChatFrame

/-! ### Senders -/

/-- What is remembered of the delta chunks sent so far. -/
@[ext]
structure Sender where
  roleSent : Bool
  announced : ℕ → Bool

namespace Sender

/-- After a chunk with content. -/
def speak (k : Sender) : Sender := { k with roleSent := true }

/-- After an announcement. -/
def announce (k : Sender) (index : ℕ) : Sender where
  roleSent := true
  announced := Function.update k.announced index true

end Sender

/-- Frames that one may send: content and announcements with the role if it was not sent yet, one
announcement for each tool call, arguments, and frames that carry nothing. -/
inductive Sends : Sender → List ChatFrame → Sender → Prop
  | nil (k : Sender) : Sends k [] k
  | content (k : Sender) (h : ChunkHead) (text : String) (u : Bool) :
    Sends k [.chunk h (.content (!k.roleSent) text) none u] k.speak
  | announce (k : Sender) (h : ChunkHead) (index : ℕ) (callId name : String) (u : Bool)
    (hi : k.announced index = false) :
    Sends k [.chunk h (.announce (!k.roleSent) index callId name) none u] (k.announce index)
  | arguments (k : Sender) (h : ChunkHead) (index : ℕ) (fragment : String) (u : Bool) :
    Sends k [.chunk h (.arguments index fragment) none u] k
  | other (k : Sender) {f : ChatFrame} (hf : f.carries = false) : Sends k [f] k
  | append {k k' k'' : Sender} {out out' : List ChatFrame} (h : Sends k out k')
    (h' : Sends k' out' k'') : Sends k (out ++ out') k''

namespace Sends

variable {k k' : Sender} {out : List ChatFrame}

theorem others (k : Sender) {fs : List ChatFrame} (h : ∀ f ∈ fs, f.carries = false) :
    Sends k fs k := by
  induction fs with
  | nil => exact .nil k
  | cons f fs ih =>
    exact (Sends.other k (h f List.mem_cons_self)).append
      (ih fun g hg => h g (List.mem_cons_of_mem _ hg))

theorem announced_eq (h : Sends k out k') (i : ℕ) :
    k'.announced i = (k.announced i || out.any (ChatFrame.announces i)) := by
  induction h with
  | announce k h index callId name u hi =>
    by_cases hindex : i = index
    · subst hindex
      simp [Sender.announce, ChatFrame.announces, ChatFrame.announcedIndex]
    · simp [Sender.announce, ChatFrame.announces, ChatFrame.announcedIndex, hindex,
        Ne.symm hindex]
  | append _ _ ih ih' => rw [ih', ih, List.any_append, Bool.or_assoc]
  | other k hf => simp [ChatFrame.announces, (ChatFrame.of_not_carries hf).2.1]
  | _ => simp [Sender.speak, ChatFrame.announces, ChatFrame.announcedIndex]

/-- **A tool call is announced at most once**, and not again if it was before. -/
theorem announces_once (h : Sends k out k') (i : ℕ) :
    (out.filter (ChatFrame.announces i)).length + (k.announced i).toNat =
      (k'.announced i).toNat := by
  induction h with
  | announce k h index callId name u hi =>
    by_cases hindex : i = index
    · subst hindex
      simp [Sender.announce, ChatFrame.announces, ChatFrame.announcedIndex, hi]
    · simp [Sender.announce, ChatFrame.announces, ChatFrame.announcedIndex, hindex,
        Ne.symm hindex]
  | append _ _ ih ih' => rw [List.filter_append, List.length_append, ← ih', ← ih]; omega
  | other k hf => simp [ChatFrame.announces, (ChatFrame.of_not_carries hf).2.1]
  | _ => simp [Sender.speak, ChatFrame.announces, ChatFrame.announcedIndex]

/-- The role was sent before or was sent with content or an announcement. -/
theorem roleSent_eq (h : Sends k out k') :
    k'.roleSent = (k.roleSent || out.any fun f => f.carries && f.argumentsIndex.isNone) := by
  induction h with
  | append _ _ ih ih' => rw [ih', ih, List.any_append, Bool.or_assoc]
  | other k hf => simp [hf]
  | _ => simp [Sender.speak, Sender.announce, ChatFrame.carries, ChatFrame.argumentsIndex]

/-- **The role comes with the first content or announcement** and with no other chunk. -/
theorem role_first (h : Sends k out k') {before after : List ChatFrame} {f : ChatFrame}
    (hout : out = before ++ f :: after) :
    f.role = (f.carries && f.argumentsIndex.isNone && !(k.roleSent ||
      before.any fun g => g.carries && g.argumentsIndex.isNone)) := by
  induction h generalizing before after f with
  | nil k => simp at hout
  | append h h' ih ih' =>
    rcases List.append_eq_append_iff.mp hout with ⟨mid, rfl, hmid⟩ | ⟨mid, rfl, hmid⟩
    · have := ih' hmid
      rw [this, h.roleSent_eq, List.any_append, Bool.or_assoc]
    · cases mid with
      | nil =>
        rw [List.nil_append] at hmid
        have hfirst := ih' (hmid.symm.trans (List.nil_append _).symm)
        rw [hfirst, h.roleSent_eq, List.append_nil, List.any_nil, Bool.or_false]
      | cons g mid =>
        obtain ⟨rfl, rfl⟩ := List.cons.inj hmid
        exact ih rfl
  | other k hf =>
    cases before with
    | cons g before => simp at hout
    | nil =>
      obtain ⟨rfl, -⟩ := List.cons.inj hout
      simp [(ChatFrame.of_not_carries hf).1, hf]
  | _ =>
    cases before with
    | cons g before => simp at hout
    | nil =>
      obtain ⟨rfl, -⟩ := List.cons.inj hout
      simp [ChatFrame.role, ChatFrame.carries, ChatFrame.argumentsIndex]

end Sends

/-! ### Orderly chunks -/

/-- Every fragment of arguments is for a call that is announced by then. -/
def Orderly (announced : ℕ → Bool) (fs : List ChatFrame) : Prop :=
  ∀ before f after i, fs = before ++ f :: after → f.argumentsIndex = some i →
    (announced i || before.any (ChatFrame.announces i)) = true

theorem orderly_nil (announced : ℕ → Bool) : Orderly announced [] := by
  intro before f after i h
  simp at h

theorem orderly_append (announced : ℕ → Bool) (fs gs : List ChatFrame) :
    Orderly announced (fs ++ gs) ↔ Orderly announced fs ∧
      Orderly (fun i => announced i || fs.any (ChatFrame.announces i)) gs := by
  constructor
  · intro h
    refine ⟨fun before f after i hfs hi => ?_, fun before f after i hgs hi => ?_⟩
    · exact h before f (after ++ gs) i (by rw [hfs]; simp) hi
    · have := h (fs ++ before) f after i (by rw [hgs]; simp) hi
      rwa [List.any_append, ← Bool.or_assoc] at this
  · rintro ⟨hfs, hgs⟩ before f after i heq hi
    rcases List.append_eq_append_iff.mp heq with ⟨mid, rfl, hmid⟩ | ⟨mid, rfl, hmid⟩
    · have := hgs mid f after i hmid hi
      rwa [List.any_append, ← Bool.or_assoc]
    · cases mid with
      | nil =>
        have := hgs [] f after i (by simpa using hmid.symm) hi
        simpa using this
      | cons g mid =>
        obtain ⟨rfl, -⟩ := List.cons.inj hmid
        exact hfs before f mid i rfl hi

theorem orderly_of_none (announced : ℕ → Bool) {fs : List ChatFrame}
    (h : ∀ f ∈ fs, f.argumentsIndex = none) : Orderly announced fs := by
  intro before f after i hfs hi
  rw [h f (by rw [hfs]; simp)] at hi
  exact absurd hi (by simp)

theorem orderly_arguments (announced : ℕ → Bool) (h : ChunkHead) (index : ℕ) (fragment : String)
    (u : Bool) :
    Orderly announced [.chunk h (.arguments index fragment) none u] ↔ announced index = true := by
  constructor
  · intro horderly
    simpa using horderly [] _ [] index rfl rfl
  · intro hindex before f after i hfs hi
    cases before with
    | cons g before => simp at hfs
    | nil =>
      obtain ⟨rfl, -⟩ := List.cons.inj hfs
      obtain rfl := Option.some.inj hi
      simpa using hindex

/-! ### Announcing a tool call -/

/-- The tool call at an index, a fresh one if there is none. -/
def callAt (calls : List (ℕ × ChatCompletionStreamToolCall)) (index : ℕ) :
    ChatCompletionStreamToolCall :=
  (OrdMap.get index calls).getD {}

@[simp] theorem callAt_nil (index : ℕ) : callAt [] index = {} := rfl

theorem callAt_insert (calls : List (ℕ × ChatCompletionStreamToolCall)) (index i : ℕ)
    (call : ChatCompletionStreamToolCall) :
    callAt (OrdMap.insert index call calls) i = if i = index then call else callAt calls i := by
  rw [callAt, OrdMap.get_insert]
  split_ifs <;> rfl

/-- Every named call is announced. -/
def NamedAnnounced (calls : List (ℕ × ChatCompletionStreamToolCall)) : Prop :=
  ∀ i, (callAt calls i).name.isSome = true → (callAt calls i).announced = true

theorem namedAnnounced_nil : NamedAnnounced [] := by
  intro i h
  simp at h

/-- Store a tool call and announce it once it has a name. -/
def putCall (chunk : ChatDelta → ChatFrame) (roleSent : Bool)
    (calls : List (ℕ × ChatCompletionStreamToolCall)) (index : ℕ)
    (call : ChatCompletionStreamToolCall) :
    (Bool × List (ℕ × ChatCompletionStreamToolCall)) × List ChatFrame :=
  match call.announced, call.name with
  | false, some name =>
    ((true, OrdMap.insert index { call with announced := true } (OrdMap.insert index call calls)),
      [chunk (.announce (!roleSent) index (call.callId.getD (syntheticCallId index)) name)])
  | _, _ => ((roleSent, OrdMap.insert index call calls), [])

section PutCall

variable (chunk : ChatDelta → ChatFrame) (roleSent : Bool)
  (calls : List (ℕ × ChatCompletionStreamToolCall)) (index : ℕ)
  (call : ChatCompletionStreamToolCall)

/-- The calls after one is stored: that one, announced if it has a name, and the others. -/
theorem callAt_putCall (i : ℕ) :
    callAt (putCall chunk roleSent calls index call).1.2 i =
      if i = index then { call with announced := call.announced || call.name.isSome }
      else callAt calls i := by
  obtain ⟨callId, name, arguments, announced⟩ := call
  cases announced <;> cases name <;> simp only [putCall, callAt_insert] <;> split_ifs <;> rfl

/-- A call is announced when it is stored with a name for the first time. -/
theorem putCall_out :
    (putCall chunk roleSent calls index call).2 =
      match call.announced, call.name with
      | false, some name =>
        [chunk (.announce (!roleSent) index (call.callId.getD (syntheticCallId index)) name)]
      | _, _ => [] := by
  unfold putCall
  split <;> rfl

theorem namedAnnounced_putCall (h : NamedAnnounced calls) :
    NamedAnnounced (putCall chunk roleSent calls index call).1.2 := by
  intro i
  rw [callAt_putCall]
  split_ifs with hi
  · intro hname
    rw [show call.name.isSome = true from hname, Bool.or_true]
  · exact h i

/-- **Storing a call with the marks it had sends what may be sent.** -/
theorem sends_putCall {h : ChunkHead} {u : Bool} (hcall : call.announced =
    (callAt calls index).announced) :
    Sends ⟨roleSent, fun i => (callAt calls i).announced⟩
      (putCall (fun d => .chunk h d none u) roleSent calls index call).2
      ⟨(putCall (fun d => .chunk h d none u) roleSent calls index call).1.1, fun i =>
        (callAt (putCall (fun d => .chunk h d none u) roleSent calls index call).1.2
          i).announced⟩ := by
  have hat := callAt_putCall (fun d => .chunk h d none u) roleSent calls index call
  have hother : ∀ i, (if i = index then { call with announced := call.announced || false }
      else callAt calls i).announced = (callAt calls i).announced := by
    intro i
    split_ifs with hi
    · rw [hi, ← hcall, Bool.or_false]
    · rfl
  obtain ⟨callId, name, arguments, announced⟩ := call
  simp only [hat]
  cases name with
  | none =>
    simp only [Option.isSome_none, hother]
    cases announced <;> exact .nil _
  | some name =>
    cases announced with
    | true =>
      have : ∀ i, (if i = index then
          { callId, name := some name, arguments, announced := true || (some name).isSome }
          else callAt calls i : ChatCompletionStreamToolCall).announced =
          (callAt calls i).announced := by
        intro i
        split_ifs with hi
        · rw [hi, ← hcall]; rfl
        · rfl
      simp only [this]
      exact .nil _
    | false =>
      have : (fun i => (if i = index then
          { callId, name := some name, arguments, announced := false || (some name).isSome }
          else callAt calls i : ChatCompletionStreamToolCall).announced) =
          Function.update (fun i => (callAt calls i).announced) index true := by
        funext i
        by_cases hi : i = index
        · subst hi; simp
        · simp [hi]
      rw [this]
      exact Sends.announce ⟨roleSent, fun i => (callAt calls i).announced⟩ h index _ name u
        hcall.symm

end PutCall

/-- Store a tool call, announce it once it has a name, and send a fragment of its arguments. -/
def storeCall (chunk : ChatDelta → ChatFrame) (roleSent : Bool)
    (calls : List (ℕ × ChatCompletionStreamToolCall)) (index : ℕ)
    (call : ChatCompletionStreamToolCall) (fragment : String) :
    (Bool × List (ℕ × ChatCompletionStreamToolCall)) × List ChatFrame :=
  let r := putCall chunk roleSent calls index call
  (r.1, r.2 ++ (if fragment = "" then [] else [chunk (.arguments index fragment)]))

/-! ### The state both conversions keep -/

/-- The part of the state that decides what is sent. -/
structure ChatCore where
  roleSent : Bool
  toolCalls : List (ℕ × ChatCompletionStreamToolCall)
  completed : Bool
  doneSent : Bool

/-- What the state remembers of the chunks sent. -/
def ChatCore.sender (k : ChatCore) : Sender where
  roleSent := k.roleSent
  announced i := (callAt k.toolCalls i).announced

/-- A step that sends delta chunks and does not end the stream. -/
structure DeltaStep (k : ChatCore) (out : List ChatFrame) (k' : ChatCore) : Prop where
  sends : Sends k.sender out k'.sender
  deltas : ∀ f ∈ out, f.isDelta = true
  completed_eq : k'.completed = k.completed
  doneSent_eq : k'.doneSent = k.doneSent
  named : NamedAnnounced k.toolCalls → NamedAnnounced k'.toolCalls

namespace DeltaStep

variable {k k' k'' : ChatCore} {out out' : List ChatFrame}

theorem refl (k : ChatCore) : DeltaStep k [] k := ⟨.nil _, by simp, rfl, rfl, id⟩

theorem trans (h : DeltaStep k out k') (h' : DeltaStep k' out' k'') :
    DeltaStep k (out ++ out') k'' where
  sends := h.sends.append h'.sends
  deltas := List.forall_mem_append.mpr ⟨h.deltas, h'.deltas⟩
  completed_eq := h'.completed_eq.trans h.completed_eq
  doneSent_eq := h'.doneSent_eq.trans h.doneSent_eq
  named hk := h'.named (h.named hk)

theorem content (k : ChatCore) (h : ChunkHead) (text : String) (u : Bool) :
    DeltaStep k [.chunk h (.content (!k.roleSent) text) none u] { k with roleSent := true } :=
  ⟨.content k.sender h text u, by simp [ChatFrame.isDelta], rfl, rfl, id⟩

theorem arguments (k : ChatCore) (h : ChunkHead) (index : ℕ) (fragment : String) (u : Bool) :
    DeltaStep k [.chunk h (.arguments index fragment) none u] k :=
  ⟨.arguments k.sender h index fragment u, by simp [ChatFrame.isDelta], rfl, rfl, id⟩

theorem store (k : ChatCore) (h : ChunkHead) (u : Bool) (index : ℕ)
    {call : ChatCompletionStreamToolCall}
    (hcall : call.announced = (callAt k.toolCalls index).announced) (fragment : String) :
    let r := storeCall (fun d => .chunk h d none u) k.roleSent k.toolCalls index call fragment
    DeltaStep k r.2 { k with roleSent := r.1.1, toolCalls := r.1.2 } := by
  let r := putCall (fun d => .chunk h d none u) k.roleSent k.toolCalls index call
  have hput : DeltaStep k r.2 { k with roleSent := r.1.1, toolCalls := r.1.2 } :=
    ⟨sends_putCall _ _ _ _ hcall, by
      simp only [r, putCall_out]
      split <;> simp [ChatFrame.isDelta], rfl, rfl, namedAnnounced_putCall _ _ _ _ _⟩
  refine hput.trans ?_
  split_ifs
  · exact .refl _
  · exact .arguments _ _ _ _ _

end DeltaStep

namespace ChatStream

/-- The part of the state that decides what is sent. -/
def core (s : ChatStream) : ChatCore where
  roleSent := s.roleSent
  toolCalls := s.toolCalls
  completed := s.completed
  doneSent := s.doneSent

/-- Store a tool call, announce it once it has a name, and send a fragment of its arguments. -/
def store (s : ChatStream) (index : ℕ) (call : ChatCompletionStreamToolCall) (fragment : String) :
    ChatStream × List ChatFrame :=
  let r := storeCall (fun d => s.chatChunk d none) s.roleSent s.toolCalls index call fragment
  ({ s with roleSent := r.1.1, toolCalls := r.1.2 }, r.2)

theorem store_spec (s : ChatStream) (index : ℕ) {call : ChatCompletionStreamToolCall}
    (hcall : call.announced = (callAt s.toolCalls index).announced) (fragment : String) :
    DeltaStep s.core (s.store index call fragment).2 (s.store index call fragment).1.core :=
  .store s.core s.head s.emitUsageToClient index hcall fragment

theorem announceToolCallIfReady_eq (s : ChatStream) (index : ℕ)
    (call : ChatCompletionStreamToolCall) :
    { s with toolCalls := OrdMap.insert index call s.toolCalls }.announceToolCallIfReady index =
      s.store index call "" := by
  obtain ⟨callId, name, arguments, announced⟩ := call
  simp only [announceToolCallIfReady, OrdMap.get_insert_self, store, storeCall, putCall, if_true,
    List.append_nil]
  cases announced <;> cases name <;> rfl

theorem store_eq (s : ChatStream) (index : ℕ) (call : ChatCompletionStreamToolCall)
    (fragment : String) :
    let r := { s with toolCalls := OrdMap.insert index call s.toolCalls }.announceToolCallIfReady
      index
    s.store index call fragment = (r.1, r.2 ++
      (if fragment = "" then [] else [r.1.chatChunk (.arguments index fragment) none])) := by
  simp only [announceToolCallIfReady_eq, store, storeCall, if_true, List.append_nil]
  rfl

end ChatStream

namespace MessagesStream

/-- The part of the state that decides what is sent. -/
def core (s : MessagesStream) : ChatCore where
  roleSent := s.roleSent
  toolCalls := s.toolCalls
  completed := s.completed
  doneSent := s.doneSent

/-- Store a tool call, announce it once it has a name, and send a fragment of its arguments. -/
def store (s : MessagesStream) (index : ℕ) (call : ChatCompletionStreamToolCall)
    (fragment : String) :
    MessagesStream × List ChatFrame :=
  let r := storeCall (fun d => s.chatChunk d none) s.roleSent s.toolCalls index call fragment
  ({ s with roleSent := r.1.1, toolCalls := r.1.2 }, r.2)

theorem store_spec (s : MessagesStream) (index : ℕ) {call : ChatCompletionStreamToolCall}
    (hcall : call.announced = (callAt s.toolCalls index).announced) (fragment : String) :
    DeltaStep s.core (s.store index call fragment).2 (s.store index call fragment).1.core :=
  .store s.core s.head s.emitUsageToClient index hcall fragment

theorem announceToolCallIfReady_eq (s : MessagesStream) (index : ℕ)
    (call : ChatCompletionStreamToolCall) :
    { s with toolCalls := OrdMap.insert index call s.toolCalls }.announceToolCallIfReady index =
      s.store index call "" := by
  obtain ⟨callId, name, arguments, announced⟩ := call
  simp only [announceToolCallIfReady, OrdMap.get_insert_self, store, storeCall, putCall, if_true,
    List.append_nil]
  cases announced <;> cases name <;> rfl

theorem store_eq (s : MessagesStream) (index : ℕ) (call : ChatCompletionStreamToolCall)
    (fragment : String) :
    let r := { s with toolCalls := OrdMap.insert index call s.toolCalls }.announceToolCallIfReady
      index
    s.store index call fragment = (r.1, r.2 ++
      (if fragment = "" then [] else [r.1.chatChunk (.arguments index fragment) none])) := by
  simp only [announceToolCallIfReady_eq, store, storeCall, if_true, List.append_nil]
  rfl

end MessagesStream

end Onair
