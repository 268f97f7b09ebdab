import Onair.Request.Multipart

/-!
# Parts of a multipart body

* `Part`: headers, a blank line and content, the headers clear of the blank line; `split_bytes`,
  `exists_part`: splitting gives exactly these;
* `withContent_clear`: a part stays clear of the delimiter under content that brings none in;
* `lay_inj`: a body is laid out from one list of parts only.
-/

namespace Onair

open Text Search

/-! ### Parts -/

/-- A part of a multipart body: headers, a blank line, content. -/
structure Part where
  headers : Bytes
  content : Bytes
  separated : Clear (crlf ++ crlf) headers

namespace Part

/-- The bytes of a part. -/
def bytes (p : Part) : Bytes := p.headers ++ (crlf ++ crlf) ++ p.content

/-- The part with other content. -/
def withContent (p : Part) (content : Bytes) : Part := { p with content }

theorem split_bytes (p : Part) : splitMultipartPart p.bytes = some (p.headers, p.content) := by
  have h : findBytes p.bytes (crlf ++ crlf) 0 = some p.headers.length := by
    rw [findBytes, if_neg (by simp [crlf]), bytes, List.drop_zero, List.append_assoc,
      p.separated.position]
    rfl
  have h1 : p.bytes.take p.headers.length = p.headers := by
    rw [bytes, List.append_assoc, List.take_left]
  have h2 : p.bytes.drop (p.headers.length + (crlf ++ crlf).length) = p.content := by
    rw [← List.drop_drop, bytes, List.append_assoc, List.drop_left, List.drop_left]
  rw [splitMultipartPart, h, Option.map_some, h1, h2]

theorem bytes_inj {p q : Part} (h : p.bytes = q.bytes) : p = q := by
  have hs := split_bytes p
  rw [h, split_bytes q, Option.some_inj, Prod.mk.injEq] at hs
  obtain ⟨h1, h2⟩ := hs
  cases p
  cases q
  simp only at h1 h2
  subst h1 h2
  rfl

theorem withContent_bytes {p : Part} {b : Bytes} :
    (p.withContent b).bytes = p.bytes ↔ p.content = b := by
  show p.headers ++ (crlf ++ crlf) ++ b = p.headers ++ (crlf ++ crlf) ++ p.content ↔ _
  rw [List.append_cancel_left_eq]
  exact eq_comm

theorem exists_part {b headers content : Bytes}
    (h : splitMultipartPart b = some (headers, content)) :
    ∃ p : Part, p.bytes = b ∧ p.headers = headers ∧ p.content = content := by
  rw [splitMultipartPart, Option.map_eq_some_iff] at h
  obtain ⟨i, hi, he⟩ := h
  obtain ⟨rfl, rfl⟩ := Prod.mk.inj he
  have hp : position (crlf ++ crlf) b = some i := by
    simpa [findBytes, crlf] using hi
  refine ⟨⟨_, _, Clear.of_position hp⟩, ?_, rfl, rfl⟩
  rw [bytes, List.append_assoc]
  exact (eq_of_position hp).symm

theorem rewrite_bytes (p : Part) (backend : String) :
    rewriteMultipartPart p.bytes backend =
      if multipartFieldIs p.headers "model" then (p.withContent (asBytes backend)).bytes
      else p.bytes := by
  rw [rewriteMultipartPart, split_bytes]
  by_cases h : multipartFieldIs p.headers "model" = true
  · simp [h, bytes, withContent]
  · simp [h]

end Part

/-- New content that brings no delimiter in leaves a part clear of it. -/
theorem Part.withContent_clear {m : Bytes} (hm : 13 ∉ m) (hl : 2 ≤ m.length) {p : Part}
    (h : Clear (crlf ++ m) p.bytes) {b : Bytes} (hb : ¬ crlf ++ m <:+: crlf ++ b) :
    Clear (crlf ++ m) (p.withContent b).bytes := by
  have hx : (13 : UInt8) ∉ 10 :: m := by simpa using hm
  refine (Search.clear_iff hx).mpr fun hi => ?_
  have he : (p.withContent b).bytes = p.headers ++ 13 :: (10 :: 13 :: 10 :: b) := by
    simp [bytes, withContent, crlf]
  rw [he] at hi
  rcases infix_append_cons hx hi with hi | hi
  · refine (Search.clear_iff hx).mp h (hi.trans ?_)
    rw [bytes, List.append_assoc]
    exact (List.prefix_append _ _).isInfix
  · rcases infix_append_cons (a := [13, 10]) hx hi with hi | hi
    · have := hi.length_le
      simp only [List.length_cons, List.length_nil] at this
      omega
    · exact hb hi

/-- Content without a carriage return that does not begin with the marker brings none in. -/
theorem not_infix_crlf {m b : Bytes} (hb : 13 ∉ b) (hm : ¬ m <+: b) :
    ¬ crlf ++ m <:+: crlf ++ b := by
  intro h
  rcases List.infix_cons_iff.mp h with h | h
  · exact hm (by simpa [crlf] using h)
  · have := h.subset (List.mem_cons_self : (13 : UInt8) ∈ crlf ++ m)
    simp [hb] at this

/-! ### A body has one list of parts -/

theorem clear_append_inj {n p q x y : Bytes} (hp : Clear n p) (hq : Clear n q)
    (h : p ++ (n ++ x) = q ++ (n ++ y)) : p = q ∧ x = y := by
  have hl : p.length = q.length := by
    have := hp.position x
    rw [h, hq.position, Option.some_inj] at this
    exact this.symm
  obtain ⟨h1, h2⟩ := List.append_inj h hl
  exact ⟨h1, List.append_cancel_left h2⟩

/-- **A body is laid out from one list of parts only.** -/
theorem lay_inj {m : Bytes} {ps qs : List Bytes} {t u : Bytes}
    (hp : ∀ p ∈ ps, Clear (crlf ++ m) p) (hq : ∀ q ∈ qs, Clear (crlf ++ m) q)
    (h : lay m ps t = lay m qs u) : ps = qs ∧ t = u := by
  replace h : layParts m ps t = layParts m qs u := List.append_cancel_left h
  induction ps generalizing qs with
  | nil =>
    cases qs with
    | nil => exact ⟨rfl, by simpa [layParts] using h⟩
    | cons q qs => simp [layParts, dashes, crlf] at h
  | cons p ps ih =>
    cases qs with
    | nil => simp [layParts, dashes, crlf] at h
    | cons q qs =>
      simp only [layParts, List.append_cancel_left_eq] at h
      rw [← List.append_assoc crlf m, ← List.append_assoc crlf m] at h
      obtain ⟨rfl, h'⟩ := clear_append_inj (hp p List.mem_cons_self) (hq q List.mem_cons_self) h
      obtain ⟨rfl, rfl⟩ := ih (fun x hx => hp x (List.mem_cons_of_mem _ hx))
        (fun x hx => hq x (List.mem_cons_of_mem _ hx)) h'
      exact ⟨rfl, rfl⟩

theorem clear_singleton {x : UInt8} {a : Bytes} (h : x ∉ a) : Clear [x] a := by
  refine (Search.clear_iff (List.not_mem_nil)).mpr fun hi => h ?_
  exact hi.subset List.mem_cons_self

theorem line_inj {a b x y : Bytes} (ha : 13 ∉ a) (hb : 13 ∉ b)
    (h : a ++ (crlf ++ x) = b ++ (crlf ++ y)) : a = b ∧ x = y := by
  obtain ⟨h1, h2⟩ := clear_append_inj (n := [13]) (x := 10 :: x) (y := 10 :: y)
    (clear_singleton ha) (clear_singleton hb) h
  exact ⟨h1, List.cons_injective h2⟩

theorem asBytes_injective {s t : String} (h : asBytes s = asBytes t) : s = t := by
  have := fromUtf8_asBytes s
  rw [h, fromUtf8_asBytes] at this
  exact (Option.some.inj this).symm

end Onair
