import CodeWeave.Proofs.Remote.Dialogue

/-!
# What an action exchanges with the host

An exchange is a request with the answer that it got. The host answers in the order of the
requests, so the exchanges of an action follow from what went out and from the answers
that were waiting:

> `Exchanges`: what an action promises about its exchanges and its outcome, with
> `Exchanges.bind` to follow a chain of actions.

> `Exchanges.ofExcept_bind`, `Exchanges.log_bind`: reading a value and writing to the
log exchange nothing.
-/

namespace CodeWeave

/-- A request to the host, and what became of it. -/
abbrev Exchange := HttpRequest × HttpOutcome

/-- The request of an event, if the host was requested. -/
def Event.request? : Event → Option HttpRequest
  | .requested q => some q
  | _ => none

/-- The requests with the answers that are waiting for them. -/
def Channel.exchanges (c : Channel HttpOutcome) (qs : List HttpRequest) : List Exchange :=
  qs.mapIdx fun i q => (q, c.answer i)

/-- Later requests take the answers behind those of the earlier ones. -/
theorem Channel.exchanges_append (c : Channel HttpOutcome) (qs rs : List HttpRequest) :
    c.exchanges (qs ++ rs) = c.exchanges qs ++ (c.skip qs.length).exchanges rs := by
  unfold exchanges
  simp only [List.mapIdx_append, c.answer_skip, Nat.add_comm]

theorem Channel.mem_of_mem_exchanges {c : Channel HttpOutcome} {qs : List HttpRequest}
    {e : Exchange} (h : e ∈ c.exchanges qs) : e.1 ∈ qs := by
  unfold exchanges at h
  obtain ⟨i, hi, rfl⟩ := List.mem_mapIdx.mp h
  exact List.getElem_mem hi

/-! ## Between two states -/

/-- What the host was requested between two states of the outside, with its answers. -/
def Outside.exchangesTo (o o' : Outside) : List Exchange :=
  o.host.exchanges ((o'.events.drop o.events.length).filterMap Event.request?)

/-- Nothing but the requests went to the host between the two states. -/
structure Sends (o o' : Outside) (qs : List HttpRequest) : Prop where
  events : ∃ es, o'.events = o.events ++ es ∧ es.filterMap Event.request? = qs
  host : o'.host = o.host.skip qs.length

namespace Sends

variable {o o' o'' : Outside} {qs rs : List HttpRequest}

/-- What was exchanged with the host can be read off the requests that were sent. -/
theorem exchangesTo_eq (h : Sends o o' qs) : o.exchangesTo o' = o.host.exchanges qs := by
  obtain ⟨es, hes, hqs⟩ := h.events
  unfold Outside.exchangesTo
  rw [hes, List.drop_left, hqs]

theorem refl (o : Outside) : Sends o o [] := ⟨⟨[], (List.append_nil _).symm, rfl⟩, rfl⟩

/-- What two stages send is sent in their order. -/
theorem trans (h : Sends o o' qs) (h' : Sends o' o'' rs) : Sends o o'' (qs ++ rs) := by
  obtain ⟨es, hes, hqs⟩ := h.events
  obtain ⟨es', hes', hrs⟩ := h'.events
  refine ⟨⟨es ++ es', ?_, ?_⟩, ?_⟩
  · rw [hes', hes, List.append_assoc]
  · rw [List.filterMap_append, hqs, hrs]
  · rw [h'.host, h.host, Channel.skip_skip, List.length_append]

/-- A log entry is no request. -/
theorem log (o : Outside) (level : LogLevel) (message : String) :
    Sends o (Outside.log level message o).2 [] :=
  ⟨⟨[.logged level message], rfl, rfl⟩, rfl⟩

theorem after (o : Outside) (qs : List HttpRequest) : Sends o (o.after qs) qs := by
  refine ⟨⟨qs.map .requested, rfl, ?_⟩, rfl⟩
  rw [List.filterMap_map]
  exact List.filterMap_some

end Sends

/-! ## Promises -/

/-- The action promises something about its exchanges and its outcome. -/
def Exchanges {α : Type} (p : List Exchange → Except Failure α → Prop)
    (x : Run α) : Prop :=
  ∀ o, ∃ qs, Sends o (x o).2 qs ∧ p (o.host.exchanges qs) (x o).1

section Chains

variable {α β : Type} {x : Run α} {f : α → Run β}
  {p : List Exchange → Except Failure α → Prop}
  {q : α → List Exchange → Except Failure β → Prop}
    {r : List Exchange → Except Failure β → Prop}

/-- The exchanges of two actions in sequence: those of the first, and if it works, those
of the second behind them. -/
theorem Exchanges.bind (hx : Exchanges p x) (hf : ∀ a, Exchanges (q a) (f a))
    (hstop : ∀ es e, p es (.error e) → r es (.error e))
    (hgo : ∀ es a es' b, p es (.ok a) → q a es' b → r (es ++ es') b) :
    Exchanges r (x >>= f) := by
  intro o
  obtain ⟨qs, hsends, hp⟩ := hx o
  rcases hxo : x o with ⟨a | a, o'⟩
  · rw [hxo] at hsends hp
    rw [Run.bind_error hxo]
    exact ⟨qs, hsends, hstop _ _ hp⟩
  · rw [hxo] at hsends hp
    rw [Run.bind_ok hxo]
    obtain ⟨rs, hsends', hq⟩ := hf a o'
    refine ⟨qs ++ rs, hsends.trans hsends', ?_⟩
    rw [Channel.exchanges_append, ← hsends.host]
    exact hgo _ _ _ _ hp hq

theorem exchanges_pure {a : α} {p : List Exchange → Except Failure α → Prop}
    (h : p [] (.ok a)) :
    Exchanges p (pure a) :=
  fun o => ⟨[], Sends.refl o, h⟩

/-- Reading a value exchanges nothing. -/
theorem Exchanges.ofExcept_bind {e : Except Failure α}
    (hstop : ∀ g, e = .error g → r [] (.error g))
    (hgo : ∀ a, e = .ok a → Exchanges r (f a)) : Exchanges r (ofExcept e >>= f) := by
  intro o
  cases e with
  | ok a => exact hgo a rfl o
  | error g => exact ⟨[], Sends.refl o, hstop g rfl⟩

/-- Logging adds no exchange. -/
theorem Exchanges.log_bind {f : Unit → Run β} (h : Exchanges r (f ())) (level : LogLevel)
    (message : String) : Exchanges r (Outside.log level message >>= f) := by
  intro o
  obtain ⟨qs, hsends, hr⟩ := h (Outside.log level message o).2
  exact ⟨qs, (Sends.log o level message).trans hsends, hr⟩

end Chains

/-- A request is one exchange, and its outcome is what is decoded from the answer. -/
theorem exchanges_request (h : HostClient) (endpoint method : String) (body : Json) :
    Exchanges (fun es r => ∃ answer, es = [(h.requestFor endpoint method body, answer)] ∧
      r = HostClient.decode answer) (h.request endpoint method body) := by
  intro o
  rw [h.request_apply]
  exact ⟨_, Sends.after o _, o.host.answer 0, rfl, rfl⟩

end CodeWeave
