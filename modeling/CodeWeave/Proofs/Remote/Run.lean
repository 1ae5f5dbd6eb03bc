import CodeWeave.Remote.Outside

/-!
# Running an action

An action is run by running its first part, and the rest on what that leaves, if
it has not failed:

> `Run.bind_apply`: the two ways through a chain of actions.

What a party answers depends only on how often it was asked before, so the state after a
number of requests to the host is known without running anything:

> `Outside.request_apply`, `Outside.post_apply`, `Outside.callAnthropic_apply`,
> `Outside.callOpenAI_apply`: one request, to the host, to a backend or to a
> provider, and its answer.

> `Outside.after_after`, `Outside.answer_after`: the state after some requests, and the
> answers that are left there.

Between its requests an action writes to the log. What it sends is what went
out apart from that:

> `Outside.Sent`: what was sent between two states of the outside.
-/

namespace CodeWeave

/-! ## Running an action -/

namespace Run

variable {α β : Type}

/-- A first action that fails is the last one, and what it did to the outside stays. -/
theorem bind_apply (x : Run α) (f : α → Run β) (o : Outside) :
    (x >>= f) o = match x o with
      | (.ok a, o') => f a o'
      | (.error e, o') => (.error e, o') := by
  show (ExceptT.bindCont f (x o).1 : StateM Outside _) (x o).2 = _
  rcases x o with ⟨e | a, o'⟩ <;> rfl

theorem bind_ok {x : Run α} {o o' : Outside} {a : α} (h : x o = (.ok a, o'))
    (f : α → Run β) :
    (x >>= f) o = f a o' := by
  rw [bind_apply, h]

theorem bind_error {x : Run α} {o o' : Outside} {e : Failure} (h : x o = (.error e, o'))
    (f : α → Run β) : (x >>= f) o = (.error e, o') := by
  rw [bind_apply, h]

/-- An action that is turned into its outcome never stops what follows. -/
theorem outcome_bind (x : Run α) (f : Except Failure α → Run β) (o : Outside) :
    (Run.outcome x >>= f) o = f (x o).1 (x o).2 := rfl

/-- A value that is known already asks nothing of the outside. -/
theorem ofExcept_apply (e : Except Failure α) (o : Outside) :
    (ofExcept e : Run α) o = (e, o) := by
  cases e <;> rfl

end Run

/-- Logging never fails. -/
theorem Outside.log_bind {α : Type} (level : LogLevel) (message : String)
    (f : Unit → Run α) (o : Outside) : (Outside.log level message >>= f) o =
    f () (Outside.log level message o).2 := rfl

/-! ## Answers -/

namespace Channel

variable {α : Type} (c : Channel α)

/-- The answer to the `i`-th of the requests to come. -/
def answer (i : Nat) : α := c.pending[i]?.getD c.silence

/-- The channel after as many answers. -/
def skip (n : Nat) : Channel α := { c with pending := c.pending.drop n }

/-- The next answer is the one with the number zero. -/
theorem next_eq : c.next = (c.answer 0, c.skip 1) := by
  obtain ⟨pending, silence⟩ := c
  cases pending <;> rfl

/-- Numbers count from the first request to come. -/
theorem answer_skip (n i : Nat) : (c.skip n).answer i = c.answer (n + i) := by
  unfold skip answer
  rw [List.getElem?_drop]

theorem skip_skip (m n : Nat) : (c.skip m).skip n = c.skip (m + n) := by
  unfold skip
  rw [List.drop_drop]

end Channel

namespace Outside

/-- The outside after the host got the requests and answered them. -/
def after (o : Outside) (requests : List HttpRequest) : Outside :=
  { o with
    host := o.host.skip requests.length
    events := o.events ++ requests.map .requested }

theorem after_nil (o : Outside) : o.after [] = o := by
  unfold after
  rw [List.map_nil, List.append_nil]
  rfl

theorem after_after (o : Outside) (qs rs : List HttpRequest) :
    (o.after qs).after rs = o.after (qs ++ rs) := by
  unfold after
  simp only [Channel.skip_skip, List.length_append, List.map_append, List.append_assoc]

/-- A request to the host takes one answer of the host and is one event. -/
theorem request_apply (request : HttpRequest) (o : Outside) :
    Outside.request request o = (.ok (o.host.answer 0), o.after [request]) := by
  show (Except.ok o.host.next.1, { o with host := o.host.next.2, events := _ }) = _
  rw [o.host.next_eq]
  rfl

/-- The answers behind some requests are those that come after as many. -/
theorem answer_after (o : Outside) (qs : List HttpRequest) (i : Nat) :
    (o.after qs).host.answer i = o.host.answer (qs.length + i) :=
  o.host.answer_skip qs.length i

/-- The outside after the first provider was called and answered. -/
def afterAnthropic (o : Outside) (call : CompletionCall) : Outside :=
  { o with
    anthropic := o.anthropic.skip 1
    events := o.events ++ [.called .anthropic call] }

/-- A call takes one answer of this provider and leaves those of the other. -/
theorem callAnthropic_apply (call : CompletionCall) (o : Outside) :
    Outside.callAnthropic call o = (o.anthropic.answer 0, o.afterAnthropic call) := by
  show (ofExcept o.anthropic.next.1 : Run _)
    { o with anthropic := o.anthropic.next.2, events := _ } = _
  rw [o.anthropic.next_eq, Run.ofExcept_apply]
  rfl

/-- The outside after the second provider was called and answered. -/
def afterOpenAI (o : Outside) (call : CompletionCall) : Outside :=
  { o with
    openai := o.openai.skip 1
    events := o.events ++ [.called .openai call] }

theorem callOpenAI_apply (call : CompletionCall) (o : Outside) :
    Outside.callOpenAI call o = (o.openai.answer 0, o.afterOpenAI call) := by
  show (ofExcept o.openai.next.1 : Run _)
    { o with openai := o.openai.next.2, events := _ } = _
  rw [o.openai.next_eq, Run.ofExcept_apply]
  rfl

end Outside

/-! ## What goes out -/

/-- The event is an entry in the log, which no party gets. -/
def Event.isLog : Event → Bool
  | .logged _ _ => true
  | _ => false

/-- The events went out between the two states, and nothing else did but
entries in the log. -/
def Outside.Sent (o o' : Outside) (es : List Event) : Prop :=
  ∃ new, o'.events = o.events ++ new ∧ new.filter (!·.isLog) = es

namespace Outside.Sent

variable {o o' o'' : Outside} {es fs : List Event}

/-- A log entry is nothing that is sent. -/
theorem log (o : Outside) (level : LogLevel) (message : String) :
    o.Sent (Outside.log level message o).2 [] :=
  ⟨[.logged level message], rfl, rfl⟩

/-- What was sent is settled by the outside before and behind it. -/
theorem unique (h : o.Sent o' es) (h' : o.Sent o' fs) : es = fs := by
  obtain ⟨new, hnew, rfl⟩ := h
  obtain ⟨new', hnew', rfl⟩ := h'
  rw [List.append_cancel_left (hnew.symm.trans hnew')]

/-- What is sent in two stages is sent in their order. -/
theorem trans (h : o.Sent o' es) (h' : o'.Sent o'' fs) : o.Sent o'' (es ++ fs) := by
  obtain ⟨new, hnew, hes⟩ := h
  obtain ⟨new', hnew', hfs⟩ := h'
  refine ⟨new ++ new', ?_, ?_⟩
  · rw [hnew', hnew, List.append_assoc]
  · rw [List.filter_append, hes, hfs]

/-- What is logged afterwards adds nothing. -/
theorem trans_log (h : o.Sent o' es) (level : LogLevel) (message : String) :
    o.Sent (Outside.log level message o').2 es := by
  have happend := h.trans (Sent.log o' level message)
  rwa [List.append_nil] at happend

end Outside.Sent

/-- The outside on which every request fails in the same way. -/
def Outside.silent (f : Failure) : Outside :=
  ⟨⟨[], .error f⟩, ⟨[], .error f⟩, ⟨[], .error f⟩, ⟨[], .failed f⟩, ⟨[], .failed f⟩, []⟩

end CodeWeave
