import CodeWeave.Deploy.Host
import CodeWeave.Proofs.Remote.Run

/-!
# Dialogues with the repository host

An action that talks to the host goes through steps: it sends a request, reads a value
from the answer, and goes on with it. What a step reads depends on its own answer only, so
the steps of an action can be listed for given answers, each with its request and with the
failure that it ends in, if it does:

> `Plays`: the action sends the requests of its steps up to the first that fails, and
> fails as that step does.

> `Plays.bind`, `Plays.ask`: what an action plays is put together from
what its parts play.

> `exists_stop`: a dialogue ends at its first failure, or at its last step.
-/

namespace CodeWeave

/-! ## Steps -/

/-- A step of a dialogue: what is requested, and the failure that the step ends
in, if it does. -/
structure Step where
  request : HttpRequest
  failure? : Option Failure

namespace Dialogue

/-- The first failure of a dialogue. -/
def failure? (steps : List Step) : Option Failure := steps.findSome? Step.failure?

/-- The steps of given requests, for given failures by their number. -/
def numbered (qs : List HttpRequest) (failing : Nat → Option Failure) : List Step :=
  qs.mapIdx fun i q => ⟨q, failing i⟩

theorem numbered_cons (q : HttpRequest) (qs : List HttpRequest)
    (g : Nat → Option Failure) :
    numbered (q :: qs) g = ⟨q, g 0⟩ :: numbered qs fun i => g (i + 1) :=
  List.mapIdx_cons

/-- The steps behind others are numbered on. -/
theorem numbered_append (qs rs : List HttpRequest) (g : Nat → Option Failure) :
    numbered (qs ++ rs) g = numbered qs g ++ numbered rs fun i => g (i + qs.length) :=
  List.mapIdx_append

/-- The requests do not depend on how their steps end. -/
theorem map_request_numbered (qs : List HttpRequest) (g : Nat → Option Failure) :
    (numbered qs g).map (·.request) = qs := by
  induction qs generalizing g with
  | nil => rfl
  | cons q qs ih => rw [numbered_cons, List.map_cons, ih]

theorem numbered_congr {qs : List HttpRequest} {f g : Nat → Option Failure}
    (h : ∀ i < qs.length, f i = g i) : numbered qs f = numbered qs g := by
  refine List.ext_getElem (by simp [numbered]) fun i hi _ => ?_
  rw [numbered, List.length_mapIdx] at hi
  simp only [numbered, List.getElem_mapIdx, h i hi]

/-- The requests of a dialogue, up to the step that fails. -/
def sent : List Step → List HttpRequest
  | [] => []
  | s :: steps => s.request :: if s.failure?.isSome then [] else sent steps

/-- Nothing is sent behind a step that has failed. -/
theorem sent_append_of_some {ss : List Step} {f : Failure} (h : failure? ss = some f)
    (ts : List Step) : sent (ss ++ ts) = sent ss := by
  induction ss with
  | nil => exact nomatch h
  | cons s ss ih =>
    unfold failure? at h ih
    rw [List.findSome?_cons] at h
    rw [List.cons_append, sent, sent]
    cases hfailure : s.failure? with
    | some g => rfl
    | none =>
      rw [hfailure] at h
      rw [ih h]

/-- If no step has failed all their requests are sent, and then those of the
steps behind them. -/
theorem sent_append_of_none {ss : List Step} (h : failure? ss = none) (ts : List Step) :
    sent (ss ++ ts) = ss.map (·.request) ++ sent ts := by
  induction ss with
  | nil => rfl
  | cons s ss ih =>
    unfold failure? at h ih
    rw [List.findSome?_cons] at h
    rw [List.cons_append, sent]
    cases hfailure : s.failure? with
    | some g =>
      rw [hfailure] at h
      exact nomatch h
    | none =>
      rw [hfailure] at h
      rw [ih h]
      rfl

theorem sent_of_none {ss : List Step} (h : failure? ss = none) :
    sent ss = ss.map (·.request) := by
  have hnil := sent_append_of_none h []
  rwa [List.append_nil, sent, List.append_nil] at hnil

/-- The dialogue of `m + 1` numbered steps ends at one of them: no earlier step fails, and
if it is not the last, it does. -/
theorem exists_stop {qs : List HttpRequest} {m : Nat} (hqs : qs.length = m + 1)
    (g : Nat → Option Failure) :
    ∃ k ≤ m, (∀ i < k, g i = none) ∧ (k < m → g k ≠ none) ∧
      sent (numbered qs g) = qs.take (k + 1) ∧ failure? (numbered qs g) = g k := by
  induction qs generalizing m g with
  | nil => exact absurd hqs (Nat.succ_ne_zero m).symm
  | cons q qs ih =>
    have hlength : qs.length = m := Nat.succ.inj hqs
    rw [numbered_cons]
    unfold failure?
    rw [List.findSome?_cons, sent]
    cases hfirst : g 0 with
    | some f =>
      refine ⟨0, Nat.zero_le m, fun i hi => absurd hi (Nat.not_lt_zero i), fun _ => ?_,
        rfl, hfirst.symm⟩
      rw [hfirst]
      exact Option.some_ne_none f
    | none =>
      cases m with
      | zero =>
        obtain rfl := List.length_eq_zero_iff.mp hlength
        exact ⟨0, Nat.le_refl 0, fun i hi => absurd hi (Nat.not_lt_zero i),
          fun h => absurd h (Nat.not_lt_zero 0), rfl, hfirst.symm⟩
      | succ m =>
        obtain ⟨k, hk, hok, hmust, hsent, hstop⟩ := ih hlength fun i => g (i + 1)
        refine ⟨k + 1, Nat.succ_le_succ hk, fun i hi => ?_, fun hlt => ?_, ?_, hstop⟩
        · cases i with
          | zero => exact hfirst
          | succ i => exact hok i (Nat.lt_of_succ_lt_succ hi)
        · exact hmust (Nat.lt_of_succ_lt_succ hlt)
        · rw [List.take_succ_cons, ← hsent]
          rfl

end Dialogue

/-! ## Playing steps -/

/-- The failure of an outcome, if it is one. -/
def failureOf {α : Type} : Except Failure α → Option Failure
  | .ok _ => none
  | .error f => some f

/-- The value that was read, or null if none was. -/
def valueOf (r : Except Failure Json) : Json := r.toOption.getD .null

/-- A step that does not fail reads its value. -/
theorem eq_ok_of_failureOf {r : Except Failure Json} (h : failureOf r = none) :
    r = .ok (valueOf r) := by
  cases r with
  | ok v => rfl
  | error f => exact nomatch h

/-- The action plays the steps: it sends the requests of a dialogue of them, fails as the
dialogue does, and ends with the result if it does not. -/
def Plays {α : Type} (x : Run α) (o : Outside) (steps : List Step) (a : α) : Prop :=
  x o = (match Dialogue.failure? steps with | some f => .error f | none => .ok a,
    o.after (Dialogue.sent steps))

section Plays

variable {α β : Type} {x : Run α} {f : α → Run β} {o : Outside} {ss ts : List Step}
  {a : α} {b : β}

open Dialogue

theorem plays_pure : Plays (pure a) o [] a := by
  unfold Plays
  rw [sent, Outside.after_nil]
  rfl

/-- One play behind another: the second starts where the first has left the outside. -/
theorem Plays.bind (hx : Plays x o ss a)
    (hf : Plays (f a) (o.after (ss.map (·.request))) ts b) :
    Plays (x >>= f) o (ss ++ ts) b := by
  unfold Plays at hx hf ⊢
  have happend : Dialogue.failure? (ss ++ ts) =
      (Dialogue.failure? ss).or (Dialogue.failure? ts) :=
    List.findSome?_append
  cases hfailure : Dialogue.failure? ss with
  | some g =>
    rw [hfailure] at hx
    rw [happend, hfailure, sent_append_of_some hfailure, Run.bind_error hx]
    rfl
  | none =>
    rw [hfailure, sent_of_none hfailure] at hx
    rw [happend, hfailure, sent_append_of_none hfailure, Run.bind_ok hx, hf,
      Outside.after_after]
    rfl

end Plays

/-! ## Requests -/

namespace HostClient

/-- What a request gives for what becomes of it. -/
def decode : HttpOutcome → Except Failure Json
  | .failed f =>
    .error (if f.isA .request then (DeploymentFault.unreachable f.message).failure else f)
  | .answered status body =>
    if OkStatus status then body
    else refusal body >>= fun reason => .error (DeploymentFault.refused reason).failure

variable (h : HostClient) (endpoint method : String) (body : Json) (o : Outside)

/-- A request takes one answer, and decodes it. -/
theorem request_apply :
    h.request endpoint method body o =
      (decode (o.host.answer 0), o.after [h.requestFor endpoint method body]) := by
  unfold request
  rw [Run.bind_ok (Outside.request_apply (h.requestFor endpoint method body) o)]
  unfold decode
  cases o.host.answer 0 with
  | failed f =>
    dsimp only
    split <;> rfl
  | answered status body =>
    dsimp only
    split
    · exact Run.ofExcept_apply body _
    · cases hreason : refusal body <;> rfl

/-- A request whose answer is read plays one step. -/
theorem plays_ask (read : Json → Except Failure Json) :
    let r := decode (o.host.answer 0) >>= read
    Plays (do let v ← h.request endpoint method body; ofExcept (read v)) o
      [⟨h.requestFor endpoint method body, failureOf r⟩] (valueOf r) := by
  intro r
  have hsend := h.request_apply endpoint method body o
  unfold Plays
  cases hanswer : decode (o.host.answer 0) with
  | error f =>
    have hr : r = .error f := by
      show decode _ >>= read = _
      rw [hanswer]
      rfl
    rw [hanswer] at hsend
    rw [Run.bind_error hsend, hr]
    rfl
  | ok v =>
    have hr : r = read v := by
      show decode _ >>= read = _
      rw [hanswer]
      rfl
    rw [hanswer] at hsend
    rw [Run.bind_ok hsend, Run.ofExcept_apply, hr]
    cases read v <;> rfl

/-- A dialogue that starts with a request and goes on with what is read
from the answer. -/
theorem plays_ask_bind {α : Type} {read : Json → Except Failure Json} {f : Json → Run α}
    {o : Outside} {ts : List Step} {a : α} {endpoint method : String} {body : Json}
    {r : Except Failure Json} (hr : decode (o.host.answer 0) >>= read = r)
    (hf : Plays (f (valueOf r)) (o.after [h.requestFor endpoint method body]) ts a) :
    Plays (do let v ← h.request endpoint method body; let w ← ofExcept (read v); f w) o
      (⟨h.requestFor endpoint method body, failureOf r⟩ :: ts) a := by
  subst hr
  have hbind := (h.plays_ask endpoint method body o read).bind hf
  rwa [bind_assoc] at hbind

/-- A request whose answer is the result. -/
theorem plays_request :
    let r := decode (o.host.answer 0)
    Plays (h.request endpoint method body) o
      [⟨h.requestFor endpoint method body, failureOf r⟩]
      (valueOf r) := by
  intro r
  have hask := h.plays_ask endpoint method body o pure
  have hread : (do let v ← h.request endpoint method body; ofExcept (pure v)) =
      h.request endpoint method body := by
    show (h.request endpoint method body >>= pure) = _
    rw [bind_pure]
  rw [hread, bind_pure] at hask
  exact hask

end HostClient

end CodeWeave
