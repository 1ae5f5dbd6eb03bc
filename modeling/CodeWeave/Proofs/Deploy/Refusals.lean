import CodeWeave.Proofs.Remote.Dialogue

/-!
# How requests to the host fail

A request fails if no response arrives, or if the response refuses it. Either is meant to
be a failure of deployment. The reason for a refusal is looked for in the body of the
response, while the failure is being made, so a body of an unexpected shape makes a
failure of its own.

> `Refuses`, `exists_refuses`: what each failed request ends in. Neither a body that
> cannot be decoded nor an object without a reason is in the way.

> `request_fails_as_deployment_iff`: a failed request ends in a failure of deployment,
> unless the refusal comes with a value that has no fields.
-/

namespace CodeWeave.HostClient

/-! ## Failed requests -/

/-- The request failed: there is no response, or the response refuses. The body is a value
or cannot be decoded. -/
inductive Failed : HttpOutcome → Prop
  | unreachable {f : Failure} (hf : f.isA .request = true) : Failed (.failed f)
  | undecodable {status : Int} {f : Failure} (hs : ¬ OkStatus status)
      (hf : f.isA .value = true) :
      Failed (.answered status (.error f))
  | decoded {status : Int} (hs : ¬ OkStatus status) (v : Json) :
      Failed (.answered status (.ok v))

/-- The response refuses, and its body is a value that is no object. -/
def RefusesWithoutFields (a : HttpOutcome) : Prop :=
  ∃ status v, a = .answered status (.ok v) ∧ ¬ OkStatus status ∧ ∀ fields, v ≠ .obj fields

/-- The reason among the fields of a refusal, or the standard one. -/
def reasonIn (fields : List (String × Json)) : String :=
  (((Json.field? fields "message").filter fun m => !m.isNothing).map Json.display).getD
    "GitHub API Error"

/-- What a failed request ends in. -/
inductive Refuses : HttpOutcome → Failure → Prop
  | unreachable {f : Failure} (hf : f.isA .request = true) :
      Refuses (.failed f) (DeploymentFault.unreachable f.message).failure
  | undecodable {status : Int} {f : Failure} (hs : ¬ OkStatus status)
      (hf : f.isA .value = true) :
      Refuses (.answered status (.error f)) (DeploymentFault.refused
        "GitHub API Error").failure
  | explained {status : Int} (hs : ¬ OkStatus status) (fields : List (String × Json)) :
      Refuses (.answered status (.ok (.obj fields)))
        (DeploymentFault.refused (reasonIn fields)).failure
  | withoutFields {status : Int} {v : Json} (hs : ¬ OkStatus status)
      (hv : ∀ fields, v ≠ .obj fields) :
      Refuses (.answered status (.ok v)) (.ofMissingPart v "get")

/-- An answer that is a failure is refused for some reason. -/
theorem exists_refuses {a : HttpOutcome} (h : Failed a) : ∃ f, Refuses a f := by
  cases h with
  | unreachable hf => exact ⟨_, .unreachable hf⟩
  | undecodable hs hf => exact ⟨_, .undecodable hs hf⟩
  | decoded hs v =>
    cases v with
    | obj fields => exact ⟨_, .explained hs fields⟩
    | null | bool | int | real | str | arr => exact ⟨_, .withoutFields hs nofun⟩

/-! ## Their failures -/

/-- A refused answer is read as a failure with the reason in its body. -/
theorem decode_refused {status : Int} (hs : ¬ OkStatus status)
    (body : Except Failure Json) :
    decode (.answered status body) =
      refusal body >>= fun reason => .error (DeploymentFault.refused reason).failure :=
  if_neg hs

theorem refusal_obj (fields : List (String × Json)) :
    refusal (.ok (.obj fields)) = .ok (reasonIn fields) := by
  rw [refusal, Json.lookup?, reasonIn]
  cases Json.field? fields "message" with
  | none => rfl
  | some m =>
    rw [Option.filter_some]
    show Except.ok (if m.isNothing then _ else _) = _
    cases m.isNothing <;> rfl

/-- A body without fields gives no reason: looking for one fails. -/
theorem refusal_of_no_fields {v : Json} (hv : ∀ fields, v ≠ .obj fields) :
    refusal (.ok v) = .error (.ofMissingPart v "get") := by
  cases v with
  | obj fields => exact absurd rfl (hv fields)
  | null | bool | int | real | str | arr => rfl

/-- Reading a refused answer fails as the refusal says. -/
theorem Refuses.decode_eq {a : HttpOutcome} {f : Failure} (h : Refuses a f) :
    decode a = .error f := by
  cases h with
  | unreachable hf => rw [decode, if_pos hf]
  | undecodable hs hf =>
    rw [decode_refused hs, refusal, if_pos hf]
    rfl
  | explained hs fields =>
    rw [decode_refused hs, refusal_obj]
    rfl
  | withoutFields hs hv =>
    rw [decode_refused hs, refusal_of_no_fields hv]
    rfl

/-- Only a value without fields makes a failure of another kind. -/
theorem Refuses.deployment_iff {a : HttpOutcome} {f : Failure} (h : Refuses a f) :
    f.isA .deployment = true ↔ ¬ RefusesWithoutFields a := by
  cases h with
  | unreachable | undecodable =>
    refine iff_of_true rfl fun hwithout => ?_
    obtain ⟨_, _, ha, _⟩ := hwithout
    exact nomatch ha
  | explained _ fields =>
    refine iff_of_true rfl fun hwithout => ?_
    obtain ⟨_, _, ha, _, hv⟩ := hwithout
    cases ha
    exact hv fields rfl
  | withoutFields hs hv =>
    exact iff_of_false Bool.false_ne_true fun hnot => hnot ⟨_, _, rfl, hs, hv⟩

/-- Every failed request ends in a failure. It is one of deployment, unless the response
refuses with a value that is no object: then the look-up of the reason fails, as a missing
part. If the response does not refuse and its body is a value, the request gives just this
value. A response that does not refuse has a status below 400. -/
theorem request_fails_as_deployment_iff (h : HostClient) (endpoint method : String)
    (body : Json) (o : Outside) :
    let answer := o.host.answer 0
    let result := (h.request endpoint method body o).1
    (Failed answer → ∃ f, result = .error f ∧
      (f.isA .deployment = true ↔ ¬ RefusesWithoutFields answer) ∧
      (RefusesWithoutFields answer → f.kind = .missingPart)) ∧
    (∀ status v, answer = .answered status (.ok v) → OkStatus status → result = .ok v) ∧
    ∀ status, OkStatus status ↔ status < 400 := by
  intro answer result
  have hresult : result = decode answer :=
    congrArg Prod.fst (h.request_apply endpoint method body o)
  rw [hresult]
  refine ⟨fun hfailed => ?_, fun status v hanswer hs => ?_, fun status => Iff.rfl⟩
  · obtain ⟨f, hrefuses⟩ := exists_refuses hfailed
    refine ⟨f, hrefuses.decode_eq, hrefuses.deployment_iff, fun hwithout => ?_⟩
    obtain ⟨status, v, ha, hs, hv⟩ := hwithout
    have hpart := (Refuses.withoutFields hs hv).decode_eq
    rw [← ha, hrefuses.decode_eq] at hpart
    rw [Except.error.inj hpart]
    rfl
  · rw [hanswer]
    exact if_pos hs

/-- A refusal with a reason is a failure of deployment, and a list is given as it is by a
response that does not refuse. -/
theorem request_fails_as_deployment_explained :
    let f : Failure := ⟨.connection, "offline", [], 0⟩
    let outside (a : HttpOutcome) : Outside :=
      { Outside.silent f with host := ⟨[a], .failed f⟩ }
    let refused : HttpOutcome :=
      .answered 404 (.ok (.obj [("message", .str "Not Found")]))
    let accepted : HttpOutcome := .answered 200 (.ok (.arr []))
    (Failed refused ∧
      ∃ g, (HostClient.request ⟨"t"⟩ "/user" "GET" .null (outside refused)).1 = .error g ∧
      g.isA .deployment = true) ∧
      (HostClient.request ⟨"t"⟩ "/user" "GET" .null (outside accepted)).1 =
        .ok (.arr []) := by
  intro f outside refused accepted
  have hfailed : Failed refused := .decoded (by decide) _
  obtain ⟨g, hg, hiff, -⟩ :=
    (request_fails_as_deployment_iff ⟨"t"⟩ "/user" "GET" .null (outside refused)).1
      hfailed
  refine ⟨⟨hfailed, g, hg, hiff.mpr fun hwithout => ?_⟩, ?_⟩
  · obtain ⟨_, _, ha, _, hv⟩ := hwithout
    cases ha
    exact hv _ rfl
  · exact (request_fails_as_deployment_iff ⟨"t"⟩ "/user" "GET" .null
      (outside accepted)).2.1 200 (.arr [])
      rfl (by decide)

/-- The host refuses with an empty list, and the failure is not one of deployment. -/
theorem refusal_list_escapes :
    let f : Failure := ⟨.connection, "offline", [], 0⟩
    let a : HttpOutcome := .answered 500 (.ok (.arr []))
    let o : Outside := { Outside.silent f with host := ⟨[a], .failed f⟩ }
    Failed a ∧ (HostClient.request ⟨"t"⟩ "/user" "GET" .null o).1 =
        .error ⟨.missingPart, "'list' object has no attribute 'get'", [], 0⟩ ∧
      FailureKind.isA .missingPart .deployment = false :=
  ⟨.decoded (by decide) _, rfl, rfl⟩

end CodeWeave.HostClient
