import CodeWeave.Proofs.Remote.Dialogue
import CodeWeave.Proofs.Text.Base64

/-!
# Commits

A commit of `n` files sends `n + 4` requests, and the last moves the branch. All but the
last read a sha from their answer, and later requests are made of these.

> `plays_commitFiles`: a commit plays its steps, each with the shas of the
earlier ones in it.

> `map_commitRequests`: the method, the address and the body of each request.

> `commitFiles_apply`: the requests that go out are those up to the first step that fails.

> `commitFiles_moves_branch_last`: so the branch is moved only if everything before it has
> worked, and to a commit of the files as they are.
-/

namespace CodeWeave.HostClient

variable (h : HostClient) (owner repository : String) (files : List ProjectFile)
  (message : String)

/-! ## Steps -/

/-- The request that stores a file. -/
def blobRequest (file : ProjectFile) : HttpRequest :=
  h.requestFor s!"{gitStem owner repository}/blobs" "POST" (blobBody file)

/-- The request for a tree on the head with one entry for each file, with the
sha of its blob. -/
def treeRequest (sha : Nat → Json) : HttpRequest :=
  h.requestFor s!"{gitStem owner repository}/trees" "POST"
    (.obj [("base_tree", sha 0),
      ("tree", .arr (files.mapIdx fun i file => .obj
        [("path", .str file.path), ("mode", .str "100644"), ("type", .str "blob"),
          ("sha", sha (i + 1))]))])

/-- The request for a commit of the tree behind `n` blobs, with the head as
its only parent. -/
def commitRequest (n : Nat) (sha : Nat → Json) : HttpRequest :=
  h.requestFor s!"{gitStem owner repository}/commits" "POST"
    (.obj [("message", .str message), ("tree", sha (n + 1)), ("parents", .arr [sha 0])])

/-- The request that moves the branch to the commit. -/
def moveRequest (n : Nat) (sha : Nat → Json) : HttpRequest :=
  h.requestFor (headEndpoint owner repository) "PATCH" (.obj [("sha", sha (n + 2))])

/-- The requests in front of that, made of the shas that the steps read: the head, a blob
for each file, the tree, and the commit. -/
def preparations (sha : Nat → Json) : List HttpRequest :=
  h.requestFor (headEndpoint owner repository) "GET" .null ::
    (files.map (h.blobRequest owner repository) ++
      [h.treeRequest owner repository files sha,
       h.commitRequest owner repository message files.length sha])

/-- All requests of a commit: the branch is moved last. -/
def commitRequests (sha : Nat → Json) : List HttpRequest :=
  h.preparations owner repository files message sha ++
    [h.moveRequest owner repository files.length sha]

theorem length_preparations (sha : Nat → Json) :
    (h.preparations owner repository files message sha).length = files.length + 3 := by
  simp [preparations]

/-- One request for each file, and four others. -/
theorem length_commitRequests (sha : Nat → Json) :
    (h.commitRequests owner repository files message sha).length = files.length + 4 := by
  rw [commitRequests, List.length_append, length_preparations]
  rfl

/-- Where the host keeps the objects of the repository. -/
theorem address_append_gitStem :
    address ++ gitStem owner repository =
      s!"https://api.github.com/repos/{owner}/{repository}/git" := by
  simp only [gitStem, address, toString, ← String.append_assoc]
  rfl

/-- What the requests of a commit are: the method, the address and the body of each. -/
def commitOutline (sha : Nat → Json) : List (String × String × Json) :=
  let n := files.length
  let stem := s!"https://api.github.com/repos/{owner}/{repository}/git"
  ("GET", stem ++ "/refs/heads/main", .null) ::
    (files.map fun file => ("POST", stem ++ "/blobs", .obj [("content",
      .ofText (Text.encode64 (Text.utf8 file.content))), ("encoding", .str "base64")])) ++
    [("POST", stem ++ "/trees", .obj [("base_tree", sha 0),
      ("tree", .arr (files.mapIdx fun i file => .obj [("path", .str file.path),
        ("mode", .str "100644"), ("type", .str "blob"), ("sha", sha (i + 1))]))]),
     ("POST", stem ++ "/commits", .obj [("message", .str message), ("tree", sha (n + 1)),
      ("parents", .arr [sha 0])]),
     ("PATCH", stem ++ "/refs/heads/main", .obj [("sha", sha (n + 2))])]

/-- The requests are the ones that are spelled out. -/
theorem map_commitRequests (sha : Nat → Json) :
    (h.commitRequests owner repository files message sha).map
      (fun q => (q.method, q.url, q.body)) =
      commitOutline owner repository files message sha := by
  let stem := s!"https://api.github.com/repos/{owner}/{repository}/git"
  have hobject : ∀ part, address ++ (gitStem owner repository ++ part) =
      stem ++ part := by
    intro part
    rw [← String.append_assoc, address_append_gitStem]
  have hhead : address ++ headEndpoint owner repository = stem ++ "/refs/heads/main" := by
    rw [← hobject]
    exact congrArg (address ++ ·) String.append_assoc
  show _ = (_, stem ++ _, _) :: (files.map fun file => (_, stem ++ _, _)) ++ _
  rw [← hhead, ← hobject "/blobs", ← hobject "/trees", ← hobject "/commits"]
  simp only [commitRequests, preparations, List.cons_append, List.map_cons,
    List.append_assoc, List.map_append, List.map_map]
  rfl

/-- Short of the last, all requests are preparations. -/
theorem mem_preparations_of_mem_take {sha : Nat → Json} {k : Nat}
    (hk : k < files.length + 3) {q : HttpRequest}
    (hq : q ∈ (h.commitRequests owner repository files message sha).take (k + 1)) :
    q ∈ h.preparations owner repository files message sha := by
  have hlength := h.length_preparations owner repository files message sha
  rw [commitRequests, List.take_append_of_le_length (by omega)] at hq
  exact List.mem_of_mem_take hq

/-- No preparation moves a branch. -/
theorem method_of_mem_preparations {sha : Nat → Json} {q : HttpRequest}
    (hq : q ∈ h.preparations owner repository files message sha) :
    q.method ≠ "PATCH" := by
  simp only [preparations, List.mem_cons, List.mem_append, List.mem_map, List.not_mem_nil,
    or_false] at hq
  have hpost : ("POST" : String) ≠ "PATCH" := by decide
  rcases hq with rfl | ⟨file, _, rfl⟩ | rfl | rfl
  · show ("GET" : String) ≠ "PATCH"
    decide
  · exact hpost
  · exact hpost
  · exact hpost

/-- What a step of a commit reads: the head is an object of its own in the answer. -/
def readSha : Nat → Json → Except Failure Json
  | 0, ref => ref.lookup "object" >>= Json.lookup "sha"
  | _ + 1, v => v.lookup "sha"

/-- The sha that the `i`-th step reads from the answers. -/
def shaAt (c : Channel HttpOutcome) (i : Nat) : Except Failure Json :=
  decode (c.answer i) >>= readSha i

/-- How the `i`-th step of a commit of `n` files ends. -/
def stepAt (n : Nat) (c : Channel HttpOutcome) (i : Nat) : Except Failure Json :=
  if i < n + 3 then shaAt c i else decode (c.answer i)

/-- The steps of a commit, for given answers. -/
def commitSteps (c : Channel HttpOutcome) : List Step :=
  Dialogue.numbered (h.commitRequests owner repository files message fun i =>
    valueOf (shaAt c i))
    fun i => failureOf (stepAt files.length c i)

/-- Files are stored one after the other, and each entry has the sha of its own file. -/
theorem plays_storeFiles (o : Outside) :
    let sha := fun i => decode (o.host.answer i) >>= Json.lookup "sha"
    Plays (h.storeFiles owner repository files) o
      (Dialogue.numbered (files.map (h.blobRequest owner repository)) fun i =>
        failureOf (sha i))
      (files.mapIdx fun i file => treeEntry file (valueOf (sha i))) := by
  induction files generalizing o with
  | nil => exact plays_pure
  | cons file files ih =>
    intro sha
    let o' := o.after [h.blobRequest owner repository file]
    have hsha : ∀ i, decode (o'.host.answer i) >>= Json.lookup "sha" = sha (i + 1) := by
      intro i
      show _ = decode (o.host.answer (i + 1)) >>= _
      rw [o.answer_after, List.length_singleton, Nat.add_comm]
    have hrest :=
      (ih o').bind
      (f := fun entries => pure (treeEntry file (valueOf (sha 0)) :: entries))
      plays_pure
    simp only [hsha, List.append_nil] at hrest
    rw [List.map_cons, Dialogue.numbered_cons, List.mapIdx_cons]
    exact h.plays_ask_bind rfl hrest

/-- All steps but the last read a sha. -/
theorem stepAt_of_lt {n i : Nat} (hi : i < n + 3) (c : Channel HttpOutcome) :
    stepAt n c i = shaAt c i := if_pos hi

/-- The steps one by one: the head, the files, the tree, the commit, and the
move of the branch. -/
theorem commitSteps_eq (c : Channel HttpOutcome) :
    let n := files.length
    let sha := fun i => valueOf (shaAt c i)
    h.commitSteps owner repository files message c =
      ⟨h.requestFor (headEndpoint owner repository) "GET" .null, failureOf (shaAt c 0)⟩ ::
        (Dialogue.numbered (files.map (h.blobRequest owner repository))
            (fun i => failureOf (shaAt c (i + 1))) ++
          [⟨h.treeRequest owner repository files sha, failureOf (shaAt c (n + 1))⟩,
           ⟨h.commitRequest owner repository message n sha, failureOf (shaAt c (n + 2))⟩,
           ⟨h.moveRequest owner repository n sha, failureOf
             (decode (c.answer (n + 3)))⟩]) := by
  intro n sha
  have hblobs : Dialogue.numbered (files.map (h.blobRequest owner repository))
      (fun i => failureOf (stepAt n c (i + 1))) =
      Dialogue.numbered (files.map (h.blobRequest owner repository))
        fun i => failureOf (shaAt c (i + 1)) := by
    refine Dialogue.numbered_congr fun i hi => ?_
    rw [List.length_map] at hi
    rw [stepAt_of_lt (by omega)]
  have htree : stepAt n c (0 + n + 1) = shaAt c (n + 1) := by
    rw [stepAt_of_lt (by omega), Nat.zero_add]
  have hcommit : stepAt n c (0 + 1 + n + 1) = shaAt c (n + 2) := by
    rw [stepAt_of_lt (by omega)]
    congr 1
    omega
  have hmove : stepAt n c (0 + 1 + 1 + n + 1) = decode (c.answer (n + 3)) := by
    rw [show 0 + 1 + 1 + n + 1 = n + 3 by omega, stepAt, if_neg (Nat.lt_irrefl _)]
  unfold commitSteps commitRequests preparations
  rw [List.cons_append, List.append_assoc, Dialogue.numbered_cons,
    Dialogue.numbered_append, hblobs,
    List.length_map, stepAt_of_lt (by omega)]
  simp only [List.cons_append, List.nil_append, Dialogue.numbered_cons]
  rw [htree, hcommit, hmove]
  rfl

/-- A commit plays its steps. Each one finds the shas of the earlier ones
in its request. -/
theorem plays_commitFiles (o : Outside) :
    Plays (h.commitFiles owner repository files message) o
      (h.commitSteps owner repository files message o.host)
      (valueOf (decode (o.host.answer (files.length + 3)))) := by
  let n := files.length
  let sha := fun i => valueOf (shaAt o.host i)
  rw [commitSteps_eq]
  -- the outside before each of the steps
  let o₁ := o.after [h.requestFor (headEndpoint owner repository) "GET" .null]
  let o₂ := o₁.after (files.map (h.blobRequest owner repository))
  let o₃ := o₂.after [h.treeRequest owner repository files sha]
  let o₄ := o₃.after [h.commitRequest owner repository message n sha]
  have h₁ : ∀ i, o₁.host.answer i = o.host.answer (i + 1) := by
    intro i
    rw [o.answer_after, List.length_singleton, Nat.add_comm]
  have h₂ : ∀ i, o₂.host.answer i = o.host.answer (n + i + 1) := by
    intro i
    rw [o₁.answer_after, List.length_map, h₁]
  have h₃ : ∀ i, o₃.host.answer i = o.host.answer (n + i + 2) := by
    intro i
    rw [o₂.answer_after, List.length_singleton, h₂]
    congr 1
    omega
  have h₄ : o₄.host.answer 0 = o.host.answer (n + 3) := by
    rw [o₃.answer_after, h₃]
    rfl
  have hblobs := h.plays_storeFiles owner repository files o₁
  simp only [h₁] at hblobs
  refine h.plays_ask_bind (r := shaAt o.host 0) rfl (hblobs.bind ?_)
  rw [Dialogue.map_request_numbered]
  refine h.plays_ask_bind (r := shaAt o.host (n + 1)) (o := o₂) (by rw [h₂]; rfl) ?_
  refine h.plays_ask_bind (r := shaAt o.host (n + 2)) (o := o₃) (by rw [h₃]; rfl) ?_
  have hmove :=
    h.plays_request (headEndpoint owner repository) "PATCH"
    (.obj [("sha", sha (n + 2))]) o₄
  rw [h₄] at hmove
  exact hmove

/-! ## Where a commit stops -/

/-- A commit ends at the first step that fails, or with its last, whose
answer is the result. -/
theorem commitFiles_apply (o : Outside) :
    let n := files.length
    let requests :=
      h.commitRequests owner repository files message fun i => valueOf (shaAt o.host i)
    ∃ k ≤ n + 3, ∃ result,
      h.commitFiles owner repository files message o =
        (result, o.after (requests.take (k + 1))) ∧
      (∀ i < k, shaAt o.host i = .ok (valueOf (shaAt o.host i))) ∧
      (k < n + 3 → ∃ f, shaAt o.host k = .error f ∧ result = .error f) ∧
      (k = n + 3 → result = decode (o.host.answer k)) := by
  intro n requests
  have hplays := h.plays_commitFiles owner repository files message o
  have hlength : requests.length = n + 4 :=
    h.length_commitRequests owner repository files message _
  obtain ⟨k, hk, hok, hmust, hsent, hstop⟩ :=
    Dialogue.exists_stop hlength fun i => failureOf (stepAt n o.host i)
  unfold Plays commitSteps at hplays
  rw [hsent, hstop] at hplays
  refine ⟨k, hk, _, hplays, fun i hi => ?_, fun hlt => ?_, fun hlast => ?_⟩
  · have hnone := hok i hi
    rw [stepAt_of_lt (by omega)] at hnone
    exact eq_ok_of_failureOf hnone
  · have hsome := hmust hlt
    rw [stepAt_of_lt hlt] at hsome ⊢
    cases hsha : shaAt o.host k with
    | ok sha =>
      rw [hsha] at hsome
      exact absurd rfl hsome
    | error f => exact ⟨f, rfl, rfl⟩
  · rw [hlast, stepAt, if_neg (Nat.lt_irrefl _)]
    cases decode (o.host.answer (n + 3)) <;> rfl

/-- The stored form of a file has its bytes, in base 64. -/
theorem exists_content_blobRequest (file : ProjectFile) :
    ∃ content, (h.blobRequest owner repository file).body.get? "content" =
      some (.str content) ∧
      Text.decode64? content.toList =
        some (file.content.flatMap String.utf8EncodeChar) := by
  refine ⟨String.ofList (Text.encode64 (Text.utf8 file.content)), rfl, ?_⟩
  rw [String.toList_ofList, Text.decode64?_encode64, Text.utf8_eq_flatMap]

/-- A commit is all or nothing about moving the branch. For some `k`, the first `k` steps
read their shas and the requests up to the `k`-th go out. If more than the last step is
left, the `k`-th has failed, and the commit fails as it did. Else the branch was requested
to move, which happens in no other case, and the answer to that is the result. The
requests are those of `commitOutline`, and the content of each blob is in base 64. -/
theorem commitFiles_moves_branch_last (o : Outside) :
    let sha := fun i => valueOf (shaAt o.host i)
    let requests := h.commitRequests owner repository files message sha
    let (result, o') := h.commitFiles owner repository files message o
    ∃ k ≤ files.length + 3,
      (∀ i < k, shaAt o.host i = .ok (sha i)) ∧ o' = o.after (requests.take (k + 1)) ∧
      (k < files.length + 3 → ∃ f, shaAt o.host k = .error f ∧ result = .error f) ∧
      (k = files.length + 3 → result = decode (o.host.answer k)) ∧
      ((∃ q ∈ requests.take (k + 1), q.method = "PATCH") ↔ k = files.length + 3) ∧
      requests.map (fun q => (q.method, q.url, q.body)) =
        commitOutline owner repository files message sha ∧
      ∀ i (_ : i < files.length), ∃ q content, requests[i + 1]? = some q ∧
        q.body.get? "content" = some (.str content) ∧
        Text.decode64? content.toList =
          some (files[i].content.flatMap String.utf8EncodeChar) := by
  intro sha requests
  obtain ⟨k, hk, result, happly, hok, hfail, hlast⟩ :=
    h.commitFiles_apply owner repository files message o
  rw [happly]
  refine ⟨k, hk, hok, rfl, hfail, hlast, ⟨?_, fun heq => ?_⟩,
    h.map_commitRequests owner repository files message sha, fun i hi => ?_⟩
  · rintro ⟨q, hq, hpatch⟩
    rcases Nat.lt_or_eq_of_le hk with hlt | heq
    · exact absurd hpatch (h.method_of_mem_preparations owner repository files message
        (h.mem_preparations_of_mem_take owner repository files message hlt hq))
    · exact heq
  · have hlength := h.length_commitRequests owner repository files message sha
    refine ⟨h.moveRequest owner repository files.length sha, ?_, rfl⟩
    rw [heq, List.take_of_length_le (Nat.le_of_eq hlength)]
    simp [commitRequests]
  · obtain ⟨content, hget, hcontent⟩ :=
      h.exists_content_blobRequest owner repository files[i]
    refine ⟨_, content, ?_, hget, hcontent⟩
    show (files.map (h.blobRequest owner repository) ++ _ ++ _)[i]? = _
    rw [List.append_assoc, List.getElem?_append_left (by rw [List.length_map]; exact hi),
      List.getElem?_map,
      List.getElem?_eq_getElem hi, Option.map_some]

end CodeWeave.HostClient
