/-
# Stress.Batches -- batching neither drops nor repeats a request

With a pair of accounts for every turn, a turn starts the request with the next number
and goes on.  The nested loops of the batch modes then make the turns of one loop, cut
into blocks of the batch size (`inBatches_eq`), so they start the requests that the
sequential mode starts, in the same order (`batches_issue_all`).
-/
import PatientAccess.Stress.Registrations

namespace PatientAccess.Stress

open PatientAccess.Theory PatientAccess.Log

set_option autoImplicit false

/-- The number a `GET` carries. -/
def Request.number : Request → Option Nat
  | .createUserWithDynamicGas _ => none
  | .getRole _ params => some params.requestNumber
  | .hasPermission _ _ params => some params.requestNumber

/-- The requests `rs` are started in batches, each awaited before the next: every batch of
`size` requests, but for the last, which may have fewer. -/
def StartsInBatches (run : TestRun Unit) (size : ℕ+) (rs : List Request) : Prop :=
  ∃ batches : List (List Request),
    run = ⟨batches.flatMap fun b => b.map Action.request ++ [.awaitAll, .pause], .ok ()⟩ ∧
      batches.flatten = rs ∧ (∀ b ∈ batches.dropLast, b.length = size) ∧
      ∀ b ∈ batches.getLast?, 1 ≤ b.length ∧ b.length ≤ size

/-- Each of the requests `rs` is awaited before the next is started. -/
def StartsOneByOne (run : TestRun Unit) (rs : List Request) : Prop :=
  run = ⟨rs.flatMap fun r => [.request r, .awaitAll], .ok ()⟩

section Turns

variable {settings : Settings} {turn : Nat → TestRun Nat} {request : Nat → Request}

/-- One batch: the turns from `i` on, until it is full or there is no request left. -/
theorem batch_eq (batchSize : ℕ+)
    (turns : ∀ k < settings.totalRequests, turn k = ⟨[.request (request k)], .ok (k + 1)⟩) (i : Nat) :
    forLoop batchSize 1 (fun j => decide (i + j < settings.totalRequests))
        (fun _ requestNumber => turn requestNumber) 0 i =
      ⟨(List.range' i (min (batchSize : Nat) (settings.totalRequests - i))).map fun k =>
          Action.request (request k),
        .ok (i + min (batchSize : Nat) (settings.totalRequests - i))⟩ := by
  have numbers := indices_bounded batchSize i settings.totalRequests 0
  have turnOf : ∀ j ∈ indices batchSize 1 (fun j => decide (i + j < settings.totalRequests)) 0,
      turn (i + j) = ⟨[.request (request (i + j))], .ok (i + (j + (1 : ℕ+)))⟩ := by
    intro j member
    rw [numbers, List.mem_range'_1] at member
    exact turns (i + j) (by omega)
  have loop := forLoop_eq (fun _ requestNumber => turn requestNumber) (fun j => i + j)
    (fun j => [Action.request (request (i + j))]) 0 turnOf
  rw [numbers, List.length_range', PNat.one_coe, Nat.one_mul, Nat.sub_zero, Nat.zero_add,
    ← List.map_eq_flatMap, ← List.range_eq_range'] at loop
  rw [List.range'_eq_map_range, List.map_map]
  exact loop

/-- **The batch modes make their turns in blocks**, where each starts a request and goes on. -/
theorem inBatches_eq (batchSize : ℕ+)
    (turns : ∀ k < settings.totalRequests, turn k = ⟨[.request (request k)], .ok (k + 1)⟩) :
    ∃ last, inBatches settings turn batchSize =
      ⟨((blocks settings.totalRequests batchSize 0).map (List.map request)).flatMap
        fun b => b.map Action.request ++ [.awaitAll, .pause], .ok last⟩ := by
  have turnOf : ∀ i ∈ indices settings.totalRequests batchSize (fun _ => true) 0,
      batch settings turn batchSize i (min i settings.totalRequests) =
        ⟨((List.range' i (min (batchSize : Nat) (settings.totalRequests - i))).map request).map
            Action.request ++ [.awaitAll, .pause],
          .ok (min (i + batchSize) settings.totalRequests)⟩ := by
    intro i member
    have inside : i < settings.totalRequests := by
      exact lt_of_mem_indices member
    have after : i + min (batchSize : Nat) (settings.totalRequests - i) =
        min (i + batchSize) settings.totalRequests := by
      omega
    rw [Nat.min_eq_left (Nat.le_of_lt inside), batch, batch_eq batchSize turns, Run.ok_bind, ← after,
      List.map_map]
    rfl
  have loop := forLoop_eq _ (fun i => min i settings.totalRequests) _ 0 turnOf
  rw [Nat.zero_min] at loop
  rw [blocks, List.map_map, List.flatMap_map]
  exact ⟨_, loop⟩

theorem startsInBatches (batchSize : ℕ+)
    (turns : ∀ k < settings.totalRequests, turn k = ⟨[.request (request k)], .ok (k + 1)⟩) :
    StartsInBatches (inBatches settings turn batchSize >>= fun _ => pure ()) batchSize
      ((List.range settings.totalRequests).map request) := by
  obtain ⟨last, run⟩ := inBatches_eq batchSize turns
  refine ⟨(blocks settings.totalRequests batchSize 0).map (List.map request), ?_, ?_, ?_, ?_⟩
  · rw [run, Run.ok_bind]
    exact congrArg (Run.mk · _) (List.append_nil _)
  · rw [← List.map_flatten, flatten_blocks, Nat.sub_zero, ← List.range_eq_range']
  · rw [← List.map_dropLast, List.forall_mem_map]
    intro b member
    rw [List.length_map]
    exact length_of_mem_dropLast_blocks _ _ _ b member
  · rw [List.getLast?_map]
    intro b last
    obtain ⟨b', last', rfl⟩ := Option.map_eq_some_iff.mp last
    rw [List.length_map]
    exact length_of_mem_blocks (List.mem_of_getLast? last')

theorem startsOneByOne
    (turns : ∀ k < settings.totalRequests, turn k = ⟨[.request (request k)], .ok (k + 1)⟩) :
    StartsOneByOne
      (forLoop settings.totalRequests 1 (fun _ => true)
        (fun _ requestNumber => awaited turn requestNumber) 0 0 >>= fun _ => pure ())
      ((List.range settings.totalRequests).map request) := by
  have turnOf : ∀ k ∈ indices settings.totalRequests 1 (fun _ => true) 0,
      awaited turn k = ⟨[.request (request k), .awaitAll], .ok (k + (1 : ℕ+))⟩ := by
    intro k member
    rw [awaited, turns k (lt_of_mem_indices member)]
    rfl
  have loop := forLoop_eq (fun _ requestNumber => awaited turn requestNumber) (fun k => k)
    (fun k => [Action.request (request k), .awaitAll]) 0 turnOf
  rw [StartsOneByOne, loop, Run.ok_bind, indices_one, Nat.sub_zero, ← List.range_eq_range',
    List.flatMap_map]
  exact congrArg (Run.mk · _) (List.append_nil _)

end Turns

/-! ## The permission tests -/

section Permissions

variable (settings : Settings) (mode : String) (inputs : Inputs)
  (pairs : Nat → List Char × List Char)

/-- The request of the turn after `k` others, where `pairs k` was drawn for it. -/
def permissionRequest (k : Nat) : Request :=
  .hasPermission (pairs k).1 (pairs k).2 (params settings mode inputs (k + 1))

def permissionRequests : List Request :=
  (List.range settings.totalRequests).map (permissionRequest settings mode inputs pairs)

/-- The pairs drawn for the turns. -/
def Drawn : Prop :=
  ∀ k < settings.totalRequests,
    generatePermissionTestData (inputs.files k) (inputs.draws k) = .pair (pairs k).1 (pairs k).2

theorem numbers_permissionRequests :
    (permissionRequests settings mode inputs pairs).map Request.number =
      (List.range' 1 settings.totalRequests).map some := by
  rw [permissionRequests, List.map_map, List.range'_eq_map_range, List.map_map]
  refine List.map_congr_left fun k _ => ?_
  rw [Function.comp_apply, Function.comp_apply, Nat.add_comm 1 k]
  rfl

variable {settings mode inputs pairs}

theorem permissionTurn_eq (drawn : Drawn settings inputs pairs) {k : Nat}
    (inside : k < settings.totalRequests) :
    permissionTurn settings mode inputs k =
      ⟨[.request (permissionRequest settings mode inputs pairs k)], .ok (k + 1)⟩ := by
  rw [permissionTurn, permissionTestData_of_pair (drawn k inside)]
  rfl

theorem batchTurn_eq (drawn : Drawn settings inputs pairs) {k : Nat}
    (inside : k < settings.totalRequests) :
    batchTurn settings mode inputs .hasPermission k =
      ⟨[.request (permissionRequest settings mode inputs pairs k)], .ok (k + 1)⟩ := by
  rw [batchTurn, permissionTestData_of_pair (drawn k inside)]
  rfl

theorem exists_drawn
    (available : ∀ k < settings.totalRequests, DrawsPair (inputs.files k) (inputs.draws k)) :
    ∃ pairs, Drawn settings inputs pairs := by
  have each : ∀ k, ∃ p : List Char × List Char, k < settings.totalRequests →
      generatePermissionTestData (inputs.files k) (inputs.draws k) = .pair p.1 p.2 := by
    intro k
    by_cases inside : k < settings.totalRequests
    · obtain ⟨granter, grantee, found⟩ := generate_pair_iff.mpr (available k inside)
      exact ⟨(granter, grantee), fun _ => found⟩
    · exact ⟨([], []), fun h => absurd h inside⟩
  choose pairs drawn using each
  exact ⟨pairs, drawn⟩

end Permissions

/-- **Batching neither drops nor repeats a request.**  With a pair of accounts for every
turn, both copies of the nested loops come to their end and start the requests with the
numbers from 1 on, in batches; the sequential mode starts the same, one by one. -/
theorem batches_issue_all (settings : Settings) (mode : String) (inputs : Inputs) (batchSize : ℕ+)
    (guarded : 2 ≤ (getUserAccountsFromFile inputs.firstFile).length)
    (available : ∀ k < settings.totalRequests, DrawsPair (inputs.files k) (inputs.draws k)) :
    ∃ pairs, Drawn settings inputs pairs ∧
      StartsInBatches (runBatchTest settings mode inputs batchSize .hasPermission) batchSize
        (permissionRequests settings mode inputs pairs) ∧
      StartsInBatches (runHasPermissionTest settings "batch" inputs) settings.simultaneousRequests
        (permissionRequests settings "batch" inputs pairs) ∧
      StartsOneByOne (runHasPermissionTest settings "sequential" inputs)
        (permissionRequests settings "sequential" inputs pairs) ∧
      ∀ mode, (permissionRequests settings mode inputs pairs).map Request.number =
        (List.range' 1 settings.totalRequests).map some := by
  obtain ⟨pairs, drawn⟩ := exists_drawn available
  refine ⟨pairs, drawn, ?_, ?_, ?_, fun mode => numbers_permissionRequests settings mode inputs pairs⟩
  · exact startsInBatches batchSize fun k inside => batchTurn_eq drawn inside
  · rw [runHasPermissionTest, if_neg (Nat.not_lt.mpr guarded), if_neg (by decide), if_neg (by decide),
      if_pos rfl]
    exact startsInBatches settings.simultaneousRequests fun k inside => permissionTurn_eq drawn inside
  · rw [runHasPermissionTest, if_neg (Nat.not_lt.mpr guarded), if_pos rfl]
    exact startsOneByOne fun k inside => permissionTurn_eq drawn inside

theorem batches_issue_all_twoAccounts :
    ∃ pairs, Drawn ⟨3, 2⟩ twoAccounts pairs ∧
      StartsInBatches (runBatchTest ⟨3, 2⟩ "batch" twoAccounts 2 .hasPermission) 2
        (permissionRequests ⟨3, 2⟩ "batch" twoAccounts pairs) ∧
      StartsInBatches (runHasPermissionTest ⟨3, 2⟩ "batch" twoAccounts) 2
        (permissionRequests ⟨3, 2⟩ "batch" twoAccounts pairs) ∧
      StartsOneByOne (runHasPermissionTest ⟨3, 2⟩ "sequential" twoAccounts)
        (permissionRequests ⟨3, 2⟩ "sequential" twoAccounts pairs) ∧
      ∀ mode, (permissionRequests ⟨3, 2⟩ mode twoAccounts pairs).map Request.number =
        [some 1, some 2, some 3] :=
  batches_issue_all ⟨3, 2⟩ "batch" twoAccounts 2 (by decide) fun _ _ =>
    generate_pair_iff.mp ⟨"5Grw".toList, "5FHn".toList, rfl⟩

end PatientAccess.Stress
