/-
# Graphs.Session -- the plots of a session of the stress test

The stress test numbers its requests, the server logs what they say of themselves, and the
graph maker plots the entries it reads in the log over these numbers, a line for each mode,
total and route.

So a line shows one test: what it joins are requests of one group, with different numbers
between 1 and the total (`session_lines`), whatever became of the requests and in whatever
order they came into the log.  A test that asks only is shown whole, if all its requests
were answered (`query_tests_whole`).
-/
import PatientAccess.Graphs.Table
import PatientAccess.Stress.Session

namespace PatientAccess.Graphs

open PatientAccess.Theory PatientAccess.Theory.Doubles PatientAccess.Stress
open PatientAccess.Log (FinishedRequest display digits)

set_option autoImplicit false

/-! ## Requests on their way -/

def methodOf : Request → String
  | .createUserWithDynamicGas _ => "POST"
  | .getRole _ _ | .hasPermission _ _ _ => "GET"

/-- The request of the stress test, as it came to the server, when it has been finished. -/
structure Carries (wire : Wire) (q : Request) (r : FinishedRequest) : Prop where
  method : r.method = methodOf q
  originalUrl : r.originalUrl = wire.originalUrl q.path q.params?
  body : r.body = q.body
  query : r.query = q.query wire
  requestNumber : r.requestNumber = q.requestNumber wire

/-- The requests that were finished are some of those that were sent, each once. -/
def Finishes (wire : Wire) (qs : List Request) (rs : List FinishedRequest) : Prop :=
  ∃ finished, finished.Subperm qs ∧ List.Forall₂ (Carries wire) finished rs

/-- A plain path arrives as it was written. -/
theorem urlPath_of_carries {wire : Wire} {q : Request} {r : FinishedRequest} (path : PlainPath q.path)
    (carries : Carries wire q r) : r.urlPath = q.path := by
  rw [FinishedRequest.urlPath, carries.originalUrl]
  exact wire.path_plain path q.params?

/-- The route the graph maker files an endpoint under. -/
def routeOf : Endpoint → PyStr
  | .createUserWithDynamicGas => lit "POST /create_user_with_dynamic_gas"
  | .getRole => lit "GET /role/"
  | .hasPermission => lit "GET /has_permission/"

theorem routeOf_injective : Function.Injective routeOf := by
  intro ep ep' same
  cases ep with
  | createUserWithDynamicGas => cases ep' with
    | createUserWithDynamicGas => rfl
    | getRole => exact absurd same (by decide)
    | hasPermission => exact absurd same (by decide)
  | getRole => cases ep' with
    | createUserWithDynamicGas => exact absurd same (by decide)
    | getRole => rfl
    | hasPermission => exact absurd same (by decide)
  | hasPermission => cases ep' with
    | createUserWithDynamicGas => exact absurd same (by decide)
    | getRole => exact absurd same (by decide)
    | hasPermission => rfl

theorem isPrefixOf_append (s t : PyStr) : s.isPrefixOf (s ++ t) = true :=
  List.isPrefixOf_iff_prefix.mpr (List.prefix_append s t)

/-- A text that starts otherwise. -/
theorem isPrefixOf_append_of_not {s s' : PyStr} (short : s.length ≤ s'.length) (other : ¬ s <+: s')
    (t : PyStr) : s.isPrefixOf (s' ++ t) = false := by
  rw [Bool.eq_false_iff]
  intro here
  have both := List.isPrefixOf_iff_prefix.mp here
  exact other (List.prefix_of_prefix_length_le both (List.prefix_append s' t) short)

theorem getBaseRoute_get (route : PyStr) :
    getBaseRoute (lit "GET " ++ route) =
      if (lit "/role/").isPrefixOf route then lit "GET /role/"
      else if (lit "/has_permission/").isPrefixOf route then lit "GET /has_permission/"
      else if (lit "/create_user_with_dynamic_gas").isPrefixOf route then
        lit "POST /create_user_with_dynamic_gas"
      else route := by
  rw [getBaseRoute, if_pos (isPrefixOf_append _ _), List.drop_left]

/-- A route of the stress test is filed under its endpoint, whatever the accounts. -/
theorem getBaseRoute_of_carries {wire : Wire} {q : Request} {r : FinishedRequest}
    (path : PlainPath q.path) (carries : Carries wire q r) :
    getBaseRoute (py r.route) = routeOf q.endpoint := by
  have append : ∀ s t : List Char, py (s ++ t) = py s ++ py t := fun s t => List.map_append
  rw [FinishedRequest.route, carries.method, urlPath_of_carries path carries]
  cases q with
  | createUserWithDynamicGas body =>
      have route : py ("POST".toList ++ ' ' :: "/create_user_with_dynamic_gas".toList) =
          lit "POST /create_user_with_dynamic_gas" := by decide
      refine (congrArg getBaseRoute route).trans ?_
      show getBaseRoute (lit "POST /create_user_with_dynamic_gas") =
        lit "POST /create_user_with_dynamic_gas"
      decide
  | getRole publicAddress params =>
      have route : py ("GET".toList ++ ' ' :: ("/role/".toList ++ publicAddress)) =
          lit "GET " ++ (lit "/role/" ++ py publicAddress) := by
        rw [← List.singleton_append, ← List.append_assoc, append, append "/role/".toList]
        rfl
      refine (congrArg getBaseRoute route).trans ?_
      rw [getBaseRoute_get, if_pos (isPrefixOf_append _ _)]
      rfl
  | hasPermission granter grantee params =>
      have route : py ("GET".toList ++ ' ' :: ("/has_permission/".toList ++ granter ++ '/' :: grantee)) =
          lit "GET " ++ (lit "/has_permission/" ++ py (granter ++ '/' :: grantee)) := by
        rw [← List.singleton_append, ← List.append_assoc, List.append_assoc "/has_permission/".toList,
          append, append "/has_permission/".toList]
        rfl
      have other : (lit "/role/").isPrefixOf
          (lit "/has_permission/" ++ py (granter ++ '/' :: grantee)) = false :=
        isPrefixOf_append_of_not (by decide) (by decide) _
      refine (congrArg getBaseRoute route).trans ?_
      rw [getBaseRoute_get, if_neg (by simp [other]), if_pos (isPrefixOf_append _ _)]
      rfl

/-! ## Plain requests -/

/-- A text that comes out of a log as it went in. -/
structure PlainText (s : String) : Prop where
  given : s ≠ ""
  stripped : Log.strip s.toList = s.toList
  quiet : Log.Quiet s.toList

theorem range_of_isAlphanum {c : Char} (plain : c.isAlphanum = true) : 48 ≤ c.toNat ∧ c.toNat ≤ 122 := by
  have cases : (decide (c.val ≥ 'A'.val ∧ c.val ≤ 'Z'.val) || (c.val ≥ 'a'.val && c.val ≤ 'z'.val) ||
      (c.val ≥ '0'.val && c.val ≤ '9'.val)) = true := plain
  simp only [Bool.or_eq_true, Bool.and_eq_true, decide_eq_true_eq, ge_iff_le,
    UInt32.le_iff_toNat_le] at cases
  have same : c.toNat = c.val.toNat := rfl
  simp at cases
  omega

/-- The characters of the paths. -/
theorem range_of_mem_path {path : List Char} (plain : PlainPath path) {c : Char} (member : c ∈ path) :
    47 ≤ c.toNat ∧ c.toNat ≤ 122 := by
  rcases plain.plain c member with letter | rfl | rfl
  · have range := range_of_isAlphanum letter
    omega
  · decide
  · decide

theorem isSpace_of_range {c : Char} (range : 47 ≤ c.toNat ∧ c.toNat ≤ 122) : Log.isSpace c = false := by
  simp [Log.isSpace]
  omega

theorem path_ne_nil (q : Request) : q.path ≠ [] := by
  cases q with
  | createUserWithDynamicGas body =>
      show "/create_user_with_dynamic_gas".toList ≠ []
      decide
  | getRole publicAddress params => exact List.cons_ne_nil _ _
  | hasPermission granter grantee params => exact List.cons_ne_nil _ _

section Plain

variable {wire : Wire} {ep : Endpoint} {mode : String} {inputs : Inputs} {total number : Nat}
  {q : Request} {r : FinishedRequest}

theorem isText_text {s : String} (plain : PlainText s) : IsText (Log.text s) :=
  isText_chars plain.stripped plain.quiet

theorem isCount_of_shows {n : Nat} {v : Json} (shows : Shows n v) : IsCount v := by
  rcases shows with rfl | rfl
  · exact .inr ⟨n, rfl⟩
  · exact .inl (isText_chars (strip_of_noSpace (noSpace_digits n)) (Log.quiet_digits n))

theorem groupID_of_carries (carries : Carries wire q r) : r.groupID = q.groupID wire := by
  rw [FinishedRequest.groupID, carries.body, carries.query]
  rfl

theorem totalTransactions_of_carries (carries : Carries wire q r) :
    r.totalTransactions = q.totalTransactions wire := by
  rw [FinishedRequest.totalTransactions, carries.body, carries.query]
  rfl

theorem testType_of_carries (carries : Carries wire q r) : r.testType = q.testType wire := by
  rw [FinishedRequest.testType, carries.body, carries.query]
  rfl

theorem loggedNumber_of_carries (carries : Carries wire q r) :
    r.loggedNumber = q.requestNumber wire := by
  rw [FinishedRequest.loggedNumber, carries.requestNumber]
  exact firstTruthy_cons (truthy_firstTruthy _) _

/-- The path of a request of a test. -/
theorem plainPath_of_isRequest (isRequest : IsRequest wire ep mode inputs total number q)
    (plain : inputs.PlainAccounts) : PlainPath q.path :=
  plainPath_of_accounts fun account here => plain account (isRequest.accounts account here)

/-- A request of a test is plain, if its test and its accounts are. -/
theorem plain_of_carries (isRequest : IsRequest wire ep mode inputs total number q)
    (carries : Carries wire q r) (group : PlainText inputs.groupID) (test : PlainText mode)
    (accounts : inputs.PlainAccounts) : Plain r := by
  have urlPath := urlPath_of_carries (plainPath_of_isRequest isRequest accounts) carries
  have range : ∀ c ∈ r.urlPath, 47 ≤ c.toNat ∧ c.toNat ≤ 122 := by
    intro c member
    rw [urlPath] at member
    exact range_of_mem_path (plainPath_of_isRequest isRequest accounts) member
  refine ⟨?_, ?_, ?_, ?_, ?_, ?_⟩
  · rw [groupID_of_carries carries, isRequest.groupID]
    exact isText_text group
  · rw [testType_of_carries carries, isRequest.testType]
    exact isText_text test
  · rw [loggedNumber_of_carries carries]
    exact isCount_of_shows isRequest.requestNumber
  · rw [totalTransactions_of_carries carries]
    exact isCount_of_shows isRequest.totalTransactions
  · -- the method is at one end of the route, and the path at the other
    have nonempty : r.urlPath ≠ [] := urlPath ▸ path_ne_nil q
    have method : ∃ c rest, r.method.toList = c :: rest ∧ Log.isSpace c = false := by
      rw [carries.method]
      cases q with
      | createUserWithDynamicGas body =>
          have post : "POST".toList = 'P' :: "OST".toList := by decide
          exact ⟨'P', _, post, by decide⟩
      | getRole _ _ | hasPermission _ _ _ =>
          have get : "GET".toList = 'G' :: "ET".toList := by decide
          exact ⟨'G', _, get, by decide⟩
    obtain ⟨c, rest, starts, notBlank⟩ := method
    have last : r.route.getLast? = some (r.urlPath.getLast nonempty) := by
      rw [FinishedRequest.route, List.getLast?_append, List.getLast?_cons,
        List.getLast?_eq_some_getLast nonempty]
      rfl
    refine Text.trim_eq_self ?_ last notBlank (isSpace_of_range (range _ (List.getLast_mem nonempty)))
    rw [FinishedRequest.route, starts]
    rfl
  · have missing : ∀ c : Char, c.toNat < 47 → c ∉ r.urlPath := by
      intro c small member
      have above := (range c member).1
      omega
    refine Log.quiet_of_count (missing '\n' (by decide)) (missing '\r' (by decide)) ?_
    rw [List.count_eq_zero.mpr (missing '-' (by decide))]
    omega

end Plain

/-! ## Entries of tests -/

section Entries

variable {T : Type} (p : Python T)

/-- The entry of the request `number` of a test. -/
structure IsEntry (ep : Endpoint) (mode : String) (inputs : Inputs) (total number : Nat)
    (e : ParsedEntry T) : Prop where
  groupID : e.groupID = .str (lit inputs.groupID)
  requestNumber : e.requestNumber = number
  totalTransactions : e.totalTransactions = total
  testType : e.testType = p.lower (lit mode)
  route : e.route = routeOf ep

variable {p} {wire : Wire} {ep : Endpoint} {mode : String} {inputs : Inputs} {total number : Nat}
  {q : Request} {r : FinishedRequest} {e : ParsedEntry T}

/-- What of a request is shown as it is. -/
theorem parsedOf_eq_some (parsed : parsedOf p r = some e) :
    e.groupID = .str (py (display r.groupID)) ∧
      countOf (display r.loggedNumber) = some e.requestNumber ∧
      countOf (display r.totalTransactions) = some e.totalTransactions ∧
      e.testType = p.lower (py (display r.testType)) ∧ e.route = getBaseRoute (py r.route) := by
  unfold parsedOf at parsed
  split at parsed
  · obtain ⟨time, -, parsed⟩ := Option.bind_eq_some_iff.mp parsed
    obtain ⟨requestNumber, number, parsed⟩ := Option.bind_eq_some_iff.mp parsed
    obtain ⟨totalTransactions, total, parsed⟩ := Option.bind_eq_some_iff.mp parsed
    cases parsed
    exact ⟨rfl, number, total, rfl, rfl⟩
  · cases parsed

/-- A request of a test is parsed to its entry, if it is parsed. -/
theorem isEntry_of_parsed (isRequest : IsRequest wire ep mode inputs total number q)
    (carries : Carries wire q r) (plain : inputs.PlainAccounts) (parsed : parsedOf p r = some e) :
    IsEntry p ep mode inputs total number e := by
  obtain ⟨groupID, requestNumber, totalTransactions, testType, route⟩ := parsedOf_eq_some parsed
  rw [groupID_of_carries carries, isRequest.groupID, display_text] at groupID
  rw [loggedNumber_of_carries carries, isRequest.requestNumber.display, countOf_digits] at requestNumber
  rw [totalTransactions_of_carries carries, isRequest.totalTransactions.display,
    countOf_digits] at totalTransactions
  rw [testType_of_carries carries, isRequest.testType, display_text] at testType
  rw [getBaseRoute_of_carries (plainPath_of_isRequest isRequest plain) carries,
    isRequest.endpoint] at route
  exact ⟨groupID, (Option.some.inj requestNumber).symm, (Option.some.inj totalTransactions).symm,
    testType, route⟩

/-- A query is parsed in any case. -/
theorem exists_parsed (isRequest : IsRequest wire ep mode inputs total number q)
    (carries : Carries wire q r) (query : ep ≠ .createUserWithDynamicGas) (date : HasDate p r) :
    ∃ e, parsedOf p r = some e := by
  have get : r.method = "GET" := by
    rw [carries.method]
    cases q with
    | createUserWithDynamicGas body => exact absurd isRequest.endpoint.symm query
    | getRole _ _ | hasPermission _ _ _ => rfl
  obtain ⟨time, read⟩ := Option.isSome_iff_exists.mp date
  have requestNumber : countOf (display r.loggedNumber) = some (number : Int) := by
    rw [loggedNumber_of_carries carries, isRequest.requestNumber.display, countOf_digits]
  have totalTransactions : countOf (display r.totalTransactions) = some (total : Int) := by
    rw [totalTransactions_of_carries carries, isRequest.totalTransactions.display, countOf_digits]
  rw [parsedOf, if_pos (.inr get), read, requestNumber, totalTransactions]
  exact ⟨_, rfl⟩

end Entries

/-- What is read of some items is read, in order, of those they came from. -/
theorem sublist_of_forall₂ {α β γ κ : Type*} {R : α → β → Prop} {g : β → Option γ} {f : α → κ}
    {k : γ → κ} {as : List α} {bs : List β} (related : List.Forall₂ R as bs)
    (reads : ∀ a b c, R a b → g b = some c → k c = f a) : ((bs.filterMap g).map k).Sublist (as.map f) := by
  induction related with
  | nil => exact List.Sublist.slnil
  | @cons a b as bs first _ ih =>
      rw [List.map_cons]
      cases read : g b with
      | none =>
          rw [List.filterMap_cons_none read]
          exact ih.cons _
      | some c =>
          rw [List.filterMap_cons_some read, List.map_cons, reads a b c first read]
          exact ih.cons_cons _

/-! ## Lines -/

/-- The points of a line have different numbers between 1 and the total, and the entries
they stand for are of one group. -/
structure OneTest {T : Type} (data : List (ParsedEntry T)) (series : Series) : Prop where
  nodup : (series.points.map Prod.fst).Nodup
  bounds : ∀ x ∈ series.points.map Prod.fst, 1 ≤ x ∧ x ≤ series.totalTransactions
  group : ∃ group, ∀ entry ∈ data, entry.label = series.label → entry.groupID = group

/-- Which request of a session an entry is of. -/
def ParsedEntry.place {T : Type} (entry : ParsedEntry T) : PyStr × PyStr × Int :=
  (entry.route, entry.testType, entry.requestNumber)

section Lines

variable {T : Type} (p : Python T) (settings : Settings) (inputs : Nat → Inputs) (console : Console)

/-- Data of a session: every entry is of a request of one of its tests, none of the same. -/
structure SessionData (data : List (ParsedEntry T)) : Prop where
  entries : ∀ e ∈ data, ∃ t ∈ console.tests.zipIdx, ∃ n, 1 ≤ n ∧
    n ≤ planned settings t.1.2 (inputs t.2) t.1.1 ∧
    IsEntry p t.1.1 t.1.2 (inputs t.2) (planned settings t.1.2 (inputs t.2) t.1.1) n e
  nodup : (data.map ParsedEntry.place).Nodup

variable {p settings inputs console} {data : List (ParsedEntry T)} {wire : Wire}

/-- The modes of a session have their names in lower case. -/
theorem lower_injOn (lower : ∀ mode ∈ ["sequential", "concurrent", "batch"], p.lower (lit mode) = lit mode)
    {mode mode' : String} (isMode : mode ∈ console.modes) (isMode' : mode' ∈ console.modes)
    (same : p.lower (lit mode) = p.lower (lit mode')) : mode = mode' := by
  unfold Console.modes at isMode isMode'
  split at isMode
  · next allTests =>
    rw [if_pos allTests] at isMode'
    rw [lower mode isMode, lower mode' isMode'] at same
    exact String.toList_inj.mp (py_injective same)
  · next single =>
    rw [if_neg single] at isMode'
    rw [List.mem_singleton.mp isMode, List.mem_singleton.mp isMode']

/-- Route and mode tell the tests of a session apart. -/
theorem test_eq (lower : ∀ mode ∈ ["sequential", "concurrent", "batch"], p.lower (lit mode) = lit mode)
    {t t' : (Endpoint × String) × Nat} (isTest : t ∈ console.tests.zipIdx)
    (isTest' : t' ∈ console.tests.zipIdx) (route : routeOf t.1.1 = routeOf t'.1.1)
    (mode : p.lower (lit t.1.2) = p.lower (lit t'.1.2)) : t = t' := by
  have inModes := (mode_of_mem_tests (List.fst_mem_of_mem_zipIdx isTest)).1
  have inModes' := (mode_of_mem_tests (List.fst_mem_of_mem_zipIdx isTest')).1
  have same : t.1 = t'.1 := Prod.ext (routeOf_injective route) (lower_injOn lower inModes inModes' mode)
  have here := List.mem_zipIdx_iff_getElem?.mp isTest
  have here' := List.mem_zipIdx_iff_getElem?.mp isTest'
  rw [same, ← here'] at here
  have inside := (List.getElem?_eq_some_iff.mp (here.trans here')).1
  exact Prod.ext same ((List.getElem?_inj inside (nodup_tests console)).mp here)

/-- A request that was finished is one of a test, with its number. -/
theorem exists_request (groups : ∀ k, (inputs k).groupID ≠ "") (plain : ∀ k, (inputs k).PlainAccounts)
    {rs : List FinishedRequest}
    (finishes : Finishes wire (requestsOf (main settings console inputs).actions) rs)
    {r : FinishedRequest} (member : r ∈ rs) :
    ∃ q, Carries wire q r ∧ ∃ t ∈ console.tests.zipIdx, ∃ n, 1 ≤ n ∧
      n ≤ planned settings t.1.2 (inputs t.2) t.1.1 ∧ IsRequestOf settings inputs wire t n q := by
  obtain ⟨finished, some, carried⟩ := finishes
  obtain ⟨m, requests⟩ := exists_requests settings inputs console
  rw [requests] at some
  obtain ⟨i, inside, rfl⟩ := List.getElem_of_mem member
  have inside' : i < finished.length := by rwa [carried.length_eq]
  exact ⟨finished[i], (List.forall₂_iff_get.mp carried).2 i inside' inside,
    exists_of_mem_requests settings wire console groups plain
      (some.subset (List.getElem_mem inside'))⟩

/-- What is parsed of the requests of a session that were finished. -/
theorem sessionData_dataOf
    (lower : ∀ mode ∈ ["sequential", "concurrent", "batch"], p.lower (lit mode) = lit mode)
    (groups : ∀ k, (inputs k).groupID ≠ "") (plain : ∀ k, (inputs k).PlainAccounts)
    {rs : List FinishedRequest}
    (finishes : Finishes wire (requestsOf (main settings console inputs).actions) rs) :
    SessionData p settings inputs console (dataOf p rs) := by
  constructor
  · intro e member
    obtain ⟨r, isFinished, parsed⟩ := List.mem_filterMap.mp member
    obtain ⟨q, carries, t, isTest, n, low, high, isRequest⟩ :=
      exists_request groups plain finishes isFinished
    exact ⟨t, isTest, n, low, high, isEntry_of_parsed isRequest carries (plain t.2) parsed⟩
  · obtain ⟨finished, some, carried⟩ := finishes
    obtain ⟨m, requests⟩ := exists_requests settings inputs console
    rw [requests] at some
    have paths : ∀ q ∈ finished, PlainPath q.path := by
      intro q member
      obtain ⟨t, -, n, -, -, isRequest⟩ :=
        exists_of_mem_requests settings wire console groups plain (some.subset member)
      exact plainPath_of_isRequest isRequest (plain t.2)
    obtain ⟨counts, keys⟩ := exists_map_requests settings wire console groups plain m
      (fun q => (routeOf q.endpoint, p.lower (py (display (q.testType wire))),
        (countOf (display (q.requestNumber wire))).getD 0))
      (fun t n => (routeOf t.1.1, p.lower (lit t.1.2), (n : Int))) fun t _ n q isRequest => by
        rw [isRequest.endpoint, isRequest.testType, display_text, isRequest.requestNumber.display,
          countOf_digits]
        rfl
    have sub : ((dataOf p rs).map ParsedEntry.place).Sublist (finished.map fun q =>
        (routeOf q.endpoint, p.lower (py (display (q.testType wire))),
          (countOf (display (q.requestNumber wire))).getD 0)) := by
      refine sublist_of_forall₂ ((List.forall₂_and_left _ _).mpr ⟨paths, carried⟩) ?_
      rintro q r e ⟨path, carries⟩ parsed
      obtain ⟨-, requestNumber, -, testType, route⟩ := parsedOf_eq_some parsed
      rw [loggedNumber_of_carries carries] at requestNumber
      rw [testType_of_carries carries] at testType
      rw [getBaseRoute_of_carries path carries] at route
      rw [ParsedEntry.place, route, testType, requestNumber]
      rfl
    refine List.Nodup.sublist sub ?_
    obtain ⟨l, same, inOrder⟩ := some
    refine (same.map _).nodup_iff.mp (List.Nodup.sublist (inOrder.map _) ?_)
    rw [keys]
    refine nodup_numbered ((nodup_zipIdx _).sublist (List.take_sublist _ _)) counts ?_
    intro t member t' member' n n' equal
    obtain ⟨route, rest⟩ := Prod.mk.inj equal
    obtain ⟨mode, number⟩ := Prod.mk.inj rest
    exact ⟨test_eq lower (List.mem_of_mem_take member) (List.mem_of_mem_take member') route mode,
      Int.ofNat_inj.mp number⟩

/-- A line of such data shows one test. -/
theorem SessionData.oneTest
    (lower : ∀ mode ∈ ["sequential", "concurrent", "batch"], p.lower (lit mode) = lit mode)
    (session : SessionData p settings inputs console data) (sets : SetOrder) (metric : Metric)
    {series : Series} (member : series ∈ (transactionPlots sets data metric).flatten) :
    OneTest data series := by
  obtain ⟨plot, isPlot, inPlot⟩ := List.mem_flatten.mp member
  obtain ⟨route, -, rfl⟩ := List.mem_map.mp isPlot
  have numbers : series.points.map Prod.fst =
      (data.filter fun entry => entry.label = series.label).map ParsedEntry.requestNumber := by
    rw [points_of_mem data metric inPlot, List.map_map]
    rfl
  have labelled : ∀ entry ∈ data.filter fun entry => entry.label = series.label,
      entry ∈ data ∧ entry.label = series.label := by
    intro entry inFilter
    obtain ⟨inData, same⟩ := List.mem_filter.mp inFilter
    exact ⟨inData, of_decide_eq_true same⟩
  refine ⟨?_, ?_, ?_⟩
  · rw [numbers]
    refine List.Nodup.of_map (fun number => (series.route, series.testType, number)) ?_
    have places : ((data.filter fun entry => entry.label = series.label).map
        ParsedEntry.requestNumber).map (fun number => (series.route, series.testType, number)) =
        (data.filter fun entry => entry.label = series.label).map ParsedEntry.place := by
      rw [List.map_map]
      refine List.map_congr_left fun entry inFilter => ?_
      obtain ⟨testType, rest⟩ := Prod.mk.inj (labelled entry inFilter).2
      rw [Function.comp_apply, ← testType, ← (Prod.mk.inj rest).2]
      rfl
    rw [places]
    exact session.nodup.sublist ((List.filter_sublist).map _)
  · intro x isNumber
    rw [numbers] at isNumber
    obtain ⟨entry, inFilter, rfl⟩ := List.mem_map.mp isNumber
    obtain ⟨inData, same⟩ := labelled entry inFilter
    obtain ⟨t, -, n, low, high, isEntry⟩ := session.entries entry inData
    have total : entry.totalTransactions = series.totalTransactions :=
      (Prod.mk.inj (Prod.mk.inj same).2).1
    rw [← total, isEntry.requestNumber, isEntry.totalTransactions]
    omega
  · obtain ⟨first, inData, -, label⟩ := (mem_label_plot data metric).mp (List.mem_map_of_mem inPlot)
    obtain ⟨t, isTest, n, -, -, isEntry⟩ := session.entries first inData
    refine ⟨first.groupID, fun entry inData' label' => ?_⟩
    obtain ⟨t', isTest', n', -, -, isEntry'⟩ := session.entries entry inData'
    have same : entry.label = first.label := label'.trans label.symm
    obtain ⟨testType, rest⟩ := Prod.mk.inj same
    have route := (Prod.mk.inj rest).2
    rw [isEntry'.testType, isEntry.testType] at testType
    rw [isEntry'.route, isEntry.route] at route
    rw [isEntry'.groupID, isEntry.groupID, test_eq lower isTest' isTest route testType]

end Lines

/-- Groups, modes and accounts of a session are written plainly. -/
structure PlainSession (console : Console) (inputs : Nat → Inputs) : Prop where
  groups : ∀ k, PlainText (inputs k).groupID
  modes : ∀ mode ∈ console.modes, PlainText mode
  accounts : ∀ k, (inputs k).PlainAccounts

section Logs

variable {T : Type} (p : Python T)
  (lower : ∀ mode ∈ ["sequential", "concurrent", "batch"], p.lower (lit mode) = lit mode)
  (settings : Settings) {inputs : Nat → Inputs} {console : Console} (wire : Wire)
  (plain : PlainSession console inputs) {rs : List FinishedRequest}
include lower plain

omit lower in
theorem plain_of_finishes
    (finishes : Finishes wire (requestsOf (main settings console inputs).actions) rs) :
    ∀ r ∈ rs, Plain r := by
  intro r member
  obtain ⟨q, carries, t, isTest, n, -, -, isRequest⟩ :=
    exists_request (fun k => (plain.groups k).given) plain.accounts finishes member
  have inModes := (mode_of_mem_tests (List.fst_mem_of_mem_zipIdx isTest)).1
  exact plain_of_carries isRequest carries (plain.groups t.2) (plain.modes _ inModes)
    (plain.accounts t.2)

/-- **A line shows one test.**  A plainly written session of the stress test sends its
requests, some of them are finished, and the text log has just these, in the order of their
appends, whichever that is.  Then in the plots made of it every line joins requests of one
group, with different numbers between 1 and the total it names. -/
theorem session_lines
    (finishes : Finishes wire (requestsOf (main settings console inputs).actions) rs) :
    ∃ data, (readData "text" (Log.textLog rs)).map (parseData p) = some data ∧
      ∀ (sets : SetOrder) (metric : Metric),
        ∀ series ∈ (transactionPlots sets data metric).flatten, OneTest data series := by
  have session : SessionData p settings inputs console (dataOf p rs) :=
    sessionData_dataOf lower (fun k => (plain.groups k).given) plain.accounts finishes
  exact ⟨_, parseData_text p (plain_of_finishes settings wire plain finishes),
    fun sets metric series member => session.oneTest lower sets metric member⟩

omit lower in
/-- The entries of a query test that came to its end, when all requests are finished. -/
theorem exists_entry (ended : (main settings console inputs).ending = .ok ())
    (finishes : ∃ finished, finished.Perm (requestsOf (main settings console inputs).actions) ∧
      List.Forall₂ (Carries wire) finished rs)
    (dates : ∀ r ∈ rs, HasDate p r) {t : (Endpoint × String) × Nat} (isTest : t ∈ console.tests.zipIdx)
    (query : t.1.1 ≠ .createUserWithDynamicGas) (whole : (testAt settings inputs t).ending = .ok ())
    {n : Nat} (low : 1 ≤ n) (high : n ≤ planned settings t.1.2 (inputs t.2) t.1.1) :
    ∃ e ∈ dataOf p rs, IsEntry p t.1.1 t.1.2 (inputs t.2)
      (planned settings t.1.2 (inputs t.2) t.1.1) n e := by
  have groups : ∀ k, (inputs k).groupID ≠ "" := fun k => (plain.groups k).given
  have sent : Sent (IsRequestOf settings inputs wire t) (planned settings t.1.2 (inputs t.2) t.1.1)
      (planned settings t.1.2 (inputs t.2) t.1.1) (testAt settings inputs t).actions := by
    have numbered := numbered_testAt settings wire console groups plain.accounts isTest
    rwa [Numbered, Run.Satisfies, whole] at numbered
  have all : requestsOf (main settings console inputs).actions =
      requestsOfTests settings inputs console.tests console.tests.length := by
    have requests := main_requests settings inputs console
    rwa [Run.Satisfies, ended] at requests
  have size := sent.2.length_eq
  rw [List.length_range'] at size
  have inside : n - 1 < (requestsOf (testAt settings inputs t).actions).length := by omega
  have isRequest := (List.forall₂_iff_get.mp sent.2).2 (n - 1) (by rw [List.length_range']; omega) inside
  have number : 1 + (n - 1) = n := by omega
  simp only [List.get_eq_getElem, List.getElem_range', Nat.one_mul, number] at isRequest
  obtain ⟨finished, same, carried⟩ := finishes
  have isFinished : (requestsOf (testAt settings inputs t).actions)[n - 1] ∈ finished := by
    refine same.symm.subset ?_
    rw [all]
    refine List.mem_flatMap.mpr ⟨t, ?_, List.getElem_mem inside⟩
    rwa [List.take_of_length_le (by rw [List.length_zipIdx])]
  obtain ⟨i, at_, isRequest'⟩ := List.getElem_of_mem isFinished
  have at' : i < rs.length := by rwa [← carried.length_eq]
  have carries : Carries wire finished[i] rs[i] := (List.forall₂_iff_get.mp carried).2 i at_ at'
  rw [isRequest'] at carries
  obtain ⟨e, parsed⟩ := exists_parsed isRequest carries query (dates _ (List.getElem_mem at'))
  exact ⟨e, List.mem_filterMap.mpr ⟨_, List.getElem_mem at', parsed⟩,
    isEntry_of_parsed isRequest carries (plain.accounts t.2) parsed⟩

/-- A test is shown whole: its line has each of its numbers once. -/
def ShownWhole (data : List (ParsedEntry T)) (sets : SetOrder) (metric : Metric)
    (t : (Endpoint × String) × Nat) (total : Nat) : Prop :=
  ∃ series ∈ (transactionPlots sets data metric).flatten,
    series.label = (p.lower (lit t.1.2), (total : Int), routeOf t.1.1) ∧
      (series.points.map Prod.fst).Perm ((List.range' 1 total).map Int.ofNat)

omit plain in
/-- Data with an entry for each number of a test show the test whole. -/
theorem shownWhole {data : List (ParsedEntry T)} (session : SessionData p settings inputs console data)
    (sets : SetOrder) (metric : Metric) {t : (Endpoint × String) × Nat} {total : Nat} (some : total ≠ 0)
    (entries : ∀ n, 1 ≤ n → n ≤ total → ∃ e ∈ data, IsEntry p t.1.1 t.1.2 (inputs t.2) total n e) :
    ShownWhole p data sets metric t total := by
  have label : ∀ {n e}, IsEntry p t.1.1 t.1.2 (inputs t.2) total n e →
      e.label = (p.lower (lit t.1.2), (total : Int), routeOf t.1.1) := by
    intro n e isEntry
    rw [ParsedEntry.label, isEntry.testType, isEntry.totalTransactions, isEntry.route]
  obtain ⟨first, inData, isFirst⟩ := entries 1 (le_refl 1) (Nat.one_le_iff_ne_zero.mpr some)
  have labels : (p.lower (lit t.1.2), (total : Int), routeOf t.1.1) ∈
      (plotMetricVsTransaction (data.filter fun entry => entry.route = routeOf t.1.1) metric).map
        Series.label :=
    (mem_label_plot data metric).mpr ⟨first, inData, isFirst.route, label isFirst⟩
  obtain ⟨series, inPlot, isLabel⟩ := List.mem_map.mp labels
  have member : series ∈ (transactionPlots sets data metric).flatten := by
    refine List.mem_flatten.mpr ⟨_, List.mem_map.mpr ⟨routeOf t.1.1, ?_, rfl⟩, inPlot⟩
    exact (sets.mem _ _).mpr (List.mem_map.mpr ⟨first, inData, isFirst.route⟩)
  obtain ⟨nodup, bounds, -⟩ := session.oneTest lower sets metric member
  have isTotal : series.totalTransactions = total := (Prod.mk.inj (Prod.mk.inj isLabel).2).1
  refine ⟨series, member, isLabel, ?_⟩
  have numbers : ((List.range' 1 total).map Int.ofNat).Nodup :=
    List.Nodup.map Int.ofNat_injective List.nodup_range'
  refine (List.perm_ext_iff_of_nodup nodup numbers).mpr fun x => ?_
  constructor
  · intro isNumber
    obtain ⟨low, high⟩ := bounds x isNumber
    rw [isTotal] at high
    refine List.mem_map.mpr ⟨x.toNat, List.mem_range'_1.mpr (by omega), Int.toNat_of_nonneg (by omega)⟩
  · intro isNumber
    obtain ⟨n, inRange, rfl⟩ := List.mem_map.mp isNumber
    obtain ⟨low, high⟩ := List.mem_range'_1.mp inRange
    obtain ⟨e, inData', isEntry⟩ := entries n low (by omega)
    rw [points_of_mem data metric inPlot, List.map_map]
    refine List.mem_map.mpr ⟨e, List.mem_filter.mpr ⟨inData', decide_eq_true ?_⟩, ?_⟩
    · rw [label isEntry, isLabel]
    · exact isEntry.requestNumber

/-- **A test that asks is shown whole.**  A plainly written session comes to its end, all its
requests are finished, with dates that can be parsed, and the text log has just these, in
the order of their appends.  Then it gives, for each query test that came to its end, a line
with each of the numbers from 1 to its total once. -/
theorem query_tests_whole (ended : (main settings console inputs).ending = .ok ())
    (finishes : ∃ finished, finished.Perm (requestsOf (main settings console inputs).actions) ∧
      List.Forall₂ (Carries wire) finished rs)
    (dates : ∀ r ∈ rs, HasDate p r) :
    ∃ data, (readData "text" (Log.textLog rs)).map (parseData p) = some data ∧
      ∀ t ∈ console.tests.zipIdx, t.1.1 ≠ .createUserWithDynamicGas →
        (testAt settings inputs t).ending = .ok () →
        planned settings t.1.2 (inputs t.2) t.1.1 ≠ 0 →
        ∀ (sets : SetOrder) (metric : Metric),
          ShownWhole p data sets metric t (planned settings t.1.2 (inputs t.2) t.1.1) := by
  have some : Finishes wire (requestsOf (main settings console inputs).actions) rs :=
    finishes.imp fun finished all => ⟨all.1.subperm, all.2⟩
  have session : SessionData p settings inputs console (dataOf p rs) :=
    sessionData_dataOf lower (fun k => (plain.groups k).given) plain.accounts some
  refine ⟨_, parseData_text p (plain_of_finishes settings wire plain some), ?_⟩
  intro t isTest query whole nonzero sets metric
  exact shownWhole p lower settings session sets metric nonzero fun n low high =>
    exists_entry p settings wire plain ended finishes dates isTest query whole low high

end Logs

/-! ### A session -/

/-- The roles of two accounts are asked for. -/
def askRoles : Console := ⟨false, "sequential", by decide, "2"⟩

def rolesAsked : List Request :=
  [.getRole "5Grw".toList ⟨"9b1d", 1, 2, "sequential"⟩,
    .getRole "5FHn".toList ⟨"9b1d", 2, 2, "sequential"⟩]

theorem main_askRoles :
    (main ⟨50, 10⟩ askRoles fun _ => twoAccounts).ending = .ok () ∧
      requestsOf (main ⟨50, 10⟩ askRoles fun _ => twoAccounts).actions = rolesAsked := ⟨rfl, rfl⟩

/-- The request for a role, finished. -/
def answered (account : String) (params : Params) : FinishedRequest :=
  { Log.roleRequest params.requestNumber account with
    originalUrl := "/role/".toList ++ account.toList ++ params.text
    query := params.query
    requestNumber := Log.chars (digits params.requestNumber) }

/-- The entry of the second request was appended first. -/
def rolesAnswered : List FinishedRequest :=
  [answered "5FHn" ⟨"9b1d", 2, 2, "sequential"⟩, answered "5Grw" ⟨"9b1d", 1, 2, "sequential"⟩]

theorem carries_roles : List.Forall₂ (Carries plainWire) rolesAsked.reverse rolesAnswered :=
  .cons ⟨rfl, by decide, rfl, rfl, rfl⟩ (.cons ⟨rfl, by decide, rfl, rfl, rfl⟩ .nil)

theorem finishes_askRoles :
    ∃ finished, finished.Perm (requestsOf (main ⟨50, 10⟩ askRoles fun _ => twoAccounts).actions) ∧
      List.Forall₂ (Carries plainWire) finished rolesAnswered := by
  refine ⟨rolesAsked.reverse, ?_, carries_roles⟩
  rw [main_askRoles.2]
  exact List.reverse_perm _

theorem plainSession_askRoles : PlainSession askRoles fun _ => twoAccounts where
  groups _ := ⟨by decide, by decide, by decide, by decide, by decide⟩
  modes mode member := by
    rw [List.mem_singleton.mp member]
    exact ⟨by decide, by decide, by decide, by decide, by decide⟩
  accounts _ := ownGroup_plain 0

theorem asciiPython_lower :
    ∀ mode ∈ ["sequential", "concurrent", "batch"], asciiPython.lower (lit mode) = lit mode := by
  decide

theorem session_lines_askRoles :
    ∃ data, (readData "text" (Log.textLog rolesAnswered)).map (parseData asciiPython) = some data ∧
      ∀ (sets : SetOrder) (metric : Metric),
        ∀ series ∈ (transactionPlots sets data metric).flatten, OneTest data series := by
  obtain ⟨finished, same, carried⟩ := finishes_askRoles
  exact session_lines asciiPython asciiPython_lower ⟨50, 10⟩ plainWire plainSession_askRoles
    ⟨finished, same.subperm, carried⟩

theorem query_tests_whole_askRoles :
    ∃ data, (readData "text" (Log.textLog rolesAnswered)).map (parseData asciiPython) = some data ∧
      ∀ (sets : SetOrder) (metric : Metric),
        ShownWhole asciiPython data sets metric ((.getRole, "sequential"), 0) 2 := by
  obtain ⟨data, read, whole⟩ :=
    query_tests_whole asciiPython asciiPython_lower ⟨50, 10⟩ plainWire plainSession_askRoles
      main_askRoles.1 finishes_askRoles fun r _ => hasDate_ascii r
  refine ⟨data, read, ?_⟩
  exact whole ((.getRole, "sequential"), 0) (List.mem_singleton_self _) Endpoint.noConfusion rfl
    (by decide)

end PatientAccess.Graphs
