/-
# Server.Router -- the middlewares and the route a request meets

The application is a stack: four middlewares and ten routes, in the order of their
registration.  A pass visits the middlewares until one answers or fails, and enters the
first route whose path and method fit; otherwise it calls back.  The alias `/get_role`
rewrites the URL and starts another pass, from the top of the stack, whose callback does
nothing, so a request that finds no route there is never answered.

A second pass does not go to the alias, so two passes are all there can be (`handle_two`).
`findRoute_getRole_iff` says which requests the alias takes, and
`listeners_dispatch_eq_one_iff` which requests meet the text logger exactly once.
-/
import PatientAccess.Theory.Json

namespace PatientAccess.Server

open PatientAccess.Theory

set_option autoImplicit false

/-! ## Routes -/

/-- `app.get` or `app.post`. -/
inductive Verb where
  | get
  | post

/-- `_handles_method`: a route for `GET` takes `HEAD` too. -/
def Verb.handles : Verb → String → Bool
  | .get, method => method = "GET" || method = "HEAD"
  | .post, method => method = "POST"

inductive AppRoute where
  | getAccounts
  | createUser
  | createUserBasedOnPersonalizedMnemonic
  | createUserWithExistingAddress
  | role
  | getRole
  | aliceAccountId
  | createUserWithDynamicGas
  | hasPermission
  | grantPermission
  deriving DecidableEq

def AppRoute.verb : AppRoute → Verb
  | .getAccounts | .role | .getRole | .aliceAccountId | .hasPermission => .get
  | .createUser | .createUserBasedOnPersonalizedMnemonic | .createUserWithExistingAddress
  | .createUserWithDynamicGas | .grantPermission => .post

def AppRoute.path : AppRoute → String
  | .getAccounts => "/get_accounts/:dni"
  | .createUser => "/create_user"
  | .createUserBasedOnPersonalizedMnemonic => "/create_user_based_on_personalized_mnemonic"
  | .createUserWithExistingAddress => "/create_user_with_existing_address"
  | .role => "/role/:publicAddress"
  | .getRole => "/get_role/:publicAddress"
  | .aliceAccountId => "/alice_account_id"
  | .createUserWithDynamicGas => "/create_user_with_dynamic_gas"
  | .hasPermission => "/has_permission/:granter/:grantee"
  | .grantPermission => "/grant_permission"

/-- The routes, as they are registered. -/
def appRoutes : List AppRoute :=
  [.getAccounts, .createUser, .createUserBasedOnPersonalizedMnemonic, .createUserWithExistingAddress,
    .role, .getRole, .aliceAccountId, .createUserWithDynamicGas, .hasPermission, .grantPermission]

/-- The segments of a path; one slash at its end does not count. -/
def segments (path : List Char) : List (List Char) :=
  let all := path.splitOn '/'
  if all.getLast? = some [] then all.dropLast else all

/-- The values of the parameters, where the segments fit the pattern.  A parameter takes any
segment that is not empty, and the other segments are compared without regard to case. -/
def captures : List (List Char) → List (List Char) → Option (List (List Char))
  | [], [] => some []
  | (':' :: _) :: ps, s :: ss => if s = [] then none else (captures ps ss).map (s :: ·)
  | p :: ps, s :: ss => if p.map Char.toLower = s.map Char.toLower then captures ps ss else none
  | _, _ => none

def AppRoute.captures (r : AppRoute) (path : List Char) : Option (List (List Char)) :=
  Server.captures (r.path.toList.splitOn '/') (segments path)

/-- The start of the URL that `/get_role` writes. -/
def rolePrefix : List Char := "/role/".toList

/-- What Express takes from its libraries to read a URL: `pathname` is that of `parseurl`,
`none` for `null`, and `decode` is `decodeURIComponent`, `none` where it throws. -/
structure Urls where
  pathname : List Char → Option (List Char)
  decode : List Char → Option (List Char)
  /-- A URL that starts with a plain path keeps it. -/
  pathname_role : ∀ p, ∃ q, pathname (rolePrefix ++ p) = some (rolePrefix ++ q)

inductive Found where
  | route (r : AppRoute) (params : List (List Char))
  | badParam
  | nothing

/-- The first route whose path and method fit.  A parameter that cannot be decoded is an
error, and with an error pending no later route is entered. -/
def findRoute (urls : Urls) (method : String) (path : List Char) : List AppRoute → Found
  | [] => .nothing
  | r :: rs =>
      match r.captures path with
      | none => findRoute urls method path rs
      | some params =>
          match params.mapM urls.decode with
          | none => .badParam
          | some decoded =>
              if r.verb.handles method then .route r decoded else findRoute urls method path rs

/-! ## Passes through the stack -/

/-- What the middlewares and the router look at. -/
structure Http where
  method : String
  url : List Char
  /-- What `express.json` makes of the body; `none` where it refuses it. -/
  body : Option Json

inductive Middleware where
  | cors
  | json
  | logRequestToTxt
  | logRequestToJson
  deriving DecidableEq

/-- The middlewares, as they are registered. -/
def middlewares : List Middleware := [.cors, .json, .logRequestToTxt, .logRequestToJson]

/-- A middleware calls `next`, with an error or without, or it answers. -/
inductive Turn where
  | next
  | fails
  | answers

def Middleware.turn (http : Http) : Middleware → Turn
  | .cors => if http.method = "OPTIONS" then .answers else .next
  | .json => if http.body = none then .fails else .next
  | .logRequestToTxt => .next
  | .logRequestToJson => .next

inductive PassEnd where
  | answered
  | entered (route : AppRoute) (params : List (List Char))
  | calledBack

def Found.ending : Found → PassEnd
  | .route r params => .entered r params
  | .badParam => .calledBack
  | .nothing => .calledBack

structure Pass where
  visited : List Middleware
  ending : PassEnd

def through (urls : Urls) (http : Http) (path : List Char) : List Middleware → Pass
  | [] => ⟨[], (findRoute urls http.method path appRoutes).ending⟩
  | m :: ms =>
      match m.turn http with
      | .next =>
          let rest := through urls http path ms
          ⟨m :: rest.visited, rest.ending⟩
      | .fails => ⟨[m], .calledBack⟩
      | .answers => ⟨[m], .answered⟩

/-- One pass.  A URL without a path goes past the whole stack. -/
def pass (urls : Urls) (http : Http) (url : List Char) : Pass :=
  match urls.pathname url with
  | some path => through urls http path middlewares
  | none => ⟨[], .calledBack⟩

/-- What a pass calls where nothing answers: Express's last handler, which does, or the
`() => {}` of the alias. -/
inductive Callback where
  | final
  | ignore

/-- Whether anything is left to answer the request. -/
inductive Fate where
  | handled
  | dropped
  deriving DecidableEq

def Callback.fate : Callback → Fate
  | .final => .handled
  | .ignore => .dropped

structure Handling where
  visited : List Middleware
  fate : Fate

/-- The passes of a request, as far as the fuel goes. -/
def handle (urls : Urls) (http : Http) : Nat → Callback → List Char → Handling
  | 0, _, _ => ⟨[], .dropped⟩
  | n + 1, callback, url =>
      let p := pass urls http url
      match p.ending with
      | .answered => ⟨p.visited, .handled⟩
      | .calledBack => ⟨p.visited, callback.fate⟩
      | .entered .getRole params =>
          let again := handle urls http n .ignore (rolePrefix ++ params.headD [])
          ⟨p.visited ++ again.visited, again.fate⟩
      | .entered _ _ => ⟨p.visited, .handled⟩

def dispatch (urls : Urls) (http : Http) : Handling := handle urls http 2 .final http.url

/-- How many `finish` handlers the text logger registered. -/
def Handling.listeners (h : Handling) : Nat := h.visited.count .logRequestToTxt

/-! ## What the alias leads to -/

theorem segments_role (q : List Char) :
    ∃ rest, segments (rolePrefix ++ q) = [] :: "role".toList :: rest := by
  have cut : (rolePrefix ++ q).splitOn '/' = [] :: "role".toList :: q.splitOn '/' := by
    have regroup : rolePrefix ++ q = [] ++ '/' :: ("role".toList ++ '/' :: q) := rfl
    rw [regroup, List.splitOn_append_cons_self, List.splitOn_append_cons_self]
    rfl
  obtain ⟨s, ss, some⟩ := List.exists_cons_of_ne_nil (List.splitOn_ne_nil '/' q)
  rw [segments, cut, some]
  simp only [List.dropLast_cons_cons]
  split <;> exact ⟨_, rfl⟩

/-- A segment of a pattern that is no parameter. -/
theorem captures_name {name : List Char} (plain : name.head? ≠ some ':') (s : List Char)
    (ps ss : List (List Char)) :
    captures (name :: ps) (s :: ss) =
      if name.map Char.toLower = s.map Char.toLower then captures ps ss else none := by
  cases name with
  | nil => rfl
  | cons c name =>
      have other : c ≠ ':' := by simpa using plain
      simp [captures, other]

theorem splitOn_getRole_path : AppRoute.getRole.path.toList.splitOn '/' =
    [[], "get_role".toList, ":publicAddress".toList] := by decide

/-- A path that fits the pattern of the alias starts with its name. -/
theorem segments_of_captures_getRole {path : List Char} {raw : List (List Char)}
    (fits : AppRoute.getRole.captures path = some raw) :
    ∃ t s ss, segments path = t :: s :: ss ∧
      "get_role".toList.map Char.toLower = s.map Char.toLower := by
  have root : ([] : List Char).head? ≠ some ':' := by simp
  have name : "get_role".toList.head? ≠ some ':' := by decide
  rw [AppRoute.captures, splitOn_getRole_path] at fits
  rcases cut : segments path with _ | ⟨t, _ | ⟨s, ss⟩⟩
  · rw [cut] at fits
    cases fits
  · rw [cut, captures_name root] at fits
    split at fits <;> cases fits
  · rw [cut, captures_name root, captures_name name] at fits
    split at fits
    · split at fits
      · next same => exact ⟨t, s, ss, rfl, same⟩
      · cases fits
    · cases fits

/-- The other routes have other names. -/
theorem path_of_ne_getRole {r : AppRoute} (other : r ≠ .getRole) :
    ∃ name ps, r.path.toList.splitOn '/' = [] :: name :: ps ∧ name.head? ≠ some ':' ∧
      name.map Char.toLower ≠ "get_role".toList.map Char.toLower := by
  cases r with
  | getRole => exact absurd rfl other
  | _ => exact ⟨_, _, rfl, by decide, by decide⟩

/-- So they do not fit a path of the alias. -/
theorem captures_of_ne_getRole {path : List Char} {raw : List (List Char)}
    (fits : AppRoute.getRole.captures path = some raw) {r : AppRoute} (other : r ≠ .getRole) :
    r.captures path = none := by
  obtain ⟨t, s, ss, cut, same⟩ := segments_of_captures_getRole fits
  obtain ⟨name, ps, pattern, plain, differs⟩ := path_of_ne_getRole other
  rw [same] at differs
  rw [AppRoute.captures, pattern, cut, captures_name (by simp), captures_name plain,
    if_neg differs, ite_self]

/-- The only route that fits a path is found, wherever it stands. -/
theorem findRoute_of_only {urls : Urls} {method : String} {path : List Char} {r : AppRoute}
    {raw params : List (List Char)} {rs : List AppRoute} (registered : r ∈ rs)
    (only : ∀ r', r' ≠ r → r'.captures path = none) (takes : r.verb.handles method = true)
    (fits : r.captures path = some raw) (read : raw.mapM urls.decode = some params) :
    findRoute urls method path rs = .route r params := by
  induction rs with
  | nil => cases registered
  | cons first rs ih =>
      by_cases here : first = r
      · subst here
        simp [findRoute, fits, read, takes]
      · have later := (List.mem_cons.mp registered).resolve_left (Ne.symm here)
        rw [findRoute, only first here]
        exact ih later

/-- A route that is found fits the path and takes the method. -/
theorem fits_of_findRoute {urls : Urls} {method : String} {path : List Char} {r : AppRoute}
    {params : List (List Char)} {rs : List AppRoute}
    (found : findRoute urls method path rs = .route r params) :
    r.verb.handles method = true ∧ ∃ raw, r.captures path = some raw ∧
      raw.mapM urls.decode = some params := by
  induction rs with
  | nil => cases found
  | cons first rs ih =>
      unfold findRoute at found
      split at found
      · exact ih found
      · next raw fits =>
        split at found
        · cases found
        · next decoded read =>
          split at found
          · next takes =>
            cases found
            exact ⟨takes, raw, fits, read⟩
          · exact ih found

/-- The request goes to the alias: `GET` or `HEAD`, with a parameter that can be decoded. -/
def TakesAlias (urls : Urls) (method : String) (path : List Char) : Prop :=
  AppRoute.getRole.verb.handles method = true ∧
    ∃ raw params, AppRoute.getRole.captures path = some raw ∧ raw.mapM urls.decode = some params

/-- No route is in the way of the alias. -/
theorem findRoute_getRole_iff {urls : Urls} {method : String} {path : List Char} :
    (∃ params, findRoute urls method path appRoutes = .route .getRole params) ↔
      TakesAlias urls method path := by
  constructor
  · rintro ⟨params, found⟩
    obtain ⟨takes, raw, fits, read⟩ := fits_of_findRoute found
    exact ⟨takes, raw, params, fits, read⟩
  · rintro ⟨takes, raw, params, fits, read⟩
    have registered : .getRole ∈ appRoutes := by decide
    exact ⟨params, findRoute_of_only registered (fun r' other => captures_of_ne_getRole fits other)
      takes fits read⟩

/-- A URL under `/role/` is none of the alias's. -/
theorem captures_getRole_role (q : List Char) :
    AppRoute.getRole.captures (rolePrefix ++ q) = none := by
  obtain ⟨rest, cut⟩ := segments_role q
  cases fits : AppRoute.getRole.captures (rolePrefix ++ q) with
  | none => rfl
  | some raw =>
      obtain ⟨t, s, ss, here, same⟩ := segments_of_captures_getRole fits
      rw [cut] at here
      cases here
      exact absurd same (by decide)

/-- The request comes as far as the loggers: nothing before them answers or fails. -/
structure Http.ReachesLoggers (http : Http) : Prop where
  method : http.method ≠ "OPTIONS"
  body : http.body ≠ none

variable (urls : Urls) {http : Http}

/-- A request that comes as far as the loggers comes as far as the routes. -/
theorem through_of_reaches (reaches : http.ReachesLoggers) (path : List Char) :
    through urls http path middlewares =
      ⟨middlewares, (findRoute urls http.method path appRoutes).ending⟩ := by
  have cors : Middleware.cors.turn http = .next := if_neg reaches.method
  have json : Middleware.json.turn http = .next := if_neg reaches.body
  have txt : Middleware.logRequestToTxt.turn http = .next := rfl
  have jsonLog : Middleware.logRequestToJson.turn http = .next := rfl
  simp only [middlewares, through, cors, json, txt, jsonLog]

/-- The others are answered or refused before the loggers. -/
theorem through_of_not_reaches (stopped : ¬ http.ReachesLoggers) (path : List Char) :
    .logRequestToTxt ∉ (through urls http path middlewares).visited ∧
      ∀ r params, (through urls http path middlewares).ending ≠ .entered r params := by
  by_cases preflight : http.method = "OPTIONS"
  · have cors : Middleware.cors.turn http = .answers := if_pos preflight
    simp [middlewares, through, cors]
  · have cors : Middleware.cors.turn http = .next := if_neg preflight
    by_cases refused : http.body = none
    · have json : Middleware.json.turn http = .fails := if_pos refused
      simp [middlewares, through, cors, json]
    · exact absurd ⟨preflight, refused⟩ stopped

/-- A pass registers no listener for a request that does not come as far as the loggers. -/
theorem pass_of_not_reaches (stopped : ¬ http.ReachesLoggers) (url : List Char) :
    .logRequestToTxt ∉ (pass urls http url).visited ∧
      ∀ r params, (pass urls http url).ending ≠ .entered r params := by
  unfold pass
  cases urls.pathname url with
  | none => simp
  | some path => exact through_of_not_reaches urls stopped path

theorem pass_of_reaches (reaches : http.ReachesLoggers) {url path : List Char}
    (read : urls.pathname url = some path) :
    pass urls http url = ⟨middlewares, (findRoute urls http.method path appRoutes).ending⟩ := by
  rw [← through_of_reaches urls reaches path, pass, read]

theorem Found.ending_eq_entered {found : Found} {r : AppRoute} {params : List (List Char)} :
    found.ending = .entered r params ↔ found = .route r params := by
  cases found <;> simp [Found.ending]

/-- The URL the alias writes does not lead to the alias. -/
theorem pass_role_ne_alias (a : List Char) (params : List (List Char)) :
    (pass urls http (rolePrefix ++ a)).ending ≠ .entered .getRole params := by
  by_cases reaches : http.ReachesLoggers
  · obtain ⟨q, read⟩ := urls.pathname_role a
    rw [pass_of_reaches urls reaches read]
    intro aliased
    obtain ⟨-, raw, fits, -⟩ := fits_of_findRoute (Found.ending_eq_entered.mp aliased)
    rw [captures_getRole_role] at fits
    cases fits
  · exact (pass_of_not_reaches urls reaches _).2 _ _

/-! ## All passes of a request -/

theorem handle_of_alias {url : List Char} {params : List (List Char)}
    (aliased : (pass urls http url).ending = .entered .getRole params) (n : Nat)
    (callback : Callback) :
    handle urls http (n + 1) callback url =
      ⟨(pass urls http url).visited ++
          (handle urls http n .ignore (rolePrefix ++ params.headD [])).visited,
        (handle urls http n .ignore (rolePrefix ++ params.headD [])).fate⟩ := by
  simp only [handle, aliased]

/-- Without the alias there is one pass, however much fuel there is. -/
theorem handle_of_not_alias {url : List Char}
    (other : ∀ params, (pass urls http url).ending ≠ .entered .getRole params) (n : Nat)
    (callback : Callback) :
    (handle urls http (n + 1) callback url).visited = (pass urls http url).visited ∧
      handle urls http (n + 1) callback url = handle urls http 1 callback url := by
  cases ended : (pass urls http url).ending with
  | answered => simp [handle, ended]
  | calledBack => simp [handle, ended]
  | entered r params =>
      cases r with
      | getRole => exact absurd ended (other params)
      | _ => simp [handle, ended]

/-- Two passes are all there can be: more fuel changes nothing. -/
theorem handle_two (n : Nat) (callback : Callback) (url : List Char) :
    handle urls http (n + 2) callback url = handle urls http 2 callback url := by
  by_cases aliased : ∃ params, (pass urls http url).ending = .entered .getRole params
  · obtain ⟨params, aliased⟩ := aliased
    have second : ∀ again, (pass urls http (rolePrefix ++ params.headD [])).ending ≠
        .entered .getRole again := pass_role_ne_alias urls _
    rw [handle_of_alias urls aliased, handle_of_alias urls aliased,
      (handle_of_not_alias urls second n _).2]
  · rw [not_exists] at aliased
    rw [(handle_of_not_alias urls aliased (n + 1) _).2, (handle_of_not_alias urls aliased 1 _).2]

theorem listeners_of_not_alias
    (other : ∀ params, (pass urls http http.url).ending ≠ .entered .getRole params) :
    (dispatch urls http).listeners = (pass urls http http.url).visited.count .logRequestToTxt := by
  rw [Handling.listeners, dispatch, (handle_of_not_alias urls other 1 _).1]

/-- A request stopped before the loggers has no listener. -/
theorem listeners_of_not_reaches (stopped : ¬ http.ReachesLoggers) :
    (dispatch urls http).listeners = 0 := by
  obtain ⟨unvisited, unrouted⟩ := pass_of_not_reaches urls stopped http.url
  rw [listeners_of_not_alias urls fun params => unrouted _ params]
  exact List.count_eq_zero.mpr unvisited

/-- Nor has one whose URL has no path. -/
theorem listeners_of_pathless (pathless : urls.pathname http.url = none) :
    (dispatch urls http).listeners = 0 := by
  have skipped : pass urls http http.url = ⟨[], .calledBack⟩ := by rw [pass, pathless]
  rw [listeners_of_not_alias urls (by simp [skipped]), skipped]
  rfl

/-- By the alias a request meets the text logger in both passes. -/
theorem listeners_of_alias (reaches : http.ReachesLoggers) {path : List Char}
    (read : urls.pathname http.url = some path) (takes : TakesAlias urls http.method path) :
    (dispatch urls http).listeners = 2 := by
  obtain ⟨params, found⟩ := findRoute_getRole_iff.mpr takes
  have first := pass_of_reaches urls reaches read
  have aliased : (pass urls http http.url).ending = .entered .getRole params := by
    rw [first, found]
    rfl
  obtain ⟨q, again⟩ := urls.pathname_role (params.headD [])
  have second := pass_of_reaches urls reaches again
  have last : ∀ params', (pass urls http (rolePrefix ++ params.headD [])).ending ≠
      .entered .getRole params' := pass_role_ne_alias urls _
  rw [Handling.listeners, dispatch, handle_of_alias urls aliased,
    (handle_of_not_alias urls last 0 _).1, first, second]
  rfl

/-- The others meet it in their only pass. -/
theorem listeners_of_plain (reaches : http.ReachesLoggers) {path : List Char}
    (read : urls.pathname http.url = some path) (plain : ¬ TakesAlias urls http.method path) :
    (dispatch urls http).listeners = 1 := by
  have first := pass_of_reaches urls reaches read
  have other : ∀ params, (pass urls http http.url).ending ≠ .entered .getRole params := by
    intro params aliased
    rw [first] at aliased
    exact plain (findRoute_getRole_iff.mp ⟨params, Found.ending_eq_entered.mp aliased⟩)
  rw [listeners_of_not_alias urls other, first]
  rfl

/-- A request meets the text logger once if it comes as far as that and its URL has a path
that does not go to the alias. -/
structure Http.MeetsOnce (urls : Urls) (http : Http) : Prop extends http.ReachesLoggers where
  route : ∃ path, urls.pathname http.url = some path ∧ ¬ TakesAlias urls http.method path

/-- **Who meets the text logger once.** -/
theorem listeners_dispatch_eq_one_iff :
    (dispatch urls http).listeners = 1 ↔ http.MeetsOnce urls := by
  by_cases reaches : http.ReachesLoggers
  · cases read : urls.pathname http.url with
    | none =>
        have unlogged := listeners_of_pathless urls read
        refine iff_of_false (by omega) fun once => ?_
        obtain ⟨path, some, -⟩ := once.route
        rw [read] at some
        cases some
    | some path =>
        by_cases takes : TakesAlias urls http.method path
        · have twice := listeners_of_alias urls reaches read takes
          refine iff_of_false (by omega) fun once => ?_
          obtain ⟨path', same, plain⟩ := once.route
          rw [read] at same
          cases same
          exact plain takes
        · have one := listeners_of_plain urls reaches read takes
          exact iff_of_true one { toReachesLoggers := reaches, route := ⟨path, read, takes⟩ }
  · have unlogged := listeners_of_not_reaches urls reaches
    exact iff_of_false (by omega) fun once => reaches once.toReachesLoggers

end PatientAccess.Server
