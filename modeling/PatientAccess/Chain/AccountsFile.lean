/-
# Chain.AccountsFile -- the accounts the server notes, and the stress test reads

`/create_user_with_dynamic_gas` appends the address of its account to `account_ids.txt`
before it answers, and the stress test picks the accounts it asks about from that file.
The two agree on a line for an account and on nothing else.

Whatever the interleaving, the lines of a run are those of the requests on that route
that answered 200, one each (`written_perm`), and the stress test reads one account off
each (`accounts_file_read`).  Where the node is honest these are accounts for which a
registration was executed (`listed_accounts_executed`).  Where the accounts created differ,
so do the lines, and the test finds the two accounts it draws for (`server_file_ends`).
-/
import PatientAccess.Chain.Answers
import PatientAccess.Stress.Accounts
import Mathlib.Data.List.Basic

namespace PatientAccess.Chain

open PatientAccess.Theory
open PatientAccess.Server
open PatientAccess.Stress

set_option autoImplicit false

/-! ## The lines a run appends -/

/-- The lines a request has appended to the file. -/
def appendedBy : Request → List String
  | .closed o => o.appended
  | _ => []

/-- A request that is done and was answered 200. -/
def answered200 : Request → Bool
  | .closed o => decide (o.status = some 200)
  | _ => false

/-- The lines a step of the server appends. -/
def appends (cfg : Config) (s : ServerState) : LoopStep → List String
  | .arrive route generated b w =>
      appendedBy ((route.enter cfg.keyring generated b).arrive w s.globals).2.1
  | .request id e =>
      match s.requests[id]?.bind fun r => r.step s.globals e with
      | none => []
      | some (_, r, _) => appendedBy r

/-- The lines a run appends to the file, in order. -/
def written (cfg : Config) (es : List LoopStep) : List String :=
  (server cfg).emitted (appends cfg) es

/-- `account_ids.txt` after a run that found `start` in it. -/
def accountsFile (start : List Char) (cfg : Config) (es : List LoopStep) : List Char :=
  start ++ (written cfg es).flatMap String.toList

/-- A request that can still move has appended nothing. -/
theorem appendedBy_of_step {g g' : Globals} {r r' : Request} {e : RequestStep} {m : Tickets.Move}
    (stepped : r.step g e = some (m, r', g')) : appendedBy r = [] := by
  cases r with
  | timer h rest locals => rfl
  | nonceTaken u | sending u => rfl
  | sent u x => rfl
  | closed o => cases stepped

theorem appendedBy_set {requests : List Request} {id : Nat} {r : Request}
    (found : requests[id]? = some r) (nothing : appendedBy r = []) (r' : Request) :
    ((requests.set id r').flatMap appendedBy).Perm
      (requests.flatMap appendedBy ++ appendedBy r') := by
  obtain ⟨bound, rfl⟩ := List.getElem?_eq_some_iff.mp found
  have moved : ∃ before after, requests = before ++ requests[id] :: after ∧
      before.length = id ∧ requests.set id r' = before ++ r' :: after :=
    List.exists_of_set bound
  obtain ⟨before, after, split, -, updated⟩ := moved
  have others : requests.flatMap appendedBy = before.flatMap appendedBy ++ after.flatMap appendedBy := by
    conv_lhs => rw [split]
    rw [List.flatMap_append, List.flatMap_cons, nothing, List.nil_append]
  rw [updated, others, List.flatMap_append, List.flatMap_cons, List.append_assoc]
  exact List.perm_append_comm.append_left _

/-- The lines in the file are those of the requests. -/
theorem written_perm_requests (cfg : Config) (es : List LoopStep) :
    (written cfg es).Perm (((server cfg).run es).requests.flatMap appendedBy) := by
  refine (server cfg).emitted_perm (fun s => s.requests.flatMap appendedBy) rfl (fun s e => ?_) es
  cases e with
  | arrive route generated b w =>
      simp only [server, serverStep, appends, List.flatMap_append, List.flatMap_singleton]
      exact List.Perm.refl _
  | request id e =>
      rcases server_step_request cfg s id e with ⟨stuck, same⟩ | ⟨r, m, r', g, found, stepped, next⟩
      · rw [same]
        simp only [appends, stuck, List.append_nil]
        exact List.Perm.refl _
      · have moves : (s.requests[id]?.bind fun r => r.step s.globals e) = some (m, r', g) := by
          rw [found, Option.bind_some, stepped]
        rw [next]
        simp only [appends, moves]
        exact appendedBy_set found (appendedBy_of_step stepped) r'

/-! ## Which lines these are -/

/-- The line a route has for the file. -/
def lineOf : Entry → Option String
  | .runs h => h.line
  | _ => none

/-- The account a request notes in the file when it succeeds. -/
def accountNoted (keyring : Keyring) (generated : String) : Route → Option String
  | .createUserWithDynamicGas => (keyring.addressFromUri (mnemonicOf generated none)).toOption
  | _ => none

/-- Only the route with dynamic gas has a line, and it is its account's. -/
theorem lineOf_enter (keyring : Keyring) (generated : String) (b : CreateUserBody) (route : Route) :
    lineOf (route.enter keyring generated b) =
      (accountNoted keyring generated route).map fun address => address ++ "\n" := by
  cases route with
  | createUser =>
      simp only [Route.enter, createUser]
      split <;> rfl
  | createUserBasedOnPersonalizedMnemonic =>
      simp only [Route.enter, createUserBasedOnPersonalizedMnemonic]
      split <;> rfl
  | createUserWithExistingAddress =>
      simp only [Route.enter, createUserWithExistingAddress]
      split <;> rfl
  | createUserWithDynamicGas =>
      simp only [Route.enter, createUserWithDynamicGas, createNewAccount, accountNoted]
      cases keyring.addressFromUri (mnemonicOf generated none) <;> rfl

theorem succeeds_enter {keyring : Keyring} {generated : String} {b : CreateUserBody} {route : Route}
    {h : Handler} (enters : route.enter keyring generated b = .runs h) (locals : Locals) :
    (h.succeed locals).status = 200 := by
  cases route <;>
    simp only [Route.enter, createUser, createUserBasedOnPersonalizedMnemonic,
      createUserWithExistingAddress, createUserWithDynamicGas] at enters <;>
    split at enters <;> cases enters <;> rfl

/-- A handler appends its line exactly if it answers 200. -/
theorem respond_appended {h : Handler} (succeeds : ∀ locals, (h.succeed locals).status = 200)
    (fails : ∀ e, (h.fail e).status ≠ 200) (disk : Except String Unit) (awaits : List Await)
    (ts : List Attempt) (locals : Locals) :
    (h.respond disk awaits ts locals).appended =
      if (h.respond disk awaits ts locals).status = some 200 then h.line.toList else [] := by
  fun_induction Handler.respond h disk awaits ts locals with
  | case1 ts locals =>
      unfold Handler.finish
      cases written : h.line with
      | none => simp
      | some line =>
          cases disk with
          | ok _ => simp [Outcome.status, succeeds]
          | error e => simp [Outcome.status, fails]
  | case2 awaits ts locals ih => exact ih
  | case3 s awaits locals => rfl
  | case4 s awaits t ts locals locals' settled => rfl
  | case5 s awaits t ts locals e locals' settled => simp [Outcome.status, fails]
  | case6 s awaits t ts locals value locals' settled ih => exact ih

theorem enter_appended (keyring : Keyring) (generated : String) (b : CreateUserBody) (route : Route)
    (disk : Except String Unit) (ts : List Attempt) :
    ((route.enter keyring generated b).respond disk ts).appended =
      if ((route.enter keyring generated b).respond disk ts).status = some 200 then
        (lineOf (route.enter keyring generated b)).toList
      else [] := by
  have only := onlySuccess_enter keyring generated b route
  cases enters : route.enter keyring generated b with
  | unhandled e => rfl
  | answered r => exact (ite_self []).symm
  | runs h =>
      rw [enters] at only
      exact respond_appended (succeeds_enter enters) only disk h.awaits ts .fresh

/-- For each request, in the order of arrival, the account it is to note. -/
def toNote (cfg : Config) (es : List LoopStep) : List (Option String) :=
  es.filterMap fun
    | .arrive route generated _ _ => some (accountNoted cfg.keyring generated route)
    | .request _ _ => none

/-- The accounts of the requests that noted one: those answered 200. -/
def noted (cfg : Config) (es : List LoopStep) : List String :=
  ((toNote cfg es).zip ((server cfg).run es).requests).filterMap fun p =>
    if answered200 p.2 then p.1 else none

theorem lineOf_arrivals (cfg : Config) (es : List LoopStep) :
    (arrivals cfg ((server cfg).trace es)).map lineOf =
      (toNote cfg es).map fun account => account.map fun address => address ++ "\n" := by
  induction es using List.reverseRecOn with
  | nil => rfl
  | append_singleton es e ih =>
      rw [Machine.trace_concat, arrivals_concat, List.map_append, ih, toNote, toNote,
        List.filterMap_append, List.map_append]
      cases e with
      | arrive route generated b w =>
          show _ ++ [lineOf (route.enter cfg.keyring generated b)] = _
          rw [lineOf_enter]
          rfl
      | request id e => rfl

theorem appendedBy_eq (cfg : Config) (es : List LoopStep) {id : Nat} {r : Request}
    (found : ((server cfg).run es).requests[id]? = some r) {account : Option String}
    (has : (toNote cfg es)[id]? = some account) :
    appendedBy r =
      (if answered200 r then account else none).toList.map fun address => address ++ "\n" := by
  cases r with
  | timer h rest locals => rfl
  | nonceTaken u | sending u => rfl
  | sent u x => rfl
  | closed o =>
      obtain ⟨entry, arrived, disk, ts, rfl⟩ := server_answers cfg es found
      obtain ⟨route, generated, b, rfl⟩ := mem_arrivals (List.mem_of_getElem? arrived)
      have line := congrArg (fun l => l[id]?) (lineOf_arrivals cfg es)
      simp only [List.getElem?_map, arrived, has, Option.map_some, Option.some.injEq] at line
      rw [appendedBy, enter_appended, line, answered200]
      simp only [decide_eq_true_eq]
      split
      · cases account <;> rfl
      · rfl

/-- **What the server writes.**  Whatever the interleaving, the lines of a run are those
of the requests with an account to note that were answered 200, one each. -/
theorem written_perm (cfg : Config) (es : List LoopStep) :
    (written cfg es).Perm ((noted cfg es).map fun address => address ++ "\n") := by
  refine (written_perm_requests cfg es).trans (List.Perm.of_eq ?_)
  have same : (toNote cfg es).length = ((server cfg).run es).requests.length := by
    have lengths := congrArg List.length (lineOf_arrivals cfg es)
    rw [List.length_map, List.length_map] at lengths
    rw [← lengths, (server_owns cfg es).same]
  have requests : ((toNote cfg es).zip ((server cfg).run es).requests).map Prod.snd =
      ((server cfg).run es).requests := List.map_snd_zip same.ge
  conv_lhs => rw [← requests]
  rw [noted, List.map_filterMap, List.flatMap_map, List.filterMap_eq_flatMap_toList]
  refine List.flatMap_congr fun p member => ?_
  obtain ⟨id, here⟩ := List.mem_iff_getElem?.mp member
  obtain ⟨has, found⟩ := List.getElem?_zip_eq_some.mp here
  rw [appendedBy_eq cfg es found has, Option.toList_map]

/-! ## Reading them back -/

/-- An address is text on one line. -/
structure Clean (address : String) : Prop where
  oneLine : '\n' ∉ address.toList
  notBlank : Log.jsTrim address.toList ≠ []

/-- The keyring gives nothing but addresses. -/
def CleanKeyring (keyring : Keyring) : Prop :=
  ∀ uri address, keyring.addressFromUri uri = .ok address → Clean address

theorem read_append_cons (x y : List Char) :
    getUserAccountsFromFile (some (x ++ '\n' :: y)) =
      getUserAccountsFromFile (some x) ++ getUserAccountsFromFile (some y) := by
  simp only [getUserAccountsFromFile]
  rw [List.splitOn_append_cons_self, List.filter_append]

/-- Where the file ends with a line, what is appended is read after it. -/
theorem read_append {start : List Char} (ends : start = [] ∨ start.getLast? = some '\n')
    (more : List Char) :
    getUserAccountsFromFile (some (start ++ more)) =
      getUserAccountsFromFile (some start) ++ getUserAccountsFromFile (some more) := by
  have empty : getUserAccountsFromFile (some []) = [] := by decide
  rcases ends with rfl | last
  · rw [empty]
    rfl
  · obtain ⟨x, rfl⟩ := List.getLast?_eq_some_iff.mp last
    have alone : x ++ ['\n'] = x ++ '\n' :: [] := rfl
    rw [alone, read_append_cons x [], empty, List.append_nil, List.append_assoc,
      List.singleton_append, read_append_cons]

theorem read_lines {lines : List String} (clean : ∀ line ∈ lines, ∃ address, Clean address ∧
    line = address ++ "\n") :
    getUserAccountsFromFile (some (lines.flatMap String.toList)) =
      lines.map fun line => line.toList.dropLast := by
  induction lines with
  | nil => decide
  | cons line lines ih =>
      rw [List.forall_mem_cons] at clean
      obtain ⟨⟨address, ⟨oneLine, notBlank⟩, rfl⟩, rest⟩ := clean
      have text : (address ++ "\n").toList = address.toList ++ ['\n'] := String.toList_append
      have alone : getUserAccountsFromFile (some address.toList) = [address.toList] := by
        rw [getUserAccountsFromFile, List.splitOn_eq_singleton oneLine]
        exact List.filter_cons_of_pos (decide_eq_true notBlank)
      rw [List.flatMap_cons, List.map_cons, text, List.append_assoc, List.singleton_append,
        read_append_cons, alone, ih rest, List.dropLast_concat]
      rfl

/-- Only accounts of the keyring are noted. -/
theorem clean_of_noted {cfg : Config} (clean : CleanKeyring cfg.keyring) {es : List LoopStep}
    {address : String} (isNoted : address ∈ noted cfg es) : Clean address := by
  obtain ⟨p, member, is⟩ := List.mem_filterMap.mp isNoted
  obtain ⟨e, -, makes⟩ := List.mem_filterMap.mp (List.of_mem_zip member).1
  have account : p.1 = some address := by
    split at is
    · exact is
    · cases is
  cases e with
  | request id e => cases makes
  | arrive route generated b w =>
      have notes := (Option.some.inj makes).trans account
      cases route with
      | createUserWithDynamicGas =>
          simp only [accountNoted] at notes
          cases found : cfg.keyring.addressFromUri (mnemonicOf generated none) with
          | error e =>
              rw [found] at notes
              cases notes
          | ok a =>
              rw [found] at notes
              cases notes
              exact clean _ _ found
      | createUser | createUserBasedOnPersonalizedMnemonic | createUserWithExistingAddress =>
          cases notes

/-- The accounts on the lines a run appends. -/
def accountsWritten (cfg : Config) (es : List LoopStep) : List (List Char) :=
  (written cfg es).map fun line => line.toList.dropLast

theorem accountsWritten_perm (cfg : Config) (es : List LoopStep) :
    (accountsWritten cfg es).Perm ((noted cfg es).map String.toList) := by
  refine ((written_perm cfg es).map _).trans (List.Perm.of_eq ?_)
  rw [List.map_map]
  refine List.map_congr_left fun address _ => ?_
  show (address ++ "\n").toList.dropLast = address.toList
  rw [String.toList_append]
  exact List.dropLast_concat

theorem read_accountsFile {cfg : Config} (clean : CleanKeyring cfg.keyring) {start : List Char}
    (ends : start = [] ∨ start.getLast? = some '\n') (es : List LoopStep) :
    getUserAccountsFromFile (some (accountsFile start cfg es)) =
      getUserAccountsFromFile (some start) ++ accountsWritten cfg es := by
  rw [accountsFile, read_append ends, read_lines, accountsWritten]
  intro line member
  obtain ⟨address, isNoted, rfl⟩ := List.mem_map.mp ((written_perm cfg es).subset member)
  exact ⟨address, clean_of_noted clean isNoted, rfl⟩

/-- **What the stress test reads.**  After a run it reads from the file what it read before,
and then the accounts on the lines of the run, in the order in which these were appended:
the account of every request that noted one, each once, and nothing else. -/
theorem accounts_file_read (cfg : Config) (clean : CleanKeyring cfg.keyring) {start : List Char}
    (ends : start = [] ∨ start.getLast? = some '\n') (es : List LoopStep) :
    getUserAccountsFromFile (some (accountsFile start cfg es)) =
        getUserAccountsFromFile (some start) ++ accountsWritten cfg es ∧
      (accountsWritten cfg es).Perm ((noted cfg es).map String.toList) :=
  ⟨read_accountsFile clean ends es, accountsWritten_perm cfg es⟩

/-- A keyring that gives two addresses. -/
def twoAddresses : Keyring where
  addressFromUri uri := .ok (if uri = "first" then "5Grw" else "5FHn")
  encodeAddress _ := .error "Decoding failed"

theorem twoAddresses_clean : CleanKeyring twoAddresses := by
  intro uri address found
  have which : "5Grw" = address ∨ "5FHn" = address := by
    by_cases first : uri = "first"
    · exact .inl (by simpa [twoAddresses, first] using found)
    · exact .inr (by simpa [twoAddresses, first] using found)
  rcases which with rfl | rfl
  · exact ⟨by decide, by decide⟩
  · exact ⟨by decide, by decide⟩

def twoAddressesFive : Config := { nonceFive with keyring := twoAddresses }

/-- What is awaited of request `id` is sent and accepted. -/
def sendSteps (id : Nat) : List LoopStep := [.request id (.build none), .request id (.answer none)]

/-- It is final, and the request goes on. -/
def finalSteps (id : Nat) : List LoopStep :=
  [.request id (.notify ⟨.finalized, []⟩), .request id (.resume noon)]

/-- Two requests with dynamic gas; the second is done first. -/
def twoCreated : List LoopStep :=
  [.arrive .createUserWithDynamicGas "first" ⟨none, Contract.alice, 0⟩ noon,
    .arrive .createUserWithDynamicGas "second" ⟨none, Contract.alice, 1⟩ noon] ++
  sendSteps 0 ++ sendSteps 1 ++ finalSteps 1 ++ sendSteps 1 ++ finalSteps 1 ++
  finalSteps 0 ++ sendSteps 0 ++ finalSteps 0

/-- The account of the second request stands first. -/
theorem accounts_file_read_two :
    accountsWritten twoAddressesFive twoCreated = ["5FHn".toList, "5Grw".toList] ∧
      getUserAccountsFromFile (some (accountsFile "5CAx\n".toList twoAddressesFive twoCreated)) =
        ["5CAx".toList] ++ accountsWritten twoAddressesFive twoCreated ∧
      (accountsWritten twoAddressesFive twoCreated).Perm
        ((noted twoAddressesFive twoCreated).map String.toList) := by
  have start : getUserAccountsFromFile (some "5CAx\n".toList) = ["5CAx".toList] := by decide
  refine ⟨by decide, ?_⟩
  rw [← start]
  exact accounts_file_read twoAddressesFive twoAddresses_clean (.inr rfl) twoCreated

/-! ## What the accounts are -/

/-- A route that notes an account registers it. -/
theorem registers_of_accountNoted {keyring : Keyring} {generated address : String} {route : Route}
    (b : CreateUserBody) (notes : accountNoted keyring generated route = some address) :
    ∃ s ∈ (route.enter keyring generated b).submissions,
      s.addUserTx.map AddUserTx.accountId = some (some address) := by
  cases route with
  | createUserWithDynamicGas =>
      simp only [accountNoted] at notes
      cases found : keyring.addressFromUri (mnemonicOf generated none) with
      | error e =>
          rw [found] at notes
          cases notes
      | ok a =>
          rw [found] at notes
          cases notes
          simp only [Route.enter, createUserWithDynamicGas, createNewAccount, found]
          exact ⟨_, List.mem_cons_of_mem _ (List.mem_singleton_self _), rfl⟩
  | createUser | createUserBasedOnPersonalizedMnemonic | createUserWithExistingAddress => cases notes

/-- The request that noted an account was answered 200, on a route that registers it. -/
theorem request_of_noted {cfg : Config} {es : List LoopStep} {address : String}
    (isNoted : address ∈ noted cfg es) :
    ∃ id o entry, ((server cfg).run es).outcome id = some o ∧ o.status = some 200 ∧
      (arrivals cfg ((server cfg).trace es))[id]? = some entry ∧
      ∃ s ∈ entry.submissions, s.addUserTx.map AddUserTx.accountId = some (some address) := by
  obtain ⟨⟨account, r⟩, member, is⟩ := List.mem_filterMap.mp isNoted
  obtain ⟨id, here⟩ := List.mem_iff_getElem?.mp member
  obtain ⟨has, found⟩ := List.getElem?_zip_eq_some.mp here
  cases r with
  | timer h rest locals => cases is
  | nonceTaken u | sending u => cases is
  | sent u x => cases is
  | closed o =>
      simp only [answered200, decide_eq_true_eq] at is
      split at is
      · rename_i ok
        subst is
        have line := congrArg (fun l => l[id]?) (lineOf_arrivals cfg es)
        simp only [List.getElem?_map, has, Option.map_some] at line
        obtain ⟨entry, arrived, itsLine⟩ := Option.map_eq_some_iff.mp line
        obtain ⟨route, generated, b, rfl⟩ := mem_arrivals (List.mem_of_getElem? arrived)
        rw [lineOf_enter] at itsLine
        obtain ⟨a, notes, same⟩ := Option.map_eq_some_iff.mp itsLine
        obtain rfl : a = address := (String.append_left_inj _).mp same
        refine ⟨id, o, _, ?_, ok, arrived, registers_of_accountNoted b notes⟩
        rw [ServerState.outcome, found]
        rfl
      · cases is

/-- **The accounts listed were registered.**  Along an honest run every line appended to the
file is an address for which the chain executed a registration. -/
theorem listed_accounts_executed (net : Network) (es : List Step)
    (honest : (network net).AllSteps (Honest net) es) {line : String}
    (appended : line ∈ written net.server (loopSteps es)) :
    ∃ address, line = address ++ "\n" ∧ ∃ r ∈ ((network net).run es).receipts,
      r.submission.addUserTx.map AddUserTx.accountId = some (some address) := by
  obtain ⟨address, isNoted, rfl⟩ :=
    List.mem_map.mp ((written_perm net.server (loopSteps es)).subset appended)
  obtain ⟨id, o, entry, done, ok, arrived, s, submitted, registers⟩ := request_of_noted isNoted
  rw [← network_server] at done
  obtain ⟨entry', arrived', all⟩ := executed_of_success net es honest done ok
  obtain rfl : entry = entry' := Option.some.inj (arrived.symm.trans arrived')
  rw [← all] at submitted
  obtain ⟨b, begunFirst, rfl⟩ := List.mem_map.mp submitted
  have executed : b.submission ∈ ((network net).run es).receipts.map Receipt.submission := by
    rw [receipts_eq_take]
    exact List.mem_map_of_mem (List.mem_of_mem_filter begunFirst)
  obtain ⟨r, member, same⟩ := List.mem_map.mp executed
  exact ⟨address, rfl, r, member, same ▸ registers⟩

/-- The network of this server, and one request with dynamic gas on it. -/
def twoAddressesNetwork : Network := { twoAccounts with server := twoAddressesFive }

def oneCreated : List Step :=
  (.arrive .createUserWithDynamicGas "first" ⟨none, Contract.alice, 0⟩ noon :: sendSteps 0).map
      Step.loop ++ [.execute true] ++ [.loop (.request 0 (.notify ⟨.finalized, []⟩))] ++
    (.loop (.request 0 (.resume noon)) :: ((sendSteps 0).map Step.loop ++ [.execute true])) ++
    [.loop (.request 0 (.notify ⟨.finalized, []⟩))] ++ [.loop (.request 0 (.resume noon))]

theorem listed_accounts_executed_one :
    written twoAddressesFive (loopSteps oneCreated) = ["5Grw\n"] ∧
      ∃ address, "5Grw\n" = address ++ "\n" ∧
        ∃ r ∈ ((network twoAddressesNetwork).run oneCreated).receipts,
          r.submission.addUserTx.map AddUserTx.accountId = some (some address) := by
  have appended : written twoAddressesFive (loopSteps oneCreated) = ["5Grw\n"] := by decide
  refine ⟨appended, listed_accounts_executed twoAddressesNetwork oneCreated ?_ ?_⟩
  · refine Machine.AllSteps.append_of_forall ((Machine.allSteps_concat _ _ _ _).mpr
      ⟨Machine.AllSteps.append_of_forall ((Machine.allSteps_concat _ _ _ _).mpr
        ⟨Machine.allSteps_of_forall _ (honest_of_all ?_), honest_notify _ ?_⟩) (honest_of_all ?_),
      honest_notify _ ?_⟩) (honest_of_all ?_)
    all_goals decide
  · show "5Grw\n" ∈ written twoAddressesFive (loopSteps oneCreated)
    rw [appended]
    exact List.mem_singleton_self _

/-! ## Drawing two of them -/

/-- No more is noted than there is to note. -/
theorem noted_sublist (accounts : List (Option String)) (requests : List Request) :
    ((accounts.zip requests).filterMap fun p => if answered200 p.2 then p.1 else none).Sublist
      (accounts.filterMap id) := by
  induction accounts generalizing requests with
  | nil => exact List.Sublist.refl _
  | cons account accounts ih =>
      cases requests with
      | nil => exact List.nil_sublist _
      | cons r requests =>
          rw [List.zip_cons_cons, List.filterMap_cons, List.filterMap_cons]
          cases account with
          | none =>
              simp only [ite_self]
              exact ih requests
          | some a =>
              cases answered200 r
              · exact (ih requests).cons a
              · exact (ih requests).cons_cons a

/-- **The redraw loop ends on the server's file.**  Where the accounts created along a run
differ and two of them are noted, a stress test that reads the file draws a pair of them,
from any source that draws every line. -/
theorem server_file_ends (cfg : Config) (clean : CleanKeyring cfg.keyring) (es : List LoopStep)
    (distinct : ((toNote cfg es).filterMap id).Nodup) (two : 2 ≤ (noted cfg es).length)
    {source : Nat → Draw}
    (every : DrawsEvery source (getUserAccountsFromFile (some (accountsFile [] cfg es))).length) :
    ReturnsPair (some (accountsFile [] cfg es)) source := by
  have read : getUserAccountsFromFile (some (accountsFile [] cfg es)) = accountsWritten cfg es :=
    read_accountsFile clean (.inl rfl) es
  have perm := accountsWritten_perm cfg es
  have nodup : (accountsWritten cfg es).Nodup := by
    rw [perm.nodup_iff]
    refine List.Nodup.map (fun a b same => String.toList_inj.mp same) ?_
    exact distinct.sublist (noted_sublist _ _)
  have length : 2 ≤ (accountsWritten cfg es).length := by
    rw [perm.length_eq, List.length_map]
    exact two
  have differ : TwoDiffer (some (accountsFile [] cfg es)) := by
    rw [TwoDiffer, read]
    have first : 0 < (accountsWritten cfg es).length := by omega
    have second : 1 < (accountsWritten cfg es).length := by omega
    refine ⟨_, List.getElem_mem first, _, List.getElem_mem second, fun same => ?_⟩
    exact absurd (nodup.getElem_inj_iff.mp same) (by omega)
  exact returnsPair differ (by rw [read]; exact length) every

theorem server_file_ends_two :
    ReturnsPair (some (accountsFile [] twoAddressesFive twoCreated)) Draw.ofIndex :=
  server_file_ends twoAddressesFive twoAddresses_clean twoCreated (by decide) (by decide)
    fun i inside => ⟨i, Nat.mod_eq_of_lt inside⟩

end PatientAccess.Chain
