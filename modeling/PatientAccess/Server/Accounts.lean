/-
# Server.Accounts -- the account a creation request registers

A creation request is about one account: the one `createNewAccount` made for it, or
the one whose address the client gave.  `addUser` reads the account off a property of
its argument, `newAccount.address`, and three routes hand it an object with that
property.  The fourth hands it a string, which has none, so it registers the account
`undefined`, next to a transfer to the right one.

`registers_own_iff` says which requests fund and register their own account.
-/
import PatientAccess.Server.EventLoop

namespace PatientAccess.Server

open PatientAccess.Theory

set_option autoImplicit false

/-- The arguments of `contract.tx.addUser`; `none` is undefined. -/
structure AddUserTx where
  accountId : Option String
  userInfo : Contract.UserInfo
  role : Nat

/-- The contract call `addUser` builds. -/
def Submission.addUserTx : Submission → Option AddUserTx
  | .transferFunds _ _ => none
  | .addUser newAccount userInfo role _ => some { accountId := newAccount.address, userInfo, role }

/-- The recipient of the transfer `transferFunds` builds. -/
def Submission.recipient : Submission → Option (Option String)
  | .transferFunds recipient _ => some recipient
  | .addUser _ _ _ _ => none

/-- The submissions a handler comes to make, if all of them resolve. -/
def Handler.submissions (h : Handler) : List Submission :=
  h.awaits.filterMap fun
    | .timer => none
    | .submission s => some s

/-- The account ids a handler passes to `contract.tx.addUser`. -/
def Handler.registered (h : Handler) : List (Option String) :=
  h.submissions.filterMap fun s => s.addUserTx.map AddUserTx.accountId

/-- The accounts a handler funds. -/
def Handler.funded (h : Handler) : List (Option String) :=
  h.submissions.filterMap Submission.recipient

/-- The account a request is about: the one created for it, or the one supplied. -/
def Route.account (keyring : Keyring) (generated : String) (b : CreateUserBody) :
    Route → Except String String
  | .createUser | .createUserWithDynamicGas => keyring.addressFromUri (mnemonicOf generated none)
  | .createUserBasedOnPersonalizedMnemonic =>
      keyring.addressFromUri (mnemonicOf generated b.address)
  | .createUserWithExistingAddress => keyring.encodeAddress b.address

/-- A handler registers this account, and funds no other. -/
structure Handler.RegistersOnly (h : Handler) (account : String) : Prop where
  registered : h.registered = [some account]
  funded : ∀ recipient ∈ h.funded, recipient = some account

theorem createNewAccount_address {keyring : Keyring} {generated : String}
    {customText : Option String} {newAccount : NewAccount}
    (created : createNewAccount keyring generated customText = .ok newAccount) :
    ∃ address, newAccount.address = some address ∧
      keyring.addressFromUri (mnemonicOf generated customText) = .ok address := by
  simp only [createNewAccount] at created
  split at created
  · cases created
  · rename_i address found
    cases created
    exact ⟨address, rfl, found⟩

/-- A handler that submits one registration, of `newAccount`, and at most a transfer to its
address before it. -/
theorem Handler.registersOnly {h : Handler} {newAccount : NewAccount} {address : String}
    (has : newAccount.address = some address) {userInfo : Contract.UserInfo} {role : Nat}
    {passesRes : Bool}
    (submits : h.submissions = [.addUser newAccount userInfo role passesRes] ∨
      h.submissions = [.transferFunds newAccount.address fundingAmount,
        .addUser newAccount userInfo role passesRes]) : h.RegistersOnly address := by
  rcases submits with one | two
  · constructor
    · rw [Handler.registered, one]
      show [newAccount.address] = [some address]
      rw [has]
    · rw [Handler.funded, one]
      exact fun recipient funded => absurd funded List.not_mem_nil
  · constructor
    · rw [Handler.registered, two]
      show [newAccount.address] = [some address]
      rw [has]
    · rw [Handler.funded, two]
      intro recipient funded
      have funded : recipient ∈ [newAccount.address] := funded
      rw [List.mem_singleton.mp funded, has]

/-- **Which requests register their own account.**  On every route a request that comes to
submit anything funds no account but its own; it registers its own exactly if the route
is not the one for an existing address. -/
theorem registers_own_iff (keyring : Keyring) (generated : String) (b : CreateUserBody)
    (route : Route) :
    (∀ h, route.enter keyring generated b = .runs h →
        ∃ account, route.account keyring generated b = .ok account ∧ h.RegistersOnly account) ↔
      (route = .createUserWithExistingAddress →
        ∃ e, route.account keyring generated b = .error e) := by
  cases route with
  | createUser =>
      refine iff_of_true (fun h enters => ?_) (by simp)
      simp only [Route.enter, createUser] at enters
      split at enters
      · cases enters
      · rename_i newAccount created
        cases enters
        obtain ⟨address, has, found⟩ := createNewAccount_address created
        exact ⟨address, found, Handler.registersOnly has (.inl rfl)⟩
  | createUserBasedOnPersonalizedMnemonic =>
      refine iff_of_true (fun h enters => ?_) (by simp)
      simp only [Route.enter, createUserBasedOnPersonalizedMnemonic] at enters
      split at enters
      · cases enters
      · rename_i newAccount created
        cases enters
        obtain ⟨address, has, found⟩ := createNewAccount_address created
        exact ⟨address, found, Handler.registersOnly has (.inr rfl)⟩
  | createUserWithDynamicGas =>
      refine iff_of_true (fun h enters => ?_) (by simp)
      simp only [Route.enter, createUserWithDynamicGas] at enters
      split at enters
      · cases enters
      · rename_i newAccount created
        cases enters
        obtain ⟨address, has, found⟩ := createNewAccount_address created
        exact ⟨address, found, Handler.registersOnly has (.inr rfl)⟩
  | createUserWithExistingAddress =>
      simp only [Route.enter, createUserWithExistingAddress, Route.account, true_imp_iff]
      cases keyring.encodeAddress b.address with
      | error e => simp
      | ok address =>
          refine iff_of_false (fun claim => ?_) (by simp)
          -- the string has no `address`, so the account registered is undefined
          obtain ⟨account, -, own⟩ := claim _ rfl
          have undefined_ : [none] = [some account] := own.registered
          cases undefined_

/-- A keyring that knows one address. -/
def oneExisting : Keyring where
  addressFromUri _ := .error "no mnemonic"
  encodeAddress
    | some address => .ok address
    | none => .error "Decoding null"

/-- Given an address that is in order, the route funds it and registers `undefined`. -/
theorem existing_address_registers_undefined :
    ¬ ∀ keyring generated b (route : Route) h, route.enter keyring generated b = .runs h →
      ∃ account, route.account keyring generated b = .ok account ∧ h.RegistersOnly account := by
  intro claim
  have registers := claim oneExisting "mnemonic"
    ⟨some "5GrwvaEF5zXb26Fz9rcQpDWS57CtERHpNehXCPcNoHGKutQY", Contract.alice, 0⟩
    .createUserWithExistingAddress _ rfl
  obtain ⟨account, -, own⟩ := registers
  have undefined_ : [none] = [some account] := own.registered
  cases undefined_

end PatientAccess.Server
