import Morai.Foundation.Runs
import Morai.Identity.Requests

/-!
# Which accounts can be written to

A data key is provisioned with an account in one transaction and destroyed
with it in one transaction, so the two stay together through every request and
every interruption. The account `create_admin` makes is the exception: nothing
provisions its key.
-/

namespace Morai.Identity.DataKeys

open Morai.Crypto Morai.Db Morai.Python Morai.Foundation.PrimaryKey Morai.Foundation.Attempts
  Morai.Foundation.Runs
open Morai.Identity.Tables Morai.Identity.Requests

set_option autoImplicit false

variable (keys : KeyService) (credentials : Credentials)

/-- The user has a `user_data_keys` row that unwraps under the configured
master key. -/
def HasUsableKey (system : System) (userId : Uuid) : Prop :=
  ∃ row ∈ system.ledger.userDataKeys.rows, row.userId = userId ∧
    ∃ dek, keys.unwrapDek row.wrappedDek row.wrapNonce keys.masterKeyBytes = some dek

/-- The data keys are those of the accounts that are not the admin's. -/
structure KeysMatchAccounts (system : System) : Prop where
  keyed : ∀ user ∈ system.users.rows, user.isAdmin = false →
    ∃ row ∈ system.ledger.userDataKeys.rows, row.userId = user.id
  owned : ∀ row ∈ system.ledger.userDataKeys.rows,
    ∃ user ∈ system.users.rows, user.id = row.userId ∧ user.isAdmin = false
  unwraps : ∀ row ∈ system.ledger.userDataKeys.rows, ∃ dek,
    keys.unwrapDek row.wrappedDek row.wrapNonce keys.masterKeyBytes = some dek

theorem empty_keys_match : KeysMatchAccounts keys System.empty where
  keyed user member := by cases member
  owned row member := by cases member
  unwraps row member := by cases member

theorem password_keys_match (before after : System) (user : User)
    (stored : user ∈ before.users.rows) (passwordHash : Option String)
    (users : after.users = before.users.put { user with passwordHash := passwordHash })
    (userDataKeys : after.ledger.userDataKeys = before.ledger.userDataKeys)
    (holds : KeysMatchAccounts keys before) : KeysMatchAccounts keys after := by
  have lookup : ∀ id, after.users.get? id =
      if user.id = id then some { user with passwordHash := passwordHash }
      else before.users.get? id := by
    intro id
    rw [users]
    exact put_get _ _ _
  constructor
  · intro other member notAdmin
    rw [userDataKeys]
    have found : after.users.get? other.id = some other :=
      (get_eq_some_iff _ _ _).mpr ⟨member, rfl⟩
    rw [lookup] at found
    split_ifs at found with same
    · cases found
      exact holds.keyed user stored notAdmin
    · exact holds.keyed other ((get_eq_some_iff _ _ _).mp found).1 notAdmin
  · intro row member
    rw [userDataKeys] at member
    rcases holds.owned row member with ⟨owner, ownerStored, owns, notAdmin⟩
    by_cases same : user.id = owner.id
    · have sameUser : owner = user := List.inj_on_of_nodup_map before.users.unique ownerStored
        stored same.symm
      have found := lookup user.id
      rw [if_pos rfl] at found
      exact ⟨_, ((get_eq_some_iff _ _ _).mp found).1, sameUser ▸ owns, sameUser ▸ notAdmin⟩
    · have found := lookup owner.id
      rw [if_neg same, (get_eq_some_iff _ _ _).mpr ⟨ownerStored, rfl⟩] at found
      exact ⟨owner, ((get_eq_some_iff _ _ _).mp found).1, owns, notAdmin⟩
  · rw [userDataKeys]
    exact holds.unwraps

theorem new_admin_keys_match (before after : System) (user : User) (admin : user.isAdmin = true)
    (users : after.users.rows = before.users.rows ++ [user])
    (userDataKeys : after.ledger.userDataKeys = before.ledger.userDataKeys)
    (holds : KeysMatchAccounts keys before) : KeysMatchAccounts keys after := by
  constructor
  · intro other member notAdmin
    rw [users] at member
    rw [userDataKeys]
    cases List.mem_append.mp member with
    | inl old => exact holds.keyed other old notAdmin
    | inr new =>
        rw [List.mem_singleton.mp new, admin] at notAdmin
        cases notAdmin
  · intro row member
    rw [userDataKeys] at member
    rcases holds.owned row member with ⟨owner, ownerStored, owns⟩
    rw [users]
    exact ⟨owner, List.mem_append_left _ ownerStored, owns⟩
  · rw [userDataKeys]
    exact holds.unwraps

theorem new_user_keys_match (before after : System) (user : User) (notAdmin : user.isAdmin = false)
    (users : after.users.rows = before.users.rows ++ [user]) (dek wrapNonce : Bytes)
    (userDataKeys : after.ledger.userDataKeys.rows = before.ledger.userDataKeys.rows ++
      [⟨user.id, 1, keys.wrapDek dek keys.masterKeyBytes wrapNonce, wrapNonce⟩])
    (holds : KeysMatchAccounts keys before) : KeysMatchAccounts keys after := by
  constructor
  · intro other member otherNotAdmin
    rw [users] at member
    rw [userDataKeys]
    cases List.mem_append.mp member with
    | inl old =>
        rcases holds.keyed other old otherNotAdmin with ⟨row, stored, owns⟩
        exact ⟨row, List.mem_append_left _ stored, owns⟩
    | inr new =>
        rw [List.mem_singleton.mp new]
        exact ⟨_, List.mem_append_right _ (List.mem_singleton_self _), rfl⟩
  · intro row member
    rw [userDataKeys] at member
    rw [users]
    cases List.mem_append.mp member with
    | inl old =>
        rcases holds.owned row old with ⟨owner, ownerStored, owns⟩
        exact ⟨owner, List.mem_append_left _ ownerStored, owns⟩
    | inr new =>
        rw [List.mem_singleton.mp new]
        exact ⟨user, List.mem_append_right _ (List.mem_singleton_self _), rfl, notAdmin⟩
  · intro row member
    rw [userDataKeys] at member
    cases List.mem_append.mp member with
    | inl old => exact holds.unwraps row old
    | inr new =>
        rw [List.mem_singleton.mp new]
        exact ⟨dek, keys.unwrap_wrap _ _ _⟩

theorem deletion_keys_match (before after : System) (userId : Uuid)
    (users : after.users = before.users.filter fun user => user.id ≠ userId)
    (userDataKeys : after.ledger.userDataKeys.rows =
      before.ledger.userDataKeys.rows.filter fun row => row.userId ≠ userId)
    (holds : KeysMatchAccounts keys before) : KeysMatchAccounts keys after := by
  have userKept : ∀ user, user ∈ after.users.rows ↔
      user ∈ before.users.rows ∧ user.id ≠ userId := by
    intro user
    rw [users]
    simp [KeyedTable.filter]
  have keyKept : ∀ row, row ∈ after.ledger.userDataKeys.rows ↔
      row ∈ before.ledger.userDataKeys.rows ∧ row.userId ≠ userId := by
    intro row
    rw [userDataKeys]
    simp
  constructor
  · intro user member notAdmin
    have kept := (userKept user).mp member
    rcases holds.keyed user kept.1 notAdmin with ⟨row, stored, owns⟩
    exact ⟨row, (keyKept row).mpr ⟨stored, owns ▸ kept.2⟩, owns⟩
  · intro row member
    have kept := (keyKept row).mp member
    rcases holds.owned row kept.1 with ⟨user, stored, owns, notAdmin⟩
    exact ⟨user, (userKept user).mpr ⟨stored, owns ▸ kept.2⟩, owns, notAdmin⟩
  · intro row member
    exact holds.unwraps row ((keyKept row).mp member).1

theorem effect_keys_match (before after : System) (holds : KeysMatchAccounts keys before)
    (effect : Effect keys before after) : KeysMatchAccounts keys after := by
  cases effect with
  | nothing users userDataKeys =>
      constructor
      · rw [users, userDataKeys]
        exact holds.keyed
      · rw [users, userDataKeys]
        exact holds.owned
      · rw [userDataKeys]
        exact holds.unwraps
  | password user stored passwordHash users userDataKeys =>
      exact password_keys_match keys before after user stored passwordHash users userDataKeys holds
  | newAdmin user admin fresh users userDataKeys =>
      exact new_admin_keys_match keys before after user admin users userDataKeys holds
  | newUser user notAdmin fresh users dek wrapNonce userDataKeys =>
      exact new_user_keys_match keys before after user notAdmin users dek wrapNonce userDataKeys
        holds
  | deletion userId users userDataKeys =>
      exact deletion_keys_match keys before after userId users userDataKeys holds

theorem run_keys_match (calls : List Call) (final : System)
    (ran : runFrom (answer keys credentials) calls System.empty = some final) :
    KeysMatchAccounts keys final := by
  apply run_keeps (answer keys credentials) (fun _ _ => True) (KeysMatchAccounts keys) _ calls _
    final (empty_keys_match keys) (meets_trivial _ _ _) ran
  intro system call next holds _ answered
  rcases Option.map_eq_some_iff.mp answered with ⟨ended, served, same⟩
  rw [← same]
  exact serve_keeps keys credentials call.faults call.request (KeysMatchAccounts keys)
    (effect_keys_match keys) system ended.1 ended.2 holds served

theorem usable_key_iff (system : System) (holds : KeysMatchAccounts keys system) (user : User)
    (stored : user ∈ system.users.rows) :
    HasUsableKey keys system user.id ↔ user.isAdmin = false := by
  constructor
  · intro usable
    rcases usable with ⟨row, member, owns, _⟩
    rcases holds.owned row member with ⟨owner, ownerStored, ownerOwns, notAdmin⟩
    have same : owner = user := List.inj_on_of_nodup_map system.users.unique ownerStored stored
      (ownerOwns.trans owns)
    exact same ▸ notAdmin
  · intro notAdmin
    rcases holds.keyed user stored notAdmin with ⟨row, member, owns⟩
    exact ⟨row, member, owns, holds.unwraps row member⟩

theorem current_dek_iff (system : System) (holds : KeysMatchAccounts keys system) (userId : Uuid) :
    (∃ dek keyVersion, currentDek keys system.ledger userId = .ok (dek, keyVersion)) ↔
      HasUsableKey keys system userId := by
  constructor
  · intro current
    rcases current with ⟨dek, keyVersion, found⟩
    unfold currentDek at found
    split at found
    · cases found
    · rename_i row latest
      have own := List.mem_filter.mp (latest_key_row_mem _ row latest)
      exact ⟨row, own.1, by simpa using own.2, holds.unwraps row own.1⟩
  · intro usable
    rcases usable with ⟨row, member, owns, _⟩
    exact current_dek_of_rows keys system.ledger userId ⟨row, member, owns⟩ holds.unwraps

/-- After any sequence of requests, every account can be written to exactly
when none of them is an admin's, which only `create_admin` makes; and account
by account the writers find a data key exactly where the account is not. -/
theorem accounts_writable_iff (calls : List Call) (final : System)
    (ran : runFrom (answer keys credentials) calls System.empty = some final) :
    ((∀ user ∈ final.users.rows, HasUsableKey keys final user.id) ↔
      ∀ user ∈ final.users.rows, user.isAdmin = false) ∧
    ∀ user ∈ final.users.rows,
      ((∃ dek keyVersion, currentDek keys final.ledger user.id = .ok (dek, keyVersion)) ↔
        user.isAdmin = false) := by
  have holds := run_keys_match keys credentials calls final ran
  constructor
  · constructor
    · intro all user stored
      exact (usable_key_iff keys final holds user stored).mp (all user stored)
    · intro none user stored
      exact (usable_key_iff keys final holds user stored).mpr (none user stored)
  · intro user stored
    exact (current_dek_iff keys final holds user.id).trans (usable_key_iff keys final holds user
      stored)

/-- Tokens and passwords stored as they are. -/
def plainCredentials : Credentials where
  hashToken rawToken := rawToken
  hashPassword password _ := password
  verifyPassword storedHash password := storedHash = password
  needsRehash _ := false

def undisturbed (request : Request) : Call := ⟨request, fun _ => none⟩

/-- The bootstrap as the script documents it, up to the admin's first
session. -/
def bootstrap : List Call :=
  [undisturbed (.createAdmin "first-admin" ⟨1⟩ "setup-token" 0),
    undisturbed (.setup "setup-token" "password" [] 1),
    undisturbed (.login "first-admin" "password" [] "session-token" 2)]

/-- The admin then creates a user and deletes the own account. -/
def handedOver : List Call :=
  bootstrap ++
    [undisturbed (.createUser (some "session-token") "user" ⟨2⟩ "user-token" [7] [1] 3),
      undisturbed (.deleteMe (some "session-token") 4)]

theorem accounts_writable_iff_handed_over : ∃ final,
    runFrom (answer plainKeys plainCredentials) handedOver System.empty = some final ∧
      final.users.rows ≠ [] ∧
      ∀ user ∈ final.users.rows, HasUsableKey plainKeys final user.id := by
  have computed : (runFrom (answer plainKeys plainCredentials) handedOver System.empty).any
      (fun final => final.users.rows ≠ [] ∧ ∀ user ∈ final.users.rows, user.isAdmin = false) =
        true := by
    decide +kernel
  rcases (Option.any_eq_true_iff_get _ _).mp computed with ⟨present, holds⟩
  have ran := (Option.some_get present).symm
  have facts := of_decide_eq_true holds
  exact ⟨_, ran, facts.1,
    (accounts_writable_iff plainKeys plainCredentials handedOver _ ran).1.mpr facts.2⟩

/-- The first admin is logged in, and no writer finds a data key for the
account. -/
theorem bootstrapped_admin_has_no_key : ∃ final,
    runFrom (answer plainKeys plainCredentials) bootstrap System.empty = some final ∧
      (∃ row ∈ final.sessions.rows, row.userId = ⟨1⟩) ∧
      ∃ user ∈ final.users.rows, user.id = ⟨1⟩ ∧ ¬HasUsableKey plainKeys final user.id := by
  have computed : (runFrom (answer plainKeys plainCredentials) bootstrap System.empty).any
      (fun final => (∃ row ∈ final.sessions.rows, row.userId = ⟨1⟩) ∧
        (∃ user ∈ final.users.rows, user.id = ⟨1⟩) ∧ final.ledger.userDataKeys.rows = []) =
        true := by
    decide +kernel
  rcases (Option.any_eq_true_iff_get _ _).mp computed with ⟨present, holds⟩
  rcases of_decide_eq_true holds with ⟨session, ⟨user, stored, named⟩, noKeys⟩
  refine ⟨_, (Option.some_get present).symm, session, user, stored, named, ?_⟩
  rintro ⟨row, member, _⟩
  rw [noKeys] at member
  cases member

end Morai.Identity.DataKeys
