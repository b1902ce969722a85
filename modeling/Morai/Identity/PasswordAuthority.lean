import Morai.Identity.DataKeys
import Morai.Identity.RedeemedTokens

/-!
# Who changes a password

Every change of a stored `password_hash` is the work of a `/setup` that took
the token it presented, or of a `/login` that rehashes. The login verified the
hash it had read, which another commit may have replaced since.
-/

namespace Morai.Identity.PasswordAuthority

open Morai.Crypto Morai.Db Morai.Python Morai.Foundation.PrimaryKey Morai.Foundation.RowLocks
open Morai.Foundation.Runs Morai.Identity.Tables Morai.Identity.Deletion Morai.Identity.Requests
open Morai.Identity.DataKeys Morai.Identity.ConcurrentRequests Morai.Identity.RequestSteps
open Morai.Identity.RequestInvariants Morai.Identity.LiveSessions Morai.Identity.RedeemedTokens

set_option autoImplicit false

/-! ## What a commit makes of a user -/

def rehashed (change : Option PasswordChange) (user : User) : User :=
  match change with
  | none => user
  | some change =>
      if change.userId = user.id then { user with passwordHash := some change.passwordHash }
      else user

section Stored

variable {Row Key : Type} [DecidableEq Key] {key : Row → Key}

theorem add_row_get (row : Option Row) (table : KeyedTable key) (wanted : Key) :
    (addRow row table).get? wanted =
      (table.get? wanted).or (row.filter fun new => key new = wanted) := by
  apply Option.ext
  intro stored
  rw [get_eq_some_iff, mem_add_row, Option.or_eq_some_iff, get_eq_some_iff, get_eq_none_iff,
    Option.filter_eq_some_iff, decide_eq_true_eq]
  constructor
  · rintro ⟨old | ⟨same, fresh⟩, rfl⟩
    · exact Or.inl ⟨old, rfl⟩
    · exact Or.inr ⟨fresh, same, rfl⟩
  · rintro (⟨old, rfl⟩ | ⟨fresh, same, rfl⟩)
    · exact ⟨Or.inl old, rfl⟩
    · exact ⟨Or.inr ⟨same, fresh⟩, rfl⟩

theorem set_hash_get (change : Option PasswordChange) (users : KeyedTable User.id) (userId : Uuid) :
    (setHash change users).get? userId = (users.get? userId).map (rehashed change) := by
  cases change with
  | none => exact (congrFun Option.map_id _).symm
  | some change =>
      have keyed : ∀ user, users.get? userId = some user → user.id = userId :=
        fun user found => ((get_eq_some_iff _ _ _).mp found).2
      simp only [setHash]
      split
      · rename_i absent
        cases found : users.get? userId with
        | none => rfl
        | some user =>
            have other : change.userId ≠ user.id := by
              intro same
              rw [same, keyed user found, found] at absent
              cases absent
            simp [rehashed, other]
      · rename_i stored present
        have storedId := ((get_eq_some_iff _ _ _).mp present).2
        rw [put_get]
        dsimp only
        split_ifs with same
        · subst same
          rw [← storedId] at present
          rw [present, Option.map_some, rehashed, if_pos storedId.symm]
        · cases found : users.get? userId with
          | none => rfl
          | some user =>
              have other : change.userId ≠ user.id := by
                rw [keyed user found, ← storedId]
                exact same
              simp [rehashed, other]

theorem apply_user_get (credentials : Credentials) (writes : Writes) (system : System)
    (userId : Uuid) : (writes.apply credentials system).users.get? userId =
      if writes.deletion.map AccountDeletion.userId = some userId then none
      else ((system.users.get? userId).or (writes.user.filter fun user => user.id = userId)).map
        (rehashed writes.password) := by
  rw [apply_users]
  cases writes.deletion with
  | none =>
      rw [if_neg (by simp), set_hash_get, add_row_get]
  | some deletion =>
      have shrunk : ∀ users : KeyedTable User.id,
          (users.filter fun user => user.id ≠ deletion.userId).get? userId =
            if deletion.userId = userId then none else users.get? userId := by
        intro users
        apply Option.ext
        intro user
        rw [get_eq_some_iff]
        simp only [KeyedTable.filter, List.mem_filter, decide_eq_true_eq]
        split_ifs with same
        · simp only [iff_false]
          rintro ⟨⟨_, kept⟩, named⟩
          exact kept (named.trans same.symm)
        · rw [get_eq_some_iff]
          constructor
          · rintro ⟨⟨member, _⟩, named⟩
            exact ⟨member, named⟩
          · rintro ⟨member, named⟩
            exact ⟨⟨member, fun gone => same (gone.symm.trans named)⟩, named⟩
      dsimp only
      rw [shrunk, set_hash_get, add_row_get]
      simp

end Stored

/-! ## What the commits say -/

section History

variable (credentials : Credentials)

def committedBy (initial : System) (history : List Entry) : System :=
  history.foldl (Entry.apply credentials) initial

theorem committed_by_concat (initial : System) (history : List Entry) (last : Entry) :
    committedBy credentials initial (history ++ [last]) =
      last.apply credentials (committedBy credentials initial history) := by
  rw [committedBy, List.foldl_append]
  rfl

/-- The hash a commit gives the user. -/
def hashGiven (userId : Uuid) (entry : Entry) : Option String :=
  (entry.writes.password.filter fun change => change.userId = userId).map
    PasswordChange.passwordHash

/-- The last hash these commits give the user. -/
def changedTo (userId : Uuid) (history : List Entry) : Option String :=
  history.foldl (fun earlier entry => (hashGiven userId entry).or earlier) none

theorem changed_to_concat (userId : Uuid) (history : List Entry) (last : Entry) :
    changedTo userId (history ++ [last]) = (hashGiven userId last).or (changedTo userId history) := by
  rw [changedTo, List.foldl_append]
  rfl

/-- `/login` of this user, with a password that opens the hash stored. -/
def ByLogin (old : User) : Entry → Prop
  | .request _ (.login username password) _ => old.username = username ∧
      ∃ storedHash, old.passwordHash = some storedHash ∧
        credentials.verifyPassword storedHash password = true
  | _ => False

/-- `/setup` with the raw value of a token redeemed before, which was issued
for the user to set a password with. -/
def BySetup (before : List Entry) (userId : Uuid) : Entry → Prop
  | .request id (.setup rawToken _) _ => ∃ issue, Redeemed before id issue ∧
      issue.rawToken = rawToken ∧ issue.userId = userId ∧ issue.purpose ≠ .oauthState
  | _ => False

/-- `/schwab/callback` with the state of a redirect begun for the user. -/
def ByCallback (before : List Entry) (userId : Uuid) : Entry → Prop
  | .request id (.callback rawState _) _ => ∃ issue, Redeemed before id issue ∧
      issue.rawToken = rawState ∧ issue.userId = userId ∧ issue.purpose = .oauthState
  | _ => False

/-- The commit gives a user who was there another hash. -/
def Rehashes (initial : System) (before : List Entry) (entry : Entry) (old new : User) : Prop :=
  (committedBy credentials initial before).users.get? old.id = some old ∧
    (committedBy credentials initial (before ++ [entry])).users.get? old.id = some new ∧
    old.passwordHash ≠ new.passwordHash

structure PasswordsGuarded (initial : System) (state : State) : Prop where
  committed : state.system = committedBy credentials initial state.history
  passwords : ∀ before entry after, state.history = before ++ entry :: after → ∀ old new,
    Rehashes credentials initial before entry old new →
      BySetup before old.id entry ∨ ByLogin credentials old entry
  connections : ∀ before entry after, state.history = before ++ entry :: after → ∀ row,
    entry.writes.connection = some row → ByCallback before row.userId entry
  once : ∀ before entry after rawToken, state.history = before ++ entry :: after →
    TakesEffect rawToken entry → ∀ later ∈ after, ¬TakesEffect rawToken later
  purposes : ∀ issue, IssuedToken state.history issue → ∀ id route writes,
    Entry.request id route writes ∈ state.history →
      (∃ purpose, Presents route issue.rawToken purpose) →
        (writes.password ≠ none → issue.purpose ≠ .oauthState) ∧
          (writes.connection ≠ none → issue.purpose = .oauthState)

/-- Every login that rehashes has opened the hash it replaces. -/
def LoginsSound (initial : System) (history : List Entry) : Prop :=
  ∀ before id route writes after, history = before ++ .request id route writes :: after →
    routeKind route = .login → ∀ old new,
      Rehashes credentials initial before (.request id route writes) old new →
        ByLogin credentials old (.request id route writes)

/-- The last hash committed for the user since the login read one, if any, is
one its password opens, or the very hash the login writes. -/
def Untouched (history : List Entry) (txn : Txn) : Prop :=
  match txn.route with
  | .login _ password => ∀ change ∈ txn.writes.password,
      ∀ hash ∈ changedTo change.userId (history.drop change.knownSince),
        hash ≠ change.passwordHash → credentials.verifyPassword hash password = true
  | _ => True

instance decidableUntouched (history : List Entry) (txn : Txn) :
    Decidable (Untouched credentials history txn) :=
  match shape : txn.route with
  | .login _ password =>
      decidable_of_iff (∀ change ∈ txn.writes.password,
        ∀ hash ∈ changedTo change.userId (history.drop change.knownSince),
          hash ≠ change.passwordHash → credentials.verifyPassword hash password = true)
        (by rw [Untouched, shape])
  | .createAdmin _ | .createUser _ _ | .resetPassword _ _ | .setup _ _ | .logout _ | .connect _
  | .callback _ _ | .deleteMe _ | .visit _ => isTrue (by rw [Untouched, shape]; trivial)

def NotOvertaken (state : State) : Action → Prop
  | .commit id => ∀ txn ∈ state.opened.txns id, Untouched credentials state.history txn
  | _ => True

instance decidableNotOvertaken (state : State) :
    ∀ action, Decidable (NotOvertaken credentials state action)
  | .commit id => inferInstanceAs (Decidable (∀ txn ∈ state.opened.txns id, _))
  | .arrive _ | .execute _ _ | .rollback _ | .elsewhere _ _ => isTrue trivial

end History

/-! ## The invariant -/

section Invariant

variable (credentials : Credentials) (values : Set String) (initial : System)

/-- What a login read is what is stored, save for what was committed since. -/
structure Verified (system : System) (history : List Entry) (username password : String)
    (userId : Uuid) (knownSince : Nat) : Prop where
  past : knownSince ≤ history.length
  there : system.users.Has userId ∨ ∃ entry ∈ history, Deletes userId entry
  current : ∃ storedHash, credentials.verifyPassword storedHash password = true ∧
    ∀ user, system.users.get? userId = some user → user.username = username ∧
      user.passwordHash = some ((changedTo userId (history.drop knownSince)).getD storedHash)

/-- The transaction has set the password of this user, or will. -/
def Sets (txn : Txn) (userId : Uuid) (knownSince : Nat) : Prop :=
  (∃ change, txn.writes.password = some change ∧ change.userId = userId ∧
    change.knownSince = knownSince) ∨
    ∃ unmatched password, Write.setPassword unmatched userId password knownSince ∈ todoOf txn.stage

structure Relying (system : System) (history : List Entry) (id : Nat) (txn : Txn) : Prop where
  user : ∀ user, txn.writes.user = some user → ¬system.users.Has user.id
  owner : ∀ change, txn.writes.password = some change → system.users.Has change.userId
  login : ∀ username password, txn.route = .login username password → ∀ userId knownSince,
    Sets txn userId knownSince →
      Verified credentials system history username password userId knownSince

/-- The store is what the commits make of the first one. -/
def Replayed (system : System) (history : List Entry) : Prop :=
  system = committedBy credentials initial history

variable {credentials values} {system : System} {history : List Entry} {id : Nat} {txn : Txn}

/-- Another commit gives the user the hash it is known by, or leaves it. -/
theorem verified_stays (username password : String) (userId : Uuid) (knownSince : Nat)
    (verified : Verified credentials system history username password userId knownSince)
    (otherId : Nat) (other : Txn) (adds : ∀ user, other.writes.user = some user →
      ¬system.users.Has user.id) (fresh : NewTokens history other.writes) :
    Verified credentials (systemAfter credentials system other) (historyAfter history otherId other)
      username password userId knownSince := by
  obtain ⟨past, there, storedHash, opens, current⟩ := verified
  refine ⟨?_, ?_, storedHash, opens, ?_⟩
  · rw [historyAfter, List.length_append]
    exact Nat.le_add_right_of_le past
  · cases there with
    | inl has =>
        by_cases gone : other.writes.deletion.map AccountDeletion.userId = some userId
        · exact Or.inr ⟨_, List.mem_append_right _ List.mem_cons_self, gone⟩
        · exact Or.inl ((apply_users_has credentials _ _ _).mpr ⟨Or.inl has, gone⟩)
    | inr gone =>
        obtain ⟨entry, member, deletes⟩ := gone
        exact Or.inr ⟨entry, List.mem_append_left _ member, deletes⟩
  · intro user found
    rw [systemAfter, apply_user_get] at found
    split_ifs at found
    obtain ⟨old, source, same⟩ := Option.map_eq_some_iff.mp found
    have before : system.users.get? userId = some old := by
      cases Option.or_eq_some_iff.mp source with
      | inl stored => exact stored
      | inr new =>
          obtain ⟨absent, added⟩ := new
          obtain ⟨adding, named⟩ := Option.filter_eq_some_iff.mp added
          have sameId : old.id = userId := of_decide_eq_true named
          cases there with
          | inl has => exact absurd (sameId ▸ has) (adds old adding)
          | inr gone =>
              obtain ⟨entry, member, deletes⟩ := gone
              exact absurd (sameId ▸ deletes) (fresh.2 old adding entry member)
    have oldId : old.id = userId := ((get_eq_some_iff _ _ _).mp before).2
    obtain ⟨sameName, hash⟩ := current old before
    have suffix : (historyAfter history otherId other).drop knownSince =
        history.drop knownSince ++ [.request otherId other.route other.writes] :=
      List.drop_append_of_le_length past
    rw [suffix, changed_to_concat, ← same]
    unfold rehashed hashGiven Entry.writes
    cases other.writes.password with
    | none => exact ⟨sameName, hash⟩
    | some change =>
        dsimp only
        rw [oldId]
        split_ifs with mine
        · exact ⟨sameName, by simp [Option.filter, mine]⟩
        · exact ⟨sameName, by simpa [Option.filter, mine] using hash⟩

theorem no_user_of_setting (shaped : Shaped txn) (unmatched : Failure) (userId : Uuid)
    (password : String) (knownSince : Nat) (rest : List Write)
    (writing : txn.stage = .writing (.setPassword unmatched userId password knownSince :: rest)) :
    txn.writes.user = none := by
  have fits := shaped.stage
  rw [writing] at fits
  have kind : routeKind txn.route ∈ [Kind.setup, Kind.login] := fits.2 _ List.mem_cons_self
  apply shaped.writes.no_user
  · intro other
    simp [other] at kind
  · intro other
    simp [other] at kind

theorem relying_with (relying : Relying credentials system history id txn) (stage : Stage)
    (writes : Writes) (user : ∀ user, writes.user = some user → ¬system.users.Has user.id)
    (owner : ∀ change, writes.password = some change → system.users.Has change.userId)
    (sets : routeKind txn.route = .login → ∀ userId knownSince,
      Sets ⟨txn.route, stage, writes⟩ userId knownSince → Sets txn userId knownSince) :
    Relying credentials system history id ⟨txn.route, stage, writes⟩ where
  user := user
  owner := owner
  login username password route userId knownSince setting := by
    have login : txn.route = .login username password := route
    exact relying.login username password login userId knownSince
      (sets (by rw [login]; rfl) userId knownSince setting)

/-- A stage of a transaction that sets no password from here on. -/
theorem relying_plain (relying : Relying credentials system history id txn) (stage : Stage)
    (plain : ∀ unmatched userId password knownSince,
      Write.setPassword unmatched userId password knownSince ∉ todoOf stage) :
    Relying credentials system history id ⟨txn.route, stage, txn.writes⟩ := by
  apply relying_with relying stage txn.writes relying.user relying.owner
  rintro _ userId knownSince (wrote | ⟨unmatched, password, member⟩)
  · exact Or.inl wrote
  · exact absurd member (plain _ _ _ _)

theorem relying_wrote (relying : Relying credentials system history id txn) (shaped : Shaped txn)
    (draw : Draw) (write : Write) (rest : List Write) (writes : Writes)
    (writing : txn.stage = .writing (write :: rest))
    (performed : Performed credentials draw (txn.writes.apply credentials system) txn.writes write
      writes) :
    Relying credentials system history id ⟨txn.route, .writing rest, writes⟩ := by
  have later : ∀ later ∈ rest, later ∈ todoOf txn.stage := by
    intro later member
    rw [writing]
    exact List.mem_cons_of_mem _ member
  have kept : ∀ writes : Writes, writes.password = txn.writes.password → ∀ userId knownSince,
      Sets ⟨txn.route, .writing rest, writes⟩ userId knownSince → Sets txn userId knownSince := by
    rintro writes same userId knownSince (⟨change, wrote, facts⟩ | ⟨unmatched, password, member⟩)
    · exact Or.inl ⟨change, same ▸ wrote, facts⟩
    · exact Or.inr ⟨unmatched, password, later _ member⟩
  have still := fun writes user owner same =>
    relying_with relying (.writing rest) writes user owner (fun _ => kept writes same)
  cases performed with
  | user user fresh =>
      refine still _ ?_ relying.owner rfl
      intro added same has
      cases same
      have fits := shaped.stage
      rw [writing] at fits
      have kind : routeKind txn.route ≠ .deleteMe := by
        intro deletes
        have created : routeKind txn.route = creating user := fits.2 _ List.mem_cons_self
        rw [deletes, creating] at created
        split_ifs at created
      apply fresh
      rw [apply_users_has]
      refine ⟨Or.inl has, ?_⟩
      rw [shaped.writes.no_deletion kind]
      simp
  | password unmatched userId password knownSince matched =>
      have first : Write.setPassword unmatched userId password knownSince ∈ todoOf txn.stage := by
        rw [writing]
        exact List.mem_cons_self
      refine relying_with relying (.writing rest) _ relying.user ?_ ?_
      · intro change same
        cases same
        exact has_of_view credentials system _
          (no_user_of_setting shaped unmatched userId password knownSince rest writing) _ matched
      · rintro _ setId since (⟨change, same, sameUser, sameSince⟩ | ⟨failure, given, member⟩)
        · cases same
          exact Or.inr ⟨unmatched, password, sameUser ▸ sameSince ▸ first⟩
        · exact Or.inr ⟨failure, given, later _ member⟩
  | key userId row => exact still _ relying.user relying.owner rfl
  | token userId purpose ttl refers fresh => exact still _ relying.user relying.owner rfl
  | auditEntry readerId subjectId => exact still _ relying.user relying.owner rfl
  | session userId refers fresh => exact still _ relying.user relying.owner rfl
  | dropped rawToken => exact still _ relying.user relying.owner rfl
  | connection userId exchangedToken accountHash row owned =>
      exact still _ relying.user relying.owner rfl

theorem verified_user_ok (username password : String) (userId : Uuid) (storedHash : String)
    (verified : verifiedUser credentials username password system = .ok (userId, storedHash)) :
    ∃ user, system.users.get? userId = some user ∧ user.username = username ∧
      user.passwordHash = some storedHash ∧
      credentials.verifyPassword storedHash password = true := by
  unfold verifiedUser at verified
  split at verified
  · cases verified
  · rename_i user found
    split at verified
    · cases verified
    · rename_i hash stored
      split_ifs at verified with opens
      cases verified
      have named := List.find?_some found
      exact ⟨user, (get_eq_some_iff _ _ _).mpr ⟨List.mem_of_find?_eq_some found, rfl⟩,
        of_decide_eq_true named, stored, opens⟩

theorem relying_goes (relying : Relying credentials system history id txn) (shaped : Shaped txn)
    (draw : Draw) (stage : Stage) (writes : Writes)
    (goes : Goes credentials txn draw history.length (txn.writes.apply credentials system) stage
      writes) :
    Relying credentials system history id ⟨txn.route, stage, writes⟩ := by
  have fits := shaped.stage
  have plain := relying_plain relying
  cases goes with
  | lookup username password userId storedHash route arrived verified =>
      rw [arrived] at fits
      have nothing : txn.writes = .nothing := fits
      rw [nothing, nothing_apply] at verified
      obtain ⟨user, found, sameName, stored, opens⟩ :=
        verified_user_ok username password userId storedHash verified
      refine ⟨relying.user, relying.owner, ?_⟩
      intro givenName givenPassword sent setId since setting
      have sentRoute : txn.route = .login givenName givenPassword := sent
      rw [route] at sentRoute
      cases sentRoute
      have same : setId = userId ∧ since = history.length := by
        rcases setting with ⟨change, wrote, _⟩ | ⟨failure, given, member⟩
        · rw [nothing] at wrote
          cases wrote
        · simp only [todoOf, loginWrites, List.mem_append, List.mem_singleton] at member
          rcases member with rehash | session
          · split_ifs at rehash
            · cases List.mem_singleton.mp rehash
              exact ⟨rfl, rfl⟩
            · cases rehash
          · cases session
      rw [same.1, same.2]
      refine ⟨Nat.le_refl _, Or.inl (has_of_get _ _ _ found), storedHash, opens, ?_⟩
      intro other otherFound
      rw [found] at otherFound
      cases otherFound
      rw [List.drop_length]
      exact ⟨sameName, stored⟩
  | handled reading caller stage read found handles =>
      exact plain _ (handled_plain _ _ _ _ handles).1
  | matched rawToken purpose row consuming matched =>
      have still := plain (.consumed purpose (some row)) (by simp [todoOf])
      exact ⟨still.user, still.owner, still.login⟩
  | wrote write rest writes writing performed =>
      exact relying_wrote relying shaped draw write rest writes writing performed
  | deleted deletion after deleting ran =>
      have still := plain (.writing []) (by simp [todoOf])
      exact ⟨still.user, still.owner, still.login⟩
  | lock username route arrived => exact plain _ (by simp [todoOf])
  | session rawToken userId route arrived read => exact plain _ (by simp [todoOf])
  | bootstrap username route locked noAdmin => exact plain _ (by simp [todoOf])
  | unmatched rawToken purpose consuming => exact plain _ (by simp [todoOf])
  | removed deletion later table rest deleting ran => exact plain _ (by simp [todoOf])

/-! ## The invariant of every run -/

theorem relying_nothing (route : Route) (stage : Stage)
    (plain : routeKind route = .login → ∀ unmatched userId password knownSince,
      Write.setPassword unmatched userId password knownSince ∉ todoOf stage) :
    Relying credentials system history id ⟨route, stage, .nothing⟩ where
  user user added := by cases added
  owner change wrote := by cases wrote
  login username password sent userId knownSince setting := by
    have kind : routeKind route = .login := by
      have given : route = .login username password := sent
      rw [given]
      rfl
    rcases setting with ⟨change, wrote, _⟩ | ⟨failure, given, member⟩
    · cases wrote
    · exact absurd member (plain kind _ _ _ _)

theorem relying_others (relying : Relying credentials system history id txn) (otherId : Nat)
    (other : Txn) (theirs : Relying credentials system history otherId other)
    (fresh : NewTokens history other.writes)
    (apart : clash (txn.holds credentials) (other.holds credentials) = false) :
    Relying credentials (systemAfter credentials system other) (historyAfter history otherId other)
      id txn where
  user user adds := user_stays_new credentials system txn other user
    (user_held credentials txn user adds) apart (relying.user user adds)
  owner change wrote := owner_stays credentials system txn other change.userId .noKeyUpdate rfl
    (password_held credentials txn change wrote) apart (relying.owner change wrote)
  login username password route userId knownSince setting := by
    have verified := relying.login username password route userId knownSince setting
    exact verified_stays username password userId knownSince verified otherId other theirs.user fresh

theorem relying_elsewhere (ledger : Database) (positions : KeyedTable Position.id)
    (relying : Relying credentials system history id txn) :
    Relying credentials { system with ledger := ledger, positions := positions }
      (history ++ [.elsewhere ledger positions]) id txn where
  user := relying.user
  owner := relying.owner
  login username password route userId knownSince setting := by
    obtain ⟨past, there, storedHash, opens, current⟩ :=
      relying.login username password route userId knownSince setting
    refine ⟨?_, ?_, storedHash, opens, ?_⟩
    · rw [List.length_append]
      exact Nat.le_add_right_of_le past
    · cases there with
      | inl has => exact Or.inl has
      | inr gone =>
          obtain ⟨entry, member, deletes⟩ := gone
          exact Or.inr ⟨entry, List.mem_append_left _ member, deletes⟩
    · rw [List.drop_append_of_le_length past, changed_to_concat]
      exact current

variable (credentials values)

theorem passwords_kept :
    Kept credentials (unrepeatedTokens values) (Replayed credentials initial)
      (Relying credentials) where
  arrives := by
    intro system history id route _ _ _
    apply relying_nothing
    cases route <;> simp [Route.firstStage, todoOf]
  goesOn := by
    intro system history id txn draw stage writes _ relying shaped _ goes
    exact relying_goes relying shaped draw stage writes goes
  commits := by
    intro system history id txn replayed _ _ _ _
    rw [Replayed, historyAfter, committed_by_concat, ← replayed]
    rfl
  continues := by
    intro system history id txn purpose row stage _ _ _ _ after _
    apply relying_nothing
    intro login
    unfold afterConsumed at after
    split at after
    · rename_i route
      rw [route] at login
      cases login
    · rename_i route
      rw [route] at login
      cases login
    · cases after
  others := by
    intro system history id txn otherId other _ relying theirs _ _ fresh _ apart
    exact relying_others relying otherId other theirs fresh apart
  elsewhereStore := by
    intro system history ledger positions replayed
    rw [Replayed, committed_by_concat, ← replayed]
    rfl
  elsewhereEach := by
    intro system history id txn ledger positions _ relying
    exact relying_elsewhere ledger positions relying

end Invariant

/-! ## Every run -/

section Runs

variable (keys : KeyService) (credentials : Credentials) {values : Set String} {initial : System}

/-- Another hash is there after a commit that writes one for the user. -/
theorem rehashes_change (before : List Entry) (entry : Entry) (old new : User)
    (rehashes : Rehashes credentials initial before entry old new) :
    ∃ id route writes change, entry = .request id route writes ∧ writes.password = some change ∧
      change.userId = old.id ∧ new.passwordHash = some change.passwordHash := by
  obtain ⟨stored, after, differ⟩ := rehashes
  rw [committed_by_concat] at after
  cases entry with
  | elsewhere ledger positions =>
      have same : some old = some new := stored.symm.trans after
      cases same
      exact absurd rfl differ
  | request id route writes =>
      rw [Entry.apply, apply_user_get, stored, Option.some_or, Option.map_some] at after
      split_ifs at after
      cases after
      cases found : writes.password with
      | none =>
          rw [found] at differ
          exact absurd rfl differ
      | some change =>
          rw [found] at differ
          unfold rehashed at differ ⊢
          dsimp only at differ ⊢
          split_ifs at differ ⊢ with mine
          · exact ⟨id, route, writes, change, rfl, found, mine, rfl⟩
          · exact absurd rfl differ

/-- A commit of a login is sound exactly when it is not overtaken. -/
theorem login_sound_iff (system : System) (history : List Entry) (id : Nat) (txn : Txn)
    (replayed : Replayed credentials initial system history)
    (relying : Relying credentials system history id txn) (shaped : Shaped txn) :
    (routeKind txn.route = .login → ∀ old new,
      Rehashes credentials initial history (.request id txn.route txn.writes) old new →
        ByLogin credentials old (.request id txn.route txn.writes)) ↔
      Untouched credentials history txn := by
  constructor
  · intro sound
    unfold Untouched
    split
    · rename_i username password route
      intro change wrote hash last differ
      have kind : routeKind txn.route = .login := by
        rw [route]
        rfl
      have verified := relying.login username password route change.userId change.knownSince
        (Or.inl ⟨change, wrote, rfl, rfl⟩)
      obtain ⟨old, found⟩ := Option.isSome_iff_exists.mp
        ((has_iff_get system.users change.userId).mp (relying.owner change wrote))
      have oldId := ((get_eq_some_iff _ _ _).mp found).2
      obtain ⟨storedHash, _, current⟩ := verified.current
      have stored : old.passwordHash = some hash := by
        rw [(current old found).2, last]
        rfl
      have given : (rehashed txn.writes.password old).passwordHash = some change.passwordHash := by
        rw [wrote, rehashed, if_pos oldId.symm]
      have rehashes : Rehashes credentials initial history (.request id txn.route txn.writes) old
          (rehashed txn.writes.password old) := by
        refine ⟨?_, ?_, ?_⟩
        · rw [← replayed, oldId, found]
        · rw [committed_by_concat, ← replayed, oldId, Entry.apply, apply_user_get, found,
            shaped.writes.no_deletion (by simp [kind])]
          rfl
        · rw [stored, given]
          exact fun same => differ (Option.some.inj same)
      have byLogin := sound kind old _ rehashes
      rw [route] at byLogin
      obtain ⟨_, opened, same, opens⟩ := byLogin
      rw [stored] at same
      rw [Option.some.inj same]
      exact opens
    · trivial
  · intro untouched kind old new rehashes
    obtain ⟨_, _, _, change, entry, wrote, mine, given⟩ :=
      rehashes_change credentials _ _ old new rehashes
    cases entry
    obtain ⟨stored, _, differ⟩ := rehashes
    rw [← replayed, ← mine] at stored
    unfold Untouched at untouched
    split at untouched
    · rename_i username password route
      have verified := relying.login username password route change.userId change.knownSince
        (Or.inl ⟨change, wrote, rfl, rfl⟩)
      obtain ⟨storedHash, opens, current⟩ := verified.current
      obtain ⟨sameName, hash⟩ := current old stored
      rw [route]
      refine ⟨sameName, _, hash, ?_⟩
      cases last : changedTo change.userId (history.drop change.knownSince) with
      | none => exact opens
      | some later =>
          apply untouched change wrote later last
          intro same
          apply differ
          rw [given, hash, last, same]
          rfl
    · rename_i other
      cases route : txn.route with
      | login username password => exact absurd route (other username password)
      | _ =>
          rw [route] at kind
          cases kind

theorem logins_sound_concat (history : List Entry) (last : Entry) :
    LoginsSound credentials initial (history ++ [last]) ↔
      LoginsSound credentials initial history ∧
        ∀ id route writes, last = .request id route writes → routeKind route = .login →
          ∀ old new, Rehashes credentials initial history last old new →
            ByLogin credentials old last := by
  constructor
  · intro sound
    constructor
    · intro before id route writes after whole
      apply sound before id route writes (after ++ [last])
      rw [whole, List.append_assoc, List.cons_append]
    · rintro id route writes rfl
      exact sound history id route writes [] rfl
  · rintro ⟨sound, final⟩ before id route writes after whole
    cases concat_split history before after last _ whole with
    | inl new =>
        obtain ⟨_, same, sameHistory⟩ := new
        subst same
        subst sameHistory
        exact final id route writes rfl
    | inr old =>
        obtain ⟨rest, _, earlier⟩ := old
        exact sound before id route writes rest earlier

/-- What every state of a run keeps: the tokens' half and the passwords'. -/
def Guarding (values : Set String) (initial : System) (state : State) : Prop :=
  Holds credentials (RedeemedTokens.Recorded credentials values)
      (RedeemedTokens.Relies credentials values) state ∧
    Holds credentials (Replayed credentials initial) (Relying credentials) state

theorem logins_sound_step (state : State) (action : Action) (later : State)
    (guarding : Guarding credentials values initial state)
    (stepped : step keys credentials state action = some later) :
    LoginsSound credentials initial later.history ↔
      LoginsSound credentials initial state.history ∧ NotOvertaken credentials state action := by
  have committing : ∀ id txn, state.opened.txns id = some txn →
      (LoginsSound credentials initial (historyAfter state.history id txn) ↔
        LoginsSound credentials initial state.history ∧
          NotOvertaken credentials state (.commit id)) := by
    intro id txn found
    have sound := login_sound_iff credentials state.system state.history id txn guarding.2.store
      (guarding.2.each id txn found) (guarding.2.shaped id txn found)
    rw [historyAfter, logins_sound_concat]
    apply and_congr_right
    intro _
    simp only [NotOvertaken, found, Option.mem_def, Option.some.injEq, forall_eq']
    rw [← sound]
    constructor
    · intro final
      exact final id txn.route txn.writes rfl
    · rintro final _ route writes same
      cases same
      exact final
  cases step_cases keys credentials state later action stepped with
  | arrive route => exact (and_iff_left trivial).symm
  | goesOn id draw txn stage writes found goes present free => exact (and_iff_left trivial).symm
  | ends id draw txn answer found ran => exact (and_iff_left trivial).symm
  | commits id txn answer kept found past => exact committing id txn found
  | continues id txn purpose row stage found consumed after present free =>
      exact committing id txn found
  | rollback id => exact (and_iff_left trivial).symm
  | elsewhere ledger positions =>
      rw [logins_sound_concat]
      apply and_congr_right
      intro _
      constructor
      · intro _
        trivial
      · intro _ id route writes same
        cases same

theorem guarding_step (distinct : Set.InjOn credentials.hashToken values) (state : State)
    (action : Action) (later : State) (guarding : Guarding credentials values initial state)
    (allowed : (unrepeatedTokens values).Allowed state action)
    (stepped : step keys credentials state action = some later) :
    Guarding credentials values initial later :=
  ⟨step_keeps keys (redemption_kept credentials values distinct) state action later guarding.1
      allowed stepped,
    step_keeps keys (passwords_kept credentials values initial) state action later guarding.2
      allowed stepped⟩

theorem presents_purpose (route : Route) (rawToken : String) (purpose : TokenPurpose)
    (presents : Presents route rawToken purpose) :
    (routeKind route = .setup ∧ purpose ≠ .oauthState) ∨
      (routeKind route = .callback ∧ purpose = .oauthState) := by
  cases route with
  | setup presented password => exact Or.inl ⟨rfl, presents.2⟩
  | callback rawState exchange => exact Or.inr ⟨rfl, presents.2⟩
  | _ => cases presents

/-- A token that takes effect is of the purpose its route asks for. -/
theorem purposes_kept (state : State) (guarding : Guarding credentials values initial state)
    (issue : Issue) (issued : IssuedToken state.history issue) (id : Nat) (route : Route)
    (writes : Writes) (member : Entry.request id route writes ∈ state.history)
    (presents : ∃ purpose, Presents route issue.rawToken purpose) :
    (writes.password ≠ none → issue.purpose ≠ .oauthState) ∧
      (writes.connection ≠ none → issue.purpose = .oauthState) := by
  have recorded := guarding.1.store
  have belongs : WritesBelong route writes := guarding.1.belongs _ member
  obtain ⟨before, after, whole⟩ := List.append_of_mem member
  have backed : Backed before (.request id route writes) := recorded.backed _ _ _ whole
  obtain ⟨purpose, sent⟩ := presents
  have same : ∀ userId, Entitled before id route userId → Presents route issue.rawToken issue.purpose := by
    rintro userId ⟨other, redeemed, _, asked⟩
    have otherIssued : IssuedToken state.history other := by
      rw [whole]
      exact issued_token_grows _ _ _ (redeemed_taken before id other redeemed).2
    have named := presents_same route _ _ _ _ sent asked
    rw [recorded.unique issue other issued otherIssued named]
    exact asked
  constructor
  · intro wrote
    obtain ⟨change, password⟩ := Option.ne_none_iff_exists'.mp wrote
    have kind := belongs.password change password
    have asked := same _ (backed.1 (presents_not_login route _ _ sent) change password)
    cases presents_purpose route _ _ asked with
    | inl setup => exact setup.2
    | inr callback =>
        rw [callback.1] at kind
        cases kind with
        | tail _ rest => cases rest with
          | tail _ rest => cases rest
  · intro wrote
    obtain ⟨row, connection⟩ := Option.ne_none_iff_exists'.mp wrote
    have kind := belongs.connection row connection
    have asked := same _ (backed.2 row connection)
    cases presents_purpose route _ _ asked with
    | inl setup =>
        rw [setup.1] at kind
        cases kind
    | inr callback => exact callback.2

theorem guarded_iff_logins_sound (state : State)
    (guarding : Guarding credentials values initial state) :
    PasswordsGuarded credentials initial state ↔
      LoginsSound credentials initial state.history := by
  have recorded := guarding.1.store
  have belongs : ∀ before id route writes after,
      state.history = before ++ .request id route writes :: after → WritesBelong route writes := by
    intro before id route writes after whole
    exact guarding.1.belongs (.request id route writes)
      (whole ▸ List.mem_append_right _ List.mem_cons_self)
  constructor
  · rintro guarded before id route writes after whole login old new rehashes
    cases guarded.passwords _ _ _ whole old new rehashes with
    | inl setup =>
        cases route with
        | setup rawToken password => cases login
        | _ => cases setup
    | inr byLogin => exact byLogin
  · intro sound
    refine ⟨guarding.2.store, ?_, ?_, recorded.once, purposes_kept credentials state guarding⟩
    · intro before entry after whole old new rehashes
      obtain ⟨id, route, writes, change, rfl, wrote, mine, _⟩ :=
        rehashes_change credentials before entry old new rehashes
      have kind := (belongs before id route writes after whole).password change wrote
      have backed : Backed before (.request id route writes) := recorded.backed _ _ _ whole
      cases route with
      | setup rawToken password =>
          obtain ⟨issue, redeemed, owner, named, purpose⟩ := backed.1 (by simp [routeKind]) change wrote
          exact Or.inl ⟨issue, redeemed, named, owner.trans mine, purpose⟩
      | login username password => exact Or.inr (sound _ _ _ _ _ whole rfl old new rehashes)
      | _ => simp [routeKind] at kind
    · intro before entry after whole row connection
      cases entry with
      | elsewhere ledger positions => cases connection
      | request id route writes =>
          have kind := (belongs before id route writes after whole).connection row connection
          have backed : Backed before (.request id route writes) := recorded.backed _ _ _ whole
          cases route with
          | callback rawState exchange =>
              obtain ⟨issue, redeemed, owner, named, purpose⟩ := backed.2 row connection
              exact ⟨issue, redeemed, named, owner, purpose⟩
          | _ => cases kind

/-- The tokens an action presents and the values it draws. -/
def presentedBy : Action → List String
  | .arrive (.setup rawToken _) => [rawToken]
  | .arrive (.callback rawState _) => [rawState]
  | .execute _ draw => [draw.rawToken]
  | _ => []

def presentedIn (actions : List Action) : Set String :=
  fun rawToken => ∃ action ∈ actions, rawToken ∈ presentedBy action

theorem allowed_of_unrepeated (actions : List Action) (state : State) (action : Action)
    (member : action ∈ actions) (fresh : TokensUnrepeated state action) :
    (unrepeatedTokens (presentedIn actions)).Allowed state action := by
  cases action with
  | arrive route =>
      intro rawToken purpose presents
      refine ⟨_, member, ?_⟩
      cases route with
      | setup presented password => exact List.mem_singleton.mpr presents.1
      | callback rawState exchange => exact List.mem_singleton.mpr presents.1
      | _ => cases presents
  | execute id draw => exact ⟨_, member, List.mem_singleton.mpr rfl⟩
  | commit id => exact fresh
  | rollback id => trivial
  | elsewhere ledger positions => trivial

def withoutTokens (system : System) : System := { system with setupTokens := .empty }

theorem guarding_start (initial : System) (values : Set String) :
    Guarding credentials values (withoutTokens initial) (start (withoutTokens initial)) := by
  refine ⟨holds_start _ ⟨?_, ?_, ?_, ?_, ?_, ?_, ?_⟩, holds_start _ rfl⟩
  · intro row member
    exact absurd member List.not_mem_nil
  · rintro issue ⟨entry, member, _⟩
    exact absurd member List.not_mem_nil
  · rintro one other ⟨entry, member, _⟩
    exact absurd member List.not_mem_nil
  · intro rawToken entry member
    exact absurd member List.not_mem_nil
  · intro left member
    exact absurd member List.not_mem_nil
  · intro before entry after whole
    simp at whole
  · intro before entry after rawToken whole
    simp at whole

theorem logins_sound_iff (initial : System) (actions : List Action) (final : State)
    (distinct : Set.InjOn credentials.hashToken (presentedIn actions))
    (fresh : Meets (step keys credentials) TokensUnrepeated actions (start (withoutTokens initial)))
    (ran : runFrom (step keys credentials) actions (start (withoutTokens initial)) = some final) :
    Guarding credentials (presentedIn actions) (withoutTokens initial) final ∧
      (LoginsSound credentials (withoutTokens initial) final.history ↔
        Meets (step keys credentials) (NotOvertaken credentials) actions
          (start (withoutTokens initial))) := by
  have started := guarding_start credentials initial (presentedIn actions)
  have meets := meets_mono (step keys credentials) TokensUnrepeated
    (unrepeatedTokens (presentedIn actions)).Allowed actions _ (allowed_of_unrepeated actions) fresh
  have keeps := @guarding_step keys credentials _ (withoutTokens initial) distinct
  constructor
  · exact run_keeps (step keys credentials) _ _ keeps actions _ final started meets ran
  · have unbroken : LoginsSound credentials (withoutTokens initial)
        (start (withoutTokens initial)).history := by
      intro before id route writes after whole
      simp [start] at whole
    have adds := run_iff (step keys credentials) _ (NotOvertaken credentials) _
      (fun state => LoginsSound credentials (withoutTokens initial) state.history) keeps
      (fun state action later guarding _ stepped =>
        logins_sound_step keys credentials state action later guarding stepped)
      actions _ final started meets ran
    rw [adds]
    exact and_iff_right unbroken

/-- In every run of requests served at once, from no token on, passwords
change only by the right tokens and by logins, except where a login writes over
a hash committed since it verified the one before. -/
theorem passwords_guarded_iff (initial : System) (actions : List Action) (final : State)
    (distinct : Set.InjOn credentials.hashToken (presentedIn actions))
    (fresh : Meets (step keys credentials) TokensUnrepeated actions (start (withoutTokens initial)))
    (ran : runFrom (step keys credentials) actions (start (withoutTokens initial)) = some final) :
    PasswordsGuarded credentials (withoutTokens initial) final ↔
      Meets (step keys credentials) (NotOvertaken credentials) actions
        (start (withoutTokens initial)) := by
  obtain ⟨guarding, sound⟩ := logins_sound_iff keys credentials initial actions final distinct fresh
    ran
  rw [guarded_iff_logins_sound credentials final guarding, sound]

end Runs

/-! ## A reset undone -/

/-- Two generations of hashes, the first of which a login replaces. -/
def agingCredentials : Credentials where
  hashToken rawToken := rawToken
  hashPassword password _ := "2:" ++ password
  verifyPassword storedHash password := storedHash = "1:" ++ password ∨ storedHash = "2:" ++ password
  needsRehash storedHash := storedHash.toList.head? = some '1'

def adminAndUser : System :=
  { System.empty with
    users := ⟨[⟨⟨1⟩, "user", some "1:old", false⟩, ⟨⟨2⟩, "admin", some "2:admin", true⟩], by decide⟩
    sessions := ⟨[⟨"admin-session", ⟨2⟩, 100⟩], by decide⟩ }

def executions (id statements : Nat) (rawToken : String) : List Action :=
  List.replicate statements (.execute id (drawing 0 ⟨9⟩ rawToken))

/-- The admin issues a reset token, and the user sets a new password with it. -/
def resetAndSetup (first second : Nat) : List Action :=
  .arrive (.resetPassword (some "admin-session") ⟨1⟩) :: executions first 4 "reset-token" ++
    [.commit first, .arrive (.setup "reset-token" "new")] ++
    executions second 1 "" ++ [.commit second] ++ executions second 1 "" ++ [.commit second] ++
    executions second 1 "" ++ [.commit second]

/-- A login that rehashes, a reset, and the token of the reset once more. -/
def oneAfterAnother : List Action :=
  .arrive (.login "user" "old") :: executions 0 3 "session" ++ [.commit 0] ++ resetAndSetup 1 2 ++
    .arrive (.setup "reset-token" "replayed") :: executions 3 1 "" ++ [.commit 3] ++
    executions 3 1 "" ++ [.commit 3]

def passwordOf (state : State) (userId : Uuid) : Option String :=
  (state.system.users.get? userId).bind User.passwordHash

theorem passwords_guarded_one_after_another : ∃ final,
    runFrom (step plainKeys agingCredentials) oneAfterAnother (start (withoutTokens adminAndUser)) =
        some final ∧
      passwordOf final ⟨1⟩ = some "2:new" ∧
      PasswordsGuarded agingCredentials (withoutTokens adminAndUser) final := by
  have computed : (runFrom (step plainKeys agingCredentials) oneAfterAnother
      (start (withoutTokens adminAndUser))).any (fun final => passwordOf final ⟨1⟩ = some "2:new") =
        true := by
    decide +kernel
  have fresh : Meets (step plainKeys agingCredentials) TokensUnrepeated oneAfterAnother
      (start (withoutTokens adminAndUser)) := by
    decide +kernel
  have alone : Meets (step plainKeys agingCredentials) (NotOvertaken agingCredentials)
      oneAfterAnother (start (withoutTokens adminAndUser)) := by
    decide +kernel
  obtain ⟨present, password⟩ := (Option.any_eq_true_iff_get _ _).mp computed
  have ran := (Option.some_get present).symm
  have distinct : Set.InjOn agingCredentials.hashToken (presentedIn oneAfterAnother) :=
    fun _ _ _ _ same => same
  exact ⟨_, ran, of_decide_eq_true password,
    (passwords_guarded_iff plainKeys agingCredentials adminAndUser oneAfterAnother _ distinct fresh
      ran).mpr alone⟩

/-- The login has verified the old password when the reset is issued and used,
and rehashes it over the new one. -/
def loginAcrossReset : List Action :=
  .arrive (.login "user" "old") :: executions 0 1 "" ++ resetAndSetup 1 2 ++
    executions 0 2 "session" ++ [.commit 0]

theorem reset_undone_by_login : ∃ final,
    runFrom (step plainKeys agingCredentials) loginAcrossReset (start (withoutTokens adminAndUser)) =
        some final ∧
      passwordOf final ⟨1⟩ = some "2:old" ∧
      ¬PasswordsGuarded agingCredentials (withoutTokens adminAndUser) final := by
  have computed : (runFrom (step plainKeys agingCredentials) loginAcrossReset
      (start (withoutTokens adminAndUser))).any (fun final => passwordOf final ⟨1⟩ = some "2:old") =
        true := by
    decide +kernel
  have fresh : Meets (step plainKeys agingCredentials) TokensUnrepeated loginAcrossReset
      (start (withoutTokens adminAndUser)) := by
    decide +kernel
  have overtaken : ¬Meets (step plainKeys agingCredentials) (NotOvertaken agingCredentials)
      loginAcrossReset (start (withoutTokens adminAndUser)) := by
    decide +kernel
  obtain ⟨present, password⟩ := (Option.any_eq_true_iff_get _ _).mp computed
  have ran := (Option.some_get present).symm
  obtain ⟨guarding, sound⟩ := logins_sound_iff plainKeys agingCredentials adminAndUser
    loginAcrossReset _ (fun _ _ _ _ same => same) fresh ran
  refine ⟨_, ran, of_decide_eq_true password, fun guarded => overtaken ?_⟩
  exact sound.mp ((guarded_iff_logins_sound agingCredentials _ guarding).mp guarded)

end Morai.Identity.PasswordAuthority
