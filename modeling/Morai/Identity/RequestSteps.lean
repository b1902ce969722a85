import Morai.Identity.ConcurrentRequests

/-!
# What a statement and a step can do

Every fact about runs of requests is a case analysis over the lists here:
`Performed` for one write, `Goes` for one statement that leaves its
transaction open, `Steps` for the system.
-/

namespace Morai.Identity.RequestSteps

open Morai.Crypto Morai.Db Morai.Python Morai.Foundation.PrimaryKey Morai.Foundation.RowLocks
open Morai.Foundation.Runs Morai.Identity.Tables Morai.Identity.Deletion Morai.Identity.Requests
open Morai.Vendor.Connections Morai.Identity.ConcurrentRequests

set_option autoImplicit false

/-! ## What is there once a transaction has written -/

section Applied

variable {Stored Key : Type} [DecidableEq Key] {key : Stored → Key}

theorem mem_add_row (row : Option Stored) (table : KeyedTable key) (stored : Stored) :
    stored ∈ (addRow row table).rows ↔
      stored ∈ table.rows ∨ (row = some stored ∧ ¬table.Has (key stored)) := by
  cases row with
  | none => simp [addRow]
  | some new =>
      simp only [addRow, insertOne]
      split_ifs with taken
      · constructor
        · exact Or.inl
        · rintro (old | ⟨same, fresh⟩)
          · exact old
          · cases same
            exact absurd taken fresh
      · simp only [KeyedTable.push, List.mem_append, List.mem_singleton, Option.some.injEq]
        constructor
        · rintro (old | same)
          · exact Or.inl old
          · subst same
            exact Or.inr ⟨rfl, taken⟩
        · rintro (old | ⟨same, _⟩)
          · exact Or.inl old
          · exact Or.inr same.symm

theorem add_row_has (row : Option Stored) (table : KeyedTable key) (wanted : Key) :
    (addRow row table).Has wanted ↔ table.Has wanted ∨ row.map key = some wanted := by
  cases row with
  | none => simp [addRow]
  | some new => simp [addRow, insert_one_has]

theorem has_iff_get (table : KeyedTable key) (wanted : Key) :
    table.Has wanted ↔ (table.get? wanted).isSome := by
  cases found : table.get? wanted with
  | none => simpa using (get_eq_none_iff _ _).mp found
  | some old =>
      have member := (get_eq_some_iff _ _ _).mp found
      simpa [KeyedTable.Has] using ⟨old, member⟩

theorem put_has (table : KeyedTable key) (row : Stored) (stored : table.Has (key row))
    (wanted : Key) : (table.put row).Has wanted ↔ table.Has wanted := by
  have present : ((table.put row).get? wanted).isSome ↔ (table.get? wanted).isSome := by
    rw [put_get]
    split_ifs with same
    · subst same
      cases found : table.get? (key row) with
      | none => exact absurd stored ((get_eq_none_iff _ _).mp found)
      | some old => simp
    · rfl
  rw [has_iff_get, has_iff_get, present]

theorem has_of_get (table : KeyedTable key) (wanted : Key) (row : Stored)
    (found : table.get? wanted = some row) : table.Has wanted := by
  have member := (get_eq_some_iff _ _ _).mp found
  exact List.mem_map.mpr ⟨row, member⟩

theorem set_hash_has (change : Option PasswordChange) (users : KeyedTable User.id) (id : Uuid) :
    (setHash change users).Has id ↔ users.Has id := by
  cases change with
  | none => rfl
  | some change =>
      simp only [setHash]
      split
      · rfl
      · rename_i user found
        have member := (get_eq_some_iff _ _ _).mp found
        let changed : User := { user with passwordHash := some change.passwordHash }
        exact put_has users changed (List.mem_map.mpr ⟨user, member.1, rfl⟩) id

end Applied

section Writes

variable (credentials : Credentials) (writes : Writes) (system : System)

theorem apply_users : (writes.apply credentials system).users =
    match writes.deletion with
    | none => setHash writes.password (addRow writes.user system.users)
    | some deletion => (setHash writes.password (addRow writes.user system.users)).filter
        fun user => user.id ≠ deletion.userId := by
  unfold Writes.apply
  cases writes.deletion <;> rfl

theorem apply_users_has (id : Uuid) : (writes.apply credentials system).users.Has id ↔
    (system.users.Has id ∨ writes.user.map User.id = some id) ∧
      writes.deletion.map AccountDeletion.userId ≠ some id := by
  rw [apply_users]
  cases writes.deletion with
  | none => simp [set_hash_has, add_row_has]
  | some deletion =>
      have shrunk : ∀ users : KeyedTable User.id,
          (users.filter fun user => user.id ≠ deletion.userId).Has id ↔
            users.Has id ∧ deletion.userId ≠ id := by
        intro users
        simp only [KeyedTable.Has, KeyedTable.filter, List.mem_map, List.mem_filter,
          decide_eq_true_eq]
        constructor
        · rintro ⟨user, ⟨member, kept⟩, same⟩
          exact ⟨⟨user, member, same⟩, fun gone => kept (same.trans gone.symm)⟩
        · rintro ⟨⟨user, member, same⟩, kept⟩
          exact ⟨user, ⟨member, fun gone => kept (gone.symm.trans same)⟩, same⟩
      simp only [shrunk, set_hash_has, add_row_has, Option.map_some, ne_eq, Option.some.injEq]

theorem mem_apply_sessions (row : SessionRow) :
    row ∈ (writes.apply credentials system).sessions.rows ↔
      (row ∈ system.sessions.rows ∨ (writes.session.map (Login.row credentials) = some row ∧
        ¬system.sessions.Has row.tokenHash)) ∧
      writes.dropped.bind Dropped.row ≠ some row ∧
      ∀ deletion, writes.deletion = some deletion → Row.session row ∉ deletion.removed := by
  unfold Writes.apply
  cases writes.deletion with
  | none => simp [KeyedTable.filter, mem_add_row]
  | some deletion => simp [KeyedTable.filter, System.without, mem_add_row, and_comm]

theorem mem_apply_tokens (row : SetupToken) :
    row ∈ (writes.apply credentials system).setupTokens.rows ↔
      (row ∈ system.setupTokens.rows ∨ (writes.token.map (Issue.row credentials) = some row ∧
        ¬system.setupTokens.Has row.tokenHash)) ∧
      writes.consumed.map Consumption.row ≠ some row ∧
      ∀ deletion, writes.deletion = some deletion → Row.setupToken row ∉ deletion.removed := by
  unfold Writes.apply
  cases writes.deletion with
  | none => simp [KeyedTable.filter, mem_add_row]
  | some deletion => simp [KeyedTable.filter, System.without, mem_add_row, and_comm]

end Writes

/-! ## One write -/

section Statements

variable (keys : KeyService) (credentials : Credentials)

inductive Performed (draw : Draw) (view : System) (writes : Writes) : Write → Writes → Prop
  | user (user : User) (fresh : ¬view.users.Has user.id) :
      Performed draw view writes (.insertUser user) { writes with user := some user }
  | key (userId : Uuid) (row : UserDataKey) :
      Performed draw view writes (.insertKey userId) { writes with dataKey := some row }
  | token (userId : Uuid) (purpose : TokenPurpose) (ttl : Int) (refers : view.users.Has userId)
      (fresh : ¬view.setupTokens.Has (credentials.hashToken draw.rawToken)) :
      Performed draw view writes (.insertToken userId purpose ttl)
        { writes with token := some ⟨draw.rawToken, userId, purpose, draw.now + ttl⟩ }
  | auditEntry (readerId subjectId : Uuid) :
      Performed draw view writes (.insertAuditEntry readerId subjectId)
        { writes with auditEntry := some ⟨readerId, subjectId⟩ }
  | session (userId : Uuid) (refers : view.users.Has userId)
      (fresh : ¬view.sessions.Has (credentials.hashToken draw.rawToken)) :
      Performed draw view writes (.insertSession userId)
        { writes with session := some ⟨draw.rawToken, userId, draw.now⟩ }
  | password (unmatched : Failure) (userId : Uuid) (password : String) (knownSince : Nat)
      (matched : view.users.Has userId) :
      Performed draw view writes (.setPassword unmatched userId password knownSince)
        { writes with
          password := some ⟨userId, credentials.hashPassword password draw.salt, knownSince⟩ }
  | dropped (rawToken : String) :
      Performed draw view writes (.deleteSession rawToken) { writes with
        dropped := some ⟨rawToken, view.sessions.get? (credentials.hashToken rawToken)⟩ }
  | connection (userId : Uuid) (exchangedToken : ExchangedToken) (accountHash : String)
      (row : Option SchwabConnection) (owned : ∀ stored, row = some stored → stored.userId = userId) :
      Performed draw view writes (.upsertConnection userId exchangedToken accountHash)
        { writes with connection := row }

theorem referring_ok (constraintName : String) (userId : Uuid) (view : System)
    (refers : referring constraintName userId view = .ok ()) : view.users.Has userId := by
  unfold referring at refers
  split at refers
  · assumption
  · cases refers

theorem perform_cases (draw : Draw) (view : System) (writes later : Writes) (write : Write)
    (ran : perform keys credentials draw view writes write = .ok later) :
    Performed credentials draw view writes write later := by
  cases write with
  | insertUser user =>
      obtain ⟨⟨⟨⟩, after⟩, added, done⟩ := bind_ok _ _ _ ran
      cases done
      exact .user user (insert_user_ok user view after added).1
  | insertKey userId =>
      obtain ⟨_, _, ran⟩ := bind_ok _ _ _ ran
      obtain ⟨_, _, done⟩ := bind_ok _ _ _ ran
      cases done
      exact .key userId _
  | insertToken userId purpose ttl =>
      obtain ⟨⟨⟩, refers, ran⟩ := bind_ok _ _ _ ran
      obtain ⟨_, stored, done⟩ := bind_ok _ _ _ ran
      cases done
      refine .token userId purpose ttl (referring_ok _ _ _ refers) ?_
      unfold storeToken at stored
      split at stored
      · cases stored
      · rename_i added
        exact (insert_row_ok _ _ _ _ added).1
  | insertAuditEntry readerId subjectId =>
      obtain ⟨_, _, done⟩ := bind_ok _ _ _ ran
      cases done
      exact .auditEntry readerId subjectId
  | insertSession userId =>
      obtain ⟨⟨⟩, refers, ran⟩ := bind_ok _ _ _ ran
      obtain ⟨_, stored, done⟩ := bind_ok _ _ _ ran
      cases done
      refine .session userId (referring_ok _ _ _ refers) ?_
      unfold addSession at stored
      split at stored
      · cases stored
      · rename_i added
        exact (insert_row_ok _ _ _ _ added).1
  | setPassword unmatched userId password knownSince =>
      obtain ⟨_, updated, done⟩ := bind_ok _ _ _ ran
      cases done
      refine .password unmatched userId password knownSince ?_
      unfold setPassword at updated
      split at updated
      · cases updated
      · rename_i found
        exact has_of_get _ _ _ found
  | deleteSession rawToken =>
      cases ran
      exact .dropped rawToken
  | upsertConnection userId exchangedToken accountHash =>
      obtain ⟨_, _, ran⟩ := bind_ok _ _ _ ran
      obtain ⟨stored, _, done⟩ := bind_ok _ _ _ ran
      cases done
      refine .connection userId exchangedToken accountHash _ ?_
      intro row found
      exact ((get_eq_some_iff _ _ _).mp found).2

/-! ## One statement -/

/-- A statement after which the transaction is still open. -/
inductive Goes (txn : Txn) (draw : Draw) (position : Nat) (view : System) : Stage → Writes → Prop
  | lock (username : String) (route : txn.route = .createAdmin username)
      (arrived : txn.stage = .arrived) : Goes txn draw position view .lockHeld txn.writes
  | lookup (username password : String) (userId : Uuid) (storedHash : String)
      (route : txn.route = .login username password) (arrived : txn.stage = .arrived)
      (verified : verifiedUser credentials username password view = .ok (userId, storedHash)) :
      Goes txn draw position view
        (.writing (loginWrites credentials userId storedHash password position)) txn.writes
  | session (rawToken : String) (userId : Uuid) (route : txn.route.session? = some (some rawToken))
      (arrived : txn.stage = .arrived)
      (read : readSession credentials (some rawToken) draw.now view = .ok userId) :
      Goes txn draw position view (.sessionRead ⟨userId, position, draw.now⟩) txn.writes
  | bootstrap (username : String) (route : txn.route = .createAdmin username)
      (locked : txn.stage = .lockHeld) (noAdmin : view.users.rows.find? User.isAdmin = none) :
      Goes txn draw position view (.writing [.insertUser ⟨draw.newId, username, none, true⟩,
        .insertToken draw.newId .setup setupTokenTtl]) txn.writes
  | handled (reading : Reading) (caller : User) (stage : Stage)
      (read : txn.stage = .sessionRead reading)
      (found : view.users.get? reading.userId = some caller)
      (handles : handle ⟨reading.userId, caller.isAdmin⟩ draw.newId txn.route = .ok stage) :
      Goes txn draw position view stage txn.writes
  | unmatched (rawToken : String) (purpose : TokenPurpose)
      (consuming : txn.stage = .consuming rawToken purpose) :
      Goes txn draw position view (.consumed purpose none) txn.writes
  | matched (rawToken : String) (purpose : TokenPurpose) (row : SetupToken)
      (consuming : txn.stage = .consuming rawToken purpose)
      (matched : matchingToken credentials rawToken purpose draw.now view = some row) :
      Goes txn draw position view (.consumed purpose (some row))
        { txn.writes with consumed := some ⟨rawToken, row, draw.now⟩ }
  | wrote (write : Write) (rest : List Write) (writes : Writes)
      (writing : txn.stage = .writing (write :: rest))
      (performed : Performed credentials draw view txn.writes write writes) :
      Goes txn draw position view (.writing rest) writes
  | removed (deletion later : AccountDeletion) (table : Table) (rest : List Table)
      (deleting : txn.stage = .deleting deletion)
      (ran : deletion.statement view table rest = .ok later) :
      Goes txn draw position view (.deleting later) txn.writes
  | deleted (deletion : AccountDeletion) (after : System) (deleting : txn.stage = .deleting deletion)
      (ran : deletion.finish view = .ok after) :
      Goes txn draw position view (.writing []) { txn.writes with deletion := some deletion }

theorem read_session_some (cookie : Option String) (now : Instant) (view : System) (userId : Uuid)
    (read : readSession credentials cookie now view = .ok userId) :
    ∃ rawToken, cookie = some rawToken := by
  cases cookie with
  | none => cases read
  | some rawToken => exact ⟨rawToken, rfl⟩

theorem next_goes (txn : Txn) (draw : Draw) (position : Nat) (view : System) (stage : Stage)
    (writes : Writes)
    (ran : next keys credentials txn draw position view = some (.goesOn stage writes)) :
    Goes credentials txn draw position view stage writes := by
  unfold next at ran
  split at ran
  · rename_i arrived
    split at ran
    · rename_i username route
      cases ran
      exact .lock username route arrived
    · rename_i username password route
      split at ran
      · cases ran
      · rename_i userId storedHash verified
        cases ran
        exact .lookup username password userId storedHash route arrived verified
    · split at ran
      · cases ran
      · rename_i userId read
        cases ran
        obtain ⟨rawToken, cookie⟩ := read_session_some credentials _ _ _ _ read
        have session : txn.route.session? = some (some rawToken) := by
          cases given : txn.route.session? with
          | none =>
              rw [given] at cookie
              cases cookie
          | some sent =>
              rw [given] at cookie
              exact congrArg some cookie
        rw [cookie] at read
        exact .session rawToken userId session arrived read
  · rename_i locked
    split at ran
    · rename_i username route
      split at ran
      · cases ran
      · rename_i noAdmin
        cases ran
        exact .bootstrap username route locked noAdmin
    · cases ran
  · rename_i reading read
    split at ran
    · cases ran
    · rename_i caller found
      split at ran
      · cases ran
      · rename_i handles
        cases ran
        exact .handled reading caller stage read found handles
  · rename_i rawToken purpose consuming
    split at ran
    · cases ran
      exact .unmatched rawToken purpose consuming
    · rename_i row matched
      cases ran
      exact .matched rawToken purpose row consuming matched
  · cases ran
  · cases ran
  · rename_i write rest writing
    split at ran
    · cases ran
    · rename_i later performed
      cases ran
      exact .wrote write rest writes writing (perform_cases keys credentials _ _ _ _ _ performed)
  · rename_i deletion deleting
    split at ran
    · rename_i table rest _
      split at ran
      · cases ran
      · rename_i later removes
        cases ran
        exact .removed deletion later table rest deleting removes
    · split at ran
      · cases ran
      · rename_i after removes
        cases ran
        exact .deleted deletion after deleting removes

/-! ## One step -/

/-- The checks made by the time a statement has run. -/
def checksAfter (state : State) (txn : Txn) (draw : Draw) : List Check :=
  state.checks ++
    checkOf credentials txn draw state.history (txn.writes.apply credentials state.system)

inductive Steps (state : State) : Action → State → Prop
  | arrive (route : Route) :
      Steps state (.arrive route)
        { state with opened := state.opened.enter ⟨route, route.firstStage, .nothing⟩ }
  | goesOn (id : Nat) (draw : Draw) (txn : Txn) (stage : Stage) (writes : Writes)
      (found : state.opened.txns id = some txn)
      (goes : Goes credentials txn draw state.history.length
        (txn.writes.apply credentials state.system) stage writes)
      (present : (state.opened.txns id).isSome)
      (free : state.opened.Free (Txn.holds credentials) id
        (Txn.holds credentials ⟨txn.route, stage, writes⟩)) :
      Steps state (.execute id draw)
        { state with
          opened := state.opened.replace id ⟨txn.route, stage, writes⟩ present
          checks := checksAfter credentials state txn draw }
  | ends (id : Nat) (draw : Draw) (txn : Txn) (answer : Answer)
      (found : state.opened.txns id = some txn)
      (ran : next keys credentials txn draw state.history.length
        (txn.writes.apply credentials state.system) = some (.ends answer)) :
      Steps state (.execute id draw)
        (finish { state with checks := checksAfter credentials state txn draw } id answer)
  | commits (id : Nat) (txn : Txn) (answer : Answer) (kept : answer ≠ .refused)
      (found : state.opened.txns id = some txn)
      (past : txn.stage = .writing [] ∨ ∃ purpose found, txn.stage = .consumed purpose found) :
      Steps state (.commit id) (finish (committed credentials state id txn) id answer)
  | continues (id : Nat) (txn : Txn) (purpose : TokenPurpose) (row : Option SetupToken)
      (stage : Stage) (found : state.opened.txns id = some txn)
      (consumed : txn.stage = .consumed purpose row)
      (after : afterConsumed (state.history.length + 1) purpose row txn.route = .ok stage)
      (present : (state.opened.txns id).isSome)
      (free : state.opened.Free (Txn.holds credentials) id
        (Txn.holds credentials ⟨txn.route, stage, .nothing⟩)) :
      Steps state (.commit id)
        { committed credentials state id txn with
          opened := state.opened.replace id ⟨txn.route, stage, .nothing⟩ present }
  | rollback (id : Nat) :
      Steps state (.rollback id) { state with opened := state.opened.close id }
  | elsewhere (ledger : Database) (positions : KeyedTable Position.id) :
      Steps state (.elsewhere ledger positions)
        { state with
          system := { state.system with ledger := ledger, positions := positions }
          history := state.history ++ [.elsewhere ledger positions] }

theorem advance_eq (state later : State) (id : Nat) (txn : Txn)
    (advanced : advance credentials state id txn = some later) :
    ∃ present : (state.opened.txns id).isSome,
      state.opened.Free (Txn.holds credentials) id (txn.holds credentials) ∧
        later = { state with opened := state.opened.replace id txn present } := by
  unfold advance at advanced
  split_ifs at advanced with present free
  cases advanced
  exact ⟨present, free, rfl⟩

theorem execute_steps (state later : State) (id : Nat) (draw : Draw)
    (stepped : step keys credentials state (.execute id draw) = some later) :
    Steps keys credentials state (.execute id draw) later := by
  simp only [step] at stepped
  split at stepped
  · cases stepped
  · rename_i txn found
    unfold executed at stepped
    dsimp only at stepped
    split at stepped
    · cases stepped
    · rename_i stage writes ran
      obtain ⟨present, free, same⟩ := advance_eq credentials _ _ _ _ stepped
      subst same
      exact .goesOn id draw txn stage writes found
        (next_goes keys credentials _ _ _ _ _ _ ran) present free
    · rename_i answer ran
      cases stepped
      exact .ends id draw txn answer found ran

theorem commit_steps (state later : State) (id : Nat)
    (stepped : step keys credentials state (.commit id) = some later) :
    Steps keys credentials state (.commit id) later := by
  simp only [step] at stepped
  split at stepped
  · cases stepped
  · rename_i txn found
    split at stepped
    · rename_i past
      cases stepped
      exact .commits id txn .returned (by simp) found (Or.inl past)
    · rename_i purpose row consumed
      split at stepped
      · rename_i failure _
        cases stepped
        exact .commits id txn (.failed failure) (by simp) found (Or.inr ⟨purpose, row, consumed⟩)
      · rename_i stage after
        obtain ⟨present, free, same⟩ := advance_eq credentials _ _ _ _ stepped
        subst same
        simp only [committed, List.length_append, List.length_singleton] at after
        exact .continues id txn purpose row stage found consumed after present free
    · cases stepped

theorem step_cases (state later : State) (action : Action)
    (stepped : step keys credentials state action = some later) :
    Steps keys credentials state action later := by
  cases action with
  | arrive route =>
      cases stepped
      exact .arrive route
  | execute id draw => exact execute_steps keys credentials state later id draw stepped
  | commit id => exact commit_steps keys credentials state later id stepped
  | rollback id =>
      simp only [step] at stepped
      split_ifs at stepped
      cases stepped
      exact .rollback id
  | elsewhere ledger positions =>
      cases stepped
      exact .elsewhere ledger positions

end Statements

end Morai.Identity.RequestSteps
