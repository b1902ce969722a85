import Morai.Identity.RequestSteps

/-!
# Invariants of requests served at once

A transaction writes only what its route writes. Beside that, an invariant is
given by what is committed and by what each open transaction relies on; the
latter has to stand every commit of another transaction whose locks do not
clash with its own.
-/

namespace Morai.Identity.RequestInvariants

open Morai.Crypto Morai.Db Morai.Python Morai.Foundation.PrimaryKey Morai.Foundation.RowLocks
open Morai.Foundation.Runs Morai.Identity.Tables Morai.Identity.Deletion Morai.Identity.Requests
open Morai.Vendor.Connections Morai.Identity.ConcurrentRequests Morai.Identity.RequestSteps

set_option autoImplicit false

/-! ## What a route writes -/

inductive Kind where
  | createAdmin
  | createUser
  | resetPassword
  | setup
  | login
  | logout
  | connect
  | callback
  | deleteMe
  | visit
  deriving DecidableEq

def routeKind : Route → Kind
  | .createAdmin _ => .createAdmin
  | .createUser _ _ => .createUser
  | .resetPassword _ _ => .resetPassword
  | .setup _ _ => .setup
  | .login _ _ => .login
  | .logout _ => .logout
  | .connect _ => .connect
  | .callback _ _ => .callback
  | .deleteMe _ => .deleteMe
  | .visit _ => .visit

/-- The writes still to come. -/
def todoOf : Stage → List Write
  | .writing todo => todo
  | _ => []

/-- The route that adds such a user. -/
def creating (user : User) : Kind := if user.isAdmin then .createAdmin else .createUser

/-- The routes that call `issue_token`. -/
def issuing : List Kind := [.createAdmin, .createUser, .resetPassword, .connect]

def WriteBelongs (route : Route) : Write → Prop
  | .insertUser user => routeKind route = creating user
  | .insertKey _ => routeKind route = .createUser
  | .insertToken _ _ _ => routeKind route ∈ issuing
  | .insertAuditEntry _ _ => routeKind route = .resetPassword
  | .insertSession _ => routeKind route = .login
  | .setPassword _ _ _ _ => routeKind route ∈ [.setup, .login]
  | .deleteSession rawToken => route = .logout (some rawToken)
  | .upsertConnection _ _ _ => routeKind route = .callback

/-- The route hands this token to `consume_token` for this purpose. -/
def Presents : Route → String → TokenPurpose → Prop
  | .setup rawToken _, presented, purpose => presented = rawToken ∧ purpose ≠ .oauthState
  | .callback rawState _, presented, purpose => presented = rawState ∧ purpose = .oauthState
  | _, _, _ => False

structure WritesBelong (route : Route) (writes : Writes) : Prop where
  user : ∀ user, writes.user = some user → routeKind route = creating user
  dataKey : ∀ row, writes.dataKey = some row → routeKind route = .createUser
  token : ∀ issue, writes.token = some issue → routeKind route ∈ issuing
  auditEntry : ∀ entry, writes.auditEntry = some entry → routeKind route = .resetPassword
  session : ∀ login, writes.session = some login → routeKind route = .login
  consumed : ∀ consumption, writes.consumed = some consumption →
    Presents route consumption.rawToken consumption.row.purpose
  password : ∀ change, writes.password = some change → routeKind route ∈ [.setup, .login]
  dropped : ∀ dropped, writes.dropped = some dropped → route = .logout (some dropped.rawToken)
  connection : ∀ row, writes.connection = some row → routeKind route = .callback
  deletion : ∀ deletion, writes.deletion = some deletion → routeKind route = .deleteMe

namespace WritesBelong

variable {route : Route} {writes : Writes} (belongs : WritesBelong route writes)

include belongs

theorem no_user (admin : routeKind route ≠ .createAdmin) (plain : routeKind route ≠ .createUser) :
    writes.user = none := by
  cases found : writes.user with
  | none => rfl
  | some user =>
      have kind := belongs.user user found
      unfold creating at kind
      split_ifs at kind
      · exact absurd kind admin
      · exact absurd kind plain

theorem no_session (other : routeKind route ≠ .login) : writes.session = none := by
  cases found : writes.session with
  | none => rfl
  | some login => exact absurd (belongs.session login found) other

theorem no_password (others : routeKind route ∉ [.setup, .login]) : writes.password = none := by
  cases found : writes.password with
  | none => rfl
  | some change => exact absurd (belongs.password change found) others

theorem no_dropped (other : routeKind route ≠ .logout) : writes.dropped = none := by
  cases found : writes.dropped with
  | none => rfl
  | some dropped =>
      rw [belongs.dropped dropped found] at other
      exact absurd rfl other

theorem no_deletion (other : routeKind route ≠ .deleteMe) : writes.deletion = none := by
  cases found : writes.deletion with
  | none => rfl
  | some deletion => exact absurd (belongs.deletion deletion found) other

end WritesBelong

def StageFits (route : Route) (writes : Writes) : Stage → Prop
  | .arrived => writes = .nothing
  | .lockHeld => writes = .nothing ∧ routeKind route = .createAdmin
  | .sessionRead _ => writes = .nothing ∧ ∃ rawToken, route.session? = some (some rawToken)
  | .consuming rawToken purpose => writes = .nothing ∧ Presents route rawToken purpose
  | .consumed purpose found => found = writes.consumed.map Consumption.row ∧
      (∃ rawToken, Presents route rawToken purpose) ∧ writes = { Writes.nothing with
        consumed := writes.consumed }
  | .writing todo => writes.consumed = none ∧ ∀ write ∈ todo, WriteBelongs route write
  | .deleting _ => writes = .nothing ∧ routeKind route = .deleteMe

structure Shaped (txn : Txn) : Prop where
  stage : StageFits txn.route txn.writes txn.stage
  writes : WritesBelong txn.route txn.writes

theorem nothing_belongs (route : Route) : WritesBelong route .nothing := by
  constructor <;> intro row found <;> cases found

theorem shaped_arrives (route : Route) : Shaped ⟨route, route.firstStage, .nothing⟩ := by
  refine ⟨?_, nothing_belongs route⟩
  cases route with
  | setup rawToken password => exact ⟨rfl, rfl, by simp⟩
  | callback rawState exchange => exact ⟨rfl, rfl, rfl⟩
  | _ => rfl

theorem nothing_apply (credentials : Credentials) (system : System) :
    Writes.nothing.apply credentials system = system := by
  have sessions : (system.sessions.filter fun _ => true) = system.sessions :=
    table_eq_of_rows _ _ (List.filter_true _)
  have tokens : (system.setupTokens.filter fun _ => true) = system.setupTokens :=
    table_eq_of_rows _ _ (List.filter_true _)
  simp [Writes.apply, Writes.nothing, addRow, setHash, sessions, tokens]

section Shape

variable (keys : KeyService) (credentials : Credentials)

theorem performed_belongs (route : Route) (draw : Draw) (view : System) (before after : Writes)
    (write : Write) (belongs : WriteBelongs route write) (held : WritesBelong route before)
    (performed : Performed credentials draw view before write after) :
    WritesBelong route after ∧ after.consumed = before.consumed := by
  cases performed with
  | user user fresh =>
      refine ⟨{ held with user := ?_ }, rfl⟩
      intro added same
      cases same
      exact belongs
  | key userId row => exact ⟨{ held with dataKey := fun _ _ => belongs }, rfl⟩
  | token userId purpose ttl refers fresh =>
      exact ⟨{ held with token := fun _ _ => belongs }, rfl⟩
  | auditEntry readerId subjectId => exact ⟨{ held with auditEntry := fun _ _ => belongs }, rfl⟩
  | session userId refers fresh => exact ⟨{ held with session := fun _ _ => belongs }, rfl⟩
  | password unmatched userId password knownSince matched =>
      exact ⟨{ held with password := fun _ _ => belongs }, rfl⟩
  | dropped rawToken =>
      refine ⟨{ held with dropped := ?_ }, rfl⟩
      intro gone same
      cases same
      exact belongs
  | connection userId exchangedToken accountHash row owned =>
      exact ⟨{ held with connection := fun _ _ => belongs }, rfl⟩

theorem handled_fits (user : AuthenticatedUser) (newId : Uuid) (route : Route) (stage : Stage)
    (handles : handle user newId route = .ok stage) : StageFits route .nothing stage := by
  unfold handle at handles
  split at handles
  · split at handles <;> cases handles
    refine ⟨rfl, ?_⟩
    simp [WriteBelongs, routeKind, creating, issuing]
  · split at handles <;> cases handles
    refine ⟨rfl, ?_⟩
    simp [WriteBelongs, routeKind, issuing]
  · split at handles <;> cases handles
    refine ⟨rfl, ?_⟩
    simp [WriteBelongs]
  · cases handles
    refine ⟨rfl, ?_⟩
    simp [WriteBelongs, routeKind, issuing]
  · cases handles
    exact ⟨rfl, rfl⟩
  · cases handles
    exact ⟨rfl, by simp⟩

theorem matching_token_ok (rawToken : String) (purpose : TokenPurpose) (now : Instant)
    (view : System) (row : SetupToken)
    (matched : matchingToken credentials rawToken purpose now view = some row) :
    row ∈ view.setupTokens.rows ∧ row.tokenHash = credentials.hashToken rawToken ∧
      row.purpose = purpose ∧ now < row.expiresAt := by
  obtain ⟨found, fits⟩ := Option.filter_eq_some_iff.mp matched
  have member := (get_eq_some_iff _ _ _).mp found
  exact ⟨member.1, member.2, of_decide_eq_true fits⟩

theorem login_writes_belong (route : Route) (login : routeKind route = .login) (userId : Uuid)
    (storedHash password : String) (position : Nat) :
    ∀ write ∈ loginWrites credentials userId storedHash password position,
      WriteBelongs route write := by
  intro write member
  unfold loginWrites at member
  split at member <;> simp only [List.cons_append, List.nil_append, List.mem_cons,
    List.not_mem_nil, or_false] at member
  · rcases member with rfl | rfl
    · simp [WriteBelongs, login]
    · exact login
  · rcases member with rfl
    exact login

theorem shaped_goes (txn : Txn) (draw : Draw) (position : Nat) (view : System) (stage : Stage)
    (writes : Writes) (shaped : Shaped txn)
    (goes : Goes credentials txn draw position view stage writes) :
    Shaped ⟨txn.route, stage, writes⟩ := by
  have fits := shaped.stage
  cases goes with
  | lock username route arrived =>
      rw [arrived] at fits
      exact ⟨⟨fits, by rw [route]; rfl⟩, shaped.writes⟩
  | lookup username password userId storedHash route arrived verified =>
      rw [arrived] at fits
      refine ⟨⟨congrArg Writes.consumed fits, ?_⟩, shaped.writes⟩
      exact login_writes_belong credentials _ (by rw [route]; rfl) userId storedHash password
        position
  | session rawToken userId route arrived read =>
      rw [arrived] at fits
      exact ⟨⟨fits, rawToken, route⟩, shaped.writes⟩
  | bootstrap username route locked noAdmin =>
      rw [locked] at fits
      refine ⟨⟨congrArg Writes.consumed fits.1, ?_⟩, shaped.writes⟩
      simp [WriteBelongs, route, routeKind, creating, issuing]
  | handled reading caller stage read found handles =>
      rw [read] at fits
      refine ⟨?_, shaped.writes⟩
      rw [fits.1]
      exact handled_fits _ _ _ _ handles
  | unmatched rawToken purpose consuming =>
      rw [consuming] at fits
      refine ⟨⟨?_, ⟨rawToken, fits.2⟩, ?_⟩, shaped.writes⟩
      · rw [fits.1]
        rfl
      · rw [fits.1]
  | matched rawToken purpose row consuming matched =>
      rw [consuming] at fits
      have presented := fits.2
      have same := (matching_token_ok credentials _ _ _ _ _ matched).2.2.1
      refine ⟨⟨rfl, ⟨rawToken, presented⟩, by rw [fits.1]⟩, { shaped.writes with consumed := ?_ }⟩
      intro consumption found
      cases found
      rw [same]
      exact presented
  | wrote write rest writes writing performed =>
      rw [writing] at fits
      obtain ⟨belongs, sameConsumed⟩ := performed_belongs credentials txn.route draw view txn.writes
        writes write (fits.2 write List.mem_cons_self) shaped.writes performed
      refine ⟨⟨sameConsumed.trans fits.1, ?_⟩, belongs⟩
      exact fun later member => fits.2 later (List.mem_cons_of_mem _ member)
  | removed deletion later table rest deleting ran =>
      rw [deleting] at fits
      exact ⟨fits, shaped.writes⟩
  | deleted deletion after deleting ran =>
      rw [deleting] at fits
      refine ⟨⟨congrArg Writes.consumed fits.1, by simp⟩, { shaped.writes with deletion := ?_ }⟩
      exact fun _ _ => fits.2

theorem shaped_continues (txn : Txn) (position : Nat) (purpose : TokenPurpose)
    (row : Option SetupToken) (stage : Stage)
    (after : afterConsumed position purpose row txn.route = .ok stage) :
    Shaped ⟨txn.route, stage, .nothing⟩ := by
  refine ⟨?_, nothing_belongs _⟩
  unfold afterConsumed at after
  split at after
  · rename_i rawToken password route
    rw [route]
    split at after
    · cases after
      exact ⟨rfl, by simp [WriteBelongs, routeKind]⟩
    · split at after <;> cases after
      exact ⟨rfl, rfl, by simp⟩
  · rename_i rawState exchange route
    rw [route]
    split at after
    · cases after
    · split at after <;> cases after
      exact ⟨rfl, by simp [WriteBelongs, routeKind]⟩
  · cases after

end Shape

/-! ## What a transaction holds -/

section Held

variable (credentials : Credentials) (txn : Txn)

theorem user_held (user : User) (added : txn.writes.user = some user) :
    ⟨.user user.id, .update⟩ ∈ txn.holds credentials := by
  simp [Txn.holds, Writes.holds, added]

theorem session_held (login : Login) (session : txn.writes.session = some login) :
    ⟨.session (credentials.hashToken login.rawToken), .update⟩ ∈ txn.holds credentials ∧
      ⟨.user login.userId, .keyShare⟩ ∈ txn.holds credentials := by
  simp [Txn.holds, Writes.holds, session, inserted]

theorem consumed_held (consumption : Consumption) (consumed : txn.writes.consumed = some consumption) :
    ⟨.token consumption.row.tokenHash, .update⟩ ∈ txn.holds credentials := by
  simp [Txn.holds, Writes.holds, consumed]

theorem password_held (change : PasswordChange) (password : txn.writes.password = some change) :
    ⟨.user change.userId, .noKeyUpdate⟩ ∈ txn.holds credentials := by
  simp [Txn.holds, Writes.holds, password]

theorem dropped_held (dropped : Dropped) (row : SessionRow)
    (logout : txn.writes.dropped = some dropped) (found : dropped.row = some row) :
    ⟨.session row.tokenHash, .update⟩ ∈ txn.holds credentials := by
  simp [Txn.holds, Writes.holds, logout, found]

theorem deletion_held (deletion : AccountDeletion) (deletes : txn.writes.deletion = some deletion) :
    ⟨.user deletion.userId, .update⟩ ∈ txn.holds credentials ∧
      ∀ row ∈ deletion.removed, ⟨rowResource row, .update⟩ ∈ txn.holds credentials := by
  constructor
  · simp [Txn.holds, Writes.holds, deletes]
  · intro row member
    have removed : (⟨rowResource row, .update⟩ : Hold Resource) ∈ removedHolds deletion.removed :=
      List.mem_map.mpr ⟨row, member, rfl⟩
    simp [Txn.holds, Writes.holds, deletes, removed]

end Held

/-! ## Invariants over runs -/

/-- What a run's requests, draws and commits are like. -/
structure Conditions where
  route : Route → Prop
  draw : Draw → Prop
  commit : List Entry → Txn → Prop

def Conditions.Allowed (conditions : Conditions) (state : State) : Action → Prop
  | .arrive route => conditions.route route
  | .execute _ draw => conditions.draw draw
  | .commit id => ∀ txn, state.opened.txns id = some txn → conditions.commit state.history txn
  | _ => True

/-- A commit holds what its route writes. -/
def EntryBelongs : Entry → Prop
  | .request _ route writes => WritesBelong route writes
  | .elsewhere _ _ => True

/-- The request a commit belongs to. -/
def requestOf : Entry → Option Nat
  | .request id _ _ => some id
  | .elsewhere _ _ => none

theorem foreign_concat (history : List Entry) (entry : Entry) (id : Nat)
    (before : ∀ found ∈ history, requestOf found ≠ some id) (foreign : requestOf entry ≠ some id) :
    ∀ found ∈ history ++ [entry], requestOf found ≠ some id := by
  intro found member
  cases List.mem_append.mp member with
  | inl old => exact before found old
  | inr last =>
      rw [List.mem_singleton.mp last]
      exact foreign

section Invariants

variable (keys : KeyService) (credentials : Credentials) (conditions : Conditions)
  (store : System → List Entry → Prop) (each : System → List Entry → Nat → Txn → Prop)

/-- What is committed once the transaction is. -/
def systemAfter (system : System) (txn : Txn) : System := txn.writes.apply credentials system

def historyAfter (history : List Entry) (id : Nat) (txn : Txn) : List Entry :=
  history ++ [.request id txn.route txn.writes]

/-- `store` holds of what is committed and `each` of what is committed and of
every open transaction. -/
structure Holds (state : State) : Prop where
  store : store state.system state.history
  each : ∀ id txn, state.opened.txns id = some txn → each state.system state.history id txn
  shaped : ∀ id txn, state.opened.txns id = some txn → Shaped txn
  apart : state.opened.Apart (Txn.holds credentials)
  numbered : ∀ entry ∈ state.history, ∀ id, requestOf entry = some id → id < state.opened.count
  belongs : ∀ entry ∈ state.history, EntryBelongs entry

/-- What has to be shown of an invariant, once for each thing a step does. -/
structure Kept : Prop where
  arrives : ∀ system history id route, store system history → conditions.route route →
    (∀ entry ∈ history, requestOf entry ≠ some id) →
    each system history id ⟨route, route.firstStage, .nothing⟩
  goesOn : ∀ system history id txn draw stage writes, store system history →
    each system history id txn → Shaped txn → conditions.draw draw →
    Goes credentials txn draw history.length (txn.writes.apply credentials system) stage writes →
    each system history id ⟨txn.route, stage, writes⟩
  commits : ∀ system history id txn, store system history → each system history id txn →
    Shaped txn → (txn.stage = .writing [] ∨ ∃ purpose row, txn.stage = .consumed purpose row) →
    conditions.commit history txn →
    store (systemAfter credentials system txn) (historyAfter history id txn)
  continues : ∀ system history id txn purpose row stage, store system history →
    each system history id txn → Shaped txn → txn.stage = .consumed purpose row →
    afterConsumed (history.length + 1) purpose row txn.route = .ok stage →
    conditions.commit history txn →
    each (systemAfter credentials system txn) (historyAfter history id txn) id
      ⟨txn.route, stage, .nothing⟩
  others : ∀ system history id txn otherId other, store system history →
    each system history id txn → each system history otherId other → Shaped txn → Shaped other →
    conditions.commit history other → id ≠ otherId →
    clash (txn.holds credentials) (other.holds credentials) = false →
    each (systemAfter credentials system other) (historyAfter history otherId other) id txn
  elsewhereStore : ∀ (system : System) history ledger positions, store system history →
    store { system with ledger := ledger, positions := positions }
      (history ++ [.elsewhere ledger positions])
  elsewhereEach : ∀ (system : System) history id txn ledger positions, store system history →
    each system history id txn →
    each { system with ledger := ledger, positions := positions }
      (history ++ [.elsewhere ledger positions]) id txn

variable {credentials conditions store each}

theorem holds_start (system : System) (initial : store system []) :
    Holds credentials store each (start system) := by
  refine ⟨initial, ?_, ?_, Opened.apart_empty _, ?_, ?_⟩
  · intro id txn found
    cases found
  · intro id txn found
    cases found
  · intro entry member
    cases member
  · intro entry member
    cases member

theorem holds_arrive (state : State) (route : Route)
    (kept : Kept credentials conditions store each) (holds : Holds credentials store each state)
    (allowed : conditions.route route) :
    Holds credentials store each
      { state with opened := state.opened.enter ⟨route, route.firstStage, .nothing⟩ } := by
  have fresh : ∀ entry ∈ state.history, requestOf entry ≠ some state.opened.count := by
    intro entry member same
    exact Nat.lt_irrefl _ (holds.numbered entry member _ same)
  have held : Txn.holds credentials ⟨route, route.firstStage, .nothing⟩ = [] := by
    cases route <;> rfl
  refine ⟨holds.store, ?_, ?_, ?_, ?_, holds.belongs⟩
  · intro id txn found
    cases state.opened.enter_txns _ txn id found with
    | inl new =>
        rw [new.1, new.2]
        exact kept.arrives _ _ _ route holds.store allowed fresh
    | inr old => exact holds.each id txn old
  · intro id txn found
    cases state.opened.enter_txns _ txn id found with
    | inl new =>
        rw [new.2]
        exact shaped_arrives route
    | inr old => exact holds.shaped id txn old
  · exact state.opened.apart_enter _ _ held holds.apart
  · intro entry member id same
    exact Nat.lt_succ_of_lt (holds.numbered entry member id same)

theorem holds_goes (state : State) (id : Nat) (draw : Draw) (txn : Txn) (stage : Stage)
    (writes : Writes) (checks : List Check) (found : state.opened.txns id = some txn)
    (goes : Goes credentials txn draw state.history.length
      (txn.writes.apply credentials state.system) stage writes)
    (present : (state.opened.txns id).isSome)
    (free : state.opened.Free (Txn.holds credentials) id
      (Txn.holds credentials ⟨txn.route, stage, writes⟩))
    (kept : Kept credentials conditions store each) (holds : Holds credentials store each state)
    (allowed : conditions.draw draw) :
    Holds credentials store each { state with
      opened := state.opened.replace id ⟨txn.route, stage, writes⟩ present
      checks := checks } := by
  refine ⟨holds.store, ?_, ?_, ?_, holds.numbered, holds.belongs⟩
  · intro otherId other otherFound
    cases state.opened.replace_txns id otherId _ other present otherFound with
    | inl mine =>
        rw [mine.1, mine.2]
        exact kept.goesOn _ _ id txn draw stage writes holds.store (holds.each id txn found)
          (holds.shaped id txn found) allowed goes
    | inr old => exact holds.each otherId other old.2
  · intro otherId other otherFound
    cases state.opened.replace_txns id otherId _ other present otherFound with
    | inl mine =>
        rw [mine.2]
        exact shaped_goes credentials txn draw _ _ stage writes (holds.shaped id txn found) goes
    | inr old => exact holds.shaped otherId other old.2
  · exact state.opened.apart_replace _ id _ present free holds.apart

theorem holds_closed (state : State) (id : Nat) (checks : List Check)
    (answers : List (Nat × Answer)) (holds : Holds credentials store each state) :
    Holds credentials store each { state with
      opened := state.opened.close id, checks := checks, answers := answers } := by
  refine ⟨holds.store, ?_, ?_, state.opened.apart_close _ id holds.apart, holds.numbered,
    holds.belongs⟩
  · intro otherId other found
    exact holds.each otherId other (state.opened.close_txns id otherId other found).2
  · intro otherId other found
    exact holds.shaped otherId other (state.opened.close_txns id otherId other found).2

/-- After a commit: the store, the other transactions and the history. -/
theorem committed_holds (state : State) (id : Nat) (txn : Txn)
    (found : state.opened.txns id = some txn)
    (past : txn.stage = .writing [] ∨ ∃ purpose row, txn.stage = .consumed purpose row)
    (kept : Kept credentials conditions store each) (holds : Holds credentials store each state)
    (allowed : conditions.commit state.history txn) :
    store (systemAfter credentials state.system txn) (historyAfter state.history id txn) ∧
      (∀ otherId other, otherId ≠ id → state.opened.txns otherId = some other →
        each (systemAfter credentials state.system txn) (historyAfter state.history id txn)
          otherId other) ∧
      (∀ entry ∈ historyAfter state.history id txn, ∀ number, requestOf entry = some number →
        number < state.opened.count) ∧
      ∀ entry ∈ historyAfter state.history id txn, EntryBelongs entry := by
  refine ⟨?_, ?_, ?_, ?_⟩
  · exact kept.commits _ _ id txn holds.store (holds.each id txn found) (holds.shaped id txn found)
      past allowed
  · intro otherId other differ otherFound
    exact kept.others _ _ otherId other id txn holds.store (holds.each otherId other otherFound)
      (holds.each id txn found) (holds.shaped otherId other otherFound) (holds.shaped id txn found)
      allowed differ (holds.apart otherId id other txn otherFound found differ)
  · intro entry member number same
    cases List.mem_append.mp member with
    | inl old => exact holds.numbered entry old number same
    | inr new =>
        rw [List.mem_singleton.mp new] at same
        cases same
        exact state.opened.count_of_open id txn found
  · intro entry member
    cases List.mem_append.mp member with
    | inl old => exact holds.belongs entry old
    | inr new =>
        rw [List.mem_singleton.mp new]
        exact (holds.shaped id txn found).writes

theorem holds_commits (state : State) (id : Nat) (txn : Txn) (answer : Answer)
    (found : state.opened.txns id = some txn)
    (past : txn.stage = .writing [] ∨ ∃ purpose row, txn.stage = .consumed purpose row)
    (kept : Kept credentials conditions store each) (holds : Holds credentials store each state)
    (allowed : conditions.commit state.history txn) :
    Holds credentials store each (finish (committed credentials state id txn) id answer) := by
  obtain ⟨stored, rest, numbered, belongs⟩ :=
    committed_holds state id txn found past kept holds allowed
  refine ⟨stored, ?_, ?_, state.opened.apart_close _ id holds.apart, numbered, belongs⟩
  · intro otherId other otherFound
    have old := state.opened.close_txns id otherId other otherFound
    exact rest otherId other old.1 old.2
  · intro otherId other otherFound
    exact holds.shaped otherId other (state.opened.close_txns id otherId other otherFound).2

theorem holds_continues (state : State) (id : Nat) (txn : Txn) (purpose : TokenPurpose)
    (row : Option SetupToken) (stage : Stage) (found : state.opened.txns id = some txn)
    (consumed : txn.stage = .consumed purpose row)
    (after : afterConsumed (state.history.length + 1) purpose row txn.route = .ok stage)
    (present : (state.opened.txns id).isSome)
    (free : state.opened.Free (Txn.holds credentials) id
      (Txn.holds credentials ⟨txn.route, stage, .nothing⟩))
    (kept : Kept credentials conditions store each) (holds : Holds credentials store each state)
    (allowed : conditions.commit state.history txn) :
    Holds credentials store each { committed credentials state id txn with
      opened := state.opened.replace id ⟨txn.route, stage, .nothing⟩ present } := by
  obtain ⟨stored, rest, numbered, belongs⟩ :=
    committed_holds state id txn found (Or.inr ⟨purpose, row, consumed⟩) kept holds allowed
  refine ⟨stored, ?_, ?_, state.opened.apart_replace _ id _ present free holds.apart, numbered,
    belongs⟩
  · intro otherId other otherFound
    cases state.opened.replace_txns id otherId _ other present otherFound with
    | inl mine =>
        rw [mine.1, mine.2]
        exact kept.continues _ _ id txn purpose row stage holds.store (holds.each id txn found)
          (holds.shaped id txn found) consumed after allowed
    | inr old => exact rest otherId other old.1 old.2
  · intro otherId other otherFound
    cases state.opened.replace_txns id otherId _ other present otherFound with
    | inl mine =>
        rw [mine.2]
        exact shaped_continues txn _ purpose row stage after
    | inr old => exact holds.shaped otherId other old.2

theorem holds_elsewhere (state : State) (ledger : Database) (positions : KeyedTable Position.id)
    (kept : Kept credentials conditions store each) (holds : Holds credentials store each state) :
    Holds credentials store each { state with
      system := { state.system with ledger := ledger, positions := positions }
      history := state.history ++ [.elsewhere ledger positions] } := by
  refine ⟨kept.elsewhereStore _ _ _ _ holds.store, ?_, holds.shaped, holds.apart, ?_, ?_⟩
  · intro id txn found
    exact kept.elsewhereEach _ _ id txn _ _ holds.store (holds.each id txn found)
  · intro entry member number same
    cases List.mem_append.mp member with
    | inl old => exact holds.numbered entry old number same
    | inr new =>
        rw [List.mem_singleton.mp new] at same
        cases same
  · intro entry member
    cases List.mem_append.mp member with
    | inl old => exact holds.belongs entry old
    | inr new =>
        rw [List.mem_singleton.mp new]
        trivial

theorem step_keeps (kept : Kept credentials conditions store each) (state : State)
    (action : Action) (later : State) (holds : Holds credentials store each state)
    (allowed : conditions.Allowed state action)
    (stepped : step keys credentials state action = some later) :
    Holds credentials store each later := by
  cases step_cases keys credentials state later action stepped with
  | arrive route => exact holds_arrive state route kept holds allowed
  | goesOn id draw txn stage writes found goes present free =>
      exact holds_goes state id draw txn stage writes _ found goes present free kept holds allowed
  | ends id draw txn answer found ran => exact holds_closed state id _ _ holds
  | commits id txn answer notRefused found past =>
      exact holds_commits state id txn answer found past kept holds (allowed txn found)
  | continues id txn purpose row stage found consumed after present free =>
      exact holds_continues state id txn purpose row stage found consumed after present free kept
        holds (allowed txn found)
  | rollback id => exact holds_closed state id state.checks state.answers holds
  | elsewhere ledger positions => exact holds_elsewhere state ledger positions kept holds

end Invariants

end Morai.Identity.RequestInvariants
