import Morai.Foundation.TwoRuns
import Morai.Identity.Tables

/-!
# Row level security

The policies of the migrations for the `morai_app` role, which cannot bypass
them. A statement sees the rows its session's settings admit; unique keys and
foreign keys are checked against all rows. The settings are local to the
transaction.
-/

namespace Morai.Identity.RowSecurity

open Morai.Db Morai.Python Morai.Foundation.PrimaryKey Morai.Foundation.Attempts
open Morai.Foundation.TwoRuns Morai.Identity.Tables

set_option autoImplicit false

/-! ## The tables of the tenants -/

/-- The eight tables under `user_isolation`. -/
structure TenantData where
  positions : KeyedTable Position.id
  ledger : Database

namespace TenantData

def filter (stays : Uuid → Bool) (data : TenantData) : TenantData where
  positions := data.positions.filter fun row => stays row.userId
  ledger :=
    { userDataKeys := data.ledger.userDataKeys.filter fun row => stays row.userId
      fills := data.ledger.fills.filter fun row => stays row.userId
      legs := data.ledger.legs.filter fun row => stays row.userId
      events := data.ledger.events.filter fun row => stays row.userId
      schwabConnections := data.ledger.schwabConnections.filter fun row => stays row.userId
      brokerTransactions := data.ledger.brokerTransactions.filter fun row => stays row.userId
      syncRuns := data.ledger.syncRuns.filter fun row => stays row.userId }

/-- The `user_id`s of all rows. -/
def owners (data : TenantData) : List Uuid :=
  data.positions.rows.map Position.userId ++
    data.ledger.userDataKeys.rows.map UserDataKey.userId ++
    data.ledger.fills.rows.map Fill.userId ++ data.ledger.legs.map Leg.userId ++
    data.ledger.events.map Event.userId ++
    data.ledger.schwabConnections.rows.map SchwabConnection.userId ++
    data.ledger.brokerTransactions.rows.map BrokerTransaction.userId ++
    data.ledger.syncRuns.map SyncRun.userId

/-- Whose row refers to which position. -/
def references (data : TenantData) : List (Uuid × Uuid) :=
  data.ledger.legs.map (fun row => (row.userId, row.positionId)) ++
    data.ledger.events.map fun row => (row.userId, row.positionId)

theorem eq_of_rows (left right : TenantData)
    (positions : left.positions.rows = right.positions.rows)
    (userDataKeys : left.ledger.userDataKeys.rows = right.ledger.userDataKeys.rows)
    (fills : left.ledger.fills.rows = right.ledger.fills.rows)
    (legs : left.ledger.legs = right.ledger.legs)
    (events : left.ledger.events = right.ledger.events)
    (schwabConnections : left.ledger.schwabConnections.rows = right.ledger.schwabConnections.rows)
    (brokerTransactions :
      left.ledger.brokerTransactions.rows = right.ledger.brokerTransactions.rows)
    (syncRuns : left.ledger.syncRuns = right.ledger.syncRuns) : left = right := by
  rcases left with ⟨leftPositions, leftLedger⟩
  rcases right with ⟨rightPositions, rightLedger⟩
  cases leftLedger
  cases rightLedger
  cases table_eq_of_rows _ _ positions
  cases table_eq_of_rows _ _ userDataKeys
  cases table_eq_of_rows _ _ fills
  cases table_eq_of_rows _ _ schwabConnections
  cases table_eq_of_rows _ _ brokerTransactions
  cases legs
  cases events
  cases syncRuns
  rfl

/-- The rows put side by side. -/
structure Beside (hidden seen joined : TenantData) : Prop where
  positions : joined.positions.rows = hidden.positions.rows ++ seen.positions.rows
  userDataKeys : joined.ledger.userDataKeys.rows =
    hidden.ledger.userDataKeys.rows ++ seen.ledger.userDataKeys.rows
  fills : joined.ledger.fills.rows = hidden.ledger.fills.rows ++ seen.ledger.fills.rows
  legs : joined.ledger.legs = hidden.ledger.legs ++ seen.ledger.legs
  events : joined.ledger.events = hidden.ledger.events ++ seen.ledger.events
  schwabConnections : joined.ledger.schwabConnections.rows =
    hidden.ledger.schwabConnections.rows ++ seen.ledger.schwabConnections.rows
  brokerTransactions : joined.ledger.brokerTransactions.rows =
    hidden.ledger.brokerTransactions.rows ++ seen.ledger.brokerTransactions.rows
  syncRuns : joined.ledger.syncRuns = hidden.ledger.syncRuns ++ seen.ledger.syncRuns

end TenantData

def tenantData (system : System) : TenantData := ⟨system.positions, system.ledger⟩

def withTenantData (system : System) (data : TenantData) : System :=
  { system with positions := data.positions, ledger := data.ledger }

def ownRows (userId : Uuid) (system : System) : TenantData :=
  (tenantData system).filter fun owner => owner = userId

/-! ## The policies -/

/-- `app.current_user_id` and `app.is_admin`. -/
structure Context where
  currentUserId : Option Uuid
  isAdmin : Bool
  deriving DecidableEq, Repr

namespace Context

/-- At the beginning of a transaction. -/
def unset : Context := ⟨none, false⟩

variable (context : Context)

/-- `user_isolation`, in `USING` and in `WITH CHECK`. -/
def Owns (userId : Uuid) : Prop := context.currentUserId = some userId

/-- `self_or_admin`, the policy of `users`. -/
def SeesUser (userId : Uuid) : Prop := context.Owns userId ∨ context.isAdmin = true

instance decidableOwns (userId : Uuid) : Decidable (context.Owns userId) :=
  inferInstanceAs (Decidable (_ = _))

instance decidableSeesUser (userId : Uuid) : Decidable (context.SeesUser userId) :=
  inferInstanceAs (Decidable (_ ∨ _))

/-- The rows a statement sees: all of `sessions` and `setup_tokens`, which
have no policy, and none of `audit_log`, whose only policy is for `INSERT`. -/
def visible (system : System) : System :=
  { withTenantData system ((tenantData system).filter fun owner => context.Owns owner) with
    users := system.users.filter fun user => context.SeesUser user.id
    auditLog := [] }

def hidden (system : System) : System :=
  { withTenantData system ((tenantData system).filter fun owner => ¬context.Owns owner) with
    users := system.users.filter fun user => ¬context.SeesUser user.id
    sessions := .empty
    setupTokens := .empty }

/-- `WITH CHECK` of what a statement leaves. Rows that were seen pass it. -/
def Admits (after : System) : Prop :=
  ∀ owner ∈ (tenantData after).owners, context.Owns owner

instance decidableAdmits (after : System) : Decidable (context.Admits after) :=
  inferInstanceAs (Decidable (∀ owner ∈ (tenantData after).owners, _))

end Context

/-! ## Keys are checked against all rows -/

section Joined

variable {Stored Key : Type} [DecidableEq Key] {key : Stored → Key}

def joined (constraintName : String) (hidden seen : KeyedTable key) :
    Except Failure (KeyedTable key) :=
  if apart : ∀ row ∈ seen.rows, ¬hidden.Has (key row) then
    .ok
      { rows := hidden.rows ++ seen.rows
        unique := by
          rw [List.map_append]
          apply List.Nodup.append hidden.unique seen.unique
          intro taken inHidden inSeen
          obtain ⟨row, member, same⟩ := List.mem_map.mp inSeen
          exact apart row member (same ▸ inHidden) }
  else .error (.raised (.integrityError constraintName))

theorem joined_ok (constraintName : String) (hidden seen after : KeyedTable key)
    (ran : joined constraintName hidden seen = .ok after) :
    after.rows = hidden.rows ++ seen.rows := by
  unfold joined at ran
  split at ran
  · cases ran
    rfl
  · cases ran

theorem joined_apart (constraintName : String) (hidden seen : KeyedTable key)
    (apart : ∀ row ∈ seen.rows, ¬hidden.Has (key row)) :
    ∃ after, joined constraintName hidden seen = .ok after := by
  unfold joined
  rw [dif_pos apart]
  exact ⟨_, rfl⟩

end Joined

/-- The rows a statement left, beside those it did not see. Of `users` the
statements that come here only delete. -/
def beside (context : Context) (before seen : System) : Except Failure System := do
  let hidden := context.hidden before
  let positions ← joined "positions_pkey" hidden.positions seen.positions
  let userDataKeys ← joined "user_data_keys_pkey" hidden.ledger.userDataKeys
    seen.ledger.userDataKeys
  let fills ← joined "fills_pkey" hidden.ledger.fills seen.ledger.fills
  let schwabConnections ← joined "schwab_connections_pkey" hidden.ledger.schwabConnections
    seen.ledger.schwabConnections
  let brokerTransactions ← joined "broker_transactions_pkey" hidden.ledger.brokerTransactions
    seen.ledger.brokerTransactions
  .ok { users := before.users.filter fun user =>
          context.SeesUser user.id → seen.users.Has user.id
        sessions := seen.sessions
        setupTokens := seen.setupTokens
        auditLog := hidden.auditLog ++ seen.auditLog
        positions := positions
        ledger :=
          { userDataKeys := userDataKeys
            fills := fills
            legs := hidden.ledger.legs ++ seen.ledger.legs
            events := hidden.ledger.events ++ seen.ledger.events
            schwabConnections := schwabConnections
            brokerTransactions := brokerTransactions
            syncRuns := hidden.ledger.syncRuns ++ seen.ledger.syncRuns } }

/-- The first foreign key of the row that refers to nothing. -/
def brokenKey (system : System) (row : Row) : Option String :=
  match row.userColumns.find? fun column => ¬system.users.Has column.2 with
  | some column => some (row.foreignKey column.1)
  | none =>
      match row.positionColumn with
      | none => none
      | some id =>
          if system.positions.Has id then none else some (row.foreignKey "position_id")

/-- What a statement leaves of the rows it saw is checked and put back beside
those it did not see. -/
def enforced (context : Context) (before after : System) : Except Failure System :=
  if context.Admits after then do
    let merged ← beside context before after
    match (after.rows ++ (context.hidden before).rows).filterMap (brokenKey merged) with
    | [] => .ok merged
    | constraintName :: _ => .error (.raised (.integrityError constraintName))
  else .error (.raised .other)

/-! ## What is left of a statement -/

section Left

variable (context : Context)

theorem filter_beside {Stored : Type} (owner : Stored → Uuid) (rows seen : List Stored)
    (admitted : ∀ row ∈ seen, context.Owns (owner row)) (userId : Uuid) :
    ((rows.filter fun row => ¬context.Owns (owner row)) ++ seen).filter
        (fun row => owner row = userId) =
      if context.Owns userId then seen else rows.filter fun row => owner row = userId := by
  rw [List.filter_append, List.filter_filter]
  by_cases owns : context.Owns userId
  · rw [if_pos owns]
    have none : (rows.filter fun row => decide (owner row = userId) &&
        decide ¬context.Owns (owner row)) = [] := by
      rw [List.filter_eq_nil_iff]
      intro row _ both
      rw [Bool.and_eq_true, decide_eq_true_eq, decide_eq_true_eq] at both
      exact both.2 (both.1 ▸ owns)
    have all : (seen.filter fun row => owner row = userId) = seen := by
      rw [List.filter_eq_self]
      intro row member
      have same : some (owner row) = some userId := (admitted row member).symm.trans owns
      exact decide_eq_true (Option.some.inj same)
    rw [none, all, List.nil_append]
  · rw [if_neg owns]
    have same : (rows.filter fun row => decide (owner row = userId) &&
        decide ¬context.Owns (owner row)) = rows.filter fun row => owner row = userId := by
      apply List.filter_congr
      intro row _
      by_cases own : owner row = userId
      · simp [own, owns]
      · simp [own]
    have none : (seen.filter fun row => owner row = userId) = [] := by
      rw [List.filter_eq_nil_iff]
      intro row member own
      exact owns (of_decide_eq_true own ▸ admitted row member)
    rw [same, none, List.append_nil]

/-- A user's rows afterwards: what the statement left of them if they were the
ones it saw, else what they were before. -/
theorem beside_own_rows (data seen merged : TenantData)
    (beside : TenantData.Beside (data.filter fun owner => ¬context.Owns owner) seen merged)
    (admitted : ∀ owner ∈ seen.owners, context.Owns owner) (userId : Uuid) :
    merged.filter (fun owner => owner = userId) =
      if context.Owns userId then seen else data.filter fun owner => owner = userId := by
  simp only [TenantData.owners, List.mem_append, List.mem_map, or_imp, forall_and,
    forall_exists_index, and_imp, forall_apply_eq_imp_iff₂] at admitted
  obtain ⟨⟨⟨⟨⟨⟨⟨positions, userDataKeys⟩, fills⟩, legs⟩, events⟩, connections⟩, raw⟩, runs⟩ := admitted
  have each := fun (Stored : Type) (owner : Stored → Uuid) rows seen admitted =>
    filter_beside context owner rows seen admitted userId
  have positions := each _ Position.userId data.positions.rows _ positions
  have userDataKeys := each _ UserDataKey.userId data.ledger.userDataKeys.rows _ userDataKeys
  have fills := each _ Fill.userId data.ledger.fills.rows _ fills
  have legs := each _ Leg.userId data.ledger.legs _ legs
  have events := each _ Event.userId data.ledger.events _ events
  have connections := each _ SchwabConnection.userId data.ledger.schwabConnections.rows _ connections
  have raw := each _ BrokerTransaction.userId data.ledger.brokerTransactions.rows _ raw
  have runs := each _ SyncRun.userId data.ledger.syncRuns _ runs
  split_ifs at positions userDataKeys fills legs events connections raw runs ⊢ with owns
  all_goals
    apply TenantData.eq_of_rows
    · exact (congrArg _ beside.positions).trans positions
    · exact (congrArg _ beside.userDataKeys).trans userDataKeys
    · exact (congrArg _ beside.fills).trans fills
    · exact (congrArg _ beside.legs).trans legs
    · exact (congrArg _ beside.events).trans events
    · exact (congrArg _ beside.schwabConnections).trans connections
    · exact (congrArg _ beside.brokerTransactions).trans raw
    · exact (congrArg _ beside.syncRuns).trans runs

/-- What a statement leaves that its checks let pass. -/
structure Enforced (before after merged : System) : Prop where
  admits : context.Admits after
  users : merged.users = before.users.filter fun user =>
    context.SeesUser user.id → after.users.Has user.id
  sessions : merged.sessions = after.sessions
  setupTokens : merged.setupTokens = after.setupTokens
  auditLog : merged.auditLog = before.auditLog ++ after.auditLog
  data : TenantData.Beside ((tenantData before).filter fun owner => ¬context.Owns owner)
    (tenantData after) (tenantData merged)

theorem beside_ok (before after merged : System)
    (ran : beside context before after = .ok merged) (admits : context.Admits after) :
    Enforced context before after merged := by
  obtain ⟨positions, positionsJoined, ran⟩ := bind_ok _ _ _ ran
  obtain ⟨userDataKeys, keysJoined, ran⟩ := bind_ok _ _ _ ran
  obtain ⟨fills, fillsJoined, ran⟩ := bind_ok _ _ _ ran
  obtain ⟨schwabConnections, connectionsJoined, ran⟩ := bind_ok _ _ _ ran
  obtain ⟨brokerTransactions, rawJoined, ran⟩ := bind_ok _ _ _ ran
  cases ran
  constructor
  · exact admits
  · rfl
  · rfl
  · rfl
  · rfl
  · constructor
    · exact joined_ok _ _ _ _ positionsJoined
    · exact joined_ok _ _ _ _ keysJoined
    · exact joined_ok _ _ _ _ fillsJoined
    · rfl
    · rfl
    · exact joined_ok _ _ _ _ connectionsJoined
    · exact joined_ok _ _ _ _ rawJoined
    · rfl

theorem enforced_ok (before after merged : System)
    (ran : enforced context before after = .ok merged) :
    Enforced context before after merged ∧
      ∀ row ∈ after.rows ++ (context.hidden before).rows, brokenKey merged row = none := by
  unfold enforced at ran
  split_ifs at ran with admits
  obtain ⟨joined, put, ran⟩ := bind_ok _ _ _ ran
  split at ran
  · rename_i whole
    cases ran
    exact ⟨beside_ok context before after merged put admits, List.filterMap_eq_nil_iff.mp whole⟩
  · cases ran

theorem enforced_own_rows (before after merged : System)
    (enforced : Enforced context before after merged) (userId : Uuid) :
    ownRows userId merged =
      if context.Owns userId then tenantData after else ownRows userId before :=
  beside_own_rows context (tenantData before) (tenantData after) (tenantData merged) enforced.data
    enforced.admits userId

end Left

/-! ## Foreign keys -/

theorem broken_key_none (system : System) (row : Row) :
    brokenKey system row = none ↔ (∀ column ∈ row.userColumns, system.users.Has column.2) ∧
      ∀ id ∈ row.positionColumn, system.positions.Has id := by
  unfold brokenKey
  cases found : row.userColumns.find? fun column => ¬system.users.Has column.2 with
  | some column =>
      have broken := List.find?_some found
      have member := List.mem_of_find?_eq_some found
      simp only [decide_not, Bool.not_eq_eq_eq_not, Bool.not_true, decide_eq_false_iff_not] at broken
      constructor
      · intro impossible
        cases impossible
      · intro all
        exact absurd (all.1 column member) broken
  | none =>
      have all := List.find?_eq_none.mp found
      simp only [decide_not, Bool.not_eq_eq_eq_not, Bool.not_true, decide_eq_false_iff_not,
        not_not] at all
      cases row.positionColumn with
      | none => simpa using all
      | some id => simpa using fun _ => all

/-- A row of a tenant names its owner and, if it hangs on a position, that
position. -/
theorem tenant_row (system : System) (row : Row) (stored : row ∈ system.rows)
    (tenant : row.table ≠ .sessions ∧ row.table ≠ .setupTokens ∧ row.table ≠ .auditLog) :
    ∃ owner ∈ (tenantData system).owners, row.userColumns = [("user_id", owner)] ∧
      ∀ id ∈ row.positionColumn, (owner, id) ∈ (tenantData system).references := by
  cases row <;>
    simp_all [System.rows, Row.table, Row.userColumns, Row.positionColumn, TenantData.owners,
      TenantData.references, tenantData] <;>
    grind

theorem owner_row (system : System) (owner : Uuid)
    (member : owner ∈ (tenantData system).owners) :
    ∃ row ∈ system.rows, ("user_id", owner) ∈ row.userColumns := by
  simp only [TenantData.owners, tenantData, List.mem_append, List.mem_map] at member
  rcases member with ((((((found | found) | found) | found) | found) | found) | found) | found <;>
    obtain ⟨stored, member, same⟩ := found
  · exact ⟨.position stored, by simp [System.rows, member], by simp [Row.userColumns, same]⟩
  · exact ⟨.userDataKey stored, by simp [System.rows, member], by simp [Row.userColumns, same]⟩
  · exact ⟨.fill stored, by simp [System.rows, member], by simp [Row.userColumns, same]⟩
  · exact ⟨.leg stored, by simp [System.rows, member], by simp [Row.userColumns, same]⟩
  · exact ⟨.event stored, by simp [System.rows, member], by simp [Row.userColumns, same]⟩
  · exact ⟨.schwabConnection stored, by simp [System.rows, member], by simp [Row.userColumns, same]⟩
  · exact ⟨.brokerTransaction stored, by simp [System.rows, member],
      by simp [Row.userColumns, same]⟩
  · exact ⟨.syncRun stored, by simp [System.rows, member], by simp [Row.userColumns, same]⟩

theorem reference_row (system : System) (reference : Uuid × Uuid)
    (member : reference ∈ (tenantData system).references) :
    ∃ row ∈ system.rows, row.positionColumn = some reference.2 := by
  simp only [TenantData.references, tenantData, List.mem_append, List.mem_map] at member
  rcases member with found | found <;> obtain ⟨stored, member, same⟩ := found
  · exact ⟨.leg stored, by simp [System.rows, member], by simp [Row.positionColumn, ← same]⟩
  · exact ⟨.event stored, by simp [System.rows, member], by simp [Row.positionColumn, ← same]⟩

theorem filter_owners (data : TenantData) (stays : Uuid → Bool) (owner : Uuid) :
    owner ∈ (data.filter stays).owners ↔ owner ∈ data.owners ∧ stays owner = true := by
  simp only [TenantData.owners, TenantData.filter, KeyedTable.filter, List.mem_append,
    List.mem_map, List.mem_filter]
  grind

theorem filter_references (data : TenantData) (stays : Uuid → Bool) (reference : Uuid × Uuid) :
    reference ∈ (data.filter stays).references ↔
      reference ∈ data.references ∧ stays reference.1 = true := by
  simp only [TenantData.references, TenantData.filter, List.mem_append, List.mem_map,
    List.mem_filter]
  grind

theorem beside_owners (hidden seen merged : TenantData)
    (beside : TenantData.Beside hidden seen merged) (owner : Uuid) :
    owner ∈ merged.owners ↔ owner ∈ hidden.owners ∨ owner ∈ seen.owners := by
  simp only [TenantData.owners, beside.positions, beside.userDataKeys, beside.fills, beside.legs,
    beside.events, beside.schwabConnections, beside.brokerTransactions, beside.syncRuns,
    List.map_append, List.mem_append]
  tauto

theorem beside_references (hidden seen merged : TenantData)
    (beside : TenantData.Beside hidden seen merged) (reference : Uuid × Uuid) :
    reference ∈ merged.references ↔
      reference ∈ hidden.references ∨ reference ∈ seen.references := by
  simp only [TenantData.references, beside.legs, beside.events, List.map_append, List.mem_append]
  tauto

theorem reference_owner (data : TenantData) (reference : Uuid × Uuid)
    (member : reference ∈ data.references) : reference.1 ∈ data.owners := by
  simp only [TenantData.references, TenantData.owners, List.mem_append, List.mem_map] at member ⊢
  grind

theorem filter_absent (data : TenantData) (userId : Uuid) (absent : userId ∉ data.owners) :
    data.filter (fun owner => owner = userId) = ⟨.empty, .empty⟩ := by
  simp only [TenantData.owners, List.mem_append, List.mem_map, not_or, not_exists, not_and] at absent
  obtain ⟨⟨⟨⟨⟨⟨⟨positions, userDataKeys⟩, fills⟩, legs⟩, events⟩, connections⟩, raw⟩, runs⟩ := absent
  have none {Stored : Type} (owner : Stored → Uuid) (rows : List Stored)
      (others : ∀ row ∈ rows, ¬owner row = userId) :
      (rows.filter fun row => owner row = userId) = [] := by
    rw [List.filter_eq_nil_iff]
    intro row member own
    exact others row member (of_decide_eq_true own)
  apply TenantData.eq_of_rows
  · exact none Position.userId _ positions
  · exact none UserDataKey.userId _ userDataKeys
  · exact none Fill.userId _ fills
  · exact none Leg.userId _ legs
  · exact none Event.userId _ events
  · exact none SchwabConnection.userId _ connections
  · exact none BrokerTransaction.userId _ raw
  · exact none SyncRun.userId _ runs

/-- Every tenant's rows refer to users that exist and to positions of that
tenant. -/
structure Sound (system : System) : Prop where
  owners : ∀ owner ∈ (tenantData system).owners, system.users.Has owner
  references : ∀ reference ∈ (tenantData system).references,
    ∃ position ∈ system.positions.rows, position.id = reference.2 ∧ position.userId = reference.1

/-- Who is not a user owns nothing. -/
theorem own_rows_absent (system : System) (sound : Sound system) (userId : Uuid)
    (absent : ¬system.users.Has userId) : ownRows userId system = ⟨.empty, .empty⟩ :=
  filter_absent (tenantData system) userId fun member => absent (sound.owners userId member)

/-- A statement adds no position and refers to none that was not referred to,
and takes no user but the session's own. -/
structure Grounded (context : Context) (before after : System) : Prop where
  positions : ∀ position ∈ after.positions.rows, position ∈ before.positions.rows
  references : ∀ reference ∈ (tenantData after).references,
    ∃ known ∈ (tenantData before).references, known.2 = reference.2
  users : ∀ user ∈ before.users.rows, context.Owns user.id ∨ after.users.Has user.id

section Keys

variable (context : Context) (before after merged : System)

theorem visible_tenant_data :
    tenantData (context.visible before) =
      (tenantData before).filter fun owner => context.Owns owner :=
  rfl

theorem hidden_tenant_data :
    tenantData (context.hidden before) =
      (tenantData before).filter fun owner => ¬context.Owns owner :=
  rfl

theorem owns_same (left right : Uuid) (ownsLeft : context.Owns left)
    (ownsRight : context.Owns right) : left = right :=
  Option.some.inj (ownsLeft.symm.trans ownsRight)

/-- A position an owned row refers to is none of those the statement did not
see. -/
theorem referred_not_hidden (sound : Sound before) (reference : Uuid × Uuid)
    (member : reference ∈ (tenantData (context.visible before)).references)
    (position : Position) (stored : position ∈ (context.hidden before).positions.rows) :
    position.id ≠ reference.2 := by
  intro same
  rw [visible_tenant_data] at member
  have visible := (filter_references _ _ reference).mp member
  obtain ⟨known, knownStored, knownId, knownOwner⟩ := sound.references reference visible.1
  have hidden := List.mem_filter.mp stored
  have one : position = known := List.inj_on_of_nodup_map before.positions.unique hidden.1
    knownStored (same.trans knownId.symm)
  have owned : context.Owns reference.1 := of_decide_eq_true visible.2
  have notOwned : ¬context.Owns position.userId := by simpa using hidden.2
  rw [one, knownOwner] at notOwned
  exact notOwned owned

theorem sound_enforced (sound : Sound before)
    (grounded : Grounded context (context.visible before) after)
    (enforced : Enforced context before after merged)
    (whole : ∀ row ∈ after.rows ++ (context.hidden before).rows, brokenKey merged row = none) :
    Sound merged := by
  have keys := fun row member => (broken_key_none merged row).mp (whole row member)
  constructor
  · intro owner member
    have found : ∃ row ∈ after.rows ++ (context.hidden before).rows,
        ("user_id", owner) ∈ row.userColumns := by
      cases (beside_owners _ _ _ enforced.data owner).mp member with
      | inl hidden =>
          obtain ⟨row, stored, column⟩ := owner_row (context.hidden before) owner hidden
          exact ⟨row, List.mem_append_right _ stored, column⟩
      | inr seen =>
          obtain ⟨row, stored, column⟩ := owner_row after owner seen
          exact ⟨row, List.mem_append_left _ stored, column⟩
    obtain ⟨row, stored, column⟩ := found
    exact (keys row stored).1 _ column
  · intro reference member
    have rows : merged.positions.rows =
        (context.hidden before).positions.rows ++ after.positions.rows := enforced.data.positions
    rw [rows]
    cases (beside_references _ _ _ enforced.data reference).mp member with
    | inl hidden =>
        have facts := (filter_references _ _ _).mp hidden
        obtain ⟨position, stored, id, owner⟩ := sound.references reference facts.1
        refine ⟨position, List.mem_append_left _ ?_, id, owner⟩
        exact List.mem_filter.mpr ⟨stored, owner ▸ facts.2⟩
    | inr seen =>
        obtain ⟨row, stored, column⟩ := reference_row after reference seen
        have present := (keys row (List.mem_append_left _ stored)).2 reference.2 column
        obtain ⟨position, positionStored, id⟩ := List.mem_map.mp present
        rw [rows] at positionStored
        refine ⟨position, positionStored, id, ?_⟩
        obtain ⟨known, knownMember, sameId⟩ := grounded.references reference seen
        have own := enforced.admits reference.1 (reference_owner _ reference seen)
        cases List.mem_append.mp positionStored with
        | inl hidden =>
            exact absurd (id.trans sameId.symm)
              (referred_not_hidden context before sound known knownMember position hidden)
        | inr kept =>
            have visible := List.mem_filter.mp (grounded.positions position kept)
            exact owns_same context _ _ (of_decide_eq_true visible.2) own

/-- The rows a statement did not see still refer to what is there. -/
theorem hidden_keys (sound : Sound before)
    (grounded : Grounded context (context.visible before) after)
    (enforced : Enforced context before after merged) (row : Row)
    (stored : row ∈ ({ context.hidden before with auditLog := [] } : System).rows) :
    brokenKey merged row = none := by
  have tenant : row.table ≠ .sessions ∧ row.table ≠ .setupTokens ∧ row.table ≠ .auditLog := by
    cases row <;> simp_all [System.rows, Row.table, Context.hidden, KeyedTable.empty]
  obtain ⟨owner, member, columns, references⟩ := tenant_row _ row stored tenant
  replace member : owner ∈ (tenantData (context.hidden before)).owners := member
  replace references : ∀ id ∈ row.positionColumn,
      (owner, id) ∈ (tenantData (context.hidden before)).references := references
  rw [hidden_tenant_data] at member references
  have hidden := (filter_owners _ _ owner).mp member
  rw [broken_key_none]
  constructor
  · intro column found
    rw [columns, List.mem_singleton] at found
    rw [found, enforced.users]
    obtain ⟨user, userStored, same⟩ := List.mem_map.mp (sound.owners owner hidden.1)
    refine List.mem_map.mpr ⟨user, List.mem_filter.mpr ⟨userStored, decide_eq_true ?_⟩, same⟩
    intro sees
    have visible : user ∈ (context.visible before).users.rows :=
      List.mem_filter.mpr ⟨userStored, decide_eq_true sees⟩
    cases grounded.users user visible with
    | inl owns =>
        rw [same] at owns
        exact absurd owns (by simpa using hidden.2)
    | inr has => exact has
  · intro id column
    have facts := (filter_references _ _ _).mp (references id column)
    obtain ⟨position, positionStored, sameId, sameOwner⟩ := sound.references (owner, id) facts.1
    have rows : merged.positions.rows =
        (context.hidden before).positions.rows ++ after.positions.rows := enforced.data.positions
    rw [KeyedTable.Has, rows, List.map_append, List.mem_append]
    left
    refine List.mem_map.mpr ⟨position, List.mem_filter.mpr ⟨positionStored, ?_⟩, sameId⟩
    exact sameOwner ▸ facts.2

/-- Tables keyed by their owner do not clash with what the statement did not
see, nor do positions that were there before. -/
theorem beside_ends (admits : context.Admits after)
    (positions : ∀ position ∈ after.positions.rows, position ∈ before.positions.rows) :
    ∃ merged, beside context before after = .ok merged := by
  have owned := admits
  simp only [Context.Admits, TenantData.owners, tenantData, List.mem_append, List.mem_map, or_imp,
    forall_and, forall_exists_index, and_imp, forall_apply_eq_imp_iff₂] at owned
  obtain ⟨⟨⟨⟨⟨⟨⟨ownPositions, ownKeys⟩, ownFills⟩, _⟩, _⟩, ownConnections⟩, ownRaw⟩, _⟩ := owned
  have apart {Stored Key : Type} [DecidableEq Key] {key : Stored → Key} (constraintName : String)
      (owner : Stored → Uuid) (table seen : KeyedTable key)
      (keyed : ∀ left ∈ table.rows, ∀ right ∈ seen.rows, key left = key right →
        owner left = owner right)
      (own : ∀ row ∈ seen.rows, context.Owns (owner row)) :
      ∃ after, joined constraintName (table.filter fun row => ¬context.Owns (owner row)) seen =
        .ok after := by
    apply joined_apart
    intro row member taken
    obtain ⟨other, otherMember, same⟩ := List.mem_map.mp taken
    have facts := List.mem_filter.mp otherMember
    have notOwned : ¬context.Owns (owner other) := by simpa using facts.2
    exact notOwned (keyed other facts.1 row member same ▸ own row member)
  have positionsApart := apart "positions_pkey" Position.userId before.positions
    after.positions (fun left leftStored right rightStored same => congrArg Position.userId
      (List.inj_on_of_nodup_map before.positions.unique leftStored
        (positions right rightStored) same)) ownPositions
  have keysApart := apart "user_data_keys_pkey" UserDataKey.userId
    before.ledger.userDataKeys after.ledger.userDataKeys
    (fun _ _ _ _ same => congrArg Prod.fst same) ownKeys
  have fillsApart := apart "fills_pkey" Fill.userId before.ledger.fills
    after.ledger.fills (fun _ _ _ _ same => congrArg Prod.fst same) ownFills
  have connectionsApart := apart "schwab_connections_pkey"
    SchwabConnection.userId before.ledger.schwabConnections after.ledger.schwabConnections
    (fun _ _ _ _ same => same) ownConnections
  have rawApart := apart "broker_transactions_pkey" BrokerTransaction.userId
    before.ledger.brokerTransactions after.ledger.brokerTransactions
    (fun _ _ _ _ same => congrArg Prod.fst same) ownRaw
  obtain ⟨positions, positionsRan⟩ : ∃ table, joined "positions_pkey"
    (context.hidden before).positions after.positions = .ok table := positionsApart
  obtain ⟨userDataKeys, keysRan⟩ : ∃ table, joined "user_data_keys_pkey"
    (context.hidden before).ledger.userDataKeys after.ledger.userDataKeys = .ok table := keysApart
  obtain ⟨fills, fillsRan⟩ : ∃ table, joined "fills_pkey"
    (context.hidden before).ledger.fills after.ledger.fills = .ok table := fillsApart
  obtain ⟨schwabConnections, connectionsRan⟩ : ∃ table, joined "schwab_connections_pkey"
    (context.hidden before).ledger.schwabConnections after.ledger.schwabConnections = .ok table :=
    connectionsApart
  obtain ⟨brokerTransactions, rawRan⟩ : ∃ table, joined "broker_transactions_pkey"
    (context.hidden before).ledger.brokerTransactions after.ledger.brokerTransactions =
      .ok table := rawApart
  simp only [beside, positionsRan, keysRan, fillsRan, connectionsRan, rawRan, bind, Except.bind]
  exact ⟨_, rfl⟩

end Keys

theorem row_reference (system : System) (row : Row) (stored : row ∈ system.rows) (id : Uuid)
    (column : row.positionColumn = some id) :
    ∃ reference ∈ (tenantData system).references, reference.2 = id := by
  cases row <;>
    simp_all [System.rows, Row.positionColumn, TenantData.references, tenantData] <;> grind

theorem broken_key_congr (left right : System) (users : left.users = right.users) (row : Row)
    (positions : ∀ id, row.positionColumn = some id →
      (left.positions.Has id ↔ right.positions.Has id)) :
    brokenKey left row = brokenKey right row := by
  unfold brokenKey
  rw [users]
  cases column : row.positionColumn with
  | none => rfl
  | some id => simp only [positions id column]

section TwoSystems

variable (context : Context) (left right after : System)

/-- A position the statement's rows refer to is among those it left. -/
theorem referred_position (before merged : System) (sound : Sound before)
    (grounded : Grounded context (context.visible before) after)
    (enforced : Enforced context before after merged) (row : Row) (stored : row ∈ after.rows)
    (id : Uuid) (column : row.positionColumn = some id) :
    merged.positions.Has id ↔ after.positions.Has id := by
  obtain ⟨reference, member, sameId⟩ := row_reference after row stored id column
  obtain ⟨known, knownMember, knownId⟩ := grounded.references reference member
  have rows : merged.positions.rows =
      (context.hidden before).positions.rows ++ after.positions.rows := enforced.data.positions
  rw [KeyedTable.Has, rows, List.map_append, List.mem_append, ← KeyedTable.Has, ← KeyedTable.Has]
  apply or_iff_right
  intro taken
  obtain ⟨position, positionStored, same⟩ := List.mem_map.mp taken
  exact referred_not_hidden context before sound known knownMember position positionStored
    (same.trans (sameId.symm.trans knownId.symm))

theorem hidden_broken_keys (before merged : System) (sound : Sound before)
    (grounded : Grounded context (context.visible before) after)
    (enforced : Enforced context before after merged) :
    (context.hidden before).rows.filterMap (brokenKey merged) =
      (before.auditLog.map Row.auditEntry).filterMap (brokenKey merged) := by
  have split : (context.hidden before).rows =
      ({ context.hidden before with auditLog := [] } : System).rows ++
        before.auditLog.map Row.auditEntry := by
    simp [System.rows, Context.hidden, withTenantData]
  rw [split, List.filterMap_append, List.filterMap_eq_nil_iff.mpr, List.nil_append]
  intro row stored
  exact hidden_keys context before after merged sound grounded enforced row stored

/-- What the checks say of what a statement left does not depend on the rows it
did not see. -/
theorem enforced_alike (users : left.users = right.users) (auditLog : left.auditLog = right.auditLog)
    (soundLeft : Sound left) (soundRight : Sound right)
    (groundedLeft : Grounded context (context.visible left) after)
    (groundedRight : Grounded context (context.visible right) after) :
    (∃ failure, enforced context left after = .error failure ∧
        enforced context right after = .error failure) ∨
      ∃ mergedLeft mergedRight, enforced context left after = .ok mergedLeft ∧
        enforced context right after = .ok mergedRight := by
  unfold enforced
  by_cases admits : context.Admits after
  · rw [if_pos admits, if_pos admits]
    obtain ⟨mergedLeft, ranLeft⟩ := beside_ends context left after admits fun position member =>
      (List.mem_filter.mp (groundedLeft.positions position member)).1
    obtain ⟨mergedRight, ranRight⟩ := beside_ends context right after admits fun position member =>
      (List.mem_filter.mp (groundedRight.positions position member)).1
    have putLeft := beside_ok context left after mergedLeft ranLeft admits
    have putRight := beside_ok context right after mergedRight ranRight admits
    have sameUsers : mergedLeft.users = mergedRight.users := by
      rw [putLeft.users, putRight.users, users]
    have written : after.rows.filterMap (brokenKey mergedLeft) =
        after.rows.filterMap (brokenKey mergedRight) := by
      apply List.filterMap_congr
      intro row stored
      apply broken_key_congr mergedLeft mergedRight sameUsers
      intro id column
      rw [referred_position context after left mergedLeft soundLeft groundedLeft putLeft row
          stored id column,
        referred_position context after right mergedRight soundRight groundedRight putRight row
          stored id column]
    have logged : (context.hidden left).rows.filterMap (brokenKey mergedLeft) =
        (context.hidden right).rows.filterMap (brokenKey mergedRight) := by
      rw [hidden_broken_keys context after left mergedLeft soundLeft groundedLeft putLeft,
        hidden_broken_keys context after right mergedRight soundRight groundedRight putRight,
        auditLog]
      apply List.filterMap_congr
      intro row stored
      apply broken_key_congr mergedLeft mergedRight sameUsers
      intro id column
      obtain ⟨entry, _, same⟩ := List.mem_map.mp stored
      rw [← same] at column
      cases column
    simp only [ranLeft, ranRight, bind, Except.bind, List.filterMap_append, written, logged]
    cases after.rows.filterMap (brokenKey mergedRight) ++
        (context.hidden right).rows.filterMap (brokenKey mergedRight) with
    | nil => exact Or.inr ⟨_, _, rfl, rfl⟩
    | cons constraintName _ => exact Or.inl ⟨_, rfl, rfl⟩
  · rw [if_neg admits, if_neg admits]
    exact Or.inl ⟨_, rfl, rfl⟩

end TwoSystems

end Morai.Identity.RowSecurity
