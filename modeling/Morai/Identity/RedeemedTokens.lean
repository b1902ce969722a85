import Morai.Identity.LiveSessions

/-!
# The tokens redeemed

`setup_tokens` serves three purposes. What it holds is what the commits so far
issued and did not take, so a request that writes by right of a token is the
one that took it.
-/

namespace Morai.Identity.RedeemedTokens

open Morai.Crypto Morai.Db Morai.Python Morai.Foundation.PrimaryKey Morai.Foundation.RowLocks
open Morai.Identity.Tables Morai.Identity.Deletion Morai.Identity.Requests
open Morai.Identity.ConcurrentRequests Morai.Identity.RequestSteps Morai.Identity.RequestInvariants
open Morai.Identity.LiveSessions

set_option autoImplicit false

/-! ## What the commits say -/

def IssuedToken (history : List Entry) (issue : Issue) : Prop :=
  ∃ entry ∈ history, entry.writes.token = some issue

/-- The `DELETE` of `consume_token` matched the row of this value. -/
def Takes (rawToken : String) (entry : Entry) : Prop :=
  entry.writes.consumed.map Consumption.rawToken = some rawToken

/-- The request took the token, which had been issued, was unexpired, and had
been taken by nobody. -/
def Redeemed (history : List Entry) (id : Nat) (issue : Issue) : Prop :=
  ∃ before taking after consumption, history = before ++ taking :: after ∧
    requestOf taking = some id ∧ taking.writes.consumed = some consumption ∧
    consumption.rawToken = issue.rawToken ∧ consumption.now < issue.expiresAt ∧
    IssuedToken before issue ∧ ∀ earlier ∈ before, ¬Takes issue.rawToken earlier

/-- The request redeemed a token of this user that its route asks for. -/
def Entitled (history : List Entry) (id : Nat) (route : Route) (userId : Uuid) : Prop :=
  ∃ issue, Redeemed history id issue ∧ issue.userId = userId ∧
    Presents route issue.rawToken issue.purpose

/-- The request presented this value and writes by right of it. -/
def TakesEffect (rawToken : String) : Entry → Prop
  | .request _ route writes => (∃ purpose, Presents route rawToken purpose) ∧
      (writes.password ≠ none ∨ writes.connection ≠ none)
  | .elsewhere _ _ => False

/-- What is written by right of a token, a login's rehash apart, is written
for the user of a token redeemed before. -/
def Backed (before : List Entry) : Entry → Prop
  | .request id route writes =>
      (routeKind route ≠ .login → ∀ change, writes.password = some change →
        Entitled before id route change.userId) ∧
      ∀ row, writes.connection = some row → Entitled before id route row.userId
  | .elsewhere _ _ => True

theorem issued_token_grows (history later : List Entry) (issue : Issue)
    (issued : IssuedToken history issue) : IssuedToken (history ++ later) issue := by
  obtain ⟨entry, member, same⟩ := issued
  exact ⟨entry, List.mem_append_left _ member, same⟩

theorem issued_token_concat (history : List Entry) (last : Entry) (issue : Issue) :
    IssuedToken (history ++ [last]) issue ↔
      IssuedToken history issue ∨ last.writes.token = some issue := by
  unfold IssuedToken
  simp only [List.mem_append, List.mem_singleton, or_and_right, exists_or, exists_eq_left]

theorem redeemed_grows (history later : List Entry) (id : Nat) (issue : Issue)
    (redeemed : Redeemed history id issue) : Redeemed (history ++ later) id issue := by
  obtain ⟨before, taking, after, consumption, whole, facts⟩ := redeemed
  refine ⟨before, taking, after ++ later, consumption, ?_, facts⟩
  rw [whole, List.append_assoc, List.cons_append]

theorem entitled_grows (history later : List Entry) (id : Nat) (route : Route) (userId : Uuid)
    (entitled : Entitled history id route userId) :
    Entitled (history ++ later) id route userId := by
  obtain ⟨issue, redeemed, facts⟩ := entitled
  exact ⟨issue, redeemed_grows history later id issue redeemed, facts⟩

theorem redeemed_taken (history : List Entry) (id : Nat) (issue : Issue)
    (redeemed : Redeemed history id issue) :
    (∃ taking ∈ history, requestOf taking = some id ∧ Takes issue.rawToken taking) ∧
      IssuedToken history issue := by
  obtain ⟨before, taking, after, consumption, whole, same, consumed, named, _, issued, _⟩ := redeemed
  have member : taking ∈ history := whole ▸ List.mem_append_right _ List.mem_cons_self
  refine ⟨⟨taking, member, same, ?_⟩, whole ▸ issued_token_grows before _ issue issued⟩
  rw [Takes, consumed, ← named]
  rfl

theorem presents_same (route : Route) (left right : String) (one other : TokenPurpose)
    (first : Presents route left one) (second : Presents route right other) : left = right := by
  cases route with
  | setup rawToken password => exact first.1.trans second.1.symm
  | callback rawState exchange => exact first.1.trans second.1.symm
  | _ => cases first

theorem presents_not_login (route : Route) (rawToken : String) (purpose : TokenPurpose)
    (presents : Presents route rawToken purpose) : routeKind route ≠ .login := by
  cases route with
  | setup rawToken password => simp [routeKind]
  | callback rawState exchange => simp [routeKind]
  | _ => cases presents

/-- The token behind a write is the one that was presented. -/
theorem effect_entitled (before : List Entry) (id : Nat) (route : Route) (writes : Writes)
    (rawToken : String) (backed : Backed before (.request id route writes))
    (effect : TakesEffect rawToken (.request id route writes)) :
    ∃ issue, Redeemed before id issue ∧ issue.rawToken = rawToken := by
  obtain ⟨⟨purpose, presents⟩, wrote⟩ := effect
  have entitled : ∃ userId, Entitled before id route userId := by
    cases wrote with
    | inl password =>
        obtain ⟨change, same⟩ := Option.ne_none_iff_exists'.mp password
        exact ⟨_, backed.1 (presents_not_login route rawToken purpose presents) change same⟩
    | inr connection =>
        obtain ⟨row, same⟩ := Option.ne_none_iff_exists'.mp connection
        exact ⟨_, backed.2 row same⟩
  obtain ⟨userId, issue, redeemed, _, asked⟩ := entitled
  exact ⟨issue, redeemed, presents_same route _ _ _ _ asked presents⟩

/-- No token value is issued twice, and no id of a deleted user is drawn
again. -/
def NewTokens (history : List Entry) (writes : Writes) : Prop :=
  (∀ issue ∈ writes.token, ∀ entry ∈ history,
    entry.writes.token.map Issue.rawToken ≠ some issue.rawToken) ∧
    ∀ user ∈ writes.user, ∀ entry ∈ history, ¬Deletes user.id entry

instance decidableNewTokens (history : List Entry) (writes : Writes) :
    Decidable (NewTokens history writes) :=
  inferInstanceAs (Decidable ((∀ issue ∈ writes.token, _) ∧ ∀ user ∈ writes.user, _))

def TokensUnrepeated (state : State) : Action → Prop
  | .commit id => ∀ txn ∈ state.opened.txns id, NewTokens state.history txn.writes
  | _ => True

instance decidableTokensUnrepeated (state : State) :
    ∀ action, Decidable (TokensUnrepeated state action)
  | .commit id => inferInstanceAs (Decidable (∀ txn ∈ state.opened.txns id, _))
  | .arrive _ | .execute _ _ | .rollback _ | .elsewhere _ _ => isTrue trivial

/-! ## The invariant -/

section Invariant

variable (credentials : Credentials) (values : Set String)

/-- What is committed, against what the commits say. -/
structure Recorded (system : System) (history : List Entry) : Prop where
  rows : ∀ row ∈ system.setupTokens.rows, ∃ issue, IssuedToken history issue ∧
    issue.row credentials = row ∧ ∀ entry ∈ history, ¬Takes issue.rawToken entry
  known : ∀ issue, IssuedToken history issue → issue.rawToken ∈ values
  unique : ∀ one other, IssuedToken history one → IssuedToken history other →
    one.rawToken = other.rawToken → one = other
  taken : ∀ rawToken, ∀ entry ∈ history, Takes rawToken entry →
    ∃ issue, IssuedToken history issue ∧ issue.rawToken = rawToken
  sole : ∀ left ∈ history, ∀ right ∈ history, ∀ rawToken, Takes rawToken left →
    Takes rawToken right → requestOf left = requestOf right
  backed : ∀ before entry after, history = before ++ entry :: after → Backed before entry
  once : ∀ before entry after rawToken, history = before ++ entry :: after →
    TakesEffect rawToken entry → ∀ later ∈ after, ¬TakesEffect rawToken later

/-- What an open transaction relies on. -/
structure Relies (system : System) (history : List Entry) (id : Nat) (txn : Txn) : Prop where
  presented : ∀ rawToken purpose, Presents txn.route rawToken purpose → rawToken ∈ values
  token : ∀ issue, txn.writes.token = some issue → issue.rawToken ∈ values
  consumed : ∀ consumption, txn.writes.consumed = some consumption →
    consumption.row ∈ system.setupTokens.rows ∧
      consumption.row.tokenHash = credentials.hashToken consumption.rawToken ∧
      consumption.now < consumption.row.expiresAt
  password : routeKind txn.route ≠ .login → ∀ change, txn.writes.password = some change →
    Entitled history id txn.route change.userId
  setting : routeKind txn.route ≠ .login → ∀ unmatched userId password knownSince,
    Write.setPassword unmatched userId password knownSince ∈ todoOf txn.stage →
      Entitled history id txn.route userId
  connection : ∀ row, txn.writes.connection = some row →
    Entitled history id txn.route row.userId
  connecting : ∀ userId exchangedToken accountHash,
    Write.upsertConnection userId exchangedToken accountHash ∈ todoOf txn.stage →
      Entitled history id txn.route userId
  ineffective : ∀ entry ∈ history, requestOf entry = some id →
    ∀ rawToken, ¬TakesEffect rawToken entry

/-- The tokens presented and the values drawn are among these. -/
def unrepeatedTokens : Conditions where
  route route := ∀ rawToken purpose, Presents route rawToken purpose → rawToken ∈ values
  draw draw := draw.rawToken ∈ values
  commit history txn := NewTokens history txn.writes

variable {credentials values} {system : System} {history : List Entry} {id : Nat} {txn : Txn}

/-- The row a request takes is that of the value it presents, which nobody has
taken. -/
theorem consumed_issue (distinct : Set.InjOn credentials.hashToken values)
    (recorded : Recorded credentials values system history)
    (relies : Relies credentials values system history id txn) (shaped : Shaped txn)
    (consumption : Consumption) (consumed : txn.writes.consumed = some consumption) :
    ∃ issue, IssuedToken history issue ∧ issue.row credentials = consumption.row ∧
      issue.rawToken = consumption.rawToken ∧ ∀ entry ∈ history, ¬Takes issue.rawToken entry := by
  obtain ⟨stored, hash, _⟩ := relies.consumed consumption consumed
  obtain ⟨issue, issued, same, untaken⟩ := recorded.rows _ stored
  have presented := relies.presented _ _ (shaped.writes.consumed consumption consumed)
  refine ⟨issue, issued, same, ?_, untaken⟩
  apply distinct (recorded.known issue issued) presented
  rw [← hash, ← same]
  rfl

theorem token_not_consumed (shaped : Shaped txn) (issue : Issue)
    (issued : txn.writes.token = some issue) : txn.writes.consumed = none := by
  cases found : txn.writes.consumed with
  | none => rfl
  | some consumption =>
      have kind := shaped.writes.token issue issued
      have presents := shaped.writes.consumed consumption found
      cases route : txn.route <;> rw [route] at kind presents <;>
        simp [routeKind, issuing, Presents] at kind presents

theorem rows_after (recorded : Recorded credentials values system history)
    (relies : Relies credentials values system history id txn) (shaped : Shaped txn)
    (fresh : NewTokens history txn.writes) :
    ∀ row ∈ (systemAfter credentials system txn).setupTokens.rows, ∃ issue,
      IssuedToken (historyAfter history id txn) issue ∧ issue.row credentials = row ∧
        ∀ entry ∈ historyAfter history id txn, ¬Takes issue.rawToken entry := by
  intro row stored
  obtain ⟨source, notTaken, _⟩ := (mem_apply_tokens credentials _ _ row).mp stored
  cases source with
  | inl old =>
      obtain ⟨issue, issued, same, untaken⟩ := recorded.rows row old
      refine ⟨issue, issued_token_grows _ _ _ issued, same, fun entry member => ?_⟩
      cases List.mem_append.mp member with
      | inl earlier => exact untaken entry earlier
      | inr last =>
          rw [List.mem_singleton.mp last]
          intro takes
          obtain ⟨consumption, consumed, named⟩ := Option.map_eq_some_iff.mp takes
          obtain ⟨present, hash, _⟩ := relies.consumed consumption consumed
          have sameHash : consumption.row.tokenHash = row.tokenHash := by
            rw [hash, named, ← same]
            rfl
          have sameRow : some consumption.row = some row := by
            rw [← (get_eq_some_iff system.setupTokens _ _).mpr ⟨present, sameHash⟩]
            exact (get_eq_some_iff _ _ _).mpr ⟨old, rfl⟩
          have taken : txn.writes.consumed = some consumption := consumed
          exact notTaken (by rw [taken, Option.map_some, sameRow])
  | inr new =>
      obtain ⟨issue, issues, same⟩ := Option.map_eq_some_iff.mp new.1
      refine ⟨issue, (issued_token_concat _ _ _).mpr (Or.inr issues), same, fun entry member => ?_⟩
      cases List.mem_append.mp member with
      | inl earlier =>
          intro takes
          obtain ⟨first, ⟨issuing, there, issuedFirst⟩, named⟩ :=
            recorded.taken _ entry earlier takes
          apply fresh.1 issue issues issuing there
          rw [issuedFirst, ← named]
          rfl
      | inr last =>
          rw [List.mem_singleton.mp last]
          intro takes
          have none := token_not_consumed shaped issue issues
          simp [Takes, Entry.writes, none] at takes

/-- An effect is committed once: whoever has taken the token is still at it. -/
theorem effect_new (recorded : Recorded credentials values system history)
    (relies : Relies credentials values system history id txn) (rawToken : String)
    (effect : TakesEffect rawToken (.request id txn.route txn.writes)) :
    ∀ entry ∈ history, ¬TakesEffect rawToken entry := by
  intro entry member earlier
  obtain ⟨issue, redeemed, named⟩ := effect_entitled history id txn.route txn.writes rawToken
    ⟨relies.password, relies.connection⟩ effect
  obtain ⟨⟨taking, there, mine, takes⟩, _⟩ := redeemed_taken history id issue redeemed
  cases entry with
  | elsewhere ledger positions => cases earlier
  | request otherId route writes =>
      obtain ⟨before, after, whole⟩ := List.append_of_mem member
      obtain ⟨first, firstRedeemed, firstNamed⟩ := effect_entitled before otherId route writes
        rawToken (recorded.backed _ _ _ whole) earlier
      obtain ⟨⟨firstTaking, firstThere, theirs, firstTakes⟩, _⟩ :=
        redeemed_taken before otherId first firstRedeemed
      rw [named] at takes
      rw [firstNamed] at firstTakes
      have inHistory : firstTaking ∈ history := whole ▸ List.mem_append_left _ firstThere
      have same := recorded.sole taking there firstTaking inHistory rawToken takes firstTakes
      rw [mine, theirs] at same
      exact relies.ineffective _ member same.symm rawToken earlier

/-- What every commit rests on, after one more. -/
theorem backed_concat (history : List Entry) (last : Entry)
    (backed : ∀ before entry after, history = before ++ entry :: after → Backed before entry)
    (new : Backed history last) (before : List Entry) (entry : Entry) (after : List Entry)
    (whole : history ++ [last] = before ++ entry :: after) : Backed before entry := by
  cases concat_split history before after last entry whole with
  | inl final =>
      rw [← final.2.2, final.2.1]
      exact new
  | inr old =>
      obtain ⟨rest, _, earlier⟩ := old
      exact backed before entry rest earlier

/-- No two commits take effect by one token, after one more. -/
theorem once_concat (history : List Entry) (last : Entry)
    (once : ∀ before entry after rawToken, history = before ++ entry :: after →
      TakesEffect rawToken entry → ∀ later ∈ after, ¬TakesEffect rawToken later)
    (new : ∀ rawToken, TakesEffect rawToken last → ∀ entry ∈ history, ¬TakesEffect rawToken entry)
    (before : List Entry) (entry : Entry) (after : List Entry) (rawToken : String)
    (whole : history ++ [last] = before ++ entry :: after) (effect : TakesEffect rawToken entry) :
    ∀ later ∈ after, ¬TakesEffect rawToken later := by
  intro later member again
  cases concat_split history before after last entry whole with
  | inl final =>
      rw [final.1] at member
      cases member
  | inr old =>
      obtain ⟨rest, shape, earlier⟩ := old
      rw [shape] at member
      cases List.mem_append.mp member with
      | inl inside => exact once before entry rest rawToken earlier effect later inside again
      | inr final =>
          rw [List.mem_singleton.mp final] at again
          have there : entry ∈ history := earlier ▸ List.mem_append_right _ List.mem_cons_self
          exact new rawToken again entry there effect

theorem recorded_after (distinct : Set.InjOn credentials.hashToken values)
    (recorded : Recorded credentials values system history)
    (relies : Relies credentials values system history id txn) (shaped : Shaped txn)
    (fresh : NewTokens history txn.writes) :
    Recorded credentials values (systemAfter credentials system txn)
      (historyAfter history id txn) where
  rows := rows_after recorded relies shaped fresh
  known issue issued := by
    cases (issued_token_concat _ _ _).mp issued with
    | inl old => exact recorded.known issue old
    | inr new => exact relies.token issue new
  unique one other issued otherIssued named := by
    have apart : ∀ old new : Issue, IssuedToken history old → txn.writes.token = some new →
        old.rawToken ≠ new.rawToken := by
      intro old new ⟨entry, member, issues⟩ newIssues same
      apply fresh.1 new newIssues entry member
      rw [issues, ← same]
      rfl
    cases (issued_token_concat _ _ _).mp issued with
    | inl old =>
        cases (issued_token_concat _ _ _).mp otherIssued with
        | inl otherOld => exact recorded.unique one other old otherOld named
        | inr otherNew => exact absurd named (apart one other old otherNew)
    | inr new =>
        cases (issued_token_concat _ _ _).mp otherIssued with
        | inl otherOld => exact absurd named.symm (apart other one otherOld new)
        | inr otherNew => exact Option.some.inj (new.symm.trans otherNew)
  taken rawToken entry member takes := by
    cases List.mem_append.mp member with
    | inl old =>
        obtain ⟨issue, issued, named⟩ := recorded.taken rawToken entry old takes
        exact ⟨issue, issued_token_grows _ _ _ issued, named⟩
    | inr last =>
        rw [List.mem_singleton.mp last] at takes
        obtain ⟨consumption, consumed, named⟩ := Option.map_eq_some_iff.mp takes
        obtain ⟨issue, issued, _, same, _⟩ :=
          consumed_issue distinct recorded relies shaped consumption consumed
        exact ⟨issue, issued_token_grows _ _ _ issued, same.trans named⟩
  sole left leftMember right rightMember rawToken leftTakes rightTakes := by
    have untaken : Takes rawToken (.request id txn.route txn.writes) →
        ∀ entry ∈ history, ¬Takes rawToken entry := by
      intro takes
      obtain ⟨consumption, consumed, named⟩ := Option.map_eq_some_iff.mp takes
      obtain ⟨issue, _, _, same, free⟩ :=
        consumed_issue distinct recorded relies shaped consumption consumed
      rw [← named, ← same]
      exact free
    cases List.mem_append.mp leftMember with
    | inl leftOld =>
        cases List.mem_append.mp rightMember with
        | inl rightOld =>
            exact recorded.sole left leftOld right rightOld rawToken leftTakes rightTakes
        | inr last =>
            rw [List.mem_singleton.mp last] at rightTakes
            exact absurd leftTakes (untaken rightTakes left leftOld)
    | inr last =>
        rw [List.mem_singleton.mp last] at leftTakes ⊢
        cases List.mem_append.mp rightMember with
        | inl rightOld => exact absurd rightTakes (untaken leftTakes right rightOld)
        | inr rightLast => rw [List.mem_singleton.mp rightLast]
  backed := backed_concat history _ recorded.backed ⟨relies.password, relies.connection⟩
  once := once_concat history _ recorded.once (effect_new recorded relies)

/-! ## What a statement leaves to rely on -/

/-- Nothing here depends on the writes that are no token's. -/
theorem relies_with (relies : Relies credentials values system history id txn) (stage : Stage)
    (writes : Writes)
    (token : ∀ issue, writes.token = some issue → issue.rawToken ∈ values)
    (consumed : writes.consumed = txn.writes.consumed)
    (password : routeKind txn.route ≠ .login → ∀ change, writes.password = some change →
      Entitled history id txn.route change.userId)
    (connection : ∀ row, writes.connection = some row → Entitled history id txn.route row.userId)
    (todo : ∀ write ∈ todoOf stage, write ∈ todoOf txn.stage) :
    Relies credentials values system history id ⟨txn.route, stage, writes⟩ where
  presented := relies.presented
  token := token
  consumed consumption same := relies.consumed consumption (consumed ▸ same)
  password := password
  setting other unmatched userId password knownSince member :=
    relies.setting other unmatched userId password knownSince (todo _ member)
  connection := connection
  connecting userId exchangedToken accountHash member :=
    relies.connecting userId exchangedToken accountHash (todo _ member)
  ineffective := relies.ineffective

/-- A stage after which no token's write is still to come, or only those of a
login. -/
theorem relies_plain (relies : Relies credentials values system history id txn) (stage : Stage)
    (setting : routeKind txn.route ≠ .login → ∀ unmatched userId password knownSince,
      Write.setPassword unmatched userId password knownSince ∉ todoOf stage)
    (connecting : ∀ userId exchangedToken accountHash,
      Write.upsertConnection userId exchangedToken accountHash ∉ todoOf stage) :
    Relies credentials values system history id ⟨txn.route, stage, txn.writes⟩ where
  presented := relies.presented
  token := relies.token
  consumed := relies.consumed
  password := relies.password
  setting other unmatched userId password knownSince member :=
    absurd member (setting other unmatched userId password knownSince)
  connection := relies.connection
  connecting userId exchangedToken accountHash member :=
    absurd member (connecting userId exchangedToken accountHash)
  ineffective := relies.ineffective

theorem handled_plain (user : AuthenticatedUser) (newId : Uuid) (route : Route) (stage : Stage)
    (handles : handle user newId route = .ok stage) :
    (∀ unmatched userId password knownSince,
      Write.setPassword unmatched userId password knownSince ∉ todoOf stage) ∧
      ∀ userId exchangedToken accountHash,
        Write.upsertConnection userId exchangedToken accountHash ∉ todoOf stage := by
  unfold handle at handles
  split at handles
  · split at handles <;> cases handles
    simp [todoOf]
  · split at handles <;> cases handles
    simp [todoOf]
  · split at handles <;> cases handles
    simp [todoOf]
  · cases handles
    simp [todoOf]
  · cases handles
    simp [todoOf]
  · cases handles
    simp [todoOf]

theorem relies_wrote (relies : Relies credentials values system history id txn) (draw : Draw)
    (drawn : draw.rawToken ∈ values) (view : System) (write : Write) (rest : List Write)
    (writes : Writes) (writing : txn.stage = .writing (write :: rest))
    (performed : Performed credentials draw view txn.writes write writes) :
    Relies credentials values system history id ⟨txn.route, .writing rest, writes⟩ := by
  have first : write ∈ todoOf txn.stage := by
    rw [writing]
    exact List.mem_cons_self
  have todo : ∀ later ∈ todoOf (.writing rest), later ∈ todoOf txn.stage := by
    intro later member
    rw [writing]
    exact List.mem_cons_of_mem _ member
  have still := fun writes => relies_with relies (.writing rest) writes
  cases performed with
  | token userId purpose ttl refers fresh =>
      refine still _ ?_ rfl relies.password relies.connection todo
      intro issue same
      cases same
      exact drawn
  | password unmatched userId password knownSince matched =>
      refine still _ relies.token rfl ?_ relies.connection todo
      intro other change same
      cases same
      exact relies.setting other _ _ _ _ first
  | connection userId exchangedToken accountHash row owned =>
      refine still _ relies.token rfl relies.password ?_ todo
      intro stored same
      rw [owned stored same]
      exact relies.connecting _ _ _ first
  | user user fresh => exact still _ relies.token rfl relies.password relies.connection todo
  | key userId row => exact still _ relies.token rfl relies.password relies.connection todo
  | auditEntry readerId subjectId =>
      exact still _ relies.token rfl relies.password relies.connection todo
  | session userId refers fresh =>
      exact still _ relies.token rfl relies.password relies.connection todo
  | dropped rawToken => exact still _ relies.token rfl relies.password relies.connection todo

theorem relies_goes (relies : Relies credentials values system history id txn) (shaped : Shaped txn)
    (draw : Draw) (drawn : draw.rawToken ∈ values) (stage : Stage) (writes : Writes)
    (goes : Goes credentials txn draw history.length (txn.writes.apply credentials system) stage
      writes) :
    Relies credentials values system history id ⟨txn.route, stage, writes⟩ := by
  have fits := shaped.stage
  have plain := relies_plain relies
  cases goes with
  | lookup username password userId storedHash route arrived verified =>
      apply plain
      · intro other
        rw [route] at other
        exact absurd rfl other
      · intro owner exchangedToken accountHash member
        have belongs : routeKind txn.route = .callback :=
          login_writes_belong credentials txn.route (by rw [route]; rfl) _ _ _ _ _ member
        rw [route] at belongs
        cases belongs
  | handled reading caller stage read found handles =>
      obtain ⟨setting, connecting⟩ := handled_plain _ _ _ _ handles
      exact plain _ (fun _ => setting) connecting
  | matched rawToken purpose row consuming matched =>
      rw [consuming] at fits
      obtain ⟨stored, hash, _, unexpired⟩ := matching_token_ok credentials _ _ _ _ _ matched
      rw [fits.1, nothing_apply] at stored
      refine { plain (.consumed purpose (some row)) (by simp [todoOf]) (by simp [todoOf]) with
        token := relies.token, consumed := ?_
        password := relies.password, connection := relies.connection }
      intro consumption same
      cases same
      exact ⟨stored, hash, unexpired⟩
  | wrote write rest writes writing performed =>
      exact relies_wrote relies draw drawn _ write rest writes writing performed
  | deleted deletion after deleting ran =>
      exact relies_with relies _ _ relies.token rfl relies.password relies.connection (by simp [todoOf])
  | lock username route arrived => exact plain _ (by simp [todoOf]) (by simp [todoOf])
  | session rawToken userId route arrived read => exact plain _ (by simp [todoOf]) (by simp [todoOf])
  | bootstrap username route locked noAdmin => exact plain _ (by simp [todoOf]) (by simp [todoOf])
  | unmatched rawToken purpose consuming => exact plain _ (by simp [todoOf]) (by simp [todoOf])
  | removed deletion later table rest deleting ran =>
      exact plain _ (by simp [todoOf]) (by simp [todoOf])

/-! ## What a commit leaves to rely on -/

/-- A request that has written nothing yet. -/
theorem relies_nothing (route : Route) (stage : Stage)
    (presented : ∀ rawToken purpose, Presents route rawToken purpose → rawToken ∈ values)
    (setting : ∀ unmatched userId password knownSince,
      Write.setPassword unmatched userId password knownSince ∈ todoOf stage →
        Entitled history id route userId)
    (connecting : ∀ userId exchangedToken accountHash,
      Write.upsertConnection userId exchangedToken accountHash ∈ todoOf stage →
        Entitled history id route userId)
    (ineffective : ∀ entry ∈ history, requestOf entry = some id →
      ∀ rawToken, ¬TakesEffect rawToken entry) :
    Relies credentials values system history id ⟨route, stage, .nothing⟩ where
  presented := presented
  token issue issued := by cases issued
  consumed consumption consumed := by cases consumed
  password _ change password := by cases password
  setting _ := setting
  connection row connection := by cases connection
  connecting := connecting
  ineffective := ineffective

/-- The request that took a token is entitled to what its route asks it for. -/
theorem entitled_after (distinct : Set.InjOn credentials.hashToken values)
    (recorded : Recorded credentials values system history)
    (relies : Relies credentials values system history id txn) (shaped : Shaped txn)
    (row : SetupToken) (consumed : txn.writes.consumed.map Consumption.row = some row) :
    Entitled (historyAfter history id txn) id txn.route row.userId := by
  obtain ⟨consumption, took, rfl⟩ := Option.map_eq_some_iff.mp consumed
  obtain ⟨issue, issued, same, named, untaken⟩ :=
    consumed_issue distinct recorded relies shaped consumption took
  have unexpired := (relies.consumed consumption took).2.2
  have presents := shaped.writes.consumed consumption took
  rw [← same] at unexpired presents
  rw [← named] at presents
  refine ⟨issue, ?_, congrArg SetupToken.userId same, presents⟩
  exact ⟨history, _, [], consumption, rfl, rfl, took, named.symm, unexpired, issued, untaken⟩

theorem relies_continues (distinct : Set.InjOn credentials.hashToken values)
    (recorded : Recorded credentials values system history)
    (relies : Relies credentials values system history id txn) (shaped : Shaped txn)
    (position : Nat) (purpose : TokenPurpose) (row : Option SetupToken) (stage : Stage)
    (past : txn.stage = .consumed purpose row)
    (after : afterConsumed position purpose row txn.route = .ok stage) :
    Relies credentials values (systemAfter credentials system txn) (historyAfter history id txn) id
      ⟨txn.route, stage, .nothing⟩ := by
  have fits := shaped.stage
  rw [past] at fits
  obtain ⟨found, _, only⟩ := fits
  have entitled : ∀ taken, row = some taken →
      Entitled (historyAfter history id txn) id txn.route taken.userId :=
    fun taken same => entitled_after distinct recorded relies shaped taken (found.symm.trans same)
  have ineffective : ∀ entry ∈ historyAfter history id txn, requestOf entry = some id →
      ∀ rawToken, ¬TakesEffect rawToken entry := by
    intro entry member mine rawToken effect
    cases List.mem_append.mp member with
    | inl old => exact relies.ineffective entry old mine rawToken effect
    | inr last =>
        rw [List.mem_singleton.mp last] at effect
        obtain ⟨_, wrote⟩ := effect
        rw [only] at wrote
        simp [Writes.nothing] at wrote
  apply relies_nothing _ _ relies.presented _ _ ineffective
  · unfold afterConsumed at after
    split at after
    · split at after
      · rename_i taken
        cases after
        intro unmatched userId password knownSince member
        cases List.mem_singleton.mp member
        exact entitled taken rfl
      · split at after <;> cases after
        simp [todoOf]
    · split at after
      · cases after
      · split at after <;> cases after
        simp [todoOf]
    · cases after
  · unfold afterConsumed at after
    split at after
    · split at after
      · cases after
        simp [todoOf]
      · split at after <;> cases after
        simp [todoOf]
    · split at after
      · cases after
      · rename_i taken
        split at after <;> cases after
        intro userId exchangedToken accountHash member
        cases List.mem_singleton.mp member
        exact entitled taken rfl
    · cases after

/-- What is on record grows by an entry of somebody else. -/
theorem relies_concat (relies : Relies credentials values system history id txn) (later : System)
    (entry : Entry) (foreign : requestOf entry ≠ some id)
    (stays : ∀ consumption, txn.writes.consumed = some consumption →
      consumption.row ∈ later.setupTokens.rows) :
    Relies credentials values later (history ++ [entry]) id txn where
  presented := relies.presented
  token := relies.token
  consumed consumption consumed :=
    ⟨stays consumption consumed, (relies.consumed consumption consumed).2⟩
  password login change password := entitled_grows _ _ _ _ _ (relies.password login change password)
  setting login unmatched userId password knownSince member :=
    entitled_grows _ _ _ _ _ (relies.setting login unmatched userId password knownSince member)
  connection row connection := entitled_grows _ _ _ _ _ (relies.connection row connection)
  connecting userId exchangedToken accountHash member :=
    entitled_grows _ _ _ _ _ (relies.connecting userId exchangedToken accountHash member)
  ineffective found member mine := by
    cases List.mem_append.mp member with
    | inl old => exact relies.ineffective found old mine
    | inr last =>
        rw [List.mem_singleton.mp last] at mine
        exact absurd mine foreign

/-- A token row that is held is there after the commit of another. -/
theorem relies_others (relies : Relies credentials values system history id txn) (otherId : Nat)
    (other : Txn) (differ : id ≠ otherId)
    (apart : clash (txn.holds credentials) (other.holds credentials) = false) :
    Relies credentials values (systemAfter credentials system other)
      (historyAfter history otherId other) id txn := by
  apply relies_concat relies
  · intro mine
    exact differ (Option.some.inj mine).symm
  · intro consumption consumed
    have stored := (relies.consumed consumption consumed).1
    have held := consumed_held credentials txn consumption consumed
    refine (mem_apply_tokens credentials _ _ _).mpr ⟨Or.inl stored, ?_, ?_⟩
    · intro same
      obtain ⟨theirs, taken, sameRow⟩ := Option.map_eq_some_iff.mp same
      have theirHeld := consumed_held credentials other theirs taken
      rw [sameRow] at theirHeld
      exact no_clash _ _ apart _ _ _ held theirHeld rfl
    · intro deletion deletes removed
      have theirHeld := (deletion_held credentials other deletion deletes).2 _ removed
      exact no_clash _ _ apart _ _ _ held theirHeld rfl

/-! ## The invariant of every run -/

theorem recorded_elsewhere (ledger : Database) (positions : KeyedTable Position.id)
    (recorded : Recorded credentials values system history) :
    Recorded credentials values { system with ledger := ledger, positions := positions }
      (history ++ [.elsewhere ledger positions]) := by
  have issued : ∀ issue, IssuedToken (history ++ [.elsewhere ledger positions]) issue →
      IssuedToken history issue := by
    intro issue issued
    cases (issued_token_concat _ _ _).mp issued with
    | inl old => exact old
    | inr new => cases new
  have took : ∀ rawToken, ∀ entry ∈ history ++ [Entry.elsewhere ledger positions],
      Takes rawToken entry → entry ∈ history := by
    intro rawToken entry member takes
    cases List.mem_append.mp member with
    | inl old => exact old
    | inr last =>
        rw [List.mem_singleton.mp last] at takes
        cases takes
  refine ⟨?_, fun issue known => recorded.known issue (issued issue known), ?_, ?_, ?_, ?_, ?_⟩
  · intro row stored
    obtain ⟨issue, known, same, untaken⟩ := recorded.rows row stored
    refine ⟨issue, issued_token_grows _ _ _ known, same, fun entry member takes => ?_⟩
    exact untaken entry (took _ entry member takes) takes
  · intro one other first second
    exact recorded.unique one other (issued one first) (issued other second)
  · intro rawToken entry member takes
    obtain ⟨issue, known, named⟩ := recorded.taken rawToken entry (took _ entry member takes) takes
    exact ⟨issue, issued_token_grows _ _ _ known, named⟩
  · intro left leftMember right rightMember rawToken leftTakes rightTakes
    exact recorded.sole left (took _ left leftMember leftTakes) right
      (took _ right rightMember rightTakes) rawToken leftTakes rightTakes
  · exact backed_concat history _ recorded.backed trivial
  · apply once_concat history _ recorded.once
    intro rawToken effect
    exact effect.elim

theorem relies_elsewhere (ledger : Database) (positions : KeyedTable Position.id)
    (relies : Relies credentials values system history id txn) :
    Relies credentials values { system with ledger := ledger, positions := positions }
      (history ++ [.elsewhere ledger positions]) id txn := by
  apply relies_concat relies
  · intro mine
    cases mine
  · intro consumption consumed
    exact (relies.consumed consumption consumed).1

variable (credentials values)

theorem redemption_kept (distinct : Set.InjOn credentials.hashToken values) :
    Kept credentials (unrepeatedTokens values) (Recorded credentials values)
      (Relies credentials values) where
  arrives := by
    intro system history id route _ presented unused
    apply relies_nothing route _ presented
    · cases route <;> simp [Route.firstStage, todoOf]
    · cases route <;> simp [Route.firstStage, todoOf]
    · intro entry member mine
      exact absurd mine (unused entry member)
  goesOn := by
    intro system history id txn draw stage writes _ relies shaped drawn goes
    exact relies_goes relies shaped draw drawn stage writes goes
  commits := by
    intro system history id txn recorded relies shaped _ fresh
    exact recorded_after distinct recorded relies shaped fresh
  continues := by
    intro system history id txn purpose row stage recorded relies shaped past after _
    exact relies_continues distinct recorded relies shaped _ purpose row stage past after
  others := by
    intro system history id txn otherId other _ relies _ _ _ _ differ apart
    exact relies_others relies otherId other differ apart
  elsewhereStore := by
    intro system history ledger positions recorded
    exact recorded_elsewhere ledger positions recorded
  elsewhereEach := by
    intro system history id txn ledger positions _ relies
    exact relies_elsewhere ledger positions relies

end Invariant

end Morai.Identity.RedeemedTokens
