import Morai.Identity.DataKeys
import Morai.Identity.RequestInvariants

/-!
# At most one admin

`create_admin` looks for an admin only once it holds the advisory lock, and
keeps the lock until its own admin is committed. No constraint says that there
is at most one.
-/

namespace Morai.Identity.SoleAdmin

open Morai.Crypto Morai.Db Morai.Python Morai.Foundation.PrimaryKey Morai.Foundation.RowLocks
open Morai.Foundation.Runs Morai.Identity.Tables Morai.Identity.Requests Morai.Identity.DataKeys
open Morai.Identity.ConcurrentRequests Morai.Identity.RequestSteps Morai.Identity.RequestInvariants

set_option autoImplicit false

def adminCount (system : System) : Nat := system.users.rows.countP User.isAdmin

/-- The commit belongs to no invocation that refused. -/
def NotRefused (state : State) (entry : Entry) : Prop :=
  ∀ id, requestOf entry = some id → (id, Answer.refused) ∉ state.answers

/-- At most one admin; and every user and every token there is was there from
the start or was written by a request that did not refuse. -/
structure Bootstrapped (credentials : Credentials) (initial : System) (state : State) : Prop where
  sole : adminCount state.system ≤ 1
  users : ∀ user ∈ state.system.users.rows, initial.users.Has user.id ∨
    ∃ entry ∈ state.history, entry.writes.user.map User.id = some user.id ∧ NotRefused state entry
  tokens : ∀ row ∈ state.system.setupTokens.rows, row ∈ initial.setupTokens.rows ∨
    ∃ entry ∈ state.history, entry.writes.token.map (Issue.row credentials) = some row ∧
      NotRefused state entry

/-! ## How many admins a commit adds -/

section Counting

variable (credentials : Credentials)

theorem put_hash_admins (users : KeyedTable User.id) (user : User) (stored : user ∈ users.rows)
    (passwordHash : Option String) :
    (users.put { user with passwordHash := passwordHash }).rows.countP User.isAdmin =
      users.rows.countP User.isAdmin := by
  have present : users.Has user.id := List.mem_map.mpr ⟨user, stored, rfl⟩
  simp only [KeyedTable.put, present, dif_pos, List.countP_map]
  apply List.countP_congr
  intro old member
  simp only [Function.comp_apply]
  split_ifs with same
  · have oldIsUser : old = user := List.inj_on_of_nodup_map users.unique member stored same
    rw [oldIsUser]
  · rfl

theorem set_hash_admins (change : Option PasswordChange) (users : KeyedTable User.id) :
    (setHash change users).rows.countP User.isAdmin = users.rows.countP User.isAdmin := by
  cases change with
  | none => rfl
  | some change =>
      simp only [setHash]
      split
      · rfl
      · rename_i user found
        exact put_hash_admins users user ((get_eq_some_iff _ _ _).mp found).1 _

theorem add_row_admins (user : Option User) (users : KeyedTable User.id) :
    (addRow user users).rows.countP User.isAdmin ≤
      users.rows.countP User.isAdmin + user.toList.countP User.isAdmin := by
  cases user with
  | none => simp [addRow]
  | some new =>
      simp only [addRow, insertOne]
      split_ifs with taken
      · exact Nat.le_add_right _ _
      · rw [KeyedTable.push, List.countP_append]
        rfl

theorem apply_admins (writes : Writes) (system : System) :
    adminCount (writes.apply credentials system) ≤
      adminCount system + writes.user.toList.countP User.isAdmin := by
  have added := add_row_admins writes.user system.users
  have kept := set_hash_admins writes.password (addRow writes.user system.users)
  unfold adminCount
  rw [apply_users]
  cases writes.deletion with
  | none => exact kept.le.trans added
  | some deletion =>
      have fewer := (List.filter_sublist (p := fun user : User => decide (user.id ≠ deletion.userId))
        (l := (setHash writes.password (addRow writes.user system.users)).rows)).countP_le
          (p := User.isAdmin)
      exact fewer.trans (kept.le.trans added)

theorem no_admin_of_find (system : System)
    (none : system.users.rows.find? User.isAdmin = Option.none) : adminCount system = 0 := by
  apply List.countP_eq_zero.mpr
  intro user member
  exact List.find?_eq_none.mp none user member

end Counting

/-! ## The invariant -/

/-- The transaction has added the user, or will. -/
def Adds (txn : Txn) (user : User) : Prop :=
  txn.writes.user = some user ∨ ∃ todo, txn.stage = .writing todo ∧ Write.insertUser user ∈ todo

/-- Whoever adds an admin knows of none; and an invocation has committed
nothing while it is open. -/
structure Guarded (system : System) (history : List Entry) (id : Nat) (txn : Txn) : Prop where
  alone : ∀ user, Adds txn user → user.isAdmin = true → adminCount system = 0
  uncommitted : routeKind txn.route = .createAdmin →
    ∀ entry ∈ history, requestOf entry ≠ some id

structure Stored (credentials : Credentials) (initial system : System) (history : List Entry) :
    Prop where
  sole : adminCount system ≤ 1
  users : ∀ user ∈ system.users.rows, initial.users.Has user.id ∨
    ∃ entry ∈ history, entry.writes.user.map User.id = some user.id
  tokens : ∀ row ∈ system.setupTokens.rows, row ∈ initial.setupTokens.rows ∨
    ∃ entry ∈ history, entry.writes.token.map (Issue.row credentials) = some row

def anything : Conditions := ⟨fun _ => True, fun _ => True, fun _ _ => True⟩

section Invariant

variable (keys : KeyService) (credentials : Credentials) (initial : System)

theorem adds_locked (txn : Txn) (shaped : Shaped txn) (user : User) (adds : Adds txn user)
    (admin : user.isAdmin = true) : txn.locked = true ∧ routeKind txn.route = .createAdmin := by
  have created : routeKind txn.route = creating user := by
    cases adds with
    | inl added => exact shaped.writes.user user added
    | inr planned =>
        obtain ⟨todo, writing, member⟩ := planned
        have fits := shaped.stage
        rw [writing] at fits
        exact fits.2 _ member
  have kind : routeKind txn.route = .createAdmin := by rw [created, creating, if_pos admin]
  have begun : txn.stage ≠ .arrived := by
    intro arrived
    have fits := shaped.stage
    rw [arrived] at fits
    cases adds with
    | inl added =>
        rw [fits] at added
        cases added
    | inr planned =>
        obtain ⟨todo, writing, _⟩ := planned
        rw [arrived] at writing
        cases writing
  refine ⟨?_, kind⟩
  unfold Txn.locked
  cases route : txn.route with
  | createAdmin username =>
      cases stage : txn.stage with
      | arrived => exact absurd stage begun
      | _ => rfl
  | _ =>
      rw [route] at kind
      cases kind

theorem advisory_held (txn : Txn) (locked : txn.locked = true) :
    ⟨.advisory, .update⟩ ∈ txn.holds credentials := by
  simp [Txn.holds, locked]

/-- A statement that plans no user leaves things as they are. -/
theorem adds_before (txn : Txn) (route : Route) (stage : Stage) (writes : Writes) (user : User)
    (adds : Adds ⟨route, stage, writes⟩ user) (same : writes.user = txn.writes.user)
    (unplanned : ∀ todo, stage = .writing todo → Write.insertUser user ∉ todo) :
    Adds txn user := by
  cases adds with
  | inl added => exact Or.inl (same ▸ added)
  | inr planned =>
      obtain ⟨todo, writing, member⟩ := planned
      exact absurd member (unplanned todo writing)

/-- A statement plans an admin only at the check, where there is none. -/
theorem goes_alone (txn : Txn) (draw : Draw) (position : Nat) (system : System) (stage : Stage)
    (writes : Writes) (shaped : Shaped txn)
    (alone : ∀ user, Adds txn user → user.isAdmin = true → adminCount system = 0)
    (goes : Goes credentials txn draw position (txn.writes.apply credentials system) stage writes)
    (user : User) (adds : Adds ⟨txn.route, stage, writes⟩ user) (admin : user.isAdmin = true) :
    adminCount system = 0 := by
  have created := (adds_locked _ (shaped_goes credentials txn draw position _ stage writes shaped
    goes) user adds admin).2
  have fits := shaped.stage
  cases goes with
  | lock username route arrived =>
      exact alone user (adds_before txn _ _ _ user adds rfl (by simp)) admin
  | lookup username password userId storedHash route arrived verified =>
      simp only [route] at created
      cases created
  | session rawToken userId route arrived read =>
      exact alone user (adds_before txn _ _ _ user adds rfl (by simp)) admin
  | bootstrap username route locked noAdmin =>
      rw [locked] at fits
      rw [fits.1, nothing_apply] at noAdmin
      exact no_admin_of_find system noAdmin
  | handled reading caller stage read found handles =>
      rw [read] at fits
      obtain ⟨_, rawToken, session⟩ := fits
      cases route : txn.route with
      | createAdmin username =>
          rw [route] at session
          cases session
      | _ =>
          simp only [route] at created
          cases created
  | unmatched rawToken purpose consuming =>
      exact alone user (adds_before txn _ _ _ user adds rfl (by simp)) admin
  | matched rawToken purpose row consuming matched =>
      exact alone user (adds_before txn _ _ _ user adds rfl (by simp)) admin
  | wrote write rest writes writing performed =>
      have later : ∀ planned ∈ rest, Write.insertUser user = planned → adminCount system = 0 := by
        intro planned member same
        have whole : Write.insertUser user ∈ write :: rest := same ▸ List.mem_cons_of_mem _ member
        exact alone user (Or.inr ⟨write :: rest, writing, whole⟩) admin
      cases adds with
      | inl added =>
          cases performed with
          | user inserted fresh =>
              cases added
              exact alone user (Or.inr ⟨_, writing, List.mem_cons_self⟩) admin
          | _ => exact alone user (Or.inl added) admin
      | inr planned =>
          obtain ⟨todo, same, member⟩ := planned
          cases same
          exact later _ member rfl
  | removed deletion later table rest deleting ran =>
      exact alone user (adds_before txn _ _ _ user adds rfl (by simp)) admin
  | deleted deletion after deleting ran =>
      exact alone user (adds_before txn _ _ _ user adds rfl (by simp)) admin

theorem stored_after (system : System) (history : List Entry) (id : Nat) (txn : Txn)
    (stored : Stored credentials initial system history) (guarded : Guarded system history id txn) :
    Stored credentials initial (systemAfter credentials system txn) (historyAfter history id txn) := by
  refine ⟨?_, ?_, ?_⟩
  · have counted := apply_admins credentials txn.writes system
    have few : adminCount system + txn.writes.user.toList.countP User.isAdmin ≤ 1 := by
      cases added : txn.writes.user with
      | none => simpa using stored.sole
      | some user =>
          by_cases admin : user.isAdmin = true
          · rw [guarded.alone user (Or.inl added) admin]
            simp [admin]
          · simpa [admin] using stored.sole
    exact counted.trans few
  · intro user member
    have has := (apply_users_has credentials txn.writes system user.id).mp
      (List.mem_map.mpr ⟨user, member, rfl⟩)
    cases has.1 with
    | inl old =>
        obtain ⟨before, beforeMember, same⟩ := List.mem_map.mp old
        rcases stored.users before beforeMember with initially | ⟨entry, recorded, wrote⟩
        · exact Or.inl (same ▸ initially)
        · exact Or.inr ⟨entry, List.mem_append_left _ recorded, same ▸ wrote⟩
    | inr new => exact Or.inr ⟨_, List.mem_append_right _ List.mem_cons_self, new⟩
  · intro row member
    cases ((mem_apply_tokens credentials txn.writes system row).mp member).1 with
    | inl old =>
        rcases stored.tokens row old with initially | ⟨entry, recorded, wrote⟩
        · exact Or.inl initially
        · exact Or.inr ⟨entry, List.mem_append_left _ recorded, wrote⟩
    | inr new => exact Or.inr ⟨_, List.mem_append_right _ List.mem_cons_self, new.1⟩

/-- Another commit adds no admin: it would have held the lock. -/
theorem others_alone (system : System) (history : List Entry) (id : Nat) (txn other : Txn)
    (guarded : Guarded system history id txn) (shaped : Shaped txn) (otherShaped : Shaped other)
    (apart : clash (txn.holds credentials) (other.holds credentials) = false) (user : User)
    (adds : Adds txn user) (admin : user.isAdmin = true) :
    adminCount (systemAfter credentials system other) = 0 := by
  have none := guarded.alone user adds admin
  have counted := apply_admins credentials other.writes system
  have nothing : other.writes.user.toList.countP User.isAdmin = 0 := by
    cases added : other.writes.user with
    | none => rfl
    | some theirs =>
        by_cases theirAdmin : theirs.isAdmin = true
        · have mine := advisory_held credentials txn (adds_locked txn shaped user adds admin).1
          have held := advisory_held credentials other
            (adds_locked other otherShaped theirs (Or.inl added) theirAdmin).1
          exact (no_clash _ _ apart .advisory .update .update mine held rfl).elim
        · simp [theirAdmin]
  rw [none, nothing] at counted
  exact Nat.le_zero.mp counted

theorem guarded_kept : Kept credentials anything (Stored credentials initial) Guarded where
  arrives := by
    intro system history id route _ _ fresh
    refine ⟨?_, fun _ => fresh⟩
    intro user adds admin
    have locked := (adds_locked _ (shaped_arrives route) user adds admin).1
    cases route <;> cases locked
  goesOn := by
    intro system history id txn draw stage writes _ guarded shaped _ goes
    refine ⟨?_, guarded.uncommitted⟩
    exact goes_alone credentials txn draw _ system stage writes shaped guarded.alone goes
  commits := by
    intro system history id txn stored guarded _ _ _
    exact stored_after credentials initial system history id txn stored guarded
  continues := by
    intro system history id txn purpose row stage _ _ shaped consumed after _
    have fits := shaped.stage
    rw [consumed] at fits
    obtain ⟨_, ⟨rawToken, presents⟩, _⟩ := fits
    have notAdmin : routeKind txn.route ≠ .createAdmin := by
      intro kind
      cases route : txn.route with
      | createAdmin username =>
          rw [route] at presents
          exact presents
      | _ =>
          rw [route] at kind
          cases kind
    refine ⟨?_, fun kind => absurd kind notAdmin⟩
    intro user adds admin
    have created := (adds_locked _ (shaped_continues txn _ purpose row stage after) user adds
      admin).2
    exact absurd created notAdmin
  others := by
    intro system history id txn otherId other _ guarded _ shaped otherShaped _ differ apart
    refine ⟨?_, ?_⟩
    · exact others_alone credentials system history id txn other guarded shaped otherShaped
        apart
    · intro kind
      apply foreign_concat history _ id (guarded.uncommitted kind)
      intro same
      exact differ (Option.some.inj same).symm
  elsewhereStore := by
    intro system history ledger positions stored
    refine ⟨stored.sole, ?_, ?_⟩
    · intro user member
      rcases stored.users user member with initially | ⟨entry, recorded, wrote⟩
      · exact Or.inl initially
      · exact Or.inr ⟨entry, List.mem_append_left _ recorded, wrote⟩
    · intro row member
      rcases stored.tokens row member with initially | ⟨entry, recorded, wrote⟩
      · exact Or.inl initially
      · exact Or.inr ⟨entry, List.mem_append_left _ recorded, wrote⟩
  elsewhereEach := by
    intro system history id txn ledger positions _ guarded
    refine ⟨guarded.alone, ?_⟩
    intro kind
    apply foreign_concat history _ id (guarded.uncommitted kind)
    intro same
    cases same

/-! ## Refusals -/

/-- Whoever refused is gone and has committed nothing. -/
def RefusalsGone (state : State) : Prop :=
  ∀ id, (id, Answer.refused) ∈ state.answers → state.opened.txns id = none ∧
    id < state.opened.count ∧ ∀ entry ∈ state.history, requestOf entry ≠ some id

theorem refused_at_the_check (txn : Txn) (draw : Draw) (position : Nat) (view : System)
    (ran : next keys credentials txn draw position view = some (.ends .refused)) :
    routeKind txn.route = .createAdmin := by
  unfold next at ran
  split at ran
  · split at ran
    · cases ran
    · split at ran <;> cases ran
    · split at ran <;> cases ran
  · split at ran
    · rename_i route
      rw [route]
      rfl
    · cases ran
  · split at ran
    · cases ran
    · split at ran <;> cases ran
  · split at ran <;> cases ran
  · cases ran
  · cases ran
  · split at ran <;> cases ran
  · split at ran
    · split at ran <;> cases ran
    · split at ran <;> cases ran

/-- Closing a transaction that has committed nothing under its own number. -/
theorem refusals_closed (state : State) (id : Nat) (answer : Answer) (checks : List Check)
    (gone : RefusalsGone state) (opened : (state.opened.txns id).isSome)
    (uncommitted : answer = .refused → ∀ entry ∈ state.history, requestOf entry ≠ some id) :
    RefusalsGone (finish { state with checks := checks } id answer) := by
  intro other refused
  cases List.mem_append.mp refused with
  | inl old =>
      have before := gone other old
      refine ⟨?_, before.2⟩
      simp only [finish, Opened.close]
      by_cases same : other = id
      · rw [same, Function.update_self]
      · rw [Function.update_of_ne same]
        exact before.1
  | inr new =>
      obtain ⟨rfl, rfl⟩ := Prod.mk.inj (List.mem_singleton.mp new)
      obtain ⟨txn, found⟩ := Option.isSome_iff_exists.mp opened
      refine ⟨?_, state.opened.count_of_open other txn found, uncommitted rfl⟩
      simp only [finish, Opened.close, Function.update_self]

/-- A commit is of a transaction that is open, so of none that refused. -/
theorem refusals_committed (state : State) (id : Nat) (txn : Txn)
    (gone : RefusalsGone state) (found : state.opened.txns id = some txn) :
    RefusalsGone (committed credentials state id txn) := by
  intro other refused
  have before := gone other refused
  refine ⟨before.1, before.2.1, foreign_concat state.history _ other before.2.2 ?_⟩
  intro same
  cases same
  rw [before.1] at found
  cases found

/-- Nobody who refused comes back. -/
theorem refusals_reopened (state : State) (opened : Opened Txn) (checks : List Check)
    (gone : RefusalsGone state) (grows : state.opened.count ≤ opened.count)
    (others : ∀ id, state.opened.txns id = none → id < state.opened.count →
      opened.txns id = none) :
    RefusalsGone { state with opened := opened, checks := checks } := by
  intro id refused
  have before := gone id refused
  exact ⟨others id before.1 before.2.1, lt_of_lt_of_le before.2.1 grows, before.2.2⟩

theorem replaced_others (opened : Opened Txn) (id other : Nat) (txn : Txn)
    (present : (opened.txns id).isSome) (gone : opened.txns other = none) :
    (opened.replace id txn present).txns other = none := by
  have differ : other ≠ id := by
    intro same
    rw [← same, gone] at present
    cases present
  simp only [Opened.replace, ne_eq, differ, not_false_eq_true, Function.update_of_ne, gone]

theorem step_refusals (state : State) (action : Action) (later : State)
    (holds : Holds credentials (Stored credentials initial) Guarded state)
    (gone : RefusalsGone state) (stepped : step keys credentials state action = some later) :
    RefusalsGone later := by
  cases step_cases keys credentials state later action stepped with
  | arrive route =>
      apply refusals_reopened state _ state.checks gone (Nat.le_succ _)
      intro id none earlier
      simp only [Opened.enter, ne_eq, earlier.ne, not_false_eq_true, Function.update_of_ne, none]
  | goesOn id draw txn stage writes found goes present free =>
      apply refusals_reopened state (state.opened.replace id _ present) _ gone (Nat.le_refl _)
      exact fun other none _ => replaced_others _ id other _ present none
  | ends id draw txn answer found ran =>
      apply refusals_closed state id answer _ gone (by rw [found]; rfl)
      intro refused
      rw [refused] at ran
      exact (holds.each id txn found).uncommitted
        (refused_at_the_check keys credentials txn draw _ _ ran)
  | commits id txn answer kept found past =>
      have opened : (state.opened.txns id).isSome := by rw [found]; rfl
      exact refusals_closed _ id answer state.checks
        (refusals_committed credentials state id txn gone found) opened (fun same => absurd same kept)
  | continues id txn purpose row stage found consumed after present free =>
      apply refusals_reopened (committed credentials state id txn)
        (state.opened.replace id _ present) state.checks
        (refusals_committed credentials state id txn gone found) (Nat.le_refl _)
      exact fun other none _ => replaced_others _ id other _ present none
  | rollback id =>
      apply refusals_reopened state (state.opened.close id) state.checks gone (Nat.le_refl _)
      intro other none _
      simp only [Opened.close]
      by_cases same : other = id
      · rw [same, Function.update_self]
      · rw [Function.update_of_ne same, none]
  | elsewhere ledger positions =>
      intro id refused
      have before := gone id refused
      refine ⟨before.1, before.2.1, foreign_concat state.history _ id before.2.2 ?_⟩
      intro same
      cases same

theorem anything_allowed (state : State) (action : Action) : anything.Allowed state action := by
  cases action <;> simp [anything, Conditions.Allowed]

end Invariant

section Runs

variable (keys : KeyService) (credentials : Credentials)

/-- Whatever requests are served at once and however their statements
interleave, no committed state has a second admin, and an invocation that
refused has left nothing. -/
theorem at_most_one_admin (initial : System) (first : adminCount initial ≤ 1)
    (actions : List Action) (final : State)
    (ran : runFrom (step keys credentials) actions (start initial) = some final) :
    Bootstrapped credentials initial final := by
  have stored : Stored credentials initial initial [] :=
    ⟨first, fun user member => Or.inl (List.mem_map.mpr ⟨user, member, rfl⟩),
      fun _ member => Or.inl member⟩
  have started : Holds credentials (Stored credentials initial) Guarded (start initial) ∧
      RefusalsGone (start initial) :=
    ⟨holds_start initial stored, fun id refused => absurd refused List.not_mem_nil⟩
  obtain ⟨holds, gone⟩ := run_keeps (step keys credentials) (fun _ _ => True)
    (fun state => Holds credentials (Stored credentials initial) Guarded state ∧ RefusalsGone state)
    (fun state action next held _ stepped =>
      ⟨step_keeps keys (guarded_kept credentials initial) state action next held.1
          (anything_allowed state action) stepped,
        step_refusals keys credentials initial state action next held.1 held.2 stepped⟩)
    actions (start initial) final started (meets_trivial _ _ _) ran
  have notRefused : ∀ entry ∈ final.history, NotRefused final entry := by
    intro entry member id same refused
    exact (gone id refused).2.2 entry member same
  refine ⟨holds.store.sole, ?_, ?_⟩
  · intro user member
    rcases holds.store.users user member with initially | ⟨entry, recorded, wrote⟩
    · exact Or.inl initially
    · exact Or.inr ⟨entry, recorded, wrote, notRefused entry recorded⟩
  · intro row member
    rcases holds.store.tokens row member with initially | ⟨entry, recorded, wrote⟩
    · exact Or.inl initially
    · exact Or.inr ⟨entry, recorded, wrote, notRefused entry recorded⟩

/-- Two invocations, the second begun while the first is at work; it looks for
an admin once the first is committed. -/
def twoBootstraps : List Action :=
  let draw := drawing 0 ⟨1⟩ "setup-token"
  [.arrive (.createAdmin "first-admin"), .arrive (.createAdmin "second-admin"), .execute 0 draw,
    .execute 0 draw, .execute 0 draw, .execute 0 draw, .commit 0, .execute 1 draw, .execute 1 draw]

theorem at_most_one_admin_two : ∃ final,
    runFrom (step plainKeys plainCredentials) twoBootstraps (start .empty) = some final ∧
      adminCount final.system = 1 ∧ final.answers = [(0, .returned), (1, .refused)] ∧
      Bootstrapped plainCredentials .empty final := by
  have computed : (runFrom (step plainKeys plainCredentials) twoBootstraps (start .empty)).any
      (fun final => adminCount final.system = 1 ∧
        final.answers = [(0, .returned), (1, .refused)]) = true := by
    decide +kernel
  obtain ⟨present, facts⟩ := (Option.any_eq_true_iff_get _ _).mp computed
  have ran := (Option.some_get present).symm
  have counted := of_decide_eq_true facts
  exact ⟨_, ran, counted.1, counted.2,
    at_most_one_admin plainKeys plainCredentials .empty (by decide) twoBootstraps _ ran⟩

end Runs

end Morai.Identity.SoleAdmin
