import Morai.Identity.RowSecurity
import Morai.Identity.Requests

/-!
# Sessions under the policies

What the statements of an open transaction do under its settings, and what two
sessions have in common whose databases differ only in what other users own.
-/

namespace Morai.Identity.TenantSessions

open Morai.Db Morai.Python Morai.Foundation.PrimaryKey Morai.Foundation.Attempts
open Morai.Foundation.TwoRuns Morai.Identity.Tables Morai.Identity.Requests
open Morai.Identity.RowSecurity

set_option autoImplicit false

/-- An open transaction: its settings and what it sees and wrote. -/
structure Open where
  context : Context
  system : System

def Open.under (context : Context) (system : System) : Open := ⟨context, system⟩

abbrev Work (Value : Type) := Attempt Open Failure Value

/-- A transaction of its own. The settings do not outlive it. -/
def committing {Value : Type} (body : Work Value) : Job Value :=
  within (Open.under .unset) Open.system body

section Statements

variable {Value : Type}

def setCurrentUserId (userId : Uuid) : Work Unit := fun session =>
  some (.ok (), { session with context := { session.context with currentUserId := some userId } })

def setIsAdmin : Work Unit := fun session =>
  some (.ok (), { session with context := { session.context with isAdmin := true } })

def rlsContextMissing : Failure :=
  .runtimeError ("app.current_user_id is not set on this session. A read against " ++
    "an RLS-protected table here would silently return fewer rows " ++
    "than expected, with no indication why. Call get_current_user " ++
    "(or set the context directly) before touching a protected table " ++
    "outside a request.")

def requireRlsContext : Work Unit := reads fun session =>
  match session.context.currentUserId with
  | none => .error rlsContextMissing
  | some _ => .ok ()

/-- A `SELECT`. -/
def selects (query : System → Except Failure Value) : Work Value :=
  reads fun session => query (session.context.visible session.system)

/-- A query of a `SECURITY DEFINER` function. -/
def definer (query : System → Except Failure Value) : Work Value :=
  reads fun session => query session.system

/-- A write to the tables under `user_isolation`. -/
def policed (change : System → Except Failure (Value × System)) : Work Value :=
  writes fun session =>
    match change (session.context.visible session.system) with
    | .error failure => .error failure
    | .ok (value, after) =>
        match enforced session.context session.system after with
        | .error failure => .error failure
        | .ok merged => .ok (value, { session with system := merged })

/-- The same of a function that may never return. -/
def policedJob (change : System → Option (Except Failure (Value × System))) : Work Value :=
  fun session =>
    match change (session.context.visible session.system) with
    | none => none
    | some outcome => policed (fun _ => outcome) session

/-- A write to a table that lets this statement through whatever the settings
are: `sessions` and `setup_tokens` have no policy, and `audit_log` takes any
`INSERT`. -/
def unpoliced (change : System → Except Failure (Value × System)) : Work Value :=
  writes fun session =>
    match change session.system with
    | .error failure => .error failure
    | .ok (value, after) => .ok (value, { session with system := after })

/-- A write to `users` of a row the policy admits. -/
def ofUser (userId : Uuid) (refused : Failure)
    (change : System → Except Failure (Value × System)) : Work Value := fun session =>
  if session.context.SeesUser userId then unpoliced change session
  else some (.error refused, session)

end Statements

/-! ## Two sessions -/

/-- The two differ in what others own, and nowhere else. -/
structure Agree (userId : Uuid) (left right : System) : Prop where
  users : left.users = right.users
  sessions : left.sessions = right.sessions
  setupTokens : left.setupTokens = right.setupTokens
  auditLog : left.auditLog = right.auditLog
  own : ownRows userId left = ownRows userId right
  soundLeft : Sound left
  soundRight : Sound right

structure AgreeOpen (userId : Uuid) (left right : Open) : Prop where
  context : left.context = right.context
  system : Agree userId left.system right.system

/-- The statement takes no part in who is who, and leaves the user's rows. -/
structure Aside (userId : Uuid) (before after : System) : Prop where
  users : after.users = before.users
  sessions : after.sessions = before.sessions
  setupTokens : after.setupTokens = before.setupTokens
  auditLog : after.auditLog = before.auditLog
  own : ownRows userId after = ownRows userId before
  sound : Sound after

section Agreement

variable (userId : Uuid) (left right : System)

theorem agree_eq (agree : Agree userId left right) :
    right = withTenantData left (tenantData right) := by
  rcases left with ⟨users, sessions, setupTokens, auditLog, positions, ledger⟩
  rcases right with ⟨users', sessions', setupTokens', auditLog', positions', ledger'⟩
  cases agree.users
  cases agree.sessions
  cases agree.setupTokens
  cases agree.auditLog
  rfl

/-- A session set to a user sees the same where that user's rows are the
same. -/
theorem visible_same (agree : Agree userId left right) (context : Context) (owner : Uuid)
    (own : ownRows owner left = ownRows owner right) (owns : context.Owns owner) :
    context.visible left = context.visible right := by
  have whose : (fun other => decide (context.Owns other)) = fun other => decide (other = owner) := by
    funext other
    apply decide_eq_decide.mpr
    exact ⟨fun owned => owns_same context other owner owned owns, fun same => same ▸ owns⟩
  have data : ∀ system, (tenantData system).filter (fun other => context.Owns other) =
      ownRows owner system := by
    intro system
    rw [whose]
    rfl
  simp only [Context.visible, data, own, agree.users]
  simp only [withTenantData, agree.sessions, agree.setupTokens]

end Agreement

/-! ## Statements on two sessions -/

/-- The query reads no table of the tenants. -/
def Blind {Value : Type} (query : System → Except Failure Value) : Prop :=
  ∀ system data, query (withTenantData system data) = query system

/-- The statement neither reads nor writes a table of the tenants, and takes no
user. -/
structure Aloof {Value : Type} (change : System → Except Failure (Value × System)) : Prop where
  commutes : ∀ system data, change (withTenantData system data) =
    (change system).map fun done => (done.1, withTenantData done.2 data)
  keepsUsers : ∀ system value after, change system = .ok (value, after) →
    ∀ userId, system.users.Has userId → after.users.Has userId

section Tracking

variable {Value : Type} (userId : Uuid)

/-- Nothing is asked of a session whose transaction is rolled back. -/
abbrev Whatever (_ _ : Open) : Prop := True

theorem visible_blind (query : System → Except Failure Value) (blind : Blind query)
    (context : Context) (left right : System) (agree : Agree userId left right) :
    query (context.visible left) = query (context.visible right) := by
  have shape : context.visible right =
      withTenantData (context.visible left) (tenantData (context.visible right)) := by
    simp only [Context.visible, agree.users]
    simp only [withTenantData, tenantData, agree.sessions, agree.setupTokens]
  rw [shape, blind]

theorem tracks_selects (query : System → Except Failure Value) (blind : Blind query) :
    Tracks (AgreeOpen userId) Whatever (fun _ => AgreeOpen userId) (selects query) := by
  apply tracks_reads
  · intro left right agree
    rw [agree.context]
    exact visible_blind userId query blind right.context left.system right.system agree.system
  · intro _ _ _
    trivial
  · intro left right value agree _
    exact agree

theorem tracks_definer (query : System → Except Failure Value) (blind : Blind query) :
    Tracks (AgreeOpen userId) Whatever (fun _ => AgreeOpen userId) (definer query) := by
  apply tracks_reads
  · intro left right agree
    rw [agree_eq userId _ _ agree.system, blind]
  · intro _ _ _
    trivial
  · intro left right value agree _
    exact agree

theorem aloof_data (change : System → Except Failure (Value × System)) (aloof : Aloof change)
    (system after : System) (value : Value) (changed : change system = .ok (value, after)) :
    tenantData after = tenantData system := by
  have same := aloof.commutes system (tenantData system)
  have whole : withTenantData system (tenantData system) = system := rfl
  rw [whole, changed, Except.map, Except.ok.injEq, Prod.mk.injEq] at same
  rw [same.2]
  rfl

theorem sound_of_data (before after : System) (sound : Sound before)
    (data : tenantData after = tenantData before)
    (users : ∀ owner, before.users.Has owner → after.users.Has owner) : Sound after := by
  constructor
  · intro owner member
    rw [data] at member
    exact users owner (sound.owners owner member)
  · intro reference member
    rw [data] at member
    have positions : after.positions = before.positions := congrArg TenantData.positions data
    rw [positions]
    exact sound.references reference member

theorem tracks_unpoliced (change : System → Except Failure (Value × System))
    (aloof : Aloof change) :
    Tracks (AgreeOpen userId) Whatever (fun _ => AgreeOpen userId) (unpoliced change) := by
  intro left right agree
  have shape := agree_eq userId _ _ agree.system
  have whole := aloof.commutes left.system (tenantData right.system)
  rw [← shape] at whole
  simp only [unpoliced, writes, whole]
  cases changed : change left.system with
  | error failure => exact .raises failure left right trivial
  | ok done =>
      obtain ⟨value, after⟩ := done
      apply Alike.returns
      have data := aloof_data change aloof left.system after value changed
      have users := aloof.keepsUsers left.system value after changed
      constructor
      · exact agree.context
      · constructor
        · rfl
        · rfl
        · rfl
        · rfl
        · have ownLeft : ownRows userId after = ownRows userId left.system := by
            simp only [ownRows, data]
          exact ownLeft.trans agree.system.own
        · exact sound_of_data left.system after agree.system.soundLeft data users
        · apply sound_of_data right.system (withTenantData after (tenantData right.system))
            agree.system.soundRight rfl
          intro owner has
          rw [← agree.system.users] at has
          exact users owner has

theorem tracks_of_user (owner : Uuid) (refused : Failure)
    (change : System → Except Failure (Value × System)) (aloof : Aloof change) :
    Tracks (AgreeOpen userId) Whatever (fun _ => AgreeOpen userId)
      (ofUser owner refused change) := by
  intro left right agree
  unfold ofUser
  rw [← agree.context]
  by_cases sees : left.context.SeesUser owner
  · rw [if_pos sees, if_pos sees]
    exact tracks_unpoliced userId change aloof left right agree
  · rw [if_neg sees, if_neg sees]
    exact .raises refused left right trivial

theorem agree_enforced (context : Context) (left right after mergedLeft mergedRight : System)
    (agree : Agree userId left right)
    (groundedLeft : Grounded context (context.visible left) after)
    (groundedRight : Grounded context (context.visible right) after)
    (ranLeft : enforced context left after = .ok mergedLeft)
    (ranRight : enforced context right after = .ok mergedRight) :
    Agree userId mergedLeft mergedRight := by
  have putLeft := enforced_ok context left after mergedLeft ranLeft
  have putRight := enforced_ok context right after mergedRight ranRight
  constructor
  · rw [putLeft.1.users, putRight.1.users, agree.users]
  · rw [putLeft.1.sessions, putRight.1.sessions]
  · rw [putLeft.1.setupTokens, putRight.1.setupTokens]
  · rw [putLeft.1.auditLog, putRight.1.auditLog, agree.auditLog]
  · rw [enforced_own_rows context left after mergedLeft putLeft.1,
      enforced_own_rows context right after mergedRight putRight.1, agree.own]
  · exact sound_enforced context left after mergedLeft agree.soundLeft groundedLeft putLeft.1
      putLeft.2
  · exact sound_enforced context right after mergedRight agree.soundRight groundedRight putRight.1
      putRight.2

/-- A statement that does the same with what it sees in two sessions does the
same to both. -/
theorem policed_alike (change : System → Except Failure (Value × System)) (left right : Open)
    (agree : AgreeOpen userId left right)
    (same : change (left.context.visible left.system) = change (left.context.visible right.system))
    (grounded : ∀ value after, change (left.context.visible left.system) = .ok (value, after) →
      Grounded left.context (left.context.visible left.system) after ∧
        Grounded left.context (left.context.visible right.system) after) :
    Alike Whatever (fun _ => AgreeOpen userId) (policed change left) (policed change right) := by
  simp only [policed, writes, ← agree.context, ← same]
  cases changed : change (left.context.visible left.system) with
  | error failure => exact .raises failure left right trivial
  | ok done =>
      obtain ⟨value, after⟩ := done
      have both := grounded value after changed
      have ends := enforced_alike left.context left.system right.system after agree.system.users
        agree.system.auditLog agree.system.soundLeft agree.system.soundRight both.1 both.2
      cases ends with
      | inl refused =>
          obtain ⟨failure, refusedLeft, refusedRight⟩ := refused
          simp only [refusedLeft, refusedRight]
          exact .raises failure left right trivial
      | inr passed =>
          obtain ⟨mergedLeft, mergedRight, ranLeft, ranRight⟩ := passed
          simp only [ranLeft, ranRight]
          apply Alike.returns
          constructor
          · rfl
          · exact agree_enforced userId left.context left.system right.system after mergedLeft
              mergedRight agree.system both.1 both.2 ranLeft ranRight

/-- What holds for each of two users holds for both. -/
theorem tracks_both (owner : Uuid) (attempt : Work Value)
    {returned : Uuid → Value → Open → Open → Prop}
    (tracks : ∀ each, Tracks (AgreeOpen each) Whatever (returned each) attempt) :
    Tracks (fun left right => AgreeOpen userId left right ∧ AgreeOpen owner left right) Whatever
      (fun value left right => returned userId value left right ∧ returned owner value left right)
      attempt := by
  apply tracks_and
  · intro left right both
    exact tracks userId left right both.1
  · intro left right both
    exact tracks owner left right both.2

/-- Where the session's own user has the same rows, whatever the statement does
with them. -/
theorem tracks_policed (owner : Uuid) (change : System → Except Failure (Value × System))
    (grounded : ∀ context view value after, change view = .ok (value, after) →
      Grounded context view after) :
    Tracks (fun left right => AgreeOpen userId left right ∧ AgreeOpen owner left right ∧
        left.context.Owns owner) Whatever (fun _ => AgreeOpen userId) (policed change) := by
  rintro left right ⟨agree, agreeOwner, owns⟩
  have same := visible_same owner left.system right.system agreeOwner.system left.context owner
    agreeOwner.system.own owns
  apply policed_alike userId change left right agree (by rw [same])
  intro value after changed
  have ground := grounded left.context _ value after changed
  exact ⟨ground, same ▸ ground⟩

theorem tracks_policed_job (owner : Uuid)
    (change : System → Option (Except Failure (Value × System)))
    (grounded : ∀ context view value after, change view = some (.ok (value, after)) →
      Grounded context view after) :
    Tracks (fun left right => AgreeOpen userId left right ∧ AgreeOpen owner left right ∧
        left.context.Owns owner) Whatever (fun _ => AgreeOpen userId) (policedJob change) := by
  rintro left right ⟨agree, agreeOwner, owns⟩
  have same := visible_same owner left.system right.system agreeOwner.system left.context owner
    agreeOwner.system.own owns
  simp only [policedJob, ← agree.context, ← same]
  cases changed : change (left.context.visible left.system) with
  | none => exact .hung
  | some outcome =>
      dsimp only
      apply policed_alike userId (fun _ => outcome) left right agree rfl
      intro value after ended
      have ground := grounded left.context _ value after (changed.trans (congrArg some ended))
      exact ⟨ground, same ▸ ground⟩

theorem tracks_set_current_user_id (owner : Uuid) :
    Tracks (AgreeOpen userId) Whatever
      (fun _ left right => AgreeOpen userId left right ∧ left.context.Owns owner)
      (setCurrentUserId owner) := by
  intro left right agree
  apply Alike.returns
  exact ⟨⟨by rw [agree.context], agree.system⟩, rfl⟩

end Tracking

theorem agree_aside (userId : Uuid) (left right afterLeft afterRight : System)
    (agree : Agree userId left right) (asideLeft : Aside userId left afterLeft)
    (asideRight : Aside userId right afterRight) : Agree userId afterLeft afterRight where
  users := by rw [asideLeft.users, asideRight.users, agree.users]
  sessions := by rw [asideLeft.sessions, asideRight.sessions, agree.sessions]
  setupTokens := by rw [asideLeft.setupTokens, asideRight.setupTokens, agree.setupTokens]
  auditLog := by rw [asideLeft.auditLog, asideRight.auditLog, agree.auditLog]
  own := by rw [asideLeft.own, asideRight.own, agree.own]
  soundLeft := asideLeft.sound
  soundRight := asideRight.sound

/-! ## Statements on one session -/

section Alone

variable {Value : Type} (change : System → Except Failure (Value × System)) (before after : Open)
  (outcome : Except Failure Value)

theorem unpoliced_ok (value : Value)
    (ran : unpoliced change before = some (.ok value, after)) :
    change before.system = .ok (value, after.system) ∧ after.context = before.context := by
  have wrote := writes_ok _ before after value ran
  split at wrote
  · cases wrote
  · rename_i changed
    cases wrote
    exact ⟨changed, rfl⟩

theorem of_user_ok (owner : Uuid) (refused : Failure) (value : Value)
    (ran : ofUser owner refused change before = some (.ok value, after)) :
    change before.system = .ok (value, after.system) ∧ after.context = before.context := by
  unfold ofUser at ran
  split_ifs at ran
  · exact unpoliced_ok change before after value ran
  · cases ran

/-- What a write to the tables of the tenants comes to. -/
theorem policed_cases (ran : policed change before = some (outcome, after)) :
    after = before ∨ ∃ value changed,
      change (before.context.visible before.system) = .ok (value, changed) ∧
        enforced before.context before.system changed = .ok after.system ∧
        after.context = before.context := by
  simp only [policed, writes] at ran
  cases changed : change (before.context.visible before.system) with
  | error failure =>
      simp only [changed] at ran
      cases ran
      exact Or.inl rfl
  | ok done =>
      obtain ⟨value, left⟩ := done
      simp only [changed] at ran
      cases checked : enforced before.context before.system left with
      | error failure =>
          simp only [checked] at ran
          cases ran
          exact Or.inl rfl
      | ok merged =>
          simp only [checked] at ran
          cases ran
          exact Or.inr ⟨value, left, rfl, checked, rfl⟩

/-- Nobody writes rows of a user the session is not set to. -/
theorem policed_own_rows (ran : policed change before = some (outcome, after)) (userId : Uuid)
    (other : ¬before.context.Owns userId) :
    ownRows userId after.system = ownRows userId before.system := by
  cases policed_cases change before after outcome ran with
  | inl same => rw [same]
  | inr wrote =>
      obtain ⟨value, changed, _, checked, _⟩ := wrote
      have put := (enforced_ok before.context before.system changed after.system checked).1
      rw [enforced_own_rows before.context before.system changed after.system put, if_neg other]

theorem policed_sound (sound : Sound before.system)
    (grounded : ∀ value changed,
      change (before.context.visible before.system) = .ok (value, changed) →
        Grounded before.context (before.context.visible before.system) changed)
    (ran : policed change before = some (outcome, after)) : Sound after.system := by
  cases policed_cases change before after outcome ran with
  | inl same => exact same ▸ sound
  | inr wrote =>
      obtain ⟨value, changed, ok, checked, _⟩ := wrote
      have put := enforced_ok before.context before.system changed after.system checked
      exact sound_enforced before.context before.system changed after.system sound
        (grounded value changed ok) put.1 put.2

/-- The statement writes tables of the tenants only. -/
def TenantOnly (view changed : System) : Prop :=
  changed = withTenantData view (tenantData changed)

theorem policed_aside (sound : Sound before.system)
    (grounded : ∀ value changed,
      change (before.context.visible before.system) = .ok (value, changed) →
        Grounded before.context (before.context.visible before.system) changed)
    (tenantOnly : ∀ value changed,
      change (before.context.visible before.system) = .ok (value, changed) →
        TenantOnly (before.context.visible before.system) changed)
    (ran : policed change before = some (outcome, after)) (userId : Uuid)
    (other : ¬before.context.Owns userId) : Aside userId before.system after.system := by
  have own := policed_own_rows change before after outcome ran userId other
  have sound := policed_sound change before after outcome sound grounded ran
  cases policed_cases change before after outcome ran with
  | inl same => exact ⟨by rw [same], by rw [same], by rw [same], by rw [same], own, sound⟩
  | inr wrote =>
      obtain ⟨value, changed, ok, checked, _⟩ := wrote
      have put := (enforced_ok before.context before.system changed after.system checked).1
      have shape := tenantOnly value changed ok
      refine ⟨?_, ?_, ?_, ?_, own, sound⟩
      · rw [put.users]
        apply table_eq_of_rows
        apply List.filter_eq_self.mpr
        intro user member
        apply decide_eq_true
        intro sees
        rw [shape]
        exact List.mem_map.mpr ⟨user, List.mem_filter.mpr ⟨member, decide_eq_true sees⟩, rfl⟩
      · rw [put.sessions, shape]
        rfl
      · rw [put.setupTokens, shape]
        rfl
      · rw [put.auditLog, shape]
        exact List.append_nil _

end Alone

end Morai.Identity.TenantSessions
