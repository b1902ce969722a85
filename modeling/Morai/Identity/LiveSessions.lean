import Mathlib.Data.Set.Function
import Morai.Identity.RequestInvariants

/-!
# The live sessions

What the commits so far say of a cookie (the login that handed it out, a
logout with it, a deletion of its user) is what the `sessions` rows say,
however the requests interleave.
-/

namespace Morai.Identity.LiveSessions

open Morai.Crypto Morai.Db Morai.Python Morai.Foundation.PrimaryKey Morai.Foundation.RowLocks
open Morai.Foundation.Runs Morai.Identity.Tables Morai.Identity.Deletion Morai.Identity.Requests
open Morai.Identity.ConcurrentRequests Morai.Identity.RequestSteps Morai.Identity.RequestInvariants

set_option autoImplicit false

/-! ## What the commits say -/

def LogsOut (rawToken : String) (entry : Entry) : Prop :=
  entry.writes.dropped.map Dropped.rawToken = some rawToken

def Deletes (userId : Uuid) (entry : Entry) : Prop :=
  entry.writes.deletion.map AccountDeletion.userId = some userId

/-- A login that committed; since then neither a logout with its value nor a
deletion of its user has. -/
def LiveLogin (history : List Entry) (login : Login) : Prop :=
  ∃ before entry after, history = before ++ entry :: after ∧ entry.writes.session = some login ∧
    ∀ later ∈ after, ¬LogsOut login.rawToken later ∧ ¬Deletes login.userId later

def Issued (history : List Entry) (rawToken : String) : Prop :=
  ∃ entry ∈ history, entry.writes.session.map Login.rawToken = some rawToken

/-- A logout with the value has committed, or a deletion of the user it was
handed out for. -/
def Ended (history : List Entry) (rawToken : String) : Prop :=
  (∃ entry ∈ history, LogsOut rawToken entry) ∨
    ∃ before entry after login, history = before ++ entry :: after ∧
      entry.writes.session = some login ∧ login.rawToken = rawToken ∧
      ∃ later ∈ after, Deletes login.userId later

theorem concat_split (history before after : List Entry) (last entry : Entry)
    (same : history ++ [last] = before ++ entry :: after) :
    (after = [] ∧ entry = last ∧ history = before) ∨
      ∃ rest, after = rest ++ [last] ∧ history = before ++ entry :: rest := by
  induction after using List.reverseRecOn with
  | nil =>
      have ends := List.append_inj' same rfl
      exact Or.inl ⟨rfl, (List.singleton_inj.mp ends.2).symm, ends.1⟩
  | append_singleton rest final _ =>
      rw [← List.cons_append, ← List.append_assoc] at same
      have ends := List.append_inj' same rfl
      exact Or.inr ⟨rest, by rw [List.singleton_inj.mp ends.2], ends.1⟩

theorem live_concat (history : List Entry) (last : Entry) (login : Login) :
    LiveLogin (history ++ [last]) login ↔ last.writes.session = some login ∨
      (LiveLogin history login ∧ ¬LogsOut login.rawToken last ∧ ¬Deletes login.userId last) := by
  constructor
  · rintro ⟨before, entry, after, same, issued, kept⟩
    cases concat_split history before after last entry same with
    | inl new =>
        rw [new.2.1] at issued
        exact Or.inl issued
    | inr old =>
        obtain ⟨rest, shape, whole⟩ := old
        rw [shape] at kept
        have final := kept last (List.mem_append_right _ List.mem_cons_self)
        refine Or.inr ⟨⟨before, entry, rest, whole, issued, ?_⟩, final⟩
        exact fun later member => kept later (List.mem_append_left _ member)
  · rintro (issued | ⟨⟨before, entry, after, whole, issued, kept⟩, final⟩)
    · exact ⟨history, last, [], rfl, issued, fun later member => absurd member List.not_mem_nil⟩
    · refine ⟨before, entry, after ++ [last], ?_, issued, ?_⟩
      · rw [whole, List.append_assoc, List.cons_append]
      · intro later member
        cases List.mem_append.mp member with
        | inl old => exact kept later old
        | inr new => exact List.mem_singleton.mp new ▸ final

theorem ended_concat (history : List Entry) (last : Entry) (rawToken : String)
    (ended : Ended (history ++ [last]) rawToken) :
    Ended history rawToken ∨ LogsOut rawToken last ∨
      ∃ entry ∈ history, ∃ login, entry.writes.session = some login ∧
        login.rawToken = rawToken ∧ Deletes login.userId last := by
  rcases ended with ⟨entry, member, out⟩ | ⟨before, entry, after, login, same, issued, named, later,
    member, gone⟩
  · cases List.mem_append.mp member with
    | inl old => exact Or.inl (Or.inl ⟨entry, old, out⟩)
    | inr new => exact Or.inr (Or.inl (List.mem_singleton.mp new ▸ out))
  · cases concat_split history before after last entry same with
    | inl new =>
        rw [new.1] at member
        cases member
    | inr old =>
        obtain ⟨rest, shape, whole⟩ := old
        rw [shape] at member
        cases List.mem_append.mp member with
        | inl earlier =>
            exact Or.inl (Or.inr ⟨before, entry, rest, login, whole, issued, named, later, earlier,
              gone⟩)
        | inr final =>
            rw [List.mem_singleton.mp final] at gone
            have stored : entry ∈ history := whole ▸ List.mem_append_right _ List.mem_cons_self
            exact Or.inr (Or.inr ⟨entry, stored, login, issued, named, gone⟩)

theorem issued_of_live (history : List Entry) (login : Login) (live : LiveLogin history login) :
    ∃ entry ∈ history, entry.writes.session = some login := by
  obtain ⟨before, entry, after, whole, issued, _⟩ := live
  exact ⟨entry, whole ▸ List.mem_append_right _ List.mem_cons_self, issued⟩

theorem issued_grows (history later : List Entry) (rawToken : String)
    (issued : Issued history rawToken) : Issued (history ++ later) rawToken := by
  obtain ⟨entry, member, named⟩ := issued
  exact ⟨entry, List.mem_append_left _ member, named⟩

theorem issued_of_ended (history : List Entry) (rawToken : String)
    (loggedOut : ∀ entry ∈ history, LogsOut rawToken entry → Issued history rawToken)
    (ended : Ended history rawToken) : Issued history rawToken := by
  rcases ended with ⟨entry, member, out⟩ | ⟨before, entry, after, login, whole, issued, named, _⟩
  · exact loggedOut entry member out
  · refine ⟨entry, whole ▸ List.mem_append_right _ List.mem_cons_self, ?_⟩
    rw [issued, ← named]
    rfl

instance decidableDeletes (userId : Uuid) (entry : Entry) : Decidable (Deletes userId entry) :=
  inferInstanceAs (Decidable (_ = some userId))

instance decidableIssued (history : List Entry) (rawToken : String) :
    Decidable (Issued history rawToken) :=
  inferInstanceAs (Decidable (∃ entry ∈ history, _ = some rawToken))

/-- No login hands out a value twice, and no id of a deleted user is drawn
again. -/
def NewValues (history : List Entry) (writes : Writes) : Prop :=
  (∀ login ∈ writes.session, ¬Issued history login.rawToken) ∧
    ∀ user ∈ writes.user, ∀ entry ∈ history, ¬Deletes user.id entry

instance decidableNewValues (history : List Entry) (writes : Writes) :
    Decidable (NewValues history writes) :=
  inferInstanceAs (Decidable ((∀ login ∈ writes.session, _) ∧ ∀ user ∈ writes.user, _))

def Unrepeated (state : State) : Action → Prop
  | .commit id => ∀ txn ∈ state.opened.txns id, NewValues state.history txn.writes
  | _ => True

instance decidableUnrepeated (state : State) : ∀ action, Decidable (Unrepeated state action)
  | .commit id => inferInstanceAs (Decidable (∀ txn ∈ state.opened.txns id, _))
  | .arrive _ | .execute _ _ | .rollback _ | .elsewhere _ _ => isTrue trivial

/-- A commit that touches no session. -/
def Quiet (entry : Entry) : Prop :=
  entry.writes.session = none ∧ entry.writes.dropped = none ∧ entry.writes.deletion = none

theorem live_quiet (history : List Entry) (last : Entry) (quiet : Quiet last) (login : Login) :
    LiveLogin (history ++ [last]) login ↔ LiveLogin history login := by
  obtain ⟨session, dropped, deletion⟩ := quiet
  rw [live_concat]
  simp [LogsOut, Deletes, session, dropped, deletion]

/-! ## The invariant -/

section Invariant

variable (credentials : Credentials) (values : Set String)

/-- What is committed, against what the commits say. -/
structure Recorded (system : System) (history : List Entry) : Prop where
  rows : ∀ row, row ∈ system.sessions.rows ↔
    ∃ login, LiveLogin history login ∧ login.row credentials = row
  owners : ∀ row ∈ system.sessions.rows, system.users.Has row.userId
  known : ∀ entry ∈ history, ∀ login, entry.writes.session = some login → login.rawToken ∈ values
  loggedOut : ∀ rawToken, ∀ entry ∈ history, LogsOut rawToken entry → Issued history rawToken
  ended : ∀ login, LiveLogin history login → ¬Ended history login.rawToken
  unique : ∀ left ∈ history, ∀ right ∈ history, ∀ one other, left.writes.session = some one →
    right.writes.session = some other → one.rawToken = other.rawToken → one = other

/-- What the first query of `get_current_user` found still means. -/
structure ReadingSound (system : System) (history : List Entry) (route : Route)
    (reading : Reading) : Prop where
  past : reading.readAt ≤ history.length
  found : ∃ login, route.session? = some (some login.rawToken) ∧
    LiveLogin (history.take reading.readAt) login ∧ login.userId = reading.userId ∧
    reading.now < login.issuedAt + sessionCookieTtl ∧
    ¬Ended (history.take reading.readAt) login.rawToken
  there : system.users.Has reading.userId ↔
    ∀ later ∈ history.drop reading.readAt, ¬Deletes reading.userId later

/-- What an open transaction relies on. -/
structure Relies (system : System) (history : List Entry) (id : Nat) (txn : Txn) : Prop where
  known : ∀ rawToken, txn.route.session? = some (some rawToken) → rawToken ∈ values
  user : ∀ user, txn.writes.user = some user → ¬system.users.Has user.id
  session : ∀ login, txn.writes.session = some login → login.rawToken ∈ values ∧
    system.users.Has login.userId ∧ ¬system.sessions.Has (credentials.hashToken login.rawToken)
  dropped : ∀ dropped, txn.writes.dropped = some dropped → Issued history dropped.rawToken ∧
    system.sessions.get? (credentials.hashToken dropped.rawToken) = dropped.row
  deletion : ∀ deletion, txn.writes.deletion = some deletion → deletion.OwnRows ∧
    ∀ row ∈ system.sessions.rows, row.userId = deletion.userId →
      Row.session row ∈ deletion.removed
  underway : ∀ deletion, txn.stage = .deleting deletion → deletion.OwnRows
  reading : ∀ reading, txn.stage = .sessionRead reading →
    ReadingSound system history txn.route reading
  loggingOut : ∀ rawToken, Write.deleteSession rawToken ∈ todoOf txn.stage →
    todoOf txn.stage = [.deleteSession rawToken] ∧ Issued history rawToken ∧
      txn.writes.dropped = none

/-- The cookies presented and the values drawn are among these. -/
def unrepeated : Conditions where
  route route := ∀ rawToken, route.session? = some (some rawToken) → rawToken ∈ values
  draw draw := draw.rawToken ∈ values
  commit history txn := NewValues history txn.writes

/-! ## What a commit does to the sessions -/

theorem session_alone (route : Route) (writes : Writes) (belongs : WritesBelong route writes)
    (login : Login) (session : writes.session = some login) :
    writes.dropped = none ∧ writes.deletion = none ∧ writes.user = none := by
  have kind := belongs.session login session
  exact ⟨belongs.no_dropped (by simp [kind]), belongs.no_deletion (by simp [kind]),
    belongs.no_user (by simp [kind]) (by simp [kind])⟩

theorem dropped_alone (route : Route) (writes : Writes) (belongs : WritesBelong route writes)
    (dropped : Dropped) (logout : writes.dropped = some dropped) :
    writes.session = none ∧ writes.deletion = none ∧ writes.user = none ∧
      writes.password = none := by
  have kind : routeKind route = .logout := by rw [belongs.dropped dropped logout]; rfl
  exact ⟨belongs.no_session (by simp [kind]), belongs.no_deletion (by simp [kind]),
    belongs.no_user (by simp [kind]) (by simp [kind]), belongs.no_password (by simp [kind])⟩

theorem rows_after_login (system : System) (writes : Writes) (login : Login)
    (session : writes.session = some login) (dropped : writes.dropped = none)
    (deletion : writes.deletion = none)
    (fresh : ¬system.sessions.Has (credentials.hashToken login.rawToken)) (row : SessionRow) :
    row ∈ (writes.apply credentials system).sessions.rows ↔
      row ∈ system.sessions.rows ∨ login.row credentials = row := by
  rw [mem_apply_sessions]
  simp only [session, dropped, deletion, Option.map_some, Option.some.injEq, Option.bind_none,
    ne_eq, reduceCtorEq, not_false_eq_true, IsEmpty.forall_iff, implies_true, and_true]
  constructor
  · rintro (old | ⟨new, _⟩)
    · exact Or.inl old
    · exact Or.inr new
  · rintro (old | new)
    · exact Or.inl old
    · refine Or.inr ⟨new, ?_⟩
      rw [← new]
      exact fresh

theorem rows_after_logout (system : System) (writes : Writes) (dropped : Dropped)
    (logout : writes.dropped = some dropped) (session : writes.session = none)
    (deletion : writes.deletion = none)
    (current : system.sessions.get? (credentials.hashToken dropped.rawToken) = dropped.row)
    (row : SessionRow) :
    row ∈ (writes.apply credentials system).sessions.rows ↔
      row ∈ system.sessions.rows ∧ row.tokenHash ≠ credentials.hashToken dropped.rawToken := by
  rw [mem_apply_sessions]
  simp only [session, logout, deletion, Option.map_none, reduceCtorEq, false_and, or_false,
    Option.bind_some, ne_eq, IsEmpty.forall_iff, implies_true, and_true, ← current]
  constructor
  · rintro ⟨stored, kept⟩
    refine ⟨stored, fun same => kept ?_⟩
    exact (get_eq_some_iff _ _ _).mpr ⟨stored, same⟩
  · rintro ⟨stored, kept⟩
    refine ⟨stored, fun same => kept ?_⟩
    exact ((get_eq_some_iff _ _ _).mp same).2

theorem rows_after_deletion (system : System) (writes : Writes) (deletion : AccountDeletion)
    (deletes : writes.deletion = some deletion) (session : writes.session = none)
    (dropped : writes.dropped = none) (own : deletion.OwnRows)
    (covers : ∀ row ∈ system.sessions.rows, row.userId = deletion.userId →
      Row.session row ∈ deletion.removed) (row : SessionRow) :
    row ∈ (writes.apply credentials system).sessions.rows ↔
      row ∈ system.sessions.rows ∧ row.userId ≠ deletion.userId := by
  rw [mem_apply_sessions]
  simp only [session, dropped, deletes, Option.map_none, reduceCtorEq, false_and, or_false,
    Option.bind_none, ne_eq, not_false_eq_true, true_and, Option.some.injEq, forall_eq']
  constructor
  · rintro ⟨stored, kept⟩
    exact ⟨stored, fun same => kept (covers row stored same)⟩
  · rintro ⟨stored, kept⟩
    refine ⟨stored, fun removed => kept ?_⟩
    have refers := own _ removed
    simpa [Row.Refers, Row.userColumns, eq_comm] using refers

theorem sessions_untouched (system : System) (writes : Writes) (session : writes.session = none)
    (dropped : writes.dropped = none) (deletion : writes.deletion = none) :
    (writes.apply credentials system).sessions = system.sessions := by
  unfold Writes.apply
  simp only [session, dropped, deletion, Option.map_none, addRow, Option.bind_none, ne_eq,
    reduceCtorEq, not_false_eq_true, decide_true]
  exact table_eq_of_rows _ _ (List.filter_true _)

variable (system : System) (history : List Entry) (id : Nat) (txn : Txn)

/-- The rows that a commit keeps are of the logins it does not end. -/
theorem live_rows_kept (row : SessionRow) (ended : SessionRow → Prop) (ends : Login → Prop)
    (agree : ∀ login, LiveLogin history login → (ended (login.row credentials) ↔ ends login)) :
    (∃ login, LiveLogin history login ∧ login.row credentials = row) ∧ ¬ended row ↔
      ∃ login, (LiveLogin history login ∧ ¬ends login) ∧ login.row credentials = row := by
  constructor
  · rintro ⟨⟨login, alive, same⟩, kept⟩
    refine ⟨login, ⟨alive, fun gone => kept ?_⟩, same⟩
    rw [← same]
    exact (agree login alive).mpr gone
  · rintro ⟨login, ⟨alive, kept⟩, same⟩
    refine ⟨⟨login, alive, same⟩, fun gone => kept ?_⟩
    rw [← same] at gone
    exact (agree login alive).mp gone

/-- Each of the three commits that touch sessions does to the rows what its
entry does to the live logins. -/
theorem rows_recorded (distinct : Set.InjOn credentials.hashToken values)
    (recorded : Recorded credentials values system history)
    (relies : Relies credentials values system history id txn) (shaped : Shaped txn)
    (row : SessionRow) :
    row ∈ (systemAfter credentials system txn).sessions.rows ↔
      ∃ login, LiveLogin (historyAfter history id txn) login ∧ login.row credentials = row := by
  have live := live_concat history (.request id txn.route txn.writes)
  have knownLive : ∀ login, LiveLogin history login → login.rawToken ∈ values := by
    intro login alive
    obtain ⟨entry, member, issued⟩ := issued_of_live history login alive
    exact recorded.known entry member login issued
  unfold systemAfter historyAfter
  simp only [live, LogsOut, Deletes, Entry.writes]
  cases session : txn.writes.session with
  | some login =>
      obtain ⟨dropped, deletion, _⟩ := session_alone _ _ shaped.writes login session
      rw [rows_after_login credentials system _ login session dropped deletion
        (relies.session login session).2.2, recorded.rows]
      simp only [dropped, deletion, Option.map_none, reduceCtorEq, not_false_eq_true, and_true,
        Option.some.injEq]
      constructor
      · rintro (⟨old, alive, same⟩ | same)
        · exact ⟨old, Or.inr alive, same⟩
        · exact ⟨login, Or.inl rfl, same⟩
      · rintro ⟨found, new | alive, same⟩
        · exact Or.inr (new ▸ same)
        · exact Or.inl ⟨found, alive, same⟩
  | none =>
      cases logout : txn.writes.dropped with
      | some dropped =>
          obtain ⟨_, deletion, _⟩ := dropped_alone _ _ shaped.writes dropped logout
          have current := relies.dropped dropped logout
          obtain ⟨issue, issueMember, issueNamed⟩ := current.1
          obtain ⟨first, issued, named⟩ := Option.map_eq_some_iff.mp issueNamed
          have droppedKnown : dropped.rawToken ∈ values :=
            named ▸ recorded.known issue issueMember first issued
          rw [rows_after_logout credentials system _ dropped logout session deletion current.2,
            recorded.rows]
          simp only [deletion, reduceCtorEq, false_or, Option.map_some, Option.map_none,
            Option.some.injEq, not_false_eq_true, and_true]
          apply live_rows_kept credentials history row
            (fun row => row.tokenHash = credentials.hashToken dropped.rawToken)
            (fun login => dropped.rawToken = login.rawToken)
          intro login alive
          constructor
          · intro equal
            exact (distinct (knownLive login alive) droppedKnown equal).symm
          · intro equal
            rw [equal]
            rfl
      | none =>
          cases deletes : txn.writes.deletion with
          | some deletion =>
              obtain ⟨own, covers⟩ := relies.deletion deletion deletes
              rw [rows_after_deletion credentials system _ deletion deletes session logout own covers,
                recorded.rows]
              simp only [reduceCtorEq, false_or, Option.map_none, Option.map_some,
                Option.some.injEq, not_false_eq_true, true_and]
              apply live_rows_kept credentials history row
                (fun row => row.userId = deletion.userId)
                (fun login => deletion.userId = login.userId)
              exact fun login _ => eq_comm
          | none =>
              rw [sessions_untouched credentials system _ session logout deletes, recorded.rows]
              simp

theorem owners_recorded (recorded : Recorded credentials values system history)
    (relies : Relies credentials values system history id txn) (shaped : Shaped txn)
    (row : SessionRow) (member : row ∈ (systemAfter credentials system txn).sessions.rows) :
    (systemAfter credentials system txn).users.Has row.userId := by
  unfold systemAfter at member ⊢
  rw [apply_users_has]
  obtain ⟨source, _, kept⟩ := (mem_apply_sessions credentials _ _ row).mp member
  cases source with
  | inl old =>
      refine ⟨Or.inl (recorded.owners row old), ?_⟩
      cases deletes : txn.writes.deletion with
      | none => simp
      | some deletion =>
          intro same
          have removed := (relies.deletion deletion deletes).2 row old (Option.some.inj same).symm
          exact kept deletion deletes removed
  | inr new =>
      obtain ⟨login, session, same⟩ := Option.map_eq_some_iff.mp new.1
      have owner : login.userId = row.userId := congrArg SessionRow.userId same
      refine ⟨Or.inl (owner ▸ (relies.session login session).2.1), ?_⟩
      rw [(session_alone _ _ shaped.writes login session).2.1]
      simp

theorem recorded_after (distinct : Set.InjOn credentials.hashToken values)
    (recorded : Recorded credentials values system history)
    (relies : Relies credentials values system history id txn) (shaped : Shaped txn)
    (fresh : ∀ login, txn.writes.session = some login → ¬Issued history login.rawToken) :
    Recorded credentials values (systemAfter credentials system txn)
      (historyAfter history id txn) := by
  have issuedIn : ∀ entry ∈ history, ∀ login, entry.writes.session = some login →
      Issued history login.rawToken :=
    fun entry member login session => ⟨entry, member, by rw [session]; rfl⟩
  refine ⟨rows_recorded credentials values system history id txn distinct recorded relies shaped,
    owners_recorded credentials values system history id txn recorded relies shaped,
    ?_, ?_, ?_, ?_⟩
  · intro entry member login session
    cases List.mem_append.mp member with
    | inl old => exact recorded.known entry old login session
    | inr new =>
        rw [List.mem_singleton.mp new] at session
        exact (relies.session login session).1
  · intro rawToken entry member out
    cases List.mem_append.mp member with
    | inl old => exact issued_grows _ _ _ (recorded.loggedOut rawToken entry old out)
    | inr new =>
        rw [List.mem_singleton.mp new] at out
        obtain ⟨dropped, logout, named⟩ := Option.map_eq_some_iff.mp out
        exact named ▸ issued_grows _ _ _ (relies.dropped dropped logout).1
  · intro login live ended
    rcases (live_concat _ _ _).mp live with session | ⟨alive, notOut, notGone⟩
    · have new := fresh login session
      rcases ended_concat _ _ _ ended with old | out | ⟨entry, member, other, issued, named, _⟩
      · exact new (issued_of_ended _ _ (recorded.loggedOut login.rawToken) old)
      · have none := (session_alone _ _ shaped.writes login session).1
        simp only [LogsOut, Entry.writes, none, Option.map_none, reduceCtorEq] at out
      · exact new (named ▸ issuedIn entry member other issued)
    · rcases ended_concat _ _ _ ended with old | out | ⟨entry, member, other, issued, named, gone⟩
      · exact recorded.ended login alive old
      · exact notOut out
      · obtain ⟨issue, issueMember, session⟩ := issued_of_live history login alive
        have same := recorded.unique entry member issue issueMember other login issued session named
        exact notGone (same ▸ gone)
  · intro left leftMember right rightMember one other leftSession rightSession named
    cases List.mem_append.mp leftMember with
    | inl leftOld =>
        cases List.mem_append.mp rightMember with
        | inl rightOld =>
            exact recorded.unique left leftOld right rightOld one other leftSession rightSession named
        | inr rightNew =>
            rw [List.mem_singleton.mp rightNew] at rightSession
            exact absurd (named ▸ issuedIn left leftOld one leftSession) (fresh other rightSession)
    | inr leftNew =>
        rw [List.mem_singleton.mp leftNew] at leftSession
        cases List.mem_append.mp rightMember with
        | inl rightOld =>
            exact absurd (named ▸ issuedIn right rightOld other rightSession) (fresh one leftSession)
        | inr rightNew =>
            rw [List.mem_singleton.mp rightNew] at rightSession
            exact Option.some.inj (leftSession.symm.trans rightSession)

/-! ## What a statement leaves to rely on -/

variable (draw : Draw)

theorem relies_still (relies : Relies credentials values system history id txn) (stage : Stage)
    (writes : Writes) (user : writes.user = txn.writes.user)
    (session : writes.session = txn.writes.session) (dropped : writes.dropped = txn.writes.dropped)
    (deletion : writes.deletion = txn.writes.deletion)
    (notDeleting : ∀ deletion, stage ≠ .deleting deletion)
    (notReading : ∀ reading, stage ≠ .sessionRead reading)
    (notLeaving : ∀ rawToken, Write.deleteSession rawToken ∉ todoOf stage) :
    Relies credentials values system history id ⟨txn.route, stage, writes⟩ where
  known := relies.known
  user := user ▸ relies.user
  session := session ▸ relies.session
  dropped := dropped ▸ relies.dropped
  deletion := deletion ▸ relies.deletion
  underway gone same := absurd same (notDeleting gone)
  reading read same := absurd same (notReading read)
  loggingOut rawToken member := absurd member (notLeaving rawToken)

/-- Who the first query finds is logged in. -/
theorem read_session_ok (recorded : Recorded credentials values system history)
    (distinct : Set.InjOn credentials.hashToken values) (rawToken : String)
    (known : rawToken ∈ values) (now : Instant) (userId : Uuid)
    (read : readSession credentials (some rawToken) now system = .ok userId) :
    ∃ login, login.rawToken = rawToken ∧ LiveLogin history login ∧ login.userId = userId ∧
      now < login.issuedAt + sessionCookieTtl ∧ system.users.Has userId := by
  unfold readSession at read
  dsimp only at read
  split at read
  · cases read
  · rename_i row found
    split at read
    · rename_i unexpired
      cases read
      have stored := (get_eq_some_iff _ _ _).mp found
      obtain ⟨login, live, same⟩ := (recorded.rows row).mp stored.1
      obtain ⟨entry, member, issued⟩ := issued_of_live history login live
      have loginKnown := recorded.known entry member login issued
      have named : login.rawToken = rawToken := by
        apply distinct loginKnown known
        rw [← stored.2, ← same]
        rfl
      refine ⟨login, named, live, congrArg SessionRow.userId same, ?_, recorded.owners row stored.1⟩
      rw [← same] at unexpired
      exact unexpired
    · cases read

/-- A live login is found. -/
theorem read_session_of_live (recorded : Recorded credentials values system history)
    (login : Login) (live : LiveLogin history login) (now : Instant)
    (unexpired : now < login.issuedAt + sessionCookieTtl) :
    readSession credentials (some login.rawToken) now system = .ok login.userId := by
  have stored := (recorded.rows (login.row credentials)).mpr ⟨login, live, rfl⟩
  have found : system.sessions.get? (credentials.hashToken login.rawToken) =
      some (login.row credentials) := (get_eq_some_iff _ _ _).mpr ⟨stored, rfl⟩
  simp only [readSession, found, Login.row, unexpired, if_true]

theorem relies_handled (relies : Relies credentials values system history id txn)
    (reading : Reading) (read : txn.stage = .sessionRead reading) (nothing : txn.writes = .nothing)
    (user : AuthenticatedUser) (newId : Uuid) (stage : Stage)
    (handles : handle user newId txn.route = .ok stage) :
    Relies credentials values system history id ⟨txn.route, stage, txn.writes⟩ := by
  have still := fun stage => relies_still credentials values system history id txn relies stage
    txn.writes rfl rfl rfl rfl
  unfold handle at handles
  split at handles
  · split at handles <;> cases handles
    exact still _ (by simp) (by simp) (by simp [todoOf])
  · split at handles <;> cases handles
    exact still _ (by simp) (by simp) (by simp [todoOf])
  · rename_i cookie route
    split at handles
    · cases handles
    · rename_i rawToken
      cases handles
      obtain ⟨login, session, live, _⟩ := (relies.reading reading read).found
      rw [route] at session
      cases session
      obtain ⟨entry, member, issued⟩ := issued_of_live _ login live
      have known : Issued history login.rawToken :=
        ⟨entry, List.mem_of_mem_take member, by rw [issued]; rfl⟩
      refine { still (.writing []) (by simp) (by simp) (by simp [todoOf]) with
        loggingOut := ?_, underway := by simp, reading := by simp }
      intro rawToken member
      cases List.mem_singleton.mp member
      exact ⟨rfl, known, by rw [nothing]; rfl⟩
  · cases handles
    exact still _ (by simp) (by simp) (by simp [todoOf])
  · cases handles
    refine { still (.writing []) (by simp) (by simp) (by simp [todoOf]) with
      loggingOut := by simp [todoOf], underway := ?_, reading := by simp }
    intro deletion same
    cases same
    exact AccountDeletion.begin_own_rows user.userId
  · cases handles
    exact still _ (by simp) (by simp) (by simp [todoOf])

theorem has_of_view (writes : Writes) (user : writes.user = none)
    (userId : Uuid) (has : (writes.apply credentials system).users.Has userId) :
    system.users.Has userId := by
  have known := ((apply_users_has credentials writes system userId).mp has).1
  rw [user] at known
  simpa using known

theorem relies_wrote (relies : Relies credentials values system history id txn) (shaped : Shaped txn)
    (drawn : draw.rawToken ∈ values) (write : Write) (rest : List Write) (writes : Writes)
    (writing : txn.stage = .writing (write :: rest))
    (performed : Performed credentials draw (txn.writes.apply credentials system) txn.writes write
      writes) :
    Relies credentials values system history id ⟨txn.route, .writing rest, writes⟩ := by
  have fits := shaped.stage
  rw [writing] at fits
  have belongs := fits.2 write List.mem_cons_self
  have leaves : ∀ rawToken, Write.deleteSession rawToken ∉ todoOf (.writing rest) := by
    intro rawToken member
    have sole := relies.loggingOut rawToken
    rw [writing] at sole
    have same := (sole (List.mem_cons_of_mem _ member)).1
    have empty : rest = [] := (List.cons_eq_cons.mp same).2
    rw [todoOf, empty] at member
    cases member
  have still := fun writes => relies_still credentials values system history id txn relies
    (.writing rest) writes
  cases performed with
  | user user fresh =>
      refine { still txn.writes rfl rfl rfl rfl (by simp) (by simp) leaves with
        user := ?_, session := relies.session, dropped := relies.dropped
        deletion := relies.deletion, loggingOut := fun rawToken member => absurd member (leaves rawToken) }
      intro added same has
      cases same
      have kind : routeKind txn.route ≠ .deleteMe := by
        intro deletes
        have created := deletes.symm.trans belongs
        unfold creating at created
        split_ifs at created
      apply fresh
      rw [apply_users_has]
      refine ⟨Or.inl has, ?_⟩
      rw [shaped.writes.no_deletion kind]
      simp
  | key userId row => exact still _ rfl rfl rfl rfl (by simp) (by simp) leaves
  | token userId purpose ttl refers fresh =>
      exact still _ rfl rfl rfl rfl (by simp) (by simp) leaves
  | auditEntry readerId subjectId => exact still _ rfl rfl rfl rfl (by simp) (by simp) leaves
  | session userId refers fresh =>
      have kind : routeKind txn.route = .login := belongs
      have noUser := shaped.writes.no_user (by simp [kind]) (by simp [kind])
      refine { still txn.writes rfl rfl rfl rfl (by simp) (by simp) leaves with
        session := ?_, user := relies.user, dropped := relies.dropped
        deletion := relies.deletion, loggingOut := fun rawToken member => absurd member (leaves rawToken) }
      intro login same
      cases same
      refine ⟨drawn, has_of_view credentials system _ noUser userId refers, fun has => fresh ?_⟩
      obtain ⟨row, stored, hash⟩ := List.mem_map.mp has
      refine List.mem_map.mpr ⟨row, (mem_apply_sessions credentials _ _ row).mpr ?_, hash⟩
      refine ⟨Or.inl stored, ?_, ?_⟩
      · rw [shaped.writes.no_dropped (by simp [kind])]
        simp
      · intro deletion deletes
        rw [shaped.writes.no_deletion (by simp [kind])] at deletes
        cases deletes
  | password unmatched userId password knownSince matched =>
      exact still _ rfl rfl rfl rfl (by simp) (by simp) leaves
  | dropped rawToken =>
      have sole := relies.loggingOut rawToken
      rw [writing] at sole
      obtain ⟨_, issued, none⟩ := sole List.mem_cons_self
      have kind : routeKind txn.route = .logout := by
        have route : txn.route = .logout (some rawToken) := belongs
        rw [route]
        rfl
      have untouched := sessions_untouched credentials system txn.writes
        (shaped.writes.no_session (by simp [kind])) none (shaped.writes.no_deletion (by simp [kind]))
      refine { still txn.writes rfl rfl rfl rfl (by simp) (by simp) leaves with
        dropped := ?_, user := relies.user, session := relies.session
        deletion := relies.deletion, loggingOut := fun rawToken member => absurd member (leaves rawToken) }
      intro dropped same
      cases same
      exact ⟨issued, by rw [untouched]⟩
  | connection userId exchangedToken accountHash row owned =>
      exact still _ rfl rfl rfl rfl (by simp) (by simp) leaves

theorem relies_goes (distinct : Set.InjOn credentials.hashToken values)
    (recorded : Recorded credentials values system history)
    (relies : Relies credentials values system history id txn) (shaped : Shaped txn)
    (drawn : draw.rawToken ∈ values) (stage : Stage) (writes : Writes)
    (goes : Goes credentials txn draw history.length (txn.writes.apply credentials system) stage
      writes) :
    Relies credentials values system history id ⟨txn.route, stage, writes⟩ := by
  have fits := shaped.stage
  have still := relies_still credentials values system history id txn relies
  cases goes with
  | lock username route arrived => exact still _ _ rfl rfl rfl rfl (by simp) (by simp) (by simp [todoOf])
  | lookup username password userId storedHash route arrived verified =>
      refine still _ _ rfl rfl rfl rfl (by simp) (by simp) ?_
      intro rawToken member
      have belongs : txn.route = .logout (some rawToken) :=
        login_writes_belong credentials txn.route (by rw [route]; rfl) _ _ _ _ _ member
      rw [route] at belongs
      cases belongs
  | session rawToken userId route arrived read =>
      rw [arrived] at fits
      have nothing : txn.writes = .nothing := fits
      rw [nothing, nothing_apply] at read
      obtain ⟨login, named, live, owner, unexpired, there⟩ := read_session_ok credentials values
        system history recorded distinct rawToken (relies.known rawToken route) draw.now userId read
      refine ⟨relies.known, relies.user, relies.session, relies.dropped, relies.deletion, by simp,
        ?_, by simp [todoOf]⟩
      intro reading same
      cases same
      refine ⟨Nat.le_refl _, ⟨login, named ▸ route, ?_, owner, unexpired, ?_⟩, ?_⟩
      · rw [List.take_length]
        exact live
      · rw [List.take_length]
        exact recorded.ended login live
      · simp [there]
  | bootstrap username route locked noAdmin =>
      exact still _ _ rfl rfl rfl rfl (by simp) (by simp) (by simp [todoOf])
  | handled reading caller stage read found handles =>
      rw [read] at fits
      exact relies_handled credentials values system history id txn relies reading read fits.1 _ _
        stage handles
  | unmatched rawToken purpose consuming =>
      exact still _ _ rfl rfl rfl rfl (by simp) (by simp) (by simp [todoOf])
  | matched rawToken purpose row consuming matched =>
      exact still _ _ rfl rfl rfl rfl (by simp) (by simp) (by simp [todoOf])
  | wrote write rest writes writing performed =>
      exact relies_wrote credentials values system history id txn draw relies shaped drawn write rest
        writes writing performed
  | removed deletion later table rest deleting ran =>
      refine ⟨relies.known, relies.user, relies.session, relies.dropped, relies.deletion, ?_, by simp,
        by simp [todoOf]⟩
      intro gone same
      cases same
      exact (AccountDeletion.statement_own_rows deletion later _ table rest
        (relies.underway deletion deleting) ran).2
  | deleted deletion after deleting ran =>
      rw [deleting] at fits
      rw [fits.1, nothing_apply] at ran
      refine ⟨relies.known, relies.user, relies.session, relies.dropped, ?_, by simp, by simp,
        by simp [todoOf]⟩
      intro gone same
      cases same
      refine ⟨relies.underway deletion deleting, ?_⟩
      intro row member owner
      have stored : Row.session row ∈ system.rows := by simp [System.rows, member]
      apply AccountDeletion.mem_removed_of_not_seen deletion system _ stored
      intro seen
      unfold AccountDeletion.finish at ran
      split at ran
      · cases ran
      · rename_i clear
        have refers : (Row.session row).Refers deletion.userId := by
          simp [Row.Refers, Row.userColumns, owner]
        exact absurd refers (by simpa using List.find?_eq_none.mp clear _ seen)

/-! ## What another commit leaves to rely on -/

variable (otherId : Nat) (other : Txn)

/-- A user whose row is locked in any way is not deleted. -/
theorem owner_stays (userId : Uuid) (mode : Mode) (locks : mode.clashes .update = true)
    (lock : ⟨.user userId, mode⟩ ∈ txn.holds credentials)
    (apart : clash (txn.holds credentials) (other.holds credentials) = false)
    (has : system.users.Has userId) : (systemAfter credentials system other).users.Has userId := by
  unfold systemAfter
  rw [apply_users_has]
  refine ⟨Or.inl has, fun same => ?_⟩
  obtain ⟨deletion, deletes, owner⟩ := Option.map_eq_some_iff.mp same
  have held := (deletion_held credentials other deletion deletes).1
  rw [owner] at held
  exact no_clash _ _ apart _ _ _ lock held locks

/-- Nobody else adds a session under a value whose row is held. -/
theorem session_stays_free (tokenHash : String)
    (update : ⟨.session tokenHash, .update⟩ ∈ txn.holds credentials)
    (apart : clash (txn.holds credentials) (other.holds credentials) = false)
    (free : ¬system.sessions.Has tokenHash) :
    ¬(systemAfter credentials system other).sessions.Has tokenHash := by
  intro has
  obtain ⟨row, stored, hash⟩ := List.mem_map.mp has
  cases ((mem_apply_sessions credentials _ _ row).mp stored).1 with
  | inl old => exact free (List.mem_map.mpr ⟨row, old, hash⟩)
  | inr new =>
      obtain ⟨login, session, same⟩ := Option.map_eq_some_iff.mp new.1
      have held := (session_held credentials other login session).1
      have sameHash : credentials.hashToken login.rawToken = tokenHash := by rw [← hash, ← same]; rfl
      rw [sameHash] at held
      exact no_clash _ _ apart _ _ _ update held rfl

theorem user_stays_new (user : User) (update : ⟨.user user.id, .update⟩ ∈ txn.holds credentials)
    (apart : clash (txn.holds credentials) (other.holds credentials) = false)
    (free : ¬system.users.Has user.id) :
    ¬(systemAfter credentials system other).users.Has user.id := by
  unfold systemAfter
  rw [apply_users_has]
  rintro ⟨old | new, _⟩
  · exact free old
  · obtain ⟨added, adds, same⟩ := Option.map_eq_some_iff.mp new
    have held := user_held credentials other added adds
    rw [same] at held
    exact no_clash _ _ apart _ _ _ update held rfl

/-- What the `DELETE` of a logout matched is what is under its value. -/
theorem dropped_stays (distinct : Set.InjOn credentials.hashToken values)
    (recorded : Recorded credentials values system history)
    (theirs : Relies credentials values system history otherId other)
    (fresh : ∀ login, other.writes.session = some login → ¬Issued history login.rawToken)
    (apart : clash (txn.holds credentials) (other.holds credentials) = false)
    (dropped : Dropped) (logout : txn.writes.dropped = some dropped)
    (issued : Issued history dropped.rawToken)
    (current : system.sessions.get? (credentials.hashToken dropped.rawToken) = dropped.row) :
    (systemAfter credentials system other).sessions.get? (credentials.hashToken dropped.rawToken) =
      dropped.row := by
  cases found : dropped.row with
  | some row =>
      rw [found] at current
      have stored := (get_eq_some_iff _ _ _).mp current
      have held := dropped_held credentials txn dropped row logout found
      refine (get_eq_some_iff _ _ _).mpr ⟨(mem_apply_sessions credentials _ _ row).mpr ?_, stored.2⟩
      refine ⟨Or.inl stored.1, ?_, ?_⟩
      · intro same
        obtain ⟨theirDropped, theirLogout, theirRow⟩ := Option.bind_eq_some_iff.mp same
        have theirHeld := dropped_held credentials other theirDropped row theirLogout theirRow
        exact no_clash _ _ apart _ _ _ held theirHeld rfl
      · intro deletion deletes removed
        have theirHeld := (deletion_held credentials other deletion deletes).2 _ removed
        exact no_clash _ _ apart _ _ _ held theirHeld rfl
  | none =>
      rw [found] at current
      have absent := (get_eq_none_iff _ _).mp current
      refine (get_eq_none_iff _ _).mpr fun has => ?_
      obtain ⟨row, stored, hash⟩ := List.mem_map.mp has
      cases ((mem_apply_sessions credentials _ _ row).mp stored).1 with
      | inl old => exact absent (List.mem_map.mpr ⟨row, old, hash⟩)
      | inr new =>
          obtain ⟨login, session, same⟩ := Option.map_eq_some_iff.mp new.1
          obtain ⟨entry, member, issuedNamed⟩ := issued
          obtain ⟨first, firstIssued, firstNamed⟩ := Option.map_eq_some_iff.mp issuedNamed
          have droppedKnown : dropped.rawToken ∈ values :=
            firstNamed ▸ recorded.known entry member first firstIssued
          have named : login.rawToken = dropped.rawToken := by
            apply distinct (theirs.session login session).1 droppedKnown
            rw [← hash, ← same]
            rfl
          exact fresh login session ⟨entry, member, named ▸ issuedNamed⟩

theorem covers_stays (apart : clash (txn.holds credentials) (other.holds credentials) = false)
    (deletion : AccountDeletion) (deletes : txn.writes.deletion = some deletion)
    (covers : ∀ row ∈ system.sessions.rows, row.userId = deletion.userId →
      Row.session row ∈ deletion.removed) :
    ∀ row ∈ (systemAfter credentials system other).sessions.rows, row.userId = deletion.userId →
      Row.session row ∈ deletion.removed := by
  intro row stored owner
  cases ((mem_apply_sessions credentials _ _ row).mp stored).1 with
  | inl old => exact covers row old owner
  | inr new =>
      obtain ⟨login, session, same⟩ := Option.map_eq_some_iff.mp new.1
      have held := (deletion_held credentials txn deletion deletes).1
      have theirHeld := (session_held credentials other login session).2
      have sameUser : login.userId = deletion.userId := by rw [← owner, ← same]; rfl
      rw [sameUser] at theirHeld
      exact (no_clash _ _ apart _ _ _ held theirHeld rfl).elim

/-- A user once deleted stays deleted, so to be there is not to have been
deleted. -/
theorem reading_concat (next : System) (last : Entry) (route : Route) (reading : Reading)
    (sound : ReadingSound system history route reading)
    (there : next.users.Has reading.userId ↔
      system.users.Has reading.userId ∧ ¬Deletes reading.userId last) :
    ReadingSound next (history ++ [last]) route reading := by
  refine ⟨?_, ?_, ?_⟩
  · rw [List.length_append]
    exact Nat.le_add_right_of_le sound.past
  · rw [List.take_append_of_le_length sound.past]
    exact sound.found
  · rw [List.drop_append_of_le_length sound.past, there, sound.there, List.forall_mem_append,
      List.forall_mem_singleton]

theorem reading_stays (theirs : Relies credentials values system history otherId other)
    (fresh : ∀ user, other.writes.user = some user → ∀ entry ∈ history, ¬Deletes user.id entry)
    (route : Route) (reading : Reading) (sound : ReadingSound system history route reading) :
    ReadingSound (systemAfter credentials system other) (historyAfter history otherId other) route
      reading := by
  have notNew : other.writes.user.map User.id ≠ some reading.userId := by
    intro new
    obtain ⟨added, adds, same⟩ := Option.map_eq_some_iff.mp new
    by_cases has : system.users.Has reading.userId
    · exact theirs.user added adds (same ▸ has)
    · apply has
      refine sound.there.mpr fun later member gone => ?_
      exact fresh added adds later (List.mem_of_mem_drop member) (same ▸ gone)
  apply reading_concat system history _ _ route reading sound
  rw [systemAfter, apply_users_has, or_iff_left notNew]
  exact Iff.rfl

theorem relies_others (distinct : Set.InjOn credentials.hashToken values)
    (recorded : Recorded credentials values system history)
    (relies : Relies credentials values system history id txn)
    (theirs : Relies credentials values system history otherId other)
    (fresh : (unrepeated values).commit history other)
    (apart : clash (txn.holds credentials) (other.holds credentials) = false) :
    Relies credentials values (systemAfter credentials system other)
      (historyAfter history otherId other) id txn where
  known := relies.known
  user user adds := user_stays_new credentials system txn other user
    (user_held credentials txn user adds) apart (relies.user user adds)
  session login session := by
    have held := session_held credentials txn login session
    obtain ⟨known, owner, free⟩ := relies.session login session
    exact ⟨known, owner_stays credentials system txn other login.userId .keyShare rfl held.2
      apart owner,
      session_stays_free credentials system txn other _ held.1 apart free⟩
  dropped dropped logout := by
    obtain ⟨issued, current⟩ := relies.dropped dropped logout
    exact ⟨issued_grows _ _ _ issued, dropped_stays credentials values system history txn otherId
      other distinct recorded theirs fresh.1 apart dropped logout issued current⟩
  deletion deletion deletes := by
    obtain ⟨own, covers⟩ := relies.deletion deletion deletes
    exact ⟨own, covers_stays credentials system txn other apart deletion deletes covers⟩
  underway := relies.underway
  reading reading read := reading_stays credentials values system history otherId other theirs
    fresh.2 txn.route reading (relies.reading reading read)
  loggingOut rawToken member := by
    obtain ⟨sole, issued, none⟩ := relies.loggingOut rawToken member
    exact ⟨sole, issued_grows _ _ _ issued, none⟩

/-! ## The invariant of every run -/

theorem recorded_elsewhere (ledger : Database) (positions : KeyedTable Position.id)
    (recorded : Recorded credentials values system history) :
    Recorded credentials values { system with ledger := ledger, positions := positions }
      (history ++ [.elsewhere ledger positions]) := by
  have live := live_quiet history (.elsewhere ledger positions) ⟨rfl, rfl, rfl⟩
  have old : ∀ entry ∈ history ++ [Entry.elsewhere ledger positions], ∀ login,
      entry.writes.session = some login → entry ∈ history := by
    intro entry member login session
    cases List.mem_append.mp member with
    | inl old => exact old
    | inr new =>
        rw [List.mem_singleton.mp new] at session
        cases session
  refine ⟨?_, recorded.owners, ?_, ?_, ?_, ?_⟩
  · intro row
    simp only [live]
    exact recorded.rows row
  · intro entry member login session
    exact recorded.known entry (old entry member login session) login session
  · intro rawToken entry member out
    cases List.mem_append.mp member with
    | inl old => exact issued_grows _ _ _ (recorded.loggedOut rawToken entry old out)
    | inr new =>
        rw [List.mem_singleton.mp new] at out
        cases out
  · intro login alive ended
    rcases ended_concat _ _ _ ended with before | out | ⟨_, _, _, _, _, gone⟩
    · exact recorded.ended login ((live login).mp alive) before
    · cases out
    · cases gone
  · intro left leftMember right rightMember one two leftSession rightSession named
    exact recorded.unique left (old left leftMember one leftSession) right
      (old right rightMember two rightSession) one two leftSession rightSession named

theorem relies_elsewhere (ledger : Database) (positions : KeyedTable Position.id)
    (relies : Relies credentials values system history id txn) :
    Relies credentials values { system with ledger := ledger, positions := positions }
      (history ++ [.elsewhere ledger positions]) id txn where
  known := relies.known
  user := relies.user
  session := relies.session
  dropped dropped logout := by
    obtain ⟨issued, current⟩ := relies.dropped dropped logout
    exact ⟨issued_grows _ _ _ issued, current⟩
  deletion := relies.deletion
  underway := relies.underway
  reading reading read := by
    apply reading_concat system history _ _ txn.route reading (relies.reading reading read)
    exact (and_iff_left nofun).symm
  loggingOut rawToken member := by
    obtain ⟨sole, issued, none⟩ := relies.loggingOut rawToken member
    exact ⟨sole, issued_grows _ _ _ issued, none⟩

/-- A transaction that has written nothing yet and is not about to log out. -/
theorem relies_nothing (route : Route) (stage : Stage)
    (known : ∀ rawToken, route.session? = some (some rawToken) → rawToken ∈ values)
    (notDeleting : ∀ deletion, stage ≠ .deleting deletion)
    (notReading : ∀ reading, stage ≠ .sessionRead reading)
    (notLeaving : ∀ rawToken, Write.deleteSession rawToken ∉ todoOf stage) :
    Relies credentials values system history id ⟨route, stage, .nothing⟩ where
  known := known
  user user added := by cases added
  session login session := by cases session
  dropped dropped logout := by cases logout
  deletion deletion deletes := by cases deletes
  underway deletion same := absurd same (notDeleting deletion)
  reading reading same := absurd same (notReading reading)
  loggingOut rawToken member := absurd member (notLeaving rawToken)

theorem relies_continues (route : Route) (position : Nat) (purpose : TokenPurpose)
    (row : Option SetupToken) (stage : Stage)
    (known : ∀ rawToken, route.session? = some (some rawToken) → rawToken ∈ values)
    (after : afterConsumed position purpose row route = .ok stage) :
    Relies credentials values system history id ⟨route, stage, .nothing⟩ := by
  have begun := fun stage => relies_nothing credentials values system history id route stage known
  unfold afterConsumed at after
  split at after
  · split at after
    · cases after
      exact begun _ (by simp) (by simp) (by simp [todoOf])
    · split at after <;> cases after
      exact begun _ (by simp) (by simp) (by simp [todoOf])
  · split at after
    · cases after
    · split at after <;> cases after
      exact begun _ (by simp) (by simp) (by simp [todoOf])
  · cases after

theorem authority_kept (distinct : Set.InjOn credentials.hashToken values) :
    Kept credentials (unrepeated values) (Recorded credentials values)
      (Relies credentials values) where
  arrives := by
    intro system history id route _ known _
    apply relies_nothing credentials values system history id route _ known
    · cases route <;> simp [Route.firstStage]
    · cases route <;> simp [Route.firstStage]
    · cases route <;> simp [Route.firstStage, todoOf]
  goesOn := by
    intro system history id txn draw stage writes recorded relies shaped drawn goes
    exact relies_goes credentials values system history id txn draw distinct recorded relies shaped
      drawn stage writes goes
  commits := by
    intro system history id txn recorded relies shaped _ fresh
    exact recorded_after credentials values system history id txn distinct recorded relies shaped
      fresh.1
  continues := by
    intro system history id txn purpose row stage _ relies _ _ after _
    exact relies_continues credentials values _ _ id txn.route _ purpose row stage relies.known after
  others := by
    intro system history id txn otherId other recorded relies theirs _ _ fresh _ apart
    exact relies_others credentials values system history id txn otherId other distinct recorded
      relies theirs fresh apart
  elsewhereStore := by
    intro system history ledger positions recorded
    exact recorded_elsewhere credentials values system history ledger positions recorded
  elsewhereEach := by
    intro system history id txn ledger positions _ relies
    exact relies_elsewhere credentials values system history id txn ledger positions relies

end Invariant

end Morai.Identity.LiveSessions
