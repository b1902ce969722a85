import Morai.Identity.DataKeys
import Morai.Identity.LiveSessions

/-!
# Whose session a cookie is

The two queries of `get_current_user` see exactly what the commits so far make
of a cookie, however the requests interleave.
-/

namespace Morai.Identity.SessionAuthority

open Morai.Crypto Morai.Db Morai.Python Morai.Foundation.PrimaryKey Morai.Foundation.Runs
open Morai.Identity.Tables Morai.Identity.Requests Morai.Identity.DataKeys
open Morai.Identity.ConcurrentRequests Morai.Identity.RequestSteps Morai.Identity.RequestInvariants
open Morai.Identity.LiveSessions

set_option autoImplicit false

/-! ## The checks -/

/-- The value was handed out for the user less than the session lifetime ago
and is neither logged out nor, by the time the request has its answer, is the
user deleted. -/
def Authorised (check : Check) (rawToken : String) (userId : Uuid) : Prop :=
  ∃ login, LiveLogin check.before login ∧ login.rawToken = rawToken ∧ login.userId = userId ∧
    check.now < login.issuedAt + sessionCookieTtl ∧
    ∀ later ∈ check.between, ¬Deletes userId later

section Checks

variable (credentials : Credentials) (values : Set String) (system : System)
  (history : List Entry) (id : Nat) (txn : Txn) (draw : Draw)

/-- A request authenticates as the user its cookie is a live session of, and
never once the session has ended. -/
structure CheckSound (check : Check) : Prop where
  authenticates : ∀ userId, check.outcome = some userId ↔
    ∃ rawToken, check.cookie = some rawToken ∧ Authorised check rawToken userId
  neverAgain : ∀ rawToken, check.cookie = some rawToken → Ended check.before rawToken →
    check.outcome = none

/-- A cookie that the first query does not accept is nobody's. -/
theorem rejected_sound (recorded : Recorded credentials values system history)
    (cookie : Option String) (now : Instant) (failure : Failure)
    (rejected : readSession credentials cookie now system = .error failure) :
    CheckSound ⟨cookie, now, history, [], none⟩ := by
  refine ⟨fun userId => ⟨nofun, ?_⟩, fun _ _ _ => rfl⟩
  rintro ⟨rawToken, sent, login, live, named, _, unexpired, _⟩
  have accepted := read_session_of_live credentials values system history recorded login live now
    unexpired
  rw [named, ← sent, rejected] at accepted
  cases accepted

/-- A cookie the first query accepted is its user's as long as the user is
there. -/
theorem read_sound (recorded : Recorded credentials values system history) (route : Route)
    (cookie : Option String) (session : route.session? = some cookie) (reading : Reading)
    (sound : ReadingSound system history route reading) :
    CheckSound ⟨cookie, reading.now, history.take reading.readAt, history.drop reading.readAt,
      (system.users.get? reading.userId).map fun _ => reading.userId⟩ := by
  obtain ⟨login, sent, live, owner, unexpired, notEnded⟩ := sound.found
  have cookieSent : cookie = some login.rawToken := by
    rw [session] at sent
    exact Option.some.inj sent
  refine ⟨fun userId => ?_, ?_⟩
  · dsimp only
    rw [Option.map_eq_some_iff]
    constructor
    · rintro ⟨caller, found, same⟩
      have has : system.users.Has reading.userId := has_of_get _ _ _ found
      exact ⟨login.rawToken, cookieSent, login, live, rfl, owner.trans same, unexpired,
        same ▸ sound.there.mp has⟩
    · rintro ⟨rawToken, sentRaw, other, otherLive, named, otherOwner, _, kept⟩
      rw [cookieSent] at sentRaw
      obtain ⟨entry, member, issued⟩ := issued_of_live _ login live
      obtain ⟨otherEntry, otherMember, otherIssued⟩ := issued_of_live _ other otherLive
      have same : other = login := recorded.unique otherEntry (List.mem_of_mem_take otherMember)
        entry (List.mem_of_mem_take member) other login otherIssued issued
        (named.trans (Option.some.inj sentRaw).symm)
      have user : reading.userId = userId := by rw [← owner, ← same, otherOwner]
      have has := sound.there.mpr (user ▸ kept)
      cases found : system.users.get? reading.userId with
      | none => exact absurd has ((get_eq_none_iff _ _).mp found)
      | some caller => exact ⟨caller, rfl, user⟩
  · intro rawToken sentRaw ended
    rw [cookieSent] at sentRaw
    rw [← Option.some.inj sentRaw] at ended
    exact absurd ended notEnded

theorem check_of_sound (recorded : Recorded credentials values system history)
    (relies : Relies credentials values system history id txn) (shaped : Shaped txn)
    (check : Check)
    (member : check ∈ checkOf credentials txn draw history (txn.writes.apply credentials system)) :
    CheckSound check := by
  have fits := shaped.stage
  unfold checkOf at member
  split at member
  · rename_i cookie session arrived
    rw [arrived] at fits
    have nothing : txn.writes = .nothing := fits
    rw [nothing, nothing_apply] at member
    split at member
    · rename_i failure rejected
      rw [List.mem_singleton.mp member]
      exact rejected_sound credentials values system history recorded cookie draw.now failure rejected
    · cases member
  · rename_i cookie reading session read
    rw [read] at fits
    rw [fits.1, nothing_apply] at member
    rw [List.mem_singleton.mp member]
    exact read_sound credentials values system history recorded txn.route cookie session reading
      (relies.reading reading read)
  · cases member

end Checks

/-! ## Every run -/

section Runs

variable (keys : KeyService) (credentials : Credentials) (values : Set String)

/-- What may be relied on in every reachable state: who hands out sessions, the
checks made so far, and what the next logout does to other cookies. -/
structure Authoritative (state : State) : Prop where
  handedOut : ∀ entry ∈ state.history, ∀ login, entry.writes.session = some login →
    ∃ id username password writes, entry = .request id (.login username password) writes
  checks : ∀ check ∈ state.checks, CheckSound check
  othersKept : ∀ id later rawToken entry,
    step keys credentials state (.commit id) = some later →
    later.history = state.history ++ [entry] → LogsOut rawToken entry →
    ∀ other ∈ values, other ≠ rawToken → ∀ now,
      currentUser credentials (some other) now later.system =
        currentUser credentials (some other) now state.system

variable {keys credentials values}

theorem step_checks (state : State) (action : Action) (later : State)
    (holds : Holds credentials (Recorded credentials values) (Relies credentials values) state)
    (sound : ∀ check ∈ state.checks, CheckSound check)
    (stepped : step keys credentials state action = some later) :
    ∀ check ∈ later.checks, CheckSound check := by
  have grown : ∀ id txn draw, state.opened.txns id = some txn →
      ∀ check ∈ checksAfter credentials state txn draw, CheckSound check := by
    intro id txn draw found check member
    cases List.mem_append.mp member with
    | inl old => exact sound check old
    | inr new =>
        exact check_of_sound credentials values state.system state.history id txn draw holds.store
          (holds.each id txn found) (holds.shaped id txn found) check new
  cases step_cases keys credentials state later action stepped with
  | arrive route => exact sound
  | goesOn id draw txn stage writes found goes present free => exact grown id txn draw found
  | ends id draw txn answer found ran => exact grown id txn draw found
  | commits id txn answer kept found past => exact sound
  | continues id txn purpose row stage found consumed after present free => exact sound
  | rollback id => exact sound
  | elsewhere ledger positions => exact sound

/-- A logout takes away one row, and no user. -/
theorem logout_keeps_others (distinct : Set.InjOn credentials.hashToken values) (system : System)
    (history : List Entry) (id : Nat) (txn : Txn)
    (recorded : Recorded credentials values system history)
    (relies : Relies credentials values system history id txn) (shaped : Shaped txn)
    (dropped : Dropped) (logout : txn.writes.dropped = some dropped) (other : String)
    (known : other ∈ values) (differ : other ≠ dropped.rawToken) (now : Instant) :
    currentUser credentials (some other) now (txn.writes.apply credentials system) =
      currentUser credentials (some other) now system := by
  obtain ⟨session, deletion, user, password⟩ := dropped_alone _ _ shaped.writes dropped logout
  obtain ⟨⟨entry, member, issuedNamed⟩, current⟩ := relies.dropped dropped logout
  obtain ⟨first, issued, named⟩ := Option.map_eq_some_iff.mp issuedNamed
  have droppedKnown : dropped.rawToken ∈ values :=
    named ▸ recorded.known entry member first issued
  have sameUsers : (txn.writes.apply credentials system).users = system.users := by
    rw [apply_users, deletion, password, user]
    rfl
  have hashes : credentials.hashToken other ≠ credentials.hashToken dropped.rawToken :=
    fun same => differ (distinct known droppedKnown same)
  have sameRow : (txn.writes.apply credentials system).sessions.get? (credentials.hashToken other) =
      system.sessions.get? (credentials.hashToken other) := by
    apply Option.ext
    intro row
    rw [get_eq_some_iff, get_eq_some_iff,
      rows_after_logout credentials system _ dropped logout session deletion current]
    constructor
    · rintro ⟨⟨stored, _⟩, hash⟩
      exact ⟨stored, hash⟩
    · rintro ⟨stored, hash⟩
      exact ⟨⟨stored, hash ▸ hashes⟩, hash⟩
  simp only [currentUser, sameRow, sameUsers]

theorem others_kept (distinct : Set.InjOn credentials.hashToken values) (state later : State)
    (holds : Holds credentials (Recorded credentials values) (Relies credentials values) state)
    (id : Nat) (rawToken : String) (entry : Entry)
    (stepped : step keys credentials state (.commit id) = some later)
    (appended : later.history = state.history ++ [entry]) (out : LogsOut rawToken entry)
    (other : String) (known : other ∈ values) (differ : other ≠ rawToken) (now : Instant) :
    currentUser credentials (some other) now later.system =
      currentUser credentials (some other) now state.system := by
  have entryOf : ∀ last : Entry, state.history ++ [last] = state.history ++ [entry] →
      last = entry :=
    fun last same => List.singleton_inj.mp (List.append_cancel_left same)
  obtain ⟨dropped, logout, named⟩ := Option.map_eq_some_iff.mp out
  cases step_cases keys credentials state later _ stepped with
  | commits id txn answer kept found past =>
      have same := entryOf _ appended
      subst same
      exact logout_keeps_others distinct state.system state.history id txn holds.store
        (holds.each id txn found) (holds.shaped id txn found) dropped logout other known
        (named ▸ differ) now
  | continues id txn purpose row stage found consumed after present free =>
      have same := entryOf _ appended
      subst same
      exact logout_keeps_others distinct state.system state.history id txn holds.store
        (holds.each id txn found) (holds.shaped id txn found) dropped logout other known
        (named ▸ differ) now

/-- Only `/login` adds a session. -/
theorem session_of_login (entry : Entry) (belongs : EntryBelongs entry) (login : Login)
    (session : entry.writes.session = some login) :
    ∃ id username password writes, entry = .request id (.login username password) writes := by
  cases entry with
  | request id route writes =>
      have kind := WritesBelong.session belongs login session
      cases route with
      | login username password => exact ⟨id, username, password, writes, rfl⟩
      | _ => cases kind
  | elsewhere ledger positions => cases session

variable (keys credentials)

/-- The values a run presents or draws. -/
def valuesOf (actions : List Action) : Set String :=
  fun rawToken => ∃ action ∈ actions, rawToken ∈ action.rawTokens

theorem allowed_of_unrepeated (actions : List Action) (state : State) (action : Action)
    (member : action ∈ actions) (fresh : Unrepeated state action) :
    (unrepeated (valuesOf actions)).Allowed state action := by
  cases action with
  | arrive route =>
      intro rawToken session
      exact ⟨_, member, by simp [Action.rawTokens, session]⟩
  | execute id draw => exact ⟨_, member, List.mem_singleton.mpr rfl⟩
  | commit id => exact fresh
  | rollback id => trivial
  | elsewhere ledger positions => trivial

def withoutSessions (system : System) : System := { system with sessions := .empty }

theorem nobody_live (login : Login) : ¬LiveLogin [] login := by
  rintro ⟨before, entry, after, whole, _⟩
  have lengths := congrArg List.length whole
  simp at lengths

theorem recorded_start (initial : System) :
    Recorded credentials values (withoutSessions initial) [] := by
  have noRows : (withoutSessions initial).sessions.rows = [] := rfl
  refine ⟨?_, ?_, ?_, ?_, ?_, ?_⟩
  · intro row
    rw [noRows]
    constructor
    · intro member
      exact absurd member List.not_mem_nil
    · rintro ⟨login, live, _⟩
      exact absurd live (nobody_live login)
  · intro row member
    rw [noRows] at member
    exact absurd member List.not_mem_nil
  · intro entry member
    exact absurd member List.not_mem_nil
  · intro rawToken entry member
    exact absurd member List.not_mem_nil
  · intro login live
    exact absurd live (nobody_live login)
  · intro left member
    exact absurd member List.not_mem_nil

/-- In every run of requests served at once, from no session on: a request
authenticates exactly as its cookie is worth, a session that has ended stays
ended, and a logout leaves every other cookie as it was. -/
theorem sessions_are_authority (initial : System) (actions : List Action) (final : State)
    (distinct : Set.InjOn credentials.hashToken (valuesOf actions))
    (fresh : Meets (step keys credentials) Unrepeated actions (start (withoutSessions initial)))
    (ran : runFrom (step keys credentials) actions (start (withoutSessions initial)) = some final) :
    Authoritative keys credentials (valuesOf actions) final := by
  let values := valuesOf actions
  have started : Holds credentials (Recorded credentials values) (Relies credentials values)
      (start (withoutSessions initial)) :=
    holds_start _ (recorded_start credentials initial)
  have meets := meets_mono (step keys credentials) Unrepeated (unrepeated values).Allowed actions _
    (allowed_of_unrepeated actions) fresh
  obtain ⟨holds, sound⟩ := run_keeps (step keys credentials) (unrepeated values).Allowed
    (fun state => Holds credentials (Recorded credentials values) (Relies credentials values) state ∧
      ∀ check ∈ state.checks, CheckSound check)
    (fun state action next held allowed stepped =>
      ⟨step_keeps keys (authority_kept credentials values distinct) state action next held.1 allowed
          stepped,
        step_checks state action next held.1 held.2 stepped⟩)
    actions _ final ⟨started, fun check member => absurd member List.not_mem_nil⟩ meets ran
  refine ⟨?_, sound, ?_⟩
  · intro entry member login session
    exact session_of_login entry (holds.belongs entry member) login session
  · intro id later rawToken entry stepped appended out other known differ now
    exact others_kept distinct final later holds id rawToken entry stepped appended out other known
      differ now

def oneAccount : KeyedTable User.id := ⟨[⟨⟨1⟩, "user", some "password", false⟩], by decide⟩

/-- Two sessions of one account; a request with the first, which is then
logged out, and one with each after that. -/
def twoSessions : List Action :=
  let request (route : Route) (id statements : Nat) (rawToken : String) : List Action :=
    .arrive route :: List.replicate statements (.execute id (drawing 0 ⟨9⟩ rawToken)) ++ [.commit id]
  request (.login "user" "password") 0 2 "first-session" ++
    request (.login "user" "password") 1 2 "second-session" ++
    request (.visit (some "first-session")) 2 2 "" ++
    request (.logout (some "first-session")) 3 3 "" ++
    [.arrive (.visit (some "first-session")), .execute 4 (drawing 0 ⟨9⟩ "")] ++
    request (.visit (some "second-session")) 5 2 ""

theorem sessions_are_authority_two : ∃ final,
    runFrom (step plainKeys plainCredentials) twoSessions
        (start (withoutSessions { System.empty with users := oneAccount })) = some final ∧
      final.checks.map Check.outcome = [some ⟨1⟩, some ⟨1⟩, none, some ⟨1⟩] ∧
      Authoritative plainKeys plainCredentials (valuesOf twoSessions) final := by
  have computed : (runFrom (step plainKeys plainCredentials) twoSessions
      (start (withoutSessions { System.empty with users := oneAccount }))).any (fun final =>
        final.checks.map Check.outcome = [some ⟨1⟩, some ⟨1⟩, none, some ⟨1⟩]) = true := by
    decide +kernel
  have fresh : Meets (step plainKeys plainCredentials) Unrepeated twoSessions
      (start (withoutSessions { System.empty with users := oneAccount })) := by
    decide +kernel
  obtain ⟨present, outcomes⟩ := (Option.any_eq_true_iff_get _ _).mp computed
  have ran := (Option.some_get present).symm
  have distinct : Set.InjOn plainCredentials.hashToken (valuesOf twoSessions) :=
    fun _ _ _ _ same => same
  exact ⟨_, ran, of_decide_eq_true outcomes,
    sessions_are_authority plainKeys plainCredentials { System.empty with users := oneAccount }
      twoSessions _ distinct fresh ran⟩

end Runs

end Morai.Identity.SessionAuthority
