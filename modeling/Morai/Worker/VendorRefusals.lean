import Morai.Ingest.ElementsLand
import Morai.Worker.SyncUserTask

/-!
# Refusals by the vendor

The adapter hands on the JSON of a response and does not look at its status,
so a refusal is met as whatever its body parses to: a list that validates is
taken for transactions, everything else raises something that is not an
`HTTPStatusError`.
-/

namespace Morai.Worker.VendorRefusals

open Morai.Crypto Morai.Db Morai.Python Morai.Foundation.PrimaryKey
open Morai.Ledger.Fills Morai.Ingest.ExtractFills Morai.Ingest.Validation
open Morai.Ingest.BrokerTransactions Morai.Ingest.SyncWindows Morai.Ingest.SyncUser
open Morai.Ingest.ElementsLand Morai.Vendor.Connections Morai.Worker.SyncUserTask

set_option autoImplicit false

/-- `json` is `none` for a body that is not JSON. -/
structure HttpResponse where
  statusCode : Nat
  json : Option JsonValue

def HttpResponse.isSuccess (response : HttpResponse) : Bool :=
  200 ≤ response.statusCode ∧ response.statusCode ≤ 299

/-- `_response_json`. What `json()` raises is no `ValidationError`. -/
def responseJson (response : HttpResponse) : Except Raised JsonValue :=
  match response.json with
  | none => .error .other
  | some value => .ok value

/-- The vendor as the adapter sees it: a call that raises yields no response,
and no call raises for a status. -/
structure HttpVendor where
  buildClient : JsonValue → Except Raised Unit
  request : Nat → String → SyncWindow → Option HttpResponse
  written : Option JsonValue

/-- `_RealSchwabClient.get_transactions`. -/
def HttpVendor.getTransactions (vendor : HttpVendor) (index : Nat) (accountHash : String)
    (window : SyncWindow) : Except Raised JsonValue :=
  match vendor.request index accountHash window with
  | none => .error .other
  | some response => responseJson response

def HttpVendor.run (vendor : HttpVendor) : VendorRun where
  buildClient := vendor.buildClient
  getTransactions := vendor.getTransactions
  written := vendor.written

section Run

variable (keys : KeyService) (pydantic : Pydantic) (settings : Settings) (vendor : HttpVendor)
  (draws : SyncDraws) (userId : Uuid)

/-! ## Which responses pass -/

/-- A response that goes through the loop body: a list that can be stored, with
a data key to store it under unless it is empty. -/
def passes (db : Database) (response : HttpResponse) : Bool :=
  match response.json with
  | some (.array elements) =>
      decide (Storable pydantic elements) &&
        (elements.isEmpty || (currentDek keys db userId).toOption.isSome)
  | _ => false

theorem passes_iff (db : Database) (response : HttpResponse) :
    passes keys pydantic userId db response = true ↔
      ∃ elements, response.json = some (.array elements) ∧ Storable pydantic elements ∧
        (elements = [] ∨ ∃ found, currentDek keys db userId = .ok found) := by
  have unlocked : (currentDek keys db userId).toOption.isSome = true ↔
      ∃ found, currentDek keys db userId = .ok found := by
    cases currentDek keys db userId <;> simp [Except.toOption]
  unfold passes
  split
  · rename_i elements json
    simp only [Bool.and_eq_true, decide_eq_true_eq, Bool.or_eq_true, List.isEmpty_iff, unlocked]
    constructor
    · exact fun found => ⟨elements, json, found⟩
    · intro found
      obtain ⟨other, same, found⟩ := found
      rw [json] at same
      cases same
      exact found
  · rename_i unlisted
    simp only [Bool.false_eq_true, false_iff]
    intro found
    obtain ⟨elements, json, _⟩ := found
    exact unlisted elements json

theorem insert_broker_transactions_returns (rawDraws : Nat → Bytes)
    (rows : List BrokerTransactionWrite) (db : Database) :
    (∃ result, insertBrokerTransactions keys rawDraws userId rows db = .ok result) ↔
      rows = [] ∨ ∃ found, currentDek keys db userId = .ok found := by
  unfold insertBrokerTransactions
  cases rows with
  | nil => simp
  | cons row rest => cases currentDek keys db userId <;> simp [bind, Except.bind]

/-- The exceptions the code raises by itself carry no status. -/
def Plain (raised : Raised) : Prop := ∀ statusCode, raised ≠ .httpStatusError statusCode

theorem current_dek_plain (db : Database) (raised : Raised)
    (failed : currentDek keys db userId = .error raised) : Plain raised := by
  intro statusCode same
  unfold currentDek at failed
  split at failed
  · cases failed
    cases same
  · split at failed
    · cases failed
      cases same
    · cases failed

theorem insert_broker_transactions_plain (rawDraws : Nat → Bytes)
    (rows : List BrokerTransactionWrite) (db : Database) (raised : Raised)
    (failed : insertBrokerTransactions keys rawDraws userId rows db = .error raised) :
    Plain raised := by
  unfold insertBrokerTransactions at failed
  split_ifs at failed
  cases bind_error _ _ _ failed with
  | inl locked => exact current_dek_plain keys userId db raised locked
  | inr written =>
      obtain ⟨found, _, written⟩ := written
      cases written

theorem insert_fills_plain (fillDraws : Nat → FillDraw) (fills : List FillWrite) (db : Database)
    (raised : Raised) (failed : insertFills keys fillDraws userId fills db = .error raised) :
    Plain raised := by
  unfold insertFills at failed
  split_ifs at failed
  cases bind_error _ _ _ failed with
  | inl locked => exact current_dek_plain keys userId db raised locked
  | inr written =>
      obtain ⟨found, _, written⟩ := written
      cases written

theorem within_columns_plain {Value : Type} (fits : Prop) [Decidable fits]
    (stored : Except Raised Value) (raised : Raised)
    (plain : ∀ raised, stored = .error raised → Plain raised)
    (failed : withinColumns fits stored = .error raised) : Plain raised := by
  cases bind_error _ _ _ failed with
  | inl early => exact plain raised early
  | inr late =>
      obtain ⟨value, _, checked⟩ := late
      split_ifs at checked
      cases checked
      exact fun statusCode same => by cases same

theorem extract_all_plain (transactions : List Transaction) (raised : Raised)
    (failed : extractAll transactions = .error raised) : Plain raised := by
  obtain ⟨_, overflow⟩ | ⟨_, extracted, ran, _⟩ := extract_all_spec transactions
  · rw [failed] at overflow
    cases overflow
    exact fun statusCode same => by cases same
  · rw [failed] at ran
    cases ran

theorem passes_congr (left right : Database) (same : left.userDataKeys = right.userDataKeys)
    (response : HttpResponse) :
    passes keys pydantic userId left response = passes keys pydantic userId right response := by
  unfold passes
  rw [current_dek_congr keys left right userId same]

theorem get_transactions_ok (index : Nat) (accountHash : String) (window : SyncWindow)
    (value : JsonValue) :
    vendor.run.getTransactions index accountHash window = .ok value ↔
      ∃ response, vendor.request index accountHash window = some response ∧
        response.json = some value := by
  show vendor.getTransactions index accountHash window = .ok value ↔ _
  unfold HttpVendor.getTransactions responseJson
  cases vendor.request index accountHash window with
  | none => simp
  | some response => cases json : response.json <;> simp [json]

theorem get_transactions_plain (index : Nat) (accountHash : String) (window : SyncWindow)
    (raised : Raised)
    (failed : vendor.run.getTransactions index accountHash window = .error raised) :
    Plain raised := by
  intro statusCode same
  have failed' : vendor.getTransactions index accountHash window = .error raised := failed
  unfold HttpVendor.getTransactions responseJson at failed'
  split at failed'
  · cases failed'
    cases same
  · split at failed'
    · cases failed'
      cases same
    · cases failed'

/-- The loop body returns exactly on the responses that pass. -/
theorem sync_window_returns_iff (accountHash : String) (window : SyncWindow × Nat)
    (db : Database) :
    (∃ result, syncWindow keys pydantic vendor.run draws userId accountHash window db =
        .ok result) ↔
      ∃ response, vendor.request window.2 accountHash window.1 = some response ∧
        passes keys pydantic userId db response = true := by
  constructor
  · intro returned
    obtain ⟨⟨outcome, after⟩, ran⟩ := returned
    obtain ⟨elements, transactions, extracted, middle, stages⟩ :=
      sync_window_ok keys pydantic vendor.run draws userId accountHash window outcome db after ran
    obtain ⟨response, received, json⟩ :=
      (get_transactions_ok vendor window.2 accountHash window.1 _).mp stages.answered
    have storable := sync_window_storable keys pydantic vendor.run draws userId accountHash window
      elements outcome db after stages.answered ran
    refine ⟨response, received,
      (passes_iff keys pydantic userId db response).mpr ⟨elements, json, storable, ?_⟩⟩
    cases (insert_broker_transactions_returns keys userId _ _ db).mp ⟨_, stages.raw⟩ with
    | inr current => exact Or.inr current
    | inl empty =>
        left
        have shape := validate_transactions_parsed pydantic elements transactions stages.validated
        rw [shape.1, List.map_eq_nil_iff] at empty
        by_contra nonempty
        obtain ⟨element, member⟩ := List.exists_mem_of_ne_nil elements nonempty
        obtain ⟨transaction, parsedTo⟩ := storable.validates element member
        have inside := (mem_parsed pydantic elements element transaction).mpr ⟨member, parsedTo⟩
        rw [empty] at inside
        cases inside
  · intro found
    obtain ⟨response, received, pass⟩ := found
    obtain ⟨elements, json, storable, unlocked⟩ :=
      (passes_iff keys pydantic userId db response).mp pass
    have answered := (get_transactions_ok vendor window.2 accountHash window.1 _).mpr
      ⟨response, received, json⟩
    cases unlocked with
    | inl empty =>
        rw [empty] at answered
        exact ⟨_, sync_window_empty keys pydantic vendor.run draws userId accountHash window db
          answered⟩
    | inr current =>
        obtain ⟨found, current⟩ := current
        obtain ⟨outcome, ran⟩ := sync_window_lands keys pydantic vendor.run draws userId accountHash
          window elements db found.1 found.2 current answered storable
        exact ⟨_, ran⟩

theorem sync_window_plain (accountHash : String) (window : SyncWindow × Nat) (db : Database)
    (raised : Raised)
    (failed : syncWindow keys pydantic vendor.run draws userId accountHash window db =
      .error raised) : Plain raised := by
  cases bind_error _ _ _ failed with
  | inl unanswered => exact get_transactions_plain vendor _ _ _ raised unanswered
  | inr answered =>
      obtain ⟨value, _, failed⟩ := answered
      cases bind_error _ _ _ failed with
      | inl unlisted =>
          cases value <;> cases unlisted <;> exact fun statusCode same => by cases same
      | inr listed =>
          obtain ⟨elements, _, failed⟩ := listed
          cases bind_error _ _ _ failed with
          | inl invalid =>
              unfold validateTransactions at invalid
              split at invalid
              · cases invalid
              · cases invalid
                exact fun statusCode same => by cases same
          | inr valid =>
              obtain ⟨transactions, _, failed⟩ := valid
              cases bind_error _ _ _ failed with
              | inl overflowed => exact extract_all_plain transactions raised overflowed
              | inr extracted =>
                  obtain ⟨fills, _, failed⟩ := extracted
                  cases bind_error _ _ _ failed with
                  | inl raw =>
                      exact within_columns_plain _ _ raised
                        (insert_broker_transactions_plain keys userId _ _ db) raw
                  | inr stored =>
                      obtain ⟨landed, _, failed⟩ := stored
                      cases bind_error _ _ _ failed with
                      | inl lost =>
                          exact within_columns_plain _ _ raised
                            (insert_fills_plain keys userId _ _ landed.2) lost
                      | inr done =>
                          obtain ⟨_, _, failed⟩ := done
                          cases failed

/-- What answers a window's call. -/
def answerTo (accountHash : String) (window : SyncWindow × Nat) : Option HttpResponse :=
  vendor.request window.2 accountHash window.1

def Passes (db : Database) (answer : Option HttpResponse) : Prop :=
  ∃ response, answer = some response ∧ passes keys pydantic userId db response = true

theorem sync_window_keys (accountHash : String) (window : SyncWindow × Nat)
    (outcome : SyncOutcome) (db after : Database)
    (ran : syncWindow keys pydantic vendor.run draws userId accountHash window db =
      .ok (outcome, after)) : after.userDataKeys = db.userDataKeys := by
  rw [sync_window_frame keys pydantic vendor.run draws userId accountHash window outcome db after
    ran]

theorem sync_each_returns_iff (accountHash : String) (windows : List (SyncWindow × Nat))
    (sofar : SyncOutcome) (db : Database) :
    (∃ result, syncEach keys pydantic vendor.run draws userId accountHash windows sofar db =
        .ok result) ↔
      ∀ window ∈ windows, Passes keys pydantic userId db (answerTo vendor accountHash window) := by
  induction windows generalizing sofar db with
  | nil => exact iff_of_true ⟨_, rfl⟩ nofun
  | cons window rest ih =>
      rw [List.forall_mem_cons]
      have here := sync_window_returns_iff keys pydantic vendor draws userId accountHash window db
      constructor
      · intro returned
        obtain ⟨result, ran⟩ := returned
        obtain ⟨⟨part, middle⟩, first, later⟩ := bind_ok _ _ _ ran
        have same := sync_window_keys keys pydantic vendor draws userId accountHash window part db
          middle first
        have others := (ih (sofar.add part) middle).mp ⟨result, later⟩
        refine ⟨here.mp ⟨_, first⟩, ?_⟩
        intro other member
        obtain ⟨response, received, pass⟩ := others other member
        exact ⟨response, received, passes_congr keys pydantic userId middle db same response ▸ pass⟩
      · intro all
        obtain ⟨⟨part, middle⟩, first⟩ := here.mpr all.1
        have same := sync_window_keys keys pydantic vendor draws userId accountHash window part db
          middle first
        have others : ∀ other ∈ rest,
            Passes keys pydantic userId middle (answerTo vendor accountHash other) := by
          intro other member
          obtain ⟨response, received, pass⟩ := all.2 other member
          exact ⟨response, received,
            (passes_congr keys pydantic userId middle db same response).trans pass⟩
        obtain ⟨result, later⟩ := (ih (sofar.add part) middle).mpr others
        exact ⟨result, by simp only [syncEach, first, bind, Except.bind]; exact later⟩

theorem sync_each_plain (accountHash : String) (windows : List (SyncWindow × Nat))
    (sofar : SyncOutcome) (db : Database) (raised : Raised)
    (failed : syncEach keys pydantic vendor.run draws userId accountHash windows sofar db =
      .error raised) : Plain raised := by
  induction windows generalizing sofar db with
  | nil => cases failed
  | cons window rest ih =>
      cases bind_error _ _ _ failed with
      | inl here =>
          exact sync_window_plain keys pydantic vendor draws userId accountHash window db raised here
      | inr later =>
          obtain ⟨ended, _, failed⟩ := later
          exact ih (sofar.add ended.1) ended.2 failed

/-! ## The first refusal met -/

/-- The responses a loop receives before it ends. -/
def met (accountHash : String) : List (SyncWindow × Nat) → Database → List HttpResponse
  | [], _ => []
  | window :: rest, db =>
      match answerTo vendor accountHash window with
      | none => []
      | some response =>
          response ::
            match syncWindow keys pydantic vendor.run draws userId accountHash window db with
            | .error _ => []
            | .ok (_, db) => met accountHash rest db

/-- The first status that is no success among answers all passing up to
there. -/
def firstRefused (db : Database) : List (Option HttpResponse) → Option Nat
  | [] => none
  | none :: _ => none
  | some response :: rest =>
      if response.isSuccess then
        if passes keys pydantic userId db response then firstRefused db rest else none
      else some response.statusCode

theorem first_refused_congr (left right : Database)
    (same : left.userDataKeys = right.userDataKeys) (answers : List (Option HttpResponse)) :
    firstRefused keys pydantic userId left answers =
      firstRefused keys pydantic userId right answers := by
  induction answers with
  | nil => rfl
  | cons answer rest ih =>
      cases answer with
      | none => rfl
      | some response =>
          simp only [firstRefused, ih, passes_congr keys pydantic userId left right same response]

theorem met_first_refused (accountHash : String) (windows : List (SyncWindow × Nat))
    (db : Database) :
    ((met keys pydantic vendor draws userId accountHash windows db).find? fun response =>
        !response.isSuccess).map HttpResponse.statusCode =
      firstRefused keys pydantic userId db (windows.map (answerTo vendor accountHash)) := by
  induction windows generalizing db with
  | nil => rfl
  | cons window rest ih =>
      have here := sync_window_returns_iff keys pydantic vendor draws userId accountHash window db
      simp only [met, List.map_cons]
      cases answer : answerTo vendor accountHash window with
      | none => rfl
      | some response =>
          cases accepted : response.isSuccess with
          | false =>
              simp only [List.find?_cons, accepted, Bool.not_false, Option.map_some, firstRefused]
              rfl
          | true =>
              simp only [List.find?_cons, accepted, Bool.not_true, firstRefused, if_true]
              cases ran : syncWindow keys pydantic vendor.run draws userId accountHash window db with
              | error raised =>
                  have fails : passes keys pydantic userId db response ≠ true := by
                    intro pass
                    obtain ⟨result, returned⟩ := here.mpr ⟨response, answer, pass⟩
                    rw [ran] at returned
                    cases returned
                  rw [if_neg fails]
                  rfl
              | ok ended =>
                  obtain ⟨other, received, pass⟩ := here.mp ⟨ended, ran⟩
                  have sameResponse : response = other :=
                    Option.some.inj (answer.symm.trans received)
                  rw [if_pos (sameResponse ▸ pass)]
                  dsimp only
                  rw [ih]
                  exact first_refused_congr keys pydantic userId _ _ (sync_window_keys keys pydantic
                    vendor draws userId accountHash window ended.1 db ended.2 ran) _

/-! ## The run -/

/-- The account and the windows of a run that gets as far as its first call. -/
def startedRun (now : Instant) (db : Database) : Option (String × List SyncWindow) :=
  match readConnection keys pydantic userId db with
  | .ok (some connection) =>
      match syncWindows connection.lastSyncedAt now settings, openHolder keys pydantic userId db with
      | some (.ok windows), .ok holder =>
          match vendor.buildClient holder.token with
          | .ok () => some (connection.accountHash, windows)
          | .error _ => none
      | _, _ => none
  | _ => none

/-- What the vendor has ready for the calls of a run. -/
def answersOnOffer (now : Instant) (db : Database) : List (Option HttpResponse) :=
  match startedRun keys pydantic settings vendor userId now db with
  | none => []
  | some (accountHash, windows) => windows.zipIdx.map (answerTo vendor accountHash)

def metResponses (now : Instant) (db : Database) : List HttpResponse :=
  match startedRun keys pydantic settings vendor userId now db with
  | none => []
  | some (accountHash, windows) =>
      met keys pydantic vendor draws userId accountHash windows.zipIdx db

def firstRefusalMet (now : Instant) (db : Database) : Option Nat :=
  ((metResponses keys pydantic settings vendor draws userId now db).find? fun response =>
    !response.isSuccess).map HttpResponse.statusCode

theorem first_refusal_met_eq (now : Instant) (db : Database) :
    firstRefusalMet keys pydantic settings vendor draws userId now db =
      firstRefused keys pydantic userId db
        (answersOnOffer keys pydantic settings vendor userId now db) := by
  unfold firstRefusalMet metResponses answersOnOffer
  cases startedRun keys pydantic settings vendor userId now db with
  | none => rfl
  | some started =>
      exact met_first_refused keys pydantic vendor draws userId started.1 started.2.zipIdx db

/-- A rotated token has the vendor's shape and a key to store it under. -/
def WriteBackPasses (db : Database) : Prop :=
  ∀ token, vendor.written = some token →
    (validateWrappedToken pydantic token).isSome = true ∧
      ∃ found, currentDek keys db userId = .ok found

theorem write_back_returns_iff (nonce : Bytes) (holder : TokenHolder) (idle : holder.wrote = false)
    (db : Database) :
    (∃ after, writeBack keys pydantic nonce userId (afterVendor vendor.run holder) db =
        .ok after) ↔ WriteBackPasses keys pydantic vendor userId db := by
  have kept : vendor.run.written = vendor.written := rfl
  unfold WriteBackPasses afterVendor
  rw [kept]
  cases written : vendor.written with
  | none => exact iff_of_true ⟨db, by simp [writeBack, idle]⟩ nofun
  | some token =>
      simp only [Option.some.injEq, forall_eq', writeBack, TokenHolder.write, if_true]
      cases validateWrappedToken pydantic token with
      | none => simp
      | some value =>
          cases currentDek keys db userId with
          | error raised => simp [bind, Except.bind]
          | ok found => cases db.schwabConnections.get? userId <;> simp [bind, Except.bind]

theorem write_back_plain (nonce : Bytes) (holder : TokenHolder) (db : Database) (raised : Raised)
    (failed : writeBack keys pydantic nonce userId holder db = .error raised) : Plain raised := by
  unfold writeBack at failed
  split_ifs at failed
  split at failed
  · cases failed
    exact fun statusCode same => by cases same
  · cases bind_error _ _ _ failed with
    | inl locked => exact current_dek_plain keys userId db raised locked
    | inr opened =>
        obtain ⟨found, _, failed⟩ := opened
        cases stored : db.schwabConnections.get? userId <;> simp [stored] at failed

theorem sync_each_keys (accountHash : String) (windows : List (SyncWindow × Nat))
    (sofar outcome : SyncOutcome) (db after : Database)
    (ran : syncEach keys pydantic vendor.run draws userId accountHash windows sofar db =
      .ok (outcome, after)) : after.userDataKeys = db.userDataKeys := by
  rw [sync_each_frame keys pydantic vendor.run draws userId accountHash windows sofar outcome db
    after ran]

section Client

variable (accountHash : String) (windows : List SyncWindow) (db : Database) (holder : TokenHolder)
  (opened : openHolder keys pydantic userId db = .ok holder)
  (built : vendor.buildClient holder.token = .ok ())

include opened built

theorem sync_with_client_returns_iff :
    (∃ result, syncWithClient keys pydantic vendor.run draws userId accountHash windows db =
        .ok result) ↔
      (∀ answer ∈ windows.zipIdx.map (answerTo vendor accountHash),
        Passes keys pydantic userId db answer) ∧ WriteBackPasses keys pydantic vendor userId db := by
  obtain ⟨_, _, _, idle⟩ := open_holder_ok keys pydantic userId db holder opened
  have each := sync_each_returns_iff keys pydantic vendor draws userId accountHash windows.zipIdx
    ⟨0, 0, []⟩ db
  have back : ∀ middle, middle.userDataKeys = db.userDataKeys →
      ((∃ after, writeBack keys pydantic draws.token userId (afterVendor vendor.run holder) middle =
        .ok after) ↔ WriteBackPasses keys pydantic vendor userId db) := by
    intro middle same
    rw [write_back_returns_iff keys pydantic vendor userId draws.token holder idle middle]
    unfold WriteBackPasses
    rw [current_dek_congr keys middle db userId same]
  rw [List.forall_mem_map]
  constructor
  · intro returned
    obtain ⟨result, ran⟩ := returned
    obtain ⟨other, sameHolder, ran⟩ := bind_ok _ _ _ ran
    rw [opened] at sameHolder
    cases sameHolder
    obtain ⟨_, _, ran⟩ := bind_ok _ _ _ ran
    obtain ⟨⟨outcome, middle⟩, synced, ran⟩ := bind_ok _ _ _ ran
    obtain ⟨after, written, _⟩ := bind_ok _ _ _ ran
    have same := sync_each_keys keys pydantic vendor draws userId accountHash windows.zipIdx _
      outcome db middle synced
    exact ⟨each.mp ⟨_, synced⟩, (back middle same).mp ⟨after, written⟩⟩
  · intro found
    obtain ⟨⟨outcome, middle⟩, synced⟩ := each.mpr found.1
    have same := sync_each_keys keys pydantic vendor draws userId accountHash windows.zipIdx _
      outcome db middle synced
    obtain ⟨after, written⟩ := (back middle same).mpr found.2
    have ready : vendor.run.buildClient holder.token = .ok () := built
    exact ⟨_, by
      simp only [syncWithClient, opened, ready, synced, written, bind, Except.bind]
      rfl⟩

theorem sync_with_client_plain (raised : Raised)
    (failed : syncWithClient keys pydantic vendor.run draws userId accountHash windows db =
      .error raised) : Plain raised := by
  have ready : vendor.run.buildClient holder.token = .ok () := built
  unfold syncWithClient at failed
  cases bind_error _ _ _ failed with
  | inl unopened =>
      rw [opened] at unopened
      cases unopened
  | inr later =>
      obtain ⟨other, sameHolder, failed⟩ := later
      rw [opened] at sameHolder
      cases sameHolder
      cases bind_error _ _ _ failed with
      | inl unbuilt =>
          rw [ready] at unbuilt
          cases unbuilt
      | inr later =>
          obtain ⟨_, _, failed⟩ := later
          cases bind_error _ _ _ failed with
          | inl looped =>
              exact sync_each_plain keys pydantic vendor draws userId accountHash windows.zipIdx _ db
                raised looped
          | inr later =>
              obtain ⟨_, _, failed⟩ := later
              cases bind_error _ _ _ failed with
              | inl unwritten => exact write_back_plain keys pydantic userId _ _ _ raised unwritten
              | inr later =>
                  obtain ⟨_, _, failed⟩ := later
                  cases failed

end Client

/-- A run that started ends with what its answers and its write-back allow. -/
theorem started_run_ends (now : Instant) (db : Database) (accountHash : String)
    (windows : List SyncWindow)
    (started : startedRun keys pydantic settings vendor userId now db =
      some (accountHash, windows)) :
    ∃ ended, syncUser keys pydantic settings vendor.run draws userId now db = some ended ∧
      ((∃ result, ended = .ok result) ↔
        (∀ answer ∈ windows.zipIdx.map (answerTo vendor accountHash),
          Passes keys pydantic userId db answer) ∧ WriteBackPasses keys pydantic vendor userId db) ∧
      (∀ raised, ended = .error raised → Plain raised) ∧
      requestedCalls keys pydantic settings userId now db = windows.map (Prod.mk accountHash) := by
  unfold startedRun at started
  split at started
  · rename_i connection read
    split at started
    · rename_i planned opened
      split at started
      · rename_i built
        cases started
        refine ⟨syncWithClient keys pydantic vendor.run draws userId connection.accountHash windows db,
          ?_, ?_, ?_, ?_⟩
        · simp only [syncUser, read, planned]
        · exact sync_with_client_returns_iff keys pydantic vendor draws userId connection.accountHash
            windows db _ opened built
        · exact sync_with_client_plain keys pydantic vendor draws userId connection.accountHash
            windows db _ opened built
        · simp only [requestedCalls, read, planned]
      · cases started
    · cases started
  · cases started

/-- A run that returned had started. -/
theorem returned_run_started (now : Instant) (db after : Database) (outcome : SyncOutcome)
    (ran : syncUser keys pydantic settings vendor.run draws userId now db =
      some (.ok (outcome, after))) :
    ∃ started, startedRun keys pydantic settings vendor userId now db = some started := by
  obtain ⟨connection, windows, holder, middle, stages⟩ :=
    sync_user_ok keys pydantic settings vendor.run draws userId now db after outcome ran
  have built : vendor.buildClient holder.token = .ok () := stages.built
  refine ⟨(connection.accountHash, windows), ?_⟩
  simp only [startedRun, stages.read, stages.planned, stages.opened, built]

/-! ## What is recorded -/

def FailedWith (db after : Database) (code : SyncError) : Prop :=
  ∃ run, after.syncRuns = db.syncRuns ++ [run] ∧ run.status = SyncStatus.failed.value ∧
    run.errorCode = some code.value

def CountedAsSynced (db after : Database) : Prop :=
  storedLastSyncedAt userId after ≠ storedLastSyncedAt userId db ∨
    ∃ run, after.syncRuns = db.syncRuns ++ [run] ∧ run.status = SyncStatus.succeeded.value

/-- A run counts as synced only when every window was answered with a 2xx
status, and the first other status met is recorded for what it is. -/
def RecordsRefusals (call : TaskCall) (db : Database) : Prop :=
  ∀ ended after, syncUserTask keys pydantic settings vendor.run draws userId call db =
      some (ended, after) →
    (CountedAsSynced userId db after →
      ∀ window ∈ (requestedCalls keys pydantic settings userId call.startedAt db).zipIdx,
        ∃ response, vendor.request window.2 window.1.1 window.1.2 = some response ∧
          response.isSuccess = true) ∧
      ∀ statusCode, firstRefusalMet keys pydantic settings vendor draws userId call.startedAt db =
          some statusCode →
        (statusCode = 401 ∨ statusCode = 403 → FailedWith db after .vendorAuthFailed) ∧
          (statusCode = 429 → FailedWith db after .vendorRateLimited)

/-- The first refusal on offer is none of the three the classifier knows, and
the run cannot get past it and all the other answers. -/
def Spared (now : Instant) (db : Database) : Prop :=
  ∀ statusCode, firstRefused keys pydantic userId db
      (answersOnOffer keys pydantic settings vendor userId now db) = some statusCode →
    statusCode ∉ [401, 403, 429] ∧
      ¬((∀ answer ∈ answersOnOffer keys pydantic settings vendor userId now db,
          Passes keys pydantic userId db answer) ∧ WriteBackPasses keys pydantic vendor userId db)

theorem classify_plain (raised : Raised) (plain : Plain raised) :
    classifySyncError raised ≠ .vendorAuthFailed ∧
      classifySyncError raised ≠ .vendorRateLimited := by
  cases raised with
  | httpStatusError statusCode => exact absurd rfl (plain statusCode)
  | _ => exact ⟨nofun, nofun⟩

theorem sync_error_value_injective (left right : SyncError) (same : left.value = right.value) :
    left = right := by
  cases left <;> cases right <;> first | rfl | exact absurd same (by decide)

theorem last_row_unique {Row : Type} (rows : List Row) (left right : Row)
    (same : rows ++ [left] = rows ++ [right]) : left = right := by
  simpa using same

/-- A job that raised does not count as synced. -/
theorem failure_not_counted (call : TaskCall) (db after : Database) (raised : Raised)
    (ran : syncUserTask keys pydantic settings vendor.run draws userId call db =
      some (.error raised, after)) : ¬CountedAsSynced userId db after := by
  obtain ⟨frame, run, rows, _, failed, _⟩ := sync_user_task_failed keys pydantic settings
    vendor.run draws userId call db after raised ran
  intro counted
  cases counted with
  | inl advanced =>
      rw [frame] at advanced
      exact advanced rfl
  | inr succeeded =>
      obtain ⟨row, rows', status⟩ := succeeded
      rw [rows] at rows'
      rw [← last_row_unique _ _ _ rows', failed] at status
      exact absurd status (by decide)

theorem plain_failure (call : TaskCall) (db after : Database) (raised : Raised)
    (plain : Plain raised)
    (ran : syncUserTask keys pydantic settings vendor.run draws userId call db =
      some (.error raised, after)) :
    ¬FailedWith db after .vendorAuthFailed ∧ ¬FailedWith db after .vendorRateLimited := by
  obtain ⟨_, run, rows, _, _, code⟩ := sync_user_task_failed keys pydantic settings
    vendor.run draws userId call db after raised ran
  have others : ∀ wanted : SyncError, classifySyncError raised ≠ wanted →
      ¬FailedWith db after wanted := by
    intro wanted different recorded
    obtain ⟨row, rows', _, code'⟩ := recorded
    rw [rows] at rows'
    rw [← last_row_unique _ _ _ rows', code, Option.some.injEq] at code'
    exact different (sync_error_value_injective _ _ code')
  exact ⟨others _ (classify_plain raised plain).1, others _ (classify_plain raised plain).2⟩

/-- A run that returned is counted and recorded as no failure. -/
theorem committed_run_counted (call : TaskCall) (db : Database)
    (result : SyncOutcome × Database)
    (ran : syncUser keys pydantic settings vendor.run draws userId call.startedAt db =
      some (.ok result)) :
    ∃ after, syncUserTask keys pydantic settings vendor.run draws userId call db =
        some (.ok (), after) ∧ CountedAsSynced userId db after ∧
      ∀ code, ¬FailedWith db after code := by
  obtain ⟨after, committed, rows⟩ := sync_user_task_commits keys pydantic settings vendor.run draws
    userId call db result ran
  refine ⟨after, committed, Or.inr ⟨_, rows, rfl⟩, ?_⟩
  intro code failed
  obtain ⟨row, rows', status, _⟩ := failed
  rw [rows] at rows'
  rw [← last_row_unique _ _ _ rows'] at status
  have differ : SyncStatus.succeeded.value ≠ SyncStatus.failed.value := by decide
  exact differ status

def Accepted (answer : Option HttpResponse) : Prop :=
  ∃ response, answer = some response ∧ response.isSuccess = true

/-- Where every answer passes, no refusal is met exactly when all are
accepted. -/
theorem first_refused_none_iff (db : Database) (answers : List (Option HttpResponse))
    (pass : ∀ answer ∈ answers, Passes keys pydantic userId db answer) :
    firstRefused keys pydantic userId db answers = none ↔ ∀ answer ∈ answers, Accepted answer := by
  induction answers with
  | nil => exact iff_of_true rfl nofun
  | cons answer rest ih =>
      rw [List.forall_mem_cons] at pass ⊢
      obtain ⟨⟨response, rfl, passed⟩, others⟩ := pass
      unfold firstRefused
      rw [if_pos passed]
      cases accepted : response.isSuccess with
      | true =>
          rw [if_pos rfl, ih others]
          exact (and_iff_right ⟨response, rfl, accepted⟩).symm
      | false =>
          refine iff_of_false (by simp) ?_
          intro all
          obtain ⟨other, same, isSuccess⟩ := all.1
          cases same
          rw [accepted] at isSuccess
          cases isSuccess

theorem requested_accepted_iff (accountHash : String) (windows : List SyncWindow) :
    (∀ window ∈ (windows.map (Prod.mk accountHash)).zipIdx,
        ∃ response, vendor.request window.2 window.1.1 window.1.2 = some response ∧
          response.isSuccess = true) ↔
      ∀ answer ∈ windows.zipIdx.map (answerTo vendor accountHash), Accepted answer := by
  rw [List.zipIdx_map, List.forall_mem_map, List.forall_mem_map]
  rfl

/-- A run that never gets to the vendor has met nothing and synced nothing. -/
theorem unstarted_records_refusals (call : TaskCall) (db : Database)
    (begun : startedRun keys pydantic settings vendor userId call.startedAt db = none) :
    RecordsRefusals keys pydantic settings vendor draws userId call db ∧
      Spared keys pydantic settings vendor userId call.startedAt db := by
  have nothing : answersOnOffer keys pydantic settings vendor userId call.startedAt db = [] := by
    simp only [answersOnOffer, begun]
  constructor
  · intro ended after ran
    constructor
    · intro counted
      cases ended with
      | error raised =>
          exact absurd counted (failure_not_counted keys pydantic settings vendor draws userId call
            db after raised ran)
      | ok _ =>
          obtain ⟨outcome, middle, synced, _⟩ := sync_user_task_ok keys pydantic settings
            vendor.run draws userId call db after ran
          obtain ⟨started, found⟩ := returned_run_started keys pydantic settings vendor draws userId
            call.startedAt db middle outcome synced
          rw [begun] at found
          cases found
    · intro statusCode metFirst
      rw [first_refusal_met_eq, nothing] at metFirst
      cases metFirst
  · intro statusCode refused
    rw [nothing] at refused
    cases refused

/-- What a raised run lets through carries no status, so no refusal it met can
have been recorded. -/
theorem raised_records_refusals_iff (call : TaskCall) (db : Database) (raised : Raised)
    (ran : syncUser keys pydantic settings vendor.run draws userId call.startedAt db =
      some (.error raised)) (plain : Plain raised)
    (stuck : ¬((∀ answer ∈ answersOnOffer keys pydantic settings vendor userId call.startedAt db,
      Passes keys pydantic userId db answer) ∧ WriteBackPasses keys pydantic vendor userId db)) :
    RecordsRefusals keys pydantic settings vendor draws userId call db ↔
      Spared keys pydantic settings vendor userId call.startedAt db := by
  have task : syncUserTask keys pydantic settings vendor.run draws userId call db =
      some (.error raised, recordSyncRun userId call .failed none none
        (some (classifySyncError raised)) db) := by
    simp only [syncUserTask, ran]
  have unrecorded := plain_failure keys pydantic settings vendor draws userId call db _ raised
    plain task
  unfold RecordsRefusals Spared
  rw [first_refusal_met_eq]
  constructor
  · intro records statusCode refused
    refine ⟨?_, stuck⟩
    intro known
    have classified := (records _ _ task).2 statusCode refused
    simp only [List.mem_cons, List.not_mem_nil, or_false] at known
    rcases known with auth | auth | limited
    · exact unrecorded.1 (classified.1 (Or.inl auth))
    · exact unrecorded.1 (classified.1 (Or.inr auth))
    · exact unrecorded.2 (classified.2 limited)
  · intro spared other after ran'
    rw [task] at ran'
    cases ran'
    refine ⟨fun counted => absurd counted (failure_not_counted keys pydantic settings vendor
      draws userId call db _ raised task), ?_⟩
    intro statusCode refused
    have unknown := (spared statusCode refused).1
    simp only [List.mem_cons, List.not_mem_nil, or_false, not_or] at unknown
    constructor
    · intro auth
      exact absurd auth (not_or.mpr ⟨unknown.1, unknown.2.1⟩)
    · intro limited
      exact absurd limited unknown.2.2

/-- A run that returned got past every answer, a refusal among them or not. -/
theorem returned_records_refusals_iff (call : TaskCall) (db : Database) (accountHash : String)
    (windows : List SyncWindow) (result : SyncOutcome × Database)
    (ran : syncUser keys pydantic settings vendor.run draws userId call.startedAt db =
      some (.ok result))
    (offers : answersOnOffer keys pydantic settings vendor userId call.startedAt db =
      windows.zipIdx.map (answerTo vendor accountHash))
    (calls : requestedCalls keys pydantic settings userId call.startedAt db =
      windows.map (Prod.mk accountHash))
    (complete : (∀ answer ∈ answersOnOffer keys pydantic settings vendor userId call.startedAt db,
      Passes keys pydantic userId db answer) ∧ WriteBackPasses keys pydantic vendor userId db) :
    RecordsRefusals keys pydantic settings vendor draws userId call db ↔
      Spared keys pydantic settings vendor userId call.startedAt db := by
  have none_iff := first_refused_none_iff keys pydantic userId db _ complete.1
  obtain ⟨after, task, counted, _⟩ := committed_run_counted keys pydantic settings vendor draws
    userId call db result ran
  unfold RecordsRefusals Spared
  rw [first_refusal_met_eq, calls]
  constructor
  · intro records statusCode refused
    have accepted := (records _ _ task).1 counted
    rw [requested_accepted_iff, ← offers, ← none_iff, refused] at accepted
    cases accepted
  · intro spared
    have unrefused : firstRefused keys pydantic userId db
        (answersOnOffer keys pydantic settings vendor userId call.startedAt db) = none := by
      by_contra some
      obtain ⟨statusCode, refused⟩ := Option.ne_none_iff_exists'.mp some
      exact (spared statusCode refused).2 complete
    intro other after' ran'
    constructor
    · intro _
      rw [requested_accepted_iff, ← offers, ← none_iff]
      exact unrefused
    · intro statusCode refused
      rw [unrefused] at refused
      cases refused

/-- A refusal is recorded as what it is exactly when there is none on offer
that the classifier knows or that a whole run gets past. -/
theorem records_refusals_iff (call : TaskCall) (db : Database) :
    RecordsRefusals keys pydantic settings vendor draws userId call db ↔
      Spared keys pydantic settings vendor userId call.startedAt db := by
  cases begun : startedRun keys pydantic settings vendor userId call.startedAt db with
  | none =>
      have idle := unstarted_records_refusals keys pydantic settings vendor draws userId call db begun
      exact iff_of_true idle.1 idle.2
  | some started =>
      obtain ⟨accountHash, windows⟩ := started
      obtain ⟨ended, ran, returns, plain, calls⟩ := started_run_ends keys pydantic settings vendor
        draws userId call.startedAt db accountHash windows begun
      have offers : answersOnOffer keys pydantic settings vendor userId call.startedAt db =
          windows.zipIdx.map (answerTo vendor accountHash) := by
        simp only [answersOnOffer, begun]
      rw [← offers] at returns
      cases ended with
      | error raised =>
          apply raised_records_refusals_iff keys pydantic settings vendor draws userId call db raised
            ran (plain raised rfl)
          rw [← returns]
          exact nofun
      | ok result =>
          exact returned_records_refusals_iff keys pydantic settings vendor draws userId call db
            accountHash windows result ran offers calls (returns.mp ⟨result, rfl⟩)

end Run

/-! ## A revoked grant -/

/-- Every call is answered with the same status and body. -/
def refusing (statusCode : Nat) (body : JsonValue) : HttpVendor where
  buildClient _ := .ok ()
  request _ _ _ := some ⟨statusCode, some body⟩
  written := none

def refusedCall : TaskCall := ⟨afternoon, afternoon, .manual⟩

def errorBody : JsonValue := .object [("errors", .array [.object [("status", .int 401)]])]

/-- A 401 with an empty list for a body is a successful sync, and one with an
error object is an unreadable payload. -/
theorem refusal_not_recorded :
    ¬RecordsRefusals plainKeys plainPydantic {} (refusing 401 (.array [])) plainDraws ⟨1⟩ refusedCall
        syncedUser ∧
      ¬RecordsRefusals plainKeys plainPydantic {} (refusing 401 errorBody) plainDraws ⟨1⟩ refusedCall
        syncedUser := by
  constructor
  · intro records
    have returns : ((syncUser plainKeys plainPydantic {} (refusing 401 (.array [])).run plainDraws
        ⟨1⟩ afternoon syncedUser).any fun ended => ended.toOption.isSome) = true := by decide +kernel
    obtain ⟨result, ran⟩ := some_ok_of_any _ returns
    obtain ⟨after, task, counted, _⟩ := committed_run_counted plainKeys plainPydantic {}
      (refusing 401 (.array [])) plainDraws ⟨1⟩ refusedCall syncedUser result ran
    have ready := synced_user_ready []
    have accepted := (records _ _ task).1 counted
    simp only [refusedCall, requestedCalls, ready.read, ready.planned] at accepted
    obtain ⟨response, received, isSuccess⟩ := accepted _ List.mem_cons_self
    cases received
    exact absurd isSuccess (by decide)
  · intro records
    have refused : firstRefusalMet plainKeys plainPydantic {} (refusing 401 errorBody) plainDraws ⟨1⟩
        afternoon syncedUser = some 401 := by decide +kernel
    have raises : (syncUser plainKeys plainPydantic {} (refusing 401 errorBody).run plainDraws ⟨1⟩
        afternoon syncedUser).any (raisesOnly .validationError) = true := by decide +kernel
    have ran := some_error_of_any _ _ raises
    have task : syncUserTask plainKeys plainPydantic {} (refusing 401 errorBody).run plainDraws ⟨1⟩
        refusedCall syncedUser = some (.error .validationError, recordSyncRun ⟨1⟩ refusedCall .failed
          none none (some (classifySyncError .validationError)) syncedUser) := by
      have ran' : syncUser plainKeys plainPydantic {} (refusing 401 errorBody).run plainDraws ⟨1⟩
          refusedCall.startedAt syncedUser = some (.error .validationError) := ran
      simp only [syncUserTask, ran']
    have recorded := ((records _ _ task).2 401 refused).1 (Or.inl rfl)
    have plain : Plain .validationError := by
      intro statusCode impossible
      cases impossible
    exact (plain_failure plainKeys plainPydantic {} (refusing 401 errorBody) plainDraws ⟨1⟩
      refusedCall syncedUser _ .validationError plain task).1 recorded

end Morai.Worker.VendorRefusals
