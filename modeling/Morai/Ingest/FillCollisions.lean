import Morai.Ingest.ExtractFills

/-!
# Fills lost to their key

The fill key lacks the activity id, and `insert_fills` does nothing where a key
is taken. So the fills of a list are all stored exactly when no two elements
yield fills of one key, as long as they are extracted and fit their columns.
-/

namespace Morai.Ingest.FillCollisions

open Morai.Crypto Morai.Db Morai.Python Morai.Foundation.PrimaryKey Morai.Ledger.Fills
open Morai.Ingest.ExtractFills

set_option autoImplicit false

/-- Two elements of one order and time that yield fills for one symbol at one
leg position. -/
def Collide (left right : Transaction) : Prop :=
  left.type = "TRADE" ∧ right.type = "TRADE" ∧ left.orderId ≠ none ∧
    left.orderId = right.orderId ∧ left.time = right.time ∧
    ∃ first ∈ (optionItems left).zipIdx, ∃ second ∈ (optionItems right).zipIdx,
      first.2 = second.2 ∧ YieldsFill first.1 ∧ YieldsFill second.1 ∧
        legSymbol first.1 = legSymbol second.1

instance (left right : Transaction) : Decidable (Collide left right) :=
  inferInstanceAs (Decidable (_ ∧ _ ∧ _ ∧ _ ∧ _ ∧
    ∃ first ∈ (optionItems left).zipIdx, ∃ second ∈ (optionItems right).zipIdx, _))

theorem mem_element_keys (transaction : Transaction) (key : FillKey) :
    key ∈ elementKeys transaction ↔
      transaction.type = "TRADE" ∧ ∃ orderId, transaction.orderId = some orderId ∧
        ∃ leg ∈ (optionItems transaction).zipIdx, YieldsFill leg.1 ∧
          legKey orderId transaction.time leg = key := by
  unfold elementKeys
  by_cases trade : transaction.type = "TRADE"
  · cases transaction.orderId with
    | none => simp [trade]
    | some orderId =>
        simp only [trade, if_true, List.mem_map, List.mem_filter, decide_eq_true_eq, true_and,
          Option.some.injEq, exists_eq_left', and_assoc]
  · simp [trade]

/-- Two elements collide exactly when they share a fill key. -/
theorem collide_iff (left right : Transaction) :
    Collide left right ↔ ∃ key ∈ elementKeys left, key ∈ elementKeys right := by
  constructor
  · intro collision
    rcases collision with ⟨tradeLeft, tradeRight, some, sameOrder, sameTime, first, firstMember,
      second, secondMember, sameIndex, firstYields, secondYields, sameSymbol⟩
    rcases Option.ne_none_iff_exists'.mp some with ⟨orderId, order⟩
    refine ⟨legKey orderId left.time first, (mem_element_keys left _).mpr ⟨tradeLeft, orderId,
      order, first, firstMember, firstYields, rfl⟩, (mem_element_keys right _).mpr ⟨tradeRight,
      orderId, sameOrder ▸ order, second, secondMember, secondYields, ?_⟩⟩
    unfold legKey
    rw [sameTime, sameIndex, sameSymbol]
  · intro shared
    rcases shared with ⟨key, inLeft, inRight⟩
    rcases (mem_element_keys left key).mp inLeft with
      ⟨tradeLeft, orderId, order, first, firstMember, firstYields, firstKey⟩
    rcases (mem_element_keys right key).mp inRight with
      ⟨tradeRight, other, otherOrder, second, secondMember, secondYields, secondKey⟩
    have same := firstKey.trans secondKey.symm
    simp only [legKey, FillKey.mk.injEq, Int.natCast_inj] at same
    refine ⟨tradeLeft, tradeRight, by simp [order], ?_, same.2.2.2, first, firstMember, second,
      secondMember, same.2.2.1, firstYields, secondYields, same.2.1⟩
    rw [order, otherOrder, same.1]

theorem element_keys_apart_iff (transactions : List Transaction) :
    (transactions.flatMap elementKeys).Nodup ↔
      transactions.Pairwise fun left right => ¬Collide left right := by
  rw [List.nodup_flatMap]
  constructor
  · intro found
    apply found.2.imp
    intro left right apart collision
    rcases (collide_iff left right).mp collision with ⟨key, inLeft, inRight⟩
    exact apart inLeft inRight
  · intro apart
    refine ⟨fun transaction _ => element_keys_nodup transaction, apart.imp ?_⟩
    intro left right free key inLeft inRight
    exact free ((collide_iff left right).mpr ⟨key, inLeft, inRight⟩)

theorem no_fills_has (db : Database) (userId : Uuid) (empty : fillRowsOf db userId = [])
    (key : FillKey) : ¬db.fills.Has (userId, key) := by
  intro present
  rcases List.mem_map.mp present with ⟨row, member, same⟩
  have owner : row.userId = userId := congrArg Prod.fst same
  have owned : row ∈ fillRowsOf db userId :=
    List.mem_filter.mpr ⟨member, by simpa using owner⟩
  rw [empty] at owned
  cases owned

theorem fill_rows_nodup_iff (keys : KeyService) (draws : Nat → FillDraw) (userId : Uuid) (dek : Bytes)
    (keyVersion : Int) (fills : List FillWrite) :
    ((fillRows keys userId dek keyVersion draws fills.zipIdx).map Fill.primaryKey).Nodup ↔
      (fills.map FillWrite.key).Nodup := by
  have paired : fills.map (fun fill => (userId, fill.key)) =
      (fills.map FillWrite.key).map (Prod.mk userId) := by
    rw [List.map_map]
    rfl
  have injective : Function.Injective (Prod.mk userId : FillKey → Uuid × FillKey) :=
    fun left right same => congrArg Prod.snd same
  rw [fill_rows_keys, paired, List.nodup_map_iff injective]

/-- Rows read back one by one as the fills they were made of. -/
theorem fill_rows_read (keys : KeyService) (draws : Nat → FillDraw) (userId : Uuid) (dek : Bytes)
    (keyVersion : Int) (db : Database)
    (current : currentDek keys db userId = .ok (dek, keyVersion)) (fills : List FillWrite) :
    (fillRows keys userId dek keyVersion draws fills.zipIdx).map (readFill keys db userId) =
      fills.map fun fill => .ok (recordOf userId keyVersion fill) := by
  rw [fillRows, List.map_map]
  have reads : readFill keys db userId ∘ (fun fill : FillWrite × Nat =>
      fillRow keys userId dek keyVersion (draws fill.2) fill.1) =
      (fun fill : FillWrite => .ok (recordOf userId keyVersion fill)) ∘ Prod.fst := by
    funext indexed
    exact read_fill_row keys db userId dek keyVersion (draws indexed.2) indexed.1 current
  rw [reads, ← List.map_map, List.zipIdx_map_fst]

section Landing

variable (keys : KeyService) (draws : Nat → FillDraw) (userId : Uuid) (dek : Bytes)
  (keyVersion : Int) (db : Database)

/-- The fills of a list are extracted and inserted, and the user's rows are
these fills then: as many as were extracted, in their order, each read back as
its fill. -/
def EachFillLands (transactions : List Transaction) : Prop :=
  ∃ extracted landed after, extractAll transactions = .ok extracted ∧
    withinColumns (∀ fill ∈ extracted.1, fill.Fits) (insertFills keys draws userId extracted.1 db) =
      .ok (landed, after) ∧
    landed = extracted.1.length ∧
    (fillRowsOf after userId).map (readFill keys after userId) =
      extracted.1.map fun fill => .ok (recordOf userId keyVersion fill)

/-- Of a batch that was stored, every fill is counted exactly when their keys
differ. -/
theorem landed_all_iff (empty : fillRowsOf db userId = []) (fills : List FillWrite) :
    (landedRows keys userId dek keyVersion draws fills db).length = fills.length ↔
      (fills.map FillWrite.key).Nodup := by
  have size : (fillRows keys userId dek keyVersion draws fills.zipIdx).length = fills.length := by
    rw [fillRows, List.length_map, List.length_zipIdx]
  have absent : ∀ row ∈ fillRows keys userId dek keyVersion draws fills.zipIdx,
      ¬db.fills.Has row.primaryKey := by
    intro row member
    obtain ⟨fill, _, draw, shape⟩ := mem_fill_rows keys userId dek keyVersion draws _ row member
    rw [shape, fill_row_primary_key]
    exact no_fills_has db userId empty fill.key
  rw [landedRows, ← size, insert_or_skip_all_iff, fill_rows_nodup_iff]
  exact and_iff_left absent

/-- Every extracted fill becomes a row of its own exactly when the elements are
extracted, their fills fit the columns and no two elements collide. -/
theorem all_fills_land_iff (current : currentDek keys db userId = .ok (dek, keyVersion))
    (empty : fillRowsOf db userId = []) (transactions : List Transaction) :
    EachFillLands keys draws userId keyVersion db transactions ↔
      (∀ transaction ∈ transactions, ExtractionReturns transaction ∧ FitsColumns transaction) ∧
        transactions.Pairwise fun left right => ¬Collide left right := by
  constructor
  · rintro ⟨extracted, landed, after, ran, inserted, all, _⟩
    obtain ⟨fit, inserted⟩ := (within_columns_ok _ _ _).mp inserted
    have returns := (extract_all_ok_iff transactions).mp ⟨extracted, ran⟩
    obtain ⟨other, counted, _⟩ :=
      insert_fills_spec keys draws userId extracted.1 db dek keyVersion current
    rw [inserted] at counted
    cases counted
    have apart := (landed_all_iff keys draws userId dek keyVersion db empty extracted.1).mp all
    rw [extract_all_keys transactions extracted ran, element_keys_apart_iff] at apart
    rw [extract_all_fills transactions extracted ran] at fit
    refine ⟨fun transaction member => ⟨returns transaction member, ?_⟩, apart⟩
    exact (fills_fit_iff transaction (returns transaction member)).mp fun fill inside =>
      fit fill (List.mem_flatMap.mpr ⟨transaction, member, inside⟩)
  · rintro ⟨each, apart⟩
    obtain ⟨extracted, ran⟩ := (extract_all_ok_iff transactions).mpr fun transaction member =>
      (each transaction member).1
    have fit : ∀ fill ∈ extracted.1, fill.Fits := by
      rw [extract_all_fills transactions extracted ran]
      intro fill inside
      obtain ⟨transaction, member, own⟩ := List.mem_flatMap.mp inside
      obtain ⟨returns, fits⟩ := each transaction member
      exact (fills_fit_iff transaction returns).mpr fits fill own
    rw [← element_keys_apart_iff, ← extract_all_keys transactions extracted ran] at apart
    obtain ⟨after, inserted, frame, _, own⟩ :=
      insert_fills_spec keys draws userId extracted.1 db dek keyVersion current
    have whole := (landed_records_all keys userId dek keyVersion draws extracted.1 db current apart
      fun fill _ => no_fills_has db userId empty fill.key).1
    have stillCurrent : currentDek keys after userId = .ok (dek, keyVersion) := by
      rw [frame]
      exact current
    refine ⟨extracted, _, after, ran, (within_columns_ok _ _ _).mpr ⟨fit, inserted⟩, ?_, ?_⟩
    · exact (landed_all_iff keys draws userId dek keyVersion db empty extracted.1).mpr apart
    · rw [own, empty, List.nil_append, whole]
      exact fill_rows_read keys draws userId dek keyVersion after stillCurrent extracted.1

end Landing

theorem all_fills_land_iff_two_symbols :
    EachFillLands plainKeys plainDraw ⟨1⟩ 1 provisionedUser
      [executionOf 1 "SPXW  260320C05000000" 1, executionOf 2 "SPXW  260320P05000000" 2] :=
  (all_fills_land_iff plainKeys plainDraw ⟨1⟩ [7] 1 provisionedUser (by decide) (by decide) _).mpr
    (by decide +kernel)

/-- Two executions of one order, one symbol, one vendor time: two activities,
two fills extracted, one row. -/
theorem second_execution_dropped :
    ([executionOf 1 "SPXW  260320C05000000" 1,
        executionOf 2 "SPXW  260320C05000000" 2].map Transaction.activityId).Nodup ∧
      (∃ extracted, extractAll [executionOf 1 "SPXW  260320C05000000" 1,
          executionOf 2 "SPXW  260320C05000000" 2] = .ok extracted ∧ extracted.1.length = 2 ∧
        (insertFills plainKeys plainDraw ⟨1⟩ extracted.1 provisionedUser).toOption.map Prod.fst =
          some 1) ∧
      ¬EachFillLands plainKeys plainDraw ⟨1⟩ 1 provisionedUser
        [executionOf 1 "SPXW  260320C05000000" 1, executionOf 2 "SPXW  260320C05000000" 2] := by
  have reads : ((extractAll [executionOf 1 "SPXW  260320C05000000" 1,
      executionOf 2 "SPXW  260320C05000000" 2]).toOption.any fun extracted =>
        decide (extracted.1.length = 2) &&
          decide ((insertFills plainKeys plainDraw ⟨1⟩ extracted.1 provisionedUser).toOption.map
            Prod.fst = some 1)) = true := by
    decide +kernel
  obtain ⟨extracted, ran, holds⟩ := ok_of_any _ _ reads
  obtain ⟨two, one⟩ := Bool.and_eq_true_iff.mp holds
  have two := of_decide_eq_true two
  have one := of_decide_eq_true one
  refine ⟨by decide, ⟨extracted, ran, two, one⟩, ?_⟩
  rintro ⟨other, landed, after, again, inserted, all, _⟩
  rw [ran] at again
  cases again
  obtain ⟨_, inserted⟩ := (within_columns_ok _ _ _).mp inserted
  rw [inserted] at one
  cases one
  rw [two] at all
  cases all

end Morai.Ingest.FillCollisions
