import Morai.Ingest.ExtractFills

/-!
# The same activity, its legs listed in another order

`leg_index` is part of a fill's key and is the leg's place among the option
legs of the listing, so a listing in another order gives a leg another key
unless a leg of the same symbol stood at its new place before.
-/

namespace Morai.Ingest.Reingest

open Morai.Crypto Morai.Db Morai.Python Morai.Foundation.PrimaryKey Morai.Ledger.Fills
  Morai.Ingest.ExtractFills

set_option autoImplicit false

/-- The activity with its legs listed as `items`. -/
def relisted (transaction : Transaction) (items : List TransferItem) : Transaction :=
  { transaction with transferItems := items }

/-- The activity's own listing has, at the place of `leg`, a leg of the same
symbol that yields a fill. -/
def StandsAt (transaction : Transaction) (leg : TransferItem × Nat) : Prop :=
  ∃ original ∈ (optionItems transaction).zipIdx,
    original.2 = leg.2 ∧ YieldsFill original.1 ∧ legSymbol original.1 = legSymbol leg.1

instance decidableStandsAt (transaction : Transaction) (leg : TransferItem × Nat) :
    Decidable (StandsAt transaction leg) :=
  inferInstanceAs (Decidable (∃ original ∈ (optionItems transaction).zipIdx, _ ∧ _ ∧ _))

/-- The legs of a listing that become fills, each with its place. -/
def fillLegs (transaction : Transaction) : List (TransferItem × Nat) :=
  (optionItems transaction).zipIdx.filter fun leg => YieldsFill leg.1

/-- Every fill of the second listing has its key among those of the first. -/
def PlacesKept (transaction : Transaction) (items : List TransferItem) : Prop :=
  transaction.orderId = none ∨
    ∀ leg ∈ fillLegs (relisted transaction items), StandsAt transaction leg

/-- As `PlacesKept`, or the leg's key was stored before either listing came. -/
def PlacesKeptOrStored (userId : Uuid) (db : Database) (transaction : Transaction)
    (items : List TransferItem) : Prop :=
  ∀ orderId, transaction.orderId = some orderId →
    ∀ leg ∈ fillLegs (relisted transaction items),
      StandsAt transaction leg ∨ db.fills.Has (userId, legKey orderId transaction.time leg)

theorem element_keys_of_order (transaction : Transaction) (orderId : String)
    (trade : transaction.type = "TRADE") (order : transaction.orderId = some orderId) :
    elementKeys transaction = (fillLegs transaction).map (legKey orderId transaction.time) := by
  simp only [elementKeys, trade, if_true, order, fillLegs]

theorem element_keys_without_order (transaction : Transaction)
    (missing : transaction.orderId = none) : elementKeys transaction = [] := by
  simp only [elementKeys, missing, ite_self]

theorem leg_key_mem_iff (transaction : Transaction) (orderId : String)
    (trade : transaction.type = "TRADE") (order : transaction.orderId = some orderId)
    (leg : TransferItem × Nat) :
    legKey orderId transaction.time leg ∈ elementKeys transaction ↔ StandsAt transaction leg := by
  rw [element_keys_of_order transaction orderId trade order, List.mem_map]
  constructor
  · intro found
    obtain ⟨original, member, same⟩ := found
    obtain ⟨listed, yields⟩ := List.mem_filter.mp member
    simp only [legKey, FillKey.mk.injEq, Int.natCast_inj, true_and, and_true] at same
    exact ⟨original, listed, same.2, of_decide_eq_true yields, same.1⟩
  · intro stands
    obtain ⟨original, listed, place, yields, symbol⟩ := stands
    have member : original ∈ fillLegs transaction :=
      List.mem_filter.mpr ⟨listed, decide_eq_true yields⟩
    refine ⟨original, member, ?_⟩
    unfold legKey
    rw [place, symbol]

theorem fill_legs_length (transaction : Transaction) :
    (fillLegs transaction).length =
      ((optionItems transaction).filter fun item => YieldsFill item).length := by
  have projected := congrArg List.length
    (List.filter_map (f := Prod.fst) (l := (optionItems transaction).zipIdx)
      (p := fun item => YieldsFill item))
  rw [List.zipIdx_map_fst, List.length_map] at projected
  exact projected.symm

/-- Both listings have the same number of fills. -/
theorem element_keys_length (transaction : Transaction) (items : List TransferItem)
    (trade : transaction.type = "TRADE") (permutation : items.Perm transaction.transferItems) :
    (elementKeys (relisted transaction items)).length = (elementKeys transaction).length := by
  cases order : transaction.orderId with
  | none =>
      have missing : (relisted transaction items).orderId = none := order
      rw [element_keys_without_order _ missing, element_keys_without_order _ order]
  | some orderId =>
      have relistedOrder : (relisted transaction items).orderId = some orderId := order
      have sameLegs : (optionItems (relisted transaction items)).Perm (optionItems transaction) :=
        permutation.filter _
      rw [element_keys_of_order _ orderId trade order,
        element_keys_of_order (relisted transaction items) orderId trade relistedOrder,
        List.length_map, List.length_map, fill_legs_length, fill_legs_length]
      exact (sameLegs.filter fun item => YieldsFill item).length_eq

/-- The keys of the second listing are among those of the first exactly when
the places are kept. -/
theorem keys_subset_iff (transaction : Transaction) (items : List TransferItem)
    (trade : transaction.type = "TRADE") :
    (∀ key ∈ elementKeys (relisted transaction items), key ∈ elementKeys transaction) ↔
      PlacesKept transaction items := by
  cases order : transaction.orderId with
  | none =>
      have missing : (relisted transaction items).orderId = none := order
      rw [element_keys_without_order _ missing]
      constructor
      · exact fun _ => Or.inl order
      · intro _ key member
        cases member
  | some orderId =>
      have relistedOrder : (relisted transaction items).orderId = some orderId := order
      rw [element_keys_of_order (relisted transaction items) orderId trade relistedOrder,
        List.forall_mem_map]
      constructor
      · intro found
        refine Or.inr fun leg member => ?_
        exact (leg_key_mem_iff transaction orderId trade order leg).mp (found leg member)
      · intro kept leg member
        cases kept with
        | inl missing => cases order.symm.trans missing
        | inr stands =>
            exact (leg_key_mem_iff transaction orderId trade order leg).mpr (stands leg member)

/-- The two listings have the same fill keys exactly when the places are
kept. -/
theorem keys_agree_iff (transaction : Transaction) (items : List TransferItem)
    (trade : transaction.type = "TRADE") (permutation : items.Perm transaction.transferItems) :
    (∀ key, key ∈ elementKeys (relisted transaction items) ↔ key ∈ elementKeys transaction) ↔
      PlacesKept transaction items := by
  rw [← keys_subset_iff transaction items trade]
  constructor
  · exact fun same key member => (same key).mp member
  · intro subset key
    have embedded := (element_keys_nodup (relisted transaction items)).subperm subset
    have rearranged := embedded.perm_of_length_le
      (element_keys_length transaction items trade permutation).ge
    exact rearranged.mem_iff

variable (keys : KeyService)

/-- A batch on top of another one lands nothing exactly when each of its keys
was in the first batch or stored before. -/
theorem landing_noop_iff (draws redraws : Nat → FillDraw) (userId : Uuid) (dek : Bytes)
    (keyVersion : Int) (fills again : List FillWrite) (db : Database) :
    let first := (insertOrSkip db.fills (fillRows keys userId dek keyVersion draws fills.zipIdx)).1
    let rows := fillRows keys userId dek keyVersion redraws again.zipIdx
    ((insertOrSkip first rows).2.length = 0 ∧
      { { db with fills := first } with fills := (insertOrSkip first rows).1 } =
        { db with fills := first }) ↔
      ∀ fill ∈ again, fill.key ∈ fills.map FillWrite.key ∨ db.fills.Has (userId, fill.key) := by
  intro first rows
  have asStatement : ((insertOrSkip first rows).2.length = 0 ∧
      { { db with fills := first } with fills := (insertOrSkip first rows).1 } =
        { db with fills := first }) ↔ insertOrSkip first rows = (first, []) := by
    constructor
    · intro same
      exact Prod.ext (congrArg Database.fills same.2) (List.eq_nil_of_length_eq_zero same.1)
    · intro same
      rw [same]
      exact ⟨rfl, rfl⟩
  have keysOf : rows.map Fill.primaryKey = again.map fun fill => (userId, fill.key) :=
    fill_rows_keys keys userId dek keyVersion redraws again
  have allPresent : (∀ row ∈ rows, first.Has row.primaryKey) ↔
      ∀ wanted ∈ rows.map Fill.primaryKey, first.Has wanted := List.forall_mem_map.symm
  rw [asStatement, insert_or_skip_same_iff, allPresent, keysOf, List.forall_mem_map]
  apply forall₂_congr
  intro fill _
  rw [insert_or_skip_has, fill_rows_keys, or_comm]
  apply or_congr_left
  simp

/-- A second batch as long as the first returns as well, and is a no-op
exactly when each of its keys was in the first batch or stored before. -/
theorem second_batch_noop_iff (draws redraws : Nat → FillDraw) (userId : Uuid)
    (fills again : List FillWrite) (db first : Database) (landed : Nat)
    (sameLength : again.length = fills.length)
    (ran : insertFills keys draws userId fills db = .ok (landed, first)) :
    ∃ relanded second, insertFills keys redraws userId again first = .ok (relanded, second) ∧
      (relanded = 0 ∧ second = first ↔
        ∀ fill ∈ again, fill.key ∈ fills.map FillWrite.key ∨ db.fills.Has (userId, fill.key)) := by
  by_cases empty : fills = []
  · have nothing : again = [] := List.eq_nil_of_length_eq_zero (by rw [sameLength, empty]; rfl)
    rw [nothing]
    refine ⟨0, first, rfl, ?_⟩
    simp
  · cases current : currentDek keys db userId with
    | error raised =>
        rw [insert_fills_raises keys draws userId fills db raised empty current] at ran
        cases ran
    | ok found =>
        obtain ⟨dek, keyVersion⟩ := found
        have stored := insert_fills_rows keys draws userId fills db dek keyVersion current
        rw [stored] at ran
        cases ran
        have currentAgain := (current_dek_congr keys
          { db with fills := (insertOrSkip db.fills (fillRows keys userId dek keyVersion draws
            fills.zipIdx)).1 } db userId rfl).trans current
        refine ⟨_, _, insert_fills_rows keys redraws userId again _ dek keyVersion currentAgain, ?_⟩
        exact landing_noop_iff keys draws redraws userId dek keyVersion fills again db

/-- A listing in another order is extracted as well. -/
theorem relisted_returns (transaction : Transaction) (items : List TransferItem)
    (permutation : items.Perm transaction.transferItems)
    (returns : ExtractionReturns transaction) : ExtractionReturns (relisted transaction items) := by
  intro trade ordered item member
  exact returns trade ordered item ((permutation.filter _).mem_iff.mp member)

theorem batch_keys_iff (userId : Uuid) (db : Database) (transaction : Transaction)
    (items : List TransferItem) (fills again : List FillWrite)
    (keysOf : fills.map FillWrite.key = elementKeys transaction)
    (keysAgain : again.map FillWrite.key = elementKeys (relisted transaction items))
    (trade : transaction.type = "TRADE") :
    (∀ fill ∈ again, fill.key ∈ fills.map FillWrite.key ∨ db.fills.Has (userId, fill.key)) ↔
      PlacesKeptOrStored userId db transaction items := by
  have overKeys := List.forall_mem_map (f := FillWrite.key) (l := again)
    (P := fun key => key ∈ elementKeys transaction ∨ db.fills.Has (userId, key))
  rw [keysOf, ← overKeys, keysAgain]
  unfold PlacesKeptOrStored
  cases order : transaction.orderId with
  | none =>
      have missing : (relisted transaction items).orderId = none := order
      rw [element_keys_without_order _ missing]
      simp
  | some orderId =>
      have relistedOrder : (relisted transaction items).orderId = some orderId := order
      rw [element_keys_of_order (relisted transaction items) orderId trade relistedOrder,
        List.forall_mem_map]
      simp only [Option.some.injEq, forall_eq']
      apply forall₂_congr
      intro leg _
      exact or_congr_left (leg_key_mem_iff transaction orderId trade order leg)

/-- Ingesting an activity again with its legs listed in another order is a
no-op exactly when each leg that becomes a fill has moved to a place where a
leg of its symbol stood, or had that key stored before. The fill keys are the
same exactly when each has moved to such a place. -/
theorem relisted_reingest_noop_iff (draws redraws : Nat → FillDraw) (userId : Uuid)
    (transaction : Transaction) (items : List TransferItem) (db first : Database) (landed : Nat)
    (extracted : List FillWrite × List String)
    (trade : transaction.type = "TRADE") (permutation : items.Perm transaction.transferItems)
    (extraction : extractFills transaction = .ok extracted)
    (ran : insertFills keys draws userId extracted.1 db = .ok (landed, first)) :
    ∃ again, extractFills (relisted transaction items) = .ok again ∧
      (∃ relanded second, insertFills keys redraws userId again.1 first = .ok (relanded, second) ∧
        (relanded = 0 ∧ second = first ↔ PlacesKeptOrStored userId db transaction items)) ∧
      ((∀ key, key ∈ again.1.map FillWrite.key ↔ key ∈ extracted.1.map FillWrite.key) ↔
        PlacesKept transaction items) := by
  have returns := (extract_fills_ok_iff transaction).mp ⟨extracted, extraction⟩
  obtain ⟨again, extractedAgain⟩ := (extract_fills_ok_iff (relisted transaction items)).mpr
    (relisted_returns transaction items permutation returns)
  have keysOf := extract_fills_keys transaction extracted extraction
  have keysAgain := extract_fills_keys (relisted transaction items) again extractedAgain
  have sameLength : again.1.length = extracted.1.length := by
    have keysLength := element_keys_length transaction items trade permutation
    rwa [← keysOf, ← keysAgain, List.length_map, List.length_map] at keysLength
  refine ⟨again, extractedAgain, ?_, ?_⟩
  · obtain ⟨relanded, second, returned, noop⟩ := second_batch_noop_iff keys draws redraws userId
      extracted.1 again.1 db first landed sameLength ran
    exact ⟨relanded, second, returned, noop.trans (batch_keys_iff userId db transaction items
      extracted.1 again.1 keysOf keysAgain trade)⟩
  · rw [keysOf, keysAgain]
    exact keys_agree_iff transaction items trade permutation

/-- A spread of two symbols in one activity. -/
def callLeg : TransferItem :=
  ⟨some ⟨some "SPXW  260320C05000000", some "OPTION"⟩, some ⟨1, 0⟩, some ⟨1250, -2⟩, none,
    some "OPENING"⟩

def putLeg : TransferItem :=
  ⟨some ⟨some "SPXW  260320P05000000", some "OPTION"⟩, some ⟨-1, 0⟩, some ⟨900, -2⟩, none,
    some "OPENING"⟩

def feeItem : TransferItem := ⟨some ⟨some "CURRENCY_USD", some "CURRENCY"⟩, none, none, none, none⟩

def spread : Transaction where
  activityId := .number 1
  type := "TRADE"
  time := 1000
  orderId := some "7001"
  transferItems := [callLeg, feeItem, putLeg]

/-- An item that is not an option leg may move anywhere. -/
theorem relisted_reingest_noop_iff_fee_moved :
    ∃ landed first again, insertFills plainKeys plainDraw ⟨1⟩ (fillsOf spread) provisionedUser =
        .ok (landed, first) ∧
      extractFills (relisted spread [feeItem, callLeg, putLeg]) = .ok again ∧
      ∃ relanded second, insertFills plainKeys plainDraw ⟨1⟩ again.1 first =
          .ok (relanded, second) ∧
        relanded = 0 ∧ second = first := by
  have extraction : extractFills spread = .ok (fillsOf spread, []) := by decide +kernel
  have ran := insert_fills_rows plainKeys plainDraw ⟨1⟩ (fillsOf spread) provisionedUser [7] 1
    (by decide)
  have moved : [feeItem, callLeg, putLeg].Perm spread.transferItems :=
    List.Perm.swap callLeg feeItem [putLeg]
  have kept : PlacesKept spread [feeItem, callLeg, putLeg] := by
    refine Or.inr ?_
    decide +kernel
  obtain ⟨again, extractedAgain, ⟨relanded, second, returned, noop⟩, _⟩ :=
    relisted_reingest_noop_iff plainKeys plainDraw plainDraw ⟨1⟩ spread [feeItem, callLeg, putLeg]
      provisionedUser _ _ _ rfl moved extraction ran
  refine ⟨_, _, again, ran, extractedAgain, relanded, second, returned, noop.mpr ?_⟩
  intro orderId _ leg member
  cases kept with
  | inl missing => cases missing
  | inr stands => exact Or.inl (stands leg member)

/-- The two legs of the spread in the other order: two more fills land. -/
theorem swapped_legs_land_again :
    [putLeg, feeItem, callLeg].Perm spread.transferItems ∧
      ∃ fills again landed first, extractFills spread = .ok (fills, []) ∧
        extractFills (relisted spread [putLeg, feeItem, callLeg]) = .ok (again, []) ∧
        insertFills plainKeys plainDraw ⟨1⟩ fills provisionedUser = .ok (landed, first) ∧
        (insertFills plainKeys plainDraw ⟨1⟩ again first).toOption.map
            (fun outcome => (outcome.1, outcome.2.fills.rows.length)) = some (2, 4) := by
  constructor
  · decide +kernel
  · refine ⟨fillsOf spread, fillsOf (relisted spread [putLeg, feeItem, callLeg]), _, _,
      by decide +kernel, by decide +kernel, insert_fills_rows plainKeys plainDraw ⟨1⟩
      (fillsOf spread) provisionedUser [7] 1 (by decide), ?_⟩
    decide +kernel

end Morai.Ingest.Reingest
