import Mathlib.Data.Set.Insert
import Morai.Foundation.RelationalQuery
import Morai.Ledger.Pairing

/-!
# Order-anchor disambiguation

Rule 3 first, as sets: within one order, a symbol that only one position
holds anchors the order to it, and a fill resolves when exactly one of its
candidates is anchored. Then the four-CTE query as written, and the proof that
it computes the rule for every user, whatever rows the joins multiply.
-/

namespace Morai.Ledger.ResolveQuery

open Morai.Db Morai.Python Morai.Foundation.OrderedGroups Morai.Foundation.RelationalQuery
open Morai.Ledger.Pairing

set_option autoImplicit false

/-! ## Rule 3 -/

section Rule

variable {Position Symbol Order : Type*}
variable (holds : Position → Symbol → Prop) (traded : Order → Symbol → Prop)

def Candidates (symbol : Symbol) : Set Position := {position | holds position symbol}

def Anchored (order : Order) : Set Position :=
  {position | ∃ symbol, traded order symbol ∧ Candidates holds symbol = {position}}

def ResolvesTo (order : Order) (symbol : Symbol) (position : Position) : Prop :=
  Candidates holds symbol ∩ Anchored holds traded order = {position}

/-- A fill whose symbol one position alone holds resolves to it. -/
theorem anchor_resolves_to_itself (order : Order) (symbol : Symbol) (position : Position)
    (present : traded order symbol) (only : Candidates holds symbol = {position}) :
    ResolvesTo holds traded order symbol position := by
  unfold ResolvesTo
  rw [only]
  apply Set.inter_eq_left.mpr
  intro other member
  rw [Set.mem_singleton_iff] at member
  exact ⟨symbol, present, member ▸ only⟩

/-- A candidate that its order anchors is the only answer there can be. -/
theorem resolves_to_owner (order : Order) (symbol : Symbol) (owner position : Position)
    (candidate : holds owner symbol) (anchors : owner ∈ Anchored holds traded order)
    (resolves : ResolvesTo holds traded order symbol position) : position = owner := by
  have inside : owner ∈ Candidates holds symbol ∩ Anchored holds traded order :=
    ⟨candidate, anchors⟩
  rw [resolves] at inside
  exact (Set.mem_singleton_iff.mp inside).symm

/-- Without an answer, another candidate is anchored too. -/
theorem unresolved_has_rival (order : Order) (symbol : Symbol) (owner : Position)
    (candidate : holds owner symbol) (anchors : owner ∈ Anchored holds traded order)
    (unresolved : ∀ position, ¬ResolvesTo holds traded order symbol position) :
    ∃ rival, rival ≠ owner ∧ holds rival symbol ∧ rival ∈ Anchored holds traded order := by
  by_contra alone
  apply unresolved owner
  apply Set.eq_singleton_iff_unique_mem.mpr
  refine ⟨⟨candidate, anchors⟩, ?_⟩
  intro other inside
  by_contra different
  exact alone ⟨other, different, inside.1, inside.2⟩

/-- Only the order's own trades anchor it. -/
theorem anchored_congr (traded' : Order → Symbol → Prop) (order : Order)
    (same : ∀ symbol, traded order symbol ↔ traded' order symbol) :
    Anchored holds traded order = Anchored holds traded' order := by
  ext position
  simp only [Anchored, same, Set.mem_ofPred_eq]

end Rule

/-! ## The query -/

/-- `cardinality_violation` and `invalid_text_representation`. -/
inductive QueryError where
  | moreThanOneRow
  | invalidUuidText
  deriving DecidableEq, Repr

structure FillCandidate where
  userId : Uuid
  orderId : String
  occSymbol : String
  legIndex : Int
  executionTime : Instant
  positionId : Uuid
  deriving DecidableEq, Repr

def FillCandidate.key (row : FillCandidate) : FillKey :=
  ⟨row.orderId, row.occSymbol, row.legIndex, row.executionTime⟩

structure Anchor where
  userId : Uuid
  orderId : String
  occSymbol : String
  positionId : Option Uuid
  deriving DecidableEq, Repr

structure OrderAnchor where
  userId : Uuid
  orderId : String
  positionId : Option Uuid
  deriving DecidableEq, Repr

structure ResolvedRow where
  orderId : String
  occSymbol : String
  legIndex : Int
  executionTime : Instant
  resolvedPositionId : Option Uuid
  deriving DecidableEq, Repr

def ResolvedRow.key (row : ResolvedRow) : FillKey :=
  ⟨row.orderId, row.occSymbol, row.legIndex, row.executionTime⟩

def positionLegs (userId : Uuid) (legs : List Leg) : List Leg :=
  legs.filter fun leg => leg.userId = userId

def candidateOf (pair : Fill × Leg) : FillCandidate :=
  ⟨pair.1.userId, pair.1.orderId, pair.1.occSymbol, pair.1.legIndex, pair.1.executionTime,
    pair.2.positionId⟩

def fillCandidates (userId : Uuid) (legs : List Leg) (fills : List Fill) : List FillCandidate :=
  ((innerJoin (fun fill leg => leg.userId = fill.userId ∧ leg.occSymbol = fill.occSymbol)
      fills (positionLegs userId legs)).filter fun pair => pair.1.userId = userId).map candidateOf

/-- `MIN(position_id::text)::uuid`. -/
def minPosition (positions : List Uuid) : Except QueryError (Option Uuid) :=
  match (positions.map Uuid.text).min? with
  | none => .ok none
  | some text =>
      match Uuid.ofText? text with
      | none => .error .invalidUuidText
      | some position => .ok (some position)

def anchorGroup (row : FillCandidate) : Uuid × String × String :=
  (row.userId, row.orderId, row.occSymbol)

def anchorRow (group : (Uuid × String × String) × List FillCandidate) :
    Except QueryError Anchor := do
  let positionId ← minPosition (group.2.map FillCandidate.positionId)
  .ok ⟨group.1.1, group.1.2.1, group.1.2.2, positionId⟩

def anchors (candidates : List FillCandidate) : Except QueryError (List Anchor) :=
  ((groupBy anchorGroup candidates).filter fun group =>
    countDistinct (group.2.map FillCandidate.positionId) = 1).mapM anchorRow

def Anchor.ofOrder (anchor : Anchor) : OrderAnchor :=
  ⟨anchor.userId, anchor.orderId, anchor.positionId⟩

def orderAnchors (anchors : List Anchor) : List OrderAnchor := (anchors.map Anchor.ofOrder).dedup

/-- The correlated subquery: an aggregate without `GROUP BY`, so always one
row. -/
def resolvedPosition (candidates : List FillCandidate) (orderAnchors : List OrderAnchor)
    (userId : Uuid) (key : FillKey) : Except QueryError (Option Uuid) := do
  let ownPositions := (candidates.filter fun other =>
    other.userId = userId ∧ other.key = key).map FillCandidate.positionId
  let surviving := orderAnchors.filter fun anchor =>
    anchor.userId = userId ∧ anchor.orderId = key.orderId ∧
      anchor.positionId ∈ ownPositions.map some
  let value ← if surviving.length = 1 then
      minPosition (surviving.filterMap OrderAnchor.positionId)
    else .ok none
  match scalarSubquery [value] with
  | none => .error .moreThanOneRow
  | some resolved => .ok resolved

def resultGroup (row : FillCandidate) : Uuid × FillKey := (row.userId, row.key)

def resultRow (candidates : List FillCandidate) (orderAnchors : List OrderAnchor)
    (group : (Uuid × FillKey) × List FillCandidate) : Except QueryError ResolvedRow := do
  let resolved ← resolvedPosition candidates orderAnchors group.1.1 group.1.2
  .ok ⟨group.1.2.orderId, group.1.2.occSymbol, group.1.2.legIndex, group.1.2.executionTime,
    resolved⟩

/-- `RESOLVE_FILL_POSITIONS_SQL`. -/
def resolveFillPositionsSql (userId : Uuid) (legs : List Leg) (fills : List Fill) :
    Except QueryError (List ResolvedRow) := do
  let candidates := fillCandidates userId legs fills
  let anchored ← anchors candidates
  (groupBy resultGroup candidates).mapM (resultRow candidates (orderAnchors anchored))

/-- `resolutions[key] = ...`. -/
def assignRow (resolutions : Resolutions) (row : ResolvedRow) : Resolutions := fun key =>
  if key = row.key then some row.resolvedPositionId else resolutions key

/-- `resolve_fill_positions`: the rows in the order the plan returns them. -/
def resolveFillPositions (order : ScanOrder ResolvedRow) (userId : Uuid) (db : Database) :
    Except Raised Resolutions :=
  match resolveFillPositionsSql userId db.legs db.fills.rows with
  | .error _ => .error .other
  | .ok rows => .ok ((order.arrange rows).foldl assignRow fun _ => none)

/-! ## The rule of one user's rows -/

def Holds (db : Database) (userId position : Uuid) (symbol : String) : Prop :=
  ∃ leg ∈ db.legs, leg.userId = userId ∧ leg.occSymbol = symbol ∧ leg.positionId = position

def Traded (db : Database) (userId : Uuid) (orderId symbol : String) : Prop :=
  ∃ fill ∈ db.fills.rows, fill.userId = userId ∧ fill.orderId = orderId ∧
    fill.occSymbol = symbol

def candidates (db : Database) (userId : Uuid) (symbol : String) : Set Uuid :=
  Candidates (Holds db userId) symbol

def anchored (db : Database) (userId : Uuid) (orderId : String) : Set Uuid :=
  Anchored (Holds db userId) (Traded db userId) orderId

theorem mem_fill_candidates (userId : Uuid) (db : Database) (row : FillCandidate) :
    row ∈ fillCandidates userId db.legs db.fills.rows ↔
      row.userId = userId ∧ (∃ fill ∈ db.fills.rows, fill.userId = userId ∧ fill.key = row.key) ∧
        Holds db userId row.positionId row.occSymbol := by
  rw [fillCandidates, List.mem_map]
  constructor
  · intro found
    rcases found with ⟨pair, member, shape⟩
    rcases List.mem_filter.mp member with ⟨joined, owned⟩
    rcases (mem_inner_join _ _ _ _).mp joined with ⟨fillMember, legMember, matched⟩
    rcases List.mem_filter.mp legMember with ⟨legStored, legOwned⟩
    simp only [decide_eq_true_eq] at owned matched legOwned
    cases shape
    exact ⟨owned, ⟨pair.1, fillMember, owned, rfl⟩,
      ⟨pair.2, legStored, legOwned, matched.2, rfl⟩⟩
  · intro found
    rcases found with ⟨owned, ⟨fill, fillMember, fillOwned, sameKey⟩,
      ⟨leg, legMember, legOwned, sameSymbol, samePosition⟩⟩
    have symbols : fill.occSymbol = row.occSymbol := congrArg FillKey.occSymbol sameKey
    refine ⟨(fill, leg), List.mem_filter.mpr ⟨(mem_inner_join _ _ _ _).mpr
      ⟨fillMember, List.mem_filter.mpr ⟨legMember, by simpa using legOwned⟩, ?_⟩,
        by simpa using fillOwned⟩, ?_⟩
    · simp only [decide_eq_true_eq]
      exact ⟨legOwned.trans fillOwned.symm, sameSymbol.trans symbols.symm⟩
    · rcases row with ⟨rowUser, orderId, occSymbol, legIndex, executionTime, positionId⟩
      simp only [FillCandidate.key, Fill.key, FillKey.mk.injEq] at sameKey
      simp only [candidateOf, FillCandidate.mk.injEq]
      exact ⟨fillOwned.trans owned.symm, sameKey.1, sameKey.2.1, sameKey.2.2.1, sameKey.2.2.2,
        samePosition⟩

/-! ## No step of the query fails -/

theorem map_m_forall₂ {Item Result Failure : Type} (step : Item → Except Failure Result)
    (items : List Item) (all : ∀ item ∈ items, ∃ result, step item = .ok result) :
    ∃ results, items.mapM step = .ok results ∧
      List.Forall₂ (fun item result => step item = .ok result) items results := by
  induction items with
  | nil => exact ⟨[], rfl, List.Forall₂.nil⟩
  | cons item rest ih =>
      rcases all item List.mem_cons_self with ⟨result, first⟩
      rcases ih fun other member => all other (List.mem_cons_of_mem _ member) with
        ⟨results, later, related⟩
      refine ⟨result :: results, ?_, List.Forall₂.cons first related⟩
      simp only [List.mapM_cons, first, later]
      rfl

theorem forall₂_right {Item Result : Type} {related : Item → Result → Prop} {items : List Item}
    {results : List Result} (all : List.Forall₂ related items results) (result : Result)
    (member : result ∈ results) : ∃ item ∈ items, related item result := by
  induction all with
  | nil => cases member
  | cons first rest ih =>
      rcases List.mem_cons.mp member with here | later
      · exact ⟨_, List.mem_cons_self, here ▸ first⟩
      · rcases ih later with ⟨item, found, same⟩
        exact ⟨item, List.mem_cons_of_mem _ found, same⟩

theorem forall₂_left {Item Result : Type} {related : Item → Result → Prop} {items : List Item}
    {results : List Result} (all : List.Forall₂ related items results) (item : Item)
    (member : item ∈ items) : ∃ result ∈ results, related item result :=
  forall₂_right all.flip item member

theorem forall₂_map_eq {Item Result Key : Type} {related : Item → Result → Prop}
    {items : List Item} {results : List Result} {itemKey : Item → Key} {resultKey : Result → Key}
    (all : List.Forall₂ related items results)
    (same : ∀ item result, item ∈ items → related item result →
      resultKey result = itemKey item) : results.map resultKey = items.map itemKey := by
  induction all with
  | nil => rfl
  | cons first rest ih =>
      rw [List.map_cons, List.map_cons, same _ _ List.mem_cons_self first,
        ih fun item result member => same item result (List.mem_cons_of_mem _ member)]

theorem min_position_of_constant (positions : List Uuid) (position : Uuid)
    (same : ∀ other, other ∈ positions ↔ other = position) :
    minPosition positions = .ok (some position) := by
  have least : (positions.map Uuid.text).min? = some position.text := by
    apply min_of_constant
    intro text
    rw [List.mem_map]
    constructor
    · intro found
      rcases found with ⟨other, member, shape⟩
      rw [← shape, (same other).mp member]
    · intro shape
      exact ⟨position, (same position).mpr rfl, shape.symm⟩
  simp only [minPosition, least, uuid_of_text]

/-- A kept group's anchor is the one position its rows share. -/
theorem anchor_of_group (group : (Uuid × String × String) × List FillCandidate)
    (kept : countDistinct (group.2.map FillCandidate.positionId) = 1) :
    ∃ position, anchorRow group = .ok ⟨group.1.1, group.1.2.1, group.1.2.2, some position⟩ ∧
      ∀ other, other ∈ group.2.map FillCandidate.positionId ↔ other = position := by
  rcases (count_distinct_one _).mp kept with ⟨position, same⟩
  refine ⟨position, ?_, same⟩
  rw [anchorRow, min_position_of_constant _ position same]
  rfl

/-! ## Every group, as the rule's sets -/

theorem positions_of_order (userId : Uuid) (db : Database) (key : Uuid × String × String)
    (position : Uuid) :
    (∃ row ∈ fillCandidates userId db.legs db.fills.rows,
        anchorGroup row = key ∧ row.positionId = position) ↔
      key.1 = userId ∧ Traded db userId key.2.1 key.2.2 ∧ Holds db userId position key.2.2 := by
  constructor
  · intro found
    rcases found with ⟨row, member, sameKey, samePosition⟩
    rcases (mem_fill_candidates userId db row).mp member with
      ⟨owned, ⟨fill, fillMember, fillOwned, fillKey⟩, holds⟩
    cases sameKey
    cases samePosition
    exact ⟨owned, ⟨fill, fillMember, fillOwned, congrArg FillKey.orderId fillKey,
      congrArg FillKey.occSymbol fillKey⟩, holds⟩
  · intro found
    rcases found with ⟨owned, ⟨fill, fillMember, fillOwned, order, symbol⟩, holds⟩
    refine ⟨⟨userId, key.2.1, key.2.2, fill.legIndex, fill.executionTime, position⟩,
      (mem_fill_candidates userId db _).mpr ⟨rfl, ⟨fill, fillMember, fillOwned, ?_⟩, holds⟩,
      Prod.ext owned.symm rfl, rfl⟩
    rw [FillCandidate.key, Fill.key, order, symbol]

theorem positions_of_fill (userId owner : Uuid) (db : Database) (key : FillKey)
    (position : Uuid) :
    (∃ row ∈ fillCandidates userId db.legs db.fills.rows,
        (row.userId = owner ∧ row.key = key) ∧ row.positionId = position) ↔
      owner = userId ∧ (∃ fill ∈ db.fills.rows, fill.userId = userId ∧ fill.key = key) ∧
        Holds db userId position key.occSymbol := by
  constructor
  · intro found
    rcases found with ⟨row, member, ⟨sameOwner, sameKey⟩, samePosition⟩
    rcases (mem_fill_candidates userId db row).mp member with ⟨owned, stored, holds⟩
    cases sameKey
    cases samePosition
    exact ⟨sameOwner.symm.trans owned, stored, holds⟩
  · intro found
    rcases found with ⟨owned, stored, holds⟩
    exact ⟨⟨userId, key.orderId, key.occSymbol, key.legIndex, key.executionTime, position⟩,
      (mem_fill_candidates userId db _).mpr ⟨rfl, stored, holds⟩, ⟨owned.symm, rfl⟩, rfl⟩

theorem group_positions (userId : Uuid) (db : Database)
    (group : (Uuid × String × String) × List FillCandidate)
    (member : group ∈ groupBy anchorGroup (fillCandidates userId db.legs db.fills.rows))
    (position : Uuid) :
    position ∈ group.2.map FillCandidate.positionId ↔
      group.1.1 = userId ∧ Traded db userId group.1.2.1 group.1.2.2 ∧
        Holds db userId position group.1.2.2 := by
  rw [← positions_of_order, List.mem_map]
  constructor
  · intro found
    rcases found with ⟨row, inGroup, same⟩
    rcases (group_by_members _ _ group member row).mp inGroup with ⟨listed, sameKey⟩
    exact ⟨row, listed, sameKey, same⟩
  · intro found
    rcases found with ⟨row, listed, sameKey, same⟩
    exact ⟨row, (group_by_members _ _ group member row).mpr ⟨listed, sameKey⟩, same⟩

/-- The anchor CTEs hold exactly the anchored positions of the user's
orders. -/
theorem mem_order_anchors (userId : Uuid) (db : Database) :
    ∃ rows, anchors (fillCandidates userId db.legs db.fills.rows) = .ok rows ∧
      ∀ anchor, anchor ∈ orderAnchors rows ↔
        ∃ orderId position, anchor = ⟨userId, orderId, some position⟩ ∧
          position ∈ anchored db userId orderId := by
  have succeeds : ∀ group ∈ (groupBy anchorGroup (fillCandidates userId db.legs
      db.fills.rows)).filter (fun group =>
        countDistinct (group.2.map FillCandidate.positionId) = 1),
      ∃ row, anchorRow group = .ok row := by
    intro group member
    rcases List.mem_filter.mp member with ⟨_, kept⟩
    rcases anchor_of_group group (by simpa using kept) with ⟨position, built, _⟩
    exact ⟨_, built⟩
  rcases map_m_forall₂ _ _ succeeds with ⟨rows, ran, related⟩
  refine ⟨rows, ran, ?_⟩
  intro anchor
  rw [orderAnchors, List.mem_dedup, List.mem_map]
  constructor
  · intro found
    rcases found with ⟨row, rowMember, shape⟩
    rcases forall₂_right related row rowMember with ⟨group, groupMember, built⟩
    rcases List.mem_filter.mp groupMember with ⟨listed, kept⟩
    rcases anchor_of_group group (by simpa using kept) with ⟨position, value, only⟩
    cases value.symm.trans built
    have here := (group_positions userId db group listed position).mp ((only position).mpr rfl)
    refine ⟨group.1.2.1, position, ?_, group.1.2.2, here.2.1, ?_⟩
    · rw [← shape, Anchor.ofOrder, here.1]
    · ext other
      rw [Set.mem_singleton_iff, ← only other, group_positions userId db group listed other]
      exact ⟨fun holds => ⟨here.1, here.2.1, holds⟩, fun found => found.2.2⟩
  · intro found
    rcases found with ⟨orderId, position, shape, symbol, traded, only⟩
    have holds : Holds db userId position symbol := by
      have member : position ∈ Candidates (Holds db userId) symbol := by
        rw [only]
        rfl
      exact member
    have keyed : (userId, orderId, symbol) ∈
        (groupBy anchorGroup (fillCandidates userId db.legs db.fills.rows)).map Prod.fst := by
      rw [mem_group_by_keys]
      rcases (positions_of_order userId db (userId, orderId, symbol) position).mpr
        ⟨rfl, traded, holds⟩ with ⟨row, member, sameKey, _⟩
      exact ⟨row, member, sameKey⟩
    rcases List.mem_map.mp keyed with ⟨group, listed, groupKey⟩
    have constant : ∀ other, other ∈ group.2.map FillCandidate.positionId ↔
        other = position := by
      intro other
      have only' : Holds db userId other symbol ↔ other = position := Set.ext_iff.mp only other
      rw [group_positions userId db group listed other, groupKey, ← only']
      exact ⟨fun found => found.2.2, fun found => ⟨rfl, traded, found⟩⟩
    have kept := (count_distinct_one _).mpr ⟨position, constant⟩
    rcases forall₂_left related group (List.mem_filter.mpr ⟨listed, by simpa using kept⟩) with
      ⟨row, rowMember, built⟩
    rcases anchor_of_group group kept with ⟨found, value, only'⟩
    have same : found = position := (constant found).mp ((only' found).mpr rfl)
    cases value.symm.trans built
    refine ⟨_, rowMember, ?_⟩
    rw [shape, Anchor.ofOrder, groupKey, same]

/-- One result row: the correlated subquery follows the rule. -/
theorem resolved_position_rule (userId : Uuid) (db : Database) (rows : List Anchor)
    (anchorRows : ∀ anchor, anchor ∈ orderAnchors rows ↔
      ∃ orderId position, anchor = ⟨userId, orderId, some position⟩ ∧
        position ∈ anchored db userId orderId)
    (key : FillKey) (stored : ∃ fill ∈ db.fills.rows, fill.userId = userId ∧ fill.key = key) :
    ∃ resolved, resolvedPosition (fillCandidates userId db.legs db.fills.rows)
        (orderAnchors rows) userId key = .ok resolved ∧
      ∀ position, resolved = some position ↔
        candidates db userId key.occSymbol ∩ anchored db userId key.orderId = {position} := by
  generalize listed : ((fillCandidates userId db.legs db.fills.rows).filter fun other =>
    other.userId = userId ∧ other.key = key).map FillCandidate.positionId = ownPositions
  generalize kept : (fun anchor : OrderAnchor => decide (anchor.userId = userId ∧
    anchor.orderId = key.orderId ∧ anchor.positionId ∈ ownPositions.map some)) = keep
  have own : ∀ position, position ∈ ownPositions ↔ Holds db userId position key.occSymbol := by
    intro position
    have sets := positions_of_fill userId userId db key position
    simp only [true_and, stored] at sets
    rw [← sets, ← listed, List.mem_map]
    simp only [List.mem_filter, decide_eq_true_eq, and_assoc]
  have survives : ∀ position, (⟨userId, key.orderId, some position⟩ : OrderAnchor) ∈
      (orderAnchors rows).filter keep ↔
      position ∈ candidates db userId key.occSymbol ∩ anchored db userId key.orderId := by
    intro position
    rw [List.mem_filter, anchorRows, ← kept]
    simp only [decide_eq_true_eq, true_and, List.mem_map, Option.some.injEq, exists_eq_right, own]
    constructor
    · intro found
      rcases found with ⟨⟨orderId, other, shape, inAnchored⟩, holds⟩
      cases shape
      exact ⟨holds, inAnchored⟩
    · intro found
      exact ⟨⟨key.orderId, position, rfl, found.2⟩, found.1⟩
  have shaped : ∀ anchor ∈ (orderAnchors rows).filter keep,
      ∃ position, anchor = ⟨userId, key.orderId, some position⟩ := by
    intro anchor member
    rw [List.mem_filter, anchorRows, ← kept] at member
    rcases member with ⟨⟨orderId, position, shape, _⟩, passed⟩
    simp only [decide_eq_true_eq] at passed
    refine ⟨position, ?_⟩
    rw [shape] at passed ⊢
    exact congrArg (fun order => OrderAnchor.mk userId order (some position)) passed.2.1
  have oneRow := rows_singleton_iff ((orderAnchors rows).filter keep)
    (fun position => (⟨userId, key.orderId, some position⟩ : OrderAnchor)) _
    ((List.nodup_dedup _).filter _)
    (by
      intro left right same
      cases same
      rfl)
    shaped survives
  simp only [resolvedPosition, listed, kept]
  by_cases single : ((orderAnchors rows).filter keep).length = 1
  · rcases List.length_eq_one_iff.mp single with ⟨anchor, only⟩
    rcases shaped anchor (only ▸ List.mem_singleton_self anchor) with ⟨found, shape⟩
    have value : minPosition [found] = .ok (some found) :=
      min_position_of_constant [found] found fun other => List.mem_singleton
    have all := (oneRow found).mp (shape ▸ only)
    refine ⟨some found, ?_, ?_⟩
    · rw [if_pos single, only, shape]
      simp only [List.filterMap_cons, List.filterMap_nil, value]
      rfl
    · intro position
      rw [all, Set.singleton_eq_singleton_iff, Option.some.injEq]
  · refine ⟨none, ?_, ?_⟩
    · rw [if_neg single]
      rfl
    · intro position
      rw [← oneRow position]
      constructor
      · intro impossible
        cases impossible
      · intro only
        rw [only] at single
        exact absurd rfl single

theorem mem_result_groups (userId : Uuid) (db : Database) (owner : Uuid) (key : FillKey) :
    (owner, key) ∈ (groupBy resultGroup (fillCandidates userId db.legs db.fills.rows)).map
        Prod.fst ↔
      owner = userId ∧ (∃ fill ∈ db.fills.rows, fill.userId = userId ∧ fill.key = key) ∧
        (candidates db userId key.occSymbol).Nonempty := by
  rw [mem_group_by_keys]
  constructor
  · intro found
    rcases found with ⟨row, member, same⟩
    have sets := (positions_of_fill userId owner db key row.positionId).mp
      ⟨row, member, ⟨congrArg Prod.fst same, congrArg Prod.snd same⟩, rfl⟩
    exact ⟨sets.1, sets.2.1, row.positionId, sets.2.2⟩
  · intro found
    rcases found with ⟨owned, stored, position, holds⟩
    rcases (positions_of_fill userId owner db key position).mpr ⟨owned, stored, holds⟩ with
      ⟨row, member, same, _⟩
    exact ⟨row, member, Prod.ext same.1 same.2⟩

/-- What the query says about one row of its result. -/
def FollowsRule (db : Database) (userId : Uuid) (row : ResolvedRow) : Prop :=
  ∀ position, row.resolvedPositionId = some position ↔
    candidates db userId row.occSymbol ∩ anchored db userId row.orderId = {position}

theorem result_row_rule (userId : Uuid) (db : Database) (rows : List Anchor)
    (anchorRows : ∀ anchor, anchor ∈ orderAnchors rows ↔
      ∃ orderId position, anchor = ⟨userId, orderId, some position⟩ ∧
        position ∈ anchored db userId orderId)
    (group : (Uuid × FillKey) × List FillCandidate)
    (member : group ∈ groupBy resultGroup (fillCandidates userId db.legs db.fills.rows)) :
    group.1.1 = userId ∧ ∃ row,
      resultRow (fillCandidates userId db.legs db.fills.rows) (orderAnchors rows) group =
        .ok row ∧ row.key = group.1.2 ∧ FollowsRule db userId row := by
  have found := (mem_result_groups userId db group.1.1 group.1.2).mp
    (List.mem_map.mpr ⟨group, member, rfl⟩)
  rcases resolved_position_rule userId db rows anchorRows group.1.2 found.2.1 with
    ⟨resolved, ran, rule⟩
  refine ⟨found.1, ⟨group.1.2.orderId, group.1.2.occSymbol, group.1.2.legIndex,
    group.1.2.executionTime, resolved⟩, ?_, rfl, rule⟩
  rw [resultRow, found.1, ran]
  rfl

theorem resolve_query_rows (db : Database) (userId : Uuid) :
    ∃ rows, resolveFillPositionsSql userId db.legs db.fills.rows = .ok rows ∧
      rows.map ResolvedRow.key =
        ((groupBy resultGroup (fillCandidates userId db.legs db.fills.rows)).map Prod.fst).map
          Prod.snd ∧
      ∀ row ∈ rows, FollowsRule db userId row := by
  rcases mem_order_anchors userId db with ⟨anchorRows, anchorsRan, anchorsSpec⟩
  have perGroup := result_row_rule userId db anchorRows anchorsSpec
  have succeeds : ∀ group ∈ groupBy resultGroup (fillCandidates userId db.legs db.fills.rows),
      ∃ row, resultRow (fillCandidates userId db.legs db.fills.rows) (orderAnchors anchorRows)
        group = .ok row := by
    intro group member
    rcases (perGroup group member).2 with ⟨row, ran, _⟩
    exact ⟨row, ran⟩
  rcases map_m_forall₂ _ _ succeeds with ⟨rows, ran, related⟩
  refine ⟨rows, ?_, ?_, ?_⟩
  · simp only [resolveFillPositionsSql, anchorsRan]
    exact ran
  · rw [List.map_map]
    apply forall₂_map_eq related
    intro group row member built
    rcases (perGroup group member).2 with ⟨made, value, sameKey, _⟩
    cases value.symm.trans built
    exact sameKey
  · intro row member
    rcases forall₂_right related row member with ⟨group, groupMember, built⟩
    rcases (perGroup group groupMember).2 with ⟨made, value, _, rule⟩
    cases value.symm.trans built
    exact rule

theorem result_keys_nodup (db : Database) (userId : Uuid) :
    (((groupBy resultGroup (fillCandidates userId db.legs db.fills.rows)).map Prod.fst).map
      Prod.snd).Nodup := by
  apply (group_by_keys_nodup _ _).map_on
  intro left leftMember right rightMember same
  have leftOwner := ((mem_result_groups userId db left.1 left.2).mp leftMember).1
  have rightOwner := ((mem_result_groups userId db right.1 right.2).mp rightMember).1
  exact Prod.ext (leftOwner.trans rightOwner.symm) same

theorem mem_result_keys (db : Database) (userId : Uuid) (key : FillKey) :
    key ∈ ((groupBy resultGroup (fillCandidates userId db.legs db.fills.rows)).map Prod.fst).map
        Prod.snd ↔
      (∃ fill ∈ db.fills.rows, fill.userId = userId ∧ fill.key = key) ∧
        (candidates db userId key.occSymbol).Nonempty := by
  rw [List.mem_map]
  constructor
  · intro found
    rcases found with ⟨pair, member, same⟩
    exact same ▸ ((mem_result_groups userId db pair.1 pair.2).mp member).2
  · intro found
    exact ⟨(userId, key), (mem_result_groups userId db userId key).mpr ⟨rfl, found⟩, rfl⟩

/-- `RESOLVE_FILL_POSITIONS_SQL` is Rule 3: one row for each of the user's
fills some position of theirs could hold, resolved exactly when one candidate
is anchored by the fill's order. -/
theorem resolve_query_is_rule_3 (db : Database) (userId : Uuid) :
    ∃ rows, resolveFillPositionsSql userId db.legs db.fills.rows = .ok rows ∧
      (rows.map ResolvedRow.key).Nodup ∧
      (∀ key, key ∈ rows.map ResolvedRow.key ↔
        (∃ fill ∈ db.fills.rows, fill.userId = userId ∧ fill.key = key) ∧
          (candidates db userId key.occSymbol).Nonempty) ∧
      ∀ row ∈ rows, ∀ position, row.resolvedPositionId = some position ↔
        candidates db userId row.occSymbol ∩ anchored db userId row.orderId = {position} := by
  rcases resolve_query_rows db userId with ⟨rows, ran, keysEq, rule⟩
  refine ⟨rows, ran, ?_, ?_, rule⟩
  · rw [keysEq]
    exact result_keys_nodup db userId
  · intro key
    rw [keysEq]
    exact mem_result_keys db userId key

/-! ## The dictionary built from the rows -/

theorem assign_rows_other (rows : List ResolvedRow) (start : Resolutions) (key : FillKey)
    (absent : key ∉ rows.map ResolvedRow.key) : rows.foldl assignRow start key = start key := by
  induction rows generalizing start with
  | nil => rfl
  | cons row rest ih =>
      rw [List.map_cons, List.mem_cons, not_or] at absent
      rw [List.foldl_cons, ih _ absent.2, assignRow, if_neg absent.1]

theorem assign_rows_at (rows : List ResolvedRow) (start : Resolutions) (row : ResolvedRow)
    (nodup : (rows.map ResolvedRow.key).Nodup) (member : row ∈ rows) :
    rows.foldl assignRow start row.key = some row.resolvedPositionId := by
  induction rows generalizing start with
  | nil => cases member
  | cons head rest ih =>
      rw [List.map_cons, List.nodup_cons] at nodup
      rcases List.mem_cons.mp member with here | later
      · rw [here, List.foldl_cons, assign_rows_other rest _ _ nodup.1, assignRow, if_pos rfl]
      · exact ih _ nodup.2 later

/-- `resolve_fill_positions` answers by Rule 3 at every key, in whatever order
the rows came back, and never raises. -/
theorem resolve_fill_positions_spec (order : ScanOrder ResolvedRow) (userId : Uuid)
    (db : Database) :
    ∃ resolutions, resolveFillPositions order userId db = .ok resolutions ∧
      ∀ key position, resolutions.get key = some position ↔
        (∃ fill ∈ db.fills.rows, fill.userId = userId ∧ fill.key = key) ∧
          candidates db userId key.occSymbol ∩ anchored db userId key.orderId = {position} := by
  rcases resolve_query_rows db userId with ⟨rows, ran, keysEq, rule⟩
  have arranged := order.perm rows
  have nodup : ((order.arrange rows).map ResolvedRow.key).Nodup := by
    rw [(arranged.map _).nodup_iff, keysEq]
    exact result_keys_nodup db userId
  refine ⟨(order.arrange rows).foldl assignRow fun _ => none, ?_, ?_⟩
  · rw [resolveFillPositions, ran]
  · intro key position
    by_cases listed : key ∈ rows.map ResolvedRow.key
    · have stored := (mem_result_keys db userId key).mp (keysEq ▸ listed)
      rcases List.mem_map.mp listed with ⟨row, member, same⟩
      have value := assign_rows_at _ (fun _ => none) row nodup (arranged.mem_iff.mpr member)
      have ruled := rule row member position
      rw [← same, Resolutions.get, value, Option.join_some, ruled]
      exact ⟨fun found => ⟨same ▸ stored.1, found⟩, fun found => found.2⟩
    · have absent : key ∉ (order.arrange rows).map ResolvedRow.key := by
        rw [(arranged.map _).mem_iff]
        exact listed
      rw [Resolutions.get, assign_rows_other _ _ _ absent]
      constructor
      · intro impossible
        cases impossible
      · intro found
        apply absurd _ listed
        rw [keysEq, mem_result_keys]
        refine ⟨found.1, position, ?_⟩
        have inside : position ∈ candidates db userId key.occSymbol ∩
            anchored db userId key.orderId := by
          rw [found.2]
          rfl
        exact inside.1

/-- Two executions over the same rows answer alike. -/
theorem resolve_fill_positions_same (first second : ScanOrder ResolvedRow) (userId : Uuid)
    (db : Database) (left right : Resolutions)
    (ranLeft : resolveFillPositions first userId db = .ok left)
    (ranRight : resolveFillPositions second userId db = .ok right) (key : FillKey) :
    left.get key = right.get key := by
  rcases resolve_fill_positions_spec first userId db with ⟨foundLeft, okLeft, specLeft⟩
  rcases resolve_fill_positions_spec second userId db with ⟨foundRight, okRight, specRight⟩
  cases ranLeft.symm.trans okLeft
  cases ranRight.symm.trans okRight
  apply Option.ext
  intro position
  rw [specLeft, specRight]

/-- The dictionary of a user; the query never fails, so this is what
`resolve_fill_positions` returns. -/
def resolutionsOf (order : ScanOrder ResolvedRow) (userId : Uuid) (db : Database) : Resolutions :=
  match resolveFillPositions order userId db with
  | .error _ => fun _ => none
  | .ok resolutions => resolutions

theorem resolve_fill_positions_total (order : ScanOrder ResolvedRow) (userId : Uuid)
    (db : Database) :
    resolveFillPositions order userId db = .ok (resolutionsOf order userId db) := by
  rcases resolve_fill_positions_spec order userId db with ⟨resolutions, ran, _⟩
  rw [resolutionsOf, ran]

/-! ## Who really owned the fills -/

def IsFill (db : Database) (userId : Uuid) (key : FillKey) : Prop :=
  ∃ fill ∈ db.fills.rows, fill.userId = userId ∧ fill.key = key

/-- An assignment of the user's fills to positions, each fill to one of its
candidates, in which a position that owns a fill of an order also has one there
that no other position could hold. Fills without a candidate have no owner. -/
structure Owners (db : Database) (userId : Uuid) (own : FillKey → Uuid) : Prop where
  candidate : ∀ key, IsFill db userId key → (candidates db userId key.occSymbol).Nonempty →
    own key ∈ candidates db userId key.occSymbol
  anchor : ∀ key, IsFill db userId key → (candidates db userId key.occSymbol).Nonempty →
    ∃ other, IsFill db userId other ∧ other.orderId = key.orderId ∧
      candidates db userId other.occSymbol = {own key}

theorem owner_anchored (db : Database) (userId : Uuid) (own : FillKey → Uuid)
    (owners : Owners db userId own) (key : FillKey) (present : IsFill db userId key)
    (some : (candidates db userId key.occSymbol).Nonempty) :
    own key ∈ anchored db userId key.orderId := by
  obtain ⟨other, stored, sameOrder, only⟩ := owners.anchor key present some
  obtain ⟨fill, member, owner, sameKey⟩ := stored
  refine ⟨other.occSymbol, ⟨fill, member, owner, ?_, congrArg FillKey.occSymbol sameKey⟩, only⟩
  rw [← sameOrder]
  exact congrArg FillKey.orderId sameKey

theorem other_orders_anchor_alike (db later : Database) (userId : Uuid) (orderId : String)
    (added : List Fill) (legs : later.legs = db.legs)
    (rows : later.fills.rows = db.fills.rows ++ added)
    (others : ∀ fill ∈ added, fill.orderId ≠ orderId) :
    anchored later userId orderId = anchored db userId orderId := by
  have sameHolds : Holds later userId = Holds db userId := by
    unfold Holds
    rw [legs]
  unfold anchored
  rw [sameHolds]
  apply anchored_congr
  intro symbol
  unfold Traded
  rw [rows]
  constructor
  · intro found
    obtain ⟨fill, member, owner, sameOrder, sameSymbol⟩ := found
    cases List.mem_append.mp member with
    | inl old => exact ⟨fill, old, owner, sameOrder, sameSymbol⟩
    | inr new => exact absurd sameOrder (others fill new)
  · intro found
    obtain ⟨fill, member, others⟩ := found
    exact ⟨fill, List.mem_append_left _ member, others⟩

theorem resolutions_of_spec (order : ScanOrder ResolvedRow) (userId : Uuid) (db : Database)
    (key : FillKey) (position : Uuid) :
    (resolutionsOf order userId db).get key = some position ↔ IsFill db userId key ∧
      candidates db userId key.occSymbol ∩ anchored db userId key.orderId = {position} := by
  obtain ⟨resolutions, ran, spec⟩ := resolve_fill_positions_spec order userId db
  have same : resolutionsOf order userId db = resolutions := by
    rw [resolutionsOf, ran]
  rw [same]
  exact spec key position

/-- What resolves, resolves to its owner; a fill only one position could hold
does resolve; one that does not has an anchored rival of its owner; and fills
of other orders make no difference. -/
theorem resolution_names_the_owner (order : ScanOrder ResolvedRow) (userId : Uuid) (db : Database)
    (own : FillKey → Uuid) (owners : Owners db userId own) :
    ∃ resolutions, resolveFillPositions order userId db = .ok resolutions ∧
      (∀ key position, resolutions.get key = some position → position = own key) ∧
      (∀ key, IsFill db userId key → ∀ position,
        candidates db userId key.occSymbol = {position} → resolutions.get key = some position) ∧
      (∀ key, IsFill db userId key → (candidates db userId key.occSymbol).Nonempty →
        resolutions.get key = none → ∃ rival, rival ≠ own key ∧
          rival ∈ candidates db userId key.occSymbol ∧ rival ∈ anchored db userId key.orderId) ∧
      ∀ key, IsFill db userId key → ∀ (later : Database) (added : List Fill),
        later.legs = db.legs → later.fills.rows = db.fills.rows ++ added →
        (∀ fill ∈ added, fill.orderId ≠ key.orderId) → ∀ again : ScanOrder ResolvedRow,
        ∃ after, resolveFillPositions again userId later = .ok after ∧
          after.get key = resolutions.get key := by
  refine ⟨_, resolve_fill_positions_total order userId db, ?_, ?_, ?_, ?_⟩
  · intro key position resolved
    obtain ⟨present, answer⟩ := (resolutions_of_spec order userId db key position).mp resolved
    have inside : position ∈ candidates db userId key.occSymbol := by
      have both : position ∈ candidates db userId key.occSymbol ∩
          anchored db userId key.orderId := answer ▸ Set.mem_singleton position
      exact both.1
    exact resolves_to_owner _ _ key.orderId key.occSymbol (own key) position
      (owners.candidate key present ⟨position, inside⟩)
      (owner_anchored db userId own owners key present ⟨position, inside⟩) answer
  · intro key present position only
    obtain ⟨fill, member, owner, sameKey⟩ := present
    have traded : Traded db userId key.orderId key.occSymbol :=
      ⟨fill, member, owner, congrArg FillKey.orderId sameKey, congrArg FillKey.occSymbol sameKey⟩
    exact (resolutions_of_spec order userId db key position).mpr
      ⟨⟨fill, member, owner, sameKey⟩,
        anchor_resolves_to_itself _ _ key.orderId key.occSymbol position traded only⟩
  · intro key present some unresolved
    apply unresolved_has_rival _ _ key.orderId key.occSymbol (own key)
      (owners.candidate key present some) (owner_anchored db userId own owners key present some)
    intro position answer
    have resolved := (resolutions_of_spec order userId db key position).mpr ⟨present, answer⟩
    rw [unresolved] at resolved
    cases resolved
  · intro key present later added legs rows others again
    refine ⟨_, resolve_fill_positions_total again userId later, ?_⟩
    have sameCandidates : candidates later userId key.occSymbol =
        candidates db userId key.occSymbol := by
      unfold candidates Candidates Holds
      rw [legs]
    have still : IsFill later userId key := by
      obtain ⟨fill, member, found⟩ := present
      exact ⟨fill, rows ▸ List.mem_append_left _ member, found⟩
    apply Option.ext
    intro position
    rw [resolutions_of_spec, resolutions_of_spec, sameCandidates,
      other_orders_anchor_alike db later userId key.orderId added legs rows others]
    exact and_congr_left fun _ => iff_of_true still present

/-! ## A leg two positions share -/

def sharedFill (occSymbol : String) : Fill :=
  ⟨⟨1⟩, "o1", occSymbol, 0, 10, "OPENING", "BUY", none, none, none, none, 1⟩

/-- Positions 11 and 12 share the back leg; the order trades it with the front
leg of position 12. -/
def sharedLegs : Database :=
  { Database.empty with
    fills := ⟨[sharedFill "FRONT", sharedFill "BACK"], by decide⟩
    legs := [⟨⟨11⟩, ⟨1⟩, "OLD"⟩, ⟨⟨11⟩, ⟨1⟩, "BACK"⟩, ⟨⟨12⟩, ⟨1⟩, "FRONT"⟩,
      ⟨⟨12⟩, ⟨1⟩, "BACK"⟩] }

theorem mem_shared_candidates (symbol : String) (position : Uuid) :
    position ∈ candidates sharedLegs ⟨1⟩ symbol ↔
      (symbol = "OLD" ∧ position = ⟨11⟩) ∨ (symbol = "BACK" ∧ position = ⟨11⟩) ∨
        (symbol = "FRONT" ∧ position = ⟨12⟩) ∨ (symbol = "BACK" ∧ position = ⟨12⟩) := by
  have unfolded : position ∈ candidates sharedLegs ⟨1⟩ symbol ↔
      Holds sharedLegs ⟨1⟩ position symbol := Iff.rfl
  rw [unfolded]
  simp [Holds, sharedLegs, eq_comm]

theorem shared_legs_owners : Owners sharedLegs ⟨1⟩ fun _ => ⟨12⟩ := by
  have front : IsFill sharedLegs ⟨1⟩ (sharedFill "FRONT").key :=
    ⟨_, List.mem_cons_self, rfl, rfl⟩
  have traded : ∀ key, IsFill sharedLegs ⟨1⟩ key →
      key.orderId = "o1" ∧ (key.occSymbol = "FRONT" ∨ key.occSymbol = "BACK") := by
    intro key present
    obtain ⟨fill, member, _, rfl⟩ := present
    rcases List.mem_pair.mp member with rfl | rfl
    · exact ⟨rfl, Or.inl rfl⟩
    · exact ⟨rfl, Or.inr rfl⟩
  constructor
  · intro key present _
    rw [mem_shared_candidates]
    rcases (traded key present).2 with symbol | symbol <;> simp [symbol]
  · intro key present _
    refine ⟨_, front, (traded key present).1.symm, ?_⟩
    ext position
    rw [mem_shared_candidates]
    simp [sharedFill, Fill.key]

theorem resolution_names_the_owner_shared :
    ∃ resolutions, resolveFillPositions (.asStored _) ⟨1⟩ sharedLegs = .ok resolutions ∧
      ∀ position, resolutions.get (sharedFill "BACK").key = some position → position = ⟨12⟩ := by
  obtain ⟨resolutions, ran, sound, _⟩ := resolution_names_the_owner (.asStored _) ⟨1⟩ sharedLegs
    (fun _ => ⟨12⟩) shared_legs_owners
  exact ⟨resolutions, ran, sound _⟩

end Morai.Ledger.ResolveQuery
