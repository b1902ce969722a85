import Mathlib.Data.List.DropRight

/-!
# A script split into statements

The migration of the job queue runs its schema statement by statement. The
script is split at the semicolons outside `$$` bodies; what comes after the
last one is stripped and kept if anything is left of it.
-/

namespace Morai.Db.SplitSql

set_option autoImplicit false

/-- The loop of `_split_sql_statements` from some position: the statements it
still finds and what is left in the buffer. -/
def splitLoop : Bool → List Char → List Char → List (List Char) × List Char
  | inDollarQuote, buf, '$' :: '$' :: rest => splitLoop (!inDollarQuote) (buf ++ ['$', '$']) rest
  | inDollarQuote, buf, char :: rest =>
      if char = ';' && !inDollarQuote then
        let later := splitLoop inDollarQuote [] rest
        ((buf ++ [char]) :: later.1, later.2)
      else splitLoop inDollarQuote (buf ++ [char]) rest
  | _, buf, [] => ([], buf)

/-- `str.isspace` of one character. -/
def isSpace (char : Char) : Bool :=
  let code := char.toNat
  9 ≤ code && code ≤ 13 || 28 ≤ code && code ≤ 32 || code = 0x85 || code = 0xa0 || code = 0x1680 ||
    0x2000 ≤ code && code ≤ 0x200a || code = 0x2028 || code = 0x2029 || code = 0x202f ||
    code = 0x205f || code = 0x3000

/-- `str.strip()`. -/
def strip (text : List Char) : List Char := (text.dropWhile isSpace).rdropWhile isSpace

def splitSqlStatements (sql : List Char) : List (List Char) :=
  let split := splitLoop false [] sql
  let tail := strip split.2
  if tail = [] then split.1 else split.1 ++ [tail]

/-! ## What the pieces are -/

/-- Whether the text after a state leaves a `$$` body open; none where it has a
semicolon outside of them. -/
def open? : Bool → List Char → Option Bool
  | quoted, '$' :: '$' :: rest => open? (!quoted) rest
  | quoted, char :: rest => if char = ';' && !quoted then none else open? quoted rest
  | quoted, [] => some quoted

/-- Ends with its only semicolon outside a `$$` body. -/
def Statement (text : List Char) : Prop :=
  ∃ body, text = body ++ [';'] ∧ open? false body = some false

/-- The first semicolon outside a body ends the first statement. -/
theorem split_loop_body (quoted : Bool) (buf body rest : List Char)
    (closed : open? quoted body = some false) :
    splitLoop quoted buf (body ++ ';' :: rest) =
      ((buf ++ body ++ [';']) :: (splitLoop false [] rest).1, (splitLoop false [] rest).2) := by
  fun_induction open? quoted body generalizing buf with
  | case1 quoted rest' ih =>
      simp only [List.cons_append, splitLoop]
      rw [ih _ closed]
      simp
  | case2 quoted char rest' notDollars ends => cases closed
  | case3 quoted char rest' notDollars goes ih =>
      rw [List.cons_append, splitLoop, if_neg goes, ih _ closed]
      · simp
      · intro later dollar next
        cases rest' with
        | nil => cases next
        | cons second others => exact notDollars others dollar (by rw [(List.cons.inj next).1])
  | case4 quoted =>
      cases closed
      simp [splitLoop]

theorem split_loop_open (quoted : Bool) (buf text : List Char) (left : Bool)
    (opened : open? quoted text = some left) : splitLoop quoted buf text = ([], buf ++ text) := by
  fun_induction open? quoted text generalizing buf with
  | case1 quoted rest ih =>
      rw [splitLoop, ih _ opened]
      simp
  | case2 quoted char rest notDollars ends => cases opened
  | case3 quoted char rest notDollars goes ih =>
      rw [splitLoop, if_neg goes, ih _ opened]
      · simp
      · exact notDollars
  | case4 quoted => simp [splitLoop]

theorem open_none (quoted : Bool) (text : List Char) (ends : open? quoted text = none) :
    ∃ body rest, text = body ++ ';' :: rest ∧ open? quoted body = some false := by
  fun_induction open? quoted text with
  | case1 quoted rest ih =>
      obtain ⟨body, later, same, closed⟩ := ih ends
      exact ⟨'$' :: '$' :: body, later, by rw [same]; rfl, by rw [open?]; exact closed⟩
  | case2 quoted char rest notDollars stops =>
      simp only [Bool.and_eq_true, decide_eq_true_eq, Bool.not_eq_true'] at stops
      obtain ⟨rfl, rfl⟩ := stops
      exact ⟨[], rest, rfl, rfl⟩
  | case3 quoted char rest notDollars goes ih =>
      obtain ⟨body, later, same, closed⟩ := ih ends
      refine ⟨char :: body, later, by rw [same]; rfl, ?_⟩
      rw [open?, if_neg goes]
      · exact closed
      · intro others dollar next
        exact notDollars (others ++ ';' :: later) dollar (by rw [same, next]; rfl)
  | case4 quoted => cases ends

/-- Every text is some statements and a rest without an end. -/
theorem split_exists (text : List Char) :
    ∃ (statements : List (List Char)) (tail : List Char), text = statements.flatten ++ tail ∧
      (∀ statement ∈ statements, Statement statement) ∧ (open? false tail).isSome := by
  induction length : text.length using Nat.strong_induction_on generalizing text with
  | _ size ih =>
      cases opened : open? false text with
      | some left => exact ⟨[], text, rfl, by simp, by rw [opened]; rfl⟩
      | none =>
          obtain ⟨body, rest, same, closed⟩ := open_none false text opened
          have shorter : rest.length < size := by
            rw [← length, same, List.length_append, List.length_cons]
            omega
          obtain ⟨statements, tail, split, shaped, free⟩ := ih rest.length shorter rest rfl
          refine ⟨(body ++ [';']) :: statements, tail, ?_, ?_, free⟩
          · rw [same, split, List.flatten_cons]
            simp
          · intro statement member
            cases List.mem_cons.mp member with
            | inl here => exact ⟨body, here, closed⟩
            | inr there => exact shaped statement there

theorem split_loop_joined (statements : List (List Char)) (tail : List Char)
    (shaped : ∀ statement ∈ statements, Statement statement) (free : (open? false tail).isSome) :
    splitLoop false [] (statements.flatten ++ tail) = (statements, tail) := by
  induction statements with
  | nil =>
      obtain ⟨left, opened⟩ := Option.isSome_iff_exists.mp free
      exact split_loop_open false [] tail left opened
  | cons statement rest ih =>
      obtain ⟨body, same, closed⟩ := shaped statement List.mem_cons_self
      have later := ih fun other member => shaped other (List.mem_cons_of_mem _ member)
      have text : (statement :: rest).flatten ++ tail = body ++ ';' :: (rest.flatten ++ tail) := by
        rw [List.flatten_cons, same]
        simp
      rw [text, split_loop_body false [] body _ closed, later, same, List.nil_append]

/-- The last piece, where there is one. -/
def lastPiece (tail : List Char) : List (List Char) := if strip tail = [] then [] else [strip tail]

theorem split_joined (statements : List (List Char)) (tail : List Char)
    (shaped : ∀ statement ∈ statements, Statement statement) (free : (open? false tail).isSome) :
    splitSqlStatements (statements.flatten ++ tail) = statements ++ lastPiece tail := by
  unfold splitSqlStatements lastPiece
  rw [split_loop_joined statements tail shaped free]
  dsimp only
  split_ifs
  · rw [List.append_nil]
  · rfl

theorem last_piece_flatten (tail : List Char) : (lastPiece tail).flatten = strip tail := by
  unfold lastPiece
  split_ifs with empty
  · rw [empty, List.flatten_nil]
  · simp

/-- A script cut into its statements and what follows them. -/
structure Cut (sql : List Char) (statements : List (List Char)) (tail : List Char) : Prop where
  joined : sql = statements.flatten ++ tail
  shaped : ∀ statement ∈ statements, Statement statement
  free : (open? false tail).isSome

theorem Cut.unique (sql : List Char) (statements others : List (List Char)) (tail rest : List Char)
    (cut : Cut sql statements tail) (other : Cut sql others rest) :
    others = statements ∧ rest = tail := by
  have found := split_loop_joined statements tail cut.shaped cut.free
  rw [← cut.joined, other.joined, split_loop_joined others rest other.shaped other.free] at found
  exact Prod.mk.inj found

/-- The pieces of a script are its statements: there is one way to cut it, and
the split finds it. Put together again they are the script only where no space
surrounds what follows the last semicolon. -/
theorem split_finds_statements (sql : List Char) :
    ∃ statements tail, Cut sql statements tail ∧
      (∀ others rest, Cut sql others rest → others = statements ∧ rest = tail) ∧
      splitSqlStatements sql = statements ++ lastPiece tail ∧
      ((splitSqlStatements sql).flatten = sql ↔ strip tail = tail) := by
  obtain ⟨statements, tail, joined, shaped, free⟩ := split_exists sql
  have split := split_joined statements tail shaped free
  rw [← joined] at split
  refine ⟨statements, tail, ⟨joined, shaped, free⟩, ?_, split, ?_⟩
  · intro others rest other
    exact Cut.unique sql statements others tail rest ⟨joined, shaped, free⟩ other
  · have pieces : (splitSqlStatements sql).flatten = statements.flatten ++ strip tail := by
      rw [split, List.flatten_append, last_piece_flatten]
    rw [pieces]
    constructor
    · intro same
      exact List.append_cancel_left (same.trans joined)
    · intro same
      rw [same, ← joined]

end Morai.Db.SplitSql
