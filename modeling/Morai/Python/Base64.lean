import Mathlib.Data.List.GetD
import Mathlib.Data.List.Nodup
import Mathlib.Data.List.Range

/-!
# Strict base64

`base64.b64decode(text, validate=True)` reads groups of four characters as
three bytes, and a last group of two or three with its padding as one or two.
It does not look at the bits of that group that no byte holds, so the last byte
or two can be spelled in more than one way.
-/

namespace Morai.Python.Base64

set_option autoImplicit false

def alphabet : List Char :=
  "ABCDEFGHIJKLMNOPQRSTUVWXYZabcdefghijklmnopqrstuvwxyz0123456789+/".toList

def sextet (char : Char) : Option Nat := alphabet.idxOf? char

/-- The character of a value below 64. -/
def sextetChar (value : Nat) : Char := alphabet.getD value '='

/-! ## `a2b_base64` -/

/-- `quadPos` characters of a group are read, `leftchar` are the bits of the
last of them that are not written yet. -/
structure Scan where
  quadPos : Nat
  leftchar : Nat
  pads : Nat
  paddingStarted : Bool
  written : List UInt8

def Scan.start (written : List UInt8) : Scan := ⟨0, 0, 0, false, written⟩

def Scan.take (scan : Scan) (value : Nat) : Scan :=
  match scan.quadPos with
  | 0 => { scan with quadPos := 1, leftchar := value, pads := 0 }
  | 1 =>
      { scan with
        quadPos := 2
        leftchar := value % 16
        pads := 0
        written := scan.written ++ [UInt8.ofNat (scan.leftchar * 4 + value / 16)] }
  | 2 =>
      { scan with
        quadPos := 3
        leftchar := value % 4
        pads := 0
        written := scan.written ++ [UInt8.ofNat (scan.leftchar * 16 + value / 4)] }
  | _ =>
      { scan with
        quadPos := 0
        leftchar := 0
        pads := 0
        written := scan.written ++ [UInt8.ofNat (scan.leftchar * 64 + value)] }

/-- The loop, in strict mode; `none` where it raises. -/
def scanBase64 : List Char → Scan → Option (List UInt8)
  | [], scan => if scan.quadPos = 0 then some scan.written else none
  | char :: rest, scan =>
      if char = '=' then
        if scan.quadPos = 0 then none
        else if scan.quadPos < 2 then scanBase64 rest { scan with paddingStarted := true }
        else if 4 ≤ scan.quadPos + scan.pads + 1 then
          -- The group is complete, and nothing may follow.
          if rest = [] then some scan.written else none
        else scanBase64 rest { scan with pads := scan.pads + 1, paddingStarted := true }
      else
        match sextet char with
        | none => none
        | some value => if scan.paddingStarted then none else scanBase64 rest (scan.take value)

theorem scan_nil (scan : Scan) :
    scanBase64 [] scan = if scan.quadPos = 0 then some scan.written else none := rfl

theorem scan_cons (char : Char) (rest : List Char) (scan : Scan) :
    scanBase64 (char :: rest) scan =
      if char = '=' then
        if scan.quadPos = 0 then none
        else if scan.quadPos < 2 then scanBase64 rest { scan with paddingStarted := true }
        else if 4 ≤ scan.quadPos + scan.pads + 1 then
          if rest = [] then some scan.written else none
        else scanBase64 rest { scan with pads := scan.pads + 1, paddingStarted := true }
      else
        match sextet char with
        | none => none
        | some value =>
            if scan.paddingStarted then none else scanBase64 rest (scan.take value) := rfl

/-- `base64.b64decode(text, validate=True)`, which encodes the text as ASCII
first. -/
def b64decode (text : String) : Option (List UInt8) :=
  if text.toList.all fun char => char.toNat < 128 then scanBase64 text.toList (.start []) else none

/-! ## What it reads -/

theorem sextet_some_iff (char : Char) (value : Nat) :
    sextet char = some value ↔ value < 64 ∧ char = sextetChar value := by
  have distinct : alphabet.Nodup := by decide +kernel
  have size : alphabet.length = 64 := by decide +kernel
  unfold sextet sextetChar
  constructor
  · intro found
    obtain ⟨inside, same, _⟩ := List.idxOf?_eq_some_iff.mp found
    refine ⟨size ▸ inside, ?_⟩
    rw [List.getD_eq_getElem _ _ inside]
    exact same.symm
  · rintro ⟨small, same⟩
    have inside : value < alphabet.length := size.symm ▸ small
    rw [same, List.getD_eq_getElem _ _ inside]
    refine List.idxOf?_eq_some_iff.mpr ⟨inside, rfl, ?_⟩
    intro earlier before again
    exact absurd (distinct.getElem_inj_iff.mp again) (Nat.ne_of_lt before)

theorem sextet_pad : sextet '=' = none := by decide +kernel

theorem sextet_char_ne_pad (char : Char) (value : Nat) (found : sextet char = some value) :
    char ≠ '=' := by
  intro pad
  rw [pad, sextet_pad] at found
  cases found

/-- The text spells the bytes. -/
inductive Spells : List Char → List UInt8 → Prop
  | nothing : Spells [] []
  | group (a b c d : Char) (i j k l : Nat) (rest : List Char) (bytes : List UInt8)
      (first : sextet a = some i) (second : sextet b = some j) (third : sextet c = some k)
      (fourth : sextet d = some l) (later : Spells rest bytes) :
      Spells (a :: b :: c :: d :: rest)
        (UInt8.ofNat (i * 4 + j / 16) :: UInt8.ofNat (j % 16 * 16 + k / 4) ::
          UInt8.ofNat (k % 4 * 64 + l) :: bytes)
  | two (a b c : Char) (i j k : Nat) (first : sextet a = some i) (second : sextet b = some j)
      (third : sextet c = some k) :
      Spells [a, b, c, '=']
        [UInt8.ofNat (i * 4 + j / 16), UInt8.ofNat (j % 16 * 16 + k / 4)]
  | one (a b : Char) (i j : Nat) (first : sextet a = some i) (second : sextet b = some j) :
      Spells [a, b, '=', '='] [UInt8.ofNat (i * 4 + j / 16)]

section Steps

variable (rest : List Char) (scan : Scan)

theorem scan_sextet (char : Char) (value : Nat) (found : sextet char = some value) :
    scanBase64 (char :: rest) scan =
      if scan.paddingStarted then none else scanBase64 rest (scan.take value) := by
  rw [scan_cons, if_neg (sextet_char_ne_pad char value found), found]

theorem scan_other (char : Char) (unpadded : char ≠ '=') (other : sextet char = none) :
    scanBase64 (char :: rest) scan = none := by
  rw [scan_cons, if_neg unpadded, other]

theorem scan_pad_start (outside : scan.quadPos = 0) : scanBase64 ('=' :: rest) scan = none := by
  simp [scan_cons, outside]

/-- A lone character before the padding is never completed. -/
theorem scan_lone (text : List Char) (lone : scan.quadPos = 1) (padded : scan.paddingStarted = true) :
    scanBase64 text scan = none := by
  induction text generalizing scan with
  | nil => simp [scan_nil, lone]
  | cons char rest ih =>
      by_cases pad : char = '='
      · subst pad
        simp only [scan_cons, if_true, lone]
        exact ih _ rfl rfl
      · cases found : sextet char with
        | none => exact scan_other rest scan char pad found
        | some value => rw [scan_sextet rest scan char value found, if_pos padded]

theorem scan_pad_lone (lone : scan.quadPos = 1) : scanBase64 ('=' :: rest) scan = none := by
  simp only [scan_cons, if_true, lone]
  exact scan_lone _ rest rfl rfl

theorem scan_pad_half (half : scan.quadPos = 2) (fresh : scan.pads = 0) :
    scanBase64 ('=' :: rest) scan =
      scanBase64 rest { scan with pads := 1, paddingStarted := true } := by
  simp [scan_cons, half, fresh]

theorem scan_pad_last (far : 2 ≤ scan.quadPos) (last : scan.quadPos + scan.pads = 3) :
    scanBase64 ('=' :: rest) scan = if rest = [] then some scan.written else none := by
  rw [scan_cons, if_pos rfl, if_neg (by omega), if_neg (by omega), if_pos (by omega)]

/-- A scan inside a group does not end there, and gets past a character only if
that is a pad or stands for six bits. -/
theorem scan_next (bytes : List UInt8) (inside : scan.quadPos ≠ 0)
    (ran : scanBase64 rest scan = some bytes) :
    ∃ char later, rest = char :: later ∧ (char = '=' ∨ ∃ value, sextet char = some value ∧
      scan.paddingStarted = false ∧ scanBase64 later (scan.take value) = some bytes) := by
  cases rest with
  | nil =>
      rw [scan_nil, if_neg inside] at ran
      cases ran
  | cons char later =>
      refine ⟨char, later, rfl, ?_⟩
      by_cases pad : char = '='
      · exact Or.inl pad
      · cases found : sextet char with
        | none =>
            rw [scan_other later scan char pad found] at ran
            cases ran
        | some value =>
            rw [scan_sextet later scan char value found] at ran
            split_ifs at ran with padded
            exact Or.inr ⟨value, rfl, by simpa using padded, ran⟩

end Steps

theorem scan_of_spells (text : List Char) (added written : List UInt8)
    (spells : Spells text added) :
    scanBase64 text (.start written) = some (written ++ added) := by
  induction spells generalizing written with
  | nothing => simp [scan_nil, Scan.start]
  | group a b c d i j k l rest bytes first second third fourth later ih =>
      rw [scan_sextet _ _ a i first, scan_sextet _ _ b j second, scan_sextet _ _ c k third,
        scan_sextet _ _ d l fourth]
      have next := ih (written ++ [UInt8.ofNat (i * 4 + j / 16),
        UInt8.ofNat (j % 16 * 16 + k / 4), UInt8.ofNat (k % 4 * 64 + l)])
      simpa [Scan.start, Scan.take] using next
  | two a b c i j k first second third =>
      rw [scan_sextet _ _ a i first, scan_sextet _ _ b j second, scan_sextet _ _ c k third]
      simp [scan_cons, Scan.start, Scan.take]
  | one a b i j first second =>
      rw [scan_sextet _ _ a i first, scan_sextet _ _ b j second]
      simp [scan_cons, Scan.start, Scan.take]

/-- The padding of a group of two. -/
theorem scan_padding (rest : List Char) (scan : Scan) (bytes : List UInt8) (half : scan.quadPos = 2)
    (fresh : scan.pads = 0) (ran : scanBase64 ('=' :: rest) scan = some bytes) :
    rest = ['='] ∧ bytes = scan.written := by
  rw [scan_pad_half rest scan half fresh] at ran
  obtain ⟨char, later, shape, pad | ⟨_, _, unpadded, _⟩⟩ :=
    scan_next rest { scan with pads := 1, paddingStarted := true } bytes (by simp [half]) ran
  · rw [shape, pad, scan_pad_last _ _ (by simp [half]) (by simp [half])] at ran
    split_ifs at ran with ends
    cases ran
    exact ⟨by rw [shape, pad, ends], rfl⟩
  · cases unpadded

theorem spells_of_scan (text : List Char) (written bytes : List UInt8)
    (ran : scanBase64 text (.start written) = some bytes) :
    ∃ added, bytes = written ++ added ∧ Spells text added := by
  induction size : text.length using Nat.strong_induction_on generalizing text written with
  | _ bound ih =>
      cases text with
      | nil =>
          cases ran
          exact ⟨[], (List.append_nil _).symm, .nothing⟩
      | cons a text =>
          by_cases pad : a = '='
          · rw [pad, scan_pad_start _ _ rfl] at ran
            cases ran
          · cases first : sextet a with
            | none =>
                rw [scan_other text _ a pad first] at ran
                cases ran
            | some i =>
                rw [scan_sextet text _ a i first] at ran
                obtain ⟨b, text, rfl, pad | ⟨j, second, _, ran⟩⟩ :=
                  scan_next _ _ bytes Nat.one_ne_zero ran
                · subst pad
                  have none := scan_pad_lone text ((Scan.start written).take i) rfl
                  exact absurd (ran.symm.trans none) (by simp)
                obtain ⟨c, text, rfl, pad | ⟨k, third, _, ran⟩⟩ :=
                  scan_next _ _ bytes (Nat.succ_ne_zero 1) ran
                · subst pad
                  obtain ⟨shape, left⟩ := scan_padding text _ bytes rfl rfl ran
                  subst shape
                  exact ⟨_, left, .one a b i j first second⟩
                obtain ⟨d, text, rfl, pad | ⟨l, fourth, _, ran⟩⟩ :=
                  scan_next _ _ bytes (Nat.succ_ne_zero 2) ran
                · subst pad
                  rw [scan_pad_last text _ (by simp [Scan.take, Scan.start])
                    (by simp [Scan.take, Scan.start])] at ran
                  split_ifs at ran with ends
                  cases ran
                  subst ends
                  refine ⟨_, ?_, .two a b c i j k first second third⟩
                  simp [Scan.take, Scan.start]
                have shorter : text.length < bound := by
                  rw [← size]
                  simp only [List.length_cons]
                  omega
                obtain ⟨added, left, later⟩ := ih text.length shorter text _ ran rfl
                refine ⟨_, ?_, .group a b c d i j k l text added first second third fourth later⟩
                rw [left]
                simp [Scan.take, Scan.start]

/-- What a scan makes of its text is what the text spells, after what was
written before. -/
theorem scan_iff (text : List Char) (bytes : List UInt8) :
    scanBase64 text (.start []) = some bytes ↔ Spells text bytes := by
  constructor
  · intro ran
    obtain ⟨added, same, spells⟩ := spells_of_scan text [] bytes ran
    rw [List.nil_append] at same
    exact same ▸ spells
  · exact scan_of_spells text bytes []

/-! ## How many texts spell one value -/

theorem sextet_of_char (value : Nat) (small : value < 64) :
    sextet (sextetChar value) = some value :=
  (sextet_some_iff _ _).mpr ⟨small, rfl⟩

theorem sextet_char_injective (left right : Nat) (leftSmall : left < 64) (rightSmall : right < 64)
    (same : sextetChar left = sextetChar right) : left = right := by
  have found := sextet_of_char left leftSmall
  rw [same, sextet_of_char right rightSmall] at found
  exact (Option.some.inj found).symm

/-- All of them; `low` are the bits that no byte holds. -/
def spellings : List UInt8 → List (List Char)
  | [] => [[]]
  | [a] =>
      (List.range 16).map fun low =>
        [sextetChar (a.toNat / 4), sextetChar (a.toNat % 4 * 16 + low), '=', '=']
  | [a, b] =>
      (List.range 4).map fun low =>
        [sextetChar (a.toNat / 4), sextetChar (a.toNat % 4 * 16 + b.toNat / 16),
          sextetChar (b.toNat % 16 * 4 + low), '=']
  | a :: b :: c :: rest =>
      (spellings rest).map fun text =>
        sextetChar (a.toNat / 4) :: sextetChar (a.toNat % 4 * 16 + b.toNat / 16) ::
          sextetChar (b.toNat % 16 * 4 + c.toNat / 64) :: sextetChar (c.toNat % 64) :: text

theorem byte_of_nat (value : Nat) (small : value < 256) : (UInt8.ofNat value).toNat = value := by
  rw [UInt8.toNat_ofNat']
  exact Nat.mod_eq_of_lt small

theorem byte_eq (byte : UInt8) (value : Nat) (same : value = byte.toNat) :
    UInt8.ofNat value = byte := by
  rw [same, UInt8.ofNat_toNat]

theorem spelled_listed (text : List Char) (bytes : List UInt8) (spells : Spells text bytes) :
    text ∈ spellings bytes := by
  induction spells with
  | nothing => exact List.mem_singleton.mpr rfl
  | group a b c d i j k l rest bytes first second third fourth later ih =>
      obtain ⟨iSmall, aChar⟩ := (sextet_some_iff a i).mp first
      obtain ⟨jSmall, bChar⟩ := (sextet_some_iff b j).mp second
      obtain ⟨kSmall, cChar⟩ := (sextet_some_iff c k).mp third
      obtain ⟨lSmall, dChar⟩ := (sextet_some_iff d l).mp fourth
      refine List.mem_map.mpr ⟨rest, ih, ?_⟩
      rw [byte_of_nat (i * 4 + j / 16) (by omega), byte_of_nat (j % 16 * 16 + k / 4) (by omega),
        byte_of_nat (k % 4 * 64 + l) (by omega), aChar, bChar, cChar, dChar]
      congr 4 <;> congr 1 <;> omega
  | two a b c i j k first second third =>
      obtain ⟨iSmall, aChar⟩ := (sextet_some_iff a i).mp first
      obtain ⟨jSmall, bChar⟩ := (sextet_some_iff b j).mp second
      obtain ⟨kSmall, cChar⟩ := (sextet_some_iff c k).mp third
      refine List.mem_map.mpr ⟨k % 4, List.mem_range.mpr (by omega), ?_⟩
      rw [byte_of_nat (i * 4 + j / 16) (by omega), byte_of_nat (j % 16 * 16 + k / 4) (by omega),
        aChar, bChar, cChar]
      congr 3 <;> congr 1 <;> omega
  | one a b i j first second =>
      obtain ⟨iSmall, aChar⟩ := (sextet_some_iff a i).mp first
      obtain ⟨jSmall, bChar⟩ := (sextet_some_iff b j).mp second
      refine List.mem_map.mpr ⟨j % 16, List.mem_range.mpr (by omega), ?_⟩
      rw [byte_of_nat (i * 4 + j / 16) (by omega), aChar, bChar]
      congr 2 <;> congr 1 <;> omega

theorem listed_spells (bytes : List UInt8) (text : List Char) (listed : text ∈ spellings bytes) :
    Spells text bytes := by
  induction bytes using spellings.induct generalizing text with
  | case1 =>
      rw [List.mem_singleton.mp listed]
      exact .nothing
  | case2 a =>
      obtain ⟨low, small, shape⟩ := List.mem_map.mp listed
      have lowSmall := List.mem_range.mp small
      have aSmall := a.toNat_lt
      have spelled := Spells.one _ _ _ _ (sextet_of_char (a.toNat / 4) (by omega))
        (sextet_of_char (a.toNat % 4 * 16 + low) (by omega))
      rwa [byte_eq a _ (by omega), shape] at spelled
  | case3 a b =>
      obtain ⟨low, small, shape⟩ := List.mem_map.mp listed
      have lowSmall := List.mem_range.mp small
      have aSmall := a.toNat_lt
      have bSmall := b.toNat_lt
      have spelled := Spells.two _ _ _ _ _ _ (sextet_of_char (a.toNat / 4) (by omega))
        (sextet_of_char (a.toNat % 4 * 16 + b.toNat / 16) (by omega))
        (sextet_of_char (b.toNat % 16 * 4 + low) (by omega))
      rwa [byte_eq a _ (by omega), byte_eq b _ (by omega), shape] at spelled
  | case4 a b c rest ih =>
      obtain ⟨tail, member, shape⟩ := List.mem_map.mp listed
      have aSmall := a.toNat_lt
      have bSmall := b.toNat_lt
      have cSmall := c.toNat_lt
      have spelled := Spells.group _ _ _ _ _ _ _ _ tail rest
        (sextet_of_char (a.toNat / 4) (by omega))
        (sextet_of_char (a.toNat % 4 * 16 + b.toNat / 16) (by omega))
        (sextet_of_char (b.toNat % 16 * 4 + c.toNat / 64) (by omega))
        (sextet_of_char (c.toNat % 64) (by omega)) (ih tail member)
      rwa [byte_eq a _ (by omega), byte_eq b _ (by omega), byte_eq c _ (by omega), shape] at spelled

theorem spellings_nodup (bytes : List UInt8) : (spellings bytes).Nodup := by
  induction bytes using spellings.induct with
  | case1 => exact List.nodup_singleton _
  | case2 a =>
      apply List.nodup_range.map_on
      intro left leftMember right rightMember same
      have leftSmall := List.mem_range.mp leftMember
      have rightSmall := List.mem_range.mp rightMember
      simp only [List.cons.injEq, and_true, true_and] at same
      have equal := sextet_char_injective _ _ (by omega) (by omega) same
      omega
  | case3 a b =>
      apply List.nodup_range.map_on
      intro left leftMember right rightMember same
      have leftSmall := List.mem_range.mp leftMember
      have rightSmall := List.mem_range.mp rightMember
      simp only [List.cons.injEq, and_true, true_and] at same
      have equal := sextet_char_injective _ _ (by omega) (by omega) same
      omega
  | case4 a b c rest ih =>
      apply ih.map
      intro left right same
      simpa using same

theorem spellings_length (bytes : List UInt8) :
    (spellings bytes).length =
      if bytes.length % 3 = 0 then 1 else if bytes.length % 3 = 1 then 16 else 4 := by
  induction bytes using spellings.induct with
  | case1 => rfl
  | case2 a => simp [spellings]
  | case3 a b => simp [spellings]
  | case4 a b c rest ih =>
      rw [spellings, List.length_map, ih]
      simp only [List.length_cons, Nat.add_assoc, Nat.add_mod_right]

theorem sextet_ascii (char : Char) (value : Nat) (found : sextet char = some value) :
    char.toNat < 128 := by
  have ascii : alphabet.all (fun char => decide (char.toNat < 128)) = true := by decide +kernel
  obtain ⟨inside, same, _⟩ := List.idxOf?_eq_some_iff.mp found
  exact of_decide_eq_true (List.all_eq_true.mp ascii char (same ▸ List.getElem_mem inside))

theorem spells_ascii (text : List Char) (bytes : List UInt8) (spells : Spells text bytes) :
    ∀ char ∈ text, char.toNat < 128 := by
  have pad : '='.toNat < 128 := by decide
  induction spells with
  | nothing => simp
  | group a b c d i j k l rest bytes first second third fourth later ih =>
      simp only [List.forall_mem_cons]
      exact ⟨sextet_ascii a i first, sextet_ascii b j second, sextet_ascii c k third,
        sextet_ascii d l fourth, ih⟩
  | two a b c i j k first second third =>
      simp only [List.forall_mem_cons]
      exact ⟨sextet_ascii a i first, sextet_ascii b j second, sextet_ascii c k third, pad, by simp⟩
  | one a b i j first second =>
      simp only [List.forall_mem_cons]
      exact ⟨sextet_ascii a i first, sextet_ascii b j second, pad, pad, by simp⟩

/-- The texts that decode to the bytes are their spellings. -/
theorem b64decode_iff (text : String) (bytes : List UInt8) :
    b64decode text = some bytes ↔ text.toList ∈ spellings bytes := by
  have listed : Spells text.toList bytes ↔ text.toList ∈ spellings bytes :=
    ⟨spelled_listed _ _, listed_spells _ _⟩
  rw [← listed, ← scan_iff]
  unfold b64decode
  split_ifs with ascii
  · rfl
  · constructor
    · intro impossible
      cases impossible
    · intro scanned
      apply absurd _ ascii
      rw [List.all_eq_true]
      intro char member
      exact decide_eq_true (spells_ascii _ _ ((scan_iff _ _).mp scanned) char member)

end Morai.Python.Base64
