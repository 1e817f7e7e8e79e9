/-
# The predicate language of CXQ

`predicate` of `query/cxq.cpp` and the scans it is made of. The parser strips outer parentheses,
looks for `or` and `and` outside of quotes, parentheses and brackets, and reads what is left as
a call such as `eq(field, value)` or as a comparison.
-/

import Mathlib
import CppIndexer.Query.Predicate

namespace CppIndexer.Query.Cxq

open List

abbrev Text := List Char

/-- A property of every character of a text is decided along the text. -/
instance (priority := high) (text : Text) (p : Char → Prop) [DecidablePred p] :
    Decidable (∀ ch ∈ text, p ch) :=
  List.decidableBAll p text

instance (priority := high) (text : Text) (p : Char → Prop) [DecidablePred p] :
    Decidable (∃ ch ∈ text, p ch) :=
  List.decidableBEx p text

/-- `std::isspace` in the C locale. -/
def isSpace (ch : Char) : Bool := ch ∈ [' ', '\t', '\n', '\x0b', '\x0c', '\r']

/-- `parse_fail`. -/
def parseFail {α : Type} (message : String) : Except String α := .error ("E_PARSE: " ++ message)

variable (value : Text)

/-- `trim`. -/
def trim : Text := (value.dropWhile isSpace).rdropWhile isSpace

def isQuote (ch : Char) : Bool := ch = '\x22' || ch = '\x27'

/-- `quoted`. -/
def quoted : Bool :=
  2 ≤ value.length && ((value.head? = some '\x22' && value.getLast? = some '\x22') ||
    (value.head? = some '\x27' && value.getLast? = some '\x27'))

/-- `atom`. -/
def atom : Text :=
  let result := trim value
  if quoted result then (result.drop 1).dropLast else result

/-! ## Scans -/

/-- Where a scan stands: the open parentheses and brackets, and the open quote. -/
structure Scan where
  parens : ℤ := 0
  brackets : ℤ := 0
  quote : Option Char := none
  deriving DecidableEq

/-- The characters that a scan counts. -/
def isDelimiter (ch : Char) : Bool := isQuote ch || ch ∈ ['(', ')', '[', ']']

/-- One character of a scan, given the one before it. -/
def Scan.step (scan : Scan) (prev : Option Char) (ch : Char) : Scan :=
  match scan.quote with
  | some quote => if ch = quote ∧ prev ≠ some '\\' then { scan with quote := none } else scan
  | none =>
    if isQuote ch then { scan with quote := some ch }
    else if ch = '(' then { scan with parens := scan.parens + 1 }
    else if ch = ')' then { scan with parens := scan.parens - 1 }
    else if ch = '[' then { scan with brackets := scan.brackets + 1 }
    else if ch = ']' then { scan with brackets := scan.brackets - 1 }
    else scan

/-- An ordinary character outside of quotes, parentheses and brackets. -/
def Scan.atTop (scan : Scan) (ch : Char) : Bool :=
  scan.quote = none && !isDelimiter ch && scan.parens = 0 && scan.brackets = 0

/-- The loop of `split_top_level`, with the part read so far. -/
def splitFrom (delimiter : Char) : Scan → Option Char → Text → Text → Except String (List Text)
  | scan, _, part, [] =>
    if scan = {} then .ok [trim part] else parseFail "unbalanced quotes or delimiters"
  | scan, prev, part, ch :: rest =>
    if scan.atTop ch ∧ ch = delimiter then
      (splitFrom delimiter scan (some ch) [] rest).map (trim part :: ·)
    else splitFrom delimiter (scan.step prev ch) (some ch) (part ++ [ch]) rest

/-- `split_top_level`. -/
def splitTopLevel (delimiter : Char) : Except String (List Text) :=
  splitFrom delimiter {} none [] value

/-- The keyword stands here, between blanks. -/
def keywordAt (keyword : Text) (prev : Option Char) (value : Text) : Bool :=
  prev.all isSpace && keyword.isPrefixOf value && (value.drop keyword.length).head?.all isSpace

/-- The loop of `find_top_level_keyword`. -/
def findFrom (keyword : Text) : Scan → Option Char → Text → Option ℕ
  | _, _, [] => none
  | scan, prev, ch :: rest =>
    if scan.atTop ch ∧ keywordAt keyword prev (ch :: rest) then some 0
    else (findFrom keyword (scan.step prev ch) (some ch) rest).map (· + 1)

/-- `find_top_level_keyword`. -/
def findTopLevelKeyword (value keyword : Text) : Option ℕ := findFrom keyword {} none value

/-- `std::string::find`. -/
def find (pattern : Text) : Text → Option ℕ
  | [] => none
  | ch :: rest =>
    if pattern.isPrefixOf (ch :: rest) then some 0 else (find pattern rest).map (· + 1)

/-! ## Values -/

/-- `integer`: `std::from_chars` of a whole text, for 64 bits. -/
def integer : Option ℤ :=
  let text := trim value
  let negative := text.head? = some '-'
  let digits := if negative then text.drop 1 else text
  if digits = [] ∨ ¬ digits.all Char.isDigit then none
  else
    let size : ℤ := digits.foldl (fun n ch => 10 * n + (ch.toNat - 48)) 0
    let number := if negative then -size else size
    if -2 ^ 63 ≤ number ∧ number < 2 ^ 63 then some number else none

/-- `call_parts`. -/
def callParts (token expected : Text) : Except String (List Text) :=
  let value := trim token
  if ¬ (expected ++ ['(']).isPrefixOf value ∨ value.getLast? ≠ some ')' ∨
      value.length ≤ expected.length + 1 then
    parseFail ("expected " ++ String.ofList expected ++ "(...)")
  else
    let inside := (value.drop (expected.length + 1)).dropLast
    if trim inside = [] then .ok [] else splitTopLevel inside ','

/-- `list_values`. -/
def listValues : Except String (List String) :=
  let text := trim value
  if text.length < 2 ∨ text.head? ≠ some '[' ∨ text.getLast? ≠ some ']' then
    parseFail "expected a bracketed value list"
  else
    let inside := (text.drop 1).dropLast
    if trim inside = [] then parseFail "value list must not be empty"
    else (splitTopLevel inside ',').map fun parts => parts.map fun part => String.ofList (atom part)

/-- The comparison of a field with a value that is no list: truth values and integers are compared
as integers. -/
def compareValue (op : CmpOp) (field value : Text) : Pred :=
  let field := String.ofList field
  let withInt (int : ℤ) : Pred :=
    if op = .eq then .cmp .eq field [] (some int) else .not [.cmp .eq field [] (some int)]
  if op = .glob then .cmp .glob field [String.ofList value] none
  else if value = "true".toList ∨ value = "false".toList then
    withInt (if value = "true".toList then 1 else 0)
  else
    match integer value with
    | some number => withInt number
    | none => .cmp op field [String.ofList value] none

/-- A comparison with the text behind its operator. -/
def compareText (op : CmpOp) (field rhs : Text) : Except String Pred :=
  if op = .inList then
    (listValues rhs).map fun values => .cmp .inList (String.ofList field) values none
  else .ok (compareValue op field (atom rhs))

/-- The operators of `comparison` in the order they are looked for. -/
def comparisonOps : List (Text × CmpOp) :=
  [("!=".toList, .ne), ("~=".toList, .glob), ("=".toList, .eq), (" in ".toList, .inList)]

/-- `comparison`. -/
def comparison (expression : Text) : Except String Pred :=
  let text := trim expression
  match comparisonOps.findSome? fun (sign, op) => (find sign text).map fun i => (sign, op, i) with
  | none => parseFail ("unsupported predicate '" ++ String.ofList text ++ "'")
  | some (sign, op, i) =>
    let fieldName := trim (text.take i)
    if fieldName = [] then parseFail "missing predicate field"
    else compareText op fieldName (text.drop (i + sign.length))

/-- The comparisons that are written as calls. -/
def callOps : List (Text × CmpOp) :=
  [("eq".toList, .eq), ("ne".toList, .ne), ("glob".toList, .glob), ("in".toList, .inList)]

/-- A predicate without connectives. -/
def simplePredicate (text : Text) : Except String Pred :=
  match callOps.find? fun (name, _) => (name ++ ['(']).isPrefixOf text with
  | none => comparison text
  | some (name, op) => do
      match ← callParts text name with
      | [field, value] =>
        if op = .inList then compareText op (atom field) value
        else pure (compareValue op (atom field) (atom value))
      | _ => parseFail (if op = .inList then "in() requires a field and list"
          else String.ofList name ++ "() requires a field and value")

/-! ## Termination -/

theorem length_trim_le : (trim value).length ≤ value.length :=
  ( rdropWhile_prefix isSpace _).length_le.trans (length_dropWhile_le _ _)

theorem findFrom_lt {keyword : Text} {scan : Scan} {prev : Option Char} {value : Text} {i : ℕ}
    (h : findFrom keyword scan prev value = some i) : i < value.length := by
  induction value generalizing scan prev i with
  | nil => cases h
  | cons _ _ ih =>
    rw [findFrom] at h
    split at h
    · cases h
      exact Nat.succ_pos _
    · obtain ⟨j, hj, rfl⟩ := Option.map_eq_some_iff.mp h
      exact Nat.succ_lt_succ (ih hj)

/-! ## Predicates -/

/-- The loop of `predicate` that strips outer parentheses. -/
def stripParens (text : Text) : Except String Text :=
  if _h : 2 ≤ text.length ∧ text.head? = some '(' ∧ text.getLast? = some ')' then do
    let inside := (text.drop 1).dropLast
    let parts ← splitTopLevel inside ','
    if parts.length ≠ 1 then pure text else stripParens (trim inside)
  else pure text
termination_by text.length
decreasing_by
  have hlength := length_trim_le ((text.drop 1).dropLast)
  simp only [length_dropLast, length_drop] at hlength
  omega

theorem length_stripParens_le {text out : Text} (h : stripParens text = .ok out) :
    out.length ≤ text.length := by
  fun_induction stripParens text with
  | case1 text hparens inside ih =>
    obtain ⟨parts, _, h⟩ := ok_of_bind h
    split at h
    · cases h
      exact le_refl _
    · rename_i hone
      have hinside := (ih h).trans (length_trim_le inside)
      have hlength : inside.length ≤ text.length := by
        simp only [inside, length_dropLast, length_drop]
        omega
      exact hinside.trans hlength
  | case2 text hparens =>
    cases h
    exact le_refl _

/-- `predicate`. -/
def predicate (expression : Text) : Except String Pred :=
  match _hstrip : stripParens (trim expression) with
  | .error message => .error message
  | .ok text =>
    if _hnot : "not ".toList.isPrefixOf text then
      (predicate (text.drop 4)).map fun inner => .not [inner]
    else
      match _hor : findTopLevelKeyword text "or".toList with
      | some i => do
          let left ← predicate (text.take i)
          let right ← predicate (text.drop (i + 2))
          pure (.junction .anyOf [left, right])
      | none =>
        match _hand : findTopLevelKeyword text "and".toList with
        | some i => do
            let left ← predicate (text.take i)
            let right ← predicate (text.drop (i + 3))
            pure (.junction .allOf [left, right])
        | none => simplePredicate text
termination_by expression.length
decreasing_by
  all_goals
    have hlength := (length_stripParens_le _hstrip).trans (length_trim_le expression)
    simp only [length_take, length_drop]
  · have hprefix := ( isPrefixOf_iff_prefix.mp _hnot).length_le
    simp at hprefix
    omega
  · have := findFrom_lt _hor
    omega
  · have := findFrom_lt _hor
    omega
  · have := findFrom_lt _hand
    omega
  · have := findFrom_lt _hand
    omega

/-- What `predicate` does with a text that has no outer parentheses. -/
def predicateStripped (text : Text) : Except String Pred :=
  if "not ".toList.isPrefixOf text then
    (predicate (text.drop 4)).map fun inner => .not [inner]
  else
    match findTopLevelKeyword text "or".toList with
    | some i => do
        let left ← predicate (text.take i)
        let right ← predicate (text.drop (i + 2))
        pure (.junction .anyOf [left, right])
    | none =>
      match findTopLevelKeyword text "and".toList with
      | some i => do
          let left ← predicate (text.take i)
          let right ← predicate (text.drop (i + 3))
          pure (.junction .allOf [left, right])
      | none => simplePredicate text

theorem predicate_eq (expression : Text) :
    predicate expression = stripParens (trim expression) >>= predicateStripped := by
  rw [predicate]
  split
  · rename_i message hstrip
    rw [hstrip]
    rfl
  · rename_i text hstrip
    rw [hstrip]
    show _ = predicateStripped text
    unfold predicateStripped
    split
    · rfl
    · split
      · rename_i i hor
        simp only [hor]
      · rename_i hor
        simp only [hor]
        split
        · rename_i i hand
          simp only [hand]
        · rename_i hand
          simp only [hand]

end CppIndexer.Query.Cxq
