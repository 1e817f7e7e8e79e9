/-
# The parser of CXQ in Python

`parse_cxq` of `python/indexer/queryplan.py`, for texts in ASCII. It blanks and quotes by its own rules:
`str.strip` and `str.isspace` know four separators that `std::isspace` does not, a backslash that is itself
escaped does not escape, `int` refuses more than 4300 digits, and a negated comparison is a negation
around an equality.
-/

import CppIndexer.Query.CxqStages

namespace CppIndexer.Query.PythonCxq

open Cxq (Text Head Written parseFail isQuote isDelimiter find relationName stageNames sourceNames callOps
  comparisonOps extent extent_cons)
open List

/-- `str.isspace`, on ASCII. -/
def isSpace (ch : Char) : Bool :=
  ch ∈ [' ', '\t', '\n', '\x0b', '\x0c', '\r', '\x1c', '\x1d', '\x1e', '\x1f']

variable (value : Text)

/-- `_cxq_trim`. -/
def trim : Text := (value.dropWhile isSpace).rdropWhile isSpace

/-- `_cxq_atom`. -/
def atom : Text :=
  let text := trim value
  if 2 ≤ text.length ∧ text.head? = text.getLast? ∧ text.head?.any isQuote then (text.drop 1).dropLast
  else text

/-! ## Scans -/

/-- Where a scan stands: the open parentheses and brackets, the open quote, and whether the last
character escapes the next one. -/
structure Scan where
  parens : ℤ := 0
  brackets : ℤ := 0
  quote : Option Char := none
  escaped : Bool := false

def Scan.step (scan : Scan) (ch : Char) : Scan :=
  match scan.quote with
  | some quote =>
    { scan with
      quote := if ch = quote ∧ scan.escaped = false then none else some quote
      escaped := ch = '\\' && !scan.escaped }
  | none =>
    if isQuote ch then { scan with quote := some ch }
    else if ch = '(' then { scan with parens := scan.parens + 1 }
    else if ch = ')' then { scan with parens := scan.parens - 1 }
    else if ch = '[' then { scan with brackets := scan.brackets + 1 }
    else if ch = ']' then { scan with brackets := scan.brackets - 1 }
    else scan

/-- An ordinary character outside of quotes, parentheses and brackets. -/
def Scan.atTop (scan : Scan) (ch : Char) : Bool :=
  scan.quote = none && !isDelimiter ch && scan.parens = 0 && scan.brackets = 0

/-- The loop of `_cxq_split`, with the part read so far. -/
def splitFrom (delimiter : Char) : Scan → Text → Text → Except String (List Text)
  | scan, part, [] =>
    if scan.quote.isSome ∨ scan.parens ≠ 0 ∨ scan.brackets ≠ 0 then
      parseFail "unbalanced quotes or delimiters"
    else .ok [trim part]
  | scan, part, ch :: rest =>
    if scan.atTop ch ∧ ch = delimiter then
      (splitFrom delimiter scan [] rest).map (trim part :: ·)
    else splitFrom delimiter (scan.step ch) (part ++ [ch]) rest

/-- `_cxq_split`. -/
def split (delimiter : Char) : Except String (List Text) :=
  splitFrom delimiter {} [] value

/-- The keyword stands here, between blanks. -/
def keywordAt (keyword : Text) (prev : Option Char) (value : Text) : Bool :=
  keyword.isPrefixOf value && prev.all isSpace && (value.drop keyword.length).head?.all isSpace

/-- The loop of `_cxq_find_keyword`. -/
def findFrom (keyword : Text) : Scan → Option Char → Text → Option ℕ
  | _, _, [] => none
  | scan, prev, ch :: rest =>
    if scan.atTop ch ∧ keywordAt keyword prev (ch :: rest) then some 0
    else (findFrom keyword (scan.step ch) (some ch) rest).map (· + 1)

/-- `_cxq_find_keyword`. -/
def findKeyword (value keyword : Text) : Option ℕ := findFrom keyword {} none value

/-! ## Values -/

/-- `sys.int_info.default_max_str_digits`. -/
def maxStrDigits : ℕ := 4300

/-- `_cxq_int`: `int` raises `ValueError` for too many digits. -/
def int : Option ℤ :=
  let text := trim value
  let negative := text.head? = some '-'
  let digits := if negative then text.drop 1 else text
  if digits = [] ∨ ¬ digits.all Char.isDigit then none
  else if maxStrDigits < digits.length then none
  else
    let size : ℤ := digits.foldl (fun n ch => 10 * n + (ch.toNat - 48)) 0
    let number := if negative then -size else size
    if number < -2 ^ 63 ∨ 2 ^ 63 - 1 < number then none else some number

/-- `_cxq_call`. -/
def call (token name : Text) : Except String (List Text) :=
  let value := trim token
  if ¬ (name ++ ['(']).isPrefixOf value ∨ value.getLast? ≠ some ')' then
    parseFail ("expected " ++ String.ofList name ++ "(...)")
  else
    let inside := (value.drop (name.length + 1)).dropLast
    if trim inside = [] then .ok [] else split inside ','

/-- `_cxq_list`. -/
def list : Except String (List String) :=
  let text := trim value
  if text.length < 2 ∨ text.head? ≠ some '[' ∨ text.getLast? ≠ some ']' then
    parseFail "expected a bracketed value list"
  else
    let inside := trim ((text.drop 1).dropLast)
    if inside = [] then parseFail "value list must not be empty"
    else (split inside ',').map fun parts => parts.map fun part => String.ofList (atom part)

def compareValue (op : CmpOp) (field value : Text) : Pred :=
  let field := String.ofList field
  let equality : Pred :=
    if value = "true".toList ∨ value = "false".toList then
      .cmp .eq field [] (some (if value = "true".toList then 1 else 0))
    else
      match int value with
      | some number => .cmp .eq field [] (some number)
      | none => .cmp .eq field [String.ofList value] none
  if op = .glob then .cmp .glob field [String.ofList value] none
  else if op = .ne then .not [equality]
  else equality

/-- A comparison with the text behind its operator. -/
def compareText (op : CmpOp) (field value : Text) : Except String Pred :=
  if op = .inList then
    (list value).map fun values => .cmp .inList (String.ofList field) values none
  else .ok (compareValue op field (atom value))

def comparison (text : Text) : Except String Pred :=
  match comparisonOps.findSome? fun (sign, op) => (find sign text).map fun i => (sign, op, i) with
  | none => parseFail ("unsupported predicate '" ++ String.ofList text ++ "'")
  | some (sign, op, i) =>
    let fieldName := trim (text.take i)
    let value := trim (text.drop (i + sign.length))
    if fieldName = [] then parseFail "missing predicate field" else compareText op fieldName value

/-- A predicate without connectives. -/
def simplePred (text : Text) : Except String Pred :=
  match callOps.find? fun (name, _) => (name ++ ['(']).isPrefixOf text with
  | none => comparison text
  | some (name, op) => do
      match ← call text name with
      | [field, value] =>
        if op = .inList then compareText op (atom field) value
        else pure (compareValue op (atom field) (atom value))
      | _ => parseFail (if op = .inList then "in() requires a field and list"
          else String.ofList name ++ "() requires a field and value")

/-! ## Predicates -/

theorem length_trim_le : (trim value).length ≤ value.length :=
  ( rdropWhile_prefix isSpace _).length_le.trans (length_dropWhile_le _ _)

variable {delimiter : Char} {parts args : List Text} {scan : Scan} {op : SortUnique.SetOp}
  {token name operand text : Text}

theorem findFrom_lt {keyword : Text} {prev : Option Char} {value : Text} {i : ℕ}
    (h : findFrom keyword scan prev value = some i) : i < value.length := by
  induction value generalizing scan prev i with
  | nil => cases h
  | cons _ _ ih =>
    rw [findFrom] at h
    split at h
    · cases h
      exact Nat.succ_pos _
    · obtain ⟨_, hj, rfl⟩ := Option.map_eq_some_iff.mp h
      exact Nat.succ_lt_succ (ih hj)

/-- The loop of `_cxq_pred` that strips outer parentheses. -/
def stripParens (text : Text) : Except String Text :=
  if _h : 2 ≤ text.length ∧ text.head? = some '(' ∧ text.getLast? = some ')' then do
    let inner := (text.drop 1).dropLast
    let parts ← split inner ','
    if parts.length ≠ 1 then pure text else stripParens (trim inner)
  else pure text
termination_by text.length
decreasing_by
  have hlength := length_trim_le ((text.drop 1).dropLast)
  simp only [length_dropLast, length_drop] at hlength
  omega

theorem length_stripParens_le {out : Text} (h : stripParens text = .ok out) :
    out.length ≤ text.length := by
  fun_induction stripParens text with
  | case1 text hparens inner ih =>
    obtain ⟨_, _, h⟩ := ok_of_bind h
    split at h
    · cases h
      exact le_refl _
    · have hinner := (ih h).trans (length_trim_le inner)
      have hlength : inner.length ≤ text.length := by
        simp only [inner, length_dropLast, length_drop]
        omega
      exact hinner.trans hlength
  | case2 text hparens =>
    cases h
    exact le_refl _

/-- `_cxq_pred`. -/
def pred (expression : Text) : Except String Pred :=
  match _hstrip : stripParens (trim expression) with
  | .error message => .error message
  | .ok text =>
    if _hnot : "not ".toList.isPrefixOf text then
      (pred (text.drop 4)).map fun inner => .not [inner]
    else
      match _hor : findKeyword text "or".toList with
      | some i => do
          let left ← pred (text.take i)
          let right ← pred (text.drop (i + 2))
          pure (.junction .anyOf [left, right])
      | none =>
        match _hand : findKeyword text "and".toList with
        | some i => do
            let left ← pred (text.take i)
            let right ← pred (text.drop (i + 3))
            pure (.junction .allOf [left, right])
        | none => simplePred text
termination_by expression.length
decreasing_by
  all_goals
    have hlength := (length_stripParens_le _hstrip).trans (length_trim_le expression)
    simp only [length_take, length_drop]
  · have hfront := ( isPrefixOf_iff_prefix.mp _hnot).length_le
    simp at hfront
    omega
  · have := findFrom_lt _hor
    omega
  · have := findFrom_lt _hor
    omega
  · have := findFrom_lt _hand
    omega
  · have := findFrom_lt _hand
    omega

/-- What `_cxq_pred` does with a text that has no outer parentheses. -/
def predStripped (text : Text) : Except String Pred :=
  if "not ".toList.isPrefixOf text then (pred (text.drop 4)).map fun inner => .not [inner]
  else
    match findKeyword text "or".toList with
    | some i => do
        let left ← pred (text.take i)
        let right ← pred (text.drop (i + 2))
        pure (.junction .anyOf [left, right])
    | none =>
      match findKeyword text "and".toList with
      | some i => do
          let left ← pred (text.take i)
          let right ← pred (text.drop (i + 3))
          pure (.junction .allOf [left, right])
      | none => simplePred text

theorem pred_eq (expression : Text) :
    pred expression = stripParens (trim expression) >>= predStripped := by
  rw [pred]
  split
  · rename_i message hstrip
    rw [hstrip]
    rfl
  · rename_i text hstrip
    rw [hstrip]
    show _ = predStripped text
    unfold predStripped
    split
    · rfl
    · split
      · rename_i i hor
        simp only [hor]
      · rename_i hor
        simp only [hor]
        split
        · rename_i i hand
          simp only [hand]
        · rename_i hand
          simp only [hand]

/-! ## Stages -/

/-- `str.split("..")`, with the part read so far. -/
def splitDots (part : Text) : Text → List Text
  | '.' :: '.' :: rest => part :: splitDots [] rest
  | ch :: rest => splitDots (part ++ [ch]) rest
  | [] => [part]

/-- The depth arguments of a traversal. -/
def depthArgs : List Text → Except String (ℤ × ℤ)
  | [_] => .ok (1, 1)
  | [_, depth] =>
    if "depth=".toList.isPrefixOf depth then
      match (splitDots [] (depth.drop 6)).map int with
      | [some minDepth, some maxDepth] => .ok (minDepth, maxDepth)
      | _ => parseFail "depth must be written as depth=min..max"
    else
      match int depth with
      | some depth => .ok (depth, depth)
      | none => parseFail "depth must be an integer or depth=min..max"
  | [_, first, second] =>
    match int first, int second with
    | some minDepth, some maxDepth => .ok (minDepth, maxDepth)
    | _, _ => parseFail "depth must be written as depth=min..max"
  | _ => parseFail "traversal accepts relation and at most two depth arguments"

/-- A stage that takes no arguments. -/
def withoutArgs (name : Text) (args : List Text) (stage : Stage) : Except String Written :=
  if args ≠ [] then parseFail (String.ofList name ++ "() takes no arguments") else .ok (.plain stage)

def withFields (name : Text) (args : List Text) (stage : List String → Stage) : Except String Written :=
  if args = [] then parseFail (String.ofList name ++ "() requires fields")
  else .ok (.plain (stage (args.map fun arg => String.ofList (atom arg))))

def stageArgs (name : Text) : Head → List Text → Except String Written
  | .nodes, [] => .ok (.plain (.nodes none .exclude))
  | .nodes, [arg] => (pred arg).map fun pred => .plain (.nodes (some pred) .exclude)
  | .nodes, _ => parseFail "nodes() takes zero or one predicate"
  | .view, [arg] =>
    if atom arg = "symbol".toList then .ok (.plain (.changeView .symbol))
    else if atom arg = "entity".toList then .ok (.plain (.changeView .entity))
    else parseFail "view() requires symbol or entity"
  | .view, _ => parseFail "view() requires symbol or entity"
  | .where_, [arg] => (pred arg).map fun pred => .plain (.where_ pred .exclude)
  | .where_, _ => parseFail "where() requires one expression"
  | .traverse _, [] => parseFail (String.ofList name ++ "() requires a relation")
  | .traverse inbound, relation :: rest =>
    (depthArgs (relation :: rest)).map fun (minDepth, maxDepth) =>
      .plain (.traverse inbound (relationName (atom relation)) .static minDepth maxDepth)
  | .sites, args => withoutArgs name args .sites
  | .setOp op, [arg] => .ok (.setOp op arg)
  | .setOp _, _ => parseFail (String.ofList name ++ "() requires one query")
  | .select, args => withFields name args .select
  | .count, args => withoutArgs name args .count
  | .distinct, args => withoutArgs name args .distinct
  | .orderBy, args => withFields name args .orderBy
  | .limit, [arg] =>
    match int arg with
    | some n => .ok (.plain (.limit n))
    | none => parseFail "limit() requires one integer"
  | .limit, _ => parseFail "limit() requires one integer"

/-- `_cxq_stage` up to the operand of a set operation. -/
def written (token : Text) : Except String Written :=
  let value := trim token
  if "rank(".toList.isPrefixOf value then parseFail "rank() is not available in v1"
  else
    match stageNames.find? fun (name, _) => (name ++ ['(']).isPrefixOf value with
    | none => parseFail ("unknown stage '" ++ String.ofList value ++ "'")
    | some (name, head) => call value name >>= stageArgs name head

def sourceArgs (name : Text) (kind : SourceKind) (args : List Text) : Except String Source :=
  if kind = .codebase then
    if args ≠ [] then parseFail "codebase() takes no arguments" else .ok ⟨.codebase, ""⟩
  else
    match args with
    | [ref] => .ok ⟨kind, String.ofList (atom ref)⟩
    | _ => parseFail (String.ofList name ++ "() requires one reference")

def source (part : Text) : Except String Source :=
  let first := trim part
  match sourceNames.find? fun (name, _) => (name ++ ['(']).isPrefixOf first with
  | none => parseFail "query must start with codebase(), symbol(), or entity()"
  | some (name, kind) => call first name >>= sourceArgs name kind

/-! ## Termination -/

theorem extent_splitFrom {part : Text} (h : splitFrom delimiter scan part text = .ok parts) :
    extent parts ≤ part.length + text.length + 1 := by
  induction text generalizing scan part parts with
  | nil =>
    rw [splitFrom] at h
    split at h
    · cases h
    · cases h
      have hlength := length_trim_le part
      simpa [extent] using hlength
  | cons _ _ ih =>
    rw [splitFrom] at h
    split at h
    · obtain ⟨_, hlater, rfl⟩ := map_eq_ok.mp h
      have hlength := length_trim_le part
      have hextent := ih hlater
      rw [extent_cons, length_cons]
      rw [length_nil] at hextent
      omega
    · have hextent := ih h
      rw [length_append, length_singleton] at hextent
      rw [length_cons]
      omega

theorem extent_split (h : split text delimiter = .ok parts) : extent parts ≤ text.length + 1 := by
  have hextent := extent_splitFrom h
  rw [length_nil] at hextent
  omega

theorem extent_call (h : call token name = .ok args) : extent args < token.length := by
  unfold call at h
  dsimp only at h
  have hlength := length_trim_le token
  split at h
  · cases h
  · rename_i hshape
    rw [not_or, not_not, not_not] at hshape
    have hfront := isPrefixOf_iff_prefix.mp hshape.1
    have hlong := hfront.length_le
    rw [length_append, length_singleton] at hlong
    -- the value ends with a parenthesis, and its prefix does not
    have hlast : (trim token).length ≠ name.length + 1 := by
      intro hequal
      have hvalue := hfront.eq_of_length (by rw [length_append, length_singleton, hequal])
      rw [← hvalue, getLast?_concat] at hshape
      exact absurd hshape.2 (by decide)
    split at h
    · cases h
      have hnil : extent [] = 0 := rfl
      omega
    · have hextent := extent_split h
      rw [length_dropLast, length_drop] at hextent
      omega

theorem stageArgs_setOp {head : Head}
    (h : stageArgs name head args = .ok (.setOp op operand)) : args = [operand] := by
  unfold stageArgs at h
  split at h
  case h_11 => cases h; rfl
  all_goals
    first
      | cases h
      | (simp only [withoutArgs, withFields, parseFail] at h; split at h <;> first | cases h | (split at h <;> cases h))
      | (obtain ⟨_, _, h⟩ := map_eq_ok.mp h; cases h)

theorem length_operand (h : written token = .ok (.setOp op operand)) : operand.length < token.length := by
  unfold written at h
  dsimp only at h
  split at h
  · cases h
  · split at h
    · cases h
    · rename_i name head _
      obtain ⟨_, hargs, h⟩ := ok_of_bind h
      have hextent := (extent_call hargs).trans_le (length_trim_le token)
      obtain rfl := stageArgs_setOp h
      rw [extent_cons] at hextent
      omega

/-! ## Queries -/

mutual

/-- `parse_cxq`. -/
def parseCxq (text : Text) : Except String Plan :=
  match _hparts : split text '|' with
  | .error message => .error message
  | .ok [] => parseFail "query is empty"
  | .ok (first :: rest) =>
    if first = [] then parseFail "query is empty"
    else do
      let source ← source first
      let stages ← parseStages rest
      pure (.mk source stages)
termination_by text.length + 1
decreasing_by
  have hextent := extent_split _hparts
  rw [extent_cons] at hextent
  omega

def parseStages : List Text → Except String (List Stage)
  | [] => .ok []
  | token :: rest =>
    match _hwritten : written token with
    | .error message => .error message
    | .ok (.plain stage) => (parseStages rest).map fun stages => stage :: stages
    | .ok (.setOp op operand) => do
        let operand ← parseCxq operand
        let stages ← parseStages rest
        pure (.setOp op operand :: stages)
termination_by parts => extent parts
decreasing_by
  · rw [extent_cons]
    omega
  · have hlength := length_operand _hwritten
    rw [extent_cons]
    omega
  · rw [extent_cons]
    omega

end

/-- What `parse_cxq` does with the parts. -/
def query : List Text → Except String Plan
  | [] => parseFail "query is empty"
  | first :: rest =>
    if first = [] then parseFail "query is empty"
    else do
      let source ← source first
      let stages ← parseStages rest
      pure (.mk source stages)

theorem parseCxq_eq (text : Text) : parseCxq text = split text '|' >>= query := by
  rw [parseCxq]
  split
  · rename_i message hparts
    rw [hparts]
    rfl
  · rename_i hparts
    rw [hparts]
    rfl
  · rename_i first rest hparts
    rw [hparts]
    rfl

def stagesFrom (rest : List Text) : Written → Except String (List Stage)
  | .plain stage => (parseStages rest).map fun stages => stage :: stages
  | .setOp op operand => do
      let operand ← parseCxq operand
      let stages ← parseStages rest
      pure (.setOp op operand :: stages)

theorem parseStages_cons (token : Text) (rest : List Text) :
    parseStages (token :: rest) = written token >>= stagesFrom rest := by
  rw [parseStages]
  split
  · rename_i message hwritten
    rw [hwritten]
    rfl
  · rename_i stage hwritten
    rw [hwritten]
    rfl
  · rename_i op operand hwritten
    rw [hwritten]
    rfl

end CppIndexer.Query.PythonCxq
