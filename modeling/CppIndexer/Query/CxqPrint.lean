/-
# Printed predicates

A predicate is printed with its compound operands in parentheses and its values in double quotes.
It is a sequence of tokens, and every text the parser comes to in it is one, too: it removes
the outer parentheses, or cuts at a connective that it counts to be outside of all parentheses.

Here is how the scans of the parser run over tokens.
-/

import Mathlib.Data.List.Chain
import CppIndexer.Query.Cxq

namespace CppIndexer.Query.Cxq

open List Option Scan

/-! ## Printed predicates -/

/-- The comparisons with one value. -/
inductive Sign
  | eq
  | ne
  | glob
  deriving DecidableEq

namespace Sign

def op : Sign → CmpOp
  | eq => .eq
  | ne => .ne
  | glob => .glob

/-- How a sign is written. -/
def text : Sign → Text
  | eq => ['=']
  | ne => ['!', '=']
  | glob => ['~', '=']

end Sign

def quote (value : String) : Text := '\x22' :: (value.toList ++ ['\x22'])

/-- The comparisons that are printed. -/
inductive Leaf
  | compare (sign : Sign) (field value : String)
  | inList (field first : String) (rest : List String)

namespace Leaf

def field : Leaf → String
  | compare _ field _ => field
  | inList field _ _ => field

def values : Leaf → List String
  | compare _ _ value => [value]
  | inList _ first rest => first :: rest

/-- The operator of a comparison. -/
def op : Leaf → CmpOp
  | compare sign _ _ => sign.op
  | inList .. => .inList

/-- How the operator is written. -/
def sign : Leaf → Text
  | compare sign _ _ => sign.text
  | inList .. => ['i', 'n']

/-- How the values are written. -/
def literal : Leaf → Text
  | compare _ _ value => quote value
  | inList _ first rest =>
    '[' :: (quote first ++ rest.flatMap (fun value => ',' :: ' ' :: quote value) ++ [']'])

variable (leaf : Leaf)

/-- A printed comparison. -/
def text : Text := leaf.field.toList ++ ' ' :: (leaf.sign ++ ' ' :: leaf.literal)

def toPred : Pred := .cmp leaf.op leaf.field leaf.values none

end Leaf

/-- The predicates that are printed. -/
inductive Cond
  | leaf (l : Leaf)
  | junction (op : Junction) (left right : Cond)
  | not (kid : Cond)

def word : Junction → Text
  | .allOf => ['a', 'n', 'd']
  | .anyOf => ['o', 'r']

namespace Cond

/-- A predicate with operands. -/
def isCompound : Cond → Bool
  | leaf _ => false
  | _ => true

def toPred : Cond → Pred
  | leaf l => l.toPred
  | junction op left right => .junction op [left.toPred, right.toPred]
  | not kid => .not [kid.toPred]

/-- An operand: parentheses around a compound one. -/
def operand (compound : Bool) (text : Text) : Text :=
  if compound then '(' :: (text ++ [')']) else text

def print : Cond → Text
  | leaf l => l.text
  | junction op left right => operand left.isCompound left.print ++
      (' ' :: (word op ++ [' '])) ++ operand right.isCompound right.print
  | not kid => ['n', 'o', 't', ' '] ++ operand kid.isCompound kid.print

end Cond

def isIdentChar (ch : Char) : Bool := ch.isAlphanum || ch = '_'

def isIdentifier (name : Text) : Bool :=
  match name with
  | [] => false
  | first :: rest => (first.isAlpha || first = '_') && rest.all isIdentChar

/-- A value without quotes and backslashes. -/
def isPlain (value : Text) : Bool := value.all fun ch => !isQuote ch && ch ≠ '\\'

/-- A comparison of an identifier with plain values. -/
def Leaf.Writable (leaf : Leaf) : Prop :=
  isIdentifier leaf.field.toList ∧ ∀ value ∈ leaf.values, isPlain value.toList

/-- A predicate over identifiers and plain values. -/
def Cond.Writable : Cond → Prop
  | leaf l => l.Writable
  | junction _ left right => left.Writable ∧ right.Writable
  | not kid => kid.Writable

/-- The words that the parser takes for connectives. -/
def isReserved (name : Text) : Bool := name ∈ [['n', 'o', 't'], word .allOf, word .anyOf]

/-- A value that is neither a truth value nor an integer to the parser. -/
def isTextual (value : Text) : Bool :=
  value ≠ "true".toList && value ≠ "false".toList && integer value = none

/-- Values that are read as they are printed: no operator that is looked for first stands in them,
and none is taken for a number. -/
def Leaf.ValuesReadable : Leaf → Prop
  | compare .eq _ value => ¬ ['!', '='] <:+: value.toList ∧ ¬ ['~', '='] <:+: value.toList ∧
      isTextual value.toList
  | compare .ne _ value => isTextual value.toList
  | compare .glob _ value => ¬ ['!', '='] <:+: value.toList
  | inList _ first rest => ∀ value ∈ first :: rest, '=' ∉ value.toList

/-- A comparison that is read as it is printed. -/
def Leaf.Readable (leaf : Leaf) : Prop := ¬ isReserved leaf.field.toList ∧ leaf.ValuesReadable

/-- A predicate that is read as it is printed: its comparisons are, and no connective has
parentheses on both sides. -/
def Cond.Readable : Cond → Prop
  | leaf l => l.Readable
  | junction _ left right =>
    ¬ (left.isCompound ∧ right.isCompound) ∧ left.Readable ∧ right.Readable
  | not kid => kid.Readable

/-! ## Scanning a text -/

def Scan.run : Scan → Option Char → Text → Scan
  | scan, _, [] => scan
  | scan, prev, ch :: rest => (scan.step prev ch).run (some ch) rest

def lastOf : Option Char → Text → Option Char
  | prev, [] => prev
  | _, ch :: rest => lastOf (some ch) rest

/-- A text that is quoted, bracketed or in parentheses throughout. -/
def Covered : Scan → Option Char → Text → Prop
  | _, _, [] => True
  | scan, prev, ch :: rest => scan.atTop ch = false ∧ Covered (scan.step prev ch) (some ch) rest

variable {scan : Scan} {prev : Option Char}

theorem Covered.append {xs ys : Text}
    (hx : Covered scan prev xs) (hy : Covered (scan.run prev xs) (lastOf prev xs) ys) :
    Covered scan prev (xs ++ ys) := by
  induction xs generalizing scan prev with
  | nil => exact hy
  | cons _ _ ih => exact ⟨hx.1, ih hx.2 hy⟩

theorem Scan.run_append (scan : Scan) (prev : Option Char) (xs ys : Text) :
    scan.run prev (xs ++ ys) = (scan.run prev xs).run (lastOf prev xs) ys := by
  induction xs generalizing scan prev with
  | nil => rfl
  | cons _ _ ih => exact ih _ _

theorem lastOf_append (prev : Option Char) (xs ys : Text) :
    lastOf prev (xs ++ ys) = lastOf (lastOf prev xs) ys := by
  induction xs generalizing prev with
  | nil => rfl
  | cons _ _ ih => exact ih _

variable {ch : Char} {prev : Option Char} {scan : Scan} {xs keyword : Text}

theorem lastOf_mem (h : lastOf prev xs = some ch) : prev = some ch ∨ ch ∈ xs := by
  induction xs generalizing prev with
  | nil => exact Or.inl h
  | cons _ _ ih =>
    obtain hx | hmem := ih h
    · cases hx
      exact Or.inr mem_cons_self
    · exact Or.inr (mem_cons_of_mem _ hmem)

attribute [local simp] lastOf

theorem findFrom_covered (h : Covered scan prev xs) (ys : Text) : findFrom keyword scan prev (xs ++ ys) =
      (findFrom keyword (scan.run prev xs) (lastOf prev xs) ys).map (· + xs.length) := by
  induction xs generalizing scan prev with
  | nil => simp [run]
  | cons _ _ ih =>
    rw [cons_append, findFrom, if_neg (by simp [h.1]), ih h.2, Option.map_map]
    rfl

variable {delimiter : Char}

theorem splitFrom_covered
    (h : Covered scan prev xs) (part ys : Text) : splitFrom delimiter scan prev part (xs ++ ys) =
      splitFrom delimiter (scan.run prev xs) (lastOf prev xs) (part ++ xs) ys := by
  induction xs generalizing scan prev part with
  | nil => simp [run]
  | cons _ _ ih =>
    rw [cons_append, splitFrom, if_neg (by simp [h.1]), ih h.2, append_assoc]
    rfl

attribute [local simp] step

theorem step_ordinary (hquote : scan.quote = none)
    (hch : isDelimiter ch = false) (prev : Option Char) : scan.step prev ch = scan := by
  simp only [isDelimiter, Bool.or_eq_false_iff, decide_eq_false_iff_not, mem_cons, not_or,
    not_mem_nil, not_false_eq_true, and_true] at hch
  simp [hquote, hch]

variable {xs : Text}

theorem splitFrom_ordinary (hquote : scan.quote = none)
    (h : ∀ ch ∈ xs, isDelimiter ch = false ∧ ch ≠ delimiter) (prev : Option Char)
    (part ys : Text) : splitFrom delimiter scan prev part (xs ++ ys) =
      splitFrom delimiter scan (lastOf prev xs) (part ++ xs) ys := by
  induction xs generalizing prev part with
  | nil => simp
  | cons ch _ ih =>
    obtain ⟨hch, hne⟩ := h ch mem_cons_self
    rw [cons_append, splitFrom, if_neg (by simp [hne]), step_ordinary hquote hch,
      ih fun x hx => h x (mem_cons_of_mem _ hx), append_assoc]
    rfl

variable {op : Junction}

theorem findFrom_ordinary (hquote : scan.quote = none)
    (h : ∀ ch ∈ xs, isDelimiter ch = false ∧ ch ≠ 'a' ∧ ch ≠ 'o') (prev : Option Char)
    (ys : Text) : findFrom (word op) scan prev (xs ++ ys) =
      (findFrom (word op) scan (lastOf prev xs) ys).map (· + xs.length) := by
  induction xs generalizing prev with
  | nil => simp
  | cons ch rest ih =>
    obtain ⟨hch, ha, ho⟩ := h ch mem_cons_self
    have hno : keywordAt (word op) prev (ch :: (rest ++ ys)) = false := by
      cases op <;> simp [keywordAt, word, Ne.symm ha, Ne.symm ho]
    rw [cons_append, findFrom, if_neg (by simp [hno]), step_ordinary hquote hch,
      ih fun x hx => h x (mem_cons_of_mem _ hx), Option.map_map]
    rfl

theorem findFrom_glued (hquote : scan.quote = none)
    (h : ∀ ch ∈ xs, isDelimiter ch = false ∧ isSpace ch = false) {before : Char}
    (hbefore : isSpace before = false) (ys : Text) :
    findFrom keyword scan (some before) (xs ++ ys) =
      (findFrom keyword scan (lastOf (some before) xs) ys).map (· + xs.length) := by
  induction xs generalizing before with
  | nil => simp
  | cons ch rest ih =>
    obtain ⟨hch, hspace⟩ := h ch mem_cons_self
    have hno : keywordAt keyword (some before) (ch :: (rest ++ ys)) = false := by
      simp [keywordAt, hbefore]
    rw [cons_append, findFrom, if_neg (by simp [hno]), step_ordinary hquote hch,
      ih (fun x hx => h x (mem_cons_of_mem _ hx)) hspace, Option.map_map]
    rfl

/-! ## Values -/

theorem isPlain_iff {value : Text} :
    isPlain value = true ↔ ∀ ch ∈ value, isQuote ch = false ∧ ch ≠ '\\' := by
  simp [isPlain]

theorem covered_quoted (hquote : scan.quote = some '\x22') {value : Text}
    (hplain : isPlain value) (prev : Option Char) :
    Covered scan prev value ∧ scan.run prev value = scan := by
  induction value generalizing prev with
  | nil => exact ⟨trivial, rfl⟩
  | cons ch _ ih =>
    rw [isPlain_iff] at hplain
    have hch : ch ≠ '\x22' := by
      rintro rfl
      exact absurd (hplain _ mem_cons_self).1 (by decide)
    have hstep : scan.step prev ch = scan := by simp [hquote, hch]
    have hrest := ih (isPlain_iff.mpr fun x hx => hplain x (mem_cons_of_mem _ hx)) (some ch)
    refine ⟨⟨by simp [atTop, hquote], ?_⟩, ?_⟩
    · rw [hstep]
      exact hrest.1
    · rw [run, hstep]
      exact hrest.2

attribute [local simp] isQuote

theorem covered_quote (hquote : scan.quote = none) {value : String}
    (hplain : isPlain value.toList) (prev : Option Char) :
    Covered scan prev (quote value) ∧ scan.run prev (quote value) = scan := by
  let inside : Scan := { scan with quote := some '\x22' }
  have hopen : scan.step prev '\x22' = inside := by simp [hquote, inside]
  obtain ⟨hcovered, hrun⟩ := @covered_quoted inside rfl _ hplain (some '\x22')
  have hlast : lastOf (some '\x22') value.toList ≠ some '\\' := by
    intro h
    obtain h | hmem := lastOf_mem h
    · simp at h
    · exact (isPlain_iff.mp hplain _ hmem).2 rfl
  have hclose : inside.step (lastOf (some '\x22') value.toList) '\x22' = scan := by
    simp [inside, hlast, ← hquote]
  constructor
  · refine ⟨by simp [atTop, isDelimiter, isQuote], ?_⟩
    rw [hopen]
    refine hcovered.append ?_
    rw [hrun]
    exact ⟨by simp [atTop, inside], trivial⟩
  · rw [quote, run, hopen, run_append, hrun]
    exact hclose

theorem covered_more (hquote : scan.quote = none) (hbrackets : scan.brackets ≠ 0)
    {values : List String} (hplain : ∀ value ∈ values, isPlain value.toList) (prev : Option Char) :
    Covered scan prev (values.flatMap fun value => ',' :: ' ' :: quote value) ∧
      scan.run prev (values.flatMap fun value => ',' :: ' ' :: quote value) = scan := by
  induction values generalizing prev with
  | nil => exact ⟨trivial, rfl⟩
  | cons value _ ih =>
    have hstep : ∀ ch prev, isDelimiter ch = false → scan.step prev ch = scan :=
      fun ch prev hch => step_ordinary hquote hch prev
    have htop : ∀ ch, scan.atTop ch = false := by simp [atTop, hbrackets]
    obtain ⟨hcovered, hrun⟩ := covered_quote hquote (hplain value mem_cons_self) (some ' ')
    obtain ⟨hcoveredRest, hrunRest⟩ := ih (fun v hv => hplain v (mem_cons_of_mem _ hv))
      (lastOf (some ' ') (quote value))
    rw [flatMap_cons]
    constructor
    · refine ⟨htop _, ?_⟩
      rw [hstep _ _ (by decide)]
      refine ⟨htop _, ?_⟩
      rw [hstep _ _ (by decide)]
      refine hcovered.append ?_
      rw [hrun]
      exact hcoveredRest
    · show ((scan.step prev ',').step (some ',') ' ').run (some ' ') (quote value ++ _) = scan
      rw [hstep _ _ (by decide), hstep _ _ (by decide), run_append, hrun]
      exact hrunRest

theorem covered_literal (hquote : scan.quote = none) (hbrackets : scan.brackets = 0)
    {leaf : Leaf} (hleaf : leaf.Writable) (prev : Option Char) :
    Covered scan prev leaf.literal ∧ scan.run prev leaf.literal = scan := by
  cases leaf with
  | compare _ _ value =>
    exact covered_quote hquote (hleaf.2 value mem_cons_self) prev
  | inList _ first rest =>
    let inside : Scan := { scan with brackets := scan.brackets + 1 }
    have hopen : scan.step prev '[' = inside := by simp [hquote, inside]
    have hclose : ∀ prev, inside.step prev ']' = scan := by
      simp only [step, inside, hquote, isQuote]
      simp [← hquote]
    obtain ⟨hcovered, hrun⟩ := @covered_quote inside hquote first
      (hleaf.2 first mem_cons_self) (some '[')
    obtain ⟨hcoveredRest, hrunRest⟩ := @covered_more inside hquote (by simp [inside, hbrackets])
      rest (fun v hv => hleaf.2 v (mem_cons_of_mem _ hv)) (lastOf (some '[') (quote first))
    constructor
    · refine ⟨by simp [atTop, isDelimiter], ?_⟩
      rw [hopen]
      refine (hcovered.append ?_).append ?_
      · rw [hrun]
        exact hcoveredRest
      · exact ⟨by simp [atTop, isDelimiter], trivial⟩
    · rw [Leaf.literal, run, hopen, run_append, run_append, hrun, hrunRest]
      exact hclose _

/-! ## Tokens -/

/-- The tokens of printed predicates. -/
inductive Token
  | openParen
  | closeParen
  | notWord
  | word (op : Junction)
  | leaf (l : Leaf)

namespace Token

def text : Token → Text
  | openParen => ['(']
  | closeParen => [')']
  | notWord => ['n', 'o', 't', ' ']
  | word op => ' ' :: (Cxq.word op ++ [' '])
  | leaf l => l.text

/-- The parentheses a token opens. -/
def depth : Token → ℤ
  | openParen => 1
  | closeParen => -1
  | notWord => 0
  | word _ => 0
  | leaf _ => 0

def startsOperand : Token → Bool
  | openParen | notWord | leaf _ => true
  | _ => false

def endsOperand : Token → Bool
  | closeParen | leaf _ => true
  | _ => false

/-- One token after another: operands alternate with what stands between them. -/
def Before (x y : Token) : Prop := x.endsOperand = !y.startsOperand

def Writable : Token → Prop
  | leaf l => l.Writable
  | _ => True

end Token

def render (tokens : List Token) : Text := tokens.flatMap Token.text

/-- The parentheses that tokens leave open. -/
def depth (tokens : List Token) : ℤ := (tokens.map Token.depth).sum

@[simp] theorem render_nil : render [] = [] := rfl

@[simp] theorem render_cons (token : Token) (rest : List Token) :
    render (token :: rest) = token.text ++ render rest := rfl

@[simp] theorem render_append (xs ys : List Token) : render (xs ++ ys) = render xs ++ render ys :=
  flatMap_append

@[simp] theorem depth_nil : depth [] = 0 := rfl

@[simp] theorem depth_cons (token : Token) (rest : List Token) :
    depth (token :: rest) = token.depth + depth rest := by
  simp [depth]

@[simp] theorem depth_append (xs ys : List Token) : depth (xs ++ ys) = depth xs + depth ys := by
  simp [depth]

section

variable {ch : Char} {leaf : Leaf} {tokens : List Token} {name text ys field : Text} {token : Token}

theorem isIdentChar_of_isIdentifier (h : isIdentifier name) : ∀ ch ∈ name, isIdentChar ch = true := by
  cases name with
  | nil => simp
  | cons =>
    simp only [isIdentifier, Bool.and_eq_true, Bool.or_eq_true, List.all_eq_true] at h
    intro ch hmem
    cases hmem with
    | head =>
      obtain halpha | hunderscore := h.1
      · simp [isIdentChar, Char.isAlphanum, halpha]
      · simp [isIdentChar, hunderscore]
    | tail _ hmem => exact h.2 ch hmem

theorem ne_of_isIdentChar {other : Char} (h : isIdentChar ch = true)
    (hother : isIdentChar other = false) : ch ≠ other := by
  rintro rfl
  rw [h] at hother
  cases hother

theorem ordinary_of_isIdentChar (h : isIdentChar ch = true) :
    isDelimiter ch = false ∧ isSpace ch = false ∧ ch ≠ ',' := by
  have hne : ∀ other, isIdentChar other = false → ch ≠ other := fun _ => ne_of_isIdentChar h
  refine ⟨?_, ?_, hne ',' (by decide)⟩
  · simp [isDelimiter, hne '\x22' (by decide), hne '\x27' (by decide), hne '(' (by decide),
      hne ')' (by decide), hne '[' (by decide), hne ']' (by decide)]
  · simp [isSpace, hne ' ' (by decide), hne '\t' (by decide), hne '\n' (by decide),
      hne '\x0b' (by decide), hne '\x0c' (by decide), hne '\r' (by decide)]

/-- The scan of a token list outside of brackets and quotes. -/
def scanAt (parens : ℤ) : Scan := { parens := parens }

theorem covered_of_parens {parens : ℤ} (hparens : parens ≠ 0)
    (h : ∀ ch ∈ xs, isDelimiter ch = false) (prev : Option Char) :
    Covered (scanAt parens) prev xs ∧ (scanAt parens).run prev xs = scanAt parens := by
  induction xs generalizing prev with
  | nil => exact ⟨trivial, rfl⟩
  | cons ch _ ih =>
    have hstep : (scanAt parens).step prev ch = scanAt parens :=
      step_ordinary rfl (h ch mem_cons_self) prev
    have hrest := ih (fun x hx => h x (mem_cons_of_mem _ hx)) (some ch)
    refine ⟨⟨by simp [atTop, scanAt, hparens], ?_⟩, ?_⟩
    · rw [hstep]
      exact hrest.1
    · rw [run, hstep]
      exact hrest.2

/-- The part of a comparison in front of its values. -/
def Leaf.head (leaf : Leaf) : Text := leaf.field.toList ++ ' ' :: (leaf.sign ++ [' '])

attribute [local simp] Leaf.text

theorem Leaf.text_eq (leaf : Leaf) : leaf.text = leaf.head ++ leaf.literal := by
  simp [Leaf.head]

theorem Leaf.sign_ordinary (leaf : Leaf) : ∀ ch ∈ leaf.sign,
    isDelimiter ch = false ∧ isSpace ch = false ∧ ch ≠ ',' ∧ ch ≠ 'a' ∧ ch ≠ 'o' := by
  cases leaf with
  | compare sign =>
    simp only [Leaf.sign]
    cases sign <;> decide
  | inList =>
    simp only [Leaf.sign]
    decide

theorem Leaf.head_ordinary (h : leaf.Writable) : ∀ ch ∈ leaf.head, isDelimiter ch = false ∧ ch ≠ ',' := by
  intro ch hmem
  simp only [Leaf.head, mem_append, mem_cons, not_mem_nil, or_false] at hmem
  obtain hfield | rfl | hsign | rfl := hmem
  · have hordinary := ordinary_of_isIdentChar (isIdentChar_of_isIdentifier h.1 ch hfield)
    exact ⟨hordinary.1, hordinary.2.2⟩
  · decide
  · have hordinary := leaf.sign_ordinary ch hsign
    exact ⟨hordinary.1, hordinary.2.2.1⟩
  · decide

theorem splitFrom_leaf (h : leaf.Writable) (parens : ℤ) (prev : Option Char)
    (part ys : Text) : splitFrom ',' (scanAt parens) prev part (leaf.text ++ ys) =
      splitFrom ',' (scanAt parens) (lastOf prev leaf.text) (part ++ leaf.text) ys := by
  obtain ⟨hcovered, hrun⟩ := @covered_literal (scanAt parens) rfl rfl leaf h
    (lastOf prev leaf.head)
  rw [Leaf.text_eq, append_assoc, splitFrom_ordinary rfl (Leaf.head_ordinary h),
    splitFrom_covered hcovered, hrun, lastOf_append, append_assoc]

attribute [local simp] scanAt Token.depth

theorem splitFrom_token (h : token.Writable) (parens : ℤ) (prev : Option Char)
    (part ys : Text) : splitFrom ',' (scanAt parens) prev part (token.text ++ ys) =
      splitFrom ',' (scanAt (parens + token.depth)) (lastOf prev token.text) (part ++ token.text) ys := by
  cases token with
  | openParen => simp [Token.text, splitFrom]
  | closeParen =>
    simp [Token.text, splitFrom, Int.sub_eq_add_neg]
  | notWord =>
    rw [Token.depth, Int.add_zero]
    exact splitFrom_ordinary rfl (by decide) prev part ys
  | word op =>
    rw [Token.depth, Int.add_zero]
    exact splitFrom_ordinary rfl (by cases op <;> decide) prev part ys
  | leaf =>
    rw [Token.depth, Int.add_zero]
    exact splitFrom_leaf h parens prev part ys

theorem splitFrom_render (h : ∀ token ∈ tokens, token.Writable) (parens : ℤ)
    (prev : Option Char) (part : Text) : splitFrom ',' (scanAt parens) prev part (render tokens) =
      splitFrom ',' (scanAt (parens + depth tokens)) (lastOf prev (render tokens))
        (part ++ render tokens) [] := by
  induction tokens generalizing parens prev part with
  | nil => simp
  | cons token _ ih =>
    rw [render_cons, splitFrom_token (h token mem_cons_self),
      ih fun x hx => h x (mem_cons_of_mem _ hx), depth_cons, lastOf_append,
      append_assoc, Int.add_assoc]

theorem splitTopLevel_render (h : ∀ token ∈ tokens, token.Writable) (hdepth : depth tokens = 0) :
    splitTopLevel (render tokens) ',' = .ok [trim (render tokens)] := by
  have hsplit := splitFrom_render h 0 none []
  rw [hdepth] at hsplit
  exact hsplit

/-! ## Looking for connectives -/

theorem prefix_field (hname : ' ' ∉ name) (h : name <+: field ++ ' ' :: ys) : name <+: field := by
  obtain hlt | hle := Nat.lt_or_ge field.length name.length
  · have hmore : field ++ [' '] <+: field ++ ' ' :: ys := ⟨ys, by simp⟩
    have hblank : field ++ [' '] <+: name :=
      prefix_of_prefix_length_le hmore h (by rw [length_append]; exact hlt)
    exact absurd (hblank.subset (by simp)) hname
  · exact prefix_of_prefix_length_le h (prefix_append _ _) hle

theorem eq_field {name field ys : Text} (hname : ' ' ∉ name)
    (hfield : ∀ ch ∈ field, isIdentChar ch = true) (h : name <+: field ++ ' ' :: ys)
    (hend : ((field ++ ' ' :: ys).drop name.length).head?.all isSpace) : field = name := by
  obtain ⟨more, rfl⟩ := prefix_field hname h
  rw [append_assoc, drop_left] at hend
  cases more with
  | nil => simp
  | cons ch =>
    have hspace := (ordinary_of_isIdentChar (hfield ch (by simp))).2.1
    simp [hspace] at hend

theorem field_of_keywordAt (hfield : ∀ ch ∈ field, isIdentChar ch = true)
    (h : keywordAt (word op) prev (field ++ ' ' :: ys)) : field = word op := by
  simp only [keywordAt, Bool.and_eq_true, isPrefixOf_iff_prefix] at h
  exact eq_field (by cases op <;> decide) hfield h.1.2 h.2

theorem findFrom_leaf {leaf : Leaf} (h : leaf.Writable) (parens : ℤ)
    (prev : Option Char) (ys : Text) :
    findFrom (word op) (scanAt parens) prev (leaf.text ++ ys) =
        (findFrom (word op) (scanAt parens) (lastOf prev leaf.text) ys).map
          (· + leaf.text.length) ∨
      leaf.field.toList = word op ∧
        findFrom (word op) (scanAt parens) prev (leaf.text ++ ys) = some 0 := by
  have hliteral := fun prev => @covered_literal (scanAt parens) rfl rfl leaf h prev
  by_cases hparens : parens = 0
  · have hident := isIdentChar_of_isIdentifier h.1
    obtain ⟨first, rest, hfield⟩ : ∃ first rest, leaf.field.toList = first :: rest := by
      cases hname : leaf.field.toList with
      | nil =>
        have hid := h.1
        simp [hname, isIdentifier] at hid
      | cons first rest => exact ⟨first, rest, rfl⟩
    by_cases hkey : keywordAt (word op) prev (leaf.text ++ ys)
    · right
      have htext : leaf.text ++ ys =
          leaf.field.toList ++ ' ' :: (leaf.sign ++ ' ' :: (leaf.literal ++ ys)) := by
        simp
      rw [htext] at hkey
      refine ⟨field_of_keywordAt hident hkey, ?_⟩
      rw [htext]
      rw [hfield] at hkey hident ⊢
      have hch := ordinary_of_isIdentChar (hident first mem_cons_self)
      rw [cons_append, findFrom, if_pos]
      exact ⟨by simp [atTop, scanAt, hparens, hch.1], hkey⟩
    · left
      have htext : leaf.text = first :: (rest ++ ((' ' :: (leaf.sign ++ [' '])) ++ leaf.literal)) := by
        simp [hfield]
      rw [htext] at hkey ⊢
      rw [hfield] at hident
      have hfirst := ordinary_of_isIdentChar (hident first mem_cons_self)
      have hrest : ∀ ch ∈ rest, isDelimiter ch = false ∧ isSpace ch = false := by
        intro ch hmem
        have hch := ordinary_of_isIdentChar (hident ch (mem_cons_of_mem _ hmem))
        exact ⟨hch.1, hch.2.1⟩
      have hsign : ∀ ch ∈ ' ' :: (leaf.sign ++ [' ']),
          isDelimiter ch = false ∧ ch ≠ 'a' ∧ ch ≠ 'o' := by
        intro ch hmem
        simp only [mem_cons, mem_append, not_mem_nil, or_false] at hmem
        obtain rfl | hmem | rfl := hmem
        · decide
        · have hch := leaf.sign_ordinary ch hmem
          exact ⟨hch.1, hch.2.2.2⟩
        · decide
      rw [cons_append, findFrom, if_neg (fun hit => hkey hit.2), step_ordinary rfl hfirst.1,
        append_assoc, findFrom_glued rfl hrest hfirst.2.1, append_assoc,
        findFrom_ordinary rfl hsign, findFrom_covered (hliteral _).1, (hliteral _).2]
      simp only [Option.map_map, lastOf, lastOf_append]
      congr 1
      funext n
      simp only [Function.comp, length_cons, length_append]
      omega
  · left
    have hhead := covered_of_parens hparens (fun ch hmem => (Leaf.head_ordinary h ch hmem).1) prev
    rw [Leaf.text_eq, append_assoc, findFrom_covered hhead.1, hhead.2,
      findFrom_covered (hliteral _).1, (hliteral _).2, Option.map_map, lastOf_append]
    congr 1
    funext n
    simp only [Function.comp, length_append]
    omega

theorem findFrom_token {token : Token} (h : token.Writable) (parens : ℤ)
    (prev : Option Char) (ys : Text) :
    ((token = .word op → parens ≠ 0) ∧ findFrom (word op) (scanAt parens) prev (token.text ++ ys) =
        (findFrom (word op) (scanAt (parens + token.depth)) (lastOf prev token.text) ys).map
          (· + token.text.length)) ∨
    (token = .word op ∧ parens = 0 ∧
      findFrom (word op) (scanAt parens) prev (token.text ++ ys) = some 1) ∨
    ∃ l, token = .leaf l ∧ l.field.toList = word op ∧
      findFrom (word op) (scanAt parens) prev (token.text ++ ys) = some 0 := by
  cases token with
  | openParen =>
    refine Or.inl ⟨by simp, ?_⟩
    simp [Token.text, findFrom, atTop, isDelimiter]
  | closeParen =>
    refine Or.inl ⟨by simp, ?_⟩
    simp [Token.text, findFrom, atTop, isDelimiter, Int.sub_eq_add_neg]
  | notWord =>
    refine Or.inl ⟨by simp, ?_⟩
    rw [Token.depth, Int.add_zero]
    have hn : ∀ ch ∈ ['n'], isDelimiter ch = false ∧ ch ≠ 'a' ∧ ch ≠ 'o' := by decide
    have hot : ∀ ch ∈ ['o', 't'], isDelimiter ch = false ∧ isSpace ch = false := by decide
    have hblank : ∀ ch ∈ [' '], isDelimiter ch = false ∧ ch ≠ 'a' ∧ ch ≠ 'o' := by decide
    show findFrom (word op) (scanAt parens) prev (['n'] ++ (['o', 't'] ++ ([' '] ++ ys))) = _
    rw [findFrom_ordinary rfl hn]
    show Option.map _ (findFrom (word op) (scanAt parens) (some 'n') _) = _
    rw [findFrom_glued rfl hot (by decide), findFrom_ordinary rfl hblank, Option.map_map, Option.map_map]
    rfl
  | word other =>
    rw [Token.depth, Int.add_zero]
    have hordinary : ∀ ch ∈ (Token.word other).text, isDelimiter ch = false := by
      cases other <;> decide
    by_cases hparens : parens = 0
    · subst hparens
      by_cases hop : other = op
      · subst hop
        refine Or.inr (Or.inl ⟨rfl, rfl, ?_⟩)
        cases other <;> simp [Token.text, word, findFrom, keywordAt, atTop, isDelimiter, isSpace]
      · refine Or.inl ⟨fun heq => absurd (by simpa using heq) hop, ?_⟩
        cases other <;> cases op <;> first
          | exact absurd rfl hop
          | simp [Token.text, word, findFrom, keywordAt, atTop, isDelimiter, isSpace, Function.comp_def]
    · refine Or.inl ⟨fun _ => hparens, ?_⟩
      obtain ⟨hcovered, hrun⟩ := covered_of_parens hparens hordinary prev
      rw [findFrom_covered hcovered, hrun]
  | leaf l =>
    rw [Token.depth, Int.add_zero]
    obtain hskip | ⟨hfield, hfound⟩ := @findFrom_leaf op l h parens prev ys
    · exact Or.inl ⟨by simp, hskip⟩
    · exact Or.inr (Or.inr ⟨l, rfl, hfield, hfound⟩)

/-- Where a connective is found among tokens: nowhere, at a word outside of all parentheses, or at
a field. -/
theorem findFrom_render {tokens : List Token}
    (h : ∀ token ∈ tokens, token.Writable) (parens : ℤ) (prev : Option Char) :
    (findFrom (word op) (scanAt parens) prev (render tokens) = none ∧
      ∀ before after, tokens = before ++ .word op :: after → parens + depth before ≠ 0) ∨
    (∃ before after, tokens = before ++ .word op :: after ∧ parens + depth before = 0 ∧
      findFrom (word op) (scanAt parens) prev (render tokens) = some ((render before).length + 1)) ∨
    ∃ before l after, tokens = before ++ .leaf l :: after ∧ l.field.toList = word op ∧
      findFrom (word op) (scanAt parens) prev (render tokens) = some (render before).length := by
  induction tokens generalizing parens prev with
  | nil => exact Or.inl ⟨rfl, by simp⟩
  | cons token rest ih =>
    rw [render_cons]
    obtain ⟨hword, hskip⟩ | ⟨rfl, hparens, hfound⟩ | ⟨l, rfl, hfield, hfound⟩ :=
      @findFrom_token op token (h token mem_cons_self) parens prev (render rest)
    · rw [hskip]
      obtain ⟨hnone, hnowhere⟩ | ⟨before, after, rfl, hdepth, hsome⟩ |
          ⟨before, l, after, rfl, hfield, hsome⟩ :=
        ih (fun x hx => h x (mem_cons_of_mem _ hx)) (parens + token.depth)
          (lastOf prev token.text)
      · refine Or.inl ⟨by rw [hnone]; rfl, ?_⟩
        intro before after hsplit
        cases before with
        | nil =>
          cases hsplit
          simpa using hword rfl
        | cons _ before =>
          cases hsplit
          rw [depth_cons, ← Int.add_assoc]
          exact hnowhere before after rfl
      · refine Or.inr (Or.inl ⟨token :: before, after, rfl, ?_, ?_⟩)
        · rw [depth_cons, ← Int.add_assoc]
          exact hdepth
        · rw [hsome, render_cons, length_append, map_some]
          congr 1
          omega
      · refine Or.inr (Or.inr ⟨token :: before, l, after, rfl, hfield, ?_⟩)
        rw [hsome, render_cons, length_append, map_some]
        congr 1
        omega
    · exact Or.inr (Or.inl ⟨[], rest, rfl, by simpa using hparens, hfound⟩)
    · exact Or.inr (Or.inr ⟨[], l, rest, rfl, hfield, hfound⟩)

/-! ## Blanks at the ends -/

/-- A text without blanks at its ends. -/
structure Solid (text : Text) : Prop where
  head : ∃ ch, text.head? = some ch ∧ isSpace ch = false
  last : ∃ ch, text.getLast? = some ch ∧ isSpace ch = false

theorem dropWhile_pad {blanks : Text} (hblanks : ∀ ch ∈ blanks, isSpace ch = true)
    (htext : ∃ ch, text.head? = some ch ∧ isSpace ch = false) :
    (blanks ++ text).dropWhile isSpace = text := by
  induction blanks with
  | nil =>
    obtain ⟨_, hhead, hspace⟩ := htext
    cases text with
    | nil => cases hhead
    | cons =>
      cases hhead
      rw [nil_append, dropWhile_cons_of_neg (by simp [hspace])]
  | cons ch _ ih =>
    rw [cons_append, dropWhile_cons_of_pos (hblanks ch mem_cons_self)]
    exact ih fun x hx => hblanks x (mem_cons_of_mem _ hx)

theorem trim_pad {before text after : Text} (hbefore : ∀ ch ∈ before, isSpace ch = true)
    (h : Solid text) (hafter : ∀ ch ∈ after, isSpace ch = true) :
    trim (before ++ text ++ after) = text := by
  have hhead : ∃ ch, (text ++ after).head? = some ch ∧ isSpace ch = false := by
    obtain ⟨ch, hch, hspace⟩ := h.head
    exact ⟨ch, by simp [hch], hspace⟩
  have hlast : ∃ ch, text.reverse.head? = some ch ∧ isSpace ch = false := by
    rw [head?_reverse]
    exact h.last
  rw [trim, append_assoc, dropWhile_pad hbefore hhead, List.rdropWhile, reverse_append,
    dropWhile_pad (by simpa using hafter) hlast, reverse_reverse]

theorem trim_solid (h : Solid text) : trim text = text := by
  have hpad := @trim_pad [] text [] (by simp) h (by simp)
  simpa using hpad

theorem trim_keeps {blanks text : Text} (hblanks : ∀ ch ∈ blanks, isSpace ch = true)
    (h : Solid text) (after : Text) : ∃ kept, trim (blanks ++ text ++ after) = text ++ kept := by
  have hhead : ∃ ch, (text ++ after).head? = some ch ∧ isSpace ch = false := by
    obtain ⟨ch, hch, hspace⟩ := h.head
    exact ⟨ch, by simp [hch], hspace⟩
  rw [trim, append_assoc, dropWhile_pad hblanks hhead]
  induction after using List.reverseRecOn with
  | nil =>
    obtain ⟨_, hch, hspace⟩ := h.last
    obtain ⟨_, rfl⟩ := getLast?_eq_some_iff.mp hch
    refine ⟨[], ?_⟩
    rw [append_nil, rdropWhile_concat_neg _ _ _ (by simp [hspace])]
  | append_singleton rest ch ih =>
    rw [← append_assoc]
    by_cases hspace : isSpace ch
    · rw [rdropWhile_concat_pos _ _ _ hspace]
      refine ih ?_
      obtain ⟨first, hfirst, hnot⟩ := h.head
      exact ⟨first, by simp [hfirst], hnot⟩
    · rw [rdropWhile_concat_neg _ _ _ hspace]
      exact ⟨rest ++ [ch], by simp⟩

theorem solid_trim (h : trim text ≠ []) : Solid (trim text) := by
  constructor
  · have hprefix := rdropWhile_prefix isSpace (text.dropWhile isSpace)
    obtain ⟨first, rest, hcons⟩ := exists_cons_of_ne_nil h
    refine ⟨first, by rw [hcons]; rfl, ?_⟩
    obtain ⟨_, hmore⟩ := hprefix
    rw [show (text.dropWhile isSpace).rdropWhile isSpace = first :: rest from hcons] at hmore
    have hhead := head?_dropWhile_not isSpace text
    rw [← hmore] at hhead
    exact hhead
  · have hlast := rdropWhile_last_not isSpace (text.dropWhile isSpace) h
    rw [Bool.not_eq_true] at hlast
    exact ⟨_, getLast?_eq_some_getLast h, hlast⟩

/-! ## Fragments -/

theorem Token.text_ne_nil (token : Token) : token.text ≠ [] := by
  cases token with
  | leaf => simp [Token.text]
  | _ => simp [Token.text]

variable {rest : List Token}

theorem head?_render : (render (token :: rest)).head? = token.text.head? := by
  rw [render_cons, head?_append_of_ne_nil _ token.text_ne_nil]

theorem getLast?_render {init : List Token} :
    (render (init ++ [token])).getLast? = token.text.getLast? := by
  rw [render_append, render_cons, render_nil, append_nil, getLast?_append_of_ne_nil _ token.text_ne_nil]

theorem Leaf.getLast?_text (leaf : Leaf) :
    leaf.text.getLast? = some '\x22' ∨ leaf.text.getLast? = some ']' := by
  cases leaf with
  | compare =>
    left
    simp [Leaf.literal, quote, getLast?_cons]
  | inList =>
    right
    simp [Leaf.literal, getLast?_cons]

theorem Leaf.head?_text (h : leaf.Writable) :
    ∃ ch, leaf.text.head? = some ch ∧ isIdentChar ch = true := by
  have hident := isIdentChar_of_isIdentifier h.1
  cases hfield : leaf.field.toList with
  | nil =>
    have hid := h.1
    simp [hfield, isIdentifier] at hid
  | cons first =>
    rw [hfield] at hident
    exact ⟨first, by simp [Leaf.text, hfield], hident first mem_cons_self⟩

/-- A part of a printed predicate that the parser may come to. -/
structure Fragment (tokens : List Token) : Prop where
  chain : tokens.IsChain Token.Before
  starts : ∃ token, tokens.head? = some token ∧ token.startsOperand = true
  ends : ∃ token, tokens.getLast? = some token ∧ token.endsOperand = true
  balanced : depth tokens = 0
  writable : ∀ token ∈ tokens, token.Writable

end

namespace Fragment

variable {tokens : List Token}

theorem solid (h : Fragment tokens) : Solid (render tokens) := by
  constructor
  · obtain ⟨token, hhead, hstarts⟩ := h.starts
    obtain ⟨_, rfl⟩ := head?_eq_some_iff.mp hhead
    rw [head?_render]
    cases token with
    | openParen | notWord => exact ⟨_, rfl, by decide⟩
    | leaf =>
      obtain ⟨ch, hch, hident⟩ := Leaf.head?_text (h.writable _ mem_cons_self)
      exact ⟨ch, hch, (ordinary_of_isIdentChar hident).2.1⟩
    | closeParen => cases hstarts
    | word => cases hstarts
  · obtain ⟨token, hlast, hends⟩ := h.ends
    obtain ⟨_, rfl⟩ := getLast?_eq_some_iff.mp hlast
    rw [getLast?_render]
    cases token with
    | closeParen => exact ⟨_, rfl, by decide⟩
    | leaf l =>
      obtain hquote | hbracket := l.getLast?_text
      · exact ⟨_, hquote, by decide⟩
      · exact ⟨_, hbracket, by decide⟩
    | openParen => cases hends
    | notWord => cases hends
    | word => cases hends

variable {inside : List Token}

theorem inner (h : Fragment (.openParen :: (inside ++ [.closeParen]))) : Fragment inside := by
  obtain ⟨hfirst, hchain⟩ := isChain_cons.mp h.chain
  obtain ⟨hinside, _, hlast⟩ := isChain_append.mp hchain
  have hne : inside ≠ [] := by
    rintro rfl
    exact Bool.false_ne_true (hfirst .closeParen rfl)
  obtain ⟨first, rest, rfl⟩ := exists_cons_of_ne_nil hne
  refine ⟨hinside, ⟨first, rfl, ?_⟩, ?_, ?_, ?_⟩
  · have hbefore : false = !first.startsOperand := hfirst first rfl
    simpa using hbefore
  · obtain ⟨last, hsome⟩ : ∃ last, (first :: rest).getLast? = some last := by
      simp [getLast?_cons]
    have hbefore : last.endsOperand = !false := hlast last hsome .closeParen rfl
    exact ⟨last, hsome, hbefore⟩
  · have hdepth := h.balanced
    simp only [depth_cons, depth_append, depth_nil, Token.depth] at hdepth ⊢
    omega
  · exact fun token hmem => h.writable token (mem_cons_of_mem _ (mem_append_left _ hmem))

theorem cut {before after : List Token}
    (h : Fragment (before ++ .word op :: after)) (hdepth : depth before = 0) :
    Fragment before ∧ Fragment after := by
  obtain ⟨hbefore, hafter, hlast⟩ := isChain_append.mp h.chain
  obtain ⟨hfirst, hafter⟩ := isChain_cons.mp hafter
  constructor
  · have hne : before ≠ [] := by
      rintro rfl
      obtain ⟨_, hhead, hstarts⟩ := h.starts
      cases hhead
      cases hstarts
    obtain ⟨first, rest, rfl⟩ := exists_cons_of_ne_nil hne
    refine ⟨hbefore, ?_, ?_, hdepth, fun token hmem => h.writable token (mem_append_left _ hmem)⟩
    · obtain ⟨token, hhead, hstarts⟩ := h.starts
      exact ⟨token, hhead, hstarts⟩
    · obtain ⟨last, hsome⟩ : ∃ last, (first :: rest).getLast? = some last := by
        simp [getLast?_cons]
      have hends : last.endsOperand = !false := hlast last hsome (.word op) rfl
      exact ⟨last, hsome, hends⟩
  · have hne : after ≠ [] := by
      rintro rfl
      obtain ⟨_, hsome, hends⟩ := h.ends
      rw [getLast?_concat] at hsome
      cases hsome
      cases hends
    obtain ⟨first, _, rfl⟩ := exists_cons_of_ne_nil hne
    refine ⟨hafter, ⟨first, rfl, ?_⟩, ?_, ?_, ?_⟩
    · have hstarts : false = !first.startsOperand := hfirst first rfl
      simpa using hstarts
    · obtain ⟨token, hsome, hends⟩ := h.ends
      rw [getLast?_append_cons, getLast?_cons_cons] at hsome
      exact ⟨token, hsome, hends⟩
    · have htotal := h.balanced
      rw [depth_append, hdepth, depth_cons] at htotal
      simpa [Token.depth] using htotal
    · exact fun token hmem =>
        h.writable token (mem_append_right _ (mem_cons_of_mem _ hmem))

variable {rest : List Token}

theorem ofNot (h : Fragment (.notWord :: rest)) : Fragment rest := by
  obtain ⟨hfirst, hchain⟩ := isChain_cons.mp h.chain
  have hne : rest ≠ [] := by
    rintro rfl
    obtain ⟨_, hsome, hends⟩ := h.ends
    cases hsome
    cases hends
  obtain ⟨first, _, rfl⟩ := exists_cons_of_ne_nil hne
  refine ⟨hchain, ⟨first, rfl, ?_⟩, ?_, ?_, ?_⟩
  · have hstarts : false = !first.startsOperand := hfirst first rfl
    simpa using hstarts
  · obtain ⟨token, hsome, hends⟩ := h.ends
    rw [getLast?_cons_cons] at hsome
    exact ⟨token, hsome, hends⟩
  · have hdepth := h.balanced
    simpa [Token.depth] using hdepth
  · exact fun token hmem => h.writable token (mem_cons_of_mem _ hmem)

theorem predicate_parens (h : Fragment (.openParen :: (inside ++ [.closeParen]))) :
    predicate (render (.openParen :: (inside ++ [.closeParen]))) = predicate (render inside) := by
  have hinner := h.inner
  have htext : render (.openParen :: (inside ++ [.closeParen])) =
      '(' :: (render inside ++ [')']) := by
    simp [Token.text]
  have hstrip : stripParens ('(' :: (render inside ++ [')'])) = stripParens (render inside) := by
    rw [stripParens, dif_pos (by simp [getLast?_cons])]
    have hinside : (('(' :: (render inside ++ [')'])).drop 1).dropLast = render inside := by simp
    simp only [hinside, splitTopLevel_render hinner.writable hinner.balanced, trim_solid hinner.solid]
    rfl
  have hsolid := h.solid
  rw [htext] at hsolid ⊢
  rw [predicate_eq, predicate_eq, trim_solid hsolid, trim_solid hinner.solid, hstrip]

theorem predicate_bare (h : Fragment tokens)
    (hbare : tokens.head? = some .openParen → tokens.getLast? ≠ some .closeParen) :
    predicate (render tokens) = predicateStripped (render tokens) := by
  have hstrip : stripParens (render tokens) = .ok (render tokens) := by
    rw [stripParens, dif_neg]
    · rfl
    · rintro ⟨_, hopen, hclose⟩
      obtain ⟨first, hhead, hstarts⟩ := h.starts
      obtain ⟨last, hlast, hends⟩ := h.ends
      have hfirst : first = .openParen := by
        obtain ⟨_, rfl⟩ := head?_eq_some_iff.mp hhead
        rw [head?_render] at hopen
        cases first with
        | openParen => rfl
        | notWord => cases hopen
        | leaf l =>
          obtain ⟨_, hch, hident⟩ := Leaf.head?_text (h.writable _ mem_cons_self)
          rw [show (Token.leaf l).text = l.text from rfl, hch] at hopen
          cases hopen
          exact absurd hident (by decide)
        | closeParen => cases hstarts
        | word => cases hstarts
      have hfinal : last = .closeParen := by
        obtain ⟨_, rfl⟩ := getLast?_eq_some_iff.mp hlast
        rw [getLast?_render] at hclose
        cases last with
        | closeParen => rfl
        | leaf l =>
          rw [show (Token.leaf l).text = l.text from rfl] at hclose
          obtain hquote | hbracket := l.getLast?_text
          · rw [hquote] at hclose
            cases hclose
          · rw [hbracket] at hclose
            cases hclose
        | openParen | notWord | word => cases hends
      exact hbare (hfirst ▸ hhead) (hfinal ▸ hlast)
  rw [predicate_eq, trim_solid h.solid, hstrip]
  rfl

end Fragment

end CppIndexer.Query.Cxq
