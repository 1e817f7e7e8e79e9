/-
# The syntax of matcher expressions

What Clang's dynamic parser reads: identifiers, numbers, string literals in single or double quotes with
escapes, comments to the end of a line, parentheses, commas and periods. A matcher expression is given
with its layout, so that every text that is parsed is the text of one. Forms that only some matchers have
(named values, chained calls besides `.bind`) are allowed everywhere. A newline, and so a comment, between
a name and its parenthesis or after the period of a chained call is refused by the parser and has no
place here.
-/

import CppIndexer.Extract.MatcherCatalog

namespace CppIndexer.Extract

open Util (Bytes ascii)

/-! ## Words, literals and gaps -/

structure Identifier where
  text : Bytes
  starts : text.head?.any startsWord = true
  word : text.all isWord = true

/-- Blanks within a line. -/
structure Blank where
  char : UInt8
  space : isSpace char = true
  inline : char ≠ 10

/-- The content of a string literal has no unescaped delimiter, and ends with no open escape. -/
def unbroken (delimiter : UInt8) : Bytes → Bool
  | [] => true
  | [c] => c != backslash && c != delimiter
  | c :: d :: rest =>
    if c = backslash then unbroken delimiter rest
    else c != delimiter && unbroken delimiter (d :: rest)

inductive Literal
  | number (text : Bytes) (digit : text.head?.any (fun c => isAlnum c && !isAlpha c) = true)
      (chars : text.all (fun c => isAlnum c || c ∈ [period, 43, 45]) = true)
  | boolean (value : Bool)
  | string (delimiter : UInt8) (content : Bytes) (quoted : delimiter = quote ∨ delimiter = 39)
      (closed : unbroken delimiter content = true)

/-- A comment, without its number sign. -/
structure Comment where
  text : Bytes
  line : 10 ∉ text

/-- What may stand between two tokens. -/
inductive Trivium
  | blank (blank : Blank)
  | newline
  | comment (comment : Comment)

abbrev Gap := List Trivium

/-! ## Expressions -/

mutual

inductive Expr
  | literal (value : Literal)
  | named (name : Identifier)
  | call (name : Identifier) (blanks : List Blank) (arguments : Arguments) (chain : Chain)

/-- What stands in the parentheses of a call. -/
inductive Arguments
  | none (gap : Gap)
  | some (gap : Gap) (first : Expr) (after : Gap) (more : More)

/-- The arguments behind the first one. -/
inductive More
  | nil
  | cons (gap : Gap) (next : Expr) (after : Gap) (more : More)

/-- The calls that are chained to a call. -/
inductive Chain
  | nil
  | cons (gap : Gap) (before : List Blank) (name : Identifier) (blanks : List Blank)
      (arguments : Arguments) (chain : Chain)

end

/-- The text of a matcher. The last comment need not end in a newline. -/
structure Matcher where
  lead : Gap
  expr : Expr
  trail : Gap
  last : Option Comment

/-! ## Tokens -/

/-- A token. The identifier of a call knows whether it is chained. -/
inductive Token
  | space (char : UInt8) (space : isSpace char = true)
  | comment (text : Bytes)
  | string (delimiter : UInt8) (content : Bytes) (quoted : delimiter = quote ∨ delimiter = 39)
  | word (text : Bytes) (chars : text.all (fun c => isWord c || c ∈ [period, 43, 45]) = true)
  | callee (name : Identifier) (chained : Bool)
  | openParen
  | closeParen
  | comma
  | period

namespace Token

def text : Token → Bytes
  | space c _ => [c]
  | comment text => 35 :: text
  | string delimiter content _ => delimiter :: content ++ [delimiter]
  | word text _ => text
  | callee name _ => name.text
  | openParen => [Extract.openParen]
  | closeParen => [Extract.closeParen]
  | comma => [44]
  | period => [Extract.period]

/-- What stands in a string literal or in a comment is no code. -/
def isOpaque : Token → Bool
  | comment _ => true
  | string _ _ _ => true
  | _ => false

end Token

def render (tokens : List Token) : Bytes := tokens.flatMap Token.text

/-- A place of the text is in a string literal or in a comment. -/
def opaqueAt : List Token → ℕ → Bool
  | [], _ => false
  | t :: ts, p => if p < t.text.length then t.isOpaque else opaqueAt ts (p - t.text.length)

def Blank.token (b : Blank) : Token := .space b.char b.space

def Trivium.tokens : Trivium → List Token
  | blank b => [b.token]
  | newline => [.space 10 (by decide)]
  | comment c => [.comment c.text, .space 10 (by decide)]

def Gap.tokens (gap : Gap) : List Token := gap.flatMap Trivium.tokens

theorem Literal.number_chars {text : Bytes}
    (chars : text.all (fun c => isAlnum c || c ∈ [period, 43, 45]) = true) :
    text.all (fun c => isWord c || c ∈ [period, 43, 45]) = true := by
  rw [List.all_eq_true] at chars ⊢
  intro c hc
  have hchar := chars c hc
  simp only [isWord, Bool.or_eq_true] at hchar ⊢
  rcases hchar with hchar | hchar
  · exact .inl (.inl hchar)
  · exact .inr hchar

def Literal.token : Literal → Token
  | number text _ chars => .word text (Literal.number_chars chars)
  | boolean true => .word (ascii "true") (by decide)
  | boolean false => .word (ascii "false") (by decide)
  | string delimiter content quoted _ => .string delimiter content quoted

theorem Identifier.chars (name : Identifier) :
    name.text.all (fun c => isWord c || c ∈ [period, 43, 45]) = true := by
  have hword := name.word
  rw [List.all_eq_true] at hword ⊢
  intro c hc
  rw [hword c hc, Bool.true_or]

mutual

/-- The tokens of an expression, in front of others. -/
def Expr.tokens : Expr → List Token → List Token
  | .literal value, ts => value.token :: ts
  | .named name, ts => .word name.text name.chars :: ts
  | .call name blanks arguments chain, ts =>
    .callee name false ::
      (blanks.map Blank.token ++ .openParen :: arguments.tokens (chain.tokens ts))

def Arguments.tokens : Arguments → List Token → List Token
  | .none gap, ts => gap.tokens ++ .closeParen :: ts
  | .some gap first after more, ts => gap.tokens ++ first.tokens (after.tokens ++ more.tokens ts)

def More.tokens : More → List Token → List Token
  | .nil, ts => .closeParen :: ts
  | .cons gap next after more, ts =>
    .comma :: (gap.tokens ++ next.tokens (after.tokens ++ more.tokens ts))

def Chain.tokens : Chain → List Token → List Token
  | .nil, ts => ts
  | .cons gap before name blanks arguments chain, ts =>
    gap.tokens ++ .period :: (before.map Blank.token ++ .callee name true ::
      (blanks.map Blank.token ++ .openParen :: arguments.tokens (chain.tokens ts)))

end

def Matcher.tokens (m : Matcher) : List Token :=
  m.lead.tokens ++ m.expr.tokens (m.trail.tokens ++ (m.last.map fun c => Token.comment c.text).toList)

def Matcher.text (m : Matcher) : Bytes := render m.tokens

/-! ## What Clang reads -/

/-- The calls among tokens, behind `start` characters. -/
def callees : ℕ → List Token → List CallSite
  | _, [] => []
  | start, .callee name chained :: ts =>
    ⟨start, name.text, chained⟩ :: callees (start + name.text.length) ts
  | start, t :: ts => callees (start + t.text.length) ts

/-- The calls of a matcher with their places: its constructors and the calls that are chained to them. -/
def Matcher.callSites (m : Matcher) : List CallSite := callees 0 m.tokens

mutual

def Expr.constructors : Expr → List Bytes
  | .literal _ => []
  | .named _ => []
  | .call name _ arguments chain => name.text :: (arguments.constructors ++ chain.constructors)

def Arguments.constructors : Arguments → List Bytes
  | .none _ => []
  | .some _ first _ more => first.constructors ++ more.constructors

def More.constructors : More → List Bytes
  | .nil => []
  | .cons _ next _ more => next.constructors ++ more.constructors

def Chain.constructors : Chain → List Bytes
  | .nil => []
  | .cons _ _ _ _ arguments chain => arguments.constructors ++ chain.constructors

end

mutual

/-- One of the named constructors lies inside an argument of another. -/
def Expr.nests (names : List Bytes) : Expr → Bool
  | .literal _ => false
  | .named _ => false
  | .call name _ arguments chain =>
    name.text ∈ names && arguments.constructors.any (· ∈ names) ||
      (arguments.nests names || chain.nests names)

def Arguments.nests (names : List Bytes) : Arguments → Bool
  | .none _ => false
  | .some _ first _ more => first.nests names || more.nests names

def More.nests (names : List Bytes) : More → Bool
  | .nil => false
  | .cons _ next _ more => next.nests names || more.nests names

def Chain.nests (names : List Bytes) : Chain → Bool
  | .nil => false
  | .cons _ _ _ _ arguments chain => arguments.nests names || chain.nests names

end

/-! ## What the scanner reads -/

/-- How a reader stands that knows no quotes but the double ones. -/
inductive Quoting
  | outside
  | inside
  | escaped
  deriving DecidableEq

def Quoting.read : Quoting → UInt8 → Quoting
  | .outside, c => if c = quote then .inside else .outside
  | .inside, c => if c = backslash then .escaped else if c = quote then .outside else .inside
  | .escaped, _ => .inside

/-- A place of the text is between double quotes. -/
def quotedAt (text : Bytes) (p : ℕ) : Bool := (text.take p).foldl Quoting.read .outside ≠ .outside

/-- The word that was read ends in a letter or an underscore and what belongs to it. -/
def Lettered (before : Bytes) : Prop := (before.takeWhile isWord).any startsWord = true

instance : DecidablePred Lettered := fun _ => inferInstanceAs (Decidable (_ = _))

/-- The identifier before a parenthesis that starts between `before` and `rest`, in quotes or not. -/
def callAt (before rest : Bytes) : Option CallSite :=
  if rest.head?.any startsWord = true ∧ ¬Lettered before then
    siteOf before (rest.takeWhile isWord) (rest.dropWhile isWord)
  else none

/-- An identifier in front of a parenthesis starts here. -/
def Calls (text : Bytes) (p : ℕ) : Prop := (callAt (text.take p).reverse (text.drop p)).isSome = true

/-- A parenthesis stands here. -/
def Parenthesis (text : Bytes) (p : ℕ) : Prop :=
  text[p]? = some openParen ∨ text[p]? = some closeParen

namespace Matcher

variable (m : Matcher)

/-- At every identifier in front of a parenthesis, a place between double quotes and a place in a string
literal or a comment are the same, and no comment in front of a constructor ends in a period. -/
structure ReadsAlike : Prop where
  quoted : ∀ p, Calls m.text p → quotedAt m.text p = opaqueAt m.tokens p
  undotted : ∀ site ∈ m.callSites, site.methodCall = false → ¬Dotted (m.text.take site.start).reverse

def ParensReadAlike : Prop :=
  ∀ p, Parenthesis m.text p → quotedAt m.text p = opaqueAt m.tokens p

/-! ## What the checks promise -/

/-- Every call of the parsed expression is reported once, and nothing else. -/
def Reported : Prop := forEachCallSite m.text = m.callSites

/-- When nothing is disallowed, every constructor is in the catalog. -/
def AllowListed (catalog : MatcherCatalog) : Prop :=
  disallowedMatcherCalls m.text catalog = [] → ∀ name ∈ m.expr.constructors, catalog.allowsMatcher name

/-- The occurrences of matchers are counted. -/
def Counted (names : List Bytes) : Prop :=
  countMatcherOccurrences m.text names = m.expr.constructors.countP (· ∈ names)

/-- Nested occurrences are found, and only these. -/
def NestingFound (names : List Bytes) : Prop :=
  hasNestedMatcherOccurrences m.text names = m.expr.nests names

end Matcher

end CppIndexer.Extract
