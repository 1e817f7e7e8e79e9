/-
# The matcher catalog and its scanner

`extract/matcher_catalog.cpp`. A rule of an extraction plan has a matcher expression in the syntax of
Clang's dynamic matchers. Clang parses it; the allow-list, the count of the combinators that traverse
subtrees and the check for nested ones read the text themselves, with a scanner that knows identifiers,
double quotes and parentheses.
-/

import CppIndexer.Util.PathUtil

namespace CppIndexer.Extract

open Util (Bytes ascii)

/-! ## Character classes -/

variable (c : UInt8)

/-- `std::isalpha` in the C locale. -/
def isAlpha : Bool :=
  65 ≤ c.toNat && c.toNat ≤ 90 || 97 ≤ c.toNat && c.toNat ≤ 122

/-- `std::isalnum` in the C locale. -/
def isAlnum : Bool := isAlpha c || 48 ≤ c.toNat && c.toNat ≤ 57

/-- `std::isspace` in the C locale. -/
def isSpace : Bool := 9 ≤ c.toNat && c.toNat ≤ 13 || c.toNat = 32

/-- What an identifier begins with. -/
def startsWord : Bool := isAlpha c || c.toNat = 95

/-- What an identifier goes on with. -/
def isWord : Bool := isAlnum c || c.toNat = 95

def quote : UInt8 := 34

def openParen : UInt8 := 40

def closeParen : UInt8 := 41

def period : UInt8 := 46

def backslash : UInt8 := 92

/-! ## Call sites -/

/-- What is passed to `on_call`, with the place of the identifier. -/
structure CallSite where
  start : ℕ
  ident : Bytes
  methodCall : Bool
  deriving DecidableEq

/-- The text goes on with a parenthesis, white space aside. -/
def Opens (rest : Bytes) : Prop := (rest.dropWhile isSpace).head? = some openParen

instance : DecidablePred Opens := fun _ => inferInstanceAs (Decidable (_ = _))

/-- What was read before an identifier ends in a period, white space aside. What was read is in reversed
order. -/
def Dotted (before : Bytes) : Prop := (before.dropWhile isSpace).head? = some period

instance : DecidablePred Dotted := fun _ => inferInstanceAs (Decidable (_ = _))

/-- The call site of an identifier that was found between `before` and `rest`. -/
def siteOf (before ident rest : Bytes) : Option CallSite :=
  if Opens rest then some ⟨before.length, ident, decide (Dotted before)⟩ else none

/-- The loop of `for_each_call_site`, between what was read, in reversed order, and what is left. -/
def callSiteLoop : ℕ → Bool → Bytes → Bytes → List CallSite
  | 0, _, _, _ => []
  | _ + 1, _, _, [] => []
  | fuel + 1, true, before, c :: rest =>
    match rest with
    | d :: rest' =>
      if c = backslash then callSiteLoop fuel true (d :: c :: before) rest'
      else callSiteLoop fuel (c != quote) (c :: before) rest
    | [] => callSiteLoop fuel (c != quote) (c :: before) rest
  | fuel + 1, false, before, c :: rest =>
    if c = quote then callSiteLoop fuel true (c :: before) rest
    else if startsWord c then
      let ident := (c :: rest).takeWhile isWord
      let rest' := (c :: rest).dropWhile isWord
      (siteOf before ident rest').toList ++ callSiteLoop fuel false (ident.reverse ++ before) rest'
    else callSiteLoop fuel false (c :: before) rest

variable (matcherExpression : Bytes)

/-- `for_each_call_site`: the calls of `on_call`. -/
def forEachCallSite : List CallSite :=
  callSiteLoop matcherExpression.length false [] matcherExpression

/-! ## The catalog -/

/-- `MatcherCatalog`, without the properties, which no scan reads. -/
structure MatcherCatalog where
  matcherIds : List Bytes

/-- `allows_matcher`. -/
def MatcherCatalog.allowsMatcher (catalog : MatcherCatalog) (matcherId : Bytes) : Bool :=
  matcherId ∈ catalog.matcherIds

/-- `default_catalog`. -/
def defaultCatalog : MatcherCatalog where
  matcherIds :=
    [ -- declaration matchers
      "functionDecl", "cxxMethodDecl", "cxxConstructorDecl", "cxxRecordDecl", "varDecl", "fieldDecl",
      "parmVarDecl", "namespaceDecl", "classTemplateDecl", "enumDecl", "namedDecl",
      -- expression matchers
      "callExpr", "cxxMemberCallExpr", "cxxOperatorCallExpr", "cxxConstructExpr", "declRefExpr",
      "memberExpr",
      -- narrowing predicates and bounded traversal
      "hasName", "matchesName", "hasAnyName", "callee", "callExpr", "hasArgument", "hasAnyArgument",
      "argumentCountIs", "hasAnyParameter", "hasParameter", "hasReturnType", "hasType", "pointsTo",
      "references", "ofClass", "hasDeclContext", "hasBody", "hasInitializer", "isDefinition",
      "isVirtual", "isConst", "isStatic", "isPrivate", "isPublic", "isProtected",
      "hasOverloadedOperatorName", "hasAncestor", "hasDescendant", "hasParent", "unless", "anyOf",
      "allOf"].map ascii

/-- `traversal_work_combinators`. -/
def traversalWorkCombinators : List Bytes := ["hasDescendant", "hasAncestor"].map ascii

/-- `disallowed_matcher_calls`. -/
def disallowedMatcherCalls (catalog : MatcherCatalog) : List Bytes :=
  (forEachCallSite matcherExpression).filterMap fun site =>
    if site.methodCall then
      if site.ident ≠ ascii "bind" then some site.ident else none
    else if !catalog.allowsMatcher site.ident then some site.ident
    else none

variable (names : List Bytes)

def CallSite.isTarget (site : CallSite) : Bool :=
  !site.methodCall && site.ident ∈ names

/-- `count_matcher_occurrences`. -/
def countMatcherOccurrences : ℕ :=
  (forEachCallSite matcherExpression).countP (CallSite.isTarget names)

/-- The loop of `has_nested_matcher_occurrences`, with `paren_is_target_call` as a stack. -/
def nestedLoop (names : List Bytes) : ℕ → Bool → List Bool → Bytes → Bytes → Bool
  | 0, _, _, _, _ => false
  | _ + 1, _, _, _, [] => false
  | fuel + 1, true, stack, before, c :: rest =>
    match rest with
    | d :: rest' =>
      if c = backslash then nestedLoop names fuel true stack (d :: c :: before) rest'
      else nestedLoop names fuel (c != quote) stack (c :: before) rest
    | [] => nestedLoop names fuel (c != quote) stack (c :: before) rest
  | fuel + 1, false, stack, before, c :: rest =>
    if c = quote then nestedLoop names fuel true stack (c :: before) rest
    else if startsWord c then
      let ident := (c :: rest).takeWhile isWord
      let rest' := (c :: rest).dropWhile isWord
      match siteOf before ident rest' with
      | some site =>
        if site.isTarget names && stack.any id then true
        else
          -- the parenthesis of the call is consumed with it
          nestedLoop names fuel false (site.isTarget names :: stack)
            (openParen :: (rest'.takeWhile isSpace).reverse ++ (ident.reverse ++ before))
            (rest'.dropWhile isSpace).tail
      | none => nestedLoop names fuel false stack (ident.reverse ++ before) rest'
    else if c = openParen then nestedLoop names fuel false (false :: stack) (c :: before) rest
    else if c = closeParen then nestedLoop names fuel false stack.tail (c :: before) rest
    else nestedLoop names fuel false stack (c :: before) rest

/-- `has_nested_matcher_occurrences`. -/
def hasNestedMatcherOccurrences : Bool :=
  nestedLoop names matcherExpression.length false [] [] matcherExpression

end CppIndexer.Extract
