/-
# What the scanner sees of a matcher expression

The scanner of the catalog reads a text as if only double quotes hid it. Clang also hides single quoted
strings and comments. Both agree on the calls of an expression exactly when they agree on every
identifier in front of a parenthesis, and the check for nesting is right when they agree on the
parentheses as well.
-/

import CppIndexer.Extract.MatcherScanner

namespace CppIndexer.Extract

open Util (Bytes ascii)
open List Token CallSite Blank Gap Expr Arguments

/-! ## Tokens -/

section

variable {names : List Bytes} {skip : ℕ → Bool} {before after : Bytes} {t : Token} {ts : List Token}

/-- The text around a token lets it be read as it is. -/
def Token.Fits (before after : Bytes) : Token → Prop
  | .callee _ chained =>
    Clean before ∧ after.head?.any isWord = false ∧ Opens after ∧ (chained = true → Dotted before)
  | .word _ _ => after.head?.any isWord = false ∧ ¬Opens after
  | .openParen => Lettered (before.dropWhile isSpace)
  | _ => True

/-- Every token can be read as it is. -/
def Spelled (before : Bytes) : List Token → Prop
  | [] => True
  | t :: ts => t.Fits before (render ts) ∧ Spelled (t.text.reverse ++ before) ts

theorem render_cons (t : Token) (ts : List Token) : render (t :: ts) = t.text ++ render ts := by
  rw [render, flatMap_cons, render]

variable (name : Identifier)

theorem Identifier.eq_cons : ∃ c rest, name.text = c :: rest ∧
    startsWord c = true ∧ ∀ d ∈ rest, isWord d = true := by
  obtain ⟨text, hstarts, hword⟩ := name
  cases text with
  | nil => cases hstarts
  | cons c rest =>
    rw [all_cons, Bool.and_eq_true, all_eq_true] at hword
    exact ⟨c, rest, rfl, by simpa using hstarts, hword.2⟩

/-- An identifier ends where the text goes on with something else. -/
theorem Identifier.span (hends : after.head?.any isWord = false) :
    (name.text ++ after).takeWhile isWord = name.text ∧ (name.text ++ after).dropWhile isWord = after := by
  have hword := all_eq_true.mp name.word
  have hafter : after.takeWhile isWord = [] ∧ after.dropWhile isWord = after := by
    cases after with
    | nil => exact ⟨rfl, rfl⟩
    | cons c =>
      have hc : ¬isWord c = true := by simpa using hends
      exact ⟨takeWhile_cons_of_neg hc, dropWhile_cons_of_neg hc⟩
  rw [takeWhile_append_of_pos hword, dropWhile_append_of_pos hword, hafter.1, hafter.2, append_nil]
  exact ⟨rfl, rfl⟩

theorem skip_next (hskip : ∀ i, skip (i + before.length) = opaqueAt (t :: ts) i) (i : ℕ) :
    skip (i + (t.text.reverse ++ before).length) = opaqueAt ts i := by
  have hi := hskip (i + t.text.length)
  rw [opaqueAt, if_neg (by omega), Nat.add_sub_cancel] at hi
  rw [← hi, length_append, length_reverse, Nat.add_assoc]

/-- Literals, comments and words that are no calls are passed over. -/
theorem quiet_token (hfits : t.Fits before (render ts))
    (hskip : ∀ i, skip (i + before.length) = opaqueAt (t :: ts) i)
    (ht : t.isOpaque = true ∨ ∃ w h, t = .word w h) : Quiet skip before t.text (render ts) := by
  rcases ht with hopaque | ⟨_, hchars, rfl⟩
  · apply quiet_of_skip
    intro _ hi
    rw [hskip, opaqueAt, if_pos hi, hopaque]
  · apply quiet_of_word
    · exact all_eq_true.mp hchars
    · exact hfits.1
    · exact hfits.2

variable {name : Identifier} {stack : List Bool} {c : UInt8} {chained : Bool}

theorem skip_callee (hskip : ∀ i, skip (i + before.length) = opaqueAt (.callee name chained :: ts) i) :
    skip before.length = false := by
  obtain ⟨c, w, htext, -⟩ := name.eq_cons
  have hzero := hskip 0
  rwa [Nat.zero_add, opaqueAt, if_pos (by simp [Token.text, htext])] at hzero

theorem callsOutside_callee (hskip : skip before.length = false)
    (hclean : Clean before) (hends : after.head?.any isWord = false) (hopens : Opens after) :
    callsOutside skip before (name.text ++ after) = ⟨before.length, name.text, decide (Dotted before)⟩ ::
        callsOutside skip (name.text.reverse ++ before) after := by
  obtain ⟨htake, hdrop⟩ := name.span hends
  obtain ⟨c, w, htext, hc, -⟩ := name.eq_cons
  have hident := @callsOutside_ident before (w ++ after) skip c hskip hc (fresh_of_clean hclean)
  rw [← cons_append, ← htext, htake, hdrop, siteOf, if_pos hopens] at hident
  exact hident

/-- A call of the text, with the period that may stand before it. -/
def CallSite.inText (text : Bytes) (site : CallSite) : CallSite :=
  { site with methodCall := decide (Dotted (text.take site.start).reverse) }

theorem callsOutside_mark (hc : startsWord c = false) :
    callsOutside skip before (c :: after) = callsOutside skip (c :: before) after := by
  rw [callsOutside, callAt_of_not_startsWord hc, ite_self]
  rfl

/-- The calls outside of literals and comments are the calls among the tokens. -/
theorem callsOutside_render {text : Bytes} (hspelled : Spelled before ts)
    (htext : text = before.reverse ++ render ts)
    (hskip : ∀ i, skip (i + before.length) = opaqueAt ts i) :
    callsOutside skip before (render ts) = (callees before.length ts).map (inText text) := by
  induction ts generalizing before with
  | nil => rfl
  | cons t ts ih =>
    obtain ⟨hfits, hspelled⟩ := hspelled
    have hnext : callsOutside skip (t.text.reverse ++ before) (render ts) =
        (callees (before.length + t.text.length) ts).map (inText text) := by
      rw [ih hspelled _ (skip_next hskip), length_append, length_reverse, Nat.add_comm]
      rw [htext, render_cons, reverse_append, reverse_reverse, append_assoc]
    have hquiet := quiet_token hfits hskip
    rw [render_cons]
    cases t with
    | comment | string => exact (hquiet (.inl rfl)).callsOutside.trans hnext
    | word w chars => exact (hquiet (.inr ⟨w, chars, rfl⟩)).callsOutside.trans hnext
    | space _ hc =>
      exact (callsOutside_mark (startsWord_of_not_isWord (isWord_of_isSpace hc))).trans hnext
    | openParen | closeParen | comma | period => exact (callsOutside_mark (by decide)).trans hnext
    | callee name =>
      obtain ⟨hclean, hends, hopens, -⟩ := hfits
      have hcallee := @callsOutside_callee skip before (render ts) name (skip_callee hskip) hclean
        hends hopens
      rw [callees, map_cons, inText, htext, take_length_reverse_append, reverse_reverse, ← htext]
      exact hcallee.trans (congrArg _ hnext)

/-- The nested occurrences among tokens. -/
def nestedTokens (names : List Bytes) : List Bool → List Token → Bool
  | _, [] => false
  | stack, .callee name chained :: ts =>
    if (!chained && decide (name.text ∈ names)) && stack.any id then true
    else nestedTokens names ((!chained && decide (name.text ∈ names)) :: stack) ts
  | stack, .closeParen :: ts => nestedTokens names stack.tail ts
  | stack, _ :: ts => nestedTokens names stack ts

/-- A constructor is not read as a chained call. -/
def Token.Undotted (before : Bytes) : Token → Prop
  | .callee _ chained => chained = false → ¬Dotted before
  | _ => True

/-- The constructors among tokens are not read as chained calls. -/
def Undotted (before : Bytes) : List Token → Prop
  | [] => True
  | t :: ts => t.Undotted before ∧ Undotted (t.text.reverse ++ before) ts

theorem nestedOutside_mark (hc : startsWord c = false) (hopen : c ≠ openParen) (hclose : c ≠ closeParen) :
    nestedOutside names skip stack before (c :: after) =
      nestedOutside names skip stack (c :: before) after := by
  rw [nestedOutside, callAt_of_not_startsWord hc]
  simp [hopen, hclose]

theorem nestedOutside_callee (hskip : skip before.length = false)
    (hclean : Clean before) (hends : after.head?.any isWord = false) (hopens : Opens after) :
    nestedOutside names skip stack before (name.text ++ after) =
      if (!decide (Dotted before) && decide (name.text ∈ names)) && stack.any id then true
      else nestedOutside names skip ((!decide (Dotted before) && decide (name.text ∈ names)) :: stack)
        (name.text.reverse ++ before) after := by
  obtain ⟨htake, hdrop⟩ := name.span hends
  obtain ⟨c, w, htext, hc, -⟩ := name.eq_cons
  have hident := @nestedOutside_ident names before (w ++ after) skip stack c hskip hc (fresh_of_clean hclean)
  rw [← cons_append, ← htext, htake, hdrop, siteOf, if_pos hopens] at hident
  exact hident

theorem nestedOutside_render (hspelled : Spelled before ts)
    (hundotted : Undotted before ts) (hskip : ∀ i, skip (i + before.length) = opaqueAt ts i) :
    nestedOutside names skip stack before (render ts) = nestedTokens names stack ts := by
  induction ts generalizing before stack with
  | nil => rfl
  | cons t ts ih =>
    obtain ⟨hfits, hspelled⟩ := hspelled
    obtain ⟨hplain, hundotted⟩ := hundotted
    have hnext := fun stack => @ih (t.text.reverse ++ before) stack hspelled hundotted (skip_next hskip)
    have hquiet := quiet_token hfits hskip
    rw [render_cons]
    cases t with
    | comment | string => exact (hquiet (.inl rfl)).nestedOutside.trans (hnext stack)
    | word w chars => exact (hquiet (.inr ⟨w, chars, rfl⟩)).nestedOutside.trans (hnext stack)
    | space _ hc =>
      refine (nestedOutside_mark ?_ ?_ ?_).trans (hnext stack)
      · exact startsWord_of_not_isWord (isWord_of_isSpace hc)
      · exact ne_of_isSpace hc (by decide)
      · exact ne_of_isSpace hc (by decide)
    | comma | period =>
      exact (nestedOutside_mark (by decide) (by decide) (by decide)).trans (hnext stack)
    | openParen => exact (nestedOutside_named hfits).trans (hnext stack)
    | closeParen =>
      refine (nestedOutside_close ?_).trans (hnext stack.tail)
      have hzero := hskip 0
      rwa [Nat.zero_add] at hzero
    | callee name chained =>
      obtain ⟨hclean, hends, hopens, hdotted⟩ := hfits
      have hflag : decide (Dotted before) = chained := by
        cases chained with
        | false => exact decide_eq_false (hplain rfl)
        | true => exact decide_eq_true (hdotted rfl)
      have hcallee := @nestedOutside_callee names skip before (render ts) name stack
        (skip_callee hskip) hclean hends hopens
      rw [hflag] at hcallee
      rw [nestedTokens, ← hnext]
      exact hcallee

end

/-! ## The spelling of an expression -/

section

variable {before : Bytes} {ts : List Token}

/-- Tokens that can be read behind any text. -/
def Anywhere (ts : List Token) : Prop := ∀ before, Spelled before ts

/-- Tokens that can be read behind any text that ends no word. -/
def Readable (ts : List Token) : Prop := ∀ before, Clean before → Spelled before ts

theorem Anywhere.readable (h : Anywhere ts) : Readable ts := fun before _ => h before

/-- What may follow a word that is no call. -/
def Closes (text : Bytes) : Prop := text.head?.any isWord = false ∧ ¬Opens text

theorem closes_cons {c : UInt8} {rest : Bytes} (hword : isWord c = false) (hspace : isSpace c = false)
    (hne : c ≠ openParen) : Closes (c :: rest) :=
  ⟨by simp [hword], not_opens_cons hspace hne⟩

theorem Closes.space {c : UInt8} {rest : Bytes} (hc : isSpace c = true) (h : Closes rest) :
    Closes (c :: rest) := by
  refine ⟨by simp [isWord_of_isSpace hc], ?_⟩
  rw [opens_cons_of_space hc]
  exact h.2

theorem Blank.spelled {blanks : List Blank} : Spelled before (blanks.map token ++ ts) ↔
    Spelled ((blanks.map char).reverse ++ before) ts := by
  induction blanks generalizing before with
  | nil => rfl
  | cons _ _ ih =>
    rw [map_cons, cons_append, Spelled, ih, map_cons, reverse_cons, append_assoc]
    exact and_iff_right trivial

theorem render_blanks (blanks : List Blank) (ts : List Token) :
    render (blanks.map token ++ ts) = blanks.map char ++ render ts := by
  induction blanks with
  | nil => rfl
  | cons _ _ ih =>
    rw [map_cons, cons_append, render_cons, ih]
    rfl

theorem isSpace_blanks {blanks : List Blank} : ∀ c ∈ blanks.map char, isSpace c = true := by
  intro _ hc
  obtain ⟨b, -, rfl⟩ := mem_map.mp hc
  exact b.space

variable {gap : Gap}

theorem Gap.anywhere (h : Anywhere ts) : Anywhere (gap.tokens ++ ts) := by
  induction gap with
  | nil => exact h
  | cons trivium _ ih =>
    intro _
    cases trivium with
    | blank | newline => exact ⟨trivial, ih _⟩
    | comment => exact ⟨trivial, trivial, ih _⟩

theorem Gap.readable (h : Readable ts) : Readable (gap.tokens ++ ts) := by
  induction gap with
  | nil => exact h
  | cons trivium _ ih =>
    intro _ _
    cases trivium with
    | blank b => exact ⟨trivial, ih _ (clean_cons (isWord_of_isSpace b.space))⟩
    | newline => exact ⟨trivial, ih _ (clean_cons (by decide))⟩
    | comment => exact ⟨trivial, trivial, ih _ (clean_cons (by decide))⟩

theorem Gap.closes (h : Closes (render ts)) : Closes (render (gap.tokens ++ ts)) := by
  induction gap with
  | nil => exact h
  | cons trivium _ ih =>
    cases trivium with
    | blank b => exact ih.space b.space
    | newline => exact ih.space (by decide)
    | comment => exact closes_cons (by decide) (by decide) (by decide)

theorem Clean.blanks {blanks : List Blank} (h : Clean before) :
    Clean ((blanks.map char).reverse ++ before) := by
  induction blanks generalizing before with
  | nil => exact h
  | cons b _ ih =>
    rw [map_cons, reverse_cons, append_assoc]
    exact ih (clean_cons (isWord_of_isSpace b.space))

theorem lettered_name (name : Identifier) : Lettered (name.text.reverse ++ before) := by
  obtain ⟨c, w, htext, hc, hw⟩ := name.eq_cons
  have hfirst : Lettered (c :: before) := (lettered_cons (isWord_of_startsWord hc)).mpr (.inl hc)
  rw [htext, reverse_cons, append_assoc]
  exact hfirst.append hw

variable {chained : Bool}

/-- A name, its parenthesis and what stands in it. -/
theorem spelled_callee {name : Identifier} {blanks : List Blank} (hclean : Clean before)
    (hdotted : chained = true → Dotted before) (h : Readable ts) :
    Spelled before (.callee name chained :: (blanks.map token ++ .openParen :: ts)) := by
  have hopens : Opens (render (blanks.map token ++ .openParen :: ts)) := by
    rw [render_blanks, opens_append_of_spaces isSpace_blanks, render_cons]
    rfl
  have hends : (render (blanks.map token ++ .openParen :: ts)).head?.any isWord = false := by
    rw [render_blanks]
    cases blanks with
    | nil => rfl
    | cons b => simpa using isWord_of_isSpace b.space
  refine ⟨⟨hclean, hends, hopens, hdotted⟩, Blank.spelled.mpr ⟨?_, ?_⟩⟩
  · exact (lettered_name name).dropWhile isSpace_blanks
  · exact h _ (clean_cons (by decide))

mutual

/-- An expression can be read where no word ends, in front of what ends a word. -/
theorem Expr.readable : ∀ (e : Expr) {ts : List Token}, Anywhere ts → Closes (render ts) →
    Readable (e.tokens ts)
  | .literal (.number _ _ _), _, hts, hcloses | .literal (.boolean true), _, hts, hcloses
  | .literal (.boolean false), _, hts, hcloses | .named _, _, hts, hcloses =>
    fun _ _ => ⟨hcloses, hts _⟩
  | .literal (.string _ _ _ _), _, hts, _ => fun _ _ => ⟨trivial, hts _⟩
  | .call name blanks arguments chain, ts, hts, hcloses => by
      intro _ hclean
      have hchain := chain.anywhere hts hcloses
      exact spelled_callee hclean nofun (arguments.readable hchain.1)

theorem Arguments.readable : ∀ (a : Arguments) {ts : List Token}, Anywhere ts → Readable (a.tokens ts)
  | .none _, _, hts => Gap.readable fun _ _ => ⟨trivial, hts _⟩
  | .some gap first after more, ts, hts => by
      have hmore := more.anywhere hts
      exact Gap.readable (first.readable (anywhere hmore.1) (closes hmore.2))

theorem More.anywhere : ∀ (m : More) {ts : List Token}, Anywhere ts →
    Anywhere (m.tokens ts) ∧ Closes (render (m.tokens ts))
  | .nil, _, hts => ⟨fun _ => ⟨trivial, hts _⟩, closes_cons (by decide) (by decide) (by decide)⟩
  | .cons gap next after more, ts, hts => by
      have hmore := more.anywhere hts
      have hnext := next.readable (@Gap.anywhere _ after hmore.1) (closes hmore.2)
      refine ⟨fun before => ⟨trivial, ?_⟩, closes_cons (by decide) (by decide) (by decide)⟩
      apply Gap.readable hnext
      exact @clean_cons before 44 (by decide)

theorem Chain.anywhere : ∀ (chain : Chain) {ts : List Token}, Anywhere ts → Closes (render ts) →
    Anywhere (chain.tokens ts) ∧ Closes (render (chain.tokens ts))
  | .nil, _, hts, hcloses => ⟨hts, hcloses⟩
  | .cons gap blanks name blanks' arguments chain, ts, hts, hcloses => by
      have hrest := arguments.readable (chain.anywhere hts hcloses).1
      constructor
      · apply anywhere
        intro before
        refine ⟨trivial, Blank.spelled.mpr (spelled_callee ?_ ?_ hrest)⟩
        · exact Clean.blanks (@clean_cons before period (by decide))
        · intro _
          rw [Dotted, dropWhile_append_of_pos (by simpa using isSpace_blanks)]
          rfl
      · exact closes (closes_cons (by decide) (by decide) (by decide))

end

theorem Matcher.spelled (m : Matcher) : Spelled [] m.tokens := by
  have hlast : Anywhere (m.last.map fun c => comment c.text).toList ∧
      Closes (render (m.last.map fun c => comment c.text).toList) := by
    cases m.last with
    | none => exact ⟨fun _ => trivial, rfl, by simp [Opens, render]⟩
    | some => exact ⟨fun _ => ⟨trivial, trivial⟩, closes_cons (by decide) (by decide) (by decide)⟩
  have hexpr := m.expr.readable (@Gap.anywhere _ m.trail hlast.1) (closes hlast.2)
  exact Gap.readable hexpr [] rfl

end

/-! ## The constructors of an expression -/

section

variable {names : List Bytes} {before : Bytes} {ts : List Token}

def Token.constructor : Token → Option Bytes
  | .callee name false => some name.text
  | _ => none

def CallSite.constructor (site : CallSite) : Option Bytes :=
  if site.methodCall then none else some site.ident

theorem callees_constructors (start : ℕ) (ts : List Token) :
    (callees start ts).filterMap CallSite.constructor = ts.filterMap Token.constructor := by
  induction ts generalizing start with
  | nil => rfl
  | cons t _ ih =>
    cases t with
    | callee name chained =>
      cases chained with
      | false => exact congrArg (name.text :: ·) (ih _)
      | true => exact ih _
    | _ => exact (ih _).trans (filterMap_cons_none rfl).symm

theorem filterMap_callee (name : Identifier) (ts : List Token) :
    (callee name false :: ts).filterMap Token.constructor =
      name.text :: ts.filterMap Token.constructor := rfl

theorem filterMap_blanks (blanks : List Blank) (ts : List Token) :
    (blanks.map token ++ ts).filterMap Token.constructor = ts.filterMap Token.constructor := by
  induction blanks with
  | nil => rfl
  | cons _ _ ih => exact ih

theorem Gap.filterMap (gap : Gap) (ts : List Token) :
    (gap.tokens ++ ts).filterMap Token.constructor = ts.filterMap Token.constructor := by
  induction gap with
  | nil => rfl
  | cons trivium _ ih =>
    cases trivium with
    | blank | newline | comment => exact ih

mutual

theorem Expr.filterMap_tokens : ∀ (e : Expr) (ts : List Token),
    (e.tokens ts).filterMap Token.constructor = e.constructors ++ ts.filterMap Token.constructor
  | .literal (.number _ _ _), _ | .literal (.boolean true), _ | .literal (.boolean false), _
  | .literal (.string _ _ _ _), _ | .named _, _ => rfl
  | .call name blanks arguments chain, ts => by
      rw [Expr.tokens, filterMap_callee, filterMap_blanks, filterMap_cons_none rfl,
        arguments.filterMap_tokens, chain.filterMap_tokens, Expr.constructors, cons_append,
        append_assoc]

theorem Arguments.filterMap_tokens : ∀ (a : Arguments) (ts : List Token),
    (a.tokens ts).filterMap Token.constructor = a.constructors ++ ts.filterMap Token.constructor
  | .none gap, ts => by
      rw [Arguments.tokens, Gap.filterMap, filterMap_cons_none rfl]
      rfl
  | .some gap first after more, ts => by
      rw [Arguments.tokens, Gap.filterMap, first.filterMap_tokens, Gap.filterMap, more.filterMap_tokens,
        Arguments.constructors, append_assoc]

theorem More.filterMap_tokens : ∀ (m : More) (ts : List Token),
    (m.tokens ts).filterMap Token.constructor = m.constructors ++ ts.filterMap Token.constructor
  | .nil, _ => rfl
  | .cons gap next after more, ts => by
      rw [More.tokens, filterMap_cons_none rfl, Gap.filterMap, next.filterMap_tokens, Gap.filterMap,
        more.filterMap_tokens, More.constructors, append_assoc]

theorem Chain.filterMap_tokens : ∀ (chain : Chain) (ts : List Token),
    (chain.tokens ts).filterMap Token.constructor = chain.constructors ++ ts.filterMap Token.constructor
  | .nil, _ => rfl
  | .cons gap before name blanks arguments chain, ts => by
      rw [Chain.tokens, Gap.filterMap, filterMap_cons_none rfl, filterMap_blanks,
        filterMap_cons_none rfl, filterMap_blanks, filterMap_cons_none rfl,
        arguments.filterMap_tokens, chain.filterMap_tokens, Chain.constructors, append_assoc]

end

theorem Matcher.constructors_callSites (m : Matcher) :
    m.callSites.filterMap CallSite.constructor = m.expr.constructors := by
  have hlast : (m.last.map fun c => comment c.text).toList.filterMap Token.constructor = [] := by
    cases m.last <;> rfl
  rw [Matcher.callSites, callees_constructors, Matcher.tokens, Gap.filterMap, Expr.filterMap_tokens,
    Gap.filterMap, hlast, append_nil]

/-! ## Nesting in an expression -/

variable (stack : List Bool)

theorem nestedTokens_callee (name : Identifier) (chained : Bool) (ts : List Token) :
    nestedTokens names stack (.callee name chained :: ts) =
      ((!chained && decide (name.text ∈ names)) && stack.any id ||
        nestedTokens names ((!chained && decide (name.text ∈ names)) :: stack) ts) := by
  rw [nestedTokens, Bool.if_true_left, Bool.decide_coe]

theorem nestedTokens_blanks (blanks : List Blank) (ts : List Token) :
    nestedTokens names stack (blanks.map token ++ ts) = nestedTokens names stack ts := by
  induction blanks with
  | nil => rfl
  | cons _ _ ih => exact ih

theorem Gap.nestedTokens (gap : Gap) (ts : List Token) :
    nestedTokens names stack (gap.tokens ++ ts) = nestedTokens names stack ts := by
  induction gap with
  | nil => rfl
  | cons trivium _ ih =>
    cases trivium with
    | blank | newline | comment => exact ih

/-- An occurrence is nested when one of the names is called around it. -/
def found (names : List Bytes) (stack : List Bool) (constructors : List Bytes) (nests : Bool) : Bool :=
  stack.any id && constructors.any (fun name => decide (name ∈ names)) || nests

variable {b' b : Bool} {stack : List Bool} {l l' : List Bytes}

theorem found_append :
    found names stack (l ++ l') (b || b') = (found names stack l b || found names stack l' b') := by
  unfold found
  rw [any_append]
  cases stack.any id <;> cases l.any (fun name => decide (name ∈ names)) <;> cases b <;> simp

theorem found_nil : found names stack [] false = false := by
  simp [found]

/-- The constructor of a call stands around its arguments. -/
theorem found_cons {name : Bytes} : (decide (name ∈ names) && stack.any id ||
        (found names (decide (name ∈ names) :: stack) l b || found names stack l' b')) =
      found names stack (name :: (l ++ l'))
        (decide (name ∈ names) && l.any (fun name => decide (name ∈ names)) || (b || b')) := by
  simp only [found, any_cons, any_append, id_eq]
  cases decide (name ∈ names) <;> cases stack.any id <;>
    cases l.any (fun name => decide (name ∈ names)) <;> cases b <;> simp

mutual

/-- The check passes over an expression, or finds an occurrence in it. -/
theorem Expr.nestedTokens_tokens : ∀ (e : Expr) (stack : List Bool) (ts : List Token),
    nestedTokens names stack (e.tokens ts) =
      (found names stack e.constructors (e.nests names) || nestedTokens names stack ts)
  | .literal (.number _ _ _), _, _ | .literal (.boolean true), _, _
  | .literal (.boolean false), _, _ | .literal (.string _ _ _ _), _, _ | .named _, _, _ =>
    by rw [Expr.constructors, Expr.nests, found_nil]; rfl
  | .call name blanks arguments chain, stack, ts => by
      have harguments := arguments.nestedTokens_tokens (decide (name.text ∈ names)) stack (chain.tokens ts)
      have hopen : ∀ stack ts, nestedTokens names stack (.openParen :: ts) = nestedTokens names stack ts :=
        fun _ _ => rfl
      rw [Expr.tokens, nestedTokens_callee, nestedTokens_blanks, hopen, Bool.not_false, Bool.true_and,
        harguments, chain.nestedTokens_tokens, Expr.constructors, Expr.nests, ← found_cons]
      simp [Bool.or_assoc]

theorem Arguments.nestedTokens_tokens : ∀ (a : Arguments) (target : Bool) (stack : List Bool)
    (ts : List Token), nestedTokens names (target :: stack) (a.tokens ts) =
      (found names (target :: stack) a.constructors (a.nests names) || nestedTokens names stack ts)
  | .none gap, target, stack, ts => by
      rw [Arguments.tokens, Gap.nestedTokens, Arguments.constructors, Arguments.nests, found_nil]
      rfl
  | .some gap first after more, target, stack, ts => by
      rw [Arguments.tokens, Gap.nestedTokens, first.nestedTokens_tokens, Gap.nestedTokens,
        more.nestedTokens_tokens, ← Bool.or_assoc, ← found_append]
      rfl

theorem More.nestedTokens_tokens : ∀ (m : More) (target : Bool) (stack : List Bool)
    (ts : List Token), nestedTokens names (target :: stack) (m.tokens ts) =
      (found names (target :: stack) m.constructors (m.nests names) || nestedTokens names stack ts)
  | .nil, target, stack, ts => by
      rw [More.constructors, More.nests, found_nil]
      rfl
  | .cons gap next after more, target, stack, ts => by
      have hnext := next.nestedTokens_tokens (target :: stack) (after.tokens ++ more.tokens ts)
      rw [Gap.nestedTokens, more.nestedTokens_tokens, ← Bool.or_assoc, ← found_append] at hnext
      exact (Gap.nestedTokens _ gap _).trans hnext

theorem Chain.nestedTokens_tokens : ∀ (chain : Chain) (stack : List Bool) (ts : List Token),
    nestedTokens names stack (chain.tokens ts) =
      (found names stack chain.constructors (chain.nests names) || nestedTokens names stack ts)
  | .nil, stack, ts => by
      rw [Chain.constructors, Chain.nests, found_nil]
      rfl
  | .cons gap before name blanks arguments chain, stack, ts => by
      have harguments := arguments.nestedTokens_tokens false stack (chain.tokens ts)
      have hmark : ∀ stack ts, nestedTokens names stack (.openParen :: ts) = nestedTokens names stack ts ∧
          nestedTokens names stack (.period :: ts) = nestedTokens names stack ts :=
        fun _ _ => ⟨rfl, rfl⟩
      have hfalse : ∀ l b, found names (false :: stack) l b = found names stack l b := by
        intro _ _
        simp [found]
      rw [Chain.tokens, Gap.nestedTokens, (hmark _ _).2, nestedTokens_blanks, nestedTokens_callee,
        nestedTokens_blanks, (hmark _ _).1, Bool.not_true, Bool.false_and, Bool.false_and, Bool.false_or,
        harguments, chain.nestedTokens_tokens, hfalse, ← Bool.or_assoc, ← found_append]
      rfl

end

theorem Matcher.nestedTokens_tokens (m : Matcher) : nestedTokens names [] m.tokens = m.expr.nests names := by
  have hlast : nestedTokens names [] (m.last.map fun c => comment c.text).toList = false := by
    cases m.last <;> rfl
  rw [Matcher.tokens, Gap.nestedTokens, Expr.nestedTokens_tokens, Gap.nestedTokens, hlast, Bool.or_false]
  simp [found]

end

/-! ## The checks -/

section

variable {names : List Bytes} {before : Bytes} {ts : List Token}

theorem length_text_reverse_append (t : Token) (before : Bytes) :
    (t.text.reverse ++ before).length = before.length + t.text.length := by
  rw [length_append, length_reverse, Nat.add_comm]

theorem text_next {text : Bytes} {t : Token} (htext : text = before.reverse ++ render (t :: ts)) :
    text = (t.text.reverse ++ before).reverse ++ render ts := by
  rw [htext, render_cons, reverse_append, reverse_reverse, append_assoc]

/-- No period stands before the constructors. -/
theorem undotted_iff {text : Bytes} (htext : text = before.reverse ++ render ts) :
    Undotted before ts ↔ ∀ site ∈ callees before.length ts, site.methodCall = false →
      ¬Dotted (text.take site.start).reverse := by
  induction ts generalizing before with
  | nil => simp [Undotted, callees]
  | cons t _ ih =>
    have hnext := ih (text_next htext)
    rw [length_text_reverse_append] at hnext
    rw [Undotted, hnext]
    cases t with
    | callee =>
      have hhere : (text.take before.length).reverse = before := by
        rw [htext, take_length_reverse_append, reverse_reverse]
      rw [callees, forall_mem_cons]
      rw [hhere]
      rfl
    | _ => exact and_iff_right trivial

/-- A chained call is read as one, and a constructor where no period stands before it. -/
theorem map_inText_callees_iff {text : Bytes} (hspelled : Spelled before ts)
    (htext : text = before.reverse ++ render ts) :
    (callees before.length ts).map (inText text) = callees before.length ts ↔
      Undotted before ts := by
  induction ts generalizing before with
  | nil => simp [Undotted, callees]
  | cons t _ ih =>
    obtain ⟨hfits, hspelled⟩ := hspelled
    have hnext := ih hspelled (text_next htext)
    rw [length_text_reverse_append] at hnext
    rw [Undotted, ← hnext]
    cases t with
    | callee _ chained =>
      have hhere : (text.take before.length).reverse = before := by
        rw [htext, take_length_reverse_append, reverse_reverse]
      rw [callees, map_cons, cons.injEq, inText, CallSite.mk.injEq, hhere]
      apply and_congr_left
      intro _
      cases chained with
      | false => simp [Token.Undotted]
      | true => simp [Token.Undotted, hfits.2.2.2 rfl]
    | _ => exact (and_iff_right trivial).symm

end

namespace Matcher

variable (m : Matcher) (catalog : MatcherCatalog) (names : List Bytes)

/-- What is not in a literal or a comment is read as it is meant, but for periods in comments. -/
theorem callsOutside_text :
    callsOutside (opaqueAt m.tokens) [] m.text = m.callSites.map (inText m.text) :=
  callsOutside_render m.spelled rfl fun _ => rfl

theorem reported_iff : m.Reported ↔ m.ReadsAlike := by
  have hundotted := @undotted_iff [] m.tokens m.text rfl
  have hmap := @map_inText_callees_iff [] m.tokens m.text m.spelled rfl
  have hcalls := m.callsOutside_text
  rw [Reported, forEachCallSite_eq]
  constructor
  · intro h
    have hquoted : ∀ p, Calls m.text p → quotedAt m.text p = opaqueAt m.tokens p := by
      apply skip_eq_of_starts
      rw [h, hcalls, map_map]
      rfl
    have hsame : callsOutside (quotedAt m.text) [] m.text = callsOutside (opaqueAt m.tokens) [] m.text :=
      callsOutside_congr fun p _ hp => hquoted p hp
    refine ⟨hquoted, hundotted.mp (hmap.mp ?_)⟩
    exact hcalls.symm.trans (hsame.symm.trans h)
  · intro h
    have hsame : callsOutside (quotedAt m.text) [] m.text = callsOutside (opaqueAt m.tokens) [] m.text :=
      callsOutside_congr fun p _ hp => h.quoted p hp
    exact hsame.trans (hcalls.trans (hmap.mpr (hundotted.mpr h.undotted)))

variable {m}

theorem Reported.allowListed (h : m.Reported) : m.AllowListed catalog := by
  intro hempty name hname
  rw [← m.constructors_callSites, mem_filterMap] at hname
  obtain ⟨site, hsite, hconstructor⟩ := hname
  rw [disallowedMatcherCalls, h, filterMap_eq_nil_iff] at hempty
  have hallowed := hempty site hsite
  unfold CallSite.constructor at hconstructor
  cases hmethod : site.methodCall with
  | true => simp [hmethod] at hconstructor
  | false =>
    obtain rfl : site.ident = name := by simpa [hmethod] using hconstructor
    simpa [hmethod] using hallowed

theorem Reported.counted (h : m.Reported) : m.Counted names := by
  rw [Counted, countMatcherOccurrences, h, ← m.constructors_callSites, countP_filterMap]
  apply countP_congr
  intro site _
  cases hmethod : site.methodCall <;> simp [isTarget, CallSite.constructor, hmethod]

theorem ReadsAlike.nestingFound (h : m.ReadsAlike) (hparens : m.ParensReadAlike) :
    m.NestingFound names := by
  have hsame : nestedOutside names (quotedAt m.text) [] [] m.text =
      nestedOutside names (opaqueAt m.tokens) [] [] m.text := by
    apply nestedOutside_congr
    intro p _ hp
    rcases hp with hp | hp
    · exact h.quoted p hp
    · exact hparens p hp
  have htokens : nestedOutside names (opaqueAt m.tokens) [] [] (render m.tokens) =
      nestedTokens names [] m.tokens :=
    nestedOutside_render m.spelled ((@undotted_iff [] m.tokens m.text rfl).mpr h.undotted) fun _ => rfl
  rw [NestingFound, hasNestedMatcherOccurrences_eq, hsame]
  exact htokens.trans m.nestedTokens_tokens

/-- A call without layout. -/
def plainCall (name : Identifier) (arguments : Arguments) : Expr := .call name [] arguments .nil

def oneArgument (argument : Expr) : Arguments := .some [] argument [] .nil

/-- `functionDecl(hasName("f(")).bind("x")`, with a comment. -/
def quotedCall : Matcher where
  lead := []
  expr := .call ⟨ascii "functionDecl", by decide, by decide⟩ []
    (.some [.comment ⟨ascii " main", by decide⟩]
      (plainCall ⟨ascii "hasName", by decide, by decide⟩
        (oneArgument (.literal (.string quote (ascii "f(") (.inl rfl) (by decide))))) [] .nil)
    (.cons [] [] ⟨ascii "bind", by decide, by decide⟩ []
      (oneArgument (.literal (.string quote (ascii "x") (.inl rfl) (by decide)))) .nil)
  trail := []
  last := none

/-- A double quote in single quotes stands before a constructor that is not in the catalog. -/
def hiddenConstructor : Matcher where
  lead := []
  expr := plainCall ⟨ascii "functionDecl", by decide, by decide⟩
    (.some []
      (plainCall ⟨ascii "hasName", by decide, by decide⟩
        (oneArgument (.literal (.string 39 [quote] (.inr rfl) (by decide))))) []
      (.cons []
        (plainCall ⟨ascii "forEachDescendant", by decide, by decide⟩
          (oneArgument (plainCall ⟨ascii "callExpr", by decide, by decide⟩ (.none [])))) [] .nil))
  trail := []
  last := none

/-- Two closing parentheses in single quotes stand between a combinator and one in its argument. -/
def hiddenNesting : Matcher where
  lead := []
  expr := plainCall ⟨ascii "hasDescendant", by decide, by decide⟩
    (oneArgument (plainCall ⟨ascii "functionDecl", by decide, by decide⟩
      (.some []
        (plainCall ⟨ascii "hasName", by decide, by decide⟩
          (oneArgument (.literal (.string 39 [closeParen, closeParen] (.inr rfl) (by decide))))) []
        (.cons []
          (plainCall ⟨ascii "hasDescendant", by decide, by decide⟩
            (oneArgument (plainCall ⟨ascii "callExpr", by decide, by decide⟩ (.none [])))) [] .nil))))
  trail := []
  last := none

end Matcher

end CppIndexer.Extract
