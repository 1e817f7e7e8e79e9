/-
# Printing and parsing predicates

The parser gives a printed predicate back unless a connective has parentheses on both sides, a
value holds an operator that is looked for earlier or reads as an integer or a truth value, or a
field has the name of a connective.

The parser takes the parentheses at both ends of a text for a pair. Where they are not, it counts
wrong from there on, and a comparison comes to hold the quotes and parentheses in between.
-/

import CppIndexer.Query.CxqComparison

namespace CppIndexer.Query.Cxq

open List Token Cond

/-! ## What the parser does with a fragment -/

theorem predicate_congr {x y : Text} (h : trim x = trim y) : predicate x = predicate y := by
  rw [predicate_eq, predicate_eq, h]

/-- Without its field, a comparison starts with its operator. -/
theorem Leaf.operand_start (leaf : Leaf) (rest : Text) : ∃ start ∈ operandStarts, ∃ more,
    leaf.sign ++ ' ' :: (leaf.literal ++ rest) = start ++ more := by
  cases leaf with
  | compare sign =>
    cases sign with
    | eq => exact ⟨['='], by decide, _, rfl⟩
    | ne => exact ⟨['!'], by decide, _, rfl⟩
    | glob => exact ⟨['~'], by decide, _, rfl⟩
  | inList => exact ⟨['i', 'n', ' ', '['], by decide, _, rfl⟩

theorem predicate_operand_not_clean {leaf : Leaf} {blanks rest : Text}
    (hblanks : ∀ ch ∈ blanks, isSpace ch = true) {p : Pred}
    (h : predicate (blanks ++ (leaf.sign ++ ' ' :: (leaf.literal ++ rest))) = .ok p) :
    ¬ Clean p := by
  obtain ⟨_, hstart, more, htext⟩ := leaf.operand_start rest
  obtain ⟨_, hkept⟩ := trim_keeps hblanks (solid_operandStart hstart) more
  rw [htext, ← append_assoc] at h
  exact predicate_operandStart _ hstart hkept h

theorem text_append (leaf : Leaf) (rest : Text) : leaf.text ++ rest =
    leaf.field.toList ++ ' ' :: (leaf.sign ++ ' ' :: (leaf.literal ++ rest)) := by
  simp [Leaf.text]

/-- A comparison is not taken for a call. -/
theorem simplePredicate_leaf {leaf : Leaf} (h : leaf.Writable) (rest : Text) :
    simplePredicate (leaf.text ++ rest) = comparison (leaf.text ++ rest) := by
  apply simplePredicate_eq
  intro call hmem hstarts
  rw [text_append] at hstarts
  have hblank : ' ' ∉ call.1 ++ ['('] := by
    simp only [callOps, mem_cons, not_mem_nil, or_false] at hmem
    obtain rfl | rfl | rfl | rfl := hmem <;> decide
  have hparen := (prefix_field hblank hstarts).subset (mem_append_right _ mem_cons_self)
  exact absurd (isIdentChar_of_isIdentifier h.1 '(' hparen) (by decide)

/-- A reserved field is found as a connective. -/
theorem findFrom_reserved {op : Junction} {leaf : Leaf} (h : leaf.field.toList = word op)
    (rest : Text) : findFrom (word op) {} none (leaf.text ++ rest) = some 0 := by
  rw [text_append, h]
  cases op <;> simp [word, findFrom, Scan.atTop, isDelimiter, isQuote, keywordAt, isSpace]

theorem not_prefix_iff {leaf : Leaf} (h : leaf.Writable) (rest : Text) :
    ['n', 'o', 't', ' '] <+: leaf.text ++ rest ↔ leaf.field.toList = ['n', 'o', 't'] := by
  rw [text_append]
  constructor
  · rintro ⟨more, hmore⟩
    refine @eq_field ['n', 'o', 't'] _ (leaf.sign ++ ' ' :: (leaf.literal ++ rest)) (by decide)
      (isIdentChar_of_isIdentifier h.1) ?_ ?_
    · rw [← hmore]
      exact ⟨' ' :: more, rfl⟩
    · rw [← hmore]
      simp [isSpace]
  · intro hfield
    rw [hfield]
    exact ⟨_, rfl⟩

namespace Fragment

variable {tokens : List Token} {op : Junction} {after before : List Token} {p : Pred}

/-- Both sides of a connective are parsed on their own. -/
theorem predicate_cut (h : Fragment (before ++ .word op :: after)) (hdepth : depth before = 0) :
    predicate ((render (before ++ .word op :: after)).take ((render before).length + 1)) =
        predicate (render before) ∧ predicate ((render (before ++ .word op :: after)).drop
          ((render before).length + 1 + (word op).length)) = predicate (render after) := by
  obtain ⟨hbefore, hafter⟩ := h.cut hdepth
  have htext : render (before ++ .word op :: after) =
      render before ++ ' ' :: (word op ++ ' ' :: render after) := by
    simp [text]
  have hblank : ∀ ch ∈ [' '], isSpace ch = true := by decide
  rw [htext]
  constructor
  · apply predicate_congr
    have htake : (render before ++ ' ' :: (word op ++ ' ' :: render after)).take
        ((render before).length + 1) = [] ++ render before ++ [' '] := by
      rw [take_append, take_of_length_le (by omega)]
      simp
    rw [htake, trim_pad (by simp) hbefore.solid hblank, trim_solid hbefore.solid]
  · apply predicate_congr
    have hdrop : (render before ++ ' ' :: (word op ++ ' ' :: render after)).drop
        ((render before).length + 1 + (word op).length) = [' '] ++ render after ++ [] := by
      rw [Nat.add_assoc, ← drop_drop, drop_left, ← drop_drop, drop_one, tail_cons, drop_left]
      simp
    rw [hdrop, trim_pad hblank hafter.solid (by simp), trim_solid hafter.solid]

/-- What follows a field that is taken for a connective cannot be printed again. -/
theorem not_clean_behind_field {l : Leaf} (hfield : l.field.toList = word op)
    (h : predicate ((render (before ++ .leaf l :: after)).drop
      ((render before).length + (word op).length)) = .ok p) : ¬ Clean p := by
  have hdrop : (render (before ++ .leaf l :: after)).drop
      ((render before).length + (word op).length) =
        [' '] ++ (l.sign ++ ' ' :: (l.literal ++ render after)) := by
    rw [render_append, render_cons, show (Token.leaf l).text = l.text from rfl, text_append,
      ← drop_drop, drop_left, hfield, drop_left]
    rfl
  rw [hdrop] at h
  exact predicate_operand_not_clean (by decide) h

/-- The steps of the parser at a fragment that gives a predicate which can be printed. -/
inductive Parsed (tokens : List Token) (p : Pred) : Prop
  | parens {inside : List Token} (eq : tokens = .openParen :: (inside ++ [.closeParen]))
  | negation {rest : List Token} {inner : Pred} (eq : tokens = .notWord :: rest)
      (result : p = .not [inner]) (parsed : predicate (render rest) = .ok inner)
  | connective {before after : List Token} {op : Junction} {left right : Pred}
      (eq : tokens = before ++ .word op :: after) (top : depth before = 0)
      (result : p = .junction op [left, right]) (parsedLeft : predicate (render before) = .ok left)
      (parsedRight : predicate (render after) = .ok right)
  | single {l : Leaf} (eq : tokens = [.leaf l]) (free : isReserved l.field.toList = false)
      (parsed : comparison l.text = .ok p)

/-- Where a connective is looked for, both sides are parsed, or a field is taken for it. -/
theorem parsed_connective {i : ℕ} (h : Fragment tokens)
    (hfound : findFrom (word op) {} none (render tokens) = some i) {left right : Pred}
    (hleft : predicate ((render tokens).take i) = .ok left)
    (hright : predicate ((render tokens).drop (i + (word op).length)) = .ok right)
    (hclean : Clean (.junction op [left, right])) :
    Parsed tokens (.junction op [left, right]) := by
  have hsearch : findFrom (word op) (scanAt 0) none (render tokens) = some i := hfound
  obtain ⟨hnone, _⟩ | ⟨_, _, rfl, hdepth, hat⟩ | ⟨_, _, _, rfl, hfield, hat⟩ :=
    @findFrom_render op tokens h.writable 0 none
  · rw [hnone] at hsearch
    cases hsearch
  · rw [hat, Option.some.injEq] at hsearch
    subst hsearch
    rw [Int.zero_add] at hdepth
    obtain ⟨hcutLeft, hcutRight⟩ := h.predicate_cut hdepth
    rw [hcutLeft] at hleft
    rw [hcutRight] at hright
    exact .connective rfl hdepth rfl hleft hright
  · rw [hat, Option.some.injEq] at hsearch
    subst hsearch
    exact absurd hclean.of_junction.2 (not_clean_behind_field hfield hright)

theorem no_word_of_find_none (h : Fragment tokens)
    (hnone : findFrom (word op) {} none (render tokens) = none)
    (hsplit : tokens = before ++ .word op :: after) : depth before ≠ 0 := by
  have hsearch : findFrom (word op) (scanAt 0) none (render tokens) = none := hnone
  obtain ⟨_, hnowhere⟩ | ⟨_, _, _, _, hat⟩ | ⟨_, _, _, _, _, hat⟩ :=
    @findFrom_render op tokens h.writable 0 none
  · have hdepth := hnowhere before after hsplit
    rwa [Int.zero_add] at hdepth
  · rw [hat] at hsearch
    cases hsearch
  · rw [hat] at hsearch
    cases hsearch

/-- A fragment without connectives outside of parentheses is one comparison. -/
theorem parsed_simple (h : Fragment tokens)
    (hbare : tokens.head? = some .openParen → tokens.getLast? ≠ some .closeParen)
    (hnot : ¬ ['n', 'o', 't', ' '] <+: render tokens)
    (hnone : ∀ op, findFrom (word op) {} none (render tokens) = none)
    (hp : simplePredicate (render tokens) = .ok p) (hclean : Clean p) : Parsed tokens p := by
  have htrim := trim_solid h.solid
  obtain ⟨first, hhead, hstarts⟩ := h.starts
  obtain ⟨rest, rfl⟩ := head?_eq_some_iff.mp hhead
  cases first with
  | closeParen => cases hstarts
  | word => cases hstarts
  | notWord => exact absurd ⟨render rest, rfl⟩ hnot
  | openParen =>
    -- The parenthesis in front would become part of the field.
    rw [simplePredicate_eq] at hp
    · have hsolid : Solid ['('] := ⟨⟨'(', rfl, by decide⟩, '(', rfl, by decide⟩
      exact absurd hclean (@comparison_not_clean ['('] (render rest) hsolid (by decide) htrim
        (fun _ _ i _ => by simp; omega) p hp)
    · intro _ hmem hstarts
      simp only [callOps, mem_cons, not_mem_nil, or_false] at hmem
      obtain rfl | rfl | rfl | rfl := hmem <;> simp [text] at hstarts
  | leaf l =>
    have hl : l.Writable := h.writable _ mem_cons_self
    rw [render_cons, show (Token.leaf l).text = l.text from rfl] at hp hnot hnone htrim
    have hreserved : isReserved l.field.toList = false := by
      rw [isReserved, decide_eq_false_iff_not]
      simp only [mem_cons, not_mem_nil, or_false, not_or]
      have hfree : ∀ op, l.field.toList ≠ word op := by
        intro op hfield
        have hfound := findFrom_reserved hfield (render rest)
        rw [hnone op] at hfound
        cases hfound
      exact ⟨fun hfield => hnot ((not_prefix_iff hl _).mpr hfield), hfree .allOf, hfree .anyOf⟩
    rw [simplePredicate_leaf hl] at hp
    cases rest with
    | nil =>
      rw [render_nil, append_nil] at hp
      exact .single rfl hreserved hp
    | cons second more =>
      obtain ⟨hbefore, _⟩ := isChain_cons.mp h.chain
      have hsecond : true = !second.startsOperand := hbefore second rfl
      cases second with
      | closeParen =>
        exact absurd hclean (comparison_leaf_paren hl htrim hp)
      | word op =>
        have hfound : findFrom (word op) {} none (render (.leaf l :: .word op :: more)) =
          none := hnone op
        have hdepth := h.no_word_of_find_none hfound
          (show .leaf l :: .word op :: more = [.leaf l] ++ .word op :: more from rfl)
        exact absurd rfl hdepth
      | openParen | notWord | leaf => cases hsecond

/-- Every step of the parser towards a predicate that can be printed. -/
theorem parsed (h : Fragment tokens) (hp : predicate (render tokens) = .ok p)
    (hclean : Clean p) : Parsed tokens p := by
  by_cases hparens : tokens.head? = some .openParen ∧ tokens.getLast? = some .closeParen
  · obtain ⟨_, rfl⟩ := head?_eq_some_iff.mp hparens.1
    obtain ⟨init, hinit⟩ := getLast?_eq_some_iff.mp hparens.2
    cases init with
    | nil => cases hinit
    | cons =>
      cases hinit
      exact .parens rfl
  · have hbare : tokens.head? = some .openParen → tokens.getLast? ≠ some .closeParen :=
      fun hopen hclose => hparens ⟨hopen, hclose⟩
    rw [h.predicate_bare hbare] at hp
    unfold predicateStripped at hp
    split at hp
    · rename_i hnot
      obtain ⟨_, hinner, rfl⟩ := map_eq_ok.mp hp
      have hword : ['n', 'o', 't', ' '] <+: render tokens := isPrefixOf_iff_prefix.mp hnot
      obtain ⟨first, hhead, hstarts⟩ := h.starts
      obtain ⟨rest, rfl⟩ := head?_eq_some_iff.mp hhead
      cases first with
      | notWord => exact .negation rfl rfl hinner
      | openParen => simp [text] at hword
      | leaf l =>
        have hl : l.Writable := h.writable _ mem_cons_self
        have hfield := (not_prefix_iff hl (render rest)).mp hword
        have hdrop : (render (.leaf l :: rest)).drop 4 =
            [] ++ (l.sign ++ ' ' :: (l.literal ++ render rest)) := by
          rw [render_cons, show (Token.leaf l).text = l.text from rfl, text_append, hfield]
          rfl
        rw [hdrop] at hinner
        exact absurd hclean.of_not (predicate_operand_not_clean (by simp) hinner)
      | closeParen => cases hstarts
      | word => cases hstarts
    · rename_i hnot
      split at hp
      · rename_i i hor
        obtain ⟨left, hleft, hp⟩ := ok_of_bind hp
        obtain ⟨right, hright, hp⟩ := ok_of_bind hp
        cases hp
        exact @parsed_connective tokens .anyOf i h hor left right hleft hright hclean
      · rename_i hor
        split at hp
        · rename_i i hand
          obtain ⟨left, hleft, hp⟩ := ok_of_bind hp
          obtain ⟨right, hright, hp⟩ := ok_of_bind hp
          cases hp
          exact @parsed_connective tokens .allOf i h hand left right hleft hright hclean
        · rename_i hand
          refine h.parsed_simple hbare ?_ ?_ hp hclean
          · rw [ isPrefixOf_iff_prefix] at hnot
            exact hnot
          · intro op
            cases op with
            | allOf => exact hand
            | anyOf => exact hor

/-- A fragment that closes more parentheses than it has opened gives no predicate that can be
printed: the steps of the parser keep the excess, down to a single comparison. -/
theorem not_clean_of_negative {tokens : List Token} (h : Fragment tokens)
    (hsplit : tokens = before ++ after) (hnegative : depth before < 0)
    (hp : predicate (render tokens) = .ok p) : ¬ Clean p := by
  intro hclean
  induction hlength : tokens.length using Nat.strong_induction_on generalizing tokens before after p
  rename_i n ih
  cases h.parsed hp hclean with
  | @parens inside eq =>
    subst eq
    rw [h.predicate_parens] at hp
    cases before with
    | nil => simp at hnegative
    | cons =>
      rw [cons_append, cons.injEq] at hsplit
      obtain ⟨rfl, hrest⟩ := hsplit
      rw [depth_cons, Token.depth] at hnegative
      obtain ⟨more, hbefore, hlast⟩ | ⟨more, hinside, _⟩ := append_eq_append_iff.mp hrest
      · -- Only the last parenthesis is missing, and all the others are balanced.
        have hbalanced := h.inner.balanced
        have hmore : -1 ≤ depth more := by
          cases more with
          | nil => simp
          | cons =>
            rw [cons_append, cons.injEq] at hlast
            obtain ⟨rfl, hnil⟩ := hlast
            rw [(append_eq_nil_iff.mp hnil.symm).1]
            simp [Token.depth]
        rw [hbefore, depth_append, hbalanced] at hnegative
        omega
      · exact ih _ (by simp at hlength; omega) h.inner hinside (by omega) hp hclean rfl
  | @negation rest inner eq result parsed =>
    subst eq result
    cases before with
    | nil => simp at hnegative
    | cons =>
      rw [cons_append, cons.injEq] at hsplit
      obtain ⟨rfl, hrest⟩ := hsplit
      rw [depth_cons, Token.depth, Int.zero_add] at hnegative
      exact ih _ (by simp at hlength; omega) h.ofNot hrest hnegative parsed hclean.of_not rfl
  | @connective start finish op left right eq top result parsedLeft parsedRight =>
    subst eq result
    obtain ⟨hstart, hfinish⟩ := h.cut top
    obtain ⟨more, hbefore, hmore⟩ | ⟨more, hinside, _⟩ := append_eq_append_iff.mp hsplit
    · cases more with
      | nil =>
        rw [append_nil] at hbefore
        rw [hbefore, top] at hnegative
        exact absurd hnegative (by decide)
      | cons =>
        rw [cons_append, cons.injEq] at hmore
        obtain ⟨rfl, hrest⟩ := hmore
        rw [hbefore, depth_append, depth_cons, Token.depth, top, Int.zero_add, Int.zero_add] at hnegative
        exact ih _ (by simp at hlength; omega) hfinish hrest hnegative parsedRight
          hclean.of_junction.2 rfl
    · exact ih _ (by simp at hlength; omega) hstart hinside hnegative parsedLeft
        hclean.of_junction.1 rfl
  | @single l eq free parsed =>
    subst eq
    cases before with
    | nil => simp at hnegative
    | cons =>
      rw [cons_append, cons.injEq] at hsplit
      obtain ⟨rfl, hnil⟩ := hsplit
      rw [(append_eq_nil_iff.mp hnil.symm).1] at hnegative
      simp [Token.depth] at hnegative

end Fragment

/-! ## The tokens of a predicate -/

def operandTokens (compound : Bool) (tokens : List Token) : List Token :=
  if compound then .openParen :: (tokens ++ [.closeParen]) else tokens

def Cond.tokens : Cond → List Token
  | leaf l => [.leaf l]
  | junction op left right => operandTokens left.isCompound left.tokens ++
      .word op :: operandTokens right.isCompound right.tokens
  | not kid => .notWord :: operandTokens kid.isCompound kid.tokens

theorem render_operandTokens (compound : Bool) (tokens : List Token) :
    render (operandTokens compound tokens) = Cond.operand compound (render tokens) := by
  cases compound <;> simp [operandTokens, Cond.operand, text]

theorem Cond.render_tokens (c : Cond) : render c.tokens = c.print := by
  induction c with
  | leaf => simp [tokens, print, text]
  | junction _ _ _ ihLeft ihRight =>
    rw [tokens, render_append, render_cons, render_operandTokens, render_operandTokens, ihLeft,
      ihRight, print, append_assoc]
    rfl
  | not _ ih =>
    rw [tokens, render_cons, render_operandTokens, ih, print]
    rfl

namespace Fragment

variable {tokens : List Token}

section

variable (h : Fragment tokens)
include h

theorem inParens : Fragment (.openParen :: (tokens ++ [.closeParen])) := by
  obtain ⟨first, hhead, hstarts⟩ := h.starts
  obtain ⟨_, hlast, hends⟩ := h.ends
  refine ⟨?_, ⟨_, rfl, rfl⟩, ⟨.closeParen, by simp [getLast?_cons], rfl⟩, ?_, ?_⟩
  · refine isChain_cons.mpr ⟨?_, isChain_append.mpr ⟨h.chain, by simp, ?_⟩⟩
    · intro _ hy
      rw [head?_append, hhead] at hy
      cases hy
      show false = !first.startsOperand
      rw [hstarts]
      rfl
    · intro _ hx _ hy
      rw [hlast] at hx
      cases hx
      cases hy
      exact hends
  · simp [h.balanced, Token.depth]
  · intro token hmem
    rw [mem_cons, mem_append, mem_singleton] at hmem
    obtain rfl | hmem | rfl := hmem
    · trivial
    · exact h.writable token hmem
    · trivial

theorem joined {others : List Token} (hothers : Fragment others)
    (op : Junction) : Fragment (tokens ++ .word op :: others) := by
  obtain ⟨first, hhead, hstarts⟩ := h.starts
  obtain ⟨_, hlast, hends⟩ := h.ends
  obtain ⟨next, hnext, hnextStarts⟩ := hothers.starts
  obtain ⟨final, hfinal, hfinalEnds⟩ := hothers.ends
  refine ⟨?_, ⟨first, by simp [hhead], hstarts⟩, ⟨final, ?_, hfinalEnds⟩, ?_, ?_⟩
  · refine isChain_append.mpr ⟨h.chain, isChain_cons.mpr ⟨?_, hothers.chain⟩, ?_⟩
    · intro _ hy
      rw [hnext] at hy
      cases hy
      show false = !next.startsOperand
      rw [hnextStarts]
      rfl
    · intro _ hx _ hy
      rw [hlast] at hx
      cases hx
      cases hy
      exact hends
  · rw [getLast?_append_cons, getLast?_cons, hfinal]
    rfl
  · simp [h.balanced, hothers.balanced, Token.depth]
  · intro token hmem
    rw [mem_append, mem_cons] at hmem
    obtain hmem | rfl | hmem := hmem
    · exact h.writable token hmem
    · trivial
    · exact hothers.writable token hmem

theorem negated : Fragment (.notWord :: tokens) := by
  obtain ⟨first, hhead, hstarts⟩ := h.starts
  obtain ⟨last, hlast, hends⟩ := h.ends
  refine ⟨isChain_cons.mpr ⟨?_, h.chain⟩, ⟨_, rfl, rfl⟩, ⟨last, ?_, hends⟩, ?_, ?_⟩
  · intro _ hy
    rw [hhead] at hy
    cases hy
    show false = !first.startsOperand
    rw [hstarts]
    rfl
  · rw [getLast?_cons, hlast]
    rfl
  · simp [h.balanced, Token.depth]
  · intro token hmem
    rw [mem_cons] at hmem
    obtain rfl | hmem := hmem
    · trivial
    · exact h.writable token hmem

theorem operand (compound : Bool) : Fragment (operandTokens compound tokens) := by
  cases compound with
  | true => exact h.inParens
  | false => exact h

theorem predicate_operand (compound : Bool) :
    predicate (render (operandTokens compound tokens)) = predicate (render tokens) := by
  cases compound with
  | true => exact h.inParens.predicate_parens
  | false => rfl

end

end Fragment

variable {left right c : Cond} {op : Junction} {before after tokens : List Token}

theorem Cond.fragment (h : c.Writable) : Fragment c.tokens := by
  induction c with
  | leaf =>
    refine ⟨isChain_singleton _, ⟨_, rfl, rfl⟩, ⟨_, rfl, rfl⟩, rfl, ?_⟩
    intro _ hmem
    rw [tokens, mem_singleton] at hmem
    subst hmem
    exact h
  | junction op _ _ ihLeft ihRight =>
    exact ((ihLeft h.1).operand _).joined ((ihRight h.2).operand _) op
  | not _ ih => exact ((ih h).operand _).negated

/-- Tokens that never close more parentheses than they have opened. -/
def Nonneg (tokens : List Token) : Prop :=
  ∀ before after, tokens = before ++ after → 0 ≤ depth before

theorem Nonneg.append {xs ys : List Token} (hx : Nonneg xs) (hbalanced : depth xs = 0)
    (hy : Nonneg ys) : Nonneg (xs ++ ys) := by
  intro before after hsplit
  obtain ⟨more, rfl, hmore⟩ | ⟨more, hinside, _⟩ := append_eq_append_iff.mp hsplit
  · rw [depth_append, hbalanced, Int.zero_add]
    exact hy more after hmore
  · exact hx before more hinside

theorem Nonneg.cons {token : Token} (htoken : 0 ≤ token.depth)
    (h : Nonneg tokens) : Nonneg (token :: tokens) := by
  intro before after hsplit
  cases before with
  | nil => exact le_refl 0
  | cons _ before =>
    rw [cons_append, cons.injEq] at hsplit
    obtain ⟨rfl, hrest⟩ := hsplit
    have hbefore := h before after hrest
    rw [depth_cons]
    omega

theorem Nonneg.operand (h : Nonneg tokens) (hbalanced : depth tokens = 0)
    (compound : Bool) : Nonneg (operandTokens compound tokens) := by
  cases compound with
  | false => exact h
  | true =>
    intro before _ hsplit
    rw [operandTokens, if_pos rfl] at hsplit
    cases before with
    | nil => exact le_refl 0
    | cons _ before =>
      rw [cons_append, cons.injEq] at hsplit
      obtain ⟨rfl, hrest⟩ := hsplit
      rw [depth_cons, Token.depth]
      obtain ⟨more, rfl, hmore⟩ | ⟨more, hinside, _⟩ := append_eq_append_iff.mp hrest
      · cases more with
        | nil => simp [hbalanced]
        | cons =>
          rw [cons_append, cons.injEq] at hmore
          obtain ⟨rfl, hnil⟩ := hmore
          rw [(append_eq_nil_iff.mp hnil.symm).1]
          simp [hbalanced, Token.depth]
      · have hbefore := h before more hinside
        omega

theorem Cond.nonneg (h : c.Writable) : Nonneg c.tokens := by
  induction c with
  | leaf =>
    exact Nonneg.cons (le_refl 0) fun before after hnil => by
      rw [(append_eq_nil_iff.mp hnil.symm).1]
      exact le_refl 0
  | junction _ _ _ ihLeft ihRight =>
    have hleft := fragment h.1
    have hright := fragment h.2
    refine ((ihLeft h.1).operand hleft.balanced _).append (hleft.operand _).balanced ?_
    exact ((ihRight h.2).operand hright.balanced _).cons (le_refl 0)
  | not kid ih =>
    have hkid : kid.Writable := h
    exact ((ih hkid).operand (fragment hkid).balanced _).cons (le_refl 0)

def Cond.operandOf (c : Cond) : List Token := operandTokens c.isCompound c.tokens

/-- The connectives in an operand stand inside of its parentheses. -/
theorem Cond.depth_word (h : c.Writable)
    (hsplit : c.operandOf = before ++ .word op :: after) : 1 ≤ depth before := by
  have hnonneg := nonneg h
  rw [operandOf] at hsplit
  cases hcompound : c.isCompound with
  | false =>
    cases c with
    | leaf =>
      cases before with
      | nil => cases hsplit
      | cons =>
        exact absurd (cons.inj hsplit).2 (by simp)
    | junction => cases hcompound
    | not => cases hcompound
  | true =>
    rw [hcompound, operandTokens, if_pos rfl] at hsplit
    cases before with
    | nil => cases hsplit
    | cons _ before =>
      rw [cons_append, cons.injEq] at hsplit
      obtain ⟨rfl, hrest⟩ := hsplit
      rw [depth_cons, Token.depth]
      obtain ⟨more, _, hmore⟩ | ⟨more, hinside, _⟩ := append_eq_append_iff.mp hrest
      · cases more with
        | nil => cases hmore
        | cons =>
          rw [cons_append, cons.injEq] at hmore
          exact absurd hmore.2 (by simp)
      · have hbefore := hnonneg before more hinside
        omega

/-- The connective of a predicate is the only one outside of parentheses. -/
theorem Cond.cut_unique (hleft : left.Writable) (hright : right.Writable) {other : Junction}
    (hsplit : left.operandOf ++ .word op :: right.operandOf = before ++ .word other :: after)
    (htop : depth before = 0) :
    before = left.operandOf ∧ other = op ∧ after = right.operandOf := by
  have hbalanced := ((fragment hleft).operand left.isCompound).balanced
  obtain ⟨more, hbefore, hmore⟩ | ⟨more, hinside, hmore⟩ := append_eq_append_iff.mp hsplit
  · cases more with
    | nil =>
      rw [nil_append, cons.injEq, Token.word.injEq] at hmore
      exact ⟨by simpa using hbefore, hmore.1.symm, hmore.2.symm⟩
    | cons =>
      rw [cons_append, cons.injEq] at hmore
      obtain ⟨rfl, hrest⟩ := hmore
      have hdeep := depth_word hright hrest
      have hzero : depth left.operandOf = 0 := hbalanced
      rw [hbefore, depth_append, depth_cons, Token.depth, hzero] at htop
      omega
  · cases more with
    | nil =>
      rw [nil_append, cons.injEq, Token.word.injEq] at hmore
      exact ⟨by simpa using hinside.symm, hmore.1, hmore.2⟩
    | cons =>
      rw [cons_append, cons.injEq] at hmore
      obtain ⟨rfl, _⟩ := hmore
      have hdeep := depth_word hleft hinside
      omega

/-! ## Reading back -/

theorem head?_operandOf (c : Cond) : c.isCompound = false ∧ (∃ l, c = .leaf l ∧ c.operandOf = [.leaf l]) ∨
      c.isCompound = true ∧ c.operandOf = .openParen :: (c.tokens ++ [.closeParen]) := by
  cases c with
  | leaf l => exact Or.inl ⟨rfl, l, rfl, rfl⟩
  | junction | not => exact Or.inr ⟨rfl, rfl⟩

/-- A connective with parentheses on both sides is not read back. -/
theorem not_read_of_compound (h : (Cond.junction op left right).Writable) (hleft : left.isCompound = true)
    (hright : right.isCompound = true) : predicate (render (Cond.tokens (.junction op left right))) ≠
      .ok (Cond.toPred (.junction op left right)) := by
  intro hp
  have hfragment := Cond.fragment h
  let inside := left.tokens ++ .closeParen :: .word op :: .openParen :: right.tokens
  have htokens : Cond.tokens (.junction op left right) =
      .openParen :: (inside ++ [.closeParen]) := by
    simp [Cond.tokens, operandTokens, hleft, hright, inside]
  rw [htokens] at hfragment hp
  rw [hfragment.predicate_parens] at hp
  have hsplit : inside = (left.tokens ++ [.closeParen]) ++ (.word op :: .openParen :: right.tokens) := by
    simp [inside]
  refine hfragment.inner.not_clean_of_negative hsplit ?_ hp ⟨_, h, rfl⟩
  rw [depth_append, (Cond.fragment h.1).balanced]
  simp [Token.depth]

/-- A predicate that is read back is readable. -/
theorem readable_of_read (h : c.Writable)
    (hp : predicate (render c.tokens) = .ok c.toPred) : c.Readable := by
  induction c with
  | leaf l =>
    have hl : l.Writable := h
    cases (fragment h).parsed hp ⟨_, h, rfl⟩ with
    | parens eq => cases eq
    | negation eq => cases eq
    | @connective before _ _ _ _ eq _ _ _ _ =>
      have hmem := congrArg (List.length) eq
      cases before with
      | nil => cases eq
      | cons =>
        simp [tokens] at hmem
    | single eq free parsed =>
      cases eq
      exact ⟨by simp [free], (comparison_leaf_iff hl).mp parsed⟩
  | not kid ih =>
    have hkid : kid.Writable := h
    cases (fragment h).parsed hp ⟨_, h, rfl⟩ with
    | parens eq => cases eq
    | negation eq result parsed =>
      cases eq
      cases result
      rw [(fragment hkid).predicate_operand] at parsed
      exact ih hkid parsed
    | connective _ _ result => cases result
    | single eq => cases eq
  | junction op left right ihLeft ihRight =>
    have hboth : ¬ (left.isCompound = true ∧ right.isCompound = true) :=
      fun hcompound => not_read_of_compound h hcompound.1 hcompound.2 hp
    cases (fragment h).parsed hp ⟨_, h, rfl⟩ with
    | @parens inside eq =>
      exfalso
      have heq : left.operandOf ++ .word op :: right.operandOf =
          .openParen :: (inside ++ [.closeParen]) := eq
      obtain ⟨_, _, _, hl⟩ | ⟨hleft, _⟩ := head?_operandOf left
      · rw [hl] at heq
        cases heq
      · obtain ⟨_, _, _, hr⟩ | ⟨hright, _⟩ := head?_operandOf right
        · have hlast := congrArg List.getLast? heq
          rw [hr] at hlast
          simp [getLast?_cons] at hlast
        · exact hboth ⟨hleft, hright⟩
    | negation _ result => cases result
    | @connective before after other first second eq top result parsedLeft parsedRight =>
      obtain ⟨rfl, rfl, rfl⟩ := cut_unique h.1 h.2 eq top
      cases result
      rw [operandOf, (fragment h.1).predicate_operand] at parsedLeft
      rw [operandOf, (fragment h.2).predicate_operand] at parsedRight
      exact ⟨hboth, ihLeft h.1 parsedLeft, ihRight h.2 parsedRight⟩
    | @single l eq _ _ =>
      have hmem : Token.word op ∈ [Token.leaf l] := by
        rw [← eq]
        exact mem_append_right _ mem_cons_self
      simp at hmem

/-- Tokens without reserved fields. -/
def Unreserved (tokens : List Token) : Prop :=
  ∀ l, Token.leaf l ∈ tokens → isReserved l.field.toList = false

theorem Cond.unreserved (h : c.Readable) : Unreserved c.tokens := by
  have hoperand : ∀ kid : Cond, Unreserved kid.tokens → Unreserved kid.operandOf := by
    intro _ hkid l hmem
    apply hkid l
    rw [operandOf, operandTokens] at hmem
    split at hmem
    · simpa using hmem
    · exact hmem
  induction c with
  | leaf =>
    intro _ hmem
    rw [tokens, mem_singleton, Token.leaf.injEq] at hmem
    subst hmem
    simpa using h.1
  | junction _ left right ihLeft ihRight =>
    intro l hmem
    rw [tokens, mem_append, mem_cons] at hmem
    obtain hmem | hmem | hmem := hmem
    · exact hoperand left (ihLeft h.2.1) l hmem
    · cases hmem
    · exact hoperand right (ihRight h.2.2) l hmem
  | not kid ih =>
    intro l hmem
    rw [tokens, mem_cons] at hmem
    obtain hmem | hmem := hmem
    · cases hmem
    · exact hoperand kid (ih h) l hmem

namespace Fragment

variable {tokens : List Token}

theorem find_none (h : Fragment tokens) (hfree : Unreserved tokens) {op : Junction}
    (hwords : ∀ before after, tokens = before ++ .word op :: after → depth before ≠ 0) :
    findFrom (word op) {} none (render tokens) = none := by
  obtain ⟨hnone, _⟩ | ⟨before, after, hsplit, hdepth, _⟩ | ⟨before, l, after, hsplit, hfield, _⟩ :=
    @findFrom_render op tokens h.writable 0 none
  · exact hnone
  · rw [Int.zero_add] at hdepth
    exact absurd hdepth (hwords before after hsplit)
  · have hreserved := hfree l (by rw [hsplit]; simp)
    rw [hfield] at hreserved
    cases op <;> cases hreserved

theorem not_prefix (h : Fragment tokens) (hfree : Unreserved tokens)
    (hhead : tokens.head? ≠ some .notWord) : ¬ ['n', 'o', 't', ' '] <+: render tokens := by
  obtain ⟨first, hfirst, hstarts⟩ := h.starts
  obtain ⟨rest, rfl⟩ := head?_eq_some_iff.mp hfirst
  cases first with
  | notWord => exact absurd rfl hhead
  | openParen => simp [text]
  | leaf l =>
    intro hstarts
    have hfield := (not_prefix_iff (h.writable _ mem_cons_self) (render rest)).mp hstarts
    have hreserved := hfree l mem_cons_self
    rw [hfield] at hreserved
    cases hreserved
  | closeParen => cases hstarts
  | word => cases hstarts

end Fragment

theorem find_connective {op : Junction} {left right : Cond}
    (h : (Cond.junction op left right).Writable) (hreadable : (Cond.junction op left right).Readable) :
    findFrom (word op) {} none (render (Cond.tokens (.junction op left right))) =
      some ((render left.operandOf).length + 1) := by
  have hfragment := Cond.fragment h
  have hfree := Cond.unreserved hreadable
  obtain ⟨_, hnowhere⟩ | ⟨before, after, hsplit, hdepth, hat⟩ |
      ⟨before, l, after, hsplit, hfield, _⟩ := @findFrom_render op _ hfragment.writable 0 none
  · have hbalanced : depth left.operandOf = 0 := ((Cond.fragment h.1).operand _).balanced
    exact absurd (by rw [hbalanced]; rfl) (hnowhere left.operandOf right.operandOf rfl)
  · rw [Int.zero_add] at hdepth
    obtain ⟨rfl, _⟩ := Cond.cut_unique h.1 h.2 hsplit hdepth
    exact hat
  · have hreserved := hfree l (by rw [hsplit]; simp)
    rw [hfield] at hreserved
    cases op <;> cases hreserved

/-- A readable predicate is read back. -/
theorem read_of_readable {c : Cond} (h : c.Writable) (hreadable : c.Readable) :
    predicate (render c.tokens) = .ok c.toPred := by
  induction c with
  | leaf l =>
    have hl : l.Writable := h
    have hfragment := fragment h
    have hfree := unreserved hreadable
    have hnone (op : Junction) : findFrom (word op) {} none (render (tokens (.leaf l))) =
        none := by
      refine hfragment.find_none hfree fun before after hsplit => ?_
      have hmem : Token.word op ∈ [Token.leaf l] := by
        rw [show [Token.leaf l] = _ from hsplit]
        simp
      simp at hmem
    have htext : render (tokens (.leaf l)) = l.text ++ [] := by simp [tokens, text]
    rw [hfragment.predicate_bare (fun hopen => by cases hopen), predicateStripped, if_neg]
    · have hor : findTopLevelKeyword (render (tokens (.leaf l))) "or".toList = none :=
        hnone .anyOf
      have hand : findTopLevelKeyword (render (tokens (.leaf l))) "and".toList = none :=
        hnone .allOf
      simp only [hor, hand]
      rw [htext, simplePredicate_leaf hl, append_nil]
      exact (comparison_leaf_iff hl).mpr hreadable.2
    · rw [ isPrefixOf_iff_prefix]
      exact hfragment.not_prefix hfree (by simp [tokens])
  | not kid ih =>
    have hkid : kid.Writable := h
    have hfragment := fragment h
    rw [hfragment.predicate_bare (fun hopen => by cases hopen), predicateStripped, if_pos]
    · have hdrop : (render (tokens (.not kid))).drop 4 = render kid.operandOf := rfl
      rw [hdrop, operandOf, (fragment hkid).predicate_operand, ih hkid hreadable]
      rfl
    · rw [ isPrefixOf_iff_prefix]
      exact ⟨render kid.operandOf, rfl⟩
  | junction op left right ihLeft ihRight =>
    have hfragment := fragment h
    have hfree := unreserved hreadable
    have hbalanced : depth left.operandOf = 0 := ((fragment h.1).operand _).balanced
    have hfound := find_connective h hreadable
    let tokens := tokens (.junction op left right)
    obtain ⟨hcutLeft, hcutRight⟩ := hfragment.predicate_cut hbalanced
    rw [(fragment h.1).predicate_operand, ihLeft h.1 hreadable.2.1] at hcutLeft
    rw [(fragment h.2).predicate_operand, ihRight h.2 hreadable.2.2] at hcutRight
    have hbare : tokens.head? = some .openParen → tokens.getLast? ≠ some .closeParen := by
      show (left.operandOf ++ .word op :: right.operandOf).head? = _ → _
      obtain ⟨_, _, _, hl⟩ | ⟨hleft, _⟩ := head?_operandOf left
      · simp [hl]
      · obtain ⟨_, _, _, hr⟩ | ⟨hright, _⟩ := head?_operandOf right
        · intro _
          show (left.operandOf ++ .word op :: right.operandOf).getLast? ≠ _
          simp [hr]
        · exact absurd ⟨hleft, hright⟩ hreadable.1
    have hhead : tokens.head? ≠ some .notWord := by
      show (left.operandOf ++ .word op :: right.operandOf).head? ≠ _
      obtain ⟨_, l, _, hl⟩ | ⟨_, hl⟩ := head?_operandOf left <;> simp [hl]
    rw [hfragment.predicate_bare hbare, predicateStripped, if_neg]
    · cases op with
      | anyOf =>
        have hor : findTopLevelKeyword (render tokens) "or".toList =
            some ((render left.operandOf).length + 1) := hfound
        simp only [tokens] at hor
        simp only [hor]
        exact bind_eq_ok.mpr ⟨_, hcutLeft, bind_eq_ok.mpr ⟨_, hcutRight, rfl⟩⟩
      | allOf =>
        have hor : findTopLevelKeyword (render tokens) "or".toList = none := by
          refine @Fragment.find_none _ hfragment hfree .anyOf fun before after hsplit hdepth => ?_
          obtain ⟨_, hother, _⟩ := cut_unique h.1 h.2 hsplit hdepth
          cases hother
        have hand : findTopLevelKeyword (render tokens) "and".toList =
            some ((render left.operandOf).length + 1) := hfound
        simp only [tokens] at hor hand
        simp only [hor, hand]
        exact bind_eq_ok.mpr ⟨_, hcutLeft, bind_eq_ok.mpr ⟨_, hcutRight, rfl⟩⟩
    · rw [ isPrefixOf_iff_prefix]
      exact hfragment.not_prefix hfree hhead

/-! ## The whole statement -/

/-- A printed predicate is parsed to the tree it was printed from exactly where it is readable. -/
theorem predicate_print_iff (c : Cond) (h : c.Writable) :
    predicate c.print = .ok c.toPred ↔ c.Readable := by
  rw [← Cond.render_tokens]
  exact ⟨readable_of_read h, read_of_readable h⟩

/-- `(a = "x" and b = "y") or (c = "z" and d = "w")`. -/
def twoGroups : Cond :=
  .junction .anyOf
    (.junction .allOf (.leaf (.compare .eq "a" "x")) (.leaf (.compare .eq "b" "y")))
    (.junction .allOf (.leaf (.compare .eq "c" "z")) (.leaf (.compare .eq "d" "w")))

/-- Two groups side by side are read as something else: their outer parentheses are taken for a
pair. -/
theorem twoGroups_not_read : twoGroups.Writable ∧
    (∀ value ∈ ["x", "y", "z", "w"], isTextual value.toList = true) ∧
    predicate twoGroups.print ≠ .ok twoGroups.toPred := by
  have hwritable : twoGroups.Writable :=
    ⟨⟨⟨by decide, by decide⟩, by decide, by decide⟩, ⟨by decide, by decide⟩, by decide, by decide⟩
  refine ⟨hwritable, by decide, ?_⟩
  rw [← Cond.render_tokens]
  exact not_read_of_compound hwritable rfl rfl

/-- `(a = "x, (y" and b in ["p", "or"]) or c ~= "z*"`. -/
def oneGroup : Cond :=
  .junction .anyOf
    (.junction .allOf (.leaf (.compare .eq "a" "x, (y")) (.leaf (.inList "b" "p" ["or"])))
    (.leaf (.compare .glob "c" "z*"))

/-- Commas, parentheses and connectives in values do not disturb the parser. -/
theorem predicate_print_iff_oneGroup :
    oneGroup.Writable ∧ predicate oneGroup.print = .ok oneGroup.toPred := by
  have hwritable : oneGroup.Writable :=
    ⟨⟨⟨by decide, by decide⟩, by decide, by decide⟩, by decide, by decide⟩
  refine ⟨hwritable, (predicate_print_iff oneGroup hwritable).mpr ?_⟩
  refine ⟨by decide, ⟨by decide, ⟨by decide, by decide, by decide, by decide⟩, by decide, ?_⟩,
    by decide, ?_⟩
  · show ∀ value ∈ ["p", "or"], '=' ∉ value.toList
    decide
  · show ¬ ['!', '='] <:+: "z*".toList
    decide

end CppIndexer.Query.Cxq
