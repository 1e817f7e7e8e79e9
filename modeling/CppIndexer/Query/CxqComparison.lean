/-
# Printed comparisons

`comparison` looks for its operators in a fixed order, in the whole text. A printed comparison is
read back exactly where no operator that is looked for first stands in its values, and no
value is taken for an integer or a truth value. A text that starts with something else than a
field, or has a parenthesis behind its values, gives no comparison that can be printed.
-/

import CppIndexer.Query.CxqPrint

namespace CppIndexer.Query.Cxq

open List Option Leaf

/-! ## Looking for operators -/

theorem find_some {pattern text : Text} {i : ℕ} (h : find pattern text = some i) :
    pattern <+: text.drop i := by
  induction text generalizing i with
  | nil => cases h
  | cons ch rest ih =>
    rw [find] at h
    split at h
    · rename_i hstarts
      cases h
      exact isPrefixOf_iff_prefix.mp hstarts
    · obtain ⟨_, hj, rfl⟩ := map_eq_some_iff.mp h
      exact ih hj

theorem find_none {pattern text : Text} (hpattern : pattern ≠ []) :
    find pattern text = none ↔ ¬ pattern <:+: text := by
  induction text with
  | nil => simp [find, hpattern]
  | cons ch rest ih =>
    rw [find]
    by_cases hstarts : pattern <+: ch :: rest
    · simp [ isPrefixOf_iff_prefix.mpr hstarts, hstarts.isInfix]
    · rw [if_neg (by simpa [ isPrefixOf_iff_prefix] using hstarts), map_eq_none_iff, ih, infix_cons_iff]
      simp [hstarts]

/-- A pattern is not found at characters that are not its first one. -/
theorem find_skip {first : Char} {more xs : Text} (h : first ∉ xs) (ys : Text) :
    find (first :: more) (xs ++ ys) = (find (first :: more) ys).map (· + xs.length) := by
  induction xs with
  | nil => simp
  | cons _ _ ih =>
    rw [mem_cons, not_or] at h
    obtain ⟨hne, hrest⟩ := h
    rw [cons_append, find, if_neg (by simp [hne]), ih hrest, Option.map_map]
    rfl

theorem find_here {pattern ys : Text} (hpattern : pattern ≠ []) :
    find pattern (pattern ++ ys) = some 0 := by
  obtain ⟨first, more, rfl⟩ := exists_cons_of_ne_nil hpattern
  rw [cons_append, find, if_pos]
  rw [ isPrefixOf_iff_prefix]
  exact prefix_append (first :: more) ys

/-- The operator that `comparison` finds in a text, and where. -/
inductive FirstOp (text : Text) : Text → CmpOp → ℕ → Prop
  | ne {i : ℕ} (found : find ['!', '='] text = some i) : FirstOp text ['!', '='] .ne i
  | glob {i : ℕ} (noNe : find ['!', '='] text = none) (found : find ['~', '='] text = some i) :
      FirstOp text ['~', '='] .glob i
  | eq {i : ℕ} (noNe : find ['!', '='] text = none) (noGlob : find ['~', '='] text = none)
      (found : find ['='] text = some i) : FirstOp text ['='] .eq i
  | inList {i : ℕ} (noNe : find ['!', '='] text = none) (noGlob : find ['~', '='] text = none)
      (noEq : find ['='] text = none) (found : find [' ', 'i', 'n', ' '] text = some i) :
      FirstOp text [' ', 'i', 'n', ' '] .inList i

theorem FirstOp.found {text sign : Text} {op : CmpOp} {i : ℕ} (h : FirstOp text sign op i) :
    sign <+: text.drop i := by
  cases h with
  | ne found | glob _ found | eq _ _ found | inList _ _ _ found => exact find_some found

attribute [local simp] comparisonOps

theorem comparison_of_firstOp {text sign : Text} {op : CmpOp} {i : ℕ} (htrim : trim text = text)
    (h : FirstOp text sign op i) : comparison text =
      if trim (text.take i) = [] then parseFail "missing predicate field"
      else compareText op (trim (text.take i)) (text.drop (i + sign.length)) := by
  rw [comparison, htrim]
  cases h with
  | ne found => simp [found]
  | glob noNe found => simp [noNe, found]
  | eq noNe noGlob found => simp [noNe, noGlob, found]
  | inList noNe noGlob noEq found => simp [noNe, noGlob, noEq, found]

/-- A comparison that is read has an operator. -/
theorem firstOp_of_comparison {text : Text} (htrim : trim text = text) {p : Pred}
    (h : comparison text = .ok p) : ∃ sign op i, FirstOp text sign op i := by
  cases hne : find ['!', '='] text with
  | some i => exact ⟨_, _, i, .ne hne⟩
  | none =>
    cases hglob : find ['~', '='] text with
    | some i => exact ⟨_, _, i, .glob hne hglob⟩
    | none =>
      cases heq : find ['='] text with
      | some i => exact ⟨_, _, i, .eq hne hglob heq⟩
      | none =>
        cases hin : find [' ', 'i', 'n', ' '] text with
        | some i => exact ⟨_, _, i, .inList hne hglob heq hin⟩
        | none =>
          rw [comparison, htrim] at h
          simp [hne, hglob, heq, hin, parseFail] at h

/-! ## Predicates that can be printed -/

def Clean (p : Pred) : Prop := ∃ c : Cond, c.Writable ∧ c.toPred = p

theorem Clean.of_junction {op : Junction} {p q : Pred} (h : Clean (.junction op [p, q])) :
    Clean p ∧ Clean q := by
  obtain ⟨c, hwritable, heq⟩ := h
  cases c with
  | leaf => cases heq
  | not => cases heq
  | junction _ left right =>
    cases heq
    exact ⟨⟨left, hwritable.1, rfl⟩, right, hwritable.2, rfl⟩

theorem Clean.of_not {p : Pred} (h : Clean (.not [p])) : Clean p := by
  obtain ⟨c, hwritable, heq⟩ := h
  cases c with
  | leaf => cases heq
  | junction => cases heq
  | not kid =>
    cases heq
    exact ⟨kid, hwritable, rfl⟩

theorem Clean.of_cmp {op : CmpOp} {field : String} {values : List String} {int : Option ℤ}
    (h : Clean (.cmp op field values int)) :
    isIdentifier field.toList = true ∧ (∀ value ∈ values, isPlain value.toList = true) ∧
      int = none := by
  obtain ⟨c, hwritable, heq⟩ := h
  cases c with
  | not => cases heq
  | junction => cases heq
  | leaf =>
    cases heq
    exact ⟨hwritable.1, hwritable.2, rfl⟩

/-- A comparison with a value that is printed again holds the value as text. -/
theorem compareValue_clean {op : CmpOp} {field value : Text}
    (h : Clean (compareValue op field value)) :
    compareValue op field value = .cmp op (String.ofList field) [String.ofList value] none := by
  have hint : ∀ int, ¬ Clean (if op = .eq then .cmp .eq (String.ofList field) [] (some int)
      else .not [.cmp .eq (String.ofList field) [] (some int)]) := by
    intro _ hclean
    split at hclean
    · cases hclean.of_cmp.2.2
    · cases hclean.of_not.of_cmp.2.2
  unfold compareValue at h ⊢
  dsimp only at h ⊢
  split
  · rename_i hglob
    rw [hglob]
  · rename_i hglob
    rw [if_neg hglob] at h
    split
    · rename_i hbool
      rw [if_pos hbool] at h
      exact absurd h (hint _)
    · rename_i hbool
      rw [if_neg hbool] at h
      split
      · rename_i int hinteger
        simp only [hinteger] at h
        exact absurd h (hint _)
      · rfl

/-- What a comparison that is printed again was read from. -/
theorem compareText_clean {op : CmpOp} {field rhs : Text} {p : Pred}
    (h : compareText op field rhs = .ok p) (hclean : Clean p) :
    ∃ values, p = .cmp op (String.ofList field) values none ∧
      isIdentifier field = true ∧ (∀ value ∈ values, isPlain value.toList = true) ∧
      if op = .inList then listValues rhs = .ok values else values = [String.ofList (atom rhs)] := by
  unfold compareText at h
  split at h
  · rename_i hop
    obtain ⟨values, hvalues, rfl⟩ := map_eq_ok.mp h
    obtain ⟨hfield, hplain, _⟩ := hclean.of_cmp
    rw [String.toList_ofList] at hfield
    exact ⟨values, by rw [hop], hfield, hplain, by rw [if_pos hop]; exact hvalues⟩
  · rename_i hop
    cases h
    have heq := compareValue_clean hclean
    rw [heq] at hclean
    obtain ⟨hfield, hplain, _⟩ := hclean.of_cmp
    rw [String.toList_ofList] at hfield
    exact ⟨_, heq, hfield, hplain, by rw [if_neg hop]⟩

/-- What a comparison that is printed again was read from, with its operator. -/
theorem comparison_clean {text : Text} (htrim : trim text = text) {p : Pred}
    (h : comparison text = .ok p) (hclean : Clean p) :
    ∃ sign op i, FirstOp text sign op i ∧ isIdentifier (trim (text.take i)) = true ∧
      compareText op (trim (text.take i)) (text.drop (i + sign.length)) = .ok p := by
  obtain ⟨sign, op, i, hfirst⟩ := firstOp_of_comparison htrim h
  rw [comparison_of_firstOp htrim hfirst] at h
  split at h
  · cases h
  · obtain ⟨_, _, hfield, _⟩ := compareText_clean h hclean
    exact ⟨sign, op, i, hfirst, hfield, h⟩

theorem FirstOp.head {text sign : Text} {op : CmpOp} {i : ℕ} (h : FirstOp text sign op i) :
    ∃ ch, (text.drop i).head? = some ch ∧ isIdentChar ch = false ∧ isDelimiter ch = false := by
  obtain ⟨_, hmore⟩ := h.found
  rw [← hmore]
  cases h <;> exact ⟨_, rfl, by decide, by decide⟩

/-- A text that starts with something else than a field is not read as a comparison. -/
theorem comparison_not_clean {start rest : Text} (hsolid : Solid start)
    (hstart : ∃ ch ∈ start, isIdentChar ch = false) (htrim : trim (start ++ rest) = start ++ rest)
    (hops : ∀ sign op i, FirstOp (start ++ rest) sign op i → i = 0 ∨ start.length ≤ i) {p : Pred}
    (h : comparison (start ++ rest) = .ok p) : ¬ Clean p := by
  intro hclean
  obtain ⟨sign, op, i, hfirst, hfield, _⟩ := comparison_clean htrim h hclean
  obtain rfl | hle := hops sign op i hfirst
  · simp [trim, isIdentifier] at hfield
  · have htake : (start ++ rest).take i = [] ++ start ++ rest.take (i - start.length) := by
      simp [take_append, take_of_length_le hle]
    obtain ⟨_, hkept⟩ := @trim_keeps [] start (by simp) hsolid (rest.take (i - start.length))
    rw [htake, hkept] at hfield
    obtain ⟨ch, hmem, hch⟩ := hstart
    have hident := isIdentChar_of_isIdentifier hfield ch (mem_append_left _ hmem)
    rw [hch] at hident
    cases hident

/-! ## Comparisons without their field -/

/-- What stands behind the field of a comparison. -/
def operandStarts : List Text := [['='], ['!'], ['~'], ['i', 'n', ' ', '[']]

theorem solid_operandStart {start : Text} (h : start ∈ operandStarts) : Solid start := by
  simp only [operandStarts, mem_cons, not_mem_nil, or_false] at h
  obtain rfl | rfl | rfl | rfl := h <;>
    exact ⟨⟨_, rfl, by decide⟩, _, rfl, by decide⟩

theorem findFrom_operandStart {op : Junction} {start : Text} (h : start ∈ operandStarts)
    (rest : Text) : ∃ scan prev, findFrom (word op) {} none (start ++ rest) =
      (findFrom (word op) scan prev rest).map (· + start.length) := by
  simp only [operandStarts, mem_cons, not_mem_nil, or_false] at h
  obtain rfl | rfl | rfl | rfl := h
  · exact ⟨_, _, findFrom_ordinary rfl (by decide) none rest⟩
  · exact ⟨_, _, findFrom_ordinary rfl (by decide) none rest⟩
  · exact ⟨_, _, findFrom_ordinary rfl (by decide) none rest⟩
  · have hin : ∀ ch ∈ ['i', 'n', ' '], isDelimiter ch = false ∧ ch ≠ 'a' ∧ ch ≠ 'o' := by decide
    have hbracket : Covered {} (some ' ') ['['] := ⟨by decide, trivial⟩
    have hfirst := @findFrom_ordinary {} _ op rfl hin none (['['] ++ rest)
    rw [show lastOf none ['i', 'n', ' '] = some ' ' from rfl, findFrom_covered hbracket,
      Option.map_map] at hfirst
    exact ⟨_, _, hfirst⟩

theorem comparison_operandStart {start rest : Text} (h : start ∈ operandStarts)
    (htrim : trim (start ++ rest) = start ++ rest) {p : Pred}
    (hp : comparison (start ++ rest) = .ok p) : ¬ Clean p := by
  have hsolid := solid_operandStart h
  simp only [operandStarts, mem_cons, not_mem_nil, or_false] at h
  have hone : ∀ i : ℕ, i = 0 ∨ 1 ≤ i := fun i => by omega
  obtain rfl | rfl | rfl | rfl := h
  · exact comparison_not_clean hsolid (by decide) htrim (fun _ _ i _ => hone i) hp
  · exact comparison_not_clean hsolid (by decide) htrim (fun _ _ i _ => hone i) hp
  · exact comparison_not_clean hsolid (by decide) htrim (fun _ _ i _ => hone i) hp
  · refine comparison_not_clean hsolid (by decide) htrim ?_ hp
    intro _ _ i hfirst
    obtain ⟨_, hch, hident, hdelimiter⟩ := hfirst.head
    -- No operator starts within `in [`.
    match i with
    | 0 => exact Or.inl rfl
    | 1 =>
      cases hch
      exact absurd hident (by decide)
    | 2 =>
      have hfound := hfirst.found
      cases hfirst <;> simp at hfound
    | 3 =>
      cases hch
      exact absurd hdelimiter (by decide)
    | i + 4 => exact Or.inr (by simp)

/-- Without a call in front, a text is read as a comparison. -/
theorem simplePredicate_eq {text : Text}
    (h : ∀ call ∈ callOps, ¬ call.1 ++ ['('] <+: text) : simplePredicate text = comparison text := by
  unfold simplePredicate
  split
  · rfl
  · rename_i hfound
    have hmem := mem_of_find?_eq_some hfound
    have hstarts := find?_some hfound
    exact absurd (by simpa [ isPrefixOf_iff_prefix] using hstarts) (h _ hmem)

/-- A text that has lost its field is not read as a predicate that can be printed. -/
theorem predicate_operandStart (expression : Text) {start rest : Text} (h : start ∈ operandStarts)
    (htext : trim expression = start ++ rest) {p : Pred} (hp : predicate expression = .ok p) :
    ¬ Clean p := by
  have hsolid : Solid (start ++ rest) := by
    rw [← htext]
    apply solid_trim
    rw [htext]
    obtain ⟨_, hch, _⟩ := (solid_operandStart h).head
    intro hnil
    rw [(append_eq_nil_iff.mp hnil).1] at hch
    cases hch
  have hheads : ∀ ch ∈ ['(', 'n', 'e', 'g'], (start ++ rest).head? ≠ some ch := by
    simp only [operandStarts, mem_cons, not_mem_nil, or_false] at h
    obtain rfl | rfl | rfl | rfl := h <;> simp
  have hstrip : stripParens (start ++ rest) = .ok (start ++ rest) := by
    rw [stripParens, dif_neg]
    · rfl
    · exact fun hparens => hheads '(' (by decide) hparens.2.1
  have hlength : (start ++ rest).length ≤ expression.length := by
    rw [← htext]
    exact length_trim_le expression
  -- A connective cuts the text behind its start, and the start stays in front.
  have hcut : ∀ op i, findFrom (word op) {} none (start ++ rest) = some i →
      ∀ left, predicate ((start ++ rest).take i) = .ok left → ¬ Clean left := by
    intro op _ hi _ hleft
    have hlt := findFrom_lt hi
    obtain ⟨_, _, hfind⟩ := @findFrom_operandStart op start h rest
    rw [hfind] at hi
    obtain ⟨j, _, rfl⟩ := map_eq_some_iff.mp hi
    have htake : (start ++ rest).take (j + start.length) = [] ++ start ++ rest.take j := by
      simp [take_append]
    obtain ⟨_, hkept⟩ := @trim_keeps [] start (by simp) (solid_operandStart h) (rest.take j)
    rw [htake] at hleft
    exact predicate_operandStart _ h hkept hleft
  rw [predicate_eq, htext, hstrip] at hp
  replace hp : predicateStripped (start ++ rest) = .ok p := hp
  unfold predicateStripped at hp
  rw [if_neg] at hp
  · split at hp
    · rename_i i hor
      obtain ⟨left, hleft, hp⟩ := ok_of_bind hp
      obtain ⟨_, _, hp⟩ := ok_of_bind hp
      cases hp
      exact fun hclean => hcut .anyOf i hor left hleft hclean.of_junction.1
    · split at hp
      · rename_i i hand
        obtain ⟨left, hleft, hp⟩ := ok_of_bind hp
        obtain ⟨_, _, hp⟩ := ok_of_bind hp
        cases hp
        exact fun hclean => hcut .allOf i hand left hleft hclean.of_junction.1
      · rw [simplePredicate_eq] at hp
        · exact comparison_operandStart h (trim_solid hsolid) hp
        · intro _ hmem
          simp only [callOps, mem_cons, not_mem_nil, or_false] at hmem
          rintro ⟨_, hmore⟩
          rw [← hmore] at hheads
          obtain rfl | rfl | rfl | rfl := hmem
          · exact hheads 'e' (by decide) rfl
          · exact hheads 'n' (by decide) rfl
          · exact hheads 'g' (by decide) rfl
          · simp only [operandStarts, mem_cons, not_mem_nil, or_false] at h
            obtain rfl | rfl | rfl | rfl := h <;> simp at hmore
  · rw [ isPrefixOf_iff_prefix]
    rintro ⟨_, hmore⟩
    rw [← hmore] at hheads
    exact hheads 'n' (by decide) rfl
termination_by expression.length
decreasing_by
  rw [← htake, length_take]
  omega

/-! ## Comparisons -/

namespace Leaf

variable {leaf : Leaf}

/-- The operator of a comparison as `comparison` looks for it. -/
def pattern : Leaf → Text
  | compare sign _ _ => sign.text
  | inList .. => [' ', 'i', 'n', ' ']

def position : Leaf → ℕ
  | compare _ field _ => field.toList.length + 1
  | inList field _ _ => field.toList.length

def behind (rest : Text) : Leaf → Text
  | compare .. => ' ' :: rest
  | inList .. => rest

theorem op_compare_ne (sign : Sign) (field value : String) :
    op (.compare sign field value) ≠ .inList := by
  cases sign <;> simp [op, Sign.op]

theorem solid_field (h : leaf.Writable) : Solid leaf.field.toList := by
  have hident := isIdentChar_of_isIdentifier h.1
  have hne : leaf.field.toList ≠ [] := by
    intro hnil
    have hid := h.1
    rw [hnil] at hid
    cases hid
  constructor
  · exact ⟨_, head?_eq_some_head hne, (ordinary_of_isIdentChar (hident _ (head_mem hne))).2.1⟩
  · exact ⟨_, getLast?_eq_some_getLast hne, (ordinary_of_isIdentChar (hident _ (getLast_mem hne))).2.1⟩

theorem head_append (rest : Text) :
    leaf.head ++ rest = leaf.field.toList ++ ' ' :: (leaf.sign ++ ' ' :: rest) := by
  simp [Leaf.head]

/-- An operator whose left side is a field is that of the comparison. -/
theorem eq_of_firstOp (h : leaf.Writable) {rest sign : Text} {op : CmpOp} {i : ℕ}
    (hfirst : FirstOp (leaf.head ++ rest) sign op i)
    (hident : isIdentifier (trim ((leaf.head ++ rest).take i)) = true) :
    sign = leaf.pattern ∧ op = leaf.op ∧ i = leaf.position := by
  rw [head_append] at hfirst hident
  have hfield := isIdentChar_of_isIdentifier h.1
  have hsolid := solid_field h
  have hnear : i < leaf.field.toList.length + 2 := by
    by_contra hfar
    obtain ⟨ch, more, hsign⟩ : ∃ ch more, leaf.sign = ch :: more := by
      cases leaf with
      | compare sign => cases sign <;> exact ⟨_, _, rfl⟩
      | inList => exact ⟨_, _, rfl⟩
    have hch : isSpace ch = false := (leaf.sign_ordinary ch (by simp [hsign])).2.1
    have hstart : Solid (leaf.field.toList ++ [' ', ch]) := by
      obtain ⟨first, hhead, hspace⟩ := hsolid.head
      exact ⟨⟨first, by simp [hhead], hspace⟩, ch, by simp [getLast?_append], hch⟩
    have htake : (leaf.field.toList ++ ' ' :: (leaf.sign ++ ' ' :: rest)).take i =
        [] ++ (leaf.field.toList ++ [' ', ch]) ++
          (more ++ ' ' :: rest).take (i - (leaf.field.toList.length + 2)) := by
      rw [hsign, nil_append]
      have hsplit : leaf.field.toList ++ ' ' :: (ch :: more ++ ' ' :: rest) =
          (leaf.field.toList ++ [' ', ch]) ++ (more ++ ' ' :: rest) := by simp
      rw [hsplit, take_append, take_of_length_le (by simp; omega)]
      simp
    obtain ⟨_, hkept⟩ := @trim_keeps [] _ (by simp) hstart
      ((more ++ ' ' :: rest).take (i - (leaf.field.toList.length + 2)))
    rw [htake, hkept] at hident
    have hblank := isIdentChar_of_isIdentifier hident ' ' (by simp)
    exact absurd hblank (by decide)
  have hbehind : leaf.field.toList.length ≤ i := by
    by_contra hinside
    rw [not_le] at hinside
    obtain ⟨ch, hch, hnot, _⟩ := hfirst.head
    rw [drop_append_of_le_length hinside.le] at hch
    have hne : leaf.field.toList.drop i ≠ [] := by simpa using hinside
    rw [head?_append_of_ne_nil _ hne] at hch
    have hmem : ch ∈ leaf.field.toList := mem_of_mem_drop (mem_of_head? hch)
    rw [hfield ch hmem] at hnot
    cases hnot
  have hfound := hfirst.found
  obtain rfl | rfl : i = leaf.field.toList.length ∨ i = leaf.field.toList.length + 1 := by omega
  · rw [drop_left] at hfound
    cases leaf with
    | compare sign => cases sign <;> cases hfirst <;> simp [sign, Sign.text] at hfound
    | inList =>
      cases hfirst with
      | inList => exact ⟨rfl, rfl, rfl⟩
      | ne | glob | eq => simp at hfound
  · rw [← drop_drop, drop_left, drop_one, tail_cons] at hfound
    cases leaf with
    | compare sign =>
      cases sign <;> cases hfirst <;>
        first
          | exact ⟨rfl, rfl, rfl⟩
          | simp [sign, Sign.text] at hfound
    | inList => cases hfirst <;> simp [sign] at hfound

theorem trim_take_position (h : leaf.Writable) (rest : Text) :
    trim ((leaf.head ++ rest).take leaf.position) = leaf.field.toList := by
  have hsolid := solid_field h
  rw [head_append]
  cases leaf with
  | compare sign field =>
    have htake : (field.toList ++ ' ' :: (sign.text ++ ' ' :: rest)).take (field.toList.length + 1) =
        [] ++ field.toList ++ [' '] := by
      rw [take_append, take_of_length_le (by omega)]
      simp
    exact (congrArg trim htake).trans (trim_pad (by simp) hsolid (by decide))
  | inList field first rest =>
    rw [show Leaf.position (.inList field first rest) = field.toList.length from rfl,
      show Leaf.field (.inList field first rest) = field from rfl, take_left]
    exact trim_solid hsolid

theorem drop_position (rest : Text) :
    (leaf.head ++ rest).drop (leaf.position + leaf.pattern.length) = leaf.behind rest := by
  rw [head_append]
  cases leaf with
  | compare sign field =>
    show (field.toList ++ ' ' :: (sign.text ++ ' ' :: rest)).drop
      (field.toList.length + 1 + sign.text.length) = ' ' :: rest
    rw [Nat.add_assoc, ← drop_drop, drop_left, ← drop_drop, drop_one, tail_cons, drop_left]
  | inList field =>
    show (field.toList ++ ' ' :: (['i', 'n'] ++ ' ' :: rest)).drop (field.toList.length + 4) = rest
    rw [← drop_drop, drop_left]
    rfl

end Leaf

/-- A comparison that is printed again has the operator and the field that it was printed with. -/
theorem comparison_leaf_clean {leaf : Leaf} (h : leaf.Writable) {rest : Text}
    (htrim : trim (leaf.head ++ rest) = leaf.head ++ rest) {p : Pred}
    (hp : comparison (leaf.head ++ rest) = .ok p) (hclean : Clean p) :
    FirstOp (leaf.head ++ rest) leaf.pattern leaf.op leaf.position ∧
      compareText leaf.op leaf.field.toList (leaf.behind rest) = .ok p := by
  obtain ⟨_, _, _, hfirst, hident, hcompare⟩ := comparison_clean htrim hp hclean
  obtain ⟨rfl, rfl, rfl⟩ := eq_of_firstOp h hfirst hident
  rw [trim_take_position h, drop_position] at hcompare
  exact ⟨hfirst, hcompare⟩

attribute [local simp] getLast?_cons

theorem solid_quote (value : String) : Solid (quote value) :=
  ⟨⟨_, rfl, by decide⟩, '\x22', by simp [quote], by decide⟩

theorem atom_quote {before : Text} (hbefore : ∀ ch ∈ before, isSpace ch = true) (value : String) :
    atom (before ++ quote value) = value.toList := by
  have htrim := trim_pad hbefore (solid_quote value) (by simp : ∀ ch ∈ [], isSpace ch = true)
  rw [append_nil] at htrim
  have hquoted : quoted (quote value) = true := by simp [quoted, quote]
  rw [atom, htrim, if_pos hquoted]
  simp [quote]

/-- A quote that something else follows is not removed. -/
theorem quote_mem_atom {before : Text} (hbefore : ∀ ch ∈ before, isSpace ch = true)
    (value : String) {ch : Char} (hch : isSpace ch = false) (after : Text) :
    '\x22' ∈ atom (before ++ (quote value ++ [ch]) ++ after) := by
  have hsolid : Solid (quote value ++ [ch]) :=
    ⟨⟨'\x22', by simp [quote], by decide⟩, ch, by simp, hch⟩
  obtain ⟨kept, hkept⟩ := trim_keeps hbefore hsolid after
  rw [atom, hkept]
  split
  · have hdrop : ((quote value ++ [ch] ++ kept).drop 1).dropLast =
        value.toList ++ '\x22' :: (ch :: kept).dropLast := by
      simp [quote]
    rw [hdrop]
    simp
  · simp [quote]

theorem splitFrom_first {delimiter : Char} {scan : Scan} {prev : Option Char} {part text : Text}
    {parts : List Text} (h : splitFrom delimiter scan prev part text = .ok parts) :
    ∃ more, trim (part ++ more) ∈ parts := by
  induction text generalizing scan prev part parts with
  | nil =>
    rw [splitFrom] at h
    split at h
    · cases h
      exact ⟨[], by simp⟩
    · cases h
  | cons ch _ ih =>
    rw [splitFrom] at h
    split at h
    · obtain ⟨_, _, rfl⟩ := map_eq_ok.mp h
      exact ⟨[], by simp⟩
    · obtain ⟨more, hmem⟩ := ih h
      rw [append_assoc] at hmem
      exact ⟨ch :: more, hmem⟩

section ListValues

variable {prev : Option Char} {before : Text} (hbefore : ∀ ch ∈ before, isSpace ch = true)

theorem splitFrom_quote {value : String} (hplain : isPlain value.toList) (part ys : Text) :
    splitFrom ',' {} prev part (quote value ++ ys) =
      splitFrom ',' {} (lastOf prev (quote value)) (part ++ quote value) ys := by
  obtain ⟨hcovered, hrun⟩ := @covered_quote {} rfl value hplain prev
  rw [splitFrom_covered hcovered, hrun]

/-- The comma between two values. -/
theorem splitFrom_comma (part ys : Text) : splitFrom ',' {} prev part (',' :: ' ' :: ys) =
    (splitFrom ',' {} (some ' ') [' '] ys).map (trim part :: ·) := by
  have hblank := @splitFrom_ordinary {} ',' [' '] rfl (by decide) (some ',') [] ys
  rw [splitFrom, if_pos (by decide)]
  exact congrArg (Except.map (trim part :: ·)) hblank

include hbefore in
theorem splitFrom_values {first : String} {rest : List String}
    (hfirst : isPlain first.toList) (hrest : ∀ value ∈ rest, isPlain value.toList) :
    splitFrom ',' {} prev before
        (quote first ++ rest.flatMap fun value => ',' :: ' ' :: quote value) =
      .ok ((first :: rest).map quote) := by
  have htrim (value : String) : trim (before ++ quote value) = quote value := by
    have hpad := trim_pad hbefore (solid_quote value) (by simp : ∀ ch ∈ [], isSpace ch = true)
    rwa [append_nil] at hpad
  induction rest generalizing first prev before with
  | nil =>
    have hsplit := @splitFrom_quote prev first hfirst before []
    rw [flatMap_nil, hsplit, splitFrom, if_pos rfl, htrim]
    rfl
  | cons value rest ih =>
    have hvalue := hrest value mem_cons_self
    have hmore : ∀ v ∈ rest, isPlain v.toList := fun v hv => hrest v (mem_cons_of_mem _ hv)
    have hblank : ∀ ch ∈ [' '], isSpace ch = true := by decide
    have hpad (v : String) : trim ([' '] ++ quote v) = quote v := by
      have hpad := trim_pad hblank (solid_quote v) (by simp : ∀ ch ∈ [], isSpace ch = true)
      rwa [append_nil] at hpad
    rw [flatMap_cons, splitFrom_quote hfirst, cons_append, cons_append,
      splitFrom_comma, ih hblank hvalue hmore hpad, htrim]
    rfl

include hbefore in
/-- A bracket behind a value stays with it. -/
theorem splitFrom_values_bracket {first : String} {rest : List String}
    (hfirst : isPlain first.toList) (hrest : ∀ value ∈ rest, isPlain value.toList) {ys : Text}
    {parts : List Text} (h : splitFrom ',' {} prev before
      (quote first ++ ((rest.flatMap fun value => ',' :: ' ' :: quote value) ++ ']' :: ys)) =
      .ok parts) : ∃ part ∈ parts, '\x22' ∈ atom part := by
  induction rest generalizing first prev before parts with
  | nil =>
    rw [flatMap_nil, nil_append, splitFrom_quote hfirst, splitFrom, if_neg (by decide)] at h
    obtain ⟨more, hmem⟩ := splitFrom_first h
    refine ⟨_, hmem, ?_⟩
    have hsolid : Solid (quote first ++ [']']) :=
      ⟨⟨'\x22', by simp [quote], by decide⟩, ']', by simp, by decide⟩
    obtain ⟨kept, hkept⟩ := trim_keeps hbefore hsolid more
    rw [append_assoc before, hkept]
    exact @quote_mem_atom [] (by simp) first ']' (by decide) kept
  | cons value _ ih =>
    rw [flatMap_cons, splitFrom_quote hfirst, cons_append, cons_append,
      cons_append, cons_append, splitFrom_comma] at h
    obtain ⟨_, hothers, rfl⟩ := map_eq_ok.mp h
    rw [append_assoc] at hothers
    obtain ⟨part, hmem, hquote⟩ := ih (by decide) (hrest value mem_cons_self)
      (fun v hv => hrest v (mem_cons_of_mem _ hv)) hothers
    exact ⟨part, mem_cons_of_mem _ hmem, hquote⟩

end ListValues

theorem not_isPlain_of_quote {value : Text} (h : '\x22' ∈ value) : isPlain value = false := by
  rw [Bool.eq_false_iff]
  intro hplain
  exact absurd (isPlain_iff.mp hplain _ h).1 (by decide)

variable {leaf : Leaf} {sign : Sign} {field value : String}

attribute [local simp] Leaf.literal

/-- A comparison with a parenthesis behind it is not read as one that can be printed. -/
theorem comparison_leaf_paren (h : leaf.Writable) {rest : Text}
    (htrim : trim (leaf.text ++ ')' :: rest) = leaf.text ++ ')' :: rest) {p : Pred}
    (hp : comparison (leaf.text ++ ')' :: rest) = .ok p) : ¬ Clean p := by
  intro hclean
  rw [text_eq, append_assoc] at htrim hp
  obtain ⟨_, hcompare⟩ := comparison_leaf_clean h htrim hp hclean
  obtain ⟨_, _, _, hplain, hvalues⟩ := compareText_clean hcompare hclean
  cases leaf with
  | compare sign field value =>
    rw [if_neg (op_compare_ne sign field value)] at hvalues
    have hquote : '\x22' ∈ atom ([' '] ++ (quote value ++ [')']) ++ rest) :=
      quote_mem_atom (by decide) value (by decide) rest
    have htext : behind (literal (.compare sign field value) ++ ')' :: rest)
        (.compare sign field value) = [' '] ++ (quote value ++ [')']) ++ rest := by
      simp [behind]
    rw [htext] at hvalues
    have hbad := hplain _ (hvalues ▸ mem_cons_self)
    rw [String.toList_ofList, not_isPlain_of_quote hquote] at hbad
    cases hbad
  | inList field first more =>
    rw [if_pos (show op (.inList field first more) = .inList from rfl)] at hvalues
    let inside := quote first ++ more.flatMap fun value => ',' :: ' ' :: quote value
    have hsolid : Solid ('[' :: (inside ++ [']', ')'])) :=
      ⟨⟨'[', rfl, by decide⟩, ')', by simp, by decide⟩
    obtain ⟨kept, hkept⟩ := @trim_keeps [] _ (by simp) hsolid rest
    have htext : behind (literal (.inList field first more) ++ ')' :: rest)
        (.inList field first more) = [] ++ ('[' :: (inside ++ [']', ')'])) ++ rest := by
      simp [behind, inside]
    rw [htext, listValues, hkept] at hvalues
    split at hvalues
    · cases hvalues
    · dsimp only at hvalues
      split at hvalues
      · cases hvalues
      · obtain ⟨_, hparts, rfl⟩ := map_eq_ok.mp hvalues
        have hinside : (('[' :: (inside ++ [']', ')']) ++ kept).drop 1).dropLast =
            quote first ++ ((more.flatMap fun value => ',' :: ' ' :: quote value) ++
              ']' :: (')' :: kept).dropLast) := by
          simp [inside]
        rw [hinside] at hparts
        obtain ⟨_, hmem, hquote⟩ := splitFrom_values_bracket (by simp)
          (h.2 first mem_cons_self) (fun v hv => h.2 v (mem_cons_of_mem _ hv)) hparts
        have hbad := hplain _ (List.mem_map_of_mem hmem)
        rw [String.toList_ofList, not_isPlain_of_quote hquote] at hbad
        cases hbad

theorem infix_quote {pattern : Text} (hpattern : '\x22' ∉ pattern) (hne : pattern ≠ [])
    (h : pattern <:+: value.toList ++ ['\x22']) : pattern <:+: value.toList := by
  rw [infix_concat_iff] at h
  obtain hsuffix | hinside := h
  · rw [suffix_concat_iff] at hsuffix
    obtain rfl | ⟨_, rfl, _⟩ := hsuffix
    · exact absurd rfl hne
    · simp at hpattern
  · exact hinside

attribute [local simp] Leaf.text Leaf.field Leaf.sign

/-- An operator other than the comparison's own stands in its value, if anywhere. -/
theorem find_none_of_value {first second : Char}
    (hfield : ∀ ch ∈ field.toList, isIdentChar ch = true) (hfirst : isIdentChar first = false)
    (hsign : first ∉ ' ' :: (sign.text ++ [' ', '\x22'])) (hsecond : second ≠ '\x22')
    (h : ¬ [first, second] <:+: value.toList) :
    find [first, second] (Leaf.text (.compare sign field value)) = none := by
  have hhead : first ∉ field.toList ++ ' ' :: (sign.text ++ [' ', '\x22']) := by
    rw [mem_append, not_or]
    exact ⟨fun hmem => ne_of_isIdentChar (hfield first hmem) hfirst rfl, hsign⟩
  have htext : Leaf.text (.compare sign field value) =
      (field.toList ++ ' ' :: (sign.text ++ [' ', '\x22'])) ++ (value.toList ++ ['\x22']) := by
    simp [quote]
  rw [htext, find_skip hhead, map_eq_none_iff, find_none (by simp)]
  intro hinside
  refine h (infix_quote ?_ (by simp) hinside)
  simp only [mem_cons, not_or, not_mem_nil, not_false_eq_true, and_true]
  refine ⟨?_, hsecond.symm⟩
  rintro rfl
  simp at hsign

theorem find_sign (hfield : ∀ ch ∈ field.toList, isIdentChar ch = true) :
    find sign.text (Leaf.text (.compare sign field value)) = some (field.toList.length + 1) := by
  have htext : Leaf.text (.compare sign field value) =
      (field.toList ++ [' ']) ++ (sign.text ++ ' ' :: quote value) := by
    simp
  have hhead : ∀ first, isIdentChar first = false → first ≠ ' ' → first ∉ field.toList ++ [' '] := by
    intro first hident hblank hmem
    rw [mem_append, mem_singleton] at hmem
    obtain hmem | rfl := hmem
    · exact ne_of_isIdentChar (hfield first hmem) hident rfl
    · exact hblank rfl
  have hskip : find sign.text ((field.toList ++ [' ']) ++ (sign.text ++ ' ' :: quote value)) =
      (find sign.text (sign.text ++ ' ' :: quote value)).map
        (· + (field.toList ++ [' ']).length) := by
    cases sign with
    | eq => exact find_skip (hhead '=' (by decide) (by decide)) _
    | ne => exact find_skip (hhead '!' (by decide) (by decide)) _
    | glob => exact find_skip (hhead '~' (by decide) (by decide)) _
  rw [htext, hskip, find_here (by cases sign <;> simp [Sign.text])]
  simp

/-- The operator of a readable comparison is the first one that is found. -/
theorem firstOp_leaf (h : leaf.Writable) (hreadable : leaf.ValuesReadable) :
    FirstOp leaf.text leaf.pattern leaf.op leaf.position := by
  have hfield := isIdentChar_of_isIdentifier h.1
  cases leaf with
  | compare sign field value =>
    cases sign with
    | eq =>
      obtain ⟨hne, hglob, _⟩ := hreadable
      exact .eq (find_none_of_value hfield (by decide) (by decide) (by decide) hne)
        (find_none_of_value hfield (by decide) (by decide) (by decide) hglob)
        (@find_sign .eq field value hfield)
    | ne => exact .ne (@find_sign .ne field value hfield)
    | glob =>
      exact .glob (find_none_of_value hfield (by decide) (by decide) (by decide) hreadable)
        (@find_sign .glob field value hfield)
  | inList field first rest =>
    have hnone : '=' ∉ Leaf.text (.inList field first rest) := by
      have hequals : ∀ value : String, '=' ∉ value.toList → '=' ∉ quote value := by
        intro _ hvalue
        simp [quote, hvalue]
      have hfirst := hequals first (hreadable first mem_cons_self)
      have hrest : '=' ∉ rest.flatMap fun value => ',' :: ' ' :: quote value := by
        simp only [mem_flatMap, mem_cons, not_exists, not_and, not_or]
        intro value hmem
        exact ⟨by decide, by decide, hequals value (hreadable value (mem_cons_of_mem _ hmem))⟩
      have hname : '=' ∉ field.toList := fun hmem =>
        ne_of_isIdentChar (hfield '=' hmem) (by decide) rfl
      simp [hname, hfirst, hrest]
    have habsent : ∀ pattern : Text, '=' ∈ pattern →
        find pattern (Leaf.text (.inList field first rest)) = none := by
      intro _ hmem
      rw [find_none (ne_nil_of_mem hmem)]
      exact fun hinside => hnone (hinside.subset hmem)
    refine .inList (habsent _ (by decide)) (habsent _ (by decide)) (habsent _ (by decide)) ?_
    have htext : Leaf.text (.inList field first rest) = field.toList ++
        ([' ', 'i', 'n', ' '] ++ Leaf.literal (.inList field first rest)) := by
      simp
    have hblank : ' ' ∉ field.toList := fun hmem =>
      ne_of_isIdentChar (hfield ' ' hmem) (by decide) rfl
    rw [htext, find_skip hblank, find_here (by simp)]
    simp [Leaf.position]

/-- A value is kept as text exactly where it is neither a truth value nor an integer. -/
theorem compareValue_eq_text (hsign : sign ≠ .glob) {field value : Text} :
    compareValue sign.op field value =
        .cmp sign.op (String.ofList field) [String.ofList value] none ↔ isTextual value = true := by
  have hop : sign.op ≠ .glob := by cases sign <;> simp_all [Sign.op]
  unfold compareValue isTextual
  dsimp only
  rw [if_neg hop]
  by_cases hbool : value = "true".toList ∨ value = "false".toList
  · rw [if_pos hbool]
    constructor
    · intro heq
      split at heq <;> simp at heq
    · intro htext
      simp only [Bool.and_eq_true, decide_eq_true_eq] at htext
      exact absurd hbool (not_or.mpr htext.1)
  · rw [if_neg hbool]
    rw [not_or] at hbool
    cases hinteger : integer value with
    | none =>
      simp only [Bool.and_eq_true, decide_eq_true_eq, true_iff]
      exact ⟨hbool, trivial⟩
    | some =>
      constructor
      · intro heq
        dsimp only at heq
        split at heq <;> simp at heq
      · intro htext
        simp at htext

theorem listValues_literal {first : String} {rest : List String}
    (h : Leaf.Writable (.inList field first rest)) :
    listValues (literal (.inList field first rest)) = .ok (first :: rest) := by
  let inside := quote first ++ rest.flatMap fun value => ',' :: ' ' :: quote value
  have hsolid : Solid ('[' :: (inside ++ [']'])) :=
    ⟨⟨'[', rfl, by decide⟩, ']', by simp, by decide⟩
  have hsplit : splitTopLevel inside ',' = .ok ((first :: rest).map quote) :=
    @splitFrom_values none [] (by simp) first rest (h.2 first mem_cons_self)
      fun v hv => h.2 v (mem_cons_of_mem _ hv)
  have hinside : (('[' :: (inside ++ [']'])).drop 1).dropLast = inside := by simp
  have hnotEmpty : trim inside ≠ [] := by
    obtain ⟨_, hkept⟩ := @trim_keeps [] _ (by simp) (solid_quote first)
      (rest.flatMap fun value => ',' :: ' ' :: quote value)
    rw [show inside = [] ++ quote first ++ _ from rfl, hkept]
    simp [quote]
  show listValues ('[' :: (inside ++ [']'])) = _
  rw [listValues, trim_solid hsolid, if_neg (by simp)]
  simp only [hinside, if_neg hnotEmpty, hsplit, Except.map, List.map_map]
  have hvalue : ∀ value ∈ first :: rest,
      ((fun part => String.ofList (atom part)) ∘ quote) value = id value := by
    intro value _
    have hatom := @atom_quote [] (by simp) value
    simp only [Function.comp, nil_append, id] at hatom ⊢
    rw [hatom, String.ofList_toList]
  rw [map_congr_left hvalue, List.map_id]

theorem Leaf.solid_text (h : leaf.Writable) : Solid leaf.text := by
  obtain ⟨ch, hhead, hident⟩ := head?_text h
  refine ⟨⟨ch, hhead, (ordinary_of_isIdentChar hident).2.1⟩, ?_⟩
  obtain hquote | hbracket := leaf.getLast?_text
  · exact ⟨_, hquote, by decide⟩
  · exact ⟨_, hbracket, by decide⟩

/-- The comparison of a field with the values behind its operator. -/
theorem compareText_literal_iff (h : leaf.Writable) :
    compareText leaf.op leaf.field.toList (leaf.behind leaf.literal) = .ok leaf.toPred ↔
      match leaf with
      | .compare .glob _ _ => True
      | .compare _ _ value => isTextual value.toList = true
      | .inList .. => True := by
  cases leaf with
  | compare sign field value =>
    have hatom : atom (Leaf.behind (quote value) (.compare sign field value)) = value.toList :=
      @atom_quote [' '] (by decide) value
    rw [compareText, if_neg (Leaf.op_compare_ne sign field value),
      show Leaf.literal (.compare sign field value) = quote value from rfl, hatom]
    have htext := fun hsign => @compareValue_eq_text sign hsign field.toList value.toList
    rw [String.ofList_toList, String.ofList_toList] at htext
    cases sign with
    | eq | ne => exact Iff.trans (by rw [Except.ok.injEq]; rfl) (htext (by decide))
    | glob =>
      simp [compareValue, Leaf.op, Sign.op, Leaf.toPred, Leaf.values]
  | inList field first rest =>
    rw [compareText, if_pos (show Leaf.op (.inList field first rest) = .inList from rfl)]
    show Except.map _ (listValues (Leaf.literal (.inList field first rest))) = _ ↔ True
    rw [listValues_literal h]
    simp [Except.map, Leaf.toPred, Leaf.op, Leaf.values]

/-- A comparison is read as it is printed exactly where its values are readable. -/
theorem comparison_leaf_iff (h : leaf.Writable) :
    comparison leaf.text = .ok leaf.toPred ↔ leaf.ValuesReadable := by
  have htrim := trim_solid (Leaf.solid_text h)
  have hliteral := compareText_literal_iff h
  rw [Leaf.text_eq] at htrim
  constructor
  · intro hread
    rw [Leaf.text_eq] at hread
    obtain ⟨hfirst, hcompare⟩ := comparison_leaf_clean h htrim hread ⟨.leaf leaf, h, rfl⟩
    rw [← Leaf.text_eq] at hfirst
    rw [hliteral] at hcompare
    cases leaf with
    | compare sign field value =>
      have hinside : value.toList <:+: Leaf.text (.compare sign field value) :=
        ⟨field.toList ++ ' ' :: (sign.text ++ [' ', '\x22']), ['\x22'], by
          simp [quote]⟩
      have habsent : ∀ pattern : Text, pattern ≠ [] →
          find pattern (Leaf.text (.compare sign field value)) = none →
            ¬ pattern <:+: value.toList := by
        intro _ hpattern hnone hpart
        exact (find_none hpattern).mp hnone (hpart.trans hinside)
      cases sign with
      | eq =>
        have hfound : FirstOp _ ['='] .eq _ := hfirst
        cases hfound with
        | eq noNe noGlob _ =>
          exact ⟨habsent _ (by simp) noNe, habsent _ (by simp) noGlob, hcompare⟩
      | ne => exact hcompare
      | glob =>
        have hfound : FirstOp _ ['~', '='] .glob _ := hfirst
        cases hfound with
        | glob noNe _ => exact habsent _ (by simp) noNe
    | inList field first rest =>
      have hfound : FirstOp _ [' ', 'i', 'n', ' '] .inList _ := hfirst
      cases hfound with
      | inList _ _ noEq _ =>
        rw [find_none (by simp)] at noEq
        intro value hmem hequals
        have htext : '=' ∈ Leaf.text (.inList field first rest) := by
          cases hmem with
          | head => simp [quote, hequals]
          | tail _ hmem =>
            have hrest : '=' ∈ rest.flatMap fun value => ',' :: ' ' :: quote value :=
              mem_flatMap.mpr ⟨value, hmem, by simp [quote, hequals]⟩
            simp [hrest]
        obtain ⟨before, after, hsplit⟩ := append_of_mem htext
        exact noEq ⟨before, after, by rw [hsplit]; simp⟩
  · intro hreadable
    have hfirst := firstOp_leaf h hreadable
    rw [Leaf.text_eq] at hfirst ⊢
    rw [comparison_of_firstOp htrim hfirst, Leaf.trim_take_position h, Leaf.drop_position, if_neg,
      hliteral]
    · cases leaf with
      | compare sign =>
        cases sign with
        | eq => exact hreadable.2.2
        | ne => exact hreadable
        | glob => trivial
      | inList => trivial
    · intro hnil
      obtain ⟨_, hhead, _⟩ := (Leaf.solid_field h).head
      rw [hnil] at hhead
      cases hhead

end CppIndexer.Query.Cxq
