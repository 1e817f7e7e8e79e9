/-
# Texts that both parsers read alike

The helpers of the two parsers differ at three kinds of places: a separator that only `str.isspace` takes
for a blank, a quote behind two backslashes, and an integer of more digits than `int` takes. On a text
without such a place every helper returns the same, and the joint reading goes through to its end.
-/

import CppIndexer.Query.CxqAgreement
import CppIndexer.Query.CxqPrint

namespace CppIndexer.Query

open Cxq (Text isQuote)
open List Option PythonCxq CxqJoint

/-! ## Plain texts -/

/-- A blank of Python that is none of C++. -/
def isSeparator (ch : Char) : Bool := ch ∈ ['\x1c', '\x1d', '\x1e', '\x1f']

/-- A text without the places at which the helpers differ. -/
structure PlainText (text : Text) : Prop where
  blanks : ∀ ch ∈ text, isSeparator ch = false
  escapes : ∀ quote, isQuote quote = true → ¬['\\', '\\', quote] <:+: text
  digits : ∀ run, run <:+: text → run.all Char.isDigit = true → run.length ≤ PythonCxq.maxStrDigits

namespace PlainText

variable {text piece : Text}

section

variable (h : PlainText text)
include h

theorem of_piece (hpiece : piece <:+: text) : PlainText piece := by
  constructor
  · exact fun ch hch => h.blanks ch (hpiece.subset hch)
  · exact fun quote hquote hescape => h.escapes quote hquote (hescape.trans hpiece)
  · exact fun run hrun hdigits => h.digits run (hrun.trans hpiece) hdigits

theorem take (n : ℕ) : PlainText (text.take n) :=
  h.of_piece ( take_prefix n text).isInfix

theorem drop (n : ℕ) : PlainText (text.drop n) :=
  h.of_piece (drop_suffix n text).isInfix

theorem inside (n : ℕ) : PlainText ((text.drop n).dropLast) :=
  (h.drop n).of_piece ( dropLast_prefix _).isInfix

theorem trim : PlainText (Cxq.trim text) := by
  have hfront := rdropWhile_prefix Cxq.isSpace (text.dropWhile Cxq.isSpace)
  exact h.of_piece (hfront.isInfix.trans (dropWhile_suffix Cxq.isSpace).isInfix)

end

end PlainText

/-! ## Blanks -/

theorem isSpace_eq (ch : Char) : PythonCxq.isSpace ch = (Cxq.isSpace ch || isSeparator ch) := by
  rw [Bool.eq_iff_iff]
  simp only [PythonCxq.isSpace, Cxq.isSpace, isSeparator, Bool.or_eq_true, decide_eq_true_eq,
    mem_cons, not_mem_nil, or_false]
  tauto

theorem isSpace_plain {ch : Char} (h : isSeparator ch = false) : PythonCxq.isSpace ch = Cxq.isSpace ch := by
  rw [isSpace_eq, h, Bool.or_false]

variable {text : Text}

theorem dropWhile_plain (h : ∀ ch ∈ text, isSeparator ch = false) :
    text.dropWhile PythonCxq.isSpace = text.dropWhile Cxq.isSpace := by
  induction text with
  | nil => rfl
  | cons ch _ ih =>
    rw [dropWhile_cons, dropWhile_cons, isSpace_plain (h ch mem_cons_self),
      ih fun x hx => h x (mem_cons_of_mem _ hx)]

theorem trim_plain (h : ∀ ch ∈ text, isSeparator ch = false) : PythonCxq.trim text = Cxq.trim text := by
  unfold PythonCxq.trim Cxq.trim
  rw [dropWhile_plain h, List.rdropWhile, List.rdropWhile, dropWhile_plain]
  intro ch hch
  rw [mem_reverse] at hch
  exact h ch ((dropWhile_suffix Cxq.isSpace).subset hch)

/-! ## Scans -/

/-- The two scans stand at the same place behind `before`. Python's escapes when the last character is a
backslash, unless that one is escaped itself. -/
structure ScansAlike (before : Text) (scan : Cxq.Scan) (pythonScan : PythonCxq.Scan) : Prop where
  parens : pythonScan.parens = scan.parens
  brackets : pythonScan.brackets = scan.brackets
  quote : pythonScan.quote = scan.quote
  quotes : ∀ quote, scan.quote = some quote → isQuote quote = true
  outside : scan.quote = none → pythonScan.escaped = false
  escaped : pythonScan.escaped = true → before.getLast? = some '\\'
  pair : scan.quote ≠ none → before.getLast? = some '\\' → pythonScan.escaped = false →
    ['\\', '\\'] <:+ before

namespace ScansAlike

variable {before : Text} {scan : Cxq.Scan} {pythonScan : PythonCxq.Scan}

theorem initial : ScansAlike [] {} {} := by
  constructor
  · rfl
  · rfl
  · rfl
  · exact nofun
  · exact fun _ => rfl
  · exact nofun
  · exact fun h => absurd rfl h

theorem atTop (h : ScansAlike before scan pythonScan) (ch : Char) :
    pythonScan.atTop ch = scan.atTop ch := by
  unfold PythonCxq.Scan.atTop Cxq.Scan.atTop
  rw [h.quote, h.parens, h.brackets]

theorem of_outside (hparens : pythonScan.parens = scan.parens)
    (hbrackets : pythonScan.brackets = scan.brackets) (hquote : scan.quote = none)
    (hpython : pythonScan.quote = none) (hescaped : pythonScan.escaped = false) :
    ScansAlike before scan pythonScan := by
  constructor
  · exact hparens
  · exact hbrackets
  · exact hpython.trans hquote.symm
  · intro _ hs
    rw [hquote] at hs
    cases hs
  · exact fun _ => hescaped
  · intro htrue
    rw [hescaped] at htrue
    cases htrue
  · exact fun hs => absurd hquote hs

section

variable (h : ScansAlike before scan pythonScan)
include h

theorem step_inside {quote ch : Char}
    (hquote : scan.quote = some quote) (hplain : ¬['\\', '\\', quote] <:+ before ++ [ch]) :
    ScansAlike (before ++ [ch]) (scan.step before.getLast? ch) (pythonScan.step ch) := by
  have hq := h.quotes quote hquote
  have hpython : pythonScan.quote = some quote := h.quote.trans hquote
  have hne : quote ≠ '\\' := by
    rintro rfl
    exact absurd hq (by decide)
  -- the quote closes on both sides or on neither
  have hclose : ch = quote → (before.getLast? ≠ some '\\' ↔ pythonScan.escaped = false) := by
    rintro rfl
    constructor
    · intro hlast
      rw [← Bool.not_eq_true]
      exact fun hescaped => hlast (h.escaped hescaped)
    · intro hescaped hlast
      obtain ⟨init, rfl⟩ := h.pair (by rw [hquote]; simp) hlast hescaped
      exact hplain ⟨init, by simp⟩
  unfold Cxq.Scan.step PythonCxq.Scan.step
  rw [hquote, hpython]
  dsimp only
  by_cases hch : ch = quote
  · subst hch
    have hnot : (decide (ch = '\\') && !pythonScan.escaped) = false := by simp [hne]
    by_cases hlast : before.getLast? = some '\\'
    · have hescaped : ¬pythonScan.escaped = false := fun hfalse => ((hclose rfl).mpr hfalse) hlast
      rw [if_neg (by simp [hlast]), if_neg (by simp [hescaped]), hnot]
      constructor
      · exact h.parens
      · exact h.brackets
      · exact hquote.symm
      · exact fun q hs => h.quotes q hs
      · exact fun _ => rfl
      · exact nofun
      · intro _ hend _
        rw [getLast?_concat] at hend
        exact absurd (some.inj hend) hne
    · have hescaped := (hclose rfl).mp hlast
      rw [if_pos ⟨rfl, hlast⟩, if_pos ⟨rfl, hescaped⟩, hnot]
      constructor
      · exact h.parens
      · exact h.brackets
      · rfl
      · exact nofun
      · exact fun _ => rfl
      · exact nofun
      · exact fun hs => absurd rfl hs
  · rw [if_neg (by simp [hch]), if_neg (by simp [hch])]
    constructor
    · exact h.parens
    · exact h.brackets
    · exact hquote.symm
    · exact fun q hs => h.quotes q hs
    · intro hs
      rw [hquote] at hs
      cases hs
    · intro hescaped
      rw [Bool.and_eq_true, decide_eq_true_eq] at hescaped
      rw [getLast?_concat, hescaped.1]
    · intro _ hend hescaped
      rw [getLast?_concat] at hend
      obtain rfl := some.inj hend
      have htrue : pythonScan.escaped = true := by simpa using hescaped
      obtain ⟨init, rfl⟩ := getLast?_eq_some_iff.mp (h.escaped htrue)
      exact ⟨init, by simp⟩

theorem step_outside (hquote : scan.quote = none) (ch : Char) :
    ScansAlike (before ++ [ch]) (scan.step before.getLast? ch) (pythonScan.step ch) := by
  have hpython : pythonScan.quote = none := h.quote.trans hquote
  have hescaped := h.outside hquote
  unfold Cxq.Scan.step PythonCxq.Scan.step
  rw [hquote, hpython]
  cases hch : isQuote ch with
  | true =>
    rw [if_pos rfl, if_pos rfl]
    have hne : ch ≠ '\\' := by
      rintro rfl
      exact absurd hch (by decide)
    constructor
    · exact h.parens
    · exact h.brackets
    · rfl
    · intro _ hs
      cases hs
      exact hch
    · exact nofun
    · intro htrue
      rw [hescaped] at htrue
      cases htrue
    · intro _ hend _
      rw [getLast?_concat] at hend
      exact absurd (some.inj hend) hne
  | false =>
    rw [if_neg Bool.false_ne_true, if_neg Bool.false_ne_true]
    by_cases hopen : ch = '('
    · rw [if_pos hopen, if_pos hopen]
      exact of_outside (congrArg (· + 1) h.parens) h.brackets rfl rfl hescaped
    rw [if_neg hopen, if_neg hopen]
    by_cases hclose : ch = ')'
    · rw [if_pos hclose, if_pos hclose]
      exact of_outside (congrArg (· - 1) h.parens) h.brackets rfl rfl hescaped
    rw [if_neg hclose, if_neg hclose]
    by_cases hleft : ch = '['
    · rw [if_pos hleft, if_pos hleft]
      exact of_outside h.parens (congrArg (· + 1) h.brackets) rfl rfl hescaped
    rw [if_neg hleft, if_neg hleft]
    by_cases hright : ch = ']'
    · rw [if_pos hright, if_pos hright]
      exact of_outside h.parens (congrArg (· - 1) h.brackets) rfl rfl hescaped
    · rw [if_neg hright, if_neg hright]
      exact of_outside h.parens h.brackets hquote hpython hescaped

theorem step {ch : Char} {rest : Text}
    (hplain : PlainText (before ++ ch :: rest)) :
    ScansAlike (before ++ [ch]) (scan.step before.getLast? ch) (pythonScan.step ch) := by
  cases hquote : scan.quote with
  | none => exact h.step_outside hquote ch
  | some quote =>
    refine h.step_inside hquote fun hescape => hplain.escapes quote (h.quotes quote hquote) ?_
    have hfront : before ++ [ch] <+: before ++ ch :: rest := ⟨rest, by simp⟩
    exact hescape.isInfix.trans hfront.isInfix

/-- The scans end balanced on both sides or on neither. -/
theorem balanced :
    scan = {} ↔ ¬(pythonScan.quote.isSome ∨ pythonScan.parens ≠ 0 ∨ pythonScan.brackets ≠ 0) := by
  rw [h.quote, h.parens, h.brackets, isSome_iff_ne_none, not_or, not_or, not_not, not_not, not_not]
  obtain ⟨_, _⟩ := scan
  rw [Cxq.Scan.mk.injEq]
  exact ⟨fun ⟨hparens, hbrackets, hquote⟩ => ⟨hquote, hparens, hbrackets⟩,
    fun ⟨hquote, hparens, hbrackets⟩ => ⟨hparens, hbrackets, hquote⟩⟩

end

end ScansAlike

/-! ## The helpers -/

theorem python_step_ordinary {scan : PythonCxq.Scan} (hquote : scan.quote = none) {ch : Char}
    (hch : Cxq.isDelimiter ch = false) : scan.step ch = scan := by
  simp only [Cxq.isDelimiter, Bool.or_eq_false_iff, decide_eq_false_iff_not, mem_cons, not_or,
    not_mem_nil, not_false_eq_true, and_true] at hch
  simp [PythonCxq.Scan.step, hquote, hch]

theorem splitFrom_plain {delimiter : Char} {before part text : Text} {scan : Cxq.Scan}
    {pythonScan : PythonCxq.Scan} (h : ScansAlike before scan pythonScan)
    (hplain : PlainText (before ++ text)) (hpart : ∀ ch ∈ part, isSeparator ch = false) :
    PythonCxq.splitFrom delimiter pythonScan part text =
      Cxq.splitFrom delimiter scan before.getLast? part text := by
  induction text generalizing before part scan pythonScan with
  | nil =>
    rw [PythonCxq.splitFrom, Cxq.splitFrom, trim_plain hpart]
    by_cases hbalanced : scan = {}
    · rw [if_pos hbalanced, if_neg (h.balanced.mp hbalanced)]
    · rw [if_neg hbalanced, if_pos (not_not.mp (mt h.balanced.mpr hbalanced))]
  | cons ch rest ih =>
    have hstep := h.step hplain
    have hmore : before ++ ch :: rest = before ++ [ch] ++ rest := by simp
    rw [hmore] at hplain
    have hlast : (before ++ [ch]).getLast? = some ch := getLast?_concat
    rw [PythonCxq.splitFrom, Cxq.splitFrom, h.atTop, trim_plain hpart]
    by_cases hcut : scan.atTop ch = true ∧ ch = delimiter
    · rw [if_pos hcut, if_pos hcut]
      have htop := hcut.1
      simp only [Cxq.Scan.atTop, Bool.and_eq_true, decide_eq_true_eq, Bool.not_eq_true'] at htop
      rw [Cxq.step_ordinary htop.1.1.1 htop.1.1.2,
        python_step_ordinary (h.quote.trans htop.1.1.1) htop.1.1.2] at hstep
      have hsplit := @ih (before ++ [ch]) [] _ _ hstep hplain (by simp)
      rw [hlast] at hsplit
      rw [hsplit]
    · rw [if_neg hcut, if_neg hcut]
      have hsplit := @ih (before ++ [ch]) (part ++ [ch]) _ _ hstep hplain ?_
      · rw [hlast] at hsplit
        exact hsplit
      · intro x hx
        rw [mem_append, mem_singleton] at hx
        cases hx with
        | inl hmem => exact hpart x hmem
        | inr heq =>
          subst heq
          exact hplain.blanks x (by simp)

theorem split_plain (h : PlainText text) (delimiter : Char) :
    split text delimiter = Cxq.splitTopLevel text delimiter :=
  splitFrom_plain ScansAlike.initial h nofun

theorem keywordAt_plain {keyword text : Text} {prev : Option Char}
    (hprev : ∀ ch, prev = some ch → isSeparator ch = false) (h : ∀ ch ∈ text, isSeparator ch = false) :
    PythonCxq.keywordAt keyword prev text = Cxq.keywordAt keyword prev text := by
  have hall : ∀ found : Option Char, (∀ ch, found = some ch → isSeparator ch = false) →
      found.all PythonCxq.isSpace = found.all Cxq.isSpace := by
    intro found hfound
    cases found with
    | none => rfl
    | some ch => exact isSpace_plain (hfound ch rfl)
  unfold PythonCxq.keywordAt Cxq.keywordAt
  rw [hall prev hprev, hall, Bool.and_comm (prev.all Cxq.isSpace)]
  intro ch hch
  exact h ch (mem_of_mem_drop (mem_of_mem_head? hch))

theorem findFrom_plain {keyword before text : Text} {scan : Cxq.Scan} {pythonScan : PythonCxq.Scan}
    (h : ScansAlike before scan pythonScan) (hplain : PlainText (before ++ text)) :
    PythonCxq.findFrom keyword pythonScan before.getLast? text =
      Cxq.findFrom keyword scan before.getLast? text := by
  induction text generalizing before scan pythonScan with
  | nil => rfl
  | cons ch rest ih =>
    have hstep := h.step hplain
    have hmore : before ++ ch :: rest = before ++ [ch] ++ rest := by simp
    have hlast : (before ++ [ch]).getLast? = some ch := getLast?_concat
    have hfind := @ih (before ++ [ch]) _ _ hstep (by rwa [← hmore])
    rw [hlast] at hfind
    rw [PythonCxq.findFrom, Cxq.findFrom, h.atTop, hfind, keywordAt_plain]
    · intro x hx
      exact hplain.blanks x (mem_append_left _ (mem_of_mem_getLast? hx))
    · intro x hx
      exact hplain.blanks x (mem_append_right _ hx)

theorem findKeyword_plain (h : PlainText text) (keyword : Text) :
    PythonCxq.findKeyword text keyword = Cxq.findTopLevelKeyword text keyword :=
  findFrom_plain ScansAlike.initial h

theorem atom_plain (h : PlainText text) : PythonCxq.atom text = Cxq.atom text := by
  unfold PythonCxq.atom Cxq.atom
  rw [trim_plain h.blanks]
  have hquoted : ∀ value : Text, (2 ≤ value.length ∧ value.head? = value.getLast? ∧
      value.head?.any isQuote = true) ↔ Cxq.quoted value = true := by
    intro value
    unfold Cxq.quoted isQuote
    cases value.head? with
    | none => cases value.getLast? <;> simp
    | some =>
      cases value.getLast? with
      | none => simp
      | some =>
        simp only [any_some, some.injEq, Bool.or_eq_true, Bool.and_eq_true, decide_eq_true_eq]
        constructor
        · rintro ⟨hlength, rfl, hq⟩
          exact ⟨hlength, hq.imp (fun h => ⟨h, h⟩) fun h => ⟨h, h⟩⟩
        · rintro ⟨hlength, ⟨hfirst, hlast⟩ | ⟨hfirst, hlast⟩⟩
          · exact ⟨hlength, hfirst.trans hlast.symm, Or.inl hfirst⟩
          · exact ⟨hlength, hfirst.trans hlast.symm, Or.inr hfirst⟩
  by_cases hq : Cxq.quoted (Cxq.trim text) = true
  · rw [if_pos ((hquoted _).mpr hq), if_pos hq]
  · rw [if_neg (mt (hquoted _).mp hq), if_neg hq]

theorem int_plain (h : PlainText text) : int text = Cxq.integer text := by
  unfold int Cxq.integer
  rw [trim_plain h.blanks]
  dsimp only
  have hdigits : ∀ digits, digits <:+: Cxq.trim text → digits.all Char.isDigit = true →
      ¬maxStrDigits < digits.length :=
    fun digits hinfix hall => not_lt.mpr (h.trim.digits digits hinfix hall)
  have hdrop : (if (Cxq.trim text).head? = some '-' then (Cxq.trim text).drop 1 else Cxq.trim text) <:+:
      Cxq.trim text := by
    split
    · exact (drop_suffix 1 _).isInfix
    · exact infix_rfl
  generalize (if (Cxq.trim text).head? = some '-' then (Cxq.trim text).drop 1 else Cxq.trim text) =
    digits at hdrop ⊢
  by_cases hshape : digits = [] ∨ ¬digits.all Char.isDigit = true
  · rw [if_pos hshape, if_pos hshape]
  · rw [if_neg hshape, if_neg hshape]
    rw [not_or, not_not] at hshape
    rw [if_neg (hdigits digits hdrop hshape.2)]
    generalize (if (Cxq.trim text).head? = some '-' then _ else _ : ℤ) = number
    by_cases hrange : -2 ^ 63 ≤ number ∧ number < 2 ^ 63
    · rw [if_pos hrange, if_neg (by omega)]
    · rw [if_neg hrange, if_pos (by omega)]

/-! ## Lists -/

section

variable {blanks : Text} (hblanks : ∀ ch ∈ blanks, Cxq.isSpace ch = true)

include hblanks

theorem trim_blanks_append (text : Text) : Cxq.trim (blanks ++ text) = Cxq.trim text := by
  unfold Cxq.trim
  rw [dropWhile_append_of_pos hblanks]

theorem trim_append_blanks (text : Text) : Cxq.trim (text ++ blanks) = Cxq.trim text := by
  unfold Cxq.trim
  have hdrop : ∀ kept : Text, (kept ++ blanks).rdropWhile Cxq.isSpace = kept.rdropWhile Cxq.isSpace := by
    intro _
    rw [List.rdropWhile, reverse_append, dropWhile_append_of_pos, List.rdropWhile]
    exact fun ch hch => hblanks ch (mem_reverse.mp hch)
  rw [dropWhile_append]
  by_cases hempty : (text.dropWhile Cxq.isSpace).isEmpty = true
  · have hnone : blanks.dropWhile Cxq.isSpace = [] := dropWhile_eq_nil_iff.mpr hblanks
    rw [if_pos hempty, hnone, List.isEmpty_iff.mp hempty]
  · rw [if_neg hempty, hdrop]

/-- Blanks in front of a part are trimmed with it. -/
theorem splitFrom_blanks_part {delimiter : Char} {scan : Cxq.Scan} {prev : Option Char} {part text : Text} :
    Cxq.splitFrom delimiter scan prev (blanks ++ part) text = Cxq.splitFrom delimiter scan prev part text := by
  induction text generalizing scan prev part with
  | nil => rw [Cxq.splitFrom, Cxq.splitFrom, trim_blanks_append hblanks]
  | cons _ _ ih =>
    rw [Cxq.splitFrom, Cxq.splitFrom, trim_blanks_append hblanks, append_assoc, ih]

end

variable {delimiter : Char} {scan : Cxq.Scan} {parts : List Text} {prev : Option Char}
  {text part : Text}

theorem step_blank (hquotes : ∀ quote, scan.quote = some quote → isQuote quote = true)
    {ch : Char} (hch : Cxq.isSpace ch = true) (prev : Option Char) : scan.step prev ch = scan := by
  have hall : ∀ blank ∈ [' ', '\t', '\n', '\x0b', '\x0c', '\r'],
      Cxq.isDelimiter blank = false ∧ isQuote blank = false := by decide
  obtain ⟨hdelimiter, hquote⟩ := hall ch (of_decide_eq_true hch)
  cases hscan : scan.quote with
  | none => exact Cxq.step_ordinary hscan hdelimiter prev
  | some quote =>
    have hne : ch ≠ quote := by
      rintro rfl
      rw [hquotes ch hscan] at hquote
      cases hquote
    unfold Cxq.Scan.step
    rw [hscan]
    exact if_neg fun h => hne h.1

theorem splitFrom_only_blanks (hdelimiter : Cxq.isSpace delimiter = false)
    (hquotes : ∀ quote, scan.quote = some quote → isQuote quote = true)
    {blanks : Text} (hblanks : ∀ ch ∈ blanks, Cxq.isSpace ch = true) :
    Cxq.splitFrom delimiter scan prev part blanks = Cxq.splitFrom delimiter scan prev part [] := by
  induction blanks generalizing prev part with
  | nil => rfl
  | cons ch rest ih =>
    have hch := hblanks ch mem_cons_self
    have hne : ch ≠ delimiter := by
      rintro rfl
      rw [hch] at hdelimiter
      cases hdelimiter
    have hblank : ∀ x ∈ [ch], Cxq.isSpace x = true := by
      intro _ hx
      rwa [mem_singleton.mp hx]
    have hcons : Cxq.splitFrom delimiter scan prev part (ch :: rest) =
        Cxq.splitFrom delimiter scan (some ch) (part ++ [ch]) rest := by
      rw [Cxq.splitFrom, if_neg fun h => hne h.2, step_blank hquotes hch]
    rw [hcons, ih fun x hx => hblanks x (mem_cons_of_mem _ hx), Cxq.splitFrom, Cxq.splitFrom,
      trim_append_blanks hblank]

theorem isQuote_step (hquotes : ∀ quote, scan.quote = some quote → isQuote quote = true)
    (prev : Option Char) (ch quote : Char) (h : (scan.step prev ch).quote = some quote) :
    isQuote quote = true := by
  unfold Cxq.Scan.step at h
  split at h
  · split at h
    · cases h
    · exact hquotes quote h
  · rename_i hnone
    split at h
    · rename_i hch
      cases h
      exact hch
    · repeat' split at h
      all_goals exact hquotes quote h

/-- Blanks at the end are trimmed with the last part. -/
theorem splitFrom_append_blanks {delimiter : Char} (hdelimiter : Cxq.isSpace delimiter = false)
    {blanks : Text} (hblanks : ∀ ch ∈ blanks, Cxq.isSpace ch = true) {scan : Cxq.Scan}
    {prev : Option Char} {part text : Text}
    (hquotes : ∀ quote, scan.quote = some quote → isQuote quote = true) :
    Cxq.splitFrom delimiter scan prev part (text ++ blanks) =
      Cxq.splitFrom delimiter scan prev part text := by
  induction text generalizing scan prev part with
  | nil => exact splitFrom_only_blanks hdelimiter hquotes hblanks
  | cons ch _ ih =>
    rw [cons_append, Cxq.splitFrom, Cxq.splitFrom, ih hquotes, ih (isQuote_step hquotes prev ch)]

/-- The character before is looked at in quotes only. -/
theorem splitFrom_prev (hquote : scan.quote = none) (prev prev' : Option Char) (part text : Text) :
    Cxq.splitFrom delimiter scan prev part text = Cxq.splitFrom delimiter scan prev' part text := by
  cases text with
  | nil => rfl
  | cons ch =>
    have hstep : scan.step prev ch = scan.step prev' ch := by
      unfold Cxq.Scan.step
      rw [hquote]
    rw [Cxq.splitFrom, Cxq.splitFrom, hstep]

/-- Every part stands in the text. -/
theorem mem_splitFrom (h : Cxq.splitFrom delimiter scan prev part text = .ok parts) :
    ∀ found ∈ parts, found <:+: part ++ text := by
  have htrim : ∀ text : Text, Cxq.trim text <:+: text := fun text =>
    ( rdropWhile_prefix Cxq.isSpace _).isInfix.trans (dropWhile_suffix Cxq.isSpace).isInfix
  induction text generalizing scan prev part parts with
  | nil =>
    rw [Cxq.splitFrom] at h
    split at h
    · cases h
      intro _ hfound
      rw [mem_singleton] at hfound
      rw [hfound, append_nil]
      exact htrim part
    · cases h
  | cons ch rest ih =>
    rw [Cxq.splitFrom] at h
    split at h
    · obtain ⟨_, hlater, rfl⟩ := map_eq_ok.mp h
      intro found hfound
      rw [mem_cons] at hfound
      cases hfound with
      | inl heq =>
        rw [heq]
        exact (htrim part).trans (prefix_append part _).isInfix
      | inr hmem =>
        have hsuffix : rest <:+ part ++ ch :: rest := ⟨part ++ [ch], by simp⟩
        exact (ih hlater found hmem).trans hsuffix.isInfix
    · intro found hfound
      have hmem := ih h found hfound
      rwa [append_assoc] at hmem

theorem mem_splitTopLevel
    (h : Cxq.splitTopLevel text delimiter = .ok parts) : ∀ part ∈ parts, part <:+: text :=
  mem_splitFrom h

/-- A text between blanks. -/
theorem trim_spec (text : Text) : ∃ before after, text = before ++ Cxq.trim text ++ after ∧
    (∀ ch ∈ before, Cxq.isSpace ch = true) ∧ ∀ ch ∈ after, Cxq.isSpace ch = true := by
  refine ⟨text.takeWhile Cxq.isSpace, (text.dropWhile Cxq.isSpace).rtakeWhile Cxq.isSpace, ?_, ?_, ?_⟩
  · rw [Cxq.trim, append_assoc, rdropWhile_append_rtakeWhile, takeWhile_append_dropWhile]
  · exact fun ch hch => mem_takeWhile_imp hch
  · exact fun ch hch => mem_rtakeWhile_imp hch

theorem splitTopLevel_trim (hdelimiter : Cxq.isSpace delimiter = false) (text : Text) :
    Cxq.splitTopLevel (Cxq.trim text) delimiter = Cxq.splitTopLevel text delimiter := by
  obtain ⟨before, after, htext, hbefore, hafter⟩ := trim_spec text
  have hordinary : ∀ ch ∈ before, Cxq.isDelimiter ch = false ∧ ch ≠ delimiter := by
    intro ch hch
    have hall : ∀ blank ∈ [' ', '\t', '\n', '\x0b', '\x0c', '\r'], Cxq.isDelimiter blank = false := by
      decide
    constructor
    · exact hall ch (of_decide_eq_true (hbefore ch hch))
    · rintro rfl
      rw [hbefore ch hch] at hdelimiter
      cases hdelimiter
  have hlead := @Cxq.splitFrom_ordinary {} delimiter before rfl hordinary none [] (Cxq.trim text ++ after)
  have htrail := @splitFrom_append_blanks delimiter hdelimiter after hafter {} (Cxq.lastOf none before) []
    (Cxq.trim text) nofun
  conv_rhs => rw [htext]
  unfold Cxq.splitTopLevel
  rw [append_assoc, hlead, nil_append, ← append_nil before, splitFrom_blanks_part hbefore,
    append_nil, htrail]
  exact splitFrom_prev rfl _ _ _ _

theorem trim_trim (text : Text) : Cxq.trim (Cxq.trim text) = Cxq.trim text := by
  obtain ⟨_, _, htext, hbefore, hafter⟩ := trim_spec text
  conv_rhs => rw [htext, append_assoc, trim_blanks_append hbefore, trim_append_blanks hafter]

theorem list_plain (h : PlainText text) : list text = Cxq.listValues text := by
  unfold list Cxq.listValues
  rw [trim_plain h.blanks]
  dsimp only
  by_cases hshape : (Cxq.trim text).length < 2 ∨ (Cxq.trim text).head? ≠ some '[' ∨
      (Cxq.trim text).getLast? ≠ some ']'
  · rw [if_pos hshape, if_pos hshape]
  · rw [if_neg hshape, if_neg hshape]
    have hinside : PlainText (((Cxq.trim text).drop 1).dropLast) := h.trim.inside 1
    rw [trim_plain hinside.blanks, split_plain hinside.trim, splitTopLevel_trim (by decide)]
    by_cases hempty : Cxq.trim (((Cxq.trim text).drop 1).dropLast) = []
    · rw [if_pos hempty, if_pos hempty]
    · rw [if_neg hempty, if_neg hempty]
      cases hparts : Cxq.splitTopLevel (((Cxq.trim text).drop 1).dropLast) ',' with
      | error => rfl
      | ok parts =>
        have hatoms : ∀ part ∈ parts, PythonCxq.atom part = Cxq.atom part := fun part hpart =>
          atom_plain (hinside.of_piece (mem_splitTopLevel hparts part hpart))
        exact congrArg Except.ok (map_congr_left fun part hpart => by rw [hatoms part hpart])

theorem call_plain {token : Text} (h : PlainText token) (name : Text) :
    call token name = Cxq.callParts token name := by
  unfold call Cxq.callParts
  rw [trim_plain h.blanks]
  dsimp only
  have hshape : (¬(name ++ ['(']).isPrefixOf (Cxq.trim token) = true ∨
      (Cxq.trim token).getLast? ≠ some ')' ∨ (Cxq.trim token).length ≤ name.length + 1) ↔
      ¬(name ++ ['(']).isPrefixOf (Cxq.trim token) = true ∨ (Cxq.trim token).getLast? ≠ some ')' := by
    constructor
    · rintro (hfront | hlast | hlength)
      · exact Or.inl hfront
      · exact Or.inr hlast
      · by_cases hfront : (name ++ ['(']).isPrefixOf (Cxq.trim token) = true
        · right
          have hwhole := ( isPrefixOf_iff_prefix.mp hfront).eq_of_length_le (by simpa using hlength)
          rw [← hwhole, getLast?_concat]
          decide
        · exact Or.inl hfront
    · rintro (hfront | hlast)
      · exact Or.inl hfront
      · exact Or.inr (Or.inl hlast)
  have hinside : PlainText (((Cxq.trim token).drop (name.length + 1)).dropLast) := h.trim.inside _
  rw [trim_plain hinside.blanks, split_plain hinside]
  by_cases hbad : ¬(name ++ ['(']).isPrefixOf (Cxq.trim token) = true ∨
      (Cxq.trim token).getLast? ≠ some ')'
  · rw [if_pos hbad, if_pos (hshape.mpr hbad)]
  · rw [if_neg hbad, if_neg (mt hshape.mp hbad)]

/-! ## Depths -/

/-- `str.split` cuts at what `find` finds. -/
theorem splitDots_eq (part text : Text) : splitDots part text =
    match Cxq.find "..".toList text with
    | none => [part ++ text]
    | some i => (part ++ text.take i) :: splitDots [] (text.drop (i + 2)) := by
  fun_induction splitDots part text with
  | case1 part rest ih =>
    have hfind : Cxq.find "..".toList ('.' :: '.' :: rest) = some 0 := by
      rw [Cxq.find, if_pos (by simp)]
    rw [hfind]
    simp
  | case2 part ch rest hdots ih =>
    have hnot : ¬"..".toList.isPrefixOf (ch :: rest) = true := by
      intro hfront
      rw [ isPrefixOf_iff_prefix] at hfront
      obtain ⟨more, hmore⟩ := hfront
      exact hdots more (cons.inj hmore).1.symm (cons.inj hmore).2.symm
    rw [ih, Cxq.find, if_neg hnot]
    cases Cxq.find "..".toList rest with
    | none => simp
    | some => simp
  | case3 part => simp [Cxq.find]

theorem integer_of_point (h : '.' ∈ text) : Cxq.integer text = none := by
  have htrim : '.' ∈ Cxq.trim text := by
    obtain ⟨_, _, htext, hbefore, hafter⟩ := trim_spec text
    rw [htext, mem_append, mem_append] at h
    obtain (hmem | hmem) | hmem := h
    · exact absurd (hbefore _ hmem) (by decide)
    · exact hmem
    · exact absurd (hafter _ hmem) (by decide)
  have hpoint : '.' ∈ (if (Cxq.trim text).head? = some '-' then (Cxq.trim text).drop 1
      else Cxq.trim text) := by
    split
    · rename_i hhead
      obtain ⟨_, hrest⟩ := head?_eq_some_iff.mp hhead
      rw [hrest] at htrim ⊢
      simpa using htrim
    · exact htrim
  unfold Cxq.integer
  rw [if_pos]
  right
  intro hall
  exact absurd (List.all_eq_true.mp hall _ hpoint) (by decide)

theorem find_point {i : ℕ} (h : Cxq.find "..".toList text = some i) : '.' ∈ text := by
  induction text generalizing i with
  | nil => cases h
  | cons ch rest ih =>
    rw [Cxq.find] at h
    split at h
    · rename_i hfront
      exact ( isPrefixOf_iff_prefix.mp hfront).subset (by simp)
    · obtain ⟨_, hj, _⟩ := map_eq_some_iff.mp h
      exact mem_cons_of_mem _ (ih hj)

theorem splitDots_cons (part text : Text) : ∃ first rest, splitDots part text = first :: rest := by
  rw [splitDots_eq]
  cases Cxq.find "..".toList text with
  | none => exact ⟨_, [], rfl⟩
  | some => exact ⟨_, _, rfl⟩

theorem depthArgs_plain {args : List Text} (h : ∀ arg ∈ args, PlainText arg) :
    PythonCxq.depthArgs args = Cxq.depthArgs args := by
  match args, h with
  | [], _ => rfl
  | [_], _ => rfl
  | [_, first, second], h =>
    unfold PythonCxq.depthArgs Cxq.depthArgs
    dsimp only
    rw [int_plain (h first (by simp)), int_plain (h second (by simp))] <;>
      cases Cxq.integer first <;> cases Cxq.integer second <;> rfl
  | _ :: _ :: _ :: _ :: _, _ => rfl
  | [_, depth], h =>
    have hdepth := h depth (by simp)
    unfold PythonCxq.depthArgs Cxq.depthArgs
    dsimp only
    by_cases hfront : "depth=".toList.isPrefixOf depth = true
    · rw [if_pos hfront, if_pos hfront, splitDots_eq]
      cases hfind : Cxq.find "..".toList (depth.drop 6) with
      | none =>
        rw [nil_append, map_cons, map_nil]
        cases int (depth.drop 6) <;> rfl
      | some dots =>
        have hlow : PlainText ((depth.drop 6).take dots) := (hdepth.drop 6).take dots
        have hhigh : PlainText ((depth.drop 6).drop (dots + 2)) := (hdepth.drop 6).drop (dots + 2)
        dsimp only
        rw [nil_append, splitDots_eq]
        cases hmore : Cxq.find "..".toList ((depth.drop 6).drop (dots + 2)) with
        | none =>
          rw [map_cons, map_cons, map_nil, nil_append, int_plain hlow, int_plain hhigh]
          cases Cxq.integer ((depth.drop 6).take dots) <;>
            cases Cxq.integer ((depth.drop 6).drop (dots + 2)) <;> rfl
        | some more =>
          -- three bounds or more on the one side, a bound with a point on the other
          obtain ⟨_, _, hrest⟩ :=
            splitDots_cons [] (((depth.drop 6).drop (dots + 2)).drop (more + 2))
          rw [integer_of_point (find_point hmore)]
          dsimp only
          rw [hrest, map_cons, map_cons, map_cons]
          cases Cxq.integer ((depth.drop 6).take dots) <;>
            cases int ((depth.drop 6).take dots) <;>
              cases int ([] ++ ((depth.drop 6).drop (dots + 2)).take more) <;> rfl
    · rw [if_neg hfront, if_neg hfront, int_plain hdepth] <;> cases Cxq.integer depth <;> rfl

/-! ## The joint reading goes through -/

namespace CxqJoint

open Stop (Through through_ok through_refused through_both through_same)

variable {args : List Text} {token out expression name text : Text}

theorem through_value (op : CmpOp) (h : PlainText text) : Through (value op text) := by
  unfold value
  split
  · exact through_ok _
  · exact (through_same (int_plain h)).bind fun _ _ => through_ok _

theorem through_compareText (op : CmpOp) {pythonText : Text} (h : PlainText text)
    (hpython : PlainText pythonText) (htrim : Cxq.trim pythonText = Cxq.trim text) :
    Through (compareText op text pythonText) := by
  have hlist : Cxq.listValues pythonText = Cxq.listValues text := by
    unfold Cxq.listValues
    rw [htrim]
  have hatom : Cxq.atom pythonText = Cxq.atom text := by
    unfold Cxq.atom
    rw [htrim]
  unfold compareText
  split
  · exact (through_both ((list_plain hpython).trans hlist)).map
  · refine (through_same ((atom_plain hpython).trans hatom)).bind fun found hfound => ?_
    rw [Stop.eq_of_same hfound]
    apply through_value op
    unfold Cxq.atom
    dsimp only
    split
    · exact h.trim.inside 1
    · exact h.trim

theorem through_comparison (h : PlainText text) : Through (comparison text) := by
  unfold comparison
  split
  · exact through_refused
  · rename_i sign op i _
    refine (through_same (trim_plain (h.take i).blanks)).bind fun field _ => ?_
    dsimp only
    split
    · exact through_refused
    · have hrhs := h.drop (i + sign.length)
      rw [trim_plain hrhs.blanks]
      exact through_compareText op hrhs hrhs.trim (trim_trim _)

theorem args_plain (h : PlainText token)
    (hargs : Cxq.callParts token name = .ok args) : ∀ arg ∈ args, PlainText arg := by
  unfold Cxq.callParts at hargs
  dsimp only at hargs
  split at hargs
  · cases hargs
  · split at hargs
    · cases hargs
      exact nofun
    · exact fun arg hmem =>
        (h.trim.inside (name.length + 1)).of_piece (mem_splitTopLevel hargs arg hmem)

theorem both_eq_ok {x y : Except String (List Text)} {parts : List Text}
    (h : Stop.both x y = .ok parts) : x = .ok parts := by
  obtain ⟨_, _, ha, _, rfl, _⟩ := (Stop.Meets.both x y).read parts h
  exact ha

theorem through_callArgs (op : CmpOp) (h : ∀ arg ∈ args, PlainText arg) : Through (callArgs op args) := by
  match args, h with
  | [], _ | [_], _ | _ :: _ :: _ :: _, _ => exact through_refused
  | [field, value], h =>
    refine (through_same (atom_plain (h field (by simp)))).bind fun _ _ => ?_
    exact through_compareText op (h value (by simp)) (h value (by simp)) rfl

theorem through_simplePredicate (h : PlainText text) (htrim : Cxq.trim text = text) :
    Through (simplePredicate text) := by
  unfold simplePredicate
  split
  · refine (through_same htrim.symm).bind fun found hfound => ?_
    rw [Stop.eq_of_same hfound, htrim]
    exact through_comparison h
  · rename_i name op _
    refine (through_both (call_plain h name)).bind fun args hargs => ?_
    exact through_callArgs op (args_plain h (both_eq_ok hargs))

theorem through_stripParens (h : PlainText text) : Through (stripParens text) := by
  fun_induction stripParens text with
  | case1 text hparens inside ih =>
    have hinside : PlainText inside := h.inside 1
    have hcount : partCount (split inside ',') = partCount (Cxq.splitTopLevel inside ',') := by
      rw [split_plain hinside]
    refine (through_both hcount).bind fun count _ => ?_
    split
    · exact through_ok _
    · exact (through_same (trim_plain hinside.blanks)).bind fun _ _ => ih hinside.trim
  | case2 text hparens => exact through_ok _

theorem plain_stripParens (h : PlainText text) (htrim : Cxq.trim text = text)
    (hout : stripParens text = .ok out) : PlainText out ∧ Cxq.trim out = out := by
  fun_induction stripParens text with
  | case1 text hparens inside ih =>
    obtain ⟨_, _, hout⟩ := ok_of_bind hout
    split at hout
    · cases hout
      exact ⟨h, htrim⟩
    · obtain ⟨_, _, hout⟩ := ok_of_bind hout
      exact ih (h.inside 1).trim (trim_trim _) hout
  | case2 text hparens =>
    cases hout
    exact ⟨h, htrim⟩

theorem through_stripped (h : PlainText expression) : Through (stripped expression) :=
  (through_same (trim_plain h.blanks)).bind fun _ _ => through_stripParens h.trim

theorem plain_stripped (h : PlainText expression)
    (hout : stripped expression = .ok out) : PlainText out ∧ Cxq.trim out = out := by
  obtain ⟨_, _, hout⟩ := ok_of_bind hout
  exact plain_stripParens h.trim (trim_trim expression) hout

theorem through_findKeyword (h : PlainText text) (keyword : Text) : Through (findKeyword text keyword) :=
  through_same (findKeyword_plain h keyword)

theorem through_predicate (h : PlainText expression) : Through (predicate expression) := by
  fun_induction predicate expression with
  | case1 expression stop hstrip =>
    exact (through_stripped h).ofError hstrip
  | case2 expression text hstrip hnot ih => exact ih ((plain_stripped h hstrip).1.drop 4)
  | case3 expression text hstrip hnot stop hor =>
    exact (through_findKeyword (plain_stripped h hstrip).1 _).ofError hor
  | case4 expression text hstrip hnot i hor ihleft ihright =>
    have hplain := (plain_stripped h hstrip).1
    exact (ihleft (hplain.take i)).bind fun _ _ => (ihright (hplain.drop (i + 2))).bind fun _ _ =>
      through_ok _
  | case5 expression text hstrip hnot hor stop hand =>
    exact (through_findKeyword (plain_stripped h hstrip).1 _).ofError hand
  | case6 expression text hstrip hnot hor i hand ihleft ihright =>
    have hplain := (plain_stripped h hstrip).1
    exact (ihleft (hplain.take i)).bind fun _ _ => (ihright (hplain.drop (i + 3))).bind fun _ _ =>
      through_ok _
  | case7 expression text hstrip hnot hor hand =>
    have hplain := plain_stripped h hstrip
    exact through_simplePredicate hplain.1 hplain.2

theorem through_atoms (h : ∀ arg ∈ args, PlainText arg) : Through (atoms args) := by
  apply through_same
  exact map_congr_left fun arg harg => by rw [atom_plain (h arg harg)]

theorem through_stageArgs (head : Cxq.Head) (h : ∀ arg ∈ args, PlainText arg) :
    Through (stageArgs head args) := by
  unfold stageArgs
  split
  · exact through_ok _
  · exact (through_predicate (h _ (by simp))).map
  · exact (through_predicate (h _ (by simp))).map
  · refine (through_same (atom_plain (h _ (by simp)))).bind fun level _ => ?_
    split
    · exact through_ok _
    · exact through_refused
  · refine (through_both (depthArgs_plain h)).bind fun _ _ => ?_
    exact (through_same (atom_plain (h _ (by simp)))).bind fun _ _ => through_ok _
  · exact through_ok _
  · exact (through_atoms h).bind fun _ _ => through_ok _
  · exact (through_atoms h).bind fun _ _ => through_ok _
  · exact through_ok _
  · exact through_ok _
  · exact through_ok _
  · refine (through_same (int_plain (h _ (by simp)))).bind fun number _ => ?_
    split
    · exact through_ok _
    · exact through_refused
  · exact through_refused

theorem through_written (h : PlainText token) : Through (written token) := by
  refine (through_same (trim_plain h.blanks)).bind fun value hvalue => ?_
  rw [Stop.eq_of_same hvalue]
  split
  · exact through_refused
  · split
    · exact through_refused
    · rename_i name head _
      refine (through_both (call_plain h.trim name)).bind fun args hargs => ?_
      exact through_stageArgs head (args_plain h.trim (both_eq_ok hargs))

theorem sourceArgs_plain {kind : SourceKind} (h : ∀ arg ∈ args, PlainText arg) :
    PythonCxq.sourceArgs name kind args = Cxq.sourceArgs name kind args := by
  unfold PythonCxq.sourceArgs Cxq.sourceArgs
  by_cases hkind : kind = .codebase
  · rw [if_pos hkind, if_pos hkind]
    by_cases hargs : args = []
    · rw [if_pos hargs, if_neg (not_not.mpr hargs)]
    · rw [if_neg hargs, if_pos hargs]
  · rw [if_neg hkind, if_neg hkind]
    match args, h with
    | [], _ => rfl
    | [ref], h =>
      dsimp only
      rw [atom_plain (h ref (by simp))]
    | _ :: _ :: _, _ => rfl

theorem source_plain {part : Text} (h : PlainText part) : PythonCxq.source part = Cxq.source part := by
  unfold PythonCxq.source Cxq.source
  rw [trim_plain h.blanks]
  dsimp only
  generalize Cxq.sourceNames.find? _ = found
  cases found with
  | none => rfl
  | some found =>
    obtain ⟨name, _⟩ := found
    dsimp only
    rw [call_plain h.trim]
    cases hargs : Cxq.callParts (Cxq.trim part) name with
    | error => rfl
    | ok => exact sourceArgs_plain (args_plain h.trim hargs)

theorem operand_plain (h : PlainText token) (hwritten : written token = .ok (.operand text)) :
    PlainText text := by
  obtain ⟨_, _, hcpp, _, _, rfl, rfl⟩ := (meets_written token).read _ hwritten
  unfold Cxq.written at hcpp
  dsimp only at hcpp
  split at hcpp
  · cases hcpp
  · split at hcpp
    · cases hcpp
    · obtain ⟨_, hargs, hcpp⟩ := ok_of_bind hcpp
      obtain rfl := Cxq.stageArgs_setOp hcpp
      exact args_plain h.trim hargs text (by simp)

mutual

/-- The joint reading of a plain text goes through. -/
theorem through_parseCxq (text : Text) (h : PlainText text) : Through (parseCxq text) := by
  rw [parseCxq_eq]
  refine (through_both (split_plain h '|')).bind fun tokens htokens => ?_
  have hparts := both_eq_ok htokens
  match tokens, hparts with
  | [], _ => exact through_refused
  | first :: rest, hparts =>
    have hextent : Cxq.extent rest < text.length + 1 := by
      have hlength := Cxq.extent_splitTopLevel hparts
      rw [Cxq.extent_cons] at hlength
      omega
    have hplain : ∀ part ∈ first :: rest, PlainText part := fun part hpart =>
      h.of_piece (mem_splitTopLevel hparts part hpart)
    unfold query
    dsimp only
    split
    · exact through_refused
    · refine (through_both (source_plain (hplain first (by simp)))).bind fun _ _ => ?_
      exact through_parseStages rest fun part hpart => hplain part (mem_cons_of_mem _ hpart)
termination_by text.length + 1

theorem through_parseStages (tokens : List Text) (h : ∀ token ∈ tokens, PlainText token) :
    Through (parseStages tokens) := by
  match tokens with
  | [] =>
    rw [parseStages]
    exact through_ok _
  | token :: rest =>
    have htoken := h token mem_cons_self
    have hrest := through_parseStages rest fun part hpart => h part (mem_cons_of_mem _ hpart)
    rw [parseStages_cons]
    refine (through_written htoken).bind fun reading hwritten => ?_
    cases reading with
    | plain => exact hrest.map
    | operand text =>
      have hlength := length_operand hwritten
      refine (through_parseCxq text (operand_plain htoken hwritten)).bind fun _ _ => ?_
      exact hrest.bind fun _ _ => through_ok _
termination_by Cxq.extent tokens
decreasing_by
  · rw [Cxq.extent_cons]
    omega
  · rw [Cxq.extent_cons]
    omega

end

end CxqJoint

/-! ## The two parsers -/

/-- Both parsers refuse a text, or return one plan. Every refusal is an `E_PARSE`. -/
def ParsersAgree (text : Text) : Prop :=
  (Cxq.parseCxq text).toOption = (PythonCxq.parseCxq text).toOption

theorem parsersAgree_of_refused (h : CxqJoint.parseCxq text = .error .refused) : ParsersAgree text := by
  obtain ⟨⟨_, hcpp⟩, _, hpython⟩ := (meets_parseCxq text).refused h
  unfold ParsersAgree
  rw [hcpp, hpython]
  rfl

theorem parsersAgree_of_read {negates : Bool} (h : CxqJoint.parseCxq text = .ok negates) :
    ParsersAgree text ↔ negates = false := by
  obtain ⟨_, _, hcpp, hpython, rfl, hnegates⟩ := (meets_parseCxq text).read negates h
  unfold ParsersAgree
  rw [hcpp, hpython, ← hnegates]
  constructor
  · intro hsame
    exact planLowered_eq_iff.mp (some.inj hsame).symm
  · intro hnone
    exact congrArg some (planLowered_of_not_negates hnone).symm

/-- The parsers agree on a text on which no two helpers part exactly if it compares no string for
inequality, and no two helpers part on a plain text. -/
theorem parsers_agree_iff (text : Text) : (CxqJoint.parseCxq text ≠ .error .parted →
        (ParsersAgree text ↔ CxqJoint.parseCxq text ≠ .ok true)) ∧
      (PlainText text → CxqJoint.parseCxq text ≠ .error .parted) := by
  constructor
  · intro hthrough
    match hjoint : CxqJoint.parseCxq text with
    | .error .parted => exact absurd hjoint hthrough
    | .error .refused => exact ⟨nofun, fun _ => parsersAgree_of_refused hjoint⟩
    | .ok negates =>
      rw [parsersAgree_of_read hjoint]
      cases negates with
      | false => exact ⟨nofun, fun _ => rfl⟩
      | true => exact ⟨nofun, fun h => absurd rfl h⟩
  · exact CxqJoint.through_parseCxq text

/-- The callees of the defined classes. -/
def calleesQuery : Text :=
  "codebase() | nodes(kind = class and not is_definition != true) | out(calls, depth=1..2) | count()".toList

theorem parsers_agree_calleesQuery :
    ParsersAgree calleesQuery ∧ CxqJoint.parseCxq calleesQuery = .ok false := by
  have hjoint : CxqJoint.parseCxq calleesQuery = .ok false := by decide +kernel
  have hagree := (parsers_agree_iff calleesQuery).1
  rw [hjoint] at hagree
  exact ⟨(hagree nofun).mpr nofun, hjoint⟩

/-- A string compared for inequality, a separator in parentheses, and a quote behind an escaped
backslash. -/
theorem parsers_differ : ¬ParsersAgree "codebase() | nodes(kind != class)".toList ∧
      ((Cxq.parseCxq "codebase(\x1c)".toList).isOk = false ∧
        (PythonCxq.parseCxq "codebase(\x1c)".toList).isOk = true) ∧
      ((Cxq.parseCxq "symbol('a\\\\')".toList).isOk = false ∧
        (PythonCxq.parseCxq "symbol('a\\\\')".toList).isOk = true) := by
  have hjoint : CxqJoint.parseCxq "codebase() | nodes(kind != class)".toList = .ok true := by
    decide +kernel
  refine ⟨?_, by decide +kernel, by decide +kernel⟩
  rw [parsersAgree_of_read hjoint]
  decide

end CppIndexer.Query
