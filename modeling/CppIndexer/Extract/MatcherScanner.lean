/-
# What the scanner reads

The loops of the matcher catalog report the identifiers in front of a parenthesis that are not between
double quotes, and count the parentheses there. `callsOutside` and `nestedOutside` say this of any set of
places that is passed over, so that two readers of one text can be compared.
-/

import CppIndexer.Extract.MatcherSyntax

namespace CppIndexer.Extract

open Util (Bytes ascii)
open List CallSite Quoting

/-! ## Character classes -/

variable {d c : UInt8}

theorem isWord_of_startsWord (h : startsWord c = true) : isWord c = true := by
  simp only [startsWord, isWord, isAlnum, Bool.or_eq_true] at h ⊢
  rcases h with h | h
  · exact .inl (.inl h)
  · exact .inr h

theorem isWord_of_isSpace (h : isSpace c = true) : isWord c = false := by
  simp only [isSpace, isWord, isAlnum, isAlpha, Bool.or_eq_true, Bool.and_eq_true, decide_eq_true_eq,
    Bool.or_eq_false_iff, Bool.and_eq_false_iff, decide_eq_false_iff_not] at h ⊢
  omega

theorem isSpace_of_isWord (h : isWord c = true) : isSpace c = false := by
  by_contra hspace
  rw [isWord_of_isSpace (by simpa using hspace)] at h
  cases h

theorem startsWord_of_not_isWord (h : isWord c = false) : startsWord c = false := by
  by_contra hstart
  rw [isWord_of_startsWord (by simpa using hstart)] at h
  cases h

theorem ne_of_isWord (h : isWord c = true) (hd : isWord d = false) : c ≠ d := by
  rintro rfl
  rw [h] at hd
  cases hd

theorem ne_of_isSpace (h : isSpace c = true) (hd : isSpace d = false) : c ≠ d := by
  rintro rfl
  rw [h] at hd
  cases hd

/-! ## Words and spaces at a place -/

section

variable {before rest : Bytes} {c : UInt8}

/-- The text that was read does not end within a word. -/
def Clean (before : Bytes) : Prop := before.head?.any isWord = false

theorem Clean.not_lettered (h : Clean before) : ¬Lettered before := by
  cases before with
  | nil => simp [Lettered]
  | cons b =>
    have hb : isWord b = false := by simpa [Clean] using h
    simp [Lettered, hb]

theorem clean_cons (h : isWord c = false) : Clean (c :: before) := by
  simp [Clean, h]

theorem lettered_cons (hc : isWord c = true) : Lettered (c :: before) ↔ startsWord c = true ∨ Lettered before := by
  simp [Lettered, hc]

theorem Lettered.append {seg : Bytes} (h : Lettered before) (hseg : ∀ c ∈ seg, isWord c = true) :
    Lettered (seg.reverse ++ before) := by
  induction seg generalizing before with
  | nil => simpa using h
  | cons c _ ih =>
    rw [reverse_cons, append_assoc]
    apply ih
    · exact (lettered_cons (hseg c (by simp))).mpr (.inr h)
    · exact fun d hd => hseg d (by simp [hd])

theorem opens_cons_of_space (hc : isSpace c = true) : Opens (c :: rest) ↔ Opens rest := by
  simp [Opens, hc]

theorem opens_append_of_spaces {seg : Bytes} (hseg : ∀ c ∈ seg, isSpace c = true) :
    Opens (seg ++ rest) ↔ Opens rest := by
  rw [Opens, dropWhile_append_of_pos hseg, Opens]

theorem not_opens_cons (hc : isSpace c = false) (hne : c ≠ openParen) : ¬Opens (c :: rest) := by
  simp [Opens, hc, hne]

theorem callAt_of_not_startsWord (hc : startsWord c = false) : callAt before (c :: rest) = none := by
  simp [callAt, hc]

theorem callAt_of_lettered (h : Lettered before) : callAt before rest = none := by
  rw [callAt, if_neg fun hcall => hcall.2 h]

variable {site : CallSite}

theorem start_of_callAt (h : callAt before rest = some site) : site.start = before.length := by
  unfold callAt siteOf at h
  split at h
  · split at h
    · cases h
      rfl
    · cases h
  · cases h

end

/-! ## Calls outside of hidden places -/

/-- The calls that start at places that are not skipped. -/
def callsOutside (skip : ℕ → Bool) : Bytes → Bytes → List CallSite
  | _, [] => []
  | before, c :: rest =>
    (if skip before.length then none else callAt before (c :: rest)).toList ++
      callsOutside skip (c :: before) rest

/-- The nested occurrences with the parentheses and calls at places that are not skipped. -/
def nestedOutside (names : List Bytes) (skip : ℕ → Bool) : List Bool → Bytes → Bytes → Bool
  | _, _, [] => false
  | stack, before, c :: rest =>
    if skip before.length then nestedOutside names skip stack (c :: before) rest
    else
      match callAt before (c :: rest) with
      | some site =>
        if site.isTarget names && stack.any id then true
        else nestedOutside names skip (site.isTarget names :: stack) (c :: before) rest
      | none =>
        if c = openParen ∧ ¬Lettered (before.dropWhile isSpace) then
          nestedOutside names skip (false :: stack) (c :: before) rest
        else if c = closeParen then nestedOutside names skip stack.tail (c :: before) rest
        else nestedOutside names skip stack (c :: before) rest

section

variable {names : List Bytes} {skip skip' : ℕ → Bool} {stack : List Bool} {before rest seg : Bytes}

/-- Nothing in a segment is a call or a parenthesis that counts. -/
def Quiet (skip : ℕ → Bool) (before seg rest : Bytes) : Prop :=
  ∀ u c v, seg = u ++ c :: v → skip (u.length + before.length) = false →
    callAt (u.reverse ++ before) (c :: (v ++ rest)) = none ∧ c ≠ openParen ∧ c ≠ closeParen

theorem Quiet.tail {c : UInt8} (h : Quiet skip before (c :: seg) rest) :
    Quiet skip (c :: before) seg rest := by
  intro u d v hseg hskip
  have hstep := h (c :: u) d v (by rw [hseg, cons_append])
  rw [length_cons, Nat.add_right_comm] at hstep
  simpa using hstep hskip

theorem Quiet.callsOutside (h : Quiet skip before seg rest) :
    callsOutside skip before (seg ++ rest) = callsOutside skip (seg.reverse ++ before) rest := by
  induction seg generalizing before with
  | nil => rfl
  | cons c seg ih =>
    have hhead := h [] c seg rfl
    rw [cons_append, Extract.callsOutside, ih h.tail, reverse_cons, append_assoc]
    cases hskip : skip before.length with
    | true => rfl
    | false =>
      have hnone := (hhead (by simpa using hskip)).1
      rw [reverse_nil, nil_append] at hnone
      rw [hnone]
      rfl

theorem Quiet.nestedOutside (h : Quiet skip before seg rest) :
    nestedOutside names skip stack before (seg ++ rest) =
      nestedOutside names skip stack (seg.reverse ++ before) rest := by
  induction seg generalizing before with
  | nil => rfl
  | cons c seg ih =>
    have hhead := h [] c seg rfl
    rw [cons_append, Extract.nestedOutside, ih h.tail, reverse_cons, append_assoc]
    cases hskip : skip before.length with
    | true => rfl
    | false =>
      obtain ⟨hnone, hopen, hclose⟩ := hhead (by simpa using hskip)
      rw [reverse_nil, nil_append] at hnone
      simp [hnone, hopen, hclose]

theorem quiet_of_skip (h : ∀ i < seg.length, skip (i + before.length) = true) :
    Quiet skip before seg rest := by
  intro u _ _ hseg hskip
  have hlt : u.length < seg.length := by
    rw [hseg, length_append, length_cons]
    omega
  rw [h u.length hlt] at hskip
  cases hskip

theorem quiet_of_spaces (h : ∀ c ∈ seg, isSpace c = true) : Quiet skip before seg rest := by
  intro _ c _ hseg _
  have hc := h c (by simp [hseg])
  exact ⟨callAt_of_not_startsWord (startsWord_of_not_isWord (isWord_of_isSpace hc)),
    ne_of_isSpace hc (by decide), ne_of_isSpace hc (by decide)⟩

/-- Within a word that has begun, no other begins. -/
theorem quiet_of_lettered (hbefore : Lettered before) (h : ∀ c ∈ seg, isWord c = true) :
    Quiet skip before seg rest := by
  intro _ c _ hseg _
  have hc := h c (by simp [hseg])
  refine ⟨callAt_of_lettered (hbefore.append fun d hd => h d (by simp [hseg, hd])), ?_, ?_⟩ <;>
    exact ne_of_isWord hc (by decide)

/-- A word that no parenthesis follows is no call, and holds none. -/
theorem quiet_of_word (h : ∀ c ∈ seg, (isWord c || decide (c ∈ [period, 43, 45])) = true)
    (hends : rest.head?.any isWord = false) (hopens : ¬Opens rest) : Quiet skip before seg rest := by
  intro u c v hseg _
  have hmark : ∀ d ∈ seg, isSpace d = false ∧ d ≠ openParen ∧ d ≠ closeParen := by
    intro d hd
    have hd := h d hd
    rw [Bool.or_eq_true, decide_eq_true_eq] at hd
    rcases hd with hd | hd
    · exact ⟨isSpace_of_isWord hd, ne_of_isWord hd (by decide), ne_of_isWord hd (by decide)⟩
    · simp only [mem_cons, not_mem_nil, or_false] at hd
      rcases hd with rfl | rfl | rfl
      all_goals decide
  have hc : c ∈ seg := by simp [hseg]
  refine ⟨?_, (hmark c hc).2⟩
  have hnot : ¬Opens ((c :: (v ++ rest)).dropWhile isWord) := by
    have htail : ∀ d ∈ c :: v, d ∈ seg := fun d hd => by
      rw [hseg]
      exact mem_append_right _ hd
    rw [← cons_append, dropWhile_append]
    split
    · cases rest with
      | nil => simp [Opens]
      | cons r =>
        have hr : isWord r = false := by simpa using hends
        rwa [dropWhile_cons_of_neg (by simp [hr])]
    · rename_i hne
      cases hdrop : (c :: v).dropWhile isWord with
      | nil => simp [hdrop] at hne
      | cons d =>
        have hd := hmark d (htail d ((dropWhile_sublist isWord).mem (by rw [hdrop]; simp)))
        exact not_opens_cons hd.1 hd.2.1
  unfold callAt siteOf
  rw [if_neg hnot, ite_self]

variable {site : CallSite}

theorem start_le_of_mem_callsOutside (h : site ∈ callsOutside skip before rest) :
    before.length ≤ site.start := by
  induction rest generalizing before with
  | nil => simp [callsOutside] at h
  | cons _ _ ih =>
    rw [callsOutside, mem_append, Option.mem_toList] at h
    rcases h with h | h
    · split at h
      · cases h
      · exact (start_of_callAt h).ge
    · have hlt := ih h
      rw [length_cons] at hlt
      omega

theorem take_length_reverse_append (before rest : Bytes) :
    (before.reverse ++ rest).take before.length = before.reverse := by
  rw [← length_reverse, take_left]

theorem drop_length_reverse_append (before rest : Bytes) :
    (before.reverse ++ rest).drop before.length = rest := by
  rw [← length_reverse, drop_left]

theorem reverse_cons_append (c : UInt8) (before rest : Bytes) :
    (c :: before).reverse ++ rest = before.reverse ++ c :: rest := by
  rw [reverse_cons, append_assoc, singleton_append]

theorem calls_length {c : UInt8} :
    Calls (before.reverse ++ c :: rest) before.length ↔ (callAt before (c :: rest)).isSome = true := by
  rw [Calls, take_length_reverse_append, drop_length_reverse_append, reverse_reverse]

/-- A call is found at a place that is not skipped. -/
theorem mem_starts_callsOutside {p : ℕ} (hp : before.length ≤ p) :
    p ∈ (callsOutside skip before rest).map start ↔
      Calls (before.reverse ++ rest) p ∧ skip p = false := by
  induction rest generalizing before with
  | nil =>
    have hnone : ¬Calls before.reverse p := by
      rw [Calls, drop_eq_nil_of_le (by simpa using hp)]
      simp [callAt]
    simp [callsOutside, hnone]
  | cons c rest ih =>
    rw [callsOutside, map_append, mem_append]
    rcases hp.eq_or_lt with rfl | hlt
    · have hlater : before.length ∉ (callsOutside skip (c :: before) rest).map start := by
        intro hmem
        obtain ⟨_, hsite, heq⟩ := mem_map.mp hmem
        have hle := start_le_of_mem_callsOutside hsite
        rw [heq, length_cons] at hle
        omega
      rw [calls_length]
      cases hskip : skip before.length with
      | true => simp [hlater]
      | false =>
        cases hcall : callAt before (c :: rest) with
        | none => simp [hlater]
        | some => simp [start_of_callAt hcall]
    · have hhead : p ∉ (if skip before.length then none else callAt before (c :: rest)).toList.map
          start := by
        intro hmem
        obtain ⟨_, hsite, rfl⟩ := mem_map.mp hmem
        rw [Option.mem_toList] at hsite
        split at hsite
        · cases hsite
        · exact absurd (start_of_callAt hsite) hlt.ne'
      rw [or_iff_right hhead, @ih (c :: before) (Nat.succ_le_of_lt hlt), reverse_cons_append]

/-- Places that are skipped differently matter at calls only. -/
theorem callsOutside_congr
    (h : ∀ p, before.length ≤ p → Calls (before.reverse ++ rest) p → skip p = skip' p) :
    callsOutside skip before rest = callsOutside skip' before rest := by
  induction rest generalizing before with
  | nil => rfl
  | cons c rest ih =>
    have hrest : callsOutside skip (c :: before) rest = callsOutside skip' (c :: before) rest := by
      apply ih
      intro p hp
      rw [length_cons] at hp
      rw [reverse_cons_append]
      exact h p (by omega)
    have hhead := h before.length le_rfl
    rw [calls_length] at hhead
    rw [callsOutside, callsOutside, hrest]
    cases hcall : callAt before (c :: rest) with
    | none => simp
    | some => rw [hhead (by simp [hcall])]

/-- The places of the calls tell what is skipped at calls. -/
theorem skip_eq_of_starts {text : Bytes} (h : (callsOutside skip [] text).map start =
    (callsOutside skip' [] text).map start) (p : ℕ) (hp : Calls text p) : skip p = skip' p := by
  have hmem := @mem_starts_callsOutside skip [] text p (Nat.zero_le _)
  have hmem' := @mem_starts_callsOutside skip' [] text p (Nat.zero_le _)
  rw [reverse_nil, nil_append] at hmem hmem'
  rw [h, hmem'] at hmem
  have hiff : skip p = false ↔ skip' p = false := by
    constructor
    · exact fun hskip => (hmem.mpr ⟨hp, hskip⟩).2
    · exact fun hskip => (hmem.mp ⟨hp, hskip⟩).2
  cases hskip : skip p <;> cases hskip' : skip' p <;> simp_all

/-- For nesting, parentheses matter too. -/
theorem nestedOutside_congr
    (h : ∀ p, before.length ≤ p → Calls (before.reverse ++ rest) p ∨ Parenthesis (before.reverse ++ rest) p →
      skip p = skip' p) :
    nestedOutside names skip stack before rest = nestedOutside names skip' stack before rest := by
  induction rest generalizing before stack with
  | nil => rfl
  | cons c rest ih =>
    have hrest : ∀ stack, nestedOutside names skip stack (c :: before) rest =
        nestedOutside names skip' stack (c :: before) rest := by
      intro _
      apply ih
      intro p hp
      rw [length_cons] at hp
      rw [reverse_cons_append]
      exact h p (by omega)
    have hhead := h before.length le_rfl
    have hat : (before.reverse ++ c :: rest)[before.length]? = some c := by
      simp
    rw [calls_length, Parenthesis, hat] at hhead
    simp only [nestedOutside, hrest]
    by_cases hcounts : (callAt before (c :: rest)).isSome = true ∨ c = openParen ∨ c = closeParen
    · rw [hhead (by simpa using hcounts)]
    · simp only [not_or, Bool.not_eq_true, Option.isSome_eq_false_iff, Option.isNone_iff_eq_none] at hcounts
      simp [hcounts.1, hcounts.2.1, hcounts.2.2]

end

/-! ## The scanner -/

section

variable {names : List Bytes} {text before rest : Bytes}

/-- How the scanner stands after what was read. -/
def quotingAfter (before : Bytes) : Quoting := before.reverse.foldl Quoting.read .outside

theorem quotingAfter_cons (c : UInt8) (before : Bytes) :
    quotingAfter (c :: before) = (quotingAfter before).read c := by
  simp [quotingAfter]

attribute [local simp] quotingAfter_cons Quoting.read

theorem quotingAfter_append_of_outside {seg : Bytes} (h : quotingAfter before = .outside)
    (hseg : ∀ c ∈ seg, c ≠ quote) : quotingAfter (seg.reverse ++ before) = .outside := by
  induction seg generalizing before with
  | nil => exact h
  | cons c _ ih =>
    rw [reverse_cons, append_assoc]
    apply ih
    · simp [h, hseg c (by simp)]
    · exact fun d hd => hseg d (by simp [hd])

variable {inString : Bool} {ident : Bytes} {stack : List Bool} {c : UInt8} {fuel : ℕ}
  {skip : ℕ → Bool}

theorem quotingAfter_inside (h : quotingAfter before = .inside) (hc : c ≠ backslash) :
    quotingAfter (c :: before) = if (c != quote) = true then .inside else .outside := by
  rw [quotingAfter_cons, h, Quoting.read, if_neg hc]
  by_cases hquote : c = quote <;> simp

theorem quotingAfter_escaped (h : quotingAfter before = .inside) (hc : c = backslash) :
    quotingAfter (c :: before) = .escaped := by
  rw [quotingAfter_cons, h, Quoting.read, if_pos hc]

theorem quotedAt_length (htext : text = before.reverse ++ rest) :
    quotedAt text before.length = decide (quotingAfter before ≠ .outside) := by
  rw [quotedAt, htext, take_length_reverse_append]
  rfl

/-- Between two rounds outside of quotes no word is cut. -/
def Fresh (before rest : Bytes) : Prop := rest.head?.any isWord = true → ¬Lettered before

theorem fresh_of_clean (h : Clean before) : Fresh before rest := fun _ => h.not_lettered

theorem fresh_of_ends (h : rest.head?.any isWord = false) : Fresh before rest := by
  intro hhead
  rw [h] at hhead
  cases hhead

theorem Fresh.cons {c : UInt8} (h : Fresh before (c :: rest)) (hc : startsWord c = false) :
    Fresh (c :: before) rest := by
  cases hword : isWord c with
  | false => exact fresh_of_clean (clean_cons hword)
  | true =>
    intro _
    rw [lettered_cons hword, not_or]
    exact ⟨by simp [hc], h (by simp [hword])⟩

/-- Behind an opening parenthesis that was not read, white space aside, stands no identifier. -/
def Unnamed (before rest : Bytes) : Prop := Opens rest → ¬Lettered (before.dropWhile isSpace)

theorem unnamed_cons_of_mark (hword : isWord c = false) (hspace : isSpace c = false) :
    Unnamed (c :: before) rest := by
  intro _
  rw [dropWhile_cons_of_neg (by simp [hspace])]
  exact (clean_cons hword).not_lettered

theorem Unnamed.cons {c : UInt8} (h : Unnamed before (c :: rest)) (hfresh : Fresh before (c :: rest))
    (hc : startsWord c = false) : Unnamed (c :: before) rest := by
  cases hspace : isSpace c with
  | true =>
    intro hopens
    rw [dropWhile_cons_of_pos hspace]
    exact h ((opens_cons_of_space hspace).mpr hopens)
  | false =>
    cases hword : isWord c with
    | false => exact unnamed_cons_of_mark hword hspace
    | true =>
      intro _
      rw [dropWhile_cons_of_neg (by simp [hspace]), lettered_cons hword, not_or]
      exact ⟨by simp [hc], hfresh (by simp [hword])⟩

theorem head?_dropWhile_isWord (rest : Bytes) : (rest.dropWhile isWord).head?.any isWord = false := by
  cases hdrop : rest.dropWhile isWord with
  | nil => rfl
  | cons =>
    have hc := head_dropWhile_not isWord (l := rest) (by rw [hdrop]; simp)
    simpa [hdrop] using hc

/-- A character between quotes is skipped. -/
theorem quiet_quoted (htext : text = before.reverse ++ c :: rest)
    (hstate : quotingAfter before ≠ .outside) : Quiet (quotedAt text) before [c] rest := by
  apply quiet_of_skip
  intro i hi
  obtain rfl : i = 0 := by simpa using hi
  rw [Nat.zero_add, quotedAt_length htext]
  exact decide_eq_true hstate

/-- The identifier that starts here is reported with its call. -/
theorem callAt_of_fresh (hc : startsWord c = true) (h : Fresh before (c :: rest)) :
    callAt before (c :: rest) =
      siteOf before ((c :: rest).takeWhile isWord) ((c :: rest).dropWhile isWord) := by
  rw [callAt, if_pos ⟨by simpa using hc, h (by simp [isWord_of_startsWord hc])⟩]

variable {skip : ℕ → Bool}

/-- Behind its first character an identifier is passed over. -/
theorem quiet_ident {c : UInt8} (hc : startsWord c = true) :
    Quiet skip (c :: before) (rest.takeWhile isWord) (rest.dropWhile isWord) := by
  apply quiet_of_lettered
  · exact (lettered_cons (isWord_of_startsWord hc)).mpr (.inl hc)
  · exact fun d hd => mem_takeWhile_imp hd

theorem callsOutside_ident {c : UInt8} (hskip : skip before.length = false)
    (hc : startsWord c = true) (h : Fresh before (c :: rest)) :
    callsOutside skip before (c :: rest) =
      (siteOf before ((c :: rest).takeWhile isWord) ((c :: rest).dropWhile isWord)).toList ++
        callsOutside skip (((c :: rest).takeWhile isWord).reverse ++ before)
          ((c :: rest).dropWhile isWord) := by
  have hword := isWord_of_startsWord hc
  have htail := (@quiet_ident before rest skip c hc).callsOutside
  rw [takeWhile_append_dropWhile] at htail
  rw [callsOutside, hskip, if_neg Bool.false_ne_true, callAt_of_fresh hc h, htail]
  simp [takeWhile_cons_of_pos hword, dropWhile_cons_of_pos hword]

/-- Where the scanner stands behind an identifier. -/
theorem after_ident {c : UInt8} (hc : startsWord c = true) (hstate : quotingAfter before = .outside) :
    ((c :: rest).dropWhile isWord).length ≤ rest.length ∧
      before.reverse ++ c :: rest =
        (((c :: rest).takeWhile isWord).reverse ++ before).reverse ++ (c :: rest).dropWhile isWord ∧
      quotingAfter (((c :: rest).takeWhile isWord).reverse ++ before) = .outside := by
  have hword := isWord_of_startsWord hc
  refine ⟨?_, ?_, ?_⟩
  · rw [dropWhile_cons_of_pos hword]
    exact length_dropWhile_le _ _
  · rw [reverse_append, reverse_reverse, append_assoc, takeWhile_append_dropWhile]
  · apply quotingAfter_append_of_outside hstate
    exact fun d hd => ne_of_isWord (mem_takeWhile_imp hd) (by decide)

theorem callSiteLoop_nil (fuel : ℕ) (inString : Bool) : callSiteLoop fuel inString before [] = [] := by
  cases fuel <;> cases inString <;> rfl

/-- The scanner reports the calls outside of double quotes. -/
theorem callSiteLoop_eq (hfuel : rest.length ≤ fuel) (htext : text = before.reverse ++ rest)
    (hstate : quotingAfter before = if inString then .inside else .outside)
    (hfresh : inString = false → Fresh before rest) :
    callSiteLoop fuel inString before rest = callsOutside (quotedAt text) before rest := by
  induction fuel generalizing inString before rest with
  | zero =>
    rw [Nat.le_zero, length_eq_zero_iff] at hfuel
    subst hfuel
    rfl
  | succ fuel ih =>
    cases rest with
    | nil => rw [callSiteLoop_nil, callsOutside]
    | cons c rest =>
      rw [length_cons, Nat.succ_le_succ_iff] at hfuel
      have hnext : text = (c :: before).reverse ++ rest := by rw [htext, reverse_cons_append]
      cases inString with
      | true =>
        rw [if_pos rfl] at hstate
        have hquiet := quiet_quoted htext (by rw [hstate]; decide)
        have hskip : callsOutside (quotedAt text) before (c :: rest) =
            callsOutside (quotedAt text) (c :: before) rest := hquiet.callsOutside
        rw [hskip]
        have hplain : c ≠ backslash → callSiteLoop fuel (c != quote) (c :: before) rest =
            callsOutside (quotedAt text) (c :: before) rest := by
          intro hne
          apply ih hfuel hnext
          · exact quotingAfter_inside hstate hne
          · intro hc
            obtain rfl : c = quote := by simpa using hc
            exact fresh_of_clean (clean_cons (by decide))
        cases rest with
        | nil => rw [callSiteLoop, callSiteLoop_nil, callsOutside]
        | cons d rest =>
          by_cases hc : c = backslash
          · have hescaped := quotingAfter_escaped hstate hc
            have hquiet' := quiet_quoted hnext (by rw [hescaped]; decide)
            have hskip' : callsOutside (quotedAt text) (c :: before) (d :: rest) =
                callsOutside (quotedAt text) (d :: c :: before) rest := hquiet'.callsOutside
            rw [callSiteLoop, if_pos hc, hskip']
            apply ih
            · rw [length_cons] at hfuel
              omega
            · rw [hnext, ← reverse_cons_append]
            · rw [quotingAfter_cons, hescaped]
              rfl
            · exact nofun
          · rw [callSiteLoop, if_neg hc]
            exact hplain hc
      | false =>
        have hopen : quotedAt text before.length = false := by
          rw [quotedAt_length htext, hstate]
          rfl
        have hhere := hfresh rfl
        rw [if_neg Bool.false_ne_true] at hstate
        rw [callSiteLoop]
        by_cases hc : c = quote
        · subst hc
          rw [if_pos rfl, callsOutside, callAt_of_not_startsWord (by decide), ite_self]
          apply ih hfuel hnext
          · simp [hstate]
          · exact nofun
        · rw [if_neg hc]
          cases hstart : startsWord c with
          | true =>
            obtain ⟨hlength, hsplit, hafter⟩ := @after_ident before rest c hstart hstate
            rw [if_pos rfl, callsOutside_ident hopen hstart hhere]
            dsimp only
            rw [@ih _ _ false (hlength.trans hfuel) (htext.trans hsplit) hafter fun _ =>
              fresh_of_ends (head?_dropWhile_isWord _)]
          | false =>
            rw [if_neg Bool.false_ne_true, callsOutside, callAt_of_not_startsWord hstart, ite_self]
            apply ih hfuel hnext
            · simp [hstate, hc]
            · exact fun _ => hhere.cons hstart

theorem forEachCallSite_eq (text : Bytes) : forEachCallSite text = callsOutside (quotedAt text) [] text :=
  callSiteLoop_eq le_rfl rfl rfl fun _ => fresh_of_clean rfl

/-- White space behind a word is passed over. -/
theorem Lettered.dropWhile {spaces : Bytes} (h : Lettered before) (hspaces : ∀ c ∈ spaces, isSpace c = true) :
    Lettered ((spaces.reverse ++ before).dropWhile isSpace) := by
  rw [dropWhile_append_of_pos (by simpa using hspaces)]
  cases before with
  | nil => exact h
  | cons c =>
    have hc : isWord c = true := by
      by_contra hword
      exact (clean_cons (by simpa using hword)).not_lettered h
    rwa [dropWhile_cons_of_neg (by simp [isSpace_of_isWord hc])]

/-- The parenthesis of a call opens no other scope. -/
theorem nestedOutside_named (h : Lettered (before.dropWhile isSpace)) :
    nestedOutside names skip stack before (openParen :: rest) =
      nestedOutside names skip stack (openParen :: before) rest := by
  rw [nestedOutside, callAt_of_not_startsWord (by decide)]
  simp [h, show openParen ≠ closeParen by decide]

theorem nestedOutside_unnamed (hskip : skip before.length = false)
    (h : ¬Lettered (before.dropWhile isSpace)) :
    nestedOutside names skip stack before (openParen :: rest) =
      nestedOutside names skip (false :: stack) (openParen :: before) rest := by
  rw [nestedOutside, callAt_of_not_startsWord (by decide)]
  simp [h, hskip]

theorem nestedOutside_close (hskip : skip before.length = false) :
    nestedOutside names skip stack before (closeParen :: rest) =
      nestedOutside names skip stack.tail (closeParen :: before) rest := by
  rw [nestedOutside, callAt_of_not_startsWord (by decide)]
  simp [hskip, show closeParen ≠ openParen by decide]

theorem eq_of_opens (h : Opens rest) :
    rest = rest.takeWhile isSpace ++ openParen :: (rest.dropWhile isSpace).tail := by
  have hhead : rest.dropWhile isSpace = openParen :: (rest.dropWhile isSpace).tail := by
    rw [Opens] at h
    cases hdrop : rest.dropWhile isSpace with
    | nil => simp [hdrop] at h
    | cons =>
      rw [hdrop, head?_cons, Option.some.injEq] at h
      rw [h, tail_cons]
  rw [← hhead, takeWhile_append_dropWhile]

theorem nestedOutside_ident {stack : List Bool} {c : UInt8}
    (hskip : skip before.length = false) (hc : startsWord c = true) (h : Fresh before (c :: rest)) :
    nestedOutside names skip stack before (c :: rest) =
      match siteOf before ((c :: rest).takeWhile isWord) ((c :: rest).dropWhile isWord) with
      | some site =>
        if site.isTarget names && stack.any id then true
        else nestedOutside names skip (site.isTarget names :: stack)
          (((c :: rest).takeWhile isWord).reverse ++ before) ((c :: rest).dropWhile isWord)
      | none => nestedOutside names skip stack (((c :: rest).takeWhile isWord).reverse ++ before)
          ((c :: rest).dropWhile isWord) := by
  have hword := isWord_of_startsWord hc
  have htail := fun stack => @Quiet.nestedOutside names skip stack _ _ _ (@quiet_ident before rest skip c hc)
  rw [takeWhile_append_dropWhile] at htail
  have hmark : c ≠ openParen ∧ c ≠ closeParen :=
    ⟨ne_of_isWord hword (by decide), ne_of_isWord hword (by decide)⟩
  rw [nestedOutside, hskip, if_neg Bool.false_ne_true, callAt_of_fresh hc h]
  simp only [htail, takeWhile_cons_of_pos hword, dropWhile_cons_of_pos hword,
    reverse_cons, append_assoc, singleton_append]
  split
  · rfl
  · simp [hmark.1, hmark.2]

/-- The parenthesis of a call, with the white space before it. -/
theorem nestedOutside_opens (hbefore : Lettered before) (h : Opens rest) :
    nestedOutside names skip stack before rest =
      nestedOutside names skip stack (openParen :: (rest.takeWhile isSpace).reverse ++ before)
        (rest.dropWhile isSpace).tail := by
  have hspaces : ∀ c ∈ rest.takeWhile isSpace, isSpace c = true := fun c hc => mem_takeWhile_imp hc
  have hquiet := @Quiet.nestedOutside names skip stack before
    (openParen :: (rest.dropWhile isSpace).tail) _ (quiet_of_spaces hspaces)
  rw [← eq_of_opens h] at hquiet
  rw [hquiet, nestedOutside_named (hbefore.dropWhile hspaces)]
  rfl

theorem lettered_ident (hc : startsWord c = true) :
    Lettered (((c :: rest).takeWhile isWord).reverse ++ before) := by
  have hword := isWord_of_startsWord hc
  have hfirst : Lettered (c :: before) := (lettered_cons hword).mpr (.inl hc)
  have hident := @Lettered.append _ (rest.takeWhile isWord) hfirst fun d hd => mem_takeWhile_imp hd
  simpa [takeWhile_cons_of_pos hword] using hident

/-- Where the check stands behind the parenthesis of a call. -/
theorem after_opens (h : Opens rest) (hstate : quotingAfter before = .outside) :
    (rest.dropWhile isSpace).tail.length ≤ rest.length ∧
      before.reverse ++ rest = (openParen :: (rest.takeWhile isSpace).reverse ++ before).reverse ++
        (rest.dropWhile isSpace).tail ∧
      quotingAfter (openParen :: (rest.takeWhile isSpace).reverse ++ before) = .outside := by
  refine ⟨?_, ?_, ?_⟩
  · rw [length_tail]
    exact (Nat.sub_le _ _).trans (length_dropWhile_le _ _)
  · rw [cons_append, reverse_cons_append, reverse_append, reverse_reverse, append_assoc, ← eq_of_opens h]
  · have hspaces := @quotingAfter_append_of_outside before (rest.takeWhile isSpace) hstate fun d hd =>
      ne_of_isSpace (mem_takeWhile_imp hd) (by decide)
    rw [cons_append, quotingAfter_cons, hspaces]
    rfl

variable {site : CallSite}

theorem siteOf_eq_some (h : siteOf before ident rest = some site) : Opens rest := by
  by_contra hopens
  rw [siteOf, if_neg hopens] at h
  cases h

theorem siteOf_eq_none (h : siteOf before ident rest = none) : ¬Opens rest := by
  intro hopens
  rw [siteOf, if_pos hopens] at h
  cases h

theorem nestedLoop_nil (fuel : ℕ) (inString : Bool) (stack : List Bool) :
    nestedLoop names fuel inString stack before [] = false := by
  cases fuel <;> cases inString <;> rfl

/-- The check for nesting counts the calls and the parentheses outside of double quotes. -/
theorem nestedLoop_eq (hfuel : rest.length ≤ fuel) (htext : text = before.reverse ++ rest)
    (hstate : quotingAfter before = if inString then .inside else .outside)
    (hfresh : inString = false → Fresh before rest) (hunnamed : inString = false → Unnamed before rest) :
    nestedLoop names fuel inString stack before rest =
      nestedOutside names (quotedAt text) stack before rest := by
  induction fuel generalizing inString stack before rest with
  | zero =>
    rw [Nat.le_zero, length_eq_zero_iff] at hfuel
    subst hfuel
    rfl
  | succ fuel ih =>
    cases rest with
    | nil => rw [nestedLoop_nil, nestedOutside]
    | cons c rest =>
      rw [length_cons, Nat.succ_le_succ_iff] at hfuel
      have hnext : text = (c :: before).reverse ++ rest := by rw [htext, reverse_cons_append]
      cases inString with
      | true =>
        rw [if_pos rfl] at hstate
        have hquiet := quiet_quoted htext (by rw [hstate]; decide)
        have hskip : nestedOutside names (quotedAt text) stack before (c :: rest) =
            nestedOutside names (quotedAt text) stack (c :: before) rest := hquiet.nestedOutside
        rw [hskip]
        have hplain : c ≠ backslash → nestedLoop names fuel (c != quote) stack (c :: before) rest =
            nestedOutside names (quotedAt text) stack (c :: before) rest := by
          intro hne
          apply ih hfuel hnext
          · exact quotingAfter_inside hstate hne
          · intro hc
            obtain rfl : c = quote := by simpa using hc
            exact fresh_of_clean (clean_cons (by decide))
          · intro hc
            obtain rfl : c = quote := by simpa using hc
            exact unnamed_cons_of_mark (by decide) (by decide)
        cases rest with
        | nil => rw [nestedLoop, nestedLoop_nil, nestedOutside]
        | cons d rest =>
          by_cases hc : c = backslash
          · have hescaped := quotingAfter_escaped hstate hc
            have hquiet' := quiet_quoted hnext (by rw [hescaped]; decide)
            have hskip' : nestedOutside names (quotedAt text) stack (c :: before) (d :: rest) =
                nestedOutside names (quotedAt text) stack (d :: c :: before) rest :=
              hquiet'.nestedOutside
            rw [nestedLoop, if_pos hc, hskip']
            apply ih
            · rw [length_cons] at hfuel
              omega
            · rw [hnext, ← reverse_cons_append]
            · rw [quotingAfter_cons, hescaped]
              rfl
            · exact nofun
            · exact nofun
          · rw [nestedLoop, if_neg hc]
            exact hplain hc
      | false =>
        have hopen : quotedAt text before.length = false := by
          rw [quotedAt_length htext, hstate]
          rfl
        have hhere := hfresh rfl
        have hparen := hunnamed rfl
        rw [if_neg Bool.false_ne_true] at hstate
        rw [nestedLoop]
        by_cases hc : c = quote
        · subst hc
          have hquiet : Quiet (quotedAt text) before [quote] rest := by
            intro u c v hseg _
            obtain ⟨rfl, rfl, rfl⟩ : u = [] ∧ c = quote ∧ v = [] := by
              cases u with
              | nil => simpa [eq_comm] using hseg
              | cons => simp at hseg
            exact ⟨callAt_of_not_startsWord (by decide), by decide, by decide⟩
          have hskip : nestedOutside names (quotedAt text) stack before (quote :: rest) =
              nestedOutside names (quotedAt text) stack (quote :: before) rest := hquiet.nestedOutside
          rw [if_pos rfl, hskip]
          apply ih hfuel hnext
          · simp [hstate]
          · exact nofun
          · exact nofun
        · rw [if_neg hc]
          have hout : quotingAfter (c :: before) = .outside := by
            simp [hstate, hc]
          cases hstart : startsWord c with
          | true =>
            obtain ⟨hlength, hsplit, hafter⟩ := @after_ident before rest c hstart hstate
            rw [if_pos rfl, nestedOutside_ident hopen hstart hhere]
            dsimp only
            cases hsite : siteOf before ((c :: rest).takeWhile isWord)
                ((c :: rest).dropWhile isWord) with
            | none =>
              have hends := head?_dropWhile_isWord (c :: rest)
              exact @ih _ _ false _ (hlength.trans hfuel) (htext.trans hsplit) hafter
                (fun _ => fresh_of_ends hends) fun _ hopens => absurd hopens (siteOf_eq_none hsite)
            | some site =>
              have hopens := siteOf_eq_some hsite
              obtain ⟨hlength', hsplit', hafter'⟩ := after_opens hopens hafter
              dsimp only
              split
              · rfl
              · rw [nestedOutside_opens (lettered_ident hstart) hopens]
                exact @ih _ _ false _ ((hlength'.trans hlength).trans hfuel)
                  (htext.trans (hsplit.trans hsplit')) hafter'
                  (fun _ => fresh_of_clean (clean_cons (by decide)))
                  fun _ => unnamed_cons_of_mark (by decide) (by decide)
          | false =>
            have hstep := hhere.cons hstart
            have hstep' := hparen.cons hhere hstart
            rw [if_neg Bool.false_ne_true]
            have hnext' := fun stack => @ih (c :: before) rest false stack hfuel hnext hout
              (fun _ => hstep) (fun _ => hstep')
            by_cases hc : c = openParen
            · subst hc
              rw [if_pos rfl, nestedOutside_unnamed hopen (hparen rfl), hnext']
            · by_cases hc' : c = closeParen
              · subst hc'
                rw [if_neg hc, if_pos rfl, nestedOutside_close hopen, hnext']
              · rw [if_neg hc, if_neg hc', hnext', nestedOutside, callAt_of_not_startsWord hstart]
                simp [hc, hc']

theorem hasNestedMatcherOccurrences_eq (names : List Bytes) (text : Bytes) :
    hasNestedMatcherOccurrences text names = nestedOutside names (quotedAt text) [] [] text :=
  nestedLoop_eq le_rfl rfl rfl (fun _ => fresh_of_clean rfl) fun _ _ => by simp [Lettered]

end

end CppIndexer.Extract
