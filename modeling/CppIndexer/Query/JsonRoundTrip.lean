/-
# What is written is read back

`json_read` reads every value back from the text that `json_out` makes of it: whatever its numbers and its
texts are, as long as no object has a key twice and the reader allows the nesting.
-/

import CppIndexer.Query.CanonicalReading

namespace CppIndexer.Query

open Util (Bytes ascii)
open Util.Json List

variable {x : Bytes}

/-! ## Numbers -/

theorem digitsValue_decimalNat (n : ℕ) : digitsValue (decimalNat n) = some n := by
  have hdigits : (decimalNat n).all (fun c => decide (48 ≤ c.toNat ∧ c.toNat ≤ 57)) = true :=
    all_eq_true.mpr fun c hc => decide_eq_true (decimalNat_digit hc)
  have hvalue := ofDigits_decimalNat n
  rw [Nat.ofDigits_eq_foldr, foldr_map, foldr_reverse] at hvalue
  rw [digitsValue, if_pos ⟨decimalNat_ne_nil n, hdigits⟩]
  simpa [mul_comm, add_comm] using hvalue

theorem strtoll_decimal (i : Int64) : strtoll (decimal i.toInt) = some i := by
  have hrange : -2 ^ 63 ≤ i.toInt ∧ i.toInt < 2 ^ 63 := ⟨i.le_toInt, i.toInt_lt⟩
  rcases lt_or_ge i.toInt 0 with hneg | hnonneg
  · have habs : -(i.toInt.natAbs : ℤ) = i.toInt := by omega
    rw [decimal, if_pos hneg, strtoll, digitsValue_decimalNat]
    show (if -2 ^ 63 ≤ -(i.toInt.natAbs : ℤ) ∧ -(i.toInt.natAbs : ℤ) < 2 ^ 63 then
      some (Int64.ofInt (-(i.toInt.natAbs : ℤ))) else none) = some i
    rw [habs, if_pos hrange, Int64.ofInt_toInt]
  · have habs : (i.toInt.natAbs : ℤ) = i.toInt := by omega
    obtain ⟨c, digits, hdigits⟩ := exists_cons_of_ne_nil (decimalNat_ne_nil i.toInt.natAbs)
    have hc := decimalNat_digit (hdigits ▸ mem_cons_self)
    have hvalue := digitsValue_decimalNat i.toInt.natAbs
    rw [decimal, if_neg hnonneg.not_gt]
    rw [hdigits] at hvalue ⊢
    unfold strtoll
    split
    · cases ‹c :: digits = _›
      exact absurd hc.1 (by decide)
    · cases ‹c :: digits = _›
      exact absurd hc.1 (by decide)
    · simpa [hvalue, habs] using hrange

/-- No number goes on behind a value. -/
def Closes (rest : Bytes) : Prop := ∀ b ∈ rest.head?, isNumberByte b = false

theorem parseNumber_decimal (i : Int64) (hx : Closes x) :
    parseNumber (decimal i.toInt ++ x) = .ok (.int i, x) := by
  have hbyte : ∀ b ∈ decimal i.toInt, b = 45 ∨ 48 ≤ b.toNat ∧ b.toNat ≤ 57 := by
    intro b hb
    simpa [isDecimalByte] using isDecimalByte_decimal hb
  have hword : (decimal i.toInt ++ x).takeWhile isNumberByte = decimal i.toInt := by
    rw [takeWhile_append_of_pos fun b hb => by rcases hbyte b hb with rfl | h <;> simp [isNumberByte, *]]
    cases x with
    | nil => simp
    | cons b => simp [hx b rfl]
  have hne : decimal i.toInt ≠ [] := by
    obtain ⟨b, text, h, _⟩ := decimal_cons i.toInt
    rw [h]
    exact cons_ne_nil b text
  have hpoint : (decimal i.toInt).any (fun b => b = 46 ∨ b = 101 ∨ b = 69) = false := by
    rw [any_eq_false]
    rintro b hb hpoint
    rcases hbyte b hb with rfl | h
    · exact absurd hpoint (by decide)
    · simp only [decide_eq_true_eq] at hpoint
      rcases hpoint with rfl | rfl | rfl <;> exact absurd h (by decide)
  rw [parseNumber, hword, if_neg hne, hpoint, if_neg Bool.false_ne_true, strtoll_decimal, drop_left]

/-! ## Values -/

/-- Keys and strings are texts in UTF-8, no object has a key twice, and so many levels are enough. -/
inductive Readable : ℕ → Value → Prop
  | null {n : ℕ} : Readable (n + 1) .null
  | bool {n : ℕ} (b : Bool) : Readable (n + 1) (.bool b)
  | int {n : ℕ} (i : Int64) : Readable (n + 1) (.int i)
  | str {n : ℕ} (text : String) : Readable (n + 1) (.str (textBytes text))
  | arr {n : ℕ} {items : List Value} (h : ∀ v ∈ items, Readable n v) : Readable (n + 1) (.arr items)
  | obj {n : ℕ} {members : List (Bytes × Value)} (hkeys : (members.map Prod.fst).Nodup)
      (htexts : ∀ m ∈ members, ∃ key : String, m.1 = textBytes key)
      (h : ∀ m ∈ members, Readable n m.2) : Readable (n + 1) (.obj members)

variable {depth outer : ℕ} {value : Reader Value} {v : Value} {text : Bytes}

theorem skipWs_indent (k : ℕ) (x : Bytes) : skipWs (10 :: (indent k ++ x)) = skipWs x := by
  have hspace : ∀ b ∈ 10 :: indent k, isSpace b = true := by
    intro b hb
    rcases mem_cons.mp hb with rfl | hb
    · rfl
    · rw [eq_of_mem_replicate hb]
      rfl
  exact (dropWhile_append_of_pos hspace : (_ ++ x).dropWhile _ = _)

theorem skipWs_emit (depth : ℕ) (v : Value) (x : Bytes) : skipWs (emit depth v ++ x) = emit depth v ++ x ∧
    (emit depth v ++ x).head? ≠ some 93 := by
  have hstart : ∃ b text, emit depth v = b :: text ∧ isSpace b = false ∧ b ≠ 93 := by
    match v with
    | .null | .bool true | .bool false | .str _ | .arr [] | .arr (_ :: _) | .obj [] | .obj (_ :: _) =>
      rw [emit]
      exact ⟨_, _, rfl, by decide, by decide⟩
    | .int i =>
      obtain ⟨b, text, hdecimal, hbyte⟩ := decimal_cons i.toInt
      refine ⟨b, text, by rw [emit, hdecimal], ?_, ?_⟩
      · rw [← Bool.not_eq_true]
        intro hspace
        simp only [isSpace, decide_eq_true_eq] at hspace
        rcases hspace with rfl | rfl | rfl | rfl <;> exact absurd hbyte (by decide)
      · rintro rfl
        exact absurd hbyte (by decide)
  obtain ⟨b, rest, hemit, hspace, hclose⟩ := hstart
  rw [hemit, cons_append]
  exact ⟨dropWhile_cons_of_neg (by simp [hspace]), by simpa using hclose⟩

/-- The lines behind the first. -/
def later (line : α → Bytes) (depth : ℕ) (lines : List α) : Bytes :=
  lines.flatMap fun a => 44 :: 10 :: (indent depth ++ line a)

theorem length_le_later (line : α → Bytes) (depth : ℕ) (lines : List α) :
    lines.length ≤ (later line depth lines).length := by
  induction lines with
  | nil => exact Nat.zero_le _
  | cons _ _ ih =>
    rw [later, flatMap_cons, length_append, ← later]
    simp only [length_cons]
    omega

theorem emitItems_eq (v : Value) (items : List Value) : Util.Json.emitItems depth (v :: items) =
    indent depth ++ emit depth v ++ later (emit depth) depth items ++ [10] := by
  induction items generalizing v with
  | nil => simp [Util.Json.emitItems, later, ascii]
  | cons w items ih =>
    rw [Util.Json.emitItems, ih]
    · simp [later, ascii]
    · exact cons_ne_nil w items

section Lines

variable {α : Type} {close : UInt8} {wrap : List α → Value} {line : α → Bytes}
  {loop : ℕ → List α → Reader Value} {total behind acc : List α} {a : α}

/-- What one turn of a loop over lines does: behind a line stands a comma or the end. -/
def Turns (close : UInt8) (wrap : List α → Value) (line : α → Bytes)
    (loop : ℕ → List α → Reader Value) (total : List α) : Prop :=
  ∀ fuel acc a behind, total = acc ++ a :: behind → ∀ text tail, Closes tail →
    skipWs text = line a ++ tail → loop (fuel + 1) acc text =
      match skipWs tail with
      | 44 :: rest => loop fuel (acc ++ [a]) rest
      | _ => (expect close (skipWs tail)).map fun rest => (wrap (acc ++ [a]), rest)

theorem loop_lines (hturns : Turns close wrap line loop total) (hclose : close = 93 ∨ close = 125)
    (hline : ∀ a x, skipWs (line a ++ x) = line a ++ x) {fuel : ℕ}
    (htotal : total = acc ++ a :: behind) (hfuel : behind.length < fuel)
    (htext : skipWs text = line a ++ (later line depth behind ++ 10 :: (indent outer ++ close :: x))) :
    loop fuel acc text = .ok (wrap total, x) := by
  induction behind generalizing a acc fuel text with
  | nil =>
    obtain ⟨fuel, rfl⟩ := Nat.exists_eq_add_of_lt hfuel
    have hend : skipWs (10 :: (indent outer ++ close :: x)) = close :: x := by
      rw [skipWs_indent]
      rcases hclose with rfl | rfl <;> rfl
    rw [hturns _ _ _ _ htotal _ _ (by simp [Closes, later]; decide) htext, htotal]
    show (match skipWs (10 :: (indent outer ++ close :: x)) with
      | 44 :: _ => _
      | _ => (expect close (skipWs (10 :: (indent outer ++ close :: x)))).map fun _ => _) = _
    rw [hend]
    rcases hclose with rfl | rfl <;> rfl
  | cons b behind ih =>
    rw [length_cons] at hfuel
    obtain ⟨fuel, rfl⟩ := Nat.exists_eq_add_of_lt hfuel
    rw [hturns _ _ _ _ htotal _ _ (by simp [Closes, later]; decide) htext]
    show loop _ (acc ++ [a]) (10 :: (indent depth ++ line b ++ later line depth behind) ++
      10 :: (indent outer ++ close :: x)) = _
    apply ih (a := b) (by simp [htotal]) (by omega)
    rw [cons_append, append_assoc, append_assoc, skipWs_indent, hline]

end Lines

theorem turns_items {items : List Value}
    (hvalue : ∀ w ∈ items, ∀ x, Closes x → value (emit depth w ++ x) = .ok (w, x)) :
    Turns 93 .arr (emit depth) (parseItems value) items := by
  intro fuel acc v behind htotal text tail hcloses htext
  rw [parseItems, htext, hvalue v (by simp [htotal]) _ hcloses]
  rfl

/-- A member behind its indentation. -/
def memberLine (depth : ℕ) (m : Bytes × Value) : Bytes := encodeString m.1 ++ ascii ": " ++ emit depth m.2

theorem emitMembers_eq (m : Bytes × Value) (members : List (Bytes × Value)) :
    Util.Json.emitMembers depth (m :: members) =
      indent depth ++ memberLine depth m ++ later (memberLine depth) depth members ++ [10] := by
  induction members generalizing m with
  | nil => simp [Util.Json.emitMembers, later, memberLine, ascii]
  | cons w members ih =>
    rw [Util.Json.emitMembers, ih]
    · simp [later, memberLine, ascii]
    · exact cons_ne_nil w members

theorem setMember_new {key : Bytes} {members : List (Bytes × Value)} (h : key ∉ members.map Prod.fst) :
    setMember key v members = members ++ [(key, v)] := by
  induction members with
  | nil => rfl
  | cons m members ih =>
    rw [map_cons, mem_cons, not_or] at h
    rw [setMember, if_neg (Ne.symm h.1), ih h.2, cons_append]

theorem turns_members {members : List (Bytes × Value)}
    (hvalue : ∀ m ∈ members, ∀ x, Closes x → value (emit depth m.2 ++ x) = .ok (m.2, x))
    (htexts : ∀ m ∈ members, ∃ key : String, m.1 = textBytes key)
    (hkeys : (members.map Prod.fst).Nodup) :
    Turns 125 .obj (memberLine depth) (parseMembers value) members := by
  rintro fuel acc ⟨first, v⟩ behind rfl text tail hcloses htext
  obtain ⟨key, rfl⟩ : ∃ key : String, first = textBytes key := htexts (first, v) (by simp)
  have hnew : textBytes key ∉ acc.map Prod.fst := by
    rw [map_append, map_cons, nodup_append] at hkeys
    exact fun hmem => hkeys.2.2 _ hmem _ mem_cons_self rfl
  have hread : skipWs text = encodeString (textBytes key) ++ 58 :: 32 :: (emit depth v ++ tail) := by
    rw [htext, memberLine]
    simp [ascii]
  have hhead : (encodeString (textBytes key) ++ 58 :: 32 :: (emit depth v ++ tail)).head? = some 34 := rfl
  rw [parseMembers, hread, if_neg (not_not.mpr hhead), parseString_text]
  show (value (skipWs (emit depth v ++ tail)) >>= fun _ => _) = _
  rw [(skipWs_emit _ _ _).1, hvalue (textBytes key, v) (by simp) _ hcloses, ← setMember_new hnew]
  rfl

theorem parseArray_cons (hx : skipWs x = text) (h : text.head? ≠ some 93) :
    parseArray value (91 :: x) = parseItems value (text.length + 1) [] text := by
  rw [parseArray, show expect 91 (91 :: x) = .ok x from rfl]
  simp only [bind, Except.bind, hx]
  split
  · exact absurd rfl h
  · rfl

theorem parseObject_cons (hx : skipWs x = text) (h : text.head? ≠ some 125) :
    parseObject value (123 :: x) = parseMembers value (text.length + 1) [] text := by
  rw [parseObject, show expect 123 (123 :: x) = .ok x from rfl]
  simp only [bind, Except.bind, hx]
  split
  · exact absurd rfl h
  · rfl

/-- A value is read back from its text, whatever ends it. -/
theorem parseValue_emit {levels : ℕ} (h : Readable levels v) (depth : ℕ) {x : Bytes} (hx : Closes x) :
    parseValue levels (emit depth v ++ x) = .ok (v, x) := by
  induction h generalizing depth x with
  | null => rw [emit]; rfl
  | bool b => cases b <;> rw [emit] <;> rfl
  | int i =>
    obtain ⟨b, text, hdecimal, hbyte⟩ := decimal_cons i.toInt
    rw [emit, ← parseNumber_decimal i hx, hdecimal, cons_append, parseValue, head?_cons]
    split
    case h_7 => rfl
    all_goals
      cases ‹some b = _›
      exact absurd hbyte (by decide)
  | str text =>
    rw [emit, parseValue]
    show (parseString (encodeString (textBytes text) ++ x) >>= fun _ => _) = _
    rw [parseString_text]
    rfl
  | @arr n items _ ih =>
    cases items with
    | nil => rw [emit]; rfl
    | cons v items =>
      have htext : emit depth (.arr (v :: items)) ++ x = 91 :: 10 :: (indent (depth + 1) ++
          (emit (depth + 1) v ++ (later (emit (depth + 1)) (depth + 1) items ++
            10 :: (indent depth ++ 93 :: x)))) := by
        rw [emit, emitItems_eq]
        simp [ascii]
      have hlength := length_le_later (emit (depth + 1)) (depth + 1) items
      rw [htext]
      show parseArray _ (91 :: _) = _
      rw [parseArray_cons ((skipWs_indent _ _).trans (skipWs_emit _ _ _).1) (skipWs_emit _ _ _).2]
      exact loop_lines (turns_items fun w hw x hx => ih w hw _ hx) (.inl rfl)
        (fun w x => (skipWs_emit _ w x).1) rfl (by simp only [length_append]; omega)
        (skipWs_emit _ _ _).1
  | @obj n members hkeys htexts _ ih =>
    cases members with
    | nil => rw [emit]; rfl
    | cons m members =>
      have htext : emit depth (.obj (m :: members)) ++ x = 123 :: 10 :: (indent (depth + 1) ++
          (memberLine (depth + 1) m ++ (later (memberLine (depth + 1)) (depth + 1) members ++
            10 :: (indent depth ++ 125 :: x)))) := by
        rw [emit, emitMembers_eq]
        simp [ascii]
      have hlength := length_le_later (memberLine (depth + 1)) (depth + 1) members
      rw [htext]
      have hquote : ∀ y, skipWs (memberLine (depth + 1) m ++ y) = memberLine (depth + 1) m ++ y := fun _ => rfl
      show parseObject _ (123 :: _) = _
      rw [parseObject_cons ((skipWs_indent _ _).trans (hquote _)) (ne_of_beq_false rfl)]
      exact loop_lines (turns_members (fun w hw x hx => ih w hw _ hx) htexts hkeys) (.inr rfl)
        (fun _ _ => rfl) rfl (by simp only [length_append]; omega) (hquote _)

/-- What `json_out` writes of a value, `json_read` reads back. -/
theorem parse_dumpsIndent2 (h : Readable (maxDepth + 1) v) : Util.Json.parse (dumpsIndent2 v) = .ok v := by
  have hread := parseValue_emit h 0 (x := []) (by simp [Closes])
  have hstart := (skipWs_emit 0 v []).1
  rw [append_nil] at hread hstart
  rw [Util.Json.parse, dumpsIndent2, hstart, hread]
  rfl

theorem parse_dumpsIndent2_flags :
    Util.Json.parse (dumpsIndent2 (.obj [(textBytes "a", .arr [.int (-7), .bool true])])) =
      .ok (.obj [(textBytes "a", .arr [.int (-7), .bool true])]) := by
  apply parse_dumpsIndent2
  refine .obj (by decide) (by simp) ?_
  simp only [mem_singleton, forall_eq]
  refine .arr ?_
  simp only [mem_cons, not_mem_nil, or_false, forall_eq_or_imp, forall_eq]
  exact ⟨.int _, .bool _⟩

end CppIndexer.Query
