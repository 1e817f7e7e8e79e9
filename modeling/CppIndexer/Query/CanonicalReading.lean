/-
# The canonical text read back

A text in UTF-8 is escaped character by character, and each escape ends by itself, so that the texts of a
document are read back from what `json_out` writes of them. A number ends at the line break or the comma
behind it, and the first byte of a value says which of the four kinds it is of. So a document is read back
from its text: two documents with the same text are the same.
-/

import CppIndexer.Lib.SelfDelimiting
import CppIndexer.Query.CanonicalTexts
import CppIndexer.Util.Decimal

namespace CppIndexer.Query

open Util (Bytes ascii)
open Util.Json SelfDelimiting List Option Doc

/-! ## Characters -/

variable (c : Char)

/-- What `encode_string` writes of a character in UTF-8. -/
def escape : Bytes := if isDelete c then [127] else Python.escapeChar c

theorem not_surrogate : ¬ (0xD800 ≤ c.toNat ∧ c.toNat < 0xE000) ∧ c.toNat < 0x110000 := by
  have hvalid := c.valid
  simp only [UInt32.isValidChar, Nat.isValidChar] at hvalid
  change ¬ (0xD800 ≤ c.val.toNat ∧ c.val.toNat < 0xE000) ∧ c.val.toNat < 0x110000
  omega

/-- `append_utf8` of a character. -/
theorem utf8_toNat : utf8 c.toNat = String.utf8EncodeChar c := by
  have hmax := (not_surrogate c).2
  rw [utf8EncodeChar_eq]
  unfold utf8
  split_ifs
  all_goals first | omega | rfl | (repeat' first | omega | congr 1)

variable {c} {rest : Bytes} {fuel high low unit : ℕ}

theorem hex4_unicodeEscape (h : unit < 0x10000) (rest : Bytes) :
    hex4 ((unicodeEscape unit).drop 2 ++ rest) = .ok (unit, rest) := by
  have hdigit : ∀ n, hexValue (hexDigit (n % 16)) = some (n % 16) := by
    intro _
    exact hexValue_hexDigit (Nat.mod_lt _ (by decide))
  simp only [hex4, unicodeEscape, drop_succ_cons, drop_zero, cons_append, nil_append, length_cons,
    hexDigits, hdigit]
  rw [if_neg (by omega)]
  congr 2
  omega

theorem readEscape_plane (h : ¬ (0xD800 ≤ unit ∧ unit < 0xE000)) (hplane : unit < 0x10000) :
    readEscape (117 :: (unicodeEscape unit).drop 2 ++ rest) = .ok (utf8 unit, rest) := by
  rw [cons_append, readEscape, if_pos rfl, unicodeUnit, hex4_unicodeEscape hplane]
  show (if _ then _ else _) = _
  rw [if_neg (by omega)]

theorem readEscape_pair (hmin : 0xD800 ≤ high) (hmax : high < 0xDC00) (hlow : 0xDC00 ≤ low)
    (hlow' : low < 0xE000) :
    readEscape (117 :: (unicodeEscape high).drop 2 ++ unicodeEscape low ++ rest) =
      .ok (utf8 (0x10000 + (high - 0xD800) * 1024 + (low - 0xDC00)), rest) := by
  have hsecond : hex4 ((unicodeEscape low ++ rest).drop 2) = .ok (low, rest) :=
    hex4_unicodeEscape (by omega) rest
  rw [append_assoc, cons_append, readEscape, if_pos rfl, unicodeUnit, hex4_unicodeEscape (by omega)]
  show (if _ then (hex4 ((unicodeEscape low ++ rest).drop 2) >>= fun _ => _) else _) = _
  rw [if_pos ⟨by omega, by omega, rfl⟩, hsecond]
  show (if _ then _ else _) = _
  rw [if_pos (by omega)]

theorem stringBody_plain {b : UInt8} (hquote : b ≠ 34) (hslash : b ≠ 92) (h : 32 ≤ b.toNat) :
    stringBody (fuel + 1) (b :: rest) = (stringBody fuel rest).map fun (out, behind) => (b :: out, behind) := by
  rw [stringBody, if_neg hquote, if_pos hslash, if_neg (by omega)]
  cases stringBody fuel rest <;> rfl

theorem stringBody_escaped {text bytes : Bytes} (h : readEscape (text ++ rest) = .ok (bytes, rest)) :
    stringBody (fuel + 1) (92 :: text ++ rest) =
      (stringBody fuel rest).map fun (out, behind) => (bytes ++ out, behind) := by
  rw [cons_append, stringBody, if_neg (by decide), if_neg (by decide), h]
  cases hbody : stringBody fuel rest <;> simp [bind, Except.bind, hbody, Except.map]

/-- The reader takes a character off the front of what is written of it. -/
theorem stringBody_escape : stringBody (fuel + 1) (escape c ++ rest) =
    (stringBody fuel rest).map fun (out, behind) => (String.utf8EncodeChar c ++ out, behind) := by
  have hchar : ∀ {n : ℕ}, c.toNat = n → c = Char.ofNat n := by
    intro _ hn
    rw [← hn, Char.ofNat_toNat]
  have hvalid := not_surrogate c
  rw [← utf8_toNat]
  unfold escape
  split
  · rename_i hdelete
    rw [hchar (by simpa [isDelete] using hdelete)]
    exact stringBody_plain (by decide) (by decide) (by decide)
  · unfold Python.escapeChar
    split_ifs with hquote hslash hnewline hreturn htab hfeed hback hprint hplane
    · rw [hquote]; exact stringBody_escaped rfl
    · rw [hslash]; exact stringBody_escaped rfl
    · rw [hnewline]; exact stringBody_escaped rfl
    · rw [hreturn]; exact stringBody_escaped rfl
    · rw [htab]; exact stringBody_escaped rfl
    · rw [hchar hfeed]; exact stringBody_escaped rfl
    · rw [hchar hback]; exact stringBody_escaped rfl
    · have hbyte := @toNat_byte c.toNat (by omega)
      rw [utf8, if_pos (by omega)]
      apply stringBody_plain
      · intro heq
        exact hquote (hchar (by rw [← hbyte, heq]; rfl))
      · intro heq
        exact hslash (hchar (by rw [← hbyte, heq]; rfl))
      · omega
    · exact stringBody_escaped (readEscape_plane hvalid.1 hplane)
    · have hvalue : 0x10000 + (0xD800 + (c.toNat - 0x10000) / 1024 % 1024 - 0xD800) * 1024 +
          (0xDC00 + (c.toNat - 0x10000) % 1024 - 0xDC00) = c.toNat := by omega
      have hpair := @readEscape_pair rest (0xD800 + (c.toNat - 0x10000) / 1024 % 1024)
        (0xDC00 + (c.toNat - 0x10000) % 1024) (by omega) (by omega) (by omega) (by omega)
      rw [hvalue] at hpair
      exact stringBody_escaped hpair

/-! ## Texts -/

/-- `parse_string` reads a text back. -/
theorem parseString_text (value : String) (rest : Bytes) :
    parseString (encodeString (textBytes value) ++ rest) = .ok (textBytes value, rest) := by
  have hwritten : ∀ cs : List Char,
      encodeBody (cs.flatMap String.utf8EncodeChar) = cs.flatMap escape := by
    intro cs
    induction cs with
    | nil => rw [flatMap_nil, flatMap_nil, encodeBody]
    | cons _ _ ih =>
      rw [flatMap_cons, flatMap_cons, encodeBody_char, ih]
      rfl
  have hread : ∀ (cs : List Char) (fuel : ℕ), (cs.flatMap escape).length < fuel →
      stringBody fuel (cs.flatMap escape ++ 34 :: rest) = .ok (cs.flatMap String.utf8EncodeChar, rest) := by
    intro cs
    induction cs with
    | nil =>
      intro fuel hfuel
      obtain ⟨fuel, rfl⟩ := Nat.exists_eq_add_of_lt hfuel
      rw [stringBody.eq_def]
      rfl
    | cons c _ ih =>
      intro fuel hfuel
      have hpos : 0 < (escape c).length := by
        unfold escape Python.escapeChar
        split_ifs <;> exact Nat.succ_pos _
      rw [flatMap_cons, length_append] at hfuel
      obtain ⟨fuel, rfl⟩ : ∃ n, fuel = n + 1 := ⟨fuel - 1, by omega⟩
      rw [flatMap_cons, append_assoc, stringBody_escape, ih _ (by omega)]
      rfl
  rw [encodeString, textBytes, hwritten, cons_append, cons_append, append_assoc, parseString]
  exact hread _ _ (by rw [length_append]; omega)

theorem delimits_text : Delimits fun value : String => encodeString (textBytes value) := by
  intro s t x y h
  have hread := parseString_text s x
  dsimp only at h
  rw [h, parseString_text, Except.ok.injEq, Prod.mk.injEq] at hread
  refine ⟨String.toByteArray_inj.mp ?_, hread.2.symm⟩
  have hbytes := congrArg List.toByteArray hread.1
  rw [← String.utf8Encode_toList, ← String.utf8Encode_toList]
  exact hbytes.symm

/-! ## Numbers -/

/-- What may stand behind a value: nothing, a line break or a comma. -/
def Ends (rest : Bytes) : Prop := ∀ c ∈ rest.head?, c = 10 ∨ c = 44

theorem Ends.stops {rest : Bytes} (h : Ends rest) : ∀ c ∈ rest.head?, isDecimalByte c = false := by
  intro c hc
  obtain rfl | rfl := h c hc
  all_goals decide

/-! ## Documents -/

/-- The first byte of a number stands for any number. -/
def markOf (c : UInt8) : UInt8 := if isDecimalByte c then 48 else c

/-- The first byte of a value of the kind. -/
def Doc.mark : Doc → UInt8
  | .int _ => 48
  | .text _ => 34
  | .arr _ => 91
  | .obj _ => 123

theorem emit_mark (doc : Doc) (depth : ℕ) : ∃ c rest, doc.emit depth = c :: rest ∧ markOf c = doc.mark := by
  match doc with
  | .int value =>
    obtain ⟨c, rest, hdecimal, hbyte⟩ := decimal_cons value
    exact ⟨c, rest, by rw [Doc.emit, hdecimal], by rw [markOf, hbyte]; rfl⟩
  | .text value => exact ⟨34, _, by rw [Doc.emit]; rfl, rfl⟩
  | .arr [] => exact ⟨91, [93], by rw [Doc.emit]; rfl, rfl⟩
  | .arr (item :: items) => exact ⟨91, _, by rw [Doc.emit]; rfl, rfl⟩
  | .obj [] => exact ⟨123, [125], by rw [Doc.emit]; rfl, rfl⟩
  | .obj (member :: members) => exact ⟨123, _, by rw [Doc.emit]; rfl, rfl⟩

/-- Values with the same text are of the same kind. -/
theorem mark_eq {a b : Doc} {depth : ℕ} {x y : Bytes} (h : a.emit depth ++ x = b.emit depth ++ y) :
    a.mark = b.mark := by
  obtain ⟨_, _, hemit, hmark⟩ := emit_mark a depth
  obtain ⟨_, _, hemit', hmark'⟩ := emit_mark b depth
  rw [hemit, hemit', cons_append, cons_append] at h
  rw [← hmark, ← hmark', (cons.inj h).1]

variable (depth : ℕ)

theorem emit_arr_cons (item : Doc) (items : List Doc) (rest : Bytes) :
    (arr (item :: items)).emit depth ++ rest =
      91 :: 10 :: (indent (depth + 1) ++ (item.emit (depth + 1) ++ (laterItems (depth + 1) items ++
        10 :: (indent depth ++ 93 :: rest)))) := by
  rw [Doc.emit, emitItems_cons]
  simp [ascii]

theorem emit_obj_cons (key : String) (value : Doc) (members : List (String × Doc))
    (rest : Bytes) : (obj ((key, value) :: members)).emit depth ++ rest =
      123 :: 10 :: (indent (depth + 1) ++ (encodeString (textBytes key) ++ 58 :: 32 ::
        (value.emit (depth + 1) ++ (laterMembers (depth + 1) members ++
          10 :: (indent depth ++ 125 :: rest))))) := by
  rw [Doc.emit, emitMembers_cons]
  simp [ascii]

theorem laterItems_cons (item : Doc) (items : List Doc) (rest : Bytes) :
    laterItems depth (item :: items) ++ 10 :: rest =
      44 :: 10 :: (indent depth ++ (item.emit depth ++ (laterItems depth items ++ 10 :: rest))) := by
  rw [laterItems]
  simp [ascii]

theorem laterMembers_cons (key : String) (value : Doc) (members : List (String × Doc))
    (rest : Bytes) : laterMembers depth ((key, value) :: members) ++ 10 :: rest =
      44 :: 10 :: (indent depth ++ (encodeString (textBytes key) ++ 58 :: 32 ::
        (value.emit depth ++ (laterMembers depth members ++ 10 :: rest)))) := by
  rw [laterMembers]
  simp [ascii]

theorem ends_laterItems (items : List Doc) (rest : Bytes) :
    Ends (laterItems depth items ++ 10 :: rest) := by
  intro _ hc
  cases items with
  | nil => exact .inl (some.inj hc).symm
  | cons =>
    rw [laterItems_cons] at hc
    exact .inr (some.inj hc).symm

theorem ends_laterMembers (members : List (String × Doc)) (rest : Bytes) :
    Ends (laterMembers depth members ++ 10 :: rest) := by
  intro _ hc
  match members with
  | [] => exact .inl (some.inj hc).symm
  | (key, value) :: members =>
    rw [laterMembers_cons] at hc
    exact .inr (some.inj hc).symm

mutual

/-- A document is read back from its text, whatever ends it. -/
theorem emit_read : ∀ (a b : Doc) (depth : ℕ) (x y : Bytes), Ends x → Ends y →
    a.emit depth ++ x = b.emit depth ++ y → a = b ∧ x = y
  | .int i, b, depth, x, y, hx, hy, h => by
      have hmark := mark_eq h
      match b with
      | .int j =>
        rw [Doc.emit, Doc.emit] at h
        obtain ⟨rfl, hrest⟩ := eq_of_decimal_append hx.stops hy.stops h
        exact ⟨rfl, hrest⟩
      | .text _ | .arr _ | .obj _ => exact absurd hmark (by simp [mark])
  | .text s, b, depth, x, y, hx, hy, h => by
      have hmark := mark_eq h
      match b with
      | .text t =>
        rw [Doc.emit, Doc.emit] at h
        obtain ⟨rfl, hrest⟩ := delimits_text h
        exact ⟨rfl, hrest⟩
      | .int _ | .arr _ | .obj _ => exact absurd hmark (by simp [mark])
  | .arr [], b, depth, x, y, hx, hy, h => by
      have hmark := mark_eq h
      match b with
      | .arr [] => exact ⟨rfl, append_cancel_left h⟩
      | .arr (item :: items) =>
        exact absurd (cons.inj (cons.inj h).2).1 (by decide)
      | .int _ | .text _ | .obj _ => exact absurd hmark (by simp [mark])
  | .arr (item :: items), b, depth, x, y, hx, hy, h => by
      have hmark := mark_eq h
      match b with
      | .arr [] =>
        exact absurd (cons.inj (cons.inj h).2).1 (by decide)
      | .arr (item' :: items') =>
        rw [emit_arr_cons, emit_arr_cons, cons.injEq, cons.injEq] at h
        have hitems := append_cancel_left h.2.2
        obtain ⟨rfl, hlater⟩ := emit_read item item' _ _ _ (ends_laterItems _ _ _)
          (ends_laterItems _ _ _) hitems
        obtain ⟨rfl, hend⟩ := laterItems_read items items' _ _ _ hlater
        exact ⟨rfl, (cons.inj (append_cancel_left hend)).2⟩
      | .int _ | .text _ | .obj _ => exact absurd hmark (by simp [mark])
  | .obj [], b, depth, x, y, hx, hy, h => by
      have hmark := mark_eq h
      match b with
      | .obj [] => exact ⟨rfl, append_cancel_left h⟩
      | .obj ((key, value) :: members) =>
        exact absurd (cons.inj (cons.inj h).2).1 (by decide)
      | .int _ | .text _ | .arr _ => exact absurd hmark (by simp [mark])
  | .obj ((key, value) :: members), b, depth, x, y, hx, hy, h => by
      have hmark := mark_eq h
      match b with
      | .obj [] =>
        exact absurd (cons.inj (cons.inj h).2).1 (by decide)
      | .obj ((key', value') :: members') =>
        rw [emit_obj_cons, emit_obj_cons, cons.injEq, cons.injEq] at h
        obtain ⟨rfl, hvalue⟩ := delimits_text (append_cancel_left h.2.2)
        rw [cons.injEq, cons.injEq] at hvalue
        obtain ⟨rfl, hlater⟩ := emit_read value value' _ _ _ (ends_laterMembers _ _ _)
          (ends_laterMembers _ _ _) hvalue.2.2
        obtain ⟨rfl, hend⟩ := laterMembers_read members members' _ _ _ hlater
        exact ⟨rfl, (cons.inj (append_cancel_left hend)).2⟩
      | .int _ | .text _ | .arr _ => exact absurd hmark (by simp [mark])

theorem laterItems_read : ∀ (as bs : List Doc) (depth : ℕ) (x y : Bytes),
    laterItems depth as ++ 10 :: x = laterItems depth bs ++ 10 :: y → as = bs ∧ x = y
  | [], [], depth, x, y, h => ⟨rfl, (cons.inj h).2⟩
  | [], item :: items, depth, x, y, h | item :: items, [], depth, x, y, h => by
      exact absurd (cons.inj h).1 (by decide)
  | item :: items, item' :: items', depth, x, y, h => by
      rw [laterItems_cons, laterItems_cons, cons.injEq, cons.injEq] at h
      obtain ⟨rfl, hlater⟩ := emit_read item item' _ _ _ (ends_laterItems _ _ _)
        (ends_laterItems _ _ _) (append_cancel_left h.2.2)
      obtain ⟨rfl, hend⟩ := laterItems_read items items' _ _ _ hlater
      exact ⟨rfl, hend⟩

theorem laterMembers_read : ∀ (as bs : List (String × Doc)) (depth : ℕ) (x y : Bytes),
    laterMembers depth as ++ 10 :: x = laterMembers depth bs ++ 10 :: y → as = bs ∧ x = y
  | [], [], depth, x, y, h => ⟨rfl, (cons.inj h).2⟩
  | [], (key, value) :: members, depth, x, y, h | (key, value) :: members, [], depth, x, y, h => by
      exact absurd (cons.inj h).1 (by decide)
  | (key, value) :: members, (key', value') :: members', depth, x, y, h => by
      rw [laterMembers_cons, laterMembers_cons, cons.injEq, cons.injEq] at h
      obtain ⟨rfl, hvalue⟩ := delimits_text (append_cancel_left h.2.2)
      rw [cons.injEq, cons.injEq] at hvalue
      obtain ⟨rfl, hlater⟩ := emit_read value value' _ _ _ (ends_laterMembers _ _ _)
        (ends_laterMembers _ _ _) hvalue.2.2
      obtain ⟨rfl, hend⟩ := laterMembers_read members members' _ _ _ hlater
      exact ⟨rfl, hend⟩

end

/-- Documents with the same text are the same. -/
theorem emit_injective : Function.Injective (Doc.emit 0) := by
  intro a b h
  have hends : Ends [] := by
    intro _ hc
    cases hc
  exact (emit_read a b 0 [] [] hends hends (by rw [h])).1

end CppIndexer.Query
