/-
# The two writers

`json_out` leaves the delete character as it is, and `ensure_ascii` writes it as an escape, five bytes
longer. Every other character comes out the same on both sides: the one reads it back from its bytes in
UTF-8, and what it then writes is what the other makes of the character. So the two texts of a document
are the same exactly if no text in it has that character.
-/

import CppIndexer.Query.CanonicalJson

namespace CppIndexer.Query

open Util (Bytes ascii)
open Util.Json (encodeString encodeBody escapeAscii escapeCodepoint unicodeEscape
  continuation indent)
open List Python

/-! ## Characters -/

/-- The character that the writers write in two ways. -/
def isDelete (c : Char) : Bool := c.toNat = 127

variable {rest : Bytes} {c : Char} {v high u : ℕ}

theorem escapeAscii_char (h : c.toNat < 128) :
    escapeAscii (UInt8.ofNat c.toNat) = if isDelete c then [127] else escapeChar c := by
  have hall : ∀ v < 128, escapeAscii (UInt8.ofNat v) =
      if isDelete (Char.ofNat v) then [127] else escapeChar (Char.ofNat v) := by
    decide +kernel
  have hchar := hall c.toNat h
  rwa [Char.ofNat_toNat] at hchar

/-- What Python makes of a character beyond ASCII. -/
theorem escapeChar_beyond (h : 128 ≤ c.toNat) : escapeChar c = escapeCodepoint c.toNat := by
  have hne : ∀ d : Char, d.toNat < 128 → c ≠ d := by
    rintro d hd rfl
    omega
  rw [escapeChar, if_neg (hne _ (by decide)), if_neg (hne _ (by decide)),
    if_neg (hne _ (by decide)), if_neg (hne _ (by decide)), if_neg (hne _ (by decide)),
    if_neg (by omega), if_neg (by omega), if_neg (by omega), escapeCodepoint]
  by_cases hplane : c.toNat ≤ 0xFFFF
  · rw [if_pos (by omega), if_pos hplane]
  · rw [if_neg (by omega), if_neg hplane]

variable {n : ℕ}

theorem toNat_byte (h : n < 256) : (UInt8.ofNat n).toNat = n := by
  rw [UInt8.toNat_ofNat', Nat.mod_eq_of_lt h]

theorem continuation_tail {remaining codepoint : ℕ} :
    continuation (remaining + 1) codepoint (UInt8.ofNat (v % 64 + 128) :: rest) =
      continuation remaining (codepoint * 64 + v % 64) rest := by
  rw [continuation, toNat_byte (by omega), if_pos (by omega)]
  congr 1
  omega

/-- A lead byte of two. -/
theorem encodeBody_two (hhigh : high < 32) :
    encodeBody (UInt8.ofNat (high + 192) :: UInt8.ofNat (v % 64 + 128) :: rest) =
      escapeCodepoint (high * 64 + v % 64) ++ encodeBody rest := by
  rw [encodeBody, toNat_byte (by omega), if_neg (by omega), if_pos (by omega), continuation_tail,
    continuation, show (high + 192) % 32 = high by omega]

/-- A lead byte of three. -/
theorem encodeBody_three (hhigh : high < 16) :
    encodeBody (UInt8.ofNat (high + 224) :: UInt8.ofNat (u % 64 + 128) :: UInt8.ofNat (v % 64 + 128) ::
      rest) = escapeCodepoint ((high * 64 + u % 64) * 64 + v % 64) ++ encodeBody rest := by
  rw [encodeBody, toNat_byte (by omega), if_neg (by omega), if_neg (by omega), if_pos (by omega),
    continuation_tail, continuation_tail, continuation, show (high + 224) % 16 = high by omega]

/-- A lead byte of four. -/
theorem encodeBody_four {t : ℕ} (hhigh : high < 8) :
    encodeBody (UInt8.ofNat (high + 240) :: UInt8.ofNat (t % 64 + 128) :: UInt8.ofNat (u % 64 + 128) ::
      UInt8.ofNat (v % 64 + 128) :: rest) =
      escapeCodepoint (((high * 64 + t % 64) * 64 + u % 64) * 64 + v % 64) ++ encodeBody rest := by
  rw [encodeBody, toNat_byte (by omega), if_neg (by omega), if_neg (by omega), if_neg (by omega),
    if_pos (by omega), continuation_tail, continuation_tail, continuation_tail, continuation,
    show (high + 240) % 8 = high by omega]

theorem utf8EncodeChar_eq (c : Char) : String.utf8EncodeChar c =
    if c.toNat ≤ 0x7f then [UInt8.ofNat c.toNat] else if c.toNat ≤ 0x7ff then
      [UInt8.ofNat (c.toNat / 64 % 32 + 192), UInt8.ofNat (c.toNat % 64 + 128)]
    else if c.toNat ≤ 0xffff then
      [UInt8.ofNat (c.toNat / 4096 % 16 + 224), UInt8.ofNat (c.toNat / 64 % 64 + 128),
        UInt8.ofNat (c.toNat % 64 + 128)] else
      [UInt8.ofNat (c.toNat / 262144 % 8 + 240), UInt8.ofNat (c.toNat / 4096 % 64 + 128),
        UInt8.ofNat (c.toNat / 64 % 64 + 128), UInt8.ofNat (c.toNat % 64 + 128)] := rfl

theorem encodeBody_beyond (h : 128 ≤ c.toNat) (rest : Bytes) :
    encodeBody (String.utf8EncodeChar c ++ rest) = escapeCodepoint c.toNat ++ encodeBody rest := by
  have hmax : c.toNat < 0x110000 := by
    have hvalid := c.valid
    simp only [UInt32.isValidChar, Nat.isValidChar] at hvalid
    change c.val.toNat < 0x110000
    omega
  rw [utf8EncodeChar_eq, if_neg (by omega)]
  by_cases htwo : c.toNat ≤ 0x7ff
  · rw [if_pos htwo, cons_append, cons_append, nil_append, encodeBody_two (by omega),
      show c.toNat / 64 % 32 * 64 + c.toNat % 64 = c.toNat by omega]
  · rw [if_neg htwo]
    by_cases hthree : c.toNat ≤ 0xffff
    · rw [if_pos hthree, cons_append, cons_append, cons_append, nil_append, encodeBody_three (by omega),
        show (c.toNat / 4096 % 16 * 64 + c.toNat / 64 % 64) * 64 + c.toNat % 64 = c.toNat by omega]
    · rw [if_neg hthree, cons_append, cons_append, cons_append, cons_append,
        nil_append, encodeBody_four (by omega),
        show ((c.toNat / 262144 % 8 * 64 + c.toNat / 4096 % 64) * 64 + c.toNat / 64 % 64) * 64 +
        c.toNat % 64 = c.toNat by omega]

/-- A character of a text in UTF-8 and the rest of it. -/
theorem encodeBody_char (c : Char) (rest : Bytes) : encodeBody (String.utf8EncodeChar c ++ rest) =
      (if isDelete c then [127] else escapeChar c) ++ encodeBody rest := by
  by_cases hascii : c.toNat < 128
  · have hbytes : String.utf8EncodeChar c = [UInt8.ofNat c.toNat] := by
      exact if_pos (Nat.lt_succ_iff.mp hascii)
    rw [hbytes, singleton_append, encodeBody, toNat_byte (by omega), if_pos hascii,
      escapeAscii_char hascii]
  · have hdelete : isDelete c = false := by
      rw [isDelete, decide_eq_false_iff_not]
      omega
    rw [hdelete, if_neg Bool.false_ne_true, escapeChar_beyond (by omega), encodeBody_beyond (by omega)]

/-! ## Texts that grow -/

/-- The second text is five bytes longer than the first for each of `n` places, and the same if there is
none. -/
structure Grown (n : ℕ) (xs ys : Bytes) : Prop where
  same : n = 0 → xs = ys
  length : ys.length = xs.length + 5 * n

namespace Grown

theorem refl (xs : Bytes) : Grown 0 xs xs := ⟨fun _ => rfl, rfl⟩

theorem append {m n : ℕ} {xs ys us vs : Bytes} (h : Grown m xs ys) (h' : Grown n us vs) :
    Grown (m + n) (xs ++ us) (ys ++ vs) := by
  constructor
  · intro _
    rw [h.same (by omega), h'.same (by omega)]
  · rw [length_append, length_append, h.length, h'.length]
    omega

theorem between {xs ys : Bytes} (h : Grown n xs ys) (before after : Bytes) :
    Grown n (before ++ xs ++ after) (before ++ ys ++ after) := by
  have happend := ((refl before).append h).append (refl after)
  rwa [Nat.zero_add, Nat.add_zero] at happend

theorem eq_iff {xs ys : Bytes} (h : Grown n xs ys) : xs = ys ↔ n = 0 := by
  constructor
  · intro heq
    have hlength := h.length
    rw [heq] at hlength
    omega
  · exact h.same

end Grown

/-- The delete characters of a text. -/
def deletes (value : String) : ℕ := value.toList.countP isDelete

theorem grown_char (c : Char) : Grown (if isDelete c then 1 else 0)
    (if isDelete c then [127] else escapeChar c) (escapeChar c) := by
  cases hdelete : isDelete c with
  | false => exact Grown.refl _
  | true =>
    have hchar : c = Char.ofNat 127 := by
      rw [isDelete, decide_eq_true_eq] at hdelete
      rw [← hdelete, Char.ofNat_toNat]
    subst hchar
    exact ⟨nofun, by decide +kernel⟩

theorem grown_text (value : String) :
    Grown (deletes value) (encodeString (textBytes value)) (encodeText value) := by
  have hbody : ∀ cs : List Char, Grown (cs.countP isDelete)
      (encodeBody (cs.flatMap String.utf8EncodeChar)) (cs.flatMap escapeChar) := by
    intro cs
    induction cs with
    | nil =>
      rw [flatMap_nil, flatMap_nil, encodeBody]
      exact Grown.refl []
    | cons c _ ih =>
      rw [flatMap_cons, flatMap_cons, encodeBody_char, countP_cons, Nat.add_comm]
      exact (grown_char c).append ih
  exact (hbody value.toList).between [34] [34]

/-! ## Documents -/

mutual

/-- The delete characters of the texts of a document. -/
def Doc.deletes : Doc → ℕ
  | .int _ => 0
  | .text value => Query.deletes value
  | .arr items => itemsDeletes items
  | .obj members => membersDeletes members

def itemsDeletes : List Doc → ℕ
  | [] => 0
  | item :: items => item.deletes + itemsDeletes items

def membersDeletes : List (String × Doc) → ℕ
  | [] => 0
  | (key, value) :: members => deletes key + value.deletes + membersDeletes members

end

/-- The lines behind the first one, each with the separator in front of it. -/
def laterItems (depth : ℕ) : List Doc → Bytes
  | [] => []
  | item :: items => ascii ",\n" ++ indent depth ++ item.emit depth ++ laterItems depth items

def laterMembers (depth : ℕ) : List (String × Doc) → Bytes
  | [] => []
  | (key, value) :: members =>
    ascii ",\n" ++ indent depth ++ encodeString (textBytes key) ++ ascii ": " ++ value.emit depth ++
      laterMembers depth members

theorem emitItems_cons (depth : ℕ) (item : Doc) (items : List Doc) : emitItems depth (item :: items) =
    indent depth ++ item.emit depth ++ laterItems depth items ++ ascii "\n" := by
  induction items generalizing item with
  | nil => rw [emitItems, laterItems, append_nil]
  | cons next items ih =>
    rw [emitItems, ih, laterItems]
    · simp
    · exact cons_ne_nil next items

theorem emitMembers_cons (depth : ℕ) (key : String) (value : Doc) (members : List (String × Doc)) :
    emitMembers depth ((key, value) :: members) = indent depth ++ encodeString (textBytes key) ++
      ascii ": " ++ value.emit depth ++ laterMembers depth members ++ ascii "\n" := by
  induction members generalizing key value with
  | nil => rw [emitMembers, laterMembers, append_nil]
  | cons next members ih =>
    rw [emitMembers, ih, laterMembers]
    · simp
    · exact cons_ne_nil next members

mutual

/-- Both writers put the same separators between the same lines. -/
theorem grown_emit : ∀ (doc : Doc) (depth : ℕ), Grown doc.deletes (doc.emit depth) (encode depth doc)
  | .int value, depth | .arr [], depth | .obj [], depth => by
      rw [Doc.emit, encode]
      exact Grown.refl _
  | .text value, depth => by
      rw [Doc.emit, encode]
      exact grown_text value
  | .arr (item :: items), depth => by
      rw [Doc.emit, encode, Doc.deletes, itemsDeletes, emitItems_cons]
      have hgrown := ((grown_emit item (depth + 1)).append (grown_laterItems items (depth + 1))).between
        (ascii "[\n" ++ indent (depth + 1)) (ascii "\n" ++ indent depth ++ ascii "]")
      simpa [ascii, newlineIndent] using hgrown
  | .obj ((key, value) :: members), depth => by
      rw [Doc.emit, encode, Doc.deletes, membersDeletes, emitMembers_cons]
      have hkey := (grown_text key).between (ascii "\x7b\n" ++ indent (depth + 1)) (ascii ": ")
      have hgrown := (hkey.append (grown_emit value (depth + 1))).append
        ((grown_laterMembers members (depth + 1)).between [] (ascii "\n" ++ indent depth ++ ascii "\x7d"))
      simpa [ascii, newlineIndent] using hgrown

theorem grown_laterItems : ∀ (items : List Doc) (depth : ℕ),
    Grown (itemsDeletes items) (laterItems depth items) (encodeItems depth items)
  | [], depth => Grown.refl _
  | item :: items, depth => by
      rw [laterItems, encodeItems, itemsDeletes]
      have hgrown := ((grown_emit item depth).between (ascii ",\n" ++ indent depth) []).append
        (grown_laterItems items depth)
      simpa [ascii, newlineIndent] using hgrown

theorem grown_laterMembers : ∀ (members : List (String × Doc)) (depth : ℕ),
    Grown (membersDeletes members) (laterMembers depth members) (encodeMembers depth members)
  | [], depth => Grown.refl _
  | (key, value) :: members, depth => by
      rw [laterMembers, encodeMembers, membersDeletes]
      have hkey := (grown_text key).between (ascii ",\n" ++ indent depth) (ascii ": ")
      have hgrown := (hkey.append (grown_emit value depth)).append (grown_laterMembers members depth)
      simpa [ascii, newlineIndent] using hgrown

end

end CppIndexer.Query
