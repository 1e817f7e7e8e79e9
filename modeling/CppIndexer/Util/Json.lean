/-
# JSON values, their text and their strict reader

`json_out` writes a value tree with the byte rules of `json.dumps(indent=2)`,
and `json_read` reads untrusted text back.  The reader knows no fractions: a
number is what `strtoll` makes of a run of digits, signs, points and exponent
letters, and a run with a point or an exponent letter is refused.

The reader's position is the input that is left.  An error keeps how much was
left when it was thrown, which gives the offset of its message.  Nesting is
bounded by `maxDepth`, and the bound is what the recursion over values runs
on; the loops over members and items run on the input, of which every turn
takes at least one byte.
-/

import CppIndexer.Util.PathUtil
import Mathlib.Data.Nat.Digits.Defs
import Mathlib.Tactic.IntervalCases

namespace CppIndexer.Util.Json

/-- `json_out::Value`. -/
inductive Value where
  | null
  | bool (b : Bool)
  | int (i : Int64)
  | str (s : Bytes)
  | arr (a : List Value)
  | obj (o : List (Bytes × Value))

/-! ## Writing -/

/-- The decimal digits of a number, most significant first. -/
def decimalNat (n : Nat) : Bytes :=
  if n = 0 then [48] else (Nat.digits 10 n).reverse.map fun d => UInt8.ofNat (48 + d)

/-- `std::to_string`. -/
def decimal (i : Int) : Bytes :=
  if i < 0 then 45 :: decimalNat i.natAbs else decimalNat i.natAbs

/-- One lowercase hexadecimal digit. -/
def hexDigit (d : Nat) : UInt8 :=
  UInt8.ofNat (if d < 10 then 48 + d else 87 + d)

/-- `"\\u%04x"`, of a value below 0x10000. -/
def unicodeEscape (unit : Nat) : Bytes :=
  [92, 117, hexDigit (unit / 4096 % 16), hexDigit (unit / 256 % 16),
    hexDigit (unit / 16 % 16), hexDigit (unit % 16)]

variable (c : UInt8)

def escapeAscii : Bytes :=
  if c = 34 then [92, 34]
  else if c = 92 then [92, 92]
  else if c = 8 then [92, 98]
  else if c = 12 then [92, 102]
  else if c = 10 then [92, 110]
  else if c = 13 then [92, 114]
  else if c = 9 then [92, 116]
  else if c < 32 then unicodeEscape c.toNat
  else [c]

/-- A code point above ASCII, as one unit or as a surrogate pair. -/
def escapeCodepoint (codepoint : Nat) : Bytes :=
  if codepoint ≤ 0xFFFF then unicodeEscape codepoint
  else
    unicodeEscape (0xD800 + (codepoint - 0x10000) / 1024 % 1024) ++
      unicodeEscape (0xDC00 + (codepoint - 0x10000) % 1024)

/-- Up to `remaining` continuation bytes: the code point they complete and
the input behind them.  A byte that continues nothing ends the sequence. -/
def continuation : Nat → Nat → Bytes → Nat × Bytes
  | 0, codepoint, rest => (codepoint, rest)
  | _ + 1, codepoint, [] => (codepoint, [])
  | remaining + 1, codepoint, b :: rest =>
    if b.toNat / 64 = 2 then
      continuation remaining (codepoint * 64 + b.toNat % 64) rest
    else (codepoint, b :: rest)

theorem length_continuation (remaining codepoint : Nat) (rest : Bytes) :
    (continuation remaining codepoint rest).2.length ≤ rest.length := by
  fun_induction continuation remaining codepoint rest with
  | case1 | case2 | case4 => simp
  | case3 remaining codepoint b rest _ ih => exact Nat.le_succ_of_le ih

/-- The body of `encode_string`. -/
def encodeBody : Bytes → Bytes
  | [] => []
  | c :: rest =>
    if c.toNat < 0x80 then escapeAscii c ++ encodeBody rest
    else if c.toNat / 32 = 6 then
      escapeCodepoint (continuation 1 (c.toNat % 32) rest).1 ++
        encodeBody (continuation 1 (c.toNat % 32) rest).2
    else if c.toNat / 16 = 14 then
      escapeCodepoint (continuation 2 (c.toNat % 16) rest).1 ++
        encodeBody (continuation 2 (c.toNat % 16) rest).2
    else if c.toNat / 8 = 30 then
      escapeCodepoint (continuation 3 (c.toNat % 8) rest).1 ++
        encodeBody (continuation 3 (c.toNat % 8) rest).2
    else unicodeEscape 0xFFFD ++ encodeBody rest
termination_by text => text.length
decreasing_by
  all_goals
    simp only [List.length_cons]
    first
      | omega
      | exact Nat.lt_succ_of_le (length_continuation _ _ _)

def encodeString (s : Bytes) : Bytes :=
  34 :: encodeBody s ++ [34]

def indent (depth : Nat) : Bytes := List.replicate (2 * depth) 32

mutual

/-- `emit`: a value at a nesting level. -/
def emit (depth : Nat) : Value → Bytes
  | .null => ascii "null"
  | .bool true => ascii "true"
  | .bool false => ascii "false"
  | .int i => decimal i.toInt
  | .str s => encodeString s
  | .arr [] => ascii "[]"
  | .arr (v :: vs) =>
    ascii "[\n" ++ emitItems (depth + 1) (v :: vs) ++ indent depth ++ ascii "]"
  | .obj [] => ascii "\x7b\x7d"
  | .obj (m :: ms) =>
    ascii "\x7b\n" ++ emitMembers (depth + 1) (m :: ms) ++ indent depth ++ ascii "\x7d"

/-- The lines of an array. -/
def emitItems (depth : Nat) : List Value → Bytes
  | [] => []
  | [v] => indent depth ++ emit depth v ++ ascii "\n"
  | v :: vs => indent depth ++ emit depth v ++ ascii ",\n" ++ emitItems depth vs

/-- The lines of an object. -/
def emitMembers (depth : Nat) : List (Bytes × Value) → Bytes
  | [] => []
  | [(key, v)] =>
    indent depth ++ encodeString key ++ ascii ": " ++ emit depth v ++ ascii "\n"
  | (key, v) :: ms =>
    indent depth ++ encodeString key ++ ascii ": " ++ emit depth v ++ ascii ",\n" ++
      emitMembers depth ms

end

def dumpsIndent2 (v : Value) : Bytes := emit 0 v

/-! ## Reading -/

/-- A thrown `CidxError`: its message and how much input was left. -/
structure ParseError where
  msg : Bytes
  left : Nat

/-- A reader takes a value off the front of the input. -/
abbrev Reader (α : Type) := Bytes → Except ParseError (α × Bytes)

def fail {α : Type} (msg : Bytes) (rest : Bytes) : Except ParseError α :=
  .error { msg := msg, left := rest.length }

/-- `kMaxDepth`. -/
def maxDepth : Nat := 100

def isSpace : Bool :=
  c = 32 ∨ c = 9 ∨ c = 10 ∨ c = 13

def skipWs (rest : Bytes) : Bytes := rest.dropWhile isSpace

/-- `expect`: one given byte. -/
def expect : Bytes → Except ParseError Bytes
  | b :: rest =>
    if b = c then .ok rest else fail (ascii "expected '" ++ [c, 39]) (b :: rest)
  | [] => fail (ascii "expected '" ++ [c, 39]) []

/-- A keyword, and the value it stands for. -/
def literal (word : Bytes) (v : Value) : Reader Value := fun rest =>
  if word.isPrefixOf rest then .ok (v, rest.drop word.length)
  else fail (ascii "bad literal") rest

/-- The value of a hexadecimal digit. -/
def hexValue : Option Nat :=
  if 48 ≤ c.toNat ∧ c.toNat ≤ 57 then some (c.toNat - 48)
  else if 97 ≤ c.toNat ∧ c.toNat ≤ 102 then some (c.toNat - 97 + 10)
  else if 65 ≤ c.toNat ∧ c.toNat ≤ 70 then some (c.toNat - 65 + 10)
  else none

theorem hexValue_hexDigit {d : Nat} (h : d < 16) : hexValue (hexDigit d) = some d := by
  interval_cases d <;> rfl

/-- `k` hexadecimal digits onto a value. -/
def hexDigits : Nat → Nat → Reader Nat
  | 0, cp, rest => .ok (cp, rest)
  | _ + 1, _, [] => fail (ascii "truncated \\u escape") []
  | k + 1, cp, c :: rest =>
    match hexValue c with
    | some d => hexDigits k (cp * 16 + d) rest
    | none => fail (ascii "bad hex digit in \\u escape") (c :: rest)

def hex4 : Reader Nat := fun rest =>
  if rest.length < 4 then fail (ascii "truncated \\u escape") rest
  else hexDigits 4 0 rest

/-- `append_utf8`: the bytes of a code point, surrogates included. -/
def utf8 (cp : Nat) : Bytes :=
  if cp < 0x80 then [UInt8.ofNat cp]
  else if cp < 0x800 then [UInt8.ofNat (0xC0 + cp / 64), UInt8.ofNat (0x80 + cp % 64)]
  else if cp < 0x10000 then
    [UInt8.ofNat (0xE0 + cp / 4096), UInt8.ofNat (0x80 + cp / 64 % 64), UInt8.ofNat (0x80 + cp % 64)]
  else
    [UInt8.ofNat (0xF0 + cp / 262144), UInt8.ofNat (0x80 + cp / 4096 % 64),
      UInt8.ofNat (0x80 + cp / 64 % 64), UInt8.ofNat (0x80 + cp % 64)]

/-- What follows `\u`: one unit, or a surrogate pair.  A high surrogate that no
low one follows stands alone, and what was looked at is read again. -/
def unicodeUnit : Reader Bytes := fun rest => do
  let (cp, behind) ← hex4 rest
  if 0xD800 ≤ cp ∧ cp ≤ 0xDBFF ∧ [92, 117].isPrefixOf behind then
    let (lo, behindLo) ← hex4 (behind.drop 2)
    if 0xDC00 ≤ lo ∧ lo ≤ 0xDFFF then
      .ok (utf8 (0x10000 + (cp - 0xD800) * 1024 + (lo - 0xDC00)), behindLo)
    else .ok (utf8 cp, behind)
  else .ok (utf8 cp, behind)

/-- The byte a two-character escape stands for. -/
def simpleEscape : Option UInt8 :=
  if c = 34 ∨ c = 92 ∨ c = 47 then some c
  else if c = 98 then some 8
  else if c = 102 then some 12
  else if c = 110 then some 10
  else if c = 114 then some 13
  else if c = 116 then some 9
  else none

/-- The escape behind a backslash. -/
def readEscape : Reader Bytes
  | [] => fail (ascii "trailing backslash") []
  | c :: rest =>
    if c = 117 then unicodeUnit rest
    else
      match simpleEscape c with
      | some b => .ok ([b], rest)
      | none => fail (ascii "unknown escape") (c :: rest)

/-- `parse_string` behind its opening quote.  The fuel is the input. -/
def stringBody : Nat → Reader Bytes
  | 0, rest => fail (ascii "unterminated string") rest
  | _ + 1, [] => fail (ascii "unterminated string") []
  | fuel + 1, c :: rest =>
    if c = 34 then .ok ([], rest)
    else if c ≠ 92 then
      if c.toNat < 32 then fail (ascii "raw control character in string") (c :: rest)
      else do
        let (out, behind) ← stringBody fuel rest
        .ok (c :: out, behind)
    else do
      let (bytes, behind) ← readEscape rest
      let (out, behind) ← stringBody fuel behind
      .ok (bytes ++ out, behind)

def parseString : Reader Bytes := fun rest => do
  let rest ← expect 34 rest
  stringBody (rest.length + 1) rest

/-- A byte `parse_number` takes into the text of a number. -/
def isNumberByte : Bool :=
  (48 ≤ c.toNat ∧ c.toNat ≤ 57) ∨ c = 46 ∨ c = 101 ∨ c = 69 ∨ c = 43 ∨ c = 45

/-- The value of a run of decimal digits. -/
def digitsValue (digits : Bytes) : Option Nat :=
  if digits ≠ [] ∧ digits.all (fun c => decide (48 ≤ c.toNat ∧ c.toNat ≤ 57)) then
    some (digits.foldl (fun n c => n * 10 + (c.toNat - 48)) 0)
  else none

/-- `strtoll` on a whole text, when it takes all of it and stays in range. -/
def strtoll (text : Bytes) : Option Int64 := do
  let value : Int ←
    match text with
    | 45 :: digits => (digitsValue digits).map fun n => -(n : Int)
    | 43 :: digits => (digitsValue digits).map fun n => (n : Int)
    | digits => (digitsValue digits).map fun n => (n : Int)
  if -2 ^ 63 ≤ value ∧ value < 2 ^ 63 then some (Int64.ofInt value) else none

def parseNumber : Reader Value := fun rest =>
  let text := rest.takeWhile isNumberByte
  if text = [] then fail (ascii "expected a value") rest
  else if text.any (fun c => c = 46 ∨ c = 101 ∨ c = 69) then
    fail (ascii "non-integer number '" ++ text ++ [39]) rest
  else
    match strtoll text with
    | some i => .ok (.int i, rest.drop text.length)
    | none => fail (ascii "bad number '" ++ text ++ [39]) rest

/-- Last wins: a key met again takes the new value in its old place. -/
def setMember (key : Bytes) (v : Value) : List (Bytes × Value) → List (Bytes × Value)
  | [] => [(key, v)]
  | (k, old) :: ms => if k = key then (k, v) :: ms else (k, old) :: setMember key v ms

/-- The members of an object from one key on. -/
def parseMembers (value : Reader Value) : Nat → List (Bytes × Value) → Reader Value
  | 0, _, rest => fail (ascii "expected '\x7d'") rest
  | fuel + 1, members, rest => do
      let rest := skipWs rest
      if rest.head? ≠ some 34 then fail (ascii "object key must be a string") rest
      let (key, rest) ← parseString rest
      let rest ← expect 58 (skipWs rest)
      let (v, rest) ← value (skipWs rest)
      let members := setMember key v members
      let rest := skipWs rest
      match rest with
      | 44 :: behind => parseMembers value fuel members behind
      | _ => do
          let rest ← expect 125 rest
          .ok (.obj members, rest)

def parseItems (value : Reader Value) : Nat → List Value → Reader Value
  | 0, _, rest => fail (ascii "expected ']'") rest
  | fuel + 1, items, rest => do
      let (v, rest) ← value (skipWs rest)
      let rest := skipWs rest
      match rest with
      | 44 :: behind => parseItems value fuel (items ++ [v]) behind
      | _ => do
          let rest ← expect 93 rest
          .ok (.arr (items ++ [v]), rest)

def parseObject (value : Reader Value) : Reader Value := fun rest => do
  let rest := skipWs (← expect 123 rest)
  match rest with
  | 125 :: behind => .ok (.obj [], behind)
  | _ => parseMembers value (rest.length + 1) [] rest

def parseArray (value : Reader Value) : Reader Value := fun rest => do
  let rest := skipWs (← expect 91 rest)
  match rest with
  | 93 :: behind => .ok (.arr [], behind)
  | _ => parseItems value (rest.length + 1) [] rest

/-- `parse_value`, with the levels of nesting still allowed. -/
def parseValue : Nat → Reader Value
  | 0, rest => fail (ascii "nesting deeper than " ++ decimalNat maxDepth) rest
  | levels + 1, rest =>
    match rest.head? with
    | some 123 => parseObject (parseValue levels) rest
    | some 91 => parseArray (parseValue levels) rest
    | some 34 => do
        let (s, rest) ← parseString rest
        .ok (.str s, rest)
    | some 116 => literal (ascii "true") (.bool true) rest
    | some 102 => literal (ascii "false") (.bool false) rest
    | some 110 => literal (ascii "null") .null rest
    | _ => parseNumber rest

/-- `json_read::parse`, with the text of the error it throws. -/
def parse (text : Bytes) : Except Bytes Value :=
  let document : Except ParseError Value := do
    let (v, rest) ← parseValue (maxDepth + 1) (skipWs text)
    let rest := skipWs rest
    if rest ≠ [] then fail (ascii "trailing data after top-level value") rest
    .ok v
  document.mapError fun e =>
    ascii "json: " ++ e.msg ++ ascii " at offset " ++ decimalNat (text.length - e.left)

end CppIndexer.Util.Json
