/-
# The canonical text of plans

`canonical_json` of both plan languages: the document that each builds from a normalized plan, and the
writers `json_out::dumps_indent2` and `json.dumps(indent=2)`. A text of a plan is a `std::string` in UTF-8
on the one side and a `str` on the other. Of the values of `json_out`, plans have no others than integers,
texts, arrays and objects, and the members of an object stand in the order in which they were put in, as in
a `dict`.
-/

import CppIndexer.Query.PlanDisputes
import CppIndexer.Util.Json

namespace CppIndexer.Query

open Util (Bytes ascii)
open Util.Json (decimal encodeString encodeBody indent unicodeEscape)

inductive Doc
  | int (value : ℤ)
  | text (value : String)
  | arr (items : List Doc)
  | obj (members : List (String × Doc))

def textBytes (value : String) : Bytes := value.toList.flatMap String.utf8EncodeChar

/-! ## The writer of C++ -/

mutual

/-- `emit`. -/
def Doc.emit (depth : ℕ) : Doc → Bytes
  | .int value => decimal value
  | .text value => encodeString (textBytes value)
  | .arr [] => ascii "[]"
  | .arr (item :: items) =>
    ascii "[\n" ++ emitItems (depth + 1) (item :: items) ++ indent depth ++ ascii "]"
  | .obj [] => ascii "\x7b\x7d"
  | .obj (member :: members) =>
    ascii "\x7b\n" ++ emitMembers (depth + 1) (member :: members) ++ indent depth ++ ascii "\x7d"

/-- The lines of an array. -/
def emitItems (depth : ℕ) : List Doc → Bytes
  | [] => []
  | [item] => indent depth ++ item.emit depth ++ ascii "\n"
  | item :: items => indent depth ++ item.emit depth ++ ascii ",\n" ++ emitItems depth items

/-- The lines of an object. -/
def emitMembers (depth : ℕ) : List (String × Doc) → Bytes
  | [] => []
  | [(key, value)] =>
    indent depth ++ encodeString (textBytes key) ++ ascii ": " ++ value.emit depth ++ ascii "\n"
  | (key, value) :: members =>
    indent depth ++ encodeString (textBytes key) ++ ascii ": " ++ value.emit depth ++ ascii ",\n" ++
      emitMembers depth members

end

/-! ## The writer of Python -/

namespace Python

/-- `ensure_ascii`: everything but the printable characters of ASCII is escaped. -/
def escapeChar (c : Char) : Bytes :=
  if c = '"' then ascii "\\\""
  else if c = '\\' then ascii "\\\\"
  else if c = '\n' then ascii "\\n"
  else if c = '\r' then ascii "\\r"
  else if c = '\t' then ascii "\\t"
  else if c.toNat = 12 then ascii "\\f"
  else if c.toNat = 8 then ascii "\\b"
  else if 32 ≤ c.toNat ∧ c.toNat ≤ 126 then [UInt8.ofNat c.toNat]
  else if c.toNat < 0x10000 then unicodeEscape c.toNat
  else
    unicodeEscape (0xD800 + (c.toNat - 0x10000) / 1024 % 1024) ++
      unicodeEscape (0xDC00 + (c.toNat - 0x10000) % 1024)

/-- `encode_basestring_ascii`. -/
def encodeText (value : String) : Bytes := 34 :: value.toList.flatMap escapeChar ++ [34]

/-- `newline_indent`. -/
def newlineIndent (level : ℕ) : Bytes := 10 :: indent level

mutual

/-- `_iterencode` with an indent of two. -/
def encode (level : ℕ) : Doc → Bytes
  | .int value => decimal value
  | .text value => encodeText value
  | .arr [] => ascii "[]"
  | .arr (item :: items) =>
    ascii "[" ++ newlineIndent (level + 1) ++ encode (level + 1) item ++ encodeItems (level + 1) items ++
      newlineIndent level ++ ascii "]"
  | .obj [] => ascii "\x7b\x7d"
  | .obj ((key, value) :: members) =>
    ascii "\x7b" ++ newlineIndent (level + 1) ++ encodeText key ++ ascii ": " ++
      encode (level + 1) value ++ encodeMembers (level + 1) members ++ newlineIndent level ++
      ascii "\x7d"

/-- The items behind the first one. -/
def encodeItems (level : ℕ) : List Doc → Bytes
  | [] => []
  | item :: items => ascii "," ++ newlineIndent level ++ encode level item ++ encodeItems level items

/-- The members behind the first one. -/
def encodeMembers (level : ℕ) : List (String × Doc) → Bytes
  | [] => []
  | (key, value) :: members =>
    ascii "," ++ newlineIndent level ++ encodeText key ++ ascii ": " ++ encode level value ++
      encodeMembers level members

end

end Python

/-! ## The documents -/

def Junction.text : Junction → String
  | .allOf => "all_of"
  | .anyOf => "any_of"

def CmpOp.text : CmpOp → String
  | .eq => "eq"
  | .ne => "ne"
  | .glob => "glob"
  | .inList => "in"

def QuantOp.text : QuantOp → String
  | .exists_ => "exists"
  | .none => "none"
  | .all => "all"
  | .atLeast => "at_least"
  | .exactly => "exactly"

def SourceKind.text : SourceKind → String
  | .codebase => "codebase"
  | .symbol => "symbol"
  | .entity => "entity"

/-- `unknown_policy_name`. -/
def unknownPolicyName : UnknownPolicy → String
  | .exclude => "exclude"
  | .include_ => "include"
  | .error => "error"

/-- `traversal_mode_name`. -/
def traversalModeName : TraversalMode → String
  | .static => "static"
  | .devirtualized => "devirtualized"

def setOpName : SortUnique.SetOp → String
  | .union => "union"
  | .intersect => "intersect"
  | .except => "except"

def Stage.opName : Stage → String
  | .nodes .. => "nodes"
  | .changeView _ => "view"
  | .where_ .. => "where"
  | .traverse inbound .. => if inbound then "in" else "out"
  | .sites => "sites"
  | .setOp op _ => setOpName op
  | .select _ => "select"
  | .count => "count"
  | .distinct => "distinct"
  | .orderBy _ => "order_by"
  | .limit _ => "limit"
  | .path .. => "path"
  | .rank _ => "rank"
  | .reverseTypeUse _ => "reverse_type_use"

/-- A member that is left out under a condition. -/
def memberUnless (absent : Prop) [Decidable absent] (key : String) (value : Doc) : List (String × Doc) :=
  if absent then [] else [(key, value)]

mutual

/-- `pred_to_json`. A negation keeps its first predicate and a comparison other than `in` its first
value; normalized ones have one. -/
def predToJson : Pred → Doc
  | .junction op kids => .obj [("op", .text op.text), ("preds", .arr (kidsToJson kids))]
  | .not kids => .obj (("op", .text "not") :: firstToJson kids)
  | .cmp op field strValues intValue =>
    if op = .inList then
      .obj [("op", .text "in"), ("field", .text field), ("values", .arr (strValues.map .text))]
    else
      .obj [("op", .text op.text), ("field", .text field),
        ("value", match intValue with
          | some value => .int value
          | none => .text (strValues.headD ""))]
  | .quantified op relation target minDepth maxDepth threshold inbound =>
    .obj ([("op", .text op.text), ("relation", .text relation.text)] ++
      memberUnless (inbound = false) "direction" (.text "in") ++
      [("min_depth", .int minDepth), ("max_depth", .int maxDepth)] ++
      memberUnless (¬(op = .atLeast ∨ op = .exactly)) "threshold" (.int threshold) ++
      targetToJson target)

def kidsToJson : List Pred → List Doc
  | [] => []
  | kid :: rest => predToJson kid :: kidsToJson rest

def firstToJson : List Pred → List (String × Doc)
  | [] => []
  | kid :: _ => [("pred", predToJson kid)]

def targetToJson : Option Pred → List (String × Doc)
  | none => []
  | some target => [("pred", predToJson target)]

end

mutual

/-- `plan_to_json_normalized`. -/
def planToJson : Plan → Doc
  | .mk source stages =>
    .obj [("cxq", .int 1),
      ("source", .obj (("kind", .text source.kind.text) ::
        memberUnless (source.kind = .codebase) "ref" (.text source.ref))),
      ("stages", .arr (stagesToJson stages))]

def stagesToJson : List Stage → List Doc
  | [] => []
  | stage :: rest => .obj (("op", .text stage.opName) :: stageToJson stage) :: stagesToJson rest

/-- The members behind `op`. -/
def stageToJson : Stage → List (String × Doc)
  | .nodes pred unknown =>
    targetToJson pred ++ memberUnless (unknown = .exclude) "unknown" (.text (unknownPolicyName unknown))
  | .changeView level => [("level", .text (viewName level))]
  | .where_ pred unknown =>
    ("pred", predToJson pred) ::
      memberUnless (unknown = .exclude) "unknown" (.text (unknownPolicyName unknown))
  | .traverse _ relation mode minDepth maxDepth =>
    ("relation", .text relation.text) ::
      memberUnless (mode = .static) "mode" (.text (traversalModeName mode)) ++
      [("min_depth", .int minDepth), ("max_depth", .int maxDepth)]
  | .setOp _ operand => [("plan", planToJson operand)]
  | .select fields | .orderBy fields => [("fields", .arr (fields.map .text))]
  | .limit n => [("n", .int n)]
  | .path operand relation minDepth maxDepth shortest inbound =>
    ("relation", .text relation.text) :: memberUnless (inbound = false) "direction" (.text "in") ++
      [("min_depth", .int minDepth), ("max_depth", .int maxDepth)] ++
      memberUnless (shortest = 0) "shortest" (.int shortest) ++ [("to", planToJson operand)]
  | .rank topN => memberUnless (topN = 0) "top_n" (.int topN)
  | .reverseTypeUse maxDepth => [("max_depth", .int maxDepth)]
  | .sites | .count | .distinct => []

end

/-- `canonical_json`. -/
def canonicalJson (plan : Plan) : Except PlanError Bytes :=
  (validate plan).map fun normal => (planToJson normal).emit 0

namespace Python

mutual

/-- `_pred_to_dict`. -/
def predToDict : Pred → Doc
  | .junction op kids => .obj [("op", .text op.text), ("preds", .arr (kidsToDicts kids))]
  | .not kids => .obj (("op", .text "not") :: firstToDict kids)
  | .cmp .inList field strValues _ =>
    .obj [("op", .text "in"), ("field", .text field), ("values", .arr (strValues.map .text))]
  | .quantified op relation target minDepth maxDepth threshold inbound =>
    .obj (("op", .text op.text) :: ("relation", .text relation.text) ::
      (if inbound then [("direction", .text "in")] else []) ++
      [("min_depth", .int minDepth), ("max_depth", .int maxDepth)] ++
      (if op = .atLeast ∨ op = .exactly then [("threshold", .int threshold)] else []) ++
      targetToDict target)
  | .cmp op field _ (some value) =>
    .obj [("op", .text op.text), ("field", .text field), ("value", .int value)]
  | .cmp op field strValues none =>
    .obj [("op", .text op.text), ("field", .text field), ("value", .text (strValues.headD ""))]

def kidsToDicts : List Pred → List Doc
  | [] => []
  | kid :: rest => predToDict kid :: kidsToDicts rest

def firstToDict : List Pred → List (String × Doc)
  | [] => []
  | kid :: _ => [("pred", predToDict kid)]

def targetToDict : Option Pred → List (String × Doc)
  | none => []
  | some target => [("pred", predToDict target)]

end

def unknownMember (unknown : UnknownPolicy) : List (String × Doc) :=
  if unknown ≠ .exclude then [("unknown", .text (unknownPolicyName unknown))] else []

mutual

/-- `_plan_to_dict`. -/
def planToDict : Plan → Doc
  | .mk source stages =>
    let src : List (String × Doc) :=
      ("kind", .text source.kind.text) ::
        if source.kind ≠ .codebase then [("ref", .text source.ref)] else []
    .obj [("cxq", .int 1), ("source", .obj src), ("stages", .arr (stagesToDicts stages))]

def stagesToDicts : List Stage → List Doc
  | [] => []
  | stage :: rest => .obj (("op", .text stage.opName) :: stageToDict stage) :: stagesToDicts rest

/-- The items behind `op`. -/
def stageToDict : Stage → List (String × Doc)
  | .nodes pred unknown => targetToDict pred ++ unknownMember unknown
  | .changeView level => [("level", .text (viewName level))]
  | .where_ pred unknown => ("pred", predToDict pred) :: unknownMember unknown
  | .traverse _ relation mode minDepth maxDepth =>
    ("relation", .text relation.text) ::
      (if mode ≠ .static then [("mode", .text (traversalModeName mode))] else []) ++
      [("min_depth", .int minDepth), ("max_depth", .int maxDepth)]
  | .setOp _ operand => [("plan", planToDict operand)]
  | .select fields | .orderBy fields => [("fields", .arr (fields.map .text))]
  | .limit n => [("n", .int n)]
  | .path operand relation minDepth maxDepth shortest inbound =>
    ("relation", .text relation.text) :: (if inbound then [("direction", .text "in")] else []) ++
      [("min_depth", .int minDepth), ("max_depth", .int maxDepth)] ++
      (if shortest ≠ 0 then [("shortest", .int shortest)] else []) ++ [("to", planToDict operand)]
  | .rank topN => if topN ≠ 0 then [("top_n", .int topN)] else []
  | .reverseTypeUse maxDepth => [("max_depth", .int maxDepth)]
  | .sites | .count | .distinct => []

end

/-- `canonical_json`. -/
def canonicalJson (plan : Plan) : Except PlanError Bytes :=
  (validate plan).map fun normal => encode 0 (planToDict normal)

mutual

theorem predToDict_eq : ∀ pred : Pred, predToDict pred = predToJson pred
  | .junction op kids => by rw [predToDict, predToJson, kidsToDicts_eq kids]
  | .not kids => by rw [predToDict, predToJson, firstToDict_eq kids]
  | .cmp op field strValues intValue => by cases op <;> cases intValue <;> rfl
  | .quantified op relation target minDepth maxDepth threshold inbound => by
      rw [predToDict, predToJson, targetToDict_eq target]
      cases inbound <;> cases op <;> rfl

theorem kidsToDicts_eq : ∀ kids : List Pred, kidsToDicts kids = kidsToJson kids
  | [] => rfl
  | kid :: rest => by rw [kidsToDicts, kidsToJson, predToDict_eq kid, kidsToDicts_eq rest]

theorem firstToDict_eq : ∀ kids : List Pred, firstToDict kids = firstToJson kids
  | [] => rfl
  | kid :: _ => by rw [firstToDict, firstToJson, predToDict_eq kid]

theorem targetToDict_eq : ∀ target : Option Pred, targetToDict target = targetToJson target
  | none => rfl
  | some target => by rw [targetToDict, targetToJson, predToDict_eq target]

end

theorem unknownMember_eq (unknown : UnknownPolicy) : unknownMember unknown =
    memberUnless (unknown = .exclude) "unknown" (.text (unknownPolicyName unknown)) := by
  cases unknown <;> rfl

mutual

theorem planToDict_eq : ∀ plan : Plan, planToDict plan = planToJson plan
  | .mk source stages => by
      rw [planToDict, planToJson, stagesToDicts_eq stages]
      cases hkind : source.kind <;> rfl

theorem stagesToDicts_eq : ∀ stages : List Stage, stagesToDicts stages = stagesToJson stages
  | [] => rfl
  | stage :: rest => by
      rw [stagesToDicts, stagesToJson, stageToDict_eq stage, stagesToDicts_eq rest]

theorem stageToDict_eq : ∀ stage : Stage, stageToDict stage = stageToJson stage
  | .nodes pred unknown => by
      rw [stageToDict, stageToJson, targetToDict_eq, unknownMember_eq]
  | .where_ pred unknown => by
      rw [stageToDict, stageToJson, predToDict_eq, unknownMember_eq]
  | .traverse _ relation mode minDepth maxDepth => by cases mode <;> rfl
  | .setOp _ operand => by rw [stageToDict, stageToJson, planToDict_eq operand]
  | .path operand relation minDepth maxDepth shortest inbound => by
      rw [stageToDict, stageToJson, planToDict_eq operand]
      cases inbound <;> simp [memberUnless]
  | .rank topN => by simp [stageToDict, stageToJson, memberUnless]
  | .changeView _ | .select _ | .orderBy _ | .limit _ | .reverseTypeUse _ | .sites | .count
  | .distinct => by rw [stageToDict, stageToJson]

end

end Python

end CppIndexer.Query
