/-
# The syntax and behaviour models of a side

The plain data `cidx-diff` compares: lowered syntax trees with fingerprints, entities, the
behaviour of callables and the profile of records. Two trees are compared by an edit script that
aligns children along a longest common subsequence of fingerprints.

`OpSink` counts the operations of a whole report and drops those past its cap. As it only counts,
an edit script is computed in full here and cut afterwards.
-/

import Mathlib

namespace CppIndexer.Diff

/-- `SrcRange`. -/
structure SrcRange where
  line : ℤ := 0
  col : ℤ := 0
  endLine : ℤ := 0
  endCol : ℤ := 0

/-- `SynNode`. -/
inductive SynNode
  | mk (kind label detail : String) (range : SrcRange) (children : List SynNode)
      (fingerprint : String)

namespace SynNode

def kind : SynNode → String
  | mk kind _ _ _ _ _ => kind

def label : SynNode → String
  | mk _ label _ _ _ _ => label

def detail : SynNode → String
  | mk _ _ detail _ _ _ => detail

def range : SynNode → SrcRange
  | mk _ _ _ range _ _ => range

def children : SynNode → List SynNode
  | mk _ _ _ _ children _ => children

def fingerprint : SynNode → String
  | mk _ _ _ _ _ fingerprint => fingerprint

theorem sizeOf_child {node child : SynNode} (h : child ∈ node.children) :
    sizeOf child < sizeOf node := by
  cases node with
  | mk _ _ _ _ children =>
    have := List.sizeOf_lt_of_mem (show child ∈ children from h)
    rw [mk.sizeOf_spec]
    omega

end SynNode

/-- `Unsupported`, before it is attached to a side. -/
structure Unsupported where
  what : String
  range : SrcRange := {}

/-- `BehaviourIR`: there is one default text for each parameter, where `...` marks varargs, and only a
body has blocks. -/
structure BehaviourIR where
  returnType : String := ""
  paramTypes : List String := []
  paramDefaults : List String := []
  quals : String := ""
  isNoexcept : Bool := false
  isVirtual : Bool := false
  storage : String := ""
  isInline : Bool := false
  constexprKind : String := ""
  isNoreturn : Bool := false
  isStaticMethod : Bool := false
  access : String := ""
  isExplicit : Bool := false
  isDeleted : Bool := false
  isDefaulted : Bool := false
  isFinal : Bool := false
  isPure : Bool := false
  isOverride : Bool := false
  hasBody : Bool := false
  blocks : List String := []
  unsupported : List Unsupported := []
  defaults_length : paramDefaults.length = (paramTypes.filter fun type => type ≠ "...").length := by
    rfl
  blocks_nil : hasBody = false → blocks = [] := by simp

/-- `ClassProfile`. -/
structure ClassProfile where
  bases : List String := []
  fields : List String := []
  methods : List String := []
  polymorphic : Bool := false
  abstract_ : Bool := false
  templateParams : List String := []
  nested : List String := []
  extras : List String := []
  unsupported : List Unsupported := []

/-- `Entity`, with the indices of its behaviour and its profile. -/
inductive Entity
  | mk (kind name signature usr : String) (range : SrcRange) (syn : SynNode)
      (fingerprint : String) (slice : String) (members : List Entity)
      (behaviour profile : ℤ)

namespace Entity

def kind : Entity → String
  | mk kind _ _ _ _ _ _ _ _ _ _ => kind

def name : Entity → String
  | mk _ name _ _ _ _ _ _ _ _ _ => name

def signature : Entity → String
  | mk _ _ signature _ _ _ _ _ _ _ _ => signature

def usr : Entity → String
  | mk _ _ _ usr _ _ _ _ _ _ _ => usr

def range : Entity → SrcRange
  | mk _ _ _ _ range _ _ _ _ _ _ => range

def syn : Entity → SynNode
  | mk _ _ _ _ _ syn _ _ _ _ _ => syn

def fingerprint : Entity → String
  | mk _ _ _ _ _ _ fingerprint _ _ _ _ => fingerprint

def slice : Entity → String
  | mk _ _ _ _ _ _ _ slice _ _ _ => slice

def members : Entity → List Entity
  | mk _ _ _ _ _ _ _ _ members _ _ => members

def behaviour : Entity → ℤ
  | mk _ _ _ _ _ _ _ _ _ behaviour _ => behaviour

def profile : Entity → ℤ
  | mk _ _ _ _ _ _ _ _ _ _ profile => profile

theorem sizeOf_member {entity member : Entity} (h : member ∈ entity.members) :
    sizeOf member < sizeOf entity := by
  cases entity with
  | mk _ _ _ _ _ _ _ _ members =>
    have := List.sizeOf_lt_of_mem (show member ∈ members from h)
    rw [mk.sizeOf_spec]
    omega

end Entity

/-- `SideAnalysis`, with the file of its `ParseConfig`. -/
structure SideAnalysis where
  file : String := ""
  entities : List Entity := []
  behaviours : List BehaviourIR := []
  profiles : List ClassProfile := []

/-! ## Edit scripts -/

/-- The operations of an edit script. -/
inductive EditKind
  | added
  | removed
  | replaced
  | changed
  | renamed

/-- `EditOp`. -/
structure EditOp where
  op : EditKind
  node : String
  detail : String
  leftRange : Option SrcRange := none
  rightRange : Option SrcRange := none

/-- Child sequences longer than this are paired by position. -/
def kLcsLimit : ℕ := 512

/-- The operations a report lists at most. -/
def kEditCap : ℕ := 1000

section Align

variable {α β : Type} (sameKey : α → β → Bool)

/-- `at`: the length of a longest common subsequence. -/
def lcsLength : List α → List β → ℕ
  | [], _ => 0
  | _ :: _, [] => 0
  | x :: xs, y :: ys =>
    if sameKey x y then lcsLength xs ys + 1
    else max (lcsLength xs (y :: ys)) (lcsLength (x :: xs) ys)
  termination_by xs ys => xs.length + ys.length

/-- `diff_gap`: pairs by position, and what is left over on one side. -/
def gapRows : List α → List β → List (Option α × Option β)
  | x :: xs, y :: ys => (some x, some y) :: gapRows xs ys
  | xs, [] => xs.map fun x => (some x, none)
  | [], ys => ys.map fun y => (none, some y)

/-- The walk along the common subsequence. The rows of a gap are given out at the next anchor; an
anchor itself has nothing to compare. -/
def alignRows (gapLeft : List α) (gapRight : List β) : List α → List β → List (Option α × Option β)
  | [], ys => gapRows gapLeft (gapRight ++ ys)
  | x :: xs, [] => gapRows (gapLeft ++ x :: xs) gapRight
  | x :: xs, y :: ys =>
    if sameKey x y then gapRows gapLeft gapRight ++ alignRows [] [] xs ys
    else if lcsLength sameKey xs (y :: ys) ≥ lcsLength sameKey (x :: xs) ys then
      alignRows (gapLeft ++ [x]) gapRight xs (y :: ys)
    else alignRows gapLeft (gapRight ++ [y]) (x :: xs) ys
  termination_by xs ys => xs.length + ys.length

/-- `diff_children`, as the rows it compares. -/
def childRows (xs : List α) (ys : List β) : List (Option α × Option β) :=
  if xs.length > kLcsLimit || ys.length > kLcsLimit then gapRows xs ys
  else alignRows sameKey [] [] xs ys

end Align

/-- `describe`. -/
def describe (node : SynNode) : String := if node.detail = "" then node.kind else node.detail

/-- `merged_detail`: a shared leading word is not repeated. -/
def mergedDetail (left right : String) : String :=
  let word := left.toList.takeWhile fun c => c ≠ ' '
  if word.length < left.toList.length && (word ++ [' ']).isPrefixOf right.toList then
    left ++ " -> " ++ String.ofList (right.toList.drop (word.length + 1))
  else left ++ " -> " ++ right

/-- `is_decl_name`. -/
def isDeclName (detail : String) : Bool := "name ".toList.isPrefixOf detail.toList

/-- `one_sided`. -/
def oneSided (node : SynNode) (left : Bool) : EditOp where
  op := if left then .removed else .added
  node := node.kind
  detail := node.detail
  leftRange := if left then some node.range else none
  rightRange := if left then none else some node.range

/-- The operation for two nodes of one kind with different labels. -/
def relabelled (left right : SynNode) : EditOp :=
  if left.detail ≠ right.detail && isDeclName left.detail && isDeclName right.detail then
    { op := .renamed, node := left.kind, detail := mergedDetail left.detail right.detail
      leftRange := some left.range, rightRange := some right.range }
  else
    { op := .changed, node := left.kind
      detail := if left.detail ≠ right.detail then mergedDetail left.detail right.detail
        else left.label ++ " -> " ++ right.label
      leftRange := some left.range, rightRange := some right.range }

/-- `diff_node`. -/
def diffNode (left right : SynNode) : List EditOp :=
  if left.fingerprint = right.fingerprint then []
  else if left.kind ≠ right.kind then
    [{ op := .replaced, node := left.kind, detail := describe left ++ " -> " ++ describe right
       leftRange := some left.range, rightRange := some right.range }]
  else
    (if left.label ≠ right.label then [relabelled left right] else []) ++
      (childRows (fun (l : { node // node ∈ left.children }) r => l.1.fingerprint = r.fingerprint)
        left.children.attach right.children).flatMap fun
          | (some l, some r) => diffNode l.1 r
          | (some l, none) => [oneSided l.1 true]
          | (none, some r) => [oneSided r false]
          | (none, none) => []
  termination_by sizeOf left
  decreasing_by exact SynNode.sizeOf_child l.2

theorem diffNode_of_same {left right : SynNode} (h : left.fingerprint = right.fingerprint) :
    diffNode left right = [] := by
  rw [diffNode, if_pos h]

end CppIndexer.Diff
