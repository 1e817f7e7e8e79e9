/-
# Query plans

The stage pipeline of `query/plan.hpp`. A plan starts from the code base or from one
symbol or entity; set operations and witness paths take another plan as their operand.
-/

import CppIndexer.Query.NodeStages

namespace CppIndexer.Query

/-- Where a plan starts. -/
inductive SourceKind
  | codebase
  | symbol
  | entity
  deriving DecidableEq

/-- The start of a plan, with the name it looks up. -/
structure Source where
  kind : SourceKind
  ref : String := ""
  deriving DecidableEq

/-- How a traversal of `calls` treats virtual calls. -/
inductive TraversalMode
  | static
  | devirtualized
  deriving DecidableEq

mutual

inductive Stage
  | nodes (pred : Option Pred) (unknown : UnknownPolicy)
  | changeView (level : View)
  | where_ (pred : Pred) (unknown : UnknownPolicy)
  /-- `out` and, against the direction of the relation, `in_`. -/
  | traverse (inbound : Bool) (relation : RelationName) (mode : TraversalMode)
      (minDepth maxDepth : ℤ)
  | sites
  | setOp (op : SortUnique.SetOp) (operand : Plan)
  | select (fields : List String)
  | count
  | distinct
  | orderBy (fields : List String)
  | limit (n : ℤ)
  | path (operand : Plan) (relation : RelationName) (minDepth maxDepth shortest : ℤ) (inbound : Bool)
  | rank (topN : ℤ)
  | reverseTypeUse (maxDepth : ℤ)

inductive Plan
  | mk (source : Source) (stages : List Stage)

end

def Plan.source : Plan → Source
  | .mk source _ => source

def Plan.stages : Plan → List Stage
  | .mk _ stages => stages

/-- The limit `run_plan` hands to the enumeration of a typed view: that of the last `limit` stage,
unless some stage orders by the path of a file. -/
def typedNodeLimit (stages : List Stage) : Option ℕ :=
  if stages.any fun stage => match stage with
      | .orderBy fields => fields.contains "file"
      | _ => false
  then none
  else stages.foldl (fun last stage => match stage with
      | .limit n => if 0 < n then some n.toNat else last
      | _ => last) none

end CppIndexer.Query
