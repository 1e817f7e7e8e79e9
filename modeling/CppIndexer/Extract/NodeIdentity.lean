/-
# The identities of extension nodes

What `validate_identity` accepts of a recipe, and the identity that `compute_identity` makes of a match
under it. A composed identity joins the identities of its components unescaped, with a separator that
may stand in file names and USRs. All other recipes keep apart what they read.
-/

import CppIndexer.Lib.ExceptResults
import CppIndexer.Util.Decimal
import Mathlib.Tactic.Ring

namespace CppIndexer.Extract

open Util (Bytes ascii)
open Util.Json (decimal isDecimalByte_decimal decimal_injective)
open List Option

inductive EndpointDomain
  | declaration | expression | type | customNode
  deriving DecidableEq

inductive IdentityKind
  | usr | sourceAnchor | ownerPosition | typeKey | composed
  deriving DecidableEq

structure IdentityRecipe where
  kind : IdentityKind := .usr
  components : List Bytes := []

structure Binding where
  name : Bytes
  domain : EndpointDomain := .declaration

/-- A node that a rule emits, with the bindings of the rule. -/
structure EmitNode where
  bindings : List Binding
  binding : Bytes
  identity : IdentityRecipe

/-! ## Validation -/

inductive ValidationErrorCode
  | malformedPlan | invalidBinding | endpointTypeMismatch | unstableIdentity
  deriving DecidableEq

def EndpointDomain.supportsDefaultIdentity (domain : EndpointDomain) : Bool :=
  domain = .declaration ∨ domain = .expression

/-- Whether a binding of a domain can have an identity of a kind; others look at other bindings. -/
def EndpointDomain.compatible (domain : EndpointDomain) : IdentityKind → Bool
  | .usr => domain = .declaration
  | .sourceAnchor => domain.supportsDefaultIdentity
  | .typeKey => domain ≠ .customNode
  | .ownerPosition | .composed => true

/-- `std::from_chars` of a whole text, for an `int`. -/
def positionIndex (position : Bytes) : Option ℤ :=
  let negative := position.head? = some 45
  let digits := if negative then position.tail else position
  if digits = [] ∨ ¬ digits.all (fun c => 48 ≤ c.toNat ∧ c.toNat ≤ 57) then none
  else
    let size : ℤ := digits.foldl (fun n c => 10 * n + (c.toNat - 48 : ℤ)) 0
    let parsed := if negative then -size else size
    if -2 ^ 31 ≤ parsed ∧ parsed < 2 ^ 31 then some parsed else none

namespace EmitNode

variable (emit : EmitNode)

def domainOf (name : Bytes) : Option EndpointDomain :=
  (emit.bindings.find? fun binding => binding.name = name).map (·.domain)

/-- The check of a binding whose default identity a recipe uses. -/
def validateReference (name : Bytes) : List ValidationErrorCode :=
  match emit.domainOf name with
  | none => [.invalidBinding]
  | some domain => if domain.supportsDefaultIdentity then [] else [.endpointTypeMismatch]

def validateIdentity : List ValidationErrorCode :=
  match emit.identity.kind, emit.identity.components with
  | .ownerPosition, [owner, position] =>
    emit.validateReference owner ++
      if (positionIndex position).any (0 ≤ ·) then [] else [.unstableIdentity]
  | .ownerPosition, _ | .composed, [] => [.unstableIdentity]
  | .composed, components => components.flatMap emit.validateReference
  | kind, components =>
    (if components = [] then [] else [.malformedPlan]) ++
      if (emit.domainOf emit.binding).all (·.compatible kind) then [] else [.endpointTypeMismatch]

/-- What `validate_emit` asks of the binding and the recipe of a node. -/
def Accepted : Prop := (emit.domainOf emit.binding).isSome ∧ emit.validateIdentity = []

instance : Decidable emit.Accepted := inferInstanceAs (Decidable (_ ∧ _))

end EmitNode

/-! ## Matches -/

@[ext]
structure ExtensionEvidence where
  file : Bytes
  line : ℤ
  col : ℤ
  deriving DecidableEq

/-- What a match binds to a name: the USR of a declaration, the evidence for a location that is valid,
and a type that is not null as the text of its canonical form. -/
inductive BoundNode
  | decl (usr : Bytes) (loc : Option ExtensionEvidence) (type : Option Bytes)
  | expr (loc : Option ExtensionEvidence) (type : Option Bytes)
  | type (type : Option Bytes)

namespace BoundNode

def isOf : BoundNode → EndpointDomain → Bool
  | .decl .., .declaration | .expr .., .expression | .type _, .type => true
  | _, _ => false

def usr : BoundNode → Option Bytes
  | .decl usr _ _ => if usr = [] then none else some usr
  | _ => none

/-- The evidence at `location_of`. -/
def anchor (bound : BoundNode) : Option ExtensionEvidence :=
  (match bound with
    | .decl _ loc _ | .expr loc _ => loc
    | .type _ => none).filter fun evidence => evidence.file ≠ []

def canonicalType : BoundNode → Option Bytes
  | .decl _ _ key | .expr _ key | .type key => key

end BoundNode

/-- What identifies a binding by itself. -/
inductive Primitive
  | usr (text : Bytes)
  | anchor (evidence : ExtensionEvidence)
  deriving DecidableEq

def Primitive.text : Primitive → Bytes
  | .usr text => ascii "usr:" ++ text
  | .anchor evidence => ascii "anchor:" ++ (evidence.file ++ (ascii ":" ++ (decimal evidence.line ++
      (ascii ":" ++ decimal evidence.col))))

/-- `default_identity` is the text of this. -/
def defaultIdentity (bound : BoundNode) : Option Primitive :=
  (bound.usr.map .usr) <|> (bound.anchor.map .anchor)

/-- What a recipe reads of a match. -/
inductive IdentityInput
  | primitive (value : Primitive)
  | typeKey (text : Bytes)
  | owner (value : Primitive) (position : Bytes)
  | composed (values : List Primitive)
  deriving DecidableEq

def IdentityInput.text (sha256Hex : Bytes → Bytes) : IdentityInput → Bytes
  | .primitive value => value.text
  | .typeKey text => ascii "type:" ++ text
  | .owner value position => ascii "owner:" ++ (value.text ++ (ascii "#" ++ position))
  | .composed values =>
    ascii "composed:sha256:" ++ sha256Hex (values.flatMap fun value => value.text ++ ascii "|")

namespace EmitNode

variable (emit : EmitNode) (nodes : Bytes → Option BoundNode)

/-- The binding that `run` resolves, if it is present. -/
def resolve (name : Bytes) : Option BoundNode :=
  (emit.domainOf name).bind fun domain => (nodes name).filter (·.isOf domain)

def identityInput : Option IdentityInput :=
  (emit.resolve nodes emit.binding).bind fun self =>
    match emit.identity.kind, emit.identity.components with
    | .usr, _ => self.usr.map fun text => .primitive (.usr text)
    | .sourceAnchor, _ => self.anchor.map fun evidence => .primitive (.anchor evidence)
    | .typeKey, _ => self.canonicalType.map .typeKey
    | .ownerPosition, owner :: position :: _ =>
      ((emit.resolve nodes owner).bind defaultIdentity).map (.owner · position)
    | .ownerPosition, _ => none
    | .composed, components =>
      (components.mapM fun name => (emit.resolve nodes name).bind defaultIdentity).map .composed

variable (sha256Hex : Bytes → Bytes)

def computeIdentity : Option Bytes := (emit.identityInput nodes).map (·.text sha256Hex)

/-- Matches with the same identity have the same input. -/
def Separates : Prop :=
  ∀ nodes nodes' text, emit.computeIdentity nodes sha256Hex = some text →
    emit.computeIdentity nodes' sha256Hex = some text → emit.identityInput nodes = emit.identityInput nodes'

end EmitNode

/-! ## What is read back -/

theorem eq_of_append_last {x x' y y' : Bytes} {c : UInt8} (hy : c ∉ y) (hy' : c ∉ y')
    (h : x ++ c :: y = x' ++ c :: y') : x = x' ∧ y = y' := by
  obtain ⟨a, _, hsplit⟩ | ⟨a, _, hsplit⟩ := append_eq_append_iff.mp h
  all_goals
    cases a with
    | nil => simp_all
    | cons =>
      obtain ⟨_, hrest⟩ := cons.inj hsplit
      simp_all

theorem colon_not_mem_decimal (i : ℤ) : 58 ∉ decimal i := by
  intro h
  exact absurd (isDecimalByte_decimal h) (by decide)

theorem Primitive.text_injective : Function.Injective Primitive.text := by
  intro a b h
  cases a with
  | usr =>
    cases b with
    | usr => rw [append_cancel_left h]
    | anchor => simp [Primitive.text, ascii] at h
  | anchor =>
    cases b with
    | usr => simp [Primitive.text, ascii] at h
    | anchor =>
      have hrest := append_cancel_left h
      have hcolon : ascii ":" = [58] := by decide +kernel
      simp only [hcolon, singleton_append] at hrest
      rw [← cons_append, ← append_assoc, ← cons_append, ← append_assoc] at hrest
      obtain ⟨hfront, hcol⟩ :=
        eq_of_append_last (colon_not_mem_decimal _) (colon_not_mem_decimal _) hrest
      obtain ⟨hfile, hline⟩ :=
        eq_of_append_last (colon_not_mem_decimal _) (colon_not_mem_decimal _) hfront
      rw [ExtensionEvidence.ext hfile (decimal_injective hline) (decimal_injective hcol)]

theorem mapM_replicate {α β : Type} (f : α → Option β) (n : ℕ) (a : α) :
    (List.replicate (n + 1) a).mapM f = (f a).map (List.replicate (n + 1)) := by
  cases hvalue : f a with
  | none => simp [replicate_succ, hvalue]
  | some b =>
    rw [mapM_eq_some_map (g := fun _ => b) fun x hx => by rw [eq_of_mem_replicate hx, hvalue]]
    simp

namespace EmitNode

variable {emit : EmitNode} {nodes nodes' : Bytes → Option BoundNode} {sha256Hex : Bytes → Bytes}
  {input input' : IdentityInput}

/-- What is read is read back, unless it is composed of different bindings. -/
theorem eq_of_text_eq (hsha : Function.Injective sha256Hex) (hcomposed : emit.identity.kind = .composed →
      ∃ n name, emit.identity.components = List.replicate (n + 1) name)
    (h : emit.identityInput nodes = some input) (h' : emit.identityInput nodes' = some input')
    (htext : input.text sha256Hex = input'.text sha256Hex) : input = input' := by
  obtain ⟨_, _, h⟩ := bind_eq_some_iff.mp h
  obtain ⟨_, _, h'⟩ := bind_eq_some_iff.mp h'
  obtain ⟨bindings, binding, kind, components⟩ := emit
  cases kind with
  | usr | sourceAnchor =>
    obtain ⟨_, _, rfl⟩ := map_eq_some_iff.mp h
    obtain ⟨_, _, rfl⟩ := map_eq_some_iff.mp h'
    exact congrArg IdentityInput.primitive (Primitive.text_injective htext)
  | typeKey =>
    obtain ⟨_, _, rfl⟩ := map_eq_some_iff.mp h
    obtain ⟨_, _, rfl⟩ := map_eq_some_iff.mp h'
    rw [append_cancel_left htext]
  | ownerPosition =>
    match components with
    | [] | [_] => cases h
    | _ :: _ :: _ =>
      obtain ⟨_, _, rfl⟩ := map_eq_some_iff.mp h
      obtain ⟨_, _, rfl⟩ := map_eq_some_iff.mp h'
      have hvalue := append_cancel_right (append_cancel_left htext)
      rw [Primitive.text_injective hvalue]
  | composed =>
    obtain ⟨n, name, rfl⟩ := hcomposed rfl
    dsimp only at h h'
    rw [mapM_replicate, Option.map_map, map_eq_some_iff] at h h'
    obtain ⟨value, _, rfl⟩ := h
    obtain ⟨value', _, rfl⟩ := h'
    have hjoined := hsha (append_cancel_left htext)
    have hlength := congrArg List.length hjoined
    simp only [length_flatMap, map_replicate, sum_replicate_nat] at hlength
    rw [replicate_succ, replicate_succ, flatMap_cons, flatMap_cons] at hjoined
    have hfirst := append_inj_left hjoined (Nat.eq_of_mul_eq_mul_left n.succ_pos hlength)
    rw [Primitive.text_injective (append_cancel_right hfirst)]

/-! ## Matches with one identity -/

/-- The anchor in a file of this name is a sequence of anchors, with their separators. -/
def joinedFile : ℕ → Bytes
  | 0 => ascii "x"
  | n + 1 => ascii "x:1:1|" ++ (ascii "anchor:" ++ joinedFile n)

theorem text_joinedFile (n : ℕ) : (Primitive.anchor ⟨joinedFile n, 1, 1⟩).text ++ ascii "|" =
    (List.replicate (n + 1) (ascii "anchor:" ++ ascii "x:1:1|")).flatten := by
  induction n with
  | zero => decide +kernel
  | succ _ ih =>
    rw [replicate_succ, flatten_cons, ← ih]
    simp [Primitive.text, joinedFile]

theorem flatten_joinedFile (size : Bytes → ℕ) (components : List Bytes) :
    (components.map fun name => Primitive.anchor ⟨joinedFile (size name), 1, 1⟩).flatMap
        (fun value => value.text ++ ascii "|") =
      (List.replicate (components.map fun name => size name + 1).sum
        (ascii "anchor:" ++ ascii "x:1:1|")).flatten := by
  induction components with
  | nil => rfl
  | cons _ _ ih =>
    rw [map_cons, flatMap_cons, ih, text_joinedFile, map_cons, sum_cons,
      ← flatten_append, ← replicate_add]

def sizeIf (chosen : Bytes) (u v : ℕ) (name : Bytes) : ℕ := if name = chosen then u else v

theorem sum_sizeIf (components : List Bytes) (chosen : Bytes) (u v : ℕ) :
    (components.map fun name => sizeIf chosen u v name + 1).sum =
      components.count chosen * u + components.countP (· ≠ chosen) * v + components.length := by
  induction components with
  | nil => simp
  | cons name _ ih =>
    rw [map_cons, sum_cons, ih, sizeIf]
    by_cases h : name = chosen
    all_goals
      simp [h]
      ring

/-- A match whose bindings all stand in such files. -/
def joinedNodes (emit : EmitNode) (size : Bytes → ℕ) (name : Bytes) : Option BoundNode :=
  (emit.domainOf name).map fun domain =>
    match domain with
    | .declaration => .decl [] (some ⟨joinedFile (size name), 1, 1⟩) none
    | .expression => .expr (some ⟨joinedFile (size name), 1, 1⟩) none
    | _ => .type none

theorem resolve_joinedNodes {name : Bytes} {domain : EndpointDomain} (size : Bytes → ℕ)
    (h : emit.domainOf name = some domain) (hcustom : domain ≠ .customNode) :
    ∃ bound, emit.resolve (joinedNodes emit size) name = some bound ∧
      (domain.supportsDefaultIdentity = true →
        defaultIdentity bound = some (.anchor ⟨joinedFile (size name), 1, 1⟩)) := by
  have hfile : joinedFile (size name) ≠ [] := by
    cases size name <;> simp [joinedFile, ascii]
  cases domain with
  | customNode => exact absurd rfl hcustom
  | _ => simp [resolve, h, joinedNodes, BoundNode.isOf, defaultIdentity, BoundNode.usr, BoundNode.anchor,
      hfile, EndpointDomain.supportsDefaultIdentity]

theorem components_of_accepted (h : emit.Accepted) (hkind : emit.identity.kind = .composed) :
    emit.identity.components ≠ [] ∧ ∀ name ∈ emit.identity.components,
      ∃ domain, emit.domainOf name = some domain ∧ domain.supportsDefaultIdentity = true := by
  have hnone := h.2
  unfold validateIdentity at hnone
  rw [hkind] at hnone
  cases hcomponents : emit.identity.components with
  | nil => simp [hcomponents] at hnone
  | cons =>
    rw [hcomponents] at hnone
    refine ⟨by simp, fun name hname => ?_⟩
    have hchecked := flatMap_eq_nil_iff.mp hnone name hname
    unfold validateReference at hchecked
    cases hdomain : emit.domainOf name with
    | none => simp [hdomain] at hchecked
    | some => simpa [hdomain] using hchecked

theorem identityInput_joinedNodes (size : Bytes → ℕ) (h : emit.Accepted)
    (hkind : emit.identity.kind = .composed) (hcustom : emit.domainOf emit.binding ≠ some .customNode) :
    emit.identityInput (joinedNodes emit size) = some (.composed (emit.identity.components.map fun name =>
      .anchor ⟨joinedFile (size name), 1, 1⟩)) := by
  obtain ⟨domain, hdomain⟩ := isSome_iff_exists.mp h.1
  obtain ⟨_, hself, _⟩ := resolve_joinedNodes size hdomain fun heq => hcustom (heq ▸ hdomain)
  rw [identityInput, hself, bind_some, hkind]
  dsimp only
  rw [mapM_eq_some_map, map_some]
  intro name hname
  obtain ⟨domain, hdomain, hsupports⟩ := (components_of_accepted h hkind).2 name hname
  obtain ⟨_, hbound, hidentity⟩ := @resolve_joinedNodes _ _ _ size hdomain fun heq => by
    rw [heq] at hsupports
    cases hsupports
  rw [hbound, bind_some, hidentity hsupports]

/-- An accepted recipe keeps matches apart unless it composes the identities of different bindings, and
its own binding can be resolved. -/
theorem separates_iff (hsha : Function.Injective sha256Hex) (haccepted : emit.Accepted) :
    emit.Separates sha256Hex ↔
      (emit.identity.kind = .composed → emit.domainOf emit.binding ≠ some .customNode →
        ∀ name ∈ emit.identity.components, ∀ other ∈ emit.identity.components, name = other) := by
  constructor
  · intro h hkind hcustom chosen hchosen other hother
    by_contra hne
    obtain ⟨others, hothers⟩ : ∃ n, emit.identity.components.countP (· ≠ chosen) = n + 1 :=
      Nat.exists_eq_succ_of_ne_zero (countP_pos_iff.mpr ⟨other, hother, by simpa using Ne.symm hne⟩).ne'
    -- The sequences of both matches are equally long, those of the chosen binding are not.
    have hread := fun u v => identityInput_joinedNodes (sizeIf chosen u v) haccepted hkind hcustom
    have htext : ∀ u v, emit.computeIdentity (joinedNodes emit (sizeIf chosen u v)) sha256Hex =
        some (ascii "composed:sha256:" ++ sha256Hex (List.replicate
          (emit.identity.components.count chosen * u + (others + 1) * v + emit.identity.components.length)
          (ascii "anchor:" ++ ascii "x:1:1|")).flatten) := by
      intro _ _
      rw [computeIdentity, hread, map_some, IdentityInput.text, flatten_joinedFile, sum_sizeIf, hothers]
    have hsame := h _ _ _ (htext (others + 1) 0) (by
      rw [htext 0 (emit.identity.components.count chosen), Nat.mul_zero, Nat.mul_zero, Nat.mul_comm,
        Nat.add_comm 0])
    rw [hread, hread, some.injEq, IdentityInput.composed.injEq, map_inj_left] at hsame
    have hfile := hsame chosen hchosen
    simp [sizeIf, joinedFile, ascii] at hfile
  · intro h nodes _ _ htext htext'
    obtain ⟨input, hinput, rfl⟩ := map_eq_some_iff.mp htext
    obtain ⟨input', hinput', heq⟩ := map_eq_some_iff.mp htext'
    rw [hinput, hinput', some.injEq]
    apply eq_of_text_eq hsha _ hinput hinput' heq.symm
    intro hkind
    obtain ⟨name, rest, hcomponents⟩ := exists_cons_of_ne_nil (components_of_accepted haccepted hkind).1
    have hcustom : emit.domainOf emit.binding ≠ some .customNode := by
      intro hcustom
      have hnone : emit.resolve nodes emit.binding = none := by
        simp [resolve, hcustom, BoundNode.isOf]
      rw [identityInput, hnone] at hinput
      cases hinput
    rw [hcomponents] at h ⊢
    exact ⟨rest.length, name, eq_replicate_of_mem fun other hother =>
      h hkind hcustom other hother name mem_cons_self⟩

def pairOf (first second : String) : EmitNode where
  bindings := [⟨ascii "f", .declaration⟩, ⟨ascii "g", .declaration⟩]
  binding := ascii "f"
  identity := ⟨.composed, [ascii first, ascii second]⟩

def declarations (f g : String) (name : Bytes) : Option BoundNode :=
  some (.decl (ascii (if name = ascii "f" then f else g)) none none)

/-- One binding may be named twice. -/
theorem separates_pairOf_same : (pairOf "f" "f").Separates id :=
  (@separates_iff (pairOf "f" "f") id Function.injective_id (by decide +kernel)).mpr (by decide +kernel)

/-- The USRs `1|usr:2` and `3` have the composed identity of `1` and `2|usr:3`. -/
theorem pairOf_collides : (pairOf "f" "g").Accepted ∧ ∀ sha256Hex, ¬ (pairOf "f" "g").Separates sha256Hex := by
  refine ⟨by decide +kernel, fun sha256Hex h => ?_⟩
  have hinput : (pairOf "f" "g").identityInput (declarations "1|usr:2" "3") =
      some (.composed [.usr (ascii "1|usr:2"), .usr (ascii "3")]) := by decide +kernel
  have hinput' : (pairOf "f" "g").identityInput (declarations "1" "2|usr:3") =
      some (.composed [.usr (ascii "1"), .usr (ascii "2|usr:3")]) := by decide +kernel
  have hsame := h _ _ _ (by rw [computeIdentity, hinput]; rfl) (by rw [computeIdentity, hinput']; rfl)
  rw [hinput, hinput'] at hsame
  exact absurd hsame (by decide +kernel)

end EmitNode

end CppIndexer.Extract
