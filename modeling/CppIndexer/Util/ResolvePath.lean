/-
# Resolving a stored path

A stored path may name a label in angle brackets, an environment variable or a
home directory.  `resolve_fs_path` replaces them in that order, each in one
pass: what a label stands for is not searched for labels again, and neither is
the value of a variable for variables.  Then the path is normalised.

The environment, the password database and the working directory are the
parameters.
-/

import CppIndexer.Util.PathUtil

namespace CppIndexer.Util.PathUtil

/-- What a process sees of its surroundings. -/
structure Surroundings where
  getenv : Bytes → Option Bytes
  /-- The home directory of the user that runs the process. -/
  ownHome : Option Bytes
  homeOf : Bytes → Option Bytes
  cwd : Bytes
  /-- `getcwd` returns an absolute path. -/
  cwd_abs : isabs cwd = true

/-- `LabelResolver`. -/
structure LabelResolver where
  lookup : Bytes → Option Bytes
  autoderive : Bool

/-! ## Variables -/

/-- `[A-Za-z0-9_]`. -/
def isWordByte (c : UInt8) : Bool :=
  (48 ≤ c.toNat ∧ c.toNat ≤ 57) ∨ (65 ≤ c.toNat ∧ c.toNat ≤ 90) ∨
    (97 ≤ c.toNat ∧ c.toNat ≤ 122) ∨ c = 95

/-- The variable reference behind a `$`: its name and its text, when there is
one.  An opening brace without a closing one has no name. -/
def variableAt (rest : Bytes) : Option (Option Bytes × Bytes) :=
  match rest with
  | [] => none
  | c :: behind =>
    if isWordByte c then
      some (some (rest.takeWhile isWordByte), rest.takeWhile isWordByte)
    else if c = 123 then
      let body := behind.takeWhile (· ≠ 125)
      if body.length < behind.length then some (some body, 123 :: body ++ [125])
      else some (none, 123 :: body)
    else none

/-- One walk over the path: a defined variable is replaced, any other reference
stays as it is. -/
def expandReferences (getenv : Bytes → Option Bytes) : Nat → Bytes → Bytes
  | 0, path => path
  | _ + 1, [] => []
  | fuel + 1, c :: rest =>
    if c = 36 then
      match variableAt rest with
      | none => c :: expandReferences getenv fuel rest
      | some (name, text) =>
        ((name.bind getenv).getD (c :: text)) ++
          expandReferences getenv fuel (rest.drop text.length)
    else c :: expandReferences getenv fuel rest

def expandvars (getenv : Bytes → Option Bytes) (path : Bytes) : Bytes :=
  if 36 ∈ path then expandReferences getenv path.length path else path

/-! ## Home directories -/

variable (s : Surroundings)

def expanduser (path : Bytes) : Bytes :=
  if path.head? ≠ some 126 then path
  else
    let user := (path.drop 1).takeWhile (· ≠ slash)
    let home :=
      if user = [] then (s.getenv (ascii "HOME")).orElse fun _ => s.ownHome
      else s.homeOf user
    match home with
    | none => path
    | some home =>
      let result := (home.reverse.dropWhile (· = slash)).reverse ++ path.drop (1 + user.length)
      if result = [] then [slash] else result

/-! ## Labels -/

variable (labels : LabelResolver)

/-- What a placeholder is replaced by: the registered path, else a path derived
from the name, else itself. -/
def labelValue (name : Bytes) : Bytes :=
  match labels.lookup name with
  | some path => path
  | none =>
    if labels.autoderive ∧ name ≠ [] then
      slash :: name.map fun c => if c = 45 then slash else c
    else 60 :: name ++ [62]

/-- One walk over the token. -/
def expandPlaceholders (labels : LabelResolver) : Nat → Bytes → Bytes
  | 0, token => token
  | _ + 1, [] => []
  | fuel + 1, c :: rest =>
    if c = 60 then
      let name := rest.takeWhile (· ≠ 62)
      if name.length < rest.length then
        labelValue labels name ++ expandPlaceholders labels fuel (rest.drop (name.length + 1))
      else c :: rest
    else c :: expandPlaceholders labels fuel rest

def labelExpand (token : Bytes) : Bytes :=
  if 60 ∈ token then expandPlaceholders labels token.length token else token

/-! ## The chain -/

/-- The steps behind the labels: variables, home, normal form. -/
def resolveText (text : Bytes) : Bytes :=
  normpath (expanduser s (expandvars s.getenv text))

def resolveFsPath (stored : Bytes) : Bytes :=
  resolveText s (labelExpand labels stored)

/-! ## Texts without anything to resolve -/

variable {text path : Bytes} {labels : LabelResolver} {s : Surroundings}

theorem expandvars_of_plain {getenv : Bytes → Option Bytes} (h : 36 ∉ path) :
    expandvars getenv path = path := by
  simp [expandvars, h]

theorem expanduser_of_isabs (h : isabs path = true) : expanduser s path = path := by
  have hhead : path.head? = some slash := by simpa [isabs] using h
  simp [expanduser, hhead, slash]

theorem labelExpand_of_plain {token : Bytes} (h : 60 ∉ token) :
    labelExpand labels token = token := by
  simp [labelExpand, h]

theorem resolveText_of_plain (habs : isabs text = true)
    (hvars : 36 ∉ text) : resolveText s text = normpath text := by
  rw [resolveText, expandvars_of_plain hvars, expanduser_of_isabs habs]

theorem expandPlaceholders_of_plain (h : 60 ∉ text)
    (fuel : Nat) : expandPlaceholders labels fuel text = text := by
  induction text generalizing fuel with
  | nil => cases fuel <;> rfl
  | cons _ _ ih =>
    rw [List.mem_cons, not_or] at h
    cases fuel with
    | zero => rfl
    | succ => simp [expandPlaceholders, Ne.symm h.1, ih h.2]

theorem takeWhile_append_stop {α : Type} {p : α → Bool} {front : List α} {stop : α}
    (hfront : ∀ a ∈ front, p a = true) (hstop : p stop = false) (rest : List α) :
    (front ++ stop :: rest).takeWhile p = front := by
  rw [List.takeWhile_append_of_pos hfront, List.takeWhile_cons]
  simp [hstop]

theorem labelExpand_placeholder {name rest : Bytes} (hname : 62 ∉ name) (hrest : 60 ∉ rest) :
    labelExpand labels (60 :: name ++ 62 :: rest) = labelValue labels name ++ rest := by
  have hopen : 60 ∈ (60 :: name ++ 62 :: rest : Bytes) := List.mem_cons_self
  have htake : (name ++ 62 :: rest).takeWhile (· ≠ 62) = name := by
    apply takeWhile_append_stop
    · intro c hc
      have hne : c ≠ 62 := fun h => hname (h ▸ hc)
      simpa using hne
    · simp
  have hdrop : (name ++ 62 :: rest).drop (name.length + 1) = rest := by
    simp
  rw [labelExpand, if_pos hopen]
  simp only [List.cons_append, List.length_cons, expandPlaceholders, if_pos, htake]
  rw [if_pos (by simp), hdrop, expandPlaceholders_of_plain hrest]

end CppIndexer.Util.PathUtil
