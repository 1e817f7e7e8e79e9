/-
# Macro dependencies

`record_macro_dependency` keeps each use of a macro from another file once. It remembers a use by one
text. The literals that should keep the three parts apart end at their first character, so that the
text is the parts one behind the other, and a use is lost whose parts give the text of another one.
-/

import Mathlib.Data.List.Nodup
import CppIndexer.Util.PathUtil

namespace CppIndexer.Ast

open Util List

/-- What is known about a use of a macro: whether it has a definition that is not built in, the names
of the files of the definition and of the use where these have one, and its identifier. -/
structure MacroReport where
  isDefined : Bool
  defFile : Option Bytes
  useFile : Option Bytes
  identifier : Option Bytes
  deriving DecidableEq, Repr

/-- `MacroUseFact`. -/
structure MacroUseFact where
  srcPath : Bytes
  defPath : Bytes
  name : Bytes
  deriving DecidableEq, Repr

/-- The fact of a report, if a header supplies the macro to another file. -/
def MacroReport.fact (report : MacroReport) : Option MacroUseFact := do
  if !report.isDefined then none
  let defPath ← report.defFile
  let srcPath ← report.useFile
  let name := report.identifier.getD []
  if srcPath = defPath ∨ name = [] then none
  else some { srcPath, defPath, name }

/-- `m.src_path + "\0" + m.def_path + "\0" + m.name`, where both literals are empty texts. -/
def MacroUseFact.seenKey (m : MacroUseFact) : Bytes := m.srcPath ++ m.defPath ++ m.name

/-- `seen_macro_uses_` and `macro_uses`. -/
structure MacroUses where
  seen : List Bytes := []
  uses : List MacroUseFact := []

def MacroUses.recordMacroDependency (s : MacroUses) (report : MacroReport) : MacroUses :=
  match report.fact with
  | none => s
  | some m => if m.seenKey ∈ s.seen then s else ⟨m.seenKey :: s.seen, s.uses ++ [m]⟩

/-- The macro uses of a translation unit. -/
def macroUses (reports : List MacroReport) : List MacroUseFact :=
  (reports.foldl MacroUses.recordMacroDependency {}).uses

/-- What is kept of some facts: one for every key. -/
structure MacroUses.Keeps (s : MacroUses) (facts : List MacroUseFact) : Prop where
  seen : ∀ key, key ∈ s.seen ↔ ∃ m ∈ s.uses, m.seenKey = key
  distinct : (s.uses.map MacroUseFact.seenKey).Nodup
  reported : s.uses ⊆ facts
  covered : ∀ m ∈ facts, ∃ kept ∈ s.uses, kept.seenKey = m.seenKey

variable {facts : List MacroUseFact}

theorem MacroUses.Keeps.record {s : MacroUses} (h : s.Keeps facts)
    (report : MacroReport) :
    (s.recordMacroDependency report).Keeps (facts ++ report.fact.toList) := by
  unfold MacroUses.recordMacroDependency
  cases report.fact with
  | none => simpa using h
  | some m =>
    have hsub : s.uses ⊆ facts ++ [m] := List.Subset.trans h.reported (subset_append_left _ _)
    dsimp only
    split
    · rename_i hseen
      refine ⟨h.seen, h.distinct, hsub, forall_mem_append.mpr ⟨h.covered, ?_⟩⟩
      simpa using (h.seen _).mp hseen
    · rename_i hnew
      refine ⟨fun key => ?_, ?_, ?_, forall_mem_append.mpr ⟨fun kept hkept => ?_, by simp⟩⟩
      · simp [h.seen, or_comm, eq_comm]
      · rw [map_append, map_singleton, nodup_append]
        refine ⟨h.distinct, pairwise_singleton _ _, fun key hkey other hother heq => hnew ?_⟩
        rw [mem_singleton.mp hother] at heq
        exact heq ▸ (h.seen key).mpr (mem_map.mp hkey)
      · exact append_subset.mpr ⟨hsub, subset_append_right _ _⟩
      · obtain ⟨found, hfound, hkey⟩ := h.covered kept hkept
        exact ⟨found, mem_append_left _ hfound, hkey⟩

theorem keeps_foldl (reports : List MacroReport) {s : MacroUses}
    (h : s.Keeps facts) :
    (reports.foldl MacroUses.recordMacroDependency s).Keeps
      (facts ++ reports.filterMap MacroReport.fact) := by
  induction reports generalizing s facts with
  | nil => simpa using h
  | cons report _ ih =>
    have hrest := ih (h.record report)
    cases hfact : report.fact with
    | none | some => simpa [hfact] using hrest

/-- The facts of a translation unit are kept once each exactly if no two of them have their parts in
one text. -/
theorem macroUses_complete_iff (reports : List MacroReport) : ((macroUses reports).Nodup ∧
      ∀ m, m ∈ macroUses reports ↔ m ∈ reports.filterMap MacroReport.fact) ↔
    ∀ m ∈ reports.filterMap MacroReport.fact, ∀ m' ∈ reports.filterMap MacroReport.fact,
      m.srcPath ++ m.defPath ++ m.name = m'.srcPath ++ m'.defPath ++ m'.name → m = m' := by
  have hempty : MacroUses.Keeps {} [] := ⟨by simp, nodup_nil, nil_subset _, by simp⟩
  have hkeeps := keeps_foldl reports hempty
  rw [nil_append] at hkeeps
  constructor
  · rintro ⟨_, hall⟩ m hm m' hm' hkey
    exact inj_on_of_nodup_map hkeeps.distinct ((hall m).mpr hm) ((hall m').mpr hm') hkey
  · intro h
    refine ⟨List.Nodup.of_map _ hkeeps.distinct, fun m => ⟨fun hm => hkeeps.reported hm, fun hm => ?_⟩⟩
    obtain ⟨kept, hkept, hkey⟩ := hkeeps.covered m hm
    rwa [h m hm kept (hkeeps.reported hkept) hkey.symm]

/-- The use of `BC` from the header `x` is lost behind the one of `C` from `xB`. -/
theorem macroUses_lost :
    let use (header name : Bytes) : MacroReport := ⟨true, some header, some (ascii "s"), some name⟩
    let reports := [use (ascii "xB") (ascii "C"), use (ascii "x") (ascii "BC")]
    let lost : MacroUseFact := ⟨ascii "s", ascii "x", ascii "BC"⟩
    lost ∈ reports.filterMap MacroReport.fact ∧ lost ∉ macroUses reports := by
  decide +kernel

end CppIndexer.Ast
