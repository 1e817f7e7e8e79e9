/-
# Simple walks

A walk is a chain of links, each leading from the node of the link before it to a node of its own. It is
simple when its links lead to different nodes. Whatever a walk reaches is reached by a simple one.
-/

import Mathlib.Data.List.Chain
import Mathlib.Data.List.Nodup
import Mathlib.Logic.Relation

namespace SimpleWalks

open List

variable {α β : Type*}

/-- `chain` is a simple walk from the link `first` to the node `last`. -/
structure IsSimple (node : α → β) (leads : β → α → Prop) (first : α) (last : β) (chain : List α) : Prop where
  first : chain.head? = some first
  last : chain.getLast?.map node = some last
  hops : chain.IsChain fun below above => leads (node below) above
  simple : (chain.map node).Nodup

variable {node : α → β} {leads : β → α → Prop} {first : α} {last : β} {chain : List α} {link : α}

namespace IsSimple

theorem single : IsSimple node leads first (node first) [first] where
  first := rfl
  last := rfl
  hops := List.IsChain.singleton _
  simple := nodup_singleton _

/-- A walk behind which a link to a new node comes. -/
theorem snoc (h : IsSimple node leads first last chain) (hleads : leads last link)
    (hnew : node link ∉ chain.map node) : IsSimple node leads first (node link) (chain ++ [link]) where
  first := by
    cases chain with
    | nil => cases h.first
    | cons => exact h.first
  last := by simp
  hops := by
    apply isChain_append.mpr
    refine ⟨h.hops, List.IsChain.singleton _, ?_⟩
    intro _ hbelow _ habove
    cases habove
    have hlast := h.last
    rw [Option.mem_def.mp hbelow] at hlast
    rwa [Option.some_inj.mp hlast]
  simple := by
    rw [map_append, map_singleton]
    exact h.simple.append (nodup_singleton _) (by simpa using hnew)

/-- A walk that goes on behind a part of it leads on from the end of that part to a new node. -/
theorem split {before after : List α} (h : IsSimple node leads first last (before ++ link :: after))
    (hbefore : before ≠ []) : ∃ middle, IsSimple node leads first middle before ∧ leads middle link ∧
      node link ∉ before.map node := by
  obtain ⟨hsimple, _, hnext⟩ := isChain_append.mp h.hops
  have hlast := getLast?_eq_some_getLast hbefore
  refine ⟨node (before.getLast hbefore), ⟨?_, ?_, hsimple, ?_⟩, hnext _ hlast link rfl, ?_⟩
  · cases before with
    | nil => exact absurd rfl hbefore
    | cons => exact h.first
  · rw [hlast]
    rfl
  · exact List.Nodup.sublist (List.Sublist.map _ (sublist_append_left _ _)) h.simple
  · have hsimple := h.simple
    rw [map_append, nodup_append] at hsimple
    intro hmem
    exact hsimple.2.2 _ hmem _ mem_cons_self rfl

theorem upTo (h : IsSimple node leads first last chain) (hlink : link ∈ chain) :
    ∃ part, IsSimple node leads first (node link) part := by
  obtain ⟨before, _, rfl⟩ := append_of_mem hlink
  refine ⟨before ++ [link], ?_, by simp, (isChain_split.mp h.hops).1, ?_⟩
  · cases before with
    | nil => simpa using h.first
    | cons => exact h.first
  · apply List.Nodup.sublist _ h.simple
    apply List.Sublist.map
    exact List.Sublist.append_left (by simp) before

end IsSimple

theorem exists_simple (h : Relation.ReflTransGen (fun b c => ∃ link, leads b link ∧ node link = c)
    (node first) last) : ∃ chain, IsSimple node leads first last chain := by
  induction h with
  | refl => exact ⟨[first], IsSimple.single⟩
  | tail _ hstep ih =>
    obtain ⟨chain, hchain⟩ := ih
    obtain ⟨link, hleads, rfl⟩ := hstep
    by_cases hnew : node link ∈ chain.map node
    · obtain ⟨_, hmem, hnode⟩ := mem_map.mp hnew
      rw [← hnode]
      exact hchain.upTo hmem
    · exact ⟨chain ++ [link], hchain.snoc hleads hnew⟩

/-- Extensions of a chain by different links are different. -/
theorem nodup_flatMap_extensions {γ : Type*} {chain links : List α} {extensions : α → List γ}
    {chainOf : γ → List α} (hlinks : links.Nodup) (hnodup : ∀ link ∈ links, (extensions link).Nodup)
    (hextends : ∀ link ∈ links, ∀ found ∈ extensions link, chain ++ [link] <+: chainOf found) :
    (links.flatMap extensions).Nodup := by
  apply nodup_flatMap.mpr
  refine ⟨hnodup, ?_⟩
  apply hlinks.imp_of_mem
  intro a b ha hb hne found hfound hother
  have hprefix := prefix_of_prefix_length_le (hextends a ha found hfound) (hextends b hb found hother)
    (by simp)
  apply hne
  simpa using hprefix.eq_of_length (by simp)

end SimpleWalks
