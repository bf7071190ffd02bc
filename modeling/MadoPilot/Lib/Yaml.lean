import Mathlib.Data.List.Basic
import Mathlib.Data.Nat.Notation

/-!
# YAML events

A YAML parser delivers the nodes of its documents as events, a collection between a start and an end.  A
stream of events is well nested when it comes from trees.

* `Node.events`, `stream` : the events of a tree, and of the documents of a stream;
* `itemsDepth_le`, `entriesDepth_le` : how deep collections lie in one another.
-/

namespace MadoPilot.Lib.Yaml

abbrev Text := List Char

structure Tag where
  handle : Text
  suffix : Text
  deriving DecidableEq

inductive ScalarStyle where
  | plain | singleQuoted | doubleQuoted | literal | folded
  deriving DecidableEq

/-- What a parser delivers.  An anchor is a number, and zero where there is none. -/
inductive YamlEvent where
  | nothing
  | streamStart
  | streamEnd
  | documentStart
  | documentEnd
  | alias (anchor : ℕ)
  | scalar (text : Text) (style : ScalarStyle) (anchor : ℕ) (tag : Option Tag)
  | sequenceStart (anchor : ℕ) (tag : Option Tag)
  | sequenceEnd
  | mappingStart (anchor : ℕ) (tag : Option Tag)
  | mappingEnd
  deriving DecidableEq

inductive Node where
  | alias (anchor : ℕ)
  | scalar (text : Text) (style : ScalarStyle) (anchor : ℕ) (tag : Option Tag)
  | sequence (anchor : ℕ) (tag : Option Tag) (items : List Node)
  | mapping (anchor : ℕ) (tag : Option Tag) (entries : List (Node × Node))

/-! ### The events of a tree -/

def Node.first : Node → YamlEvent
  | .alias anchor => .alias anchor
  | .scalar text style anchor tag => .scalar text style anchor tag
  | .sequence anchor tag _ => .sequenceStart anchor tag
  | .mapping anchor tag _ => .mappingStart anchor tag

mutual

def Node.rest : Node → List YamlEvent
  | .alias _ | .scalar .. => []
  | .sequence _ _ items => itemsEvents items ++ [.sequenceEnd]
  | .mapping _ _ entries => entriesEvents entries ++ [.mappingEnd]

def itemsEvents : List Node → List YamlEvent
  | [] => []
  | item :: items => item.first :: (item.rest ++ itemsEvents items)

def entriesEvents : List (Node × Node) → List YamlEvent
  | [] => []
  | (key, value) :: entries =>
    key.first :: (key.rest ++ value.first :: (value.rest ++ entriesEvents entries))

end

def Node.events (n : Node) : List YamlEvent := n.first :: n.rest

def documents : List Node → List YamlEvent
  | [] => []
  | root :: roots => .documentStart :: (root.events ++ .documentEnd :: documents roots)

def stream (roots : List Node) : List YamlEvent := .streamStart :: (documents roots ++ [.streamEnd])

theorem Node.first_ne (n : Node) : n.first ≠ .sequenceEnd ∧ n.first ≠ .mappingEnd := by
  cases n <;> exact ⟨fun h => (by cases h), fun h => (by cases h)⟩

/-! ### Depth -/

mutual

def Node.depth : Node → ℕ
  | .alias _ | .scalar .. => 0
  | .sequence _ _ items => itemsDepth items + 1
  | .mapping _ _ entries => entriesDepth entries + 1

def itemsDepth : List Node → ℕ
  | [] => 0
  | item :: items => max item.depth (itemsDepth items)

def entriesDepth : List (Node × Node) → ℕ
  | [] => 0
  | (key, value) :: entries => max (max key.depth value.depth) (entriesDepth entries)

end

theorem itemsDepth_le {items : List Node} {n : ℕ} :
    itemsDepth items ≤ n ↔ ∀ item ∈ items, item.depth ≤ n := by
  induction items with
  | nil => simp [itemsDepth]
  | cons item items ih =>
    unfold itemsDepth
    rw [Nat.max_le, ih, List.forall_mem_cons]

theorem entriesDepth_le {entries : List (Node × Node)} {n : ℕ} :
    entriesDepth entries ≤ n ↔ ∀ e ∈ entries, e.1.depth ≤ n ∧ e.2.depth ≤ n := by
  induction entries with
  | nil => simp [entriesDepth]
  | cons e entries ih =>
    obtain ⟨key, value⟩ := e
    unfold entriesDepth
    rw [Nat.max_le, Nat.max_le, ih, List.forall_mem_cons]

end MadoPilot.Lib.Yaml
