/-
# Resolving attributes

Several stylesheets are resolved together, a later one over the earlier ones.
A resolver is one stylesheet, several, or none at all; it remembers what it
has computed, so every question yields an answer and the resolver behind it.

An attribute that is not inherited is read from the node itself. One that is
inherited comes from the nearest node upward that has a value of its own, be
it set on the node or given by a rule that matches its key; if none has, the
default counts.

Key definitions: `SheetSet`, `SheetSet.resolve`, `Resolver`,
`Resolver.resolve`, `Resolver.duringLayout`, `StyleTree.owner`,
`StyleTree.getValue`, `StyleTree.getKind`.
-/
import RichText.StyleSheet

namespace RichText

/-- Stylesheets that are resolved together, in ascending order of weight. -/
structure SheetSet where
  sheets : List StyleSheet := []
  cache : Cache := ∅

namespace SheetSet

/-- The set with one stylesheet more, above all others. -/
def push (set : SheetSet) (s : StyleSheet) : SheetSet := ⟨set.sheets ++ [s], ∅⟩

/-- The set with nothing remembered, in its stylesheets neither. -/
def forget (set : SheetSet) : SheetSet := ⟨set.sheets.map .forget, ∅⟩

/-- The styles that stylesheets give a node, and the stylesheets behind the
question. -/
def resolveEach (t : StyleTree) (node : Nat) : List StyleSheet → List Style × List StyleSheet
  | [] => ([], [])
  | s :: sheets =>
    let first := s.resolve t node
    let others := resolveEach t node sheets
    (first.1.toList ++ others.1, first.2 :: others.2)

/-- One style over another; none if there are none. -/
def mergeAll : List Style → Option Style
  | [] => none
  | first :: others => some (first.merge others)

/-- The style of a node, remembered or computed, and then remembered. -/
def resolve (set : SheetSet) (t : StyleTree) (node : Nat) : Option Style × SheetSet :=
  match set.cache[(t.id, node)]? with
  | some style => (style, set)
  | none =>
    let found := resolveEach t node set.sheets
    let style := mergeAll found.1
    (style, ⟨found.2, set.cache.insert (t.id, node) style⟩)

end SheetSet

/-- Where the styles of nodes come from. -/
inductive Resolver where
  /-- From nowhere: no node has a style. -/
  | absent
  | sheet (s : StyleSheet)
  | set (s : SheetSet)

namespace Resolver

/-- The style of a node. -/
def resolve (t : StyleTree) (node : Nat) : StateM Resolver (Option Style)
  | absent => (none, absent)
  | sheet s =>
    let found := s.resolve t node
    (found.1, sheet found.2)
  | set s =>
    let found := s.resolve t node
    (found.1, set found.2)

/-- The resolver with nothing remembered, as it is when a layout begins and
when it ends. -/
def forget : Resolver → Resolver
  | absent => absent
  | sheet s => sheet s.forget
  | set s => set s.forget

/-- Whether the style of a node is remembered. -/
def remembers (t : StyleTree) (node : Nat) : Resolver → Bool
  | absent => false
  | sheet s => s.cache.contains (t.id, node)
  | set s => s.cache.contains (t.id, node)

/-- Runs a layout: nothing is remembered from before it nor after it. -/
def duringLayout {α : Type} (layout : StateM Resolver α) : StateM Resolver α := do
  modify forget
  let result ← layout
  modify forget
  return result

end Resolver

namespace StyleTree

/-- The value that the rules matching a node's key give to an attribute. -/
def cascaded (t : StyleTree) (node ordinal : Nat) : StateM Resolver (Option Value) := do
  if (t.key? node).isNone then return none
  else
    let style ← Resolver.resolve t node
    return style.bind (·.get? ordinal)

/-- The nearest node from `node` upward with a value of its own, or the root. -/
def nearestOwner (t : StyleTree) (node ordinal : Nat) : StateM Resolver Nat :=
  match h : t.parent? node with
  | none => return node
  | some p => do
    have := lt_of_parent? h
    if ((t.raw node).get? ordinal).isSome then return node
    else
      let value ← t.cascaded node ordinal
      if value.isSome then return node else t.nearestOwner p ordinal
termination_by node

/-- The node that a value of an attribute comes from. -/
def owner (t : StyleTree) (node ordinal : Nat) : StateM Resolver Nat :=
  if t.registry.isInherited ordinal then t.nearestOwner node ordinal else return node

/-- The value of an attribute at a node, without a look at other nodes. -/
def valueHere (t : StyleTree) (node ordinal : Nat) : StateM Resolver (Option Value) := do
  match (t.raw node).get? ordinal with
  | some v => return some v
  | none =>
    let value ← t.cascaded node ordinal
    return value.or ((t.registry.get? ordinal).bind (·.default))

/-- The value of an attribute at a node; none only if it has no default. -/
def getValue (t : StyleTree) (node ordinal : Nat) : StateM Resolver (Option Value) := do
  let source ← t.owner node ordinal
  t.valueHere source ordinal

/-- The value of an attribute at a node, as one of a kind. -/
def getKind (t : StyleTree) (node ordinal : Nat) (kind : Kind) : StateM Resolver (Option Value) :=
  return kind.readOrInitial (← t.getValue node ordinal)

end StyleTree

end RichText
