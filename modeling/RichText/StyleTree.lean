/-
# Style trees

The nodes that styles are computed for. A node has a parent, an earlier node
of the same tree, perhaps a key that selectors are matched against, and the
values set on the node itself.

Key definitions: `Key`, `StyleNode`, `StyleTree`, `StyleTree.push`,
`StyleTree.ancestors`, `StyleTree.deriveWith`,
`StyleTree.withoutNonInheritable`.
Key theorems: `StyleTree.node?_push`.
-/
import RichText.Style

namespace RichText

/-- What selectors are matched against: a tag, a class and an id. -/
structure Key where
  element : String
  className : Option String
  id : Option String
deriving DecidableEq, Repr

namespace Key

/-- A key in which an empty class or id counts as none. -/
def of (element : String) (className id : Option String) : Key :=
  ⟨element, className.filter (· ≠ ""), id.filter (· ≠ "")⟩

/-- The key written as a selector. -/
def text (k : Key) : String :=
  k.element ++ (k.className.elim "" ("." ++ ·)) ++ (k.id.elim "" ("#" ++ ·))

end Key

structure StyleNode where
  parent : Option Nat
  key : Option Key
  /-- The values set on the node itself. -/
  raw : Style
deriving DecidableEq, Repr

/-- A tree of nodes, addressed by the order in which they were added. -/
structure StyleTree where
  /-- What tells the tree from others. -/
  id : Nat
  registry : Registry
  nodes : Array StyleNode := #[]
  parent_lt : ∀ (i : Nat) (h : i < nodes.size), ∀ p ∈ nodes[i].parent, p < i := by simp

namespace StyleTree

/-- A tree without nodes. -/
def empty (id : Nat) (registry : Registry) : StyleTree := { id, registry }

def size (t : StyleTree) : Nat := t.nodes.size

def node? (t : StyleTree) (i : Nat) : Option StyleNode := t.nodes[i]?

def parent? (t : StyleTree) (i : Nat) : Option Nat := (t.node? i).bind (·.parent)

def key? (t : StyleTree) (i : Nat) : Option Key := (t.node? i).bind (·.key)

/-- The values set on a node itself. -/
def raw (t : StyleTree) (i : Nat) : Style := ((t.node? i).map (·.raw)).getD .empty

/-- The tree with one node more, which gets the next number. A parent that is
not in the tree is none. -/
def push (t : StyleTree) (parent : Option Nat) (key : Option Key) (raw : Style) : StyleTree where
  id := t.id
  registry := t.registry
  nodes := t.nodes.push ⟨parent.filter (· < t.size), key, raw⟩
  parent_lt i h p hp := by
    rw [Array.getElem_push] at hp
    split at hp
    · exact t.parent_lt i _ p hp
    · have hlt : p < t.size := by simpa using (Option.mem_filter_iff.1 hp).2
      simp only [Array.size_push] at h
      simp only [size] at hlt
      omega

/-- A new node takes the next number and changes no other. -/
theorem node?_push (t : StyleTree) (parent : Option Nat) (key : Option Key) (raw : Style) (i : Nat) :
    (t.push parent key raw).node? i =
      if i = t.size then some ⟨parent.filter (· < t.size), key, raw⟩ else t.node? i := by
  unfold node? push
  rw [Array.getElem?_push]
  rfl

/-- A parent has a smaller number. -/
theorem lt_of_parent? {t : StyleTree} {i p : Nat} (h : t.parent? i = some p) : p < i := by
  simp only [parent?, node?, Option.bind_eq_some_iff] at h
  obtain ⟨node, hn, hp⟩ := h
  obtain ⟨hi, rfl⟩ := Array.getElem?_eq_some_iff.1 hn
  exact t.parent_lt i hi p hp

/-- A node and its ancestors, from the node itself up to the root. -/
def ancestors (t : StyleTree) (i : Nat) : List Nat :=
  match h : t.parent? i with
  | none => [i]
  | some p =>
    have := lt_of_parent? h
    i :: t.ancestors p
termination_by i

/-- The keys from a node upward. -/
def keysAbove (t : StyleTree) (i : Nat) : List Key := (t.ancestors i).filterMap t.key?

/-- The tree with a sibling of a node that has the same key and values but one,
and the number of the sibling. -/
def deriveWith (t : StyleTree) (i ordinal : Nat) (v : Option Value) :
    Except StyleError (Nat × StyleTree) :=
  ((t.raw i).write t.registry ordinal v).map fun raw =>
    (t.size, t.push (t.parent? i) (t.key? i) raw)

/-- The values of a style that are inherited, in a style of their own. -/
def inheritedPart (r : Registry) (s : Style) : Style :=
  s.toList.foldl
    (fun part entry =>
      if r.isInherited entry.1 then ((part.put r entry.1 entry.2).toOption).getD part else part)
    .empty

/-- The node itself if all of its values are inherited; otherwise a sibling
with those of its values that are. -/
def withoutNonInheritable (t : StyleTree) (i : Nat) : Nat × StyleTree :=
  if (t.raw i).toList.all fun entry => t.registry.isInherited entry.1 then (i, t)
  else (t.size, t.push (t.parent? i) (t.key? i) (inheritedPart t.registry (t.raw i)))

end StyleTree

end RichText
