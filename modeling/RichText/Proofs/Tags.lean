/-
# Tags and their nodes

A start tag in a body adds its node to the tree of styles and, if it makes a
container, one more without a key (`Tag.nodes`). Which number a node gets, and
which node it is a child of, can be told from the markup alone: `Forest.tags`
numbers the tags in the order of the text, and `Forest.runs` says under which node
each text stands.

Key definitions: `Tag`, `Tag.nodes`, `Tag.seat`, `Forest.tags`, `Forest.runs`.
Key theorems: `Forest.length_nodes`.
-/
import RichText.Proofs.Regions

namespace RichText

open Markup Text

/-! ### Tags -/

namespace Region

/-- Whether a tag in the region makes an element whose content are its children. -/
def isContainer (region : Region) (name : String) (attributes : Attributes) : Bool :=
  match region with
  | root => name = "body"
  | content => (Builder.containerKind? name attributes).isSome
  | list => name = "li"
  | table => name = "td" ∨ name = "th"

/-- The number of nodes that a tag in the region adds. -/
def nodeCount (region : Region) (name : String) (attributes : Attributes) : Nat :=
  if region.isContainer name attributes then 2 else 1

end Region

/-- A start tag that has a node. -/
structure Tag where
  position : Position
  name : String
  attributes : Attributes
  /-- Where it stands. -/
  region : Region
  /-- The node of the tag around it. -/
  outer : Option Nat
  /-- The node that its own is a child of. -/
  parent : Nat
  node : Nat

namespace Tag

def isContainer (t : Tag) : Bool := t.region.isContainer t.name t.attributes

theorem isContainer_content {t : Tag} (h : t.region = .content) :
    t.isContainer = (Builder.containerKind? t.name t.attributes).isSome := by
  rw [isContainer, h]
  rfl

/-- The node that what is inside the tag stands under: its own, or the one without
a key below it. -/
def seat (t : Tag) : Nat := if t.isContainer then t.node + 1 else t.node

/-- The kind of element that the tag makes. -/
def kindName? (t : Tag) : Option String :=
  match t.region with
  | .root => some "block"
  | .content =>
    if t.name = "ol" then some "ordered-list"
    else if t.name = "table" then some "table"
    else ((Builder.containerKind? t.name t.attributes).or
      (Builder.leafKind? t.name t.attributes)).map (·.name)
  | .list => if t.name = "li" then some "container" else none
  | .table => if t.name = "td" ∨ t.name = "th" then some "table-cell" else none

/-- The element that the tag makes, by its kind and its node. -/
def made (t : Tag) : List (String × Nat) := (t.kindName?.map (·, t.node)).toList

/-- The node of the tag itself. -/
def own (r : Registry) (t : Tag) : StyleNode :=
  ⟨some t.parent, some (Builder.tagKey t.name t.attributes), Builder.tagStyle r t.attributes⟩

/-- The nodes that the tag adds to the tree of styles. -/
def nodes (r : Registry) (t : Tag) : List StyleNode :=
  t.own r :: if t.isContainer then [⟨some t.node, none, .empty⟩] else []

/-- The number of nodes that the tag adds. -/
def count (t : Tag) : Nat := t.region.nodeCount t.name t.attributes

@[simp]
theorem length_nodes (r : Registry) (t : Tag) : (t.nodes r).length = t.count := by
  unfold nodes count Region.nodeCount isContainer
  split <;> rfl

end Tag

/-- A text under a node, unless it is blank. -/
def keptText (s : String) (seat : Nat) : List (String × Nat) :=
  if allBlank s.toList then [] else [(s, seat)]

namespace Forest

/-- The number of nodes that a forest adds in a region. -/
def nodeCount : Forest → Region → Nat
  | nil, _ => 0
  | text _ _ rest, region => rest.nodeCount region
  | element _ name attributes inside _ rest, region =>
    match region.inside name with
    | none => rest.nodeCount region
    | some within =>
      region.nodeCount name attributes + inside.nodeCount within + rest.nodeCount region

/-- The tags with nodes in a forest that stands in a region, in the order of the
text: inside the tag with the node `outer`, under the node `seat`, with `next` as
the first free number. -/
def tags : Forest → Region → (outer : Option Nat) → (seat next : Nat) → List Tag
  | nil, _, _, _, _ => []
  | text _ _ rest, region, outer, seat, next => rest.tags region outer seat next
  | element p name attributes inside _ rest, region, outer, seat, next =>
    match region.inside name with
    | none => rest.tags region outer seat next
    | some within =>
      let tag : Tag := ⟨p, name, attributes, region, outer, seat, next⟩
      let first := next + region.nodeCount name attributes
      tag :: (inside.tags within (some next) tag.seat first ++
        rest.tags region outer seat (first + inside.nodeCount within))

/-- The texts of a forest that stands in a region, each with the node that it
stands under, and the text at its end to which more may come. A text goes on up
to the next tag that has a node; `seen` is what it begins with. -/
def runs : Forest → Region → (seat next : Nat) → (seen : String) → List (String × Nat) × String
  | nil, _, _, _, seen => ([], seen)
  | text _ s rest, region, seat, next, seen =>
    rest.runs region seat next (if region = .content then seen ++ s else seen)
  | element p name attributes inside _ rest, region, seat, next, seen =>
    match region.inside name with
    | none => rest.runs region seat next seen
    | some within =>
      let tag : Tag := ⟨p, name, attributes, region, none, seat, next⟩
      let first := next + region.nodeCount name attributes
      let found := inside.runs within tag.seat first ""
      let more := rest.runs region seat (first + inside.nodeCount within) ""
      (keptText seen seat ++ found.1 ++ keptText found.2 tag.seat ++ more.1, more.2)

theorem sum_count_tags : ∀ (f : Forest) (region : Region) (outer : Option Nat) (seat next : Nat),
    ((f.tags region outer seat next).map Tag.count).sum = f.nodeCount region
  | nil, _, _, _, _ => rfl
  | text _ _ rest, region, outer, seat, next => rest.sum_count_tags region outer seat next
  | element p name attributes inside q rest, region, outer, seat, next => by
    unfold tags nodeCount
    cases region.inside name with
    | none => exact rest.sum_count_tags region outer seat next
    | some within =>
      simp only [List.map_cons, List.map_append, List.sum_cons, List.sum_append, sum_count_tags,
        Tag.count]
      omega

theorem length_nodes_tags (f : Forest) (r : Registry) (region : Region) (outer : Option Nat)
    (seat next : Nat) :
    ((f.tags region outer seat next).flatMap (Tag.nodes r)).length = f.nodeCount region := by
  rw [List.length_flatMap, ← f.sum_count_tags region outer seat next]
  simp

/-- Outside the content of containers no text is gathered. -/
theorem runs_silent : ∀ (f : Forest) {region : Region}, region ≠ .content → ∀ seat next : Nat,
    (f.runs region seat next "").2 = ""
  | nil, _, _, _, _ => rfl
  | text _ _ rest, region, h, seat, next => by
    unfold runs
    rw [if_neg h]
    exact rest.runs_silent h seat next
  | element _ name _ inside _ rest, region, h, seat, next => by
    unfold runs
    cases region.inside name with
    | none => exact rest.runs_silent h seat next
    | some within => exact rest.runs_silent h seat _

end Forest

/-! ### Places -/

/-- The event that a tag is read as. -/
def Tag.event (t : Tag) : Position × Event := (t.position, .opened t.name t.attributes)

/-- The tags come in the order of the text. -/
theorem Forest.sublist_tags : ∀ (f : Forest) (region : Region) (outer : Option Nat)
    (seat next : Nat), ((f.tags region outer seat next).map Tag.event).Sublist f.events
  | nil, _, _, _, _ => List.Sublist.slnil
  | text _ _ rest, region, outer, seat, next =>
    (rest.sublist_tags region outer seat next).cons _
  | element p name attributes inside q rest, region, outer, seat, next => by
    unfold tags events
    cases region.inside name with
    | none =>
      have hrest := rest.sublist_tags region outer seat next
      exact ((hrest.cons _).trans (List.sublist_append_right _ _)).cons _
    | some within =>
      simp only [List.map_cons, List.map_append]
      exact ((inside.sublist_tags within _ _ _).append
        ((rest.sublist_tags region outer seat _).cons _)).cons_cons _

/-- A tag is right below the tag around it, or below what stands around the forest. -/
theorem Forest.around : ∀ (f : Forest) (region : Region) (outer : Option Nat) (seat next : Nat),
    ∀ tag ∈ f.tags region outer seat next, (tag.outer = outer ∧ tag.parent = seat) ∨
      ∃ o ∈ f.tags region outer seat next, tag.outer = some o.node ∧ tag.parent = o.seat
  | nil, _, _, _, _, _, htag => nomatch htag
  | text _ _ rest, region, outer, seat, next, tag, htag =>
    rest.around region outer seat next tag htag
  | element p name attributes inside q rest, region, outer, seat, next, tag, htag => by
    unfold tags at htag ⊢
    cases hwithin : region.inside name with
    | none =>
      rw [hwithin] at htag
      exact rest.around region outer seat next tag htag
    | some within =>
      rw [hwithin] at htag
      rcases List.mem_cons.1 htag with rfl | htag
      · exact .inl ⟨rfl, rfl⟩
      · rcases List.mem_append.1 htag with htag | htag
        · right
          rcases inside.around within _ _ _ tag htag with h | ⟨o, ho, h⟩
          · exact ⟨_, List.mem_cons_self, h⟩
          · exact ⟨o, List.mem_cons_of_mem _ (List.mem_append_left _ ho), h⟩
        · rcases rest.around region outer seat _ tag htag with h | ⟨o, ho, h⟩
          · exact .inl h
          · exact .inr ⟨o, List.mem_cons_of_mem _ (List.mem_append_right _ ho), h⟩

/-! ### Numbers -/

/-- Each tag takes the numbers behind those of the tag before it. -/
def Numbered : (next : Nat) → List Tag → Prop
  | _, [] => True
  | next, tag :: tags => tag.node = next ∧ Numbered (next + tag.count) tags

theorem Numbered.append : ∀ {tags tags' : List Tag} {next : Nat}, Numbered next tags →
    Numbered (next + (tags.map Tag.count).sum) tags' → Numbered next (tags ++ tags')
  | [], _, _, _, h' => h'
  | tag :: tags, tags', next, h, h' => by
    refine ⟨h.1, Numbered.append h.2 ?_⟩
    simpa [Nat.add_assoc] using h'

theorem Numbered.le_node : ∀ {tags : List Tag} {next : Nat} {tag : Tag}, Numbered next tags →
    tag ∈ tags → next ≤ tag.node
  | first :: tags, next, tag, h, htag => by
    rcases List.mem_cons.1 htag with rfl | htag
    · exact Nat.le_of_eq h.1.symm
    · exact Nat.le_trans (Nat.le_add_right _ _) (h.2.le_node htag)

theorem Tag.count_pos (tag : Tag) : 0 < tag.count := by
  unfold count Region.nodeCount
  split <;> decide

/-- No two tags have the same node. -/
theorem Numbered.nodup : ∀ {tags : List Tag} {next : Nat}, Numbered next tags →
    (tags.map Tag.node).Nodup
  | [], _, _ => List.nodup_nil
  | tag :: tags, next, h => by
    refine List.nodup_cons.2 ⟨fun hmem => ?_, h.2.nodup⟩
    obtain ⟨other, hother, hsame⟩ := List.mem_map.1 hmem
    have hle := h.2.le_node hother
    rw [hsame, h.1] at hle
    exact Nat.not_le.2 (Nat.lt_add_of_pos_right tag.count_pos) hle

theorem Forest.numbered_tags : ∀ (f : Forest) (region : Region) (outer : Option Nat)
    (seat next : Nat), Numbered next (f.tags region outer seat next)
  | nil, _, _, _, _ => trivial
  | text _ _ rest, region, outer, seat, next => rest.numbered_tags region outer seat next
  | element p name attributes inside q rest, region, outer, seat, next => by
    unfold tags
    cases region.inside name with
    | none => exact rest.numbered_tags region outer seat next
    | some within =>
      refine ⟨rfl, (inside.numbered_tags within _ _ _).append ?_⟩
      rw [inside.sum_count_tags]
      exact rest.numbered_tags region outer seat _

section

variable {r : Registry}

/-- Where the nodes of tags begin, those with keys are the tags' own. -/
theorem Numbered.keyed : ∀ {tags : List Tag} {next : Nat}, Numbered next tags →
    (((tags.flatMap (Tag.nodes r)).zipIdx next).filter (·.1.key.isSome)).map (·.2) =
      tags.map Tag.node
  | [], _, _ => rfl
  | tag :: tags, next, h => by
    have ih := Numbered.keyed h.2
    rw [List.flatMap_cons, List.zipIdx_append, List.filter_append, List.map_append,
      Tag.length_nodes, ih, List.map_cons, h.1]
    unfold Tag.nodes Tag.own
    split <;> simp

/-- Where the nodes of tags begin, each node is where its tag says. -/
theorem Numbered.getElem? : ∀ {tags : List Tag} {next : Nat} {nodes : List StyleNode},
    Numbered next tags → nodes.drop next = tags.flatMap (Tag.nodes r) → ∀ tag ∈ tags,
    nodes[tag.node]? = some (tag.own r) ∧
      (tag.isContainer = true → nodes[tag.node + 1]? = some ⟨some tag.node, none, .empty⟩)
  | first :: tags, next, nodes, h, hnodes, tag, htag => by
    rcases List.mem_cons.1 htag with rfl | htag
    · have hown : nodes[next]? = some (tag.own r) := by
        have hget := congrArg (·[0]?) hnodes
        simpa [List.getElem?_drop, Tag.nodes] using hget
      refine ⟨h.1 ▸ hown, fun hc => ?_⟩
      have hget := congrArg (·[1]?) hnodes
      simpa [List.getElem?_drop, Tag.nodes, hc, h.1] using hget
    · refine Numbered.getElem? h.2 ?_ tag htag
      rw [← List.drop_drop, hnodes, List.flatMap_cons, List.drop_left' (Tag.length_nodes r first)]

end

end RichText
