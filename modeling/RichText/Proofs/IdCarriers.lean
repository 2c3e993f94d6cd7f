/-
# Nodes with an id

A start tag adds its node, which has the tag's id, and at most one more, which has no
key (`Builder.Gained`). Nothing else adds nodes, so no more nodes have an id than start
tags before them do (`Builder.carriers_run`).

Key definitions: `Token.hasId`, `Event.hasId`, `StyleTree.carriers`, `Builder.Gained`.
Key theorems: `StyleTree.two_le_carriers`, `EventStream.countP_items_le`,
`Builder.gained_opened`, `Builder.carriers_run`.
-/
import RichText.Proofs.Balance

namespace RichText

open Markup Text

/-! ### Tags and nodes with an id -/

/-- Whether a token is a start tag with the id `x`. -/
def Markup.Token.hasId (x : String) : Token → Bool
  | .startTag _ attributes _ => attributes.get? "id" = some x
  | _ => false

/-- Whether an event is a start tag with the id `x`. -/
def Event.hasId (x : String) : Event → Bool
  | .opened _ attributes => attributes.get? "id" = some x
  | _ => false

theorem EventStream.countP_expand (x : String) (t : Position × Token) :
    (expand t).countP (·.2.hasId x) = if t.2.hasId x then 1 else 0 := by
  obtain ⟨p, token⟩ := t
  cases token with
  | startTag name attributes selfClosing =>
    cases selfClosing <;> simp [expand, Event.hasId, Token.hasId, List.countP_cons]
  | endTag => rfl
  | text => rfl
  | comment => rfl

/-- There are no more events with an id than tags with it. -/
theorem EventStream.countP_items_le (x source : String) :
    (ofString source).items.countP (·.2.hasId x) ≤
      (Tokenizer.ofString source).stream.items.countP (·.2.hasId x) := by
  have hfront := (items_prefix_expand (Tokenizer.ofString source).stream.failure []
    (Tokenizer.ofString source).stream.items).1
  refine (hfront.sublist.countP_le).trans (Nat.le_of_eq ?_)
  generalize (Tokenizer.ofString source).stream.items = tokens
  induction tokens with
  | nil => rfl
  | cons t tokens ih =>
    rw [List.flatMap_cons, List.countP_append, ih, countP_expand, List.countP_cons, Nat.add_comm]

namespace StyleTree

/-- The number of nodes with the id `x`. -/
def carriers (t : StyleTree) (x : String) : Nat :=
  t.nodes.toList.countP fun n => n.key.bind (·.id) = some x

theorem carriers_push (t : StyleTree) (parent : Option Nat) (key : Option Key) (raw : Style)
    (x : String) : (t.push parent key raw).carriers x =
      t.carriers x + if key.bind (·.id) = some x then 1 else 0 := by
  simp [carriers, push, List.countP_append, List.countP_cons]

/-- Two nodes with the id are two. -/
theorem two_le_carriers {t : StyleTree} {x : String} {m n : Nat} (hne : m ≠ n)
    (hm : (t.key? m).bind (·.id) = some x) (hn : (t.key? n).bind (·.id) = some x) :
    2 ≤ t.carriers x := by
  have found {k : Nat} (h : (t.key? k).bind (·.id) = some x) :
      ∃ node, t.nodes.toList[k]? = some node ∧ node.key.bind (·.id) = some x := by
    unfold key? node? at h
    cases hk : t.nodes[k]? with
    | none => simp [hk] at h
    | some node => exact ⟨node, by simpa using hk, by simpa [hk] using h⟩
  have apart {a b : Nat} (hlt : a < b) (ha : (t.key? a).bind (·.id) = some x)
      (hb : (t.key? b).bind (·.id) = some x) : 2 ≤ t.carriers x := by
    obtain ⟨u, hu, hux⟩ := found ha
    obtain ⟨v, hv, hvx⟩ := found hb
    have hfront : 0 < (t.nodes.toList.take b).countP fun n => n.key.bind (·.id) = some x :=
      List.countP_pos_iff.2 ⟨u, List.mem_of_getElem? (i := a) (by
        rw [List.getElem?_take_of_lt hlt, hu]), by simpa using hux⟩
    have hback : 0 < (t.nodes.toList.drop b).countP fun n => n.key.bind (·.id) = some x :=
      List.countP_pos_iff.2 ⟨v, List.mem_of_getElem? (i := 0) (by
        rw [List.getElem?_drop, Nat.add_zero, hv]), by simpa using hvx⟩
    rw [carriers, ← List.take_append_drop b t.nodes.toList, List.countP_append]
    omega
  rcases Nat.lt_or_gt_of_ne hne with hlt | hlt
  · exact apart hlt hm hn
  · exact apart hlt hn hm

end StyleTree

namespace Builder

variable {b b' : Builder} {p : Position} {name x : String} {attributes : Attributes}

theorem get?_of_id_tagKey (h : (tagKey name attributes).id = some x) :
    attributes.get? "id" = some x :=
  (Option.filter_eq_some_iff.1 h).1

/-- A tag has the id of its node. -/
theorem carriers_push_le (t : StyleTree) (parent : Option Nat) (name : String)
    (attributes : Attributes) (raw : Style) (x : String) :
    (t.push parent (some (tagKey name attributes)) raw).carriers x ≤
      t.carriers x + if attributes.get? "id" = some x then 1 else 0 := by
  rw [StyleTree.carriers_push]
  refine Nat.add_le_add_left ?_ _
  split
  · next hid => rw [if_pos (get?_of_id_tagKey hid)]
  · exact Nat.zero_le _

/-- A start tag adds its node, and perhaps one without a key, or nothing. -/
inductive Gained (key : Key) (t : StyleTree) : StyleTree → Prop
  | none : Gained key t t
  | node (parent : Option Nat) (raw : Style) : Gained key t (t.push parent (some key) raw)
  | seat (parent parent' : Option Nat) (raw : Style) :
    Gained key t ((t.push parent (some key) raw).push parent' none .empty)

theorem gained_opensContent (h : OpensContent b name attributes b') :
    Gained (tagKey name attributes) b.document.styles b'.document.styles := by
  have pushed {flushed : Builder} (hf : b.flush = .ok flushed) :
      (flushed.pushTag name attributes).document.styles = b.document.styles.push
        (some b.styles.top) (some (tagKey name attributes))
          (tagStyle b.document.styles.registry attributes) := by
    have hkept := (flushes hf).kept
    show flushed.document.styles.push _ _ (tagStyle flushed.document.styles.registry _) = _
    rw [hkept.tree, hkept.styles]
  cases h with
  | head => exact .none
  | @container _ flushed hf kind =>
    show Gained _ _ ((flushed.pushTag name attributes).document.styles.push _ none .empty)
    rw [pushed hf]
    exact .seat _ _ _
  | @orderedList _ flushed hf =>
    show Gained _ _ (flushed.pushTag name attributes).document.styles
    rw [pushed hf]
    exact .node _ _
  | @table _ flushed hf =>
    show Gained _ _ (flushed.pushTag name attributes).document.styles
    rw [pushed hf]
    exact .node _ _
  | @leaf flushed added hf _ _ ha =>
    show Gained _ _ added.document.styles
    rw [(kept_add ha).tree]
    show Gained _ _ (flushed.pushTag name attributes).document.styles
    rw [pushed hf]
    exact .node _ _
  | @inline _ flushed hf =>
    show Gained _ _ (flushed.pushTag name attributes).document.styles
    rw [pushed hf]
    exact .node _ _

theorem gained_opened (h : b.opened p name attributes = .ok b') :
    Gained (tagKey name attributes) b.document.styles b'.document.styles := by
  generalize hframe : b.frame = f
  cases begins hframe h with
  | prolog | title | skipped => exact .none
  | root h =>
    cases h with
    | head | skipped => exact .none
    | body _ hm hr =>
      have htree := (kept_register hr).tree
      subst hm
      show Gained _ _ (StyleTree.push _ _ _ _)
      rw [htree]
      exact .seat _ _ _
  | head _ h => cases h <;> exact .none
  | inline h => exact gained_opensContent h
  | container _ _ _ h => exact gained_opensContent h
  | orderedList _ _ h =>
    cases h with
    | item => exact .seat _ _ _
    | other => exact .node _ _
  | table _ _ h =>
    cases h with
    | cell => exact .seat _ _ _
    | row | other => exact .node _ _

theorem carriers_opened (x : String) (h : b.opened p name attributes = .ok b') :
    b'.document.styles.carriers x ≤ b.document.styles.carriers x +
      if attributes.get? "id" = some x then 1 else 0 := by
  have hgained := gained_opened h
  generalize b'.document.styles = t at hgained
  cases hgained with
  | none => exact Nat.le_add_right _ _
  | node => exact carriers_push_le _ _ _ _ _ _
  | seat =>
    rw [StyleTree.carriers_push]
    exact carriers_push_le _ _ _ _ _ _

theorem tree_closed (h : b.closed p name = .ok b') :
    b'.document.styles = b.document.styles := by
  generalize hframe : b.frame = f
  cases closes hframe h with
  | root | head | skipped => rw [document_leave]
  | inHead | inTitle | inSkipped | inList | inTable => rfl
  | title => rw [document_leave]; rfl
  | @inline flushed hf =>
    rw [document_leave]
    exact (flushes hf).kept.tree
  | @container _ outer _ flushed _ hf hs =>
    have hleft : ({ flushed.popNode.popNode.leave with container := outer } :
        Builder).document.styles = b.document.styles := by
      show flushed.popNode.popNode.leave.document.styles = _
      rw [document_leave]
      exact (flushes hf).kept.tree
    rw [← hleft]
    cases hs with
    | body => rfl
    | child ha => exact (kept_add ha).tree
    | item _ hr => exact (kept_append _ _ _).tree.trans (kept_register hr).tree
    | cell _ hr => exact (kept_register hr).tree
    | loose _ hr => exact (kept_register hr).tree
  | orderedList _ ha =>
    rw [(kept_add ha).tree, document_leave]
    rfl
  | table _ ha =>
    rw [(kept_add ha).tree, (kept_make _ _ _).tree, document_leave]
    rfl

theorem tree_textRead {s : String} (h : b.textRead p s = .ok b') :
    b'.document.styles = b.document.styles := by
  generalize hframe : b.frame = f
  cases gathers hframe h <;> rfl

theorem carriers_step {event : Position × Event} (x : String) (h : b.step event = .ok b') :
    b'.document.styles.carriers x ≤ b.document.styles.carriers x +
      if event.2.hasId x then 1 else 0 := by
  obtain ⟨p, event⟩ := event
  cases event with
  | opened name attributes => simpa [Event.hasId] using carriers_opened x h
  | closed name => exact Nat.le_of_eq (congrArg (StyleTree.carriers · x) (tree_closed h))
  | text s => exact Nat.le_of_eq (congrArg (StyleTree.carriers · x) (tree_textRead h))

/-- There are no more nodes with an id than start tags with it. -/
theorem carriers_run (x : String) : ∀ {events : List (Position × Event)} {b b' : Builder},
    b.run events = .ok b' → b'.document.styles.carriers x ≤
      b.document.styles.carriers x + events.countP (·.2.hasId x)
  | [], _, _, h => Except.ok.inj h ▸ Nat.le_refl _
  | event :: events, b, b', h => by
    obtain ⟨b₁, hstep, hrest⟩ := run_cons_ok.1 h
    have hone := carriers_step x hstep
    have hmore := carriers_run x hrest
    rw [List.countP_cons]
    omega

end Builder

end RichText
