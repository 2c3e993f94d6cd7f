/-
# Every part of the builder reads one element

While the content of an element is read, other elements are opened and closed,
but behind each of them the builder stands where it stood in front of it: the same
frames, nodes and container (`level_run`, by induction on the forest). An element
that has a frame of its own is read by a `Reader`; it takes the events up to the
end of this element and no more (`reads_of_returns`), and leaves the nodes as it
found them, but for the one that was opened for it. The nodes below the top are
those that the frames have opened (`stacked_of_unclosed`), so every node that an
end closes is there.

Key definitions: `Builder.run`, `Builder.Level`, `Reader`, `Builder.Returns`,
`Builder.Reads`, `Builder.Stacked`.
Key theorems: `Builder.opens`, `Builder.closed_reader`, `Builder.level_run`,
`Builder.reads_of_returns`, `Builder.styles_closed`.
-/
import Mathlib
import RichText.Proofs.Forest
import RichText.Proofs.Steps

namespace RichText

open Markup Text

namespace TableDraft

theorem style_addCell (t : TableDraft) (cell columns : Nat) :
    (t.addCell cell columns).style = t.style := by
  unfold addCell
  split <;> rfl

theorem style_endRow (t : TableDraft) : t.endRow.style = t.style := by
  unfold endRow
  split <;> rfl

end TableDraft

/-- What a frame can become while its element is not left and no other is open in
it. -/
inductive Frame.Follows : Frame → Frame → Prop
  | refl (f : Frame) : Follows f f
  | root : Follows .prolog .epilog
  | title (s s' : String) (depth : Nat) : Follows (.title s depth) (.title s' depth)
  | table (t t' : TableDraft) (depth : Nat) (h : t'.style = t.style) :
    Follows (.table t depth) (.table t' depth)

theorem Frame.Follows.trans {f g h : Frame} (hfg : f.Follows g) (hgh : g.Follows h) :
    f.Follows h := by
  cases hfg with
  | refl => exact hgh
  | root => cases hgh; exact .root
  | title => cases hgh <;> exact .title _ _ _
  | table _ _ _ h =>
    cases hgh with
    | refl => exact .table _ _ _ h
    | table _ _ _ h' => exact .table _ _ _ (h'.trans h)

/-- What is left of a frame is known from what it was. -/
theorem Frame.Follows.cases {f g : Frame} (h : f.Follows g) :
    match f with
    | .prolog => g = .prolog ∨ g = .epilog
    | .title _ depth => ∃ s, g = .title s depth
    | .table t depth => ∃ t' : TableDraft, t'.style = t.style ∧ g = .table t' depth
    | _ => g = f := by
  cases h with
  | refl => cases f <;> simp
  | root => exact .inr rfl
  | title _ s => exact ⟨s, rfl⟩
  | table _ t _ h => exact ⟨t, h, rfl⟩

/-- A frame with one element more inside that has none of its own, and whether the
element has a node. -/
inductive Frame.Deeper : (node : Bool) → Frame → Frame → Prop
  | head (depth : Nat) : Deeper false (.head depth) (.head (depth + 1))
  | title (s : String) (depth : Nat) : Deeper false (.title s depth) (.title s (depth + 1))
  | skipped (depth : Nat) : Deeper false (.skipped depth) (.skipped (depth + 1))
  | orderedList (list depth : Nat) :
    Deeper true (.orderedList list depth) (.orderedList list (depth + 1))
  | table (t t' : TableDraft) (depth : Nat) (h : t'.style = t.style) :
    Deeper true (.table t depth) (.table t' (depth + 1))

/-- A stack with one node more, or the same. -/
inductive StyleStack.Gains : (node : Bool) → StyleStack → StyleStack → Prop
  | same (s : StyleStack) : Gains false s s
  | node (s : StyleStack) (node : Nat) : Gains true s (s.push node)

theorem StyleStack.Gains.length {node : Bool} {s s' : StyleStack} (h : Gains node s s') :
    s'.below.length = s.below.length + node.toNat := by
  cases h <;> rfl

theorem StyleStack.Gains.pop {node : Bool} {s s' : StyleStack} (h : Gains node s s') :
    (if node then s'.pop else s') = s := by
  cases h <;> rfl

/-- The parts of a builder that read an element up to its end. -/
inductive Reader where
  | root
  | head
  | title
  | skipped
  /-- Reads what goes into the container around the element. -/
  | content
  | container (element : Nat) (role : Role)
  | orderedList (list : Nat)
  | table (draft : TableDraft)

namespace Reader

/-- The builder at the first event for the reader. -/
def enter : Reader → Builder → Builder
  | root, b => b.enter .root
  | head, b => b.enter (.head 0)
  | title, b => b.enter (.title "" 0)
  | skipped, b => b.enter (.skipped 0)
  | content, b => b.enter .inline
  | container element role, b => b.enterContainer element role
  | orderedList list, b => b.enter (.orderedList list 0)
  | table draft, b => b.enter (.table draft 0)

/-- Whether the reader closes the node on top when it begins. -/
def closesNode : Reader → Bool
  | content | container _ _ | orderedList _ | table _ => true
  | _ => false

/-- Whether what the reader reads goes into a container. -/
def isContent : Reader → Bool
  | content | container _ _ => true
  | _ => false

/-- The nodes open when the reader is done, from those open when it begins. -/
def leaves (r : Reader) (s : StyleStack) : StyleStack := if r.closesNode then s.pop else s

end Reader

namespace Builder

/-! ### Runs -/

/-- The builder behind events. -/
def run (b : Builder) (events : List (Position × Event)) : Except DocumentError Builder :=
  events.foldlM step b

variable {b b₀ b₁ b' : Builder} {p : Position} {name : String} {attributes : Attributes}

theorem run_cons_ok {event : Position × Event} {events : List (Position × Event)} :
    b.run (event :: events) = .ok b' ↔ ∃ b₁, b.step event = .ok b₁ ∧ b₁.run events = .ok b' := by
  unfold run
  rw [List.foldlM_cons]
  cases h : b.step event <;> simp [bind, Except.bind]

theorem run_append_ok : ∀ {front back : List (Position × Event)} {b : Builder},
    b.run (front ++ back) = .ok b' ↔ ∃ b₁, b.run front = .ok b₁ ∧ b₁.run back = .ok b'
  | [], back, b => by
    refine ⟨fun h => ⟨b, rfl, h⟩, ?_⟩
    rintro ⟨b₁, h, h'⟩
    obtain rfl := Except.ok.inj h
    exact h'
  | event :: front, back, b => by
    rw [List.cons_append, run_cons_ok]
    constructor
    · rintro ⟨b₁, hstep, hrun⟩
      obtain ⟨b₂, hfront, hback⟩ := run_append_ok.1 hrun
      exact ⟨b₂, run_cons_ok.2 ⟨b₁, hstep, hfront⟩, hback⟩
    · rintro ⟨b₂, hrun, hback⟩
      obtain ⟨b₁, hstep, hfront⟩ := run_cons_ok.1 hrun
      exact ⟨b₁, hstep, run_append_ok.2 ⟨b₂, hfront, hback⟩⟩

/-- An element is opened, its content is read, it is closed, and the rest is read. -/
theorem run_element {inside rest : Forest} {q : Position}
    (h : b.run (Forest.element p name attributes inside q rest).events = .ok b') :
    ∃ b₁ b₂ b₃, b.opened p name attributes = .ok b₁ ∧ b₁.run inside.events = .ok b₂ ∧
      b₂.closed q name = .ok b₃ ∧ b₃.run rest.events = .ok b' := by
  obtain ⟨b₁, hopen, hrun⟩ := run_cons_ok.1 h
  obtain ⟨b₂, hinside, hrun⟩ := run_append_ok.1 hrun
  obtain ⟨b₃, hclose, hrest⟩ := run_cons_ok.1 hrun
  exact ⟨b₁, b₂, b₃, hopen, hinside, hclose, hrest⟩

/-- A text is read, and the rest. -/
theorem run_text {s : String} {rest : Forest} (h : b.run (Forest.text p s rest).events = .ok b') :
    ∃ b₁, b.textRead p s = .ok b₁ ∧ b₁.run rest.events = .ok b' := by
  obtain ⟨b₁, htext, hrest⟩ := run_cons_ok.1 h
  exact ⟨b₁, htext, hrest⟩

/-! ### Start tags -/

/-- The builder stands where it stood: within the same elements, nodes and
container. -/
structure Level (b b' : Builder) : Prop where
  frame : b.frame.Follows b'.frame
  outer : b'.outer = b.outer
  styles : b'.styles = b.styles
  container : b'.container = b.container

theorem Level.refl (b : Builder) : Level b b := ⟨.refl _, rfl, rfl, rfl⟩

theorem Level.trans (h : Level b b₁) (h' : Level b₁ b') : Level b b' :=
  ⟨h.frame.trans h'.frame, h'.outer.trans h.outer, h'.styles.trans h.styles,
    h'.container.trans h.container⟩

/-- The builder `b₀` stands as `b`, but for a node that it has opened for the
reader. -/
structure Readies (r : Reader) (b b₀ : Builder) : Prop where
  frame : b.frame.Follows b₀.frame
  outer : b₀.outer = b.outer
  container : b₀.container = b.container
  styles : StyleStack.Gains r.closesNode b.styles b₀.styles

/-- A start tag calls a reader, or is one more element of the reader at work. -/
inductive Opens (b : Builder) : Builder → Prop
  | enters (r : Reader) (b₀ : Builder) (h : Readies r b b₀) : Opens b (r.enter b₀)
  | deeper (node : Bool) {b₁ : Builder} (frame : Frame.Deeper node b.frame b₁.frame)
    (outer : b₁.outer = b.outer) (container : b₁.container = b.container)
    (styles : StyleStack.Gains node b.styles b₁.styles) : Opens b b₁

/-- A reader that reads an element with a node. -/
theorem readies_pushTag {r : Reader} {flushed : Builder} (hr : r.closesNode = true)
    (hkept : Kept b flushed) (hkept₀ : Kept (flushed.pushTag name attributes) b₀) :
    Readies r b b₀ where
  frame := by
    rw [hkept₀.frame, show (flushed.pushTag name attributes).frame = _ from hkept.frame]
    exact .refl _
  outer := hkept₀.outer.trans hkept.outer
  container := hkept₀.container.trans hkept.container
  styles := by
    rw [hr, hkept₀.styles, ← hkept.styles]
    exact .node _ _

theorem OpensContent.opens (h : OpensContent b name attributes b₁) : Opens b b₁ := by
  cases h with
  | head => exact .enters .head b ⟨.refl _, rfl, rfl, .same _⟩
  | @container _ flushed hf kind =>
    exact .enters (.container flushed.document.size .child) _
      (readies_pushTag rfl (flushes hf).kept (kept_make _ _ _))
  | @orderedList _ flushed hf =>
    exact .enters (.orderedList flushed.document.size) _
      (readies_pushTag rfl (flushes hf).kept (kept_make _ _ _))
  | @table _ flushed hf spacing padding =>
    exact .enters (.table { style := flushed.document.styles.size, spacing, padding }) _
      (readies_pushTag rfl (flushes hf).kept (.refl _))
  | leaf hf _ ha =>
    exact .enters .content _
      (readies_pushTag rfl (flushes hf).kept ((kept_make _ _ _).trans (kept_add ha)))
  | inline _ hf => exact .enters .content _ (readies_pushTag rfl (flushes hf).kept (.refl _))

theorem OpensRoot.opens (h : OpensRoot b name attributes b₁) : Opens b b₁ := by
  cases h with
  | head => exact .enters .head b ⟨.refl _, rfl, rfl, .same _⟩
  | body _ hm hr =>
    have hkept := kept_register hr
    subst hm
    refine .enters (.container b.document.size .body) _ ⟨?_, hkept.outer, hkept.container, ?_⟩
    · rw [hkept.frame]
      exact .refl _
    · rw [hkept.styles]
      exact .node _ _
  | skipped => exact .enters .skipped b ⟨.refl _, rfl, rfl, .same _⟩

theorem OpensList.opens {list depth : Nat} (hframe : b.frame = .orderedList list depth)
    (h : OpensList b list depth name attributes b₁) : Opens b b₁ := by
  cases h with
  | item =>
    exact .enters (.container b.document.size (.item list)) _
      (readies_pushTag rfl (.refl _) (kept_make _ _ _))
  | other => exact .deeper true (by rw [hframe]; exact .orderedList list depth) rfl rfl (.node _ _)

theorem OpensTable.opens {draft : TableDraft} {depth : Nat} (hframe : b.frame = .table draft depth)
    (h : OpensTable b draft depth name attributes b₁) : Opens b b₁ := by
  cases h with
  | cell _ columns =>
    exact .enters (.container b.document.size (.cell columns)) _
      (readies_pushTag rfl (.refl _) (kept_make _ _ _))
  | row => exact .deeper true (by rw [hframe]; exact .table draft _ depth rfl) rfl rfl (.node _ _)
  | other => exact .deeper true (by rw [hframe]; exact .table draft _ depth rfl) rfl rfl (.node _ _)

theorem OpensHead.opens {depth : Nat} (hframe : b.frame = .head depth)
    (h : OpensHead b depth b₁) : Opens b b₁ := by
  cases h with
  | title => exact .enters .title b ⟨.refl _, rfl, rfl, .same _⟩
  | deeper => exact .deeper false (by rw [hframe]; exact .head depth) rfl rfl (.same _)

theorem opens (h : b.opened p name attributes = .ok b₁) : Opens b b₁ := by
  generalize hframe : b.frame = f
  cases begins hframe h with
  | prolog => exact .enters .root { b with frame := .epilog } ⟨hframe ▸ .root, rfl, rfl, .same _⟩
  | root h => exact h.opens
  | head depth h => exact h.opens hframe
  | title s depth => exact .deeper false (by rw [hframe]; exact .title s depth) rfl rfl (.same _)
  | skipped depth => exact .deeper false (by rw [hframe]; exact .skipped depth) rfl rfl (.same _)
  | inline h => exact h.opens
  | container _ _ _ h => exact h.opens
  | orderedList list depth h => exact h.opens hframe
  | table draft depth h => exact h.opens hframe

/-! ### Ends -/

/-- The reader is done: only the node that it closes is missing. -/
structure Returned (r : Reader) (b₀ b' : Builder) : Prop where
  frame : b₀.frame.Follows b'.frame
  outer : b'.outer = b₀.outer
  container : b'.container = b₀.container
  styles : b'.styles = r.leaves b₀.styles

theorem Readies.level {r : Reader} (h : Readies r b b₀) (h' : Returned r b₀ b') : Level b b' :=
  ⟨h.frame.trans h'.frame, h'.outer.trans h.outer, h'.styles.trans h.styles.pop,
    h'.container.trans h.container⟩

theorem leave_eq {frame : Frame} {outer : List Frame} (h : b.outer = frame :: outer) :
    b.leave = { b with frame, outer } := by
  simp only [leave, h]

/-- What becomes of a container that has been left changes nothing around it but
the draft of its table. -/
theorem Settles.kept {element : Nat} {role : Role} (h : Settles b element role b') :
    b.frame.Follows b'.frame ∧ b'.outer = b.outer ∧ b'.styles = b.styles ∧
      b'.container = b.container := by
  have of_kept {b' : Builder} (hkept : Kept b b') : b.frame.Follows b'.frame ∧
      b'.outer = b.outer ∧ b'.styles = b.styles ∧ b'.container = b.container :=
    ⟨by rw [hkept.frame]; exact .refl _, hkept.outer, hkept.styles, hkept.container⟩
  cases h with
  | body => exact of_kept (.refl b)
  | child h => exact of_kept (kept_add h)
  | item list h => exact of_kept ((kept_register h).trans (kept_append _ _ _))
  | @cell columns registered h draft depth hframe =>
    have hkept := kept_register h
    refine ⟨?_, hkept.outer, hkept.styles, hkept.container⟩
    rw [← hkept.frame, hframe]
    exact .table _ _ _ (draft.style_addCell _ _)
  | loose columns h => exact of_kept (kept_register h)

theorem returned_leave {r : Reader} (houter : b.outer = b₀.frame :: b₀.outer)
    (hcontainer : b.container = b₀.container) (hstyles : b.styles = r.leaves b₀.styles) :
    Returned r b₀ b.leave := by
  rw [leave_eq houter]
  exact ⟨.refl _, rfl, hcontainer, hstyles⟩

theorem Returned.kept {r : Reader} (h : Returned r b₀ b₁) (hkept : Kept b₁ b') :
    Returned r b₀ b' :=
  ⟨hkept.frame ▸ h.frame, hkept.outer.trans h.outer, hkept.container.trans h.container,
    hkept.styles.trans h.styles⟩

/-- At the end of its element a reader is done. -/
theorem closed_reader (r : Reader) (h : Level (r.enter b₀) b) (hclose : b.closed p name = .ok b') :
    Returned r b₀ b' := by
  have hframe := h.frame.cases
  have houter : b.outer = b₀.frame :: b₀.outer := h.outer.trans (by cases r <;> rfl)
  cases r with
  | root =>
    cases closes (f := .root) hframe hclose
    exact returned_leave houter h.container h.styles
  | head =>
    cases closes (f := .head 0) hframe hclose
    exact returned_leave houter h.container h.styles
  | skipped =>
    cases closes (f := .skipped 0) hframe hclose
    exact returned_leave houter h.container h.styles
  | title =>
    obtain ⟨s, hs⟩ := hframe
    cases closes hs hclose
    exact returned_leave houter h.container h.styles
  | content =>
    cases closes (f := .inline) hframe hclose with
    | inline hflush =>
      have hkept := (flushes hflush).kept
      exact returned_leave (hkept.outer.trans houter) (hkept.container.trans h.container)
        (congrArg StyleStack.pop (hkept.styles.trans h.styles))
  | container element role =>
    cases closes (f := .container element b₀.container role) hframe hclose with
    | @container _ _ _ flushed _ hflush hsettle =>
      have hkept := (flushes hflush).kept
      have hstyles : flushed.styles.pop.pop = b₀.styles.pop := by
        rw [hkept.styles, h.styles]
        rfl
      rw [leave_eq (show flushed.popNode.popNode.outer = _ from hkept.outer.trans houter)]
        at hsettle
      obtain ⟨s₁, s₂, s₃, s₄⟩ := hsettle.kept
      exact ⟨s₁, s₂, s₄, s₃.trans hstyles⟩
  | orderedList list =>
    have hleft : Returned (.orderedList list) b₀ b.popNode.leave :=
      returned_leave houter h.container (congrArg StyleStack.pop h.styles)
    cases closes (f := .orderedList list 0) hframe hclose with
    | orderedList _ hadd => exact hleft.kept (kept_add hadd)
  | table draft =>
    obtain ⟨t, -, ht⟩ := hframe
    have hleft : Returned (.table draft) b₀ b.popNode.leave :=
      returned_leave houter h.container (congrArg StyleStack.pop h.styles)
    cases closes ht hclose with
    | table _ hadd => exact hleft.kept ((kept_make _ _ _).trans (kept_add hadd))

/-- The end of an element without a frame of its own. -/
theorem closed_deeper {node : Bool} {f g : Frame} (hdeeper : Frame.Deeper node f g)
    (hframe : g.Follows b.frame) (hclose : b.closed p name = .ok b') :
    f.Follows b'.frame ∧ b'.outer = b.outer ∧ b'.container = b.container ∧
      b'.styles = if node then b.styles.pop else b.styles := by
  have hframe := hframe.cases
  cases hdeeper with
  | head depth =>
    cases closes (f := .head (depth + 1)) hframe hclose
    exact ⟨.refl _, rfl, rfl, rfl⟩
  | skipped depth =>
    cases closes (f := .skipped (depth + 1)) hframe hclose
    exact ⟨.refl _, rfl, rfl, rfl⟩
  | orderedList list depth =>
    cases closes (f := .orderedList list (depth + 1)) hframe hclose
    exact ⟨.refl _, rfl, rfl, rfl⟩
  | title =>
    obtain ⟨s', hs⟩ := hframe
    cases closes hs hclose
    exact ⟨.title _ _ _, rfl, rfl, rfl⟩
  | table t t₁ depth hstyle =>
    obtain ⟨t', hstyle', ht⟩ := hframe
    cases closes ht hclose
    refine ⟨.table _ _ _ ?_, rfl, rfl, rfl⟩
    split
    · rw [t'.style_endRow, hstyle', hstyle]
    · rw [hstyle', hstyle]

theorem level_textRead {s : String} (h : b.textRead p s = .ok b') : Level b b' := by
  generalize hframe : b.frame = f
  cases gathers hframe h with
  | title s' depth => exact ⟨by rw [hframe]; exact .title _ _ _, rfl, rfl, rfl⟩
  | inline | container => exact ⟨.refl _, rfl, rfl, rfl⟩
  | _ => exact .refl _

/-- An element that is read as a whole changes nothing around it. -/
theorem level_element {b₂ : Builder} {q : Position} (hopen : b.opened p name attributes = .ok b₁)
    (hinside : Level b₁ b₂) (hclose : b₂.closed q name = .ok b') : Level b b' := by
  cases opens hopen with
  | enters r b₀ hready => exact hready.level (closed_reader r hinside hclose)
  | deeper node hframe houter hcontainer hstyles =>
    obtain ⟨h₁, h₂, h₃, h₄⟩ := closed_deeper hframe hinside.frame hclose
    refine ⟨h₁, h₂.trans (hinside.outer.trans houter), ?_,
      h₃.trans (hinside.container.trans hcontainer)⟩
    rw [h₄, hinside.styles]
    exact hstyles.pop

/-- Behind a forest the builder stands where it stood before. -/
theorem level_run : ∀ (f : Forest) {b b' : Builder}, b.run f.events = .ok b' → Level b b'
  | .nil, b, b', h => by
    obtain rfl := Except.ok.inj h
    exact .refl _
  | .text p s rest, b, b', h => by
    obtain ⟨b₁, htext, hrest⟩ := run_text h
    exact (level_textRead htext).trans (level_run rest hrest)
  | .element p name attributes inside q rest, b, b', h => by
    obtain ⟨b₁, b₂, b₃, hopen, hinside, hclose, hrest⟩ := run_element h
    exact (level_element hopen (level_run inside hinside) hclose).trans (level_run rest hrest)

/-! ### What a reader takes -/

/-- What every element read as a whole does to a builder, and every start tag, a
run does that need not end all of them. -/
theorem run_of_unclosed {R : Builder → Builder → Prop} (hlevel : ∀ {b b'}, Level b b' → R b b')
    (hopens : ∀ {b b'}, Opens b b' → R b b')
    (htrans : ∀ {b b₁ b'}, R b b₁ → R b₁ b' → R b b') {names : List String}
    {events : List (Position × Event)} (h : Unclosed names events) :
    ∀ {b b' : Builder}, b.run events = .ok b' → R b b' := by
  induction h with
  | forest f => exact fun hrun => hlevel (level_run f hrun)
  | opened f p name attributes more ih =>
    intro b b' hrun
    obtain ⟨b₁, hf, hrun⟩ := run_append_ok.1 hrun
    obtain ⟨b₂, hopen, hmore⟩ := run_cons_ok.1 hrun
    exact htrans (hlevel (level_run f hf)) (htrans (hopens (opens hopen)) (ih hmore))

theorem Opens.outer_le (h : Opens b b₁) : b.outer.length ≤ b₁.outer.length := by
  cases h with
  | enters r b₀ h =>
    have houter : (r.enter b₀).outer = b₀.frame :: b₀.outer := by cases r <;> rfl
    simp [houter, h.outer]
  | deeper _ _ houter => exact houter ▸ Nat.le_refl _

/-- As long as no element is closed that was open before, no frame is left. -/
theorem outer_le_of_unclosed {names : List String} {events : List (Position × Event)}
    (h : Unclosed names events) (hrun : b.run events = .ok b') :
    b.outer.length ≤ b'.outer.length :=
  run_of_unclosed (R := fun b b' => b.outer.length ≤ b'.outer.length)
    (fun h => h.outer ▸ Nat.le_refl _) Opens.outer_le Nat.le_trans h hrun

/-- The frame that `b` is in is left with the last of the events `used`. -/
structure Returns (b : Builder) (used : List (Position × Event)) (b' : Builder) : Prop where
  run : b.run used = .ok b'
  stays {front back : List (Position × Event)} {c : Builder} (h : used = front ++ back)
    (hback : back ≠ []) (hrun : b.run front = .ok c) : b.outer.length ≤ c.outer.length
  left : b'.outer.length < b.outer.length

/-- From `b₀` the reader reads an element to its end. A reader of what goes into a
container closes the node on top when it has flushed the text. -/
inductive Reads (r : Reader) (b₀ : Builder) (name : String) :
    (used : List (Position × Event)) → Builder → Prop
  | whole (content : Forest) (q : Position) {inner b' : Builder}
    (inside : (r.enter b₀).run content.events = .ok inner) (hclose : inner.closed q name = .ok b')
    (returned : Returned r b₀ b')
    (flushing : r.isContent = true → ∃ flushed, inner.flush = .ok flushed ∧
      flushed.popNode.styles = (r.enter b₀).styles.pop ∧
        flushed.container = (r.enter b₀).container) :
    Reads r b₀ name (content.events ++ [(q, .closed name)]) b'

theorem reads_whole {r : Reader} {content : Forest} {q : Position} {inner : Builder}
    (hinside : (r.enter b₀).run content.events = .ok inner)
    (hclose : inner.closed q name = .ok b') :
    Reads r b₀ name (content.events ++ [(q, .closed name)]) b' := by
  have hlevel := level_run content hinside
  refine .whole content q hinside hclose (closed_reader r hlevel hclose) fun hr => ?_
  obtain ⟨flushed, hflush⟩ : ∃ flushed, inner.flush = .ok flushed := by
    cases r with
    | content =>
      cases closes (f := .inline) hlevel.frame.cases hclose with
      | @inline flushed hflush => exact ⟨flushed, hflush⟩
    | container element role =>
      cases closes (f := .container element b₀.container role) hlevel.frame.cases hclose with
      | @container _ _ _ flushed _ hflush hsettle => exact ⟨flushed, hflush⟩
    | _ => nomatch hr
  have hkept := (flushes hflush).kept
  exact ⟨flushed, hflush, congrArg StyleStack.pop (hkept.styles.trans hlevel.styles),
    hkept.container.trans hlevel.container⟩

/-- A reader takes the events up to the end of the element that is innermost when
it begins. -/
theorem reads_of_returns {r : Reader} {used : List (Position × Event)} {outer : List String}
    {inside : List String} (hopen : openAfter (name :: outer) used = some inside)
    (h : Returns (r.enter b₀) used b') : Reads r b₀ name used b' := by
  rcases closes_or_unclosed used hopen with
    ⟨content, q, name', rest, outer', hname, rfl, -⟩ | ⟨names, hnames, -⟩
  · obtain ⟨rfl, rfl⟩ := List.cons.inj hname
    obtain ⟨inner, hinside, hrun⟩ := run_append_ok.1 h.run
    obtain ⟨b₁, hclose, hrest⟩ := run_cons_ok.1 hrun
    have hreads : Reads r b₀ name (content.events ++ [(q, .closed name)]) b₁ :=
      reads_whole hinside hclose
    -- The frame is left here already, so nothing comes behind.
    have hleft : b₁.outer.length < (r.enter b₀).outer.length := by
      have hb₁ := (closed_reader r (level_run content hinside) hclose).outer
      have houter : (r.enter b₀).outer = b₀.frame :: b₀.outer := by cases r <;> rfl
      simp [hb₁, houter]
    by_cases hrest' : rest = []
    · subst hrest'
      obtain rfl := Except.ok.inj hrest
      exact hreads
    · have hsplit : content.events ++ (q, .closed name) :: rest =
          (content.events ++ [(q, .closed name)]) ++ rest := by simp
      have hstays := h.stays hsplit hrest'
        (run_append_ok.2 ⟨inner, hinside, run_cons_ok.2 ⟨b₁, hclose, rfl⟩⟩)
      omega
  · have hstays := outer_le_of_unclosed hnames h.run
    have hleft := h.left
    omega

/-! ### Open nodes -/

end Builder

/-- The nodes that are open for a frame. -/
def Frame.nodes : Frame → Nat
  | .inline => 1
  | .container _ _ _ => 2
  | .orderedList _ depth => depth + 1
  | .table _ depth => depth + 1
  | _ => 0

/-- The nodes that the next end closes in a frame. -/
def Frame.pops : Frame → Nat
  | .inline => 1
  | .container _ _ _ => 2
  | .orderedList _ _ => 1
  | .table _ _ => 1
  | _ => 0

theorem Frame.pops_le_nodes (f : Frame) : f.pops ≤ f.nodes := by
  cases f <;> simp [pops, nodes]

theorem Frame.Follows.nodes_eq {f g : Frame} (h : f.Follows g) : g.nodes = f.nodes := by
  cases h <;> rfl

namespace StyleStack

theorem length_below_pop (s : StyleStack) : s.pop.below.length = s.below.length - 1 := by
  cases h : s.below <;> simp [pop, h]

theorem length_below_pop_iterate (s : StyleStack) (n : Nat) :
    (pop^[n] s).below.length = s.below.length - n := by
  induction n with
  | zero => rfl
  | succ n ih => rw [Function.iterate_succ_apply', length_below_pop, ih, Nat.sub_sub]

end StyleStack

namespace Builder

variable {b b₀ b₁ b' : Builder} {p : Position} {name : String} {attributes : Attributes}

/-- Below the top there are as many nodes as the frames have opened. -/
def Stacked (b : Builder) : Prop :=
  b.styles.below.length = b.frame.nodes + (b.outer.map Frame.nodes).sum

theorem Level.stacked (h : Level b b') (hb : b.Stacked) : b'.Stacked := by
  unfold Stacked
  rw [h.styles, h.frame.nodes_eq, h.outer]
  exact hb

theorem Opens.stacked (h : Opens b b₁) (hb : b.Stacked) : b₁.Stacked := by
  unfold Stacked at hb ⊢
  cases h with
  | enters r b₀ h =>
    have hstyles := h.styles.length
    have hframe := h.frame.nodes_eq
    have houter := h.outer
    cases r <;>
      simp_all [Reader.enter, Reader.closesNode, Builder.enter, enterContainer, pushNode,
        StyleStack.push, Frame.nodes] <;> omega
  | deeper node hframe houter hcontainer hstyles =>
    rw [houter, hstyles.length, hb]
    generalize b₁.frame = g at hframe ⊢
    generalize b.frame = f at hframe hb
    cases hframe <;> simp [Frame.nodes] <;> omega

theorem stacked_of_unclosed {names : List String} {events : List (Position × Event)}
    (h : Unclosed names events) (hrun : b.run events = .ok b') (hb : b.Stacked) : b'.Stacked :=
  run_of_unclosed (R := fun b b' => b.Stacked → b'.Stacked) Level.stacked Opens.stacked
    (fun h h' hb => h' (h hb)) h hrun hb

theorem styles_leave (b : Builder) : b.leave.styles = b.styles := by
  unfold leave
  split <;> rfl

/-- An end closes the nodes of its frame. -/
theorem styles_closed (h : b.closed p name = .ok b') :
    b'.styles = StyleStack.pop^[b.frame.pops] b.styles := by
  generalize hframe : b.frame = f
  cases closes hframe h with
  | root | head | skipped => exact b.styles_leave
  | title => exact styles_leave _
  | inHead | inTitle | inSkipped | inList | inTable => rfl
  | inline hflush =>
    rw [styles_leave]
    exact congrArg StyleStack.pop (flushes hflush).kept.styles
  | container _ _ _ hflush hsettle =>
    obtain ⟨-, -, hstyles, -⟩ := hsettle.kept
    rw [hstyles]
    exact (styles_leave _).trans
      (congrArg (fun s => s.pop.pop) (flushes hflush).kept.styles)
  | orderedList _ hadd => exact (kept_add hadd).styles.trans (styles_leave _)
  | table _ hadd => exact (kept_add hadd).styles.trans (styles_leave _)

/-- Every node that an end closes has another one below. -/
theorem Stacked.below_ne_nil (h : b.Stacked) {k : Nat} (hk : k < b.frame.pops) :
    (StyleStack.pop^[k] b.styles).below ≠ [] := by
  have hlength := b.styles.length_below_pop_iterate k
  have hnodes := b.frame.pops_le_nodes
  unfold Stacked at h
  intro hnil
  rw [hnil, List.length_nil] at hlength
  omega

end Builder

end RichText
