/-
# What one event does

A builder does one thing at a start tag, depending on the frame it is in and on
the name, one at an end, and one where it meets a text. Here every way is written
down once, with all that comes of it: `Begins` for start tags, `Closes` for ends and
`Gathers` for texts, by the frame. Flushing the text, registering an element and adding it to
the container change texts and elements and nothing else (`Kept`).

Key definitions: `Builder.Kept`, `Builder.Flushes`, `Builder.OpensContent`,
`Builder.OpensRoot`, `Builder.OpensList`, `Builder.OpensTable`, `Builder.Begins`,
`Builder.Settles`, `Builder.Closes`, `Builder.Gathers`.
Key theorems: `Builder.flushes`, `Builder.begins`, `Builder.closes`,
`Builder.gathers`.
-/
import RichText.Document.Builder

namespace RichText

open Markup Text

theorem map_eq_ok {ε α β : Type} {f : α → β} {r : Except ε α} {y : β} :
    r.map f = .ok y ↔ ∃ x, r = .ok x ∧ f x = y := by
  cases r <;> simp [Except.map]

theorem map_eq_error {ε α β : Type} {f : α → β} {r : Except ε α} {e : ε} :
    r.map f = .error e ↔ r = .error e := by
  cases r <;> simp [Except.map]

/-- Registering an element changes only where ids lead to. -/
theorem Document.register_eq {d d' : Document} {i : Nat} (h : d.register i = .ok d') :
    ∃ ids, d' = { d with ids } := by
  unfold register at h
  split at h
  · obtain rfl : d = d' := by simpa using h
    exact ⟨d.ids, rfl⟩
  · split at h
    · nomatch h
    · exact ⟨_, (Except.ok.inj h).symm⟩

namespace Builder

/-- All but texts and elements stays as it was. -/
structure Kept (b b' : Builder) : Prop where
  frame : b'.frame = b.frame
  outer : b'.outer = b.outer
  styles : b'.styles = b.styles
  container : b'.container = b.container
  tree : b'.document.styles = b.document.styles
  roots : b'.document.roots = b.document.roots

theorem Kept.refl (b : Builder) : Kept b b := ⟨rfl, rfl, rfl, rfl, rfl, rfl⟩

theorem Kept.trans {b b₁ b₂ : Builder} (h : Kept b b₁) (h' : Kept b₁ b₂) : Kept b b₂ :=
  ⟨h'.frame.trans h.frame, h'.outer.trans h.outer, h'.styles.trans h.styles,
    h'.container.trans h.container, h'.tree.trans h.tree, h'.roots.trans h.roots⟩

variable {b b' : Builder}

@[simp]
theorem last_make (b : Builder) (style : Nat) (kind : ElementKind) :
    (b.make style kind).last = b.document.size := by
  simp [last, make, Document.push, Document.size]

theorem kept_make (b : Builder) (style : Nat) (kind : ElementKind) : Kept b (b.make style kind) :=
  ⟨rfl, rfl, rfl, rfl, rfl, rfl⟩

theorem register_eq {i : Nat} (h : b.register i = .ok b') :
    ∃ ids, b' = { b with document := { b.document with ids } } := by
  obtain ⟨d, hd, rfl⟩ := map_eq_ok.1 h
  obtain ⟨ids, rfl⟩ := Document.register_eq hd
  exact ⟨ids, rfl⟩

theorem kept_register {i : Nat} (h : b.register i = .ok b') : Kept b b' := by
  obtain ⟨ids, rfl⟩ := register_eq h
  exact ⟨rfl, rfl, rfl, rfl, rfl, rfl⟩

theorem kept_append (b : Builder) (parent : Option Nat) (i : Nat) : Kept b (b.append parent i) := by
  cases parent <;> exact ⟨rfl, rfl, rfl, rfl, rfl, rfl⟩

theorem add_eq {i : Nat} (h : b.add i = .ok b') :
    ∃ ids, b' = { b with document := { (b.append b.container i).document with ids } } := by
  have happend : b.append b.container i =
      { b with document := (b.append b.container i).document } := by
    unfold append
    split <;> rfl
  obtain ⟨ids, rfl⟩ := register_eq h
  exact ⟨ids, by rw [happend]⟩

theorem kept_add {i : Nat} (h : b.add i = .ok b') : Kept b b' :=
  (b.kept_append b.container i).trans (kept_register h)

theorem text_register {i : Nat} (h : b.register i = .ok b') : b'.text = b.text := by
  obtain ⟨ids, rfl⟩ := register_eq h
  rfl

theorem text_append (b : Builder) (parent : Option Nat) (i : Nat) :
    (b.append parent i).text = b.text := by
  cases parent <;> rfl

theorem text_add {i : Nat} (h : b.add i = .ok b') : b'.text = b.text :=
  (text_register h).trans (b.text_append _ _)

theorem document_leave (b : Builder) : b.leave.document = b.document := by
  unfold leave
  split <;> rfl

/-- What becomes of the text gathered. -/
inductive Flushes (b : Builder) : Builder → Prop
  | dropped (h : b.container = none ∨ allBlank b.text.toList = true) : Flushes b { b with text := "" }
  | element {c : Nat} (hc : b.container = some c) (hb : allBlank b.text.toList = false)
    (ids : List (String × Nat)) :
    Flushes b
      { b with
        text := ""
        document :=
          { (b.document.push { style := b.styles.top, kind := .text b.text }).append c
              b.document.size with ids } }

theorem flushes (h : b.flush = .ok b') : Flushes b b' := by
  unfold flush at h
  simp only at h
  split at h
  · next hdrop =>
    obtain rfl := Except.ok.inj h
    exact .dropped (by simpa using hdrop)
  · next hkeep =>
    obtain ⟨hsome, hblank⟩ : b.container ≠ none ∧ allBlank b.text.toList = false := by
      simpa using hkeep
    obtain ⟨c, hc⟩ := Option.ne_none_iff_exists'.1 hsome
    rw [last_make] at h
    obtain ⟨registered, hr, rfl⟩ := map_eq_ok.1 h
    obtain ⟨ids, hids⟩ := register_eq hr
    have hcontainer : registered.container = some c := by rw [hids]; exact hc
    rw [hcontainer, hids]
    exact .element hc hblank ids

theorem Flushes.kept (h : Flushes b b') : Kept b b' := by
  cases h <;> exact ⟨rfl, rfl, rfl, rfl, rfl, rfl⟩

theorem Flushes.text (h : Flushes b b') : b'.text = "" := by
  cases h <;> rfl

/-! ### Start tags -/

variable {name : String} {attributes : Attributes}

/-- A tag that makes a container opens what is in it. -/
theorem containerKind?_eq_some {kind : ElementKind} (h : containerKind? name attributes = some kind) :
    (name ≠ "ol" ∧ name ≠ "table") ∧ kind.hasChildren = true := by
  unfold containerKind? at h
  split at h
  · exact ⟨by decide, by simp [← Option.some.inj h, ElementKind.hasChildren]⟩
  · exact ⟨by decide, by simp [← Option.some.inj h, ElementKind.hasChildren]⟩
  · exact ⟨by decide, by simp [← Option.some.inj h, ElementKind.hasChildren]⟩
  · exact ⟨by decide, by simp [← Option.some.inj h, ElementKind.hasChildren]⟩
  · obtain ⟨target, -, rfl⟩ := Option.map_eq_some_iff.1 h
    exact ⟨by decide, rfl⟩
  · split at h
    · next hheading =>
      refine ⟨⟨?_, ?_⟩, by simp [← Option.some.inj h, ElementKind.hasChildren]⟩ <;> rintro rfl
      · exact absurd hheading (by decide)
      · exact absurd hheading (by decide)
    · nomatch h

theorem leafKind?_eq_some {kind : ElementKind} (h : leafKind? name attributes = some kind) :
    (name ≠ "ol" ∧ name ≠ "table" ∧ containerKind? name attributes = none) ∧
      ∀ s, kind ≠ .text s := by
  unfold leafKind? at h
  split at h
  · exact ⟨⟨by decide, by decide, rfl⟩, by simp [← Option.some.inj h]⟩
  · exact ⟨⟨by decide, by decide, rfl⟩, by simp [← Option.some.inj h]⟩
  · exact ⟨⟨by decide, by decide, rfl⟩, by simp [← Option.some.inj h]⟩
  · nomatch h

/-- A start tag in the content of a container. -/
inductive OpensContent (b : Builder) (name : String) (attributes : Attributes) : Builder → Prop
  | head (hn : name = "head") : OpensContent b name attributes (b.enter (.head 0))
  | container (hn : name ≠ "head") {flushed : Builder} (hf : b.flush = .ok flushed)
    {kind : ElementKind} (hk : containerKind? name attributes = some kind) :
    OpensContent b name attributes
      (((flushed.pushTag name attributes).make flushed.document.styles.size kind).enterContainer
        flushed.document.size .child)
  | orderedList (hn : name = "ol") {flushed : Builder} (hf : b.flush = .ok flushed) (start : Int) :
    OpensContent b name attributes
      (((flushed.pushTag name attributes).make flushed.document.styles.size
        (.orderedList start)).enter (.orderedList flushed.document.size 0))
  | table (hn : name = "table") {flushed : Builder} (hf : b.flush = .ok flushed)
    (spacing padding : Int) :
    OpensContent b name attributes
      ((flushed.pushTag name attributes).enter
        (.table { style := flushed.document.styles.size, spacing, padding } 0))
  | leaf {flushed added : Builder} (hf : b.flush = .ok flushed) {kind : ElementKind}
    (hk : leafKind? name attributes = some kind)
    (ha : ((flushed.pushTag name attributes).make flushed.document.styles.size kind).add
      flushed.document.size = .ok added) :
    OpensContent b name attributes (added.enter .inline)
  | inline (hn : name ≠ "head" ∧ name ≠ "ol" ∧ name ≠ "table") {flushed : Builder}
    (hf : b.flush = .ok flushed) (hk : containerKind? name attributes = none)
    (hl : leafKind? name attributes = none) :
    OpensContent b name attributes ((flushed.pushTag name attributes).enter .inline)

theorem opensContent {p : Position} {name : String} {attributes : Attributes}
    (h : b.openContent p name attributes = .ok b') : OpensContent b name attributes b' := by
  unfold openContent at h
  split at h
  · next hn =>
    obtain rfl := Except.ok.inj h
    exact .head hn
  · next hn =>
    cases hf : b.flush with
    | error e => simp [hf, bind, Except.bind] at h
    | ok flushed =>
      simp only [hf, bind, Except.bind] at h
      split at h
      · next kind hk =>
        obtain rfl := Except.ok.inj h
        rw [last_make]
        exact .container hn hf hk
      · next hk =>
        split at h
        · split at h
          · nomatch h
          · next start _ =>
            obtain rfl := Except.ok.inj h
            rw [last_make]
            exact .orderedList rfl hf start
        · split at h
          · nomatch h
          · split at h
            · nomatch h
            · next spacing _ _ padding _ =>
              obtain rfl := Except.ok.inj h
              exact .table rfl hf spacing padding
        · next hol htable =>
          split at h
          · next kind hl =>
            split at h
            · nomatch h
            · next added ha =>
              obtain rfl := Except.ok.inj h
              rw [last_make] at ha
              exact .leaf hf hl ha
          · next hl =>
            obtain rfl := Except.ok.inj h
            exact .inline ⟨hn, hol, htable⟩ hf hk hl

/-- A start tag in the root. -/
inductive OpensRoot (b : Builder) (name : String) (attributes : Attributes) : Builder → Prop
  | head (hn : name = "head") : OpensRoot b name attributes (b.enter (.head 0))
  | body (hn : name = "body") {made registered : Builder}
    (hm : made = (b.pushTag name attributes).make b.document.styles.size .block)
    (hr : register { made with document := made.document.addRoot b.document.size }
      b.document.size = .ok registered) :
    OpensRoot b name attributes (registered.enterContainer b.document.size .body)
  | skipped (hn : name ≠ "head" ∧ name ≠ "body") : OpensRoot b name attributes (b.enter (.skipped 0))

theorem opensRoot {name : String} {attributes : Attributes}
    (h : b.openInRoot name attributes = .ok b') : OpensRoot b name attributes b' := by
  unfold openInRoot at h
  split at h
  · obtain rfl := Except.ok.inj h
    exact .head rfl
  · simp only [last_make, bind, Except.bind] at h
    split at h
    · nomatch h
    · next registered hr =>
      obtain rfl := Except.ok.inj h
      have hlast : registered.last = b.document.size := by
        obtain ⟨ids, rfl⟩ := register_eq hr
        exact last_make (b.pushTag "body" attributes) _ _
      rw [hlast]
      exact .body rfl rfl hr
  · next hhead hbody =>
    obtain rfl := Except.ok.inj h
    exact .skipped ⟨hhead, hbody⟩

/-- A start tag in a list with numbers. -/
inductive OpensList (b : Builder) (list depth : Nat) (name : String) (attributes : Attributes) :
    Builder → Prop
  | item (hn : name = "li") :
    OpensList b list depth name attributes
      (((b.pushTag name attributes).make b.document.styles.size .container).enterContainer
        b.document.size (.item list))
  | other (hn : name ≠ "li") :
    OpensList b list depth name attributes
      { b.pushTag name attributes with frame := .orderedList list (depth + 1) }

theorem opensList (b : Builder) (list depth : Nat) (name : String) (attributes : Attributes) :
    OpensList b list depth name attributes (b.openInList list depth name attributes) := by
  unfold openInList
  simp only [last_make]
  split
  · next hn => exact .item hn
  · next hn => exact .other hn

/-- A start tag in a table. -/
inductive OpensTable (b : Builder) (draft : TableDraft) (depth : Nat) (name : String)
    (attributes : Attributes) : Builder → Prop
  | cell (hn : name = "td" ∨ name = "th") (columns : Nat) :
    OpensTable b draft depth name attributes
      (((b.pushTag name attributes).make b.document.styles.size
        (.tableCell columns)).enterContainer b.document.size (.cell columns))
  | row (hn : name = "tr") :
    OpensTable b draft depth name attributes
      { b.pushTag name attributes with
        frame := .table (draft.addRow b.document.styles.size) (depth + 1) }
  | other (hn : name ≠ "td" ∧ name ≠ "th" ∧ name ≠ "tr") :
    OpensTable b draft depth name attributes
      { b.pushTag name attributes with frame := .table draft (depth + 1) }

theorem span_pos (t : TableDraft) (asked : Int) : 0 < t.span asked := by
  unfold TableDraft.span TableDraft.widest
  split <;> omega

/-- A cell is in a row and covers as many columns as it asks for, within limits. -/
theorem openInTable_span {p : Position} {draft : TableDraft} {depth : Nat} {name : String}
    {attributes : Attributes} (hn : name = "td" ∨ name = "th")
    (h : b.openInTable p draft depth name attributes = .ok b') : draft.rows ≠ [] ∧
      ∃ asked, b' = ((b.pushTag name attributes).make b.document.styles.size
        (.tableCell (draft.span asked))).enterContainer b.document.size
          (.cell (draft.span asked)) := by
  have cell {asked : Except DocumentError Int}
      (h : (asked.bind fun n =>
        if draft.rows = [] then malformed p (.cellOutsideRow name)
        else
          .ok (((b.pushTag name attributes).make (b.pushTag name attributes).styles.top
            (.tableCell (draft.span n))).enterContainer b.document.size (.cell (draft.span n)))) =
          .ok b') : draft.rows ≠ [] ∧
      ∃ asked, b' = ((b.pushTag name attributes).make b.document.styles.size
        (.tableCell (draft.span asked))).enterContainer b.document.size
          (.cell (draft.span asked)) := by
    cases asked with
    | error e => cases h
    | ok n =>
      simp only [Except.bind] at h
      split at h
      · cases h
      · next hrows => exact ⟨hrows, n, (Except.ok.inj h).symm⟩
  unfold openInTable at h
  simp only [last_make] at h
  rcases hn with rfl | rfl
  · exact cell h
  · exact cell h

/-- A cell is in a row and covers at least one column. -/
theorem openInTable_cell {p : Position} {draft : TableDraft} {depth : Nat} {name : String}
    {attributes : Attributes} (hn : name = "td" ∨ name = "th")
    (h : b.openInTable p draft depth name attributes = .ok b') : draft.rows ≠ [] ∧
      ∃ columns, 0 < columns ∧ b' = ((b.pushTag name attributes).make b.document.styles.size
        (.tableCell columns)).enterContainer b.document.size (.cell columns) := by
  obtain ⟨hrows, asked, rfl⟩ := openInTable_span hn h
  exact ⟨hrows, _, span_pos draft asked, rfl⟩

theorem opensTable {p : Position} {draft : TableDraft} {depth : Nat} {name : String}
    {attributes : Attributes} (h : b.openInTable p draft depth name attributes = .ok b') :
    OpensTable b draft depth name attributes b' := by
  by_cases hn : name = "td" ∨ name = "th"
  · obtain ⟨-, columns, -, rfl⟩ := openInTable_cell hn h
    exact .cell hn columns
  · unfold openInTable at h
    split at h
    · exact absurd (.inl rfl) hn
    · exact absurd (.inr rfl) hn
    · obtain rfl := Except.ok.inj h
      exact .row rfl
    · next htd hth htr =>
      obtain rfl := Except.ok.inj h
      exact .other ⟨htd, hth, htr⟩

/-- A start tag in the head. -/
inductive OpensHead (b : Builder) (depth : Nat) : Builder → Prop
  | title : OpensHead b depth (b.enter (.title "" 0))
  | deeper (links : List String) :
    OpensHead b depth
      { b with frame := .head (depth + 1), document := { b.document with links } }

theorem opensHead (b : Builder) (depth : Nat) (name : String) (attributes : Attributes) :
    OpensHead b depth (b.openInHead depth name attributes) := by
  unfold openInHead
  split
  · exact .title
  · simp only
    split
    · exact .deeper _
    · exact .deeper b.document.links

/-- A start tag, by the frame that the builder is in. -/
inductive Begins (b : Builder) (name : String) (attributes : Attributes) :
    Frame → Builder → Prop
  | prolog (hn : name = "html") :
    Begins b name attributes .prolog (enter { b with frame := .epilog } .root)
  | root {b' : Builder} (h : OpensRoot b name attributes b') : Begins b name attributes .root b'
  | head (depth : Nat) {b' : Builder} (h : OpensHead b depth b') :
    Begins b name attributes (.head depth) b'
  | title (s : String) (depth : Nat) :
    Begins b name attributes (.title s depth) { b with frame := .title s (depth + 1) }
  | skipped (depth : Nat) :
    Begins b name attributes (.skipped depth) { b with frame := .skipped (depth + 1) }
  | inline {b' : Builder} (h : OpensContent b name attributes b') :
    Begins b name attributes .inline b'
  | container (element : Nat) (outer : Option Nat) (role : Role) {b' : Builder}
    (h : OpensContent b name attributes b') :
    Begins b name attributes (.container element outer role) b'
  | orderedList (list depth : Nat) {b' : Builder} (h : OpensList b list depth name attributes b') :
    Begins b name attributes (.orderedList list depth) b'
  | table (draft : TableDraft) (depth : Nat) {b' : Builder}
    (h : OpensTable b draft depth name attributes b') :
    Begins b name attributes (.table draft depth) b'

variable {p : Position}

theorem begins {f : Frame} (hframe : b.frame = f) (h : b.opened p name attributes = .ok b') :
    Begins b name attributes f b' := by
  subst hframe
  unfold opened at h
  split at h
  · next hf =>
    split at h
    · next hn => exact hf ▸ Except.ok.inj h ▸ .prolog hn
    · cases h
  · cases h
  · next hf => exact hf ▸ .root (opensRoot h)
  · next hf => exact hf ▸ .head _ (Except.ok.inj h ▸ b.opensHead _ _ _)
  · next hf => exact hf ▸ Except.ok.inj h ▸ .title _ _
  · next hf => exact hf ▸ Except.ok.inj h ▸ .skipped _
  · next hf => exact hf ▸ .inline (opensContent h)
  · next hf => exact hf ▸ .container _ _ _ (opensContent h)
  · next hf => exact hf ▸ .orderedList _ _ (Except.ok.inj h ▸ b.opensList _ _ _ _)
  · next hf => exact hf ▸ .table _ _ (opensTable h)

/-! ### Ends -/

/-- What becomes of a container that has been left. -/
inductive Settles (b : Builder) (element : Nat) : Role → Builder → Prop
  | body : Settles b element .body b
  | child {b' : Builder} (h : b.add element = .ok b') : Settles b element .child b'
  | item (list : Nat) {registered : Builder} (h : b.register element = .ok registered) :
    Settles b element (.item list) (registered.append (some list) element)
  | cell (columns : Nat) {registered : Builder} (h : b.register element = .ok registered)
    {draft : TableDraft} {depth : Nat} (hframe : registered.frame = .table draft depth) :
    Settles b element (.cell columns)
      { registered with frame := .table (draft.addCell element columns) depth }
  | loose (columns : Nat) {registered : Builder} (h : b.register element = .ok registered) :
    Settles b element (.cell columns) registered

theorem settles {element : Nat} {role : Role} (h : b.settle element role = .ok b') :
    Settles b element role b' := by
  cases role with
  | body =>
    obtain rfl := Except.ok.inj h
    exact .body
  | child => exact .child h
  | item list =>
    obtain ⟨registered, hr, rfl⟩ := map_eq_ok.1 h
    exact .item list hr
  | cell columns =>
    obtain ⟨registered, hr, rfl⟩ := map_eq_ok.1 h
    split
    · next hframe => exact .cell columns hr hframe
    · exact .loose columns hr

theorem Settles.text {element : Nat} {role : Role} (h : Settles b element role b') :
    b'.text = b.text := by
  cases h with
  | body => rfl
  | child h => exact text_add h
  | item list h => exact (text_append _ _ _).trans (text_register h)
  | cell columns h hframe =>
    have htext := text_register h
    exact htext
  | loose columns h => exact text_register h

/-- An end, by the frame that the builder is in. -/
inductive Closes (b : Builder) (name : String) : Frame → Builder → Prop
  | root : Closes b name .root b.leave
  | head : Closes b name (.head 0) b.leave
  | inHead (depth : Nat) : Closes b name (.head (depth + 1)) { b with frame := .head depth }
  | title (s : String) :
    Closes b name (.title s 0)
      (leave { b with document := b.document.setTitle (String.ofList (trim s.toList)) })
  | inTitle (s : String) (depth : Nat) :
    Closes b name (.title s (depth + 1)) { b with frame := .title s depth }
  | skipped : Closes b name (.skipped 0) b.leave
  | inSkipped (depth : Nat) :
    Closes b name (.skipped (depth + 1)) { b with frame := .skipped depth }
  | inline {flushed : Builder} (hf : b.flush = .ok flushed) :
    Closes b name .inline flushed.popNode.leave
  | container (element : Nat) (outer : Option Nat) (role : Role) {flushed b' : Builder}
    (hf : b.flush = .ok flushed)
    (hs : Settles { flushed.popNode.popNode.leave with container := outer } element role b') :
    Closes b name (.container element outer role) b'
  | orderedList (list : Nat) {b' : Builder} (h : b.popNode.leave.add list = .ok b') :
    Closes b name (.orderedList list 0) b'
  | inList (list depth : Nat) :
    Closes b name (.orderedList list (depth + 1))
      { b.popNode with frame := .orderedList list depth }
  | table (draft : TableDraft) {b' : Builder}
    (h : (b.popNode.leave.make draft.style (.table draft.table)).add
      b.popNode.leave.document.size = .ok b') :
    Closes b name (.table draft 0) b'
  | inTable (draft : TableDraft) (depth : Nat) :
    Closes b name (.table draft (depth + 1))
      { b.popNode with frame := .table (if name = "tr" then draft.endRow else draft) depth }

theorem closes {f : Frame} (hframe : b.frame = f) (h : b.closed p name = .ok b') :
    Closes b name f b' := by
  subst hframe
  unfold closed at h
  split at h
  · nomatch h
  · nomatch h
  · next hf => exact hf ▸ Except.ok.inj h ▸ .root
  · next hf => exact hf ▸ Except.ok.inj h ▸ .head
  · next hf => exact hf ▸ Except.ok.inj h ▸ .inHead _
  · next hf => exact hf ▸ Except.ok.inj h ▸ .title _
  · next hf => exact hf ▸ Except.ok.inj h ▸ .inTitle _ _
  · next hf => exact hf ▸ Except.ok.inj h ▸ .skipped
  · next hf => exact hf ▸ Except.ok.inj h ▸ .inSkipped _
  · next hframe =>
    rw [hframe]
    obtain ⟨flushed, hf, rfl⟩ := map_eq_ok.1 h
    exact .inline hf
  · next hframe =>
    rw [hframe]
    cases hf : b.flush with
    | error e => simp [hf, bind, Except.bind] at h
    | ok flushed => exact .container _ _ _ hf (settles (by simpa [hf, bind, Except.bind] using h))
  · next hf => exact hf ▸ .orderedList _ h
  · next hf => exact hf ▸ Except.ok.inj h ▸ .inList _ _
  · next hf => exact hf ▸ .table _ (by simpa only [closeTable, last_make] using h)
  · next hf => exact hf ▸ Except.ok.inj h ▸ .inTable _ _

/-! ### Texts -/

/-- A text, by the frame that the builder is in. -/
inductive Gathers (b : Builder) (s : String) : Frame → Builder → Prop
  | prolog (hblank : allBlank s.toList = true) : Gathers b s .prolog b
  | epilog (hblank : allBlank s.toList = true) : Gathers b s .epilog b
  | title (text : String) (depth : Nat) :
    Gathers b s (.title text depth) { b with frame := .title (text ++ s) depth }
  | inline : Gathers b s .inline { b with text := b.text ++ s }
  | container (element : Nat) (outer : Option Nat) (role : Role) :
    Gathers b s (.container element outer role) { b with text := b.text ++ s }
  | root : Gathers b s .root b
  | head (depth : Nat) : Gathers b s (.head depth) b
  | skipped (depth : Nat) : Gathers b s (.skipped depth) b
  | orderedList (list depth : Nat) : Gathers b s (.orderedList list depth) b
  | table (draft : TableDraft) (depth : Nat) : Gathers b s (.table draft depth) b

theorem gathers {f : Frame} {s : String} (hframe : b.frame = f) (h : b.textRead p s = .ok b') :
    Gathers b s f b' := by
  subst hframe
  unfold textRead at h
  split at h
  · next hf =>
    split at h
    · next hblank => exact hf ▸ Except.ok.inj h ▸ .prolog hblank
    · cases h
  · next hf =>
    split at h
    · next hblank => exact hf ▸ Except.ok.inj h ▸ .epilog hblank
    · cases h
  · next hf => exact hf ▸ Except.ok.inj h ▸ .title _ _
  · next hf => exact hf ▸ Except.ok.inj h ▸ .inline
  · next hf => exact hf ▸ Except.ok.inj h ▸ .container _ _ _
  · next hprolog hepilog htitle hinline hcontainer =>
    obtain rfl := Except.ok.inj h
    cases hf : b.frame with
    | root => exact .root
    | head depth => exact .head depth
    | skipped depth => exact .skipped depth
    | orderedList list depth => exact .orderedList list depth
    | table draft depth => exact .table draft depth
    | _ => simp [hf] at hprolog hepilog htitle hinline hcontainer

end Builder

end RichText
