/-
# The numbers of trees

The number of a document's tree of styles tells it from the trees of other documents.
It is passed on and never looked at: a builder with another number does the same in
every step (`Builder.step_numbered`), so documents of one text differ in the numbers of
their trees only (`Document.ofString_number`).

Key definitions: `Document.numbered`, `Builder.numbered`, `Builder.read`.
Key theorems: `Builder.step_numbered`, `Document.ofString_number`.
-/
import RichText.Proofs.Balance

namespace RichText

open Markup Text

namespace Document

/-- The document with another number for its tree of styles. -/
def numbered (number : Nat) (d : Document) : Document :=
  { d with styles := { d.styles with id := number } }

theorem register_numbered (number : Nat) (d : Document) (i : Nat) :
    (d.numbered number).register i = (d.register i).map (numbered number) := by
  have hkey : (d.numbered number).keyOf? i = d.keyOf? i := rfl
  have hfound (id : String) : (d.numbered number).elementById? id = d.elementById? id := rfl
  unfold register
  rw [hkey]
  cases (d.keyOf? i).bind (·.id) with
  | none => rfl
  | some id =>
    simp only [hfound]
    cases d.elementById? id <;> rfl

end Document

namespace Builder

/-- The builder of a document with another number for its tree of styles. -/
def numbered (number : Nat) (b : Builder) : Builder :=
  { b with document := b.document.numbered number }

variable (number : Nat) (b : Builder)

theorem register_numbered (i : Nat) :
    (b.numbered number).register i = (b.register i).map (numbered number) := by
  unfold register
  show ((b.document.numbered number).register i).map _ = _
  rw [Document.register_numbered]
  cases b.document.register i <;> rfl

theorem append_numbered (parent : Option Nat) (i : Nat) :
    (b.numbered number).append parent i = (b.append parent i).numbered number := by
  cases parent <;> rfl

theorem leave_numbered : (b.numbered number).leave = b.leave.numbered number := by
  obtain ⟨document, styles, text, container, frame, outer⟩ := b
  cases outer <;> rfl

theorem add_numbered (i : Nat) :
    (b.numbered number).add i = (b.add i).map (numbered number) := by
  unfold add
  rw [← register_numbered, ← append_numbered]
  rfl

theorem flush_eq : b.flush =
    if b.container.isNone || allBlank b.text.toList then .ok { b with text := "" }
    else
      ((make { b with text := "" } b.styles.top (.text b.text)).register b.document.size).map
        fun flushed => flushed.append flushed.container b.document.size := by
  unfold flush
  simp only [last_make]

theorem flush_numbered : (b.numbered number).flush = b.flush.map (numbered number) := by
  rw [flush_eq, flush_eq]
  show (if b.container.isNone || allBlank b.text.toList then _ else _) = _
  split
  · rfl
  · show (((make { b with text := "" } b.styles.top (.text b.text)).numbered number).register
      b.document.size).map (fun flushed => flushed.append flushed.container b.document.size) = _
    rw [register_numbered]
    cases (make { b with text := "" } b.styles.top (.text b.text)).register b.document.size with
    | error e => rfl
    | ok flushed => exact congrArg Except.ok (append_numbered number flushed _ _)

theorem settle_numbered (i : Nat) (role : Role) :
    (b.numbered number).settle i role = (b.settle i role).map (numbered number) := by
  cases role with
  | body => rfl
  | child => exact add_numbered number b i
  | item list =>
    show ((b.numbered number).register i).map _ = ((b.register i).map _).map _
    rw [register_numbered]
    cases b.register i with
    | error e => rfl
    | ok b' => exact congrArg Except.ok (append_numbered number b' _ _)
  | cell columns =>
    show ((b.numbered number).register i).map _ = ((b.register i).map _).map _
    rw [register_numbered]
    cases b.register i with
    | error e => rfl
    | ok b' =>
      obtain ⟨document, styles, text, container, frame, outer⟩ := b'
      cases frame <;> rfl

theorem openContent_numbered (p : Position) (name : String) (attributes : Attributes) :
    (b.numbered number).openContent p name attributes =
      (b.openContent p name attributes).map (numbered number) := by
  unfold openContent
  rw [flush_numbered]
  split
  · rfl
  · cases b.flush with
    | error e => rfl
    | ok flushed =>
      simp only [Except.map, bind, Except.bind]
      cases containerKind? name attributes with
      | some kind => rfl
      | none =>
        dsimp only
        split
        · cases integer p attributes "start" 1 <;> rfl
        · cases integer p attributes "cellspacing" 0 with
          | error e => rfl
          | ok spacing => cases integer p attributes "cellpadding" 0 <;> rfl
        · cases leafKind? name attributes with
          | none => rfl
          | some kind =>
            let made := (flushed.pushTag name attributes).make flushed.document.styles.size kind
            have hadd := add_numbered number made made.last
            show ((made.numbered number).add made.last).map (·.enter .inline) =
              ((made.add made.last).map (·.enter .inline)).map (numbered number)
            rw [hadd]
            cases made.add made.last <;> rfl

theorem openInRoot_numbered (name : String) (attributes : Attributes) :
    (b.numbered number).openInRoot name attributes =
      (b.openInRoot name attributes).map (numbered number) := by
  unfold openInRoot
  split
  · rfl
  · let made := (b.pushTag "body" attributes).make b.document.styles.size .block
    let root := { made with document := made.document.addRoot made.last }
    have hregister := register_numbered number root made.last
    show ((root.numbered number).register made.last).map (fun b => b.enterContainer b.last .body) =
      ((root.register made.last).map fun b => b.enterContainer b.last .body).map (numbered number)
    rw [hregister]
    cases root.register made.last <;> rfl
  · rfl

theorem openInTable_numbered (p : Position) (draft : TableDraft) (depth : Nat) (name : String)
    (attributes : Attributes) :
    (b.numbered number).openInTable p draft depth name attributes =
      (b.openInTable p draft depth name attributes).map (numbered number) := by
  unfold openInTable
  dsimp only
  split
  case h_1 | h_2 =>
    cases integer p attributes "colspan" 1 with
    | error e => rfl
    | ok asked =>
      simp only [bind, Except.bind]
      split <;> rfl
  · rfl
  · rfl

theorem opened_numbered (p : Position) (name : String) (attributes : Attributes) :
    (b.numbered number).opened p name attributes =
      (b.opened p name attributes).map (numbered number) := by
  have hframe : (b.numbered number).frame = b.frame := rfl
  unfold opened
  rw [hframe]
  cases b.frame with
  | inline | container => exact openContent_numbered number b p name attributes
  | table draft depth => exact openInTable_numbered number b p draft depth name attributes
  | root => exact openInRoot_numbered number b name attributes
  | prolog =>
    dsimp only
    split <;> rfl
  | head depth =>
    dsimp only [openInHead]
    split
    · rfl
    · cases linkTarget? name attributes <;> rfl
  | orderedList list depth =>
    dsimp only [openInList]
    split <;> rfl
  | _ => rfl

theorem closeTable_numbered (draft : TableDraft) :
    (b.numbered number).closeTable draft = (b.closeTable draft).map (numbered number) := by
  have hleave : (b.numbered number).popNode.leave = b.popNode.leave.numbered number :=
    leave_numbered number b.popNode
  unfold closeTable
  simp only [last_make]
  rw [hleave]
  exact add_numbered number (b.popNode.leave.make draft.style (.table draft.table)) _

theorem closed_numbered (p : Position) (name : String) :
    (b.numbered number).closed p name = (b.closed p name).map (numbered number) := by
  have hframe : (b.numbered number).frame = b.frame := rfl
  unfold closed
  rw [hframe]
  cases b.frame with
  | prolog | epilog => rfl
  | root => exact congrArg Except.ok (leave_numbered number b)
  | head depth | skipped depth =>
    cases depth with
    | zero => exact congrArg Except.ok (leave_numbered number b)
    | succ depth => rfl
  | title text depth =>
    cases depth with
    | zero =>
      exact congrArg Except.ok (leave_numbered number
        { b with document := b.document.setTitle _, frame := .title text 0 })
    | succ depth => rfl
  | inline =>
    dsimp only
    rw [flush_numbered]
    cases b.flush with
    | error e => rfl
    | ok flushed => exact congrArg Except.ok (leave_numbered number flushed.popNode)
  | container element outer role =>
    dsimp only
    rw [flush_numbered]
    cases b.flush with
    | error e => rfl
    | ok flushed =>
      show settle { (flushed.popNode.popNode.numbered number).leave with container := outer }
        element role = _
      rw [leave_numbered]
      exact settle_numbered number { flushed.popNode.popNode.leave with container := outer }
        element role
  | orderedList list depth =>
    cases depth with
    | zero =>
      show (b.popNode.numbered number).leave.add list = _
      rw [leave_numbered]
      exact add_numbered number b.popNode.leave list
    | succ depth => rfl
  | table draft depth =>
    cases depth with
    | zero => exact closeTable_numbered number b draft
    | succ depth => rfl

theorem textRead_numbered (p : Position) (s : String) :
    (b.numbered number).textRead p s = (b.textRead p s).map (numbered number) := by
  have hframe : (b.numbered number).frame = b.frame := rfl
  unfold textRead
  rw [hframe]
  cases b.frame with
  | prolog | epilog =>
    dsimp only
    split <;> rfl
  | _ => rfl

theorem step_numbered (event : Position × Event) :
    (b.numbered number).step event = (b.step event).map (numbered number) := by
  obtain ⟨p, event⟩ := event
  cases event with
  | opened name attributes => exact opened_numbered number b p name attributes
  | closed name => exact closed_numbered number b p name
  | text s => exact textRead_numbered number b p s

theorem run_numbered : ∀ (events : List (Position × Event)) (b : Builder),
    (b.numbered number).run events = (b.run events).map (numbered number)
  | [], _ => rfl
  | event :: events, b => by
    unfold run
    rw [List.foldlM_cons, List.foldlM_cons, step_numbered]
    cases b.step event with
    | error e => rfl
    | ok b₁ => exact run_numbered events b₁

/-- The document that a builder makes of the rest of the events. -/
def read (b : Builder) (events : EventStream) : Except DocumentError Document := do
  let b ← b.run events.items
  match events.failure with
  | some e => .error e
  | none => b.finish

theorem read_numbered (events : EventStream) :
    (b.numbered number).read events = (b.read events).map (Document.numbered number) := by
  unfold read
  rw [run_numbered]
  cases b.run events.items with
  | error e => rfl
  | ok b₁ =>
    show (match events.failure with
      | some e => Except.error e
      | none => (b₁.numbered number).finish) = Except.map _ (match events.failure with
      | some e => Except.error e
      | none => b₁.finish)
    cases events.failure with
    | some e => rfl
    | none =>
      have hframe : (b₁.numbered number).frame = b₁.frame := rfl
      dsimp only
      unfold finish
      rw [hframe]
      cases b₁.frame <;> rfl

end Builder

namespace Document

/-- The number of its tree is all that a document has of a number. -/
theorem ofString_number (number number' : Nat) (registry : Registry) (s : String) :
    ofString number' registry s = (ofString number registry s).map (numbered number') :=
  Builder.read_numbered number' (Builder.start number registry) (.ofString s)

end Document

end RichText
