/-
# Elements that are refused

A builder fails for an id only where it registers an element: where the text gathered
becomes one, where a leaf or a body has been made, and at the ends of containers, lists
and tables (`Builder.Refuses`). A run that fails has read the events before the one
that is refused (`Builder.run_error`).

Key definitions: `Builder.Refuses`.
Key theorems: `Builder.refuses`, `Builder.run_error`.
-/
import RichText.Proofs.Regions

namespace RichText

open Markup Text

namespace Builder

variable {b b' : Builder} {p : Position} {name x : String} {attributes : Attributes}

/-! ### Events that fail -/

theorem register_error {i : Nat} (h : b.register i = .error (.duplicateId x)) :
    b.document.register i = .error (.duplicateId x) :=
  map_eq_error.1 h

theorem flush_error (h : b.flush = .error (.duplicateId x)) : allBlank b.text.toList = false ∧
    (make { b with text := "" } b.styles.top (.text b.text)).register b.document.size =
      .error (.duplicateId x) := by
  unfold flush at h
  simp only at h
  split at h
  · cases h
  · next hkeep =>
    rw [last_make] at h
    have hblank : allBlank b.text.toList = false := by
      rw [Bool.eq_false_iff]
      exact fun hblank => hkeep (by simp [hblank])
    exact ⟨hblank, map_eq_error.1 h⟩

theorem settle_error {i : Nat} {role : Role} (h : b.settle i role = .error (.duplicateId x)) :
    role ≠ .body ∧ ∃ parent, (b.append parent i).register i = .error (.duplicateId x) := by
  cases role with
  | body => cases h
  | child => exact ⟨by decide, b.container, h⟩
  | item list => exact ⟨by simp, none, map_eq_error.1 h⟩
  | cell columns => exact ⟨by simp, none, map_eq_error.1 h⟩

theorem integer_error {n : String} {default : Int}
    (h : integer p attributes n default = .error (.duplicateId x)) : False := by
  unfold integer at h
  split at h
  · cases h
  · split at h
    · cases h
    · cases h

/-- The ways in which an event fails because an element is refused. -/
inductive Refuses (b : Builder) (x : String) : Event → Prop
  | text {event : Event} (hregion : b.frame.region? = some .content)
    (hf : b.flush = .error (.duplicateId x)) : Refuses b x event
  | leaf {name : String} {attributes : Attributes} {flushed : Builder}
    (hf : b.flush = .ok flushed) (kind : ElementKind)
    (ha : ((flushed.pushTag name attributes).make flushed.document.styles.size kind).add
      flushed.document.size = .error (.duplicateId x)) : Refuses b x (.opened name attributes)
  | body {attributes : Attributes} {made : Builder}
    (hm : made = (b.pushTag "body" attributes).make b.document.styles.size .block)
    (hr : register { made with document := made.document.addRoot b.document.size }
      b.document.size = .error (.duplicateId x)) : Refuses b x (.opened "body" attributes)
  | container {name : String} {element : Nat} {outer : Option Nat} {role : Role}
    (hframe : b.frame = .container element outer role) {flushed : Builder}
    (hf : b.flush = .ok flushed)
    (hs : settle { flushed.popNode.popNode.leave with container := outer } element role =
      .error (.duplicateId x)) : Refuses b x (.closed name)
  | orderedList {name : String} {list : Nat} (hframe : b.frame = .orderedList list 0)
    (ha : b.popNode.leave.add list = .error (.duplicateId x)) : Refuses b x (.closed name)
  | table {name : String} {draft : TableDraft} (hframe : b.frame = .table draft 0)
    (ha : (b.popNode.leave.make draft.style (.table draft.table)).add
      b.popNode.leave.document.size = .error (.duplicateId x)) : Refuses b x (.closed name)

theorem refuses_openContent (hregion : b.frame.region? = some .content)
    (h : b.openContent p name attributes = .error (.duplicateId x)) :
    Refuses b x (.opened name attributes) := by
  unfold openContent at h
  split at h
  · cases h
  · cases hf : b.flush with
    | error e =>
      simp only [hf, bind, Except.bind, Except.error.injEq] at h
      exact .text hregion (h ▸ hf)
    | ok flushed =>
      simp only [hf, bind, Except.bind] at h
      split at h
      · cases h
      · split at h
        · split at h
          · next hi => exact (integer_error (Except.error.inj h ▸ hi)).elim
          · cases h
        · split at h
          · next hi => exact (integer_error (Except.error.inj h ▸ hi)).elim
          · split at h
            · next hi => exact (integer_error (Except.error.inj h ▸ hi)).elim
            · cases h
        · split at h
          · next kind _ =>
            split at h
            · next ha =>
              rw [last_make] at ha
              exact .leaf hf kind (Except.error.inj h ▸ ha)
            · cases h
          · cases h

/-- In a table nothing is registered before it ends. -/
theorem openInTable_error {draft : TableDraft} {depth : Nat}
    (h : b.openInTable p draft depth name attributes = .error (.duplicateId x)) : False := by
  unfold openInTable at h
  simp only [bind, Except.bind] at h
  split at h
  · split at h
    · next hi => exact integer_error (Except.error.inj h ▸ hi)
    · split at h <;> cases h
  · split at h
    · next hi => exact integer_error (Except.error.inj h ▸ hi)
    · split at h <;> cases h
  · cases h
  · cases h

theorem refuses_opened (h : b.opened p name attributes = .error (.duplicateId x)) :
    Refuses b x (.opened name attributes) := by
  cases hframe : b.frame with
  | inline | container _ _ _ =>
    exact refuses_openContent (by rw [hframe]; rfl) (by simpa only [opened, hframe] using h)
  | table draft depth => exact (openInTable_error (by simpa only [opened, hframe] using h)).elim
  | root =>
    simp only [opened, hframe, openInRoot] at h
    split at h
    · cases h
    · simp only [last_make, bind, Except.bind] at h
      split at h
      · next hr => exact .body rfl (Except.error.inj h ▸ hr)
      · cases h
    · cases h
  | prolog =>
    simp only [opened, hframe] at h
    split at h <;> cases h
  | _ => simp [opened, hframe, malformed] at h

theorem refuses_closed (h : b.closed p name = .error (.duplicateId x)) :
    Refuses b x (.closed name) := by
  cases hframe : b.frame with
  | inline =>
    simp only [closed, hframe] at h
    exact .text (by rw [hframe]; rfl) (map_eq_error.1 h)
  | container element outer role =>
    simp only [closed, hframe, bind, Except.bind] at h
    cases hf : b.flush with
    | error e => exact .text (by rw [hframe]; rfl) (by simpa [hf] using h)
    | ok flushed => exact .container hframe hf (by simpa [hf] using h)
  | orderedList list depth =>
    cases depth with
    | zero => exact .orderedList hframe (by simpa [closed, hframe] using h)
    | succ depth => simp [closed, hframe] at h
  | table draft depth =>
    cases depth with
    | zero => exact .table hframe (by simpa only [closed, hframe, closeTable, last_make] using h)
    | succ depth => simp [closed, hframe] at h
  | head depth | skipped depth | title _ depth => cases depth <;> simp [closed, hframe] at h
  | prolog | epilog | root => simp [closed, hframe, malformed] at h

/-- No element is made where a text is read. -/
theorem textRead_error {s : String} (h : b.textRead p s = .error (.duplicateId x)) : False := by
  cases hframe : b.frame with
  | prolog | epilog =>
    simp only [textRead, hframe, malformed] at h
    split at h <;> cases h
  | _ => simp [textRead, hframe] at h

theorem refuses {event : Position × Event} (h : b.step event = .error (.duplicateId x)) :
    Refuses b x event.2 := by
  obtain ⟨p, event⟩ := event
  cases event with
  | opened name attributes => exact refuses_opened h
  | closed name => exact refuses_closed h
  | text s => exact (textRead_error h).elim

/-! ### Runs that fail -/

theorem run_error {e : DocumentError} : ∀ {events : List (Position × Event)} {b : Builder},
    b.run events = .error e → ∃ front event rest b₁, events = front ++ event :: rest ∧
      b.run front = .ok b₁ ∧ b₁.step event = .error e
  | [], _, h => by cases h
  | event :: events, b, h => by
    unfold run at h
    rw [List.foldlM_cons] at h
    cases hstep : b.step event with
    | error e' =>
      simp only [hstep, bind, Except.bind, Except.error.injEq] at h
      exact ⟨[], event, events, b, rfl, rfl, h ▸ hstep⟩
    | ok b₁ =>
      simp only [hstep, bind, Except.bind] at h
      obtain ⟨front, event', rest, b₂, rfl, hfront, herror⟩ := run_error h
      exact ⟨event :: front, event', rest, b₂, rfl, run_cons_ok.2 ⟨b₁, hstep, hfront⟩, herror⟩

end Builder

end RichText
