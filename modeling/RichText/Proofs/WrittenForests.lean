/-
# Forests that are written

A forest is written tag by tag, and its text is read back to its own tokens: names are
plain, and no text stands behind another, so none of them grows (`Forest.Writable.tokenize`).
Its tokens have its events (`Forest.ofTokens_items`, by induction on the forest), so a
document is made of its text if a builder takes its events (`Document.ofString_of_run`).

Key definitions: `Forest.items`, `Forest.tokens`, `Forest.Writable`.
Key theorems: `Forest.ofTokens_items`, `Forest.Writable.tokenize`, `Document.ofString_of_run`.
-/
import RichText.Proofs.Balance
import RichText.Proofs.Rendering
import RichText.Proofs.TokenForms

namespace RichText

open Markup Text

namespace Forest

/-- The tokens of a forest, with the places of its events. -/
def items : Forest → List (Position × Token)
  | nil => []
  | text p s rest => (p, .text s) :: rest.items
  | element p name attributes inside q rest =>
    (p, .startTag name attributes false) :: (inside.items ++ (q, .endTag name) :: rest.items)

def tokens (f : Forest) : List Token := f.items.map (·.2)

theorem tokens_element (p q : Position) (name : String) (attributes : Attributes)
    (inside rest : Forest) : (element p name attributes inside q rest).tokens =
      .startTag name attributes false :: (inside.tokens ++ .endTag name :: rest.tokens) := by
  simp [tokens, items]

/-- The text of a forest. -/
def written (f : Forest) : List Char := f.tokens.flatMap Token.written

theorem written_nil : nil.written = [] := rfl

theorem written_text (p : Position) (s : String) (rest : Forest) :
    (text p s rest).written = Markup.escape false s ++ rest.written := rfl

theorem written_element (p q : Position) (name : String) (attributes : Attributes)
    (inside rest : Forest) : (element p name attributes inside q rest).written =
      '<' :: (name.toList ++ (attributes.flatMap writtenAttribute ++ '>' :: (inside.written ++
        '<' :: '/' :: (name.toList ++ '>' :: rest.written)))) := by
  simp [written, tokens_element, Token.written, tagEnd]

/-- The tokens of a forest have its events, whichever elements are open. -/
theorem ofTokens_items (failure : Option ParseError) (more : List (Position × Token)) :
    ∀ (f : Forest) (around : List String), EventStream.ofTokens failure around (f.items ++ more) =
      ⟨f.events ++ (EventStream.ofTokens failure around more).items,
        (EventStream.ofTokens failure around more).failure⟩
  | nil, _ => rfl
  | text p s rest, around => by
    rw [items, List.cons_append, EventStream.ofTokens, rest.ofTokens_items failure more]
    rfl
  | element p name attributes inside q rest, around => by
    rw [items, List.cons_append, List.append_assoc, List.cons_append, EventStream.ofTokens,
      if_neg Bool.false_ne_true, inside.ofTokens_items failure, EventStream.ofTokens, if_pos rfl,
      rest.ofTokens_items failure more]
    simp [EventStream.cons, events]

/-! ### Reading back -/

def BeginsWithText : Forest → Prop
  | text .. => True
  | _ => False

/-- A forest that is read back as it is written. -/
def Writable : Forest → Prop
  | nil => True
  | text _ s rest => s ≠ "" ∧ ¬rest.BeginsWithText ∧ rest.Writable
  | element _ name attributes inside _ rest =>
    (Token.startTag name attributes false).Writable ∧ inside.Writable ∧ rest.Writable

theorem Writable.tokens : ∀ {f : Forest}, f.Writable → ∀ t ∈ f.tokens, t.Writable
  | nil, _, _, ht => absurd ht List.not_mem_nil
  | text .., ⟨hs, _, hrest⟩, _, ht => by
    rcases List.mem_cons.1 ht with rfl | ht
    · exact hs
    · exact hrest.tokens _ ht
  | element .., ⟨htag, hinside, hrest⟩, t, ht => by
    rw [tokens_element, List.mem_cons, List.mem_append, List.mem_cons] at ht
    rcases ht with rfl | ht | rfl | ht
    · exact htag
    · exact hinside.tokens t ht
    · exact htag.1
    · exact hrest.tokens t ht

/-- No text of a forest that can be written stands behind another. -/
theorem Writable.isChain : ∀ {f : Forest}, f.Writable →
    f.tokens.IsChain fun a b => ¬(a.isText = true ∧ b.isText = true)
  | nil, _ => List.isChain_nil
  | text _ _ rest, ⟨_, hbegin, hrest⟩ => by
    refine List.isChain_cons.2 ⟨fun t ht => ?_, hrest.isChain⟩
    cases rest with
    | nil => exact absurd ht nofun
    | text => exact absurd trivial hbegin
    | element =>
      obtain rfl := Option.some.inj ht
      exact fun h => absurd h.2 nofun
  | element .., ⟨_, hinside, hrest⟩ => by
    have htag {t : Token} (ht : t.isText = false) (t' : Token) :
        ¬(t.isText = true ∧ t'.isText = true) := fun h => by simp [ht] at h
    rw [tokens_element]
    refine List.isChain_cons.2 ⟨fun t _ => htag rfl t, List.isChain_append.2 ⟨hinside.isChain,
      List.isChain_cons.2 ⟨fun t _ => htag rfl t, hrest.isChain⟩, fun _ _ t ht h => ?_⟩⟩
    obtain rfl := Option.some.inj ht
    exact htag rfl _ h.symm

theorem Writable.tokenize {f : Forest} (h : f.Writable) :
    tokenize (String.ofList f.written) = .ok f.tokens := by
  obtain ⟨hfailure, hitems⟩ := Tokenizer.stream_written f.tokens .start .start h.tokens h.isChain
  rw [Markup.tokenize, Tokenizer.ofString, String.toList_ofList, Forest.written]
  simp only [hfailure, hitems]

end Forest

/-! ### Documents -/

theorem unplaced_eq_ok {α : Type} {r : Except DocumentError α} {a : α} :
    unplaced r = .ok a ↔ r = .ok a := by
  cases r <;> simp [unplaced, Except.mapError]

/-- A text with the tokens of a forest is a document, if a builder takes the events of
the forest to the end. -/
theorem Document.ofString_of_run {number : Nat} {registry : Registry} {s : String} {f : Forest}
    {b : Builder} (hs : tokenize s = .ok f.tokens)
    (hrun : (Builder.start number registry).run f.events = .ok b) (hframe : b.frame = .epilog) :
    ofString number registry s = .ok b.document := by
  have hread : (Builder.start number registry).read (.ofTokens none [] f.items) = .ok b.document := by
    have hevents := f.ofTokens_items none [] []
    rw [List.append_nil] at hevents
    rw [hevents, Builder.read]
    simp only [EventStream.ofTokens, EventStream.endingOf, List.append_nil, hrun]
    simp [bind, Except.bind, Builder.finish, hframe]
  have hsame := unplaced_ofString hs number registry
  rw [Forest.tokens, ← Builder.outcome_eq, hread] at hsame
  exact unplaced_eq_ok.1 hsame

end RichText
