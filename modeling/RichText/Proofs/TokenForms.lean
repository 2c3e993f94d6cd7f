/-
# What does not matter in markup

A document depends neither on the comments of its source, nor on how its texts are
split, nor on which of its elements close themselves: two sources that have one form
make the same document, or are refused for the same reason (`same_of_form`).

What a builder makes of tokens, but for the places of its errors, does not depend on
where the tokens stand (`Builder.outcome_eq`). So tokens can be replaced by others, and
the steps that lead to the form of tokens replace them by ones that are `Alike`: no
builder makes anything else of them, whichever elements are open.

Key definitions: `Token.form`, `Builder.outcome`, `Alike`.
Key theorems: `Builder.outcome_eq`, `alike_form`, `Document.same_of_form`.
-/
import RichText.Proofs.TreeNumbers

namespace RichText

open Markup Text

/-! ### The form of tokens -/

namespace Markup.Token

def isComment : Token → Bool
  | comment _ => true
  | _ => false

/-- Tokens without comments. -/
def dropComments (tokens : List Token) : List Token := tokens.filter fun t => !t.isComment

/-- A token in front of others. A text joins the one that follows. -/
def joined : Token → List Token → List Token
  | text s, text s' :: tokens => text (s ++ s') :: tokens
  | t, tokens => t :: tokens

/-- Tokens in which no text follows another. -/
def joinTexts (tokens : List Token) : List Token := tokens.foldr joined []

/-- Tokens without texts that are empty. -/
def dropEmpty (tokens : List Token) : List Token := tokens.filter (· ≠ text "")

/-- A tag that closes itself as two tags. -/
def parted : Token → List Token
  | startTag name attributes true => [startTag name attributes false, endTag name]
  | t => [t]

/-- What is left of tokens when comments, the splitting of texts and empty texts do not
count and no tag closes itself. -/
def form (tokens : List Token) : List Token :=
  (dropEmpty (joinTexts (dropComments tokens))).flatMap parted

end Markup.Token

/-! ### Errors and their places -/

namespace DocumentError

/-- The error without its place. -/
def unplaced : DocumentError → DocumentError
  | malformed _ fault => malformed .start fault
  | e => e

end DocumentError

/-- A result, of an error all but its place. -/
def unplaced {α : Type} (r : Except DocumentError α) : Except DocumentError α :=
  r.mapError DocumentError.unplaced

theorem unplaced_bind {α β : Type} (r : Except DocumentError α) (f : α → Except DocumentError β) :
    unplaced (r >>= f) = unplaced r >>= fun a => unplaced (f a) := by
  cases r <;> rfl

namespace Builder

variable {b : Builder}

theorem integer_place (p q : Position) (attributes : Attributes) (name : String) (default : Int) :
    unplaced (integer p attributes name default) = unplaced (integer q attributes name default) := by
  unfold integer
  split
  · rfl
  · split <;> rfl

/-- What follows an attribute that has to be an integer. -/
theorem integer_bind_place {α : Type} {p q : Position} {attributes : Attributes} {name : String}
    {default : Int} {f g : Int → Except DocumentError α}
    (h : ∀ n, unplaced (f n) = unplaced (g n)) :
    unplaced (integer p attributes name default >>= f) =
      unplaced (integer q attributes name default >>= g) := by
  rw [unplaced_bind, unplaced_bind, integer_place p q]
  exact congrArg _ (funext h)

theorem openContent_place (b : Builder) (p q : Position) (name : String) (attributes : Attributes) :
    unplaced (b.openContent p name attributes) = unplaced (b.openContent q name attributes) := by
  unfold openContent
  split
  · rfl
  · rw [unplaced_bind, unplaced_bind]
    refine congrArg _ (funext fun flushed => ?_)
    dsimp only
    split
    · rfl
    · split
      · exact integer_bind_place fun _ => rfl
      · exact integer_bind_place fun _ => integer_bind_place fun _ => rfl
      · rfl

theorem openInTable_place (b : Builder) (p q : Position) (draft : TableDraft) (depth : Nat)
    (name : String) (attributes : Attributes) :
    unplaced (b.openInTable p draft depth name attributes) =
      unplaced (b.openInTable q draft depth name attributes) := by
  unfold openInTable
  dsimp only
  split
  case h_1 | h_2 =>
    refine integer_bind_place fun _ => ?_
    split <;> rfl
  · rfl
  · rfl

/-- An event does the same wherever it stands. -/
theorem step_place (b : Builder) (p q : Position) (event : Event) :
    unplaced (b.step (p, event)) = unplaced (b.step (q, event)) := by
  cases event with
  | opened name attributes =>
    show unplaced (b.opened p name attributes) = unplaced (b.opened q name attributes)
    unfold opened
    cases b.frame with
    | inline | container => exact b.openContent_place p q name attributes
    | table draft depth => exact b.openInTable_place p q draft depth name attributes
    | _ => rfl
  | closed name =>
    show unplaced (b.closed p name) = unplaced (b.closed q name)
    unfold closed
    split <;> rfl
  | text s =>
    show unplaced (b.textRead p s) = unplaced (b.textRead q s)
    unfold textRead
    split
    · split <;> rfl
    · split <;> rfl
    all_goals rfl

/-! ### Texts in parts -/

theorem textRead_empty (b : Builder) (p : Position) : b.textRead p "" = .ok b := by
  obtain ⟨document, styles, text, container, frame, outer⟩ := b
  cases frame <;> simp [textRead, allBlank]

/-- A text that stands in two parts is gathered like one. -/
theorem textRead_append (b : Builder) (p : Position) (s s' : String) :
    b.textRead p (s ++ s') = b.textRead p s >>= fun b => b.textRead p s' := by
  obtain ⟨document, styles, text, container, frame, outer⟩ := b
  have hblank : allBlank (s ++ s').toList = (allBlank s.toList && allBlank s'.toList) := by
    rw [String.toList_append, allBlank, List.all_append]
    rfl
  cases frame with
  | prolog | epilog =>
    simp only [textRead, hblank]
    cases allBlank s.toList <;> rfl
  | title more depth | inline | container => simp [textRead, String.append_assoc, bind, Except.bind]
  | _ => rfl

/-! ### What is made of tokens -/

theorem read_cons (b : Builder) (p : Position) (event : Event) (more : EventStream) :
    unplaced (b.read (.cons p event more)) =
      unplaced (b.step (p, event)) >>= fun b => unplaced (b.read more) := by
  rw [← unplaced_bind]
  unfold read run EventStream.cons
  rw [List.foldlM_cons, bind_assoc]

theorem read_cons_congr {p q : Position} {event : Event} {more more' : EventStream}
    (h : ∀ b : Builder, unplaced (b.read more) = unplaced (b.read more')) (b : Builder) :
    unplaced (b.read (.cons p event more)) = unplaced (b.read (.cons q event more')) := by
  rw [read_cons, read_cons, b.step_place p q]
  exact congrArg _ (funext h)

/-- A token means the same wherever it stands, as long as what follows does. -/
theorem read_token_congr {items items' : List (Position × Token)}
    (h : ∀ (b : Builder) (inside : List String), unplaced (b.read (.ofTokens none inside items)) =
      unplaced (b.read (.ofTokens none inside items')))
    (p q : Position) (t : Token) (b : Builder) (inside : List String) :
    unplaced (b.read (.ofTokens none inside ((p, t) :: items))) =
      unplaced (b.read (.ofTokens none inside ((q, t) :: items'))) := by
  cases t with
  | startTag name attributes selfClosing =>
    cases selfClosing with
    | false => exact read_cons_congr (fun b => h b (name :: inside)) b
    | true => exact read_cons_congr (read_cons_congr fun b => h b inside) b
  | endTag name =>
    cases inside with
    | nil => rfl
    | cons inner inside =>
      rw [EventStream.ofTokens, EventStream.ofTokens]
      split
      · exact read_cons_congr (fun b => h b inside) b
      · rfl
  | text s => exact read_cons_congr (fun b => h b inside) b
  | comment s => exact h b inside

/-- What a builder makes of the rest of the tokens, inside the elements `inside`, but
for the places of errors. -/
def outcome (b : Builder) (inside : List String) (tokens : List Token) :
    Except DocumentError Document :=
  unplaced (b.read (.ofTokens none inside (tokens.map (Prod.mk .start))))

theorem outcome_text (b : Builder) (inside : List String) (s : String) (tokens : List Token) :
    b.outcome inside (.text s :: tokens) =
      unplaced (b.textRead .start s) >>= fun b => b.outcome inside tokens :=
  b.read_cons _ _ _

/-- Where the tokens stand does not matter. -/
theorem outcome_eq : ∀ (items : List (Position × Token)) (b : Builder) (inside : List String),
    unplaced (b.read (.ofTokens none inside items)) = b.outcome inside (items.map (·.2))
  | [], _, _ => rfl
  | (p, t) :: items, b, inside => read_token_congr (outcome_eq items) p .start t b inside

end Builder

/-! ### Tokens that are alike -/

/-- Tokens of which every builder makes the same, whichever elements are open. -/
def Alike (tokens tokens' : List Token) : Prop :=
  ∀ (b : Builder) (inside : List String), b.outcome inside tokens = b.outcome inside tokens'

namespace Alike

variable {tokens tokens' tokens'' : List Token}

theorem refl (tokens : List Token) : Alike tokens tokens := fun _ _ => rfl

theorem symm (h : Alike tokens tokens') : Alike tokens' tokens := fun b inside => (h b inside).symm

theorem trans (h : Alike tokens tokens') (h' : Alike tokens' tokens'') : Alike tokens tokens'' :=
  fun b inside => (h b inside).trans (h' b inside)

theorem cons (t : Token) (h : Alike tokens tokens') : Alike (t :: tokens) (t :: tokens') :=
  Builder.read_token_congr h .start .start t

theorem append : ∀ (front : List Token), Alike tokens tokens' →
    Alike (front ++ tokens) (front ++ tokens')
  | [], h => h
  | t :: front, h => (append front h).cons t

theorem comment (s : String) (tokens : List Token) : Alike (.comment s :: tokens) tokens :=
  fun _ _ => rfl

/-- An empty text is as good as none. -/
theorem emptyText (tokens : List Token) : Alike (.text "" :: tokens) tokens := fun b inside => by
  rw [b.outcome_text, b.textRead_empty]
  rfl

theorem texts (s s' : String) (tokens : List Token) :
    Alike (.text s :: .text s' :: tokens) (.text (s ++ s') :: tokens) := fun b inside => by
  rw [b.outcome_text, b.outcome_text, b.textRead_append, unplaced_bind, bind_assoc]
  exact congrArg _ (funext fun b => b.outcome_text inside s' tokens)

/-- An element that closes itself is as good as one that is closed at once. -/
theorem parted (name : String) (attributes : Attributes) (tokens : List Token) :
    Alike (.startTag name attributes true :: tokens)
      (.startTag name attributes false :: .endTag name :: tokens) := fun b inside => by
  have hclosed : EventStream.ofTokens none (name :: inside)
      ((.endTag name :: tokens).map (Prod.mk .start)) =
        .cons .start (.closed name) (.ofTokens none inside (tokens.map (Prod.mk .start))) :=
    if_pos rfl
  unfold Builder.outcome
  rw [List.map_cons, List.map_cons, EventStream.ofTokens, EventStream.ofTokens, if_pos rfl,
    if_neg Bool.false_ne_true, hclosed]

end Alike

/-! ### The steps to the form -/

namespace Markup.Token

theorem alike_dropComments : ∀ tokens : List Token, Alike tokens (dropComments tokens)
  | [] => .refl []
  | t :: tokens => by
    cases t with
    | comment s => exact (Alike.comment s tokens).trans (alike_dropComments tokens)
    | _ => exact (alike_dropComments tokens).cons _

theorem alike_joined (t : Token) (tokens : List Token) : Alike (t :: tokens) (joined t tokens) := by
  unfold joined
  split
  · exact .texts _ _ _
  · exact .refl _

theorem alike_joinTexts : ∀ tokens : List Token, Alike tokens (joinTexts tokens)
  | [] => .refl []
  | t :: tokens => ((alike_joinTexts tokens).cons t).trans (alike_joined t (joinTexts tokens))

theorem alike_dropEmpty : ∀ tokens : List Token, Alike tokens (dropEmpty tokens)
  | [] => .refl []
  | t :: tokens => by
    unfold dropEmpty
    by_cases h : t = text ""
    · rw [List.filter_cons_of_neg (by simpa using h), h]
      exact (Alike.emptyText tokens).trans (alike_dropEmpty tokens)
    · rw [List.filter_cons_of_pos (by simpa using h)]
      exact (alike_dropEmpty tokens).cons t

theorem alike_parted : ∀ tokens : List Token, Alike tokens (tokens.flatMap parted)
  | [] => .refl []
  | t :: tokens => by
    rw [List.flatMap_cons]
    refine Alike.trans ?_ (Alike.append t.parted (alike_parted tokens))
    unfold parted
    split
    · exact .parted _ _ tokens
    · exact .refl _

/-- Tokens are as good as their form. -/
theorem alike_form (tokens : List Token) : Alike tokens (form tokens) :=
  (((alike_dropComments tokens).trans (alike_joinTexts _)).trans (alike_dropEmpty _)).trans
    (alike_parted _)

end Markup.Token

/-! ### Documents of one form -/

namespace Document

theorem tokenize_of_stream {s : String} {items : List (Position × Token)}
    (h : (Tokenizer.ofString s).stream = ⟨items, none⟩) : tokenize s = .ok (items.map (·.2)) := by
  rw [tokenize, h]

theorem unplaced_ofString {s : String} {tokens : List Token} (h : tokenize s = .ok tokens)
    (number : Nat) (registry : Registry) :
    unplaced (ofString number registry s) = (Builder.start number registry).outcome [] tokens := by
  unfold tokenize at h
  dsimp only at h
  split at h
  · nomatch h
  · next hwhole =>
    obtain rfl := Except.ok.inj h
    have houtcome := Builder.outcome_eq (Tokenizer.ofString s).stream.items
      (Builder.start number registry) []
    rwa [← hwhole] at houtcome

/-- **What does not matter.** Two sources with the tokens of one form make the same
document, whatever the numbers of their trees, or both make none, for the same reason. -/
theorem same_of_form {s t : String} {tokens tokens' : List Token} (hs : tokenize s = .ok tokens)
    (ht : tokenize t = .ok tokens') (hform : Token.form tokens = Token.form tokens')
    (number number' : Nat) (registry : Registry) :
    (∃ d, ofString number registry s = .ok d ∧
      ofString number' registry t = .ok (d.numbered number')) ∨
    ∃ e e', ofString number registry s = .error e ∧ ofString number' registry t = .error e' ∧
      e.unplaced = e'.unplaced := by
  have hsame : unplaced (ofString number registry s) = unplaced (ofString number registry t) := by
    rw [unplaced_ofString hs, unplaced_ofString ht]
    have halike := (Token.alike_form tokens).trans (hform ▸ (Token.alike_form tokens').symm)
    exact halike _ _
  rw [ofString_number number number' registry t]
  cases hd : ofString number registry s with
  | ok d =>
    cases hd' : ofString number registry t with
    | ok d' =>
      rw [hd, hd'] at hsame
      obtain rfl := Except.ok.inj hsame
      exact .inl ⟨d, rfl, rfl⟩
    | error e' => rw [hd, hd'] at hsame; cases hsame
  | error e =>
    cases hd' : ofString number registry t with
    | ok d' => rw [hd, hd'] at hsame; cases hsame
    | error e' =>
      rw [hd, hd'] at hsame
      exact .inr ⟨e, e', rfl, rfl, Except.error.inj hsame⟩

theorem stream_parts :
    (Tokenizer.ofString "<html><body>a<!-- c --><![CDATA[b]]><br/></body></html>").stream =
      ⟨[(⟨1, 1⟩, .startTag "html" [] false), (⟨1, 7⟩, .startTag "body" [] false),
        (⟨1, 13⟩, .text "a"), (⟨1, 14⟩, .comment " c "), (⟨1, 24⟩, .text "b"),
        (⟨1, 37⟩, .startTag "br" [] true), (⟨1, 42⟩, .endTag "body"),
        (⟨1, 49⟩, .endTag "html")], none⟩ := by
  decide +kernel

theorem stream_whole : (Tokenizer.ofString "<html><body>ab<br></br></body></html>").stream =
    ⟨[(⟨1, 1⟩, .startTag "html" [] false), (⟨1, 7⟩, .startTag "body" [] false),
      (⟨1, 13⟩, .text "ab"), (⟨1, 15⟩, .startTag "br" [] false), (⟨1, 19⟩, .endTag "br"),
      (⟨1, 24⟩, .endTag "body"), (⟨1, 31⟩, .endTag "html")], none⟩ := by
  decide +kernel

theorem same_parts_and_whole : ∃ d,
    ofString 0 .standard "<html><body>a<!-- c --><![CDATA[b]]><br/></body></html>" = .ok d ∧
    ofString 7 .standard "<html><body>ab<br></br></body></html>" = .ok (d.numbered 7) ∧
    d.elements.toList.map (·.kind) = [.block, .text "ab", .lineBreak] := by
  obtain ⟨built, hbuilt, hkinds⟩ : ∃ d,
      ofString 0 .standard "<html><body>a<!-- c --><![CDATA[b]]><br/></body></html>" = .ok d ∧
      d.elements.toList.map (·.kind) = [.block, .text "ab", .lineBreak] :=
    ⟨_, by rw [ofString, EventStream.ofString, stream_parts]; rfl, rfl⟩
  rcases same_of_form (tokenize_of_stream stream_parts) (tokenize_of_stream stream_whole)
    (by decide) 0 7 .standard with ⟨d, hd, hd'⟩ | ⟨e, e', he, -⟩
  · obtain rfl := Except.ok.inj (hbuilt.symm.trans hd)
    exact ⟨built, hd, hd', hkinds⟩
  · rw [hbuilt] at he
    cases he

end Document

end RichText
