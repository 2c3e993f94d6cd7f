/-
# Tags as they are written

Reading passes characters one after another, and the place moves with them
(`Cursor.Reaches`). So every start tag that is read stands in the text at the place
that its token gives, and is called what is written there, in small letters
(`exists_written`).

Key definitions: `Cursor.Reaches`, `StartsAt`.
Key theorems: `Construct.reaches_read`, `Tokenizer.exists_startsAt`,
`EventStream.exists_written`.
-/
import RichText.Proofs.Forest

namespace RichText

open Markup Text

namespace Markup

namespace Cursor

variable {c c' c'' : Cursor}

/-- `c'` is a place behind `c`, or `c` itself. -/
def Reaches (c c' : Cursor) : Prop :=
  ∃ passed, c.rest = passed ++ c'.rest ∧ c'.position = c.position.after passed

theorem Reaches.refl (c : Cursor) : Reaches c c := ⟨[], rfl, rfl⟩

theorem Reaches.trans (h : Reaches c c') (h' : Reaches c' c'') : Reaches c c'' := by
  obtain ⟨passed, hrest, hposition⟩ := h
  obtain ⟨passed', hrest', hposition'⟩ := h'
  refine ⟨passed ++ passed', by rw [hrest, hrest', List.append_assoc], ?_⟩
  rw [hposition', hposition, Position.after_append]

theorem reaches_behind {passed rest : List Char} (h : c.rest = passed ++ rest) :
    Reaches c (c.behind passed rest) :=
  ⟨passed, h, rfl⟩

theorem reaches_skipBlanks (c : Cursor) : Reaches c c.skipBlanks :=
  reaches_behind List.takeWhile_append_dropWhile.symm

theorem reaches_failAtEnd {α : Type} (c : Cursor) (what : Unfinished) :
    Reaches c (c.failAtEnd what : Reading α).2 :=
  reaches_behind (List.append_nil _).symm

theorem reaches_takeUntil (c : Cursor) (mark : List Char) (what : Unfinished) :
    Reaches c (c.takeUntil mark what).2 := by
  unfold takeUntil
  split
  · next h => exact reaches_behind (cutAt?_eq_append h)
  · exact c.reaches_failAtEnd what

/-- What a name is written as: a run of the characters of names that does not go
on in what follows. -/
def IsName (written rest : List Char) : Prop :=
  (∃ first more, written = first :: more ∧ isNameStart first = true ∧
    ∀ x ∈ more, isNameChar x = true) ∧ ∀ x ∈ rest.head?, isNameChar x = false

/-- A name that is read is what is written there, in small letters. -/
theorem readName_ok {name : String} (h : c.readName = (.ok name, c')) :
    ∃ written, c.rest = written ++ c'.rest ∧ c'.position = c.position.after written ∧
      IsName written c'.rest ∧ name = lowerCase (String.ofList written) := by
  unfold readName at h
  split at h
  · simp [failAtEnd] at h
  · next first more hc =>
    split at h
    · next hstart =>
      simp only [Prod.mk.injEq, Except.ok.injEq] at h
      obtain ⟨rfl, rfl⟩ := h
      refine ⟨first :: more.takeWhile isNameChar, ?_, rfl,
        ⟨⟨first, _, rfl, hstart, fun x hx => ?_⟩, fun x hx => ?_⟩, rfl⟩
      · simp [hc, behind]
      · exact List.all_eq_true.1 List.all_takeWhile x hx
      · have hnot := List.head?_dropWhile_not isNameChar more
        simp only [behind] at hx
        rw [hx] at hnot
        simpa using hnot
    · simp [fail] at h

theorem reaches_readName (c : Cursor) : Reaches c c.readName.2 := by
  unfold readName
  split
  · exact c.reaches_failAtEnd _
  · next first more hc =>
    split
    · exact reaches_behind (by simp [hc])
    · exact .refl c

theorem bareValue_append (s : List Char) : s = (bareValue s).1 ++ (bareValue s).2 := by
  fun_induction bareValue s with
  | case1 => rfl
  | case2 => rfl
  | case3 => rfl
  | case4 c rest _ _ more ih => exact congrArg (List.cons c) ih

theorem reaches_readValue (c : Cursor) : Reaches c c.readValue.2 := by
  unfold readValue
  split
  · exact c.reaches_failAtEnd _
  · next first rest hc =>
    split
    · have hquote : Reaches c (c.behind [first] rest) := reaches_behind hc
      have hvalue := (c.behind [first] rest).reaches_takeUntil [first] .attributeValue
      split
      · next heq =>
        rw [heq] at hvalue
        exact hquote.trans hvalue
      · next heq =>
        rw [heq] at hvalue
        exact hquote.trans hvalue
    · simp only
      split
      · exact .refl c
      · exact reaches_behind (bareValue_append _)

theorem reaches_readAssignment (c : Cursor) : Reaches c c.readAssignment.2 := by
  have hblanks := c.reaches_skipBlanks
  unfold readAssignment
  simp only
  split
  · next rest hc =>
    have hsign : Reaches c.skipBlanks (c.skipBlanks.behind ['='] rest) := reaches_behind hc
    exact hblanks.trans <| hsign.trans <|
      (reaches_skipBlanks _).trans (reaches_readValue _)
  · exact hblanks

theorem reaches_readAttributes (name : String) (found : Attributes) (c : Cursor) :
    Reaches c (c.readAttributes name found).2 := by
  have blanks {c c' : Cursor} (hs : c.skipBlanks = c') : Reaches c c' := hs ▸ c.reaches_skipBlanks
  fun_induction readAttributes name found c with
  | case1 found c position hs => exact (blanks hs).trans (reaches_failAtEnd _ _)
  | case2 found c rest position hs => exact (blanks hs).trans ⟨['>'], rfl, rfl⟩
  | case3 found c rest position hs => exact (blanks hs).trans ⟨['/', '>'], rfl, rfl⟩
  | case4 found c rest position _ hs => exact (blanks hs).trans ⟨['/'], rfl, rfl⟩
  | case5 found c first rest position _ _ _ hs _ e c' hn =>
    have hname := (⟨first :: rest, position⟩ : Cursor).reaches_readName
    rw [hn] at hname
    exact (blanks hs).trans hname
  | case6 found c first rest position _ _ _ hs _ key c₁ hn e c₂ ha =>
    have hname := (⟨first :: rest, position⟩ : Cursor).reaches_readName
    have hvalue := c₁.reaches_readAssignment
    rw [hn] at hname
    rw [ha] at hvalue
    exact (blanks hs).trans (hname.trans hvalue)
  | case7 found c first rest position _ _ _ hs _ key c₁ hn value c₂ ha =>
    have hname := (⟨first :: rest, position⟩ : Cursor).reaches_readName
    have hvalue := c₁.reaches_readAssignment
    rw [hn] at hname
    rw [ha] at hvalue
    exact (blanks hs).trans (hname.trans hvalue)
  | case8 found c first rest position _ _ _ hs _ key c₁ hn value c₂ ha _ _ ih =>
    have hname := (⟨first :: rest, position⟩ : Cursor).reaches_readName
    have hvalue := c₁.reaches_readAssignment
    rw [hn] at hname
    rw [ha] at hvalue
    exact (blanks hs).trans (hname.trans (hvalue.trans ih))
  | case9 found c first rest position _ _ _ hs => exact blanks hs

theorem reaches_skip (c : Cursor) (n : Nat) : Reaches c (c.skip n) :=
  reaches_behind (List.take_append_drop n c.rest).symm

end Cursor

theorem reaches_skipDeclaration (depth : Nat) (position : Position) (s : List Char) :
    Cursor.Reaches ⟨s, position⟩ (skipDeclaration depth position s).2 := by
  have next {c : Char} {rest : List Char} {p : Position} :
      Cursor.Reaches ⟨c :: rest, p⟩ ⟨rest, p.next c⟩ := ⟨[c], rfl, rfl⟩
  fun_induction skipDeclaration depth position s with
  | case1 => exact .refl _
  | case2 _ _ _ ih => exact next.trans ih
  | case3 _ _ _ _ ih => exact next.trans ih
  | case4 => exact next
  | case5 _ _ _ _ _ _ _ ih => exact next.trans ih

theorem reaches_readStartTag (c : Cursor) : Cursor.Reaches c (readStartTag c).2 := by
  have hname := c.reaches_readName
  unfold readStartTag
  split
  · next heq => rwa [heq] at hname
  · next name c' heq =>
    rw [heq] at hname
    have hattributes := c'.reaches_readAttributes name []
    split
    · next heq' =>
      rw [heq'] at hattributes
      exact hname.trans hattributes
    · next heq' =>
      rw [heq'] at hattributes
      exact hname.trans hattributes

theorem reaches_readEndTag (c : Cursor) : Cursor.Reaches c (readEndTag c).2 := by
  have hname := c.reaches_readName
  unfold readEndTag
  split
  · next heq => rwa [heq] at hname
  · next name c' heq =>
    rw [heq] at hname
    have hblanks := hname.trans c'.reaches_skipBlanks
    simp only
    split
    · exact hblanks.trans (Cursor.reaches_failAtEnd _ _)
    · next hrest => exact hblanks.trans (Cursor.reaches_behind hrest)
    · next hrest => exact hblanks.trans (Cursor.reaches_behind hrest)

theorem Construct.reaches_read (k : Construct) (c : Cursor) : Cursor.Reaches c (k.read c).2 := by
  cases k with
  | text => exact Cursor.reaches_behind List.takeWhile_append_dropWhile.symm
  | comment => exact c.reaches_takeUntil _ _
  | cdata => exact c.reaches_takeUntil _ _
  | declaration => exact reaches_skipDeclaration _ _ _
  | instruction => exact c.reaches_takeUntil _ _
  | endTag => exact reaches_readEndTag c
  | startTag => exact reaches_readStartTag c

/-- The text has at `p` a start tag with the given name, written as it may be. -/
def StartsAt (s : List Char) (start p : Position) (name : String) : Prop :=
  ∃ front written rest, s = front ++ '<' :: (written ++ rest) ∧ p = start.after front ∧
    Cursor.IsName written rest ∧ name = lowerCase (String.ofList written)

theorem StartsAt.behind {c c' : Cursor} {p : Position} {name : String} (h : Cursor.Reaches c c')
    (hc' : StartsAt c'.rest c'.position p name) : StartsAt c.rest c.position p name := by
  obtain ⟨passed, hrest, hposition⟩ := h
  obtain ⟨front, written, rest, hs, rfl, hwritten, rfl⟩ := hc'
  refine ⟨passed ++ front, written, rest, by rw [hrest, hs, List.append_assoc], ?_, hwritten, rfl⟩
  rw [hposition, Position.after_append]

theorem readStartTag_ok {c c' : Cursor} {token : Token} (h : readStartTag c = (.ok token, c')) :
    ∃ name attributes selfClosing, token = .startTag name attributes selfClosing ∧
      ∃ written rest, c.rest = written ++ rest ∧ Cursor.IsName written rest ∧
        name = lowerCase (String.ofList written) := by
  unfold readStartTag at h
  split at h
  · simp at h
  · next name c₁ hname =>
    obtain ⟨written, hrest, -, hwritten, hlower⟩ := Cursor.readName_ok hname
    split at h
    · simp at h
    · next attributes selfClosing c₂ _ =>
      simp only [Prod.mk.injEq, Except.ok.injEq] at h
      exact ⟨name, attributes, selfClosing, h.1.symm, written, c₁.rest, hrest, hwritten, hlower⟩

theorem readEndTag_ok {c c' : Cursor} {token : Token} (h : readEndTag c = (.ok token, c')) :
    ∃ name, token = .endTag name := by
  unfold readEndTag at h
  split at h
  · simp at h
  · next name c₁ _ =>
    simp only at h
    split at h
    · simp [Cursor.failAtEnd] at h
    · simp only [Prod.mk.injEq, Except.ok.injEq] at h
      exact ⟨name, h.1.symm⟩
    · simp [Cursor.fail] at h

/-- Only what begins like a start tag gives the token of one. -/
theorem startsAt_of_read {c c' : Cursor} {name : String} {attributes : Attributes}
    {selfClosing : Bool}
    (h : (constructAt c.rest).read (c.skip (constructAt c.rest).lead) =
      (.ok (some (.startTag name attributes selfClosing)), c')) :
    StartsAt c.rest c.position c.position name := by
  have map_ok {α : Type} {x : Except ParseError α} {f : α → Option Token} {t : Option Token}
      (hx : x.map f = .ok t) : ∃ a, x = .ok a ∧ f a = t := by
    cases x with
    | error e => simp [Except.map] at hx
    | ok a => exact ⟨a, rfl, by simpa [Except.map] using hx⟩
  have hfirst := congrArg Prod.fst h
  cases hk : constructAt c.rest with
  | startTag =>
    obtain ⟨rest, hrest⟩ : ∃ rest, c.rest = '<' :: rest := by
      cases hc : c.rest with
      | nil => simp [hc, constructAt, hasLead, afterLead?] at hk
      | cons first rest =>
        by_cases hfirst : first = '<'
        · exact ⟨rest, by rw [hfirst]⟩
        · simp [hc, constructAt, hasLead, afterLead?, Ne.symm hfirst] at hk
    rw [hk] at hfirst
    obtain ⟨token, htoken, hsome⟩ := map_ok hfirst
    obtain ⟨_, _, _, rfl, written, rest', hsplit, hwritten, hlower⟩ :=
      readStartTag_ok (Prod.ext htoken rfl)
    obtain ⟨rfl, -, -⟩ : _ = name ∧ _ = attributes ∧ _ = selfClosing := by simpa using hsome
    have hskip : (c.skip 1).rest = rest := by simp [Cursor.skip, Cursor.behind, hrest]
    refine ⟨[], written, rest', ?_, rfl, hwritten, hlower⟩
    rw [hrest, ← hskip]
    exact congrArg (List.cons '<') hsplit
  | endTag =>
    rw [hk] at hfirst
    obtain ⟨token, htoken, hsome⟩ := map_ok hfirst
    obtain ⟨_, rfl⟩ := readEndTag_ok (Prod.ext htoken rfl)
    simp at hsome
  | text => simp [hk, Construct.read] at hfirst
  | comment =>
    rw [hk] at hfirst
    obtain ⟨_, -, hsome⟩ := map_ok hfirst
    simp at hsome
  | cdata =>
    rw [hk] at hfirst
    obtain ⟨_, -, hsome⟩ := map_ok hfirst
    simp at hsome
  | declaration =>
    rw [hk] at hfirst
    obtain ⟨_, -, hsome⟩ := map_ok hfirst
    simp at hsome
  | instruction =>
    rw [hk] at hfirst
    obtain ⟨_, -, hsome⟩ := map_ok hfirst
    simp at hsome

namespace Tokenizer

/-- A token begins where the tokenizer says, and what is read next is behind it. -/
theorem next_ok {t t' : Tokenizer} {token : Token} (h : t.next = (.ok (some token), t')) :
    ∃ c, Cursor.Reaches t.cursor c ∧ t'.tokenStart = c.position ∧ Cursor.Reaches c t'.cursor ∧
      (constructAt c.rest).read (c.skip (constructAt c.rest).lead) =
        (.ok (some token), t'.cursor) := by
  fun_induction next t with
  | case1 => simp at h
  | case2 => simp at h
  | case3 t _ start found c hr =>
    simp only [Prod.mk.injEq, Except.ok.injEq, Option.some.injEq] at h
    obtain ⟨rfl, rfl⟩ := h
    have hread := (constructAt t.cursor.rest).reaches_read
      (t.cursor.skip (constructAt t.cursor.rest).lead)
    rw [hr] at hread
    exact ⟨t.cursor, .refl _, rfl, (t.cursor.reaches_skip _).trans hread, hr⟩
  | case4 t _ start c hr _ ih =>
    have hread := (constructAt t.cursor.rest).reaches_read
      (t.cursor.skip (constructAt t.cursor.rest).lead)
    rw [hr] at hread
    obtain ⟨c', hreaches, hwhole⟩ := ih h
    exact ⟨c', (t.cursor.reaches_skip _).trans (hread.trans hreaches), hwhole⟩

/-- Every start tag among the tokens stands in the text. -/
theorem exists_startsAt (t : Tokenizer) {p : Position} {name : String} {attributes : Attributes}
    {selfClosing : Bool} (h : (p, .startTag name attributes selfClosing) ∈ t.stream.items) :
    StartsAt t.cursor.rest t.cursor.position p name := by
  fun_induction stream t with
  | case1 => simp at h
  | case2 => simp at h
  | case3 t token t' hnext _ more ih =>
    obtain ⟨c, hreaches, hstart, hbehind, hread⟩ := next_ok hnext
    rcases List.mem_cons.1 h with heq | hmore
    · obtain ⟨rfl, rfl⟩ := Prod.mk.inj heq
      rw [hstart]
      exact .behind hreaches (startsAt_of_read hread)
    · exact .behind (hreaches.trans hbehind) (ih hmore)

end Tokenizer

end Markup

/-! ### Events -/

namespace EventStream

open Markup

/-- Every element that is opened has a start tag. -/
theorem exists_startTag {p : Position} {name : String} {attributes : Attributes}
    (failure : Option ParseError) (inside : List String) (tokens : List (Position × Token))
    (h : (p, .opened name attributes) ∈ (ofTokens failure inside tokens).items) :
    ∃ selfClosing, (p, .startTag name attributes selfClosing) ∈ tokens := by
  obtain ⟨back, hback⟩ := (items_prefix_expand failure inside tokens).1
  have hmem : (p, Event.opened name attributes) ∈ tokens.flatMap expand := by
    rw [← hback]
    exact List.mem_append_left back h
  obtain ⟨⟨p', token⟩, htoken, hexpand⟩ := List.mem_flatMap.1 hmem
  cases token with
  | startTag name' attributes' selfClosing =>
    refine ⟨selfClosing, ?_⟩
    rcases List.mem_cons.1 hexpand with heq | hclosed
    · simp only [Prod.mk.injEq, Event.opened.injEq] at heq
      obtain ⟨rfl, rfl, rfl⟩ := heq
      exact htoken
    · cases selfClosing <;> simp at hclosed
  | _ => simp [expand] at hexpand

/-- Every element that is opened stands in the text. -/
theorem exists_written {source : String} {p : Position} {name : String} {attributes : Attributes}
    (h : (p, .opened name attributes) ∈ (ofString source).items) :
    StartsAt source.toList .start p name := by
  obtain ⟨selfClosing, htoken⟩ := exists_startTag _ _ _ h
  exact (Tokenizer.ofString source).exists_startsAt htoken

end EventStream

end RichText
