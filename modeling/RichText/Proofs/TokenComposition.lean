/-
# Reading a text in two parts

The tokens of two texts, one behind the other, are those of the first and those of the second,
if the first is read without an error. The exception is a run of text at the end of the first:
it goes on in the second unless that begins with a bracket (`tokenize_append`). So what is put
around markup to make a document of it gives two tags before its tokens and two behind.

A reading that succeeds is `Settled`: it gives the same whatever follows, and leaves that too.
Every construct but a run of text has an end of its own, so this holds even where nothing is
left behind it. What has no such end, a name or blanks or a value without quotes, is settled
only if something is left, and inside a tag something always is: its bracket. The induction is
on the constructs of the first text (`Cursor.constructs`).

Key definitions: `Settled`, `Cursor.constructs`, `EndsInText`, `Tokenizer.tokens`.
Key theorems: `Construct.settled_read`, `constructAt_append`, `Tokenizer.tokens_append`,
`tokenize_append`.
-/
import RichText.Document.Builder
import RichText.Proofs.Calls

namespace RichText.Markup

open Text

/-- Where `extra` follows `s`, reading gives `a`, and leaves what `extra` follows then. -/
def Settled {α : Type} (extra : List Char) (read : Cursor → Reading α) (s : List Char) (a : α)
    (rest : List Char) : Prop :=
  ∀ c, c.rest = s ++ extra → ∃ c', read c = (.ok a, c') ∧ c'.rest = rest ++ extra

variable {extra : List Char}

/-! ### Marks and declarations -/

/-- The first mark of a text stays the first whatever follows. -/
theorem cutAt?_of_endedBy {mark body : List Char} (hmark : mark ≠ []) (h : EndedBy mark body)
    (rest : List Char) : cutAt? mark (body ++ (mark ++ rest)) = some (body, rest) := by
  apply cutAt?_append hmark
  intro b hb hne hlead
  apply h
  -- A mark that begins in `b` would end before the last character of the one behind it.
  have hshort : mark <+: (b ++ mark).dropLast := by
    have hwhole : (b ++ mark).dropLast <+: b ++ (mark ++ rest) :=
      (List.dropLast_prefix _).trans ⟨rest, List.append_assoc _ _ _⟩
    refine List.prefix_of_prefix_length_le hlead hwhole ?_
    have hpos := List.length_pos_iff.2 hne
    rw [List.length_dropLast, List.length_append]
    omega
  obtain ⟨front, rfl⟩ := hb
  rw [List.append_assoc, List.dropLast_append_of_ne_nil (by simp [hmark])]
  exact hshort.isInfix.trans (List.suffix_append _ _).isInfix

theorem Cursor.settled_takeUntil {c c' : Cursor} {mark found : List Char} {what : Unfinished}
    (hmark : mark ≠ []) (h : c.takeUntil mark what = (.ok found, c')) :
    Settled extra (fun c => c.takeUntil mark what) c.rest found c'.rest := by
  rcases takeUntil_eq hmark h with ⟨body, hok, hrest, hended⟩ | ⟨herror, -⟩
  · obtain rfl := Except.ok.inj hok
    intro d hd
    have hcut : cutAt? mark d.rest = some (found, c'.rest ++ extra) := by
      rw [hd, hrest, List.append_assoc, List.append_assoc]
      exact cutAt?_of_endedBy hmark hended _
    refine ⟨d.behind (found ++ mark) (c'.rest ++ extra), ?_, rfl⟩
    simp only [takeUntil, hcut]
  · cases herror

theorem settled_skipDeclaration {depth : Nat} {p : Position} {s : List Char} {c' : Cursor}
    (h : skipDeclaration depth p s = (.ok (), c')) :
    Settled extra (fun c => skipDeclaration depth c.position c.rest) s () c'.rest := by
  fun_induction skipDeclaration depth p s with
  | case1 => cases h
  | case2 depth p s ih =>
    rintro ⟨_, q⟩ rfl
    obtain ⟨d, hd, hrest⟩ := ih h ⟨s ++ extra, q.next '['⟩ rfl
    exact ⟨d, hd, hrest⟩
  | case3 depth p s _ ih =>
    rintro ⟨_, q⟩ rfl
    obtain ⟨d, hd, hrest⟩ := ih h ⟨s ++ extra, q.next ']'⟩ rfl
    exact ⟨d, hd, hrest⟩
  | case4 depth p x s hopen hshut hclose =>
    rintro ⟨_, q⟩ rfl
    obtain ⟨-, rfl⟩ := Prod.mk.inj h
    refine ⟨⟨s ++ extra, q.next x⟩, ?_, rfl⟩
    simp only [List.cons_append, skipDeclaration, if_neg hopen, if_neg hshut, if_pos hclose]
  | case5 depth p x s hopen hshut hclose ih =>
    rintro ⟨_, q⟩ rfl
    obtain ⟨d, hd, hrest⟩ := ih h ⟨s ++ extra, q.next x⟩ rfl
    refine ⟨d, ?_, hrest⟩
    simpa only [List.cons_append, skipDeclaration, if_neg hopen, if_neg hshut, if_neg hclose]
      using hd

/-! ### Tags -/

namespace Cursor

variable {c c' : Cursor}

theorem Reaches.ne_nil (h : Reaches c c') (hne : c'.rest ≠ []) : c.rest ≠ [] := by
  obtain ⟨passed, hrest, -⟩ := h
  rw [hrest]
  exact List.append_ne_nil_of_right_ne_nil passed hne

/-- What stops a run of characters stops it whatever follows. -/
theorem head?_append_of_ne_nil {rest : List Char} (hne : rest ≠ []) :
    (rest ++ extra).head? = rest.head? := by
  cases rest with
  | nil => exact absurd rfl hne
  | cons x rest => rfl

theorem settled_readName {name : String} (h : c.readName = (.ok name, c')) (hne : c'.rest ≠ []) :
    Settled extra readName c.rest name c'.rest := by
  obtain ⟨written, hrest, -, ⟨⟨first, more, rfl, hfirst, hmore⟩, hstop⟩, rfl⟩ := readName_ok h
  intro d hd
  have hstop' : ∀ x ∈ (c'.rest ++ extra).head?, isNameChar x = false := by
    rwa [head?_append_of_ne_nil hne]
  obtain ⟨htake, hdrop⟩ := takeWhile_dropWhile_append hmore hstop'
  rw [hrest, List.append_assoc, List.cons_append] at hd
  refine ⟨d.behind (first :: more) (c'.rest ++ extra), ?_, rfl⟩
  simp only [readName, hd, hfirst, if_true, htake, hdrop]

theorem rest_skipBlanks_append {d : Cursor} (hne : c.skipBlanks.rest ≠ [])
    (hd : d.rest = c.rest ++ extra) : d.skipBlanks.rest = c.skipBlanks.rest ++ extra := by
  have hstopped : ¬(c.rest.dropWhile isBlank).isEmpty = true := mt List.isEmpty_iff.1 hne
  calc d.rest.dropWhile isBlank
    _ = (c.rest ++ extra).dropWhile isBlank := by rw [hd]
    _ = c.rest.dropWhile isBlank ++ extra := by rw [List.dropWhile_append, if_neg hstopped]

theorem bareValue_cons {x : Char} {s : List Char} (h : ∀ rest, x :: s ≠ '/' :: '>' :: rest) :
    bareValue (x :: s) =
      if isBlank x || x == '>' then ([], x :: s)
      else (x :: (bareValue s).1, (bareValue s).2) := by
  rw [bareValue.eq_def]
  split
  · next hs => cases hs
  · next rest hs => exact absurd hs (h rest)
  · next y rest _ hs =>
    obtain ⟨rfl, rfl⟩ := List.cons.inj hs
    rfl

/-- A value without quotes that ends before the end of the text ends there whatever
follows. -/
theorem bareValue_of_ne_nil {s : List Char} (hne : (bareValue s).2 ≠ []) :
    bareValue (s ++ extra) = ((bareValue s).1, (bareValue s).2 ++ extra) := by
  fun_induction bareValue s with
  | case1 => exact absurd rfl hne
  | case2 rest => rfl
  | case3 x rest hslash hend =>
    have hx : ∀ rest', x :: (rest ++ extra) ≠ '/' :: '>' :: rest' := by
      intro rest' hs
      obtain ⟨rfl, -⟩ := List.cons.inj hs
      exact absurd hend (by decide)
    rw [List.cons_append, bareValue_cons hx, if_pos hend]
  | case4 x rest hslash hend more ih =>
    -- A slash that is the last character would not stay a part of the value in front of `>`.
    obtain ⟨y, rest, rfl⟩ : ∃ y more, rest = y :: more := by
      refine List.exists_cons_of_ne_nil ?_
      rintro rfl
      exact hne rfl
    have hx : ∀ rest', x :: (y :: rest ++ extra) ≠ '/' :: '>' :: rest' := by
      intro rest' hs
      obtain ⟨hslashed, hs⟩ := List.cons.inj hs
      obtain ⟨rfl, -⟩ := List.cons.inj hs
      exact hslash _ hslashed rfl
    rw [List.cons_append, bareValue_cons hx, if_neg hend, ih hne]

theorem settled_readValue {value : String} (h : c.readValue = (.ok value, c'))
    (hne : c'.rest ≠ []) : Settled extra readValue c.rest value c'.rest := by
  unfold readValue at h
  split at h
  · simp [failAtEnd] at h
  · next first rest hc =>
    rw [hc]
    intro d hd
    split at h
    · next hquote =>
      split at h
      · next raw c₂ hread =>
        obtain ⟨rfl, rfl⟩ : _ ∧ c₂ = c' := by simpa using h
        obtain ⟨d', hd', hrest⟩ := settled_takeUntil (List.cons_ne_nil first []) hread
          (d.behind [first] (rest ++ extra)) rfl
        refine ⟨d', ?_, hrest⟩
        simp only [readValue, hd, List.cons_append, if_pos hquote, hd']
      · cases h
    · next hquote =>
      simp only at h
      split at h
      · simp [fail] at h
      · next hvalue =>
        obtain ⟨rfl, rfl⟩ : _ ∧ _ = c' := by simpa using h
        have hlonger : bareValue (c.rest ++ extra) = _ := bareValue_of_ne_nil hne
        rw [hc] at hlonger hvalue ⊢
        refine ⟨d.behind (bareValue (first :: rest)).1 ((bareValue (first :: rest)).2 ++ extra),
          ?_, rfl⟩
        rw [List.cons_append] at hd hlonger
        simp only [readValue, hd, if_neg hquote, hlonger, if_neg hvalue]

theorem settled_readAssignment {value : String} (h : c.readAssignment = (.ok value, c'))
    (hne : c'.rest ≠ []) : Settled extra readAssignment c.rest value c'.rest := by
  unfold readAssignment at h
  simp only at h
  intro d hd
  split at h
  · next rest hc =>
    have hbehind : (c.skipBlanks.behind ['='] rest).skipBlanks.rest ≠ [] := by
      refine Reaches.ne_nil ?_ hne
      have hvalue := (c.skipBlanks.behind ['='] rest).skipBlanks.reaches_readValue
      rwa [h] at hvalue
    have hd' : d.skipBlanks.rest = '=' :: (rest ++ extra) := by
      rw [rest_skipBlanks_append (by simp [hc]) hd, hc, List.cons_append]
    obtain ⟨d₂, hread, hrest⟩ := settled_readValue h hne
      (d.skipBlanks.behind ['='] (rest ++ extra)).skipBlanks
      (rest_skipBlanks_append hbehind rfl)
    refine ⟨d₂, ?_, hrest⟩
    simp only [readAssignment, hd', hread]
  · next hsign =>
    obtain ⟨rfl, rfl⟩ : _ ∧ c.skipBlanks = c' := by simpa using h
    have hd' := rest_skipBlanks_append hne hd
    refine ⟨d.skipBlanks, ?_, hd'⟩
    unfold readAssignment
    simp only
    split
    · next rest hequals =>
      obtain ⟨x, more, hmore⟩ := List.exists_cons_of_ne_nil hne
      rw [hd', hmore] at hequals
      obtain ⟨rfl, -⟩ := List.cons.inj hequals
      exact absurd hmore (hsign more)
    · rfl

/-- Attributes are read up to the bracket of their tag, and so nothing that follows it
changes them. -/
theorem settled_readAttributes {name : String} {found attributes : Attributes}
    {selfClosing : Bool} (h : c.readAttributes name found = (.ok (attributes, selfClosing), c')) :
    Settled extra (readAttributes name found) c.rest (attributes, selfClosing) c'.rest := by
  have blanks {c d : Cursor} {s : List Char} {p : Position} (hs : c.skipBlanks = ⟨s, p⟩)
      (hne : s ≠ []) (hd : d.rest = c.rest ++ extra) : ∃ q, d.skipBlanks = ⟨s ++ extra, q⟩ := by
    have hrest : d.skipBlanks.rest = s ++ extra := by
      rw [rest_skipBlanks_append (by rwa [hs]) hd, hs]
    exact ⟨d.skipBlanks.position, by rw [← hrest]⟩
  fun_induction readAttributes name found c with
  | case1 | case4 | case5 | case6 | case7 | case9 => simp [failAtEnd, fail] at h
  | case2 found c rest position hs =>
    simp only [Prod.mk.injEq, Except.ok.injEq] at h
    obtain ⟨⟨rfl, rfl⟩, rfl⟩ := h
    intro d hd
    obtain ⟨q, hq⟩ := blanks hs (List.cons_ne_nil _ _) hd
    exact ⟨_, readAttributes_end hq, rfl⟩
  | case3 found c rest position hs =>
    simp only [Prod.mk.injEq, Except.ok.injEq] at h
    obtain ⟨⟨rfl, rfl⟩, rfl⟩ := h
    intro d hd
    obtain ⟨q, hq⟩ := blanks hs (List.cons_ne_nil _ _) hd
    exact ⟨_, readAttributes_selfClosing hq, rfl⟩
  | case8 found c first rest position _ _ _ hs hfirst key c₁ hn value c₂ ha hfresh _ ih =>
    have hne₂ : c₂.rest ≠ [] := by
      obtain ⟨inside, hinside⟩ := readAttributes_eq h
      rw [hinside]
      cases selfClosing <;> simp [tagEnd]
    have hne₁ : c₁.rest ≠ [] := by
      refine Reaches.ne_nil ?_ hne₂
      have hvalue := c₁.reaches_readAssignment
      rwa [ha] at hvalue
    intro d hd
    obtain ⟨q, hq⟩ := blanks hs (List.cons_ne_nil _ _) hd
    obtain ⟨d₁, hname, hrest₁⟩ := settled_readName hn hne₁ ⟨first :: rest ++ extra, q⟩ rfl
    obtain ⟨d₂, hvalue, hrest₂⟩ := settled_readAssignment ha hne₂ d₁ hrest₁
    obtain ⟨d', hmore, hrest'⟩ := ih h d₂ hrest₂
    refine ⟨d', ?_, hrest'⟩
    rw [readAttributes_name hq hfirst hname hvalue (Bool.eq_false_iff.2 hfresh), hmore]

end Cursor

open Cursor in
theorem settled_readStartTag {c c' : Cursor} {token : Token}
    (h : readStartTag c = (.ok token, c')) : Settled extra readStartTag c.rest token c'.rest := by
  unfold readStartTag at h
  split at h
  · cases h
  · next name c₁ hname =>
    split at h
    · cases h
    · next attributes selfClosing c₂ hattributes =>
      obtain ⟨rfl, rfl⟩ : _ ∧ c₂ = c' := by simpa using h
      have hne : c₁.rest ≠ [] := by
        obtain ⟨inside, hinside⟩ := readAttributes_eq hattributes
        rw [hinside]
        cases selfClosing <;> simp [tagEnd]
      intro d hd
      obtain ⟨d₁, hd₁, hrest₁⟩ := settled_readName hname hne d hd
      obtain ⟨d₂, hd₂, hrest₂⟩ := settled_readAttributes hattributes d₁ hrest₁
      exact ⟨d₂, by simp only [readStartTag, hd₁, hd₂], hrest₂⟩

open Cursor in
theorem settled_readEndTag {c c' : Cursor} {token : Token}
    (h : readEndTag c = (.ok token, c')) : Settled extra readEndTag c.rest token c'.rest := by
  unfold readEndTag at h
  split at h
  · cases h
  · next name c₁ hname =>
    simp only at h
    split at h
    · simp [failAtEnd] at h
    · next rest hc₁ =>
      obtain ⟨rfl, rfl⟩ : _ ∧ _ = c' := by simpa using h
      have hne : c₁.skipBlanks.rest ≠ [] := by simp [hc₁]
      intro d hd
      obtain ⟨d₁, hd₁, hrest₁⟩ :=
        settled_readName hname (c₁.reaches_skipBlanks.ne_nil hne) d hd
      have hd₂ : d₁.skipBlanks.rest = '>' :: (rest ++ extra) := by
        rw [rest_skipBlanks_append hne hrest₁, hc₁, List.cons_append]
      exact ⟨d₁.skipBlanks.behind ['>'] (rest ++ extra), by simp only [readEndTag, hd₁, hd₂], rfl⟩
    · simp [fail] at h

/-! ### Constructs -/

/-- A reading that is settled stays so when its answer is made into another. -/
theorem Settled.map {α β : Type} {read : Cursor → Reading α} {s rest : List Char} {a : α}
    (f : α → β) (h : Settled extra read s a rest) :
    Settled extra (fun c => ((read c).1.map f, (read c).2)) s (f a) rest := by
  intro c hc
  obtain ⟨c', hread, hrest⟩ := h c hc
  exact ⟨c', by simp only [hread, Except.map], hrest⟩

namespace Construct

/-- A run of text is stopped by the first bracket, be it in what follows. -/
theorem takeWhile_dropWhile_text {s : List Char}
    (h : s.dropWhile (· ≠ '<') = [] → ∀ x ∈ extra.head?, x = '<') :
    (s ++ extra).takeWhile (· ≠ '<') = s.takeWhile (· ≠ '<') ∧
      (s ++ extra).dropWhile (· ≠ '<') = s.dropWhile (· ≠ '<') ++ extra := by
  have hin : ∀ x ∈ s.takeWhile (· ≠ '<'), decide (x ≠ '<') = true :=
    List.all_eq_true.1 List.all_takeWhile
  have hstop : ∀ x ∈ (s.dropWhile (· ≠ '<') ++ extra).head?, decide (x ≠ '<') = false := by
    intro x hx
    by_cases hend : s.dropWhile (· ≠ '<') = []
    · rw [hend, List.nil_append] at hx
      simpa using h hend x hx
    · rw [Cursor.head?_append_of_ne_nil hend] at hx
      have hnot := List.head?_dropWhile_not (fun c => decide (c ≠ '<')) s
      rw [hx] at hnot
      simpa using hnot
  have hrun := takeWhile_dropWhile_append hin hstop
  rwa [← List.append_assoc, List.takeWhile_append_dropWhile] at hrun

/-- What is read at a place is settled, but for a run of text up to the end, which goes on
in what follows unless that begins with a bracket. -/
theorem settled_read {k : Construct} {c c' : Cursor} {found : Option Token}
    (h : k.read c = (.ok found, c'))
    (hrun : k = text → c'.rest = [] → ∀ x ∈ extra.head?, x = '<') :
    Settled extra k.read c.rest found c'.rest := by
  -- What a construct is read by gives its answer by way of `f`.
  have ok {α : Type} {r : Reading α} {f : α → Option Token}
      (h : (r.1.map f, r.2) = (.ok found, c')) : ∃ a, r = (.ok a, c') ∧ f a = found := by
    obtain ⟨answer, c₂⟩ := r
    obtain ⟨hanswer, rfl⟩ := Prod.mk.inj h
    cases answer with
    | error e => cases hanswer
    | ok a => exact ⟨a, rfl, Except.ok.inj hanswer⟩
  cases k with
  | text =>
    obtain ⟨hfound, rfl⟩ := Prod.mk.inj h
    obtain rfl := Except.ok.inj hfound
    obtain ⟨htake, hdrop⟩ := takeWhile_dropWhile_text (hrun rfl)
    intro d hd
    rw [← hd] at htake hdrop
    refine ⟨d.behind (c.rest.takeWhile (· ≠ '<')) (c.rest.dropWhile (· ≠ '<') ++ extra), ?_, rfl⟩
    simp only [read, htake, hdrop]
  | comment =>
    obtain ⟨body, hread, rfl⟩ := ok h
    exact .map _ (Cursor.settled_takeUntil (by decide) hread)
  | cdata =>
    obtain ⟨body, hread, rfl⟩ := ok h
    exact .map _ (Cursor.settled_takeUntil (by decide) hread)
  | declaration =>
    obtain ⟨⟨⟩, hread, rfl⟩ := ok h
    exact .map _ (settled_skipDeclaration hread)
  | instruction =>
    obtain ⟨body, hread, rfl⟩ := ok h
    exact .map _ (Cursor.settled_takeUntil (by decide) hread)
  | endTag =>
    obtain ⟨token, hread, rfl⟩ := ok h
    exact .map _ (settled_readEndTag hread)
  | startTag =>
    obtain ⟨token, hread, rfl⟩ := ok h
    exact .map _ (settled_readStartTag hread)

/-- What is read as it must be, and is no text, has a bracket that ends it. -/
theorem Gives.mem_bracket {k : Construct} {written rest : List Char} {found : Option Token}
    (h : k.Gives written rest (.ok found)) (hk : k ≠ .text) : '>' ∈ written := by
  generalize hanswer : (Except.ok found : Except ParseError (Option Token)) = answer at h
  cases h with
  | text => exact absurd rfl hk
  | @marked _ mark _ _ _ hmark =>
    have hbracket : '>' ∈ mark := by
      cases k <;> simp only [mark?, Option.some.injEq, Prod.mk.injEq, reduceCtorEq] at hmark <;>
        obtain ⟨rfl, -⟩ := hmark <;> decide
    simp [hbracket]
  | declared => simp
  | endTag => simp
  | @startTag _ _ _ _ selfClosing => cases selfClosing <;> simp [tagEnd]
  | unmarked => cases hanswer
  | undeclared => cases hanswer
  | broken => cases hanswer

end Construct

/-- A text that holds a character which a lead has not is too long to grow into it. -/
theorem hasLead_append {lead s : List Char} {x : Char} (hx : x ∈ s) (hlead : x ∉ lead) :
    hasLead lead (s ++ extra) = hasLead lead s := by
  rw [Bool.eq_iff_iff, hasLead_iff, hasLead_iff]
  constructor
  · intro h
    rcases List.prefix_or_prefix_of_prefix h (List.prefix_append s extra) with hshort | hlong
    · exact hshort
    · exact absurd (hlong.subset hx) hlead
  · intro h
    exact h.trans (List.prefix_append s extra)

/-- What a text begins with is settled by its first bracket that ends something. -/
theorem constructAt_append {s : List Char} (h : '>' ∈ s) :
    constructAt (s ++ extra) = constructAt s := by
  unfold constructAt
  rw [hasLead_append h (by decide), hasLead_append h (by decide), hasLead_append h (by decide),
    hasLead_append h (by decide), hasLead_append h (by decide), hasLead_append h (by decide)]

namespace Cursor

/-- Reads what stands at the place. -/
def readConstruct (c : Cursor) : Reading (Option Token) :=
  (constructAt c.rest).read (c.skip (constructAt c.rest).lead)

/-- The constructs from a place up to the end of the text, each behind the one before. -/
def constructs (c : Cursor) : List Construct :=
  if h : c.rest = [] then []
  else
    have : c.readConstruct.2.rest.length < c.rest.length := length_read_constructAt_lt h
    constructAt c.rest :: c.readConstruct.2.constructs
termination_by c.rest.length

theorem settled_readConstruct {c c' : Cursor} {found : Option Token} (hne : c.rest ≠ [])
    (h : c.readConstruct = (.ok found, c'))
    (hrun : constructAt c.rest = .text → c'.rest = [] → ∀ x ∈ extra.head?, x = '<') :
    Settled extra readConstruct c.rest found c'.rest := by
  have hsame : constructAt (c.rest ++ extra) = constructAt c.rest := by
    by_cases htext : constructAt c.rest = .text
    · rw [htext]
      apply constructAt_text
      rw [head?_append_of_ne_nil hne]
      exact not_bracket_of_text htext
    · obtain ⟨written, hwritten, hgives⟩ := Construct.gives_read hne h
      have hbracket := hgives.mem_bracket htext
      apply constructAt_append
      rw [hwritten]
      exact List.mem_append_left _ hbracket
  intro d hd
  have hlead : (constructAt c.rest).lead ≤ c.rest.length := by
    have hopening := opening_prefix c.rest
    rw [← Construct.length_opening]
    exact hopening.length_le
  have hskip : (d.skip (constructAt c.rest).lead).rest =
      (c.skip (constructAt c.rest).lead).rest ++ extra := by
    show d.rest.drop _ = c.rest.drop _ ++ extra
    rw [hd, List.drop_append_of_le_length hlead]
  obtain ⟨d', hread, hrest⟩ := Construct.settled_read h hrun _ hskip
  refine ⟨d', ?_, hrest⟩
  rw [readConstruct, hd, hsame, hread]

end Cursor

/-! ### Texts -/

namespace Tokenizer

/-- The tokens up to the end of the text. -/
def tokens (t : Tokenizer) : Except ParseError (List Token) :=
  match t.stream.failure with
  | some e => .error e
  | none => .ok (t.stream.items.map (·.2))

theorem tokenize_eq_tokens (s : String) : tokenize s = (ofString s).tokens := rfl

variable {t : Tokenizer} {c : Cursor}

theorem tokens_of_end (h : t.cursor.rest = []) : t.tokens = .ok [] := by
  obtain ⟨⟨s, p⟩, q⟩ := t
  obtain rfl : s = [] := h
  rw [tokens, stream_nil]
  rfl

theorem next_eq_readConstruct (hne : t.cursor.rest ≠ []) :
    t.next = match t.cursor.readConstruct with
      | (.error e, c) => (.error e, ⟨c, t.cursor.position⟩)
      | (.ok (some token), c) => (.ok (some token), ⟨c, t.cursor.position⟩)
      | (.ok none, c) => next ⟨c, t.cursor.position⟩ := by
  rw [next.eq_def, dif_neg hne]
  simp only [Cursor.readConstruct]
  split <;> next hr => simp only [hr]

theorem stream_of_error {t' : Tokenizer} {e : ParseError} (hnext : t.next = (.error e, t')) :
    t.stream = ⟨[], some e⟩ := by
  rw [stream.eq_def]
  split
  · next h =>
    cases hnext.symm.trans h
    rfl
  · next h => cases hnext.symm.trans h
  · next h => cases hnext.symm.trans h

theorem stream_of_none {t' : Tokenizer} (hnext : t.next = (.ok none, t')) :
    t.stream = ⟨[], none⟩ := by
  rw [stream.eq_def]
  split
  · next h => cases hnext.symm.trans h
  · rfl
  · next h => cases hnext.symm.trans h

/-- One call answers, and the next ones are those of the tokenizer behind it. -/
theorem tokens_eq_next (t : Tokenizer) :
    t.tokens = match t.next with
      | (.error e, _) => .error e
      | (.ok none, _) => .ok []
      | (.ok (some token), t') => t'.tokens.map (token :: ·) := by
  obtain ⟨answer, hanswer⟩ : ∃ answer, t.next = answer := ⟨_, rfl⟩
  rw [hanswer]
  rcases answer with ⟨e | ⟨⟩ | token, t'⟩
  · rw [tokens, stream_of_error hanswer]
  · rw [tokens, stream_of_none hanswer]
    rfl
  · rw [tokens, stream_of_next hanswer]
    simp only [tokens]
    cases t'.stream.failure <;> rfl

theorem tokens_of_error {e : ParseError} (hne : t.cursor.rest ≠ [])
    (h : t.cursor.readConstruct = (.error e, c)) : t.tokens = .error e := by
  rw [tokens_eq_next, next_eq_readConstruct hne, h]

/-- What stands at the place gives a token or none, and the rest of the text the others. -/
theorem tokens_of_ok {found : Option Token} (hne : t.cursor.rest ≠ [])
    (h : t.cursor.readConstruct = (.ok found, c)) :
    t.tokens = (tokens ⟨c, t.cursor.position⟩).map (found.toList ++ ·) := by
  rw [tokens_eq_next, next_eq_readConstruct hne, h]
  cases found with
  | none =>
    rw [← tokens_eq_next]
    exact (id_map (tokens ⟨c, t.cursor.position⟩)).symm
  | some token => rfl

/-- Behind a text that is read, reading goes on with what follows, at some place: the first
text leaves nothing unless it ends with a run of text. -/
theorem tokens_append {c : Cursor} {q : Position} {found : List Token}
    (h : tokens ⟨c, q⟩ = .ok found)
    (hrun : c.constructs.getLast? = some .text → ∀ x ∈ extra.head?, x = '<') :
    ∀ t : Tokenizer, t.cursor.rest = c.rest ++ extra →
      ∃ u : Tokenizer, u.cursor.rest = extra ∧ t.tokens = u.tokens.map (found ++ ·) := by
  fun_induction Cursor.constructs c generalizing q found with
  | case1 c hend =>
    intro t ht
    rw [tokens_of_end hend] at h
    obtain rfl := Except.ok.inj h
    refine ⟨t, ?_, (id_map t.tokens).symm⟩
    rw [ht, hend, List.nil_append]
  | case2 c hne _ ih =>
    intro t ht
    obtain ⟨answer, c', hread⟩ : ∃ answer c', c.readConstruct = (answer, c') := ⟨_, _, rfl⟩
    cases answer with
    | error e =>
      rw [tokens_of_error (t := ⟨c, q⟩) hne hread] at h
      cases h
    | ok one =>
      rw [tokens_of_ok (t := ⟨c, q⟩) hne hread] at h
      obtain ⟨more, hmore, rfl⟩ : ∃ more, tokens ⟨c', c.position⟩ = .ok more ∧
          one.toList ++ more = found := by
        cases hm : tokens ⟨c', c.position⟩ with
        | error e => rw [hm] at h; cases h
        | ok more => rw [hm] at h; exact ⟨more, rfl, Except.ok.inj h⟩
      -- A run of text that nothing is left behind is the last construct.
      have hlast : constructAt c.rest = .text → c'.rest = [] → ∀ x ∈ extra.head?, x = '<' := by
        intro htext hend
        apply hrun
        rw [hread, Cursor.constructs, dif_pos hend, htext]
        rfl
      obtain ⟨d, hd, hrest⟩ := Cursor.settled_readConstruct hne hread hlast t.cursor ht
      have hne' : t.cursor.rest ≠ [] := by
        rw [ht]
        exact List.append_ne_nil_of_left_ne_nil hne extra
      have hrun' : c'.constructs.getLast? = some .text → ∀ x ∈ extra.head?, x = '<' := by
        intro htext
        apply hrun
        rw [hread, List.getLast?_cons, htext]
        rfl
      rw [hread] at ih
      obtain ⟨u, hu, htokens⟩ := ih hmore hrun' ⟨d, t.cursor.position⟩ hrest
      refine ⟨u, hu, ?_⟩
      rw [tokens_of_ok hne' hd, htokens]
      cases u.tokens with
      | error e => rfl
      | ok last => simp only [Except.map, List.append_assoc]

/-- Where a text is read does not matter. -/
theorem tokens_of_rest {t u : Tokenizer} {found : List Token} (h : t.tokens = .ok found)
    (hrest : u.cursor.rest = t.cursor.rest) : u.tokens = .ok found := by
  have hwhole : u.cursor.rest = t.cursor.rest ++ [] := by rw [hrest, List.append_nil]
  obtain ⟨v, hv, hu⟩ := tokens_append h (fun _ x hx => by cases hx) u hwhole
  rw [hu, tokens_of_end hv]
  exact congrArg Except.ok (List.append_nil found)

end Tokenizer

open Tokenizer

/-- The text ends inside a run of text. -/
def EndsInText (s : String) : Prop :=
  (Cursor.constructs ⟨s.toList, .start⟩).getLast? = some .text

instance (s : String) : Decidable (EndsInText s) := inferInstanceAs (Decidable (_ = _))

/-- Behind a text that is read, another is read as it is on its own. -/
theorem tokens_ofString_append {a b : String} {found : List Token}
    (ha : tokenize a = .ok found) (hrun : EndsInText a → ∀ x ∈ b.toList.head?, x = '<') :
    (∀ more, tokenize b = .ok more → tokenize (a ++ b) = .ok (found ++ more)) ∧
      ∀ whole, tokenize (a ++ b) = .ok whole →
        ∃ more, tokenize b = .ok more ∧ whole = found ++ more := by
  obtain ⟨u, hu, hwhole⟩ := tokens_append (c := ⟨a.toList, .start⟩) ha hrun (ofString (a ++ b))
    String.toList_append
  rw [← tokenize_eq_tokens] at hwhole
  constructor
  · intro more hb
    rw [hwhole, tokens_of_rest (u := u) hb hu]
    rfl
  · intro whole hab
    rw [hwhole] at hab
    cases hmore : u.tokens with
    | error e => rw [hmore] at hab; cases hab
    | ok more =>
      rw [hmore] at hab
      exact ⟨more, tokens_of_rest (u := ofString b) hmore hu.symm, (Except.ok.inj hab).symm⟩

/-- **Markup is read part by part.** Behind a text that is read without an error and does not
end inside a run of text, or ends inside one that the next text stops, the whole is read if
and only if the next text is, and has the tokens of both. So the tokens of a fragment from
which a document is made stand between those of the tags that are put around it. -/
theorem tokenize_append :
    (∀ (a b : String) (found : List Token), tokenize a = .ok found →
      (EndsInText a → ∀ x ∈ b.toList.head?, x = '<') →
        ((∃ whole, tokenize (a ++ b) = .ok whole) ↔ ∃ more, tokenize b = .ok more) ∧
        ∀ more, tokenize b = .ok more → tokenize (a ++ b) = .ok (found ++ more)) ∧
    ∀ (s : String) (found : List Token), tokenize s = .ok found → isDocument s = false →
      tokenize (wrapped s) =
        .ok ([.startTag "html" [] false, .startTag "body" [] false] ++ found ++
          [.endTag "body", .endTag "html"]) := by
  constructor
  · intro a b found ha hrun
    obtain ⟨hforth, hback⟩ := tokens_ofString_append ha hrun
    refine ⟨⟨?_, ?_⟩, hforth⟩
    · rintro ⟨whole, hwhole⟩
      obtain ⟨more, hmore, -⟩ := hback whole hwhole
      exact ⟨more, hmore⟩
    · rintro ⟨more, hmore⟩
      exact ⟨found ++ more, hforth more hmore⟩
  · intro s found hs hfragment
    have hfront : tokenize "<html><body>" =
        .ok [.startTag "html" [] false, .startTag "body" [] false] := by decide +kernel
    have hback : tokenize "</body></html>" = .ok [.endTag "body", .endTag "html"] := by
      decide +kernel
    have hstop : ∀ x ∈ "</body></html>".toList.head?, x = '<' := by simp
    have htags : ¬EndsInText "<html><body>" := by decide +kernel
    obtain ⟨hinside, -⟩ := tokens_ofString_append hs fun _ => hstop
    obtain ⟨hwhole, -⟩ := tokens_ofString_append (b := s ++ "</body></html>") hfront
      fun h => absurd h htags
    rw [wrapped, if_neg (by simp [hfragment]), String.append_assoc, List.append_assoc]
    exact hwhole _ (hinside _ hback)

/-- A run of text is stopped by the comment in the next text. -/
theorem tokenize_append_comment :
    let a := "<b>x</b>&lt;"
    let b := "<!-- c -->y"
    let found : List Token := [.startTag "b" [] false, .text "x", .endTag "b", .text "<"]
    let more : List Token := [.comment " c ", .text "y"]
    tokenize a = .ok found ∧ tokenize b = .ok more ∧ EndsInText a ∧
      tokenize (a ++ b) = .ok (found ++ more) ∧ isDocument a = false ∧
      tokenize (wrapped a) =
        .ok ([.startTag "html" [] false, .startTag "body" [] false] ++ found ++
          [.endTag "body", .endTag "html"]) := by
  intro a b found more
  have ha : tokenize a = .ok found := by decide +kernel
  have hb : tokenize b = .ok more := by decide +kernel
  have hfragment : isDocument a = false := by decide +kernel
  have hstop : ∀ x ∈ b.toList.head?, x = '<' := by simp [b]
  obtain ⟨happend, hwrapped⟩ := tokenize_append
  exact ⟨ha, hb, by decide +kernel, (happend a b found ha fun _ => hstop).2 more hb, hfragment,
    hwrapped a found ha hfragment⟩

/-- A run of text goes on in the next text. -/
example : EndsInText "<b>x" ∧ ¬EndsInText "<b>x<!-- -->" ∧
    tokenize ("<b>x" ++ "y") = .ok [.startTag "b" [] false, .text "xy"] := by
  decide +kernel

end RichText.Markup
