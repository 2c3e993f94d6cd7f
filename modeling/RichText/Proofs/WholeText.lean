/-
# Building consumes balanced markup

What a text is built into depends on its events and on how they end. They are
nested at every moment, and the builder itself never fails for the end of the
text (`Builder.finishes_run`), so a build ends within an element only if the text
does (`Document.failure_of_ofString`). A text that makes a document is a forest,
and behind it the builder stands where it stood at the start.

Key definitions: `Builder.Finishes`.
Key theorems: `Document.exists_of_ofString`, `Document.failure_of_ofString`,
`balanced_building`.
-/
import RichText.Proofs.Balance

namespace RichText

open Markup Text

namespace Builder

/-! ### Ends of texts -/

/-- A result that is not the error at the end of an unfinished text. -/
def Finishes {α : Type} (x : Except DocumentError α) : Prop :=
  ∀ name, x ≠ .error (.unfinished name)

section Finishes

variable {α β : Type}

theorem finishes_ok (a : α) : Finishes (.ok a : Except DocumentError α) := nofun

theorem finishes_malformed (p : Position) (fault : Misplaced) :
    Finishes (malformed p fault : Except DocumentError α) := by
  rintro name ⟨⟩

theorem Finishes.bind {x : Except DocumentError α} {f : α → Except DocumentError β}
    (hx : Finishes x) (hf : ∀ a, Finishes (f a)) : Finishes (x >>= f) := by
  cases x with
  | ok a => exact hf a
  | error e =>
    rintro name h
    exact hx name (congrArg Except.error (Except.error.inj h))

theorem Finishes.map {x : Except DocumentError α} (hx : Finishes x) (f : α → β) :
    Finishes (x.map f) := by
  cases x with
  | ok a => exact finishes_ok _
  | error e =>
    rintro name h
    exact hx name (congrArg Except.error (Except.error.inj h))

theorem Finishes.ite {c : Prop} [Decidable c] {x y : Except DocumentError α} (hx : Finishes x)
    (hy : Finishes y) : Finishes (if c then x else y) := by
  split
  · exact hx
  · exact hy

end Finishes

theorem finishes_register (b : Builder) (i : Nat) : Finishes (b.register i) := by
  refine Finishes.map ?_ _
  unfold Document.register
  split
  · exact finishes_ok _
  · split
    · rintro name ⟨⟩
    · exact finishes_ok _

theorem finishes_flush (b : Builder) : Finishes b.flush :=
  (finishes_ok _).ite ((finishes_register _ _).map _)

theorem finishes_integer (p : Position) (attributes : Attributes) (name : String) (default : Int) :
    Finishes (integer p attributes name default) := by
  unfold integer
  split
  · exact finishes_ok _
  · split
    · exact finishes_ok _
    · exact finishes_malformed _ _

theorem finishes_opened (b : Builder) (p : Position) (name : String) (attributes : Attributes) :
    Finishes (b.opened p name attributes) := by
  have content : Finishes (b.openContent p name attributes) := by
    refine (finishes_ok _).ite ((finishes_flush b).bind fun flushed => ?_)
    dsimp only
    split
    · exact finishes_ok _
    · split
      · exact (finishes_integer _ _ _ _).bind fun _ => finishes_ok _
      · exact (finishes_integer _ _ _ _).bind fun _ =>
          (finishes_integer _ _ _ _).bind fun _ => finishes_ok _
      · split
        · exact (finishes_register _ _).bind fun _ => finishes_ok _
        · exact finishes_ok _
  have root : Finishes (b.openInRoot name attributes) := by
    unfold openInRoot
    split
    · exact finishes_ok _
    · exact (finishes_register _ _).bind fun _ => finishes_ok _
    · exact finishes_ok _
  have table (draft : TableDraft) (depth : Nat) :
      Finishes (b.openInTable p draft depth name attributes) := by
    unfold openInTable
    dsimp only
    split
    · exact (finishes_integer _ _ _ _).bind fun _ =>
        (finishes_malformed _ _).ite (finishes_ok _)
    · exact (finishes_integer _ _ _ _).bind fun _ =>
        (finishes_malformed _ _).ite (finishes_ok _)
    · exact finishes_ok _
    · exact finishes_ok _
  unfold opened
  split
  · refine (finishes_ok _).ite ?_
    rintro name ⟨⟩
  · exact finishes_malformed _ _
  · exact root
  · exact finishes_ok _
  · exact finishes_ok _
  · exact finishes_ok _
  · exact content
  · exact content
  · exact finishes_ok _
  · exact table _ _

theorem finishes_settle (b : Builder) (element : Nat) (role : Role) :
    Finishes (b.settle element role) := by
  cases role with
  | body => exact finishes_ok _
  | child => exact finishes_register _ _
  | item list => exact (finishes_register _ _).map _
  | cell columns => exact (finishes_register _ _).map _

theorem finishes_closed (b : Builder) (p : Position) (name : String) :
    Finishes (b.closed p name) := by
  unfold closed
  split
  · exact finishes_malformed _ _
  · exact finishes_malformed _ _
  · exact finishes_ok _
  · exact finishes_ok _
  · exact finishes_ok _
  · exact finishes_ok _
  · exact finishes_ok _
  · exact finishes_ok _
  · exact finishes_ok _
  · exact (finishes_flush b).map _
  · exact (finishes_flush b).bind fun _ => finishes_settle _ _ _
  · exact finishes_register _ _
  · exact finishes_ok _
  · exact finishes_register _ _
  · exact finishes_ok _

theorem finishes_textRead (b : Builder) (p : Position) (s : String) :
    Finishes (b.textRead p s) := by
  unfold textRead
  split
  · exact (finishes_ok _).ite (finishes_malformed _ _)
  · exact (finishes_ok _).ite (finishes_malformed _ _)
  · exact finishes_ok _
  · exact finishes_ok _
  · exact finishes_ok _
  · exact finishes_ok _

theorem finishes_run : ∀ (events : List (Position × Event)) (b : Builder), Finishes (b.run events)
  | [], _ => finishes_ok _
  | (p, event) :: events, b => by
    unfold run
    rw [List.foldlM_cons]
    refine Finishes.bind ?_ fun b₁ => finishes_run events b₁
    cases event with
    | opened name attributes => exact finishes_opened b p name attributes
    | closed name => exact finishes_closed b p name
    | text s => exact finishes_textRead b p s

end Builder

/-! ### The building of a text -/

namespace EventStream

/-- The events of a text, up to any of them, are nested. -/
theorem exists_openAfter_of_prefix {source : String} {front : List (Position × Event)}
    (h : front <+: (ofString source).items) : ∃ inside, openAfter [] front = some inside := by
  obtain ⟨inside, hopen, -⟩ := openAfter_items (Tokenizer.ofString source).stream.failure []
    (Tokenizer.ofString source).stream.items
  obtain ⟨back, hback⟩ := h
  have hwhole : openAfter [] (front ++ back) = some inside := hback ▸ hopen
  obtain ⟨between, hfront, -⟩ := exists_openAfter_of_append hwhole
  exact ⟨between, hfront⟩

/-- The elements open behind events of a text were all opened by them. -/
theorem exists_unclosed_of_prefix {source : String} {front : List (Position × Event)}
    (h : front <+: (ofString source).items) : ∃ names, Unclosed names front := by
  obtain ⟨inside, hopen⟩ := exists_openAfter_of_prefix h
  rcases closes_or_unclosed front hopen with ⟨_, _, _, _, _, hnil, _⟩ | ⟨names, hnames, -⟩
  · nomatch hnil
  · exact ⟨names, hnames⟩

end EventStream

namespace Builder

variable {b b' : Builder} {number : Nat} {registry : Registry} {source : String}

theorem stacked_start : (start number registry).Stacked := rfl

/-- Behind the root nothing but blanks is read. -/
theorem run_epilog : ∀ (f : Forest) {b b' : Builder}, b.frame = .epilog →
    b.run f.events = .ok b' → b' = b
  | .nil, _, _, _, h => (Except.ok.inj h).symm
  | .text p s rest, b, b', hframe, h => by
    obtain ⟨b₁, htext, hrest⟩ := run_text h
    cases gathers hframe htext
    exact run_epilog rest hframe hrest
  | .element p name attributes inside q rest, b, b', hframe, h => by
    obtain ⟨b₁, _, _, hopen, -⟩ := run_element h
    cases begins hframe hopen

/-- The builder at the first event in the root. -/
def inRoot (number : Nat) (registry : Registry) : Builder :=
  enter { start number registry with frame := .epilog } .root

/-- All that gets into a document is in the root. -/
theorem run_root : ∀ (f : Forest), (start number registry).run f.events = .ok b →
    b.frame = .epilog →
    ∃ b₁, (inRoot number registry).run f.root.events = .ok b₁ ∧ b.document = b₁.document
  | .nil, h, hframe => by
    obtain rfl := Except.ok.inj h
    nomatch hframe
  | .text p s rest, h, hframe => by
    obtain ⟨b₁, htext, hrest⟩ := run_text h
    cases gathers (f := .prolog) rfl htext
    exact run_root rest hrest hframe
  | .element p name attributes inside q rest, h, hframe => by
    obtain ⟨b₁, b₂, b₃, hopen, hinside, hclose, hrest⟩ := run_element h
    cases begins (f := .prolog) rfl hopen
    have hlevel := level_run inside hinside
    have hroot : b₂.frame = .root := hlevel.frame.cases
    cases closes hroot hclose
    rw [leave_eq hlevel.outer] at hrest
    obtain rfl := run_epilog rest rfl hrest
    exact ⟨b₂, hinside, rfl⟩

/-- At the end of a text that ends well no element is open. -/
theorem level_start (hend : (EventStream.ofString source).failure = none)
    (hrun : (start number registry).run (EventStream.ofString source).items = .ok b) :
    Level (start number registry) b := by
  obtain ⟨f, hf⟩ := EventStream.exists_forest hend
  rw [hf] at hrun
  exact level_run f hrun

end Builder

namespace Document

variable {number : Nat} {registry : Registry} {source : String}

/-- A text that makes a document has been read as a whole. -/
theorem exists_of_ofString {d : Document} (h : ofString number registry source = .ok d) :
    ∃ b, (Builder.start number registry).run (EventStream.ofString source).items = .ok b ∧
      (EventStream.ofString source).failure = none ∧ b.frame = .epilog ∧ b.document = d := by
  unfold ofString ofEvents at h
  cases hrun : (EventStream.ofString source).items.foldlM Builder.step
      (Builder.start number registry) with
  | error e => simp [hrun, bind, Except.bind] at h
  | ok b =>
    simp only [hrun, bind, Except.bind] at h
    cases hend : (EventStream.ofString source).failure with
    | some e => simp [hend] at h
    | none =>
      simp only [hend] at h
      unfold Builder.finish at h
      split at h
      · nomatch h
      · next hframe => exact ⟨b, hrun, rfl, hframe, Except.ok.inj h⟩
      · nomatch h

/-- A build ends within an element only if the text does. -/
theorem failure_of_ofString {name : String}
    (h : ofString number registry source = .error (.unfinished name)) :
    (EventStream.ofString source).failure = some (.unfinished name) := by
  unfold ofString ofEvents at h
  cases hrun : (EventStream.ofString source).items.foldlM Builder.step
      (Builder.start number registry) with
  | error e =>
    simp only [hrun, bind, Except.bind, Except.error.injEq] at h
    exact absurd (h ▸ hrun) (Builder.finishes_run _ _ name)
  | ok b =>
    simp only [hrun, bind, Except.bind] at h
    cases hend : (EventStream.ofString source).failure with
    | some e =>
      simp only [hend, Except.error.injEq] at h
      exact congrArg some h
    | none =>
      have hframe := (Builder.level_start hend hrun).frame.cases
      have hprolog : b.frame = .prolog ∨ b.frame = .epilog := hframe
      simp only [hend, Builder.finish] at h
      rcases hprolog with hframe | hframe <;> simp [hframe] at h

end Document

/-- Reading a text into a document consumes balanced markup. The events are
nested at every moment (1), and none is left out (2). Every part of the builder
that reads an element takes what is in this element and its end; the frames and
the container are then what they were, and so are the nodes, but for the one that
it closes, and with it the start tag has changed none (3). Every node that is to be
closed has one below (4), so at the end only the node of the root is open (5). A
text is unfinished only inside the element that the error names (6). -/
theorem balanced_building (number : Nat) (registry : Registry) (source : String) :
    ((∀ front, front <+: (EventStream.ofString source).items →
        ∃ inside, openAfter [] front = some inside) ∧
      ((EventStream.ofString source).failure = none →
        openAfter [] (EventStream.ofString source).items = some [])) ∧
    ((EventStream.ofString source).items <+:
        (Tokenizer.ofString source).stream.items.flatMap EventStream.expand ∧
      ((EventStream.ofString source).failure = none → (EventStream.ofString source).items =
        (Tokenizer.ofString source).stream.items.flatMap EventStream.expand)) ∧
    (∀ before p name attributes after b b₁,
      (EventStream.ofString source).items = before ++ (p, .opened name attributes) :: after →
      (Builder.start number registry).run before = .ok b →
      b.opened p name attributes = .ok b₁ → b.outer.length < b₁.outer.length →
      ∃ r b₀, Builder.Readies r b b₀ ∧ b₁ = r.enter b₀ ∧
        ∀ used rest b', after = used ++ rest → Builder.Returns b₁ used b' →
          Builder.Reads r b₀ name used b' ∧ Builder.Level b b') ∧
    (∀ before b, before <+: (EventStream.ofString source).items →
      (Builder.start number registry).run before = .ok b →
      (∀ k < b.frame.pops, (StyleStack.pop^[k] b.styles).below ≠ []) ∧
        ∀ p name b', b.closed p name = .ok b' →
          b'.styles = StyleStack.pop^[b.frame.pops] b.styles) ∧
    (∀ d, Document.ofString number registry source = .ok d → ∃ b,
      (Builder.start number registry).run (EventStream.ofString source).items = .ok b ∧
        b.document = d ∧ b.styles = ⟨0, []⟩ ∧ b.container = none) ∧
    (∀ name, Document.ofString number registry source = .error (.unfinished name) →
      (EventStream.ofString source).failure = some (.unfinished name) ∧
        ∃ outer, openAfter [] (EventStream.ofString source).items = some (name :: outer)) := by
  have hitems := EventStream.openAfter_items (Tokenizer.ofString source).stream.failure []
    (Tokenizer.ofString source).stream.items
  refine ⟨⟨fun front hfront => EventStream.exists_openAfter_of_prefix hfront, ?_⟩,
    EventStream.items_prefix_expand _ _ _, ?_, ?_, ?_, ?_⟩
  · intro hend
    obtain ⟨inside, hopen, hnil, -⟩ := hitems
    obtain rfl := hnil hend
    exact hopen
  · intro before p name attributes after b b₁ hsplit hrun hopen hdeeper
    cases Builder.opens hopen with
    | deeper _ _ houter => simp [houter] at hdeeper
    | enters r b₀ hready =>
      refine ⟨r, b₀, hready, rfl, fun used rest b' hafter hreturns => ?_⟩
      subst hafter
      -- The element is the innermost one behind its start tag.
      have hbehind : before ++ (p, .opened name attributes) :: used <+:
          (EventStream.ofString source).items := ⟨rest, by simp [hsplit]⟩
      obtain ⟨inside, hinside⟩ := EventStream.exists_openAfter_of_prefix hbehind
      rw [openAfter_append] at hinside
      obtain ⟨outer, -, hused⟩ := Option.bind_eq_some_iff.1 hinside
      have hreads : Builder.Reads r b₀ name used b' := Builder.reads_of_returns hused hreturns
      refine ⟨hreads, ?_⟩
      cases hreads with
      | whole content q hcontent hclose returned => exact hready.level returned
  · intro before b hbefore hrun
    obtain ⟨names, hnames⟩ := EventStream.exists_unclosed_of_prefix hbefore
    have hstacked := Builder.stacked_of_unclosed hnames hrun Builder.stacked_start
    exact ⟨fun k hk => hstacked.below_ne_nil hk, fun p name b' hclose =>
      Builder.styles_closed hclose⟩
  · intro d hd
    obtain ⟨b, hrun, hend, -, hdocument⟩ := Document.exists_of_ofString hd
    have hlevel := Builder.level_start hend hrun
    exact ⟨b, hrun, hdocument, hlevel.styles, hlevel.container⟩
  · intro name hd
    have hfailure := Document.failure_of_ofString hd
    obtain ⟨inside, hopen, -, hname⟩ := hitems
    obtain ⟨outer, rfl⟩ := List.head?_eq_some_iff.1 (hname name hfailure)
    exact ⟨hfailure, outer, hopen⟩

theorem EventStream.ofString_body : EventStream.ofString "<html><body>a</body></html>" =
    ⟨[(⟨1, 1⟩, .opened "html" []), (⟨1, 7⟩, .opened "body" []), (⟨1, 13⟩, .text "a"),
      (⟨1, 14⟩, .closed "body"), (⟨1, 21⟩, .closed "html")], none⟩ := by
  decide +kernel

theorem balanced_building_body : ∃ b b₁ b',
    (Builder.start 0 .standard).run [(⟨1, 1⟩, .opened "html" [])] = .ok b ∧
      b.opened ⟨1, 7⟩ "body" [] = .ok b₁ ∧
      Builder.Returns b₁ [(⟨1, 13⟩, .text "a"), (⟨1, 14⟩, .closed "body")] b' ∧
      ∃ r b₀, b₁ = r.enter b₀ ∧
        Builder.Reads r b₀ "body" [(⟨1, 13⟩, .text "a"), (⟨1, 14⟩, .closed "body")] b' := by
  obtain ⟨b, hb, b₁, hopen, hdeeper, b₂, htext, houter, b', hclose, hleft⟩ : ∃ b,
      (Builder.start 0 .standard).run [(⟨1, 1⟩, .opened "html" [])] = .ok b ∧
      ∃ b₁, b.opened ⟨1, 7⟩ "body" [] = .ok b₁ ∧ b.outer.length < b₁.outer.length ∧
      ∃ b₂, b₁.textRead ⟨1, 13⟩ "a" = .ok b₂ ∧ b₂.outer = b₁.outer ∧
      ∃ b', b₂.closed ⟨1, 14⟩ "body" = .ok b' ∧ b'.outer.length < b₁.outer.length :=
    ⟨_, rfl, _, rfl, by decide, _, rfl, rfl, _, rfl, by decide⟩
  have hreturns : Builder.Returns b₁ [(⟨1, 13⟩, .text "a"), (⟨1, 14⟩, .closed "body")] b' := by
    refine ⟨Builder.run_cons_ok.2 ⟨b₂, htext, Builder.run_cons_ok.2 ⟨b', hclose, rfl⟩⟩, ?_, hleft⟩
    rintro (_ | ⟨_, _ | ⟨_, front⟩⟩) back c h hback hrun
    · obtain rfl := Except.ok.inj hrun
      exact Nat.le_refl _
    · obtain ⟨rfl, -⟩ := List.cons.inj h
      obtain ⟨c₁, hc₁, hrun⟩ := Builder.run_cons_ok.1 hrun
      obtain rfl := Except.ok.inj hrun
      obtain rfl := Except.ok.inj (hc₁.symm.trans htext)
      exact houter ▸ Nat.le_refl _
    · simp_all
  have hitems : (EventStream.ofString "<html><body>a</body></html>").items =
      [(⟨1, 1⟩, .opened "html" [])] ++ (⟨1, 7⟩, .opened "body" []) ::
        ([(⟨1, 13⟩, .text "a"), (⟨1, 14⟩, .closed "body")] ++ [(⟨1, 21⟩, .closed "html")]) := by
    rw [EventStream.ofString_body]
    rfl
  obtain ⟨r, b₀, -, hb₁, hreads⟩ :=
    (balanced_building 0 .standard "<html><body>a</body></html>").2.2.1 _ _ _ _ _ b b₁ hitems hb
      hopen hdeeper
  exact ⟨b, b₁, b', hb, hopen, hreturns, r, b₀, hb₁, (hreads _ _ b' rfl hreturns).1⟩

theorem EventStream.ofString_document : EventStream.ofString "<html><document>" =
    ⟨[(⟨1, 1⟩, .opened "html" []), (⟨1, 7⟩, .opened "document" [])],
      some (.unfinished "document")⟩ := by
  decide +kernel

/-- An element may be called as the error calls the whole text. -/
theorem unfinished_document :
    Document.ofString 0 .standard "<html><document>" = .error (.unfinished "document") := by
  unfold Document.ofString
  rw [EventStream.ofString_document]
  rfl

end RichText
