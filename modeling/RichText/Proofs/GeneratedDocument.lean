/-
# Generated documents

Every generated document is built, however many sections it has. It is the text of a
page (`documentText_eq`) in which names are plain and texts have nothing to escape, so
its tokens are those of the page (`tokenize_documentText`). Its content is mild, and the
ids of its sections differ like the numbers that they are written for
(`nodup_ids_sections`), so nothing is refused. Each section adds fifteen elements
(`count_section`), and without tables no element is lost on a traversal
(`Document.perm_traverse_of_run`).

Key definitions: `sectionForest`, `sections`, `documentForest`.
Key theorems: `written_section`, `tokenize_documentText`, `exists_documentText`,
`generated_inputs_valid`.
-/
import RichText.Bench.Fixture
import RichText.Proofs.Acceptance
import RichText.Proofs.GeneratedSheet
import RichText.Proofs.TokenComposition
import RichText.Proofs.Traversal
import RichText.Proofs.WrittenForests

namespace RichText

open Markup Text

/-! ### Documents without tables -/

theorem Forest.Mild.tables_eq_nil {region : Region} {f : Forest} (h : f.Mild region) :
    ∀ next : Nat, f.tables region next = [] := by
  induction h with
  | nil => exact fun _ => rfl
  | text _ ih => exact ih
  | container hk _ _ ihi ihr =>
    obtain ⟨-, htable, hwithin⟩ := inside_of_containerKind? hk
    simp [tables, hwithin, htable, ihi, ihr]
  | mark hn _ _ _ _ _ ihi ihr =>
    simp [tables, Region.inside_content hn.1 hn.2.1 hn.2.2, hn.2.2, ihi, ihr]
  | list _ _ _ ihi ihr | item _ _ ihi ihr => simp [tables, Region.inside, ihi, ihr]

/-- Without tables a traversal visits every element once. -/
theorem Document.perm_traverse_of_run {number : Nat} {registry : Registry} {f : Forest} {b : Builder}
    (hrun : (Builder.start number registry).run f.events = .ok b) (hframe : b.frame = .epilog)
    (hnone : tablesOf f = []) :
    (b.document.traverse.map (·.1)).Perm (List.range b.document.size) := by
  obtain ⟨hrises, drafts, hlaid, honce⟩ := once_of_run hrun hframe
  rw [hnone] at hlaid
  obtain rfl := List.forall₂_nil_right_iff.1 hlaid
  have hperm := honce.perm_traverse hrises
  rwa [List.flatMap_nil, reachAll, List.flatMap_nil, List.append_nil] at hperm

namespace Bench

/-! ### Sections -/

/-- A section in front of others. -/
def sectionForest (i : Nat) (rest : Forest) : Forest :=
  let number := decimal i
  .element .start "div" [("class", "section" ++ decimal (i % 10)), ("id", "s" ++ number)]
    (.element .start "h2" [] (.text .start ("Section " ++ number) .nil) .start <|
      .element .start "p" []
        (.text .start "Paragraph " <|
          .element .start "b" [] (.text .start number .nil) .start <|
          .text .start " with " <|
          .element .start "a" [("href", "#s" ++ number)] (.text .start "a link" .nil) .start <|
          .text .start "." .nil) .start <|
      .element .start "ol" []
        (.element .start "li" [] (.text .start "first" .nil) .start <|
          .element .start "li" [] (.text .start "second" .nil) .start .nil) .start .nil)
    .start rest

/-- The content of a document with sections of these numbers. -/
def sections (numbers : List Nat) : Forest := numbers.foldr sectionForest .nil

/-! ### What is in a section -/

theorem not_allBlank {s : List Char} {c : Char} (hc : c ∈ s) (h : isBlank c = false) :
    allBlank s = false := by
  rw [allBlank, Bool.eq_false_iff]
  intro hall
  rw [List.all_eq_true.1 hall c hc] at h
  exact absurd h (by decide)

theorem allBlank_decimal (i : Nat) : allBlank (decimal i).toList = false := by
  rw [decimal, String.toList_ofList]
  cases hs : Number.decimal i with
  | nil => exact absurd hs (Number.decimal_ne_nil i)
  | cons c s =>
    have hblank := Number.forall_mem_decimal (P := fun c => isBlank c = false) (by decide) i
    rw [hs] at hblank
    exact not_allBlank List.mem_cons_self (hblank c List.mem_cons_self)

/-- A section has seven elements with parts and eight texts; the mark around its number
is no element. -/
theorem count_section (i : Nat) (rest : Forest) : (sectionForest i rest).count .content "" =
    (15 + (rest.count .content "").1, (rest.count .content "").2) := by
  have hkept {s : String} (h : allBlank s.toList = false) : keptCount s = 1 := by
    rw [keptCount, if_neg (by simp [h])]
  have hsection : keptCount ("Section " ++ decimal i) = 1 :=
    hkept (not_allBlank (c := 'S') (by simp) (by decide))
  have hdiv (attributes : Attributes) : madeCount .content "div" attributes = 1 := rfl
  have hlink (s : String) : madeCount .content "a" [("href", s)] = 1 := rfl
  have hblock : madeCount .content "h2" [] = 1 ∧ madeCount .content "p" [] = 1 ∧
    madeCount .content "b" [] = 0 ∧ madeCount .content "ol" [] = 1 ∧ madeCount .list "li" [] = 1 :=
    ⟨rfl, rfl, rfl, rfl, rfl⟩
  have htext : keptCount "Paragraph " = 1 ∧ keptCount " with " = 1 ∧ keptCount "a link" = 1 ∧
    keptCount "." = 1 ∧ keptCount "first" = 1 ∧ keptCount "second" = 1 := by
    decide
  simp [sectionForest, Forest.count, Region.inside, keptCount_empty, hsection,
    hkept (allBlank_decimal i), hdiv, hlink, hblock, htext]

theorem count_sections (numbers : List Nat) :
    (sections numbers).count .content "" = (15 * numbers.length, "") := by
  induction numbers with
  | nil => rfl
  | cons i numbers ih =>
    rw [sections, List.foldr_cons, count_section]
    rw [sections] at ih
    rw [ih, List.length_cons, Nat.mul_succ, Nat.add_comm]

/-- Only the section itself has an id. -/
theorem mild_section (i : Nat) {rest : Forest} (h : rest.Mild .content) :
    (sectionForest i rest).Mild .content :=
  .container rfl
    (.container rfl (.text .nil) <|
      .container rfl
        (.text <|
          .mark (by decide) rfl rfl rfl (.text .nil) <|
          .text <|
          .container rfl (.text .nil) <|
          .text .nil) <|
      .list rfl (.item (.text .nil) <| .item (.text .nil) .nil) .nil) h

theorem mild_sections (numbers : List Nat) : (sections numbers).Mild .content := by
  induction numbers with
  | nil => exact .nil
  | cons i numbers ih => exact mild_section i ih

theorem ids_sections (numbers : List Nat) :
    (sections numbers).ids = numbers.map ("s" ++ decimal ·) := by
  induction numbers with
  | nil => rfl
  | cons i numbers ih =>
    rw [List.map_cons, ← ih]
    rfl

/-! ### Their text -/

/-- What has no bracket, ampersand or quote is written as it is. -/
theorem escape_eq_toList (quoted : Bool) {s : String}
    (h : ∀ c ∈ s.toList, c ≠ '&' ∧ c ≠ '<' ∧ c ≠ '"') : Markup.escape quoted s = s.toList := by
  have hone : ∀ c ∈ s.toList, escapeChar quoted c = [c] := fun c hc => by simp [escapeChar, h c hc]
  rw [Markup.escape, List.flatMap_congr hone, List.flatMap_singleton']

theorem escape_numbered (quoted : Bool) {s : String} (i : Nat)
    (h : ∀ c ∈ s.toList, c ≠ '&' ∧ c ≠ '<' ∧ c ≠ '"') :
    Markup.escape quoted (s ++ decimal i) = s.toList ++ (decimal i).toList := by
  rw [escape_eq_toList, String.toList_append]
  rw [String.toList_append, decimal, String.toList_ofList]
  exact List.forall_mem_append.2 ⟨h, Number.forall_mem_decimal (by decide) i⟩

/-- What is generated for a section is the text of its forest. -/
theorem written_section (i : Nat) (rest : Forest) :
    (sectionForest i rest).written = (sectionText i).toList ++ rest.written := by
  have hclass := escape_numbered true (s := "section") (i % 10) (by simp)
  have hid := escape_numbered true (s := "s") i (by simp)
  have hhref := escape_numbered true (s := "#s") i (by simp)
  have hheading := escape_numbered false (s := "Section ") i (by simp)
  have hnumber : Markup.escape false (decimal i) = (decimal i).toList := by
    simpa using escape_numbered false (s := "") i (by simp)
  have htext : Markup.escape false "Paragraph " = "Paragraph ".toList ∧
      Markup.escape false " with " = " with ".toList ∧ Markup.escape false "a link" = "a link".toList ∧
        Markup.escape false "." = ".".toList ∧ Markup.escape false "first" = "first".toList ∧
          Markup.escape false "second" = "second".toList := by
    refine ⟨?_, ?_, ?_, ?_, ?_, ?_⟩ <;> exact escape_eq_toList false (by simp)
  simp only [sectionForest, Forest.written_element, Forest.written_text, Forest.written_nil,
    List.flatMap_cons, List.flatMap_nil, writtenAttribute, hclass, hid, hhref, hheading, hnumber, htext]
  unfold sectionText
  generalize decimal i = number, decimal (i % 10) = part, rest.written = more
  simp

theorem written_sections (numbers : List Nat) :
    (sections numbers).written = (String.join (numbers.map sectionText)).toList := by
  induction numbers with
  | nil => simp [sections, Forest.written_nil]
  | cons i numbers ih =>
    rw [List.map_cons, String.join_cons, String.toList_append, ← ih]
    exact written_section i (sections numbers)

theorem writable_section (i : Nat) {rest : Forest} (h : rest.Writable) :
    (sectionForest i rest).Writable := by
  have hdecimal : decimal i ≠ "" := by
    rw [decimal, Ne, String.ofList_eq_empty_iff]
    exact Number.decimal_ne_nil i
  have hclass : IsPlainName "class" := isPlainName_of_all rfl (by decide +kernel)
  have hid : IsPlainName "id" := isPlainName_of_all rfl (by decide +kernel)
  have hhref : IsPlainName "href" := isPlainName_of_all rfl (by decide +kernel)
  have hnames : IsPlainName "div" ∧ IsPlainName "h2" ∧ IsPlainName "p" ∧ IsPlainName "b" ∧
      IsPlainName "a" ∧ IsPlainName "ol" ∧ IsPlainName "li" := by
    refine ⟨?_, ?_, ?_, ?_, ?_, ?_, ?_⟩ <;> exact isPlainName_of_all rfl (by decide +kernel)
  simp [sectionForest, Forest.Writable, Forest.BeginsWithText, Token.Writable, hclass, hid, hhref,
    hnames, h, hdecimal]

theorem writable_sections (numbers : List Nat) : (sections numbers).Writable := by
  induction numbers with
  | nil => trivial
  | cons i numbers ih => exact writable_section i ih

/-- The forest of a generated document. -/
def documentForest (n : Nat) : Forest := Forest.page "Bench" (sections (List.range n))

theorem documentText_eq (n : Nat) :
    documentText n = "<?xml version=\"1.0\"?>" ++ String.ofList (documentForest n).written := by
  have htitle : Markup.escape false "Bench" = "Bench".toList := escape_eq_toList false (by simp)
  refine String.toList_injective ?_
  rw [documentForest, Forest.page, String.toList_append, String.toList_ofList]
  simp only [Forest.written_element, Forest.written_text, Forest.written_nil, List.flatMap_nil, htitle,
    written_sections]
  unfold documentText
  generalize String.join ((List.range n).map sectionText) = content
  simp

/-- The declaration in front of the document is no token. -/
theorem tokenize_documentText (n : Nat) :
    tokenize (documentText n) = .ok (documentForest n).tokens := by
  have hdeclaration : tokenize "<?xml version=\"1.0\"?>" = .ok [] := by decide +kernel
  have hend : ¬EndsInText "<?xml version=\"1.0\"?>" := by decide +kernel
  have hwritable : (documentForest n).Writable := by
    have hnames : IsPlainName "html" ∧ IsPlainName "head" ∧ IsPlainName "title" ∧
        IsPlainName "body" := by
      refine ⟨?_, ?_, ?_, ?_⟩ <;> exact isPlainName_of_all rfl (by decide +kernel)
    simp [documentForest, Forest.page, Forest.Writable, Forest.BeginsWithText, Token.Writable, hnames,
      writable_sections]
  rw [documentText_eq]
  exact (tokens_ofString_append hdeclaration fun h => absurd h hend).1 _ hwritable.tokenize

/-! ### What is made of it -/

theorem mem_ids_sections (n : Nat) (x : String) :
    x ∈ (sections (List.range n)).ids ↔ ∃ i < n, x = "s" ++ toString i := by
  have hdecimal (i : Nat) : decimal i = toString i := Nat.toString_eq_ofList_toDigits.symm
  simp [ids_sections, hdecimal, eq_comm]

theorem nodup_ids_sections (n : Nat) : (sections (List.range n)).ids.Nodup := by
  rw [ids_sections]
  refine List.nodup_range.map fun i j h => Number.decimal_injective ?_
  simpa [decimal] using congrArg String.toList h

theorem exists_documentText (number : Nat) (registry : Registry) (n : Nat) :
    ∃ d, Document.ofString number registry (documentText n) = .ok d ∧ d.size = 1 + 15 * n ∧
      d.title = some "Bench" ∧ d.links = [] ∧
      (∀ x, (d.elementById? x).isSome ↔ ∃ i < n, x = "s" ++ toString i) ∧
      (d.traverse.map (·.1)).Perm (List.range d.size) := by
  have hmild := mild_sections (List.range n)
  obtain ⟨b, hrun, hframe, htitle, hlinks, hnames, hsize⟩ :=
    Builder.exists_page number registry "Bench" hmild (nodup_ids_sections n)
  have htables : Document.tablesOf (documentForest n) = [] := by
    simp [Document.tablesOf, documentForest, Forest.page, Forest.root, Forest.tables, Region.inside,
      hmild.tables_eq_nil]
  refine ⟨b.document, Document.ofString_of_run (tokenize_documentText n) hrun hframe, ?_, ?_, hlinks,
    fun x => ?_, Document.perm_traverse_of_run hrun hframe htables⟩
  · rw [hsize, count_sections, List.length_range]
    exact congrArg (1 + 15 * n + ·) keptCount_empty
  · rw [htitle]
    decide
  · rw [← mem_ids_sections, Option.isSome_iff_ne_none, Ne, Document.elementById?_eq_none_iff, hnames,
      List.count_eq_zero, not_not]

/-- **Generated inputs are valid, whatever their size.** A stylesheet is read without a
diagnostic, one rule for each that was asked for. A document is built with all its
sections, each of them with its number as an id, and a fixture lists every element of its
document once. -/
theorem generated_inputs_valid :
    (∀ (registry : Registry) (n : Nat),
      ((StyleSheet.new registry).parseString (sheetText n)).1 = .ok [] ∧
        ((StyleSheet.new registry).parseString (sheetText n)).2.rules.length = n + 1) ∧
    (∀ (number : Nat) (registry : Registry) (n : Nat),
      ∃ d, Document.ofString number registry (documentText n) = .ok d ∧ d.size = 1 + 15 * n ∧
        d.title = some "Bench" ∧ d.links = [] ∧
        ∀ s, (d.elementById? s).isSome ↔ ∃ i < n, s = "s" ++ toString i) ∧
    ∀ sections rules : Nat, ∃ f, Fixture.generate sections rules = .ok f ∧
      f.sheet = ((StyleSheet.new .standard).parseString (sheetText rules)).2 ∧
      Document.ofString 0 .standard (documentText sections) = .ok f.document ∧
      f.elements.Perm (List.range f.document.size) := by
  refine ⟨fun registry n => ?_, fun number registry n => ?_, fun sections rules => ?_⟩
  · obtain ⟨hreported, hcount⟩ := (StyleSheet.new registry).parseString_sheetText n
    exact ⟨hreported, hcount.trans (Nat.add_comm 1 n)⟩
  · obtain ⟨d, hd, hsize, htitle, hlinks, hids, -⟩ := exists_documentText number registry n
    exact ⟨d, hd, hsize, htitle, hlinks, hids⟩
  · obtain ⟨d, hd, -, -, -, -, hperm⟩ := exists_documentText 0 .standard sections
    obtain ⟨hreported, -⟩ := (StyleSheet.new .standard).parseString_sheetText rules
    refine ⟨⟨_, d, d.traverse.map (·.1)⟩, ?_, rfl, hd, hperm⟩
    cases hsheet : (StyleSheet.new .standard).parseString (sheetText rules) with
    | mk reported sheet =>
      rw [hsheet] at hreported
      cases hreported
      simp only [Fixture.generate, hsheet, hd]

end Bench

end RichText
