/-
# Every id leads to its element

Elements are registered under the ids in their keys, most of them not when they are
made: a container and a list with numbers are registered at their ends, a table is
made at its end and registered at once. Until then the frames that are open keep
them (`Builder.pending`). At every moment the index holds one entry for each element
that has an id and is not pending (`Builder.Indexed`), and no id twice; each
operation of the builder keeps it so, and at the end nothing is pending.

Key definitions: `Document.idOf?`, `Document.Indexes`, `Frame.pending`,
`Builder.Indexed`.
Key theorems: `Document.Indexes.register`, `Builder.indexed_step`,
`Builder.indexed_run`, `Document.elementById?_exact`.
-/
import RichText.Proofs.TreeGrowth
import RichText.Proofs.WholeText

namespace RichText

open Markup Text

namespace Document

variable {d d' d'' : Document} {i : Nat} {x : String} {waiting : List Nat}

/-! ### Entries -/

/-- The id in the key of an element's node. -/
def idOf? (d : Document) (i : Nat) : Option String := (d.keyOf? i).bind (·.id)

/-- What an element is in the index, if it has an id. -/
def listing? (d : Document) (i : Nat) : Option (String × Nat) := (d.idOf? i).map (·, i)

def entries (d : Document) : List (String × Nat) := (List.range d.size).filterMap d.listing?

theorem idOf?_eq_some_iff : d.idOf? i = some x ↔
    ∃ e key, d.element? i = some e ∧ d.styles.key? e.style = some key ∧ key.id = some x := by
  simp only [idOf?, keyOf?, Option.bind_eq_some_iff]
  constructor
  · rintro ⟨key, ⟨e, he, hkey⟩, hid⟩
    exact ⟨e, key, he, hkey, hid⟩
  · rintro ⟨e, key, he, hkey, hid⟩
    exact ⟨key, ⟨e, he, hkey⟩, hid⟩

theorem lt_size_of_idOf? (h : d.idOf? i = some x) : i < d.size := by
  obtain ⟨e, -, he, -⟩ := idOf?_eq_some_iff.1 h
  exact (Array.getElem?_eq_some_iff.1 he).1

theorem listing?_eq_some_iff {entry : String × Nat} :
    d.listing? i = some entry ↔ d.idOf? i = some entry.1 ∧ i = entry.2 := by
  obtain ⟨y, j⟩ := entry
  simp [listing?]

theorem mem_entries : (x, i) ∈ d.entries ↔ d.idOf? i = some x := by
  simp only [entries, List.mem_filterMap, List.mem_range, listing?_eq_some_iff]
  constructor
  · rintro ⟨j, -, hid, rfl⟩
    exact hid
  · intro hid
    exact ⟨i, lt_size_of_idOf? hid, hid, rfl⟩

/-- The index holds the entries of all elements that do not wait to be registered,
and no id twice. -/
structure Indexes (d : Document) (waiting : List Nat) : Prop where
  styled : ∀ i e, d.element? i = some e → e.style < d.styles.size
  made : ∀ i ∈ waiting, i < d.size
  nodup : (d.ids.map (·.1)).Nodup
  entries : (d.ids ++ waiting.filterMap d.listing?).Perm d.entries

/-- A later state of a document with the same index, and the same elements as far as
the index is concerned. -/
structure Alike (d d' : Document) : Prop where
  ids : d'.ids = d.ids
  size : d'.size = d.size
  style : ∀ i, (d'.element? i).map (·.style) = (d.element? i).map (·.style)
  tree : d.styles.Grows d'.styles

theorem alike_of_eq (hids : d'.ids = d.ids) (helements : d'.elements = d.elements)
    (hstyles : d'.styles = d.styles) : Alike d d' :=
  ⟨hids, by rw [size, helements]; rfl, fun i => by rw [element?, helements]; rfl,
    hstyles ▸ .refl _⟩

theorem alike_pushStyle (d : Document) (parent : Option Nat) (key : Option Key) (raw : Style) :
    Alike d (d.pushStyle parent key raw) :=
  ⟨rfl, rfl, fun _ => rfl, StyleTree.grows_push _ _ _ _⟩

theorem alike_append (d : Document) (parent child : Nat) : Alike d (d.append parent child) := by
  refine ⟨rfl, by simp [size, append], fun i => ?_, .refl _⟩
  rw [element?_append]
  split
  · rw [Option.map_map]
    congr 1
    funext e
    simp only [Function.comp_apply]
    split <;> rfl
  · rfl

theorem Alike.idOf? (h : Alike d d')
    (hd : ∀ i e, d.element? i = some e → e.style < d.styles.size) (i : Nat) :
    d'.idOf? i = d.idOf? i := by
  have hkey (d : Document) : d.keyOf? i = ((d.element? i).map (·.style)).bind d.styles.key? := by
    rw [keyOf?, Option.bind_map]
    rfl
  unfold Document.idOf?
  rw [hkey, hkey, h.style]
  cases he : d.element? i with
  | none => rfl
  | some e =>
    simp only [Option.map_some, Option.bind_some, StyleTree.key?, h.tree.node?_eq _ (hd i e he)]

theorem Indexes.alike (h : Indexes d waiting) (halike : Alike d d') : Indexes d' waiting := by
  have hentry : d'.listing? = d.listing? := by
    funext i
    rw [listing?, listing?, halike.idOf? h.styled]
  refine ⟨fun i e he => ?_, halike.size ▸ h.made, by rw [halike.ids]; exact h.nodup, ?_⟩
  · have hstyle := halike.style i
    rw [he, Option.map_some, eq_comm, Option.map_eq_some_iff] at hstyle
    obtain ⟨e', he', hstyle⟩ := hstyle
    exact hstyle ▸ Nat.lt_of_lt_of_le (h.styled i e' he') halike.tree.size_le
  · rw [halike.ids, hentry, Document.entries, halike.size, hentry]
    exact h.entries

theorem Indexes.perm {waiting' : List Nat} (h : Indexes d waiting) (hp : waiting.Perm waiting') :
    Indexes d waiting' :=
  ⟨h.styled, fun i hi => h.made i (hp.mem_iff.2 hi), h.nodup,
    ((hp.filterMap _).append_left _).symm.trans h.entries⟩

/-- A new element waits. -/
theorem Indexes.push (h : Indexes d waiting) {e : Element} (he : e.style < d.styles.size) :
    Indexes (d.push e) (d.size :: waiting) := by
  have hsize : (d.push e).size = d.size + 1 := by simp [size, Document.push]
  have hold (i : Nat) (hi : i < d.size) : (d.push e).listing? i = d.listing? i := by
    have helement : (d.push e).element? i = d.element? i := by
      rw [element?_push, if_neg (Nat.ne_of_lt hi)]
    rw [listing?, listing?, Document.idOf?, Document.idOf?, keyOf?, keyOf?, helement]
    rfl
  have hwaiting : waiting.filterMap (d.push e).listing? = waiting.filterMap d.listing? :=
    List.filterMap_congr fun i hi => hold i (h.made i hi)
  have hentries : (d.push e).entries = d.entries ++ [d.size].filterMap (d.push e).listing? := by
    rw [Document.entries, hsize, List.range_succ, List.filterMap_append, Document.entries,
      List.filterMap_congr fun i hi => hold i (List.mem_range.1 hi)]
  refine ⟨fun i e' he' => ?_, ?_, h.nodup, ?_⟩
  · rw [element?_push] at he'
    split at he'
    · obtain rfl := Option.some.inj he'
      exact he
    · exact h.styled i e' he'
  · intro i hi
    rw [hsize]
    rcases List.mem_cons.1 hi with rfl | hi
    · exact Nat.lt_succ_self _
    · exact Nat.lt_succ_of_lt (h.made i hi)
  · rw [hentries, ← List.singleton_append, List.filterMap_append, hwaiting]
    exact (List.perm_append_comm.append_left _).trans
      ((List.append_assoc _ _ _ ▸ h.entries.append_right _))

theorem register_cases (d : Document) (i : Nat) :
    (d.idOf? i = none ∧ d.register i = .ok d) ∨
      ∃ x, d.idOf? i = some x ∧ ((d.elementById? x = none ∧
        d.register i = .ok { d with ids := (x, i) :: d.ids }) ∨
          ∃ j, d.elementById? x = some j ∧ d.register i = .error (.duplicateId x)) := by
  unfold register idOf?
  cases hid : (d.keyOf? i).bind (·.id) with
  | none => exact .inl ⟨rfl, rfl⟩
  | some x =>
    refine .inr ⟨x, rfl, ?_⟩
    cases hfound : d.elementById? x with
    | none => exact .inl ⟨rfl, by simp [hfound]⟩
    | some j => exact .inr ⟨j, rfl, by simp [hfound]⟩

/-- An element that is registered waits no more. -/
theorem Indexes.register (h : Indexes d (i :: waiting)) (hr : d.register i = .ok d') :
    Indexes d' waiting := by
  have hmade : ∀ j ∈ waiting, j < d.size := fun j hj => h.made j (List.mem_cons_of_mem _ hj)
  rcases d.register_cases i with ⟨hnone, heq⟩ | ⟨x, hid, ⟨hfresh, heq⟩ | ⟨j, -, heq⟩⟩
  · obtain rfl := Except.ok.inj (heq.symm.trans hr)
    have hentry : d.listing? i = none := by rw [listing?, hnone]; rfl
    have hentries := h.entries
    rw [List.filterMap_cons_none hentry] at hentries
    exact ⟨h.styled, hmade, h.nodup, hentries⟩
  · obtain rfl := Except.ok.inj (heq.symm.trans hr)
    have hentry : d.listing? i = some (x, i) := by rw [listing?, hid]; rfl
    have hentries := h.entries
    rw [List.filterMap_cons_some hentry] at hentries
    refine ⟨h.styled, hmade, ?_, List.perm_middle.symm.trans hentries⟩
    refine List.nodup_cons.2 ⟨fun hmem => ?_, h.nodup⟩
    obtain ⟨⟨y, j⟩, hj, rfl⟩ := List.mem_map.1 hmem
    simpa using List.lookup_eq_none_iff.1 hfresh _ hj
  · cases heq.symm.trans hr

/-- Looking an id up finds the entry that has it. -/
theorem Indexes.elementById?_eq_some_iff (h : Indexes d waiting) :
    d.elementById? x = some i ↔ (x, i) ∈ d.ids := by
  unfold elementById?
  have hnodup := h.nodup
  generalize d.ids = ids at hnodup ⊢
  induction ids with
  | nil => simp
  | cons entry ids ih =>
    obtain ⟨y, j⟩ := entry
    rw [List.map_cons, List.nodup_cons] at hnodup
    rw [List.lookup_cons]
    by_cases hxy : x = y
    · subst hxy
      have hnot : (x, i) ∉ ids := fun hmem => hnodup.1 (List.mem_map.2 ⟨_, hmem, rfl⟩)
      simp [hnot, eq_comm]
    · have hother : (x == y) = false := beq_false_of_ne hxy
      simp only [hother, ih hnodup.2]
      simp [hxy]

end Document

/-! ### What is pending -/

/-- The element that is registered when the frame is left. -/
def Frame.pending : Frame → List Nat
  | .container _ _ .body => []
  | .container element _ _ => [element]
  | .orderedList list _ => [list]
  | _ => []

/-- The node of the table that is made when the frame is left. -/
def Frame.tableNode? : Frame → Option Nat
  | .table draft _ => some draft.style
  | _ => none

namespace Builder

variable {b b' : Builder} {waiting : List Nat} {i : Nat}

/-- The open frames, from the inside out. -/
def frames (b : Builder) : List Frame := b.frame :: b.outer

def pending (b : Builder) : List Nat := b.frames.flatMap Frame.pending

/-- The index is complete, but for the elements that are pending and those in
`waiting`. The nodes that elements can get are in the tree, and nothing is pending in
the outermost frame, which is never left. -/
structure Indexed (b : Builder) (waiting : List Nat) : Prop where
  stack : ∀ n ∈ b.styles.top :: b.styles.below, n < b.document.styles.size
  tables : ∀ f ∈ b.frames, ∀ n ∈ f.tableNode?, n < b.document.styles.size
  outermost : ∀ f ∈ b.frames.getLast?, f.pending = []
  index : b.document.Indexes (waiting ++ b.pending)

/-! ### Operations -/

/-- What a step does to texts and to the container does not count. -/
theorem Indexed.congr (h : Indexed b waiting) (hframes : b'.frames = b.frames)
    (hstyles : b'.styles = b.styles) (htree : b'.document.styles = b.document.styles)
    (halike : b.document.Alike b'.document) : Indexed b' waiting := by
  refine ⟨?_, ?_, ?_, ?_⟩
  · rw [hstyles, htree]
    exact h.stack
  · rw [hframes, htree]
    exact h.tables
  · rw [hframes]
    exact h.outermost
  · rw [pending, hframes]
    exact h.index.alike halike

theorem Indexed.pushNode (h : Indexed b waiting) (key : Option Key) (raw : Style) :
    Indexed (b.pushNode key raw) waiting := by
  have hsize : (b.pushNode key raw).document.styles.size = b.document.styles.size + 1 := by
    simp [Builder.pushNode, Document.pushStyle, StyleTree.push, StyleTree.size]
  refine ⟨?_, ?_, h.outermost, h.index.alike (Document.alike_pushStyle _ _ _ _)⟩
  · intro n hn
    rw [hsize]
    rcases List.mem_cons.1 hn with rfl | hn
    · exact Nat.lt_succ_self _
    · exact Nat.lt_succ_of_lt (h.stack n hn)
  · intro f hf n hn
    rw [hsize]
    exact Nat.lt_succ_of_lt (h.tables f hf n hn)

theorem Indexed.popNode (h : Indexed b waiting) : Indexed b.popNode waiting := by
  refine ⟨fun n hn => h.stack n ?_, h.tables, h.outermost, h.index⟩
  unfold Builder.popNode StyleStack.pop at hn
  cases hbelow : b.styles.below with
  | nil => simpa [hbelow] using hn
  | cons node below =>
    simp only [hbelow] at hn
    exact List.mem_cons_of_mem _ hn

theorem Indexed.make (h : Indexed b waiting) {style : Nat} (kind : ElementKind)
    (hstyle : style < b.document.styles.size) :
    Indexed (b.make style kind) (b.document.size :: waiting) :=
  ⟨h.stack, h.tables, h.outermost, h.index.push hstyle⟩

theorem Indexed.register (h : Indexed b (i :: waiting)) (hr : b.register i = .ok b') :
    Indexed b' waiting := by
  obtain ⟨d, hd, rfl⟩ := map_eq_ok.1 hr
  obtain ⟨ids, rfl⟩ := Document.register_eq hd
  exact ⟨h.stack, h.tables, h.outermost, h.index.register hd⟩

theorem Indexed.append (h : Indexed b waiting) (parent : Option Nat) (i : Nat) :
    Indexed (b.append parent i) waiting := by
  cases parent with
  | none => exact h
  | some parent => exact h.congr rfl rfl rfl (Document.alike_append _ _ _)

theorem Indexed.add (h : Indexed b (i :: waiting)) (ha : b.add i = .ok b') : Indexed b' waiting :=
  (h.append b.container i).register ha

theorem Indexed.flush (h : Indexed b waiting) (hf : b.flush = .ok b') : Indexed b' waiting := by
  have hcleared : Indexed { b with text := "" } waiting := ⟨h.stack, h.tables, h.outermost, h.index⟩
  unfold Builder.flush at hf
  simp only at hf
  split at hf
  · obtain rfl := Except.ok.inj hf
    exact hcleared
  · have hmade := hcleared.make (.text b.text) (h.stack _ List.mem_cons_self)
    rw [last_make] at hf
    obtain ⟨registered, hr, rfl⟩ := map_eq_ok.1 hf
    exact (hmade.register hr).append _ _

theorem Indexed.enter {f : Frame} (h : Indexed b (f.pending ++ waiting))
    (htable : ∀ n ∈ f.tableNode?, n < b.document.styles.size) : Indexed (b.enter f) waiting := by
  refine ⟨h.stack, ?_, h.outermost, h.index.perm ?_⟩
  · intro g hg
    rcases List.mem_cons.1 hg with rfl | hg
    · exact htable
    · exact h.tables g hg
  · show (f.pending ++ waiting ++ b.pending).Perm (waiting ++ (f.pending ++ b.pending))
    rw [← List.append_assoc]
    exact List.perm_append_comm.append_right _

/-- What is left waits. -/
theorem Indexed.leave (h : Indexed b waiting) {f : Frame} (hframe : b.frame = f) :
    Indexed b.leave (f.pending ++ waiting) := by
  subst hframe
  cases houter : b.outer with
  | nil =>
    have hnone : b.frame.pending = [] := h.outermost b.frame (by simp [frames, houter])
    rw [hnone, List.nil_append, Builder.leave, houter]
    exact h
  | cons f outer =>
    rw [leave_eq houter]
    have houtermost := h.outermost
    have hindex := h.index
    have hmem : ∀ g ∈ f :: outer, g ∈ b.frames := fun g hg => by
      rw [frames, houter]
      exact List.mem_cons_of_mem _ hg
    simp only [pending, frames, houter] at houtermost hindex
    refine ⟨h.stack, fun g hg => h.tables g (hmem g hg), houtermost, ?_⟩
    refine hindex.perm ?_
    rw [List.flatMap_cons, ← List.append_assoc]
    exact List.perm_append_comm.append_right _

/-- The frame of the element at work may change, as long as the same is pending. -/
theorem Indexed.reframe (h : Indexed b waiting) {f : Frame} (hpending : f.pending = b.frame.pending)
    (htable : f.tableNode? = b.frame.tableNode?) : Indexed { b with frame := f } waiting := by
  refine ⟨h.stack, ?_, ?_, ?_⟩
  · intro g hg
    rcases List.mem_cons.1 hg with rfl | hg
    · rw [htable]
      exact h.tables _ List.mem_cons_self
    · exact h.tables g (List.mem_cons_of_mem _ hg)
  · have houtermost := h.outermost
    unfold frames at houtermost ⊢
    cases houter : b.outer with
    | nil =>
      simp only [houter] at houtermost ⊢
      simpa [hpending] using houtermost
    | cons g outer => simpa [houter] using houtermost
  · have hsame : ({ b with frame := f } : Builder).pending = b.pending := by
      simp [pending, frames, hpending]
    rw [hsame]
    exact h.index

theorem Indexed.enterContainer {role : Role}
    (h : Indexed b ((Frame.container i b.container role).pending ++ waiting)) :
    Indexed (b.enterContainer i role) waiting := by
  have hentered : Indexed ((b.pushNode none .empty).enter (.container i b.container role))
      waiting := (h.pushNode none .empty).enter nofun
  exact ⟨hentered.stack, hentered.tables, hentered.outermost, hentered.index⟩

/-! ### Events -/

variable {p : Position} {name : String} {attributes : Attributes}

/-- The element of a tag, under the tag's own node, waits. -/
theorem Indexed.makeTag (h : Indexed b waiting) (name : String) (attributes : Attributes)
    (kind : ElementKind) :
    Indexed ((b.pushTag name attributes).make b.document.styles.size kind)
      (b.document.size :: waiting) :=
  (h.pushNode _ _).make kind ((h.pushNode (some (tagKey name attributes)) _).stack _
    List.mem_cons_self)

theorem indexed_opensContent (h : Indexed b waiting) (ho : OpensContent b name attributes b') :
    Indexed b' waiting := by
  cases ho with
  | head => exact h.enter nofun
  | container _ hf => exact ((h.flush hf).makeTag name attributes _).enterContainer
  | orderedList _ hf => exact ((h.flush hf).makeTag name attributes _).enter nofun
  | @table _ flushed hf spacing padding =>
    have hpushed := (h.flush hf).pushNode (some (tagKey name attributes))
      (tagStyle flushed.document.styles.registry attributes)
    refine hpushed.enter fun n hn => ?_
    obtain rfl := Option.some.inj hn
    exact hpushed.stack _ List.mem_cons_self
  | leaf hf _ ha => exact (((h.flush hf).makeTag name attributes _).add ha).enter nofun
  | inline _ hf => exact ((h.flush hf).pushNode _ _).enter nofun

theorem indexed_opensRoot (h : Indexed b waiting) (ho : OpensRoot b name attributes b') :
    Indexed b' waiting := by
  cases ho with
  | head => exact h.enter nofun
  | body _ hm hr =>
    subst hm
    have hmade := h.makeTag name attributes .block
    have hroot : Indexed
        { (b.pushTag name attributes).make b.document.styles.size .block with
          document := ((b.pushTag name attributes).make b.document.styles.size
            .block).document.addRoot b.document.size } (b.document.size :: waiting) :=
      hmade.congr rfl rfl rfl (Document.alike_of_eq rfl rfl rfl)
    exact (hroot.register hr).enterContainer
  | skipped => exact h.enter nofun

theorem indexed_opensList {list depth : Nat} (h : Indexed b waiting)
    (hframe : b.frame = .orderedList list depth)
    (ho : OpensList b list depth name attributes b') : Indexed b' waiting := by
  cases ho with
  | item => exact (h.makeTag name attributes .container).enterContainer
  | other => exact (h.pushNode _ _).reframe (hframe ▸ rfl) (hframe ▸ rfl)

theorem indexed_opensTable {draft : TableDraft} {depth : Nat} (h : Indexed b waiting)
    (hframe : b.frame = .table draft depth)
    (ho : OpensTable b draft depth name attributes b') : Indexed b' waiting := by
  cases ho with
  | cell _ columns => exact (h.makeTag name attributes (.tableCell columns)).enterContainer
  | row => exact (h.pushNode _ _).reframe (hframe ▸ rfl) (hframe ▸ rfl)
  | other => exact (h.pushNode _ _).reframe (hframe ▸ rfl) (hframe ▸ rfl)

theorem indexed_opensHead {depth : Nat} (h : Indexed b waiting) (hframe : b.frame = .head depth)
    (ho : OpensHead b depth b') : Indexed b' waiting := by
  cases ho with
  | title => exact h.enter nofun
  | deeper =>
    have hdeeper : Indexed { b with frame := .head (depth + 1) } waiting :=
      h.reframe (hframe ▸ rfl) (hframe ▸ rfl)
    exact hdeeper.congr rfl rfl rfl (Document.alike_of_eq rfl rfl rfl)

theorem indexed_opened (h : Indexed b waiting) (ho : b.opened p name attributes = .ok b') :
    Indexed b' waiting := by
  generalize hframe : b.frame = f
  cases begins hframe ho with
  | prolog => exact (h.reframe (f := .epilog) (hframe ▸ rfl) (hframe ▸ rfl)).enter nofun
  | root ho => exact indexed_opensRoot h ho
  | head _ ho => exact indexed_opensHead h hframe ho
  | title | skipped => exact h.reframe (hframe ▸ rfl) (hframe ▸ rfl)
  | inline ho => exact indexed_opensContent h ho
  | container _ _ _ ho => exact indexed_opensContent h ho
  | orderedList _ _ ho => exact indexed_opensList h hframe ho
  | table _ _ ho => exact indexed_opensTable h hframe ho

/-- A container that has been left waits, unless it is a root. -/
theorem indexed_settles (outer : Option Nat) {role : Role}
    (h : Indexed b ((Frame.container i outer role).pending ++ waiting))
    (hs : Settles b i role b') : Indexed b' waiting := by
  cases hs with
  | body => exact h
  | child ha => exact Indexed.add h ha
  | item list hr => exact (Indexed.register h hr).append _ _
  | cell columns hr hframe =>
    refine (Indexed.register h hr).reframe (hframe ▸ rfl) ?_
    rw [hframe]
    exact congrArg some (TableDraft.style_addCell _ _ _)
  | loose columns hr => exact Indexed.register h hr

theorem indexed_closed (h : Indexed b waiting) (hc : b.closed p name = .ok b') :
    Indexed b' waiting := by
  generalize hframe : b.frame = f
  cases closes hframe hc with
  | root | head | skipped => exact h.leave hframe
  | inHead | inTitle | inSkipped => exact h.reframe (hframe ▸ rfl) (hframe ▸ rfl)
  | inList => exact h.popNode.reframe (hframe ▸ rfl) (hframe ▸ rfl)
  | title s =>
    have htitled : Indexed
        { b with document := b.document.setTitle (String.ofList (trim s.toList)) } waiting :=
      h.congr rfl rfl rfl (Document.alike_of_eq rfl rfl rfl)
    exact htitled.leave hframe
  | inline hf => exact (h.flush hf).popNode.leave ((flushes hf).kept.frame.trans hframe)
  | container element outer role hf hs =>
    have hleft := (h.flush hf).popNode.popNode.leave ((flushes hf).kept.frame.trans hframe)
    refine indexed_settles outer ?_ hs
    exact hleft.congr rfl rfl rfl (Document.alike_of_eq rfl rfl rfl)
  | orderedList list ha => exact Indexed.add (h.popNode.leave hframe) ha
  | table draft ha =>
    refine Indexed.add ((h.popNode.leave hframe).make _ ?_) ha
    rw [document_leave]
    exact h.tables b.frame List.mem_cons_self _ (hframe ▸ rfl)
  | inTable draft depth =>
    refine h.popNode.reframe (hframe ▸ rfl) ?_
    rw [show b.popNode.frame = b.frame from rfl, hframe]
    split
    · exact congrArg some draft.style_endRow
    · rfl

theorem indexed_textRead {s : String} (h : Indexed b waiting) (hr : b.textRead p s = .ok b') :
    Indexed b' waiting := by
  generalize hframe : b.frame = f
  cases gathers hframe hr with
  | title => exact h.reframe (hframe ▸ rfl) (hframe ▸ rfl)
  | inline | container => exact ⟨h.stack, h.tables, h.outermost, h.index⟩
  | _ => exact h

theorem indexed_step {event : Position × Event} (h : Indexed b waiting)
    (hs : b.step event = .ok b') : Indexed b' waiting := by
  obtain ⟨p, event⟩ := event
  cases event with
  | opened name attributes => exact indexed_opened h hs
  | closed name => exact indexed_closed h hs
  | text s => exact indexed_textRead h hs

theorem indexed_run : ∀ {events : List (Position × Event)} {b b' : Builder}, Indexed b waiting →
    b.run events = .ok b' → Indexed b' waiting
  | [], _, _, h, hrun => Except.ok.inj hrun ▸ h
  | _ :: _, _, _, h, hrun => by
    obtain ⟨_, hstep, hrest⟩ := run_cons_ok.1 hrun
    exact indexed_run (indexed_step h hstep) hrest

theorem indexed_start (number : Nat) (registry : Registry) :
    Indexed (start number registry) [] := by
  refine ⟨?_, ?_, ?_, ⟨?_, ?_, List.nodup_nil, .refl _⟩⟩
  · simp [start, Document.pushStyle, StyleTree.push, StyleTree.size, Document.empty,
      StyleTree.empty]
  · simp [start, frames, Frame.tableNode?]
  · simp [start, frames, Frame.pending]
  · simp [start, Document.pushStyle, Document.empty, Document.element?]
  · simp [pending, start, frames, Frame.pending]

end Builder

namespace Document

/-- The index of ids is exact: an id leads to an element if and only if the key of the
element's node has it, and so no two elements have the same id. -/
theorem elementById?_exact {number : Nat} {registry : Registry} {source : String} {d : Document}
    (h : ofString number registry source = .ok d) :
    (∀ x i, d.elementById? x = some i ↔ ∃ e key, d.element? i = some e ∧
      d.styles.key? e.style = some key ∧ key.id = some x) ∧
    ∀ x i j, d.idOf? i = some x → d.idOf? j = some x → i = j := by
  obtain ⟨b, hrun, hend, -, rfl⟩ := exists_of_ofString h
  have hindexed := Builder.indexed_run (Builder.indexed_start number registry) hrun
  -- No frame is open at the end, so nothing is pending.
  have hnone : b.pending = [] := by
    have hlevel := Builder.level_start hend hrun
    have hframe : b.frame = .prolog ∨ b.frame = .epilog := hlevel.frame.cases
    have houter : b.outer = [] := hlevel.outer
    rcases hframe with hframe | hframe <;>
      simp [Builder.pending, Builder.frames, hframe, houter, Frame.pending]
  have hids : b.document.ids.Perm b.document.entries := by
    simpa [hnone] using hindexed.index.entries
  have hexact (x : String) (i : Nat) :
      b.document.elementById? x = some i ↔ b.document.idOf? i = some x := by
    rw [hindexed.index.elementById?_eq_some_iff, hids.mem_iff, mem_entries]
  refine ⟨fun x i => (hexact x i).trans idOf?_eq_some_iff, fun x i j hi hj => ?_⟩
  exact Option.some.inj (((hexact x i).2 hi).symm.trans ((hexact x j).2 hj))

theorem ofString_ids : EventStream.ofString
      "<html><body id=a><b id=s>x</b><table id=t><tr><td id=c>y</td></tr></table></body></html>" =
    ⟨[(⟨1, 1⟩, .opened "html" []), (⟨1, 7⟩, .opened "body" [("id", "a")]),
      (⟨1, 18⟩, .opened "b" [("id", "s")]), (⟨1, 26⟩, .text "x"), (⟨1, 27⟩, .closed "b"),
      (⟨1, 31⟩, .opened "table" [("id", "t")]), (⟨1, 43⟩, .opened "tr" []),
      (⟨1, 47⟩, .opened "td" [("id", "c")]), (⟨1, 56⟩, .text "y"), (⟨1, 57⟩, .closed "td"),
      (⟨1, 62⟩, .closed "tr"), (⟨1, 67⟩, .closed "table"), (⟨1, 75⟩, .closed "body"),
      (⟨1, 82⟩, .closed "html")], none⟩ := by
  decide +kernel

/-- The text in a tag with an id and the table that is made at its end are found. -/
theorem elementById?_exact_ids : ∃ d, ofString 0 .standard
      "<html><body id=a><b id=s>x</b><table id=t><tr><td id=c>y</td></tr></table></body></html>" =
        .ok d ∧
    d.elementById? "s" = some 1 ∧ d.elementById? "c" = some 2 ∧ d.elementById? "t" = some 4 := by
  obtain ⟨d, hd, htext, hcell, htable⟩ : ∃ d, ofString 0 .standard
      "<html><body id=a><b id=s>x</b><table id=t><tr><td id=c>y</td></tr></table></body></html>" =
        .ok d ∧
      (∃ e key, d.element? 1 = some e ∧ d.styles.key? e.style = some key ∧ key.id = some "s") ∧
      (∃ e key, d.element? 2 = some e ∧ d.styles.key? e.style = some key ∧ key.id = some "c") ∧
      ∃ e key, d.element? 4 = some e ∧ d.styles.key? e.style = some key ∧ key.id = some "t" :=
    ⟨_, (congrArg (ofEvents 0 .standard) ofString_ids).trans rfl, ⟨_, _, rfl, rfl, rfl⟩,
      ⟨_, _, rfl, rfl, rfl⟩, _, _, rfl, rfl, rfl⟩
  have hexact := (elementById?_exact hd).1
  exact ⟨d, hd, (hexact "s" 1).2 htext, (hexact "c" 2).2 hcell, (hexact "t" 4).2 htable⟩

end Document

end RichText
