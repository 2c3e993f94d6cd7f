/-
# Where elements are put

Reading a forest keeps the books of the store in every region (`Builder.attaches_run`,
by induction on the forest): what an element of each region does is read off the ways in
which it can be opened and closed, and from what is read inside.

Key definitions: `Builder.Ready`, `Builder.Attaches`.
Key theorems: `Builder.gains_enclosed`, `Builder.attaches_element`,
`Builder.attaches_run`.
-/
import RichText.Proofs.Bookkeeping
import RichText.Proofs.StyleMirror
import RichText.Proofs.TextOrder

namespace RichText

open Markup Text

/-- The cells that wait in a frame. -/
def Frame.cells : Frame → List Nat
  | .table draft _ => draft.cells
  | _ => []

theorem Frame.cells_of_region {f : Frame} (h : f.region? ≠ some .table) : f.cells = [] := by
  cases f with
  | table => exact absurd rfl h
  | _ => rfl

namespace Builder

open Document (Gains Seats Tabled gains_of_eq gains_push gains_append gains_addRoot gains_table)

variable {b b₁ b₂ b₃ b' m : Builder} {p q : Position} {name : String} {attributes : Attributes}
  {region within : Region} {inside : Forest} {c e i bound : Nat} {w : List Nat}

/-! ### Single elements -/

/-- The text gathered becomes a child, unless it is blank. -/
theorem gains_flush (hcontainer : b.container = some c) (hc : Seats b.document c b.styles.top)
    (htop : b.styles.top < b.document.styles.size) (h : b.flush = .ok b') :
    Gains b.document w [] b'.document w := by
  cases flushes h with
  | dropped => exact gains_of_eq rfl rfl (Nat.le_refl _)
  | @element holder hholder _ ids =>
    obtain rfl := Option.some.inj (hcontainer.symm.trans hholder)
    have hpush := gains_push (d := b.document) (w := w)
      (e := { style := b.styles.top, kind := .text b.text }) htop nofun
    have hnode := Document.styleOf_eq ((b.document.element?_push
      { style := b.styles.top, kind := .text b.text } b.document.size).trans (if_pos rfl))
    have happend := gains_append (w := w) (hc.mono hpush.shapes (Nat.le_refl _))
      (Nat.le_of_eq hnode.symm)
    exact (hpush.trans happend).trans (gains_of_eq rfl rfl (Nat.le_refl _))

theorem gains_register (h : b.register i = .ok b') : Gains b.document w [] b'.document w := by
  obtain ⟨ids, rfl⟩ := register_eq h
  exact gains_of_eq rfl rfl (Nat.le_refl _)

/-- An element that has waited goes into the container, which has been there before. -/
theorem gains_add {d : Document} {v : List Nat} {written : List WrittenTable}
    (h : Gains d v written b.document (i :: w)) (hcontainer : b.container = some c)
    (hc : Seats d c bound) (hi : bound ≤ b.document.styleOf i) (hadd : b.add i = .ok b') :
    Gains d v written b'.document w := by
  obtain ⟨ids, rfl⟩ := add_eq hadd
  rw [hcontainer]
  have happend := gains_append (w := w) (hc.mono h.shapes (Nat.le_refl _)) hi
  have hindex : Gains (b.document.append c i) w [] { b.document.append c i with ids } w :=
    gains_of_eq rfl rfl (Nat.le_refl _)
  have hwhole := (h.trans happend).trans hindex
  rw [List.append_nil, List.append_nil] at hwhole
  exact hwhole

theorem size_pushTag (b : Builder) (name : String) (attributes : Attributes) :
    (b.pushTag name attributes).document.styles.size = b.document.styles.size + 1 := by
  simp [pushTag, pushNode, Document.pushStyle, StyleTree.push, StyleTree.size]

theorem size_enterContainer (b : Builder) (element : Nat) (role : Role) :
    (b.enterContainer element role).document.styles.size = b.document.styles.size + 1 := by
  simp [enterContainer, enter, pushNode, Document.pushStyle, StyleTree.push, StyleTree.size]

theorem document_enter (b : Builder) (frame : Frame) : (b.enter frame).document = b.document := rfl

theorem container_leave (b : Builder) : b.leave.container = b.container := by
  unfold leave
  split <;> rfl

/-- The node of a tag holds nothing. -/
theorem gains_pushTag (b : Builder) (name : String) (attributes : Attributes) :
    Gains b.document w [] (b.pushTag name attributes).document w :=
  gains_of_eq rfl rfl (by rw [size_pushTag]; exact Nat.le_succ _)

/-- The element of a tag waits. -/
theorem gains_makeTag (b : Builder) (name : String) (attributes : Attributes) (kind : ElementKind)
    (hparts : (Element.mk b.document.styles.size kind []).parts = []) :
    Gains b.document w [] ((b.pushTag name attributes).make b.document.styles.size kind).document
      (b.document.size :: w) := by
  have hpush := gains_push (d := (b.pushTag name attributes).document) (w := w)
    (e := ⟨b.document.styles.size, kind, []⟩) (by rw [size_pushTag]; exact Nat.lt_succ_self _)
    (by simp [hparts])
  rw [hparts] at hpush
  exact (b.gains_pushTag name attributes).trans hpush

theorem shape_makeTag (b : Builder) (name : String) (attributes : Attributes) (kind : ElementKind) :
    ((b.pushTag name attributes).make b.document.styles.size
      kind).document.shapes[b.document.size]? = some (kind, b.document.styles.size) := by
  have hshapes := (b.pushTag name attributes).document.shapes_push
    ⟨b.document.styles.size, kind, []⟩
  have hlength : b.document.size = (b.pushTag name attributes).document.shapes.length := by
    simp [Document.shapes, Document.size, pushTag, pushNode, Document.pushStyle]
  rw [show ((b.pushTag name attributes).make b.document.styles.size kind).document.shapes = _ from
    hshapes, hlength, List.getElem?_concat_length]

/-- The element of a tag has the tag's node. -/
theorem styleOf_makeTag {d : Document} (kind : ElementKind)
    (hshapes : ((b.pushTag name attributes).make b.document.styles.size kind).document.shapes <+:
      d.shapes) : d.styleOf b.document.size = b.document.styles.size :=
  Document.styleOf_shape (shape_mono hshapes (b.shape_makeTag name attributes kind))

theorem seats_makeTag (b : Builder) (name : String) (attributes : Attributes) (kind : ElementKind)
    (hchildren : kind.hasChildren = true) :
    Seats ((b.pushTag name attributes).make b.document.styles.size kind).document b.document.size
      ((b.pushTag name attributes).make b.document.styles.size kind).document.styles.size := by
  refine ⟨kind, _, b.shape_makeTag name attributes kind, hchildren, ?_⟩
  show _ < (b.pushTag name attributes).document.styles.size
  rw [size_pushTag]
  exact Nat.lt_succ_self _

/-! ### Forests -/

/-- There is a container for what is read, and a list for its items. -/
structure Ready (b : Builder) : Prop where
  content : b.frame.region? = some .content →
    ∃ c, b.container = some c ∧ Seats b.document c b.styles.top
  list : ∀ list depth, b.frame = .orderedList list depth →
    Seats b.document list b.document.styles.size

theorem Ready.level (h : Ready b) (hlevel : Level b b')
    (hshapes : b.document.shapes <+: b'.document.shapes)
    (hsize : b.document.styles.size ≤ b'.document.styles.size) : Ready b' where
  content hregion := by
    obtain ⟨c, hc, hseats⟩ := h.content (hlevel.frame.region?_eq.symm.trans hregion)
    refine ⟨c, hlevel.container.trans hc, hseats.mono hshapes ?_⟩
    rw [hlevel.styles]
  list list depth hframe := by
    have hsame : b.frame = .orderedList list depth := by
      have hfollows := hlevel.frame
      rw [hframe] at hfollows
      generalize b.frame = f at hfollows
      cases hfollows
      rfl
    exact (h.list list depth hsame).mono hshapes hsize

/-- In a table a row is what a part needs. -/
theorem ready_of_table {draft : TableDraft} {depth : Nat} (hframe : b.frame = .table draft depth) :
    Ready b where
  content hregion := by
    rw [hframe] at hregion
    cases hregion
  list _ _ hlist := by
    rw [hframe] at hlist
    cases hlist

/-- What reading a forest does to the elements, and to the draft of a table around
it. -/
structure Attaches (f : Forest) (region : Region) (b b' : Builder) : Prop where
  gains : Gains b.document b.frame.cells (f.tables region b.document.styles.size) b'.document
    b'.frame.cells
  tabled : ∀ {draft depth rows}, b.frame = .table draft depth → Tabled b.document draft rows →
    ∃ draft', b'.frame = .table draft' depth ∧ draft'.style = draft.style ∧
      Tabled b'.document draft' (f.rows b.document.styles.size rows)

/-- Outside tables only the elements count. -/
theorem attaches_of_gains {f : Forest} (hregion : b.frame.region? = some region)
    (hne : region ≠ .table) (hlevel : Level b b')
    (h : Gains b.document [] (f.tables region b.document.styles.size) b'.document []) :
    Attaches f region b b' where
  gains := by
    have hcells : b.frame.region? ≠ some .table := by
      rw [hregion]
      exact fun heq => hne (Option.some.inj heq)
    have hcells' : b'.frame.region? ≠ some .table := by rwa [hlevel.frame.region?_eq]
    rwa [Frame.cells_of_region hcells, Frame.cells_of_region hcells']
  tabled hframe := by
    rw [hframe] at hregion
    exact absurd (Option.some.inj hregion).symm hne

/-- What is read in a container. -/
theorem Attaches.gains_content (h : Attaches inside .content b b') (hlevel : Level b b')
    (hregion : b.frame.region? = some .content) (w : List Nat) :
    Gains b.document w (inside.tables .content b.document.styles.size) b'.document w := by
  have hcells : b.frame.region? ≠ some .table := by rw [hregion]; decide
  have hcells' : b'.frame.region? ≠ some .table := by rwa [hlevel.frame.region?_eq]
  have hgains := h.gains
  rw [Frame.cells_of_region hcells, Frame.cells_of_region hcells'] at hgains
  exact hgains.frame w

theorem closed_container {element : Nat} {outer : Option Nat} {role : Role}
    (hframe : b.frame = .container element outer role) (h : b.closed q name = .ok b') :
    ∃ flushed, b.flush = .ok flushed ∧
      settle { flushed.popNode.popNode.leave with container := outer } element role = .ok b' := by
  simp only [closed, hframe] at h
  cases hf : b.flush with
  | error e => simp [hf, bind, Except.bind] at h
  | ok flushed => exact ⟨flushed, rfl, by simpa [hf, bind, Except.bind] using h⟩

/-- A container is read up to its end: what is in it is attached to it. -/
theorem gains_enclosed {role : Role} (hseats : Seats m.document e m.document.styles.size)
    (hin : Inside .content (m.enterContainer e role))
    (hinside : (m.enterContainer e role).run inside.events = .ok b₂)
    (ih : Ready (m.enterContainer e role) → Attaches inside .content (m.enterContainer e role) b₂)
    (hclose : b₂.closed q name = .ok b₃) (w : List Nat) : ∃ left : Builder,
      Gains m.document w (inside.tables .content (m.document.styles.size + 1)) left.document w ∧
        left.container = m.container ∧ left.frame = m.frame ∧ left.settle e role = .ok b₃ := by
  have hsize := m.size_enterContainer e role
  have hentered : Gains m.document w [] (m.enterContainer e role).document w :=
    gains_of_eq rfl rfl (by rw [hsize]; exact Nat.le_succ _)
  have hready : Ready (m.enterContainer e role) :=
    ⟨fun _ => ⟨e, rfl, hseats⟩, nofun⟩
  have hlevel := level_run inside hinside
  have hread := (ih hready).gains_content hlevel rfl w
  have hin₂ := inside_run hin hinside
  have hframe : b₂.frame = .container e m.container role := hlevel.frame.eq_of_content rfl
  obtain ⟨flushed, hf, hsettle⟩ := closed_container hframe hclose
  have hseats₂ : Seats b₂.document e b₂.styles.top := by
    rw [hlevel.styles]
    exact hseats.mono (hentered.trans hread).shapes (Nat.le_refl _)
  have hflush := gains_flush (w := w) hlevel.container hseats₂ hin₂.top hf
  have houter : flushed.popNode.popNode.outer = m.frame :: m.outer :=
    (flushes hf).kept.outer.trans hlevel.outer
  refine ⟨{ flushed.popNode.popNode.leave with container := m.container }, ?_, rfl, ?_, hsettle⟩
  · show Gains _ _ _ flushed.popNode.popNode.leave.document _
    rw [document_leave, ← hsize]
    have hwhole := (hentered.trans hread).trans hflush
    rwa [List.append_nil] at hwhole
  · show flushed.popNode.popNode.leave.frame = m.frame
    rw [leave_eq houter]

/-- An element in a container that opens none is read up to its end. -/
theorem gains_inline (hcontainer : m.container = some c)
    (hseats : Seats m.document c m.styles.top) (hin : Inside .content (m.enter .inline))
    (hinside : (m.enter .inline).run inside.events = .ok b₂)
    (ih : Ready (m.enter .inline) → Attaches inside .content (m.enter .inline) b₂)
    (hclose : b₂.closed q name = .ok b₃) (w : List Nat) :
    Gains m.document w (inside.tables .content m.document.styles.size) b₃.document w := by
  have hready : Ready (m.enter .inline) := ⟨fun _ => ⟨c, hcontainer, hseats⟩, nofun⟩
  have hlevel := level_run inside hinside
  have hread : Gains m.document w (inside.tables .content m.document.styles.size) b₂.document w :=
    (ih hready).gains_content hlevel rfl w
  have hin₂ := inside_run hin hinside
  have hframe : b₂.frame = .inline := hlevel.frame.eq_of_content rfl
  cases closes hframe hclose with
  | @inline flushed hf =>
    have hseats₂ : Seats b₂.document c b₂.styles.top := by
      rw [hlevel.styles]
      exact hseats.mono hread.shapes (Nat.le_refl _)
    have hflush := gains_flush (w := w) (hlevel.container.trans hcontainer) hseats₂ hin₂.top hf
    have hwhole := hread.trans hflush
    rw [List.append_nil] at hwhole
    rw [document_leave]
    exact hwhole

/-- A list with numbers is read up to its end. -/
theorem gains_listed (hseats : Seats m.document e m.document.styles.size)
    (hinside : (m.enter (.orderedList e 0)).run inside.events = .ok b₂)
    (ih : Ready (m.enter (.orderedList e 0)) →
      Attaches inside .list (m.enter (.orderedList e 0)) b₂)
    (hclose : b₂.closed q name = .ok b₃) (w : List Nat) : ∃ left : Builder,
      Gains m.document w (inside.tables .list m.document.styles.size) left.document w ∧
        left.container = m.container ∧ left.add e = .ok b₃ := by
  have hready : Ready (m.enter (.orderedList e 0)) := by
    refine ⟨fun hregion => (by cases hregion), fun list depth hframe => ?_⟩
    obtain ⟨rfl, -⟩ := Frame.orderedList.inj hframe
    exact hseats
  have hlevel := level_run inside hinside
  have hframe : b₂.frame = .orderedList e 0 := hlevel.frame.cases
  have hread := (ih hready).gains.frame w
  rw [hframe] at hread
  cases closes hframe hclose with
  | orderedList _ ha =>
    refine ⟨_, ?_, ?_, ha⟩
    · rw [document_leave]
      exact hread
    · rw [container_leave]
      exact hlevel.container

/-- A table is read up to its end, where it is made. -/
theorem gains_tabled {draft : TableDraft} (hdraft : Tabled m.document draft [])
    (hinside : (m.enter (.table draft 0)).run inside.events = .ok b₂)
    (ih : Ready (m.enter (.table draft 0)) → Attaches inside .table (m.enter (.table draft 0)) b₂)
    (hclose : b₂.closed q name = .ok b₃) (w : List Nat) : ∃ (left : Builder) (e : Nat),
      Gains m.document w (inside.tables .table m.document.styles.size ++
        [⟨draft.style, inside.rows m.document.styles.size []⟩]) left.document (e :: w) ∧
        left.container = m.container ∧ left.document.styleOf e = draft.style ∧
          left.add e = .ok b₃ := by
  have hlevel := level_run inside hinside
  obtain ⟨hgains, htabled⟩ := ih (ready_of_table rfl)
  obtain ⟨draft', hframe, hstyle, hrows⟩ := htabled rfl hdraft
  have hnone : draft.cells = [] := by
    rw [TableDraft.cells, List.forall₂_nil_right_iff.1 hdraft.rows]
    rfl
  have hread := hgains.frame w
  rw [hframe, show (m.enter (.table draft 0)).frame.cells = [] from hnone] at hread
  cases closes hframe hclose with
  | table _ ha =>
    have htable := gains_table (w := w) (t := ⟨draft.style, inside.rows m.document.styles.size []⟩)
      hrows.style hrows.cells hstyle hrows.rows
    refine ⟨_, _, ?_, ?_, ?_, ha⟩
    · show Gains _ _ _ (b₂.popNode.leave.document.push _) _
      rw [document_leave]
      exact hread.trans htable
    · show b₂.popNode.leave.container = m.container
      rw [container_leave]
      exact hlevel.container
    · rw [← hstyle]
      exact Document.styleOf_eq ((Document.element?_push _ _ _).trans (if_pos rfl))

/-- A cell comes into the last row. -/
theorem settle_cell {draft : TableDraft} {depth element columns : Nat}
    (hframe : b.frame = .table draft depth) (h : b.settle element (.cell columns) = .ok b') :
    ∃ registered, b.register element = .ok registered ∧
      b' = { registered with frame := .table (draft.addCell element columns) depth } := by
  obtain ⟨registered, hr, rfl⟩ := map_eq_ok.1 h
  refine ⟨registered, hr, ?_⟩
  simp only [(kept_register hr).frame.trans hframe]

/-! ### Elements in each region -/

section

variable (hin₁ : Inside within b₁) (hinside : b₁.run inside.events = .ok b₂)
  (ih : Ready b₁ → Attaches inside within b₁ b₂) (hclose : b₂.closed q name = .ok b₃)

include hin₁ hinside ih hclose

theorem gains_content (hin : Inside .content b) (hready : Ready b)
    (hwithin : Region.content.inside name = some within) (h : OpensContent b name attributes b₁) :
    Gains b.document [] (inside.tables within b₁.document.styles.size ++
      if name = "table" then [⟨b.document.styles.size, inside.rows b₁.document.styles.size []⟩]
      else []) b₃.document [] := by
  obtain ⟨c, hcontainer, hseats⟩ := hready.content hin.frame
  -- The text before the tag is an element before the tag makes one.
  have flushed {flushed : Builder} (hf : b.flush = .ok flushed) (w : List Nat) :
      Gains b.document w [] flushed.document w ∧ flushed.container = some c ∧
        flushed.document.styles = b.document.styles ∧
          Seats flushed.document c flushed.document.styles.size := by
    have hflush := gains_flush (w := w) hcontainer hseats hin.top hf
    have hkept := (flushes hf).kept
    refine ⟨hflush, hkept.container.trans hcontainer, hkept.tree, ?_⟩
    exact hseats.mono hflush.shapes (hkept.tree ▸ hin.top.le)
  cases h with
  | head hn => simp [Region.inside, hn] at hwithin
  | @container hn flushed₀ hf kind hk =>
    obtain ⟨hflush, hc, htree, hseats₀⟩ := flushed hf []
    obtain ⟨⟨hol, htable⟩, hchildren⟩ := containerKind?_eq_some hk
    obtain rfl : Region.content = within := by
      simpa [Region.inside_content hn hol htable] using hwithin
    have hmake := flushed₀.gains_makeTag (w := []) name attributes kind
      (Document.parts_eq_children (e := ⟨flushed₀.document.styles.size, kind, []⟩) hchildren)
    obtain ⟨left, hread, hleft, -, hsettle⟩ := gains_enclosed
      (flushed₀.seats_makeTag name attributes kind hchildren) hin₁ hinside ih hclose
      [flushed₀.document.size]
    cases settles hsettle with
    | child ha =>
      have hadd := gains_add (hmake.trans hread) (hleft.trans hc) hseats₀
        (styleOf_makeTag kind hread.shapes).ge ha
      have hwhole := hflush.trans hadd
      rw [if_neg htable, size_enterContainer]
      simpa using hwhole
  | @orderedList hn flushed₀ hf start =>
    obtain ⟨hflush, hc, htree, hseats₀⟩ := flushed hf []
    obtain rfl : Region.list = within := by simpa [Region.inside, hn] using hwithin
    have hmake := flushed₀.gains_makeTag (w := []) name attributes (.orderedList start) rfl
    obtain ⟨left, hread, hleft, ha⟩ := gains_listed
      (flushed₀.seats_makeTag name attributes (.orderedList start) rfl) hinside ih hclose
      [flushed₀.document.size]
    have hadd := gains_add (hmake.trans hread) (hleft.trans hc) hseats₀
      (styleOf_makeTag _ hread.shapes).ge ha
    have hwhole := hflush.trans hadd
    rw [if_neg (by simp [hn])]
    simpa [document_enter] using hwhole
  | @table hn flushed₀ hf spacing padding =>
    obtain ⟨hflush, hc, htree, hseats₀⟩ := flushed hf []
    obtain rfl : Region.table = within := by simpa [Region.inside, hn] using hwithin
    have hpush := flushed₀.gains_pushTag (w := []) name attributes
    obtain ⟨left, e, hread, hleft, hnode, ha⟩ := gains_tabled
      ⟨by
        show _ < (flushed₀.pushTag name attributes).document.styles.size
        rw [size_pushTag]
        exact Nat.lt_succ_self _, fun _ hcell => absurd hcell List.not_mem_nil, .nil⟩
      hinside ih hclose []
    have hadd := gains_add (hpush.trans hread) (hleft.trans hc) hseats₀ hnode.ge ha
    have hwhole := hflush.trans hadd
    rw [if_pos hn, ← htree]
    simpa [document_enter] using hwhole
  | @leaf flushed₀ added hf kind hk ha =>
    obtain ⟨hflush, hc, htree, hseats₀⟩ := flushed hf []
    obtain ⟨⟨hol, htable, -⟩, -⟩ := leafKind?_eq_some hk
    have hhead : name ≠ "head" := by
      intro hhead
      simp [Region.inside, hhead] at hwithin
    obtain rfl : Region.content = within := by
      simpa [Region.inside_content hhead hol htable] using hwithin
    have hmake := flushed₀.gains_makeTag (w := []) name attributes kind
      (ownText_leafKind? flushed₀.document.styles.size hk).2
    have hmade : ((flushed₀.pushTag name attributes).make flushed₀.document.styles.size
        kind).container = some c := hc
    have hadd := gains_add hmake hmade hseats₀ (styleOf_makeTag kind (List.prefix_refl _)).ge ha
    have hkept := kept_add ha
    have hread := gains_inline (hkept.container.trans hmade) (by
        rw [hkept.styles]
        exact hseats₀.mono hadd.shapes (Nat.le_refl _)) hin₁ hinside ih hclose []
    have hwhole := (hflush.trans hadd).trans hread
    rw [if_neg htable]
    simpa [document_enter] using hwhole
  | @inline hn flushed₀ hf hk hl =>
    obtain ⟨hflush, hc, htree, hseats₀⟩ := flushed hf []
    obtain rfl : Region.content = within := by
      simpa [Region.inside_content hn.1 hn.2.1 hn.2.2] using hwithin
    have hpush := flushed₀.gains_pushTag (w := []) name attributes
    have hread := gains_inline (m := flushed₀.pushTag name attributes) hc hseats₀ hin₁ hinside ih
      hclose []
    have hwhole := (hflush.trans hpush).trans hread
    rw [if_neg hn.2.2]
    simpa [document_enter] using hwhole

theorem gains_root (hwithin : Region.root.inside name = some within)
    (h : OpensRoot b name attributes b₁) :
    Gains b.document [] (inside.tables within b₁.document.styles.size) b₃.document [] := by
  cases h with
  | head hn => simp [Region.inside, hn] at hwithin
  | skipped hn => simp [Region.inside, hn.2] at hwithin
  | body hn hm hr =>
    obtain rfl : Region.content = within := by simpa [Region.inside, hn] using hwithin
    subst hm
    have hmake := b.gains_makeTag (w := []) name attributes .block rfl
    have hroot := hmake.trans (Document.gains_addRoot _ b.document.size [])
    have hregister := gains_register (w := []) hr
    have hstyles := (kept_register hr).tree
    obtain ⟨left, hread, -, -, hsettle⟩ := gains_enclosed
      ((b.seats_makeTag name attributes .block rfl).mono hregister.shapes
        (by rw [hstyles]; exact Nat.le_refl _)) hin₁ hinside ih hclose []
    cases settles hsettle with
    | body =>
      rw [size_enterContainer]
      have hwhole := (hroot.trans hregister).trans hread
      simpa using hwhole

theorem gains_list {list depth : Nat} (hready : Ready b)
    (hwithin : Region.list.inside name = some within) (hframe : b.frame = .orderedList list depth)
    (h : OpensList b list depth name attributes b₁) :
    Gains b.document [] (inside.tables within b₁.document.styles.size) b₃.document [] := by
  have hlist := hready.list list depth hframe
  cases h with
  | item hn =>
    obtain rfl : Region.content = within := by simpa [Region.inside, hn] using hwithin
    have hmake := b.gains_makeTag (w := []) name attributes .container rfl
    obtain ⟨left, hread, -, -, hsettle⟩ := gains_enclosed
      (b.seats_makeTag name attributes .container rfl) hin₁ hinside ih hclose [b.document.size]
    cases settles hsettle with
    | item _ hr =>
      have hregister := gains_register (w := [b.document.size]) hr
      have happend := gains_append (w := [])
        (hlist.mono ((hmake.trans hread).trans hregister).shapes (Nat.le_refl _))
        (styleOf_makeTag .container (hread.trans hregister).shapes).ge
      rw [size_enterContainer]
      have hwhole := ((hmake.trans hread).trans hregister).trans happend
      show Gains _ _ _ (Document.append _ list b.document.size) _
      simpa using hwhole
  | other hn =>
    obtain rfl : Region.list = within := by simpa [Region.inside, hn] using hwithin
    have hpush := b.gains_pushTag (w := []) name attributes
    have hready₁ :
        Ready { b.pushTag name attributes with frame := .orderedList list (depth + 1) } := by
      refine ⟨fun hregion => (by cases hregion), fun list' depth' hframe' => ?_⟩
      obtain ⟨rfl, -⟩ := Frame.orderedList.inj hframe'
      exact hlist.mono hpush.shapes hpush.nodes
    have hlevel := level_run inside hinside
    have hframe₂ : b₂.frame = .orderedList list (depth + 1) := hlevel.frame.cases
    have hread := (ih hready₁).gains
    rw [hframe₂] at hread
    cases closes hframe₂ hclose with
    | inList => exact hpush.trans hread

/-- A tag in a table that is none of a cell. -/
theorem attaches_deeper {draft : TableDraft} {depth : Nat} (hn : name ≠ "td" ∧ name ≠ "th")
    (hwithin : Region.table.inside name = some within)
    (hframe : b₁.frame = .table draft (depth + 1))
    (hdocument : b₁.document = (b.pushTag name attributes).document) :
    Gains b.document draft.cells (inside.tables within b₁.document.styles.size) b₃.document
      b₃.frame.cells ∧
    ∀ rows, Tabled b.document draft rows → ∃ draft', b₃.frame = .table draft' depth ∧
      draft'.style = draft.style ∧
        Tabled b₃.document draft' (inside.rows b₁.document.styles.size rows) := by
  obtain rfl : Region.table = within := by simpa [Region.inside, hn] using hwithin
  have hpush := b.gains_pushTag (w := draft.cells) name attributes
  rw [← hdocument] at hpush
  obtain ⟨hgains, htabled⟩ := ih (ready_of_table hframe)
  have hfollows := (level_run inside hinside).frame
  rw [hframe] at hfollows
  obtain ⟨draft₂, -, hframe₂⟩ := hfollows.cases
  rw [hframe, hframe₂] at hgains
  cases closes hframe₂ hclose with
  | inTable =>
    -- At the end of a row nothing changes but the number of columns.
    have hcells : (if name = "tr" then draft₂.endRow else draft₂).cells = draft₂.cells := by
      split
      · exact draft₂.cells_endRow
      · rfl
    refine ⟨?_, fun rows hrows => ?_⟩
    · show Gains _ _ _ b₂.document (if name = "tr" then draft₂.endRow else draft₂).cells
      rw [hcells]
      exact hpush.trans hgains
    · obtain ⟨draft₃, hsame, hstyle, hrows₂⟩ := htabled hframe (hrows.mono hpush.shapes hpush.nodes)
      obtain ⟨rfl, -⟩ := Frame.table.inj (hframe₂.symm.trans hsame)
      refine ⟨_, rfl, ?_, ?_⟩
      · split
        · exact draft₂.style_endRow.trans hstyle
        · exact hstyle
      · show Tabled b₂.document (if name = "tr" then draft₂.endRow else draft₂) _
        split
        · exact hrows₂.endRow
        · exact hrows₂

theorem attaches_table {draft : TableDraft} {depth : Nat} (hframe : b.frame = .table draft depth)
    (hopen : b.openInTable p draft depth name attributes = .ok b₁)
    (hwithin : Region.table.inside name = some within) :
    Gains b.document draft.cells (inside.tables within b₁.document.styles.size) b₃.document
      b₃.frame.cells ∧
    ∀ rows, Tabled b.document draft rows → ∃ draft', b₃.frame = .table draft' depth ∧
      draft'.style = draft.style ∧ Tabled b₃.document draft'
        (if name = "td" ∨ name = "th" then rows.modifyHead (· ++ [b.document.styles.size])
        else inside.rows b₁.document.styles.size (if name = "tr" then [] :: rows else rows)) := by
  by_cases hn : name = "td" ∨ name = "th"
  · obtain rfl : Region.content = within := by simpa [Region.inside, hn] using hwithin
    obtain ⟨hrows, columns, hcolumns, rfl⟩ := openInTable_cell hn hopen
    have hmake := b.gains_makeTag (w := draft.cells) name attributes
      (.tableCell columns) rfl
    have hshape := b.shape_makeTag name attributes (.tableCell columns)
    obtain ⟨left, hread, -, hleft, hsettle⟩ := gains_enclosed
      (b.seats_makeTag name attributes (.tableCell columns) rfl) hin₁ hinside ih hclose
      (b.document.size :: draft.cells)
    have hleft : left.frame = .table draft depth := hleft.trans hframe
    obtain ⟨registered, hr, rfl⟩ := settle_cell hleft hsettle
    have hregister := gains_register (w := b.document.size :: draft.cells) hr
    have hwhole := (hmake.trans hread).trans hregister
    have hshape₃ := shape_mono (hread.trans hregister).shapes hshape
    refine ⟨?_, fun rows htabled => ⟨_, rfl, draft.style_addCell _ _, ?_⟩⟩
    · rw [size_enterContainer]
      have hcells := TableDraft.cells_addCell hrows b.document.size columns
      show Gains _ _ _ registered.document (draft.addCell b.document.size columns).cells
      simpa using hwhole.perm (.refl _) hcells.symm
    · rw [if_pos hn]
      exact (htabled.mono hwhole.shapes hwhole.nodes).addCell hrows hshape₃ hcolumns htabled.style
  · have hne : name ≠ "td" ∧ name ≠ "th" := not_or.1 hn
    cases opensTable hopen with
    | cell hcell => exact absurd hcell hn
    | row htr =>
      obtain ⟨hgains, htabled⟩ := attaches_deeper hin₁ hinside ih hclose hne hwithin rfl rfl
      refine ⟨hgains, fun rows hrows => ?_⟩
      rw [if_neg hn, if_pos htr]
      exact htabled _ (hrows.addRow _)
    | other hother =>
      obtain ⟨hgains, htabled⟩ := attaches_deeper hin₁ hinside ih hclose hne hwithin rfl rfl
      refine ⟨hgains, fun rows hrows => ?_⟩
      rw [if_neg hn, if_neg hother.2.2]
      exact htabled _ hrows

end

/-! ### Whole forests -/

/-- What is read of an element as a whole. -/
theorem run_single (hopen : b.opened p name attributes = .ok b₁)
    (hinside : b₁.run inside.events = .ok b₂) (hclose : b₂.closed q name = .ok b₃) :
    b.run (Forest.element p name attributes inside q .nil).events = .ok b₃ :=
  run_cons_ok.2 ⟨b₁, hopen, run_append_ok.2 ⟨b₂, hinside, run_cons_ok.2 ⟨b₃, hclose, rfl⟩⟩⟩

theorem size_run {f : Forest} (hin : Inside region b) (h : b.run f.events = .ok b') :
    b'.document.styles.size = b.document.styles.size + f.nodeCount region := by
  rw [(mirrors_run f none hin h).size, f.length_nodes_tags]

/-- An element does what its region says. -/
theorem attaches_element (hin : Inside region b) (hready : Ready b)
    (hopen : b.opened p name attributes = .ok b₁) (hinside : b₁.run inside.events = .ok b₂)
    (hclose : b₂.closed q name = .ok b₃)
    (ih : ∀ {within}, Inside within b₁ → Ready b₁ → Attaches inside within b₁ b₂) :
    Attaches (.element p name attributes inside q .nil) region b b₃ := by
  have hlevel : Level b b₃ := level_run _ (run_single hopen hinside hclose)
  cases hwithin : region.inside name with
  | none =>
    have hstill : Still b b₃ := still_element hin.frame hwithin hopen hinside hclose
    have hne : region ≠ .table := by
      rintro rfl
      simp [Region.inside] at hwithin
    refine attaches_of_gains hin.frame hne hlevel ?_
    simpa [Forest.tables, hwithin] using gains_of_eq (w := []) hstill.elements hstill.roots
      (Nat.le_of_eq (by rw [hstill.tree]))
  | some within =>
    obtain ⟨_, hentered, -⟩ := opened_adds (p := p) hin hwithin hopen none
    have hin₁ := hentered.inside
    have hsize : b₁.document.styles.size =
        b.document.styles.size + region.nodeCount name attributes := hentered.size
    cases opens_of_region hin.frame hopen with
    | root h =>
      refine attaches_of_gains hin.frame (by decide) hlevel ?_
      simpa [Forest.tables, hwithin, ← hsize] using
        gains_root hin₁ hinside (ih hin₁) hclose hwithin h
    | content h =>
      refine attaches_of_gains hin.frame (by decide) hlevel ?_
      simpa [Forest.tables, hwithin, ← hsize] using
        gains_content hin₁ hinside (ih hin₁) hclose hin hready hwithin h
    | list hframe h =>
      refine attaches_of_gains hin.frame (by decide) hlevel ?_
      simpa [Forest.tables, hwithin, ← hsize] using
        gains_list hin₁ hinside (ih hin₁) hclose hready hwithin hframe h
    | @table draft depth hframe h =>
      have hcell : b.openInTable p draft depth name attributes = .ok b₁ := by
        simpa only [opened, hframe] using hopen
      obtain ⟨hgains, htabled⟩ := attaches_table hin₁ hinside (ih hin₁) hclose hframe hcell hwithin
      refine ⟨?_, fun {draft' depth' rows} hframe' hrows => ?_⟩
      · rw [hframe]
        show Gains _ draft.cells _ _ _
        simpa [Forest.tables, hwithin, ← hsize] using hgains
      · obtain ⟨rfl, rfl⟩ := Frame.table.inj (hframe.symm.trans hframe')
        simpa [Forest.rows, ← hsize] using htabled rows hrows

/-- Behind an element the others go on. -/
theorem Attaches.cons {rest : Forest}
    (h : Attaches (.element p name attributes inside q .nil) region b b₁) (hin : Inside region b)
    (hsize : b₁.document.styles.size = b.document.styles.size +
      (Forest.element p name attributes inside q .nil).nodeCount region)
    (h' : Attaches rest region b₁ b') :
    Attaches (.element p name attributes inside q rest) region b b' where
  gains := by
    rw [Forest.tables_cons, ← hsize]
    exact h.gains.trans h'.gains
  tabled {draft depth rows} hframe hrows := by
    obtain rfl : Region.table = region := by
      have hregion := hin.frame
      rw [hframe] at hregion
      exact Option.some.inj hregion
    obtain ⟨draft₁, hframe₁, hstyle₁, hrows₁⟩ := h.tabled hframe hrows
    obtain ⟨draft₂, hframe₂, hstyle₂, hrows₂⟩ := h'.tabled hframe₁ hrows₁
    rw [hsize] at hrows₂
    exact ⟨draft₂, hframe₂, hstyle₂.trans hstyle₁, Forest.rows_cons .. ▸ hrows₂⟩

theorem attaches_run : ∀ (f : Forest) {region : Region} {b b' : Builder}, Inside region b →
    Ready b → b.run f.events = .ok b' → Attaches f region b b'
  | .nil, region, b, b', _, _, h => by
    obtain rfl := Except.ok.inj h
    exact ⟨gains_of_eq rfl rfl (Nat.le_refl _), fun hframe hrows => ⟨_, hframe, rfl, hrows⟩⟩
  | .text p s rest, region, b, b', hin, hready, h => by
    obtain ⟨b₁, htext, hrest⟩ := run_text h
    have hin₁ := hin.textRead htext
    obtain rfl := textRead_of_region hin.frame htext
    obtain ⟨hgains, htabled⟩ := attaches_run rest hin₁ ⟨hready.content, hready.list⟩ hrest
    exact ⟨hgains, htabled⟩
  | .element p name attributes inside q rest, region, b, b', hin, hready, h => by
    obtain ⟨b₁, b₂, b₃, hopen, hinside, hclose, hrest⟩ := run_element h
    have hsingle := run_single hopen hinside hclose
    have hfirst := attaches_element hin hready hopen hinside hclose fun hin₁ hready₁ =>
      attaches_run inside hin₁ hready₁ hinside
    have hready₃ := hready.level (level_run _ hsingle) hfirst.gains.shapes hfirst.gains.nodes
    have hmore := attaches_run rest (inside_run hin hsingle) hready₃ hrest
    exact hfirst.cons hin (size_run hin hsingle) hmore

end Builder

end RichText
