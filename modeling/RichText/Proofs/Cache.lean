/-
# What is remembered is what would be computed

`compute` answers without a look at what is remembered: for a stylesheet from
its rules, for a set from what its stylesheets compute. An answer is remembered
under the tree and the node, and stays right as long as the rules stay, since
a tree grows behind its nodes and no two trees have one name. `Sound` says so
of every cache; no step of a program breaks it (`World.Sound.step`), so what is
remembered never shows (`World.Reached.caches_invisible`).

Key definitions: `SheetSet.compute`, `Resolver.compute`, `Cache.Sound`,
`World.Sound`, `Resolver.IsClear`.
Key theorems: `World.Sound.step`, `World.Reached.caches_invisible`.
-/
import RichText.Proofs.RuleOrder
import RichText.Proofs.Runs
import RichText.Proofs.TreeGrowth

namespace RichText

/-! ### Computing -/

/-- The style that the stylesheets of a set compute for a node. -/
def SheetSet.compute (set : SheetSet) (t : StyleTree) (node : Nat) : Option Style :=
  mergeAll (set.sheets.filterMap fun s => s.compute t node)

/-- The style that the rules held now give a node. -/
def Resolver.compute (t : StyleTree) (node : Nat) : Resolver → Option Style
  | absent => none
  | sheet s => s.compute t node
  | set s => s.compute t node

theorem StyleSheet.compute_forget (s : StyleSheet) (t : StyleTree) (node : Nat) :
    s.forget.compute t node = s.compute t node := rfl

theorem StyleSheet.compute_of_forget_eq {s s' : StyleSheet} (h : s'.forget = s.forget) :
    s'.compute = s.compute := by
  funext t node
  rw [← s'.compute_forget, h, s.compute_forget]

theorem SheetSet.compute_of_forget_eq {set set' : SheetSet}
    (h : set'.sheets.map StyleSheet.forget = set.sheets.map StyleSheet.forget) :
    set'.compute = set.compute := by
  have hmap : ∀ (sheets : List StyleSheet) (t : StyleTree) (node : Nat),
      (sheets.map StyleSheet.forget).filterMap (fun s => s.compute t node) =
        sheets.filterMap fun s => s.compute t node := by
    intro sheets t node
    rw [List.filterMap_map]
    rfl
  funext t node
  unfold compute
  rw [← hmap, h, hmap]

/-- A style computed for a node stays the same while the tree grows. -/
theorem StyleSheet.compute_of_grows (s : StyleSheet) {t t' : StyleTree} (h : t.Grows t')
    {node : Nat} (hn : node < t.size) : s.compute t' node = s.compute t node := by
  unfold compute matching
  rw [h.keysAbove_eq node hn]

theorem SheetSet.compute_of_grows (set : SheetSet) {t t' : StyleTree} (h : t.Grows t')
    {node : Nat} (hn : node < t.size) : set.compute t' node = set.compute t node := by
  unfold compute
  simp only [StyleSheet.compute_of_grows _ h hn]

/-! ### Asking changes nothing but what is remembered -/

theorem StyleSheet.forget_resolve (s : StyleSheet) (t : StyleTree) (node : Nat) :
    (s.resolve t node).2.forget = s.forget := by
  unfold resolve
  split <;> rfl

theorem SheetSet.map_forget_resolveEach (t : StyleTree) (node : Nat) : ∀ sheets : List StyleSheet,
    (resolveEach t node sheets).2.map StyleSheet.forget = sheets.map StyleSheet.forget
  | [] => rfl
  | s :: sheets => by
    simp only [resolveEach, List.map_cons]
    rw [s.forget_resolve, map_forget_resolveEach t node sheets]

theorem SheetSet.forget_resolve (set : SheetSet) (t : StyleTree) (node : Nat) :
    (set.resolve t node).2.forget = set.forget := by
  unfold resolve
  split
  · rfl
  · simp only [forget, map_forget_resolveEach]

theorem Resolver.forget_resolve (r : Resolver) (t : StyleTree) (node : Nat) :
    (r.resolve t node).2.forget = r.forget := by
  cases r with
  | absent => rfl
  | sheet s => exact congrArg sheet (s.forget_resolve t node)
  | set s => exact congrArg set (s.forget_resolve t node)

theorem Resolver.forget_forget (r : Resolver) : r.forget.forget = r.forget := by
  cases r with
  | absent => rfl
  | sheet s => rfl
  | set s => simp [Resolver.forget, SheetSet.forget, StyleSheet.forget]

/-! ### Remembering -/

/-- Everything remembered is what would be computed, for a node of one of the
trees. -/
def Cache.Sound (cache : Cache) (trees : List StyleTree)
    (compute : StyleTree → Nat → Option Style) : Prop :=
  ∀ id node answer, cache[(id, node)]? = some answer →
    ∃ t ∈ trees, t.id = id ∧ node < t.size ∧ answer = compute t node

/-- Trees of which no two have one name. -/
def Distinct (trees : List StyleTree) : Prop := trees.Pairwise fun t t' => t.id ≠ t'.id

theorem Distinct.eq {trees : List StyleTree} (h : Distinct trees) {t t' : StyleTree}
    (ht : t ∈ trees) (ht' : t' ∈ trees) (hid : t.id = t'.id) : t = t' := by
  induction h with
  | nil => simp at ht
  | cons hne _ ih =>
    rcases List.mem_cons.1 ht with h1 | h1
    · rcases List.mem_cons.1 ht' with h2 | h2
      · rw [h1, h2]
      · exact absurd hid (h1 ▸ hne _ h2)
    · rcases List.mem_cons.1 ht' with h2 | h2
      · exact absurd hid.symm (h2 ▸ hne _ h1)
      · exact ih h1 h2

namespace Cache.Sound

variable {cache : Cache} {trees : List StyleTree} {compute : StyleTree → Nat → Option Style}

theorem empty (trees : List StyleTree) (compute : StyleTree → Nat → Option Style) :
    Cache.Sound ∅ trees compute := by
  intro id node answer h
  simp at h

theorem eq_compute (h : Cache.Sound cache trees compute) (hd : Distinct trees) {t : StyleTree}
    (ht : t ∈ trees) {node : Nat} {answer : Option Style}
    (hc : cache[(t.id, node)]? = some answer) : answer = compute t node := by
  obtain ⟨t', ht', hid, _, rfl⟩ := h t.id node answer hc
  rw [hd.eq ht' ht hid]

theorem insert (h : Cache.Sound cache trees compute) {t : StyleTree} (ht : t ∈ trees) {node : Nat}
    (hn : node < t.size) :
    Cache.Sound (cache.insert (t.id, node) (compute t node)) trees compute := by
  intro id n answer hc
  rw [Std.HashMap.getElem?_insert] at hc
  split at hc
  · next heq =>
    obtain ⟨rfl, rfl⟩ : t.id = id ∧ node = n := by simpa using heq
    exact ⟨t, ht, rfl, hn, (Option.some.inj hc).symm⟩
  · exact h id n answer hc

/-- The trees may grow, and others may come, if what is computed stays. -/
theorem mono (h : Cache.Sound cache trees compute) {trees' : List StyleTree}
    (hg : ∀ t ∈ trees, ∃ t' ∈ trees', t.Grows t')
    (hc : ∀ {t t' : StyleTree}, t.Grows t' → ∀ {node : Nat}, node < t.size →
      compute t' node = compute t node) : Cache.Sound cache trees' compute := by
  intro id node answer hans
  obtain ⟨t, ht, hid, hn, rfl⟩ := h id node answer hans
  obtain ⟨t', ht', hgrow⟩ := hg t ht
  exact ⟨t', ht', hgrow.id_eq.trans hid, Nat.lt_of_lt_of_le hn hgrow.size_le, (hc hgrow hn).symm⟩

end Cache.Sound

/-! ### Stylesheets and sets -/

structure StyleSheet.Sound (trees : List StyleTree) (s : StyleSheet) : Prop where
  cache : s.cache.Sound trees s.compute
  made : ∃ h, s.MadeBy h

structure SheetSet.Sound (trees : List StyleTree) (set : SheetSet) : Prop where
  cache : set.cache.Sound trees set.compute
  sheets : ∀ s ∈ set.sheets, s.Sound trees

def Resolver.Sound (trees : List StyleTree) : Resolver → Prop
  | absent => True
  | sheet s => s.Sound trees
  | set s => s.Sound trees

variable {trees : List StyleTree} {t : StyleTree} {node : Nat}

/-- An answer is what would be computed, and what is remembered stays sound. -/
theorem StyleSheet.Sound.resolve {s : StyleSheet} (h : s.Sound trees) (hd : Distinct trees)
    (ht : t ∈ trees) (hn : node < t.size) :
    (s.resolve t node).1 = s.compute t node ∧ (s.resolve t node).2.Sound trees := by
  unfold StyleSheet.resolve
  split
  · next answer hc => exact ⟨h.cache.eq_compute hd ht hc, h⟩
  · exact ⟨rfl, h.cache.insert ht hn, h.made⟩

theorem SheetSet.resolveEach_sound : ∀ {sheets : List StyleSheet}, (∀ s ∈ sheets, s.Sound trees) →
    Distinct trees → t ∈ trees → node < t.size →
    (resolveEach t node sheets).1 = sheets.filterMap (fun s => s.compute t node) ∧
      ∀ s ∈ (resolveEach t node sheets).2, s.Sound trees
  | [], _, _, _, _ => ⟨rfl, by simp [resolveEach]⟩
  | s :: sheets, h, hd, ht, hn => by
    obtain ⟨h1, h2⟩ := (h s List.mem_cons_self).resolve hd ht hn
    obtain ⟨i1, i2⟩ := resolveEach_sound (fun s' hs' => h s' (List.mem_cons_of_mem _ hs')) hd ht hn
    refine ⟨?_, fun s' hs' => ?_⟩
    · simp only [resolveEach]
      rw [h1, i1]
      cases hc : s.compute t node <;> simp [hc]
    · rcases List.mem_cons.1 hs' with rfl | hs'
      · exact h2
      · exact i2 s' hs'

theorem SheetSet.Sound.resolve {set : SheetSet} (h : set.Sound trees) (hd : Distinct trees)
    (ht : t ∈ trees) (hn : node < t.size) :
    (set.resolve t node).1 = set.compute t node ∧ (set.resolve t node).2.Sound trees := by
  unfold SheetSet.resolve
  split
  · next answer hc => exact ⟨h.cache.eq_compute hd ht hc, h⟩
  · obtain ⟨h1, h2⟩ := resolveEach_sound h.sheets hd ht hn
    have hans : mergeAll (resolveEach t node set.sheets).1 = set.compute t node := by
      rw [h1]
      rfl
    have hcomp : ∀ cache : Cache,
        (SheetSet.mk (resolveEach t node set.sheets).2 cache).compute = set.compute :=
      fun _ => compute_of_forget_eq (map_forget_resolveEach t node set.sheets)
    refine ⟨hans, ?_, h2⟩
    simp only [hans, hcomp]
    exact h.cache.insert ht hn

theorem Resolver.Sound.resolve {r : Resolver} (h : r.Sound trees) (hd : Distinct trees)
    (ht : t ∈ trees) (hn : node < t.size) :
    (r.resolve t node).1 = r.compute t node ∧ (r.resolve t node).2.Sound trees := by
  cases r with
  | absent => exact ⟨rfl, trivial⟩
  | sheet s => exact StyleSheet.Sound.resolve h hd ht hn
  | set s => exact SheetSet.Sound.resolve h hd ht hn

/-- What is remembered stays sound while trees grow and others come. -/
theorem Resolver.Sound.mono {r : Resolver} (h : r.Sound trees) {trees' : List StyleTree}
    (hg : ∀ t ∈ trees, ∃ t' ∈ trees', t.Grows t') : r.Sound trees' := by
  have hsheet : ∀ s : StyleSheet, s.Sound trees → s.Sound trees' := fun s hs =>
    ⟨hs.cache.mono hg fun hgrow _ hn => s.compute_of_grows hgrow hn, hs.made⟩
  cases r with
  | absent => trivial
  | sheet s => exact hsheet s h
  | set s =>
    exact ⟨h.cache.mono hg fun hgrow _ hn => s.compute_of_grows hgrow hn,
      fun s' hs' => hsheet s' (h.sheets s' hs')⟩

theorem StyleSheet.Sound.forget {s : StyleSheet} (h : s.Sound trees) : s.forget.Sound trees :=
  ⟨Cache.Sound.empty _ _, h.made⟩

theorem Resolver.Sound.forget {r : Resolver} (h : r.Sound trees) : r.forget.Sound trees := by
  cases r with
  | absent => trivial
  | sheet s => exact StyleSheet.Sound.forget h
  | set s =>
    refine ⟨Cache.Sound.empty _ _, fun s' hs' => ?_⟩
    obtain ⟨s, hs, rfl⟩ := List.mem_map.1 hs'
    exact (h.sheets s hs).forget

/-- Nothing is remembered, in the stylesheets of a set neither. -/
def Resolver.IsClear : Resolver → Prop
  | absent => True
  | sheet s => s.cache.isEmpty = true
  | set s => s.cache.isEmpty = true ∧ ∀ s' ∈ s.sheets, s'.cache.isEmpty = true

theorem Resolver.isClear_forget (r : Resolver) : r.forget.IsClear := by
  cases r with
  | absent => trivial
  | sheet s => exact Std.HashMap.isEmpty_empty
  | set s =>
    refine ⟨Std.HashMap.isEmpty_empty, fun s' hs' => ?_⟩
    obtain ⟨s, _, rfl⟩ := List.mem_map.1 hs'
    exact Std.HashMap.isEmpty_empty

theorem StyleSheet.sound_new (registry : Registry) : (StyleSheet.new registry).Sound trees :=
  ⟨Cache.Sound.empty _ _, ⟨registry, []⟩, rfl⟩

/-- A text that is refused leaves the cache, one that is read leaves none. -/
theorem StyleSheet.Sound.parse {s : StyleSheet} (h : s.Sound trees) (source : ByteSource) :
    (s.parse source).2.Sound trees := by
  obtain ⟨history, hmade⟩ := h.made
  refine ⟨?_, _, hmade.parse source⟩
  unfold StyleSheet.parse
  split
  · exact h.cache
  · exact Cache.Sound.empty _ _

theorem SheetSet.Sound.push {set : SheetSet} (h : set.Sound trees) {s : StyleSheet}
    (hs : s.Sound trees) : (set.push s).Sound trees := by
  refine ⟨Cache.Sound.empty _ _, fun s' hs' => ?_⟩
  rcases List.mem_append.1 hs' with hs' | hs'
  · exact h.sheets s' hs'
  · rw [List.mem_singleton.1 hs']
    exact hs

/-! ### Runs -/

/-- An item may take the place of one with the same image. -/
theorem map_set_of_eq {α β : Type} {f : α → β} {items : List α} {k : Nat} {a b : α}
    (h : items[k]? = some a) (hf : f b = f a) : (items.set k b).map f = items.map f := by
  obtain ⟨hk, rfl⟩ := List.getElem?_eq_some_iff.1 h
  have hk' : k < (items.map f).length := by rwa [List.length_map]
  rw [List.map_set, hf, ← List.getElem_map f (h := hk'), List.set_getElem_self]

namespace World

structure Sound (w : World) : Prop where
  distinct : Distinct w.trees
  resolvers : ∀ r ∈ w.resolvers, r.Sound w.trees

namespace Sound

variable {w : World}

theorem resolver? (h : w.Sound) {p : Place} {r : Resolver} (hr : w.resolver? p = some r) :
    r.Sound w.trees := by
  cases p with
  | own i => exact h.resolvers r (List.mem_of_getElem? hr)
  | member i k =>
    obtain ⟨set, s, hset, hs, rfl⟩ := resolver?_member hr
    exact (h.resolvers _ (List.mem_of_getElem? hset)).sheets s (List.mem_of_getElem? hs)

theorem set_resolver (h : w.Sound) (i : Nat) {r : Resolver} (hr : r.Sound w.trees) :
    Sound { w with resolvers := w.resolvers.set i r } := by
  refine ⟨h.distinct, fun r' hr' => ?_⟩
  rcases List.mem_or_eq_of_mem_set hr' with hr' | rfl
  · exact h.resolvers r' hr'
  · exact hr

theorem add_resolver (h : w.Sound) {r : Resolver} (hr : r.Sound w.trees) :
    Sound { w with resolvers := w.resolvers ++ [r] } := by
  refine ⟨h.distinct, fun r' hr' => ?_⟩
  rcases List.mem_append.1 hr' with hr' | hr'
  · exact h.resolvers r' hr'
  · rw [List.mem_singleton.1 hr']
    exact hr

/-- A resolver may take the place of one that holds the same. A set computes
what it did, whatever its stylesheets remember. -/
theorem put (h : w.Sound) {p : Place} {r r' : Resolver} (hr : w.resolver? p = some r)
    (hr' : r'.Sound w.trees) (hf : r'.forget = r.forget) : (w.put p r').Sound := by
  cases p with
  | own i => exact h.set_resolver i hr'
  | member i k =>
    obtain ⟨set, s, hset, hs, rfl⟩ := resolver?_member hr
    cases r' with
    | absent => simp [Resolver.forget] at hf
    | set _ => simp [Resolver.forget] at hf
    | sheet s' =>
      have hsound : set.Sound w.trees := h.resolvers _ (List.mem_of_getElem? hset)
      have hforget : (set.sheets.set k s').map StyleSheet.forget = set.sheets.map StyleSheet.forget :=
        map_set_of_eq hs (by simpa [Resolver.forget] using hf)
      have hcomp : (SheetSet.mk (set.sheets.set k s') set.cache).compute = set.compute :=
        SheetSet.compute_of_forget_eq hforget
      rw [put_member hset]
      refine h.set_resolver i ⟨?_, fun s'' hs'' => ?_⟩
      · rw [hcomp]
        exact hsound.cache
      · rcases List.mem_or_eq_of_mem_set hs'' with hs'' | rfl
        · exact hsound.sheets s'' hs''
        · exact hr'

theorem grow (h : w.Sound) {k : Nat} {t t' : StyleTree} (ht : w.trees[k]? = some t)
    (hg : t.Grows t') : Sound { w with trees := w.trees.set k t' } := by
  refine ⟨?_, fun r hr => (h.resolvers r hr).mono fun u hu => ?_⟩
  · have hd : (w.trees.map (·.id)).Pairwise (· ≠ ·) := List.pairwise_map.2 h.distinct
    rw [← map_set_of_eq ht hg.id_eq] at hd
    exact List.pairwise_map.1 hd
  · obtain ⟨hk, rfl⟩ := List.getElem?_eq_some_iff.1 ht
    obtain ⟨j, hj, rfl⟩ := List.getElem_of_mem hu
    by_cases hjk : j = k
    · subst hjk
      exact ⟨t', List.mem_set hj t', hg⟩
    · refine ⟨w.trees[j], List.mem_of_getElem? (i := j) ?_, StyleTree.Grows.refl _⟩
      rw [List.getElem?_set_ne (Ne.symm hjk), List.getElem?_eq_getElem hj]

theorem enter (h : w.Sound) {t : StyleTree} (fresh : ∀ t' ∈ w.trees, t'.id ≠ t.id) :
    Sound { w with trees := w.trees ++ [t] } := by
  refine ⟨?_, fun r hr => (h.resolvers r hr).mono fun t' ht' => ?_⟩
  · refine List.pairwise_append.2 ⟨h.distinct, List.pairwise_singleton _ _, fun t' ht' u hu => ?_⟩
    rw [List.mem_singleton.1 hu]
    exact fresh t' ht'
  · exact ⟨t', List.mem_append_left _ ht', StyleTree.Grows.refl _⟩

theorem bounds (h : w.Sound) {p : Place} {w' : World} (hb : w.Bounds p w') : w'.Sound := by
  obtain ⟨r, passes, hr, rfl⟩ := hb.exists_put
  have hput : (w.put p r.forget).Sound := h.put hr (h.resolver? hr).forget (Resolver.forget_forget r)
  exact ⟨hput.distinct, hput.resolvers⟩

/-- **No step breaks the caches.** -/
theorem step (h : w.Sound) {w' : World} (hs : w.Step w') : w'.Sound := by
  cases hs with
  | enter t fresh => exact h.enter fresh
  | newSheet registry => exact h.add_resolver (StyleSheet.sound_new registry)
  | newSet => exact h.add_resolver ⟨Cache.Sound.empty _ _, by simp⟩
  | parse hi source =>
    exact h.set_resolver _ (StyleSheet.Sound.parse (h.resolvers _ (List.mem_of_getElem? hi)) source)
  | move hi hj _ =>
    have hsheet := h.resolvers _ (List.mem_of_getElem? hi)
    have hset := h.resolvers _ (List.mem_of_getElem? hj)
    have hleft : Resolver.absent.Sound w.trees := trivial
    exact (h.set_resolver _ hleft).set_resolver _ (SheetSet.Sound.push hset hsheet)
  | push ht parent _ key raw => exact h.grow ht (StyleTree.grows_push _ parent key raw)
  | derive ht _ hd => exact h.grow ht (StyleTree.grows_deriveWith hd)
  | strip ht _ => exact h.grow ht (StyleTree.grows_withoutNonInheritable _ _)
  | resolve hr ht hn =>
    exact h.put hr ((h.resolver? hr).resolve h.distinct ht hn).2 (Resolver.forget_resolve _ _ _)
  | layout hb => exact h.bounds hb

end Sound

theorem Reached.sound {w : World} (h : w.Reached) : w.Sound := by
  induction h with
  | start => exact ⟨List.Pairwise.nil, by simp⟩
  | step _ hs ih => exact ih.step hs

theorem Bounds.isClear {w w' : World} {p : Place} (h : w.Bounds p w') :
    ∃ r, w'.resolver? p = some r ∧ r.IsClear := by
  obtain ⟨r, passes, hr, rfl⟩ := h.exists_put
  have hput : (w.put p r.forget).resolver? p = some r.forget :=
    resolver?_put hr (Resolver.forget_forget r)
  exact ⟨r.forget, hput, Resolver.isClear_forget r⟩

/-- **Caches do not show.** In every world that can be reached, a resolver asked
about a node of a tree answers what the rules held now give it, and is the same
but for what it remembers; and where a layout begins or ends, nothing is
remembered. -/
theorem Reached.caches_invisible {w : World} (hw : w.Reached) :
    (∀ p r, w.resolver? p = some r → ∀ t ∈ w.trees, ∀ node, node < t.size →
      (r.resolve t node).1 = r.compute t node ∧ (r.resolve t node).2.forget = r.forget) ∧
    ∀ p w', w.Bounds p w' → ∃ r, w'.resolver? p = some r ∧ r.IsClear := by
  refine ⟨fun p r hr t ht node hn => ⟨?_, Resolver.forget_resolve r t node⟩, fun p w' hb => hb.isClear⟩
  exact ((hw.sound.resolver? hr).resolve hw.sound.distinct ht hn).1

end World

/-- A tree of one paragraph. -/
def paragraph : StyleTree :=
  (StyleTree.empty 1 .standard).push none (some (.of "p" none none)) .empty

def grownParagraph : StyleTree := paragraph.push (some 0) (some (.of "em" none none)) .empty

def paragraphSheet : StyleSheet :=
  ((StyleSheet.new .standard).parse (.ofString "p \x7b tab-size: 3 \x7d")).2

/-- A set of the stylesheet, which remembers the paragraph. -/
def paragraphSet : SheetSet := SheetSet.push {} (paragraphSheet.resolve paragraph 0).2

namespace World

/-- The tree has grown, and the stylesheet that was asked before is in a set. -/
def moved : World := { trees := [grownParagraph], resolvers := [.absent, .set paragraphSet] }

theorem reached_moved : moved.Reached := by
  have h1 : Reached { trees := [paragraph] } := .step .start (.enter paragraph (by simp))
  have h2 := h1.step (.newSheet .standard)
  have h3 : Reached { trees := [paragraph], resolvers := [.sheet paragraphSheet] } :=
    h2.step (.parse (i := 0) rfl (.ofString "p \x7b tab-size: 3 \x7d"))
  have hnode : 0 < paragraph.size := by decide
  have h4 := h3.step (.resolve (p := .own 0) rfl List.mem_cons_self hnode)
  have h5 := h4.step .newSet
  have h6 := h5.step (.move (i := 0) (j := 1) rfl rfl List.not_mem_nil)
  exact h6.step (.push (k := 0) rfl (some 0) (by decide) _ _)

theorem caches_invisible_moved :
    moved.Reached ∧ moved.resolver? (.own 1) = some (.set paragraphSet) ∧
      grownParagraph ∈ moved.trees ∧ 0 < grownParagraph.size ∧
      (paragraphSet.resolve grownParagraph 0).1.bind (·.get? Standard.tabSize) = some (.integer 3) := by
  have hset : moved.resolver? (.own 1) = some (.set paragraphSet) := rfl
  have htree : grownParagraph ∈ moved.trees := List.mem_cons_self
  have hnode : 0 < grownParagraph.size := by decide
  refine ⟨reached_moved, hset, htree, hnode, ?_⟩
  have hans : (paragraphSet.resolve grownParagraph 0).1 = paragraphSet.compute grownParagraph 0 :=
    (reached_moved.caches_invisible.1 (.own 1) _ hset _ htree 0 hnode).1
  have hcomp : paragraphSet.compute = (SheetSet.push {} paragraphSheet).compute :=
    SheetSet.compute_of_forget_eq (by simp [paragraphSet, SheetSet.push, StyleSheet.forget_resolve])
  rw [hans, hcomp]
  decide +kernel

end World

end RichText
