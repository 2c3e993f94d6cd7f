/-
# A declaration is made as a whole or not at all

All of a declaration is read before any of it is written. What is read is a
refusal that says why, or writes to different standard attributes of values
that these can have, or the clearing of the tab size (`stands_writes`); and no
such write is refused, by whatever registry and in whatever style, as every
registry begins with the standard attributes (`Write.Fits.exists_write`).

`apply` tells no more than the style behind all writes. `applyInPlace` writes
into a style step by step, so that a refused write would leave those before it
behind; the two come to the same (`apply_eq`). A style in which all writes have
been made is not changed by making them again (`Write.isMade_enact`).

Key definitions: `Yields`, `Stands`, `enact`, `applyInPlace`, `Write.IsMade`.
Key theorems: `stands_writes`, `apply_eq`, `exists_enact`, `Write.isMade_enact`,
`declaration_atomic`.
-/
import RichText.Declaration.Writes

namespace RichText

/-! ### One write -/

/-- Every registry begins with the standard attributes. -/
theorem Registry.get?_standard {i : Nat} {a : Attribute} (h : Standard.attributes[i]? = some a)
    (r : Registry) : r.get? i = some a := by
  rw [get?, attributes, List.getElem?_append_left (List.getElem?_eq_some_iff.1 h).1, h]

theorem Registry.check_standard {i : Nat} {a : Attribute} {v : Value}
    (ha : Standard.attributes[i]? = some a) (ht : a.type = v.type) (r : Registry) :
    r.check i v = .ok () := by
  rw [check, get?_standard ha r]
  exact if_pos ht

namespace Style

variable {r : Registry} {i : Nat} {s s' : Style}

/-- There is room for all attributes of a registry. -/
def HasRoom (r : Registry) (s : Style) : Prop := ∃ cells, s.cells = some cells ∧ r.size ≤ cells.length

theorem put_of_check {v : Value} (h : r.check i v = .ok ()) (s : Style) :
    s.put r i v = .ok ⟨some ((s.room r.size).set i (some v))⟩ := by
  rw [put, h]

theorem check_of_put {v : Value} (h : s.put r i v = .ok s') : r.check i v = .ok () := by
  unfold put at h
  split at h
  · simp at h
  · next hc => exact hc

theorem hasRoom_put {v : Value} (h : s.put r i v = .ok s') : s'.HasRoom r := by
  rw [put_of_check (check_of_put h)] at h
  obtain rfl := Except.ok.inj h
  refine ⟨_, rfl, ?_⟩
  simp only [room, List.length_set, List.length_append, List.length_replicate]
  omega

theorem HasRoom.clear (h : s.HasRoom r) (i : Nat) : (s.clear i).HasRoom r := by
  obtain ⟨cells, hcells, hlength⟩ := h
  exact ⟨cells.set i none, by rw [Style.clear, hcells]; rfl, by rwa [List.length_set]⟩

theorem HasRoom.write (h : s.HasRoom r) {v : Option Value} (hw : s.write r i v = .ok s') :
    s'.HasRoom r := by
  cases v with
  | some v => exact hasRoom_put hw
  | none =>
    obtain rfl := Except.ok.inj hw
    exact h.clear i

/-- A write sets its ordinal, or clears it, and leaves the others alone. -/
theorem get?_write {v : Option Value} (h : s.write r i v = .ok s') (j : Nat) :
    s'.get? j = if j = i then v else s.get? j := by
  cases v with
  | some v => exact get?_put h j
  | none =>
    obtain rfl := Except.ok.inj h
    exact get?_clear i j s

/-- To put a value where it is already changes nothing. -/
theorem put_self {v : Value} (hr : s.HasRoom r) (hc : r.check i v = .ok ())
    (hv : s.get? i = some v) : s.put r i v = .ok s := by
  obtain ⟨cells, hcells, hlength⟩ := hr
  have hroom : s.room r.size = cells := by simp [room, hcells, Nat.sub_eq_zero_of_le hlength]
  have hcell : cells[i]? = some (some v) := by simpa [get?, hcells, Option.join_eq_some_iff] using hv
  obtain ⟨hi, hcell⟩ := List.getElem?_eq_some_iff.1 hcell
  rw [put_of_check hc, hroom, ← hcell, List.set_getElem_self, ← hcells]

/-- To clear what is not set changes nothing. -/
theorem clear_self (h : s.get? i = none) : s.clear i = s := by
  obtain ⟨cells⟩ := s
  cases cells with
  | none => rfl
  | some cells =>
    have hcells : cells.set i none = cells := by
      refine List.ext_getElem? fun j => ?_
      rw [List.getElem?_set]
      split
      · next hj =>
        subst hj
        split
        · next hi =>
          have hcell : cells[i] = none := by simpa [get?, hi] using h
          rw [List.getElem?_eq_getElem hi, hcell]
        · next hi => rw [List.getElem?_eq_none (Nat.le_of_not_lt hi)]
      · rfl
    simp only [clear, Option.map_some, hcells]

end Style

namespace Declaration

open Text

/-- A value that the attribute it is for can have. -/
def Write.Fits (w : Write) : Prop :=
  ∃ a v, Standard.attributes[w.ordinal]? = some a ∧ w.value = some v ∧ a.type = v.type

/-- No registry and no style refuses it. -/
theorem Write.Fits.exists_write {w : Write} (h : w.Fits) (r : Registry) (s : Style) :
    ∃ s', s.write r w.ordinal w.value = .ok s' := by
  obtain ⟨a, v, ha, hv, ht⟩ := h
  rw [hv]
  exact ⟨_, Style.put_of_check (Registry.check_standard ha ht r) s⟩

/-! ### What a declaration stands for -/

/-- A result with a property, or a refusal of the declaration alone. -/
def Yields {α : Type} (P : α → Prop) : Except StyleError α → Prop
  | .ok a => P a
  | .error e => e.isRecoverable = true

/-- A result, or a refusal of the declaration alone. -/
abbrev YieldsAny {α : Type} (x : Except StyleError α) : Prop := Yields (fun _ => True) x

section Yields

variable {α β : Type} {P : α → Prop} {Q : β → Prop} {x : Except StyleError α}

theorem Yields.map {f : α → β} (h : Yields P x) (hf : ∀ a, P a → Q (f a)) : Yields Q (x.map f) := by
  cases x with
  | ok a => exact hf a h
  | error e => exact h

theorem Yields.mono {P' : α → Prop} (h : Yields P x) (hp : ∀ a, P a → P' a) : Yields P' x := by
  cases x with
  | ok a => exact hp a h
  | error e => exact h

theorem Yields.bind {f : α → Except StyleError β} (h : Yields P x)
    (hf : ∀ a, P a → Yields Q (f a)) : Yields Q (x.bind f) := by
  cases x with
  | ok a => exact hf a h
  | error e => exact h

theorem yieldsAny_mapM {f : α → Except StyleError β} (h : ∀ a, YieldsAny (f a)) :
    ∀ items : List α, YieldsAny (items.mapM f)
  | [] => trivial
  | a :: items => by
    rw [List.mapM_cons]
    exact (h a).bind fun _ _ => (yieldsAny_mapM h items).bind fun _ _ => trivial

end Yields

section Readers

variable (value : String)

theorem yields_readKeyword (α : Type) [Keyword α] : YieldsAny (readKeyword α value) := by
  unfold readKeyword
  split
  · trivial
  · rfl

theorem yields_readKeywordOf {α : Type} (table : List (String × α)) :
    YieldsAny (readKeywordOf table value) := by
  unfold readKeywordOf
  split
  · trivial
  · rfl

theorem yields_readLength : YieldsAny (readLength value) := by
  simp only [readLength]
  split
  · trivial
  · split
    · trivial
    · split
      · rfl
      · split
        · trivial
        · rfl

theorem yields_readLengths : YieldsAny (readLengths value) :=
  yieldsAny_mapM (fun _ => yields_readLength _) _

theorem yields_readComponent (isAlpha : Bool) (s : List Char) : YieldsAny (readComponent isAlpha s) := by
  simp only [readComponent]
  split
  · trivial
  · rfl

theorem yields_readComponents (count : Nat) (s : List Char) : YieldsAny (readComponents count s) := by
  simp only [readComponents]
  split
  · rfl
  · exact yieldsAny_mapM (fun _ => yields_readComponent _ _) _

theorem yields_readColor : YieldsAny (readColor value) := by
  simp only [readColor]
  split
  · exact (yields_readComponents _ _).map fun _ _ => trivial
  · split
    · exact (yields_readComponents _ _).map fun _ _ => trivial
    · split
      · trivial
      · rfl

theorem yields_listItems (s : List Char) : YieldsAny (listItems value s) := by
  fun_induction listItems value s with
  | case1 | case3 | case6 => trivial
  | case2 | case5 => rfl
  | case4 | case7 => exact Yields.map (by assumption) fun _ _ => trivial

theorem yields_readList : YieldsAny (readList value) := yields_listItems value _

theorem yields_readWeight : YieldsAny (readWeight value) := by
  unfold readWeight
  split
  · trivial
  · split
    · trivial
    · rfl

theorem yields_leadingSize (s : List Char) : YieldsAny (leadingSize s) := by
  unfold leadingSize
  split
  · exact (yields_readLength _).map fun _ _ => trivial
  · trivial

end Readers

/-- Writes to different attributes of values that these can have. -/
structure Settable (found : List Write) : Prop where
  distinct : (found.map (·.ordinal)).Nodup
  fits : ∀ w ∈ found, w.Fits

theorem settable_set {i : Nat} {v : Value}
    (h : (Standard.attributes[i]?).map (·.type) = some v.type) : Settable (set i v) := by
  obtain ⟨a, ha, ht⟩ := Option.map_eq_some_iff.1 h
  refine ⟨by simp [set], fun w hw => ?_⟩
  obtain rfl := List.mem_singleton.1 hw
  exact ⟨a, v, ha, rfl, ht⟩

/-- Four different sides, each of which has a length. -/
structure Box.IsBox (box : Box) : Prop where
  distinct : [box.top, box.left, box.right, box.bottom].Nodup
  lengths : ∀ i ∈ [box.top, box.left, box.right, box.bottom],
    (Standard.attributes[i]?).map (·.type) = some .length

theorem isBox_margin : margin.IsBox := ⟨by decide, by decide⟩

theorem isBox_padding : padding.IsBox := ⟨by decide, by decide⟩

section Properties

variable {box : Box} (property : String) (value : String)

theorem settable_sides (h : box.IsBox) (top left right bottom : Length) :
    Settable (box.sides top left right bottom) := by
  refine ⟨h.distinct, fun w hw => ?_⟩
  have hside : w.ordinal ∈ [box.top, box.left, box.right, box.bottom] ∧
      ∃ l, w.value = some (.length l) := by
    simp only [Box.sides, List.mem_cons, List.not_mem_nil, or_false] at hw
    rcases hw with rfl | rfl | rfl | rfl <;> simp
  obtain ⟨hmem, l, hl⟩ := hside
  obtain ⟨a, ha, ht⟩ := Option.map_eq_some_iff.1 (h.lengths _ hmem)
  exact ⟨a, _, ha, hl, ht⟩

theorem settable_boxWrites (h : box.IsBox) (side : List Char) :
    Yields Settable (boxWrites box property side value) := by
  have hone : ∀ i ∈ [box.top, box.left, box.right, box.bottom],
      Yields Settable ((readLength value).map fun l => set i (.length l)) :=
    fun i hi => (yields_readLength value).map fun _ _ => settable_set (h.lengths i hi)
  simp only [boxWrites]
  split
  · exact hone _ (by simp)
  split
  · exact hone _ (by simp)
  split
  · exact hone _ (by simp)
  split
  · exact hone _ (by simp)
  split
  · refine (yields_readLengths value).bind fun lengths _ => ?_
    split
    · exact settable_sides h _ _ _ _
    · exact settable_sides h _ _ _ _
    · exact settable_sides h _ _ _ _
    · exact settable_sides h _ _ _ _
    · rfl
  · rfl

/-- The four parts of `font` are for different attributes, whichever are there. -/
theorem settable_fontWrites : Yields Settable (fontWrites value) := by
  have hpart {α : Type} (i : Nat) (f : α → Value) (x : Option α) :
      ((x.toList.map fun a => (⟨i, some (f a)⟩ : Write)).map (·.ordinal)).Sublist [i] := by
    cases x <;> simp
  have hfamilies (families : List String) :
      ((if families = [] then [] else set Standard.fontFamilies (.fontFamilies families)).map
        (·.ordinal)).Sublist [Standard.fontFamilies] := by
    split
    · exact List.nil_sublist _
    · exact List.Sublist.refl _
  refine (yields_leadingSize _).bind fun size _ => (yields_readList _).map fun families _ => ?_
  refine ⟨?_, fun w hw => ?_⟩
  · have hfont : [Standard.fontWeight, Standard.fontItalic, Standard.fontSize,
        Standard.fontFamilies].Nodup := by decide
    refine hfont.sublist ?_
    simp only [List.map_append]
    exact (((hpart _ _ _).append (hpart _ _ _)).append (hpart _ _ _)).append (hfamilies families)
  · simp only [List.mem_append, List.mem_map] at hw
    rcases hw with ((⟨x, -, rfl⟩ | ⟨x, -, rfl⟩) | ⟨x, -, rfl⟩) | hw
    · exact ⟨_, _, rfl, rfl, rfl⟩
    · exact ⟨_, _, rfl, rfl, rfl⟩
    · exact ⟨_, _, rfl, rfl, rfl⟩
    · split at hw
      · nomatch hw
      · obtain rfl := List.mem_singleton.1 hw
        exact ⟨_, _, rfl, rfl, rfl⟩

theorem settable_fontPropertyWrites : Yields Settable (fontPropertyWrites property value) := by
  unfold fontPropertyWrites
  split
  · refine (yields_readList value).bind fun families _ => ?_
    split
    · rfl
    · exact settable_set rfl
  · exact (yields_readWeight value).map fun _ _ => settable_set rfl
  · exact (yields_readLength value).map fun _ _ => settable_set rfl
  · exact (yields_readKeywordOf value _).map fun _ _ => settable_set rfl
  · exact settable_fontWrites value
  · rfl

/-- The tab size is to be that of the text around. -/
def ClearsTabs : Prop :=
  (property = "tab-size" ∨ property = "-moz-tab-size") ∧ value = "inherit"

/-- What a declaration may stand for. -/
def Stands (found : List Write) : Prop :=
  Settable found ∨ ClearsTabs property value ∧ found = [⟨Standard.tabSize, none⟩]

theorem stands_tabSize (h : property = "tab-size" ∨ property = "-moz-tab-size") :
    Yields (Stands property value)
      (if value = "inherit" then .ok [⟨Standard.tabSize, none⟩]
      else
        match Number.readInt32? value.toList with
        | some n => .ok (set Standard.tabSize (.integer n))
        | none => .error (.malformed (.badTabSize value))) := by
  split
  · next hv => exact .inr ⟨⟨h, hv⟩, rfl⟩
  · split
    · exact .inl (settable_set rfl)
    · rfl

theorem stands_plainWrites : Yields (Stands property value) (plainWrites property value) := by
  have hkeyword {α : Type} [Keyword α] {i : Nat} {f : α → Value}
      (h : ∀ a, (Standard.attributes[i]?).map (·.type) = some (f a).type) :
      Yields (Stands property value) ((readKeyword α value).map fun a => set i (f a)) :=
    (yields_readKeyword value α).map fun a _ => .inl (settable_set (h a))
  have htable {i : Nat} (table : List (String × Bool))
      (h : ∀ b, (Standard.attributes[i]?).map (·.type) = some (Value.flag b).type) :
      Yields (Stands property value) ((readKeywordOf table value).map fun b => set i (.flag b)) :=
    (yields_readKeywordOf value table).map fun b _ => .inl (settable_set (h b))
  have hlength {i : Nat}
      (h : ∀ l, (Standard.attributes[i]?).map (·.type) = some (Value.length l).type) :
      Yields (Stands property value) ((readLength value).map fun l => set i (.length l)) :=
    (yields_readLength value).map fun l _ => .inl (settable_set (h l))
  have hcolor {i : Nat}
      (h : ∀ c, (Standard.attributes[i]?).map (·.type) = some (Value.color c).type) :
      Yields (Stands property value) ((readColor value).map fun c => set i (.color c)) :=
    (yields_readColor value).map fun c _ => .inl (settable_set (h c))
  unfold plainWrites
  split
  · exact hlength fun _ => rfl
  · exact .inl (settable_set rfl)
  · exact htable _ fun _ => rfl
  · exact hkeyword fun _ => rfl
  · exact hkeyword fun _ => rfl
  · exact hkeyword fun _ => rfl
  · exact htable _ fun _ => rfl
  · exact htable _ fun _ => rfl
  · exact .inl (settable_set rfl)
  · split
    · exact .inl (settable_set rfl)
    · rfl
  · exact hkeyword fun _ => rfl
  · exact hkeyword fun _ => rfl
  · exact hkeyword fun _ => rfl
  · exact hlength fun _ => rfl
  · exact hlength fun _ => rfl
  · exact .inl (settable_set rfl)
  · exact hcolor fun _ => rfl
  · exact hcolor fun _ => rfl
  · exact hcolor fun _ => rfl
  · exact stands_tabSize _ value (.inl rfl)
  · exact stands_tabSize _ value (.inr rfl)
  · rfl

/-- Whatever a declaration is, it is refused by itself, or it stands for writes
that can be made. -/
theorem stands_writes :
    Yields (Stands property (String.ofList (trim value.toList))) (writes property value) := by
  simp only [writes]
  split
  · rfl
  split
  · exact (settable_boxWrites property _ isBox_margin _).mono fun _ => .inl
  split
  · exact (settable_boxWrites property _ isBox_padding _).mono fun _ => .inl
  split
  · exact (settable_fontPropertyWrites property _).mono fun _ => .inl
  · exact stands_plainWrites property _

end Properties

/-! ### Writing in place -/

/-- Writes made one after another, up to the first that is refused. -/
def enact (r : Registry) : List Write → Style → Except StyleError Unit × Style
  | [], s => (.ok (), s)
  | w :: found, s =>
    match s.write r w.ordinal w.value with
    | .ok s => enact r found s
    | .error e => (.error e, s)

/-- A declaration made in a style: whether it is refused, and the style then. -/
def applyInPlace (r : Registry) (property value : String) (s : Style) :
    Except StyleError Unit × Style :=
  match writes property value with
  | .ok found => enact r found s
  | .error e => (.error e, s)

/-- A write that changes nothing, as it is made in a style already. -/
def Write.IsMade (r : Registry) (s : Style) (w : Write) : Prop := s.write r w.ordinal w.value = .ok s

section Enact

variable {r : Registry} {found : List Write} {s s' : Style}

theorem foldlM_write_eq (r : Registry) : ∀ (found : List Write) (s : Style),
    found.foldlM (fun s w => s.write r w.ordinal w.value) s =
      (enact r found s).1.map fun _ => (enact r found s).2
  | [], _ => rfl
  | w :: found, s => by
    rw [List.foldlM_cons, enact]
    cases s.write r w.ordinal w.value with
    | ok s => exact foldlM_write_eq r found s
    | error e => rfl

/-- The style that `apply` returns is the one that writing in place leaves. -/
theorem apply_eq (r : Registry) (property value : String) (s : Style) :
    apply r property value s =
      (applyInPlace r property value s).1.map fun _ => (applyInPlace r property value s).2 := by
  unfold apply applyInPlace
  cases writes property value with
  | ok found => exact foldlM_write_eq r found s
  | error e => rfl

theorem enact_cons {w : Write} {s₁ : Style} (h : s.write r w.ordinal w.value = .ok s₁) :
    enact r (w :: found) s = enact r found s₁ := by
  rw [enact, h]

theorem exists_of_enact_cons {w : Write} (h : enact r (w :: found) s = (.ok (), s')) :
    ∃ s₁, s.write r w.ordinal w.value = .ok s₁ ∧ enact r found s₁ = (.ok (), s') := by
  rw [enact] at h
  split at h
  · next s₁ hw => exact ⟨s₁, hw, h⟩
  · simp at h

/-- Every write is made, whatever the registry, and shows in the style behind
all of them; what none of them is for stays. -/
theorem exists_enact (r : Registry) (hdistinct : (found.map (·.ordinal)).Nodup)
    (hfits : ∀ w ∈ found, w.value = none ∨ w.Fits) (s : Style) :
    ∃ s', enact r found s = (.ok (), s') ∧ (∀ w ∈ found, s'.get? w.ordinal = w.value) ∧
      ∀ i, (∀ w ∈ found, w.ordinal ≠ i) → s'.get? i = s.get? i := by
  induction found generalizing s with
  | nil => exact ⟨s, rfl, by simp, fun _ _ => rfl⟩
  | cons w found ih =>
    rw [List.map_cons, List.nodup_cons] at hdistinct
    rw [List.forall_mem_cons] at hfits
    obtain ⟨s₁, hs₁⟩ : ∃ s₁, s.write r w.ordinal w.value = .ok s₁ := by
      rcases hfits.1 with hnone | hfits
      · exact ⟨_, by rw [hnone]; rfl⟩
      · exact hfits.exists_write r s
    obtain ⟨s', hs', hmade, hkept⟩ := ih hdistinct.2 hfits.2 s₁
    have hother : ∀ w' ∈ found, w'.ordinal ≠ w.ordinal := fun w' hw' heq =>
      hdistinct.1 (heq ▸ List.mem_map_of_mem hw')
    refine ⟨s', (enact_cons hs₁).trans hs', List.forall_mem_cons.2 ⟨?_, hmade⟩, fun i hi => ?_⟩
    · rw [hkept _ hother, Style.get?_write hs₁, if_pos rfl]
    · rw [List.forall_mem_cons] at hi
      rw [hkept i hi.2, Style.get?_write hs₁, if_neg hi.1.symm]

theorem hasRoom_enact (hs : s.HasRoom r) (h : enact r found s = (.ok (), s')) : s'.HasRoom r := by
  induction found generalizing s with
  | nil =>
    obtain rfl : s = s' := congrArg Prod.snd h
    exact hs
  | cons w found ih =>
    obtain ⟨s₁, hs₁, h⟩ := exists_of_enact_cons h
    exact ih (hs.write hs₁) h

/-- A value that has been put leaves room for all of them. -/
theorem hasRoom_of_isSome {w : Write} (hw : w ∈ found) (hv : w.value.isSome)
    (h : enact r found s = (.ok (), s')) : s'.HasRoom r := by
  induction found generalizing s with
  | nil => nomatch hw
  | cons w' found ih =>
    obtain ⟨s₁, hs₁, htail⟩ := exists_of_enact_cons h
    rcases List.mem_cons.1 hw with rfl | hw
    · obtain ⟨v, hv⟩ := Option.isSome_iff_exists.1 hv
      rw [hv] at hs₁
      exact hasRoom_enact (Style.hasRoom_put hs₁) htail
    · exact ih hw htail

theorem enact_of_isMade (h : ∀ w ∈ found, w.IsMade r s) : enact r found s = (.ok (), s) := by
  induction found with
  | nil => rfl
  | cons w found ih =>
    rw [List.forall_mem_cons] at h
    rw [enact_cons h.1, ih h.2]

theorem Write.isMade_enact (hfits : ∀ w ∈ found, w.value = none ∨ w.Fits)
    (h : enact r found s = (.ok (), s')) (hmade : ∀ w ∈ found, s'.get? w.ordinal = w.value) :
    ∀ w ∈ found, w.IsMade r s' := by
  intro w hw
  rcases hfits w hw with hnone | ⟨a, v, ha, hv, ht⟩
  · rw [IsMade, hnone]
    exact congrArg Except.ok (Style.clear_self ((hmade w hw).trans hnone))
  · have hroom : s'.HasRoom r := hasRoom_of_isSome hw (by rw [hv]; rfl) h
    rw [IsMade, hv]
    exact Style.put_self hroom (Registry.check_standard ha ht r) ((hmade w hw).trans hv)

theorem Stands.distinct {property value : String} (h : Stands property value found) :
    (found.map (·.ordinal)).Nodup := by
  rcases h with h | ⟨-, rfl⟩
  · exact h.distinct
  · simp

theorem Stands.fits {property value : String} (h : Stands property value found) :
    ∀ w ∈ found, w.value = none ∨ w.Fits := by
  rcases h with h | ⟨-, rfl⟩
  · exact fun w hw => .inr (h.fits w hw)
  · exact fun w hw => .inl (by rw [List.mem_singleton.1 hw])

/-- The writes are for values, unless the tab size is cleared. -/
theorem Stands.isSome {property value : String} (h : Stands property value found)
    (hclears : ¬ ClearsTabs property value) : ∀ w ∈ found, w.value.isSome := by
  rcases h with h | ⟨hcleared, -⟩
  · intro w hw
    obtain ⟨_, v, -, hv, -⟩ := h.fits w hw
    rw [hv, Option.isSome_some]
  · exact absurd hcleared hclears

/-- Clearing the tab size is all that such a declaration stands for. -/
theorem writes_of_clearsTabs {property value : String}
    (h : ClearsTabs property (String.ofList (trim value.toList))) :
    writes property value = .ok [⟨Standard.tabSize, none⟩] := by
  obtain ⟨hproperty, hvalue⟩ := h
  simp only [writes, hvalue]
  rcases hproperty with rfl | rfl <;> rfl

end Enact

theorem exists_of_isRecoverable {e : StyleError} (h : e.isRecoverable = true) :
    (∃ property, e = .unknownProperty property) ∨ ∃ what, e = .malformed what := by
  cases e with
  | unknownProperty property => exact .inl ⟨property, rfl⟩
  | malformed what => exact .inr ⟨what, rfl⟩
  | unknownAttribute | outOfRange | typeMismatch | parse => nomatch h

/-- **A declaration is made as a whole or not at all.** Its property and its value
alone decide what it stands for. If that is a refusal, it is refused by every
registry and for every style, for a reason of its own, and no style is changed. If
it is writes, just these are made in every style with every registry, and make no
difference when they are made again. A write clears only the tab size, and only if
that is to be that of the text around. -/
theorem declaration_atomic (property value : String) :
    (ClearsTabs property (String.ofList (trim value.toList)) →
      writes property value = .ok [⟨Standard.tabSize, none⟩]) ∧
    ((∃ e, writes property value = .error e ∧
      ((∃ p, e = .unknownProperty p) ∨ ∃ what, e = .malformed what) ∧
      ∀ r s, apply r property value s = .error e ∧
        applyInPlace r property value s = (.error e, s)) ∨
    ∃ found : List Write, writes property value = .ok found ∧
      (found.map (·.ordinal)).Nodup ∧
      (¬ ClearsTabs property (String.ofList (trim value.toList)) → ∀ w ∈ found, w.value.isSome) ∧
      ∀ r s, ∃ s', apply r property value s = .ok s' ∧
        applyInPlace r property value s = (.ok (), s') ∧
        (∀ w ∈ found, s'.get? w.ordinal = w.value) ∧
        (∀ i, (∀ w ∈ found, w.ordinal ≠ i) → s'.get? i = s.get? i) ∧
        apply r property value s' = .ok s' ∧
        applyInPlace r property value s' = (.ok (), s')) := by
  refine ⟨writes_of_clearsTabs, ?_⟩
  have hstands := stands_writes property value
  cases hwrites : writes property value with
  | error e =>
    rw [hwrites] at hstands
    have hinPlace (r s) : applyInPlace r property value s = (.error e, s) := by
      rw [applyInPlace, hwrites]
    refine .inl ⟨e, rfl, exists_of_isRecoverable hstands, fun r s => ⟨?_, hinPlace r s⟩⟩
    rw [apply_eq, hinPlace]
    rfl
  | ok found =>
    rw [hwrites] at hstands
    have hinPlace (r s) : applyInPlace r property value s = enact r found s := by
      rw [applyInPlace, hwrites]
    have happly {r s s'} (h : enact r found s = (.ok (), s')) :
        apply r property value s = .ok s' := by
      rw [apply_eq, hinPlace, h]
      rfl
    refine .inr ⟨found, rfl, hstands.distinct, hstands.isSome, fun r s => ?_⟩
    obtain ⟨s', hs', hmade, hkept⟩ := exists_enact r hstands.distinct hstands.fits s
    have hagain : enact r found s' = (.ok (), s') :=
      enact_of_isMade (Write.isMade_enact hstands.fits hs' hmade)
    exact ⟨s', happly hs', by rw [hinPlace, hs'], hmade, hkept, happly hagain,
      by rw [hinPlace, hagain]⟩

end Declaration

end RichText
