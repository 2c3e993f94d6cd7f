/-
# What a selector matches

A chain is meant to match a node when its links can be laid on the keys from
the node upward: the subject on the first key, each further link above the one
before it, and a direct-child link on the very next key (`Embeds`). The walk
of `climb` never takes a link back, so it finds exactly those embeddings in
which every link that has a direct-child link further out sits on the nearest
key that it fits (`matchesKeys_iff`). Where no direct-child link stands further
out than a descendant link, that is no restriction (`fits_exact`); where one
does, it is (`backtracking_missed`).

Key definitions: `Embeds`, `NearestBeforeDirect`, `DirectFirst`.
Key theorems: `matchesKeys_iff`, `Selector.fits_exact`,
`Selector.fits_iff_nearest`, `Selector.backtracking_missed`.
-/
import Mathlib
import RichText.Selector

namespace RichText

/-! ### Embeddings -/

/-- The links of a chain laid on keys: link `i` on the key at position `p i`. -/
structure Embeds (links : List Link) (keys : List Key) (p : Nat → Nat) : Prop where
  subject : links ≠ [] ∧ p 0 = 0
  ascending : ∀ i, i + 1 < links.length → p i < p (i + 1)
  fits : ∀ i l, links[i]? = some l → ∃ k, keys[p i]? = some k ∧ l.fits k = true
  adjacent : ∀ i l, links[i + 1]? = some l → l.directChild = true → p (i + 1) = p i + 1

/-- A direct-child link stands further out than link `i`. -/
def DirectBeyond (links : List Link) (i : Nat) : Prop :=
  ∃ j l, i < j ∧ links[j]? = some l ∧ l.directChild = true

/-- Link `i + 1` fits no key between those of link `i` and its own. -/
def TakesNearest (links : List Link) (keys : List Key) (p : Nat → Nat) (i : Nat) : Prop :=
  ∀ x, p i < x → x < p (i + 1) →
    ∀ l, links[i + 1]? = some l → ∀ k, keys[x]? = some k → l.fits k = false

/-- Every link behind the subject that has a direct-child link further out takes
the nearest key that it fits. -/
def NearestBeforeDirect (links : List Link) (keys : List Key) (p : Nat → Nat) : Prop :=
  ∀ i, DirectBeyond links (i + 1) → TakesNearest links keys p i

/-- No direct-child link stands further out than a descendant link. The
subject is neither. -/
def DirectFirst (links : List Link) : Prop :=
  links.tail.Pairwise fun a b => a.directChild = false → b.directChild = false

instance (links : List Link) : Decidable (DirectFirst links) :=
  inferInstanceAs (Decidable (List.Pairwise _ _))

theorem DirectBeyond.mono {links : List Link} {i j : Nat} (h : DirectBeyond links j) (hij : i ≤ j) :
    DirectBeyond links i := by
  obtain ⟨n, l, hn, hl, hd⟩ := h
  exact ⟨n, l, Nat.lt_of_le_of_lt hij hn, hl, hd⟩

theorem DirectBeyond.cons {l : Link} {links : List Link} {i : Nat} (h : DirectBeyond links i) :
    DirectBeyond (l :: links) (i + 1) := by
  obtain ⟨n, m, hn, hm, hd⟩ := h
  exact ⟨n + 1, m, Nat.succ_lt_succ hn, by simpa using hm, hd⟩

/-- In an embedding every position but the first is positive. -/
theorem Embeds.pos {links : List Link} {keys : List Key} {p : Nat → Nat} (h : Embeds links keys p)
    {i : Nat} (hi : i + 1 < links.length) : 0 < p (i + 1) :=
  Nat.lt_of_le_of_lt (Nat.zero_le _) (h.ascending i hi)

theorem Embeds.exists_eq_succ {links : List Link} {keys : List Key} {p : Nat → Nat}
    (h : Embeds links keys p) {i : Nat} (hi : i + 1 < links.length) : ∃ q, p (i + 1) = q + 1 :=
  Nat.exists_eq_succ_of_ne_zero (Nat.ne_of_gt (h.pos hi))

theorem Embeds.single {l : Link} {k : Key} (h : l.fits k = true) (keys : List Key) :
    Embeds [l] (k :: keys) fun _ => 0 where
  subject := ⟨List.cons_ne_nil _ _, rfl⟩
  ascending i hi := by simp at hi
  fits i m hm := by
    cases i with
    | zero =>
      obtain rfl : l = m := by simpa using hm
      exact ⟨k, rfl, h⟩
    | succ i => simp at hm
  adjacent i m hm := by simp at hm

/-! ### One key more

An embedding for a link `l` on the first key changes in two ways when a key is
put behind the first: the next link sits on it, or all links behind the subject
move up. -/

variable {l m : Link} {links : List Link} {k k' : Key} {keys : List Key} {p : Nat → Nat}

/-- Position `0`, then the positions of `p`, each one further up. -/
def raise (p : Nat → Nat) : Nat → Nat
  | 0 => 0
  | i + 1 => p i + 1

/-- Position `0`, then the positions of `p` behind its first, each one further
down. -/
def lower (p : Nat → Nat) : Nat → Nat
  | 0 => 0
  | i + 1 => p (i + 1) - 1

theorem Embeds.here (h : Embeds (m :: links) (k' :: keys) p) (hl : l.fits k = true) :
    Embeds (l :: m :: links) (k :: k' :: keys) (raise p) where
  subject := ⟨List.cons_ne_nil _ _, rfl⟩
  ascending i hi := by
    cases i with
    | zero => exact Nat.zero_lt_succ _
    | succ i =>
      have := h.ascending i (by simpa using hi)
      exact Nat.succ_lt_succ this
  fits i a ha := by
    cases i with
    | zero =>
      obtain rfl : l = a := by simpa using ha
      exact ⟨k, rfl, hl⟩
    | succ i =>
      obtain ⟨b, hb, hf⟩ := h.fits i a (by simpa using ha)
      exact ⟨b, by simpa [raise] using hb, hf⟩
  adjacent i a ha hd := by
    cases i with
    | zero => simp [raise, h.subject.2]
    | succ i =>
      have := h.adjacent i a (by simpa using ha) hd
      exact congrArg (· + 1) this

theorem Embeds.skip (h : Embeds (l :: m :: links) (k :: keys) p) (hm : m.directChild = false) :
    Embeds (l :: m :: links) (k :: k' :: keys) (raise fun i => p (i + 1)) where
  subject := ⟨List.cons_ne_nil _ _, rfl⟩
  ascending i hi := by
    cases i with
    | zero => exact Nat.zero_lt_succ _
    | succ i =>
      have := h.ascending (i + 1) hi
      exact Nat.succ_lt_succ this
  fits i a ha := by
    obtain ⟨b, hb, hf⟩ := h.fits i a ha
    cases i with
    | zero =>
      rw [h.subject.2] at hb
      exact ⟨b, hb, hf⟩
    | succ i =>
      obtain ⟨q, hq⟩ := h.exists_eq_succ (List.getElem?_eq_some_iff.1 ha).1
      rw [hq] at hb
      exact ⟨b, by simpa [raise, hq] using hb, hf⟩
  adjacent i a ha hd := by
    cases i with
    | zero =>
      obtain rfl : m = a := by simpa using ha
      rw [hm] at hd
      contradiction
    | succ i =>
      have := h.adjacent (i + 1) a ha hd
      exact congrArg (· + 1) this

/-- The second link leaves the embedding with the first key: it sat on the
second key, or nothing further out is bound to its place. -/
theorem Embeds.advance (h : Embeds (l :: m :: links) (k :: k' :: keys) p) (hm : m.fits k' = true)
    (h1 : p 1 = 1 ∨ ¬ DirectBeyond (l :: m :: links) 1) :
    Embeds (m :: links) (k' :: keys) (lower fun i => p (i + 1)) where
  subject := ⟨List.cons_ne_nil _ _, rfl⟩
  ascending i hi := by
    have hi' : i + 1 + 1 < (l :: m :: links).length := by simpa using hi
    have hlt := h.ascending (i + 1) hi'
    have hpos := h.pos (i := i) (by omega)
    cases i with
    | zero => simp only [lower]; omega
    | succ i => simp only [lower]; omega
  fits i a ha := by
    cases i with
    | zero =>
      obtain rfl : m = a := by simpa using ha
      exact ⟨k', rfl, hm⟩
    | succ i =>
      have ha' : (l :: m :: links)[i + 1 + 1]? = some a := by simpa using ha
      obtain ⟨b, hb, hf⟩ := h.fits (i + 1 + 1) a ha'
      obtain ⟨q, hq⟩ := h.exists_eq_succ (List.getElem?_eq_some_iff.1 ha').1
      rw [hq] at hb
      exact ⟨b, by simpa [lower, hq] using hb, hf⟩
  adjacent i a ha hd := by
    have ha' : (l :: m :: links)[i + 1 + 1]? = some a := by simpa using ha
    have hadj := h.adjacent (i + 1) a ha' hd
    have hlt := (List.getElem?_eq_some_iff.1 ha').1
    have hpos := h.pos (i := i) (by omega)
    cases i with
    | zero =>
      rcases h1 with h1 | h1
      · have hadj : p 2 = p 1 + 1 := hadj
        show p 2 - 1 = 1
        omega
      · exact absurd ⟨2, a, by omega, ha', hd⟩ h1
    | succ i =>
      simp only [lower]
      omega

/-- The second key leaves the embedding when no link sits on it. -/
theorem Embeds.drop (h : Embeds (l :: m :: links) (k :: k' :: keys) p) (h1 : p 1 ≠ 1) :
    m.directChild = false ∧ Embeds (l :: m :: links) (k :: keys) (lower p) := by
  have hp0 := h.subject.2
  have hp1 : 0 < p 1 := h.pos (i := 0) (by simp)
  have hle : ∀ i, i + 1 < (l :: m :: links).length → 2 ≤ p (i + 1) := by
    intro i hi
    induction i with
    | zero => exact Nat.lt_of_le_of_ne hp1 h1.symm
    | succ i ih => exact Nat.le_of_lt (Nat.lt_of_le_of_lt (ih (by omega)) (h.ascending (i + 1) hi))
  have hm : m.directChild = false := by
    cases hd : m.directChild with
    | false => rfl
    | true =>
      have : p 1 = p 0 + 1 := h.adjacent 0 m rfl hd
      omega
  refine ⟨hm, ⟨List.cons_ne_nil _ _, rfl⟩, fun i hi => ?_, fun i a ha => ?_, fun i a ha hd => ?_⟩
  · have hlt := h.ascending i hi
    have h2 := hle i hi
    cases i with
    | zero => simp only [lower]; omega
    | succ i =>
      have := hle i (by omega)
      simp only [lower]
      omega
  · obtain ⟨b, hb, hf⟩ := h.fits i a ha
    cases i with
    | zero =>
      rw [hp0] at hb
      exact ⟨b, hb, hf⟩
    | succ i =>
      have h2 := hle i (List.getElem?_eq_some_iff.1 ha).1
      obtain ⟨q, hq⟩ : ∃ q, p (i + 1) = q + 2 := ⟨p (i + 1) - 2, by omega⟩
      rw [hq] at hb
      exact ⟨b, by simpa [lower, hq] using hb, hf⟩
  · have hadj := h.adjacent i a ha hd
    have hlt := (List.getElem?_eq_some_iff.1 ha).1
    cases i with
    | zero =>
      obtain rfl : m = a := by simpa using ha
      rw [hm] at hd
      contradiction
    | succ i =>
      have := hle i (by omega)
      simp only [lower]
      omega

/-! ### The nearest keys -/

theorem Embeds.nearest_here (h : Embeds (m :: links) (k' :: keys) p)
    (hn : ∀ i, TakesNearest (m :: links) (k' :: keys) p i) (i : Nat) :
    TakesNearest (l :: m :: links) (k :: k' :: keys) (raise p) i := by
  intro x hx hx' a ha b hb
  cases i with
  | zero =>
    have hp0 := h.subject.2
    simp only [raise] at hx hx'
    omega
  | succ i =>
    obtain ⟨y, rfl⟩ : ∃ y, x = y + 1 := ⟨x - 1, by omega⟩
    exact hn i y (Nat.lt_of_succ_lt_succ hx) (Nat.lt_of_succ_lt_succ hx') a (by simpa using ha) b
      (by simpa using hb)

theorem Embeds.nearest_skip (h : Embeds (l :: m :: links) (k :: keys) p) (hm : m.fits k' = false)
    (hn : ∀ i, TakesNearest (l :: m :: links) (k :: keys) p i) (i : Nat) :
    TakesNearest (l :: m :: links) (k :: k' :: keys) (raise fun i => p (i + 1)) i := by
  intro x hx hx' a ha b hb
  obtain ⟨y, rfl⟩ : ∃ y, x = y + 1 := ⟨x - 1, by omega⟩
  cases i with
  | zero =>
    cases y with
    | zero =>
      obtain rfl : m = a := by simpa using ha
      obtain rfl : k' = b := by simpa using hb
      exact hm
    | succ y =>
      have hp0 := h.subject.2
      exact hn 0 (y + 1) (by omega) (Nat.lt_of_succ_lt_succ hx') a ha b (by simpa using hb)
  | succ i =>
    have hy := Nat.lt_of_succ_lt_succ hx
    have hpos : 0 < y := Nat.lt_of_le_of_lt (Nat.zero_le _) hy
    obtain ⟨z, rfl⟩ : ∃ z, y = z + 1 := ⟨y - 1, by omega⟩
    exact hn (i + 1) (z + 1) hy (Nat.lt_of_succ_lt_succ hx') a ha b (by simpa using hb)

theorem NearestBeforeDirect.advance
    (hn : NearestBeforeDirect (l :: m :: links) (k :: k' :: keys) p)
    (h1 : p 1 = 1 ∨ ¬ DirectBeyond (l :: m :: links) 1) :
    NearestBeforeDirect (m :: links) (k' :: keys) (lower fun i => p (i + 1)) := by
  intro i hd x hx hx' a ha b hb
  have hd' : DirectBeyond (l :: m :: links) (i + 1 + 1) := hd.cons
  have hp1 : p 1 = 1 := h1.resolve_right fun hnot => hnot (hd'.mono (by omega))
  refine hn (i + 1) hd' (x + 1) ?_ ?_ a (by simpa using ha) b (by simpa using hb)
  · cases i with
    | zero =>
      have : 0 < x := hx
      show p 1 < x + 1
      omega
    | succ i =>
      have : p (i + 1 + 1) - 1 < x := hx
      omega
  · have : x < p (i + 1 + 1) - 1 := hx'
    omega

theorem NearestBeforeDirect.drop (hn : NearestBeforeDirect (l :: m :: links) (k :: k' :: keys) p)
    (hp0 : p 0 = 0) : NearestBeforeDirect (l :: m :: links) (k :: keys) (lower p) := by
  intro i hd x hx hx' a ha b hb
  have hx1 : x < p (i + 1) - 1 := hx'
  have hpos : 0 < x := by
    cases i with
    | zero => exact hx
    | succ i => exact Nat.lt_of_le_of_lt (Nat.zero_le _) hx
  obtain ⟨y, rfl⟩ : ∃ y, x = y + 1 := ⟨x - 1, by omega⟩
  refine hn i hd (y + 1 + 1) ?_ (by omega) a ha b (by simpa using hb)
  cases i with
  | zero => omega
  | succ i =>
    have : p (i + 1) - 1 < y + 1 := hx
    omega

/-! ### The walk -/

/-- The walk finds an embedding, and takes the nearest key for every link. -/
theorem embeds_of_climb : ∀ (keys : List Key) (links : List Link) (l : Link) (k : Key),
    l.fits k = true → climb links keys = true →
    ∃ p, Embeds (l :: links) (k :: keys) p ∧ ∀ i, TakesNearest (l :: links) (k :: keys) p i
  | keys, [], l, k, hl, _ => by
    refine ⟨_, Embeds.single hl keys, fun i x hx hx' => ?_⟩
    omega
  | [], m :: links, l, k, _, h => by simp [climb] at h
  | k' :: keys, m :: links, l, k, hl, h => by
    rw [climb] at h
    split at h
    · next hm =>
      obtain ⟨p, hp, hn⟩ := embeds_of_climb keys links m k' hm h
      exact ⟨raise p, hp.here hl, hp.nearest_here hn⟩
    · next hm =>
      rw [Bool.and_eq_true, Bool.not_eq_true'] at h
      obtain ⟨p, hp, hn⟩ := embeds_of_climb keys (m :: links) l k hl h.2
      exact ⟨raise fun i => p (i + 1), hp.skip h.1, hp.nearest_skip (by simpa using hm) hn⟩

/-- The walk succeeds if there is an embedding that it can find. Where the next
link fits but the embedding has it further up, nothing behind is bound to its
place, so the embedding may go on from here. -/
theorem climb_of_embeds : ∀ (keys : List Key) (links : List Link) (l : Link) (k : Key)
    (p : Nat → Nat), Embeds (l :: links) (k :: keys) p →
    NearestBeforeDirect (l :: links) (k :: keys) p → climb links keys = true
  | keys, [], _, _, _, _, _ => by rw [climb]
  | [], m :: links, l, k, p, h, _ => by
    obtain ⟨b, hb, _⟩ := h.fits 1 m rfl
    obtain ⟨q, hq⟩ := h.exists_eq_succ (i := 0) (by simp)
    rw [hq] at hb
    simp at hb
  | k' :: keys, m :: links, l, k, p, h, hn => by
    rw [climb]
    split
    · next hm =>
      have h1 : p 1 = 1 ∨ ¬ DirectBeyond (l :: m :: links) 1 := by
        by_cases hp : p 1 = 1
        · exact Or.inl hp
        · refine Or.inr fun hd => ?_
          have hpos : 0 < p 1 := h.pos (i := 0) (by simp)
          have hp0 := h.subject.2
          have := hn 0 hd 1 (by omega) (show 1 < p 1 by omega) m rfl k' rfl
          rw [hm] at this
          contradiction
      exact climb_of_embeds keys links m k' _ (h.advance hm h1) (hn.advance h1)
    · next hm =>
      have h1 : p 1 ≠ 1 := by
        intro hp
        obtain ⟨b, hb, hf⟩ := h.fits 1 m rfl
        rw [hp] at hb
        obtain rfl : k' = b := by simpa using hb
        exact hm hf
      obtain ⟨hd, hdrop⟩ := h.drop h1
      rw [hd, climb_of_embeds keys (m :: links) l k _ hdrop (hn.drop h.subject.2)]
      rfl

/-- **The walk finds the embeddings it can.** A chain matches exactly when it
has an embedding in which every link with a direct-child link further out takes
the nearest key that it fits. -/
theorem matchesKeys_iff (links : List Link) (keys : List Key) :
    matchesKeys links keys = true ↔
      ∃ p, Embeds links keys p ∧ NearestBeforeDirect links keys p := by
  constructor
  · intro h
    match links, keys with
    | l :: links, k :: keys =>
      rw [matchesKeys, Bool.and_eq_true] at h
      obtain ⟨p, hp, hn⟩ := embeds_of_climb keys links l k h.1 h.2
      exact ⟨p, hp, fun i _ => hn i⟩
    | [], _ => simp [matchesKeys] at h
    | _ :: _, [] => simp [matchesKeys] at h
  · rintro ⟨p, hp, hn⟩
    obtain ⟨hne, hp0⟩ := hp.subject
    obtain ⟨l, links, rfl⟩ := List.exists_cons_of_ne_nil hne
    obtain ⟨k, hk, hf⟩ := hp.fits 0 l rfl
    rw [hp0] at hk
    match keys with
    | [] => simp at hk
    | b :: keys =>
      obtain rfl : b = k := by simpa using hk
      rw [matchesKeys, hf, climb_of_embeds keys links l b p hp hn]
      rfl

/-- Where all direct-child links come first, every embedding will do: a link
with one further out is a direct-child link itself, and has no choice. -/
theorem Embeds.nearestBeforeDirect {links : List Link} (h : Embeds links keys p)
    (hd : DirectFirst links) : NearestBeforeDirect links keys p := by
  rintro i ⟨j, b, hij, hb, hbd⟩ x hx hx' a ha _ _
  have hdir : a.directChild = true := by
    cases hc : a.directChild with
    | true => rfl
    | false =>
      obtain ⟨hi, rfl⟩ := List.getElem?_eq_some_iff.1 ha
      obtain ⟨hj, rfl⟩ := List.getElem?_eq_some_iff.1 hb
      have hlt : i < links.tail.length := by rw [List.length_tail]; omega
      have hlt' : j - 1 < links.tail.length := by rw [List.length_tail]; omega
      have hall := List.pairwise_iff_getElem.1 hd i (j - 1) hlt hlt' (by omega)
      simp only [List.getElem_tail, show j - 1 + 1 = j by omega] at hall
      rw [hall hc] at hbd
      contradiction
  have := h.adjacent i a ha hdir
  omega

namespace Selector

/-- **Matching is sound, and exact where all direct-child links come first.** -/
theorem fits_exact (s : Selector) (t : StyleTree) (node : Nat) :
    (s.fits t node = true → ∃ p, Embeds s.links (t.keysAbove node) p) ∧
      (DirectFirst s.links → (∃ p, Embeds s.links (t.keysAbove node) p) → s.fits t node = true) := by
  constructor
  · intro h
    obtain ⟨p, hp, _⟩ := (matchesKeys_iff _ _).1 h
    exact ⟨p, hp⟩
  · rintro hd ⟨p, hp⟩
    exact (matchesKeys_iff _ _).2 ⟨p, hp, hp.nearestBeforeDirect hd⟩

/-- A `div` with a `span` in it and a `p` in that, nodes without keys between
them. -/
def nestedTree : StyleTree :=
  [(none, some "div"), (some 0, none), (some 1, some "span"), (some 2, none), (some 3, some "p")].foldl
    (fun t node => t.push node.1 (node.2.map fun tag => .of tag none none) .empty)
    (.empty 1 .standard)

/-- `div span > p` -/
def inSpan : Selector :=
  of [{ element := some "p" }, { element := some "span", directChild := true },
    { element := some "div" }] none .empty

theorem fits_exact_inSpan :
    DirectFirst inSpan.links ∧ (∃ p, Embeds inSpan.links (nestedTree.keysAbove 4) p) ∧
      inSpan.fits nestedTree 4 = true := by
  have hkeys : nestedTree.keysAbove 4 = ["p", "span", "div"].map (.of · none none) := by cbv
  have hdirect : DirectFirst inSpan.links := by decide
  have hembeds : Embeds inSpan.links (nestedTree.keysAbove 4) fun i => i := by
    rw [hkeys]
    refine ⟨⟨List.cons_ne_nil _ _, rfl⟩, fun i _ => Nat.lt_succ_self i, fun i l hl => ?_,
      fun _ _ _ _ => rfl⟩
    match i, hl with
    | 0, rfl => exact ⟨_, rfl, by decide⟩
    | 1, rfl => exact ⟨_, rfl, by decide⟩
    | 2, rfl => exact ⟨_, rfl, by decide⟩
  exact ⟨hdirect, ⟨_, hembeds⟩, (fits_exact inSpan nestedTree 4).2 hdirect ⟨_, hembeds⟩⟩

/-- **What matching finds**, whatever the order of the links: an embedding in
which every link with a direct-child link further out takes the nearest key
that it fits. -/
theorem fits_iff_nearest (s : Selector) (t : StyleTree) (node : Nat) :
    s.fits t node = true ↔
      ∃ p, Embeds s.links (t.keysAbove node) p ∧ NearestBeforeDirect s.links (t.keysAbove node) p :=
  matchesKeys_iff s.links (t.keysAbove node)

/-- Five elements, each in the one before it. -/
def repeatedTree : StyleTree :=
  [(none, "a"), (some 0, "b"), (some 1, "x"), (some 2, "b"), (some 3, "c")].foldl
    (fun t node => t.push node.1 (some (.of node.2 none none)) .empty) (.empty 1 .standard)

/-- `a > b c` -/
def childBeyond : Selector :=
  of [{ element := some "c" }, { element := some "b" },
    { element := some "a", directChild := true }] none .empty

/-- The walk takes the inner `b`, which is in no `a`, and never comes to the
outer one. -/
theorem backtracking_missed :
    ¬ ∀ (s : Selector) (t : StyleTree) (node : Nat), ¬ DirectFirst s.links →
      (∃ p, Embeds s.links (t.keysAbove node) p) → s.fits t node = true := by
  intro h
  have hkeys : repeatedTree.keysAbove 4 = ["c", "b", "x", "b", "a"].map (.of · none none) := by cbv
  have hfits : childBeyond.fits repeatedTree 4 = false := by cbv
  have hembeds : Embeds childBeyond.links (repeatedTree.keysAbove 4) fun i => [0, 3, 4].getD i 0 := by
    rw [hkeys]
    refine ⟨⟨List.cons_ne_nil _ _, rfl⟩, fun i hi => ?_, fun i l hl => ?_, fun i l hl hd => ?_⟩
    · match i, hi with
      | 0, _ => decide
      | 1, _ => decide
    · match i, hl with
      | 0, rfl => exact ⟨_, rfl, by decide⟩
      | 1, rfl => exact ⟨_, rfl, by decide⟩
      | 2, rfl => exact ⟨_, rfl, by decide⟩
    · match i, hl with
      | 0, rfl => contradiction
      | 1, rfl => rfl
  have := h childBeyond repeatedTree 4 (by decide) ⟨_, hembeds⟩
  rw [hfits] at this
  contradiction

end Selector

end RichText
