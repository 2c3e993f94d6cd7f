/-
# Runs over trees and stylesheets

A program holds trees, stylesheets and sets of stylesheets, and does one thing
after another with them: it reads stylesheets, lets trees grow, puts
stylesheets into sets, asks for the styles of nodes, and begins and ends
layouts, also one within another. `Step` says what can be done, in any order;
`Reached` are the worlds that come of it.

A layout pass ends what it began when it is dropped, so a pass is the place of
its resolver, kept until then. A stylesheet that a pass is open on stays where
it is.

Key definitions: `World`, `World.resolver?`, `World.put`, `World.Bounds`,
`World.Step`, `World.Reached`.
Key theorems: `World.resolver?_put`, `World.Bounds.exists_put`.
-/
import RichText.Resolver

namespace RichText

/-- Where a resolver stands: by its number, or as a stylesheet in a set. -/
inductive Place where
  | own (i : Nat)
  | member (i k : Nat)
deriving DecidableEq, Repr

structure World where
  trees : List StyleTree := []
  /-- Stylesheets and sets. One that has moved leaves `absent` behind. -/
  resolvers : List Resolver := []
  /-- The layout passes that are open. -/
  passes : List Place := []

namespace World

/-- The resolver at a place. -/
def resolver? (w : World) : Place → Option Resolver
  | .own i => w.resolvers[i]?
  | .member i k =>
    match w.resolvers[i]? with
    | some (.set set) => set.sheets[k]?.map .sheet
    | _ => none

/-- The world with another resolver at a place. -/
def put (w : World) : Place → Resolver → World
  | .own i, r => { w with resolvers := w.resolvers.set i r }
  | .member i k, r =>
    match w.resolvers[i]?, r with
    | some (.set set), .sheet s =>
      { w with resolvers := w.resolvers.set i (.set { set with sheets := set.sheets.set k s }) }
    | _, _ => w

theorem resolver?_member {w : World} {i k : Nat} {r : Resolver}
    (h : w.resolver? (.member i k) = some r) :
    ∃ set s, w.resolvers[i]? = some (.set set) ∧ set.sheets[k]? = some s ∧ r = .sheet s := by
  simp only [resolver?] at h
  split at h
  · next set hset =>
    obtain ⟨s, hs, rfl⟩ := Option.map_eq_some_iff.1 h
    exact ⟨set, s, hset, hs, rfl⟩
  · contradiction

theorem put_member {w : World} {i k : Nat} {set : SheetSet} (h : w.resolvers[i]? = some (.set set))
    (s : StyleSheet) :
    w.put (.member i k) (.sheet s) =
      { w with resolvers := w.resolvers.set i (.set { set with sheets := set.sheets.set k s }) } := by
  simp only [put, h]

/-- A resolver that holds what the one before it held stands where that stood. -/
theorem resolver?_put {w : World} {p : Place} {r r' : Resolver} (h : w.resolver? p = some r)
    (hr : r'.forget = r.forget) : (w.put p r').resolver? p = some r' := by
  cases p with
  | own i =>
    have hi := (List.getElem?_eq_some_iff.1 h).1
    simp [resolver?, put, hi]
  | member i k =>
    obtain ⟨set, s, hset, hs, rfl⟩ := resolver?_member h
    cases r' with
    | absent => simp [Resolver.forget] at hr
    | set _ => simp [Resolver.forget] at hr
    | sheet s' =>
      have hi := (List.getElem?_eq_some_iff.1 hset).1
      have hk := (List.getElem?_eq_some_iff.1 hs).1
      rw [put_member hset]
      simp [resolver?, hi, hk]

/-- A layout begins or ends at a place, by itself or by a pass. -/
inductive Bounds (w : World) (p : Place) : World → Prop
  | start {r : Resolver} (h : w.resolver? p = some r) : Bounds w p (w.put p r.forget)
  | finish {r : Resolver} (h : w.resolver? p = some r) : Bounds w p (w.put p r.forget)
  | openPass {r : Resolver} (h : w.resolver? p = some r) :
    Bounds w p { w.put p r.forget with passes := p :: w.passes }
  | dropPass {r : Resolver} (h : w.resolver? p = some r) (hp : p ∈ w.passes) :
    Bounds w p { w.put p r.forget with passes := w.passes.erase p }

/-- Whatever bounds a layout, the resolver at the place forgets, and at most the
open passes change. -/
theorem Bounds.exists_put {w w' : World} {p : Place} (h : w.Bounds p w') :
    ∃ r passes, w.resolver? p = some r ∧ w' = { w.put p r.forget with passes := passes } := by
  cases h with
  | start hr => exact ⟨_, _, hr, rfl⟩
  | finish hr => exact ⟨_, _, hr, rfl⟩
  | openPass hr => exact ⟨_, _, hr, rfl⟩
  | dropPass hr _ => exact ⟨_, _, hr, rfl⟩

/-- What can be done. What is refused changes nothing, so a refused derivation
is no step; a stylesheet text may be refused. -/
inductive Step (w : World) : World → Prop
  | enter (t : StyleTree) (fresh : ∀ t' ∈ w.trees, t'.id ≠ t.id) :
    Step w { w with trees := w.trees ++ [t] }
  | newSheet (registry : Registry) :
    Step w { w with resolvers := w.resolvers ++ [.sheet (.new registry)] }
  | newSet : Step w { w with resolvers := w.resolvers ++ [.set {}] }
  | parse {i : Nat} {s : StyleSheet} (h : w.resolvers[i]? = some (.sheet s)) (source : ByteSource) :
    Step w { w with resolvers := w.resolvers.set i (.sheet (s.parse source).2) }
  | move {i j : Nat} {s : StyleSheet} {set : SheetSet} (hs : w.resolvers[i]? = some (.sheet s))
    (hset : w.resolvers[j]? = some (.set set)) (free : .own i ∉ w.passes) :
    Step w { w with resolvers := (w.resolvers.set i .absent).set j (.set (set.push s)) }
  | push {k : Nat} {t : StyleTree} (ht : w.trees[k]? = some t) (parent : Option Nat)
    (hp : ∀ p ∈ parent, p < t.size) (key : Option Key) (raw : Style) :
    Step w { w with trees := w.trees.set k (t.push parent key raw) }
  | derive {k i ordinal n : Nat} {t t' : StyleTree} {v : Option Value} (ht : w.trees[k]? = some t)
    (hi : i < t.size) (hd : t.deriveWith i ordinal v = .ok (n, t')) :
    Step w { w with trees := w.trees.set k t' }
  | strip {k i : Nat} {t : StyleTree} (ht : w.trees[k]? = some t) (hi : i < t.size) :
    Step w { w with trees := w.trees.set k (t.withoutNonInheritable i).2 }
  | resolve {p : Place} {r : Resolver} {t : StyleTree} {node : Nat} (h : w.resolver? p = some r)
    (ht : t ∈ w.trees) (hn : node < t.size) : Step w (w.put p (r.resolve t node).2)
  | layout {p : Place} {w' : World} (h : w.Bounds p w') : Step w w'

/-- The worlds that come of any number of steps. -/
inductive Reached : World → Prop
  | start : Reached {}
  | step {w w' : World} (h : Reached w) (hs : Step w w') : Reached w'

end World
end RichText
