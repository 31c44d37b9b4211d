import Kiln.Proofs.Safety.Accesses

/-!
# Guarded excerpts of nodes

A node stands where its parts stand, which is found out by merging when it is asked for.  Each
kind of node that a report points at says with which guarded merges this is done; if the leaves
of a node are inside a file, all of them succeed.
-/

namespace Kiln

open Excerpt Leafy

namespace Guarded

/-- Finds the parts of a node one after the other and merges them. -/
def merged (runs : List (Guarded Excerpt)) : Guarded Excerpt := do
  let parts ← runs.mapM id
  union parts

/-- Guarded runs that finds parts of a node, which fit a file if the leaves do. -/
def Finds (runs : List (Guarded Excerpt)) (parts leaves : List Excerpt) : Prop :=
  ∀ file : File, (∀ e ∈ leaves, e.Fits file) →
    runs = parts.map .ok ∧ ∀ e ∈ parts, e.Fits file

namespace Finds

variable {runs runs' : List (Guarded Excerpt)} {parts parts' leaves leaves' : List Excerpt}

theorem leaf (e : Excerpt) : Finds [.ok e] [e] [e] := fun _ h => ⟨rfl, h⟩

theorem append (h : Finds runs parts leaves) (h' : Finds runs' parts' leaves') :
    Finds (runs ++ runs') (parts ++ parts') (leaves ++ leaves') := by
  intro file hleaves
  obtain ⟨hfirst, hsecond⟩ := List.forall_mem_append.1 hleaves
  obtain ⟨rfl, hparts⟩ := h file hfirst
  obtain ⟨rfl, hparts'⟩ := h' file hsecond
  exact ⟨(List.map_append ..).symm, List.forall_mem_append.2 ⟨hparts, hparts'⟩⟩

theorem mapM_map_ok (parts : List Excerpt) :
    (parts.map .ok).mapM (id : Guarded Excerpt → Guarded Excerpt) = .ok parts := by
  induction parts with
  | nil => rfl
  | cons e parts ih =>
      rw [List.map_cons, List.mapM_cons, id, ok_bind, ih]
      rfl

/-- Parts that fit one file can be merged. -/
theorem merged (h : Finds runs parts leaves) : Finds [merged runs] [.union parts] leaves := by
  intro file hleaves
  obtain ⟨rfl, hparts⟩ := h file hleaves
  refine ⟨?_, List.forall_mem_singleton.2 (fits_union hparts)⟩
  rw [Guarded.merged, mapM_map_ok, ok_bind, union_eq hparts]
  rfl

end Finds
end Guarded

open Guarded

/-- A kind of node of which it is found with guarded merges where it stands. -/
class Guardable (α : Type) [Node α] [Leafy α] where
  /-- Finds where a node stands. -/
  excerpt : α → Guarded Excerpt
  /-- This succeeds if the leaves of the node fit a file. -/
  finds : ∀ a : α, Finds [excerpt a] [Node.excerpt a] (leaves a)

namespace Guardable

variable {α : Type} [Node α] [Leafy α] [Guardable α]

theorem excerpt_eq {file : File} {a : α} (h : ∀ e ∈ leaves a, e.Fits file) :
    excerpt a = .ok (Node.excerpt a) :=
  List.singleton_inj.1 (finds a file h).1

theorem finds_list (as : List α) :
    Finds (as.map excerpt) (Node.excerpts as) (as.flatMap leaves) := by
  induction as with
  | nil => exact fun _ h => ⟨rfl, h⟩
  | cons a as ih => exact (finds a).append ih

end Guardable

open Guardable

/-! ## Types and lists -/

instance : Guardable Token where
  excerpt t := .ok t.excerpt
  finds t := .leaf t.excerpt

instance : Guardable TypeName where
  excerpt t := merged (t.stars.map excerpt ++ [excerpt t.base])
  finds t := .merged (.append (finds_list t.stars) (finds t.base))

instance : Guardable ReturnType where
  excerpt r := merged (excerpt r.type :: r.comma.toList.map excerpt)
  finds r := .merged (.append (finds r.type) (finds_list r.comma.toList))

instance : Guardable ReturnTypes where
  excerpt r := merged (excerpt r.opener :: r.types.map excerpt ++ [excerpt r.closer])
  finds r := .merged (.append (.append (finds r.opener) (finds_list r.types)) (finds r.closer))

instance : Guardable Expression where
  excerpt
    | .leaf t => excerpt t
    | e => merged (e.tokens.map excerpt)
  finds
    | .leaf t => finds t
    | .binary left operator right =>
        .merged (finds_list (Expression.binary left operator right).tokens)

instance : Guardable ListedValue where
  excerpt v := merged (excerpt v.expression :: v.comma.toList.map excerpt)
  finds v := .merged (.append (finds v.expression) (finds_list v.comma.toList))

instance : Guardable ValueList where
  excerpt l := merged (l.values.map excerpt)
  finds l := .merged (finds_list l.values)

instance : Guardable ReturnStatement where
  excerpt s := merged [excerpt s.keyword, excerpt s.values]
  finds s := .merged (.append (finds s.keyword) (finds s.values))

/-! ## Directives -/

instance : Guardable DirectiveHead where
  excerpt h := merged [excerpt h.hash, excerpt h.name]
  finds h := .merged (finds_list [h.hash, h.name])

instance : Guardable Inclusion where
  excerpt i := merged [excerpt i.head, excerpt i.opener, excerpt i.path, excerpt i.closer]
  finds i := .merged (.append (finds i.head) (finds_list [i.opener, i.path, i.closer]))

instance : Guardable BlockBody where
  excerpt b := .ok b.excerpt
  finds b := .leaf b.excerpt

instance : Guardable InlineBlock where
  excerpt b :=
    merged ([excerpt b.head, excerpt b.tag] ++ b.body.toList.map excerpt ++ [.ok b.ending])
  finds b :=
    .merged <| .append (.append (.append (finds b.head) (finds b.tag)) (finds_list b.body.toList))
      (.leaf b.ending)

instance : Guardable Directive where
  excerpt
    | .inclusion i => excerpt i
    | .inlineBlock b => excerpt b
  finds
    | .inclusion i => finds i
    | .inlineBlock b => finds b

namespace Guarded

/-- Where an item stands. -/
def itemExcerpt : Item → Guarded Excerpt
  | .token t => Guardable.excerpt t
  | .directive d => Guardable.excerpt d

theorem itemExcerpt_eq {file : File} {item : Item} (h : ∀ e ∈ item.leaves, e.Fits file) :
    itemExcerpt item = .ok item.excerpt := by
  cases item with
  | token t => exact Guardable.excerpt_eq h
  | directive d => exact Guardable.excerpt_eq h

end Guarded
end Kiln
