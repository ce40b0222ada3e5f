import Mathlib.Data.List.Infix
import Mathlib.Data.List.Nodup

/-! # Chains of named predecessors

A chain is a list of nodes each of which names the key of the node before it.
When no two nodes share a key and none has the key the chain starts from, the
nodes can be put together in one way only: any chain of them is a prefix.
-/

namespace Chain
set_option autoImplicit false

variable {ν κ : Type} (prev own : ν → κ)

/-- Every node names the key before it; the first names `start`. -/
def Linked : κ → List ν → Prop
  | _, [] => True
  | start, node :: rest => prev node = start ∧ Linked (own node) rest

/-- The key the next node has to name. -/
def tip : κ → List ν → κ
  | start, [] => start
  | _, node :: rest => tip (own node) rest

variable {prev own}

theorem tip_append (start : κ) (nodes more : List ν) :
    tip own start (nodes ++ more) = tip own (tip own start nodes) more := by
  induction nodes generalizing start with
  | nil => rfl
  | cons node nodes ih => exact ih (own node)

theorem linked_append {start : κ} {nodes more : List ν} :
    Linked prev own start (nodes ++ more) ↔
      Linked prev own start nodes ∧ Linked prev own (tip own start nodes) more := by
  induction nodes generalizing start with
  | nil => simp [Linked, tip]
  | cons node nodes ih =>
    rw [List.cons_append, Linked, Linked, tip, ih]
    exact and_assoc.symm

theorem tip_getElem? (start : κ) (nodes more : List ν) :
    (start :: (nodes ++ more).map own)[nodes.length]? = some (tip own start nodes) := by
  induction nodes generalizing start with
  | nil => rfl
  | cons node nodes ih => exact ih (own node)

/-- Two prefixes of one chain that end in the same key are the same. -/
theorem prefix_unique {start : κ} {before after before' after' : List ν}
    (hSame : before ++ after = before' ++ after')
    (hDistinct : (start :: (before ++ after).map own).Nodup)
    (hTip : tip own start before = tip own start before') : before = before' ∧ after = after' := by
  have hIndex : (start :: (before ++ after).map own)[before.length]? =
      (start :: (before ++ after).map own)[before'.length]? := by
    rw [tip_getElem?, hTip, hSame, tip_getElem?]
  have hBound : before.length < (start :: (before ++ after).map own).length := by
    simp only [List.length_cons, List.length_map, List.length_append]
    omega
  have hLength : before.length = before'.length := (List.getElem?_inj hBound hDistinct).mp hIndex
  exact List.append_inj hSame hLength

/-- Nodes of a chain form a chain only in the order they have in it, from its start on. -/
theorem Linked.prefix_of_subset {start : κ} {nodes other : List ν}
    (h : Linked prev own start nodes) (hDistinct : (start :: nodes.map own).Nodup)
    (hOther : Linked prev own start other) (hSubset : other ⊆ nodes) : other <+: nodes := by
  have hFrom : ∀ done left, nodes = done ++ left → ∀ other, other ⊆ nodes →
      Linked prev own (tip own start done) other → other <+: left := by
    intro done left hNodes other
    induction other generalizing done left with
    | nil => exact fun _ _ => List.nil_prefix
    | cons node other ih =>
      rintro hSubset ⟨hPrev, hRest⟩
      -- the node stands somewhere in the chain, and its predecessor says where
      obtain ⟨before, after, hSplit⟩ := List.append_of_mem (hSubset List.mem_cons_self)
      rw [hSplit] at h
      have hAt : prev node = tip own start before := (linked_append.mp h).2.1
      obtain ⟨rfl, rfl⟩ := prefix_unique (hNodes.symm.trans hSplit) (hNodes ▸ hDistinct)
        (hPrev.symm.trans hAt)
      have hTail : other <+: after := by
        refine ih (done ++ [node]) after (by rw [hNodes]; simp) ?_ ?_
        · exact fun x hx => hSubset (List.mem_cons_of_mem _ hx)
        · rw [tip_append]
          exact hRest
      exact (List.prefix_cons_inj node).mpr hTail
  exact hFrom [] nodes rfl other hSubset hOther

/-- With the last key known too, the chain is the whole chain. -/
theorem Linked.eq_of_subset {start : κ} {nodes other : List ν} (h : Linked prev own start nodes)
    (hDistinct : (start :: nodes.map own).Nodup) (hOther : Linked prev own start other)
    (hSubset : other ⊆ nodes) (hTip : tip own start other = tip own start nodes) :
    other = nodes := by
  obtain ⟨more, hMore⟩ := h.prefix_of_subset hDistinct hOther hSubset
  have hWhole : other ++ more = nodes ++ [] := by rw [hMore, List.append_nil]
  exact (prefix_unique hWhole (hMore ▸ hDistinct) hTip).1

end Chain
