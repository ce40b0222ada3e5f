import AccessBroker.Grants.Display
import AccessBroker.Library.Words

/-! # What a stored row holds

A row is stored by `create_request` alone, and a decision changes its items only to some of
them. So every row still holds what `create_request` takes: an allowed instance, a reason
without surrounding space, and at least one item that was normalized.
-/

namespace AccessBroker.Grants
open Py Paths
set_option autoImplicit false

variable {cfg : Settings} {now : Int}

/-- The row holds what `create_request` stores. -/
structure Row.Filed (cfg : Settings) (row : Row) : Prop where
  allowed : ∀ names, cfg.allowedInstances = some names → row.instanceName ∈ names
  reason : ¬ isBlank row.reason = true
  stripped : strip row.reason = row.reason
  nonempty : row.items ≠ []
  items : ∀ item ∈ row.items, item.Accepted

def Database.Filed (cfg : Settings) (db : Database) : Prop :=
  ∀ rid row, db.grants.get? rid = some row → row.Filed cfg

/-- The decisions keep all that, as long as they leave some of the items. -/
theorem Row.Filed.of_some {row row' : Row} (h : row.Filed cfg)
    (hName : row'.instanceName = row.instanceName) (hReason : row'.reason = row.reason)
    (hSome : row'.items ≠ []) (hItems : row'.items ⊆ row.items) : row'.Filed cfg := by
  refine ⟨?_, ?_, ?_, hSome, fun item hItem => h.items item (hItems hItem)⟩
  · rw [hName]
    exact h.allowed
  · rw [hReason]
    exact h.reason
  · rw [hReason]
    exact h.stripped

theorem Row.Filed.reject {row : Row} (h : row.Filed cfg) (source : Text) :
    (row.reject now source).Filed cfg :=
  h.of_some rfl rfl h.nonempty (List.Subset.refl _)

theorem Row.Filed.discard {row : Row} (h : row.Filed cfg) : row.discard.Filed cfg := by
  rw [Row.discard]
  split
  · exact h.of_some rfl rfl h.nonempty (List.Subset.refl _)
  · exact h

theorem Database.Filed.modify {db : Database} {rid : Nat} {row : Row} {f : Row → Row}
    (h : db.Filed cfg) (hRow : db.grants.get? rid = some row) (hNew : (f row).Filed cfg) :
    (db.putGrants (db.grants.modify rid f)).Filed cfg := by
  intro other row' hOther
  rw [Database.putGrants_grants, AutoTable.get?_modify] at hOther
  split at hOther
  · rw [hRow] at hOther
    cases hOther
    exact hNew
  · exact h other row' hOther

theorem chosen_some {items chosen : List Item} {numbers : Option (List (Option Int))}
    (h : numbers.elim (.ok items) (chooseItems items) = .ok chosen) (hItems : items ≠ [])
    (hNumbers : numbers ≠ some []) : chosen ≠ [] ∧ chosen ⊆ items := by
  cases numbers with
  | none =>
    cases h
    exact ⟨hItems, List.Subset.refl _⟩
  | some numbers =>
    refine ⟨?_, chooseItems_subset h⟩
    rintro rfl
    exact hNumbers (congrArg some (chooseItems_eq_nil.mp h))

/-- No decision and no restart stores anything else. -/
theorem Change.filed {db db' : Database} {op : Operation} {result : Option GrantRecord}
    (h : Change cfg now db op result db')
    (hOp : ∀ instanceName reason items, op ≠ .createRequest instanceName reason items)
    (hFiled : db.Filed cfg) : db'.Filed cfg := by
  cases h with
  | created _ _ _ => exact absurd rfl (hOp _ _ _)
  | approved found _ _ chosen selected =>
    have hRow := hFiled _ _ found
    obtain ⟨hSome, hItems⟩ := chosen_some chosen hRow.nonempty selected
    exact hFiled.modify found (hRow.of_some rfl rfl hSome hItems)
  | emptied found _ => exact hFiled.modify found ((hFiled _ _ found).reject _)
  | rejected found _ => exact hFiled.modify found ((hFiled _ _ found).reject _)
  | withdrawn found _ => exact hFiled.modify found ((hFiled _ _ found).reject _)
  | revoked found _ =>
    have hRow := hFiled _ _ found
    exact hFiled.modify found (hRow.of_some rfl rfl hRow.nonempty (List.Subset.refl _))
  | posted _ => exact hFiled
  | restarted =>
    intro rid row hRow
    rw [restartDiscardPending, AutoTable.get?_update] at hRow
    obtain ⟨old, hOld, rfl⟩ := Option.map_eq_some_iff.mp hRow
    exact (hFiled rid old hOld).discard

theorem createRequest_filed {instanceName : Text} {reason : Option Text} {items : List RawItem}
    {db : Database} (hFiled : db.Filed cfg) :
    ((createRequest cfg now instanceName reason items).run db).2.Filed cfg := by
  rcases createRequest_cases cfg now instanceName reason items db with
    ⟨e, hRun⟩ | ⟨text, clean, rfl, hAllowed, hClean, hItems, hRun⟩
  · rw [hRun]
    exact hFiled
  · have hReason : ¬ isBlank text = true := by
      intro hBlank
      rw [createRequest, if_pos hBlank] at hRun
      cases hRun
    rw [hRun]
    intro rid row hRow
    rw [Database.putGrants_grants, AutoTable.get?_insert] at hRow
    split at hRow
    · cases hRow
      refine ⟨hAllowed, ?_, strip_strip text, ?_, cleanItems_accepted hClean⟩
      · change ¬ isBlank (strip text) = true
        rw [isBlank_strip]
        exact hReason
      · rintro (rfl : clean = [])
        exact hItems (List.map_eq_nil_iff.mp (cleanItems_map hClean))
    · exact hFiled rid row hRow

end AccessBroker.Grants
