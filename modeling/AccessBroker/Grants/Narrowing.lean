import AccessBroker.Grants.Authority

/-! # What can become active

Between two states of the store, the numbers that may have become active. The
comparison is one of rows, so it needs no instant; with a clock that does not
run backwards it says which active grants are new.
-/

namespace AccessBroker.Grants
open Py Paths
set_option autoImplicit false

/-- Every active row was there before, exactly so, unless its number is in `gain`; and the
posted messages were only added to. -/
structure Database.Narrows (gain : Nat → Prop) (db db' : Database) : Prop where
  rows : ∀ rid row, db'.grants.get? rid = some row → row.state = .active →
    gain rid ∨ db.grants.get? rid = some row
  posted : db.posted <+: db'.posted

variable {cfg : Settings} {gain : Nat → Prop}

instance : Std.Refl (Database.Narrows gain) where
  refl _ := ⟨fun _ _ hRow _ => Or.inr hRow, List.prefix_rfl⟩

instance : IsTrans Database (Database.Narrows gain) where
  trans db db' db'' h h' := by
    refine ⟨fun rid row hRow hActive => ?_, h.posted.trans h'.posted⟩
    rcases h'.rows rid row hRow hActive with hGain | hRow'
    · exact Or.inl hGain
    · exact h.rows rid row hRow' hActive

theorem Database.Narrows.requestForEvent {db db' : Database} (h : db.Narrows gain db')
    {eventId : Text} {rid : Nat} (hPosted : requestForEvent eventId db = some rid) :
    Grants.requestForEvent eventId db' = some rid := by
  obtain ⟨more, hMore⟩ := h.posted
  rw [Grants.requestForEvent] at hPosted ⊢
  rw [← hMore, List.lookup_append, hPosted, Option.some_or]

/-- The grants that are active later were active before, with every field, or are gained. -/
theorem Database.Narrows.activeGrants {db db' : Database} (h : db.Narrows gain db')
    {now later : Int} (hLater : now ≤ later) {r : GrantRecord}
    (hActive : r ∈ activeGrants cfg later none db') :
    gain r.id ∨ r ∈ Grants.activeGrants cfg now none db := by
  obtain ⟨row, expiry, hRow, hStored, hExpiry, hBefore, _, hRecord⟩ := mem_activeGrants.mp hActive
  refine (h.rows r.id row hRow hStored).imp id fun hRow' => mem_activeGrants.mpr
    ⟨row, expiry, hRow', hStored, hExpiry, by omega, by simp, hRecord.trans ?_⟩
  have hLive : ∀ instant, instant < expiry → effectiveState cfg instant row = .active :=
    fun instant h => effectiveState_eq_active.mpr ⟨hStored, expiry, hExpiry, h⟩
  rw [toRecord, toRecord, hLive now (by omega), hLive later hBefore]

/-- A rewritten row that is not active adds nothing. -/
theorem Database.narrows_modify {db : Database} {rid : Nat} {f : Row → Row}
    (h : gain rid ∨ ∀ row, (f row).state ≠ .active) :
    db.Narrows gain (db.putGrants (db.grants.modify rid f)) := by
  refine ⟨fun other row hRow hActive => ?_, List.prefix_rfl⟩
  rw [Database.putGrants_grants, AutoTable.get?_modify] at hRow
  split at hRow
  · rename_i hEq
    obtain ⟨old, _, rfl⟩ := Option.map_eq_some_iff.mp hRow
    exact Or.inl (hEq ▸ h.resolve_right fun hInactive => hInactive old hActive)
  · exact Or.inr hRow

def Operation.Approves (rid : Nat) : Operation → Prop
  | approve rid' _ _ => rid' = rid
  | _ => False

theorem Change.narrows {now : Int} {db db' : Database} {op : Operation}
    {result : Option GrantRecord} (h : Change cfg now db op result db') :
    db.Narrows (fun rid => op.Approves rid) db' := by
  cases h with
  | created _ _ _ =>
    refine ⟨fun rid row hRow hActive => Or.inr ?_, List.prefix_rfl⟩
    rw [Database.putGrants_grants, AutoTable.get?_insert] at hRow
    split at hRow
    · cases hRow
      exact absurd hActive (by simp [pendingRow])
    · exact hRow
  | approved _ _ _ _ _ => exact Database.narrows_modify (Or.inl rfl)
  | emptied _ _ => exact Database.narrows_modify (Or.inl rfl)
  | rejected _ _ => exact Database.narrows_modify (Or.inr fun _ => by simp [Row.reject])
  | withdrawn _ _ => exact Database.narrows_modify (Or.inr fun _ => by simp [Row.reject])
  | revoked _ _ => exact Database.narrows_modify (Or.inr fun _ => by simp [Row.revoke])
  | posted _ => exact ⟨fun _ _ hRow _ => Or.inr hRow, List.prefix_append _ _⟩
  | restarted =>
    refine ⟨fun rid row hRow hActive => Or.inr ?_, List.prefix_rfl⟩
    rw [restartDiscardPending, AutoTable.get?_update] at hRow
    obtain ⟨old, hOld, rfl⟩ := Option.map_eq_some_iff.mp hRow
    rw [Row.discard] at hActive ⊢
    split
    · rename_i hPending
      rw [if_pos hPending] at hActive
      cases hActive
    · exact hOld

theorem Database.Narrows.mono {gain' : Nat → Prop} {db db' : Database} (h : db.Narrows gain db')
    (hGain : ∀ rid, gain rid → gain' rid) : db.Narrows gain' db' :=
  ⟨fun rid row hRow hActive => (h.rows rid row hRow hActive).imp (hGain rid) id, h.posted⟩

end AccessBroker.Grants
