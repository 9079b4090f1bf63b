import RefundEngine.Audit.Trail
import RefundEngine.Invariant.World

/-!
# Tables whose audit rows tell the truth

The audit rows of every refund lead, one step at a time, from nothing to its status.  A
statement keeps this when it leaves statuses alone, and a change of status does when it comes
with the audit row that records it.
-/

namespace RefundEngine

/-- Audit rows are in the order of their ids, belong to refunds, open with the status their
refund was requested with, and lead to the status it has. -/
structure Audited (rows : List Refund) (transitions : List Transition) (next : Nat) : Prop where
  sorted : transitions.Pairwise fun left right => left.id < right.id
  bounded : ∀ audit ∈ transitions, audit.id < next
  known : ∀ audit ∈ transitions, audit.refundId ∈ rows.map Refund.id
  opens : ∀ row ∈ rows, ∀ audit ∈ transitions, audit.refundId = row.id →
    audit.fromStatus = none → reviewThresholdCents ≤ row.amountCents →
    audit.toStatus = .pendingReview
  chained : ∀ row ∈ rows,
    Chain none (transitions.filter fun audit => audit.refundId = row.id) (some row.status)

section Order

variable {transitions : List Transition}

/-- In the order of their ids the audit rows of a refund are its trail. -/
theorem trail_eq_filter (sorted : transitions.Pairwise fun left right => left.id < right.id)
    (refundId : Uuid) :
    trail transitions refundId = transitions.filter fun audit => audit.refundId = refundId := by
  apply List.Pairwise.insertionSort_eq
  exact (sorted.filter _).imp fun older => older.le

/-- In the order of their ids the newest audit row of a refund is its last. -/
theorem newestStatus_eq_getLast?
    (sorted : transitions.Pairwise fun left right => left.id < right.id) (refundId : Uuid) :
    newestStatus transitions refundId =
      ((transitions.filter fun audit => audit.refundId = refundId).getLast?).map
        Transition.toStatus := by
  induction transitions using List.reverseRecOn with
  | nil => rfl
  | append_singleton transitions audit ih =>
      rcases List.pairwise_append.mp sorted with ⟨sorted, _, older⟩
      by_cases own : audit.refundId = refundId
      · subst own
        rw [newestStatus_concat_self fun earlier member _ => older earlier member audit (by simp)]
        simp
      · rw [newestStatus_concat_other own, ih sorted]
        simp [own]

end Order

theorem Chain.getLast? {rows : List Transition} {status : Status}
    (chain : Chain none rows (some status)) :
    rows.getLast?.map Transition.toStatus = some status := by
  rcases List.eq_nil_or_concat rows with rfl | ⟨earlier, last, rfl⟩
  · cases chain
  · rw [List.concat_eq_append, chain_concat] at chain
    simpa using chain.2.2

/-- A trail out of review has audited the release. -/
theorem Chain.released {rows : List Transition} {status : Status}
    (chain : Chain none rows (some status)) (released : status ≠ .pendingReview)
    (opens : ∀ audit ∈ rows, audit.fromStatus = none → audit.toStatus = .pendingReview) :
    ∃ audit ∈ rows, audit.fromStatus = some .pendingReview ∧ audit.toStatus = .requested := by
  cases rows with
  | nil => cases chain
  | cons first rows =>
      rcases chain with ⟨fromNothing, _, rest⟩
      rw [opens first (List.mem_cons_self ..) fromNothing] at rest
      cases rows with
      | nil =>
          cases rest
          exact (released rfl).elim
      | cons second rows =>
          rcases rest with ⟨fromReview, edge, _⟩
          refine ⟨second, by simp, fromReview, ?_⟩
          rw [Transition.Edge, fromReview] at edge
          revert edge
          cases second.toStatus <;> simp

namespace Audited

variable {rows : List Refund} {transitions : List Transition} {next : Nat}

theorem newest (audited : Audited rows transitions next) {row : Refund}
    (member : row ∈ rows) : newestStatus transitions row.id = some row.status := by
  rw [newestStatus_eq_getLast? audited.sorted]
  exact (audited.chained row member).getLast?

theorem trail (audited : Audited rows transitions next) {row : Refund}
    (member : row ∈ rows) : Chain none (trail transitions row.id) (some row.status) := by
  rw [trail_eq_filter audited.sorted]
  exact audited.chained row member

/-- A change that leaves statuses alone needs no audit row. -/
theorem revise (audited : Audited rows transitions next) {change : Refund → Refund}
    (ids : ∀ row, (change row).id = row.id)
    (amounts : ∀ row, (change row).amountCents = row.amountCents)
    (statuses : ∀ row ∈ rows, (change row).status = row.status) :
    Audited (rows.map change) transitions next where
  sorted := audited.sorted
  bounded := audited.bounded
  known audit member := by
    simpa only [List.map_map, Function.comp_def, ids] using audited.known audit member
  opens row member audit inside := by
    rcases List.mem_map.mp member with ⟨earlier, earlierIn, rfl⟩
    rw [ids, amounts]
    exact audited.opens earlier earlierIn audit inside
  chained row member := by
    rcases List.mem_map.mp member with ⟨earlier, earlierIn, rfl⟩
    rw [ids, statuses earlier earlierIn]
    exact audited.chained earlier earlierIn

/-- A change of one status comes with the audit row that records it. -/
theorem advance (audited : Audited rows transitions next) {change : Refund → Refund}
    {audit : Transition} (ids : ∀ row, (change row).id = row.id)
    (amounts : ∀ row, (change row).amountCents = row.amountCents)
    (others : ∀ row ∈ rows, row.id ≠ audit.refundId → (change row).status = row.status)
    (own : ∀ row ∈ rows, row.id = audit.refundId →
      audit.fromStatus = some row.status ∧ audit.toStatus = (change row).status)
    (known : audit.refundId ∈ rows.map Refund.id) (edge : audit.Edge) (newer : next ≤ audit.id) :
    Audited (rows.map change) (transitions ++ [audit]) (audit.id + 1) where
  sorted := by
    rw [List.pairwise_append]
    refine ⟨audited.sorted, List.pairwise_singleton _ _, ?_⟩
    intro earlier member last isLast
    rw [List.mem_singleton.mp isLast]
    exact (audited.bounded earlier member).trans_le newer
  bounded other member := by
    rcases List.mem_append.mp member with earlier | last
    · have older := audited.bounded other earlier
      omega
    · rw [List.mem_singleton.mp last]
      exact Nat.lt_succ_self _
  known other member := by
    have same : (rows.map change).map Refund.id = rows.map Refund.id := by
      simp only [List.map_map, Function.comp_def, ids]
    rw [same]
    rcases List.mem_append.mp member with earlier | last
    · exact audited.known other earlier
    · rw [List.mem_singleton.mp last]
      exact known
  opens row member other listed mine fromNothing := by
    rcases List.mem_map.mp member with ⟨earlier, earlierIn, rfl⟩
    rw [ids] at mine
    rw [amounts]
    rcases List.mem_append.mp listed with inside | last
    · exact audited.opens earlier earlierIn other inside mine fromNothing
    · rw [List.mem_singleton.mp last] at mine fromNothing
      have stands := (own earlier earlierIn mine.symm).1
      cases stands.symm.trans fromNothing
  chained row member := by
    rcases List.mem_map.mp member with ⟨earlier, earlierIn, rfl⟩
    rw [ids, List.filter_append]
    by_cases mine : earlier.id = audit.refundId
    · rcases own earlier earlierIn mine with ⟨fromStatus, toStatus⟩
      have matching : ([audit].filter fun other => other.refundId = earlier.id) = [audit] := by
        simp [mine]
      rw [matching, chain_concat, fromStatus, toStatus]
      exact ⟨audited.chained earlier earlierIn, edge, rfl⟩
    · have none : ([audit].filter fun other => other.refundId = earlier.id) = [] := by
        simp [Ne.symm mine]
      rw [none, List.append_nil, others earlier earlierIn mine]
      exact audited.chained earlier earlierIn

theorem insert (audited : Audited rows transitions next) {row : Refund} {audit : Transition}
    (new : row.New) (unused : row.id ∉ rows.map Refund.id) (own : audit.refundId = row.id)
    (fromStatus : audit.fromStatus = none) (toStatus : audit.toStatus = row.status)
    (newer : next ≤ audit.id) :
    Audited (rows ++ [row]) (transitions ++ [audit]) (audit.id + 1) where
  sorted := by
    rw [List.pairwise_append]
    refine ⟨audited.sorted, List.pairwise_singleton _ _, ?_⟩
    intro earlier member last isLast
    rw [List.mem_singleton.mp isLast]
    exact (audited.bounded earlier member).trans_le newer
  bounded other member := by
    rcases List.mem_append.mp member with earlier | last
    · have older := audited.bounded other earlier
      omega
    · rw [List.mem_singleton.mp last]
      exact Nat.lt_succ_self _
  known other member := by
    rw [List.map_append]
    rcases List.mem_append.mp member with earlier | last
    · exact List.mem_append_left _ (audited.known other earlier)
    · rw [List.mem_singleton.mp last, own]
      simp
  opens other member audit' listed mine fromNothing large := by
    rcases List.mem_append.mp member with earlier | last
    · rcases List.mem_append.mp listed with inside | latest
      · exact audited.opens other earlier audit' inside mine fromNothing large
      · rw [List.mem_singleton.mp latest, own] at mine
        exact (unused (mine ▸ List.mem_map_of_mem earlier)).elim
    · rw [List.mem_singleton.mp last] at mine large
      rcases List.mem_append.mp listed with inside | latest
      · exact (unused (mine ▸ audited.known audit' inside)).elim
      · rw [List.mem_singleton.mp latest, toStatus, new.status, if_pos large]
  chained other member := by
    rw [List.filter_append]
    rcases List.mem_append.mp member with earlier | last
    · have different : audit.refundId ≠ other.id := by
        intro same
        exact unused (own ▸ same ▸ List.mem_map_of_mem earlier)
      have none : ([audit].filter fun candidate => candidate.refundId = other.id) = [] := by
        simp [different]
      rw [none, List.append_nil]
      exact audited.chained other earlier
    · rw [List.mem_singleton.mp last]
      have fresh : (transitions.filter fun candidate => candidate.refundId = row.id) = [] := by
        apply List.filter_eq_nil_iff.mpr
        intro candidate inside mine
        exact unused (of_decide_eq_true mine ▸ audited.known candidate inside)
      have matching : ([audit].filter fun candidate => candidate.refundId = row.id) =
          [audit] := by
        simp [own]
      rw [fresh, matching, List.nil_append]
      refine ⟨fromStatus, ?_, congrArg some toStatus⟩
      rw [Transition.Edge, fromStatus, toStatus, new.status]
      by_cases large : row.amountCents ≥ reviewThresholdCents
      · simp only [if_pos large]
      · simp only [if_neg large]

end Audited

end RefundEngine
