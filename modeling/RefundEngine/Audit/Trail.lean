import RefundEngine.Engine

/-!
# The audit trail

The audit rows of a refund in the order of their ids, and what it means that they lead from
nothing to its status one step at a time.  A call owes an audit row from an update that
changed a status outside a transaction to the insert that records it.
-/

namespace RefundEngine

section Newest

variable {transitions : List Transition} {row : Transition} {refundId : Uuid}

/-- A row with the greatest id of its refund is its newest. -/
theorem newestStatus_concat_self
    (newest : ∀ earlier ∈ transitions, earlier.refundId = row.refundId → earlier.id < row.id) :
    newestStatus (transitions ++ [row]) row.refundId = some row.toStatus := by
  have matching : ([row].filter fun other => other.refundId = row.refundId) = [row] := by simp
  simp only [newestStatus, List.filter_append, matching, List.argmax_concat]
  cases found : (transitions.filter fun other => other.refundId = row.refundId).argmax
      Transition.id with
  | none => rfl
  | some earlier =>
      have member := List.mem_filter.mp (List.argmax_mem found)
      have older := newest earlier member.1 (of_decide_eq_true member.2)
      simp only [if_pos older, Option.map_some]

theorem newestStatus_concat_other (other : row.refundId ≠ refundId) :
    newestStatus (transitions ++ [row]) refundId = newestStatus transitions refundId := by
  have none : ([row].filter fun candidate => candidate.refundId = refundId) = [] := by
    simp [other]
  simp only [newestStatus, List.filter_append, none, List.append_nil]

variable {staged : List Transition} {status : Status}

theorem newestStatus_append_other (other : ∀ audit ∈ staged, audit.refundId ≠ refundId) :
    newestStatus (transitions ++ staged) refundId = newestStatus transitions refundId := by
  have none : (staged.filter fun audit => audit.refundId = refundId) = [] := by
    rw [List.filter_eq_nil_iff]
    intro audit member
    simpa using other audit member
  rw [newestStatus, List.filter_append, none, List.append_nil, newestStatus]

/-- Rows that are all newer than the earlier ones of their refund, and name one status. -/
theorem newestStatus_append_self (some : staged ≠ [])
    (own : ∀ audit ∈ staged, audit.refundId = refundId ∧ audit.toStatus = status)
    (newer : ∀ audit ∈ staged, ∀ earlier ∈ transitions, earlier.refundId = refundId →
      earlier.id < audit.id) :
    newestStatus (transitions ++ staged) refundId = Option.some status := by
  rcases List.exists_mem_of_ne_nil staged some with ⟨audit, member⟩
  have inside : audit ∈ (transitions ++ staged).filter fun audit => audit.refundId = refundId :=
    List.mem_filter.mpr ⟨List.mem_append_right _ member, decide_eq_true (own audit member).1⟩
  rw [newestStatus]
  cases found : ((transitions ++ staged).filter fun audit => audit.refundId = refundId).argmax
      Transition.id with
  | none =>
      rw [List.argmax_eq_none] at found
      rw [found] at inside
      cases inside
  | some last =>
      have lastIn := List.mem_filter.mp (List.argmax_mem found)
      have greatest := List.le_of_mem_argmax inside found
      rcases List.mem_append.mp lastIn.1 with earlier | isStaged
      · have older := newer audit member last earlier (of_decide_eq_true lastIn.2)
        exact (Nat.not_lt.mpr greatest older).elim
      · rw [Option.map_some, (own last isStaged).2]

end Newest

/-! ## Chains -/

/-- The audit rows of a refund, by id. -/
def trail (transitions : List Transition) (refundId : Uuid) : List Transition :=
  (transitions.filter fun row => row.refundId = refundId).insertionSort fun left right =>
    left.id ≤ right.id

section Concat

variable {α : Type} {related : α → α → Prop} [DecidableRel related] {rows : List α} {first last : α}

theorem orderedInsert_concat (before : related first last) :
    (rows ++ [last]).orderedInsert related first = rows.orderedInsert related first ++ [last] := by
  induction rows with
  | nil => simp [before]
  | cons row rows ih =>
      simp only [List.cons_append, List.orderedInsert_cons]
      split
      · rfl
      · rw [ih, List.cons_append]

/-- An element that nothing has to follow is sorted last. -/
theorem insertionSort_concat (before : ∀ row ∈ rows, related row last) :
    (rows ++ [last]).insertionSort related = rows.insertionSort related ++ [last] := by
  induction rows with
  | nil => rfl
  | cons row rows ih =>
      rw [List.cons_append, List.insertionSort_cons, List.insertionSort_cons,
        ih fun other member => before other (List.mem_cons_of_mem _ member),
        orderedInsert_concat (before row (List.mem_cons_self ..))]

end Concat

section Appended

variable {transitions : List Transition} {row : Transition} {refundId : Uuid}

/-- The newest audit row of a refund comes last in its trail. -/
theorem trail_concat_self
    (newest : ∀ earlier ∈ transitions, earlier.refundId = row.refundId → earlier.id < row.id) :
    trail (transitions ++ [row]) row.refundId = trail transitions row.refundId ++ [row] := by
  have matching : ([row].filter fun other => other.refundId = row.refundId) = [row] := by simp
  rw [trail, List.filter_append, matching, insertionSort_concat, trail]
  intro earlier member
  have inside := List.mem_filter.mp member
  exact (newest earlier inside.1 (of_decide_eq_true inside.2)).le

theorem trail_concat_other (other : row.refundId ≠ refundId) :
    trail (transitions ++ [row]) refundId = trail transitions refundId := by
  have none : ([row].filter fun candidate => candidate.refundId = refundId) = [] := by
    simp [other]
  rw [trail, List.filter_append, none, List.append_nil, trail]

end Appended

/-- The steps of the state machine that may be recorded.  Only recovery records that a
submitted refund was submitted, and only a webhook that a failed one failed. -/
def Transition.Edge (row : Transition) : Prop :=
  match row.fromStatus, row.toStatus with
  | none, .requested | none, .pendingReview => True
  | some .pendingReview, .requested => True
  | some .requested, .submitted => True
  | some .submitted, .submitted =>
      row.actor = "job:recover" ∨ row.actor = "job:recover-resubmit"
  | some .submitted, .settled | some .submitted, .failed => True
  | some .failed, .failed => row.actor = "webhook"
  | _, _ => False

/-- The rows lead from one status to another, each from where the one before led. -/
def Chain : Option Status → List Transition → Option Status → Prop
  | current, [], final => current = final
  | current, row :: rest, final =>
      row.fromStatus = current ∧ row.Edge ∧ Chain (some row.toStatus) rest final

theorem chain_concat {current final : Option Status} {rows : List Transition}
    {row : Transition} :
    Chain current (rows ++ [row]) final ↔
      Chain current rows row.fromStatus ∧ row.Edge ∧ some row.toStatus = final := by
  induction rows generalizing current with
  | nil =>
      simp only [List.nil_append, Chain]
      constructor
      · rintro ⟨same, edge, final⟩
        exact ⟨same.symm, edge, final⟩
      · rintro ⟨same, edge, final⟩
        exact ⟨same.symm, edge, final⟩
  | cons head rows ih =>
      simp only [List.cons_append, Chain, ih]
      constructor
      · rintro ⟨same, headEdge, rest, edge, final⟩
        exact ⟨⟨same, headEdge, rest⟩, edge, final⟩
      · rintro ⟨⟨same, headEdge, rest⟩, edge, final⟩
        exact ⟨same, headEdge, rest, edge, final⟩

/-- The refunds whose status an update changes. -/
def moved (update : RefundUpdate) (world : World) : List Uuid :=
  (world.rows.filter fun row =>
    update.Applies row ∧ (update.assign world.now row).status ≠ row.status).map Refund.id

/-- The refunds whose status the call has changed without having inserted the audit row. -/
def owed : List EngineEvent → List Uuid
  | [] => []
  | .answered _ _ (.sql (.recordTransition refundId _ _ _)) (.ok _) _ :: earlier =>
      (owed earlier).filter (· ≠ refundId)
  | .answered _ _ (.sql (.updateRefunds update)) (.ok _) before :: earlier =>
      moved update before ++ owed earlier
  | _ :: earlier => owed earlier

end RefundEngine
