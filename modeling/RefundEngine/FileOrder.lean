import RefundEngine.Discrepancies

/-!
# What the order of the file decides

Of several lines with one reference only the last is compared.  The order of a file therefore
matters exactly where it decides which amount comes last for a settled row.
-/

namespace RefundEngine

open Interleaving (CallId)

/-- The amount on the last line of a reference. -/
def lastAmount (settlementFile : List SettlementLine) (gatewayRef : String) : Option Int64 :=
  (settlementFile.filter fun line => line.gatewayRef = gatewayRef).getLast?.map
    SettlementLine.amountCents

/-- Two reports with the same entries in every class. -/
structure SameReport (left right : ReconResult) : Prop where
  missing : left.settledMissingFromFile.Perm right.settledMissingFromFile
  unknown : left.lineWithNoRefund.Perm right.lineWithNoRefund
  mismatched : left.amountMismatch.Perm right.amountMismatch

variable {settled : List (Uuid × String × Int64)} {settlementFile other : List SettlementLine}

theorem lookup_map_amountCents (settlementFile : List SettlementLine) (gatewayRef : String) :
    ((fileByRef settlementFile).lookup gatewayRef).map SettlementLine.amountCents =
      lastAmount settlementFile gatewayRef := by
  rw [fileByRef, Keyed.lookup_indexByKey_eq_getLast?, lastAmount]

theorem mismatch?_eq_some_iff_lastAmount {row : Uuid × String × Int64} {entry : AmountMismatch} :
    mismatch? (fileByRef settlementFile) row = some entry ↔
      ∃ amount, lastAmount settlementFile row.2.1 = some amount ∧ amount ≠ row.2.2 ∧
        entry = ⟨row.2.1, row.1, row.2.2, amount⟩ := by
  rw [mismatch?_eq_some_iff, ← lookup_map_amountCents]
  cases (fileByRef settlementFile).lookup row.2.1 with
  | none => simp
  | some line => simp [mismatchOf]

/-- Where the last amounts agree, so do the reports. -/
theorem sameReport_of_lastAmount (same : settlementFile.Perm other)
    (agree : ∀ row ∈ settled, lastAmount settlementFile row.2.1 = lastAmount other row.2.1) :
    SameReport (reconcileRows settled settlementFile) (reconcileRows settled other) where
  missing := by
    rw [missing_eq, missing_eq]
    apply List.Perm.of_eq
    apply congrArg (List.map Prod.fst)
    apply List.filter_congr
    intro row _
    rw [decide_eq_decide]
    exact not_congr (same.map SettlementLine.gatewayRef).mem_iff
  unknown := by
    rw [reconcileRows_eq, reconcileRows_eq]
    exact (same.filter _).map SettlementLine.gatewayRef
  mismatched := by
    rw [reconcileRows_eq, reconcileRows_eq]
    apply List.Perm.of_eq
    apply List.filterMap_congr
    intro row rowIn
    apply Option.ext
    intro entry
    rw [mismatch?_eq_some_iff_lastAmount, mismatch?_eq_some_iff_lastAmount, agree row rowIn]

theorem lastAmount_of_mismatched
    (mismatched : (reconcileRows settled settlementFile).amountMismatch ⊆
      (reconcileRows settled other).amountMismatch) {row : Uuid × String × Int64}
    (rowIn : row ∈ settled) {amount : Int64}
    (last : lastAmount settlementFile row.2.1 = some amount) (differs : amount ≠ row.2.2) :
    lastAmount other row.2.1 = some amount := by
  have entryIn : (⟨row.2.1, row.1, row.2.2, amount⟩ : AmountMismatch) ∈
      (reconcileRows settled settlementFile).amountMismatch := by
    rw [reconcileRows_eq]
    apply List.mem_filterMap.mpr
    exact ⟨row, rowIn, mismatch?_eq_some_iff_lastAmount.mpr ⟨amount, last, differs, rfl⟩⟩
  have otherIn := mismatched entryIn
  rw [reconcileRows_eq] at otherIn
  rcases List.mem_filterMap.mp otherIn with ⟨row', _, found⟩
  rcases mismatch?_eq_some_iff_lastAmount.mp found with ⟨amount', last', _, equal⟩
  rw [AmountMismatch.mk.injEq] at equal
  rcases equal with ⟨same, _, _, rfl⟩
  rw [same]
  exact last'

theorem lastAmount_eq_none_iff {gatewayRef : String} :
    lastAmount settlementFile gatewayRef = none ↔ gatewayRef ∉ fileRefs settlementFile := by
  rw [← lookup_map_amountCents, Option.map_eq_none_iff, lookup_eq_none_iff]

theorem lastAmount_eq_none_of_perm (same : settlementFile.Perm other) {gatewayRef : String}
    (absent : lastAmount settlementFile gatewayRef = none) :
    lastAmount other gatewayRef = none := by
  rw [lastAmount_eq_none_iff] at absent ⊢
  intro listed
  exact absent ((same.map SettlementLine.gatewayRef).mem_iff.mpr listed)

/-- Where the reports agree, so do the last amounts of settled rows. -/
theorem lastAmount_of_sameReport (same : settlementFile.Perm other)
    (report : SameReport (reconcileRows settled settlementFile) (reconcileRows settled other))
    {row : Uuid × String × Int64} (rowIn : row ∈ settled) :
    lastAmount settlementFile row.2.1 = lastAmount other row.2.1 := by
  cases last : lastAmount settlementFile row.2.1 with
  | none => exact (lastAmount_eq_none_of_perm same last).symm
  | some amount =>
      cases last' : lastAmount other row.2.1 with
      | none => cases last.symm.trans (lastAmount_eq_none_of_perm same.symm last')
      | some amount' =>
          -- Two different amounts cannot both be the settled one.
          by_cases differs : amount = row.2.2
          · by_cases differs' : amount' = row.2.2
            · rw [differs, differs']
            · have found := lastAmount_of_mismatched report.mismatched.symm.subset rowIn last' differs'
              exact last.symm.trans found
          · have found := lastAmount_of_mismatched report.mismatched.subset rowIn last differs
            exact found.symm.trans last'

theorem lastAmount_concat (lines : List SettlementLine) (line : SettlementLine) :
    lastAmount (lines ++ [line]) line.gatewayRef = some line.amountCents := by
  rw [lastAmount, List.filter_append, List.filter_cons_of_pos (by simp), List.filter_nil,
    List.getLast?_concat]
  rfl

theorem exists_line_of_lastAmount {gatewayRef : String} {amount : Int64}
    (last : lastAmount settlementFile gatewayRef = some amount) :
    ∃ line ∈ settlementFile, line.gatewayRef = gatewayRef ∧ line.amountCents = amount := by
  rcases Option.map_eq_some_iff.mp last with ⟨line, isLast, rfl⟩
  have member := List.mem_of_getLast? isLast
  rw [List.mem_filter, decide_eq_true_eq] at member
  exact ⟨line, member.1, member.2, rfl⟩

/-- Every order agrees on the last amount when the lines of the reference have one amount. -/
theorem lastAmount_eq_iff {gatewayRef : String} :
    (∀ other, settlementFile.Perm other →
        lastAmount settlementFile gatewayRef = lastAmount other gatewayRef) ↔
      ∀ line ∈ settlementFile, ∀ line' ∈ settlementFile, line.gatewayRef = gatewayRef →
        line'.gatewayRef = gatewayRef → line.amountCents = line'.amountCents := by
  constructor
  · intro agree line lineIn line' lineIn' named named'
    have atEnd : ∀ last ∈ settlementFile, last.gatewayRef = gatewayRef →
        lastAmount settlementFile gatewayRef = some last.amountCents := by
      intro last lastIn lastNamed
      have moved : settlementFile.Perm (settlementFile.erase last ++ [last]) :=
        (List.perm_cons_erase lastIn).trans (List.perm_append_singleton last _).symm
      rw [agree _ moved, ← lastNamed, lastAmount_concat]
    exact Option.some.inj ((atEnd line lineIn named).symm.trans (atEnd line' lineIn' named'))
  · intro equal other same
    cases last : lastAmount settlementFile gatewayRef with
    | none => exact (lastAmount_eq_none_of_perm same last).symm
    | some amount =>
        cases last' : lastAmount other gatewayRef with
        | none => cases last.symm.trans (lastAmount_eq_none_of_perm same.symm last')
        | some amount' =>
            rcases exists_line_of_lastAmount last with ⟨line, lineIn, named, rfl⟩
            rcases exists_line_of_lastAmount last' with ⟨line', lineIn', named', rfl⟩
            rw [equal line lineIn line' (same.mem_iff.mpr lineIn') named named']

/-- For every database and file: another order of the file gives the same report exactly when
it leaves the last amount of every settled reference as it is, and every order does exactly when
no settled reference has two lines with different amounts. -/
theorem file_order_iff (world : World) (call : CallId) (settlementFile : List SettlementLine) :
    (∀ other, settlementFile.Perm other → ∃ result result',
      (reconcile settlementFile).eval call world = some (.ok result, world) ∧
      (reconcile other).eval call world = some (.ok result', world) ∧
      (SameReport result result' ↔ ∀ row ∈ settledRows world.rows,
        lastAmount settlementFile row.2.1 = lastAmount other row.2.1)) ∧
    ((∀ other result result', settlementFile.Perm other →
      (reconcile settlementFile).eval call world = some (.ok result, world) →
      (reconcile other).eval call world = some (.ok result', world) →
      SameReport result result') ↔
      ∀ row ∈ settledRows world.rows, ∀ line ∈ settlementFile, ∀ line' ∈ settlementFile,
        line.gatewayRef = row.2.1 → line'.gatewayRef = row.2.1 →
        line.amountCents = line'.amountCents) := by
  constructor
  · intro other same
    refine ⟨_, _, reconcile_eval settlementFile call world, reconcile_eval other call world, ?_⟩
    constructor
    · intro report row rowIn
      exact lastAmount_of_sameReport same report rowIn
    · exact sameReport_of_lastAmount same
  · simp only [reconcile_eval, Option.some.injEq, Prod.mk.injEq, Except.ok.injEq, and_true]
    constructor
    · intro report row rowIn
      rw [← lastAmount_eq_iff]
      intro other same
      exact lastAmount_of_sameReport same (report other _ _ same rfl rfl) rowIn
    · intro equal other result result' same isResult isResult'
      rw [← isResult, ← isResult']
      apply sameReport_of_lastAmount same
      intro row rowIn
      exact lastAmount_eq_iff.mpr (equal row rowIn) other same

/-- A correct and a wrong line for the settled refund of the sample. -/
def rightThenWrong : List SettlementLine :=
  [⟨"re_mock_00000001", 150000⟩, ⟨"re_mock_00000001", 160000⟩]

/-- In one order the wrong line is reported, in the other nothing is. -/
theorem file_order_matters :
    ¬∀ (world : World) (call : CallId) (settlementFile other : List SettlementLine)
      (result result' : ReconResult), settlementFile.Perm other →
      (reconcile settlementFile).eval call world = some (.ok result, world) →
      (reconcile other).eval call world = some (.ok result', world) →
      SameReport result result' := by
  intro same
  have report := same sampleEnd.2.world 0 rightThenWrong rightThenWrong.reverse _ _
    (List.reverse_perm _).symm (reconcile_eval ..) (reconcile_eval ..)
  have lengths := report.mismatched.length_eq
  revert lengths
  decide +kernel

end RefundEngine
