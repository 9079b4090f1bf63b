import RefundEngine.Invariant.World
import RefundEngine.Sequential

/-!
# When a clean report means that the books balance

The file is matched by reference, and only the last line of a reference is compared.  A
report is clean exactly when those last lines balance the settled rows, so it misses a
file that names one reference twice.
-/

namespace RefundEngine

open Interleaving (CallId)
open Keyed (lastByKey)

/-- Nothing to report. -/
def ReconResult.Clean (result : ReconResult) : Prop :=
  result.settledMissingFromFile = [] ∧ result.lineWithNoRefund = [] ∧
    result.amountMismatch = []

instance (result : ReconResult) : Decidable result.Clean :=
  inferInstanceAs (Decidable (_ ∧ _ ∧ _))

/-- The lines and the settled rows are the same references with the same amounts, each
as often. -/
def Balances (settled : List (Uuid × String × Int64)) (lines : List SettlementLine) : Prop :=
  (lines.map fun line => (line.gatewayRef, line.amountCents)).Perm (settled.map Prod.snd)

instance (settled : List (Uuid × String × Int64)) (lines : List SettlementLine) :
    Decidable (Balances settled lines) :=
  inferInstanceAs (Decidable (List.Perm _ _))

/-- The references of settled rows. -/
def settledRefs (settled : List (Uuid × String × Int64)) : List String :=
  settled.map fun (_, gatewayRef, _) => gatewayRef

section Report

variable {index : AList fun _ : String => SettlementLine}
variable {settled : List (Uuid × String × Int64)} {settlementFile : List SettlementLine}

/-- What a settled row adds to the mismatches. -/
def mismatch? (index : AList fun _ : String => SettlementLine) :
    Uuid × String × Int64 → Option AmountMismatch
  | (refundId, gatewayRef, dbAmount) =>
      match index.lookup gatewayRef with
      | some line =>
          if line.amountCents ≠ dbAmount then
            some
              { gatewayRef := gatewayRef
                refundId := refundId
                dbAmountCents := dbAmount
                fileAmountCents := line.amountCents }
          else none
      | none => none

/-- One row is missing, mismatched or fine, and is matched unless it is missing. -/
theorem reconcileRow_eq (index : AList fun _ : String => SettlementLine)
    (result : ReconResult) (matchedRefs : List String) (row : Uuid × String × Int64) :
    (reconcileRow index (result, matchedRefs) row).1 =
      { result with
        settledMissingFromFile := result.settledMissingFromFile ++
          if (index.lookup row.2.1).isNone then [row.1] else []
        amountMismatch := result.amountMismatch ++ (mismatch? index row).toList } ∧
    ∀ gatewayRef, gatewayRef ∈ (reconcileRow index (result, matchedRefs) row).2 ↔
      gatewayRef ∈ matchedRefs ∨
        (gatewayRef = row.2.1 ∧ (index.lookup gatewayRef).isSome) := by
  rcases row with ⟨refundId, name, dbAmount⟩
  cases found : index.lookup name with
  | none =>
      simp only [reconcileRow, mismatch?, found]
      constructor
      · simp
      · intro gatewayRef
        constructor
        · exact .inl
        · intro matched
          rcases matched with earlier | ⟨rfl, held⟩
          · exact earlier
          · rw [found] at held
            cases held
  | some line =>
      have members : ∀ gatewayRef, gatewayRef ∈ name :: matchedRefs ↔
          gatewayRef ∈ matchedRefs ∨ (gatewayRef = name ∧ (index.lookup gatewayRef).isSome) := by
        intro gatewayRef
        rw [List.mem_cons, or_comm]
        apply or_congr_right
        constructor
        · intro same
          rw [same, found]
          exact ⟨rfl, rfl⟩
        · exact And.left
      simp only [reconcileRow, mismatch?, found]
      by_cases same : line.amountCents = dbAmount
      · simp only [same, ne_eq, not_true_eq_false, if_false]
        exact ⟨by simp, members⟩
      · simp only [ne_eq, same, not_false_eq_true, if_true]
        exact ⟨by simp, members⟩

/-- The loop over the settled rows, by induction on them. -/
theorem foldl_reconcileRow (index : AList fun _ : String => SettlementLine)
    (settled : List (Uuid × String × Int64)) (result : ReconResult)
    (matchedRefs : List String) :
    ∃ matchedRefs',
      settled.foldl (reconcileRow index) (result, matchedRefs) =
        ({ result with
           settledMissingFromFile := result.settledMissingFromFile ++
             (settled.filter fun row => (index.lookup row.2.1).isNone).map Prod.fst
           amountMismatch := result.amountMismatch ++ settled.filterMap (mismatch? index) },
         matchedRefs') ∧
      ∀ gatewayRef, gatewayRef ∈ matchedRefs' ↔ gatewayRef ∈ matchedRefs ∨
        (gatewayRef ∈ settledRefs settled ∧ (index.lookup gatewayRef).isSome) := by
  induction settled generalizing result matchedRefs with
  | nil => exact ⟨matchedRefs, by simp, by simp [settledRefs]⟩
  | cons row settled ih =>
      rcases reconcileRow_eq index result matchedRefs row with ⟨first, matched⟩
      rcases ih (reconcileRow index (result, matchedRefs) row).1
        (reconcileRow index (result, matchedRefs) row).2 with ⟨matchedRefs', folded, members⟩
      refine ⟨matchedRefs', folded.trans ?_, ?_⟩
      · rw [first]
        congr 2
        · by_cases missing : (index.lookup row.2.1).isNone
          · simp [missing]
          · simp [missing]
        · cases different : mismatch? index row with
          | none => simp [different]
          | some mismatch => simp [different]
      · intro gatewayRef
        rw [members, matched, or_assoc]
        simp only [settledRefs, List.map_cons, List.mem_cons]
        rw [or_and_right]

theorem reconcileRows_eq (settled : List (Uuid × String × Int64))
    (settlementFile : List SettlementLine) :
    reconcileRows settled settlementFile =
      { settledMissingFromFile :=
          (settled.filter fun row =>
            ((fileByRef settlementFile).lookup row.2.1).isNone).map Prod.fst
        lineWithNoRefund :=
          (settlementFile.filter fun line => line.gatewayRef ∉ settledRefs settled).map
            SettlementLine.gatewayRef
        amountMismatch := settled.filterMap (mismatch? (fileByRef settlementFile)) } := by
  rcases foldl_reconcileRow (fileByRef settlementFile) settled {} [] with
    ⟨matchedRefs, folded, members⟩
  have unmatched : (settlementFile.filter fun line => line.gatewayRef ∉ matchedRefs) =
      settlementFile.filter fun line => line.gatewayRef ∉ settledRefs settled := by
    apply List.filter_congr
    intro line member
    have held : ((fileByRef settlementFile).lookup line.gatewayRef).isSome := by
      rcases Keyed.exists_lastByKey (List.mem_map_of_mem (f := SettlementLine.gatewayRef) member)
        with ⟨last, lastIn, same⟩
      rw [fileByRef, Keyed.lookup_indexByKey.mpr ⟨lastIn, same⟩]
      rfl
    simp [members, held]
  simp only [reconcileRows, folded, unmatched, List.nil_append]

end Report

/-! ## Clean reports -/

section Clean

variable {settled : List (Uuid × String × Int64)} {settlementFile : List SettlementLine}

/-- A report is clean when every settled row is found with its amount and every line is
of a settled row. -/
theorem clean_iff :
    (reconcileRows settled settlementFile).Clean ↔
      (∀ row ∈ settled, ∃ line, (fileByRef settlementFile).lookup row.2.1 = some line ∧
        line.amountCents = row.2.2) ∧
      ∀ line ∈ settlementFile, line.gatewayRef ∈ settledRefs settled := by
  rw [reconcileRows_eq]
  simp only [ReconResult.Clean, List.map_eq_nil_iff, List.filter_eq_nil_iff,
    List.filterMap_eq_nil_iff]
  constructor
  · intro clean
    rcases clean with ⟨found, known, equal⟩
    constructor
    · intro row member
      cases held : (fileByRef settlementFile).lookup row.2.1 with
      | none =>
          have missing := found row member
          simp [held] at missing
      | some line =>
          refine ⟨line, rfl, ?_⟩
          have same := equal row member
          simpa [mismatch?, held] using same
    · intro line member
      simpa using known line member
  · intro clean
    rcases clean with ⟨found, known⟩
    refine ⟨?_, ?_, ?_⟩
    · intro row member
      rcases found row member with ⟨line, held, _⟩
      simp [held]
    · intro line member
      simpa using known line member
    · intro row member
      rcases found row member with ⟨line, held, same⟩
      simp [mismatch?, held, same]

/-- A report is clean exactly when the last lines of the file balance the settled rows. -/
theorem clean_iff_balances (distinct : (settledRefs settled).Nodup) :
    (reconcileRows settled settlementFile).Clean ↔
      Balances settled (lastByKey SettlementLine.gatewayRef settlementFile) := by
  have linesDistinct : ((lastByKey SettlementLine.gatewayRef settlementFile).map
      fun line => (line.gatewayRef, line.amountCents)).Nodup := by
    apply List.Nodup.of_map Prod.fst
    rw [List.map_map]
    exact Keyed.lastByKey_nodup settlementFile
  have rowsDistinct : (settled.map Prod.snd).Nodup := by
    apply List.Nodup.of_map Prod.fst
    rw [List.map_map]
    exact distinct
  rw [clean_iff, Balances, List.perm_ext_iff_of_nodup linesDistinct rowsDistinct]
  constructor
  · intro clean
    rcases clean with ⟨found, known⟩
    intro entry
    constructor
    · intro listed
      rcases List.mem_map.mp listed with ⟨line, last, rfl⟩
      have member := (Keyed.lastByKey_sublist settlementFile).subset last
      rcases List.mem_map.mp (known line member) with ⟨row, rowIn, same⟩
      rcases found row rowIn with ⟨line', held, amount⟩
      have isLine : (fileByRef settlementFile).lookup row.2.1 = some line :=
        Keyed.lookup_indexByKey.mpr ⟨last, same.symm⟩
      cases held.symm.trans isLine
      exact List.mem_map.mpr ⟨row, rowIn, Prod.ext same amount.symm⟩
    · intro listed
      rcases List.mem_map.mp listed with ⟨row, rowIn, rfl⟩
      rcases found row rowIn with ⟨line, held, amount⟩
      rcases Keyed.lookup_indexByKey.mp held with ⟨last, same⟩
      exact List.mem_map.mpr ⟨line, last, Prod.ext same amount⟩
  · intro balances
    constructor
    · intro row rowIn
      rcases List.mem_map.mp ((balances row.2).mpr (List.mem_map_of_mem rowIn)) with
        ⟨line, last, same⟩
      exact ⟨line, Keyed.lookup_indexByKey.mpr ⟨last, congrArg Prod.fst same⟩,
        congrArg Prod.snd same⟩
    · intro line member
      rcases Keyed.exists_lastByKey (List.mem_map_of_mem (f := SettlementLine.gatewayRef) member)
        with ⟨last, lastIn, same⟩
      rcases List.mem_map.mp ((balances _).mp (List.mem_map_of_mem lastIn)) with
        ⟨row, rowIn, equal⟩
      exact List.mem_map.mpr ⟨row, rowIn, (congrArg Prod.fst equal).trans same⟩

theorem nodup_of_balances (distinct : (settledRefs settled).Nodup)
    (balances : Balances settled settlementFile) :
    (settlementFile.map SettlementLine.gatewayRef).Nodup := by
  have refs := balances.map Prod.fst
  rw [List.map_map, List.map_map] at refs
  exact refs.nodup_iff.mpr distinct

end Clean

/-- The unique index keeps the references of settled rows distinct. -/
theorem settledRefs_nodup (table : RefundTable) :
    (settledRefs (settledRows table.rows)).Nodup := by
  have refs : ∀ rows : List Refund, settledRefs (settledRows rows) =
      (rows.filter fun row => row.status = .settled).filterMap Refund.gatewayRef := by
    intro rows
    induction rows with
    | nil => rfl
    | cons row rows ih =>
        simp only [settledRefs, settledRows] at ih ⊢
        cases recorded : row.gatewayRef with
        | none =>
            by_cases settled : row.status = .settled
            · simp [recorded, settled, ih]
            · simp [recorded, settled, ih]
        | some gatewayRef =>
            by_cases settled : row.status = .settled
            · simp [recorded, settled, ih]
            · simp [recorded, settled, ih]
  rw [refs]
  exact table.refs_nodup.sublist (List.filter_sublist.filterMap Refund.gatewayRef)

theorem reconcile_eval (settlementFile : List SettlementLine) (call : CallId) (world : World) :
    (reconcile settlementFile).eval call world =
      some (.ok (reconcileRows (settledRows world.rows) settlementFile), world) := by
  rw [reconcile, Action.eval_sql_ok rfl, Action.eval_pure]

/-- For every database and file: reconciliation is clean if and only if the books balance,
exactly when the file names no reference twice, or what is left of it without the lines
that a later line of the same reference supersedes does not balance. -/
theorem clean_report_balances (world : World) (call : CallId)
    (settlementFile : List SettlementLine) :
    ∃ result, (reconcile settlementFile).eval call world = some (.ok result, world) ∧
      ((result.Clean ↔ Balances (settledRows world.rows) settlementFile) ↔
        (settlementFile.map SettlementLine.gatewayRef).Nodup ∨
          ¬Balances (settledRows world.rows)
            (lastByKey SettlementLine.gatewayRef settlementFile)) := by
  have distinct : (settledRefs (settledRows world.rows)).Nodup :=
    settledRefs_nodup world.database.refunds
  refine ⟨_, reconcile_eval settlementFile call world, ?_⟩
  rw [clean_iff_balances distinct]
  by_cases unique : (settlementFile.map SettlementLine.gatewayRef).Nodup
  · rw [Keyed.lastByKey_of_nodup unique]
    simp only [unique, true_or]
  · have unbalanced : ¬Balances (settledRows world.rows) settlementFile := by
      intro balances
      exact unique (nodup_of_balances distinct balances)
    simp only [unbalanced, unique, false_or, iff_false]

/-- A file that pays the settled refund of the sample twice. -/
def paidTwice : List SettlementLine :=
  [⟨"re_mock_00000001", 150000⟩, ⟨"re_mock_00000001", 150000⟩]

/-- Paying one reference twice goes unreported. -/
theorem clean_report_misses_paidTwice :
    ¬∀ (world : World) (call : CallId) (settlementFile : List SettlementLine)
      (result : ReconResult),
      (reconcile settlementFile).eval call world = some (.ok result, world) →
      (result.Clean ↔ Balances (settledRows world.rows) settlementFile) := by
  intro balanced
  have clean := (balanced sampleEnd.2.world 0 paidTwice _ (reconcile_eval ..)).mp
    (by decide +kernel)
  revert clean
  decide +kernel

end RefundEngine
