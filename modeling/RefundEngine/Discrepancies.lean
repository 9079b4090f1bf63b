import Mathlib.Algebra.BigOperators.Group.List.Basic
import RefundEngine.CleanReport

/-!
# Every difference in exactly one class

When neither side names a reference twice, the three classes of the report are the three ways
in which the file and the settled rows can differ, and together they account for the whole
difference between the sums.
-/

namespace RefundEngine

open Interleaving (CallId)

/-- The references of a file. -/
def fileRefs (settlementFile : List SettlementLine) : List String :=
  settlementFile.map SettlementLine.gatewayRef

/-- The references of the mismatches. -/
def ReconResult.mismatchRefs (result : ReconResult) : List String :=
  result.amountMismatch.map AmountMismatch.gatewayRef

/-- The entry for a settled row and a line of its reference with another amount. -/
def mismatchOf (row : Uuid × String × Int64) (line : SettlementLine) : AmountMismatch where
  gatewayRef := row.2.1
  refundId := row.1
  dbAmountCents := row.2.2
  fileAmountCents := line.amountCents

/-- A report that sorts the differences between settled rows and a file. -/
structure Sorts (settled : List (Uuid × String × Int64)) (settlementFile : List SettlementLine)
    (result : ReconResult) : Prop where
  missing : result.settledMissingFromFile =
    (settled.filter fun row => row.2.1 ∉ fileRefs settlementFile).map Prod.fst
  unknown : result.lineWithNoRefund =
    (settlementFile.filter fun line => line.gatewayRef ∉ settledRefs settled).map
      SettlementLine.gatewayRef
  mismatched : ∀ entry, entry ∈ result.amountMismatch ↔
    ∃ row ∈ settled, ∃ line ∈ settlementFile, line.gatewayRef = row.2.1 ∧
      line.amountCents ≠ row.2.2 ∧ entry = mismatchOf row line
  once : result.mismatchRefs.Nodup
  missing_apart : ∀ row ∈ settled, row.1 ∈ result.settledMissingFromFile →
    row.2.1 ∉ result.lineWithNoRefund ∧ row.2.1 ∉ result.mismatchRefs
  unknown_apart : ∀ gatewayRef ∈ result.lineWithNoRefund, gatewayRef ∉ result.mismatchRefs
  unreported : ∀ row ∈ settled, ∀ line ∈ settlementFile, line.gatewayRef = row.2.1 →
    line.amountCents = row.2.2 → row.1 ∉ result.settledMissingFromFile ∧
      row.2.1 ∉ result.lineWithNoRefund ∧ row.2.1 ∉ result.mismatchRefs
  balance :
    (settlementFile.map fun line => line.amountCents.toInt).sum -
        (settled.map fun row => row.2.2.toInt).sum =
      (result.amountMismatch.map fun entry =>
        entry.fileAmountCents.toInt - entry.dbAmountCents.toInt).sum +
      ((settlementFile.filter fun line => line.gatewayRef ∈ result.lineWithNoRefund).map
        fun line => line.amountCents.toInt).sum -
      ((settled.filter fun row => row.1 ∈ result.settledMissingFromFile).map
        fun row => row.2.2.toInt).sum

variable {settled : List (Uuid × String × Int64)} {settlementFile : List SettlementLine}
variable {gatewayRef : String} {line : SettlementLine}

theorem lookup_eq_none_iff :
    (fileByRef settlementFile).lookup gatewayRef = none ↔
      gatewayRef ∉ fileRefs settlementFile := by
  constructor
  · intro absent listed
    rcases Keyed.exists_lastByKey listed with ⟨last, lastIn, same⟩
    have held : (fileByRef settlementFile).lookup gatewayRef = some last :=
      Keyed.lookup_indexByKey.mpr ⟨lastIn, same⟩
    cases absent.symm.trans held
  · intro unlisted
    cases held : (fileByRef settlementFile).lookup gatewayRef with
    | none => rfl
    | some last =>
        rcases Keyed.lookup_indexByKey.mp held with ⟨lastIn, rfl⟩
        have inFile := (Keyed.lastByKey_sublist settlementFile).subset lastIn
        exact (unlisted (List.mem_map_of_mem inFile)).elim

/-- Where no line repeats a reference the index has every line. -/
theorem lookup_eq_some_iff (distinct : (fileRefs settlementFile).Nodup) :
    (fileByRef settlementFile).lookup gatewayRef = some line ↔
      line ∈ settlementFile ∧ line.gatewayRef = gatewayRef := by
  have lines : Keyed.lastByKey SettlementLine.gatewayRef settlementFile = settlementFile :=
    Keyed.lastByKey_of_nodup distinct
  rw [fileByRef, Keyed.lookup_indexByKey, lines]

theorem mismatch?_eq_some_iff {index : AList fun _ : String => SettlementLine}
    {row : Uuid × String × Int64} {entry : AmountMismatch} :
    mismatch? index row = some entry ↔
      ∃ line, index.lookup row.2.1 = some line ∧ line.amountCents ≠ row.2.2 ∧
        entry = mismatchOf row line := by
  rcases row with ⟨refundId, name, dbAmount⟩
  rw [mismatch?]
  split
  · rename_i line held
    simp only [held, Option.some.injEq, Option.ite_none_right_eq_some, exists_eq_left']
    exact and_congr_right fun _ => eq_comm
  · rename_i absent
    simp only [absent, reduceCtorEq, false_and, exists_false]

/-- The line the index has for a settled row. -/
def lineFor (index : AList fun _ : String => SettlementLine) (row : Uuid × String × Int64) :
    Option SettlementLine :=
  index.lookup row.2.1

/-- What the file pays for a settled row. -/
def paidFor (index : AList fun _ : String => SettlementLine) (row : Uuid × String × Int64) :
    Int :=
  ((lineFor index row).map fun line => line.amountCents.toInt).getD 0

/-- What the file pays more for the settled rows is in the mismatches, but for the rows it does
not know, by induction on the rows. -/
theorem sum_paidFor (index : AList fun _ : String => SettlementLine)
    (settled : List (Uuid × String × Int64)) :
    (settled.map (paidFor index)).sum - (settled.map fun row => row.2.2.toInt).sum =
      ((settled.filterMap (mismatch? index)).map fun entry =>
        entry.fileAmountCents.toInt - entry.dbAmountCents.toInt).sum -
      ((settled.filter fun row => (index.lookup row.2.1).isNone).map
        fun row => row.2.2.toInt).sum := by
  induction settled with
  | nil => rfl
  | cons row settled ih =>
      rcases row with ⟨refundId, name, dbAmount⟩
      cases held : index.lookup name with
      | none =>
          have missing : mismatch? index (refundId, name, dbAmount) = none := by
            simp only [mismatch?, held]
          simp only [List.map_cons, List.sum_cons, List.filterMap_cons, missing, paidFor, lineFor, held,
            List.filter_cons, Option.isNone_none, if_true, Option.map_none, Option.getD_none]
          omega
      | some line =>
          by_cases same : line.amountCents = dbAmount
          · have equal : mismatch? index (refundId, name, dbAmount) = none := by
              simp only [mismatch?, held, same, ne_eq, not_true_eq_false, if_false]
            simp only [List.map_cons, List.sum_cons, List.filterMap_cons, equal, paidFor, lineFor, held,
              List.filter_cons, Option.isNone_some, Bool.false_eq_true, if_false,
              Option.map_some, Option.getD_some, same]
            omega
          · have different : mismatch? index (refundId, name, dbAmount) =
                some (mismatchOf (refundId, name, dbAmount) line) := by
              rw [mismatch?_eq_some_iff]
              exact ⟨line, held, same, rfl⟩
            simp only [List.map_cons, List.sum_cons, List.filterMap_cons, different, paidFor, lineFor,
              held,
              List.filter_cons, Option.isNone_some, Bool.false_eq_true, if_false,
              Option.map_some, Option.getD_some, mismatchOf]
            omega

/-- The lines of settled rows, row by row or in the order of the file. -/
theorem filter_settled_perm (distinct : (fileRefs settlementFile).Nodup)
    (refsDistinct : (settledRefs settled).Nodup) :
    (settled.filterMap (lineFor (fileByRef settlementFile))).Perm
      (settlementFile.filter fun line => line.gatewayRef ∈ settledRefs settled) := by
  have rowLines : ((settled.filterMap (lineFor (fileByRef settlementFile))).map
      SettlementLine.gatewayRef).Sublist (settledRefs settled) := by
    clear refsDistinct
    induction settled with
    | nil => exact .slnil
    | cons row settled ih =>
        cases held : lineFor (fileByRef settlementFile) row with
        | none =>
            rw [List.filterMap_cons_none held]
            exact ih.cons row.2.1
        | some line =>
            rw [List.filterMap_cons_some held, List.map_cons,
              ((lookup_eq_some_iff distinct).mp held).2]
            exact ih.cons_cons row.2.1
  have left := List.Nodup.of_map _ (refsDistinct.sublist rowLines)
  have right := (List.Nodup.of_map _ distinct).filter
    fun line => decide (line.gatewayRef ∈ settledRefs settled)
  rw [List.perm_ext_iff_of_nodup left right]
  intro line
  simp only [List.mem_filterMap, List.mem_filter, decide_eq_true_eq, lineFor,
    lookup_eq_some_iff distinct]
  constructor
  · intro found
    rcases found with ⟨row, rowIn, lineIn, same⟩
    exact ⟨lineIn, List.mem_map.mpr ⟨row, rowIn, same.symm⟩⟩
  · intro found
    rcases found with ⟨lineIn, named⟩
    rcases List.mem_map.mp named with ⟨row, rowIn, same⟩
    exact ⟨row, rowIn, lineIn, same.symm⟩

/-- The file pays for the settled rows and for lines of no settled row. -/
theorem sum_settlementFile (distinct : (fileRefs settlementFile).Nodup)
    (refsDistinct : (settledRefs settled).Nodup) :
    (settlementFile.map fun line => line.amountCents.toInt).sum =
      (settled.map (paidFor (fileByRef settlementFile))).sum +
      ((settlementFile.filter fun line => line.gatewayRef ∉ settledRefs settled).map
        fun line => line.amountCents.toInt).sum := by
  have paid : (settled.map (paidFor (fileByRef settlementFile))).sum =
      ((settled.filterMap (lineFor (fileByRef settlementFile))).map
        fun line => line.amountCents.toInt).sum := by
    clear refsDistinct
    induction settled with
    | nil => rfl
    | cons row settled ih =>
        cases held : lineFor (fileByRef settlementFile) row with
        | none =>
            rw [List.filterMap_cons_none held, List.map_cons, List.sum_cons, ih, paidFor, held]
            exact Int.zero_add _
        | some line =>
            rw [List.filterMap_cons_some held, List.map_cons, List.sum_cons, ih, paidFor, held]
            rfl
  have parts := List.filter_append_perm (fun line : SettlementLine =>
    decide (line.gatewayRef ∈ settledRefs settled)) settlementFile
  have sums := (parts.map fun line => line.amountCents.toInt).sum_eq
  have matched := ((filter_settled_perm distinct refsDistinct).map
    fun line => line.amountCents.toInt).sum_eq
  rw [List.map_append, List.sum_append] at sums
  simp only [decide_not]
  rw [paid, matched]
  exact sums.symm

theorem mismatchRefs_sublist (index : AList fun _ : String => SettlementLine)
    (settled : List (Uuid × String × Int64)) :
    ((settled.filterMap (mismatch? index)).map AmountMismatch.gatewayRef).Sublist
      (settledRefs settled) := by
  induction settled with
  | nil => exact .slnil
  | cons row settled ih =>
      cases different : mismatch? index row with
      | none =>
          rw [List.filterMap_cons_none different]
          exact ih.cons row.2.1
      | some entry =>
          rcases mismatch?_eq_some_iff.mp different with ⟨line, _, _, rfl⟩
          rw [List.filterMap_cons_some different]
          exact ih.cons_cons row.2.1

theorem missing_eq (settled : List (Uuid × String × Int64))
    (settlementFile : List SettlementLine) :
    (reconcileRows settled settlementFile).settledMissingFromFile =
      (settled.filter fun row => row.2.1 ∉ fileRefs settlementFile).map Prod.fst := by
  rw [reconcileRows_eq]
  apply congrArg (List.map Prod.fst)
  apply List.filter_congr
  intro row _
  rw [Bool.eq_iff_iff, Option.isNone_iff_eq_none, decide_eq_true_eq]
  exact lookup_eq_none_iff

theorem mem_missing_iff (ids : (settled.map Prod.fst).Nodup) {row : Uuid × String × Int64}
    (rowIn : row ∈ settled) :
    row.1 ∈ (reconcileRows settled settlementFile).settledMissingFromFile ↔
      row.2.1 ∉ fileRefs settlementFile := by
  simp only [missing_eq, List.mem_map, List.mem_filter, decide_eq_true_eq]
  constructor
  · intro found
    rcases found with ⟨other, ⟨otherIn, absent⟩, same⟩
    cases List.inj_on_of_nodup_map ids otherIn rowIn same
    exact absent
  · intro absent
    exact ⟨row, ⟨rowIn, absent⟩, rfl⟩

theorem mem_unknown_iff :
    gatewayRef ∈ (reconcileRows settled settlementFile).lineWithNoRefund ↔
      gatewayRef ∈ fileRefs settlementFile ∧ gatewayRef ∉ settledRefs settled := by
  rw [reconcileRows_eq]
  simp only [List.mem_map, List.mem_filter, decide_eq_true_eq, fileRefs]
  constructor
  · intro found
    rcases found with ⟨line, ⟨lineIn, unsettled⟩, rfl⟩
    exact ⟨⟨line, lineIn, rfl⟩, unsettled⟩
  · intro found
    rcases found with ⟨⟨line, lineIn, rfl⟩, unsettled⟩
    exact ⟨line, ⟨lineIn, unsettled⟩, rfl⟩

theorem mem_mismatch_iff (distinct : (fileRefs settlementFile).Nodup) {entry : AmountMismatch} :
    entry ∈ (reconcileRows settled settlementFile).amountMismatch ↔
      ∃ row ∈ settled, ∃ line ∈ settlementFile, line.gatewayRef = row.2.1 ∧
        line.amountCents ≠ row.2.2 ∧ entry = mismatchOf row line := by
  rw [reconcileRows_eq]
  simp only [List.mem_filterMap, mismatch?_eq_some_iff, lookup_eq_some_iff distinct, and_assoc]

theorem of_mem_mismatchRefs (distinct : (fileRefs settlementFile).Nodup)
    (mismatched : gatewayRef ∈ (reconcileRows settled settlementFile).mismatchRefs) :
    ∃ row ∈ settled, ∃ line ∈ settlementFile, row.2.1 = gatewayRef ∧
      line.gatewayRef = gatewayRef ∧ line.amountCents ≠ row.2.2 := by
  rcases List.mem_map.mp mismatched with ⟨entry, entryIn, rfl⟩
  rcases (mem_mismatch_iff distinct).mp entryIn with ⟨row, rowIn, line, lineIn, same, differ, rfl⟩
  exact ⟨row, rowIn, line, lineIn, rfl, same, differ⟩

/-- Where neither side repeats a reference or an identifier the report sorts. -/
theorem reconcileRows_sorts (ids : (settled.map Prod.fst).Nodup)
    (refsDistinct : (settledRefs settled).Nodup) (distinct : (fileRefs settlementFile).Nodup) :
    Sorts settled settlementFile (reconcileRows settled settlementFile) where
  missing := missing_eq settled settlementFile
  unknown := by rw [reconcileRows_eq]
  mismatched := fun _ => mem_mismatch_iff distinct
  once := by
    rw [ReconResult.mismatchRefs, reconcileRows_eq]
    exact refsDistinct.sublist (mismatchRefs_sublist _ settled)
  missing_apart := by
    intro row rowIn missing
    have absent := (mem_missing_iff ids rowIn).mp missing
    constructor
    · intro unknown
      exact absent (mem_unknown_iff.mp unknown).1
    · intro mismatched
      rcases of_mem_mismatchRefs distinct mismatched with ⟨_, _, line, lineIn, _, same, _⟩
      exact absent (List.mem_map.mpr ⟨line, lineIn, same⟩)
  unknown_apart := by
    intro gatewayRef unknown mismatched
    rcases of_mem_mismatchRefs distinct mismatched with ⟨row, rowIn, _, _, same, _, _⟩
    exact (mem_unknown_iff.mp unknown).2 (List.mem_map.mpr ⟨row, rowIn, same⟩)
  unreported := by
    intro row rowIn line lineIn same amount
    have listed : row.2.1 ∈ fileRefs settlementFile := List.mem_map.mpr ⟨line, lineIn, same⟩
    refine ⟨?_, ?_, ?_⟩
    · intro missing
      exact (mem_missing_iff ids rowIn).mp missing listed
    · intro unknown
      exact (mem_unknown_iff.mp unknown).2 (List.mem_map.mpr ⟨row, rowIn, rfl⟩)
    · intro mismatched
      rcases of_mem_mismatchRefs distinct mismatched with
        ⟨row', rowIn', line', lineIn', sameRow, sameLine, differ⟩
      cases List.inj_on_of_nodup_map refsDistinct rowIn' rowIn sameRow
      cases List.inj_on_of_nodup_map distinct lineIn' lineIn (sameLine.trans same.symm)
      exact differ amount
  balance := by
    have unknown : (settlementFile.filter fun line =>
        line.gatewayRef ∈ (reconcileRows settled settlementFile).lineWithNoRefund) =
        settlementFile.filter fun line => line.gatewayRef ∉ settledRefs settled := by
      apply List.filter_congr
      intro line lineIn
      rw [decide_eq_decide, mem_unknown_iff]
      exact and_iff_right (List.mem_map_of_mem lineIn)
    have missing : (settled.filter fun row =>
        row.1 ∈ (reconcileRows settled settlementFile).settledMissingFromFile) =
        settled.filter fun row => ((fileByRef settlementFile).lookup row.2.1).isNone := by
      apply List.filter_congr
      intro row rowIn
      rw [Bool.eq_iff_iff, decide_eq_true_eq, mem_missing_iff ids rowIn,
        Option.isNone_iff_eq_none, lookup_eq_none_iff]
    have rows := sum_paidFor (fileByRef settlementFile) settled
    have lines := sum_settlementFile distinct refsDistinct
    rw [unknown, missing, lines]
    simp only [reconcileRows_eq]
    omega

/-! ## Over the database -/

theorem settledRows_nodup (table : RefundTable) :
    ((settledRows table.rows).map Prod.fst).Nodup := by
  have ids : ∀ rows : List Refund,
      ((settledRows rows).map Prod.fst).Sublist (rows.map Refund.id) := by
    intro rows
    induction rows with
    | nil => exact .slnil
    | cons row rows ih =>
        simp only [settledRows] at ih ⊢
        cases recorded : row.gatewayRef with
        | none => simpa [recorded] using ih.cons row.id
        | some gatewayRef =>
            by_cases settled : row.status = .settled
            · simpa [recorded, settled] using ih.cons_cons row.id
            · simpa [recorded, settled] using ih.cons row.id
  exact table.ids_nodup.sublist (ids table.rows)

/-- For every database and every file that names no reference twice: reconciliation sorts every
difference into exactly one class, and the classes account for the difference of the sums. -/
theorem reconcile_sorts (world : World) (call : CallId) (settlementFile : List SettlementLine)
    (distinct : (fileRefs settlementFile).Nodup) :
    ∃ result, (reconcile settlementFile).eval call world = some (.ok result, world) ∧
      Sorts (settledRows world.rows) settlementFile result :=
  ⟨_, reconcile_eval settlementFile call world,
    reconcileRows_sorts (settledRows_nodup world.database.refunds)
      (settledRefs_nodup world.database.refunds) distinct⟩

/-- A file with a line of another amount for the settled refund of the sample, and a line of no
refund. -/
def oneOfTwo : List SettlementLine := [⟨"re_ghost", 9900⟩, ⟨"re_mock_00000001", 160000⟩]

theorem reconcile_sorts_sample : ∃ result,
    (reconcile oneOfTwo).eval 0 sampleEnd.2.world = some (.ok result, sampleEnd.2.world) ∧
    Sorts (settledRows sampleEnd.2.world.rows) oneOfTwo result ∧
    result.lineWithNoRefund = ["re_ghost"] := by
  rcases reconcile_sorts sampleEnd.2.world 0 oneOfTwo (by decide) with ⟨result, returned, sorts⟩
  refine ⟨result, returned, sorts, ?_⟩
  rw [sorts.unknown]
  decide +kernel

end RefundEngine
