import RefundEngine.Keyed
import RefundEngine.Operations

/-!
# Reconciliation

Match the settled refunds against the bank's settlement file by `gateway_ref` and
amount, flagging the three discrepancy classes.
-/

namespace RefundEngine

/-- One line of the bank's settlement file. -/
structure SettlementLine where
  gatewayRef : String
  amountCents : Int64
  deriving DecidableEq, Repr

/-- A settled row whose amount differs from the file's. -/
structure AmountMismatch where
  gatewayRef : String
  refundId : Uuid
  dbAmountCents : Int64
  fileAmountCents : Int64
  deriving DecidableEq, Repr

/-- The three discrepancy classes. -/
structure ReconResult where
  settledMissingFromFile : List Uuid := []
  lineWithNoRefund : List String := []
  amountMismatch : List AmountMismatch := []
  deriving DecidableEq, Repr

/-- Index the file by reference; a later line replaces an earlier one. -/
def fileByRef (settlementFile : List SettlementLine) :
    AList fun _ : String => SettlementLine :=
  Keyed.indexByKey SettlementLine.gatewayRef settlementFile

/-- Compare one settled row with the file, keeping track of the matched references. -/
def reconcileRow (index : AList fun _ : String => SettlementLine)
    (progress : ReconResult × List String) (settled : Uuid × String × Int64) :
    ReconResult × List String :=
  let (result, matchedRefs) := progress
  let (refundId, gatewayRef, dbAmount) := settled
  match index.lookup gatewayRef with
  | none =>
      ({ result with
        settledMissingFromFile := result.settledMissingFromFile ++ [refundId] },
        matchedRefs)
  | some line =>
      let matchedRefs := gatewayRef :: matchedRefs
      if line.amountCents ≠ dbAmount then
        ({ result with
          amountMismatch := result.amountMismatch ++
            [{ gatewayRef := gatewayRef
               refundId := refundId
               dbAmountCents := dbAmount
               fileAmountCents := line.amountCents }] },
          matchedRefs)
      else (result, matchedRefs)

/-- Reconcile a list of settled rows with a settlement file. -/
def reconcileRows (settled : List (Uuid × String × Int64))
    (settlementFile : List SettlementLine) : ReconResult :=
  let index := fileByRef settlementFile
  let (result, matchedRefs) := settled.foldl (reconcileRow index) ({}, [])
  { result with
    lineWithNoRefund :=
      (settlementFile.filter fun line => line.gatewayRef ∉ matchedRefs).map
        SettlementLine.gatewayRef }

/-- Reconcile the settled refunds of the database with a settlement file. -/
def reconcile (settlementFile : List SettlementLine) : Action ReconResult := do
  let settled ← Action.sql .selectSettled
  return reconcileRows settled settlementFile

end RefundEngine
