import RefundEngine.Invariant.Run

/-!
# At most one refund for each row

The objects the gateway holds are those of the rows that were sent to it, one for each,
on the row's own terms.  A new object comes into being only for a row that waits in
`submitted` without a reference.
-/

namespace RefundEngine

open Interleaving (CallId)

section Objects

variable {world : World}

/-- The object the gateway holds for a row, under its key. -/
def World.object? (world : World) (row : Refund) : Option (Sigma fun _ : String => GatewayRefund) :=
  (world.gateway.lookupByKey row.idempotencyKey).map fun refund => ⟨row.idempotencyKey, refund⟩

theorem World.object?_eq_some {row : Refund} {entry : Sigma fun _ : String => GatewayRefund} :
    world.object? row = some entry ↔
      entry.1 = row.idempotencyKey ∧ world.gateway.lookupByKey row.idempotencyKey =
        some entry.2 := by
  obtain ⟨key, refund⟩ := entry
  simp only [object?, Option.map_eq_some_iff, Sigma.mk.injEq, heq_eq_eq]
  constructor
  · rintro ⟨_, held, rfl, rfl⟩
    exact ⟨rfl, held⟩
  · rintro ⟨rfl, held⟩
    exact ⟨refund, held, rfl, rfl⟩

/-- The gateway's books list the objects of the rows, each once. -/
theorem WorldOk.entries_perm (ok : WorldOk world) :
    world.gateway.store.entries.Perm (world.rows.filterMap world.object?) := by
  have nodup : world.gateway.store.entries.Nodup :=
    world.gateway.store.nodupKeys.nodup
  have nodup' : (world.rows.filterMap world.object?).Nodup := by
    have keys : world.rows.Pairwise fun left right =>
        left.idempotencyKey ≠ right.idempotencyKey :=
      List.pairwise_map.mp world.database.refunds.keys_nodup
    refine List.pairwise_filterMap.mpr (keys.imp fun different entry found entry' found' => ?_)
    obtain ⟨key, _⟩ := World.object?_eq_some.mp found
    obtain ⟨key', _⟩ := World.object?_eq_some.mp found'
    rintro rfl
    exact different (key.symm.trans key')
  rw [List.perm_ext_iff_of_nodup nodup nodup']
  intro entry
  rw [List.mem_filterMap]
  constructor
  · intro member
    have held : world.gateway.lookupByKey entry.1 = some entry.2 :=
      AList.mem_lookup_iff.mpr member
    obtain ⟨row, rowIn, same⟩ := ok.backed _ _ held
    exact ⟨row, rowIn, World.object?_eq_some.mpr ⟨same.symm, same ▸ held⟩⟩
  · rintro ⟨row, rowIn, found⟩
    obtain ⟨same, held⟩ := World.object?_eq_some.mp found
    rw [← same] at held
    exact AList.mem_lookup_iff.mp held

/-- The refunds that the gateway holds. -/
def World.heldRows (world : World) : List Refund :=
  world.rows.filter fun row => (world.gateway.lookupByKey row.id.toString).isSome

theorem WorldOk.issuedCount_eq (ok : WorldOk world) :
    world.gateway.issuedCount = world.heldRows.length := by
  have books := ok.entries_perm.length_eq
  rw [List.length_filterMap_eq_countP, List.countP_eq_length_filter] at books
  have held : world.heldRows =
      world.rows.filter fun row => (world.object? row).isSome := by
    apply List.filter_congr
    intro row member
    simp [World.object?, (ok.row row member).key]
  rw [held, ← books, MockGateway.issuedCount, ok.consistent.issued_eq]
  exact List.length_map _

theorem WorldOk.row_of_held (ok : WorldOk world) {key : String} {refund : GatewayRefund}
    (held : world.gateway.lookupByKey key = some refund) :
    ∃ row ∈ world.rows, key = row.id.toString ∧ refund.amount = row.amountCents ∧
      refund.currency = row.currency := by
  obtain ⟨row, member, rfl⟩ := ok.backed key refund held
  have rowOk := ok.row row member
  exact ⟨row, member, rowOk.key, rowOk.object refund held⟩

end Objects

section Creation

variable {hmac : Hmac} {trace : List EngineEvent} {state next : EngineState}
variable {event : EngineEvent}

/-- Whenever an object comes into being, its row waits in `submitted` and has no
reference. -/
theorem row_of_created (run : EngineRun hmac trace state)
    (step : (engine hmac).Step state event next) (permitted : NoCancel trace event)
    {key : String} {refund : GatewayRefund}
    (unheld : state.world.gateway.lookupByKey key = none)
    (held : next.world.gateway.lookupByKey key = some refund) :
    ∃ row ∈ state.world.rows, key = row.id.toString ∧ row.status = .submitted ∧
      row.gatewayRef = none := by
  obtain ⟨call, operation, amount, currency, outcome, rfl⟩ :=
    command_of_created step unheld held
  obtain ⟨row, member, rowKey, _, _, past⟩ :=
    (run.guarantee step permitted).invariant.founded _ _ _ _ _ (List.mem_cons_self ..)
  have rowOk := run.worldOk.row row member
  have unrecorded : row.gatewayRef = none := by
    cases recorded : row.gatewayRef with
    | none => rfl
    | some gatewayRef =>
        obtain ⟨object, found, _⟩ := rowOk.ref gatewayRef recorded
        simp [rowKey, unheld] at found
  exact ⟨row, member, rowKey ▸ rowOk.key,
    rowOk.submitted_of_unrecorded unrecorded past (run.not_canceled row member), unrecorded⟩

end Creation

/-- The gateway holds exactly what was asked for, at most once: every object is the only
one of a row, under its identifier and on its terms; the number issued is the number of
rows held; and a step creates an object only for a row that waits in `submitted` without
a reference. -/
theorem exactly_once {hmac : Hmac} {trace : List EngineEvent} {state : EngineState}
    (run : EngineRun hmac trace state) :
    (∀ key refund, state.world.gateway.lookupByKey key = some refund →
      ∃ row ∈ state.world.rows, key = row.id.toString ∧ refund.idempotencyKey = key ∧
        refund.amount = row.amountCents ∧ refund.currency = row.currency) ∧
    (∀ row ∈ state.world.rows, ∀ key key' refund refund',
      state.world.gateway.lookupByKey key = some refund →
      state.world.gateway.lookupByKey key' = some refund' →
      refund.idempotencyKey = row.id.toString → refund'.idempotencyKey = row.id.toString →
      key = key' ∧ refund = refund') ∧
    state.world.gateway.issuedCount = state.world.heldRows.length ∧
    ∀ event next, (engine hmac).Step state event next → NoCancel trace event →
      ∀ key refund, state.world.gateway.lookupByKey key = none →
        next.world.gateway.lookupByKey key = some refund →
        ∃ row ∈ state.world.rows, key = row.id.toString ∧ row.status = .submitted ∧
          row.gatewayRef = none := by
  have ok := run.worldOk
  refine ⟨?_, ?_, ok.issuedCount_eq, ?_⟩
  · intro key refund held
    obtain ⟨row, member, same, terms⟩ := ok.row_of_held held
    exact ⟨row, member, same, ok.consistent.keyed key refund held, terms⟩
  · intro row _ key key' refund refund' held held' named named'
    have same : key = key' := by
      rw [← ok.consistent.keyed key refund held, ← ok.consistent.keyed key' refund' held',
        named, named']
    subst same
    rw [held] at held'
    exact ⟨rfl, Option.some.inj held'⟩
  · intro event next step permitted key refund unheld held
    exact row_of_created run step permitted unheld held

/-- In the sample two rows were sent, and each has its object. -/
theorem exactly_once_sample :
    sampleEnd.2.world.gateway.issuedCount = 2 ∧
      sampleEnd.2.world.gateway.issuedCount = sampleEnd.2.world.heldRows.length :=
  ⟨by decide +kernel, (exactly_once sampleEnd_run).2.2.1⟩

end RefundEngine
