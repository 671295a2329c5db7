import Helio.Model.FinanceRepository
import Helio.ToMathlib.Drain

/-! # The credits of one bill

The consuming loop drains the open lots in the order of the cursor. Booking a bill extends the lots
by its injection and by the shortfall of the history, takes the used kWh from this pool, and adds
the unexplained difference, so that the lots sum up to the reported balance.
-/

namespace Helio.Finance

open Calendar

variable {faults : Faults} {db after : FinanceDB}

/-- No lot is overdrawn. -/
def NonnegLots (lots : AutoTable CreditLot) : Prop := ∀ row ∈ lots.rows, 0 ≤ row.2.availableKWh

/-- The used kWh are taken from the lots of a pool, `taken` from each id: never more than a lot
has, and from a lot only when all earlier ones are exhausted. -/
structure Consumed (pool : AutoTable CreditLot) (used : ℤ) (taken : ℤ → ℤ) : Prop where
  bounds : ∀ row ∈ pool.rows, 0 ≤ taken row.1 ∧ taken row.1 ≤ row.2.availableKWh
  total : (pool.rows.map fun row => taken row.1).sum = used
  ordered : ∀ row ∈ pool.rows, ∀ later ∈ pool.rows, lotOrder row later → row ≠ later →
    0 < taken later.1 → taken row.1 = row.2.availableKWh

/-- The lots after `taken` is taken from them. -/
def useLots (pool : AutoTable CreditLot) (taken : ℤ → ℤ) : AutoTable CreditLot :=
  pool.mapRows fun id lot => lot.use (taken id)

@[simp] theorem CreditLot.use_zero (lot : CreditLot) : lot.use 0 = lot := by
  simp [CreditLot.use]

/-- The cursor as a queue of amounts. -/
def queueOf (cursor : List (ℤ × CreditLot)) : List (ℤ × ℤ) :=
  cursor.map fun row => (row.1, row.2.availableKWh)

@[simp] theorem queueOf_ids (cursor : List (ℤ × CreditLot)) :
    (queueOf cursor).map Prod.fst = cursor.map Prod.fst := by
  simp [queueOf]

private theorem useLots_zero (taken : ℤ → ℤ) (nothing : ∀ id, taken id = 0) (lots : AutoTable CreditLot) :
    useLots lots taken = lots := by
  apply AutoTable.ext
  · simp [useLots, nothing]
  · rfl

/-- Using the head of the queue and then draining the rest drains the queue. -/
private theorem useLots_head {row : ℤ × CreditLot} {rest : List (ℤ × CreditLot)} {needed : ℤ}
    (fresh : row.1 ∉ rest.map Prod.fst) (lots : AutoTable CreditLot) :
    useLots (lots.update row.1 (·.use (min needed row.2.availableKWh)))
        (drain (needed - min needed row.2.availableKWh) (queueOf rest)) =
      useLots lots (drain needed (queueOf (row :: rest))) := by
  simp only [useLots, AutoTable.update, AutoTable.mapRows_mapRows]
  congr 1
  funext id lot
  change _ = lot.use (if id = row.1 then _ else _)
  split
  · next same =>
    rw [drain_of_not_mem _ (by rw [queueOf_ids, same]; exact fresh), CreditLot.use_zero]
  · rfl

private theorem queue_nonneg {cursor : List (ℤ × CreditLot)}
    (amounts : ∀ row ∈ cursor, 0 < row.2.availableKWh) : ∀ item ∈ queueOf cursor, 0 ≤ item.2 := by
  intro item member
  obtain ⟨row, rowMember, rfl⟩ := List.mem_map.mp member
  exact (amounts row rowMember).le

/-- The loop drains the cursor. -/
private theorem consumeLots_ok {cursor : List (ℤ × CreditLot)} (distinct : (cursor.map Prod.fst).Nodup)
    (amounts : ∀ row ∈ cursor, 0 < row.2.availableKWh) {needed unmet : ℤ} (need : 0 ≤ needed)
    (run : (consumeLots faults cursor needed).run db = .ok (unmet, after)) :
    after = { db with creditLots := useLots db.creditLots (drain needed (queueOf cursor)) } ∧
      unmet = needed - min needed ((queueOf cursor).map Prod.snd).sum := by
  induction cursor generalizing needed db with
  | nil =>
    obtain ⟨rfl, rfl⟩ := Tx.pure_ok.mp run
    rw [useLots_zero (drain needed (queueOf [])) fun _ => rfl]
    refine ⟨rfl, ?_⟩
    simp only [queueOf, List.map_nil, List.sum_nil]
    omega
  | cons row rest ih =>
    obtain ⟨fresh, tail⟩ := List.nodup_cons.mp distinct
    have restAmounts : ∀ other ∈ rest, 0 < other.2.availableKWh :=
      fun other member => amounts other (List.mem_cons_of_mem _ member)
    have restTotal : 0 ≤ ((queueOf rest).map Prod.snd).sum := by
      apply List.sum_nonneg
      intro amount member
      obtain ⟨item, itemMember, rfl⟩ := List.mem_map.mp member
      exact queue_nonneg restAmounts item itemMember
    have available := amounts row List.mem_cons_self
    have total : ((queueOf (row :: rest)).map Prod.snd).sum =
        row.2.availableKWh + ((queueOf rest).map Prod.snd).sum := rfl
    rw [consumeLots] at run
    split at run
    · obtain ⟨_, middle, used, continued⟩ := Tx.bind_ok.mp run
      obtain ⟨_, _, rfl⟩ := exec_ok.mp used
      obtain ⟨result, met⟩ := ih tail restAmounts (by omega) continued
      rw [result, useLots_head fresh]
      refine ⟨rfl, ?_⟩
      rw [met, total]
      omega
    · next done =>
      obtain ⟨rfl, rfl⟩ := Tx.pure_ok.mp run
      have zero : needed = 0 := by omega
      rw [zero, useLots_zero _ (drain_zero (queue_nonneg amounts)), total]
      refine ⟨rfl, ?_⟩
      omega

private theorem openLots_perm (lots : AutoTable CreditLot) :
    (openLots lots).Perm (lots.rows.filter fun row => 0 < row.2.availableKWh) :=
  List.perm_insertionSort _ _

private theorem mem_openLots {lots : AutoTable CreditLot} {row : ℤ × CreditLot} :
    row ∈ openLots lots ↔ row ∈ lots.rows ∧ 0 < row.2.availableKWh := by
  rw [(openLots_perm lots).mem_iff, List.mem_filter, decide_eq_true_iff]

private theorem openLots_nodup (lots : AutoTable CreditLot) : ((openLots lots).map Prod.fst).Nodup := by
  rw [((openLots_perm lots).map Prod.fst).nodup_iff]
  exact lots.nodup_ids.sublist (List.filter_sublist.map _)

private theorem openLots_sorted (lots : AutoTable CreditLot) : (openLots lots).Pairwise lotOrder := by
  have total : Std.Total lotOrder := ⟨fun a b => le_total _ _⟩
  have trans : IsTrans (ℤ × CreditLot) lotOrder := ⟨fun a b c first second => le_trans first second⟩
  exact List.pairwise_insertionSort _ _

private theorem sum_filter_of_zero {α : Type} (weight : α → ℤ) (test : α → Bool) (rows : List α)
    (zero : ∀ row ∈ rows, test row = false → weight row = 0) :
    ((rows.filter test).map weight).sum = (rows.map weight).sum := by
  induction rows with
  | nil => rfl
  | cons row rest ih =>
    have later := ih fun other member => zero other (List.mem_cons_of_mem _ member)
    by_cases passes : test row = true
    · rw [List.filter_cons_of_pos passes, List.map_cons, List.map_cons, List.sum_cons, List.sum_cons, later]
    · have nothing := zero row List.mem_cons_self (Bool.not_eq_true _ ▸ passes)
      rw [List.filter_cons_of_neg passes, List.map_cons, List.sum_cons, later, nothing, zero_add]

private theorem drain_closed {lots : AutoTable CreditLot} {row : ℤ × CreditLot} (member : row ∈ lots.rows)
    (closed : row.2.availableKWh ≤ 0) (needed : ℤ) : drain needed (queueOf (openLots lots)) row.1 = 0 := by
  apply drain_of_not_mem
  rw [queueOf_ids]
  intro isOpen
  obtain ⟨other, otherMember, sameId⟩ := List.mem_map.mp isOpen
  obtain ⟨stored, positive⟩ := mem_openLots.mp otherMember
  have stored' : (row.1, other.2) ∈ lots.rows := sameId ▸ stored
  have same : other.2 = row.2 := AutoTable.row_eq_of_id stored' member
  rw [same] at positive
  omega

/-- In a list sorted by an antisymmetric order the order decides the position. -/
private theorem related_of_before {α : Type} {order relation : α → α → Prop} {items : List α}
    (sorted : items.Pairwise fun a b => order a b ∧ relation a b)
    (antisymm : ∀ a ∈ items, ∀ b ∈ items, order a b → order b a → a = b) {a b : α} (left : a ∈ items)
    (right : b ∈ items) (before : order a b) (differ : a ≠ b) : relation a b := by
  induction items with
  | nil => cases left
  | cons head rest ih =>
    obtain ⟨first, tail⟩ := List.pairwise_cons.mp sorted
    rcases List.mem_cons.mp left with rfl | leftRest
    · rcases List.mem_cons.mp right with rfl | rightRest
      · exact absurd rfl differ
      · exact (first b rightRest).2
    · rcases List.mem_cons.mp right with rfl | rightRest
      · exact absurd (antisymm a left b right before (first a leftRest).1) differ
      · exact ih tail (fun a aMember b bMember => antisymm a (List.mem_cons_of_mem _ aMember) b
          (List.mem_cons_of_mem _ bMember)) leftRest rightRest

private theorem lotOrder_antisymm {lots : AutoTable CreditLot} {row later : ℤ × CreditLot}
    (member : row ∈ lots.rows) (laterMember : later ∈ lots.rows) (before : lotOrder row later)
    (after : lotOrder later row) : row = later := by
  have same := le_antisymm before after
  have sameId : row.1 = later.1 := congrArg (fun key => (ofLex key).2) same
  have member' : (later.1, row.2) ∈ lots.rows := sameId ▸ member
  have sameLot : row.2 = later.2 := AutoTable.row_eq_of_id member' laterMember
  exact Prod.ext sameId sameLot

/-- Draining the open lots consumes from the pool. -/
private theorem consumed_drain {lots : AutoTable CreditLot} (nonneg : NonnegLots lots) {used : ℤ}
    (need : 0 ≤ used) (enough : used ≤ ((queueOf (openLots lots)).map Prod.snd).sum) :
    Consumed lots used (drain used (queueOf (openLots lots))) := by
  have amounts : ∀ item ∈ queueOf (openLots lots), 0 ≤ item.2 :=
    queue_nonneg fun row member => (mem_openLots.mp member).2
  have distinct : ((queueOf (openLots lots)).map Prod.fst).Nodup := by
    rw [queueOf_ids]
    exact openLots_nodup lots
  have queued : ∀ row ∈ openLots lots, (row.1, row.2.availableKWh) ∈ queueOf (openLots lots) :=
    fun row member => List.mem_map_of_mem member
  constructor
  · intro row member
    refine ⟨drain_nonneg need amounts row.1, ?_⟩
    by_cases closed : row.2.availableKWh ≤ 0
    · rw [drain_closed member closed]
      exact nonneg row member
    · exact drain_le distinct (queued row (mem_openLots.mpr ⟨member, by omega⟩))
  · have whole := sum_drain distinct need amounts
    rw [min_eq_left enough, show (queueOf (openLots lots)).map
        (fun item => drain used (queueOf (openLots lots)) item.1) = (openLots lots).map
        (fun row => drain used (queueOf (openLots lots)) row.1) from List.map_map] at whole
    rw [← sum_filter_of_zero (fun row => drain used (queueOf (openLots lots)) row.1)
      (fun row => decide (0 < row.2.availableKWh)) lots.rows
      fun row member closed => drain_closed member (by simpa using closed) used]
    exact ((openLots_perm lots).symm.map _).sum_eq.trans whole
  · intro row member later laterMember before differ touched
    by_cases closed : row.2.availableKWh ≤ 0
    · rw [drain_closed member closed]
      have bound := nonneg row member
      omega
    · have laterOpen : ¬later.2.availableKWh ≤ 0 := fun laterClosed => by
        rw [drain_closed laterMember laterClosed] at touched
        omega
      have exhausted : (openLots lots).Pairwise fun row later =>
          0 < drain used (queueOf (openLots lots)) later.1 →
            drain used (queueOf (openLots lots)) row.1 = row.2.availableKWh :=
        List.pairwise_map.mp (drain_ordered distinct amounts)
      exact related_of_before ((openLots_sorted lots).and exhausted)
        (fun a aMember b bMember => lotOrder_antisymm (mem_openLots.mp aMember).1 (mem_openLots.mp bMember).1)
        (mem_openLots.mpr ⟨member, by omega⟩) (mem_openLots.mpr ⟨laterMember, by omega⟩) before differ touched

/-- A successful consumption takes exactly the used kWh, in order. -/
theorem consumeCreditLots_ok (nonneg : NonnegLots db.creditLots) {used : ℤ} (need : 0 ≤ used) {r : Unit}
    (run : (consumeCreditLots faults used).run db = .ok (r, after)) : ∃ taken,
    Consumed db.creditLots used taken ∧ after = { db with creditLots := useLots db.creditLots taken } := by
  simp only [consumeCreditLots, Tx.bind_ok, query_ok, Tx.require_ok] at run
  obtain ⟨_, _, ⟨_, rfl, rfl⟩, unmet, middle, loop, _, _, ⟨_, rfl, rfl⟩, met, rfl⟩ := run
  obtain ⟨result, rest⟩ := consumeLots_ok (openLots_nodup db.creditLots)
    (fun row member => (mem_openLots.mp member).2) need loop
  exact ⟨_, consumed_drain nonneg need (by omega), result⟩

theorem useLots_nonneg {pool : AutoTable CreditLot} {used : ℤ} {taken : ℤ → ℤ}
    (consumed : Consumed pool used taken) : NonnegLots (useLots pool taken) := by
  intro row member
  obtain ⟨old, oldMember, rfl⟩ := List.mem_map.mp member
  have bounds := consumed.bounds old oldMember
  simp only [CreditLot.use]
  omega

theorem useLots_total {pool : AutoTable CreditLot} {used : ℤ} {taken : ℤ → ℤ}
    (consumed : Consumed pool used taken) :
    (useLots pool taken).total CreditLot.availableKWh = pool.total CreditLot.availableKWh - used := by
  rw [useLots, AutoTable.total_mapRows (fun id lot => rfl), consumed.total]

/-- A bill is booked on the lots `before` it: they and the lots it adds first form the pool that is
consumed, and one more lot may close the gap to the reported balance. -/
structure Booked (before pool after : AutoTable CreditLot) (taken : ℤ → ℤ) (cycle : BillingCycle) :
    Prop where
  present : before.rows <+: pool.rows
  consumed : Consumed pool cycle.creditsUsedKWh taken
  kept : (useLots pool taken).rows <+: after.rows
  nonneg : NonnegLots after
  balance : after.total CreditLot.availableKWh = cycle.creditBalanceKWh

private theorem insertLot_nonneg {lots : AutoTable CreditLot} (nonneg : NonnegLots lots) {lot : CreditLot}
    (amount : 0 ≤ lot.availableKWh) : NonnegLots (lots.insert lot) := by
  intro row member
  rcases List.mem_append.mp member with old | new
  · exact nonneg row old
  · rw [List.mem_singleton.mp new]
    exact amount

private theorem remainingCreditLots_ok {statement : Statement} {remaining : ℤ}
    (run : (remainingCreditLots faults statement).run db = .ok (remaining, after)) :
    db.availableKWh ≤ maxInt64 ∧ remaining = db.availableKWh ∧ db = after := by
  simp only [remainingCreditLots, Tx.bind_ok, query_ok, Tx.require_ok, Tx.pure_ok] at run
  obtain ⟨_, _, ⟨_, rfl, rfl⟩, _, _, ⟨fits, rfl⟩, rfl, rfl⟩ := run
  exact ⟨fits, rfl, rfl⟩

/-- An insertion extends the lots by at most one row. -/
private theorem insertCreditLot_ok {statement : Statement} {context : String} {lot : CreditLot}
    (nonneg : NonnegLots db.creditLots) {r : Unit}
    (run : (insertCreditLot faults statement context lot).run db = .ok (r, after)) :
    after = { db with creditLots := after.creditLots } ∧ db.creditLots.rows <+: after.creditLots.rows ∧
      NonnegLots after.creditLots ∧ after.availableKWh = db.availableKWh + max 0 lot.availableKWh := by
  rcases Tx.whenever_ok.mp run with ⟨positive, inserted⟩ | ⟨nothing, rfl⟩
  · obtain ⟨_, amount, rfl⟩ := exec_ok.mp inserted
    refine ⟨rfl, List.prefix_append _ _, insertLot_nonneg nonneg amount, ?_⟩
    have total := AutoTable.total_insert CreditLot.availableKWh db.creditLots lot
    simp only [FinanceDB.availableKWh]
    omega
  · refine ⟨rfl, List.prefix_rfl, nonneg, ?_⟩
    omega

/-- The credits of a bill are booked, and no other table changes. The lots and the injection fit the
sum, and what they leave after the use is no more than the reported balance. -/
theorem bookCredits_ok (nonneg : NonnegLots db.creditLots) {now cycleID : ℤ} {cycle : BillingCycle}
    (need : 0 ≤ cycle.creditsUsedKWh) (injects : 0 ≤ cycle.injectedKWh) {r : Unit}
    (run : (bookCredits faults now cycleID cycle).run db = .ok (r, after)) :
    after = { db with creditLots := after.creditLots } ∧
      (∃ pool taken, Booked db.creditLots pool after.creditLots taken cycle) ∧
      db.availableKWh + cycle.injectedKWh ≤ maxInt64 ∧
      db.availableKWh + cycle.injectedKWh - cycle.creditsUsedKWh ≤ cycle.creditBalanceKWh := by
  simp only [bookCredits, Tx.bind_ok] at run
  obtain ⟨_, injected, injection, available, _, sum, _, pooled, shortfall, _, used, consumption,
    remaining, _, rest, _, _, enough, unknown⟩ := run
  obtain ⟨injectedEq, injectedPrefix, injectedNonneg, injectedTotal⟩ := insertCreditLot_ok nonneg injection
  obtain ⟨fits, rfl, rfl⟩ := remainingCreditLots_ok sum
  obtain ⟨pooledEq, pooledPrefix, pooledNonneg, pooledTotal⟩ := insertCreditLot_ok injectedNonneg shortfall
  obtain ⟨taken, consumed, rfl⟩ := consumeCreditLots_ok pooledNonneg need consumption
  obtain ⟨_, rfl, rfl⟩ := remainingCreditLots_ok rest
  obtain ⟨covered, rfl⟩ := Tx.require_ok.mp enough
  obtain ⟨afterEq, afterPrefix, afterNonneg, total⟩ := insertCreditLot_ok (useLots_nonneg consumed) unknown
  have left := useLots_total consumed
  simp only [FinanceDB.availableKWh] at *
  refine ⟨?_, ⟨pooled.creditLots, taken, injectedPrefix.trans pooledPrefix, consumed, afterPrefix,
    afterNonneg, ?_⟩, ?_, ?_⟩
  · rw [afterEq, pooledEq, injectedEq]
  · omega
  · omega
  · omega

section Acceptance

private theorem exec_run {statement : Statement} {context : String} {allowed : Prop} [Decidable allowed]
    {effect : FinanceDB → FinanceDB} (holds : allowed) :
    (exec noFaults statement context allowed effect).run db = .ok ((), effect db) :=
  exec_ok.mpr ⟨rfl, holds, rfl⟩

private theorem query_run {statement : Statement} {context : String} :
    (query noFaults statement context).run db = .ok (db, db) :=
  query_ok.mpr ⟨rfl, rfl, rfl⟩

private theorem consumeLots_runs (db : FinanceDB) (cursor : List (ℤ × CreditLot)) (needed : ℤ) :
    ∃ unmet after, (consumeLots noFaults cursor needed).run db = .ok (unmet, after) := by
  induction cursor generalizing needed db with
  | nil => exact ⟨needed, db, rfl⟩
  | cons row rest ih =>
    rw [consumeLots]
    split
    · let used := db.creditLots.update row.1 (·.use (min needed row.2.availableKWh))
      obtain ⟨unmet, after, run⟩ := ih { db with creditLots := used } (needed - min needed row.2.availableKWh)
      exact ⟨unmet, after, Tx.bind_ok.mpr ⟨(), _, exec_run (by omega), run⟩⟩
    · exact ⟨needed, db, rfl⟩

/-- The cursor holds all kWh. -/
private theorem queue_total {lots : AutoTable CreditLot} (nonneg : NonnegLots lots) :
    ((queueOf (openLots lots)).map Prod.snd).sum = lots.total CreditLot.availableKWh := by
  have closed : ∀ row ∈ lots.rows, decide (0 < row.2.availableKWh) = false → row.2.availableKWh = 0 := by
    intro row member closed
    have bound := nonneg row member
    have notOpen := of_decide_eq_false closed
    omega
  rw [AutoTable.total, ← sum_filter_of_zero (fun row : ℤ × CreditLot => row.2.availableKWh) _ lots.rows closed,
    queueOf, List.map_map]
  exact ((openLots_perm lots).map fun row => row.2.availableKWh).sum_eq

private theorem consumeCreditLots_runs (nonneg : NonnegLots db.creditLots) {used : ℤ} (need : 0 ≤ used)
    (enough : used ≤ db.availableKWh) :
    ∃ after, (consumeCreditLots noFaults used).run db = .ok ((), after) ∧
      after.availableKWh = db.availableKWh - used := by
  obtain ⟨unmet, after, loop⟩ := consumeLots_runs db (openLots db.creditLots) used
  obtain ⟨_, rest⟩ := consumeLots_ok (openLots_nodup db.creditLots)
    (fun row member => (mem_openLots.mp member).2) need loop
  rw [queue_total nonneg] at rest
  simp only [FinanceDB.availableKWh] at enough
  have run : (consumeCreditLots noFaults used).run db = .ok ((), after) := by
    simp only [consumeCreditLots, Tx.bind_ok]
    exact ⟨db, db, query_run, unmet, after, loop, after, after, query_run,
      Tx.require_ok.mpr ⟨by omega, rfl⟩⟩
  obtain ⟨taken, consumed, result⟩ := consumeCreditLots_ok nonneg need run
  refine ⟨after, run, ?_⟩
  rw [result]
  exact useLots_total consumed

private theorem remainingCreditLots_run {statement : Statement} (fits : db.availableKWh ≤ maxInt64) :
    (remainingCreditLots noFaults statement).run db = .ok (db.availableKWh, db) := by
  simp only [remainingCreditLots, Tx.bind_ok]
  exact ⟨db, db, query_run, (), db, Tx.require_ok.mpr ⟨fits, rfl⟩, rfl⟩

private theorem insertCreditLot_runs (db : FinanceDB) (statement : Statement) (context : String) (lot : CreditLot) :
    ∃ after, (insertCreditLot noFaults statement context lot).run db = .ok ((), after) := by
  by_cases positive : 0 < lot.availableKWh
  · exact ⟨_, Tx.whenever_ok.mpr (Or.inl ⟨positive, exec_run positive.le⟩)⟩
  · exact ⟨db, Tx.whenever_ok.mpr (Or.inr ⟨positive, rfl⟩)⟩

/-- A bill is booked when the lots and its injection fit the sum and it reports no less than they
leave after the use. -/
theorem bookCredits_runs (nonneg : NonnegLots db.creditLots) {now cycleID : ℤ} {cycle : BillingCycle}
    (need : 0 ≤ cycle.creditsUsedKWh) (injects : 0 ≤ cycle.injectedKWh) (balance : 0 ≤ cycle.creditBalanceKWh)
    (fits : db.availableKWh + cycle.injectedKWh ≤ maxInt64)
    (covered : db.availableKWh + cycle.injectedKWh - cycle.creditsUsedKWh ≤ cycle.creditBalanceKWh) :
    ∃ after, (bookCredits noFaults now cycleID cycle).run db = .ok ((), after) := by
  obtain ⟨injected, injection⟩ := insertCreditLot_runs db .insertInjectedLot
    "insert injected credit lot: "
    ⟨some cycleID, cycle.injectedKWh, creditExpiry cycle.readingEnd, false, now⟩
  obtain ⟨_, _, injectedNonneg, injectedTotal⟩ := insertCreditLot_ok nonneg injection
  dsimp only at injectedTotal
  obtain ⟨pooled, shortfall⟩ := insertCreditLot_runs injected .insertHistoricalLot
    "insert historical credit lot: " ⟨none, cycle.creditsUsedKWh - injected.availableKWh,
      creditExpiry cycle.readingEnd, true, now⟩
  obtain ⟨_, _, pooledNonneg, pooledTotal⟩ := insertCreditLot_ok injectedNonneg shortfall
  dsimp only at pooledTotal
  obtain ⟨consumed, consumption, rest⟩ := consumeCreditLots_runs pooledNonneg need (by omega)
  obtain ⟨after, unknown⟩ := insertCreditLot_runs consumed .insertUnknownLot
    "insert unknown credit lot: " ⟨none, cycle.creditBalanceKWh - consumed.availableKWh,
      creditExpiry cycle.readingEnd, true, now⟩
  have bound : (0 : ℤ) ≤ maxInt64 := by decide
  refine ⟨after, ?_⟩
  simp only [bookCredits, Tx.bind_ok]
  exact ⟨(), injected, injection, _, _, remainingCreditLots_run (by omega), (), pooled, shortfall,
    (), consumed, consumption, _, _, remainingCreditLots_run (by omega), (), consumed,
    Tx.require_ok.mpr ⟨by omega, rfl⟩, unknown⟩

end Acceptance

end Helio.Finance
