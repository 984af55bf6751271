import Mdh.Feed.BookCells
import Mdh.Feed.ReplayEngine

/-! A snapshot read back holds what was written, and a subscriber that loads one and applies once
more what it already contains ends up level with the feed. -/

namespace Mdh.Feed
open Mdh.Core Mdh.Core.ByteIo Mdh.Lib Mdh.Lib.KeyedStore

/-- The entries of one book. -/
def entriesOf (sequenceNumber : Nat) (books : BookManager) (id : InstrumentId) : List WireEvent :=
  match books.findBook id with
  | none => []
  | some book => (book.allOn .buy).map (snapshotEntry id .buy sequenceNumber) ++
      (book.allOn .sell).map (snapshotEntry id .sell sequenceNumber)

/-- The entries of a snapshot, in the order they are written. -/
def snapshotEntries (sequenceNumber : Nat) (books : BookManager) : List WireEvent :=
  books.instruments.flatMap (entriesOf sequenceNumber books)

section Written
variable {books : BookManager} {sequenceNumber : Nat}

theorem appendSide_eq (book : OrderBook) (id : InstrumentId) (side : Side) (sequenceNumber : Nat)
    (written : Nat × List UInt8) : appendSide book id side sequenceNumber written =
      (written.1 + ((book.allOn side).map (snapshotEntry id side sequenceNumber)).length,
        written.2 ++ ((book.allOn side).map (snapshotEntry id side sequenceNumber)).flatMap encodeEvent) := by
  unfold appendSide
  induction book.allOn side generalizing written with
  | nil => simp
  | cons order rest ih =>
    rw [List.foldl_cons, ih, List.map_cons, List.length_cons, List.flatMap_cons, List.append_assoc]
    simp only [Prod.mk.injEq, and_true]
    omega

theorem appendBook_eq (books : BookManager) (sequenceNumber : Nat) (written : Nat × List UInt8) (id : InstrumentId) :
    appendBook books sequenceNumber written id = (written.1 + (entriesOf sequenceNumber books id).length,
      written.2 ++ (entriesOf sequenceNumber books id).flatMap encodeEvent) := by
  unfold appendBook entriesOf
  cases books.findBook id with
  | none => simp
  | some book =>
    simp only [appendSide_eq, List.length_append, List.flatMap_append, List.append_assoc, Prod.mk.injEq, and_true]
    omega

theorem appendBooks_eq (books : BookManager) (sequenceNumber : Nat) (ids : List InstrumentId) (written : Nat × List UInt8) :
    ids.foldl (appendBook books sequenceNumber) written =
      (written.1 + (ids.flatMap (entriesOf sequenceNumber books)).length,
        written.2 ++ (ids.flatMap (entriesOf sequenceNumber books)).flatMap encodeEvent) := by
  induction ids generalizing written with
  | nil => simp
  | cons id rest ih =>
    rw [List.foldl_cons, ih, appendBook_eq, List.flatMap_cons, List.length_append, List.flatMap_append, List.append_assoc,
      Nat.add_assoc]

theorem writeSnapshot_eq (sequenceNumber : Nat) (books : BookManager) : writeSnapshot sequenceNumber books =
    putU32 SNAPSHOT_MAGIC ++ putU16 SNAPSHOT_VERSION ++ putU16 0 ++ putU64 sequenceNumber ++
      putU64 (snapshotEntries sequenceNumber books).length ++ (snapshotEntries sequenceNumber books).flatMap encodeEvent := by
  unfold writeSnapshot
  rw [appendBooks_eq]
  simp only [Nat.zero_add, List.nil_append, snapshotEntries]

end Written

section Read
variable {books : BookManager} {cells : InstrumentId → Nat → OrderCell}

/-- The encodings of orders, read back, are the orders added to the books one after the other. -/
theorem readEntries_encode (holds : books.Holds cells) (adds : List AddOrder)
    (fits : ∀ add ∈ adds, (WireEvent.addOrder add).Representable) (stats : ReplayStats)
    (clean : (applyAll (adds.map .addOrder) books stats).2.bookErrors = stats.bookErrors) :
    readEntries adds.length books ((adds.map .addOrder).flatMap encodeEvent) =
      some (applyAll (adds.map .addOrder) books stats).1 := by
  induction adds generalizing books cells stats with
  | nil => rfl
  | cons add rest ih =>
    have here := fits add List.mem_cons_self
    obtain ⟨after, counted, _⟩ := holds.apply (.addOrder add) stats
    have later := after.bookErrors_le (rest.map .addOrder) (applyEvent (.addOrder add) books stats).2
    rw [List.map_cons, applyAll_cons] at clean ⊢
    have accepted : (applyEvent (.addOrder add) books stats).2.bookErrors = stats.bookErrors := by omega
    have noError : (books.onBook add.instrumentId fun book =>
        book.addOrder add.orderId add.price add.quantity add.side).2 = none :=
      (record_bookErrors { stats with adds := stats.adds + 1 } _).2 accepted
    have length := encodeEvent_length (.addOrder add)
    have header : decodeHeader (putHeader .addOrder add.sequenceNumber add.timestamp (payloadSizeFor .addOrder)) =
        .ok (WireEvent.addOrder add).header := by
      have read := decodeHeader_encode here []
      rw [List.append_nil] at read
      exact read
    have whole := decodeEvent_encode here []
    rw [List.append_nil] at whole
    have front : (encodeEvent (.addOrder add)).take HEADER_SIZE =
        putHeader .addOrder add.sequenceNumber add.timestamp (payloadSizeFor .addOrder) := by
      rw [encodeEvent, List.take_left' (putHeader_length ..)]
    have long : ¬ (encodeEvent (.addOrder add) ++ (rest.map WireEvent.addOrder).flatMap encodeEvent).length < HEADER_SIZE := by
      rw [List.length_append, length]
      omega
    have enough : ¬ ((encodeEvent (.addOrder add) ++ (rest.map WireEvent.addOrder).flatMap encodeEvent).drop
        HEADER_SIZE).length < (WireEvent.addOrder add).header.payloadSize := by
      rw [List.length_drop, List.length_append, length]
      omega
    rw [List.flatMap_cons, List.length_cons, readEntries, if_neg long,
      List.take_append_of_le_length (by rw [length]; omega), front, header]
    dsimp only
    rw [if_neg (show ¬ (WireEvent.addOrder add).header.type ≠ .addOrder from fun different => different rfl),
      if_neg enough, List.take_left' length, List.drop_left' length, whole]
    dsimp only
    rw [noError, Option.isSome_none, if_neg Bool.false_ne_true]
    exact ih after (fun other among => fits other (List.mem_cons_of_mem _ among)) _ (clean.trans accepted.symm)

end Read

/-- The key of the order an entry adds. -/
def AddOrder.key (add : AddOrder) : InstrumentId × Nat := (add.instrumentId, add.orderId)

/-- A cell is one a well-formed feed can leave: representable, with a price and a quantity. -/
def Wellformed (id : InstrumentId) (orderId : Nat) (cell : OrderCell) : Prop :=
  ∀ side price quantity, cell = some (side, (price, quantity)) → id < 2 ^ 32 ∧ orderId < 2 ^ 64 ∧ Rounding.InRange price ∧
    quantity < 2 ^ 64 ∧ 0 < price ∧ quantity ≠ 0

section Loaded
variable {books : BookManager} {cells : InstrumentId → Nat → OrderCell}

theorem effectOn_wellformed {id : InstrumentId} {orderId : Nat} {event : WireEvent} {cell : OrderCell}
    (fits : event.Representable) (wellformed : Wellformed id orderId cell) :
    Wellformed id orderId ((effectOn id orderId event).apply cell) := by
  intro side price quantity left
  cases event with
  | addOrder message =>
    rw [effectOn] at left
    split_ifs at left with here
    · obtain ⟨rfl, rfl, positive, some⟩ := here
      obtain ⟨_, _, order, instrument, inRange, quantityFits⟩ := fits
      cases cell with
      | none =>
        cases left
        exact ⟨instrument, order, inRange, quantityFits, positive, some⟩
      | some held => exact wellformed side price quantity left
    · exact wellformed side price quantity left
  | cancelOrder message =>
    rw [effectOn] at left
    split_ifs at left
    · cases left
    · exact wellformed side price quantity left
  | modifyOrder message =>
    rw [effectOn] at left
    split_ifs at left with here
    · obtain ⟨rfl, rfl, positive, some⟩ := here
      obtain ⟨_, _, order, instrument, inRange, quantityFits⟩ := fits
      cases cell with
      | none => cases left
      | some held =>
        cases left
        exact ⟨instrument, order, inRange, quantityFits, positive, some⟩
    · exact wellformed side price quantity left
  | trade message => exact wellformed side price quantity left
  | clearBook message =>
    rw [effectOn] at left
    split_ifs at left
    · cases left
    · exact wellformed side price quantity left

theorem effectsOn_wellformed {id : InstrumentId} {orderId : Nat} {events : List WireEvent} {cell : OrderCell}
    (fits : ∀ event ∈ events, event.Representable) (wellformed : Wellformed id orderId cell) :
    Wellformed id orderId (CellEffect.applyAll (effectsOn id orderId events) cell) := by
  induction events generalizing cell with
  | nil => exact wellformed
  | cons event rest ih =>
    exact ih (fun other among => fits other (List.mem_cons_of_mem _ among))
      (effectOn_wellformed (fits event List.mem_cons_self) wellformed)

/-- A cell that is filled was filled by some order of the feed. -/
theorem effectsOn_filled {id : InstrumentId} {orderId : Nat} {events : List WireEvent} {cell : OrderCell}
    (full : CellEffect.applyAll (effectsOn id orderId events) cell ≠ none) :
    cell ≠ none ∨ ∃ add, .addOrder add ∈ events ∧ add.key = (id, orderId) := by
  induction events generalizing cell with
  | nil => exact Or.inl full
  | cons event rest ih =>
    rcases ih full with held | ⟨add, among, same⟩
    · cases cell with
      | some value => exact Or.inl nofun
      | none =>
        right
        cases event with
        | addOrder message =>
          rw [effectOn] at held
          split_ifs at held with here
          · exact ⟨message, List.mem_cons_self, Prod.ext here.1 here.2.1⟩
          · exact absurd rfl held
        | cancelOrder message =>
          rw [effectOn] at held
          split_ifs at held <;> exact absurd rfl held
        | modifyOrder message =>
          rw [effectOn] at held
          split_ifs at held <;> exact absurd rfl held
        | trade message => exact absurd rfl held
        | clearBook message =>
          rw [effectOn] at held
          split_ifs at held <;> exact absurd rfl held
    · exact Or.inr ⟨add, List.mem_cons_of_mem _ among, same⟩

/-- Orders of different keys, each with a price and a quantity, are added without an error to
books that hold none of them. -/
theorem adds_clean (holds : books.Holds cells) (adds : List AddOrder)
    (valid : ∀ add ∈ adds, 0 < add.price ∧ add.quantity ≠ 0) (distinct : (adds.map AddOrder.key).Nodup)
    (fresh : ∀ add ∈ adds, cells add.instrumentId add.orderId = none) (stats : ReplayStats) :
    (applyAll (adds.map .addOrder) books stats).2.bookErrors = stats.bookErrors := by
  induction adds generalizing books cells stats with
  | nil => rfl
  | cons add rest ih =>
    obtain ⟨different, others⟩ := List.nodup_cons.mp distinct
    obtain ⟨positive, some⟩ := valid add List.mem_cons_self
    have noError := ((holds add.instrumentId).addOrder add.orderId add.price add.quantity add.side).2.mpr
      ⟨positive, some, fresh add List.mem_cons_self⟩
    have here : (applyEvent (.addOrder add) books stats).2.bookErrors = stats.bookErrors := by
      show (ReplayStats.record _ ((books.bookFor add.instrumentId).addOrder add.orderId add.price add.quantity
        add.side).2).bookErrors = _
      rw [noError]
      rfl
    rw [List.map_cons, applyAll_cons]
    refine (ih (holds.apply (.addOrder add) stats).1 (fun other among => valid other (List.mem_cons_of_mem _ among))
      others (fun other among => ?_) _).trans here
    have apart : ¬ (add.instrumentId = other.instrumentId ∧ add.orderId = other.orderId ∧ 0 < add.price ∧
        add.quantity ≠ 0) := fun both =>
      different (List.mem_map.mpr ⟨other, among, Prod.ext both.1.symm both.2.1.symm⟩)
    rw [effectOn, if_neg apart]
    exact fresh other (List.mem_cons_of_mem _ among)

/-- Orders that agree with a cell fill it with what it holds, if one of them is that order. -/
theorem effectsOn_adds (id : InstrumentId) (orderId : Nat) (adds : List AddOrder)
    (agree : ∀ add ∈ adds, 0 < add.price ∧ add.quantity ≠ 0 ∧
      cells add.instrumentId add.orderId = some (add.side, (add.price, add.quantity)))
    (complete : cells id orderId ≠ none → ∃ add ∈ adds, add.key = (id, orderId)) :
    CellEffect.applyAll (effectsOn id orderId (adds.map .addOrder)) none = cells id orderId := by
  have settled : ∀ (adds : List AddOrder), (∀ add ∈ adds, 0 < add.price ∧ add.quantity ≠ 0 ∧
      cells add.instrumentId add.orderId = some (add.side, (add.price, add.quantity))) →
      CellEffect.applyAll (effectsOn id orderId (adds.map .addOrder)) (cells id orderId) = cells id orderId := by
    intro adds agree
    induction adds with
    | nil => rfl
    | cons add rest ih =>
      obtain ⟨positive, some, held⟩ := agree add List.mem_cons_self
      have same : (effectOn id orderId (.addOrder add)).apply (cells id orderId) = cells id orderId := by
        rw [effectOn]
        split_ifs with here
        · rw [← here.1, ← here.2.1, held]
          rfl
        · rfl
      exact (congrArg _ same).trans (ih fun other among => agree other (List.mem_cons_of_mem _ among))
  induction adds with
  | nil =>
    by_contra different
    obtain ⟨add, among, _⟩ := complete fun vacant => different vacant.symm
    cases among
  | cons add rest ih =>
    obtain ⟨positive, some, held⟩ := agree add List.mem_cons_self
    have others : ∀ other ∈ rest, 0 < other.price ∧ other.quantity ≠ 0 ∧
        cells other.instrumentId other.orderId = Option.some (other.side, (other.price, other.quantity)) :=
      fun other among => agree other (List.mem_cons_of_mem _ among)
    show CellEffect.applyAll (effectsOn id orderId (rest.map .addOrder)) ((effectOn id orderId (.addOrder add)).apply none) = _
    rw [effectOn]
    split_ifs with here
    · have filled : (CellEffect.fill add.side (add.price, add.quantity)).apply none = cells id orderId := by
        rw [← here.1, ← here.2.1, held]
        rfl
      rw [filled]
      exact settled rest others
    · refine ih others fun full => ?_
      obtain ⟨other, among, same⟩ := complete full
      rcases List.mem_cons.mp among with rfl | later
      · exact absurd ⟨congrArg Prod.fst same, congrArg Prod.snd same, positive, some⟩ here
      · exact ⟨other, later, same⟩

end Loaded

/-- The order an entry adds. -/
def entryOrder (sequenceNumber : Nat) (id : InstrumentId) (side : Side) (order : OrderView) : AddOrder where
  sequenceNumber
  timestamp := 0
  orderId := order.orderId
  instrumentId := id
  price := order.price
  quantity := order.quantity
  side

def ordersOf (sequenceNumber : Nat) (books : BookManager) (id : InstrumentId) : List AddOrder :=
  (((books.bookFor id).allOn .buy).map (entryOrder sequenceNumber id .buy)) ++
    (((books.bookFor id).allOn .sell).map (entryOrder sequenceNumber id .sell))

def snapshotOrders (sequenceNumber : Nat) (books : BookManager) : List AddOrder :=
  books.instruments.flatMap (ordersOf sequenceNumber books)

section Snapshots
variable {books : BookManager} {cells : InstrumentId → Nat → OrderCell} {sequenceNumber : Nat}

theorem snapshotEntries_eq (sequenceNumber : Nat) (books : BookManager) :
    snapshotEntries sequenceNumber books = (snapshotOrders sequenceNumber books).map .addOrder := by
  unfold snapshotEntries snapshotOrders
  rw [List.map_flatMap]
  congr 1
  funext id
  unfold entriesOf ordersOf BookManager.bookFor BookManager.findBook KeyedStore.valueAt
  cases books.books.lookup id with
  | none => rfl
  | some book =>
    rw [List.map_append, List.map_map, List.map_map]
    rfl

theorem mem_ordersOf (holds : books.Holds cells) {id : InstrumentId} {add : AddOrder} :
    add ∈ ordersOf sequenceNumber books id ↔ add.sequenceNumber = sequenceNumber ∧ add.timestamp = 0 ∧
      add.instrumentId = id ∧ cells id add.orderId = some (add.side, (add.price, add.quantity)) := by
  unfold ordersOf
  rw [List.mem_append, List.mem_map, List.mem_map]
  constructor
  · rintro (⟨view, shown, rfl⟩ | ⟨view, shown, rfl⟩)
    · exact ⟨rfl, rfl, rfl, ((holds id).mem_allOn .buy view).mp shown⟩
    · exact ⟨rfl, rfl, rfl, ((holds id).mem_allOn .sell view).mp shown⟩
  · obtain ⟨number, timestamp, orderId, instrumentId, price, quantity, side⟩ := add
    rintro ⟨rfl, rfl, rfl, held⟩
    cases side with
    | buy => exact Or.inl ⟨⟨orderId, price, quantity⟩, ((holds instrumentId).mem_allOn .buy _).mpr held, rfl⟩
    | sell => exact Or.inr ⟨⟨orderId, price, quantity⟩, ((holds instrumentId).mem_allOn .sell _).mpr held, rfl⟩

/-- An instrument with an order has a book. -/
theorem mem_instruments (holds : books.Holds cells) {id : InstrumentId} {orderId : Nat} (full : cells id orderId ≠ none) :
    id ∈ books.instruments := by
  have known : id ∈ books.books.keys := by
    by_contra absent
    have vacant : books.bookFor id = {} := by
      unfold BookManager.bookFor KeyedStore.valueAt
      rw [AList.lookup_eq_none.mpr absent]
      rfl
    have index := (holds id).mem_index orderId
    rw [vacant] at index
    exact absurd (index.mpr full) (AList.notMem_empty _)
  unfold BookManager.instruments
  rw [(List.perm_insertionSort (· ≤ ·) _).mem_iff, List.mem_dedup, List.mem_append]
  exact Or.inl known

/-- The orders of a snapshot are those the cells hold. -/
theorem mem_snapshotOrders (holds : books.Holds cells) {add : AddOrder} :
    add ∈ snapshotOrders sequenceNumber books ↔ add.sequenceNumber = sequenceNumber ∧ add.timestamp = 0 ∧
      cells add.instrumentId add.orderId = some (add.side, (add.price, add.quantity)) := by
  unfold snapshotOrders
  rw [List.mem_flatMap]
  constructor
  · rintro ⟨id, _, among⟩
    obtain ⟨number, stamp, rfl, held⟩ := (mem_ordersOf holds).mp among
    exact ⟨number, stamp, held⟩
  · rintro ⟨number, stamp, held⟩
    exact ⟨add.instrumentId, mem_instruments holds (by rw [held]; nofun), (mem_ordersOf holds).mpr ⟨number, stamp, rfl, held⟩⟩

theorem snapshotOrders_nodup (holds : books.Holds cells) (sequenceNumber : Nat) :
    ((snapshotOrders sequenceNumber books).map AddOrder.key).Nodup := by
  unfold snapshotOrders
  rw [List.map_flatMap, List.nodup_flatMap]
  constructor
  · intro id _
    unfold ordersOf
    rw [List.map_append, List.map_map, List.map_map, List.nodup_append']
    have side (side : Side) : (((books.bookFor id).allOn side).map (AddOrder.key ∘ entryOrder sequenceNumber id side)).Nodup := by
      have ids := (holds id).allOn_nodup side
      have pairs := ids.map (f := fun orderId => (id, orderId)) fun _ _ same => (Prod.mk.inj same).2
      rwa [List.map_map] at pairs
    refine ⟨side .buy, side .sell, ?_⟩
    rw [List.disjoint_left]
    intro key bid ask
    obtain ⟨view, shown, rfl⟩ := List.mem_map.mp bid
    obtain ⟨other, alsoShown, same⟩ := List.mem_map.mp ask
    have one := ((holds id).mem_allOn .buy view).mp shown
    have two := ((holds id).mem_allOn .sell other).mp alsoShown
    have sameId : other.orderId = view.orderId := congrArg Prod.snd same
    rw [sameId, one] at two
    cases two
  · have distinct : books.instruments.Nodup := by
      unfold BookManager.instruments
      exact (List.perm_insertionSort (· ≤ ·) _).nodup_iff.mpr (List.nodup_dedup _)
    refine distinct.imp fun {first second} different => ?_
    show List.Disjoint _ _
    rw [List.disjoint_left]
    intro key here there
    obtain ⟨add, among, rfl⟩ := List.mem_map.mp here
    obtain ⟨other, inside, same⟩ := List.mem_map.mp there
    have one := ((mem_ordersOf holds).mp among).2.2.1
    have two := ((mem_ordersOf holds).mp inside).2.2.1
    exact different (one.symm.trans ((congrArg Prod.fst same).symm.trans two))

/-- The orders of a snapshot agree with the cells, and are written as they are. -/
theorem snapshotOrders_agree (holds : books.Holds cells) (wellformed : ∀ id orderId, Wellformed id orderId (cells id orderId))
    (numberFits : sequenceNumber < 2 ^ 64) : ∀ add ∈ snapshotOrders sequenceNumber books,
      (0 < add.price ∧ add.quantity ≠ 0 ∧
        cells add.instrumentId add.orderId = some (add.side, (add.price, add.quantity))) ∧
      (WireEvent.addOrder add).Representable := by
  intro add among
  obtain ⟨number, stamp, held⟩ := (mem_snapshotOrders holds).mp among
  obtain ⟨instrument, order, inRange, quantityFits, positive, some⟩ := wellformed _ _ _ _ _ held
  exact ⟨⟨positive, some, held⟩, number ▸ numberFits, by rw [stamp]; decide, order, instrument, inRange, quantityFits⟩

/-- A snapshot read back is its orders added to no books. -/
theorem readSnapshot_written (holds : books.Holds cells)
    (wellformed : ∀ id orderId, Wellformed id orderId (cells id orderId)) (numberFits : sequenceNumber < 2 ^ 64)
    (countFits : (snapshotOrders sequenceNumber books).length < 2 ^ 64) :
    readSnapshot (writeSnapshot sequenceNumber books) = some {
      sequenceNumber, books := (applyAll ((snapshotOrders sequenceNumber books).map .addOrder) {} {}).1 } := by
  have agree := snapshotOrders_agree holds wellformed numberFits
  have clean := adds_clean start_holds (snapshotOrders sequenceNumber books) (fun add among => ⟨(agree add among).1.1,
    (agree add among).1.2.1⟩) (snapshotOrders_nodup holds sequenceNumber) (fun _ _ => rfl) {}
  have header : readSnapshotHeader (putU32 SNAPSHOT_MAGIC ++ putU16 SNAPSHOT_VERSION ++ putU16 0 ++ putU64 sequenceNumber ++
      putU64 (snapshotOrders sequenceNumber books).length) =
        some ((SNAPSHOT_MAGIC, SNAPSHOT_VERSION, 0, sequenceNumber, (snapshotOrders sequenceNumber books).length), []) := by
    rw [← List.append_nil (_ ++ putU64 (snapshotOrders sequenceNumber books).length)]
    simp only [List.append_assoc]
    rw [readSnapshotHeader, bind_of_read (getU32_put _ (by decide)), bind_of_read (getU16_put _ (by decide)),
      bind_of_read (getU16_put _ (by decide)), bind_of_read (getU64_put _ numberFits), bind_of_read (getU64_put _ countFits)]
    rfl
  have length : (putU32 SNAPSHOT_MAGIC ++ putU16 SNAPSHOT_VERSION ++ putU16 0 ++ putU64 sequenceNumber ++
      putU64 (snapshotOrders sequenceNumber books).length).length = SNAPSHOT_HEADER_SIZE := by
    simp only [putU32, putU16, putU64, List.length_append, BigEndian.put_length]
    rfl
  have entries := readEntries_encode start_holds (snapshotOrders sequenceNumber books) (fun add among => (agree add among).2)
    {} clean
  rw [writeSnapshot_eq, snapshotEntries_eq, List.length_map, readSnapshot,
    if_neg (by rw [List.length_append, length]; omega), List.take_left' length, List.drop_left' length, header]
  dsimp only
  rw [if_neg (by simp), entries]
  rfl

/-- A snapshot read back holds what was written. -/
theorem readSnapshot_write (holds : books.Holds cells) (wellformed : ∀ id orderId, Wellformed id orderId (cells id orderId))
    (numberFits : sequenceNumber < 2 ^ 64) (countFits : (snapshotOrders sequenceNumber books).length < 2 ^ 64) :
    ∃ loaded, readSnapshot (writeSnapshot sequenceNumber books) = some { sequenceNumber, books := loaded } ∧
      loaded.Holds cells := by
  have agree := snapshotOrders_agree holds wellformed numberFits
  refine ⟨_, readSnapshot_written holds wellformed numberFits countFits, fun id => ?_⟩
  have held := BookManager.Holds.applyAll start_holds ((snapshotOrders sequenceNumber books).map .addOrder) {}
  have same : (fun orderId => CellEffect.applyAll (effectsOn id orderId
      ((snapshotOrders sequenceNumber books).map .addOrder)) none) = cells id := by
    funext orderId
    refine effectsOn_adds id orderId _ (fun add among => (agree add among).1) fun full => ?_
    obtain ⟨⟨side, price, quantity⟩, here⟩ := Option.ne_none_iff_exists'.mp full
    exact ⟨entryOrder sequenceNumber id side ⟨orderId, price, quantity⟩,
      (mem_snapshotOrders holds).mpr ⟨rfl, rfl, here⟩, rfl⟩
  exact same ▸ held id

end Snapshots

end Mdh.Feed
