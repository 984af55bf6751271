import Mathlib.Data.List.Perm.Basic
import Mdh.Feed.BookCells
import Mdh.Feed.RecordedFile
import Mdh.Feed.SubscriberRun
import Mdh.Feed.UdpReplay

/-! The generator of recorded feeds: random orders on a few instruments, which it adds, cancels,
modifies and clears. What it writes is a feed no replay finds fault with. -/

namespace Mdh.Feed
open Mdh.Core Mdh.Lib EventFileReader

structure OpenOrder where
  instrumentId : InstrumentId
  orderId : Nat
  deriving DecidableEq, Repr

/-- The random numbers of one round. A distribution takes the one named after it into its range. -/
structure Draw where
  timestampStep : Nat
  eventKind : Nat
  instrument : Nat
  side : Nat
  priceJitter : Nat
  quantity : Nat
  index : Nat
  deriving DecidableEq, Repr

namespace Draw

def timestampStepDist (draw : Draw) : Nat := 1 + draw.timestampStep % 1000
def eventKindDist (draw : Draw) : Nat := draw.eventKind % 100
def instrumentDist (draw : Draw) (instruments : Nat) : InstrumentId := 1 + draw.instrument % instruments
def sideDist (draw : Draw) : Side := if draw.side % 2 = 0 then .buy else .sell
def priceJitterDist (draw : Draw) : Int := (draw.priceJitter % 101 : Nat) - 50
def quantityDist (draw : Draw) : Nat := 1 + draw.quantity % 100
def indexDist (draw : Draw) (count : Nat) : Nat := draw.index % count

end Draw

inductive EventKind where
  | add
  | cancel
  | modify
  | trade
  | clear
  deriving DecidableEq, Repr

/-- `written` is the file, event by event. -/
structure FeedGenerator where
  midPrice : List Int
  openOrders : List OpenOrder := []
  nextSeq : Nat := 1
  nextOrderId : Nat := 1
  timestamp : Nat := 1000000000
  addsEmitted : Nat := 0
  written : List WireEvent := []

namespace FeedGenerator

/-- The vector of prices has its size counted in 32 bits, and every instrument must have its place in it. -/
def start (instruments : Nat) : Option FeedGenerator :=
  if instruments < (instruments + 1) % 2 ^ 32 then
    some { midPrice := 0 :: (List.range' 1 instruments).map fun id : Nat => 100000 + (id : Int) * 1000 }
  else none

def pickKind (generator : FeedGenerator) (roll : Nat) : EventKind :=
  if generator.openOrders.isEmpty then .add
  else if roll < 70 then .add
  else if roll < 85 then .cancel
  else if roll < 95 then .modify
  else if roll < 99 then .trade
  else .clear

/-- A price below the least one is raised to it. -/
def atLeast (price : Int) : Int := if price < 100 then 100 else price

section Round
variable (generator : FeedGenerator) (draw : Draw) (instruments seq : Nat) (mid : Int)

def write (event : WireEvent) : FeedGenerator := { generator with written := generator.written ++ [event] }

def emitAdd : FeedGenerator :=
  let instrument := draw.instrumentDist instruments
  let price := atLeast (mid + draw.priceJitterDist)
  { generator.write (.addOrder {
      sequenceNumber := seq, timestamp := generator.timestamp, orderId := generator.nextOrderId
      instrumentId := instrument, price, quantity := draw.quantityDist, side := draw.sideDist }) with
    midPrice := generator.midPrice.set instrument price
    nextOrderId := generator.nextOrderId + 1
    openOrders := generator.openOrders ++ [{ instrumentId := instrument, orderId := generator.nextOrderId }]
    addsEmitted := generator.addsEmitted + 1 }

/-- The last order takes the place of the one that goes. -/
def emitCancel (chosen last : OpenOrder) (idx : Nat) : FeedGenerator :=
  { generator.write (.cancelOrder {
      sequenceNumber := seq, timestamp := generator.timestamp, orderId := chosen.orderId
      instrumentId := chosen.instrumentId }) with
    openOrders := (generator.openOrders.set idx last).dropLast }

def emitModify (chosen : OpenOrder) : FeedGenerator :=
  generator.write (.modifyOrder {
    sequenceNumber := seq, timestamp := generator.timestamp, orderId := chosen.orderId
    instrumentId := chosen.instrumentId
    newPrice := atLeast (mid + draw.priceJitterDist)
    newQuantity := draw.quantityDist })

def emitTrade : FeedGenerator :=
  let instrument := draw.instrumentDist instruments
  generator.write (.trade {
    sequenceNumber := seq, timestamp := generator.timestamp, instrumentId := instrument
    price := mid, quantity := draw.quantityDist, aggressorSide := draw.sideDist })

def emitClear : FeedGenerator :=
  let instrument := draw.instrumentDist instruments
  { generator.write (.clearBook {
      sequenceNumber := seq, timestamp := generator.timestamp, instrumentId := instrument }) with
    openOrders := generator.openOrders.filter fun order => order.instrumentId ≠ instrument }

/-- One round of the loop, which fails if it looks up a price outside the vector. With no order open the
kind is to add one, so an order to choose is there. -/
def round : Option FeedGenerator :=
  let seq := generator.nextSeq
  let kind := generator.pickKind draw.eventKindDist
  let generator := { generator with
    timestamp := generator.timestamp + draw.timestampStepDist
    nextSeq := seq + 1 }
  let idx := draw.indexDist generator.openOrders.length
  let price := generator.midPrice[draw.instrumentDist instruments]?
  match kind, generator.openOrders[idx]?, generator.openOrders.getLast? with
  | .cancel, some chosen, some last => some (generator.emitCancel seq chosen last idx)
  | .modify, some chosen, _ =>
      generator.midPrice[chosen.instrumentId]?.map fun mid => generator.emitModify draw seq mid chosen
  | .trade, _, _ => price.map fun mid => generator.emitTrade draw instruments seq mid
  | .clear, _, _ => some (generator.emitClear draw instruments seq)
  | _, _, _ => price.map fun mid => generator.emitAdd draw instruments seq mid

end Round

/-- The loop, for as many rounds as there are random numbers. -/
def generate (instruments orders : Nat) : FeedGenerator → List Draw → Option FeedGenerator
  | generator, [] => some generator
  | generator, draw :: draws =>
      if generator.addsEmitted < orders then
        (generator.round draw instruments).bind fun next => generate instruments orders next draws
      else some generator

/-- The program: `draws` are the random numbers of its seed. -/
def generated (instruments orders : Nat) (draws : List Draw) : Option FeedGenerator :=
  (start instruments).bind fun generator => generate instruments orders generator draws

def file (generator : FeedGenerator) : List UInt8 := generator.written.flatMap encodeEvent

end FeedGenerator

/-- The event finds the cell it is about as it needs it. -/
def WireEvent.Suits (cells : InstrumentId → Nat → OrderCell) : WireEvent → Prop
  | .addOrder message => 0 < message.price ∧ message.quantity ≠ 0 ∧ cells message.instrumentId message.orderId = none
  | .cancelOrder message => cells message.instrumentId message.orderId ≠ none
  | .modifyOrder message =>
      0 < message.newPrice ∧ message.newQuantity ≠ 0 ∧ cells message.instrumentId message.orderId ≠ none
  | .trade _ => True
  | .clearBook _ => True

/-- How many orders an event adds. -/
def WireEvent.addCount : WireEvent → Nat
  | .addOrder _ => 1
  | .cancelOrder _ | .modifyOrder _ | .trade _ | .clearBook _ => 0

section Suiting
variable {books : BookManager} {cells : InstrumentId → Nat → OrderCell} {event : WireEvent}

theorem OrderBook.Holds.known {book : OrderBook} {orders : Nat → OrderCell} (holds : book.Holds orders) {id : Nat}
    (full : orders id ≠ none) : ∃ location, book.orderIndex.lookup id = some location :=
  Option.isSome_iff_exists.mp (AList.lookup_isSome.mpr ((holds.mem_index id).mpr full))

/-- An event that suits the books is no error. -/
theorem applyEvent_noError (holds : books.Holds cells) (suits : event.Suits cells) (stats : ReplayStats) :
    (applyEvent event books stats).2.bookErrors = stats.bookErrors := by
  cases event with
  | addOrder message =>
    have accepted := ((holds message.instrumentId).addOrder message.orderId message.price message.quantity
      message.side).2.mpr suits
    show (ReplayStats.record _ (OrderBook.addOrder ..).2).bookErrors = _
    rw [accepted]
    rfl
  | cancelOrder message =>
    obtain ⟨location, found⟩ := (holds message.instrumentId).known suits
    show (ReplayStats.record _ (OrderBook.cancelOrder ..).2).bookErrors = _
    unfold OrderBook.cancelOrder
    rw [found]
    rfl
  | modifyOrder message =>
    obtain ⟨price, quantity, full⟩ := suits
    obtain ⟨location, found⟩ := (holds message.instrumentId).known full
    show (ReplayStats.record _ (OrderBook.modifyOrder ..).2).bookErrors = _
    unfold OrderBook.modifyOrder
    rw [if_neg (not_le.mpr price), if_neg quantity, found]
    rfl
  | trade message => rfl
  | clearBook message => rfl

theorem addOrder_full {message : AddOrder} (price : 0 < message.price) (quantity : message.quantity ≠ 0)
    (vacant : cells message.instrumentId message.orderId = none) (id : InstrumentId) (orderId : Nat) :
    (effectOn id orderId (.addOrder message)).apply (cells id orderId) ≠ none ↔
      cells id orderId ≠ none ∨ message.instrumentId = id ∧ message.orderId = orderId := by
  rw [effectOn]
  split_ifs with here
  · obtain ⟨rfl, rfl, _⟩ := here
    rw [vacant]
    exact iff_of_true (Option.some_ne_none _) (Or.inr ⟨rfl, rfl⟩)
  · exact (or_iff_left fun same => here ⟨same.1, same.2, price, quantity⟩).symm

theorem cancelOrder_full (message : CancelOrder) (id : InstrumentId) (orderId : Nat) :
    (effectOn id orderId (.cancelOrder message)).apply (cells id orderId) ≠ none ↔
      cells id orderId ≠ none ∧ ¬ (message.instrumentId = id ∧ message.orderId = orderId) := by
  rw [effectOn]
  split_ifs with here
  · exact iff_of_false (fun full => full rfl) fun both => both.2 here
  · exact (and_iff_left here).symm

theorem modifyOrder_full {message : ModifyOrder} (full : cells message.instrumentId message.orderId ≠ none)
    (id : InstrumentId) (orderId : Nat) : (effectOn id orderId (.modifyOrder message)).apply (cells id orderId) ≠ none ↔
      cells id orderId ≠ none := by
  rw [effectOn]
  split_ifs with here
  · obtain ⟨rfl, rfl, _⟩ := here
    obtain ⟨value, held⟩ := Option.ne_none_iff_exists'.mp full
    rw [held]
    exact iff_of_true (Option.some_ne_none _) (Option.some_ne_none _)
  · rfl

theorem clearBook_full (message : ClearBook) (id : InstrumentId) (orderId : Nat) :
    (effectOn id orderId (.clearBook message)).apply (cells id orderId) ≠ none ↔
      cells id orderId ≠ none ∧ message.instrumentId ≠ id := by
  rw [effectOn]
  split_ifs with here
  · exact iff_of_false (fun full => full rfl) fun both => both.2 here
  · exact (and_iff_left here).symm

theorem record_adds (stats : ReplayStats) (error : Option BookError) : (stats.record error).adds = stats.adds := by
  cases error <;> rfl

theorem applyEvent_adds (event : WireEvent) (books : BookManager) (stats : ReplayStats) :
    (applyEvent event books stats).2.adds = stats.adds + event.addCount := by
  cases event with
  | addOrder message => exact record_adds ..
  | cancelOrder message => exact record_adds ..
  | modifyOrder message => exact record_adds ..
  | trade message => rfl
  | clearBook message => rfl

end Suiting

namespace FeedGenerator

section OneEvent
variable {generator next : FeedGenerator} {event : WireEvent}

/-- The orders that have a full cell are the open ones. -/
def Stand (generator : FeedGenerator) (cells : InstrumentId → Nat → OrderCell) : Prop :=
  ∀ id orderId, cells id orderId ≠ none ↔ { instrumentId := id, orderId : OpenOrder } ∈ generator.openOrders

/-- What has been written is numbered from 1 and applies without an error, and leaves the open orders standing. -/
structure Faultless (generator : FeedGenerator) : Prop where
  numbers : generator.written.map WireEvent.sequenceNumber = List.range' 1 generator.written.length
  nextSeq : generator.nextSeq = generator.written.length + 1
  clean : (applyAll generator.written {} {}).2.bookErrors = 0
  adds : (applyAll generator.written {} {}).2.adds = generator.addsEmitted
  stand : ∃ cells, (applyAll generator.written {} {}).1.Holds cells ∧ generator.Stand cells
  distinct : generator.openOrders.Nodup
  fresh : ∀ order ∈ generator.openOrders, order.orderId < generator.nextOrderId

/-- An event that suits the books keeps all that, if the open orders change as its effects do. -/
theorem Faultless.writes (faultless : generator.Faultless) (written : next.written = generator.written ++ [event])
    (number : event.sequenceNumber = generator.nextSeq) (nextSeq : next.nextSeq = generator.nextSeq + 1)
    (adds : next.addsEmitted = generator.addsEmitted + event.addCount)
    (suits : ∀ cells, generator.Stand cells → event.Suits cells ∧
      next.Stand fun id orderId => (effectOn id orderId event).apply (cells id orderId))
    (distinct : next.openOrders.Nodup) (fresh : ∀ order ∈ next.openOrders, order.orderId < next.nextOrderId) :
    next.Faultless := by
  obtain ⟨cells, holds, stand⟩ := faultless.stand
  obtain ⟨suited, stands⟩ := suits cells stand
  have length : next.written.length = generator.written.length + 1 := by
    rw [written, List.length_append]
    rfl
  refine ⟨?_, ?_, ?_, ?_, ⟨_, ?_, stands⟩, distinct, fresh⟩
  · rw [length, written, List.map_append, faultless.numbers, List.map_singleton, number, faultless.nextSeq,
      List.range'_concat, Nat.one_mul, Nat.add_comm 1]
  · rw [nextSeq, length, faultless.nextSeq]
  · rw [written, applyAll_concat, applyEvent_noError holds suited, faultless.clean]
  · rw [written, applyAll_concat, applyEvent_adds, faultless.adds, adds]
  · rw [written, applyAll_concat]
    exact (holds.apply event _).1

end OneEvent

section Rounds
variable {generator next : FeedGenerator} {draw : Draw} {instruments : Nat}

theorem atLeast_pos (price : Int) : 0 < atLeast price := by
  unfold atLeast
  split_ifs <;> omega

theorem quantityDist_ne_zero (draw : Draw) : draw.quantityDist ≠ 0 := by
  unfold Draw.quantityDist
  omega

/-- The chosen order, and the orders that stay. -/
theorem removed_perm {orders : List OpenOrder} {chosen last : OpenOrder} {idx : Nat} (there : orders[idx]? = some chosen)
    (final : orders.getLast? = some last) : orders.Perm (chosen :: (orders.set idx last).dropLast) := by
  obtain ⟨inside, here⟩ := List.getElem?_eq_some_iff.mp there
  obtain ⟨front, rfl⟩ := List.getLast?_eq_some_iff.mp final
  by_cases end_ : idx < front.length
  · rw [List.getElem_append_left end_] at here
    rw [List.set_append_left _ _ end_, List.dropLast_concat]
    calc front ++ [last]
      _ |>.Perm (last :: front) := List.perm_append_singleton ..
      _ |>.Perm (last :: chosen :: front.eraseIdx idx) :=
        (here ▸ (List.getElem_cons_eraseIdx_perm end_).symm).cons last
      _ |>.Perm (chosen :: last :: front.eraseIdx idx) := List.Perm.swap ..
      _ |>.Perm (chosen :: front.set idx last) := (List.set_perm_cons_eraseIdx end_ last).symm.cons chosen
  · have whole : (front ++ [last]).length = front.length + 1 := List.length_append
    have at_ : idx = front.length := by omega
    subst at_
    have same : last = chosen := by
      rw [List.getElem_concat_length rfl] at here
      exact here
    rw [List.set_append_right _ _ (Nat.le_refl _), Nat.sub_self, List.set_cons_zero, List.dropLast_concat, same]
    exact List.perm_append_singleton ..

/-- Time has passed and the number is taken. -/
def ticked (generator : FeedGenerator) (timestamp : Nat) : FeedGenerator :=
  { generator with timestamp, nextSeq := generator.nextSeq + 1 }

theorem Faultless.emitAdd (faultless : generator.Faultless) (timestamp : Nat) (mid : Int) :
    ((generator.ticked timestamp).emitAdd draw instruments generator.nextSeq mid).Faultless := by
  have apart : { instrumentId := draw.instrumentDist instruments, orderId := generator.nextOrderId : OpenOrder } ∉
      generator.openOrders := fun among => Nat.lt_irrefl _ (faultless.fresh _ among)
  apply faultless.writes rfl rfl rfl rfl
  · intro cells stand
    have vacant : cells (draw.instrumentDist instruments) generator.nextOrderId = none :=
      not_not.mp fun full => apart ((stand _ _).mp full)
    refine ⟨⟨atLeast_pos _, quantityDist_ne_zero draw, vacant⟩, fun id orderId => ?_⟩
    refine (addOrder_full (atLeast_pos _) (quantityDist_ne_zero draw) vacant id orderId).trans ?_
    show _ ↔ _ ∈ generator.openOrders ++ _
    rw [List.mem_append, List.mem_singleton, stand, OpenOrder.mk.injEq, eq_comm, @eq_comm _ _ orderId]
  · exact (List.nodup_append_comm.mp (List.nodup_cons.mpr ⟨apart, faultless.distinct⟩))
  · intro order member
    rcases List.mem_append.mp member with before | last
    · exact Nat.lt_succ_of_lt (faultless.fresh order before)
    · rw [List.mem_singleton.mp last]
      exact Nat.lt_succ_self _

theorem Faultless.emitCancel (faultless : generator.Faultless) (timestamp : Nat) {chosen last : OpenOrder} {idx : Nat}
    (there : generator.openOrders[idx]? = some chosen) (final : generator.openOrders.getLast? = some last) :
    ((generator.ticked timestamp).emitCancel generator.nextSeq chosen last idx).Faultless := by
  have removed := removed_perm there final
  obtain ⟨gone, rest⟩ := List.nodup_cons.mp (removed.nodup_iff.mp faultless.distinct)
  refine faultless.writes rfl rfl rfl rfl (fun cells stand => ?_) rest
    fun order member => faultless.fresh order (removed.mem_iff.mpr (List.mem_cons_of_mem _ member))
  refine ⟨(stand _ _).mpr (removed.mem_iff.mpr List.mem_cons_self), fun id orderId => ?_⟩
  refine (cancelOrder_full _ id orderId).trans ?_
  show _ ↔ _ ∈ (generator.openOrders.set idx last).dropLast
  rw [stand, removed.mem_iff, List.mem_cons]
  constructor
  · intro both
    exact both.1.resolve_left fun same => both.2 (same ▸ ⟨rfl, rfl⟩)
  · intro stays
    refine ⟨Or.inr stays, fun same => gone ?_⟩
    obtain ⟨rfl, rfl⟩ := same
    exact stays

theorem Faultless.emitModify (faultless : generator.Faultless) (timestamp : Nat) (mid : Int) {chosen : OpenOrder} {idx : Nat}
    (there : generator.openOrders[idx]? = some chosen) :
    ((generator.ticked timestamp).emitModify draw generator.nextSeq mid chosen).Faultless := by
  refine faultless.writes rfl rfl rfl rfl (fun cells stand => ?_) faultless.distinct faultless.fresh
  have full := (stand chosen.instrumentId chosen.orderId).mpr (List.mem_of_getElem? there)
  refine ⟨⟨atLeast_pos _, quantityDist_ne_zero draw, full⟩, fun id orderId => ?_⟩
  exact (modifyOrder_full full id orderId).trans (stand id orderId)

theorem Faultless.emitTrade (faultless : generator.Faultless) (timestamp : Nat) (mid : Int) :
    ((generator.ticked timestamp).emitTrade draw instruments generator.nextSeq mid).Faultless :=
  faultless.writes rfl rfl rfl rfl (fun _ stand => ⟨trivial, stand⟩) faultless.distinct faultless.fresh

theorem Faultless.emitClear (faultless : generator.Faultless) (timestamp : Nat) :
    ((generator.ticked timestamp).emitClear draw instruments generator.nextSeq).Faultless := by
  refine faultless.writes rfl rfl rfl rfl (fun cells stand => ⟨trivial, fun id orderId => ?_⟩)
    (faultless.distinct.filter _) fun order member => faultless.fresh order (List.mem_of_mem_filter member)
  refine (clearBook_full _ id orderId).trans ?_
  show _ ↔ _ ∈ generator.openOrders.filter _
  rw [List.mem_filter, stand, decide_eq_true_iff, ne_comm]

/-- What a round can be: one of the five kinds, with an order to choose where it needs one and the price it looks up. -/
inductive Emits (generator : FeedGenerator) (draw : Draw) (instruments : Nat) : FeedGenerator → Prop where
  | cancel (chosen last : OpenOrder) (idx : Nat) (there : generator.openOrders[idx]? = some chosen)
      (final : generator.openOrders.getLast? = some last) : Emits generator draw instruments
        ((generator.ticked (generator.timestamp + draw.timestampStepDist)).emitCancel generator.nextSeq chosen last idx)
  | modify (chosen : OpenOrder) (idx : Nat) (there : generator.openOrders[idx]? = some chosen) (mid : Int)
      (priced : generator.midPrice[chosen.instrumentId]? = some mid) : Emits generator draw instruments
        ((generator.ticked (generator.timestamp + draw.timestampStepDist)).emitModify draw generator.nextSeq mid chosen)
  | trade (mid : Int) (priced : generator.midPrice[draw.instrumentDist instruments]? = some mid) :
      Emits generator draw instruments
        ((generator.ticked (generator.timestamp + draw.timestampStepDist)).emitTrade draw instruments generator.nextSeq mid)
  | clear : Emits generator draw instruments
      ((generator.ticked (generator.timestamp + draw.timestampStepDist)).emitClear draw instruments generator.nextSeq)
  | add (mid : Int) (priced : generator.midPrice[draw.instrumentDist instruments]? = some mid) :
      Emits generator draw instruments
        ((generator.ticked (generator.timestamp + draw.timestampStepDist)).emitAdd draw instruments generator.nextSeq mid)

theorem round_emits (rounded : generator.round draw instruments = some next) : Emits generator draw instruments next := by
  unfold FeedGenerator.round at rounded
  dsimp only at rounded
  split at rounded
  · rename_i there final
    exact Option.some.inj rounded ▸ .cancel _ _ _ there final
  · rename_i there
    obtain ⟨mid, priced, rfl⟩ := Option.map_eq_some_iff.mp rounded
    exact .modify _ _ there mid priced
  · obtain ⟨mid, priced, rfl⟩ := Option.map_eq_some_iff.mp rounded
    exact .trade mid priced
  · exact Option.some.inj rounded ▸ .clear
  · obtain ⟨mid, priced, rfl⟩ := Option.map_eq_some_iff.mp rounded
    exact .add mid priced

/-- A round whose instruments are in the vector does not fail. -/
theorem round_isSome (drawn : draw.instrumentDist instruments < generator.midPrice.length)
    (opened : ∀ order ∈ generator.openOrders, order.instrumentId < generator.midPrice.length) :
    ∃ next, generator.round draw instruments = some next := by
  obtain ⟨mid, priced⟩ : ∃ mid, generator.midPrice[draw.instrumentDist instruments]? = some mid :=
    ⟨_, List.getElem?_eq_getElem drawn⟩
  unfold FeedGenerator.round
  dsimp only
  split
  · exact ⟨_, rfl⟩
  · rename_i there
    have known := opened _ (List.mem_of_getElem? there)
    rw [List.getElem?_eq_getElem known]
    exact ⟨_, rfl⟩
  · rw [priced]
    exact ⟨_, rfl⟩
  · exact ⟨_, rfl⟩
  · rw [priced]
    exact ⟨_, rfl⟩

/-- Every round keeps the feed faultless. -/
theorem Faultless.round (faultless : generator.Faultless) (emits : Emits generator draw instruments next) :
    next.Faultless := by
  cases emits with
  | cancel chosen last idx there final => exact faultless.emitCancel _ there final
  | modify chosen idx there mid => exact faultless.emitModify _ mid there
  | trade mid => exact faultless.emitTrade _ mid
  | clear => exact faultless.emitClear _
  | add mid => exact faultless.emitAdd _ mid

theorem Emits.addsEmitted (emits : Emits generator draw instruments next) :
    next.addsEmitted ≤ generator.addsEmitted + 1 := by
  cases emits with
  | add => exact Nat.le_refl _
  | cancel | modify | trade | clear => exact Nat.le_succ _

theorem start_eq (few : instruments + 1 < 2 ^ 32) : start instruments =
    some { midPrice := 0 :: (List.range' 1 instruments).map fun id : Nat => 100000 + (id : Int) * 1000 } := by
  unfold start
  rw [Nat.mod_eq_of_lt few, if_pos (Nat.lt_succ_self _)]

theorem start_faultless (prices : List Int) : ({ midPrice := prices } : FeedGenerator).Faultless :=
  ⟨rfl, rfl, rfl, rfl, ⟨_, start_holds, fun _ _ => iff_of_false (fun full => full rfl) List.not_mem_nil⟩, List.nodup_nil, nofun⟩

/-- The loop keeps it, and stops at the number of orders asked for. -/
theorem Faultless.generate (faultless : generator.Faultless) {orders : Nat} (few : generator.addsEmitted ≤ orders)
    {draws : List Draw} {last : FeedGenerator} (ended : generate instruments orders generator draws = some last) :
    last.Faultless ∧ last.addsEmitted ≤ orders := by
  induction draws generalizing generator with
  | nil =>
    obtain rfl := Option.some.inj ended
    exact ⟨faultless, few⟩
  | cons draw draws ih =>
    unfold FeedGenerator.generate at ended
    split_ifs at ended with more
    · obtain ⟨next, rounded, rest⟩ := Option.bind_eq_some_iff.mp ended
      have emits := round_emits rounded
      have one := emits.addsEmitted
      exact ih (faultless.round emits) (by omega) rest
    · obtain rfl := Option.some.inj ended
      exact ⟨faultless, few⟩

end Rounds

section Ranges
variable {generator next : FeedGenerator} {draw : Draw} {instruments rounds : Nat}

/-- How far everything can have got after a number of rounds. -/
structure Bounded (instruments rounds : Nat) (generator : FeedGenerator) : Prop where
  timestamp : generator.timestamp ≤ 1000000000 + 1000 * rounds
  nextSeq : generator.nextSeq = rounds + 1
  nextOrderId : generator.nextOrderId ≤ rounds + 1
  places : generator.midPrice.length = instruments + 1
  midPrice : ∀ (id : Nat) (mid : Int), generator.midPrice[id]? = some mid → 0 ≤ mid ∧ mid ≤ 100000 + id * 1000 + 50 * rounds
  openOrders : ∀ order ∈ generator.openOrders, order.instrumentId ≤ instruments ∧ order.orderId ≤ rounds
  fits : ∀ event ∈ generator.written, event.Representable

theorem atLeast_bounds {price high : Int} (below : price ≤ high) (room : 100 ≤ high) :
    0 ≤ atLeast price ∧ atLeast price ≤ high := by
  unfold atLeast
  split_ifs <;> omega

theorem draw_bounds (draw : Draw) (some : 0 < instruments) :
    draw.timestampStepDist ≤ 1000 ∧ draw.quantityDist ≤ 100 ∧ draw.priceJitterDist ≤ 50 ∧
      draw.instrumentDist instruments ≤ instruments := by
  have below := Nat.mod_lt draw.instrument some
  have instrument : 1 + draw.instrument % instruments ≤ instruments := by omega
  unfold Draw.timestampStepDist Draw.quantityDist Draw.priceJitterDist
  exact ⟨by omega, by omega, by omega, instrument⟩

/-- A price that has come no further than the rounds allow is a 64-bit number. -/
theorem price_inRange {id : Nat} (known : id < 2 ^ 32) (fewRounds : rounds < 2 ^ 54) {price : Int}
    (bounds : 0 ≤ price ∧ price ≤ 100000 + id * 1000 + 50 * (rounds + 1 : Nat)) : Rounding.InRange price := by
  unfold Rounding.InRange
  omega

theorem Bounded.round (bounded : generator.Bounded instruments rounds) (one : 0 < instruments)
    (fewInstruments : instruments < 2 ^ 32) (fewRounds : rounds < 2 ^ 54) (emits : Emits generator draw instruments next) :
    next.Bounded instruments (rounds + 1) := by
  obtain ⟨timestamp, nextSeq, nextOrderId, places, midPrice, openOrders, fits⟩ := bounded
  obtain ⟨stepMost, quantityMost, jitterMost, instrumentMost⟩ := draw_bounds draw one
  have time : generator.timestamp + draw.timestampStepDist ≤ 1000000000 + 1000 * (rounds + 1) := by omega
  have seq : generator.nextSeq < 2 ^ 64 := by omega
  have clock : generator.timestamp + draw.timestampStepDist < 2 ^ 64 := by omega
  have prices : ∀ (id : Nat) (mid : Int), generator.midPrice[id]? = some mid →
      0 ≤ mid ∧ mid ≤ 100000 + id * 1000 + 50 * (rounds + 1 : Nat) := by
    intro id mid priced
    have before := midPrice id mid priced
    omega
  have quoted : ∀ (id : Nat) (mid : Int), generator.midPrice[id]? = some mid → 0 ≤ atLeast (mid + draw.priceJitterDist) ∧
      atLeast (mid + draw.priceJitterDist) ≤ 100000 + id * 1000 + 50 * (rounds + 1 : Nat) := by
    intro id mid priced
    have before := midPrice id mid priced
    exact atLeast_bounds (by omega) (by omega)
  have later : ∀ order ∈ generator.openOrders, order.instrumentId ≤ instruments ∧ order.orderId ≤ rounds + 1 := by
    intro order member
    have before := openOrders order member
    exact ⟨before.1, Nat.le_succ_of_le before.2⟩
  have extended : ∀ event : WireEvent, event.Representable → ∀ other ∈ generator.written ++ [event], other.Representable := by
    intro event good other member
    rcases List.mem_append.mp member with before | last
    · exact fits other before
    · rw [List.mem_singleton.mp last]
      exact good
  have drawn : draw.instrumentDist instruments < 2 ^ 32 := instrumentMost.trans_lt fewInstruments
  have quantity : draw.quantityDist < 2 ^ 64 := quantityMost.trans_lt (by omega)
  cases emits with
  | cancel chosen last idx there final =>
    have open_ := later chosen (List.mem_of_getElem? there)
    have removed := removed_perm there final
    refine ⟨time, congrArg (· + 1) nextSeq, Nat.le_succ_of_le nextOrderId, places, prices, fun order member => ?_, extended _ ?_⟩
    · exact later order (removed.mem_iff.mpr (List.mem_cons_of_mem _ member))
    · exact ⟨seq, clock, open_.2.trans_lt (by omega), open_.1.trans_lt fewInstruments⟩
  | modify chosen idx there mid priced =>
    have open_ := later chosen (List.mem_of_getElem? there)
    have known : chosen.instrumentId < 2 ^ 32 := open_.1.trans_lt fewInstruments
    refine ⟨time, congrArg (· + 1) nextSeq, Nat.le_succ_of_le nextOrderId, places, prices, later, extended _ ?_⟩
    exact ⟨seq, clock, open_.2.trans_lt (by omega), known, price_inRange known fewRounds (quoted _ mid priced), quantity⟩
  | trade mid priced =>
    refine ⟨time, congrArg (· + 1) nextSeq, Nat.le_succ_of_le nextOrderId, places, prices, later, extended _ ?_⟩
    exact ⟨seq, clock, drawn, price_inRange drawn fewRounds (prices _ mid priced), quantity⟩
  | clear =>
    refine ⟨time, congrArg (· + 1) nextSeq, Nat.le_succ_of_le nextOrderId, places, prices, fun order member => ?_, extended _ ?_⟩
    · exact later order (List.mem_of_mem_filter member)
    · exact ⟨seq, clock, drawn⟩
  | add mid priced =>
    refine ⟨time, congrArg (· + 1) nextSeq, Nat.succ_le_succ nextOrderId, List.length_set.trans places, fun id price set => ?_,
      fun order member => ?_, extended _ ?_⟩
    · by_cases here : draw.instrumentDist instruments = id
      · subst here
        have inside : draw.instrumentDist instruments < generator.midPrice.length := (List.getElem?_eq_some_iff.mp priced).1
        rw [← Option.some.inj ((List.getElem?_set_self inside).symm.trans set)]
        exact quoted _ mid priced
      · exact prices id price ((List.getElem?_set_ne here).symm.trans set)
    · rcases List.mem_append.mp member with before | last
      · exact later order before
      · rw [List.mem_singleton.mp last]
        exact ⟨instrumentMost, nextOrderId⟩
    · exact ⟨seq, clock, nextOrderId.trans_lt (by omega), drawn, price_inRange drawn fewRounds (quoted _ mid priced), quantity⟩

theorem start_bounded (few : instruments + 1 < 2 ^ 32) :
    ∃ generator, start instruments = some generator ∧ generator.Faultless ∧ generator.addsEmitted = 0 ∧
      generator.Bounded instruments 0 := by
  refine ⟨_, start_eq few, start_faultless _, rfl, Nat.le_refl _, rfl, Nat.le_refl _, ?_, fun id mid priced => ?_, nofun, nofun⟩
  · rw [List.length_cons, List.length_map, List.length_range']
  · cases id with
    | zero =>
      obtain rfl := Option.some.inj priced
      omega
    | succ id =>
      rw [List.getElem?_cons_succ, List.getElem?_map] at priced
      obtain ⟨listed, there, rfl⟩ := Option.map_eq_some_iff.mp priced
      obtain ⟨_, rfl⟩ := List.getElem?_eq_some_iff.mp there
      rw [List.getElem_range']
      omega

/-- The loop does not fail, and goes one round at most for each draw. -/
theorem Bounded.generate (bounded : generator.Bounded instruments rounds) (one : 0 < instruments)
    (fewInstruments : instruments < 2 ^ 32) {orders : Nat} (draws : List Draw)
    (fewRounds : rounds + draws.length ≤ 2 ^ 54) :
    ∃ last, generate instruments orders generator draws = some last ∧
      ∃ reached ≤ rounds + draws.length, last.Bounded instruments reached := by
  induction draws generalizing generator rounds with
  | nil => exact ⟨generator, rfl, rounds, Nat.le_refl _, bounded⟩
  | cons draw draws ih =>
    rw [List.length_cons] at fewRounds ⊢
    unfold FeedGenerator.generate
    split_ifs
    · have drawn : draw.instrumentDist instruments < generator.midPrice.length :=
        bounded.places ▸ Nat.lt_succ_of_le (draw_bounds draw one).2.2.2
      have opened : ∀ order ∈ generator.openOrders, order.instrumentId < generator.midPrice.length := fun order member =>
        bounded.places ▸ Nat.lt_succ_of_le (bounded.openOrders order member).1
      obtain ⟨next, rounded⟩ := round_isSome drawn opened
      obtain ⟨last, ended, reached, within, after⟩ :=
        ih (bounded.round one fewInstruments (by omega) (round_emits rounded)) (by omega)
      rw [rounded]
      exact ⟨last, ended, reached, by omega, after⟩
    · exact ⟨generator, rfl, rounds, Nat.le_add_right .., bounded⟩

end Ranges

end FeedGenerator

section Replayed
variable {options : ReplayOptions} {files : String → Option (List UInt8)}

/-- A frame whose number comes next is applied, whatever the options are. -/
theorem applyFrameResult_next {event : WireEvent} {replay : Replay}
    (next : ∀ last, replay.validator.lastSeen = some last → event.sequenceNumber = (last + 1) % 2 ^ 64) :
    applyFrameResult options { frame := .ok event, files } replay =
      ({ validator := { lastSeen := some event.sequenceNumber }, outcome := replay.outcome.apply event }, false) := by
  have checked : replay.validator.check64 event.sequenceNumber =
      ({ lastSeen := some event.sequenceNumber }, { outcome := .inOrder, observed := event.sequenceNumber }) := by
    unfold SequenceValidator.check64
    cases seen : replay.validator.lastSeen with
    | none => rfl
    | some last => exact if_pos (next last seen)
  unfold applyFrameResult
  dsimp only
  rw [checked, if_pos rfl]

/-- Events numbered on from where a replay stands are applied one by one. -/
theorem replayLoop_inOrder {events : List WireEvent} {start : Nat}
    (numbers : events.map WireEvent.sequenceNumber = List.range' start events.length)
    (room : start + events.length ≤ 2 ^ 64) {replay : Replay}
    (next : ∀ last, replay.validator.lastSeen = some last → last + 1 = start) :
    (replayLoop options (arrivalsWith files (events.map .ok)) replay).outcome =
      events.foldl ReplayOutcome.apply replay.outcome := by
  induction events generalizing start replay with
  | nil => rfl
  | cons event events ih =>
    rw [List.map_cons, List.length_cons, List.range'_succ, List.cons.injEq] at numbers
    rw [List.length_cons] at room
    have here : ∀ last, replay.validator.lastSeen = some last → event.sequenceNumber = (last + 1) % 2 ^ 64 := by
      intro last seen
      rw [numbers.1, next last seen, Nat.mod_eq_of_lt (by omega)]
    rw [List.map_cons, arrivalsWith, List.map_cons, replayLoop, applyFrameResult_next here]
    apply ih numbers.2 (by omega)
    intro last seen
    rw [← Option.some.inj seen, numbers.1]

/-- The outcome of events that are all applied. -/
theorem foldl_apply (events : List WireEvent) (outcome : ReplayOutcome) :
    let after := events.foldl ReplayOutcome.apply outcome
    applyAll events outcome.books outcome.stats.toReplayStats = (after.books, after.stats.toReplayStats) ∧
      after.stats.messagesProcessed = outcome.stats.messagesProcessed + events.length ∧
      after.stats.decodeFailures = outcome.stats.decodeFailures ∧
      after.stats.sequenceFailures = outcome.stats.sequenceFailures ∧
      after.stoppedEarly = outcome.stoppedEarly := by
  induction events generalizing outcome with
  | nil => exact ⟨rfl, rfl, rfl, rfl, rfl⟩
  | cons event events ih =>
    obtain ⟨applied, processed, rest⟩ := ih (outcome.apply event)
    refine ⟨applied, ?_, rest⟩
    calc ((event :: events).foldl ReplayOutcome.apply outcome).stats.messagesProcessed
      _ = outcome.stats.messagesProcessed + 1 + events.length := processed
      _ = outcome.stats.messagesProcessed + (event :: events).length := by
        rw [List.length_cons]
        omega

end Replayed

namespace FeedGenerator
section Generated

/-- A generated file is replayed to its end under any options, with no event in error, and leaves
just the orders open that the generator holds open. -/
theorem generated_replays_clean (options : ReplayOptions) (files : String → Option (List UInt8)) (inputPath : String)
    {instruments : Nat} (one : 0 < instruments) (fewInstruments : instruments + 1 < 2 ^ 32) (orders : Nat)
    {draws : List Draw} (fewDraws : draws.length ≤ 2 ^ 54) :
    ∃ generator, generated instruments orders draws = some generator ∧
      let outcome := runReplay options inputPath (some (arrivalsWith files (readFrames generator.file)))
      outcome.stoppedEarly = false ∧ outcome.stats.decodeFailures = 0 ∧ outcome.stats.sequenceFailures = 0 ∧
        outcome.stats.bookErrors = 0 ∧ outcome.stats.messagesProcessed = generator.nextSeq - 1 ∧
        outcome.stats.adds = generator.addsEmitted ∧ generator.addsEmitted ≤ orders ∧
        ∀ id orderId, orderId ∈ (outcome.books.bookFor id).orderIndex ↔
          { instrumentId := id, orderId : OpenOrder } ∈ generator.openOrders := by
  obtain ⟨first, started, faultless, unadded, bounds⟩ := start_bounded fewInstruments
  obtain ⟨generator, ended, reached, within, bounded⟩ := bounds.generate one (by omega) draws (by omega)
  obtain ⟨⟨numbers, nextSeq, clean, adds, ⟨cells, holds, stand⟩, _, _⟩, few⟩ :=
    faultless.generate (unadded.trans_le (Nat.zero_le orders)) ended
  refine ⟨generator, ?_, ?_⟩
  · rw [generated, started]
    exact ended
  intro outcome
  have rounds : generator.nextSeq = reached + 1 := bounded.nextSeq
  have frames : readFrames generator.file = generator.written.map .ok := readFrames_encoded bounded.fits
  have replayed : outcome = generator.written.foldl ReplayOutcome.apply {} := by
    show (replayLoop options (arrivalsWith files (readFrames generator.file)) {}).outcome = _
    rw [frames]
    exact replayLoop_inOrder numbers (by omega) nofun
  obtain ⟨applied, processed, decodes, failures, going⟩ := foldl_apply generator.written {}
  rw [← replayed] at applied processed decodes failures going
  have books : (applyAll generator.written {} {}).1 = outcome.books := congrArg Prod.fst applied
  have counts : (applyAll generator.written {} {}).2 = outcome.stats.toReplayStats := congrArg Prod.snd applied
  rw [books] at holds
  rw [counts] at clean adds
  refine ⟨going, decodes, failures, clean, ?_, adds, few, fun id orderId => ?_⟩
  · calc outcome.stats.messagesProcessed
      _ = 0 + generator.written.length := processed
      _ = generator.nextSeq - 1 := by omega
  · calc orderId ∈ (outcome.books.bookFor id).orderIndex
      _ ↔ cells id orderId ≠ none := (holds id).mem_index orderId
      _ ↔ _ := stand id orderId

/-- A draw that picks the kind and the order, and has 0 for the rest. -/
def drawOf (kind index : Nat) : Draw :=
  { timestampStep := 0, eventKind := kind, instrument := 0, side := 0, priceJitter := 0, quantity := 0, index }

/-- An order is added, modified and cancelled, and another one is added. -/
theorem generated_replays_clean_four :
    ∃ generator, generated 1 2 [drawOf 0 0, drawOf 90 0, drawOf 80 0, drawOf 0 0] = some generator ∧
      let outcome := runReplay {} "feed.bin" (some (arrivalsWith (fun _ => none) (readFrames generator.file)))
      outcome.stats.messagesProcessed = 4 ∧ outcome.stats.adds = 2 ∧ 2 ∈ (outcome.books.bookFor 1).orderIndex := by
  have fewDraws : [drawOf 0 0, drawOf 90 0, drawOf 80 0, drawOf 0 0].length ≤ 2 ^ 54 := by decide
  obtain ⟨generator, ended, _, _, _, _, processed, adds, _, openOrders⟩ :=
    generated_replays_clean {} (fun _ => none) "feed.bin" Nat.one_pos (by decide) 2 fewDraws
  have comes : (generated 1 2 [drawOf 0 0, drawOf 90 0, drawOf 80 0, drawOf 0 0]).map (fun generator =>
      (generator.nextSeq, generator.addsEmitted, generator.openOrders)) = some (5, 2, [⟨1, 2⟩]) := by decide
  rw [ended, Option.map_some, Option.some.injEq, Prod.mk.injEq, Prod.mk.injEq] at comes
  obtain ⟨nextSeq, added, open_⟩ := comes
  refine ⟨generator, ended, processed.trans (congrArg (· - 1) nextSeq), adds.trans added, (openOrders 1 2).mpr ?_⟩
  rw [open_]
  exact List.mem_cons_self

end Generated
end FeedGenerator

end Mdh.Feed
