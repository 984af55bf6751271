import Mdh.Feed.MarketDataPublisher
import Mdh.Feed.OrderBookContents
import Mdh.Lib.KeyedStore

/-! The subscriber: its books, one for each instrument it has heard of, the check of
sequence numbers, and the application of one message of the feed. -/

namespace Mdh.Feed
open Mdh.Core Mdh.Lib Mdh.Lib.KeyedStore

inductive SequenceOutcome where
  | inOrder
  | duplicate
  | outOfOrder
  | missing
  deriving DecidableEq, Repr

structure SequenceCheck where
  outcome : SequenceOutcome
  observed : Nat
  expected : Nat := 0
  deriving DecidableEq, Repr

structure SequenceValidator where
  lastSeen : Option Nat := none
  deriving DecidableEq, Repr

/-- A gap is reported once: the number after it is the next baseline. -/
def SequenceValidator.check (validator : SequenceValidator) (seq : Nat) : SequenceValidator × SequenceCheck :=
  match validator.lastSeen with
  | none => ({ lastSeen := some seq }, { outcome := .inOrder, observed := seq })
  | some last =>
      if seq = last + 1 then ({ lastSeen := some seq }, { outcome := .inOrder, observed := seq })
      else if seq = last then (validator, { outcome := .duplicate, observed := seq })
      else if seq < last then (validator, { outcome := .outOfOrder, observed := seq })
      else ({ lastSeen := some seq }, { outcome := .missing, observed := seq, expected := last + 1 })

/-- Every number of a stretch, classified. -/
def SequenceValidator.checkAll (validator : SequenceValidator) : List Nat → SequenceValidator × List SequenceCheck
  | [] => (validator, [])
  | seq :: rest =>
      let (validator, result) := validator.check seq
      let (validator, results) := validator.checkAll rest
      (validator, result :: results)

structure InstrumentStats where
  tradeCount : Nat := 0
  tradedQuantity : Nat := 0
  lastTradePrice : Int := 0
  deriving DecidableEq, Repr, Inhabited

structure BookManager where
  books : Store InstrumentId OrderBook := ∅
  stats : Store InstrumentId InstrumentStats := ∅

namespace BookManager

/-- The book of an instrument, which is made empty on first reference. -/
def bookFor (manager : BookManager) (id : InstrumentId) : OrderBook := valueAt manager.books id

/-- Runs an operation on the book of an instrument. -/
def onBook (manager : BookManager) (id : InstrumentId) (operation : OrderBook → OrderBook × Option BookError) :
    BookManager × Option BookError :=
  ({ manager with books := modifyAt manager.books id fun book => (operation book).1 },
    (operation (manager.bookFor id)).2)

def recordTrade (manager : BookManager) (id : InstrumentId) (price : Int) (quantity : Nat) : BookManager :=
  { manager with stats := modifyAt manager.stats id fun stats =>
      { tradeCount := stats.tradeCount + 1
        tradedQuantity := (stats.tradedQuantity + quantity) % 2 ^ 64
        lastTradePrice := price } }

end BookManager

/-- What applying messages counts. -/
structure ReplayStats where
  adds : Nat := 0
  cancels : Nat := 0
  modifies : Nat := 0
  trades : Nat := 0
  clears : Nat := 0
  bookErrors : Nat := 0
  deriving DecidableEq, Repr

def ReplayStats.record (stats : ReplayStats) (error : Option BookError) : ReplayStats :=
  if error.isSome then { stats with bookErrors := stats.bookErrors + 1 } else stats

def applyEvent (event : WireEvent) (books : BookManager) (stats : ReplayStats) : BookManager × ReplayStats :=
  match event with
  | .addOrder message =>
      let stats := { stats with adds := stats.adds + 1 }
      let (books, error) := books.onBook message.instrumentId fun book =>
        book.addOrder message.orderId message.price message.quantity message.side
      (books, stats.record error)
  | .cancelOrder message =>
      let stats := { stats with cancels := stats.cancels + 1 }
      let (books, error) := books.onBook message.instrumentId fun book => book.cancelOrder message.orderId
      (books, stats.record error)
  | .modifyOrder message =>
      let stats := { stats with modifies := stats.modifies + 1 }
      let (books, error) := books.onBook message.instrumentId fun book =>
        book.modifyOrder message.orderId message.newPrice message.newQuantity
      (books, stats.record error)
  | .trade message =>
      (books.recordTrade message.instrumentId message.price message.quantity, { stats with trades := stats.trades + 1 })
  | .clearBook message =>
      ((books.onBook message.instrumentId fun book => (book.clear, none)).1, { stats with clears := stats.clears + 1 })

/-- A stretch of messages applied in order. -/
def applyAll (events : List WireEvent) (books : BookManager) (stats : ReplayStats) : BookManager × ReplayStats :=
  events.foldl (fun (books, stats) event => applyEvent event books stats) (books, stats)

section Facts

/-- Consecutive numbers are all in order. The first of them is, whatever it is. -/
theorem checkAll_consecutive (count start : Nat) (validator : SequenceValidator)
    (ready : ∀ last, validator.lastSeen = some last → start = last + 1) :
    ∀ result ∈ (validator.checkAll (List.range' start count)).2, result.outcome = .inOrder := by
  induction count generalizing start validator with
  | zero =>
    intro result member
    cases member
  | succ count ih =>
    have checked : validator.check start = ({ lastSeen := some start }, { outcome := .inOrder, observed := start }) := by
      unfold SequenceValidator.check
      cases seen : validator.lastSeen with
      | none => rfl
      | some last => exact if_pos (ready last seen)
    rw [List.range'_succ, SequenceValidator.checkAll, checked]
    intro result member
    rcases List.mem_cons.mp member with rfl | later
    · rfl
    · refine ih (start + 1) { lastSeen := some start } (fun last seen => ?_) result later
      rw [Option.some.inj seen]

theorem bookFor_onBook (manager : BookManager) (id other : InstrumentId)
    (operation : OrderBook → OrderBook × Option BookError) :
    (manager.onBook id operation).1.bookFor other =
      if other = id then (operation (manager.bookFor id)).1 else manager.bookFor other :=
  valueAt_modifyAt manager.books id other _

end Facts

end Mdh.Feed
