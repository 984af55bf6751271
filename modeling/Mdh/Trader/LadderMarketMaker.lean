import Mdh.Trader.QuotePlans

/-! The ladder market maker: levels of quotes on each side of a reference price, which are all driven to
their prices in every cycle, the side that moves away first. -/

namespace Mdh.Trader
open Mdh.Core Mdh.Gateway

structure LadderMarketMakerConfig where
  instrumentId : InstrumentId := 1
  levelsPerSide : Nat := 2
  halfSpread : Int := 100
  levelSpacing : Int := 100
  quoteSize : Nat := 100
  maxPosition : Int := 2000
  requoteThreshold : Int := 100
  deriving DecidableEq, Repr

/-- The quotes of each side, nearest first, and where the reference price was last. -/
structure LadderMarketMaker where
  config : LadderMarketMakerConfig
  reference : Int
  bids : List RestingQuote
  asks : List RestingQuote
  deriving DecidableEq, Repr

namespace LadderMarketMaker

def make (config : LadderMarketMakerConfig) (reference : Int) : LadderMarketMaker where
  config
  reference
  bids := List.replicate config.levelsPerSide {
    instrumentId := config.instrumentId
    side := .buy
    size := config.quoteSize
    requoteThreshold := config.requoteThreshold }
  asks := List.replicate config.levelsPerSide {
    instrumentId := config.instrumentId
    side := .sell
    size := config.quoteSize
    requoteThreshold := config.requoteThreshold }

variable (ladder : LadderMarketMaker)

def bidPriceFor (level : Nat) (reference : Int) : Int :=
  reference - ladder.config.halfSpread - level * ladder.config.levelSpacing

def askPriceFor (level : Nat) (reference : Int) : Int :=
  reference + ladder.config.halfSpread + level * ladder.config.levelSpacing

/-- Drives the quotes of a side, from a level on; gives how many requests went out. -/
def updateLevels (round : Rounding) (limits : TraderRiskLimits) (desired : Nat → Option Int) (sent : Nat → Bool) :
    Nat → List RestingQuote → Client → Client × List RestingQuote × Nat
  | _, [], client => (client, [], 0)
  | level, quote :: rest, client =>
      let (client, quote, requested) := quote.update round limits client (desired level) (sent level)
      let (client, rest, count) := updateLevels round limits desired sent (level + 1) rest client
      (client, quote :: rest, requested.toNat + count)

def desiredBid (position reference : Int) (level : Nat) : Option Int :=
  if position ≥ ladder.config.maxPosition then none else some (ladder.bidPriceFor level reference)

def desiredAsk (position reference : Int) (level : Nat) : Option Int :=
  if position ≤ -ladder.config.maxPosition then none else some (ladder.askPriceFor level reference)

/-- One cycle, in which the reference price has moved. Gives how many requests went out. -/
def onQuoteCycle (round : Rounding) (limits : TraderRiskLimits) (client : Client) (reference position : Int)
    (sent : Side → Nat → Bool) : Client × LadderMarketMaker × Nat :=
  let updateBids := updateLevels round limits (ladder.desiredBid position reference) (sent .buy) 0 ladder.bids
  let updateAsks := updateLevels round limits (ladder.desiredAsk position reference) (sent .sell) 0 ladder.asks
  if reference ≥ ladder.reference then
    let (client, asks, askCount) := updateAsks client
    let (client, bids, bidCount) := updateBids client
    (client, { ladder with reference, bids, asks }, askCount + bidCount)
  else
    let (client, bids, bidCount) := updateBids client
    let (client, asks, askCount) := updateAsks client
    (client, { ladder with reference, bids, asks }, bidCount + askCount)

end LadderMarketMaker

/-- What a cycle reads: the next reference price and the net position. -/
structure QuoteCycle where
  reference : Int
  position : Int
  deriving DecidableEq, Repr

namespace LadderMarketMaker

section Steps
variable (round : Rounding) (limits : TraderRiskLimits) (ladder : LadderMarketMaker)

def quotes : Side → List RestingQuote
  | .buy => ladder.bids
  | .sell => ladder.asks

def setQuotes (side : Side) (quotes : List RestingQuote) : LadderMarketMaker :=
  match side with
  | .buy => { ladder with bids := quotes }
  | .sell => { ladder with asks := quotes }

def desiredPrice (cycle : QuoteCycle) : Side → Nat → Option Int
  | .buy => ladder.desiredBid cycle.position cycle.reference
  | .sell => ladder.desiredAsk cycle.position cycle.reference

/-- The side that is driven first. -/
def leading (reference : Int) : Side := if reference ≥ ladder.reference then .sell else .buy

def targets (cycle : QuoteCycle) (side : Side) : List Target :=
  (List.range (ladder.quotes side).length).map fun level => { level, desiredPrice := ladder.desiredPrice cycle side level }

def planCycle (cycle : QuoteCycle) : QuotePlan where
  lead := ladder.leading cycle.reference
  first := ladder.targets cycle (ladder.leading cycle.reference)
  second := ladder.targets cycle (ladder.leading cycle.reference).contra

def driveQuote (side : Side) (target : Target) (sent : Bool) (client : Client) : Client × LadderMarketMaker :=
  match (ladder.quotes side)[target.level]? with
  | none => (client, ladder)
  | some quote =>
      let (client, quote, _) := quote.update round limits client target.desiredPrice sent
      (client, ladder.setQuotes side ((ladder.quotes side).set target.level quote))

end Steps

def quoter (round : Rounding) (limits : TraderRiskLimits) : Quoter LadderMarketMaker QuoteCycle where
  plan cycle _ ladder := ({ ladder with reference := cycle.reference }, ladder.planCycle cycle)
  drive side target sent client ladder := ladder.driveQuote round limits side target sent client

section AtOnce
variable {round : Rounding} {limits : TraderRiskLimits} {ladder : LadderMarketMaker} {side : Side}

@[simp] theorem quotes_setQuotes_self {quotes : List RestingQuote} : (ladder.setQuotes side quotes).quotes side = quotes := by
  cases side <;> rfl

@[simp] theorem quotes_setQuotes_contra (quotes : List RestingQuote) :
    (ladder.setQuotes side quotes).quotes side.contra = ladder.quotes side.contra := by
  cases side <;> rfl

@[simp] theorem setQuotes_setQuotes (first second : List RestingQuote) :
    (ladder.setQuotes side first).setQuotes side second = ladder.setQuotes side second := by
  cases side <;> rfl

@[simp] theorem setQuotes_quotes : ladder.setQuotes side (ladder.quotes side) = ladder := by
  cases side <;> rfl

theorem driveQuote_of_some {level : Nat} {quote : RestingQuote} (there : (ladder.quotes side)[level]? = some quote)
    (desiredPrice : Option Int) (sent : Bool) (client : Client) :
    ladder.driveQuote round limits side { level, desiredPrice } sent client =
      let (client, quote, _) := quote.update round limits client desiredPrice sent
      (client, ladder.setQuotes side ((ladder.quotes side).set level quote)) := by
  unfold driveQuote
  dsimp only
  rw [there]

/-- The levels of a side, driven one by one from one of them on. -/
theorem driveAll_levels (desired : Nat → Option Int) (sent : Nat → Bool) {done left : List RestingQuote}
    (quotes : ladder.quotes side = done ++ left) (client : Client) :
    (quoter round limits).driveAll side sent
        ((List.range' done.length left.length).map fun level => { level, desiredPrice := desired level }) client ladder =
      ((updateLevels round limits desired sent done.length left client).1,
        ladder.setQuotes side (done ++ (updateLevels round limits desired sent done.length left client).2.1)) := by
  induction left generalizing done client ladder with
  | nil =>
    rw [List.append_nil] at quotes
    show (client, ladder) = (client, ladder.setQuotes side (done ++ []))
    rw [List.append_nil, ← quotes, setQuotes_quotes]
  | cons quote rest ih =>
    have here : (ladder.quotes side)[done.length]? = some quote := by
      rw [quotes, List.getElem?_append_right le_rfl, Nat.sub_self]
      rfl
    let updated := quote.update round limits client (desired done.length) (sent done.length)
    have replaced : (ladder.quotes side).set done.length updated.2.1 = done ++ [updated.2.1] ++ rest := by
      rw [quotes, List.set_append_right _ _ le_rfl, Nat.sub_self, List.append_assoc]
      rfl
    have driven : ladder.driveQuote round limits side ⟨done.length, desired done.length⟩ (sent done.length) client =
        (updated.1, ladder.setQuotes side (done ++ [updated.2.1] ++ rest)) := by
      rw [driveQuote_of_some here, ← replaced]
    have later := @ih (ladder.setQuotes side (done ++ [updated.2.1] ++ rest)) (done ++ [updated.2.1]) quotes_setQuotes_self updated.1
    rw [setQuotes_setQuotes, List.length_append, List.length_singleton, ← List.append_cons _ _ (Prod.fst (Prod.snd _))] at later
    show (let (client, memory) := ladder.driveQuote round limits side ⟨done.length, desired done.length⟩ (sent done.length) client
      (quoter round limits).driveAll side sent _ client memory) = _
    rw [driven]
    exact later

theorem driveAll_targets (other : LadderMarketMaker) (same : other.quotes side = ladder.quotes side) (cycle : QuoteCycle)
    (sent : Nat → Bool) (client : Client) :
    (quoter round limits).driveAll side sent (ladder.targets cycle side) client other =
      ((updateLevels round limits (ladder.desiredPrice cycle side) sent 0 (ladder.quotes side) client).1,
        other.setQuotes side (updateLevels round limits (ladder.desiredPrice cycle side) sent 0 (ladder.quotes side) client).2.1) := by
  unfold targets
  rw [List.range_eq_range']
  exact driveAll_levels (ladder.desiredPrice cycle side) sent (show other.quotes side = [] ++ ladder.quotes side from same) client

/-- A cycle is its plan, carried out at once. -/
theorem onQuoteCycle_atOnce (client : Client) (cycle : QuoteCycle) (sent : Side → Nat → Bool) :
    let (after, next, _) := ladder.onQuoteCycle round limits client cycle.reference cycle.position sent
    (quoter round limits).atOnce sent (ladder.planCycle cycle) client { ladder with reference := cycle.reference } =
      (after, next) := by
  have driven {other : LadderMarketMaker} {side : Side} (same : other.quotes side = ladder.quotes side) (client : Client) :=
    @driveAll_targets round limits ladder side other same cycle (sent side) client
  let moved : LadderMarketMaker := { ladder with reference := cycle.reference }
  unfold onQuoteCycle planCycle Quoter.atOnce leading
  dsimp only
  split_ifs with rising
  · rw [@driven moved .sell rfl, @driven (moved.setQuotes .sell _) (Side.contra .sell) rfl]
    rfl
  · rw [@driven moved .buy rfl, @driven (moved.setQuotes .buy _) (Side.contra .buy) rfl]
    rfl

end AtOnce

section Drives
variable {round : Rounding} {limits : TraderRiskLimits} {ladder : LadderMarketMaker} {side : Side}

def orderIds (ladder : LadderMarketMaker) (side : Side) : List (Option ClientOrderId) :=
  (ladder.quotes side).map RestingQuote.orderId

/-- The quotes of the ladder are on their sides, whatever their orders. -/
def Formed (config : LadderMarketMakerConfig) (ladder : LadderMarketMaker) : Prop :=
  ladder.config = config ∧
    ∀ side, ∀ quote ∈ ladder.quotes side, quote.side = side ∧ quote.requoteThreshold = config.requoteThreshold

theorem Formed.make (config : LadderMarketMakerConfig) (reference : Int) : Formed config (make config reference) := by
  refine ⟨rfl, fun side quote member => ?_⟩
  cases side with
  | buy | sell =>
    obtain rfl := List.eq_of_mem_replicate member
    exact ⟨rfl, rfl⟩

theorem orderIds_make (config : LadderMarketMakerConfig) (reference : Int) (side : Side) :
    ∀ orderId ∈ (make config reference).orderIds side, orderId = none := by
  intro orderId member
  obtain ⟨quote, among, rfl⟩ := List.mem_map.mp member
  cases side with
  | buy | sell =>
    obtain rfl := List.eq_of_mem_replicate among
    rfl

theorem orderIds_setQuotes (quotes : List RestingQuote) :
    (ladder.setQuotes side quotes).orderIds = Function.update ladder.orderIds side (quotes.map RestingQuote.orderId) := by
  funext other
  by_cases same : other = side
  · subst same
    rw [Function.update_self]
    exact congrArg (List.map RestingQuote.orderId) quotes_setQuotes_self
  · rw [Function.update_of_ne same, Side.eq_contra_of_ne same]
    exact congrArg (List.map RestingQuote.orderId) (quotes_setQuotes_contra quotes)

theorem Formed.setQuotes {config : LadderMarketMakerConfig} (formed : Formed config ladder) {quotes : List RestingQuote}
    (here : ∀ quote ∈ quotes, quote.side = side ∧ quote.requoteThreshold = config.requoteThreshold) :
    Formed config (ladder.setQuotes side quotes) := by
  refine ⟨?_, fun other quote member => ?_⟩
  · cases side <;> exact formed.1
  · by_cases same : other = side
    · subst same
      rw [quotes_setQuotes_self] at member
      exact here quote member
    · rw [Side.eq_contra_of_ne same, quotes_setQuotes_contra] at member
      obtain ⟨own, threshold⟩ := formed.2 _ quote member
      exact ⟨own.trans (Side.eq_contra_of_ne same).symm, threshold⟩

theorem driveQuote_drove {config : LadderMarketMakerConfig} (formed : Formed config ladder) (target : Target) (sent : Bool)
    (client : Client) : let (after, next) := ladder.driveQuote round limits side target sent client
    Formed config next ∧ Quoter.Drove orderIds config.requoteThreshold side target sent client ladder after next := by
  have ids : (ladder.orderIds side)[target.level]? = (ladder.quotes side)[target.level]?.map RestingQuote.orderId :=
    List.getElem?_map ..
  unfold driveQuote
  cases there : (ladder.quotes side)[target.level]? with
  | none =>
    rw [there] at ids
    exact ⟨formed, .absent ids⟩
  | some quote =>
    rw [there] at ids
    obtain ⟨own, threshold⟩ := formed.2 side quote (List.mem_of_getElem? there)
    have requoted := quote.update_requoted round limits client target.desiredPrice sent
    rw [own] at requoted
    refine ⟨formed.setQuotes fun other member => ?_, .requotes ids (fun order price near => ?_) requoted ?_⟩
    · rcases List.mem_or_eq_of_mem_set member with before | rfl
      · exact formed.2 side other before
      · exact ⟨own, threshold⟩
    · rw [← threshold]
      exact (of_decide_eq_true near).1
    · rw [orderIds_setQuotes, List.map_set]
      rfl

theorem quoter_calls : (quoter round limits).Calls := by
  intro side target sent client ladder
  show ∃ calls, (ladder.driveQuote round limits side target sent client).1 = _
  unfold driveQuote
  cases (ladder.quotes side)[target.level]? with
  | none => exact ⟨[], rfl⟩
  | some quote => exact (quote.update_requoted round limits client target.desiredPrice sent).calls

end Drives

end LadderMarketMaker

end Mdh.Trader
